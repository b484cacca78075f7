import ReplicaWatch.Signals.Feed

/-!
# Where signals come from

A monitor takes its signals from a queue in memory or from a feed of lines; it looks for the next one and closes
the stream in the same way. Nothing comes out of a closed stream (`next_of_isClosed`), and whatever publishers and
writers do, it stays closed (`isClosed_publish`, `isClosed_resume`, `isClosed_withdraw`).
-/

namespace ReplicaWatch

open Monitor

inductive Source
  | queue (q : SignalQueue)
  | feed (f : Feed)

namespace Source

/-- Looks for the next signal. -/
def next : Source → Taken × Source × List Notice
  | queue q =>
    let (taken, q) := q.next
    (taken, queue q, [])
  | feed f =>
    let (taken, f, notices) := f.next
    (taken, feed f, notices)

/-- The reader closes the stream. -/
def close : Source → Source
  | queue q => queue q.close
  | feed f => feed f.close

/-- Whether the reader has closed the stream. -/
def isClosed : Source → Bool
  | queue q => q.isClosed && !q.channel.isOpen
  | feed f => !f.isOpen

/-- How much there is to read at most. -/
def size : Source → Nat
  | queue q => q.size
  | feed f => f.unread.length + 1

/-! ## A closed stream -/

@[simp] theorem isClosed_close (s : Source) : s.close.isClosed = true := by
  cases s with
  | queue q => rfl
  | feed f => rfl

/-- Nothing comes out of a closed stream. -/
theorem next_of_isClosed {s : Source} (h : s.isClosed = true) : s.next = (.ended, s, []) := by
  cases s with
  | queue q =>
    have hq : q.isClosed = true := (Bool.and_eq_true_iff.mp h).1
    simp [next, SignalQueue.next, hq]
  | feed f =>
    have hf : f.isOpen = false := by simpa [isClosed] using h
    simp [next, Feed.next, hf]

theorem isClosed_publish {q : SignalQueue} (h : (queue q).isClosed = true) (ticket : Nat) (s : Signal) :
    (queue (q.publish ticket s).2).isClosed = true := by
  unfold SignalQueue.publish
  split
  · simpa [isClosed] using h
  · exact h

theorem isClosed_resume {q : SignalQueue} (h : (queue q).isClosed = true) (ticket : Nat) :
    (queue (q.resume ticket).2).isClosed = true := by
  simpa [isClosed, SignalQueue.resume] using h

theorem isClosed_withdraw {q : SignalQueue} (h : (queue q).isClosed = true) (ticket : Nat) :
    (queue (q.withdraw ticket)).isClosed = true := by
  simpa [isClosed, SignalQueue.withdraw] using h

end Source

end ReplicaWatch
