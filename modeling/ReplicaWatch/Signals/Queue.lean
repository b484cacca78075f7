import ReplicaWatch.Channel
import ReplicaWatch.Cluster.Basic

/-!
# Signals from memory

Publishers put signals into a bounded channel. The stream of signals ends when nobody can publish any more and
all signals have been taken, or when the reader closes it; after that every publisher is refused.
-/

namespace ReplicaWatch

/-- What looking for the next signal gives. -/
inductive Taken
  | nothing
  /-- Something that is no signal; it has been passed over. -/
  | skipped
  | signal (s : Signal)
  | ended
deriving DecidableEq, Repr

/-- Signals on their way through memory. -/
structure SignalQueue where
  /-- The channel between publishers and reader. -/
  channel : Channel Signal
  /-- Whether new publishers are let in. -/
  isPublishing : Bool := true
  /-- Whether the reader has closed the stream. -/
  isClosed : Bool := false

namespace SignalQueue

/-- How many signals may be on their way. -/
def capacity : Nat := 64

/-- A queue without signals. -/
def empty : SignalQueue := { channel := { capacity := capacity } }

/-- A publisher comes with a signal. -/
def publish (q : SignalQueue) (ticket : Nat) (s : Signal) : Channel.Reply × SignalQueue :=
  if q.isPublishing then
    let (reply, channel) := q.channel.offer ticket s
    (reply, { q with channel := channel })
  else (.refused, q)

/-- A waiting publisher looks again. -/
def resume (q : SignalQueue) (ticket : Nat) : Channel.Reply × SignalQueue :=
  let (reply, channel) := q.channel.resume ticket
  (reply, { q with channel := channel })

/-- A waiting publisher gives up. -/
def withdraw (q : SignalQueue) (ticket : Nat) : SignalQueue := { q with channel := q.channel.withdraw ticket }

/-- Lets no new publishers in. -/
def endPublishing (q : SignalQueue) : SignalQueue := { q with isPublishing := false }

def next (q : SignalQueue) : Taken × SignalQueue :=
  if q.isClosed then (.ended, q)
  else
    match q.channel.take with
    | some (s, channel) => (.signal s, { q with channel := channel })
    | none => if q.isPublishing || q.channel.hasSenders then (.nothing, q) else (.ended, q)

/-- The reader closes the stream. -/
def close (q : SignalQueue) : SignalQueue := { q with channel := q.channel.close, isClosed := true }

/-- How many signals are on their way. -/
def size (q : SignalQueue) : Nat :=
  q.channel.buffer.length + q.channel.granted.length + q.channel.waiting.length

end SignalQueue

end ReplicaWatch
