import Mathlib.Data.List.Perm.Subperm
import Mathlib.Data.List.Nodup
import ReplicaWatch.Proofs.Monitor.Session
import ReplicaWatch.Proofs.Signals.Malformed
import ReplicaWatch.Simulation.Command

/-!
# Signals reach the loop once and in their order

Any number of publishers come with signals, wait for room, look again and give up, at any time; one loop takes the
signals, as long as it is active. `Handles` lists what a move can do to the queue between them (`Move.handles`), and
everything else follows from that list: the signals that have been taken and those that wait are the signals that were
accepted (`Handles.signals`), and whoever is let in has come and waits no more (`Handles.tickets`).

- `takenIn`, `repliesIn`, `acceptedIn`, `publishersIn`: what a run shows of the queue;
- `Channel.tickets`: the senders that wait, or have been granted a place;
- `Intake`, `Run.intake`: what every run has done to the queue;
- `signals_taken_once_in_order`: all of it, from a queue that nobody has read.
-/

namespace ReplicaWatch

/-! ## Senders at a channel -/

namespace Channel

open scoped List

variable {α : Type} {c : Channel α} {ticket : Nat} {item : α} {e : Nat × α}

/-- The senders whose items have not arrived. -/
def tickets (c : Channel α) : List Nat := c.outstanding.map Prod.fst

/-- What arrives with a reply. -/
def Reply.arrived {β : Type} (b : β) : Reply → List β
  | sent => [b]
  | refused => []
  | blocked => []

theorem Reply.map_arrived {β γ : Type} (f : β → γ) (b : β) (reply : Reply) :
    (reply.arrived b).map f = reply.arrived (f b) := by
  cases reply <;> rfl

theorem outstanding_withdraw (c : Channel α) (ticket : Nat) :
    (c.withdraw ticket).outstanding = without ticket c.outstanding := by
  unfold withdraw
  rw [outstanding_refill]
  exact (List.filter_append c.granted c.waiting).symm

theorem tickets_withdraw_sublist (c : Channel α) (ticket : Nat) : (c.withdraw ticket).tickets.Sublist c.tickets := by
  unfold tickets
  rw [outstanding_withdraw]
  exact List.filter_sublist.map _

/-- Who has been taken off the channel does not wait there. -/
theorem not_mem_tickets_withdraw (c : Channel α) (ticket : Nat) : ticket ∉ (c.withdraw ticket).tickets := by
  unfold tickets
  rw [outstanding_withdraw]
  simp [without, isFrom]

theorem tickets_of_take {d : Channel α} (h : c.take = some (item, d)) : d.tickets = c.tickets :=
  congrArg (List.map Prod.fst) (outstanding_of_take h)

theorem buffer_offer (c : Channel α) (ticket : Nat) (item : α) :
    (c.offer ticket item).2.buffer = c.buffer ++ (c.offer ticket item).1.arrived item := by
  cases hr : (c.offer ticket item).1 with
  | sent => exact buffer_of_offer_sent (Prod.ext hr rfl)
  | refused | blocked => exact (buffer_of_offer_of_ne (Prod.ext hr rfl) nofun).trans (List.append_nil _).symm

/-- A sender that offers an item waits afterwards, or its item has arrived, or neither. -/
theorem tickets_offer (c : Channel α) (ticket : Nat) (item : α) :
    (c.offer ticket item).2.tickets ++ (c.offer ticket item).1.arrived ticket <+~ c.tickets ++ [ticket] := by
  unfold offer
  split
  · show c.tickets ++ [] <+~ _
    rw [List.append_nil]
    exact (List.sublist_append_left _ _).subperm
  · split
    · exact List.Subperm.refl _
    · refine List.Perm.subperm (List.Perm.of_eq ?_)
      simp [tickets, outstanding, Reply.arrived]

/-- The item that arrives when a sender looks again is the first that the sender waits with. -/
theorem buffer_resume (hf : c.outstanding.find? (isFrom ticket) = some e) :
    (c.resume ticket).2.buffer = c.buffer ++ (c.resume ticket).1.arrived e.2 := by
  unfold resume
  split
  · exact (buffer_withdraw c ticket).trans (List.append_nil _).symm
  · split
    · rename_i id found hg
      unfold outstanding at hf
      rw [List.find?_append, hg] at hf
      cases hf
      rfl
    · exact (List.append_nil _).symm

/-- A sender that looks again waits no more if its item has arrived. -/
theorem tickets_resume (c : Channel α) (ticket : Nat) :
    (c.resume ticket).2.tickets ++ (c.resume ticket).1.arrived ticket <+~ c.tickets := by
  unfold resume
  split
  · show (c.withdraw ticket).tickets ++ [] <+~ _
    rw [List.append_nil]
    exact (tickets_withdraw_sublist c ticket).subperm
  · split
    · rename_i id found hg
      -- the first granted place that is its own goes to the end
      obtain ⟨x, l₁, l₂, -, hx, hl, herase⟩ :=
        List.exists_of_eraseP (List.mem_of_find?_eq_some hg) (List.find?_some hg)
      have hx : x.1 = ticket := by simpa [isFrom] using hx
      refine List.Perm.subperm ?_
      show ((c.granted.eraseP (isFrom ticket)) ++ c.waiting).map Prod.fst ++ [ticket] |>.Perm
        ((c.granted ++ c.waiting).map Prod.fst)
      rw [herase, hl]
      simp only [List.map_append, List.map_cons, hx, List.append_assoc, List.cons_append]
      refine List.Perm.append_left _ ?_
      rw [← List.append_assoc]
      exact List.perm_append_singleton _ _
    · show c.tickets ++ [] <+~ _
      rw [List.append_nil]

end Channel

namespace SignalQueue

open scoped List

theorem buffer_publish (q : SignalQueue) (ticket : Nat) (x : Signal) :
    (q.publish ticket x).2.channel.buffer = q.channel.buffer ++ (q.publish ticket x).1.arrived x := by
  unfold publish
  split
  · exact Channel.buffer_offer q.channel ticket x
  · exact (List.append_nil _).symm

theorem tickets_publish (q : SignalQueue) (ticket : Nat) (x : Signal) :
    (q.publish ticket x).2.channel.tickets ++ (q.publish ticket x).1.arrived ticket <+~
      q.channel.tickets ++ [ticket] := by
  unfold publish
  split
  · exact Channel.tickets_offer q.channel ticket x
  · show q.channel.tickets ++ [] <+~ _
    rw [List.append_nil]
    exact (List.sublist_append_left _ _).subperm

/-- A queue that is to be read from its beginning. -/
structure Unread (q : SignalQueue) : Prop where
  capacity : q.channel.capacity = SignalQueue.capacity
  sound : q.channel.Sound
  isOpen : q.channel.isOpen = true
  isClosed : q.isClosed = false

end SignalQueue

namespace Monitor

open scoped List

variable {setup : Setup} {s t u : State} {a : Action} {seen : List Observation} {h k : List Moment}
  {q r : SignalQueue} {now : Nat}

/-! ## The queue in a run -/

/-- The reply that a publisher gets, if one does, with the publisher and its signal. -/
def Observation.reply? : Observation → Option ((Nat × Signal) × Channel.Reply)
  | .published ticket x reply => some ((ticket, x), reply)
  | _ => none

/-- The signals that are taken, in what is seen. -/
def takenOf (seen : List Observation) : List Signal := seen.filterMap Observation.signal?

/-- The replies that publishers get, in what is seen. -/
def repliesOf (seen : List Observation) : List ((Nat × Signal) × Channel.Reply) := seen.filterMap Observation.reply?

/-- The publishers whose signals are accepted, in what is seen, with the signals. -/
def acceptedOf (seen : List Observation) : List (Nat × Signal) :=
  (repliesOf seen).flatMap fun reply => reply.2.arrived reply.1

/-- The signals that the loop has taken in a run, in their order. -/
def takenIn (h : List Moment) : List Signal := takenOf (observations h)

/-- The replies that publishers have got in a run. -/
def repliesIn (h : List Moment) : List ((Nat × Signal) × Channel.Reply) := repliesOf (observations h)

/-- The publishers whose signals have been accepted in a run, with the signals, in the order of acceptance. -/
def acceptedIn (h : List Moment) : List (Nat × Signal) := acceptedOf (observations h)

/-- The publisher that comes with an action, if one does. -/
def Action.publisher? : Action → Option Nat
  | publish ticket _ => some ticket
  | _ => none

/-- The publishers that have come in a run. -/
def publishersIn (h : List Moment) : List Nat := h.filterMap fun m => m.action.publisher?

/-- The publisher that gives up at a moment, before its signal has arrived. -/
def Moment.givesUp? (m : Moment) : Option Nat :=
  match m.action with
  | .giveUp ticket => if (m.before.pending? ticket).isSome then some ticket else none
  | _ => none

/-- The publishers that have given up in a run. -/
def givenUpIn (h : List Moment) : List Nat := h.filterMap Moment.givesUp?

theorem takenIn_append (h k : List Moment) : takenIn (h ++ k) = takenIn h ++ takenIn k := by
  simp [takenIn, takenOf]

theorem repliesIn_append (h k : List Moment) : repliesIn (h ++ k) = repliesIn h ++ repliesIn k := by
  simp [repliesIn, repliesOf]

theorem acceptedIn_append (h k : List Moment) : acceptedIn (h ++ k) = acceptedIn h ++ acceptedIn k := by
  simp [acceptedIn, acceptedOf, repliesOf]

theorem publishersIn_append (h k : List Moment) : publishersIn (h ++ k) = publishersIn h ++ publishersIn k :=
  List.filterMap_append

theorem takenIn_singleton (m : Moment) : takenIn [m] = takenOf m.seen := by simp [takenIn]

theorem repliesIn_singleton (m : Moment) : repliesIn [m] = repliesOf m.seen := by simp [repliesIn]

theorem acceptedIn_singleton (m : Moment) : acceptedIn [m] = acceptedOf m.seen := by simp [acceptedIn]

theorem publishersIn_singleton (m : Moment) : publishersIn [m] = m.action.publisher?.toList := by
  unfold publishersIn
  rw [List.filterMap_cons]
  cases m.action.publisher? <;> rfl

/-- Nobody is accepted where nobody gets a reply. -/
theorem acceptedOf_of_repliesOf (hr : repliesOf seen = []) : acceptedOf seen = [] := by
  unfold acceptedOf
  rw [hr]
  rfl

/-- A publisher's reply is all that is seen of it. -/
theorem acceptedOf_published (ticket : Nat) (x : Signal) (reply : Channel.Reply) :
    acceptedOf [.published ticket x reply] = reply.arrived (ticket, x) := List.append_nil _

/-- Nobody is accepted where everybody is refused. -/
theorem acceptedOf_of_refused (hr : ∀ reply ∈ repliesOf seen, reply.2 = .refused) : acceptedOf seen = [] :=
  List.flatMap_eq_nil_iff.mpr fun reply hmem => by rw [hr reply hmem]; rfl

theorem filterMap_map_notice {β : Type} {f : Observation → Option β} (hf : ∀ n, f (.notice n) = none)
    (notices : List Notice) (more : List Observation) :
    (notices.map Observation.notice ++ more).filterMap f = more.filterMap f := by
  have : (notices.map Observation.notice).filterMap f = [] := by
    rw [List.filterMap_map]
    exact List.filterMap_eq_nil_iff.mpr fun n _ => hf n
  rw [List.filterMap_append, this, List.nil_append]

theorem filterMap_obituary {β : Type} {f : Observation → Option β} (hf : ∀ n, f (.notice n) = none) (w : Watch) :
    (obituary w).filterMap f = [] :=
  List.filterMap_eq_nil_iff.mpr fun o ho => by
    obtain ⟨report, rfl⟩ := eq_notice_of_mem_obituary ho
    exact hf _

theorem filterMap_seen {β : Type} {f : Observation → Option β} (hf : ∀ n, f (.notice n) = none)
    (hput : ∀ id name, f (.put id name) = none) (w : Watch) (o : Outcome) : (o.seen w).filterMap f = [] :=
  List.filterMap_eq_nil_iff.mpr fun ob hob => by
    rcases Outcome.mem_seen hob with ⟨rfl, -⟩ | rfl
    · exact hput _ _
    · exact hf _

/-! ## What a move does to the queue -/

/-- What a move does to the queue of signals: the action, the queue after it and what is seen. -/
inductive Handles (s : State) (q : SignalQueue) (t : State) : Action → SignalQueue → List Observation → Prop
  /-- It leaves the queue alone. -/
  | leave {a : Action} {seen : List Observation} : t.loop.isActive = s.loop.isActive → takenOf seen = [] →
      repliesOf seen = [] → Handles s q t a q seen
  /-- The loop takes the oldest signal. -/
  | take {x : Signal} {channel : Channel Signal} {seen : List Observation} : s.loop.isActive = true →
      t.loop.isActive = true → q.channel.take = some (x, channel) → takenOf seen = [x] → repliesOf seen = [] →
      Handles s q t .runLoop { q with channel := channel } seen
  /-- The loop takes no more signals. -/
  | close {a : Action} {seen : List Observation} : s.loop.isActive = true → t.loop.isActive = false →
      takenOf seen = [] → repliesOf seen = [] → Handles s q t a q.close seen
  | publish (ticket : Nat) (x : Signal) : t.loop = s.loop →
      Handles s q t (.publish ticket x) (q.publish ticket x).2 [.published ticket x (q.publish ticket x).1]
  /-- A publisher looks again. -/
  | resume {ticket : Nat} {e : Nat × Signal} : t.loop = s.loop →
      q.channel.outstanding.find? (Channel.isFrom ticket) = some e →
      Handles s q t (.runPublisher ticket) (q.resume ticket).2 [.published ticket e.2 (q.resume ticket).1]
  | giveUp (ticket : Nat) : t.loop = s.loop → Handles s q t (.giveUp ticket) (q.withdraw ticket) []
  | endPublishing : t.loop = s.loop → Handles s q t .endPublishing q.endPublishing []

theorem pending?_of_queue {ticket : Nat} (hq : s.source = .queue q) :
    s.pending? ticket = (q.channel.outstanding.find? (Channel.isFrom ticket)).map fun e => e.2 := by
  unfold State.pending?
  rw [hq]
  rfl

/-- **What a move can do to the queue.** -/
theorem Move.handles (hm : Move setup s a t seen) (hq : s.source = .queue q) :
    ∃ r, t.source = .queue r ∧ Handles s q t a r seen := by
  have took {x : Signal} {source : Source} {notices : List Notice} (hl : s.IsListening)
      (hn : s.source.next = (.signal x, source, notices)) (ht : t.source = source) (hactive : t.loop.isActive = true)
      (htaken : takenOf seen = [x]) (hreplies : repliesOf seen = []) :
      ∃ r, t.source = .queue r ∧ Handles s q t .runLoop r seen := by
    rw [hq] at hn
    obtain ⟨-, channel, htake, rfl⟩ := next_queue_signal hn
    exact ⟨_, ht, .take (by rw [hl.loop]; rfl) hactive htake htaken hreplies⟩
  have active (hl : s.IsListening) : s.loop.isActive = true := by rw [hl.loop]; rfl
  have fed {P : Prop} {f : Feed} (hf : s.source = .feed f) : P := by rw [hq] at hf; cases hf
  have closed : s.source.close = .queue q.close := by rw [hq]; rfl
  cases hm with
  | begin hl | abandon hl | shrug hl | record hl | watch hl | stop hl =>
    exact ⟨q, hq, .leave (by rw [hl]; rfl) rfl rfl⟩
  | heed hl | crashLoop hl => exact ⟨q.close, closed, .close (by rw [hl]; rfl) rfl rfl rfl⟩
  | reap =>
    exact ⟨q, hq, .leave rfl (filterMap_obituary (fun _ => rfl) _) (filterMap_obituary (fun _ => rfl) _)⟩
  | skip _ hn =>
    rw [hq] at hn
    exact absurd hn next_queue_ne_skipped
  | ignore hl hn | coalesce hl hn | passOver hl hn | rewatch hl hn => exact took hl hn rfl (active hl) rfl rfl
  | consult hl hn => exact took hl hn rfl rfl rfl rfl
  | endStream hl hn =>
    rw [hq] at hn
    obtain ⟨rfl, -⟩ := next_queue_ended hn
    exact ⟨q.close, rfl, .close (active hl) rfl (filterMap_map_notice (fun _ => rfl) _ _)
      (filterMap_map_notice (fun _ => rfl) _ _)⟩
  | advance _ ha =>
    cases ha with
    | sleep | ask | block => exact ⟨q, hq, .leave rfl rfl rfl⟩
  | conclude =>
    exact ⟨q, hq, .leave rfl (filterMap_seen (fun _ => rfl) (fun _ _ => rfl) _ _)
      (filterMap_seen (fun _ => rfl) (fun _ _ => rfl) _ _)⟩
  | publish ticket x hp => cases hq.symm.trans hp; exact ⟨_, rfl, .publish ticket x rfl⟩
  | runPublisher hp hx =>
    cases hq.symm.trans hp
    rw [pending?_of_queue hq] at hx
    obtain ⟨e, he, rfl⟩ := Option.map_eq_some_iff.mp hx
    exact ⟨_, rfl, .resume rfl he⟩
  | giveUp ticket hp => cases hq.symm.trans hp; exact ⟨_, rfl, .giveUp ticket rfl⟩
  | endPublishing hp => cases hq.symm.trans hp; exact ⟨_, rfl, .endPublishing rfl⟩
  | write _ hf | endInput hf => exact fed hf
  | _ => exact ⟨q, hq, .leave rfl rfl rfl⟩

namespace Handles

variable (hh : Handles s q t a r seen)

include hh

/-- Signals that wait go out, and signals that are accepted come in behind them. -/
theorem signals : takenOf seen ++ r.channel.buffer = q.channel.buffer ++ (acceptedOf seen).map Prod.snd := by
  cases hh with
  | leave _ htaken hreplies | close _ _ htaken hreplies =>
    rw [htaken, acceptedOf_of_repliesOf hreplies]
    exact (List.append_nil _).symm
  | take _ _ htake htaken hreplies =>
    rw [htaken, acceptedOf_of_repliesOf hreplies]
    exact ((List.append_nil _).trans (Channel.buffer_of_take htake)).symm
  | publish ticket x =>
    rw [acceptedOf_published, Channel.Reply.map_arrived]
    exact SignalQueue.buffer_publish q ticket x
  | @resume ticket e _ he =>
    rw [acceptedOf_published, Channel.Reply.map_arrived]
    exact Channel.buffer_resume (e := e) he
  | giveUp ticket => exact (Channel.buffer_withdraw _ _).trans (List.append_nil _).symm
  | endPublishing => exact (List.append_nil _).symm

/-- Who waits or is accepted has been waiting, or has just come. -/
theorem tickets :
    r.channel.tickets ++ (acceptedOf seen).map Prod.fst <+~ q.channel.tickets ++ a.publisher?.toList := by
  have alone {l : List Nat} : q.channel.tickets ++ [] <+~ q.channel.tickets ++ l :=
    (List.Sublist.append_left (List.nil_sublist l) q.channel.tickets).subperm
  cases hh with
  | leave _ _ hreplies | close _ _ _ hreplies =>
    rw [acceptedOf_of_repliesOf hreplies]
    exact alone
  | take _ _ htake _ hreplies =>
    rw [acceptedOf_of_repliesOf hreplies, Channel.tickets_of_take htake]
    exact alone
  | publish ticket x =>
    rw [acceptedOf_published, Channel.Reply.map_arrived]
    exact SignalQueue.tickets_publish q ticket x
  | @resume ticket e _ he =>
    rw [acceptedOf_published, Channel.Reply.map_arrived]
    exact (Channel.tickets_resume q.channel ticket).trans (List.sublist_append_left _ _).subperm
  | giveUp ticket =>
    exact (List.Sublist.append (Channel.tickets_withdraw_sublist q.channel ticket) (List.Sublist.refl [])).subperm
  | endPublishing => exact alone

theorem capacity : r.channel.capacity = q.channel.capacity := by
  cases hh with
  | leave | close | endPublishing => rfl
  | take _ _ htake => exact Channel.capacity_of_take htake
  | publish ticket x =>
    unfold SignalQueue.publish
    split
    · exact Channel.capacity_offer _ _ _
    · rfl
  | resume => exact Channel.capacity_resume _ _
  | giveUp => exact Channel.capacity_withdraw _ _

theorem sound (hq : q.channel.Sound) : r.channel.Sound := by
  cases hh with
  | leave | endPublishing => exact hq
  | take _ _ htake => exact Channel.sound_take hq htake
  | close => exact Channel.sound_close hq
  | publish ticket x =>
    unfold SignalQueue.publish
    split
    · exact Channel.sound_offer hq _ _
    · exact hq
  | resume => exact Channel.sound_resume hq _
  | giveUp => exact Channel.sound_withdraw hq _

/-- The queue is open as long as the loop takes signals. -/
theorem isOpen (ho : q.channel.isOpen = s.loop.isActive) : r.channel.isOpen = t.loop.isActive := by
  cases hh with
  | leave hl => rw [hl, ho]
  | take hs ht htake => rw [Channel.isOpen_of_take htake, ho, hs, ht]
  | close _ ht => rw [ht]; rfl
  | publish ticket x hl =>
    rw [hl, ← ho]
    unfold SignalQueue.publish
    split
    · exact Channel.isOpen_offer _ _ _
    · rfl
  | resume hl => rw [hl, ← ho]; exact Channel.isOpen_resume _ _
  | giveUp _ hl => rw [hl, ← ho]; exact Channel.isOpen_withdraw _ _
  | endPublishing hl => rw [hl, ← ho]; rfl

theorem isClosed (hc : q.isClosed = !s.loop.isActive) : r.isClosed = !t.loop.isActive := by
  cases hh with
  | leave hl => rw [hl, hc]
  | take hs ht => rw [ht, ← hs, ← hc]
  | close _ ht => rw [ht]; rfl
  | publish ticket x hl =>
    rw [hl, ← hc]
    unfold SignalQueue.publish
    split <;> rfl
  | resume hl | giveUp _ hl | endPublishing hl => rw [hl, ← hc]; rfl

/-- A closed queue is left by nobody and lets nobody in. -/
theorem refused (hl : s.loop.isActive = false) (ho : q.channel.isOpen = false) :
    t.loop.isActive = false ∧ takenOf seen = [] ∧ ∀ reply ∈ repliesOf seen, reply.2 = .refused := by
  have nobody (hreplies : repliesOf seen = []) : ∀ reply ∈ repliesOf seen, reply.2 = .refused := by
    rw [hreplies]
    exact fun _ hr => absurd hr List.not_mem_nil
  cases hh with
  | leave ht htaken hreplies => exact ⟨ht.trans hl, htaken, nobody hreplies⟩
  | take hs | close hs => rw [hl] at hs; cases hs
  | publish ticket x ht =>
    refine ⟨ht ▸ hl, rfl, fun reply hr => ?_⟩
    rw [List.mem_singleton.mp hr]
    unfold SignalQueue.publish Channel.offer
    split
    · rw [if_pos (by rw [ho]; rfl)]
    · rfl
  | resume ht =>
    refine ⟨ht ▸ hl, rfl, fun reply hr => ?_⟩
    rw [List.mem_singleton.mp hr]
    unfold SignalQueue.resume Channel.resume
    rw [if_pos (by rw [ho]; rfl)]
  | giveUp _ ht | endPublishing ht => exact ⟨ht ▸ hl, rfl, nobody rfl⟩

end Handles

/-! ## What a run does to the queue -/

/-- What a run has done to the queue of signals, from a queue to another. -/
structure Intake (q₀ : SignalQueue) (h : List Moment) (s : State) (q : SignalQueue) : Prop where
  source : s.source = .queue q
  capacity : q.channel.capacity = q₀.channel.capacity
  sound : q.channel.Sound
  isOpen : q.channel.isOpen = s.loop.isActive
  isClosed : q.isClosed = !s.loop.isActive
  /-- Nothing is lost, nothing comes twice, nothing overtakes. -/
  signals : takenIn h ++ q.channel.buffer = q₀.channel.buffer ++ (acceptedIn h).map Prod.snd
  /-- Who waits is not yet accepted. -/
  tickets : q.channel.tickets ++ (acceptedIn h).map Prod.fst <+~ q₀.channel.tickets ++ publishersIn h
  /-- The stream has ended only with nothing left in it. -/
  ended : s.cause = some .streamEnded → s.loop.isActive = false ∧ q.channel.buffer = []

/-- The stream ends for the loop when nothing is left in it. -/
theorem Move.cause_of_ended (hm : Move setup s a t seen) (ht : t.cause = some .streamEnded) :
    s.cause = some .streamEnded ∨
      s.IsListening ∧ t.loop = .draining ∧ ∃ source notices, s.source.next = (.ended, source, notices) ∧
        t.source = source.close := by
  cases hm with
  | endStream hl hn => exact Or.inr ⟨hl, rfl, _, _, hn, rfl⟩
  | @conclude _ _ o =>
    have ht : s.cause.or o.cause? = some .streamEnded := ht
    cases hs : s.cause with
    | some c => rw [hs] at ht; exact Or.inl ht
    | none =>
      rw [hs] at ht
      cases o <;> cases ht
  | requestStop => cases ht
  | _ => exact Or.inl ht

/-- **A move goes on with what the run has done to the queue.** -/
theorem Intake.snoc {q₀ : SignalQueue} (hi : Intake q₀ h s q) (hm : Move setup s a t seen) :
    ∃ r, Intake q₀ (h ++ [⟨s, a, t, seen⟩]) t r ∧ Handles s q t a r seen := by
  obtain ⟨r, hr, hh⟩ := hm.handles hi.source
  refine ⟨r, ?_, hh⟩
  constructor
  case source => exact hr
  case capacity => exact hh.capacity.trans hi.capacity
  case sound => exact hh.sound hi.sound
  case isOpen => exact hh.isOpen hi.isOpen
  case isClosed => exact hh.isClosed hi.isClosed
  case signals =>
    rw [takenIn_append, acceptedIn_append, takenIn_singleton, acceptedIn_singleton, List.append_assoc, hh.signals,
      ← List.append_assoc, hi.signals, List.map_append, List.append_assoc]
  case tickets =>
    rw [acceptedIn_append, publishersIn_append, acceptedIn_singleton, publishersIn_singleton, List.map_append]
    refine List.subperm_ext_iff.mpr fun ticket _ => ?_
    have now := hh.tickets.count_le ticket
    have before := hi.tickets.count_le ticket
    simp only [List.count_append] at now before ⊢
    omega
  case ended =>
    intro hc
    rcases hm.cause_of_ended hc with hc | ⟨hl, ht, source, notices, hn, hsource⟩
    · obtain ⟨hactive, hb⟩ := hi.ended hc
      obtain ⟨htl, htaken, hrefused⟩ := hh.refused hactive (hi.isOpen.trans hactive)
      have hsignals := hh.signals
      rw [htaken, acceptedOf_of_refused hrefused, hb] at hsignals
      exact ⟨htl, hsignals⟩
    · refine ⟨by rw [ht]; rfl, ?_⟩
      rw [hi.source] at hn
      obtain ⟨rfl, hdrained⟩ := next_queue_ended hn
      rw [hr] at hsource
      cases hsource
      exact (hdrained (by rw [hi.isClosed, hl.loop]; rfl)).1

theorem Intake.start (hq : q.Unread) : Intake q [] (State.start setup now (.queue q)) q where
  source := rfl
  capacity := rfl
  sound := hq.sound
  isOpen := hq.isOpen
  isClosed := hq.isClosed
  signals := (List.append_nil _).symm
  tickets := List.Subperm.refl _
  ended := nofun

/-- The account can be begun anew at any time. -/
theorem Intake.renew {q₀ : SignalQueue} (hi : Intake q₀ h s q) : Intake q [] s q where
  source := hi.source
  capacity := rfl
  sound := hi.sound
  isOpen := hi.isOpen
  isClosed := hi.isClosed
  signals := (List.append_nil _).symm
  tickets := List.Subperm.refl _
  ended := hi.ended

theorem Run.intake (hs : Reachable setup s) (hi : Intake q [] s q) (hr : Run setup s h t) : ∃ r, Intake q h t r :=
  Run.induct (P := fun h t => ∃ r, Intake q h t r) hs ⟨q, hi⟩
    (fun _ _ hm ⟨_, hi⟩ => (hi.snoc hm).imp fun _ hr => hr.1) hr

/-! ## Who gives up -/

section GivingUp

variable {q₀ : SignalQueue} {ticket : Nat} {m : Moment}

theorem mem_tickets_of_pending? {x : Signal} (hq : s.source = .queue q) (hx : s.pending? ticket = some x) :
    ticket ∈ q.channel.tickets := by
  rw [pending?_of_queue hq] at hx
  obtain ⟨e, he, -⟩ := Option.map_eq_some_iff.mp hx
  have : e.1 = ticket := by simpa [Channel.isFrom] using List.find?_some he
  exact List.mem_map.mpr ⟨e, List.mem_of_find?_eq_some he, this⟩

theorem Intake.nodup (hi : Intake q₀ h s q) (hn : (q₀.channel.tickets ++ publishersIn h).Nodup) :
    (q.channel.tickets ++ (acceptedIn h).map Prod.fst).Nodup := by
  obtain ⟨l, hl, hsub⟩ := hi.tickets
  exact hl.nodup_iff.mp (hn.sublist hsub)

theorem Moment.givesUp?_eq_some (hg : m.givesUp? = some ticket) :
    m.action = .giveUp ticket ∧ ∃ x, m.before.pending? ticket = some x := by
  unfold Moment.givesUp? at hg
  split at hg
  · rename_i haction
    split at hg
    · rename_i hx
      cases hg
      exact ⟨haction, Option.isSome_iff_exists.mp hx⟩
    · cases hg
  · cases hg

/-- A publisher that gives up is not let in, neither before nor after. -/
theorem Intake.not_accepted_of_givesUp (hs : Reachable setup s) (hi : Intake q [] s q) (hr : Run setup s h t)
    (hn : (q.channel.tickets ++ publishersIn h).Nodup) (hg : ticket ∈ givenUpIn h) :
    ticket ∉ (acceptedIn h).map Prod.fst := by
  obtain ⟨m, hm, hgives⟩ := List.mem_filterMap.mp hg
  obtain ⟨k, l, rfl⟩ := List.append_of_mem hm
  obtain ⟨hk, step, hl⟩ := hr.split
  obtain ⟨haction, x, hx⟩ := Moment.givesUp?_eq_some hgives
  have hreach := hk.reachable hs
  obtain ⟨r, hrk⟩ := hk.intake hs hi
  obtain ⟨r', hr', -⟩ := hrk.snoc (hreach.move step)
  obtain ⟨r'', hr''⟩ := hl.intake (hreach.step step) hr'.renew
  have heffect : m.before.step? setup m.action =
      some ({ m.before with source := .queue (r.withdraw ticket) }, []) := by
    simp only [haction, State.step?, State.onQueue, hrk.source]
  have heffect := Option.some.inj (step.symm.trans heffect)
  have hqueue : r' = r.withdraw ticket :=
    Source.queue.inj (hr'.source.symm.trans (congrArg (fun effect => effect.1.source) heffect))
  have hnobody : acceptedIn [m] = [] := by
    rw [acceptedIn_singleton, show m.seen = [] from congrArg Prod.snd heffect]
    rfl
  -- the ticket waits at the moment, so it is one of those that had come by then, and it does not come again
  have once := List.nodup_iff_count_le_one.mp hn ticket
  have before := hrk.tickets.count_le ticket
  have after := hr''.tickets.count_le ticket
  have waits := List.count_pos_iff.mpr (mem_tickets_of_pending? hrk.source hx)
  have gone : r'.channel.tickets.count ticket = 0 := by
    rw [hqueue]
    exact List.count_eq_zero.mpr (Channel.not_mem_tickets_withdraw r.channel ticket)
  rw [show k ++ m :: l = k ++ [m] ++ l from List.append_cons k m l] at once ⊢
  rw [← List.count_eq_zero]
  simp only [acceptedIn_append, publishersIn_append, hnobody, List.map_append, List.append_nil,
    List.count_append] at once before after ⊢
  omega

end GivingUp

/-! ## A closed queue -/

/-- Nobody is let in any more, and nobody has to wait: whoever comes is refused, and whoever waits has its turn and is
refused. -/
structure State.TurnsAway (setup : Setup) (s : State) : Prop where
  newcomer : ∀ ticket x, s.step? setup (.publish ticket x) = some (s, [.published ticket x .refused])
  turn : ∀ ticket x, s.pending? ticket = some x → .publisher ticket ∈ Simulation.publishers s.source
  waiting : ∀ ticket x, s.pending? ticket = some x →
    ∃ t, s.step? setup (.runPublisher ticket) = some (t, [.published ticket x .refused]) ∧ t.pending? ticket = none

theorem Intake.turnsAway {q₀ : SignalQueue} (hi : Intake q₀ h s q) (hl : s.loop.isActive = false) :
    s.TurnsAway setup := by
  have ho : q.channel.isOpen = false := hi.isOpen.trans hl
  have hsame : ({ s with source := .queue q } : State) = s := by
    rw [← hi.source]
  constructor
  case newcomer =>
    intro ticket x
    have hrefused : q.publish ticket x = (.refused, q) := by
      unfold SignalQueue.publish Channel.offer
      rw [ho]
      split <;> rfl
    simp only [State.step?, State.publish, hi.source, hrefused, hsame]
  case turn =>
    intro ticket x hx
    obtain ⟨e, he, hid⟩ := List.mem_map.mp (mem_tickets_of_pending? hi.source hx)
    rw [hi.source]
    show _ ∈ (if q.channel.isOpen then _ else q.channel.outstanding).map _
    rw [ho]
    exact List.mem_map.mpr ⟨e, he, congrArg _ hid⟩
  case waiting =>
    intro ticket x hx
    have hrefused : q.resume ticket = (.refused, q.withdraw ticket) := by
      unfold SignalQueue.resume Channel.resume
      rw [ho]
      rfl
    refine ⟨{ s with source := .queue (q.withdraw ticket) }, ?_, ?_⟩
    · simp only [State.step?, State.publish, hx, hi.source, hrefused]
    · rw [pending?_of_queue rfl, Option.map_eq_none_iff, List.find?_eq_none]
      intro e he hfrom
      exact Channel.not_mem_tickets_withdraw q.channel ticket
        (List.mem_map.mpr ⟨e, he, by simpa [Channel.isFrom] using hfrom⟩)

/-- From a closed queue nothing is taken, and everybody is refused. -/
theorem Run.refused (hs : Reachable setup s) (hi : Intake q [] s q) (hl : s.loop.isActive = false)
    (hr : Run setup s k t) :
    t.loop.isActive = false ∧ takenIn k = [] ∧ ∀ reply ∈ repliesIn k, reply.2 = .refused := by
  refine (Run.induct (P := fun k t => (∃ r, Intake q k t r) ∧ t.loop.isActive = false ∧ takenIn k = [] ∧
    ∀ reply ∈ repliesIn k, reply.2 = .refused) hs ⟨⟨q, hi⟩, hl, rfl, nofun⟩ ?_ hr).2
  rintro k t a u seen - - hm ⟨⟨r, hrk⟩, ht, htaken, hreplies⟩
  obtain ⟨r', hr', hh⟩ := hrk.snoc hm
  obtain ⟨hu, htaken', hreplies'⟩ := hh.refused ht (hrk.isOpen.trans ht)
  refine ⟨⟨r', hr'⟩, hu, ?_, fun reply hmem => ?_⟩
  · rw [takenIn_append, takenIn_singleton, htaken, htaken', List.append_nil]
  · rw [repliesIn_append, repliesIn_singleton] at hmem
    rcases List.mem_append.mp hmem with hmem | hmem
    · exact hreplies reply hmem
    · exact hreplies' reply hmem

/-- **Signals are taken once and in their order.** The signals that the loop has taken are a first part of those that
were accepted, in the order of acceptance, and never more than 64 behind them. Of publishers with tickets of their own
each is accepted at most once, and one that gives up before its signal has arrived is never. If the monitor stops because
the stream has ended, every accepted signal has been taken. The stream is closed exactly when the loop takes no more
signals; from then on none is taken, every publisher learns that the stream is closed, and nobody has to wait. -/
theorem signals_taken_once_in_order (hq : q.Unread) (hr : Run setup (State.start setup now (.queue q)) h s) :
    takenIn h <+: q.channel.buffer ++ (acceptedIn h).map Prod.snd ∧
    q.channel.buffer.length + (acceptedIn h).length ≤ (takenIn h).length + SignalQueue.capacity ∧
    ((q.channel.tickets ++ publishersIn h).Nodup →
      ((acceptedIn h).map Prod.fst).Nodup ∧ ∀ ticket ∈ givenUpIn h, ticket ∉ (acceptedIn h).map Prod.fst) ∧
    (s.loop = .stopped .streamEnded → takenIn h = q.channel.buffer ++ (acceptedIn h).map Prod.snd) ∧
    s.source.isClosed = !s.loop.isActive ∧
    (s.source.isClosed = true → ∀ k t, Run setup s k t →
      takenIn k = [] ∧
      (∀ reply ∈ repliesIn k, Simulation.publishResult reply.2 = .failed .streamClosed) ∧
      t.TurnsAway setup) := by
  have hstart : Reachable setup (State.start setup now (.queue q)) := .start now _
  have hs := hr.reachable hstart
  obtain ⟨r, hi⟩ := hr.intake hstart (.start hq)
  have hclosed : s.source.isClosed = !s.loop.isActive := by
    rw [hi.source]
    show (r.isClosed && !r.channel.isOpen) = _
    rw [hi.isClosed, hi.isOpen, Bool.and_self]
  refine ⟨⟨_, hi.signals⟩, ?_, fun hn => ⟨(hi.nodup hn).of_append_right, fun ticket hg =>
    Intake.not_accepted_of_givesUp hstart (.start hq) hr hn hg⟩, fun hl => ?_, hclosed, fun hc k t hk => ?_⟩
  · have hlen := congrArg List.length hi.signals
    have hwithin := hi.sound.within
    rw [hi.capacity, hq.capacity] at hwithin
    simp only [List.length_append, List.length_map] at hlen
    omega
  · have hb := (hi.ended (hs.closing.stopped _ hl)).2
    have hsignals := hi.signals
    rwa [hb, List.append_nil] at hsignals
  · have hl : s.loop.isActive = false := by simpa [hclosed] using hc
    obtain ⟨ht, htaken, hreplies⟩ := hk.refused hs hi.renew hl
    obtain ⟨r', hr'⟩ := hk.intake hs hi.renew
    exact ⟨htaken, fun reply hmem => by rw [hreplies reply hmem]; rfl, hr'.turnsAway ht⟩

/-- A queue in which all places are taken. -/
def fullQueue : SignalQueue :=
  { channel := { capacity := SignalQueue.capacity, buffer := List.replicate SignalQueue.capacity ⟨"a", false⟩ } }

/-- Two publishers wait for room, the first gives up when it has been granted a place, and the second takes it; the
stream is read to its end, and then a third publisher comes. -/
def crowding : List Action :=
  [.publish 0 ⟨"b", true⟩, .publish 1 ⟨"c", false⟩, .runLoop, .runLoop, .giveUp 0, .runPublisher 1, .endPublishing] ++
    List.replicate (SignalQueue.capacity + 2) .runLoop ++ [.publish 2 ⟨"d", true⟩]

theorem signals_of_crowded_queue :
    let p := (State.start { monitor := "m" } 0 (.queue fullQueue)).played { monitor := "m" } crowding
    fullQueue.Unread ∧ Run { monitor := "m" } (State.start { monitor := "m" } 0 (.queue fullQueue)) p.1 p.2 ∧
      p.2.loop = .stopped .streamEnded ∧ (fullQueue.channel.tickets ++ publishersIn p.1).Nodup ∧
      givenUpIn p.1 = [0] ∧ acceptedIn p.1 = [(1, ⟨"c", false⟩)] ∧
      takenIn p.1 = fullQueue.channel.buffer ++ [⟨"c", false⟩] ∧ 0 ∉ (acceptedIn p.1).map Prod.fst ∧
      p.2.TurnsAway { monitor := "m" } := by
  intro p
  have hq : fullQueue.Unread := ⟨rfl, ⟨by decide, nofun⟩, rfl, rfl⟩
  have hr : Run { monitor := "m" } (State.start { monitor := "m" } 0 (.queue fullQueue)) p.1 p.2 :=
    run_played (by decide +kernel)
  have hend : p.2.loop = .stopped .streamEnded := by decide +kernel
  have hown : (fullQueue.channel.tickets ++ publishersIn p.1).Nodup := by decide +kernel
  have haccepted : acceptedIn p.1 = [(1, ⟨"c", false⟩)] := by decide +kernel
  have hgives : givenUpIn p.1 = [0] := by decide +kernel
  obtain ⟨-, -, honce, hall, hclosed, haway⟩ := signals_taken_once_in_order hq hr
  refine ⟨hq, hr, hend, hown, hgives, haccepted, ?_, ?_, ?_⟩
  · rw [hall hend, haccepted]
    rfl
  · exact (honce hown).2 0 (by rw [hgives]; exact List.mem_singleton_self 0)
  · exact (haway (by rw [hclosed, hend]; rfl) [] p.2 .nil).2.2

end Monitor

end ReplicaWatch
