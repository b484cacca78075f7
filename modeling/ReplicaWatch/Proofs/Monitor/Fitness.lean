import ReplicaWatch.Proofs.Monitor.Output
import ReplicaWatch.Proofs.Monitor.Session
import ReplicaWatch.Proofs.Monitor.Vigilance

/-!
# A monitor in working order

In a session in which there is always room, nobody waits at either channel: every signal that is let in and every name
that is put on the output arrives at once. `State.Fit` says so of a state, with what else is always so in a session,
and every move that finds room keeps it (`State.Fit.step`).

- `Moment.HasRoom`: no publisher and no watch is told to wait at a moment;
- `Works.fit`, `State.Fit.attempt`: a monitor in working order stays so while it works and while inputs reach it.
-/

namespace ReplicaWatch.Monitor

variable {setup : Setup} {s t u : State} {a : Action} {seen : List Observation} {h : List Moment} {w : Watch}
  {c : MemoryCluster} {q : SignalQueue}

/-! ## Working order -/

/-- A stream of signals is open, and no publisher waits. -/
structure Flowing (q : SignalQueue) : Prop where
  isClosed : q.isClosed = false
  isOpen : q.channel.isOpen = true
  outstanding : q.channel.outstanding = []
  capacity : q.channel.capacity = SignalQueue.capacity

/-- A monitor in working order. -/
structure State.Fit (setup : Setup) (s : State) : Prop where
  reachable : Reachable setup s
  live : s.loop.isCrashed = false
  queue : ∃ q, s.source = .queue q
  flowing : s.isStopping = false → ∀ q, s.source = .queue q → Flowing q
  delayed : ∀ w ∈ s.unfinished, 0 < w.delay
  unblocked : ∀ w ∈ s.unfinished, w.phase ≠ .sending
  isOpen : s.output.isOpen = true
  outstanding : s.output.outstanding = []

/-- Nobody is told to wait at a moment, as long as the monitor goes on. -/
structure Moment.HasRoom (m : Moment) : Prop where
  publishers : m.after.isStopping = false → ∀ ticket x, .published ticket x .blocked ∉ m.seen
  watches : ∀ w ∈ m.after.unfinished, w.phase ≠ .sending

/-- Whether a publisher is told to wait. -/
def Observation.isBlocked : Observation → Bool
  | .published _ _ .blocked => true
  | _ => false

instance (m : Moment) : Decidable m.HasRoom :=
  decidable_of_iff
    ((m.after.isStopping = false → ∀ o ∈ m.seen, o.isBlocked = false) ∧ ∀ w ∈ m.after.unfinished, w.phase ≠ .sending)
    ⟨fun h => ⟨fun hgoing ticket x hmem => by simpa [Observation.isBlocked] using h.1 hgoing _ hmem, h.2⟩,
      fun h => ⟨fun hgoing o ho => by
        unfold Observation.isBlocked
        split
        · exact absurd ho (h.publishers hgoing _ _)
        · rfl, h.watches⟩⟩

theorem Flowing.take {x : Signal} {channel : Channel Signal} (hf : Flowing q)
    (ht : q.channel.take = some (x, channel)) :
    Flowing { q with channel := channel } :=
  ⟨hf.isClosed, (Channel.isOpen_of_take ht).trans hf.isOpen, (Channel.outstanding_of_take ht).trans hf.outstanding,
    (Channel.capacity_of_take ht).trans hf.capacity⟩

theorem outstanding_offer_of_ne {α : Type} {d : Channel α} {ticket : Nat} {item : α}
    (hr : (d.offer ticket item).1 ≠ .blocked) : (d.offer ticket item).2.outstanding = d.outstanding := by
  unfold Channel.offer at hr ⊢
  split
  · rfl
  · split
    · rfl
    · rename_i ho hroom
      rw [if_neg ho, if_neg hroom] at hr
      exact absurd rfl hr

theorem outstanding_eq_nil_of_subset {α : Type} {d e : Channel α} (hd : d.outstanding = [])
    (hsub : ∀ x ∈ e.outstanding, x ∈ d.outstanding) : e.outstanding = [] :=
  List.eq_nil_iff_forall_not_mem.mpr fun x hx => by
    have := hsub x hx
    rw [hd] at this
    cases this

theorem Flowing.publish {ticket : Nat} {x : Signal} (hf : Flowing q) (hr : (q.publish ticket x).1 ≠ .blocked) :
    Flowing (q.publish ticket x).2 := by
  unfold SignalQueue.publish at hr ⊢
  split
  · rename_i hp
    rw [if_pos hp] at hr
    exact ⟨hf.isClosed, (Channel.isOpen_offer _ _ _).trans hf.isOpen,
      (outstanding_offer_of_ne hr).trans hf.outstanding, (Channel.capacity_offer _ _ _).trans hf.capacity⟩
  · exact hf

/-- The stream of signals flows on until the monitor stops. -/
theorem Move.flowing (hm : Move setup s a t seen) (ha : a.isCrash = false) (hs : s.Fit setup)
    (hroom : (⟨s, a, t, seen⟩ : Moment).HasRoom) (hgoing : t.isStopping = false) (hq : t.source = .queue q) :
    Flowing q := by
  have hbefore := hm.going hgoing
  obtain ⟨r, hr⟩ := hs.queue
  have hflow := hs.flowing hbefore r hr
  have kept (h : t.source = s.source) : Flowing q := hs.flowing hbefore q (h ▸ hq)
  have taken {x : Signal} {source : Source} {notices : List Notice} (hn : s.source.next = (.signal x, source, notices))
      (ht : t.source = source) : Flowing q := by
    rw [hr] at hn
    obtain ⟨-, channel, htake, rfl⟩ := next_queue_signal hn
    cases ht.symm.trans hq
    exact hflow.take htake
  cases hm with
  | heed _ hstop => rw [hbefore] at hstop; cases hstop
  | skip _ hn =>
    rw [hr] at hn
    exact absurd hn next_queue_ne_skipped
  | ignore _ hn | coalesce _ hn | passOver _ hn | rewatch _ hn | consult _ hn => exact taken hn rfl
  | endStream => cases hgoing
  | crashLoop => cases ha
  | @publish p ticket signal hp =>
    cases hr.symm.trans hp
    cases hq
    refine hflow.publish fun hb => hroom.publishers hgoing ticket signal ?_
    rw [← hb]
    exact List.mem_singleton_self _
  | @runPublisher p ticket signal hp =>
    cases hr.symm.trans hp
    cases hq
    exact ⟨hflow.isClosed, (Channel.isOpen_resume _ _).trans hflow.isOpen,
      outstanding_eq_nil_of_subset hflow.outstanding fun _ => Channel.mem_outstanding_resume,
      (Channel.capacity_resume _ _).trans hflow.capacity⟩
  | giveUp ticket hp =>
    cases hr.symm.trans hp
    cases hq
    exact ⟨hflow.isClosed, (Channel.isOpen_withdraw _ _).trans hflow.isOpen,
      outstanding_eq_nil_of_subset hflow.outstanding fun _ => Channel.mem_outstanding_withdraw,
      (Channel.capacity_withdraw _ _).trans hflow.capacity⟩
  | endPublishing hp =>
    cases hr.symm.trans hp
    cases hq
    exact ⟨hflow.isClosed, hflow.isOpen, hflow.outstanding, hflow.capacity⟩
  | write _ hf | endInput hf => rw [hf] at hr; cases hr
  | _ => exact kept rfl

/-- A loop crashes with its question only. -/
theorem Move.isCrashed_of_isCrash (hm : Move setup s a t seen) (ha : a.isCrash = false)
    (hlive : s.loop.isCrashed = false) : t.loop.isCrashed = false := by
  cases hm with
  | begin | heed | consult | endStream | abandon | shrug | record | watch | stop => rfl
  | crashLoop => cases ha
  | _ => exact hlive

/-- No watch has a delay of nothing. -/
theorem Move.delayed (hm : Move setup s a t seen) (hb : Booked s) (hdelay : ∀ kind, 0 < setup.config.delay kind)
    (hs : ∀ w ∈ s.unfinished, 0 < w.delay) : ∀ w ∈ t.unfinished, 0 < w.delay := by
  intro w hw
  cases hm.came hb hw with
  | stayed hw => exact hs w hw
  | @advanced v _ _ hv _ heq => rw [heq]; exact hs v hv
  | first _ _ _ _ _ _ heq => rw [heq]; exact hdelay .initial
  | again _ _ _ heq => rw [heq]; exact hdelay .existing

/-- Nobody waits for room on the output. -/
theorem Move.outstanding (hm : Move setup s a t seen) (hs : s.output.outstanding = [])
    (hb : Booked s) (hun : ∀ w ∈ t.unfinished, w.phase ≠ .sending) : t.output.outstanding = [] := by
  cases hm with
  | crashLoop => rfl
  | @advance w _ phase output _ hw ha =>
    cases ha with
    | sleep | ask => exact hs
    | block =>
      refine absurd rfl (hun { w with phase := .sending } (mem_unfinished.mpr ⟨?_, rfl⟩))
      exact List.mem_map.mpr ⟨w, (hb.watch?.mp hw).1, by simp⟩
  | conclude _ _ he => exact outstanding_eq_nil_of_subset hs he.mem_outstanding
  | receive _ ht => exact (Channel.outstanding_of_take ht).trans hs
  | dropReceiver => exact hs
  | _ => exact hs

/-- **Every move that finds room** keeps a monitor in working order. -/
theorem State.Fit.step (hs : s.Fit setup) (step : s.step? setup a = some (t, seen))
    (hdelay : ∀ kind, 0 < setup.config.delay kind) (hcrash : a.isCrash = false) (hheld : a.dropsReceiver = false)
    (hroom : (⟨s, a, t, seen⟩ : Moment).HasRoom) : t.Fit setup := by
  have hm : Move setup s a t seen := hs.reachable.move step
  constructor
  case reachable => exact .step hs.reachable step
  case live => exact hm.isCrashed_of_isCrash hcrash hs.live
  case queue => exact hm.queue hs.queue
  case flowing => exact fun hgoing q hq => hm.flowing hcrash hs hroom hgoing hq
  case delayed => exact hm.delayed hs.reachable.booked hdelay hs.delayed
  case unblocked => exact hroom.watches
  case isOpen => exact (hm.isOpen_output hheld).trans hs.isOpen
  case outstanding => exact hm.outstanding hs.outstanding hs.reachable.booked hroom.watches

/-! ## Sessions keep it -/

theorem Work.isCrash (hw : Work c s a) : a.isCrash = false := by cases hw <;> rfl

theorem Work.dropsReceiver (hw : Work c s a) : a.dropsReceiver = false := by cases hw <;> rfl

/-- A monitor in working order stays so when time passes. -/
theorem State.Fit.later (hs : s.Fit setup) (n : Nat) : (s.later n).Fit setup :=
  ⟨.step (a := .elapse n) hs.reachable rfl, hs.live, hs.queue, hs.flowing, hs.delayed, hs.unblocked, hs.isOpen,
    hs.outstanding⟩

/-- A monitor in working order stays so while it works. -/
theorem Works.fit (hw : Works setup c s h t) (hs : s.Fit setup) (hdelay : ∀ kind, 0 < setup.config.delay kind)
    (hroom : ∀ m ∈ h, m.HasRoom) : t.Fit setup := by
  refine Works.induct (P := fun h t => (∀ m ∈ h, m.HasRoom) → t.Fit setup) hw (fun _ => hs) ?_ hroom
  intro h t a u seen _ step hwork ih hroom
  exact (ih fun m hm => hroom m (List.mem_append_left _ hm)).step step hdelay hwork.isCrash hwork.dropsReceiver
    (hroom _ (List.mem_append_right _ (List.mem_singleton_self _)))

/-- A monitor in working order stays so when an input reaches it. -/
theorem State.Fit.attempt {i : Input} (hs : s.Fit setup) (hdelay : ∀ kind, 0 < setup.config.delay kind)
    (hroom : ∀ m ∈ (s.attempt setup i).1, m.HasRoom) : (s.attempt setup i).2.Fit setup := by
  unfold State.attempt at hroom ⊢
  cases hi : i.action? with
  | none => exact hs
  | some a =>
    rw [hi] at hroom
    dsimp only at hroom ⊢
    cases step : s.step? setup a with
    | none => exact hs
    | some effect =>
      rw [step] at hroom
      have hcalm : a.isCrash = false ∧ a.dropsReceiver = false := by cases i <;> cases hi <;> exact ⟨rfl, rfl⟩
      exact hs.step step hdelay hcalm.1 hcalm.2 (hroom _ (List.mem_singleton_self _))

end ReplicaWatch.Monitor
