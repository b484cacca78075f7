import Mathlib.Algebra.Order.BigOperators.Group.List
import Mathlib.Algebra.Order.Ring.Nat
import ReplicaWatch.Backend.Memory
import ReplicaWatch.Proofs.Monitor.Drain
import ReplicaWatch.Proofs.Signals.Reading

/-!
# Sessions with a cluster in memory

A session goes beat by beat. Some time passes, then something is done from outside, all in one go, and then the
monitor works until it has nothing left to do; it may also have begun to work as soon as the time had passed. The
cluster answers every question as long as the beat lasts, and no question crashes a task. In what order the tasks of
the monitor work is left open.

- `Input`, `Beat`: what is done from outside; `Work`, `Works`: what the monitor does then; `Idle`: when it is done;
- `Round.IsPlayed`, `Session`: a beat that has been played, and any number of them;
- `Labour`: what a task leaves to do and to read, `Move.labour`; `Move.effort_lt`: every work uses up some effort, so
  the monitor is done at some time;
- `State.workOff`, `State.perform`: sessions compute; `idle_workOff`, `session_perform`: every script can be played.
-/

namespace ReplicaWatch.Monitor

variable {setup : Setup} {s t u : State} {a : Action} {seen : List Observation} {h k : List Moment} {w : Watch}
  {c : MemoryCluster} {q : SignalQueue}

/-! ## What happens in a session -/

/-- Something that is done from outside. -/
inductive Input
  /-- The cluster changes. -/
  | change (f : MemoryCluster → MemoryCluster)
  | publish (ticket : Nat) (signal : Signal)
  | endPublishing
  | stop
  /-- The consumer takes a name if there is one. -/
  | receive

namespace Input

/-- What an input is to the monitor. -/
def action? : Input → Option Action
  | change _ => none
  | publish ticket signal => some (.publish ticket signal)
  | endPublishing => some .endPublishing
  | stop => some .requestStop
  | receive => some .receive

/-- What an input does to the cluster. -/
def onCluster (c : MemoryCluster) : Input → MemoryCluster
  | change f => f c
  | _ => c

end Input

/-- What is done from outside at a time. -/
structure Beat where
  /-- How many milliseconds pass before. -/
  elapsed : Nat
  inputs : List Input

/-- The cluster after a beat. -/
def Beat.onCluster (b : Beat) (c : MemoryCluster) : MemoryCluster := b.inputs.foldl Input.onCluster c

/-- An input reaches the monitor; what cannot be done is left undone. -/
def State.attempt (setup : Setup) (s : State) (i : Input) : List Moment × State :=
  match i.action? with
  | none => ([], s)
  | some a =>
    match s.step? setup a with
    | none => ([], s)
    | some (t, seen) => ([⟨s, a, t, seen⟩], t)

/-- Inputs reach the monitor, all in one go. -/
def State.given (setup : Setup) : State → List Input → List Moment × State
  | s, [] => ([], s)
  | s, i :: rest => ((s.attempt setup i).1 ++ ((s.attempt setup i).2.given setup rest).1,
      ((s.attempt setup i).2.given setup rest).2)

/-- A task of the monitor works: it runs, or its question is answered as the cluster is. -/
inductive Work (c : MemoryCluster) (s : State) : Action → Prop
  | loop : Work c s .runLoop
  | watch (id : Nat) : Work c s (.runWatch id)
  | definition {r : String} : s.loop = .consulting r → Work c s (.answerDefinition (c.definition r))
  | replicas {w : Watch} : w ∈ s.watches → w.phase = .asking →
      Work c s (.answerReplicas w.id (c.replicasOf w.resource))

/-- A run in which the monitor works. -/
structure Works (setup : Setup) (c : MemoryCluster) (s : State) (h : List Moment) (t : State) : Prop where
  run : Run setup s h t
  work : ∀ m ∈ h, Work c m.before m.action

/-- The monitor has nothing to do. -/
def Idle (setup : Setup) (c : MemoryCluster) (s : State) : Prop := ∀ a, Work c s a → s.step? setup a = none

/-- The state after some time has passed. -/
def State.later (s : State) (milliseconds : Nat) : State := { s with now := s.now + milliseconds }

/-- A beat and what has come of it. -/
structure Round where
  beat : Beat
  before : State
  moments : List Moment
  after : State

/-- A beat has been played: time has passed, the monitor has perhaps begun to work, the inputs have reached it, and it
has worked until it had nothing left to do. -/
def Round.IsPlayed (setup : Setup) (c : MemoryCluster) (r : Round) : Prop :=
  ∃ early u late,
    Works setup c (r.before.later r.beat.elapsed) early u ∧
    Works setup (r.beat.onCluster c) (u.given setup r.beat.inputs).2 late r.after ∧
    Idle setup (r.beat.onCluster c) r.after ∧
    r.moments = ⟨r.before, .elapse r.beat.elapsed, r.before.later r.beat.elapsed, []⟩ ::
      (early ++ (u.given setup r.beat.inputs).1 ++ late)

/-- Beats have been played one after the other. -/
def Session (setup : Setup) : MemoryCluster → State → List Round → Prop
  | _, _, [] => True
  | c, s, r :: rest => r.before = s ∧ r.IsPlayed setup c ∧ Session setup (r.beat.onCluster c) r.after rest

/-! ## Sessions are runs -/

theorem Works.nil (s : State) : Works setup c s [] s :=
  ⟨.nil, fun _ hm => absurd hm List.not_mem_nil⟩

theorem Works.cons (step : s.step? setup a = some (t, seen)) (ha : Work c s a) (hw : Works setup c t h u) :
    Works setup c s (⟨s, a, t, seen⟩ :: h) u := by
  refine ⟨(Run.single step).trans hw.run, fun m hm => ?_⟩
  rcases List.mem_cons.mp hm with rfl | hm
  · exact ha
  · exact hw.work m hm

theorem Works.trans (hw : Works setup c s h t) (hk : Works setup c t k u) : Works setup c s (h ++ k) u := by
  refine ⟨hw.run.trans hk.run, fun m hm => ?_⟩
  rcases List.mem_append.mp hm with hm | hm
  · exact hw.work m hm
  · exact hk.work m hm

/-- What holds of works that have just begun and is kept by every work that goes on with them holds of all works. -/
theorem Works.induct {P : List Moment → State → Prop} (hw : Works setup c s h t) (nil : P [] s)
    (snoc : ∀ {h t a u seen}, Works setup c s h t → t.step? setup a = some (u, seen) → Work c t a → P h t →
      P (h ++ [⟨t, a, u, seen⟩]) u) : P h t := by
  obtain ⟨hr, hwork⟩ := hw
  induction hr with
  | nil => exact nil
  | snoc hr step ih =>
    have hbefore := fun m hm => hwork m (List.mem_append_left _ hm)
    exact snoc ⟨hr, hbefore⟩ step (hwork _ (List.mem_append_right _ (List.mem_singleton_self _))) (ih hbefore)

theorem run_attempt (setup : Setup) (s : State) (i : Input) :
    Run setup s (s.attempt setup i).1 (s.attempt setup i).2 := by
  unfold State.attempt
  split
  · exact .nil
  · split
    · exact .nil
    · rename_i step
      exact .single step

theorem run_given (setup : Setup) (s : State) (inputs : List Input) :
    Run setup s (s.given setup inputs).1 (s.given setup inputs).2 := by
  induction inputs generalizing s with
  | nil => exact .nil
  | cons i rest ih => exact (run_attempt setup s i).trans (ih _)

/-- A beat that has been played is a run. -/
theorem Round.IsPlayed.run {r : Round} (hr : r.IsPlayed setup c) : Run setup r.before r.moments r.after := by
  obtain ⟨early, u, late, hearly, hlate, -, hmoments⟩ := hr
  rw [hmoments, ← List.singleton_append]
  exact (Run.single rfl).trans ((hearly.run.trans (run_given setup u _)).trans hlate.run)

/-! ## A queue of signals -/

theorem next_queue_signal {x : Signal} {source : Source} {notices : List Notice}
    (hn : (Source.queue q).next = (.signal x, source, notices)) :
    q.isClosed = false ∧ ∃ channel, q.channel.take = some (x, channel) ∧
      source = .queue { q with channel := channel } := by
  simp only [Source.next, SignalQueue.next] at hn
  split at hn
  · cases hn
  · rename_i hc
    refine ⟨by simpa using hc, ?_⟩
    split at hn
    · rename_i y channel ht
      cases hn
      exact ⟨channel, ht, rfl⟩
    · split at hn <;> cases hn

theorem next_queue_ended {source : Source} {notices : List Notice}
    (hn : (Source.queue q).next = (.ended, source, notices)) :
    source = .queue q ∧ (q.isClosed = false → q.channel.buffer = [] ∧ q.isPublishing = false) := by
  simp only [Source.next, SignalQueue.next] at hn
  split at hn
  · rename_i hc
    cases hn
    exact ⟨rfl, fun ho => by rw [hc] at ho; cases ho⟩
  · split at hn
    · cases hn
    · rename_i ht
      split at hn
      · cases hn
      · rename_i hp
        cases hn
        refine ⟨rfl, fun _ => ⟨Channel.buffer_eq_nil_of_take ht, ?_⟩⟩
        simp only [Bool.or_eq_true, not_or, Bool.not_eq_true] at hp
        exact hp.1

theorem next_queue_ne_skipped {source : Source} {notices : List Notice} :
    (Source.queue q).next ≠ (.skipped, source, notices) := by
  intro hn
  simp only [Source.next, SignalQueue.next] at hn
  split at hn
  · cases hn
  · split at hn
    · cases hn
    · split at hn <;> cases hn

/-! ## The monitor is done at some time -/

/-- How much a watch in a phase has still to do. -/
def WatchPhase.effort : WatchPhase → Nat
  | scheduled => 5
  | waiting _ => 4
  | asking => 3
  | sending => 2
  | finished _ => 1
  | crashed _ => 1

/-- How much a loop in a phase has still to do. -/
def LoopPhase.effort : LoopPhase → Nat
  | starting => 4
  | listening => 3
  | consulting _ => 9
  | draining => 2
  | stopped _ => 1
  | crashed _ => 1

/-- How much the monitor has still to do: with every signal comes a question and perhaps a watch. -/
def State.effort (s : State) : Nat :=
  s.loop.effort + 8 * (match s.source with
    | .queue q => q.channel.buffer.length
    | .feed _ => 0) + (s.watches.map fun w => w.phase.effort).sum

/-- A watch that goes on has less to do. -/
theorem effort_setPhase (hl : s.watches.Pairwise fun v w => v.id ≠ w.id) (hw : w ∈ s.watches) {phase : WatchPhase}
    (hlt : phase.effort < w.phase.effort) :
    ((s.setPhase w.id phase).watches.map fun w => w.phase.effort).sum <
      (s.watches.map fun w => w.phase.effort).sum := by
  rw [((watches_setPhase_perm s w.id phase).map _).sum_eq, List.map_map]
  refine List.sum_lt_sum _ _ (fun v hv => ?_) ⟨w, hw, by simpa using hlt⟩
  by_cases hid : v.id = w.id
  · rw [eq_of_id_eq hl hv hw hid]
    simpa using hlt.le
  · simp [hid]

theorem effort_eraseP (hw : s.watches.find? (fun w => w.phase.isOver) = some w) :
    ((s.watches.eraseP fun w => w.phase.isOver).map fun w => w.phase.effort).sum <
      (s.watches.map fun w => w.phase.effort).sum := by
  obtain ⟨v, l₁, l₂, -, hover, hl, herase⟩ :=
    List.exists_of_eraseP (List.mem_of_find?_eq_some hw) (List.find?_some hw)
  rw [herase, hl]
  have hpos : 0 < v.phase.effort := by cases hp : v.phase <;> simp [WatchPhase.effort]
  simp only [List.map_append, List.map_cons, List.sum_append, List.sum_cons]
  omega

/-- How much there is to do for what has been read. -/
def State.toil (s : State) : Nat := s.loop.effort + (s.watches.map fun w => w.phase.effort).sum

/-- Whether a task of the monitor acts, or is answered. -/
def Action.isTask : Action → Bool
  | .runLoop => true
  | .answerDefinition _ => true
  | .runWatch _ => true
  | .answerReplicas .. => true
  | _ => false

/-- What a task does with the stream and with what there is to do: a step of reading may bring more to do, all else
leaves less. -/
inductive Labour (s t : State) : Prop
  | spares : t.source = s.source ∨ t.source = s.source.close → t.toil < s.toil → Labour s t
  | reads {taken : Taken} {source : Source} {notices : List Notice} : s.source.next = (taken, source, notices) →
      taken.hasMore = true → t.source = source → t.toil < s.toil + 8 → Labour s t
  | ends {source : Source} {notices : List Notice} : s.source.next = (.ended, source, notices) →
      t.source = source.close → t.toil < s.toil → Labour s t

/-- A watch that is scheduled has all before it. -/
theorem toil_spawning (s : State) (r : String) (kind : DelayKind) : (s.spawning setup r kind).toil = s.toil + 5 := by
  show s.loop.effort + ((s.watches ++ [s.nextWatch setup r kind]).map fun w => w.phase.effort).sum = _
  rw [List.map_append, List.sum_append, ← Nat.add_assoc]
  rfl

/-- **A task labours.** -/
theorem Move.labour (hm : Move setup s a t seen) (hb : Booked s) (ha : a.isTask = true) : Labour s t := by
  cases hm with
  | elapse | crashLoop | crashWatch | requestStop | requestAgain | receive | receiveEnd | dropReceiver | publish
  | runPublisher | giveUp | endPublishing | write | endInput => cases ha
  | begin hl | abandon hl | shrug hl | record hl | stop hl =>
    exact .spares (Or.inl rfl) (by simp [State.toil, hl, LoopPhase.effort, State.count])
  | heed hl => exact .spares (Or.inr rfl) (by simp [State.toil, hl, LoopPhase.effort])
  | reap _ hf => exact .spares (Or.inl rfl) (Nat.add_lt_add_left (effort_eraseP hf) _)
  | skip _ hn | ignore _ hn | coalesce _ hn | passOver _ hn =>
    exact .reads hn rfl rfl (Nat.lt_add_of_pos_right (by decide))
  | rewatch _ hn =>
    refine .reads hn rfl rfl ?_
    rw [toil_spawning]
    exact Nat.add_lt_add_left (by decide : 5 < 8) s.toil
  | consult hl hn =>
    refine .reads hn rfl rfl ?_
    simp only [State.toil, State.taking, hl.loop, LoopPhase.effort]
    omega
  | endStream hl hn => exact .ends hn rfl (by simp [State.toil, hl.loop, LoopPhase.effort])
  | watch hl =>
    refine .spares (Or.inl rfl) ?_
    rw [toil_spawning]
    simp only [State.toil, hl, LoopPhase.effort]
    omega
  | @advance w _ phase _ _ hv ha =>
    have hlt : phase.effort < w.phase.effort := by
      cases ha with
      | sleep hp | ask hp | block hp => simp [hp, WatchPhase.effort]
    exact .spares (Or.inl rfl) (Nat.add_lt_add_left (effort_setPhase hb.distinct (hb.watch?.mp hv).1 hlt) _)
  | @conclude w _ o _ hv ho =>
    have hlt : (WatchPhase.finished o).effort < w.phase.effort := by
      cases hp : w.phase with
      | finished | crashed => rw [hp] at ho; cases ho
      | _ => simp [WatchPhase.effort]
    exact .spares (Or.inl rfl) (Nat.add_lt_add_left (effort_setPhase hb.distinct (hb.watch?.mp hv).1 hlt) _)

theorem Work.isTask (hw : Work c s a) : a.isTask = true := by
  cases hw <;> rfl

/-- The effort of a monitor with a queue: what there is to do for what has been read, and for each signal to come. -/
theorem effort_of_queue (hq : s.source = .queue q) : s.effort = s.toil + 8 * q.channel.buffer.length := by
  simp only [State.effort, State.toil, hq]
  omega

/-- **Every work uses up some effort.** -/
theorem Move.effort_lt (hm : Move setup s a t seen) (hb : Booked s) (hq : s.source = .queue q) (hw : Work c s a) :
    t.effort < s.effort := by
  rw [effort_of_queue hq]
  cases hm.labour hb hw.isTask with
  | spares ht hlt =>
    rcases ht with ht | ht
    · rw [effort_of_queue (ht.trans hq)]
      omega
    · rw [hq] at ht
      rw [effort_of_queue ht]
      exact Nat.add_lt_add_right hlt _
  | @reads taken _ _ hn hmore ht hlt =>
    rw [hq] at hn
    cases taken with
    | nothing | ended => cases hmore
    | skipped => exact absurd hn next_queue_ne_skipped
    | signal x =>
      obtain ⟨-, channel, htake, rfl⟩ := next_queue_signal hn
      rw [effort_of_queue ht, Channel.buffer_of_take htake, List.length_cons]
      dsimp only
      omega
  | ends hn ht hlt =>
    rw [hq] at hn
    obtain ⟨rfl, -⟩ := next_queue_ended hn
    rw [effort_of_queue ht]
    exact Nat.add_lt_add_right hlt _

/-- A monitor that takes its signals from a queue goes on to do so. -/
theorem Move.queue (hm : Move setup s a t seen) (hq : ∃ q, s.source = .queue q) : ∃ q, t.source = .queue q := by
  obtain ⟨q, hq⟩ := hq
  have taken {x : Taken} {source : Source} {notices : List Notice} (hn : s.source.next = (x, source, notices)) :
      ∃ q, source = .queue q := by
    rw [hq] at hn
    simp only [Source.next, Prod.mk.injEq] at hn
    exact ⟨_, hn.2.1.symm⟩
  cases hm with
  | skip _ hn | ignore _ hn | coalesce _ hn | passOver _ hn | rewatch _ hn | consult _ hn => exact taken hn
  | endStream _ hn =>
    obtain ⟨r, rfl⟩ := taken hn
    exact ⟨r.close, rfl⟩
  | heed | crashLoop => exact ⟨q.close, by rw [hq]; rfl⟩
  | publish | runPublisher | giveUp | endPublishing => exact ⟨_, rfl⟩
  | write _ hf | endInput hf => rw [hf] at hq; cases hq
  | _ => exact ⟨q, hq⟩

theorem Run.queue (hs : Reachable setup s) (hq : ∃ q, s.source = .queue q) (hr : Run setup s h t) :
    ∃ q, t.source = .queue q :=
  Run.induct (P := fun _ t => ∃ q, t.source = .queue q) hs hq (fun _ _ hm ih => hm.queue ih) hr

/-! ## Sessions compute -/

/-- What the tasks of a monitor may do next. -/
def State.offers (c : MemoryCluster) (s : State) : List Action :=
  .runLoop ::
    ((match s.loop with
      | .consulting r => [.answerDefinition (c.definition r)]
      | _ => []) ++
    s.watches.flatMap fun w =>
      .runWatch w.id :: if w.phase = .asking then [.answerReplicas w.id (c.replicasOf w.resource)] else [])

theorem work_of_mem_offers (ha : a ∈ s.offers c) : Work c s a := by
  rcases List.mem_cons.mp ha with rfl | ha
  · exact .loop
  rcases List.mem_append.mp ha with ha | ha
  · split at ha
    · rename_i r hl
      rw [List.mem_singleton.mp ha]
      exact .definition hl
    · cases ha
  · obtain ⟨w, hw, ha⟩ := List.mem_flatMap.mp ha
    rcases List.mem_cons.mp ha with rfl | ha
    · exact .watch w.id
    · split at ha
      · rename_i hp
        rw [List.mem_singleton.mp ha]
        exact .replicas hw hp
      · cases ha

/-- A monitor that can do nothing of what its tasks may do has nothing to do. -/
theorem idle_of_offers (h : ∀ a ∈ s.offers c, s.step? setup a = none) : Idle setup c s := by
  intro a ha
  cases ha with
  | loop => exact h _ List.mem_cons_self
  | definition hl =>
    refine h _ (List.mem_cons_of_mem _ (List.mem_append_left _ ?_))
    rw [hl]
    exact List.mem_singleton_self _
  | watch id =>
    cases hw : s.watch? id with
    | none => simp [State.step?, State.runWatch, hw]
    | some w =>
      rw [← id_of_watch? hw]
      exact h _ (List.mem_cons_of_mem _ (List.mem_append_right _ (List.mem_flatMap.mpr
        ⟨w, List.mem_of_find?_eq_some hw, List.mem_cons_self⟩)))
  | @replicas w hw hp =>
    refine h _ (List.mem_cons_of_mem _ (List.mem_append_right _ (List.mem_flatMap.mpr
      ⟨w, hw, List.mem_cons_of_mem _ ?_⟩)))
    rw [if_pos hp]
    exact List.mem_singleton_self _

/-- The first thing that a monitor can do of what its tasks may do, and what comes of it. -/
def State.next? (setup : Setup) (c : MemoryCluster) (s : State) : Option (Action × Effect) :=
  (s.offers c).findSome? fun a => (s.step? setup a).map fun effect => (a, effect)

theorem next?_eq_some {effect : Effect} (hn : s.next? setup c = some (a, effect)) :
    Work c s a ∧ s.step? setup a = some effect := by
  obtain ⟨b, hb, hstep⟩ := List.exists_of_findSome?_eq_some hn
  obtain ⟨e, he, heq⟩ := Option.map_eq_some_iff.mp hstep
  cases heq
  exact ⟨work_of_mem_offers hb, he⟩

theorem idle_of_next?_eq_none (hn : s.next? setup c = none) : Idle setup c s :=
  idle_of_offers fun a ha => by simpa using List.findSome?_eq_none_iff.mp hn a ha

/-- A monitor works, each time what it can do first, but not more often than so many times. -/
def State.workOff (setup : Setup) (c : MemoryCluster) : Nat → State → List Moment × State
  | 0, s => ([], s)
  | n + 1, s =>
    match s.next? setup c with
    | none => ([], s)
    | some (a, t, seen) => (⟨s, a, t, seen⟩ :: (t.workOff setup c n).1, (t.workOff setup c n).2)

theorem works_workOff (setup : Setup) (c : MemoryCluster) (n : Nat) (s : State) :
    Works setup c s (s.workOff setup c n).1 (s.workOff setup c n).2 := by
  induction n generalizing s with
  | zero => exact .nil s
  | succ n ih =>
    unfold State.workOff
    split
    · exact .nil s
    · rename_i hn
      obtain ⟨hwork, hstep⟩ := next?_eq_some hn
      exact .cons hstep hwork (ih _)

/-- **A monitor is done** when it has worked as often as it has effort. -/
theorem idle_workOff (c : MemoryCluster) (hs : Reachable setup s) (hq : ∃ q, s.source = .queue q) {n : Nat}
    (hn : s.effort ≤ n) : Idle setup c (s.workOff setup c n).2 := by
  induction n generalizing s with
  | zero =>
    intro a ha
    cases hstep : s.step? setup a with
    | none => exact hstep
    | some effect =>
      obtain ⟨q, hq⟩ := hq
      have := (hs.move hstep).effort_lt hs.booked hq ha
      omega
  | succ n ih =>
    unfold State.workOff
    split
    · rename_i hnone
      exact idle_of_next?_eq_none hnone
    · rename_i hsome
      obtain ⟨hwork, hstep⟩ := next?_eq_some hsome
      have hm := hs.move hstep
      obtain ⟨q, hsq⟩ := hq
      have hlt := hm.effort_lt hs.booked hsq hwork
      exact ih (hs.step hstep) (hm.queue ⟨q, hsq⟩) (by omega)

/-- A beat is played: the inputs reach the monitor as soon as the time has passed, and then it works. -/
def Beat.play (setup : Setup) (c : MemoryCluster) (s : State) (b : Beat) : Round :=
  let given := (s.later b.elapsed).given setup b.inputs
  let done := given.2.workOff setup (b.onCluster c) given.2.effort
  ⟨b, s, ⟨s, .elapse b.elapsed, s.later b.elapsed, []⟩ :: ([] ++ given.1 ++ done.1), done.2⟩

theorem isPlayed_play (c : MemoryCluster) (hs : Reachable setup s) (hq : ∃ q, s.source = .queue q) (b : Beat) :
    (b.play setup c s).IsPlayed setup c := by
  have hlater : Reachable setup (s.later b.elapsed) := hs.step (a := .elapse b.elapsed) rfl
  have hgiven := run_given setup (s.later b.elapsed) b.inputs
  exact ⟨[], s.later b.elapsed, _, .nil _, works_workOff _ _ _ _,
    idle_workOff _ (hgiven.reachable hlater) (hgiven.queue hlater hq) (Nat.le_refl _), rfl⟩

/-- Beats are played one after the other. -/
def State.perform (setup : Setup) : MemoryCluster → State → List Beat → List Round
  | _, _, [] => []
  | c, s, b :: rest => b.play setup c s :: (b.play setup c s).after.perform setup (b.onCluster c) rest

/-- **Every script can be played.** -/
theorem session_perform (c : MemoryCluster) (hs : Reachable setup s) (hq : ∃ q, s.source = .queue q)
    (script : List Beat) :
    (s.perform setup c script).map Round.beat = script ∧ Session setup c s (s.perform setup c script) := by
  induction script generalizing c s with
  | nil => exact ⟨rfl, trivial⟩
  | cons b rest ih =>
    have hplayed := isPlayed_play c hs hq b
    have hrun : Run setup s (b.play setup c s).moments (b.play setup c s).after := hplayed.run
    obtain ⟨hscript, hsession⟩ := ih (b.onCluster c) (hrun.reachable hs) (hrun.queue hs hq)
    exact ⟨congrArg (b :: ·) hscript, rfl, hplayed, hsession⟩

end ReplicaWatch.Monitor
