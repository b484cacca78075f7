import ReplicaWatch.Proofs.Monitor.Shutdown
import ReplicaWatch.Simulation.Schedule

/-!
# A stopping monitor drains

Once a cause of shutdown is recorded, a monitor needs nothing but turns of its own tasks to come to its end: no time
has to pass, no question has to be answered, and nobody has to take a name. A watch that is under way ends at its next
turn (`cancelled_at_turn`), and from then on every turn of the loop brings the end nearer (`State.remaining`).

- `State.takeTurns`: tasks take turns in any order; `run_takeTurns`: that is a run;
- `unfinished_takeTurns`, `stopped_takeTurns`: after a turn of each watch none is under way, and after enough turns of
  the loop it has stopped;
- `Closing`: what the loop has done before it drains and stops, kept by every move (`Move.closing`);
- `Run.silent_of_stopped`, `Run.last_line`: the last line of a monitor that has stopped;
- `play_receive`: what the consumer learns after the end;
- `drained_by_turns`: all of it together.
-/

namespace ReplicaWatch.Monitor

open Simulation (Task)

variable {setup : Setup} {s t u : State} {a : Action} {seen : List Observation} {h : List Moment} {w : Watch}
  {σ τ : List Task} {c : Cause} {now : Nat} {source : Source}

/-! ## Turns -/

/-- What comes of it when tasks take turns, one after another. A task that has nothing to do lets its turn pass. -/
def State.takeTurns (setup : Setup) (s : State) : List Task → List Moment × State
  | [] => ([], s)
  | k :: rest =>
    match s.step? setup k.run with
    | none => s.takeTurns setup rest
    | some (t, seen) =>
      let (h, u) := t.takeTurns setup rest
      (⟨s, k.run, t, seen⟩ :: h, u)

theorem takeTurns_cons_of_none {k : Task} (step : s.step? setup k.run = none) (rest : List Task) :
    s.takeTurns setup (k :: rest) = s.takeTurns setup rest := by
  simp [State.takeTurns, step]

theorem takeTurns_cons_of_some {k : Task} (step : s.step? setup k.run = some (t, seen)) (rest : List Task) :
    s.takeTurns setup (k :: rest) =
      (⟨s, k.run, t, seen⟩ :: (t.takeTurns setup rest).1, (t.takeTurns setup rest).2) := by
  simp [State.takeTurns, step]

theorem run_takeTurns (setup : Setup) (s : State) (σ : List Task) :
    Run setup s (s.takeTurns setup σ).1 (s.takeTurns setup σ).2 := by
  induction σ generalizing s with
  | nil => exact .nil
  | cons k rest ih =>
    cases step : s.step? setup k.run with
    | none =>
      rw [takeTurns_cons_of_none step]
      exact ih s
    | some effect =>
      rw [takeTurns_cons_of_some step]
      exact (Run.single step).trans (ih effect.1)

theorem takeTurns_append (setup : Setup) (s : State) (σ τ : List Task) :
    (s.takeTurns setup (σ ++ τ)).2 = ((s.takeTurns setup σ).2.takeTurns setup τ).2 := by
  induction σ generalizing s with
  | nil => rfl
  | cons k rest ih =>
    rw [List.cons_append]
    cases step : s.step? setup k.run with
    | none =>
      rw [takeTurns_cons_of_none step, takeTurns_cons_of_none step]
      exact ih s
    | some effect =>
      rw [takeTurns_cons_of_some step, takeTurns_cons_of_some step]
      exact ih effect.1

/-! ## The turns of watches -/

/-- After shutdown a watch that is under way can take a turn, whatever it waits for, and ends with it. -/
theorem cancelled_at_turn (setup : Setup) (hb : Booked s) (hs : s.isStopping = true) (hw : w ∈ s.unfinished) :
    ∃ t seen, s.step? setup (.runWatch w.id) = some (t, seen) ∧ ∀ v ∈ t.unfinished, v.id ≠ w.id := by
  obtain ⟨hmem, ho⟩ := mem_unfinished.mp hw
  have hfind : s.watch? w.id = some w := hb.watch?.mpr ⟨hmem, rfl⟩
  have cancelled (output : Channel String)
      (step : s.runWatch setup w.id = some ({ s with output := output }.cancelWatch w)) :
      ∃ t seen, s.step? setup (.runWatch w.id) = some (t, seen) ∧ ∀ v ∈ t.unfinished, v.id ≠ w.id := by
    rw [State.cancelWatch_eq] at step
    exact ⟨_, _, step, fun v hv => (mem_unfinished_conclude.mp hv).2⟩
  cases hp : w.phase with
  | scheduled => exact cancelled s.output (by simp [State.runWatch, hfind, hp, hs])
  | waiting deadline => exact cancelled s.output (by simp [State.runWatch, hfind, hp, hs])
  | asking => exact cancelled s.output (by simp [State.runWatch, hfind, hp, hs])
  | sending => exact cancelled (s.output.withdraw w.id) (by simp [State.runWatch, hfind, hp, hs])
  | finished o => rw [hp] at ho; cases ho
  | crashed report => rw [hp] at ho; cases ho

/-- After shutdown, when every watch that was under way has had a turn, none is under way any more. -/
theorem unfinished_takeTurns (hs : Reachable setup s) (hstop : s.isStopping = true)
    (hσ : ∀ w ∈ s.unfinished, Task.watch w.id ∈ σ) : (s.takeTurns setup σ).2.unfinished = [] := by
  induction σ generalizing s with
  | nil => exact List.eq_nil_iff_forall_not_mem.mpr fun w hw => absurd (hσ w hw) List.not_mem_nil
  | cons k rest ih =>
    cases step : s.step? setup k.run with
    | none =>
      rw [takeTurns_cons_of_none step]
      refine ih hs hstop fun w hw => ?_
      rcases List.mem_cons.mp (hσ w hw) with rfl | hmem
      · -- a watch under way could have taken the turn
        obtain ⟨t, seen, step', -⟩ := cancelled_at_turn setup hs.booked hstop hw
        cases step.symm.trans step'
      · exact hmem
    | some effect =>
      obtain ⟨t, seen⟩ := effect
      rw [takeTurns_cons_of_some step]
      have hm := hs.move step
      refine ih (.step hs step) (hm.isStopping hstop) fun w hw => ?_
      have hws : w ∈ s.unfinished := hm.unfinished_subset hstop w hw
      rcases List.mem_cons.mp (hσ w hws) with rfl | hmem
      · obtain ⟨t', seen', step', hgone⟩ := cancelled_at_turn setup hs.booked hstop hws
        cases step.symm.trans step'
        exact absurd rfl (hgone w hw)
      · exact hmem

/-! ## The turns of the loop -/

/-- How many turns the loop needs after shutdown until it has stopped, if nothing is left to take note of. -/
def LoopPhase.remaining : LoopPhase → Nat
  | starting => 3
  | listening => 2
  | consulting _ => 3
  | draining => 1
  | stopped _ => 0
  | crashed _ => 0

/-- How many turns the loop needs after shutdown until it has stopped, if no watch is under way. -/
def State.remaining (s : State) : Nat := s.loop.remaining + s.watches.length

/-- After shutdown nothing takes the loop farther from its end. -/
theorem Move.remaining_le (hm : Move setup s a t seen) (hs : s.isStopping = true) : t.remaining ≤ s.remaining := by
  have going {P : Prop} (h : s.isStopping = false) : P := by rw [hs] at h; cases h
  unfold State.remaining
  cases hm with
  | begin hl | heed hl | abandon hl | stop hl => simp [hl, LoopPhase.remaining]
  | reap => exact Nat.add_le_add_left (List.length_eraseP_le) _
  | skip hl | ignore hl | coalesce hl | passOver hl | rewatch hl | consult hl | endStream hl => exact going hl.going
  | shrug _ hg | record _ hg | watch _ hg | crashLoop _ hg => exact going hg
  | advance | crashWatch => exact Nat.add_le_add_left (Nat.le_of_eq (length_setPhase s _ _)) _
  | @conclude w _ o => exact Nat.add_le_add_left (Nat.le_of_eq (length_setPhase s w.id (.finished o))) _
  | _ => exact Nat.le_refl _

theorem Move.isCrashed (hm : Move setup s a t seen) (hs : s.isStopping = true) (hlive : s.loop.isCrashed = false) :
    t.loop.isCrashed = false := by
  cases hm with
  | crashLoop _ hg => rw [hs] at hg; cases hg
  | begin | heed | consult | endStream | abandon | shrug | record | watch | stop => rfl
  | _ => exact hlive

/-- What every run after shutdown keeps: the monitor goes on stopping, and the loop comes no farther from its end. -/
theorem Run.remaining_le (hs : Reachable setup s) (hstop : s.isStopping = true) (hlive : s.loop.isCrashed = false)
    (hr : Run setup s h t) : t.isStopping = true ∧ t.loop.isCrashed = false ∧ t.remaining ≤ s.remaining := by
  refine Run.induct (P := fun _ t => t.isStopping = true ∧ t.loop.isCrashed = false ∧ t.remaining ≤ s.remaining) hs
    ⟨hstop, hlive, Nat.le_refl _⟩ ?_ hr
  rintro h t a u seen - ht hm ⟨hts, htl, hle⟩
  exact ⟨hm.isStopping hts, hm.isCrashed hts htl, Nat.le_trans (hm.remaining_le hts) hle⟩

theorem LoopPhase.remaining_le_three (l : LoopPhase) : l.remaining ≤ 3 := by
  cases l <;> simp [remaining]

/-- After shutdown, when no watch is under way, the loop can take turns until it has stopped. -/
theorem exists_turn_of_loop (setup : Setup) (hstop : s.isStopping = true) (hidle : s.unfinished = [])
    (hl : 0 < s.loop.remaining) :
    ∃ t seen, s.step? setup .runLoop = some (t, seen) ∧ t.remaining < s.remaining := by
  unfold State.remaining
  cases h : s.loop with
  | starting =>
    refine ⟨{ s with loop := .listening }, _, by simp only [State.step?, State.runLoop, h]; rfl, ?_⟩
    simp [LoopPhase.remaining]
  | listening =>
    refine ⟨_, _, by simp only [State.step?, State.runLoop, h, hstop, if_true]; rfl, ?_⟩
    simp [LoopPhase.remaining]
  | consulting r =>
    refine ⟨_, _, by simp only [State.step?, State.runLoop, h, hstop, if_true]; rfl, ?_⟩
    simp [LoopPhase.remaining]
  | draining =>
    cases hr : s.reap with
    | some effect =>
      obtain ⟨t, seen⟩ := effect
      refine ⟨t, seen, by simp only [State.step?, State.runLoop, h, hr], ?_⟩
      obtain ⟨w, hw, rfl, -⟩ := eq_of_reap hr
      have hlen : (s.watches.eraseP fun w => w.phase.isOver).length = s.watches.length - 1 :=
        List.length_eraseP_of_mem (List.mem_of_find?_eq_some hw) (by simpa using List.find?_some hw)
      have hpos : 0 < s.watches.length := List.length_pos_of_mem (List.mem_of_find?_eq_some hw)
      show s.loop.remaining + (s.watches.eraseP fun w => w.phase.isOver).length < _
      rw [h, hlen]
      omega
    | none =>
      -- no watch is over and none is under way
      have hempty : s.watches = [] := by
        refine List.eq_nil_iff_forall_not_mem.mpr fun w hw => ?_
        have ho : w.phase.isOver = false := by
          simpa using List.find?_eq_none.mp (reap_eq_none_iff.mp hr) w hw
        have hwu : w ∈ s.unfinished := mem_unfinished.mpr ⟨hw, ho⟩
        rw [hidle] at hwu
        cases hwu
      refine ⟨{ s with loop := .stopped (s.cause.getD .stopped) }, _,
        by simp only [State.step?, State.runLoop, h, hr, hempty, List.isEmpty_nil, if_true]; rfl, ?_⟩
      simp [LoopPhase.remaining]
  | stopped c => rw [h] at hl; cases hl
  | crashed report => rw [h] at hl; cases hl

/-- A loop that needs no more turns has stopped. -/
theorem LoopPhase.stopped_of_remaining {l : LoopPhase} (hl : l.remaining = 0) (hlive : l.isCrashed = false) :
    ∃ c, l = .stopped c := by
  cases l with
  | stopped c => exact ⟨c, rfl⟩
  | crashed report => cases hlive
  | starting | listening | consulting | draining => cases hl

/-- After shutdown, when no watch is under way, every turn of the loop counts, until there is nothing left to do. -/
theorem remaining_of_turn {k : Task} {n : Nat} (hs : Reachable setup s) (hstop : s.isStopping = true)
    (hidle : s.unfinished = []) (hlive : s.loop.isCrashed = false)
    (hn : s.remaining ≤ n + if k = .loop then 1 else 0) :
    (s.step? setup k.run = none → s.remaining ≤ n) ∧
      ∀ t seen, s.step? setup k.run = some (t, seen) → t.remaining ≤ n := by
  -- a loop that needs no more turns has stopped, and then there are no watches to take note of
  have finished (hl : ¬ 0 < s.loop.remaining) : s.remaining = 0 := by
    have hz : s.loop.remaining = 0 := by omega
    obtain ⟨c, hc⟩ := LoopPhase.stopped_of_remaining hz hlive
    unfold State.remaining
    rw [hz, hs.watches_of_stopped c hc]
    rfl
  by_cases hk : k = .loop
  · subst hk
    by_cases hl : 0 < s.loop.remaining
    · obtain ⟨t, seen, step, hlt⟩ := exists_turn_of_loop setup hstop hidle hl
      constructor
      · intro hnone
        cases hnone.symm.trans step
      · intro t' seen' step'
        cases step.symm.trans step'
        simp at hn
        omega
    · constructor
      · intro _
        rw [finished hl]
        exact Nat.zero_le n
      · intro t seen step
        have := (hs.move step).remaining_le hstop
        have := finished hl
        omega
  · rw [if_neg hk] at hn
    exact ⟨fun _ => hn, fun t seen step => Nat.le_trans ((hs.move step).remaining_le hstop) hn⟩

/-- After shutdown, when no watch is under way, the loop stops after enough turns. -/
theorem stopped_takeTurns (hs : Reachable setup s) (hstop : s.isStopping = true) (hidle : s.unfinished = [])
    (hlive : s.loop.isCrashed = false) (hτ : s.remaining ≤ τ.count .loop) :
    ∃ c, (s.takeTurns setup τ).2.loop = .stopped c := by
  induction τ generalizing s with
  | nil =>
    have hz : s.loop.remaining = 0 := by
      rw [List.count_nil] at hτ
      unfold State.remaining at hτ
      omega
    exact LoopPhase.stopped_of_remaining hz hlive
  | cons k rest ih =>
    rw [List.count_cons] at hτ
    obtain ⟨hnone, hsome⟩ := remaining_of_turn (k := k) hs hstop hidle hlive (by simpa using hτ)
    cases step : s.step? setup k.run with
    | none =>
      rw [takeTurns_cons_of_none step]
      exact ih hs hstop hidle hlive (hnone step)
    | some effect =>
      obtain ⟨t, seen⟩ := effect
      rw [takeTurns_cons_of_some step]
      have hm := hs.move step
      have hidle' : t.unfinished = [] := by
        refine List.eq_nil_iff_forall_not_mem.mpr fun w hw => ?_
        have := hm.unfinished_subset hstop w hw
        rw [hidle] at this
        cases this
      exact ih (.step hs step) (hm.isStopping hstop) hidle' (hm.isCrashed hstop hlive) (hsome t seen step)

/-! ## Before the end -/

/-- A loop that takes no more signals has closed their stream; it drains for a cause, and stops for that cause. -/
structure Closing (s : State) : Prop where
  closed : s.loop.isActive = false → s.source.isClosed = true
  draining : s.loop = .draining → s.isStopping = true
  stopped : ∀ c, s.loop = .stopped c → s.cause = some c

theorem Closing.of_listening (hl : s.loop = .listening) : Closing s := by
  constructor
  · intro h
    rw [hl] at h
    cases h
  · intro h
    rw [hl] at h
    cases h
  · intro c h
    rw [hl] at h
    cases h

/-- Every move keeps what the loop has done before its end. -/
theorem Move.closing (hm : Move setup s a t seen) (hc : Closing s) : Closing t := by
  have closed {x : Source} (hx : s.source = x) (hl : s.loop.isActive = false) : x.isClosed = true := by
    rw [← hx]
    exact hc.closed hl
  cases hm with
  | begin | abandon | shrug | record | watch => exact .of_listening rfl
  | skip hl | ignore hl | coalesce hl | passOver hl | rewatch hl => exact .of_listening hl.loop
  | consult => exact ⟨nofun, nofun, nofun⟩
  | heed _ hs => exact ⟨fun _ => Source.isClosed_close _, fun _ => hs, nofun⟩
  | endStream => exact ⟨fun _ => Source.isClosed_close _, fun _ => rfl, nofun⟩
  | crashLoop => exact ⟨fun _ => Source.isClosed_close _, nofun, nofun⟩
  | stop hl hw =>
    refine ⟨fun _ => hc.closed (by rw [hl]; rfl), nofun, fun c h => ?_⟩
    obtain ⟨cause, hcause⟩ := Option.isSome_iff_exists.mp (hc.draining hl)
    cases h
    show s.cause = some (s.cause.getD .stopped)
    rw [hcause]
    rfl
  | conclude =>
    refine ⟨hc.closed, fun hl => ?_, fun c hl => ?_⟩
    · have := hc.draining hl
      show (s.cause.or _).isSome = true
      rw [Option.isSome_or, show s.cause.isSome = true from this, Bool.true_or]
    · show s.cause.or _ = some c
      rw [hc.stopped c hl]
      rfl
  | requestStop hs =>
    refine ⟨hc.closed, fun _ => rfl, fun c hl => ?_⟩
    have := hc.stopped c hl
    unfold State.isStopping at hs
    rw [this] at hs
    cases hs
  | publish ticket signal hq =>
    exact ⟨fun hl => Source.isClosed_publish (closed hq hl) _ _, hc.draining, hc.stopped⟩
  | runPublisher hq => exact ⟨fun hl => Source.isClosed_resume (closed hq hl) _, hc.draining, hc.stopped⟩
  | giveUp ticket hq => exact ⟨fun hl => Source.isClosed_withdraw (closed hq hl) _, hc.draining, hc.stopped⟩
  | endPublishing hq => exact ⟨fun hl => (closed hq hl :), hc.draining, hc.stopped⟩
  | write bytes hf => exact ⟨fun hl => (closed hf hl :), hc.draining, hc.stopped⟩
  | endInput hf => exact ⟨fun hl => (closed hf hl :), hc.draining, hc.stopped⟩
  | _ => exact ⟨hc.closed, hc.draining, hc.stopped⟩

theorem Reachable.closing (hs : Reachable setup s) : Closing s :=
  hs.induct (fun _ _ => ⟨nofun, nofun, nofun⟩) Move.closing

/-- No turn after shutdown puts anything on the output or takes anything from it. -/
theorem Move.buffer_of_turn {k : Task} (hm : Move setup s k.run t seen) (hs : s.isStopping = true) :
    t.output.buffer = s.output.buffer := by
  have going {P : Prop} (h : s.isStopping = false) : P := by rw [hs] at h; cases h
  generalize ha : k.run = a at hm
  cases hm with
  | crashLoop _ hg => exact going hg
  | advance _ he =>
    cases he with
    | sleep _ hg | ask _ hg | block _ hg => exact going hg
  | conclude _ _ he =>
    cases he with
    | cancel => rfl
    | withdraw => exact Channel.buffer_withdraw _ _
    | vanish _ hg | mismatch _ hg | settle _ hg | send _ hg | sendLater _ hg | refuse _ hg | refuseLater _ hg
    | fail _ hg => exact going hg
  | receive | dropReceiver => cases k <;> cases ha
  | _ => rfl

theorem buffer_takeTurns (hs : Reachable setup s) (hstop : s.isStopping = true) (σ : List Task) :
    (s.takeTurns setup σ).2.output.buffer = s.output.buffer := by
  induction σ generalizing s with
  | nil => rfl
  | cons k rest ih =>
    cases step : s.step? setup k.run with
    | none =>
      rw [takeTurns_cons_of_none step]
      exact ih hs hstop
    | some effect =>
      obtain ⟨t, seen⟩ := effect
      rw [takeTurns_cons_of_some step]
      have hm := hs.move step
      exact (ih (.step hs step) (hm.isStopping hstop)).trans (hm.buffer_of_turn hstop)

/-! ## After the end -/

/-- A loop that has stopped had stopped before, or says so. -/
theorem Move.stops (hm : Move setup s a t seen) (hl : t.loop = .stopped c) :
    s.loop = .stopped c ∨ seen = [.notice (.monitorStopped setup.monitor c t.registry.size)] := by
  cases hm with
  | stop =>
    cases hl
    exact Or.inr rfl
  | begin | heed | consult | endStream | abandon | shrug | record | watch | crashLoop => cases hl
  | _ => exact Or.inl hl

/-- Once the loop has stopped, nothing is reported, and the registry stays as it is. -/
theorem Move.of_stopped (hm : Move setup s a t seen) (hl : s.loop = .stopped c) (hw : s.watches = [])
    (hs : s.isStopping = true) :
    t.loop = .stopped c ∧ t.registry = s.registry ∧ seen.filterMap Observation.notice? = [] := by
  have other {P : Prop} {l : LoopPhase} (h : s.loop = l) (hne : l ≠ .stopped c) : P := absurd (h.symm.trans hl) hne
  have none {P : Prop} {w : Watch} (h : s.watch? w.id = some w) : P := by
    have := List.mem_of_find?_eq_some h
    rw [hw] at this
    cases this
  cases hm with
  | begin h | heed h | abandon h | shrug h | record h | watch h | crashLoop h | stop h => exact other h nofun
  | reap h => rcases h with ⟨h, -⟩ | h <;> exact other h nofun
  | skip h | ignore h | coalesce h | passOver h | rewatch h | consult h | endStream h => exact other h.loop nofun
  | advance h | crashWatch h | conclude h => exact none h
  | requestStop hg => rw [hs] at hg; cases hg
  | _ => exact ⟨hl, rfl, rfl⟩

theorem Reachable.isStopping_of_stopped (hs : Reachable setup s) (hl : s.loop = .stopped c) :
    s.isStopping = true := by
  unfold State.isStopping
  rw [hs.closing.stopped c hl]
  rfl

/-- **Nothing is reported after the end.** -/
theorem Run.silent_of_stopped (hs : Reachable setup s) (hl : s.loop = .stopped c) (hr : Run setup s h t) :
    t.loop = .stopped c ∧ t.registry = s.registry ∧ reported h = [] := by
  refine Run.induct (P := fun h t => t.loop = .stopped c ∧ t.registry = s.registry ∧ reported h = []) hs
    ⟨hl, rfl, rfl⟩ ?_ hr
  rintro h t a u seen _ ht hm ⟨htl, htr, hrep⟩
  obtain ⟨hul, hur, hseen⟩ := hm.of_stopped htl (ht.watches_of_stopped c htl) (ht.isStopping_of_stopped htl)
  refine ⟨hul, hur.trans htr, ?_⟩
  rw [reported_append, reported_singleton, hrep, hseen]
  rfl

/-- **The last line** of a monitor that has stopped says so, and for what cause. -/
theorem Run.last_line (hr : Run setup (State.start setup now source) h s) (hl : s.loop = .stopped c) :
    ∃ lines, reported h = lines ++ [.monitorStopped setup.monitor c s.registry.size] := by
  refine Run.induct (P := fun h s => s.loop = .stopped c → ∃ lines,
    reported h = lines ++ [.monitorStopped setup.monitor c s.registry.size]) (.start now source) nofun ?_ hr hl
  intro h t a u seen _ ht hm ih hul
  rw [reported_append, reported_singleton]
  rcases hm.stops hul with htl | hseen
  · obtain ⟨lines, hlines⟩ := ih htl
    obtain ⟨-, hur, hseen⟩ := hm.of_stopped htl (ht.watches_of_stopped c htl) (ht.isStopping_of_stopped htl)
    exact ⟨lines, by rw [hseen, hlines, hur, List.append_nil]⟩
  · exact ⟨reported h, by rw [hseen]; rfl⟩

/-- A consumer takes the names that have arrived, and then learns that there will be no more. -/
theorem play_receive (setup : Setup) (ho : s.output.isOpen = true) (he : s.isOutputEnded = true) (n : Nat) :
    ∃ h t, s.play setup (List.replicate (s.output.buffer.length + n) .receive) = some (h, t) ∧
      observations h = s.output.buffer.map .received ++ List.replicate n .outputEnded := by
  generalize hb : s.output.buffer = names
  induction names generalizing s with
  | nil =>
    have step : s.step? setup .receive = some (s, [.outputEnded]) := by
      simp [State.step?, State.receive, ho, Channel.take, hb, he]
    induction n with
    | zero => exact ⟨[], s, rfl, rfl⟩
    | succ n ih =>
      obtain ⟨h, t, hplay, hseen⟩ := ih
      rw [List.length_nil, Nat.zero_add] at hplay ⊢
      refine ⟨⟨s, .receive, s, [.outputEnded]⟩ :: h, t, ?_, ?_⟩
      · rw [List.replicate_succ]
        simp only [State.play, step, hplay]
      · rw [List.replicate_succ]
        show .outputEnded :: observations h = _
        rw [hseen]
        rfl
  | cons name rest ih =>
    let output : Channel String := Channel.refill { s.output with buffer := rest }
    have step : s.step? setup .receive = some ({ s with output := output }, [.received name]) := by
      simp [State.step?, State.receive, ho, Channel.take, hb, output]
    obtain ⟨h, t, hplay, hseen⟩ := ih (s := { s with output := output }) (by simpa [output] using ho) he
      (by simp [output])
    refine ⟨⟨s, .receive, { s with output := output }, [.received name]⟩ :: h, t, ?_, ?_⟩
    · rw [List.length_cons, Nat.add_right_comm, List.replicate_succ]
      simp only [State.play, step, hplay]
    · show .received name :: observations h = _
      rw [hseen]
      rfl

/-- **A stopping monitor drains promptly.** Let a cause of shutdown be recorded and the loop not have crashed. When
every watch under way has had a turn, and the loop as many turns after that as there are watches to take note of and
three more, in any order and with any other turns in between, then no watch is under way, the stream of signals is
closed, the loop has stopped for that cause, and nobody can put a name on the output any more: a consumer takes the
names that had arrived before, and then learns that there will be no more. The line that says so is the last one,
whatever happens afterwards. -/
theorem drained_by_turns (hr : Run setup (State.start setup now source) h s) (hc : s.cause = some c)
    (hlive : s.loop.isCrashed = false) (hσ : ∀ w ∈ s.unfinished, Task.watch w.id ∈ σ)
    (hτ : s.watches.length + 3 ≤ τ.count .loop) :
    let p := s.takeTurns setup (σ ++ τ)
    Run setup s p.1 p.2 ∧ p.2.loop = .stopped c ∧ p.2.unfinished = [] ∧ p.2.source.isClosed = true ∧
    p.2.isOutputEnded = true ∧ p.2.output.buffer = s.output.buffer ∧
    (p.2.output.isOpen = true → ∀ n, ∃ k u,
      p.2.play setup (List.replicate (s.output.buffer.length + n) .receive) = some (k, u) ∧
      observations k = s.output.buffer.map .received ++ List.replicate n .outputEnded) ∧
    (∃ lines, reported (h ++ p.1) = lines ++ [.monitorStopped setup.monitor c p.2.registry.size]) ∧
    ∀ k u, Run setup p.2 k u → reported k = [] := by
  intro p
  have hs : Reachable setup s := hr.reachable (.start now source)
  have hstop : s.isStopping = true := by
    unfold State.isStopping
    rw [hc]
    rfl
  have hp : Run setup s p.1 p.2 := run_takeTurns setup s (σ ++ τ)
  have hreach : Reachable setup p.2 := hp.reachable hs
  -- after the first part no watch is under way, so from then on the turns of the loop count
  have hfirst : Run setup s (s.takeTurns setup σ).1 (s.takeTurns setup σ).2 := run_takeTurns setup s σ
  have hidle : (s.takeTurns setup σ).2.unfinished = [] := unfinished_takeTurns hs hstop hσ
  obtain ⟨hmstop, hmlive, hmle⟩ := hfirst.remaining_le hs hstop hlive
  have hthree := s.loop.remaining_le_three
  obtain ⟨d, hd⟩ : ∃ d, p.2.loop = .stopped d := by
    show ∃ d, (s.takeTurns setup (σ ++ τ)).2.loop = .stopped d
    rw [takeTurns_append]
    refine stopped_takeTurns (hfirst.reachable hs) hmstop hidle hmlive (Nat.le_trans hmle ?_)
    unfold State.remaining
    omega
  obtain rfl : d = c := by
    have hcause := hreach.closing.stopped d hd
    rw [(hp.frozen hs hstop).cause, hc] at hcause
    exact (Option.some.inj hcause).symm
  have hnone : p.2.unfinished = [] := by
    unfold State.unfinished
    rw [hreach.watches_of_stopped d hd]
    rfl
  have hinactive : p.2.loop.isActive = false := by
    rw [hd]
    rfl
  have hended : p.2.isOutputEnded = true := by
    unfold State.isOutputEnded
    rw [hinactive, hnone]
    rfl
  have hbuffer : p.2.output.buffer = s.output.buffer := buffer_takeTurns hs hstop (σ ++ τ)
  refine ⟨hp, hd, hnone, hreach.closing.closed hinactive, hended, hbuffer, fun ho n => ?_,
    (hr.trans hp).last_line hd, fun k u hk => (hk.silent_of_stopped hreach hd).2.2⟩
  have := play_receive setup ho hended n
  rwa [hbuffer] at this

/-- The moves of a monitor that is asked to stop in the middle of everything: the name of one resource has arrived,
that of the next waits for room, the watch of a third has crashed, and the question about a fourth hangs. -/
def entangling (first second third : String) : List Action :=
  watchingAll [first, second, third] ++
    [.runWatch 0, .runWatch 1, .runWatch 2, .elapse 60000, .runWatch 0, .runWatch 1, .runWatch 2, .runLoop,
      .answerReplicas 0 (.ok [Replica.onDrbd first "n" true]), .answerReplicas 1 (.ok [Replica.onDrbd second "n" true]),
      .crashWatch 2 "panic", .requestStop]

theorem entangled_monitor_drains :
    let p := (State.start { monitor := "m" } 0 (signalsOf ["a", "b", "c", "d"])).played { monitor := "m" }
      (entangling "a" "b" "c")
    let q := p.2.takeTurns { monitor := "m" } ([.watch 1] ++ List.replicate 6 .loop)
    p.2.loop = .consulting "d" ∧ p.2.watches.map Watch.phase = [.sending, .finished .notified, .crashed "panic"] ∧
      p.2.cause = some .stopped ∧ q.2.loop = .stopped .stopped ∧ q.2.unfinished = [] ∧ q.2.output.buffer = ["a"] ∧
      ∃ lines, reported (p.1 ++ q.1) = lines ++ [.monitorStopped "m" .stopped q.2.registry.size] := by
  intro p q
  have hr : Run { monitor := "m" } (State.start { monitor := "m" } 0 (signalsOf ["a", "b", "c", "d"])) p.1 p.2 :=
    run_played (by decide)
  have hc : p.2.cause = some .stopped := by decide
  have hlive : p.2.loop.isCrashed = false := by decide
  have hσ : ∀ w ∈ p.2.unfinished, Task.watch w.id ∈ [Task.watch 1] := by decide
  have hτ : p.2.watches.length + 3 ≤ (List.replicate 6 Task.loop).count .loop := by decide
  have hbuffer : p.2.output.buffer = ["a"] := by decide
  obtain ⟨-, hloop, hidle, -, -, hkept, -, hlast, -⟩ := drained_by_turns hr hc hlive hσ hτ
  exact ⟨by decide, by decide, hc, hloop, hidle, hkept.trans hbuffer, hlast⟩

end ReplicaWatch.Monitor
