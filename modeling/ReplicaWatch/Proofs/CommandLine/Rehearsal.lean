import ReplicaWatch.Proofs.CommandLine.Forecast
import ReplicaWatch.Proofs.Monitor.Isolation
import ReplicaWatch.Proofs.Monitor.Justification
import ReplicaWatch.Proofs.Monitor.Pacing
import ReplicaWatch.Proofs.Monitor.Tally

/-!
# The closed form of the watch command

A monitor that watches an input to its end, before any time passes, goes on by its own tasks and by the answers of the
snapshot file. Nothing disturbs such a run, and it comes to its end: every turn leaves less to do. So the log of the
command can be told from the snapshot and the signals of the input alone.

- `Errand`: what the tasks of a monitor do by themselves; `Run.undisturbed`: runs of errands;
- `Rehearses`: a simulation that has gone on so since its monitor was started; `Rehearses.turn` is one turn of it, and
  `Rehearses.turns` all turns up to the end of the monitor;
- `watch_log_in_closed_form`: the log of the command, and of every other run over the same input.
-/

namespace ReplicaWatch

namespace Monitor

variable {answer : String → Except BackendError Definition} {setup : Setup} {s t : State} {a : Action}
  {seen : List Observation} {h : List Moment} {source : Source} {f g : Feed} {now : Nat} {r : String}

/-! ## Errands -/

/-- What the tasks of a monitor do by themselves, and what they are answered. -/
inductive Errand (answer : String → Except BackendError Definition) (s : State) : Action → Prop
  | loop : Errand answer s .runLoop
  | watch (id : Nat) : Errand answer s (.runWatch id)
  | definition {r : String} : s.loop = .consulting r → Errand answer s (.answerDefinition (answer r))

namespace Errand

theorem isTask (he : Errand answer s a) : a.isTask = true := by
  cases he <;> rfl

theorem ne_elapse (he : Errand answer s a) (ms : Nat) : a ≠ .elapse ms := by
  rintro rfl
  cases he

theorem ne_crashLoop (he : Errand answer s a) (report : String) : a ≠ .crashLoop report := by
  rintro rfl
  cases he

theorem written (he : Errand answer s a) : a.written = [] := by
  cases he <;> rfl

theorem keepsReceiver (he : Errand answer s a) : a.dropsReceiver = false := by
  cases he <;> rfl

end Errand

/-- Nothing but a crash crashes the loop. -/
theorem Move.live_after (hm : Move setup s a t seen) (ha : ∀ report, a ≠ .crashLoop report)
    (hl : s.loop.isCrashed = false) : t.loop.isCrashed = false := by
  cases hm with
  | crashLoop => exact absurd rfl (ha _)
  | begin | heed | consult | endStream | abandon | shrug | record | watch | stop => rfl
  | _ => exact hl

/-- The loop asks about a resource as long as it has not been answered. -/
theorem Move.asked (hm : Move setup s a t seen) (hl : t.loop = .consulting r) :
    s.loop = .consulting r ∨ .askedDefinition r ∈ seen := by
  cases hm with
  | consult => cases hl; exact Or.inr (List.mem_cons_of_mem _ (List.mem_singleton_self _))
  | begin | heed | endStream | abandon | shrug | record | watch | stop | crashLoop => cases hl
  | _ => exact Or.inl hl

/-- The loop goes on when its question is answered. -/
theorem answerDefinition_of_consulting (setup : Setup) (hl : s.loop = .consulting r)
    (reply : Except BackendError Definition) :
    ∃ t seen, s.step? setup (.answerDefinition reply) = some (t, seen) ∧ t.loop = .listening := by
  have enacted (u : State) (admission : Admission) : (u.enact setup r admission).1.loop = u.loop := by
    cases admission with
    | watch => rfl
    | skip reason => cases reason <;> rfl
  simp only [State.step?, State.answerDefinition, hl]
  split
  · exact ⟨_, _, rfl, rfl⟩
  · cases reply with
    | error e => exact ⟨_, _, rfl, rfl⟩
    | ok d => exact ⟨_, _, rfl, enacted _ _⟩

/-- In every run of a monitor, the delay of a watch ends after the monitor was started. -/
theorem Run.deadlines (hdelay : ∀ kind, 0 < setup.config.delay kind)
    (hr : Run setup (State.start setup now source) h s) :
    now ≤ s.now ∧ ∀ w ∈ s.unfinished, ∀ deadline, w.phase = .waiting deadline → now < deadline := by
  refine Run.induct (P := fun _ s => now ≤ s.now ∧ ∀ w ∈ s.unfinished, ∀ deadline, w.phase = .waiting deadline →
    now < deadline) (.start now source) ⟨Nat.le_refl _, nofun⟩ ?_ hr
  rintro h t a u seen - ht hm ⟨hle, hall⟩
  refine ⟨Nat.le_trans hle hm.now_le, fun w hw deadline hp => ?_⟩
  cases hm.came ht.booked hw with
  | stayed hold => exact hall w hold deadline hp
  | @advanced v phase _ hv ha heq =>
    subst heq
    cases ha with
    | sleep =>
      obtain ⟨kind, hkind⟩ := ht.delays v hv
      cases hp
      exact Nat.lt_of_le_of_lt hle (setup.clock.lt_wake _ (hkind ▸ hdelay kind))
    | ask | block => cases hp
  | first _ _ _ _ _ _ heq | again _ _ _ heq => rw [heq] at hp; cases hp

/-- Nothing disturbs a run of errands. -/
theorem Run.undisturbed (hdelay : ∀ kind, 0 < setup.config.delay kind)
    (hr : Run setup (State.start setup now source) h s) (he : ∀ m ∈ h, Errand answer m.before m.action) :
    ∀ m ∈ h, m.Undisturbed answer := by
  intro m hm
  have hem := he m hm
  have hnow : m.time = now := (hr.now_eq (.start now source) fun m hm => (he m hm).ne_elapse).2 m hm
  constructor
  case unasked => intro ha; rw [ha] at hem; cases hem
  case whole => exact hem.ne_crashLoop
  case answered =>
    intro r reply hl ha
    rw [ha] at hem
    cases hem with
    | definition hl' =>
      cases hl.symm.trans hl'
      rfl
  case early =>
    intro _ w hw deadline hp
    obtain ⟨k, l, rfl⟩ := List.append_of_mem hm
    rw [hnow]
    exact (hr.split.1.deadlines hdelay).2 w (mem_unfinished.mpr ⟨hw, by rw [hp]; rfl⟩) deadline hp

/-! ## What is left to do -/

/-- A step of reading leaves no more bytes than there were. -/
theorem length_of_next {taken : Taken} {notices : List Notice} (hn : f.next = (taken, g, notices)) :
    g.unread.length ≤ f.unread.length := by
  cases ho : f.isOpen with
  | false => cases (Feed.next_of_not_isOpen ho).symm.trans hn; exact Nat.le_refl _
  | true =>
    cases ht : Feed.takeLine f.unread f.hasEnded with
    | none => cases (Feed.next_of_takeLine_none ho ht).symm.trans hn; exact Nat.le_refl _
    | some p => cases (Feed.next_of_takeLine ho ht).symm.trans hn; exact (Feed.takeLine_shorter ht).le

/-- There is always something to read of an input that has ended, if only its end. -/
theorem next_ne_nothing {taken : Taken} {notices : List Notice} (he : f.hasEnded = true)
    (hn : f.next = (taken, g, notices)) : taken ≠ .nothing := by
  rintro rfl
  cases ho : f.isOpen with
  | false => cases (Feed.next_of_not_isOpen ho).symm.trans hn
  | true =>
    cases ht : Feed.takeLine f.unread f.hasEnded with
    | none =>
      have := (Feed.next_of_takeLine_none ho ht).symm.trans hn
      rw [he] at this
      cases this
    | some p =>
      have := congrArg Prod.fst ((Feed.next_of_takeLine ho ht).symm.trans hn)
      cases hr : LineReading.ofBytes (Feed.withoutLineEnd p.1) <;> rw [hr] at this <;> cases this

/-- A monitor that listens to an input that has ended goes on: there is always something to read. -/
theorem runLoop_of_listening (hl : s.loop = .listening) (hf : s.source = .feed f) (he : f.hasEnded = true) :
    s.runLoop setup ≠ none := by
  intro hrun
  unfold State.runLoop at hrun
  rw [hl] at hrun
  dsimp only at hrun
  split at hrun
  · cases hrun
  · have hlisten := (Option.or_eq_none_iff.mp hrun).2
    unfold State.listen at hlisten
    split at hlisten
    · rename_i hn
      rw [hf] at hn
      obtain ⟨g, -, hnext⟩ := next_of_feed hn
      exact absurd rfl (next_ne_nothing he hnext)
    all_goals cases hlisten

/-- If a monitor that drains cannot go on, one of its watches can. -/
theorem Reachable.moves_of_draining (hs : Reachable setup s) (hl : s.loop = .draining)
    (hrun : s.runLoop setup = none) : ∃ w ∈ s.watches, s.step? setup (.runWatch w.id) ≠ none := by
  unfold State.runLoop at hrun
  rw [hl] at hrun
  dsimp only at hrun
  split at hrun
  · cases hrun
  · rename_i hreap
    split at hrun
    · cases hrun
    · rename_i hempty
      obtain ⟨w, hw⟩ := List.exists_mem_of_ne_nil s.watches (by simpa using hempty)
      have hover : w.phase.isOver = false := by
        simpa using List.find?_eq_none.mp (reap_eq_none_iff.mp hreap) w hw
      obtain ⟨t, seen, step, -⟩ :=
        cancelled_at_turn setup hs.booked (hs.closing.draining hl) (mem_unfinished.mpr ⟨hw, hover⟩)
      exact ⟨w, hw, by rw [step]; exact Option.some_ne_none _⟩

/-- **A task leaves less to do** with what has been read and what is still to be read. -/
theorem Move.toil_lt (hm : Move setup s a t seen) (hb : Booked s) (ha : a.isTask = true) (hf : s.source = .feed f) :
    ∃ g, t.source = .feed g ∧ g.hasEnded = f.hasEnded ∧
      t.toil + 8 * g.unread.length < s.toil + 8 * f.unread.length := by
  cases hm.labour hb ha with
  | spares ht hlt =>
    rw [hf] at ht
    rcases ht with ht | ht
    · exact ⟨f, ht, rfl, by omega⟩
    · exact ⟨f.close, ht, rfl, Nat.add_lt_add_right hlt _⟩
  | reads hn hmore ht hlt =>
    rw [hf] at hn
    obtain ⟨g, rfl, hnext⟩ := next_of_feed hn
    have := Feed.next_shorter hnext hmore
    exact ⟨g, ht, Feed.hasEnded_of_next hnext, by omega⟩
  | ends hn ht hlt =>
    rw [hf] at hn
    obtain ⟨g, rfl, hnext⟩ := next_of_feed hn
    have := length_of_next hnext
    have hended : g.close.hasEnded = f.hasEnded := Feed.hasEnded_of_next (g := g) hnext
    refine ⟨g.close, ht, hended, ?_⟩
    show t.toil + 8 * g.unread.length < _
    omega

theorem toil_pos (s : State) : 0 < s.toil := by
  have : 0 < s.loop.effort := by cases s.loop <;> exact Nat.succ_pos _
  unfold State.toil
  omega

end Monitor

namespace Simulation

open Monitor

/-! ## Turns -/

variable {setup : Setup} {file : SnapshotFile} {source : Source} {x y : Simulation} {h : List Moment} {s t : State}
  {a : Action} {seen : List Observation} {f : Feed}

/-- A simulation that has gone on by errands since its monitor was started, with a snapshot file that answers at once. -/
structure Rehearses (setup : Setup) (file : SnapshotFile) (source : Source) (x : Simulation) (h : List Moment) (s : State) :
    Prop where
  given : x.setup = setup
  backend : x.backend = .file file
  prompt : x.definitionDisturbance = .none
  stream : x.stream = .monitored s
  observed : x.observed = observations h
  /-- Only the loop asks, and it is answered now. -/
  plans : ∀ p ∈ x.plans, p = (.loop, .due x.now)
  planned : ∀ r, s.loop = .consulting r → x.plans ≠ []
  run : Run setup (State.start setup x.now source) h s
  errands : ∀ m ∈ h, Errand file.definition m.before m.action
  live : s.loop.isCrashed = false

namespace Rehearses

theorem reachable (hx : Rehearses setup file source x h s) : Reachable setup s := hx.run.reachable (.start _ _)

theorem now_eq (hx : Rehearses setup file source x h s) : s.now = x.now :=
  (hx.run.now_eq (.start _ _) fun m hm => (hx.errands m hm).ne_elapse).1

theorem monitor? (hx : Rehearses setup file source x h s) : x.monitor? = some s := by
  unfold Simulation.monitor?
  rw [hx.stream]

theorem act (hx : Rehearses setup file source x h s) (a : Action) :
    x.act a = (s.step? setup a).map x.absorb := by
  unfold Simulation.act
  rw [hx.monitor?, hx.given]

theorem act_forget (hx : Rehearses setup file source x h s) (task : Task) (a : Action) :
    (x.forget task).act a = (s.step? setup a).map (x.forget task).absorb := by
  unfold Simulation.act
  rw [show (x.forget task).monitor? = some s from hx.monitor?, show (x.forget task).setup = setup from hx.given]

/-- No watch asks for replicas. -/
theorem not_asked (hx : Rehearses setup file source x h s) (hdelay : ∀ kind, 0 < setup.config.delay kind)
    (step : s.step? setup a = some (t, seen)) (id : Nat) (r : String) : .askedReplicas id r ∉ seen := by
  intro ho
  obtain ⟨w, hw, deadline, -, -, hp, hd, -⟩ := (hx.reachable.move step).asks ho
  have := (hx.run.deadlines hdelay).2 w hw deadline hp
  rw [hx.now_eq] at hd
  omega

/-- **An errand goes on with a rehearsal.** The plans of questions that have been answered may be forgotten. -/
theorem absorb (hx : Rehearses setup file source x h s) (hdelay : ∀ kind, 0 < setup.config.delay kind)
    (he : Errand file.definition s a) (step : s.step? setup a = some (t, seen)) {plans : List (Task × Plan)}
    (hplans : ∀ p ∈ plans, p ∈ x.plans) (hkept : ∀ r, s.loop = .consulting r → t.loop = .consulting r → plans ≠ []) :
    Rehearses setup file source ({ x with plans := plans }.absorb (t, seen)) (h ++ [⟨s, a, t, seen⟩]) t := by
  have hm := hx.reachable.move step
  constructor
  case given => exact hx.given
  case backend => exact hx.backend
  case prompt => exact hx.prompt
  case stream => rfl
  case observed =>
    rw [observations_append, observations_singleton, ← hx.observed]
    rfl
  case plans =>
    intro p hp
    rcases List.mem_append.mp hp with hp | hp
    · exact hx.plans p (hplans p hp)
    · obtain ⟨o, ho, hpo⟩ := List.mem_flatMap.mp hp
      cases o with
      | askedDefinition r =>
        rw [List.mem_singleton.mp hpo, show ({ x with plans := plans } : Simulation).definitionDisturbance = _ from
          hx.prompt]
        rfl
      | askedReplicas id r => exact absurd ho (hx.not_asked hdelay step id r)
      | _ => cases hpo
  case planned =>
    intro r hl hnil
    obtain ⟨hnone, hnew⟩ := List.append_eq_nil_iff.mp hnil
    rcases hm.asked hl with hold | hasked
    · exact hkept r hold hl hnone
    · have := List.flatMap_eq_nil_iff.mp hnew _ hasked
      cases this
  case run => exact hx.run.snoc step
  case errands =>
    intro m hm
    rcases List.mem_append.mp hm with hm | hm
    · exact hx.errands m hm
    · rw [List.mem_singleton.mp hm]
      exact he
  case live => exact hm.live_after he.ne_crashLoop hx.live

/-- Nobody but the loop is answered. -/
theorem asker (hx : Rehearses setup file source x h s) {task : Task} (hy : x.answer s task = some y) :
    task = .loop ∧ ∃ r, s.loop = .consulting r := by
  have planned {p : Task × Plan} (hf : x.plans.find? (fun p => p.1 = task) = some p) : task = .loop := by
    have htask : p.1 = task := by simpa using List.find?_some hf
    rw [hx.plans p (List.mem_of_find?_eq_some hf)] at htask
    exact htask.symm
  have asks {r : String} (hq : question? s .loop = some r) : ∃ r, s.loop = .consulting r := by
    unfold question? at hq
    dsimp only at hq
    split at hq
    · rename_i r hl
      exact ⟨r, hl⟩
    · cases hq
  unfold Simulation.answer at hy
  split at hy
  · rename_i hq hf
    obtain rfl := planned hf
    exact ⟨rfl, asks hq⟩
  · rename_i hq hf
    obtain rfl := planned hf
    exact ⟨rfl, asks hq⟩
  · cases hy

/-- Whatever the loop asks, the file answers. -/
theorem answer_of_consulting (hx : Rehearses setup file source x h s) {r : String} (hl : s.loop = .consulting r) :
    x.answer s .loop = (x.forget .loop).act (.answerDefinition (file.definition r)) := by
  have hquestion : question? s .loop = some r := by
    unfold question?
    rw [hl]
  have hfind : x.plans.find? (fun p => p.1 = .loop) = some (.loop, .due x.now) := by
    cases hp : x.plans with
    | nil => exact absurd hp (hx.planned r hl)
    | cons p rest =>
      have hfirst := hx.plans p (by rw [hp]; exact List.mem_cons_self)
      subst hfirst
      exact List.find?_cons_of_pos (by simp)
  have hsame : ({ x with backend := x.backend.countDefinition } : Simulation) = x := by
    rw [hx.backend]
    show ({ x with backend := .file file } : Simulation) = x
    rw [← hx.backend]
  unfold Simulation.answer
  rw [hquestion, hfind]
  dsimp only
  rw [if_pos (Nat.le_refl _), hsame, hx.backend]
  rfl

/-- **A turn goes on with a rehearsal.** -/
theorem turn (hx : Rehearses setup file source x h s) (hdelay : ∀ kind, 0 < setup.config.delay kind)
    (hf : s.source = .feed f) (hy : x.turn = some y) :
    ∃ a t seen, s.step? setup a = some (t, seen) ∧ a.isTask = true ∧
      Rehearses setup file source y (h ++ [⟨s, a, t, seen⟩]) t := by
  unfold Simulation.turn at hy
  rw [hx.monitor?] at hy
  obtain ⟨task, -, htask⟩ := List.exists_of_findSome?_eq_some hy
  rcases Option.or_eq_some_iff.mp htask with hact | ⟨-, hanswer⟩
  · rw [hx.act] at hact
    obtain ⟨⟨t, seen⟩, step, rfl⟩ := Option.map_eq_some_iff.mp hact
    have he : Errand file.definition s task.run := by
      cases task with
      | loop => exact .loop
      | watch id => exact .watch id
      | publisher ticket => simp [Task.run, State.step?, State.pending?, hf] at step
    exact ⟨_, t, seen, step, he.isTask, hx.absorb hdelay he step (fun p hp => hp) fun r hl _ => hx.planned r hl⟩
  · obtain ⟨rfl, r, hl⟩ := hx.asker hanswer
    have he : Errand file.definition s (.answerDefinition (file.definition r)) := .definition hl
    rw [hx.answer_of_consulting hl, hx.act_forget] at hanswer
    obtain ⟨⟨t, seen⟩, step, rfl⟩ := Option.map_eq_some_iff.mp hanswer
    refine ⟨_, t, seen, step, he.isTask, hx.absorb hdelay he step (fun p hp => (List.mem_filter.mp hp).1) ?_⟩
    obtain ⟨t', seen', step', hlisten⟩ := answerDefinition_of_consulting setup hl (file.definition r)
    cases step.symm.trans step'
    intro r' _ hl'
    rw [hlisten] at hl'
    cases hl'

/-- When no turn is left, a monitor whose input has ended has stopped. -/
theorem stopped_of_turn (hx : Rehearses setup file source x h s) (hf : s.source = .feed f) (he : f.hasEnded = true)
    (hnone : x.turn = none) : ∃ c, s.loop = .stopped c := by
  unfold Simulation.turn at hnone
  rw [hx.monitor?] at hnone
  have idle {task : Task} (ht : task ∈ tasks s) : s.step? setup task.run = none ∧ x.answer s task = none := by
    have := Option.or_eq_none_iff.mp (List.findSome?_eq_none_iff.mp hnone task ht)
    rw [hx.act, Option.map_eq_none_iff] at this
    exact this
  obtain ⟨hrun, hanswer⟩ := idle (by simp [tasks] : Task.loop ∈ tasks s)
  have hrun : s.runLoop setup = none := hrun
  cases hl : s.loop with
  | starting => simp [State.runLoop, hl] at hrun
  | listening => exact absurd hrun (runLoop_of_listening hl hf he)
  | consulting r =>
    obtain ⟨t, seen, step, -⟩ := answerDefinition_of_consulting setup hl (file.definition r)
    have hsome := hx.answer_of_consulting hl
    rw [hanswer, hx.act_forget, step] at hsome
    cases hsome
  | draining =>
    obtain ⟨w, hw, hmoves⟩ := hx.reachable.moves_of_draining hl hrun
    have hturn : Task.watch w.id ∈ tasks s := by
      simp only [tasks, List.mem_append, List.mem_map]
      exact Or.inl (Or.inl (Or.inr ⟨w, hw, rfl⟩))
    exact absurd (idle hturn).1 hmoves
  | stopped c => exact ⟨c, rfl⟩
  | crashed report =>
    have := hx.live
    rw [hl] at this
    cases this

/-- **With as many turns as there is to do** the monitor comes to its end. -/
theorem turns (hx : Rehearses setup file source x h s) (hdelay : ∀ kind, 0 < setup.config.delay kind)
    (hf : s.source = .feed f) (he : f.hasEnded = true) {n : Nat} (hn : s.toil + 8 * f.unread.length ≤ n) :
    ∃ h t c, Rehearses setup file source (turns n x) h t ∧ t.loop = .stopped c := by
  induction n generalizing x h s f with
  | zero =>
    have := toil_pos s
    omega
  | succ n ih =>
    unfold Simulation.turns
    cases hy : x.turn with
    | none =>
      obtain ⟨c, hc⟩ := hx.stopped_of_turn hf he hy
      exact ⟨h, s, c, hx, hc⟩
    | some y =>
      obtain ⟨a, t, seen, step, ha, hy⟩ := hx.turn hdelay hf hy
      obtain ⟨g, hg, hended, hlt⟩ := (hx.reachable.move step).toil_lt hx.reachable.booked ha hf
      exact ih hy hg (hended.trans he) (by omega)

/-- The consumer of a monitor that has stopped and has put out no name learns that none will come. -/
theorem tryReceive {c : Cause} (hx : Rehearses setup file source x h s) (hl : s.loop = .stopped c)
    (hunput : ∀ id r, .put id r ∉ observations h) :
    x.tryReceive = some (x.absorb (s, [.outputEnded]), .outputEnded) := by
  have hheld : Held h := fun m hm => (hx.errands m hm).keepsReceiver
  have htake : s.output.take = none := by
    unfold Channel.take
    rw [(hx.run.received_of_unput hheld hunput).2]
  have hended : s.isOutputEnded = true := by
    rw [isOutputEnded_iff, State.unfinished, hx.reachable.watches_of_stopped c hl, hl]
    exact ⟨rfl, rfl⟩
  have hstep : s.step? setup .receive = some (s, [.outputEnded]) := by
    simp [State.step?, State.receive, hx.run.isOpen_output hheld, htake, hended]
  unfold Simulation.tryReceive
  rw [hx.act, hstep]
  simp [Simulation.absorb]

/-- **A consumer is served nothing** by a monitor that comes to its end and puts out no name. -/
theorem serve {c : Cause} (hx : Rehearses setup file source x.settle h s) (hl : s.loop = .stopped c)
    (hunput : ∀ id r, .put id r ∉ observations h) {n : Nat} (hn : 0 < n) :
    (x.serve n).ending = .joined c ∧ receivedOf (x.serve n).observed = [] ∧
      Simulation.notices (x.serve n).observed = reported h := by
  have hserve : x.serve n = x.settle.absorb (s, [.outputEnded]) := by
    obtain ⟨m, rfl⟩ := Nat.exists_eq_succ_of_ne_zero hn.ne'
    rw [Simulation.serve, hx.tryReceive hl hunput]
  have hobserved : (x.serve n).observed = observations h ++ [.outputEnded] := by
    rw [hserve, ← hx.observed]
    rfl
  have hheld : Held h := fun m hm => (hx.errands m hm).keepsReceiver
  refine ⟨?_, ?_, ?_⟩
  · rw [hserve]
    exact ending_of_stopped rfl hl
  · rw [hobserved, receivedOf, List.filterMap_append]
    exact List.append_eq_nil_iff.mpr ⟨(hx.run.received_of_unput hheld hunput).1, rfl⟩
  · rw [hobserved, Simulation.notices, List.filterMap_append]
    exact List.append_nil _

end Rehearses

end Simulation

/-! ## The command -/

/-- The definitions that can be read from a file. -/
def SnapshotFile.definitions (f : SnapshotFile) : List Definition :=
  match f.load with
  | .ok s => s.definitions
  | .error _ => []

theorem SnapshotFile.definitions_of_readText {files : Files} {path text : String} {s : Snapshot}
    (ht : files.readText path = .ok text) (hs : Snapshot.parse text = .ok s) :
    SnapshotFile.definitions ⟨path, files path⟩ = s.definitions := by
  unfold SnapshotFile.definitions
  rw [load_of_text ((CommandLine.readText_eq files path).symm.trans ht), hs]

/-- A question for a definition gives the first one of the name. -/
theorem SnapshotFile.definitionBy_definition (f : SnapshotFile) :
    Monitor.definitionBy f.definition = fun r => f.definitions.find? fun d => d.name = r := by
  funext r
  unfold Monitor.definitionBy SnapshotFile.definition SnapshotFile.definitions
  cases f.load with
  | error e => rfl
  | ok s =>
    show _ = s.definition? r
    dsimp only
    cases s.definition? r <;> rfl

namespace CommandLine

open Log Monitor Simulation

variable {files : Files} {path text : String} {settings : Settings} {setup : Setup}

/-- The notices that are written to the log. -/
def Outcome.log (o : Outcome) : List Notice := o.notices.filter fun n => o.threshold.passes n.line.severity

/-- The monitor of a command once it has been started. -/
def started (monitor : String) (files : Files) (settings : Settings) (stdin : List UInt8) : Simulation :=
  { rehearsal monitor files settings stdin with
    stream :=
      .monitored (State.start { monitor := monitor, config := settings.monitorConfig } 0 (.feed (.ofBytes stdin)))
    hasHandle := true
    hasStopHandle := true
    hasReceiver := true }

/-- A configuration that is in order, with an output that can be built, starts the monitor. -/
theorem watchInput_of_valid (hv : settings.monitorConfig.validate = .ok ())
    (hb : Channel.Buildable settings.outputCapacity) (monitor : String) (files : Files) (stdin : List UInt8) :
    watchInput (rehearsal monitor files settings stdin) =
      let x := started monitor files settings stdin
      let y := x.serve x.patience
      (resultOfEnding y.ending, outputText (receivedOf y.observed) none, Simulation.notices y.observed) := by
  let x := rehearsal monitor files settings stdin
  have hstart : State.start? x.setup x.now x.subscription = .ok (State.start x.setup 0 (.feed (.ofBytes stdin))) := by
    show State.start? x.setup 0 (.ok (.feed (.ofBytes stdin))) = _
    unfold State.start?
    rw [show x.setup.config.validate = .ok () from hv]
    exact if_pos hb
  have hstarted : x.startMonitor = (started monitor files settings stdin, .done) := by
    unfold Simulation.startMonitor
    rw [hstart]
    rfl
  unfold watchInput
  rw [hstarted]

/-- A monitor that has been started has done nothing yet. -/
theorem rehearses_started (monitor : String) (files : Files) (settings : Settings) (stdin : List UInt8) :
    Rehearses { monitor := monitor, config := settings.monitorConfig }
      ⟨settings.snapshotPath, files settings.snapshotPath⟩ (.feed (.ofBytes stdin))
      (started monitor files settings stdin) []
      (State.start { monitor := monitor, config := settings.monitorConfig } 0 (.feed (.ofBytes stdin))) where
  given := rfl
  backend := rfl
  prompt := rfl
  stream := rfl
  observed := rfl
  plans := fun p hp => absurd hp List.not_mem_nil
  planned := fun r hl => by cases hl
  run := .nil
  errands := fun m hm => absurd hm List.not_mem_nil
  live := rfl

/-- **The closed form of the watch command.** Let the configuration be accepted, with everything reported and an output
that can be built, and let the snapshot file stay as it is. Whatever the input says, the command succeeds and writes
nothing to the output, and its log has as many lines of each kind as the names in the positive signals of the input and
the definitions in the file say. If no snapshot can be read, every positive signal asks in vain. The same is so of every
other run of the monitor over the input, however it is cut and whatever the tasks do in between, if nothing disturbs it:
it ends for the end of the stream, nothing has been put on the output, and the lines are as many. -/
theorem watch_log_in_closed_form (ht : files.readText path = .ok text) (hp : Settings.parse text = .ok settings)
    (hs : settings.severity? = some .trace) (hb : Channel.Buildable settings.outputCapacity) (monitor : String)
    (stdin : List UInt8) (threshold : Severity) :
    let file : SnapshotFile := ⟨settings.snapshotPath, files settings.snapshotPath⟩
    let definition? := fun r => file.definitions.find? fun d => d.name = r
    let names := positives (Feed.signals stdin)
    let outcome := perform monitor files stdin threshold (.watch path)
    outcome.result = .ok () ∧ outcome.stdout = "" ∧ Tally monitor definition? names outcome.log ∧
    ((∀ snapshot, file.load ≠ .ok snapshot) → (linesOf .quorumQueryFailed outcome.log).length = names.length) ∧
    ∀ clock now (f : Feed) h (s : State) c,
      Run ⟨monitor, settings.monitorConfig, clock⟩
        (State.start ⟨monitor, settings.monitorConfig, clock⟩ now (.feed f)) h s →
      f.isOpen = true → f.unread ++ writtenIn h = stdin →
      (∀ m ∈ h, m.writesInTime = true ∧ m.Undisturbed file.definition) → s.loop = .stopped c →
      resultOfEnding (.joined c) = .ok () ∧ (∀ id r, .put id r ∉ observations h) ∧
        Tally monitor definition? names (.configLoaded path settings.snapshotPath :: reported h) := by
  intro file definition? names outcome
  have hvalid := Settings.validate_monitorConfig hp
  have hdelay (kind : DelayKind) : 0 < settings.monitorConfig.delay kind := by
    obtain ⟨hinitial, hexisting, -⟩ := (Config.validate_eq_ok_iff _).mp hvalid
    cases kind
    · exact hinitial
    · exact hexisting
  have tallied {clock : Clock} {now : Nat} {f : Feed} {h : List Moment} {s : State} {c : Cause}
      (hr : Run ⟨monitor, settings.monitorConfig, clock⟩
        (State.start ⟨monitor, settings.monitorConfig, clock⟩ now (.feed f)) h s)
      (ho : f.isOpen = true) (hin : f.unread ++ writtenIn h = stdin) (hw : ∀ m ∈ h, m.writesInTime = true)
      (hu : ∀ m ∈ h, m.Undisturbed file.definition) (hl : s.loop = .stopped c) :
      c = .streamEnded ∧ (∀ id r, .put id r ∉ observations h) ∧
        Tally monitor definition? names (.configLoaded path settings.snapshotPath :: reported h) := by
    obtain ⟨hc, hunput, htally⟩ := hr.tally hw hu ho hl
    rw [hin, file.definitionBy_definition] at htally
    exact ⟨hc, hunput, htally.configLoaded path settings.snapshotPath⟩
  -- the command's own run: it comes to its end with the turns that it may take
  obtain ⟨h, s, c, hend, hl⟩ := (rehearses_started monitor files settings stdin).turns hdelay rfl rfl
    (show _ ≤ (started monitor files settings stdin).patience from by
      show 4 + 0 + 8 * stdin.length ≤ 8 * (0 + (stdin.length + 1)) + 16
      omega)
  have hwritten : writtenIn h = [] := List.flatMap_eq_nil_iff.mpr fun m hm => (hend.errands m hm).written
  obtain ⟨rfl, hunput, htally⟩ := tallied hend.run rfl (by rw [hwritten]; exact List.append_nil _)
    (fun m hm => by simp [Moment.writesInTime, (hend.errands m hm).written])
    (hend.run.undisturbed hdelay hend.errands) hl
  have hload : loadSettings files path = .ok (settings, .trace) := by simp only [loadSettings, ht, hp, hs]
  have hwatch : watchInput (rehearsal monitor files settings stdin) = (.ok (), "", reported h) := by
    obtain ⟨hending, hreceived, hnotices⟩ :=
      hend.serve hl hunput (show 0 < (started monitor files settings stdin).patience from Nat.succ_pos _)
    rw [watchInput_of_valid hvalid hb]
    dsimp only
    rw [hending, hreceived, hnotices]
    rfl
  have houtcome : outcome = ⟨.ok (), "", .configLoaded path settings.snapshotPath :: reported h, .trace⟩ := by
    simp only [outcome, perform, hload, hwatch]
  have hlog : outcome.log = .configLoaded path settings.snapshotPath :: reported h := by
    rw [houtcome]
    exact List.filter_eq_self.mpr fun n _ => rfl
  refine ⟨by rw [houtcome], by rw [houtcome], hlog ▸ htally, fun hnone => ?_, ?_⟩
  · have hempty : file.definitions = [] := by
      unfold SnapshotFile.definitions
      split
      · rename_i snapshot hload
        exact absurd hload (hnone snapshot)
      · rfl
    have hall : undefined definition? names = names := List.filter_eq_self.mpr fun r _ => by
      simp only [definition?, hempty]
      rfl
    rw [hlog, htally.failed, hall]
  · intro clock now f h s c hr ho hin hm hl
    obtain ⟨rfl, ht⟩ := tallied hr ho hin (fun m hmem => (hm m hmem).1) (fun m hmem => (hm m hmem).2) hl
    exact ⟨rfl, ht⟩

/-- A signal on a line of its own that a resource may be promoted. -/
def promotableLine (resource : String) : List UInt8 :=
  Text.encodeUtf8 ("\x7b\"resource_name\":\"" ++ resource ++ "\",\"may_promote\":true\x7d\n")

/-- Three signals for two resources. -/
def threeSignals : List UInt8 := promotableLine "a" ++ promotableLine "b" ++ promotableLine "a"

theorem definitions_twiceDefined : SnapshotFile.definitions ⟨"cluster.json", filesWith twiceDefined "cluster.json"⟩ =
    twiceDefinedSnapshot.definitions := by
  have htext : (filesWith twiceDefined).readText "cluster.json" = .ok twiceDefined.write :=
    readText_filesWith (by decide +kernel)
  have hdecode : Json.decodeText Snapshot.decoder twiceDefined.write = .ok twiceDefinedSnapshot :=
    Json.decodeText_eq_ok_iff.mpr ⟨_, Json.Value.spells_write _, rfl⟩
  have hparse : Snapshot.parse twiceDefined.write = .ok twiceDefinedSnapshot := by
    rw [Snapshot.parse, hdecode]
    rfl
  exact SnapshotFile.definitions_of_readText htext hparse

theorem log_of_watching_twice_defined :
    let outcome := perform "m" (filesWith twiceDefined) threeSignals .info (.watch "watch.json")
    outcome.result = .ok () ∧ outcome.stdout = "" ∧ (linesOf .resourceObserved outcome.log).length = 1 ∧
      subjects .watchScheduled outcome.log = ["a"] ∧ subjects .watchCancelled outcome.log = ["a"] ∧
      (linesOf .watchCoalesced outcome.log).length = 1 ∧ (linesOf .quorumQueryFailed outcome.log).length = 1 ∧
      (outcome.log.map Notice.line).getLast? = some ⟨.info, "MONITOR_STOPPED",
        [("monitor_id", "m"), ("reason", "stream_ended"), ("tracked_resources", "1")]⟩ := by
  obtain ⟨text, ht, hp, hs⟩ := loadSettings_eq_ok_iff.mp (loadSettings_filesWith twiceDefined)
  have hb : Channel.Buildable (Settings.outputCapacity { snapshotPath := "cluster.json", logLevel := "trace" }) := by
    decide
  have hnames : positives (Feed.signals threeSignals) = ["a", "b", "a"] := by decide +kernel
  obtain ⟨hresult, hstdout, htally, -⟩ := watch_log_in_closed_form ht hp hs hb "m" threeSignals .info
  rw [hnames, definitions_twiceDefined] at htally
  have hobserved := htally.observed.trans (by decide : _ = 1)
  have hone : (quorate (fun r => twiceDefinedSnapshot.definitions.find? fun d => d.name = r)
    ["a", "b", "a"]).eraseDups = ["a"] := by decide
  have hlast := htally.last
  rw [hobserved] at hlast
  refine ⟨hresult, hstdout, hobserved, ?_, ?_, ?_, htally.failed.trans (by decide), hlast⟩
  · exact List.perm_singleton.mp (hone ▸ htally.scheduledOnce)
  · exact List.perm_singleton.mp (hone ▸ htally.cancelledOnce)
  · have htwo : (quorate (fun r => twiceDefinedSnapshot.definitions.find? fun d => d.name = r)
      ["a", "b", "a"]).length = 1 + ["a"].length := by decide
    have hcoalesced := htally.coalesced
    rw [hone, htwo] at hcoalesced
    exact Nat.add_right_cancel hcoalesced

end CommandLine

end ReplicaWatch
