import ReplicaWatch.Proofs.Monitor.Move

/-!
# Runs of a monitor

A run is a list of moments, each a step with the states around it; any possible order of actions is a run. A state
is reachable if a run from a start leads to it.

- `Run`, `Reachable`; `observations`, `reported`: what is seen and reported in a run;
- `Run.trans`, `Run.split`, `Run.upTo`, `Run.between`: runs are put together and cut at any moment;
- `State.play`, `State.played`: the run of a list of actions, which computes; `run_iff_play` says that there are no
  other runs;
- `Reachable.move`, `Run.move_of_mem`: every step from a reachable state is a move.
-/

namespace ReplicaWatch.Monitor

/-- A step of a run: what was done, the states before and after it, and what was seen. -/
structure Moment where
  before : State
  action : Action
  after : State
  seen : List Observation

def Moment.time (m : Moment) : Nat := m.before.now

/-- A run from a state to another, moment by moment. -/
inductive Run (setup : Setup) (s : State) : List Moment → State → Prop
  | nil : Run setup s [] s
  | snoc {h : List Moment} {t u : State} {a : Action} {seen : List Observation} : Run setup s h t →
      t.step? setup a = some (u, seen) → Run setup s (h ++ [⟨t, a, u, seen⟩]) u

/-- The states that a monitor can get into. -/
inductive Reachable (setup : Setup) : State → Prop
  | start (now : Nat) (source : Source) : Reachable setup (State.start setup now source)
  | step {s t : State} {a : Action} {seen : List Observation} : Reachable setup s →
      s.step? setup a = some (t, seen) → Reachable setup t

/-- Everything that is seen in a run. -/
def observations (h : List Moment) : List Observation := h.flatMap Moment.seen

@[simp] theorem observations_append (h k : List Moment) :
    observations (h ++ k) = observations h ++ observations k := List.flatMap_append

@[simp] theorem observations_singleton (m : Moment) : observations [m] = m.seen := by simp [observations]

/-- The notice that is seen, if it is one. -/
def Observation.notice? : Observation → Option Notice
  | .notice n => some n
  | _ => none

theorem filterMap_notice? (notices : List Notice) :
    (notices.map Observation.notice).filterMap Observation.notice? = notices := by
  rw [List.filterMap_map]
  exact List.filterMap_some

/-- Everything that is reported in a run, in its order. -/
def reported (h : List Moment) : List Notice := (observations h).filterMap Observation.notice?

@[simp] theorem reported_append (h k : List Moment) : reported (h ++ k) = reported h ++ reported k := by
  simp [reported]

@[simp] theorem reported_singleton (m : Moment) : reported [m] = m.seen.filterMap Observation.notice? := by
  simp [reported]

variable {setup : Setup} {s t u : State} {h k : List Moment} {m n : Moment} {a : Action} {seen : List Observation}

/-! ## Putting runs together and cutting them -/

theorem Run.reachable (hs : Reachable setup s) (hr : Run setup s h t) : Reachable setup t := by
  induction hr with
  | nil => exact hs
  | snoc _ step ih => exact .step ih step

theorem Run.trans (hr : Run setup s h t) (hk : Run setup t k u) : Run setup s (h ++ k) u := by
  induction hk with
  | nil => simpa using hr
  | snoc _ step ih => rw [← List.append_assoc]; exact .snoc ih step

theorem Run.single (step : s.step? setup a = some (t, seen)) : Run setup s [⟨s, a, t, seen⟩] t := .snoc .nil step

/-- A run can be cut at any moment of it. -/
theorem Run.split (hr : Run setup s (h ++ m :: k) t) :
    Run setup s h m.before ∧ m.before.step? setup m.action = some (m.after, m.seen) ∧ Run setup m.after k t := by
  generalize hl : h ++ m :: k = l at hr
  induction hr generalizing k with
  | nil => simp at hl
  | snoc hr step ih =>
    rcases List.eq_nil_or_concat k with rfl | ⟨k, n, rfl⟩
    · obtain ⟨rfl, hm⟩ := List.append_inj' hl rfl
      cases hm
      exact ⟨hr, step, .nil⟩
    · rw [List.concat_eq_append] at hl ⊢
      rw [← List.cons_append, ← List.append_assoc] at hl
      obtain ⟨hh, hm⟩ := List.append_inj' hl rfl
      cases hm
      obtain ⟨h1, h2, h3⟩ := ih hh
      exact ⟨h1, h2, .snoc h3 step⟩

/-- A run up to a moment of it. -/
theorem Run.upTo (hr : Run setup s h t) (hm : m ∈ h) : ∃ k l, k ++ l = h ∧ Run setup s k m.after := by
  obtain ⟨k, l, rfl⟩ := List.append_of_mem hm
  obtain ⟨hk, step, -⟩ := hr.split
  exact ⟨k ++ [m], l, by simp, .snoc hk step⟩

/-- Between two moments of a run there is a run. -/
theorem Run.between {i j : Nat} (hr : Run setup s h t) (hi : h[i]? = some m) (hj : h[j]? = some n) (hij : i < j) :
    ∃ k, Run setup m.after k n.before := by
  obtain ⟨hlt, rfl⟩ := List.getElem?_eq_some_iff.mp hi
  have hcut : h.take i ++ h[i] :: h.drop (i + 1) = h := by
    rw [List.getElem_cons_drop, List.take_append_drop]
  have hn : n ∈ h.drop (i + 1) := by
    refine List.mem_of_getElem? (i := j - (i + 1)) ?_
    rw [List.getElem?_drop, show i + 1 + (j - (i + 1)) = j by omega]
    exact hj
  rw [← hcut] at hr
  obtain ⟨-, -, hafter⟩ := hr.split
  obtain ⟨k, l, hkl⟩ := List.append_of_mem hn
  rw [hkl] at hafter
  exact ⟨k, hafter.split.1⟩

/-! ## Runs compute -/

/-- The run of a list of actions, if all of them are possible. -/
def State.play (setup : Setup) (s : State) : List Action → Option (List Moment × State)
  | [] => some ([], s)
  | a :: rest =>
    match s.step? setup a with
    | none => none
    | some (t, seen) =>
      match t.play setup rest with
      | none => none
      | some (h, u) => some (⟨s, a, t, seen⟩ :: h, u)

/-- What is played is a run. -/
theorem run_of_play {actions : List Action} (hp : s.play setup actions = some (h, t)) : Run setup s h t := by
  induction actions generalizing s h with
  | nil => cases hp; exact .nil
  | cons a rest ih =>
    unfold State.play at hp
    split at hp
    · cases hp
    · rename_i v seen step
      split at hp
      · cases hp
      · rename_i k u hk
        cases hp
        exact (Run.single step).trans (ih hk)

theorem play_append {first second : List Action} (h1 : s.play setup first = some (h, t))
    (h2 : t.play setup second = some (k, u)) : s.play setup (first ++ second) = some (h ++ k, u) := by
  induction first generalizing s h with
  | nil => cases h1; exact h2
  | cons a rest ih =>
    unfold State.play at h1
    split at h1
    · cases h1
    · rename_i v seen step
      split at h1
      · cases h1
      · rename_i l w hl
        cases h1
        simp [State.play, step, ih hl]

/-- **The runs from a state are what its actions play.** -/
theorem run_iff_play : Run setup s h t ↔ s.play setup (h.map Moment.action) = some (h, t) := by
  refine ⟨fun hr => ?_, run_of_play⟩
  induction hr with
  | nil => rfl
  | snoc _ step ih =>
    rw [List.map_append]
    exact play_append ih (by simp [State.play, step])

/-! ## Every step of a run is a move -/

theorem Reachable.unrecorded (hs : Reachable setup s) : s.Unrecorded := by
  induction hs with
  | start => intro r hr; cases hr
  | step _ step ih => exact (move_of_step? ih step).unrecorded ih

/-- **Every step from a reachable state is a move.** -/
theorem Reachable.move (hs : Reachable setup s) (step : s.step? setup a = some (t, seen)) : Move setup s a t seen :=
  move_of_step? hs.unrecorded step

/-- Every moment of a run is a move from a reachable state. -/
theorem Run.move_of_mem (hs : Reachable setup s) (hr : Run setup s h t) (hm : m ∈ h) :
    Reachable setup m.before ∧ Move setup m.before m.action m.after m.seen := by
  obtain ⟨before, after, rfl⟩ := List.append_of_mem hm
  obtain ⟨hbefore, step, -⟩ := hr.split
  have hreach := hbefore.reachable hs
  exact ⟨hreach, hreach.move step⟩

/-- What a list of possible actions comes to. -/
def State.played (setup : Setup) (s : State) (actions : List Action) : List Moment × State :=
  (s.play setup actions).getD ([], s)

/-- What possible actions come to is a run. -/
theorem run_played {actions : List Action} (hp : (s.play setup actions).isSome = true) :
    Run setup s (s.played setup actions).1 (s.played setup actions).2 := by
  obtain ⟨p, hp⟩ := Option.isSome_iff_exists.mp hp
  unfold State.played
  rw [hp]
  exact run_of_play hp

theorem reachable_played {now : Nat} {source : Source} {actions : List Action}
    (hp : ((State.start setup now source).play setup actions).isSome = true) :
    Reachable setup ((State.start setup now source).played setup actions).2 :=
  (run_played hp).reachable (.start now source)

/-- What holds at every start and is kept by every move holds of every reachable state. -/
theorem Reachable.induct {P : State → Prop} (start : ∀ now source, P (State.start setup now source))
    (move : ∀ {s t a seen}, Move setup s a t seen → P s → P t) (hs : Reachable setup s) : P s := by
  induction hs with
  | start now source => exact start now source
  | step hs step ih => exact move (hs.move step) ih

/-- What holds of a run that has just begun and is kept by every move that it goes on with holds of every run. -/
theorem Run.induct {P : List Moment → State → Prop} (hs : Reachable setup s) (nil : P [] s)
    (snoc : ∀ {h t a u seen}, Run setup s h t → Reachable setup t → Move setup t a u seen → P h t →
      P (h ++ [⟨t, a, u, seen⟩]) u)
    (hr : Run setup s h t) : P h t := by
  induction hr with
  | nil => exact nil
  | snoc hr step ih =>
    have ht := hr.reachable hs
    exact snoc hr ht (ht.move step) ih

end ReplicaWatch.Monitor
