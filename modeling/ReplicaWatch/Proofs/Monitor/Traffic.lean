import Mathlib.Logic.Function.Basic
import ReplicaWatch.Backend.Error
import ReplicaWatch.Cluster.Basic
import ReplicaWatch.Monitor.Registry

/-!
# Admissions at the same time

The registry is open to any number of admissions at once. Each of them is a call that goes through stages: it looks
its resource up, asks for the definition if there is no entry, and goes back to the registry with what it has heard. A
watch that it has been granted goes to the registry once more when it is over. Between any two of these deeds all
other calls may do theirs, so an entry may be made, watched and forgotten while a call waits for its answer.

- `Stage`, `Deed`, `Stage.next`: what a call does, one deed at a time; `Turn`: everything that a deed can be;
- `Traffic`, `Traffic.step?`, `Interleaving`: all calls, in any order; `Interleaving.perform`: every schedule is one;
- `Balance`: what a deed does to the flag of its resource and to the watch of its call (`Turn.balance`). From it,
  `Orderly`, which every step keeps: each flag stands for exactly one watch;
- `concurrent_admissions_safe`: what holds of every interleaving.
-/

namespace ReplicaWatch.Monitor

/-! ## One call -/

/-- How far the admission of a signal has got. -/
inductive Stage
  /-- It has not looked at the registry yet. -/
  | arrived
  /-- It has found no entry and has asked for the definition. -/
  | asking
  /-- It has heard about the quorum. -/
  | informed (hasQuorum : Bool)
  /-- It is over. If it was granted a watch, that is under way. -/
  | decided (answer : Except BackendError Admission)
  /-- The watch that it was granted has told the registry that it is over. -/
  | released

/-- What a call does in one go, or the watch that it was granted. -/
inductive Deed
  /-- It looks for an entry. -/
  | lookUp
  /-- It hears the answer to its question. -/
  | hear (answer : Except BackendError Definition)
  /-- It goes back to the registry with what it has heard. -/
  | enter
  /-- The watch is over, and its resource can be watched again. -/
  | finish
  /-- The watch is over, and its resource is to be forgotten. -/
  | forget

namespace Stage

/-- Whether a watch has been granted that has not told the registry that it is over. -/
def isWatching : Stage → Bool
  | decided (.ok admission) => admission.isWatch
  | _ => false

/-- Whether the call has had no admission from the registry. -/
def isTraceless : Stage → Bool
  | decided (.ok _) => false
  | released => false
  | _ => true

/-- A deed of a call for a resource, if the call can do it now: the registry and the stage of the call after it. -/
def next (g : Registry) (r : String) : Stage → Deed → Option (Registry × Stage)
  | arrived, .lookUp =>
    match g.admitKnown r with
    | some (g, admission) => some (g, decided (.ok admission))
    | none => some (g, asking)
  | asking, .hear (.ok definition) => some (g, informed definition.hasQuorum)
  | asking, .hear (.error e) => some (g, decided (.error e))
  | informed hasQuorum, .enter => some ((g.admitNew r hasQuorum).1, decided (.ok (g.admitNew r hasQuorum).2))
  | decided (.ok (.watch _)), .finish => some (g.finishWatch r, released)
  | decided (.ok (.watch _)), .forget => some (g.remove r, released)
  | _, _ => none

theorem isWatching_of_isTraceless {stage : Stage} (h : stage.isTraceless = true) : stage.isWatching = false := by
  cases stage with
  | decided answer =>
    cases answer with
    | ok => cases h
    | error => rfl
  | released => cases h
  | _ => rfl

/-- A call with a watch has been granted it. -/
theorem eq_of_isWatching {stage : Stage} (h : stage.isWatching = true) :
    ∃ kind, stage = decided (.ok (.watch kind)) := by
  cases stage with
  | decided answer =>
    cases answer with
    | ok admission =>
      cases admission with
      | watch kind => exact ⟨kind, rfl⟩
      | skip => cases h
    | error => cases h
  | _ => cases h

end Stage

/-- Everything that a deed can be: the stages before and after it, and the registry after it. -/
inductive Turn (g : Registry) (r : String) : Stage → Deed → Registry → Stage → Prop
  | meet {e : Record} : g.get? r = some e →
      Turn g r .arrived .lookUp (g.insert r e.readmit.1) (.decided (.ok e.readmit.2))
  | ask : g.get? r = none → Turn g r .arrived .lookUp g .asking
  | learn (d : Definition) : Turn g r .asking (.hear (.ok d)) g (.informed d.hasQuorum)
  | fail (e : BackendError) : Turn g r .asking (.hear (.error e)) g (.decided (.error e))
  /-- An entry has appeared in the meantime. -/
  | comeLate {e : Record} (q : Bool) : g.get? r = some e →
      Turn g r (.informed q) .enter (g.insert r e.readmit.1) (.decided (.ok e.readmit.2))
  | create (q : Bool) : g.get? r = none →
      Turn g r (.informed q) .enter (g.insert r (Record.first q).1) (.decided (.ok (Record.first q).2))
  | finish (kind : DelayKind) : Turn g r (.decided (.ok (.watch kind))) .finish (g.finishWatch r) .released
  | forget (kind : DelayKind) : Turn g r (.decided (.ok (.watch kind))) .forget (g.remove r) .released

variable {g g' : Registry} {r : String} {stage stage' : Stage} {d : Deed} {e : Record}

theorem turn_of_next (h : stage.next g r d = some (g', stage')) : Turn g r stage d g' stage' := by
  unfold Stage.next at h
  split at h
  · cases he : g.get? r with
    | none =>
      rw [(Registry.admitKnown_eq_none_iff g r).mpr he] at h
      cases h
      exact .ask he
    | some e =>
      rw [Registry.admitKnown_of_some he] at h
      cases h
      exact .meet he
  · cases h
    exact .learn _
  · cases h
    exact .fail _
  · rename_i q
    cases h
    cases he : g.get? r with
    | none =>
      rw [Registry.admitNew_of_none he]
      exact .create q he
    | some e =>
      rw [Registry.admitNew_of_some he]
      exact .comeLate q he
  · cases h
    exact .finish _
  · cases h
    exact .forget _
  · cases h

namespace Turn

/-- A deed leaves the entries of all other resources alone. -/
theorem other (h : Turn g r stage d g' stage') {other : String} (hne : r ≠ other) : g'.get? other = g.get? other := by
  cases h with
  | ask | learn | fail => rfl
  | meet | comeLate | create => exact NameMap.get?_insert_of_ne _ _ hne
  | finish => rw [Registry.get?_finishWatch, if_neg hne]
  | forget => rw [Registry.get?_remove, if_neg hne]

/-- An entry that is not forgotten stays, and so does what it says of the quorum. -/
theorem entry_kept (h : Turn g r stage d g' stage') (hd : d ≠ .forget) (he : g.get? r = some e) :
    ∃ e', g'.get? r = some e' ∧ e'.hasQuorum = e.hasQuorum := by
  cases h with
  | ask | learn | fail => exact ⟨e, he, rfl⟩
  | meet hf | comeLate _ hf =>
    cases hf.symm.trans he
    exact ⟨_, NameMap.get?_insert_self _ _ _, e.readmit_hasQuorum⟩
  | create _ hn => cases hn.symm.trans he
  | finish => exact ⟨{ e with isWatched := false }, by rw [Registry.get?_finishWatch, if_pos rfl, he]; rfl, rfl⟩
  | forget => exact absurd rfl hd

/-- An entry is made by a call that comes back, and says of the quorum what that call has heard. -/
theorem entry_made (h : Turn g r stage d g' stage') (hn : g.get? r = none) (he : g'.get? r = some e) :
    d = .enter ∧ stage = .informed e.hasQuorum := by
  cases h with
  | ask | learn | fail => cases hn.symm.trans he
  | meet hf | comeLate _ hf => cases hn.symm.trans hf
  | create q =>
    rw [NameMap.get?_insert_self] at he
    cases he
    exact ⟨rfl, rfl⟩
  | finish =>
    rw [Registry.get?_finishWatch, if_pos rfl, hn] at he
    cases he
  | forget =>
    rw [Registry.get?_remove, if_pos rfl] at he
    cases he

/-- A call that has had no admission has left the registry as it was. -/
theorem traceless (h : Turn g r stage d g' stage') (ht : stage'.isTraceless = true) :
    stage.isTraceless = true ∧ g' = g := by
  cases h with
  | ask | learn | fail => exact ⟨rfl, rfl⟩
  | meet | comeLate | create | finish | forget => cases ht

end Turn

/-! ## Flags -/

/-- Whether the entry of a resource says that it is being watched. -/
def Registry.isFlagged (g : Registry) (r : String) : Bool := (g.get? r).any Record.isWatched

theorem Registry.isFlagged_iff {g : Registry} {r : String} :
    g.isFlagged r = true ↔ ∃ e, g.get? r = some e ∧ e.isWatched = true := by
  unfold isFlagged
  cases g.get? r <;> simp

/-- What becomes of the flag of a resource and of the watch that a call may have: both stay as they are, or the call
gets a watch of a resource that has not been watched, or it gives its watch up. -/
inductive Balance (flag watching flag' watching' : Bool) : Prop
  | keep : watching = false → watching' = false → flag' = flag → Balance flag watching flag' watching'
  | grant : flag = false → watching = false → flag' = true → watching' = true → Balance flag watching flag' watching'
  | release : watching = true → flag' = false → watching' = false → Balance flag watching flag' watching'

theorem Registry.isFlagged_of_some (h : g.get? r = some e) : g.isFlagged r = e.isWatched := by
  unfold isFlagged
  rw [h]
  rfl

theorem Registry.isFlagged_of_none (h : g.get? r = none) : g.isFlagged r = false := by
  unfold isFlagged
  rw [h]
  rfl

@[simp] theorem Registry.isFlagged_insert (g : Registry) (r : String) (e : Record) :
    Registry.isFlagged (g.insert r e) r = e.isWatched :=
  isFlagged_of_some (NameMap.get?_insert_self g r e)

theorem Record.balance_readmit (e : Record) : Balance e.isWatched false e.readmit.1.isWatched e.readmit.2.isWatch := by
  unfold readmit
  split
  · exact .keep rfl rfl rfl
  · rename_i hw
    split
    · exact .grant (by simpa using hw) rfl rfl rfl
    · exact .keep rfl rfl rfl

theorem Turn.balance (h : Turn g r stage d g' stage') :
    Balance (g.isFlagged r) stage.isWatching (g'.isFlagged r) stage'.isWatching := by
  cases h with
  | ask | learn | fail => exact .keep rfl rfl rfl
  | meet he | comeLate _ he =>
    rw [Registry.isFlagged_of_some he, Registry.isFlagged_insert]
    exact Record.balance_readmit _
  | create q hn =>
    rw [Registry.isFlagged_of_none hn, Registry.isFlagged_insert]
    cases q with
    | true => exact .grant rfl rfl rfl rfl
    | false => exact .keep rfl rfl rfl
  | finish =>
    refine .release rfl ?_ rfl
    unfold Registry.isFlagged
    rw [Registry.get?_finishWatch, if_pos rfl]
    cases g.get? r <;> rfl
  | forget => exact .release rfl (Registry.isFlagged_of_none (by rw [Registry.get?_remove, if_pos rfl])) rfl

/-! ## All calls -/

/-- The registry, and how far each call has got. -/
structure Traffic (ι : Type) where
  registry : Registry := .empty
  stage : ι → Stage := fun _ => .arrived

/-- A step of an interleaving: which call did what, and the traffic before and after it. -/
structure Traffic.Step (ι : Type) where
  before : Traffic ι
  call : ι
  deed : Deed
  after : Traffic ι

variable {ι : Type}

/-- Whether a step forgets a resource. -/
def Traffic.Step.Forgets (name : ι → String) (m : Traffic.Step ι) (r : String) : Prop :=
  m.deed = .forget ∧ name m.call = r

/-- Each flag stands for exactly one watch. -/
structure Orderly (name : ι → String) (s : Traffic ι) : Prop where
  single : ∀ i j, name i = name j → (s.stage i).isWatching = true → (s.stage j).isWatching = true → i = j
  flagged : ∀ r, s.registry.isFlagged r = true ↔ ∃ i, name i = r ∧ (s.stage i).isWatching = true

theorem orderly_start (name : ι → String) : Orderly name {} := by
  refine ⟨fun i j _ hi => ?_, fun r => iff_of_false (by simp [Registry.isFlagged]) ?_⟩
  · cases hi
  · rintro ⟨i, -, hi⟩
    cases hi

/-! ## Interleavings -/

variable [DecidableEq ι]

/-- A deed of one of the calls, each of which is for the resource that is named. -/
def Traffic.step? (name : ι → String) (s : Traffic ι) (i : ι) (d : Deed) : Option (Traffic ι) :=
  ((s.stage i).next s.registry (name i) d).map fun p => ⟨p.1, Function.update s.stage i p.2⟩

/-- Steps of any calls, one after the other. -/
inductive Interleaving (name : ι → String) (s : Traffic ι) : List (Traffic.Step ι) → Traffic ι → Prop
  | nil : Interleaving name s [] s
  | snoc {h : List (Traffic.Step ι)} {t u : Traffic ι} {i : ι} {d : Deed} : Interleaving name s h t →
      t.step? name i d = some u → Interleaving name s (h ++ [⟨t, i, d, u⟩]) u

variable {name : ι → String} {s t : Traffic ι} {i : ι} {h : List (Traffic.Step ι)}

/-- A deed changes the stage of its own call only. -/
theorem step?_eq_some_iff : s.step? name i d = some t ↔
    (s.stage i).next s.registry (name i) d = some (t.registry, t.stage i) ∧ ∀ j, j ≠ i → t.stage j = s.stage j := by
  unfold Traffic.step?
  constructor
  · intro step
    obtain ⟨⟨g, stage⟩, hnext, rfl⟩ := Option.map_eq_some_iff.mp step
    refine ⟨hnext.trans ?_, fun j hj => Function.update_of_ne hj _ _⟩
    simp
  · rintro ⟨hnext, hrest⟩
    rw [hnext, Option.map_some, Function.update_eq_iff.mpr ⟨rfl, fun j hj => (hrest j hj).symm⟩]

theorem turn_of_step? (step : s.step? name i d = some t) :
    Turn s.registry (name i) (s.stage i) d t.registry (t.stage i) :=
  turn_of_next (step?_eq_some_iff.mp step).1

theorem stage_of_step? (step : s.step? name i d = some t) {j : ι} (hj : j ≠ i) : t.stage j = s.stage j :=
  (step?_eq_some_iff.mp step).2 j hj

theorem isWatching_of_step? (step : s.step? name i d = some t) {j : ι} (hj : j ≠ i) :
    (t.stage j).isWatching = (s.stage j).isWatching := by rw [stage_of_step? step hj]

namespace Orderly

/-- Only one call can have a watch of the resource of a call that has just done a deed and has one. -/
theorem alone (ho : Orderly name s) (step : s.step? name i d = some t) (hi : (t.stage i).isWatching = true) {j : ι}
    (hj : j ≠ i) (hname : name j = name i) : (t.stage j).isWatching = false := by
  cases (turn_of_step? step).balance with
  | keep _ hi' => cases hi.symm.trans hi'
  | grant hflag =>
    rw [isWatching_of_step? step hj, ← Bool.not_eq_true]
    intro hw
    cases hflag.symm.trans ((ho.flagged _).mpr ⟨j, hname, hw⟩)
  | release _ _ hi' => cases hi.symm.trans hi'

/-- The flag of the resource of a call after a deed of it. -/
theorem flagged_self (ho : Orderly name s) (step : s.step? name i d = some t) :
    t.registry.isFlagged (name i) = true ↔ ∃ j, name j = name i ∧ (t.stage j).isWatching = true := by
  cases (turn_of_step? step).balance with
  | keep hi hi' hflag =>
    rw [hflag, ho.flagged]
    refine exists_congr fun j => and_congr_right fun _ => ?_
    by_cases hj : j = i
    · rw [hj, hi, hi']
    · rw [isWatching_of_step? step hj]
  | grant _ _ hflag hi => exact iff_of_true hflag ⟨i, rfl, hi⟩
  | release hi hflag hi' =>
    refine iff_of_false (by simp [hflag]) ?_
    rintro ⟨j, hname, hj⟩
    have hji : j ≠ i := by
      rintro rfl
      cases hj.symm.trans hi'
    exact hji (ho.single j i hname ((isWatching_of_step? step hji).symm.trans hj) hi)

theorem flagged_of_ne (ho : Orderly name s) (step : s.step? name i d = some t) (hr : name i ≠ r) :
    t.registry.isFlagged r = true ↔ ∃ j, name j = r ∧ (t.stage j).isWatching = true := by
  have hflag : t.registry.isFlagged r = s.registry.isFlagged r := by
    unfold Registry.isFlagged
    rw [(turn_of_step? step).other hr]
  rw [hflag, ho.flagged]
  refine exists_congr fun j => and_congr_right fun hj => ?_
  rw [isWatching_of_step? step fun hji => hr (hji ▸ hj)]

/-- Every deed keeps order. -/
theorem step (ho : Orderly name s) (step : s.step? name i d = some t) : Orderly name t := by
  constructor
  case single =>
    intro j k hjk hj hk
    by_cases hji : j = i <;> by_cases hki : k = i
    · exact hji.trans hki.symm
    · subst hji
      cases hk.symm.trans (ho.alone step hj hki hjk.symm)
    · subst hki
      cases hj.symm.trans (ho.alone step hk hji hjk)
    · exact ho.single j k hjk ((isWatching_of_step? step hji).symm.trans hj)
        ((isWatching_of_step? step hki).symm.trans hk)
  case flagged =>
    intro r
    by_cases hr : name i = r
    · exact hr ▸ ho.flagged_self step
    · exact ho.flagged_of_ne step hr

end Orderly

/-- Every step of an interleaving is a deed of its call. -/
theorem Interleaving.step_of_mem (hr : Interleaving name s h t) {m : Traffic.Step ι} (hm : m ∈ h) :
    m.before.step? name m.call m.deed = some m.after := by
  induction hr with
  | nil => cases hm
  | snoc _ step ih =>
    rcases List.mem_append.mp hm with hm | hm
    · exact ih hm
    · cases List.mem_singleton.mp hm
      exact step

theorem Interleaving.orderly (ho : Orderly name s) (hr : Interleaving name s h t) : Orderly name t := by
  induction hr with
  | nil => exact ho
  | snoc _ step ih => exact ih.step step

/-- An entry stays and says the same of the quorum until its resource is forgotten. -/
theorem Interleaving.entry_kept (hr : Interleaving name s h t) (hn : ∀ m ∈ h, ¬m.Forgets name r)
    (he : s.registry.get? r = some e) : ∃ e', t.registry.get? r = some e' ∧ e'.hasQuorum = e.hasQuorum := by
  induction hr with
  | nil => exact ⟨e, he, rfl⟩
  | @snoc h t u i d _ step ih =>
    obtain ⟨e', he', hq⟩ := ih fun m hm => hn m (List.mem_append_left _ hm)
    have turn := turn_of_step? step
    have hlast : ¬Traffic.Step.Forgets name ⟨t, i, d, u⟩ r :=
      hn _ (List.mem_append_right _ (List.mem_singleton_self _))
    by_cases hname : name i = r
    · subst hname
      obtain ⟨e'', he'', hq'⟩ := turn.entry_kept (fun hd => hlast ⟨hd, rfl⟩) he'
      exact ⟨e'', he'', hq'.trans hq⟩
    · exact ⟨e', (turn.other hname).trans he', hq⟩

/-- A call that has had no admission has never done anything to the registry. -/
theorem Interleaving.traceless (hr : Interleaving name s h t) (ht : (t.stage i).isTraceless = true) :
    ∀ m ∈ h, m.call = i → m.after.registry = m.before.registry ∧ (m.after.stage i).isTraceless = true := by
  induction hr with
  | nil => nofun
  | @snoc h t u j d _ step ih =>
    intro m hm hcall
    by_cases hij : i = j
    · subst hij
      obtain ⟨hbefore, hsame⟩ := (turn_of_step? step).traceless ht
      rcases List.mem_append.mp hm with hm | hm
      · exact ih hbefore m hm hcall
      · cases List.mem_singleton.mp hm
        exact ⟨hsame, ht⟩
    · rcases List.mem_append.mp hm with hm | hm
      · exact ih (stage_of_step? step hij ▸ ht) m hm hcall
      · cases List.mem_singleton.mp hm
        exact absurd hcall.symm hij

/-! ## Schedules -/

/-- The traffic after a schedule; a deed that cannot be done is passed over. -/
def Traffic.perform (name : ι → String) (s : Traffic ι) (schedule : List (ι × Deed)) : Traffic ι :=
  schedule.foldl (fun s p => (s.step? name p.1 p.2).getD s) s

/-- Every schedule is an interleaving. -/
theorem Interleaving.perform (schedule : List (ι × Deed)) (hr : Interleaving name s h t) :
    ∃ k, Interleaving name s k (t.perform name schedule) := by
  induction schedule generalizing h t with
  | nil => exact ⟨h, hr⟩
  | cons p rest ih =>
    show ∃ k, Interleaving name s k (((t.step? name p.1 p.2).getD t).perform name rest)
    cases step : t.step? name p.1 p.2 with
    | none => exact ih hr
    | some u => exact ih (hr.snoc step)

/-! ## Safety -/

/-- **Admissions at the same time do not get in each other's way.** Whatever the calls are for, whatever they hear and
in whatever order they do their deeds: no two watches of a resource are under way, and an entry is flagged iff there is
one; an entry is made by a call that comes back with an answer, says of the quorum what that call has heard, and goes on
to say it until the resource is forgotten; a call whose question fails never changes anything; and every step leaves the
entries of all other resources as they were. -/
theorem concurrent_admissions_safe (hr : Interleaving name {} h s) :
    (∀ i j, name i = name j → (s.stage i).isWatching = true → (s.stage j).isWatching = true → i = j) ∧
      (∀ r, (∃ e, s.registry.get? r = some e ∧ e.isWatched = true) ↔
        ∃ i, name i = r ∧ (s.stage i).isWatching = true) ∧
      (∀ m ∈ h, ∀ r e, m.before.registry.get? r = none → m.after.registry.get? r = some e →
        name m.call = r ∧ m.deed = .enter ∧ m.before.stage m.call = .informed e.hasQuorum) ∧
      (∀ k t r e, Interleaving name s k t → (∀ m ∈ k, ¬m.Forgets name r) → s.registry.get? r = some e →
        ∃ e', t.registry.get? r = some e' ∧ e'.hasQuorum = e.hasQuorum) ∧
      (∀ i error, s.stage i = .decided (.error error) → ∀ m ∈ h, m.call = i →
        m.after.registry = m.before.registry ∧ (m.after.stage i).isWatching = false ∧
          ∀ j, j ≠ i → m.after.stage j = m.before.stage j) ∧
      ∀ m ∈ h, ∀ r, r ≠ name m.call → m.after.registry.get? r = m.before.registry.get? r := by
  have ho := hr.orderly (orderly_start name)
  refine ⟨ho.single, fun r => ?flagged, fun m hm r e hn he => ?made, fun k t r e hk hforgets he => ?kept,
    fun i error hi m hm hcall => ?failed, fun m hm r hne => ?other⟩
  case flagged => rw [← Registry.isFlagged_iff, ho.flagged]
  case made =>
    have turn := turn_of_step? (hr.step_of_mem hm)
    have hname : name m.call = r := by
      by_contra hne
      rw [turn.other hne, hn] at he
      cases he
    subst hname
    exact ⟨rfl, turn.entry_made hn he⟩
  case kept => exact hk.entry_kept hforgets he
  case failed =>
    obtain ⟨hsame, ht⟩ := hr.traceless (i := i) (by rw [hi]; rfl) m hm hcall
    exact ⟨hsame, Stage.isWatching_of_isTraceless ht,
      fun j hj => stage_of_step? (hr.step_of_mem hm) (hcall.symm ▸ hj)⟩
  case other => exact (turn_of_step? (hr.step_of_mem hm)).other hne.symm

/-- Four calls, three of them for one resource. -/
def contenders (i : Nat) : String := if i = 3 then "q" else "r"

/-- Two calls ask about a resource at the same time. The first is granted a watch, which has the resource forgotten
before the other one comes back; that one makes the entry anew, and a third call finds it. -/
def contest : List (Nat × Deed) :=
  [(0, .lookUp), (1, .lookUp), (0, .hear (.ok (.withQuorum "r" (some "majority")))), (0, .enter), (3, .lookUp),
    (1, .hear (.ok (.withQuorum "r" (some "all")))), (0, .forget), (3, .hear (.error (.notFound "q"))), (1, .enter),
    (2, .lookUp)]

theorem contest_decided_safely :
    ∃ h, Interleaving contenders {} h (Traffic.perform contenders {} contest) ∧
      (Traffic.perform contenders {} contest).registry.get? "r" = some ⟨true, true⟩ ∧
      (∃ i, contenders i = "r" ∧ ((Traffic.perform contenders {} contest).stage i).isWatching = true) ∧
      ∀ m ∈ h, m.call = 3 → m.after.registry = m.before.registry := by
  obtain ⟨h, hr⟩ := (Interleaving.nil : Interleaving contenders {} [] {}).perform contest
  obtain ⟨-, hflag, -, -, hfailed, -⟩ := concurrent_admissions_safe hr
  have hentry : (Traffic.perform contenders {} contest).registry.get? "r" = some ⟨true, true⟩ := by decide
  exact ⟨h, hr, hentry, (hflag "r").mp ⟨_, hentry, rfl⟩, fun m hm hcall => (hfailed 3 _ rfl m hm hcall).1⟩

end ReplicaWatch.Monitor
