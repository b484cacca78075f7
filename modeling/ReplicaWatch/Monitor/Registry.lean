import ReplicaWatch.Monitor.Config
import ReplicaWatch.NameMap

/-!
# Registry and admission

The registry remembers every resource seen so far: whether it has quorum, as found when it was first seen, and
whether a watch of it is under way. A positive signal is admitted by these rules:

| entry                     | admission                          |
|---------------------------|------------------------------------|
| none, quorum disabled     | skipped, entry made                |
| none, quorum enabled      | watched after the initial delay    |
| watched                   | skipped, a watch is under way      |
| not watched, no quorum    | skipped                            |
| not watched, quorum       | watched after the existing delay   |

- `Record.readmit`, `Record.first`: the rules for one entry;
- `Registry.admitKnown`, `Registry.admitNew`, `Registry.finishWatch`, `Registry.remove`: the steps on the
  registry, each with its view through `get?`.
-/

namespace ReplicaWatch.Monitor

/-- What the registry knows of a resource. -/
structure Record where
  /-- Whether the resource had quorum when it was first seen. -/
  hasQuorum : Bool := false
  /-- Whether a watch has been scheduled and has not finished. -/
  isWatched : Bool := false
deriving DecidableEq, Repr

/-- Where a recorded resource stands. -/
inductive Phase
  | noQuorumIdle
  | quorumIdle
  | quorumWatching
deriving DecidableEq, Repr

/-- Why no watch is scheduled. -/
inductive SkipReason
  | alreadyWatched
  | noQuorum
deriving DecidableEq, Repr

/-- What becomes of a positive signal. -/
inductive Admission
  | watch (kind : DelayKind)
  | skip (reason : SkipReason)
deriving DecidableEq, Repr

def Admission.isWatch : Admission → Bool
  | watch _ => true
  | skip _ => false

namespace Record

/-- Where the resource stands. Without quorum the other flag does not count. -/
def phase (r : Record) : Phase :=
  if r.hasQuorum then (if r.isWatched then .quorumWatching else .quorumIdle) else .noQuorumIdle

/-- The admission of a resource that has an entry, and the entry after it. -/
def readmit (r : Record) : Record × Admission :=
  if r.isWatched then (r, .skip .alreadyWatched)
  else if r.hasQuorum then ({ r with isWatched := true }, .watch .existing)
  else (r, .skip .noQuorum)

/-- The admission of a resource seen for the first time, and its entry. With quorum it is watched from then on. -/
def first (hasQuorum : Bool) : Record × Admission :=
  (⟨hasQuorum, hasQuorum⟩, if hasQuorum then .watch .initial else .skip .noQuorum)

/-- An admission never changes what is known of the quorum. -/
@[simp] theorem readmit_hasQuorum (r : Record) : r.readmit.1.hasQuorum = r.hasQuorum := by
  unfold readmit
  split
  · rfl
  · split <;> rfl

end Record

/-- The resources seen so far. -/
abbrev Registry := NameMap Record

namespace Registry

/-- Admits a resource that has an entry. -/
def admitKnown (g : Registry) (resource : String) : Option (Registry × Admission) :=
  (g.get? resource).map fun r => (g.insert resource r.readmit.1, r.readmit.2)

/-- Admits a resource seen for the first time. If it has got an entry meanwhile, the rules for entries count. -/
def admitNew (g : Registry) (resource : String) (hasQuorum : Bool) : Registry × Admission :=
  match g.admitKnown resource with
  | some admitted => admitted
  | none => (g.insert resource (Record.first hasQuorum).1, (Record.first hasQuorum).2)

/-- Notes that the watch of a resource is over. -/
def finishWatch (g : Registry) (resource : String) : Registry :=
  match g.get? resource with
  | none => g
  | some r => g.insert resource { r with isWatched := false }

/-- Forgets a resource. -/
def remove (g : Registry) (resource : String) : Registry := g.erase resource

theorem admitKnown_eq_none_iff (g : Registry) (resource : String) :
    g.admitKnown resource = none ↔ g.get? resource = none := by
  simp [admitKnown]

/-- A resource with an entry is admitted by the rules for its entry. -/
theorem admitKnown_of_some {g : Registry} {resource : String} {r : Record} (h : g.get? resource = some r) :
    g.admitKnown resource = some (g.insert resource r.readmit.1, r.readmit.2) := by
  simp [admitKnown, h]

/-- So it is if the entry has appeared after the resource was looked up. -/
theorem admitNew_of_some {g : Registry} {resource : String} {r : Record} (h : g.get? resource = some r)
    (hasQuorum : Bool) : g.admitNew resource hasQuorum = (g.insert resource r.readmit.1, r.readmit.2) := by
  simp [admitNew, admitKnown_of_some h]

theorem admitNew_of_none {g : Registry} {resource : String} (h : g.get? resource = none) (hasQuorum : Bool) :
    g.admitNew resource hasQuorum =
      (g.insert resource (Record.first hasQuorum).1, (Record.first hasQuorum).2) := by
  simp [admitNew, (admitKnown_eq_none_iff g resource).mpr h]

theorem get?_finishWatch (g : Registry) (resource other : String) :
    (g.finishWatch resource).get? other =
      if resource = other then (g.get? other).map (fun r => { r with isWatched := false })
      else g.get? other := by
  unfold finishWatch
  split
  · rename_i h
    split
    · rename_i heq
      subst heq
      simp [h]
    · rfl
  · rename_i r h
    rw [NameMap.get?_insert]
    split
    · rename_i heq
      subst heq
      simp [h]
    · rfl

theorem get?_remove (g : Registry) (resource other : String) :
    (g.remove resource).get? other = if resource = other then none else g.get? other :=
  NameMap.get?_erase g resource other

end Registry

end ReplicaWatch.Monitor
