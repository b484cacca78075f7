import ReplicaWatch.Monitor.Step

/-!
# How a watch ends

Every ending of a watch is a row of one table: its outcome says what becomes of the registry entry, what is counted,
what is reported, and whether the monitor stops for it.

- `Outcome.registry`, `Outcome.metrics`, `Outcome.cause?`, `Outcome.seen`: the rows;
- `State.conclude`: a state with one watch ended; `cancelWatch_eq`, `removeResource_eq`, `failWatch_eq`,
  `deliver_sent_eq`, `deliver_refused_eq`, `settle_eq` say that the steps of a watch end it by this table.
-/

namespace ReplicaWatch.Monitor

/-! ## The table -/

namespace Outcome

/-- The registry after a watch of a resource: a watch that shutdown ended leaves its entry as it is. -/
def registry (g : Registry) (resource : String) : Outcome → Registry
  | cancelled => g
  | removed _ => g.remove resource
  | notified => g.finishWatch resource
  | undelivered => g.finishWatch resource
  | settled => g.finishWatch resource
  | failed _ => g

/-- The counters after a watch. A name that nobody takes is not counted. -/
def metrics (m : Metrics) : Outcome → Metrics
  | cancelled => m.add 1 .cancellations
  | removed _ => m.add 1 .removals
  | notified => m.add 1 .notifications
  | undelivered => m
  | settled => m.add 1 .settled
  | failed _ => m.add 1 .backendFailures

/-- Why the monitor stops for a watch, if it does. -/
def cause? : Outcome → Option Cause
  | failed error => some (.backendFailure error)
  | _ => none

/-- What is reported of a watch of a resource. -/
def notice (resource : String) : Outcome → Notice
  | cancelled => .cancelled resource
  | removed reason => .removed resource reason
  | notified => .userLost resource true
  | undelivered => .userLost resource false
  | settled => .settled resource
  | failed error => .backendFailure resource error

/-- What is seen of the end of a watch. -/
def seen (w : Watch) (o : Outcome) : List Observation :=
  if o = notified then [.put w.id w.resource, .notice (o.notice w.resource)] else [.notice (o.notice w.resource)]

@[simp] theorem resource?_notice (resource : String) (o : Outcome) :
    (o.notice resource).resource? = some resource := by cases o <;> rfl

/-- A watch that ends shows its notice, and its name if it has put it on the output. -/
theorem mem_seen {w : Watch} {o : Outcome} {ob : Observation} (h : ob ∈ o.seen w) :
    (ob = .put w.id w.resource ∧ o = notified) ∨ ob = .notice (o.notice w.resource) := by
  unfold seen at h
  split at h
  · rename_i ho
    rcases List.mem_cons.mp h with h | h
    · exact Or.inl ⟨h, ho⟩
    · exact Or.inr (List.mem_singleton.mp h)
  · exact Or.inr (List.mem_singleton.mp h)

theorem get?_registry_of_ne (o : Outcome) (g : Registry) {resource other : String} (h : resource ≠ other) :
    (o.registry g resource).get? other = g.get? other := by
  cases o <;> simp [registry, Registry.get?_finishWatch, Registry.get?_remove, h]

theorem get?_registry_of_none (o : Outcome) {g : Registry} (resource : String) {other : String}
    (h : g.get? other = none) : (o.registry g resource).get? other = none := by
  cases o <;> simp [registry, Registry.get?_finishWatch, Registry.get?_remove, h]

end Outcome

/-! ## Ending a watch -/

namespace State

/-- The state with a watch ended, and the output that the watch leaves behind. -/
def conclude (s : State) (w : Watch) (o : Outcome) (output : Channel String) : State :=
  { s with
    registry := o.registry s.registry w.resource
    metrics := o.metrics s.metrics
    cause := s.cause.or o.cause?
    watches := (s.setPhase w.id (.finished o)).watches
    output := output }

theorem cancelWatch_eq (s : State) (w : Watch) (output : Channel String) :
    { s with output := output }.cancelWatch w = (s.conclude w .cancelled output, Outcome.cancelled.seen w) := by
  simp [cancelWatch, conclude, Outcome.registry, Outcome.metrics, Outcome.cause?, Outcome.seen, Outcome.notice,
    noting, count, setPhase]

theorem removeResource_eq (s : State) (w : Watch) (reason : RemovalReason) :
    s.removeResource w reason = (s.conclude w (.removed reason) s.output, (Outcome.removed reason).seen w) := by
  simp [removeResource, conclude, Outcome.registry, Outcome.metrics, Outcome.cause?, Outcome.seen, Outcome.notice,
    noting, count, setPhase]

theorem failWatch_eq (s : State) (w : Watch) (error : BackendError) :
    s.failWatch w error = (s.conclude w (.failed error) s.output, (Outcome.failed error).seen w) := by
  simp [failWatch, conclude, Outcome.registry, Outcome.metrics, Outcome.cause?, Outcome.seen, Outcome.notice,
    noting, count, setPhase]

theorem deliver_sent_eq (s : State) (w : Watch) (output : Channel String) :
    { s with output := output }.deliver w .sent = (s.conclude w .notified output, Outcome.notified.seen w) := by
  simp [deliver, finishWatch, conclude, Outcome.registry, Outcome.metrics, Outcome.cause?, Outcome.seen,
    Outcome.notice, count, setPhase]

theorem deliver_refused_eq (s : State) (w : Watch) (output : Channel String) :
    { s with output := output }.deliver w .refused =
      (s.conclude w .undelivered output, Outcome.undelivered.seen w) := by
  simp [deliver, finishWatch, conclude, Outcome.registry, Outcome.metrics, Outcome.cause?, Outcome.seen,
    Outcome.notice, noting, setPhase]

theorem settle_eq (s : State) (w : Watch) :
    ((s.finishWatch w .settled).count .settled).noting (.settled w.resource) =
      (s.conclude w .settled s.output, Outcome.settled.seen w) := by
  simp [finishWatch, conclude, Outcome.registry, Outcome.metrics, Outcome.cause?, Outcome.seen, Outcome.notice,
    noting, count, setPhase]

end State

end ReplicaWatch.Monitor
