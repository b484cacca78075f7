import ReplicaWatch.Cluster.Basic

/-!
# What the replicas of a resource say

`Verdict.ofReplicas`: a replica on a layer other than DRBD decides first, then whether any replica may be
promoted. `Verdict.ofReplicas_mismatch_iff` says when and with which kind a mismatch is given.
-/

namespace ReplicaWatch

/-- What the replicas of a resource say. -/
inductive Verdict
  /-- The top layer of a replica is not DRBD but of this kind. -/
  | mismatch (kind : LayerKind)
  /-- A replica may be promoted: nobody uses the resource. -/
  | promotable
  /-- No replica may be promoted. -/
  | settled
deriving DecidableEq, Repr

namespace Verdict

/-- The verdict on the replicas of a resource; of several mismatches the first counts. -/
def ofReplicas (replicas : List Replica) : Verdict :=
  match replicas.find? (fun r => !r.layer.kind.isReplicated) with
  | some r => .mismatch r.layer.kind
  | none => if replicas.any Replica.mayPromote then .promotable else .settled

/-- A mismatch is the kind of the first replica that is not on DRBD. -/
theorem ofReplicas_mismatch_iff (rs : List Replica) (k : LayerKind) :
    ofReplicas rs = .mismatch k ↔
      (rs.find? (fun r => !r.layer.kind.isReplicated)).map (fun r => r.layer.kind) = some k := by
  unfold ofReplicas
  cases rs.find? (fun r => !r.layer.kind.isReplicated) with
  | none => by_cases h : rs.any Replica.mayPromote <;> simp [h]
  | some r => simp

/-- Without replicas there is nothing to promote. -/
theorem ofReplicas_nil : ofReplicas [] = .settled := rfl

end Verdict

end ReplicaWatch
