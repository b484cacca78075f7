import ReplicaWatch.Backend.Error
import ReplicaWatch.Cluster.Decode
import ReplicaWatch.Cluster.Encode

/-!
# A snapshot of the cluster

- `Snapshot`: all definitions and replicas at one moment, in the order of the snapshot;
- `Snapshot.definition?`, `Snapshot.lookUp`: looking a resource up. A resource exists if it has a definition
  or a replica (`Snapshot.lookUp_of_definition`: a lookup of a defined resource never fails);
- `Snapshot.decoder`, `Snapshot.encode`, `Snapshot.parse`.
-/

namespace ReplicaWatch

open Json

/-- All definitions and replicas of a cluster. -/
structure Snapshot where
  definitions : List Definition := []
  replicas : List Replica := []

namespace Snapshot

/-- The first definition of a resource. -/
def definition? (s : Snapshot) (resource : String) : Option Definition :=
  s.definitions.find? (fun d => d.name = resource)

/-- The replicas of a resource in their order. -/
def replicasOf (s : Snapshot) (resource : String) : List Replica :=
  s.replicas.filter (fun r => r.name = resource)

/-- The replicas of a resource that exists. -/
def lookUp (s : Snapshot) (resource : String) : Except BackendError (List Replica) :=
  if (s.replicasOf resource).isEmpty && (s.definition? resource).isNone then .error (.notFound resource)
  else .ok (s.replicasOf resource)

/-- Looking up a defined resource gives its replicas. -/
theorem lookUp_of_definition {s : Snapshot} {resource : String}
    (h : (s.definition? resource).isSome) : s.lookUp resource = .ok (s.replicasOf resource) := by
  cases hd : s.definition? resource with
  | none => simp [hd] at h
  | some d => simp [lookUp, hd]

def decoder : Decoder Snapshot :=
  Decoder.record "ClusterSnapshot" {}
    [ .of "resource_definitions" false (Decoder.sequence Definition.decoder)
        (fun ds s => { s with definitions := ds }),
      .of "resources" false (Decoder.sequence Replica.decoder) (fun rs s => { s with replicas := rs }) ]

def encode (s : Snapshot) : Value :=
  .object [("resource_definitions", .array (s.definitions.map Definition.encode)),
    ("resources", .array (s.replicas.map Replica.encode))]

def parse (text : String) : Except BackendError Snapshot :=
  (decodeText decoder text).mapError BackendError.ofFault

end Snapshot

end ReplicaWatch
