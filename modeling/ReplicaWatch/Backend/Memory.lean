import ReplicaWatch.Backend.Error
import ReplicaWatch.Cluster.Basic

/-!
# A cluster kept in memory

Definitions and replicas under the names they were stored with. Queries are counted, and can be made to fail.
-/

namespace ReplicaWatch

/-- A cluster kept in memory. -/
structure MemoryCluster where
  definitions : NameMap Definition := .empty
  /-- The replicas of every resource. -/
  replicas : NameMap (List Replica) := .empty
  /-- What every query of definitions fails with. -/
  definitionFailure : Option BackendError := none
  /-- What every query of replicas fails with. -/
  replicaFailure : Option BackendError := none
  /-- How many definitions have been asked for. -/
  definitionQueries : Nat := 0
  /-- How many lists of replicas have been asked for. -/
  replicaQueries : Nat := 0

namespace MemoryCluster

def setDefinition (c : MemoryCluster) (d : Definition) : MemoryCluster :=
  { c with definitions := c.definitions.insert d.name d }

/-- Stores the replicas of a resource, whatever names they have themselves. -/
def setReplicas (c : MemoryCluster) (resource : String) (rs : List Replica) : MemoryCluster :=
  { c with replicas := c.replicas.insert resource rs }

/-- Deletes a resource with its definition. -/
def remove (c : MemoryCluster) (resource : String) : MemoryCluster :=
  { c with definitions := c.definitions.erase resource, replicas := c.replicas.erase resource }

/-- What is stored under a name, unless queries fail. -/
def answer {α : Type} (failure : Option BackendError) (stored : NameMap α) (resource : String) :
    Except BackendError α :=
  match failure with
  | some e => .error e
  | none =>
    match stored.get? resource with
    | some a => .ok a
    | none => .error (.notFound resource)

def definition (c : MemoryCluster) (resource : String) : Except BackendError Definition :=
  answer c.definitionFailure c.definitions resource

def replicasOf (c : MemoryCluster) (resource : String) : Except BackendError (List Replica) :=
  answer c.replicaFailure c.replicas resource

end MemoryCluster

end ReplicaWatch
