import ReplicaWatch.Backend.File
import ReplicaWatch.Backend.Memory
import ReplicaWatch.Cluster.Snapshot

/-!
# Asking the cluster

- `SnapshotFile`: a cluster that is read from a file, anew for every question;
- `Backend`: either kind of cluster, with `Backend.definition` and `Backend.replicas`; `Backend.countDefinition`
  and `Backend.countReplicas` note that a question was asked.
-/

namespace ReplicaWatch

/-- A cluster that is read from a file. -/
structure SnapshotFile where
  path : String
  /-- What the path leads to. -/
  content : Except ReadError (List UInt8)

namespace SnapshotFile

def load (f : SnapshotFile) : Except BackendError Snapshot :=
  match f.content.bind readUtf8 with
  | .error e => .error (.io ("failed to read " ++ f.path ++ ": " ++ e.message))
  | .ok text => Snapshot.parse text

/-- A file that holds text is as its text is. -/
theorem load_of_text {f : SnapshotFile} {text : String} (h : f.content.bind readUtf8 = .ok text) :
    f.load = Snapshot.parse text := by
  unfold load
  rw [h]

def definition (f : SnapshotFile) (resource : String) : Except BackendError Definition :=
  match f.load with
  | .error e => .error e
  | .ok s =>
    match s.definition? resource with
    | some d => .ok d
    | none => .error (.notFound resource)

def replicasOf (f : SnapshotFile) (resource : String) : Except BackendError (List Replica) :=
  match f.load with
  | .error e => .error e
  | .ok s => s.lookUp resource

end SnapshotFile

/-- A cluster that can be asked. -/
inductive Backend
  | memory (cluster : MemoryCluster)
  | file (file : SnapshotFile)

namespace Backend

def definition : Backend → String → Except BackendError Definition
  | memory c => c.definition
  | file f => f.definition

def replicas : Backend → String → Except BackendError (List Replica)
  | memory c => c.replicasOf
  | file f => f.replicasOf

/-- Notes that a definition was asked for. -/
def countDefinition : Backend → Backend
  | memory c => memory { c with definitionQueries := c.definitionQueries + 1 }
  | file f => file f

/-- Notes that replicas were asked for. -/
def countReplicas : Backend → Backend
  | memory c => memory { c with replicaQueries := c.replicaQueries + 1 }
  | file f => file f

/-- Whether a resource has quorum, as its definition says. -/
def hasQuorum (b : Backend) (resource : String) : Except BackendError Bool :=
  (b.definition resource).map Definition.hasQuorum

end Backend

end ReplicaWatch
