import ReplicaWatch.Backend.Error
import ReplicaWatch.Cluster.Basic
import ReplicaWatch.Log.EventKind
import ReplicaWatch.Monitor.Config

/-!
# What the monitor reports

- `Cause`: why a monitor stops; `RemovalReason`: why a resource is forgotten;
- `Notice`: everything the monitor and the commands around it report, with what belongs to it; `Notice.line` is
  the log line it becomes, `Notice.resource?` the resource it is about.
-/

namespace ReplicaWatch.Monitor

open Log

/-- Why a monitor stops. -/
inductive Cause
  /-- Somebody asked it to. -/
  | stopped
  /-- The stream of signals ended. -/
  | streamEnded
  /-- The cluster could not be asked. -/
  | backendFailure (error : BackendError)
deriving DecidableEq, Repr

def Cause.name : Cause → String
  | stopped => "stopped"
  | streamEnded => "stream_ended"
  | backendFailure _ => "backend_failure"

/-- Why a resource is forgotten. -/
inductive RemovalReason
  /-- It does not exist any longer. -/
  | notFound
  /-- One of its replicas is on a layer of another kind. -/
  | layerMismatch (kind : LayerKind)
deriving DecidableEq, Repr

def RemovalReason.message : RemovalReason → String
  | notFound => "not_found"
  | layerMismatch kind => "layer_mismatch:" ++ kind.name

/-- Something to report. -/
inductive Notice
  | monitorStart (monitor : String) (initialDelay existingDelay : Nat)
  | stopRequested (monitor : String)
  | monitorStopped (monitor : String) (cause : Cause) (tracked : Nat)
  | streamEnded (monitor : String)
  | configLoaded (config snapshot : String)
  | lineUnreadable (error line : String)
  | streamFailed (error : String)
  | observed (resource : String) (hasQuorum : Bool)
  | quorumUnknown (resource : String) (error : BackendError)
  | scheduled (resource : String) (kind : DelayKind) (delay : Nat)
  | coalesced (resource : String)
  | userLost (resource : String) (delivered : Bool)
  | settled (resource : String)
  | removed (resource : String) (reason : RemovalReason)
  | cancelled (resource : String)
  | watcherFailed (report : String)
  | backendFailure (resource : String) (error : BackendError)
deriving DecidableEq, Repr

namespace Notice

def kind : Notice → EventKind
  | monitorStart .. => .monitorStart
  | stopRequested .. => .monitorStopRequested
  | monitorStopped .. => .monitorStopped
  | streamEnded .. => .eventStreamEnded
  | configLoaded .. => .configLoaded
  | lineUnreadable .. => .eventDecodeFailed
  | streamFailed .. => .eventStreamFailed
  | observed .. => .resourceObserved
  | quorumUnknown .. => .quorumQueryFailed
  | scheduled .. => .watchScheduled
  | coalesced .. => .watchCoalesced
  | userLost .. => .resourceUserLost
  | settled .. => .resourceSettled
  | removed .. => .resourceRemoved
  | cancelled .. => .watchCancelled
  | watcherFailed .. => .watcherFailed
  | backendFailure .. => .backendFailure

def truth (b : Bool) : String := if b then "true" else "false"

/-- What belongs to the event, by name. -/
def fields : Notice → List (String × String)
  | monitorStart monitor initialDelay existingDelay =>
    [("monitor_id", monitor), ("initial_delay_ms", toString initialDelay),
      ("existing_delay_ms", toString existingDelay)]
  | stopRequested monitor => [("monitor_id", monitor)]
  | monitorStopped monitor cause tracked =>
    [("monitor_id", monitor), ("reason", cause.name), ("tracked_resources", toString tracked)]
  | streamEnded monitor => [("monitor_id", monitor)]
  | configLoaded config snapshot => [("config", config), ("snapshot", snapshot)]
  | lineUnreadable error line => [("error", error), ("line", line)]
  | streamFailed error => [("error", error)]
  | observed resource hasQuorum => [("resource", resource), ("has_quorum", truth hasQuorum)]
  | quorumUnknown resource error => [("resource", resource), ("error", error.message)]
  | scheduled resource kind delay =>
    [("resource", resource), ("delay", kind.name), ("delay_ms", toString delay)]
  | coalesced resource => [("resource", resource)]
  | userLost resource delivered =>
    if delivered then [("resource", resource)] else [("resource", resource), ("delivered", truth false)]
  | settled resource => [("resource", resource)]
  | removed resource reason => [("resource", resource), ("reason", reason.message)]
  | cancelled resource => [("resource", resource)]
  | watcherFailed report => [("error", report)]
  | backendFailure resource error =>
    [("resource", resource), ("code", error.code), ("error", error.message)]

/-- The log line of a notice. -/
def line (n : Notice) : Line := ⟨n.kind.severity, n.kind.name, n.fields⟩

/-- The resource that a notice is about. -/
def resource? : Notice → Option String
  | observed resource _ => some resource
  | quorumUnknown resource _ => some resource
  | scheduled resource _ _ => some resource
  | coalesced resource => some resource
  | userLost resource _ => some resource
  | settled resource => some resource
  | removed resource _ => some resource
  | cancelled resource => some resource
  | backendFailure resource _ => some resource
  | _ => none

/-- A notice is about a resource iff its line says so. -/
theorem resource?_eq_some_iff (n : Notice) (r : String) :
    n.resource? = some r ↔ ("resource", r) ∈ n.fields := by
  cases n <;> simp [resource?, fields, eq_comm]
  split <;> simp

end Notice

end ReplicaWatch.Monitor
