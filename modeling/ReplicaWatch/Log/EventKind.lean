import ReplicaWatch.Log.Line

/-!
# What can happen

Every line of the monitor's log is named by one kind of event, which also fixes how serious the line is.
-/

namespace ReplicaWatch.Log

/-- A kind of event. -/
inductive EventKind
  | monitorStart
  | monitorStopRequested
  | monitorStopped
  | eventStreamEnded
  | configLoaded
  /-- A line of the stream is not a signal. -/
  | eventDecodeFailed
  /-- The stream could not be read. -/
  | eventStreamFailed
  | resourceObserved
  /-- The quorum of a resource could not be found out. -/
  | quorumQueryFailed
  | watchScheduled
  | watchCoalesced
  /-- A resource could still be promoted after the delay. -/
  | resourceUserLost
  /-- A resource could no longer be promoted after the delay. -/
  | resourceSettled
  /-- A resource is gone, or no longer replicated. -/
  | resourceRemoved
  | watchCancelled
  | watcherFailed
  /-- The cluster could not be asked, so the monitor stops. -/
  | backendFailure
deriving DecidableEq, Repr

namespace EventKind

def name : EventKind → String
  | monitorStart => "MONITOR_START"
  | monitorStopRequested => "MONITOR_STOP_REQUESTED"
  | monitorStopped => "MONITOR_STOPPED"
  | eventStreamEnded => "EVENT_STREAM_ENDED"
  | configLoaded => "CONFIG_LOADED"
  | eventDecodeFailed => "EVENT_DECODE_FAILED"
  | eventStreamFailed => "EVENT_STREAM_FAILED"
  | resourceObserved => "RESOURCE_OBSERVED"
  | quorumQueryFailed => "QUORUM_QUERY_FAILED"
  | watchScheduled => "WATCH_SCHEDULED"
  | watchCoalesced => "WATCH_COALESCED"
  | resourceUserLost => "RESOURCE_USER_LOST"
  | resourceSettled => "RESOURCE_SETTLED"
  | resourceRemoved => "RESOURCE_REMOVED"
  | watchCancelled => "WATCH_CANCELLED"
  | watcherFailed => "WATCHER_FAILED"
  | backendFailure => "BACKEND_FAILURE"

def all : List EventKind :=
  [monitorStart, monitorStopRequested, monitorStopped, eventStreamEnded, configLoaded, eventDecodeFailed,
    eventStreamFailed, resourceObserved, quorumQueryFailed, watchScheduled, watchCoalesced, resourceUserLost,
    resourceSettled, resourceRemoved, watchCancelled, watcherFailed, backendFailure]

/-- How serious a kind of event is. -/
def severity : EventKind → Severity
  | watchCoalesced | watchCancelled | resourceSettled => .trace
  | eventDecodeFailed | quorumQueryFailed => .warn
  | eventStreamFailed | watcherFailed => .error
  | backendFailure => .fatal
  | _ => .info

/-- Whether the monitor stops because of it. -/
def isFatal : EventKind → Bool
  | backendFailure => true
  | _ => false

/-- Exactly the events that stop the monitor are fatal. -/
theorem isFatal_iff (k : EventKind) : k.isFatal = true ↔ k.severity = .fatal := by
  cases k <;> simp [isFatal, severity]

end EventKind

end ReplicaWatch.Log
