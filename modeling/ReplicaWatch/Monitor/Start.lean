import ReplicaWatch.Monitor.State

/-!
# Starting a monitor

A monitor starts if its configuration is in order, nobody else has subscribed to the signals, and an output of the
configured capacity can be built. `State.start?` looks at these in this order. What is wrong with the first two is an
error; an output that cannot be built crashes whoever starts the monitor.
-/

namespace ReplicaWatch.Monitor

/-- What comes of an attempt: a value, an error, or a crash of the one who makes it. -/
inductive Attempt (ε α : Type) where
  | ok (value : α)
  | error (error : ε)
  | crashed
deriving DecidableEq, Repr

/-- Why a monitor cannot be started. -/
inductive StartError
  | config (reason : String)
  | subscribe (error : BackendError)
deriving DecidableEq, Repr

def StartError.message : StartError → String
  | config reason => "Configuration error: " ++ reason
  | subscribe error => "Failed to subscribe to promotion events: " ++ error.message

/-- Starts a monitor with the signals that a subscription gives. -/
def State.start? (setup : Setup) (now : Nat) (subscription : Except BackendError Source) : Attempt StartError State :=
  match setup.config.validate with
  | .error fault => .error (.config fault.message)
  | .ok () =>
    match subscription with
    | .error e => .error (.subscribe e)
    | .ok source =>
      if Channel.Buildable setup.config.outputCapacity then .ok (State.start setup now source) else .crashed

end ReplicaWatch.Monitor
