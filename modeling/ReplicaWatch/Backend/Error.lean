import ReplicaWatch.Json.Fault

/-!
# Why a query of the cluster fails

`BackendError` keeps "the resource is gone" apart from every other cause, because only that one is an answer.
`message` is the wording of a cause and `code` its stable name in log lines.
-/

namespace ReplicaWatch

/-- Why a query of the cluster fails. -/
inductive BackendError
  /-- The resource does not exist, or no longer. -/
  | notFound (resource : String)
  /-- The cluster could not answer. -/
  | unavailable (reason : String)
  /-- The answer could not be understood. -/
  | malformed (reason : String)
  /-- The answer could not be obtained from this machine. -/
  | io (reason : String)
deriving DecidableEq, Repr

namespace BackendError

def isNotFound : BackendError → Bool
  | notFound _ => true
  | _ => false

def code : BackendError → String
  | notFound _ => "LOSTUSER_BACKEND_NOT_FOUND"
  | unavailable _ => "LOSTUSER_BACKEND_UNAVAILABLE"
  | malformed _ => "LOSTUSER_BACKEND_DECODE"
  | io _ => "LOSTUSER_BACKEND_IO"

def message : BackendError → String
  | notFound resource => "Resource not found: " ++ resource
  | unavailable reason => "Backend unavailable: " ++ reason
  | malformed reason => "Malformed backend data: " ++ reason
  | io reason => "Backend I/O error: " ++ reason

/-- An answer that cannot be read for the given fault. -/
def ofFault (f : Json.Fault) : BackendError := .malformed f.message

/-- A second subscription to the signals. -/
def alreadySubscribed : BackendError := .unavailable "already subscribed"

/-- A signal that nobody will take any more. -/
def streamClosed : BackendError := .unavailable "event stream closed"

end BackendError

end ReplicaWatch
