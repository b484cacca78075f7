import ReplicaWatch.Monitor.Start

/-!
# Why a command fails

Every error has a stable code and a wording; the program shows both.
-/

namespace ReplicaWatch.CommandLine

open Monitor

/-- Why a command fails. -/
inductive CommandError
  | config (reason : String)
  | io (reason : String)
  | snapshot (reason : String)
  | start (reason : String)
  | backend (error : BackendError)
deriving DecidableEq, Repr

namespace CommandError

def code : CommandError → String
  | config _ => "LOSTUSER_CLI_CONFIG_ERROR"
  | io _ => "LOSTUSER_CLI_IO_ERROR"
  | snapshot _ => "LOSTUSER_CLI_SNAPSHOT_ERROR"
  | start _ => "LOSTUSER_CLI_START_FAILED"
  | backend _ => "LOSTUSER_CLI_BACKEND_FAILURE"

def message : CommandError → String
  | config reason => reason
  | io reason => reason
  | snapshot reason => reason
  | start reason => reason
  | backend error => "monitor stopped: " ++ error.message

/-- What the program shows of an error. -/
def display (e : CommandError) : String := e.code ++ ": " ++ e.message

/-- The error of a value that cannot be read or written as JSON. -/
def ofFault (f : Json.Fault) : CommandError := io ("JSON error: " ++ f.message)

/-- The error of a monitor that cannot be started. -/
def ofStart : StartError → CommandError
  | .config reason => config reason
  | e => start e.message

end CommandError

end ReplicaWatch.CommandLine
