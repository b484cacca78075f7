import ReplicaWatch.CommandLine.Arguments
import ReplicaWatch.CommandLine.Output
import ReplicaWatch.CommandLine.Settings
import ReplicaWatch.Simulation.Command

/-!
# The commands

A command gets the files it may read and its whole input, and no time passes while it runs.

- `Outcome`: what a command leaves behind;
- `loadSettings`: the configuration, read before anything else is done;
- `check`: the report on a snapshot; `watch`: a monitor that stops at the end of its input;
- `perform`: either of them.
-/

namespace ReplicaWatch.CommandLine

open Log Monitor Simulation

/-- What a command leaves behind. -/
structure Outcome where
  /-- Whether it succeeded. -/
  result : Attempt CommandError Unit
  /-- What it wrote to the output. -/
  stdout : String := ""
  /-- What it reported. -/
  notices : List Notice := []
  /-- The threshold of the log afterwards. -/
  threshold : Severity

/-- Reads the configuration. -/
def loadSettings (files : Files) (path : String) : Except CommandError (Settings × Severity) :=
  match files.readText path with
  | .error e => .error (.config (SettingsFault.unreadable e).message)
  | .ok text =>
    match Settings.parse text with
    | .error fault => .error (.config fault.message)
    | .ok settings =>
      match settings.severity? with
      | some severity => .ok (settings, severity)
      | none => .error (.config (SettingsFault.badLogLevel settings.level).message)

/-- The report on the snapshot of a configuration. -/
def checkSnapshot (files : Files) (settings : Settings) : Except CommandError String :=
  match files.readText settings.snapshotPath with
  | .error e => .error (.snapshot ("Failed to read " ++ settings.snapshotPath ++ ": " ++ e.message))
  | .ok text =>
    match Snapshot.parse text with
    | .error e => .error (.snapshot e.message)
    | .ok snapshot => .ok (responseLine (report snapshot))

/-- A monitor of the snapshot of a configuration, with all its input at hand. -/
def rehearsal (monitor : String) (files : Files) (settings : Settings) (stdin : List UInt8) : Simulation where
  setup := { monitor := monitor, config := settings.monitorConfig }
  backend := .file ⟨settings.snapshotPath, files settings.snapshotPath⟩
  stream := .free (.feed { unread := stdin, hasEnded := true })

/-- The result of a command whose monitor has come to an end. -/
def resultOfEnding : Result → Attempt CommandError Unit
  | .joined (.backendFailure e) => .error (.backend e)
  | .crashed _ => .crashed
  | _ => .ok ()

/-- Runs a monitor to the end of its input, and writes every name that it puts out: the result, what is written and
what is reported. -/
def watchInput (s : Simulation) : Attempt CommandError Unit × String × List Notice :=
  match s.startMonitor with
  | (_, .notStarted e) => (.error (.ofStart e), "", [])
  | (_, .crashed _) => (.crashed, "", [])
  | (s, _) =>
    let s := s.serve s.patience
    (resultOfEnding s.ending, outputText (receivedOf s.observed) none, Simulation.notices s.observed)

/-- Carries out a request. -/
def perform (monitor : String) (files : Files) (stdin : List UInt8) (threshold : Severity) :
    Request → Outcome
  | .watch path =>
    match loadSettings files path with
    | .error e => { result := .error e, threshold := threshold }
    | .ok (settings, severity) =>
      let (result, stdout, notices) := watchInput (rehearsal monitor files settings stdin)
      { result := result, stdout := stdout, notices := .configLoaded path settings.snapshotPath :: notices,
        threshold := severity }
  | .check path =>
    match loadSettings files path with
    | .error e => { result := .error e, threshold := threshold }
    | .ok (settings, severity) =>
      let loaded := [Notice.configLoaded path settings.snapshotPath]
      match checkSnapshot files settings with
      | .error e => { result := .error e, notices := loaded, threshold := severity }
      | .ok line => { result := .ok (), stdout := line, notices := loaded, threshold := severity }

end ReplicaWatch.CommandLine
