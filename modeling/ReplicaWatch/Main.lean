import ReplicaWatch.CommandLine.Identity
import ReplicaWatch.CommandLine.Program
import ReplicaWatch.Log.Timestamp
import Std.Time.DateTime.Timestamp

/-!
# The program

The outer layer: it reads arguments, files, the clock and the input, and carries out what the library says. A
watch follows the clock of the machine: the simulation is moved on to the present, its questions are answered from
the snapshot file as it is then, and what it puts out is written.
-/

namespace ReplicaWatch.Main

open CommandLine Monitor

/-- The present in milliseconds from the beginning of 1970. -/
def wallClock : IO Nat := do
  return (← Std.Time.Timestamp.now).toMillisecondsSinceUnixEpoch.val.toNat

/-- Why a file cannot be read, from the error of the system. -/
def readErrorOf (e : IO.Error) : ReadError :=
  match e with
  | .noFileOrDirectory .. => .missing
  | .invalidArgument _ code _ => if code = 36 ∨ code = 0 - 36 then .nameTooLong else .other (toString e)
  | .inappropriateType _ code _ => if code = 21 ∨ code = 0 - 21 then .isDirectory else .notDirectory
  | other => .other (toString other)

/-- What a path leads to now. -/
def readPath (path : String) : IO (Except ReadError (List UInt8)) := do
  if path.toList.contains '\x00' then return .error .zeroInPath
  try
    return .ok (← IO.FS.readBinFile path).toList
  catch e => return .error (readErrorOf e)

/-- Writes notices to the log. -/
def report (threshold : Log.Severity) (ns : List Notice) : IO Unit := do
  let time := Log.Timestamp.write (← wallClock)
  let stderr ← IO.getStderr
  for n in ns do
    let text := n.line.emit threshold time
    if !text.isEmpty then
      stderr.putStr text
      stderr.flush

/-- Shows an error and gives the exit code of a failure. -/
def fail (e : CommandError) : IO UInt32 := do
  IO.eprintln e.display
  return 1

/-- The exit code of a crash. -/
def crash : IO UInt32 := return 101

/-- Takes the notices that have not been written. -/
def flushNotices (threshold : Log.Severity) (s : Simulation) : IO Simulation := do
  report threshold (Simulation.notices s.observed)
  return { s with observed := [] }

/-- Answers the open questions from the snapshot file. -/
def answerQuestions (path : String) (s : Simulation) : IO Simulation := do
  if s.openQuestions.isEmpty then return s
  let content ← readPath path
  let backend := Backend.file ⟨path, content⟩
  let mut s := s
  for (task, resource) in s.openQuestions do
    let next := match task with
      | .watch id => s.act (.answerReplicas id (backend.replicas resource))
      | .loop => s.act (.answerDefinition (backend.definition resource))
      | .publisher _ => none
    s := ((next.getD s).forget task).settle
  return s

/-- Writes the names that have been put out, as many as there are. -/
partial def writeNames (s : Simulation) : IO Simulation := do
  match s.tryReceive with
  | some (s, .lost name) =>
    let stdout ← IO.getStdout
    stdout.putStr (lostUserLine name)
    stdout.flush
    writeNames s.settle
  | _ => return s

/-- What has arrived on the input since somebody last looked. -/
structure Inbox where
  bytes : ByteArray := .empty
  hasEnded : Bool := false

/-- Gathers the bytes of the input as they arrive. -/
partial def gather (inbox : IO.Ref Inbox) (input : IO.FS.Stream) : IO Unit := do
  let chunk ← try input.read 1 catch _ => pure .empty
  if chunk.isEmpty then inbox.modify fun i => { i with hasEnded := true }
  else
    inbox.modify fun i => { i with bytes := i.bytes ++ chunk }
    gather inbox input

/-- Hands over what has arrived. -/
def handOver (inbox : IO.Ref Inbox) (s : Simulation) : IO Simulation := do
  let arrived ← inbox.modifyGet fun i => (i, { i with bytes := .empty })
  let s := if arrived.bytes.isEmpty then s else (s.act (.write arrived.bytes.toList)).getD s
  return if arrived.hasEnded then (s.act .endInput).getD s else s

/-- Follows the clock until the monitor has come to an end. -/
partial def follow (threshold : Log.Severity) (path : String) (begun : Nat) (inbox : IO.Ref Inbox)
    (s : Simulation) : IO Simulation := do
  let mut s ← handOver inbox (s.advanceTo ((← IO.monoMsNow) - begun))
  s ← answerQuestions path s.settle
  s ← flushNotices threshold s
  s ← writeNames s
  s ← flushNotices threshold s
  match s.ending with
  | .running =>
    IO.sleep 2
    follow threshold path begun inbox s
  | _ => return s

/-- Watches until the end of the input. -/
def runWatch (threshold : Log.Severity) (settings : Settings) : IO UInt32 := do
  let monitor := identity (← IO.getRandomBytes 16).toList
  let path := settings.snapshotPath
  let simulation : Simulation :=
    { setup := { monitor := monitor, config := settings.monitorConfig }
      crashReport := "crashed"
      backend := .file ⟨path, .error .missing⟩
      definitionDisturbance := .hang
      replicaDisturbance := .hang
      stream := .free (.feed {}) }
  match simulation.startMonitor with
  | (_, .notStarted e) => fail (.ofStart e)
  | (_, .crashed _) => crash
  | (s, _) =>
    let inbox ← IO.mkRef {}
    let _ ← IO.asTask (gather inbox (← IO.getStdin)) .dedicated
    let s ← follow threshold path (← IO.monoMsNow) inbox s
    match resultOfEnding s.ending with
    | .ok () => return 0
    | .error e => fail e
    | .crashed => crash

/-- Carries out a request. -/
def runRequest (request : Request) : IO UInt32 := do
  let path := match request with
    | .watch path => path
    | .check path => path
  let config ← readPath path
  match loadSettings (fun _ => config) path with
  | .error e => fail e
  | .ok (settings, threshold) =>
    report threshold [.configLoaded path settings.snapshotPath]
    match request with
    | .watch _ => runWatch threshold settings
    | .check _ =>
      let snapshot ← readPath settings.snapshotPath
      match checkSnapshot (fun _ => snapshot) settings with
      | .error e => fail e
      | .ok line =>
        let stdout ← IO.getStdout
        stdout.putStr line
        stdout.flush
        return 0

/-- How the program is used. -/
def usage : String := "Usage: lostuser <watch|check> [--config <CONFIG>]"

/-- Does what the arguments ask for and gives the exit code. -/
def run (args : List String) : IO UInt32 := do
  match CommandLine.parse args with
  | .error .version =>
    IO.println "lostuser 0.1.0"
    return 0
  | .error e =>
    if e = .help then IO.println usage else IO.eprintln usage
    return UInt32.ofNat e.exitCode
  | .ok request => runRequest request

end ReplicaWatch.Main

def main (args : List String) : IO UInt32 := ReplicaWatch.Main.run args
