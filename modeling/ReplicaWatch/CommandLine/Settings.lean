import ReplicaWatch.Backend.File
import ReplicaWatch.CommandLine.Error
import ReplicaWatch.Json.Decoder
import ReplicaWatch.Json.Value
import ReplicaWatch.Log.Line

/-!
# The configuration file

- `Settings`: what the file says; everything but the path of the snapshot may be left out;
- `Settings.parse`: reading and checking a text. The monitor of whatever is accepted is configured well
  (`Settings.validate_monitorConfig`).
-/

namespace ReplicaWatch.CommandLine

open Json Log Monitor

/-- What a configuration file says. -/
structure Settings where
  snapshotPath : String
  /-- Seconds to wait for a resource that is seen for the first time. -/
  initialDelaySecs : Nat := 60
  /-- Seconds to wait for a resource that has been seen before. -/
  existingDelaySecs : Nat := 45
  outputCapacity : Nat := 1
  /-- The threshold of the log, in any case. -/
  logLevel : String := "info"
deriving DecidableEq, Repr

/-- What is wrong with a configuration file. -/
inductive SettingsFault
  | unreadable (error : ReadError)
  | malformed (fault : Fault)
  | noSnapshotPath
  | badLogLevel (level : String)
  | notStartable (fault : ConfigFault)

def SettingsFault.message : SettingsFault → String
  | unreadable e => "Failed to read config: " ++ e.message
  | malformed f => "Invalid config JSON: " ++ f.message
  | noSnapshotPath => "snapshot_path must not be empty"
  | badLogLevel level => "Invalid log_level: '" ++ level ++ "'"
  | notStartable f => (StartError.config f.message).message

namespace Settings

def decoder : Decoder Settings :=
  Decoder.record "Config" { snapshotPath := "" }
    [ .of "snapshot_path" true (Decoder.stringAs "path string") (fun p s => { s with snapshotPath := p }),
      .of "initial_delay_secs" false (Decoder.natural64 "u64") (fun n s => { s with initialDelaySecs := n }),
      .of "existing_delay_secs" false (Decoder.natural64 "u64")
        (fun n s => { s with existingDelaySecs := n }),
      .of "output_capacity" false (Decoder.natural64 "usize") (fun n s => { s with outputCapacity := n }),
      .of "log_level" false Decoder.string (fun l s => { s with logLevel := l }) ]

def encode (s : Settings) : Value :=
  .object [("snapshot_path", .string s.snapshotPath), ("initial_delay_secs", .nat s.initialDelaySecs),
    ("existing_delay_secs", .nat s.existingDelaySecs), ("output_capacity", .nat s.outputCapacity),
    ("log_level", .string s.logLevel)]

/-- The threshold in lower case. -/
def level (s : Settings) : String := s.logLevel.map Char.toLower

/-- The threshold of the log. -/
def severity? (s : Settings) : Option Severity := Severity.ofName? s.level

/-- The configuration of the monitor. -/
def monitorConfig (s : Settings) : Config where
  initialDelay := (Span.ofSeconds s.initialDelaySecs.toUInt64).milliseconds.toNat
  existingDelay := (Span.ofSeconds s.existingDelaySecs.toUInt64).milliseconds.toNat
  outputCapacity := s.outputCapacity

/-- Succeeds if a configuration can be used. -/
def validate (s : Settings) : Except SettingsFault Unit :=
  if s.snapshotPath.isEmpty then .error .noSnapshotPath
  else if s.severity?.isNone then .error (.badLogLevel s.level)
  else
    match s.monitorConfig.validate with
    | .ok () => .ok ()
    | .error f => .error (.notStartable f)

/-- Reads and checks the text of a configuration file. -/
def parse (text : String) : Except SettingsFault Settings :=
  match decodeText decoder text with
  | .error f => .error (.malformed f)
  | .ok s =>
    match s.validate with
    | .ok () => .ok s
    | .error f => .error f

/-- What is accepted has been checked. -/
theorem validate_of_parse {text : String} {s : Settings} (h : parse text = .ok s) :
    s.validate = .ok () := by
  unfold parse at h
  split at h
  · simp at h
  · split at h
    · rename_i hv
      cases h
      exact hv
    · simp at h

/-- What is accepted configures a monitor that can be started. -/
theorem validate_monitorConfig {text : String} {s : Settings} (h : parse text = .ok s) :
    s.monitorConfig.validate = .ok () := by
  have hv := validate_of_parse h
  unfold validate at hv
  split at hv
  · simp at hv
  · split at hv
    · simp at hv
    · split at hv
      · assumption
      · simp at hv

end Settings

end ReplicaWatch.CommandLine
