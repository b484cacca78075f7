import ReplicaWatch.Json.Quoted

/-!
# Log lines

- `Severity`, in ascending order, and the threshold below which nothing is written (`Severity.passes`);
- `Line.write`: a line is a flat object: event, severity and time, then the fields in ascending order of their
  names, fields of one name in the order given;
- `Line.emit`: a line with its line end, if the threshold lets it through.
-/

namespace ReplicaWatch.Log

/-- How serious a log line is. -/
inductive Severity
  | trace
  | info
  /-- Something that can be recovered from. -/
  | warn
  | error
  /-- The monitor stops because of it. -/
  | fatal
deriving DecidableEq, Repr

namespace Severity

def rank : Severity → Nat
  | trace => 0
  | info => 1
  | warn => 2
  | error => 3
  | fatal => 4

def name : Severity → String
  | trace => "TRACE"
  | info => "INFO"
  | warn => "WARN"
  | error => "ERROR"
  | fatal => "FATAL"

/-- Whether a threshold lets a severity through. -/
def passes (threshold severity : Severity) : Bool := threshold.rank ≤ severity.rank

/-- The severity with a name in lower case. -/
def ofName? (s : String) : Option Severity :=
  if s = "trace" then some trace
  else if s = "info" then some info
  else if s = "warn" then some warn
  else if s = "error" then some error
  else if s = "fatal" then some fatal
  else none

end Severity

/-- A line of the log, before the time is put on it. -/
structure Line where
  /-- How serious it is. -/
  severity : Severity
  /-- What happened. -/
  event : String
  /-- Whatever else is to be said, by name. -/
  fields : List (String × String)
deriving DecidableEq, Repr

namespace Line

open Json

/-- The fields in the order they are written. -/
def sortedFields (l : Line) : List (String × String) := l.fields.mergeSort (fun a b => decide (a.1 ≤ b.1))

/-- A name and its text as a member of an object. -/
def member (name value : String) : List Char := Quoted.quoted name ++ ':' :: Quoted.quoted value

/-- The characters of a line at a time, without the line end. -/
def chars (l : Line) (time : String) : List Char :=
  '{' :: (member "event" l.event ++ ',' :: (member "severity" l.severity.name ++ ',' :: member "ts" time)
    ++ l.sortedFields.flatMap (fun f => ',' :: member f.1 f.2) ++ ['}'])

/-- The text of a line at a time, without the line end. -/
def write (l : Line) (time : String) : String := String.ofList (l.chars time)

/-- What a line at a time adds to the log. -/
def emit (threshold : Severity) (l : Line) (time : String) : String :=
  if threshold.passes l.severity then String.ofList (l.chars time ++ ['\n']) else ""

end Line

end ReplicaWatch.Log
