import ReplicaWatch.Cluster.Snapshot
import ReplicaWatch.Cluster.Verdict

/-!
# What is written to the output

One object on each line: a resource that lost its user, or a report. Members come in ascending order of their
names.
-/

namespace ReplicaWatch.CommandLine

open Json

/-- A value on a line of its own. -/
def outputLine (v : Value) : String := String.ofList (v.sorted.chars ++ ['\n'])

/-- The line of a resource that lost its user. -/
def lostUserLine (resource : String) : String := outputLine (.object [("resource", .string resource)])

/-- The line of a successful answer. -/
def responseLine (data : Value) : String :=
  outputLine (.object [("status", .string "ok"), ("data", data)])

/-- The lines of resources that lost their users, and of the answer after them, if there is one. -/
def outputText (lost : List String) (response : Option Value) : String :=
  String.join (lost.map lostUserLine) ++ (response.map responseLine).getD ""

/-- A verdict in a report. -/
def verdictValue : Verdict → Value
  | .mismatch kind => .object [("status", .string "layer_mismatch"), ("layer", .string kind.name)]
  | .promotable => .object [("status", .string "may_promote")]
  | .settled => .object [("status", .string "settled")]

/-- The replicas of a resource, none if it does not exist. -/
def replicasOrNone (s : Snapshot) (resource : String) : List Replica :=
  match s.lookUp resource with
  | .ok rs => rs
  | .error _ => []

/-- How one resource stands. -/
def reportEntry (s : Snapshot) (d : Definition) : Value :=
  let replicas := replicasOrNone s d.name
  .object [("resource", .string d.name), ("quorum", .boolean d.hasQuorum), ("replicas", .nat replicas.length),
    ("verdict", verdictValue (Verdict.ofReplicas replicas))]

/-- How every resource with a definition stands, in the order of the definitions. -/
def report (s : Snapshot) : Value := .object [("resources", .array (s.definitions.map (reportEntry s)))]

end ReplicaWatch.CommandLine
