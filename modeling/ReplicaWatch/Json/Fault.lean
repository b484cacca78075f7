import ReplicaWatch.Decimal.Shortest
import ReplicaWatch.Json.Tree
import ReplicaWatch.Text.Literal

/-!
# Why a text cannot be read as a value of a type

- `Fault`: the causes; `Fault.message`: their wording;
- `Tree.mismatch`: the fault of a value of the wrong kind. A value that cannot be read as far as its kind is a
  fault of the text itself.
-/

namespace ReplicaWatch.Json

/-- Why a text cannot be read as a value of a type. -/
inductive Fault
  /-- The text is not well formed, or nests too deep. -/
  | malformed
  /-- A value of another kind than the expected one. -/
  | wrongKind (found : Found) (expected : String)
  /-- An integer that does not fit. -/
  | outOfRange (value : Int) (expected : String)
  /-- A record without one of its required fields. -/
  | missingField (name : String)
  /-- A record with one of its fields twice. -/
  | duplicateField (name : String)
  /-- A record given as a sequence that ends before a required field. -/
  | tooShort (count : Nat) (record : String) (size : Nat)

/-- Floating-point numbers in messages: positional from 0.00001 up to below 10 to the 16th, otherwise with a
signed exponent. -/
def Found.floating : Decimal.Notation := ⟨-5, 15⟩

/-- A found value in words. -/
def Found.describe : Found → String
  | .null => "null"
  | .boolean true => "boolean `true`"
  | .boolean false => "boolean `false`"
  | .number (.integer value) => "integer `" ++ toString value ++ "`"
  | .number (.floating value) => "floating point `" ++ Found.floating.write value ++ "`"
  | .string text => "string " ++ Text.Literal.write text
  | .sequence => "sequence"
  | .map => "map"

namespace Fault

/-- A record and its number of fields. -/
def recordOf (name : String) (size : Nat) : String :=
  "struct " ++ name ++ " with " ++ toString size ++ (if size = 1 then " element" else " elements")

def message : Fault → String
  | malformed => "syntax error"
  | wrongKind found expected => "invalid type: " ++ found.describe ++ ", expected " ++ expected
  | outOfRange value expected => "invalid value: integer `" ++ toString value ++ "`, expected " ++ expected
  | missingField name => "missing field `" ++ name ++ "`"
  | duplicateField name => "duplicate field `" ++ name ++ "`"
  | tooShort count record size =>
    "invalid length " ++ toString count ++ ", expected " ++ recordOf record size

/-- The fault of finding something else than what is expected; what cannot be read is malformed. -/
def ofFound (found : Option Found) (expected : String) : Fault :=
  match found with
  | some f => .wrongKind f expected
  | none => .malformed

end Fault

/-- The fault of a value of another kind than the expected one. -/
def Tree.mismatch (t : Tree) (expected : String) : Fault := .ofFound t.found? expected

end ReplicaWatch.Json
