import ReplicaWatch.Json.Numeral
import ReplicaWatch.Json.Quoted

/-!
# What can be read of a text

A text need not be well formed to say something: everything in front of its first fault can be read. A `Tree` is
the value at the start of a text as far as it goes. Where the text breaks off, the tree says `broken`, and the
arrays and objects that are open there are marked as not closed, so a reader who walks a tree from left to right
meets the faults of the text in their order.

- `Scalar`, `Tree`, `Document`;
- `Found`: what a value looks like from outside, for messages about values of the wrong kind.
-/

namespace ReplicaWatch.Json

/-- A value without parts. A string that contains half of a surrogate pair denotes no text. -/
inductive Scalar
  | null
  | boolean (value : Bool)
  | number (numeral : Numeral)
  | string (text : Option String)
deriving DecidableEq

/-- What a value looks like from outside. -/
inductive Found
  | null
  | boolean (value : Bool)
  | number (value : Number)
  | string (text : String)
  | sequence
  | map

/-- The readable part of a value. -/
inductive Tree
  | scalar (value : Scalar)
  /-- The items of an array, and whether it is closed. -/
  | array (items : List Tree) (closed : Bool)
  /-- The members of an object, and whether it is closed; a name with half of a surrogate pair is no text. -/
  | object (members : List (Option String × Tree)) (closed : Bool)
  /-- The text breaks off, or something else stands where a value must come. -/
  | broken

instance : Inhabited Tree := ⟨.broken⟩

/-- The readable part of a text. -/
structure Document where
  tree : Tree
  /-- Whether the value is complete and nothing but blanks follows it. -/
  complete : Bool

/-- What a scalar looks like; nothing if it is a number beyond the range or a string that denotes no text. -/
def Scalar.found? : Scalar → Option Found
  | .null => some .null
  | .boolean value => some (.boolean value)
  | .number numeral => numeral.value?.map .number
  | .string text => text.map .string

/-- What a value looks like; nothing if it cannot be read. -/
def Tree.found? : Tree → Option Found
  | .scalar value => value.found?
  | .array _ _ => some .sequence
  | .object _ _ => some .map
  | .broken => none

end ReplicaWatch.Json
