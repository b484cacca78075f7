import ReplicaWatch.Json.Numeral
import ReplicaWatch.Json.Quoted

/-!
# Values and their compact text

- `Value`: a complete value, its numbers exact decimals;
- `Value.write`: without blanks, members in the order they have;
- `Value.sorted`: members in ascending order of their names, everywhere inside.
-/

namespace ReplicaWatch.Json

/-- A complete value. -/
inductive Value
  | null
  | boolean (value : Bool)
  /-- A whole number divided by ten to the number of places. -/
  | number (digits : Int) (places : Nat)
  | string (text : String)
  | array (items : List Value)
  | object (members : List (String × Value))

instance : Inhabited Value := ⟨.null⟩

namespace Value

def int (i : Int) : Value := .number i 0

def nat (n : Nat) : Value := .number n 0

/-- A whole number divided by ten to the number of places, positionally. -/
def writeNumber (digits : Int) (places : Nat) : List Char :=
  let sign := if digits < 0 then ['-'] else []
  let ds := Nat.toDigits 10 digits.natAbs
  if places = 0 then sign ++ ds
  else
    let ds := List.replicate (places + 1 - ds.length) '0' ++ ds
    let whole := ds.length - places
    sign ++ ds.take whole ++ '.' :: ds.drop whole

mutual

/-- The compact text of a value. -/
def chars : Value → List Char
  | .null => ['n', 'u', 'l', 'l']
  | .boolean true => ['t', 'r', 'u', 'e']
  | .boolean false => ['f', 'a', 'l', 's', 'e']
  | .number digits places => writeNumber digits places
  | .string text => Quoted.quoted text
  | .array items => '[' :: itemChars items
  | .object members => '{' :: memberChars members

/-- The text of items up to the closing bracket. -/
def itemChars : List Value → List Char
  | [] => [']']
  | [v] => v.chars ++ [']']
  | v :: w :: rest => v.chars ++ ',' :: itemChars (w :: rest)

/-- The text of members up to the closing brace. -/
def memberChars : List (String × Value) → List Char
  | [] => ['}']
  | [(name, v)] => Quoted.quoted name ++ ':' :: (v.chars ++ ['}'])
  | (name, v) :: m :: rest => Quoted.quoted name ++ ':' :: (v.chars ++ ',' :: memberChars (m :: rest))

end

/-- The compact text of a value. -/
def write (v : Value) : String := String.ofList v.chars

/-- Puts a member where its name belongs among ascending names, behind members of the same name. -/
def placeMember (m : String × Value) : List (String × Value) → List (String × Value)
  | [] => [m]
  | n :: rest => if m.1 < n.1 then m :: n :: rest else n :: placeMember m rest

mutual

/-- A value with the members of all its objects in ascending order of their names. -/
def sorted : Value → Value
  | .array items => .array (sortedItems items)
  | .object members => .object (sortedMembers [] members)
  | v => v

/-- Items, each sorted inside. -/
def sortedItems : List Value → List Value
  | [] => []
  | v :: rest => v.sorted :: sortedItems rest

/-- Members sorted into members that are sorted already. -/
def sortedMembers (done : List (String × Value)) : List (String × Value) → List (String × Value)
  | [] => done
  | (name, v) :: rest => sortedMembers (placeMember (name, v.sorted) done) rest

end

end Value

end ReplicaWatch.Json
