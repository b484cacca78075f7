import ReplicaWatch.Json.Fault
import ReplicaWatch.Json.Reader
import ReplicaWatch.NameMap

/-!
# Reading values of a type

A decoder walks the readable part of a text from left to right and stops at the first fault it meets, be it a
fault of the text or of a value. It is told how many arrays and objects it may still enter.

- scalars: `string`, `boolean`, `integer`, `nullable`;
- `sequence`, `dictionary`;
- `record`: an object with named fields in any order, or a sequence of the fields in their own order. Members
  with other names are passed over, whatever their value; a field may be given once;
- `decodeText`: a whole text. Arrays and objects may nest 127 deep;
- `bind_eq_ok_iff`, `map_eq_ok_iff`: what the parts of a computation that succeeds have given.
-/

namespace ReplicaWatch.Json

/-- A sequence of two steps succeeds if both do. -/
theorem bind_eq_ok_iff {ε α β : Type} {x : Except ε α} {f : α → Except ε β} {b : β} :
    (x >>= f) = .ok b ↔ ∃ a, x = .ok a ∧ f a = .ok b := by
  cases x with
  | error e => exact ⟨fun h => (by cases h), fun ⟨_, h, _⟩ => (by cases h)⟩
  | ok a => exact ⟨fun h => ⟨a, rfl, h⟩, fun ⟨_, h, hf⟩ => (by cases h; exact hf)⟩

theorem map_eq_ok_iff {ε α β : Type} {x : Except ε α} {f : α → β} {b : β} :
    x.map f = .ok b ↔ ∃ a, x = .ok a ∧ f a = b := by
  cases x with
  | error e => exact ⟨fun h => (by cases h), fun ⟨_, h, _⟩ => (by cases h)⟩
  | ok a => simp [Except.map]

/-- Reads a value, given how deep it may still nest. -/
abbrev Decoder (α : Type) := Nat → Tree → Except Fault α

namespace Decoder

variable {α : Type}

/-! ## Scalars -/

/-- Reads a string that stands for something called by the given words. -/
def stringAs (expected : String) : Decoder String := fun _ t =>
  match t with
  | .scalar (.string (some s)) => .ok s
  | t => .error (t.mismatch expected)

def string : Decoder String := stringAs "a string"

def boolean : Decoder Bool := fun _ t =>
  match t with
  | .scalar (.boolean b) => .ok b
  | t => .error (t.mismatch "a boolean")

/-- Reads an integer between two bounds. -/
def integer (least greatest : Int) (kind : String) : Decoder Int := fun _ t =>
  match t.found? with
  | some (.number (.integer i)) =>
    if least ≤ i ∧ i ≤ greatest then .ok i else .error (.outOfRange i kind)
  | found => .error (.ofFound found kind)

/-- Reads a natural number up to a greatest one. -/
def natural (greatest : Nat) (kind : String) : Decoder Nat := fun depth t =>
  (integer 0 greatest kind depth t).map Int.toNat

/-- Reads a natural number that fits 64 bits. -/
def natural64 (kind : String) : Decoder Nat := natural (Numeral.unsignedBound - 1) kind

def nullable (d : Decoder α) : Decoder (Option α) := fun depth t =>
  match t with
  | .scalar .null => .ok none
  | t => (d depth t).map some

/-! ## Values with parts -/

/-- How deep the parts of a value may nest, if the value may have parts at all. -/
def enter (depth : Nat) : Except Fault Nat :=
  if depth ≤ 1 then .error .malformed else .ok (depth - 1)

/-- Reads the items of a sequence. -/
def items (d : Decoder α) (depth : Nat) : List Tree → Except Fault (List α)
  | [] => .ok []
  | t :: ts => do
    let a ← d depth t
    let as ← items d depth ts
    return a :: as

/-- Succeeds if a part of the text is well formed to its end. -/
def ensureClosed (closed : Bool) : Except Fault Unit :=
  if closed then .ok () else .error .malformed

/-- Reads a sequence of values of one type. -/
def sequence (d : Decoder α) : Decoder (List α) := fun depth t =>
  match t with
  | .array ts closed => do
    let inside ← enter depth
    let as ← items d inside ts
    ensureClosed closed
    return as
  | t => .error (t.mismatch "a sequence")

/-- Reads members into a map. -/
def entries (d : Decoder α) (depth : Nat) (m : NameMap α) :
    List (Option String × Tree) → Except Fault (NameMap α)
  | [] => .ok m
  | (none, _) :: _ => .error .malformed
  | (some name, t) :: rest => do
    let a ← d depth t
    entries d depth (m.insert name a) rest

/-- Reads an object whose members all have values of one type; of two members with one name the later counts. -/
def dictionary (d : Decoder α) : Decoder (NameMap α) := fun depth t =>
  match t with
  | .object members closed => do
    let inside ← enter depth
    let m ← entries d inside .empty members
    ensureClosed closed
    return m
  | t => .error (t.mismatch "a map")

/-! ## Records -/

end Decoder

/-- A field of a record of type `α`: reading its value gives what it changes in the record. -/
structure Field (α : Type) where
  name : String
  /-- Whether a record must have it. -/
  required : Bool
  /-- Reads the value. -/
  read : Decoder (α → α)

/-- A field that is set to the value read. -/
def Field.of {α β : Type} (name : String) (required : Bool) (d : Decoder β) (set : β → α → α) : Field α :=
  ⟨name, required, fun depth t => (d depth t).map set⟩

namespace Decoder

variable {α : Type}

/-- Reads the members of a record given as an object. Before them the record is `a` and has the fields `seen`. -/
def members (fields : List (Field α)) (depth : Nat) (seen : List String) (a : α) :
    List (Option String × Tree) → Except Fault (List String × α)
  | [] => .ok (seen, a)
  | (none, _) :: _ => .error .malformed
  | (some name, t) :: rest =>
    match fields.find? (fun f => f.name = name) with
    | none => members fields depth seen a rest
    | some f =>
      if name ∈ seen then .error (.duplicateField name)
      else do
        let change ← f.read depth t
        members fields depth (name :: seen) (change a) rest

/-- Reads the fields of a record given as a sequence, `count` of them read before. -/
def elements (record : String) (size : Nat) (depth : Nat) (closed : Bool) :
    List (Field α) → Nat → α → List Tree → Except Fault α
  | [], _, a, [] => do
    ensureClosed closed
    return a
  | [], _, _, _ :: _ => .error .malformed
  | f :: fs, count, a, [] =>
    if !closed then .error .malformed
    else if f.required then .error (.tooShort count record size)
    else elements record size depth closed fs (count + 1) a []
  | f :: fs, count, a, t :: ts => do
    let change ← f.read depth t
    elements record size depth closed fs (count + 1) (change a) ts

/-- Succeeds if no required field is left out; the first one that is counts. -/
def ensureRequired (fields : List (Field α)) (seen : List String) : Except Fault Unit :=
  match fields.find? (fun f => f.required && !(seen.contains f.name)) with
  | none => .ok ()
  | some f => .error (.missingField f.name)

/-- Reads a record with the given name and fields. What it does not say is as in `start`. -/
def record (name : String) (start : α) (fields : List (Field α)) : Decoder α := fun depth t =>
  match t with
  | .object ms closed => do
    let inside ← enter depth
    let (seen, a) ← members fields inside [] start ms
    ensureClosed closed
    ensureRequired fields seen
    return a
  | .array ts closed => do
    let inside ← enter depth
    elements name fields.length inside closed fields 0 start ts
  | t => .error (t.mismatch ("struct " ++ name))

end Decoder

/-! ## Whole texts -/

/-- How many arrays and objects may stand around a part of a text, and one more. -/
def greatestDepth : Nat := 128

/-- Reads a document: one value, and nothing after it. -/
def decodeDocument {α : Type} (d : Decoder α) (doc : Document) : Except Fault α := do
  let a ← d greatestDepth doc.tree
  Decoder.ensureClosed doc.complete
  return a

def decodeText {α : Type} (d : Decoder α) (text : String) : Except Fault α := decodeDocument d (readText text)

end ReplicaWatch.Json
