/-!
# Names for monitors

`identity` makes a random identifier of version 4 from sixteen random bytes: the bits that tell the version and
the variant are set, and the digits are grouped by hyphens.
-/

namespace ReplicaWatch.CommandLine

/-- The two lower-case digits of a byte. -/
def hexByte (b : Nat) : List Char := [Nat.digitChar (b / 16), Nat.digitChar (b % 16)]

/-- The value of the byte at a place, with the bits of version and variant set. -/
def stamped (place byte : Nat) : Nat :=
  if place = 6 then 64 + byte % 16 else if place = 8 then 128 + byte % 64 else byte

/-- An identifier from random bytes. -/
def identity (bytes : List UInt8) : String :=
  String.ofList ((bytes.zipIdx).flatMap fun (b, place) =>
    (if place = 4 ∨ place = 6 ∨ place = 8 ∨ place = 10 then ['-'] else []) ++ hexByte (stamped place b.toNat))

end ReplicaWatch.CommandLine
