/-!
# The shortest decimal of a double

A finite double stands for every real number that rounds to it. `Shortest.decimal?` gives the decimal of fewest
digits among those reals, the nearest of them if there are several, in exact arithmetic on natural numbers.

- `Parts` takes a double apart into sign, significand and power of two;
- `Parts.candidate` tries one number of digits: only the two neighbours of the value on that decimal grid can
  hit;
- `Notation.write` lays the digits out, positionally or with an exponent.
-/

namespace ReplicaWatch.Decimal

/-- A double taken apart: plus or minus `significand * 2 ^ power`. -/
structure Parts where
  /-- Whether the sign bit is set. -/
  negative : Bool
  /-- The significand, the hidden bit included. -/
  significand : Nat
  /-- The power of two. -/
  power : Int
  /-- Whether the next smaller double is only half as far away as the next greater one. -/
  narrow : Bool

namespace Parts

/-- The parts of a finite double, from its bits. -/
def ofFloat (x : Float) : Parts :=
  let bits : Nat := x.toBits.toNat
  let exponent : Nat := bits / Nat.pow 2 52 % Nat.pow 2 11
  let fraction : Nat := bits % Nat.pow 2 52
  let negative := bits / Nat.pow 2 63 = 1
  if exponent = 0 then ⟨negative, fraction, -1074, false⟩
  else ⟨negative, Nat.pow 2 52 + fraction, Int.ofNat exponent - 1075, decide (fraction = 0 ∧ 1 < exponent)⟩

/-- A quarter of a unit of the significand as a fraction: numerator and denominator. -/
def quarter (p : Parts) : Nat × Nat :=
  if 2 ≤ p.power then (Nat.pow 2 (p.power - 2).toNat, 1) else (1, Nat.pow 2 (2 - p.power).toNat)

/-- The exponent of the leading digit of a positive fraction. -/
def leadingExponent (num den : Nat) : Int :=
  if den ≤ num then ((Nat.toDigits 10 (num / den)).length : Int) - 1
  else
    match (List.range 400).find? (fun k => den ≤ num * Nat.pow 10 k) with
    | some k => -(k : Int)
    | none => 0

/-- A multiple of a power of ten as a fraction over the denominator `den`: both sides of a comparison with
`num / den` are scaled to natural numbers. -/
def aligned (c : Nat) (exponent : Int) (num den : Nat) : Nat × Nat :=
  if 0 ≤ exponent then (c * Nat.pow 10 exponent.toNat * den, num)
  else (c * den, num * Nat.pow 10 (-exponent).toNat)

/-- Whether a multiple of a power of ten rounds to the double: it lies between the midpoints to its neighbours,
and may be a midpoint if the significand is even. -/
def roundsTo (p : Parts) (c : Nat) (exponent : Int) : Bool :=
  let (unit, den) := p.quarter
  let low := (4 * p.significand - (if p.narrow then 1 else 2)) * unit
  let high := (4 * p.significand + 2) * unit
  let below := aligned c exponent low den
  let above := aligned c exponent high den
  if p.significand % 2 = 0 then decide (below.2 ≤ below.1 ∧ above.1 ≤ above.2)
  else decide (below.2 < below.1 ∧ above.1 < above.2)

/-- The decimal with the given number of digits that rounds to the double, as a multiple of a power of ten: of
the two neighbours on the grid the nearer one that hits, and the even one if both are as near. -/
def candidate (p : Parts) (count : Nat) : Option (Nat × Int) :=
  let (unit, den) := p.quarter
  let num := 4 * p.significand * unit
  let exponent := leadingExponent num den - ((count : Int) - 1)
  let (step, scaled) := aligned 1 exponent num den
  let floor := scaled / step
  let left := scaled % step
  let lower := p.roundsTo floor exponent
  let upper := p.roundsTo (floor + 1) exponent
  if lower && upper then
    if 2 * left < step ∨ (2 * left = step ∧ floor % 2 = 0) then some (floor, exponent)
    else some (floor + 1, exponent)
  else if lower then some (floor, exponent)
  else if upper then some (floor + 1, exponent)
  else none

/-- The digits of the shortest decimal of a positive double and the exponent of its first digit; seventeen digits
always suffice. -/
def shortest (p : Parts) : List Char × Int :=
  match (List.range 17).findSome? (fun k => p.candidate (k + 1)) with
  | none => (['0'], 0)
  | some (c, exponent) =>
    let ds := Nat.toDigits 10 c
    let kept := (ds.reverse.dropWhile (· = '0')).reverse
    (kept, exponent + (ds.length : Int) - 1)

end Parts

/-- How decimals are laid out. -/
structure Notation where
  /-- The least exponent of the first digit that is written positionally. -/
  least : Int
  /-- The greatest exponent of the first digit that is written positionally. -/
  greatest : Int

namespace Notation

/-- The text of digits whose first has the given exponent. A whole number ends in a point and a zero, unless an
exponent follows. -/
def layOut (style : Notation) (ds : List Char) (exponent : Int) : List Char :=
  if style.least ≤ exponent ∧ exponent ≤ style.greatest then
    if exponent < 0 then '0' :: '.' :: (List.replicate ((-exponent).toNat - 1) '0' ++ ds)
    else
      let count := exponent.toNat + 1
      if ds.length ≤ count then ds ++ List.replicate (count - ds.length) '0' ++ ['.', '0']
      else ds.take count ++ '.' :: ds.drop count
  else
    let mantissa := match ds with
      | d :: e :: rest => d :: '.' :: e :: rest
      | short => short
    let mark := if exponent < 0 then ['e', '-'] else ['e', '+']
    mantissa ++ mark ++ Nat.toDigits 10 exponent.natAbs

/-- The shortest text of a finite double that reads back as it. -/
def write (style : Notation) (x : Float) : String :=
  let p := Parts.ofFloat x
  let unsigned :=
    if p.significand = 0 then ['0', '.', '0']
    else
      let (ds, exponent) := p.shortest
      style.layOut ds exponent
  String.ofList (if p.negative then '-' :: unsigned else unsigned)

end Notation

end ReplicaWatch.Decimal
