/-!
# Numerals

- `Numeral.scan` reads the longest numeral at the start of a text: an optional minus sign, a whole part without
  leading zeros, and optionally a fraction and an exponent (`Numeral.scan_shorter`: it uses up characters);
- `Numeral.value?` is the number a numeral denotes: an integer if it has neither fraction nor exponent and fits
  64 bits, otherwise a floating-point number, and none beyond the range of those.
-/

namespace ReplicaWatch.Json

/-- A numeral as it is written. -/
structure Numeral where
  /-- Whether a minus sign stands in front. -/
  negative : Bool
  /-- The digits before the point. -/
  whole : List Char
  /-- The digits after the point. -/
  fraction : Option (List Char)
  /-- Whether the exponent is negative, and its digits. -/
  exponent : Option (Bool × List Char)
deriving DecidableEq

/-- The number that a numeral denotes. -/
inductive Number
  /-- An integer of at most 64 bits. -/
  | integer (value : Int)
  /-- Any other number, as near as double precision comes to it. -/
  | floating (value : Float)

namespace Numeral

/-! ## Reading -/

/-- At least one digit, and the rest. -/
def digits (cs : List Char) : Option (List Char × List Char) :=
  match cs.takeWhile Char.isDigit with
  | [] => none
  | d :: ds => some (d :: ds, cs.dropWhile Char.isDigit)

/-- The sign, and the rest. -/
def sign (cs : List Char) : Bool × List Char :=
  match cs with
  | c :: rest => if c = '-' then (true, rest) else (false, cs)
  | [] => (false, [])

/-- The digits before the point: a zero alone, or no zero in front. -/
def wholePart (cs : List Char) : Option (List Char × List Char) :=
  match digits cs with
  | some (d :: e :: ds, rest) => if d = '0' then none else some (d :: e :: ds, rest)
  | other => other

/-- A point and at least one digit, or nothing. -/
def fractionPart (cs : List Char) : Option (Option (List Char) × List Char) :=
  match cs with
  | c :: rest => if c = '.' then (digits rest).map fun p => (some p.1, p.2) else some (none, cs)
  | [] => some (none, [])

/-- An exponent mark, an optional sign and at least one digit, or nothing. -/
def exponentPart (cs : List Char) : Option (Option (Bool × List Char) × List Char) :=
  match cs with
  | c :: rest =>
    if c = 'e' ∨ c = 'E' then
      match rest with
      | s :: digitsAfter =>
        if s = '-' then (digits digitsAfter).map fun p => (some (true, p.1), p.2)
        else if s = '+' then (digits digitsAfter).map fun p => (some (false, p.1), p.2)
        else (digits rest).map fun p => (some (false, p.1), p.2)
      | [] => none
    else some (none, cs)
  | [] => some (none, [])

/-- The longest numeral at the start of a text, and the rest; none if the text starts like a numeral but goes on
otherwise. -/
def scan (cs : List Char) : Option (Numeral × List Char) :=
  match wholePart (sign cs).2 with
  | none => none
  | some (whole, afterWhole) =>
    match fractionPart afterWhole with
    | none => none
    | some (fraction, afterFraction) =>
      match exponentPart afterFraction with
      | none => none
      | some (exponent, rest) => some (⟨(sign cs).1, whole, fraction, exponent⟩, rest)

/-! ## Reading uses up characters -/

/-- What is left after some digits is shorter. -/
theorem digits_shorter {cs ds rest : List Char} (h : digits cs = some (ds, rest)) :
    rest.length < cs.length := by
  unfold digits at h
  split at h
  · simp at h
  · rename_i d ds' htake
    simp only [Option.some.injEq, Prod.mk.injEq] at h
    rw [← h.2]
    have := congrArg List.length (List.takeWhile_append_dropWhile (p := Char.isDigit) (l := cs))
    rw [List.length_append, htake] at this
    simp only [List.length_cons] at this
    omega

theorem sign_le (cs : List Char) : (sign cs).2.length ≤ cs.length := by
  unfold sign
  split
  · split <;> simp
  · simp

theorem wholePart_shorter {cs ds rest : List Char} (h : wholePart cs = some (ds, rest)) :
    rest.length < cs.length := by
  unfold wholePart at h
  split at h
  · rename_i hd
    split at h
    · simp at h
    · simp only [Option.some.injEq, Prod.mk.injEq] at h
      rw [← h.2]
      exact digits_shorter hd
  · exact digits_shorter h

theorem map_digits_shorter {α : Type} {f : List Char → α} {cs rest : List Char} {a : α}
    (h : ((digits cs).map fun p => (f p.1, p.2)) = some (a, rest)) : rest.length < cs.length := by
  obtain ⟨p, hp, hq⟩ := Option.map_eq_some_iff.1 h
  cases hq
  exact digits_shorter hp

theorem fractionPart_le {cs rest : List Char} {f : Option (List Char)}
    (h : fractionPart cs = some (f, rest)) : rest.length ≤ cs.length := by
  unfold fractionPart at h
  split at h
  · split at h
    · have := map_digits_shorter h
      simp only [List.length_cons]
      omega
    · cases h
      exact Nat.le_refl _
  · cases h
    exact Nat.le_refl _

theorem exponentPart_le {cs rest : List Char} {e : Option (Bool × List Char)}
    (h : exponentPart cs = some (e, rest)) : rest.length ≤ cs.length := by
  unfold exponentPart at h
  split at h
  · split at h
    · split at h
      · split at h
        · have := map_digits_shorter (f := fun ds => some (true, ds)) h
          simp only [List.length_cons]
          omega
        · split at h
          · have := map_digits_shorter (f := fun ds => some (false, ds)) h
            simp only [List.length_cons]
            omega
          · have := map_digits_shorter (f := fun ds => some (false, ds)) h
            simp only [List.length_cons] at this ⊢
            omega
      · simp at h
    · cases h
      exact Nat.le_refl _
  · cases h
    exact Nat.le_refl _

/-- Reading a numeral uses up at least one character. -/
theorem scan_shorter {cs rest : List Char} {n : Numeral} (h : scan cs = some (n, rest)) :
    rest.length < cs.length := by
  unfold scan at h
  split at h
  · simp at h
  · rename_i hw
    split at h
    · simp at h
    · rename_i hf
      split at h
      · simp at h
      · rename_i he
        cases h
        have h1 := sign_le cs
        have h2 := wholePart_shorter hw
        have h3 := fractionPart_le hf
        have h4 := exponentPart_le he
        omega

/-! ## The number denoted -/

/-- Natural numbers below this one fit 64 bits without a sign. -/
def unsignedBound : Nat := 18446744073709551616

/-- Negative integers down to minus this one fit 64 bits with a sign. -/
def signedBound : Nat := 9223372036854775808

/-- Reads digits into a significand as long as it fits 64 bits; the digits that no longer fit are left. -/
def fill (significand : Nat) : List Char → Nat × List Char
  | [] => (significand, [])
  | d :: ds =>
    let next := significand * 10 + (d.toNat - 48)
    if next < unsignedBound then fill next ds else (significand, d :: ds)

/-- A power of ten in double precision. -/
def power (k : Nat) : Float := Float.ofScientific 1 false k

/-- A number times a power of ten, in one multiplication or division where the table of powers up to 308
reaches, else by repeated division by the largest of them; none beyond the range. -/
def scaled (x : Float) (exponent : Int) : Option Float :=
  if exponent < -308 then
    if x == 0.0 then some x else scaled (x / power 308) (exponent + 308)
  else if exponent < 0 then some (x / power exponent.natAbs)
  else if exponent ≤ 308 then
    let y := x * power exponent.natAbs
    if y.isInf then none else some y
  else if x == 0.0 then some x
  else none
termination_by exponent.natAbs
decreasing_by omega

/-- The significand kept of a numeral and the power of ten that goes with it, before the exponent counts. -/
def significand (n : Numeral) : Nat × Int :=
  let (s, dropped) := fill 0 n.whole
  match n.fraction with
  | none => (s, dropped.length)
  | some ds =>
    let (s, left) := fill s ds
    (s, (dropped.length : Int) - ((ds.length - left.length : Nat) : Int))

/-- The greatest exponent that is computed with. -/
def greatestExponent : Nat := 2147483647

/-- The size of a numeral read as a floating-point number, its sign left out. -/
def magnitude? (n : Numeral) : Option Float :=
  let (s, power) := n.significand
  let start := (UInt64.ofNat s).toFloat
  match n.exponent with
  | none => scaled start power
  | some (negative, ds) =>
    let e := Nat.ofDigitChars 10 ds 0
    if greatestExponent < e then
      if s ≠ 0 ∧ negative = false then none else some 0.0
    else if negative then scaled start (power - e)
    else scaled start (power + e)

/-- The number a numeral denotes, if it is in range. An integer without a sign fits below two to the 64th, a
negative one down to minus two to the 63rd; minus zero is no integer. -/
def value? (n : Numeral) : Option Number :=
  let size := Nat.ofDigitChars 10 n.whole 0
  let plain := n.fraction.isNone && n.exponent.isNone
  if plain && !n.negative && decide (size < unsignedBound) then some (.integer size)
  else if plain && n.negative && decide (0 < size ∧ size ≤ signedBound) then some (.integer (-size))
  else n.magnitude?.map fun x => .floating (if n.negative then -x else x)

/-! ## Writing integers -/

/-- The numeral of an integer. -/
def ofInt (i : Int) : Numeral := ⟨decide (i < 0), Nat.toDigits 10 i.natAbs, none, none⟩

/-- The value of the numeral of a natural number that fits 64 bits. -/
theorem value?_ofInt_ofNat {n : Nat} (h : n < unsignedBound) : (ofInt n).value? = some (.integer n) := by
  have hd : Nat.ofDigitChars 10 (Nat.toDigits 10 n) 0 = n :=
    Nat.ofDigitChars_toDigits (by decide) (by decide)
  have hneg : decide ((n : Int) < 0) = false := decide_eq_false (by omega)
  have hfit : decide (n < unsignedBound) = true := decide_eq_true h
  simp only [value?, ofInt, Int.natAbs_natCast, hd, hneg, hfit, Option.isNone_none, Bool.and_self,
    Bool.not_false, if_true]

/-- The value of the numeral of a negative number that fits 64 bits. -/
theorem value?_ofInt_neg {n : Nat} (h0 : 0 < n) (h : n ≤ signedBound) :
    (ofInt (-n)).value? = some (.integer (-n)) := by
  have hd : Nat.ofDigitChars 10 (Nat.toDigits 10 n) 0 = n :=
    Nat.ofDigitChars_toDigits (by decide) (by decide)
  have hneg : decide (-(n : Int) < 0) = true := decide_eq_true (by omega)
  have hfit : decide (0 < n ∧ n ≤ signedBound) = true := decide_eq_true ⟨h0, h⟩
  simp only [value?, ofInt, Int.natAbs_neg, Int.natAbs_natCast, hd, hneg, hfit, Option.isNone_none,
    Bool.and_self, Bool.not_true, Bool.and_false, Bool.false_and, Bool.false_eq_true, if_false, if_true]

end Numeral

end ReplicaWatch.Json
