/-!
# Quoted text

- `quoted` writes a text between quotation marks; `escapeChar` is the whole rule of what is escaped: quotation
  mark, backslash and the controls below U+0020, everything else stands for itself;
- `scan` reads the characters after an opening quotation mark up to the closing one. It accepts every escape of
  the format; the result is `none` inside when a surrogate escape stands alone, for such a string denotes no
  text;
- `scan_quoted`: what is written reads back; `scan_shorter`: reading uses up characters.
-/

namespace ReplicaWatch.Json.Quoted

/-! ## Hexadecimal digits -/

/-- The lower-case digit of a number below sixteen. -/
def hexDigit (n : Nat) : Char := if n < 10 then Char.ofNat (48 + n) else Char.ofNat (87 + n)

/-- The value of a digit of either case. -/
def hexValue? (c : Char) : Option Nat :=
  if 48 ≤ c.toNat ∧ c.toNat ≤ 57 then some (c.toNat - 48)
  else if 97 ≤ c.toNat ∧ c.toNat ≤ 102 then some (c.toNat - 87)
  else if 65 ≤ c.toNat ∧ c.toNat ≤ 70 then some (c.toNat - 55)
  else none

/-- A digit has the value it was made from. -/
theorem hexValue?_hexDigit : ∀ n, n < 16 → hexValue? (hexDigit n) = some n := by decide

/-! ## Writing -/

/-- A character as it is written between quotation marks. -/
def escapeChar (c : Char) : List Char :=
  if c = '"' then ['\\', '"']
  else if c = '\\' then ['\\', '\\']
  else if c = '\n' then ['\\', 'n']
  else if c = '\r' then ['\\', 'r']
  else if c = '\t' then ['\\', 't']
  else if c = '\x08' then ['\\', 'b']
  else if c = '\x0c' then ['\\', 'f']
  else if c.toNat < 32 then ['\\', 'u', '0', '0', hexDigit (c.toNat / 16), hexDigit (c.toNat % 16)]
  else [c]

/-- The characters of a text as they are written between quotation marks. -/
def escape (cs : List Char) : List Char := cs.flatMap escapeChar

/-- A text between quotation marks. -/
def quoted (s : String) : List Char := '"' :: (escape s.toList ++ ['"'])

/-! ## Reading -/

/-- The code that a one-letter escape stands for. -/
def escaped? (c : Char) : Option Nat :=
  if c = '"' then some 34
  else if c = '\\' then some 92
  else if c = '/' then some 47
  else if c = 'b' then some 8
  else if c = 'f' then some 12
  else if c = 'n' then some 10
  else if c = 'r' then some 13
  else if c = 't' then some 9
  else none

/-- Where a reader stands inside a string. -/
inductive Position
  /-- Between characters. -/
  | plain
  /-- After a backslash. -/
  | escape
  /-- Inside a numeric escape: how many digits come after the next one, and the value so far. -/
  | digits (after : Nat) (value : Nat)

/-- The codes of the characters and escapes up to the closing quotation mark, and what follows it. -/
def codes : Position → List Char → Option (List Nat × List Char)
  | _, [] => none
  | .plain, c :: rest =>
    if c = '"' then some ([], rest)
    else if c = '\\' then codes .escape rest
    else if c.toNat < 32 then none
    else (codes .plain rest).map fun p => (c.toNat :: p.1, p.2)
  | .escape, c :: rest =>
    if c = 'u' then codes (.digits 3 0) rest
    else
      match escaped? c with
      | none => none
      | some n => (codes .plain rest).map fun p => (n :: p.1, p.2)
  | .digits after value, c :: rest =>
    match hexValue? c, after with
    | none, _ => none
    | some d, 0 => (codes .plain rest).map fun p => ((value * 16 + d) :: p.1, p.2)
    | some d, after + 1 => codes (.digits after (value * 16 + d)) rest

/-- The first half of a surrogate pair. -/
def isHigh (n : Nat) : Bool := 0xD800 ≤ n && n ≤ 0xDBFF

/-- The second half of a surrogate pair. -/
def isLow (n : Nat) : Bool := 0xDC00 ≤ n && n ≤ 0xDFFF

/-- The characters of a sequence of codes, of which the first half of a pair may have been read already. Halves
count only as a pair; a lone half denotes nothing. -/
def assemble : Option Nat → List Nat → Option (List Char)
  | none, [] => some []
  | some _, [] => none
  | none, n :: rest =>
    if isHigh n then assemble (some n) rest
    else if isLow n then none
    else (assemble none rest).map (Char.ofNat n :: ·)
  | some high, n :: rest =>
    if isLow n then
      (assemble none rest).map (Char.ofNat (0x10000 + (high - 0xD800) * 0x400 + (n - 0xDC00)) :: ·)
    else none

/-- Reads a string whose opening quotation mark has been read: the text it denotes, if it denotes one, and the
rest. -/
def scan (cs : List Char) : Option (Option String × List Char) :=
  (codes .plain cs).map fun p => ((assemble none p.1).map String.ofList, p.2)

/-! ## What is written reads back -/

theorem codes_escapeChar (c : Char) (rest : List Char) :
    codes .plain (escapeChar c ++ rest) = (codes .plain rest).map fun p => (c.toNat :: p.1, p.2) := by
  unfold escapeChar
  split
  · subst_vars; simp [codes, escaped?]
  split
  · subst_vars; simp [codes, escaped?]
  split
  · subst_vars; simp [codes, escaped?]
  split
  · subst_vars; simp [codes, escaped?]
  split
  · subst_vars; simp [codes, escaped?]
  split
  · subst_vars; simp [codes, escaped?]
  split
  · subst_vars; simp [codes, escaped?]
  split
  · rename_i h
    have h1 := hexValue?_hexDigit (c.toNat / 16) (by omega)
    have h2 := hexValue?_hexDigit (c.toNat % 16) (by omega)
    have h0 : hexValue? '0' = some 0 := by decide
    have hc : c.toNat / 16 * 16 + c.toNat % 16 = c.toNat := by omega
    simp [codes, h0, h1, h2, hc]
  · rename_i hq hb _ _ _ _ _ hctl
    simp [codes, hq, hb, hctl]

/-- Reading a written text gives the codes of its characters. -/
theorem codes_escape (cs rest : List Char) :
    codes .plain (escape cs ++ '"' :: rest) = some (cs.map Char.toNat, rest) := by
  induction cs with
  | nil => simp [escape, codes]
  | cons c cs ih =>
    have : escape (c :: cs) ++ '"' :: rest = escapeChar c ++ (escape cs ++ '"' :: rest) := by
      simp [escape]
    rw [this, codes_escapeChar, ih]
    rfl

/-- No character is half of a pair. -/
theorem not_half (c : Char) : isHigh c.toNat = false ∧ isLow c.toNat = false := by
  have h : c.toNat < 0xD800 ∨ 0xDFFF < c.toNat ∧ c.toNat < 0x110000 := c.valid
  constructor
  · unfold isHigh
    simp only [Bool.and_eq_false_iff, decide_eq_false_iff_not]
    omega
  · unfold isLow
    simp only [Bool.and_eq_false_iff, decide_eq_false_iff_not]
    omega

/-- The codes of characters assemble to them. -/
theorem assemble_codes (cs : List Char) : assemble none (cs.map Char.toNat) = some cs := by
  induction cs with
  | nil => rfl
  | cons c cs ih =>
    have hc : Char.ofNat c.toNat = c := Char.ofNat_toNat c
    simp [assemble, not_half c, ih, hc]

/-- What is written between quotation marks reads back, whatever follows. -/
theorem scan_quoted (s : String) (rest : List Char) :
    scan (escape s.toList ++ '"' :: rest) = some (some s, rest) := by
  simp [scan, codes_escape, assemble_codes]

/-- Reading uses up at least the closing quotation mark. -/
theorem codes_shorter {p : Position} {cs rest : List Char} {ns : List Nat}
    (h : codes p cs = some (ns, rest)) : rest.length < cs.length := by
  induction cs generalizing p ns rest with
  | nil => simp [codes] at h
  | cons c cs ih =>
    have step {q : Position} {f : List Nat → List Nat}
        (h : ((codes q cs).map fun p => (f p.1, p.2)) = some (ns, rest)) :
        rest.length < (c :: cs).length := by
      obtain ⟨r, hr, hq⟩ := Option.map_eq_some_iff.1 h
      cases hq
      exact Nat.lt_succ_of_lt (ih hr)
    cases p with
    | plain =>
      unfold codes at h
      split at h
      · simp_all
      · split at h
        · exact Nat.lt_succ_of_lt (ih h)
        · split at h
          · simp at h
          · exact step h
    | escape =>
      unfold codes at h
      split at h
      · exact Nat.lt_succ_of_lt (ih h)
      · split at h
        · simp at h
        · exact step h
    | digits after value =>
      unfold codes at h
      split at h
      · simp at h
      · exact step h
      · exact Nat.lt_succ_of_lt (ih h)

/-- Reading a string leaves fewer characters. -/
theorem scan_shorter {cs rest : List Char} {t : Option String} (h : scan cs = some (t, rest)) :
    rest.length < cs.length := by
  obtain ⟨p, hp, hq⟩ := Option.map_eq_some_iff.1 h
  cases hq
  exact codes_shorter hp

end ReplicaWatch.Json.Quoted
