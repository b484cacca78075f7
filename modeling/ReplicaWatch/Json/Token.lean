import ReplicaWatch.Json.Tree

/-!
# Tokens

- `Token.scan` reads the token at the start of a text; it is none if no token starts there or the token is
  faulty (`Token.scan_shorter`: it uses up characters);
- `isBlank`, `skipBlanks`: the four characters that may stand between tokens.
-/

namespace ReplicaWatch.Json

/-- The characters that may stand between tokens. -/
def isBlank (c : Char) : Bool := c = ' ' || c = '\n' || c = '\t' || c = '\r'

/-- A text without the blanks in front. -/
def skipBlanks (cs : List Char) : List Char := cs.dropWhile isBlank

theorem skipBlanks_le (cs : List Char) : (skipBlanks cs).length ≤ cs.length := by
  have := congrArg List.length (List.takeWhile_append_dropWhile (p := isBlank) (l := cs))
  rw [List.length_append] at this
  unfold skipBlanks
  omega

inductive Token
  | openBracket
  | closeBracket
  | openBrace
  | closeBrace
  | comma
  | colon
  | scalar (value : Scalar)
deriving DecidableEq

namespace Token

/-- The rest of a text after a word at its start. -/
def afterWord : List Char → List Char → Option (List Char)
  | [], cs => some cs
  | _ :: _, [] => none
  | w :: ws, c :: cs => if w = c then afterWord ws cs else none

theorem afterWord_le {word cs rest : List Char} (h : afterWord word cs = some rest) :
    rest.length ≤ cs.length := by
  induction word generalizing cs with
  | nil =>
    cases h
    exact Nat.le_refl _
  | cons w ws ih =>
    cases cs with
    | nil => simp [afterWord] at h
    | cons c cs =>
      unfold afterWord at h
      split at h
      · exact Nat.le_succ_of_le (ih h)
      · simp at h

/-- Reads a word whose first letter has been read. -/
def word (rest : List Char) (letters : List Char) (value : Scalar) : Option (Token × List Char) :=
  (afterWord letters rest).map fun after => (.scalar value, after)

/-- The token at the start of a text, and the rest. -/
def scan : List Char → Option (Token × List Char)
  | [] => none
  | c :: rest =>
    if c = '[' then some (.openBracket, rest)
    else if c = ']' then some (.closeBracket, rest)
    else if c = '{' then some (.openBrace, rest)
    else if c = '}' then some (.closeBrace, rest)
    else if c = ',' then some (.comma, rest)
    else if c = ':' then some (.colon, rest)
    else if c = '"' then (Quoted.scan rest).map fun p => (.scalar (.string p.1), p.2)
    else if c = 'n' then word rest ['u', 'l', 'l'] .null
    else if c = 't' then word rest ['r', 'u', 'e'] (.boolean true)
    else if c = 'f' then word rest ['a', 'l', 's', 'e'] (.boolean false)
    else (Numeral.scan (c :: rest)).map fun p => (.scalar (.number p.1), p.2)

/-- Reading a token uses up at least one character. -/
theorem scan_shorter {cs rest : List Char} {t : Token} (h : scan cs = some (t, rest)) :
    rest.length < cs.length := by
  cases cs with
  | nil => simp [scan] at h
  | cons c cs =>
    have single {u : Token} (h : some (u, cs) = some (t, rest)) : rest.length < (c :: cs).length := by
      cases h
      simp
    have letters {ws : List Char} {v : Scalar} (h : word cs ws v = some (t, rest)) :
        rest.length < (c :: cs).length := by
      obtain ⟨r, hr, hq⟩ := Option.map_eq_some_iff.1 h
      cases hq
      exact Nat.lt_succ_of_le (afterWord_le hr)
    -- one letter after the other: splitting the whole chain at once is slow
    have peel {p : Prop} [Decidable p] {x y : Option (Token × List Char)}
        (h : (if p then x else y) = some (t, rest)) : x = some (t, rest) ∨ y = some (t, rest) := by
      by_cases hp : p
      · exact Or.inl ((if_pos hp).symm.trans h)
      · exact Or.inr ((if_neg hp).symm.trans h)
    rw [scan] at h
    rcases peel h with h | h
    · exact single h
    rcases peel h with h | h
    · exact single h
    rcases peel h with h | h
    · exact single h
    rcases peel h with h | h
    · exact single h
    rcases peel h with h | h
    · exact single h
    rcases peel h with h | h
    · exact single h
    rcases peel h with h | h
    · obtain ⟨p, hp, hq⟩ := Option.map_eq_some_iff.1 h
      cases hq
      exact Nat.lt_succ_of_lt (Quoted.scan_shorter hp)
    rcases peel h with h | h
    · exact letters h
    rcases peel h with h | h
    · exact letters h
    rcases peel h with h | h
    · exact letters h
    · obtain ⟨p, hp, hq⟩ := Option.map_eq_some_iff.1 h
      cases hq
      exact Numeral.scan_shorter hp

end Token

end ReplicaWatch.Json
