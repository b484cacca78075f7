import Mathlib.Data.List.TakeWhile
import Mathlib.Logic.Basic
import ReplicaWatch.Json.Token

/-!
# How tokens are spelled

The grammar of tokens, without reference to how they are read: `Numeral.Spells`, `Quoted.Spells` and `Token.Spells`
say which characters spell which numeral, which string and which token. Reading agrees with it in both directions:

- `Token.scan_append`: a spelled token is read whatever follows it, except that nothing may follow a numeral that
  could be part of it (`Token.Ends`);
- `Token.spells_of_scan`: whatever is read is spelled.
-/

namespace ReplicaWatch.Json

/-- A text does not go on with a character of a kind. -/
def StopsBefore (kind : Char → Bool) (cs : List Char) : Prop := ∀ c ∈ cs.head?, kind c = false

@[simp] theorem stopsBefore_nil (kind : Char → Bool) : StopsBefore kind [] := by simp [StopsBefore]

@[simp] theorem stopsBefore_cons {kind : Char → Bool} {c : Char} {cs : List Char} :
    StopsBefore kind (c :: cs) ↔ kind c = false := by simp [StopsBefore]

/-- What does not go on with some characters does not go on with fewer of them. -/
theorem StopsBefore.mono {kind kind' : Char → Bool} {cs : List Char} (h : StopsBefore kind cs)
    (hle : ∀ c, kind' c = true → kind c = true) : StopsBefore kind' cs := fun c hc =>
  Bool.eq_false_iff.mpr fun hk => Bool.eq_false_iff.mp (h c hc) (hle c hk)

/-- The first characters of a kind end where a text does not go on with them. -/
theorem StopsBefore.takeWhile_append {kind : Char → Bool} {cs rest : List Char} (h : StopsBefore kind rest)
    (hcs : ∀ c ∈ cs, kind c = true) : (cs ++ rest).takeWhile kind = cs := by
  rw [List.takeWhile_append_of_pos hcs]
  cases rest <;> simp_all

theorem StopsBefore.dropWhile_append {kind : Char → Bool} {cs rest : List Char} (h : StopsBefore kind rest)
    (hcs : ∀ c ∈ cs, kind c = true) : (cs ++ rest).dropWhile kind = rest := by
  rw [List.dropWhile_append_of_pos hcs]
  cases rest <;> simp_all

/-! ## Numerals -/

namespace Numeral

/-- At least one digit, and nothing else. -/
def IsDigits (ds : List Char) : Prop := ds ≠ [] ∧ ∀ c ∈ ds, c.isDigit = true

/-- The digits of a whole number: a zero alone, or no zero in front. -/
def IsWhole (ds : List Char) : Prop := IsDigits ds ∧ (ds = ['0'] ∨ ds.head? ≠ some '0')

/-- The marks in front of an exponent. -/
def IsMark (c : Char) : Prop := c = 'e' ∨ c = 'E'

inductive SignSpelling : Bool → List Char → Prop
  | none : SignSpelling false []
  | minus : SignSpelling true ['-']

inductive FractionSpelling : Option (List Char) → List Char → Prop
  | none : FractionSpelling none []
  | point {ds : List Char} : IsDigits ds → FractionSpelling (some ds) ('.' :: ds)

inductive ExponentSpelling : Option (Bool × List Char) → List Char → Prop
  | none : ExponentSpelling none []
  | bare {mark : Char} {ds : List Char} : IsMark mark → IsDigits ds →
      ExponentSpelling (some (false, ds)) (mark :: ds)
  | plus {mark : Char} {ds : List Char} : IsMark mark → IsDigits ds →
      ExponentSpelling (some (false, ds)) (mark :: '+' :: ds)
  | minus {mark : Char} {ds : List Char} : IsMark mark → IsDigits ds →
      ExponentSpelling (some (true, ds)) (mark :: '-' :: ds)

/-- **The characters that spell a numeral.** -/
inductive Spells : Numeral → List Char → Prop
  | parts {n : Numeral} {s f e : List Char} : SignSpelling n.negative s → IsWhole n.whole →
      FractionSpelling n.fraction f → ExponentSpelling n.exponent e → Spells n (s ++ (n.whole ++ (f ++ e)))

/-- The characters that a whole part could go on with. -/
def continuesWhole (c : Char) : Bool := c.isDigit || c == '.'

/-- The characters that a numeral could go on with. -/
def continues (c : Char) : Bool := continuesWhole c || c == 'e' || c == 'E'

theorem continuesWhole_of_isDigit (c : Char) (h : c.isDigit = true) : continuesWhole c = true := by
  simp [continuesWhole, h]

theorem continues_of_continuesWhole (c : Char) (h : continuesWhole c = true) : continues c = true := by
  simp [continues, h]

variable {cs ds f e rest : List Char}

/-! ### What is spelled is read -/

theorem digits_append (hd : IsDigits ds) (hr : StopsBefore Char.isDigit rest) :
    digits (ds ++ rest) = some (ds, rest) := by
  unfold digits
  rw [hr.takeWhile_append hd.2, hr.dropWhile_append hd.2]
  cases ds with
  | nil => exact absurd rfl hd.1
  | cons => rfl

theorem wholePart_append (hw : IsWhole ds) (hr : StopsBefore Char.isDigit rest) :
    wholePart (ds ++ rest) = some (ds, rest) := by
  unfold wholePart
  rw [digits_append hw.1 hr]
  match ds, hw.2 with
  | [], _ => rfl
  | [_], _ => rfl
  | d :: _ :: _, h => simpa using h

theorem fractionPart_append {fraction : Option (List Char)} (hf : FractionSpelling fraction f)
    (hr : StopsBefore continuesWhole rest) : fractionPart (f ++ rest) = some (fraction, rest) := by
  cases hf with
  | none => cases rest <;> simp_all [fractionPart, continuesWhole]
  | point hd => simp [fractionPart, digits_append hd (hr.mono continuesWhole_of_isDigit)]

theorem exponentPart_append {exponent : Option (Bool × List Char)} (he : ExponentSpelling exponent e)
    (hr : StopsBefore continues rest) : exponentPart (e ++ rest) = some (exponent, rest) := by
  have hr' : StopsBefore Char.isDigit rest :=
    (hr.mono continues_of_continuesWhole).mono continuesWhole_of_isDigit
  cases he with
  | none => cases rest <;> simp_all [exponentPart, continues]
  | bare hm hd =>
    obtain ⟨d, ds, rfl⟩ := List.exists_cons_of_ne_nil hd.1
    have hdigit : d.isDigit = true := hd.2 d List.mem_cons_self
    have hminus : d ≠ '-' := by rintro rfl; exact absurd hdigit (by decide)
    have hplus : d ≠ '+' := by rintro rfl; exact absurd hdigit (by decide)
    have := digits_append hd hr'
    rw [List.cons_append] at this
    simp [exponentPart, show _ = 'e' ∨ _ = 'E' from hm, hminus, hplus, this]
  | plus hm hd => simp [exponentPart, show _ = 'e' ∨ _ = 'E' from hm, digits_append hd hr']
  | minus hm hd => simp [exponentPart, show _ = 'e' ∨ _ = 'E' from hm, digits_append hd hr']

theorem sign_append {negative : Bool} {s : List Char} (hs : SignSpelling negative s) (hd : IsDigits ds) :
    sign (s ++ (ds ++ rest)) = (negative, ds ++ rest) := by
  cases hs with
  | minus => rfl
  | none =>
    obtain ⟨d, ds, rfl⟩ := List.exists_cons_of_ne_nil hd.1
    have hminus : d ≠ '-' := by rintro rfl; exact absurd (hd.2 _ List.mem_cons_self) (by decide)
    simp [sign, hminus]

/-- What an exponent is spelled with does not belong to the parts before it. -/
theorem ExponentSpelling.stopsBefore {exponent : Option (Bool × List Char)} (he : ExponentSpelling exponent e)
    (hr : StopsBefore continues rest) : StopsBefore continuesWhole (e ++ rest) := by
  cases he with
  | none => exact hr.mono continues_of_continuesWhole
  | bare hm | plus hm | minus hm => rcases hm with rfl | rfl <;> exact stopsBefore_cons.mpr (by decide)

theorem FractionSpelling.stopsBefore {fraction : Option (List Char)} (hf : FractionSpelling fraction f)
    (hr : StopsBefore continuesWhole rest) : StopsBefore Char.isDigit (f ++ rest) := by
  cases hf with
  | none => exact hr.mono continuesWhole_of_isDigit
  | point => exact stopsBefore_cons.mpr (by decide)

/-- A numeral begins with a minus sign or a digit. -/
theorem Spells.exists_cons {n : Numeral} (hn : Spells n cs) :
    ∃ c tail, cs = c :: tail ∧ (c = '-' ∨ c.isDigit = true) := by
  obtain ⟨hs, hw, -, -⟩ := hn
  generalize n.negative = negative at hs
  cases hs with
  | minus => exact ⟨_, _, rfl, Or.inl rfl⟩
  | none =>
    obtain ⟨d, ds, hd⟩ := List.exists_cons_of_ne_nil hw.1.1
    exact ⟨d, _, by rw [hd]; rfl, Or.inr (hw.1.2 d (hd ▸ List.mem_cons_self))⟩

/-- A spelled numeral is read if nothing follows it that could be part of it. -/
theorem scan_append {n : Numeral} (hn : Spells n cs) (hr : StopsBefore continues rest) :
    scan (cs ++ rest) = some (n, rest) := by
  obtain ⟨hs, hw, hf, he⟩ := hn
  have hrest := he.stopsBefore hr
  unfold scan
  simp only [List.append_assoc, sign_append hs hw.1, wholePart_append hw (hf.stopsBefore hrest),
    fractionPart_append hf hrest, exponentPart_append he hr]

/-! ### What is read is spelled -/

theorem isDigits_of_digits (h : digits cs = some (ds, rest)) : IsDigits ds ∧ cs = ds ++ rest := by
  unfold digits at h
  split at h
  · cases h
  · rename_i d ds' htake
    cases h
    rw [← htake]
    exact ⟨⟨by simp [htake], fun c hc => (List.mem_takeWhile_imp hc)⟩, List.takeWhile_append_dropWhile.symm⟩

theorem isWhole_of_wholePart (h : wholePart cs = some (ds, rest)) : IsWhole ds ∧ cs = ds ++ rest := by
  unfold wholePart at h
  split at h
  · rename_i hd
    split at h
    · cases h
    · rename_i h0
      cases h
      obtain ⟨hds, hcs⟩ := isDigits_of_digits hd
      exact ⟨⟨hds, Or.inr (by simpa using h0)⟩, hcs⟩
  · rename_i hshort
    obtain ⟨hds, hcs⟩ := isDigits_of_digits h
    refine ⟨⟨hds, ?_⟩, hcs⟩
    match ds, hds with
    | [d], _ =>
      by_cases h0 : d = '0'
      · exact Or.inl (by rw [h0])
      · exact Or.inr (by simpa using h0)
    | d :: e :: ds, _ => exact absurd h (hshort d e ds rest)

theorem spelling_of_sign (cs : List Char) : ∃ s, SignSpelling (sign cs).1 s ∧ cs = s ++ (sign cs).2 := by
  unfold sign
  split
  · split
    · subst_vars
      exact ⟨_, .minus, rfl⟩
    · exact ⟨_, .none, rfl⟩
  · exact ⟨_, .none, rfl⟩

/-- Digits that are read as a part of a numeral. -/
theorem exists_isDigits_of_map {α : Type} {a : α} (f : List Char → α)
    (h : ((digits cs).map fun p => (f p.1, p.2)) = some (a, rest)) :
    ∃ ds, IsDigits ds ∧ f ds = a ∧ cs = ds ++ rest := by
  obtain ⟨p, hp, hq⟩ := Option.map_eq_some_iff.1 h
  cases hq
  obtain ⟨hds, hcs⟩ := isDigits_of_digits hp
  exact ⟨p.1, hds, rfl, hcs⟩

theorem spelling_of_fractionPart {fraction : Option (List Char)} (h : fractionPart cs = some (fraction, rest)) :
    ∃ f, FractionSpelling fraction f ∧ cs = f ++ rest := by
  unfold fractionPart at h
  split at h
  · split at h
    · obtain ⟨ds, hds, rfl, rfl⟩ := exists_isDigits_of_map some h
      subst_vars
      exact ⟨_, .point hds, rfl⟩
    · cases h
      exact ⟨_, .none, rfl⟩
  · cases h
    exact ⟨_, .none, rfl⟩

theorem spelling_of_exponentPart {exponent : Option (Bool × List Char)}
    (h : exponentPart cs = some (exponent, rest)) : ∃ e, ExponentSpelling exponent e ∧ cs = e ++ rest := by
  unfold exponentPart at h
  split at h
  · split at h
    · rename_i hm
      split at h
      · split at h
        · obtain ⟨ds, hds, rfl, rfl⟩ := exists_isDigits_of_map (fun ds => some (true, ds)) h
          subst_vars
          exact ⟨_, .minus hm hds, rfl⟩
        · split at h
          · obtain ⟨ds, hds, rfl, rfl⟩ := exists_isDigits_of_map (fun ds => some (false, ds)) h
            subst_vars
            exact ⟨_, .plus hm hds, rfl⟩
          · obtain ⟨ds, hds, rfl, hcs⟩ := exists_isDigits_of_map (fun ds => some (false, ds)) h
            exact ⟨_, .bare hm hds, by rw [hcs]; rfl⟩
      · cases h
    · cases h
      exact ⟨_, .none, rfl⟩
  · cases h
    exact ⟨_, .none, rfl⟩

/-- What is read of a numeral spells it. -/
theorem spells_of_scan {n : Numeral} (h : scan cs = some (n, rest)) :
    ∃ lexeme, Spells n lexeme ∧ cs = lexeme ++ rest := by
  obtain ⟨s, hs, hcs⟩ := spelling_of_sign cs
  unfold scan at h
  split at h
  · cases h
  · rename_i hw
    split at h
    · cases h
    · rename_i hf
      split at h
      · cases h
      · rename_i he
        cases h
        obtain ⟨hwhole, h1⟩ := isWhole_of_wholePart hw
        obtain ⟨f, hfrac, h2⟩ := spelling_of_fractionPart hf
        obtain ⟨e, hexp, h3⟩ := spelling_of_exponentPart he
        exact ⟨_, .parts hs hwhole hfrac hexp, by rw [hcs, h1, h2, h3]; simp⟩

end Numeral

/-! ## Strings -/

namespace Quoted

/-- The number that hexadecimal digits spell behind digits of a given value. -/
def hexNumber? (value : Nat) : List Char → Option Nat
  | [] => some value
  | c :: cs => (hexValue? c).bind fun d => hexNumber? (value * 16 + d) cs

/-- The characters that spell one code: the character itself, or an escape of one letter or of four digits. -/
inductive CodeSpelling : Nat → List Char → Prop
  | plain {c : Char} : 32 ≤ c.toNat → c ≠ '"' → c ≠ '\\' → CodeSpelling c.toNat [c]
  | letter {c : Char} {n : Nat} : escaped? c = some n → CodeSpelling n ['\\', c]
  | numeric {hs : List Char} {n : Nat} : hs.length = 4 → hexNumber? 0 hs = some n →
      CodeSpelling n ('\\' :: 'u' :: hs)

/-- **The characters that spell a string**, given by its codes, between the quotation marks. -/
inductive Spells : List Nat → List Char → Prop
  | nil : Spells [] []
  | cons {n : Nat} {ns : List Nat} {cs ds : List Char} : CodeSpelling n cs → Spells ns ds →
      Spells (n :: ns) (cs ++ ds)

/-- The text that codes denote; half of a surrogate pair denotes none. -/
def denoted (ns : List Nat) : Option String := (assemble none ns).map String.ofList

variable {cs rest : List Char} {ns : List Nat} {n : Nat}

/-! ### What is spelled is read -/

theorem codes_digits {hs : List Char} {after value : Nat} (hlen : hs.length = after + 1)
    (hn : hexNumber? value hs = some n) (rest : List Char) :
    codes (.digits after value) (hs ++ rest) = (codes .plain rest).map fun p => (n :: p.1, p.2) := by
  induction hs generalizing after value with
  | nil => cases hlen
  | cons c hs ih =>
    obtain ⟨d, hd, htail⟩ := Option.bind_eq_some_iff.mp hn
    cases after with
    | zero =>
      obtain rfl : hs = [] := List.length_eq_zero_iff.mp (by simpa using hlen)
      cases htail
      simp [codes, hd]
    | succ after =>
      have := ih (by simpa using hlen) htail
      simp [codes, hd, this]

theorem codes_append_of_codeSpelling (h : CodeSpelling n cs) :
    codes .plain (cs ++ rest) = (codes .plain rest).map fun p => (n :: p.1, p.2) := by
  cases h with
  | plain hctl hquote hback => simp [codes, hquote, hback, Nat.not_lt.mpr hctl]
  | @letter c _ hc =>
    have hu : c ≠ 'u' := by rintro rfl; cases hc
    simp [codes, hu, hc]
  | numeric hlen hn =>
    have := codes_digits hlen hn rest
    simp [codes, this]

theorem codes_append (h : Spells ns cs) : codes .plain (cs ++ '"' :: rest) = some (ns, rest) := by
  induction h with
  | nil => simp [codes]
  | cons hcode _ ih => rw [List.append_assoc, codes_append_of_codeSpelling hcode, ih]; rfl

/-! ### What is read is spelled -/

theorem exists_digits_of_codes {after value : Nat} (h : codes (.digits after value) cs = some (ns, rest)) :
    ∃ hs n ns' tail, cs = hs ++ tail ∧ hs.length = after + 1 ∧ hexNumber? value hs = some n ∧ ns = n :: ns' ∧
      codes .plain tail = some (ns', rest) := by
  induction cs generalizing after value with
  | nil => simp [codes] at h
  | cons c cs ih =>
    unfold codes at h
    split at h
    · cases h
    · rename_i d hd
      obtain ⟨p, hp, hq⟩ := Option.map_eq_some_iff.1 h
      cases hq
      exact ⟨[c], _, p.1, cs, rfl, rfl, by simp [hexNumber?, hd], rfl, hp⟩
    · rename_i d after hd
      obtain ⟨hs, n, ns', tail, rfl, hlen, hn, rfl, htail⟩ := ih h
      exact ⟨c :: hs, n, ns', tail, rfl, by simp [hlen], by simp [hexNumber?, hd, hn], rfl, htail⟩

/-- What is read of a string ends here, or begins with the spelling of a code. -/
theorem exists_codeSpelling_of_codes (h : codes .plain cs = some (ns, rest)) :
    (cs = '"' :: rest ∧ ns = []) ∨
      ∃ lexeme n ns' tail, CodeSpelling n lexeme ∧ cs = lexeme ++ tail ∧ ns = n :: ns' ∧
        codes .plain tail = some (ns', rest) := by
  cases cs with
  | nil => simp [codes] at h
  | cons c cs =>
    unfold codes at h
    split at h
    · cases h
      subst_vars
      exact Or.inl ⟨rfl, rfl⟩
    rename_i hquote
    right
    split at h
    -- a backslash: four digits follow, or one letter
    · rename_i hback
      subst hback
      cases cs with
      | nil => simp [codes] at h
      | cons c cs =>
        unfold codes at h
        split at h
        · rename_i hu
          subst hu
          obtain ⟨hs, n, ns', tail, rfl, hlen, hn, rfl, htail⟩ := exists_digits_of_codes h
          exact ⟨_, n, ns', tail, .numeric hlen hn, rfl, rfl, htail⟩
        · split at h
          · cases h
          · rename_i n hn
            obtain ⟨p, hp, hq⟩ := Option.map_eq_some_iff.1 h
            cases hq
            exact ⟨_, n, p.1, cs, .letter hn, rfl, rfl, hp⟩
    · rename_i hback
      split at h
      · cases h
      · rename_i hctl
        obtain ⟨p, hp, hq⟩ := Option.map_eq_some_iff.1 h
        cases hq
        exact ⟨_, _, p.1, cs, .plain (Nat.not_lt.mp hctl) hquote hback, rfl, rfl, hp⟩

theorem spells_of_codes (h : codes .plain cs = some (ns, rest)) :
    ∃ lexeme, Spells ns lexeme ∧ cs = lexeme ++ '"' :: rest := by
  induction ns generalizing cs with
  | nil =>
    rcases exists_codeSpelling_of_codes h with ⟨rfl, -⟩ | ⟨_, _, _, _, _, _, hns, _⟩
    · exact ⟨[], .nil, rfl⟩
    · cases hns
  | cons n ns ih =>
    rcases exists_codeSpelling_of_codes h with ⟨_, hns⟩ | ⟨lexeme, _, _, tail, hcode, rfl, hns, htail⟩
    · cases hns
    · cases hns
      obtain ⟨more, hmore, rfl⟩ := ih htail
      exact ⟨lexeme ++ more, .cons hcode hmore, by simp⟩

end Quoted

/-! ## Tokens -/

namespace Token

/-- **The characters that spell a token.** -/
inductive Spells : Token → List Char → Prop
  | openBracket : Spells .openBracket ['[']
  | closeBracket : Spells .closeBracket [']']
  | openBrace : Spells .openBrace ['{']
  | closeBrace : Spells .closeBrace ['}']
  | comma : Spells .comma [',']
  | colon : Spells .colon [':']
  | null : Spells (.scalar .null) ['n', 'u', 'l', 'l']
  | yes : Spells (.scalar (.boolean true)) ['t', 'r', 'u', 'e']
  | no : Spells (.scalar (.boolean false)) ['f', 'a', 'l', 's', 'e']
  | number {n : Numeral} {cs : List Char} : n.Spells cs → Spells (.scalar (.number n)) cs
  | string {ns : List Nat} {cs : List Char} : Quoted.Spells ns cs →
      Spells (.scalar (.string (Quoted.denoted ns))) ('"' :: (cs ++ ['"']))

/-- Whether a token is a value by itself. -/
def isScalar : Token → Bool
  | scalar _ => true
  | _ => false

/-- What may follow a token in a text: anything but a numeral's further characters after a scalar. -/
def Ends (t : Token) (rest : List Char) : Prop := t.isScalar = true → StopsBefore Numeral.continues rest

variable {t : Token} {cs rest : List Char}

theorem eq_append_of_afterWord {letters : List Char} (h : afterWord letters cs = some rest) :
    cs = letters ++ rest := by
  induction letters generalizing cs with
  | nil =>
    cases h
    rfl
  | cons w letters ih =>
    cases cs with
    | nil => cases h
    | cons c cs =>
      unfold afterWord at h
      split at h
      · rename_i hw
        rw [hw, ih h]
        rfl
      · cases h

/-- What begins like a numeral is read as one. -/
theorem scan_of_numeral {c : Char} (hc : c = '-' ∨ c.isDigit = true) :
    scan (c :: rest) = (Numeral.scan (c :: rest)).map fun p => (.scalar (.number p.1), p.2) := by
  have other {d : Char} (hd : d ≠ '-' ∧ d.isDigit = false) : c ≠ d := by
    rintro rfl
    rcases hc with h | h
    · exact hd.1 h
    · rw [hd.2] at h
      cases h
  rw [scan, if_neg (other (by decide)), if_neg (other (by decide)), if_neg (other (by decide)),
    if_neg (other (by decide)), if_neg (other (by decide)), if_neg (other (by decide)),
    if_neg (other (by decide)), if_neg (other (by decide)), if_neg (other (by decide)), if_neg (other (by decide))]

/-- **A spelled token is read**, whatever may follow it. -/
theorem scan_append (h : Spells t cs) (hr : Ends t rest) : scan (cs ++ rest) = some (t, rest) := by
  cases h with
  | openBracket | closeBracket | openBrace | closeBrace | comma | colon => rfl
  | null | yes | no => simp [scan, word, afterWord]
  | string hs => simp [scan, Quoted.scan, Quoted.codes_append hs, Quoted.denoted]
  | number hn =>
    obtain ⟨c, tail, hcs, hc⟩ := hn.exists_cons
    have := Numeral.scan_append hn (hr rfl)
    rw [hcs, List.cons_append] at this ⊢
    rw [scan_of_numeral hc, this]
    rfl

/-- **What is read of a token spells it.** -/
theorem spells_of_scan (h : scan cs = some (t, rest)) : ∃ lexeme, Spells t lexeme ∧ cs = lexeme ++ rest := by
  cases cs with
  | nil => cases h
  | cons c cs =>
    have letters {first : Char} {ws : List Char} {v : Scalar} (hs : Spells (.scalar v) (first :: ws)) (hc : c = first)
        (h : word cs ws v = some (t, rest)) : ∃ lexeme, Spells t lexeme ∧ c :: cs = lexeme ++ rest := by
      obtain ⟨after, ha, hq⟩ := Option.map_eq_some_iff.1 h
      cases hq
      exact ⟨_, hs, by rw [hc, eq_append_of_afterWord ha]; rfl⟩
    rw [scan] at h
    rcases ite_eq_iff.mp h with ⟨rfl, h⟩ | ⟨-, h⟩
    · cases h
      exact ⟨_, .openBracket, rfl⟩
    rcases ite_eq_iff.mp h with ⟨rfl, h⟩ | ⟨-, h⟩
    · cases h
      exact ⟨_, .closeBracket, rfl⟩
    rcases ite_eq_iff.mp h with ⟨rfl, h⟩ | ⟨-, h⟩
    · cases h
      exact ⟨_, .openBrace, rfl⟩
    rcases ite_eq_iff.mp h with ⟨rfl, h⟩ | ⟨-, h⟩
    · cases h
      exact ⟨_, .closeBrace, rfl⟩
    rcases ite_eq_iff.mp h with ⟨rfl, h⟩ | ⟨-, h⟩
    · cases h
      exact ⟨_, .comma, rfl⟩
    rcases ite_eq_iff.mp h with ⟨rfl, h⟩ | ⟨-, h⟩
    · cases h
      exact ⟨_, .colon, rfl⟩
    rcases ite_eq_iff.mp h with ⟨rfl, h⟩ | ⟨-, h⟩
    · obtain ⟨p, hp, hq⟩ := Option.map_eq_some_iff.1 h
      obtain ⟨codes, hcodes, hden⟩ := Option.map_eq_some_iff.1 hp
      cases hq
      cases hden
      obtain ⟨lexeme, hs, rfl⟩ := Quoted.spells_of_codes hcodes
      exact ⟨_, .string hs, by simp⟩
    rcases ite_eq_iff.mp h with ⟨hc, h⟩ | ⟨-, h⟩
    · exact letters .null hc h
    rcases ite_eq_iff.mp h with ⟨hc, h⟩ | ⟨-, h⟩
    · exact letters .yes hc h
    rcases ite_eq_iff.mp h with ⟨hc, h⟩ | ⟨-, h⟩
    · exact letters .no hc h
    · obtain ⟨p, hp, hq⟩ := Option.map_eq_some_iff.1 h
      cases hq
      obtain ⟨lexeme, hn, hcs⟩ := Numeral.spells_of_scan hp
      exact ⟨lexeme, .number hn, hcs⟩

end Token

end ReplicaWatch.Json
