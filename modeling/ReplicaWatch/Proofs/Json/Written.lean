import ReplicaWatch.Json.Value
import ReplicaWatch.Proofs.Json.Grammar

/-!
# What is written can be read

The compact text of a value spells its tree (`Value.spells_write`), so reading it gives the tree back
(`readText_write`). `Value.depth` is how deep arrays and objects nest in a value.
-/

namespace ReplicaWatch.Json

/-! ## Decimals -/

namespace Numeral

/-- The digits of a whole number divided by ten to the number of places: those before the point, and those behind
it. -/
def decimalDigits (n : Nat) (places : Nat) : List Char × List Char :=
  let ds := Nat.toDigits 10 n
  let ds := List.replicate (places + 1 - ds.length) '0' ++ ds
  ds.splitAt (ds.length - places)

/-- The numeral of a decimal. -/
def ofDecimal (digits : Int) (places : Nat) : Numeral :=
  if places = 0 then ofInt digits
  else
    let (whole, fraction) := decimalDigits digits.natAbs places
    ⟨decide (digits < 0), whole, some fraction, none⟩

theorem head?_toDigits {n : Nat} (h : n ≠ 0) : (Nat.toDigits 10 n).head? ≠ some '0' := by
  induction n using Nat.strongRecOn with
  | ind n ih =>
    by_cases hn : n < 10
    · rw [Nat.toDigits_of_lt_base hn]
      have : ∀ d < 10, d ≠ 0 → some d.digitChar ≠ some '0' := by decide
      exact this n hn h
    · rw [Nat.toDigits_of_base_le (by decide) (by omega), List.head?_append_of_ne_nil _ Nat.toDigits_ne_nil]
      exact ih (n / 10) (by omega) (by omega)

theorem isDigits_toDigits (n : Nat) : IsDigits (Nat.toDigits 10 n) :=
  ⟨Nat.toDigits_ne_nil, fun _ hc => Nat.isDigit_of_mem_toDigits (by decide) (by decide) hc⟩

theorem isWhole_toDigits (n : Nat) : IsWhole (Nat.toDigits 10 n) := by
  refine ⟨isDigits_toDigits n, ?_⟩
  by_cases hn : n = 0
  · exact Or.inl (by rw [hn]; rfl)
  · exact Or.inr (head?_toDigits hn)

theorem signSpelling (digits : Int) :
    SignSpelling (decide (digits < 0)) (if digits < 0 then ['-'] else []) := by
  split
  · rename_i h
    rw [decide_eq_true h]
    exact .minus
  · rename_i h
    rw [decide_eq_false h]
    exact .none

/-- A decimal has at least one digit on either side of the point, and none in front that says nothing. -/
theorem decimalDigits_spec (n : Nat) {places : Nat} (h : places ≠ 0) :
    IsWhole (decimalDigits n places).1 ∧ IsDigits (decimalDigits n places).2 := by
  have hdigits : ∀ c ∈ List.replicate (places + 1 - (Nat.toDigits 10 n).length) '0' ++ Nat.toDigits 10 n,
      c.isDigit = true := by
    intro c hc
    rcases List.mem_append.mp hc with hc | hc
    · rw [List.eq_of_mem_replicate hc]
      decide
    · exact (isDigits_toDigits n).2 c hc
  unfold decimalDigits
  simp only [List.splitAt_eq]
  generalize hds : List.replicate (places + 1 - (Nat.toDigits 10 n).length) '0' ++ Nat.toDigits 10 n = ds at *
  have hlen : places < ds.length := by
    rw [← hds, List.length_append, List.length_replicate]
    omega
  refine ⟨⟨⟨?_, fun c hc => hdigits c (List.mem_of_mem_take hc)⟩, ?_⟩, ?_,
    fun c hc => hdigits c (List.mem_of_mem_drop hc)⟩
  · exact List.ne_nil_of_length_pos (by rw [List.length_take]; omega)
  · by_cases hlong : places < (Nat.toDigits 10 n).length
    · right
      rw [show places + 1 - (Nat.toDigits 10 n).length = 0 by omega] at hds
      rw [List.head?_take, if_neg (by omega), ← hds]
      refine head?_toDigits ?_
      rintro rfl
      rw [Nat.toDigits_zero] at hlong
      simp only [List.length_singleton] at hlong
      omega
    · left
      have hzero : ds.length - places = 1 := by
        rw [← hds, List.length_append, List.length_replicate]
        omega
      rw [hzero, ← hds, show places + 1 - (Nat.toDigits 10 n).length = places - (Nat.toDigits 10 n).length + 1 by omega,
        List.replicate_succ]
      rfl
  · exact List.ne_nil_of_length_pos (by rw [List.length_drop]; omega)

theorem spells_writeNumber (digits : Int) (places : Nat) :
    (ofDecimal digits places).Spells (Value.writeNumber digits places) := by
  unfold ofDecimal Value.writeNumber
  by_cases h : places = 0
  · simp only [if_pos h]
    simpa [ofInt] using Spells.parts (n := ofInt digits) (signSpelling digits) (isWhole_toDigits _) .none .none
  · simp only [if_neg h]
    obtain ⟨hwhole, hfraction⟩ := decimalDigits_spec digits.natAbs h
    have := Spells.parts (n := ⟨decide (digits < 0), _, some _, none⟩) (signSpelling digits) hwhole
      (.point hfraction) .none
    simpa [decimalDigits, List.splitAt_eq] using this

/-- The numeral of an integer denotes it, if it fits 64 bits. -/
theorem value?_ofDecimal {i : Int} (hl : -(signedBound : Int) ≤ i) (hg : i < unsignedBound) :
    (ofDecimal i 0).value? = some (.integer i) := by
  cases i with
  | ofNat n => exact value?_ofInt_ofNat (Int.ofNat_lt.mp hg)
  | negSucc n =>
    have hn : n + 1 ≤ signedBound := by
      rw [Int.negSucc_eq] at hl
      omega
    exact value?_ofInt_neg (Nat.succ_pos n) hn

end Numeral

/-! ## The tree of a value -/

namespace Value

mutual

/-- What can be read of the text of a value. -/
def tree : Value → Tree
  | .null => .scalar .null
  | .boolean b => .scalar (.boolean b)
  | .number digits places => .scalar (.number (Numeral.ofDecimal digits places))
  | .string text => .scalar (.string (some text))
  | .array items => .array (itemTrees items) true
  | .object members => .object (memberTrees members) true

def itemTrees : List Value → List Tree
  | [] => []
  | v :: rest => v.tree :: itemTrees rest

def memberTrees : List (String × Value) → List (Option String × Tree)
  | [] => []
  | (name, v) :: rest => (some name, v.tree) :: memberTrees rest

end

mutual

/-- How deep arrays and objects nest in a value. -/
def depth : Value → Nat
  | .array items => itemsDepth items + 1
  | .object members => membersDepth members + 1
  | _ => 0

def itemsDepth : List Value → Nat
  | [] => 0
  | v :: rest => max v.depth (itemsDepth rest)

def membersDepth : List (String × Value) → Nat
  | [] => 0
  | (_, v) :: rest => max v.depth (membersDepth rest)

end

/-- What holds of every scalar, and of arrays and objects if it holds of their parts, holds of every value. -/
@[elab_as_elim]
theorem induct {P : Value → Prop} (null : P .null) (boolean : ∀ b, P (.boolean b))
    (number : ∀ digits places, P (.number digits places)) (string : ∀ text, P (.string text))
    (array : ∀ items, (∀ v ∈ items, P v) → P (.array items))
    (object : ∀ members, (∀ m ∈ members, P m.2) → P (.object members)) (v : Value) : P v := by
  match v with
  | .null => exact null
  | .boolean b => exact boolean b
  | .number digits places => exact number digits places
  | .string text => exact string text
  | .array items => exact array items fun w _ => induct null boolean number string array object w
  | .object members => exact object members fun m _ => induct null boolean number string array object m.2
termination_by sizeOf v
decreasing_by
  · have := List.sizeOf_lt_of_mem ‹w ∈ items›
    simp only [Value.array.sizeOf_spec]
    omega
  · have := List.sizeOf_lt_of_mem ‹m ∈ members›
    obtain ⟨name, w⟩ := m
    simp only [Value.object.sizeOf_spec, Prod.mk.sizeOf_spec] at *
    omega

end Value

/-! ## The text of a value -/

/-- Spellings of tokens may be put behind one another. -/
theorem Spelled.append {ts us : List Token} {cs ds : List Char} (h : Spelled ts cs) (h' : Spelled us ds) :
    Spelled (ts ++ us) (cs ++ ds) := by
  induction h with
  | token hb ht _ ih =>
    simpa using Spelled.token hb ht ih
  | @blanks bs hb =>
    cases h' with
    | blanks hb' => exact .blanks fun b h => (List.mem_append.mp h).elim (hb b) (hb' b)
    | token hb' ht hts =>
      rw [← List.append_assoc]
      exact .token (fun b h => (List.mem_append.mp h).elim (hb b) (hb' b)) ht hts

/-- A token in front of others, without blanks. -/
theorem Spelled.cons {t : Token} {ts : List Token} {lexeme cs : List Char} (ht : t.Spells lexeme)
    (h : Spelled ts cs) : Spelled (t :: ts) (lexeme ++ cs) :=
  show Spelled (t :: ts) ([] ++ (lexeme ++ cs)) from .token (by simp) ht h

theorem spelled_nil : Spelled [] [] := .blanks (by simp)

/-- A text between quotation marks spells it. -/
theorem spells_quoted (text : String) : (Token.scalar (.string (some text))).Spells (Quoted.quoted text) := by
  have hscan : Token.scan (Quoted.quoted text) = some (.scalar (.string (some text)), []) := by
    simp [Quoted.quoted, Token.scan, Quoted.scan_quoted]
  obtain ⟨lexeme, hs, hcs⟩ := Token.spells_of_scan hscan
  rwa [hcs, List.append_nil]

namespace Value

theorem spelled_itemChars (items : List Value) (h : ∀ v ∈ items, Spelled v.tree.tokens v.chars) :
    Spelled (itemTokens (itemTrees items)) (itemChars items) := by
  match items with
  | [] => exact .cons .closeBracket spelled_nil
  | [v] => exact (h v (by simp)).append (.cons .closeBracket spelled_nil)
  | v :: w :: rest =>
    exact (h v (by simp)).append
      (.cons .comma (spelled_itemChars (w :: rest) fun v hv => h v (List.mem_cons_of_mem _ hv)))

theorem spelled_memberChars (members : List (String × Value))
    (h : ∀ m ∈ members, Spelled m.2.tree.tokens m.2.chars) :
    Spelled (memberTokens (memberTrees members)) (memberChars members) := by
  match members with
  | [] => exact .cons .closeBrace spelled_nil
  | [(name, v)] =>
    exact .cons (spells_quoted name) (.cons .colon ((h (name, v) (by simp)).append (.cons .closeBrace spelled_nil)))
  | (name, v) :: m :: rest =>
    exact .cons (spells_quoted name) (.cons .colon ((h (name, v) (by simp)).append
      (.cons .comma (spelled_memberChars (m :: rest) fun m hm => h m (List.mem_cons_of_mem _ hm)))))

theorem spelled_chars (v : Value) : Spelled v.tree.tokens v.chars := by
  have single {t : Token} {cs : List Char} (h : t.Spells cs) : Spelled [t] cs := by
    simpa using Spelled.cons h spelled_nil
  induction v using induct with
  | null => exact single .null
  | boolean b => cases b <;> exact single (by constructor)
  | number digits places => exact single (.number (Numeral.spells_writeNumber digits places))
  | string text => exact single (spells_quoted text)
  | array items ih => exact .cons .openBracket (spelled_itemChars items ih)
  | object members ih => exact .cons .openBrace (spelled_memberChars members ih)

theorem itemTrees_eq_map (items : List Value) : itemTrees items = items.map tree := by
  induction items with
  | nil => rfl
  | cons v rest ih => rw [itemTrees, ih]; rfl

theorem memberTrees_eq_map (members : List (String × Value)) :
    memberTrees members = members.map fun m => (some m.1, m.2.tree) := by
  induction members with
  | nil => rfl
  | cons m rest ih => rw [memberTrees, ih]; rfl

theorem isWhole_tree (v : Value) : v.tree.IsWhole := by
  induction v using induct with
  | null | boolean | number | string => exact .scalar _
  | array items ih =>
    rw [tree, itemTrees_eq_map]
    exact .array (List.forall_mem_map.mpr ih)
  | object members ih =>
    rw [tree, memberTrees_eq_map]
    exact .object (List.forall_mem_map.mpr ih)

/-- **The text of a value spells its tree.** -/
theorem spells_write (v : Value) : v.tree.Spells v.write :=
  ⟨v.isWhole_tree, by simpa [write] using v.spelled_chars⟩

end Value

/-- Reading what has been written gives the tree of the value. -/
theorem readText_write (v : Value) : readText v.write = ⟨v.tree, true⟩ := readText_eq_iff.mpr v.spells_write

end ReplicaWatch.Json
