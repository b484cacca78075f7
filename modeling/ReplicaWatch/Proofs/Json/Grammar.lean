import Mathlib.Data.List.Chain
import ReplicaWatch.Json.Decoder
import ReplicaWatch.Proofs.Json.Lexeme

/-!
# How values are spelled

`Tree.Spells` is the grammar of texts: a value is spelled by its tokens in their order (`Tree.tokens`), with blanks
before, between and behind them (`Spelled`). The reader decides it and finds the value: `readText_eq_iff`.

One direction follows the value: its tokens, taken by a reader that waits for a value, deliver it
(`Reader.foldl_tokens`). The other follows the reader: the tokens it has taken can be told from its state
(`Reader.tokens`), so they are those of the value when it is finished (`Reader.tokens_step`).
-/

namespace ReplicaWatch.Json

/-! ## Tokens of a value -/

mutual

/-- The tokens of a complete value. -/
def Tree.tokens : Tree → List Token
  | .scalar value => [.scalar value]
  | .array items _ => .openBracket :: itemTokens items
  | .object members _ => .openBrace :: memberTokens members
  | .broken => []

/-- The tokens of items up to the closing bracket. -/
def itemTokens : List Tree → List Token
  | [] => [.closeBracket]
  | [t] => t.tokens ++ [.closeBracket]
  | t :: u :: rest => t.tokens ++ .comma :: itemTokens (u :: rest)

/-- The tokens of members up to the closing brace. -/
def memberTokens : List (Option String × Tree) → List Token
  | [] => [.closeBrace]
  | [(label, t)] => .scalar (.string label) :: .colon :: (t.tokens ++ [.closeBrace])
  | (label, t) :: m :: rest =>
    .scalar (.string label) :: .colon :: (t.tokens ++ .comma :: memberTokens (m :: rest))

end

/-- Nothing is missing in a value: no part of it is broken, and everything is closed. -/
inductive Tree.IsWhole : Tree → Prop
  | scalar (value : Scalar) : IsWhole (.scalar value)
  | array {items : List Tree} : (∀ t ∈ items, IsWhole t) → IsWhole (.array items true)
  | object {members : List (Option String × Tree)} : (∀ m ∈ members, IsWhole m.2) → IsWhole (.object members true)

/-- **The characters that spell tokens in a row.** Blanks may stand around each of them. -/
inductive Spelled : List Token → List Char → Prop
  | blanks {bs : List Char} : (∀ b ∈ bs, isBlank b = true) → Spelled [] bs
  | token {t : Token} {ts : List Token} {bs lexeme rest : List Char} : (∀ b ∈ bs, isBlank b = true) →
      t.Spells lexeme → Spelled ts rest → Spelled (t :: ts) (bs ++ (lexeme ++ rest))

/-- **A text spells a value.** -/
def Tree.Spells (t : Tree) (text : String) : Prop := t.IsWhole ∧ Spelled t.tokens text.toList

/-! ## Tokens that can be told apart -/

/-- Two tokens may follow one another without a blank: one of them is punctuation. -/
def Token.Apart (t u : Token) : Prop := t.isScalar = true → u.isScalar = false

theorem isChain_cons {t : Token} {ts : List Token} (ht : t.isScalar = false) (hts : ts.IsChain Token.Apart) :
    (t :: ts).IsChain Token.Apart :=
  List.isChain_cons.mpr ⟨fun _ _ h => absurd h (by simp [ht]), hts⟩

theorem isChain_append {u : Token} {ts us : List Token} (hu : u.isScalar = false) (hts : ts.IsChain Token.Apart)
    (hus : us.IsChain Token.Apart) : (ts ++ u :: us).IsChain Token.Apart := by
  refine List.isChain_append.mpr ⟨hts, isChain_cons hu hus, fun t _ v hv _ => ?_⟩
  cases hv
  exact hu

theorem isChain_labelled {label : Option String} {ts : List Token} (hts : ts.IsChain Token.Apart) :
    (.scalar (.string label) :: .colon :: ts).IsChain Token.Apart :=
  List.isChain_cons.mpr ⟨fun u hu _ => by cases hu; rfl, isChain_cons rfl hts⟩

theorem isChain_itemTokens {items : List Tree} (h : ∀ t ∈ items, t.tokens.IsChain Token.Apart) :
    (itemTokens items).IsChain Token.Apart := by
  match items with
  | [] => exact List.isChain_singleton _
  | [t] =>
    rw [itemTokens]
    exact isChain_append rfl (h t (by simp)) List.isChain_nil
  | t :: u :: rest =>
    rw [itemTokens]
    exact isChain_append rfl (h t (by simp)) (isChain_itemTokens fun t ht => h t (List.mem_cons_of_mem _ ht))

theorem isChain_memberTokens {members : List (Option String × Tree)}
    (h : ∀ m ∈ members, m.2.tokens.IsChain Token.Apart) : (memberTokens members).IsChain Token.Apart := by
  match members with
  | [] => exact List.isChain_singleton _
  | [(label, t)] =>
    rw [memberTokens]
    exact isChain_labelled (isChain_append rfl (h (label, t) (by simp)) List.isChain_nil)
  | (label, t) :: m :: rest =>
    rw [memberTokens]
    exact isChain_labelled
      (isChain_append rfl (h (label, t) (by simp)) (isChain_memberTokens fun m hm => h m (List.mem_cons_of_mem _ hm)))

/-- In a value no two scalars follow one another. -/
theorem Tree.IsWhole.isChain_tokens {t : Tree} (h : t.IsWhole) : t.tokens.IsChain Token.Apart := by
  induction h with
  | scalar => exact List.isChain_singleton _
  | array _ ih =>
    rw [tokens]
    exact isChain_cons rfl (isChain_itemTokens ih)
  | object _ ih =>
    rw [tokens]
    exact isChain_cons rfl (isChain_memberTokens ih)

/-! ## What is spelled is read token by token -/

theorem continues_of_isBlank {c : Char} (h : isBlank c = true) : Numeral.continues c = false := by
  unfold isBlank at h
  simp only [Bool.or_eq_true, decide_eq_true_eq] at h
  rcases h with ((rfl | rfl) | rfl) | rfl <;> decide

theorem isBlank_of_minus_or_digit {c : Char} (h : c = '-' ∨ c.isDigit = true) : isBlank c = false := by
  by_contra hb
  rw [Bool.not_eq_false] at hb
  unfold isBlank at hb
  simp only [Bool.or_eq_true, decide_eq_true_eq] at hb
  rcases hb with ((rfl | rfl) | rfl) | rfl <;> exact absurd h (by decide)

/-- No token begins with a blank. -/
theorem Token.Spells.exists_cons {t : Token} {lexeme : List Char} (h : t.Spells lexeme) :
    ∃ c tail, lexeme = c :: tail ∧ isBlank c = false ∧ (t.isScalar = false → Numeral.continues c = false) := by
  cases h with
  | openBracket | closeBracket | openBrace | closeBrace | comma | colon =>
    exact ⟨_, _, rfl, by decide, fun _ => by decide⟩
  | null | yes | no | string => exact ⟨_, _, rfl, by decide, fun h => by cases h⟩
  | number hn =>
    obtain ⟨c, tail, rfl, hc⟩ := hn.exists_cons
    exact ⟨c, tail, rfl, isBlank_of_minus_or_digit hc, fun h => by cases h⟩

theorem skipBlanks_append {bs rest : List Char} (hb : ∀ b ∈ bs, isBlank b = true) (hr : StopsBefore isBlank rest) :
    skipBlanks (bs ++ rest) = rest := hr.dropWhile_append hb

/-- Behind a scalar, the spelling of punctuation does not go on with what could be part of a numeral. -/
theorem Spelled.stopsBefore {ts : List Token} {cs : List Char} (h : Spelled ts cs)
    (hts : ∀ t ∈ ts.head?, t.isScalar = false) : StopsBefore Numeral.continues cs := by
  have blank {bs rest : List Char} (hb : ∀ b ∈ bs, isBlank b = true) (hr : StopsBefore Numeral.continues rest) :
      StopsBefore Numeral.continues (bs ++ rest) := by
    cases bs with
    | nil => exact hr
    | cons b bs => exact stopsBefore_cons.mpr (continues_of_isBlank (hb b List.mem_cons_self))
  cases h with
  | blanks hb => simpa using blank hb (stopsBefore_nil _)
  | token hb ht _ =>
    obtain ⟨c, tail, rfl, -, hc⟩ := ht.exists_cons
    exact blank hb (stopsBefore_cons.mpr (hc (hts _ rfl)))

namespace Reader

theorem run_of_blanks {r : Reader} {cs : List Char} (h : skipBlanks cs = []) : r.run cs = r.document := by
  rw [run]
  split
  · rfl
  · rename_i heq
    rw [h] at heq
    cases heq

theorem run_of_scan {r : Reader} {cs rest rest' : List Char} {t : Token} (h : skipBlanks cs = rest)
    (hs : Token.scan rest = some (t, rest')) : r.run cs = (r.step t).run rest' := by
  rw [run]
  split
  · rename_i heq
    rw [← h, heq] at hs
    cases hs
  · rename_i heq
    rw [← h, heq] at hs
    split
    · rename_i hn
      rw [hs] at hn
      cases hn
    · rename_i hn
      rw [hs] at hn
      cases hn
      rfl

theorem run_of_scan_none {r : Reader} {c : Char} {cs rest : List Char} (h : skipBlanks cs = c :: rest)
    (hs : Token.scan (c :: rest) = none) : r.run cs = ⟨r.tree, false⟩ := by
  rw [run]
  split
  · rename_i heq
    rw [h] at heq
    cases heq
  · rename_i heq
    rw [h] at heq
    cases heq
    split
    · rfl
    · rename_i hn
      rw [hs] at hn
      cases hn

/-- **Reading spelled tokens** is taking them one after the other. -/
theorem run_of_spelled {ts : List Token} {cs : List Char} (h : Spelled ts cs) (hts : ts.IsChain Token.Apart)
    (r : Reader) : r.run cs = (ts.foldl step r).document := by
  induction h generalizing r with
  | blanks hb => exact run_of_blanks (by simpa using skipBlanks_append hb (stopsBefore_nil _))
  | @token t ts bs lexeme rest hb ht hrest ih =>
    obtain ⟨hapart, htail⟩ := List.isChain_cons.mp hts
    have hends : t.Ends rest := fun hscalar => hrest.stopsBefore fun u hu => hapart u hu hscalar
    have hstop : StopsBefore isBlank (lexeme ++ rest) := by
      obtain ⟨c, tail, rfl, hc, -⟩ := ht.exists_cons
      exact stopsBefore_cons.mpr hc
    rw [run_of_scan (skipBlanks_append hb hstop) (Token.scan_append ht hends), ih htail]
    rfl

/-! ## The tokens of a value deliver it -/

/-- A reader waits for a value inside the given frames. -/
def Awaits (r : Reader) (around : List Frame) : Prop := ∀ t, t ≠ .closeBracket → r.step t = begin around t

theorem awaits_start : Awaits .start [] := fun _ _ => rfl

theorem awaits_item (done : List Tree) (around : List Frame) : Awaits (.item done around) (.items done :: around) := by
  intro t ht
  simp [step, ht]

theorem awaits_value (done : List (Option String × Tree)) (label : Option String) (around : List Frame) :
    Awaits (.value done label around) (.member done label :: around) := fun _ _ => rfl

/-- The tokens of a value deliver it to whatever reader waits for one. -/
def Delivers (t : Tree) : Prop :=
  ∀ (r : Reader) (around : List Frame), Awaits r around → t.tokens.foldl step r = deliver t around

theorem foldl_itemTokens (items done : List Tree) (h : ∀ t ∈ items, Delivers t) (hd : items = [] → done = [])
    (around : List Frame) :
    (itemTokens items).foldl step (.item done around) = deliver (.array (done.reverse ++ items) true) around := by
  match items with
  | [] =>
    rw [hd rfl]
    rfl
  | [t] =>
    rw [itemTokens, List.foldl_append, h t (by simp) _ _ (awaits_item done around)]
    simp [deliver, step]
  | t :: u :: rest =>
    rw [itemTokens, List.foldl_append, h t (by simp) _ _ (awaits_item done around)]
    have := foldl_itemTokens (u :: rest) (t :: done) (fun t ht => h t (List.mem_cons_of_mem _ ht)) (by simp) around
    simpa [deliver, step] using this

theorem foldl_memberTokens (members done : List (Option String × Tree)) (h : ∀ m ∈ members, Delivers m.2)
    (hd : members = [] → done = []) (around : List Frame) :
    (memberTokens members).foldl step (.name done around) =
      deliver (.object (done.reverse ++ members) true) around := by
  match members with
  | [] =>
    rw [hd rfl]
    rfl
  | [(label, t)] =>
    have := h (label, t) (by simp) _ _ (awaits_value done label around)
    simp [memberTokens, step, this, deliver]
  | (label, t) :: m :: rest =>
    have ht := h (label, t) (by simp) _ _ (awaits_value done label around)
    have := foldl_memberTokens (m :: rest) ((label, t) :: done) (fun m hm => h m (List.mem_cons_of_mem _ hm)) (by simp)
      around
    simpa [memberTokens, step, ht, deliver] using this

/-- **The tokens of a complete value deliver it.** -/
theorem foldl_tokens {t : Tree} (h : t.IsWhole) : Delivers t := by
  induction h with
  | scalar =>
    intro r around hr
    rw [Tree.tokens, List.foldl_cons, hr _ (by simp)]
    rfl
  | array _ ih =>
    intro r around hr
    rw [Tree.tokens, List.foldl_cons, hr _ (by simp)]
    exact foldl_itemTokens _ [] ih (fun _ => rfl) around
  | object _ ih =>
    intro r around hr
    rw [Tree.tokens, List.foldl_cons, hr _ (by simp)]
    exact foldl_memberTokens _ [] ih (fun _ => rfl) around

end Reader

/-! ## The tokens that have been taken -/

/-- The tokens of an array up to the place behind the items that are complete, the last of them first. -/
def tokensOfItems (done : List Tree) : List Token :=
  .openBracket :: done.reverse.flatMap fun t => t.tokens ++ [.comma]

/-- The tokens of an object up to the place behind the members that are complete, the last of them first. -/
def tokensOfMembers (done : List (Option String × Tree)) : List Token :=
  .openBrace :: done.reverse.flatMap fun m => .scalar (.string m.1) :: .colon :: (m.2.tokens ++ [.comma])

theorem tokensOfItems_cons (t : Tree) (done : List Tree) :
    tokensOfItems (t :: done) = tokensOfItems done ++ (t.tokens ++ [.comma]) := by simp [tokensOfItems]

theorem tokensOfMembers_cons (label : Option String) (t : Tree) (done : List (Option String × Tree)) :
    tokensOfMembers ((label, t) :: done) =
      tokensOfMembers done ++ .scalar (.string label) :: .colon :: (t.tokens ++ [.comma]) := by
  simp [tokensOfMembers]

theorem itemTokens_concat (items : List Tree) (t : Tree) :
    itemTokens (items ++ [t]) = items.flatMap (fun u => u.tokens ++ [.comma]) ++ (t.tokens ++ [.closeBracket]) := by
  match items with
  | [] => simp [itemTokens]
  | [u] => simp [itemTokens]
  | u :: v :: rest =>
    have := itemTokens_concat (v :: rest) t
    simpa [itemTokens] using this

theorem memberTokens_concat (members : List (Option String × Tree)) (label : Option String) (t : Tree) :
    memberTokens (members ++ [(label, t)]) =
      members.flatMap (fun m => .scalar (.string m.1) :: .colon :: (m.2.tokens ++ [.comma])) ++
        .scalar (.string label) :: .colon :: (t.tokens ++ [.closeBrace]) := by
  match members with
  | [] => simp [memberTokens]
  | [m] => simp [memberTokens]
  | m :: n :: rest =>
    have := memberTokens_concat (n :: rest) label t
    simpa [memberTokens] using this

/-- The tokens of an array are those taken before its last item, the item and the closing bracket. -/
theorem tokens_array (t : Tree) (done : List Tree) (closed : Bool) :
    (Tree.array (t :: done).reverse closed).tokens = tokensOfItems done ++ (t.tokens ++ [.closeBracket]) := by
  simp [Tree.tokens, itemTokens_concat, tokensOfItems]

/-- The tokens of an object are those taken before its last member, the member and the closing brace. -/
theorem tokens_object (label : Option String) (t : Tree) (done : List (Option String × Tree)) (closed : Bool) :
    (Tree.object ((label, t) :: done).reverse closed).tokens =
      tokensOfMembers done ++ .scalar (.string label) :: .colon :: (t.tokens ++ [.closeBrace]) := by
  simp [Tree.tokens, memberTokens_concat, tokensOfMembers]

namespace Frame

/-- The tokens of an open array or object in front of the part that is being read. -/
def tokens : Frame → List Token
  | .items done => tokensOfItems done
  | .member done label => tokensOfMembers done ++ [.scalar (.string label), .colon]

/-- The parts that are complete are whole. -/
def IsWhole : Frame → Prop
  | .items done => ∀ t ∈ done, t.IsWhole
  | .member done _ => ∀ m ∈ done, m.2.IsWhole

end Frame

/-- The tokens in front of the place of reading inside open arrays and objects. -/
def tokensAround : List Frame → List Token
  | [] => []
  | f :: around => tokensAround around ++ f.tokens

namespace Reader

/-- The tokens that a reader has taken, as far as it is not stuck. -/
def tokens : Reader → List Token
  | .item done around => tokensAround around ++ tokensOfItems done
  | .afterItem (t :: done) around => tokensAround around ++ tokensOfItems done ++ t.tokens
  | .name done around => tokensAround around ++ tokensOfMembers done
  | .colon done label around => tokensAround around ++ tokensOfMembers done ++ [.scalar (.string label)]
  | .value done label around => tokensAround (.member done label :: around)
  | .afterMember ((label, t) :: done) around =>
    tokensAround (.member done label :: around) ++ t.tokens
  | .finished t => t.tokens
  | _ => []

/-- A reader is not stuck, and everything that it has completed is whole. -/
def IsWhole : Reader → Prop
  | .start => True
  | .item done around => (∀ t ∈ done, t.IsWhole) ∧ ∀ f ∈ around, f.IsWhole
  | .afterItem done around => done ≠ [] ∧ (∀ t ∈ done, t.IsWhole) ∧ ∀ f ∈ around, f.IsWhole
  | .name done around => (∀ m ∈ done, m.2.IsWhole) ∧ ∀ f ∈ around, f.IsWhole
  | .colon done _ around => (∀ m ∈ done, m.2.IsWhole) ∧ ∀ f ∈ around, f.IsWhole
  | .value done _ around => (∀ m ∈ done, m.2.IsWhole) ∧ ∀ f ∈ around, f.IsWhole
  | .afterMember done around => done ≠ [] ∧ (∀ m ∈ done, m.2.IsWhole) ∧ ∀ f ∈ around, f.IsWhole
  | .finished t => t.IsWhole
  | .stuck _ => False

/-- A reader has got to a state with the given tokens, or is stuck. -/
def Reaches (r : Reader) (ts : List Token) : Prop := (∃ t, r = .stuck t) ∨ (r.IsWhole ∧ r.tokens = ts)

variable {around : List Frame} {t : Tree}

theorem reaches_stuck (t : Tree) (ts : List Token) : (stuck t).Reaches ts := Or.inl ⟨t, rfl⟩

theorem reaches_deliver (ht : t.IsWhole) (ha : ∀ f ∈ around, f.IsWhole) :
    (deliver t around).Reaches (tokensAround around ++ t.tokens) := by
  right
  match around with
  | [] => exact ⟨ht, rfl⟩
  | .items done :: around =>
    obtain ⟨hd, ha⟩ := List.forall_mem_cons.mp ha
    exact ⟨⟨by simp, List.forall_mem_cons.mpr ⟨ht, hd⟩, ha⟩, rfl⟩
  | .member done label :: around =>
    obtain ⟨hd, ha⟩ := List.forall_mem_cons.mp ha
    exact ⟨⟨by simp, List.forall_mem_cons.mpr ⟨ht, hd⟩, ha⟩, rfl⟩

theorem reaches_begin (ha : ∀ f ∈ around, f.IsWhole) (t : Token) :
    (begin around t).Reaches (tokensAround around ++ [t]) := by
  cases t with
  | openBracket | openBrace => exact Or.inr ⟨⟨by simp, ha⟩, rfl⟩
  | scalar v => exact reaches_deliver (.scalar v) ha
  | closeBracket | closeBrace | comma | colon => exact reaches_stuck _ _

/-- **A token is added to those taken**, unless the reader gets stuck on it. -/
theorem reaches_step {r : Reader} (h : r.IsWhole) (t : Token) : (r.step t).Reaches (r.tokens ++ [t]) := by
  cases r with
  | start => exact reaches_begin (by simp) t
  | item done around =>
    rw [step]
    split
    · rename_i hend
      simp only [Bool.and_eq_true, List.isEmpty_iff, decide_eq_true_eq] at hend
      obtain ⟨rfl, rfl⟩ := hend
      simpa [tokens, tokensOfItems, Tree.tokens, itemTokens] using
        reaches_deliver (t := .array [] true) (.array (by simp)) h.2
    · have ha : ∀ f ∈ Frame.items done :: around, f.IsWhole := List.forall_mem_cons.mpr ⟨h.1, h.2⟩
      exact reaches_begin ha t
  | afterItem done around =>
    -- the last item counts as complete only now that a comma or the closing bracket follows it
    obtain ⟨hne, hd, ha⟩ := h
    obtain ⟨u, done, rfl⟩ := List.exists_cons_of_ne_nil hne
    cases t with
    | comma => exact Or.inr ⟨⟨hd, ha⟩, by simp [step, tokens, tokensOfItems_cons]⟩
    | closeBracket =>
      have := reaches_deliver (t := .array (u :: done).reverse true)
        (.array fun t ht => hd t (List.mem_reverse.mp ht)) ha
      rw [tokens_array] at this
      simpa [step, tokens] using this
    | openBracket | openBrace | closeBrace | colon | scalar => exact reaches_stuck _ _
  | name done around =>
    obtain ⟨hd, ha⟩ := h
    have end_or_stuck (t : Token) : (if done.isEmpty && t = .closeBrace then deliver (.object [] true) around
        else .stuck (enclose (.object done.reverse false) around)).Reaches
          (tokensAround around ++ tokensOfMembers done ++ [t]) := by
      split
      · rename_i hend
        simp only [Bool.and_eq_true, List.isEmpty_iff, decide_eq_true_eq] at hend
        obtain ⟨rfl, rfl⟩ := hend
        simpa [tokensOfMembers, Tree.tokens, memberTokens] using
          reaches_deliver (t := .object [] true) (.object (by simp)) ha
      · exact reaches_stuck _ _
    cases t with
    | scalar v =>
      cases v with
      | string label => exact Or.inr ⟨⟨hd, ha⟩, rfl⟩
      | null | boolean | number => exact end_or_stuck _
    | openBracket | closeBracket | openBrace | closeBrace | comma | colon => exact end_or_stuck _
  | colon done label around =>
    rw [step]
    split
    · subst_vars
      exact Or.inr ⟨h, by simp [tokens, tokensAround, Frame.tokens]⟩
    · exact reaches_stuck _ _
  | value done label around =>
    have ha : ∀ f ∈ Frame.member done label :: around, f.IsWhole := List.forall_mem_cons.mpr ⟨h.1, h.2⟩
    exact reaches_begin ha t
  | afterMember done around =>
    obtain ⟨hne, hd, ha⟩ := h
    obtain ⟨⟨label, u⟩, done, rfl⟩ := List.exists_cons_of_ne_nil hne
    cases t with
    | comma =>
      exact Or.inr ⟨⟨hd, ha⟩, by simp [step, tokens, tokensAround, Frame.tokens, tokensOfMembers_cons]⟩
    | closeBrace =>
      have := reaches_deliver (t := .object ((label, u) :: done).reverse true)
        (.object fun m hm => hd m (List.mem_reverse.mp hm)) ha
      rw [tokens_object] at this
      simpa [step, tokens, tokensAround, Frame.tokens] using this
    | openBracket | closeBracket | openBrace | colon | scalar => exact reaches_stuck _ _
  | finished t => exact reaches_stuck _ _
  | stuck t => exact h.elim

theorem foldl_stuck (ts : List Token) (t : Tree) : ts.foldl step (.stuck t) = .stuck t := by
  induction ts with
  | nil => rfl
  | cons _ _ ih => exact ih

/-- **The tokens taken by a reader that finishes** are those of the value it finishes with. -/
theorem tokens_of_foldl {r : Reader} {ts : List Token} (h : r.IsWhole) (hf : ts.foldl step r = .finished t) :
    t.IsWhole ∧ t.tokens = r.tokens ++ ts := by
  -- a stuck reader stays stuck, so it is nowhere stuck on its way to the end
  induction ts generalizing r with
  | nil =>
    cases hf
    exact ⟨h, by simp [tokens]⟩
  | cons u ts ih =>
    rw [List.foldl_cons] at hf
    rcases reaches_step h u with ⟨v, hv⟩ | ⟨hwhole, htokens⟩
    · rw [hv, foldl_stuck] at hf
      cases hf
    · obtain ⟨ht, hts⟩ := ih hwhole hf
      exact ⟨ht, by rw [hts, htokens]; simp⟩

/-- **What is read to its end is spelled**: it is cut into tokens, and these finish the reader. -/
theorem exists_spelled_of_run {r : Reader} {cs : List Char} (h : r.run cs = ⟨t, true⟩) :
    ∃ ts, Spelled ts cs ∧ ts.foldl step r = .finished t := by
  have hcut : cs.takeWhile isBlank ++ skipBlanks cs = cs := List.takeWhile_append_dropWhile
  have hblank : ∀ b ∈ cs.takeWhile isBlank, isBlank b = true := fun b hb => List.mem_takeWhile_imp hb
  cases hskip : skipBlanks cs with
  | nil =>
    rw [run_of_blanks hskip] at h
    rw [hskip, List.append_nil] at hcut
    refine ⟨[], .blanks (hcut ▸ hblank), ?_⟩
    cases r <;> cases h
    rfl
  | cons c rest =>
    cases hscan : Token.scan (c :: rest) with
    | none =>
      rw [run_of_scan_none hskip hscan] at h
      cases h
    | some p =>
      obtain ⟨u, rest'⟩ := p
      rw [run_of_scan hskip hscan] at h
      have hlt : rest'.length < cs.length := by
        have h1 := Token.scan_shorter hscan
        have h2 := skipBlanks_le cs
        rw [hskip] at h2
        omega
      obtain ⟨ts, hts, hf⟩ := exists_spelled_of_run h
      obtain ⟨lexeme, hu, hrest⟩ := Token.spells_of_scan hscan
      refine ⟨u :: ts, ?_, hf⟩
      rw [← hcut, hskip, hrest]
      exact .token hblank hu hts
termination_by cs.length

end Reader

/-- **Reading decides the grammar**: a text is read to its end and gives a value exactly if it spells that value. -/
theorem readText_eq_iff {text : String} {t : Tree} : readText text = ⟨t, true⟩ ↔ t.Spells text := by
  constructor
  · intro h
    obtain ⟨ts, hts, hf⟩ := Reader.exists_spelled_of_run h
    obtain ⟨ht, htokens⟩ := Reader.tokens_of_foldl (r := .start) trivial hf
    exact ⟨ht, by rw [htokens]; exact hts⟩
  · rintro ⟨ht, hts⟩
    rw [readText, Reader.run_of_spelled hts ht.isChain_tokens, Reader.foldl_tokens ht _ _ Reader.awaits_start]
    rfl

/-- A text spells one value at most. -/
theorem Tree.Spells.unique {t u : Tree} {text : String} (ht : t.Spells text) (hu : u.Spells text) : t = u := by
  have := (readText_eq_iff.mpr ht).symm.trans (readText_eq_iff.mpr hu)
  cases this
  rfl

/-- A text decodes if it spells a value that decodes. -/
theorem decodeText_eq_ok_iff {α : Type} {d : Decoder α} {text : String} {a : α} :
    decodeText d text = .ok a ↔ ∃ t : Tree, t.Spells text ∧ d greatestDepth t = .ok a := by
  have hclosed {closed : Bool} : Decoder.ensureClosed closed = .ok () ↔ closed = true := by
    cases closed <;> simp [Decoder.ensureClosed]
  constructor
  · intro h
    obtain ⟨b, hb, h⟩ := bind_eq_ok_iff.mp h
    obtain ⟨_, hc, h⟩ := bind_eq_ok_iff.mp h
    cases h
    refine ⟨(readText text).tree, readText_eq_iff.mp ?_, hb⟩
    rw [← hclosed.mp hc]
  · rintro ⟨t, ht, ha⟩
    rw [decodeText, readText_eq_iff.mpr ht]
    exact bind_eq_ok_iff.mpr ⟨a, ha, rfl⟩

end ReplicaWatch.Json
