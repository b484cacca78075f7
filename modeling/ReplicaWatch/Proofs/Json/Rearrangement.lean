import Mathlib.Data.List.Forall2
import Mathlib.Data.List.Perm.Basic
import ReplicaWatch.Proofs.Json.Written

/-!
# Values up to the order of their members

The members of an object have no order. `Value.Alike` says when two values are the same but for that, and is an
equivalence; sorting leads from a value to one alike (`Value.alike_sorted`).

`Tree.value?` is the value that a tree says, if nothing is missing in it and its numbers are integers that fit. It
undoes writing (`Value.IsIntegral.value?_tree`), so an integral value can be told from its text.
-/

namespace ReplicaWatch.Json

/-! ## The same value -/

mutual

/-- **Two values are the same**, but for the order in which objects have their members. -/
inductive Value.Alike : Value → Value → Prop
  | null : Value.Alike .null .null
  | boolean (value : Bool) : Value.Alike (.boolean value) (.boolean value)
  | number (digits : Int) (places : Nat) : Value.Alike (.number digits places) (.number digits places)
  | string (text : String) : Value.Alike (.string text) (.string text)
  | array {vs ws : List Value} : List.Forall₂ Value.Alike vs ws → Value.Alike (.array vs) (.array ws)
  | object {ms ns ls : List (String × Value)} : List.Forall₂ Value.AlikeNamed ms ns → ns.Perm ls →
      Value.Alike (.object ms) (.object ls)

/-- Two members have one name and the same value. -/
inductive Value.AlikeNamed : String × Value → String × Value → Prop
  | named (name : String) {v w : Value} : Value.Alike v w → Value.AlikeNamed (name, v) (name, w)

end

namespace Value

variable {u v w : Value} {ms ns : List (String × Value)}

theorem Alike.refl (v : Value) : v.Alike v := by
  induction v using induct with
  | null => exact .null
  | boolean b => exact .boolean b
  | number digits places => exact .number digits places
  | string text => exact .string text
  | array items ih => exact .array (List.forall₂_same.mpr ih)
  | object members ih => exact .object (List.forall₂_same.mpr fun m hm => .named m.1 (ih m hm)) (.refl _)

theorem Alike.symm (h : v.Alike w) : w.Alike v := by
  induction v using induct generalizing w with
  | null | boolean | number | string => cases h; exact .refl _
  | array items ih =>
    cases h with
    | array h => exact .array (((List.forall₂_and_left _ _).mpr ⟨ih, h⟩).imp fun _ _ h => h.1 h.2).flip
  | object members ih =>
    cases h with
    | object h hp =>
      -- the members are put in the order of the second value before they are compared
      have hback : List.Forall₂ AlikeNamed _ members := List.Forall₂.flip <|
        ((List.forall₂_and_left _ _).mpr ⟨ih, h⟩).imp fun m n h => by
          obtain ⟨ih, hmn⟩ := h
          cases hmn with
          | named name hmn => exact .named name (ih hmn)
      obtain ⟨ks, hks, hperm⟩ := List.perm_comp_forall₂ hp.symm hback
      exact .object hks hperm

/-- What holds for two steps holds for both together, item by item. -/
theorem forall₂_trans {α : Type} {R S T : α → α → Prop} {as bs cs : List α}
    (h : ∀ a ∈ as, ∀ b c, R a b → S b c → T a c) (hr : List.Forall₂ R as bs) (hs : List.Forall₂ S bs cs) :
    List.Forall₂ T as cs := by
  induction hr generalizing cs with
  | nil =>
    cases hs
    exact .nil
  | cons hab _ ih =>
    cases hs with
    | cons hbc hs =>
      obtain ⟨ha, has⟩ := List.forall_mem_cons.mp h
      exact .cons (ha _ _ hab hbc) (ih has hs)

theorem Alike.trans (h : u.Alike v) (h' : v.Alike w) : u.Alike w := by
  induction u using induct generalizing v w with
  | null | boolean | number | string => cases h; exact h'
  | array items ih =>
    cases h with
    | array h =>
      cases h' with
      | array h' =>
        refine .array (forall₂_trans (fun v hv _ _ h h' => ?_) h h')
        exact ih v hv h h'
  | object members ih =>
    cases h with
    | object h hp =>
      cases h' with
      | object h' hp' =>
        obtain ⟨ks, hks, hperm⟩ := List.perm_comp_forall₂ hp h'
        refine .object (forall₂_trans (fun m hm n l h h' => ?_) h hks) (hperm.trans hp')
        cases h with
        | named name h =>
          cases h' with
          | named _ h' => exact .named name (ih _ hm h h')

/-! ## Sorting -/

theorem sortedItems_eq_map (items : List Value) : sortedItems items = items.map sorted := by
  induction items with
  | nil => rfl
  | cons v rest ih => rw [sortedItems, ih]; rfl

theorem placeMember_perm (m : String × Value) (ms : List (String × Value)) : (placeMember m ms).Perm (m :: ms) := by
  induction ms with
  | nil => exact .refl _
  | cons n rest ih =>
    rw [placeMember]
    split
    · exact .refl _
    · exact (ih.cons n).trans (.swap m n rest)

/-- Sorting keeps all members, each sorted inside. -/
theorem sortedMembers_perm (done ms : List (String × Value)) :
    (sortedMembers done ms).Perm (done ++ ms.map fun m => (m.1, m.2.sorted)) := by
  induction ms generalizing done with
  | nil => rw [sortedMembers, List.map_nil, List.append_nil]
  | cons m rest ih =>
    rw [sortedMembers, List.map_cons]
    exact (ih _).trans (((placeMember_perm _ done).append_right _).trans List.perm_middle.symm)

/-- **Sorting gives the same value.** -/
theorem alike_sorted (v : Value) : v.Alike v.sorted := by
  induction v using induct with
  | null | boolean | number | string => exact .refl _
  | array items ih =>
    rw [sorted, sortedItems_eq_map]
    exact .array (List.forall₂_map_right_iff.mpr (List.forall₂_same.mpr ih))
  | object members ih =>
    rw [sorted]
    exact .object (List.forall₂_map_right_iff.mpr (List.forall₂_same.mpr fun m hm => .named m.1 (ih m hm)))
      (sortedMembers_perm [] members).symm

end Value

/-! ## The value that a tree says -/

/-- The value that a scalar says; of numbers, only integers are exact. -/
def Scalar.value? : Scalar → Option Value
  | .null => some .null
  | .boolean b => some (.boolean b)
  | .number numeral =>
    match numeral.value? with
    | some (.integer i) => some (.int i)
    | _ => none
  | .string text => text.map .string

mutual

/-- The value that a tree says, if nothing is missing in it. -/
def Tree.value? : Tree → Option Value
  | .scalar v => v.value?
  | .array items true => (itemValues? items).map .array
  | .object members true => (memberValues? members).map .object
  | _ => none

def itemValues? : List Tree → Option (List Value)
  | [] => some []
  | t :: rest => do
    let v ← t.value?
    let vs ← itemValues? rest
    return v :: vs

def memberValues? : List (Option String × Tree) → Option (List (String × Value))
  | [] => some []
  | (none, _) :: _ => none
  | (some name, t) :: rest => do
    let v ← t.value?
    let ms ← memberValues? rest
    return (name, v) :: ms

end

/-- The value that a text says. -/
def textValue? (text : String) : Option Value :=
  let doc := readText text
  if doc.complete then doc.tree.value? else none

/-- All numbers of a value are integers that fit 64 bits. -/
inductive Value.IsIntegral : Value → Prop
  | null : IsIntegral .null
  | boolean (value : Bool) : IsIntegral (.boolean value)
  | int {i : Int} : -(Numeral.signedBound : Int) ≤ i → i < Numeral.unsignedBound → IsIntegral (.int i)
  | string (text : String) : IsIntegral (.string text)
  | array {items : List Value} : (∀ v ∈ items, IsIntegral v) → IsIntegral (.array items)
  | object {members : List (String × Value)} : (∀ m ∈ members, IsIntegral m.2) → IsIntegral (.object members)

namespace Value

variable {v : Value}

theorem itemValues?_itemTrees {items : List Value} (h : ∀ v ∈ items, v.tree.value? = some v) :
    itemValues? (itemTrees items) = some items := by
  induction items with
  | nil => rfl
  | cons v rest ih =>
    obtain ⟨hv, hrest⟩ := List.forall_mem_cons.mp h
    rw [itemTrees, itemValues?, hv, ih hrest]
    rfl

theorem memberValues?_memberTrees {members : List (String × Value)} (h : ∀ m ∈ members, m.2.tree.value? = some m.2) :
    memberValues? (memberTrees members) = some members := by
  induction members with
  | nil => rfl
  | cons m rest ih =>
    obtain ⟨hm, hrest⟩ := List.forall_mem_cons.mp h
    rw [memberTrees, memberValues?, hm, ih hrest]
    rfl

/-- The tree of an integral value says that value. -/
theorem IsIntegral.value?_tree (h : v.IsIntegral) : v.tree.value? = some v := by
  induction h with
  | null | boolean | string => rfl
  | int hl hg =>
    rw [Value.int, tree, Tree.value?, Scalar.value?, Numeral.value?_ofDecimal hl hg]
    rfl
  | array _ ih =>
    rw [tree, Tree.value?, itemValues?_itemTrees ih]
    rfl
  | object _ ih =>
    rw [tree, Tree.value?, memberValues?_memberTrees ih]
    rfl

/-- **An integral value is told from its text.** -/
theorem IsIntegral.textValue?_write (h : v.IsIntegral) : textValue? v.write = some v := by
  rw [textValue?, readText_write]
  exact h.value?_tree

theorem IsIntegral.sorted (h : v.IsIntegral) : v.sorted.IsIntegral := by
  induction h with
  | null => exact .null
  | boolean b => exact .boolean b
  | int hl hg => exact .int hl hg
  | string text => exact .string text
  | array _ ih =>
    rw [Value.sorted, sortedItems_eq_map]
    exact .array (List.forall_mem_map.mpr ih)
  | object _ ih =>
    rw [Value.sorted]
    refine .object fun m hm => ?_
    obtain ⟨n, hn, rfl⟩ := List.mem_map.mp ((sortedMembers_perm [] _).mem_iff.mp hm)
    exact ih n hn

end Value

end ReplicaWatch.Json
