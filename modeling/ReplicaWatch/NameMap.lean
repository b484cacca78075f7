/-!
# Finite maps from names

A `NameMap` keeps its entries in ascending order of their names (by code point), so two maps with the same
entries are equal.

- `get?`, `insert`, `erase`, `size`;
- the view of every operation through `get?` (`get?_insert`, `get?_erase`) and what it does to `size`
  (`size_insert_of_absent`, `size_insert_of_present`, `size_erase`);
- `ext_get?`: maps that answer alike are equal.
-/

namespace ReplicaWatch

/-- A finite map from names, its entries in strictly ascending order. -/
structure NameMap (α : Type) where
  /-- The entries, each name once. -/
  entries : List (String × α)
  /-- Names ascend strictly. -/
  ascending : entries.Pairwise (fun a b => a.1 < b.1)
deriving DecidableEq

namespace NameMap

variable {α : Type}

/-- Two different names are ordered one way or the other. -/
theorem lt_of_not_lt_of_ne {a b : String} (h : ¬a < b) (hne : a ≠ b) : b < a :=
  Decidable.byContradiction fun h' =>
    hne (String.le_antisymm (String.not_lt.mp h') (String.not_lt.mp h))

/-! ## Entries in ascending order -/

def find (name : String) : List (String × α) → Option α
  | [] => none
  | (k, v) :: rest => if k = name then some v else find name rest

/-- Puts an entry where its name belongs, in place of an entry of that name. -/
def place (name : String) (value : α) : List (String × α) → List (String × α)
  | [] => [(name, value)]
  | (k, v) :: rest =>
    if name < k then (name, value) :: (k, v) :: rest
    else if name = k then (name, value) :: rest
    else (k, v) :: place name value rest

/-- Every name after a placement is the placed one or an old one. -/
theorem mem_place {name : String} {value : α} {l : List (String × α)} {e : String × α}
    (h : e ∈ place name value l) : e = (name, value) ∨ e ∈ l := by
  induction l with
  | nil => simpa [place] using h
  | cons x rest ih =>
    obtain ⟨k, v⟩ := x
    unfold place at h
    split at h
    · simpa using h
    · split at h
      · simp only [List.mem_cons] at h ⊢
        rcases h with h | h
        · exact Or.inl h
        · exact Or.inr (Or.inr h)
      · simp only [List.mem_cons] at h ⊢
        rcases h with h | h
        · exact Or.inr (Or.inl h)
        · rcases ih h with h | h
          · exact Or.inl h
          · exact Or.inr (Or.inr h)

theorem ascending_place {name : String} {value : α} {l : List (String × α)}
    (h : l.Pairwise (fun a b => a.1 < b.1)) : (place name value l).Pairwise (fun a b => a.1 < b.1) := by
  induction l with
  | nil => simp [place]
  | cons x rest ih =>
    obtain ⟨k, v⟩ := x
    have hx : ∀ e ∈ rest, k < e.1 := fun e he => List.rel_of_pairwise_cons h he
    have hrest := h.tail
    unfold place
    split
    · rename_i hlt
      refine List.Pairwise.cons ?_ h
      intro e he
      rcases List.mem_cons.mp he with rfl | he
      · exact hlt
      · exact String.lt_trans hlt (hx e he)
    · split
      · rename_i heq
        subst heq
        exact List.Pairwise.cons (fun e he => hx e he) hrest
      · rename_i hlt hne
        refine List.Pairwise.cons ?_ (ih hrest)
        intro e he
        rcases mem_place he with rfl | he
        · exact lt_of_not_lt_of_ne hlt hne
        · exact hx e he

/-- Every entry but those of one name. -/
def dropName (name : String) : List (String × α) → List (String × α)
  | [] => []
  | (k, v) :: rest => if k = name then dropName name rest else (k, v) :: dropName name rest

/-- What is left was there before. -/
theorem mem_of_mem_dropName {name : String} {l : List (String × α)} {e : String × α}
    (h : e ∈ dropName name l) : e ∈ l := by
  induction l with
  | nil => simp [dropName] at h
  | cons x rest ih =>
    unfold dropName at h
    split at h
    · exact List.mem_cons_of_mem _ (ih h)
    · rcases List.mem_cons.mp h with rfl | h
      · exact List.mem_cons_self
      · exact List.mem_cons_of_mem _ (ih h)

theorem ascending_dropName (name : String) {l : List (String × α)}
    (h : l.Pairwise (fun a b => a.1 < b.1)) : (dropName name l).Pairwise (fun a b => a.1 < b.1) := by
  induction l with
  | nil => exact h
  | cons x rest ih =>
    unfold dropName
    split
    · exact ih h.tail
    · exact List.Pairwise.cons
        (fun e he => List.rel_of_pairwise_cons h (mem_of_mem_dropName he)) (ih h.tail)

/-- A dropped name is not found, and every other name keeps its entry. -/
theorem find_dropName {name other : String} (l : List (String × α)) :
    find other (dropName name l) = if name = other then none else find other l := by
  induction l with
  | nil => simp [dropName, find]
  | cons x rest ih =>
    obtain ⟨k, v⟩ := x
    by_cases hk : k = name
    · subst hk
      by_cases h : k = other
      · subst h
        simp [dropName, ih]
      · simp [dropName, find, ih, h]
    · by_cases h : k = other
      · subst h
        simp [dropName, find, hk, Ne.symm hk]
      · simp [dropName, find, hk, h, ih]

/-- Dropping a name that is not there changes nothing. -/
theorem dropName_eq_self {name : String} {l : List (String × α)} (h : ∀ e ∈ l, e.1 ≠ name) :
    dropName name l = l := by
  induction l with
  | nil => rfl
  | cons x rest ih =>
    obtain ⟨k, v⟩ := x
    simp [dropName, h (k, v) (by simp), ih (fun e he => h e (by simp [he]))]

/-- A name below every entry has no entry. -/
theorem find_eq_none {name : String} {l : List (String × α)} (h : ∀ e ∈ l, e.1 ≠ name) :
    find name l = none := by
  induction l with
  | nil => rfl
  | cons x rest ih =>
    obtain ⟨k, v⟩ := x
    simp [find, h (k, v) (by simp), ih (fun e he => h e (by simp [he]))]

/-- A placed entry is found under its name, and every other name keeps its entry. -/
theorem find_place {name other : String} {value : α} (l : List (String × α)) :
    find other (place name value l) = if name = other then some value else find other l := by
  induction l with
  | nil => simp [place, find]
  | cons x rest ih =>
    obtain ⟨k, v⟩ := x
    unfold place
    split
    · simp [find]
    · split
      · rename_i heq
        subst heq
        by_cases h : name = other <;> simp [find, h]
      · rename_i hne
        by_cases h : k = other
        · subst h
          simp [find, hne]
        · simp [find, h, ih]

/-- Two ascending lists that find the same entries are the same list. -/
theorem eq_of_find {l r : List (String × α)} (hl : l.Pairwise (fun a b => a.1 < b.1))
    (hr : r.Pairwise (fun a b => a.1 < b.1)) (h : ∀ name, find name l = find name r) : l = r := by
  induction l generalizing r with
  | nil =>
    cases r with
    | nil => rfl
    | cons y r =>
      have := h y.1
      simp [find] at this
  | cons x l ih =>
    cases r with
    | nil =>
      have := h x.1
      simp [find] at this
    | cons y r =>
      have above {a : String × α} {s : List (String × α)} (hs : (a :: s).Pairwise (fun a b => a.1 < b.1))
          {n : String} (hn : n < a.1 ∨ n = a.1) : find n s = none := by
        refine find_eq_none fun e he heq => ?_
        have hlt := List.rel_of_pairwise_cons hs he
        rw [heq] at hlt
        rcases hn with hn | hn
        · exact String.lt_asymm hn hlt
        · exact String.lt_irrefl _ (hn ▸ hlt)
      have hkey : x.1 = y.1 := by
        refine Decidable.byContradiction fun hne => ?_
        by_cases hlt : x.1 < y.1
        · have hx := h x.1
          simp [find, Ne.symm hne, above hr (Or.inl hlt)] at hx
        · have hy := h y.1
          simp [find, hne, above hl (Or.inl (lt_of_not_lt_of_ne hlt hne))] at hy
      have hvalue : x.2 = y.2 := by
        have hx := h x.1
        simpa [find, hkey] using hx
      have htail : l = r := by
        refine ih hl.tail hr.tail fun name => ?_
        by_cases hn : x.1 = name
        · subst hn
          rw [above hl (Or.inr rfl), above hr (Or.inr hkey)]
        · have := h name
          simpa [find, hn, hkey ▸ hn] using this
      rw [htail, Prod.ext hkey hvalue]

/-! ## Maps -/

def empty : NameMap α := ⟨[], List.Pairwise.nil⟩

instance : Inhabited (NameMap α) := ⟨empty⟩

def get? (m : NameMap α) (name : String) : Option α := find name m.entries

/-- Gives a name a value, in place of an earlier one. -/
def insert (m : NameMap α) (name : String) (value : α) : NameMap α :=
  ⟨place name value m.entries, ascending_place m.ascending⟩

/-- Takes a name out of the map. -/
def erase (m : NameMap α) (name : String) : NameMap α :=
  ⟨dropName name m.entries, ascending_dropName name m.ascending⟩

def size (m : NameMap α) : Nat := m.entries.length

def isEmpty (m : NameMap α) : Bool := m.entries.isEmpty

@[simp] theorem get?_empty (name : String) : (empty : NameMap α).get? name = none := rfl

/-- A value put in is found under its name only. -/
theorem get?_insert (m : NameMap α) (name other : String) (value : α) :
    (m.insert name value).get? other = if name = other then some value else m.get? other :=
  find_place m.entries

@[simp] theorem get?_insert_self (m : NameMap α) (name : String) (value : α) :
    (m.insert name value).get? name = some value := by simp [get?_insert]

/-- A value put in leaves every other name alone. -/
theorem get?_insert_of_ne (m : NameMap α) {name other : String} (value : α) (h : name ≠ other) :
    (m.insert name value).get? other = m.get? other := by simp [get?_insert, h]

/-- A name taken out is not found, and every other name is left alone. -/
theorem get?_erase (m : NameMap α) (name other : String) :
    (m.erase name).get? other = if name = other then none else m.get? other :=
  find_dropName m.entries

/-- Maps that answer alike are equal. -/
theorem ext_get? {m n : NameMap α} (h : ∀ name, m.get? name = n.get? name) : m = n := by
  obtain ⟨l, hl⟩ := m
  obtain ⟨r, hr⟩ := n
  have := eq_of_find hl hr h
  subst this
  rfl

/-- Values put in under different names do not depend on their order. -/
theorem insert_comm (m : NameMap α) {name other : String} {value value' : α} (h : name ≠ other) :
    (m.insert name value).insert other value' = (m.insert other value').insert name value := by
  refine ext_get? fun key => ?_
  simp only [get?_insert]
  split
  · rename_i ho
    rw [if_neg (fun hn => h (hn.trans ho.symm))]
  · rfl

/-- The length of a list after a placement. -/
theorem length_place (name : String) (value : α) {l : List (String × α)}
    (h : l.Pairwise (fun a b => a.1 < b.1)) :
    (place name value l).length = if (find name l).isSome then l.length else l.length + 1 := by
  induction l with
  | nil => simp [place, find]
  | cons x rest ih =>
    obtain ⟨k, v⟩ := x
    unfold place
    split
    · rename_i hlt
      have hne : k ≠ name := fun e => String.lt_irrefl _ (e ▸ hlt)
      have : find name rest = none := by
        refine find_eq_none fun e he heq => ?_
        have := List.rel_of_pairwise_cons h he
        rw [heq] at this
        exact String.lt_asymm this hlt
      simp [find, hne, this]
    · split
      · rename_i heq
        subst heq
        simp [find]
      · rename_i hne
        have hne' : k ≠ name := fun e => hne e.symm
        simp only [List.length_cons, find, hne', if_false, ih h.tail]
        split <;> rfl

/-- A new name adds one entry. -/
theorem size_insert_of_absent {m : NameMap α} {name : String} (value : α) (h : m.get? name = none) :
    (m.insert name value).size = m.size + 1 := by
  have := length_place name value m.ascending
  unfold get? at h
  simp [size, insert, this, h]

/-- A known name adds none. -/
theorem size_insert_of_present {m : NameMap α} {name : String} {old : α} (value : α)
    (h : m.get? name = some old) : (m.insert name value).size = m.size := by
  have := length_place name value m.ascending
  unfold get? at h
  simp [size, insert, this, h]

/-- Taking out a name that is there removes one entry. -/
theorem size_erase {m : NameMap α} {name : String} {old : α} (h : m.get? name = some old) :
    (m.erase name).size + 1 = m.size := by
  obtain ⟨l, hl⟩ := m
  unfold get? at h
  unfold size erase
  simp only at h ⊢
  induction l with
  | nil => simp [find] at h
  | cons x rest ih =>
    obtain ⟨k, v⟩ := x
    by_cases hk : k = name
    · subst hk
      have hall : dropName k rest = rest := by
        refine dropName_eq_self fun e he e' => ?_
        have := List.rel_of_pairwise_cons hl he
        exact String.lt_irrefl _ (e' ▸ this)
      simp [dropName, hall]
    · have := ih hl.tail (by simpa [find, hk] using h)
      simp [dropName, hk, this]

end NameMap

end ReplicaWatch
