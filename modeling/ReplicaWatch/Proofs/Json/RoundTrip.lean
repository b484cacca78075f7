import ReplicaWatch.Proofs.Json.Tolerance
import ReplicaWatch.Proofs.Json.Written

/-!
# Reading what has been written

Two judgements about decoders, each with one rule for every way to build a decoder:

- `Decoder.Reads d v a`: the text of `v` is read as `a` wherever `v` does not nest too deep. For records, the members
  must follow the fields in their order, and a field that is left out must not be required (`Fills`);
- `Decoder.Ensures d Q`: whatever is read has the property `Q`, which may depend on how deep the value may nest.
-/

namespace ReplicaWatch.Json

namespace Value

theorem itemsDepth_lt_iff {items : List Value} {n : Nat} : itemsDepth items < n ↔ 0 < n ∧ ∀ v ∈ items, v.depth < n := by
  induction items with
  | nil => simp [itemsDepth]
  | cons v rest ih =>
    simp only [itemsDepth, Nat.max_lt, ih, List.forall_mem_cons]
    tauto

theorem membersDepth_lt_iff {members : List (String × Value)} {n : Nat} :
    membersDepth members < n ↔ 0 < n ∧ ∀ m ∈ members, m.2.depth < n := by
  induction members with
  | nil => simp [membersDepth]
  | cons m rest ih =>
    simp only [membersDepth, Nat.max_lt, ih, List.forall_mem_cons]
    tauto

/-- How deep an array nests. -/
theorem depth_array_lt_iff {items : List Value} {n : Nat} :
    (Value.array items).depth < n + 1 ↔ 0 < n ∧ ∀ v ∈ items, v.depth < n := by
  rw [depth, Nat.add_lt_add_iff_right, itemsDepth_lt_iff]

/-- How deep an object nests. -/
theorem depth_object_lt_iff {members : List (String × Value)} {n : Nat} :
    (Value.object members).depth < n + 1 ↔ 0 < n ∧ ∀ m ∈ members, m.2.depth < n := by
  rw [depth, Nat.add_lt_add_iff_right, membersDepth_lt_iff]

end Value

namespace Decoder

/-- Arrays and objects may be entered if anything may stand inside of them. -/
theorem enter_eq_ok_iff {depth inside : Nat} : enter depth = .ok inside ↔ 0 < inside ∧ depth = inside + 1 := by
  unfold enter
  split
  · simp only [reduceCtorEq, false_iff]
    omega
  · simp only [Except.ok.injEq]
    omega

section Values

variable {α β : Type} {d : Decoder α} {v : Value} {a : α}

/-- **A written value is read**, wherever it does not nest too deep. -/
def Reads (d : Decoder α) (v : Value) (a : α) : Prop := ∀ ⦃depth⦄, v.depth < depth → d depth v.tree = .ok a

/-! ## Scalars -/

theorem reads_stringAs (expected text : String) : (stringAs expected).Reads (.string text) text := fun _ _ => rfl

theorem reads_boolean (b : Bool) : boolean.Reads (.boolean b) b := fun _ _ => rfl

theorem reads_integer {least greatest i : Int} (kind : String) (hi : least ≤ i ∧ i ≤ greatest)
    (hl : -(Numeral.signedBound : Int) ≤ i) (hg : i < Numeral.unsignedBound) :
    (integer least greatest kind).Reads (.int i) i := by
  intro depth _
  simp only [integer, Value.int, Value.tree, Tree.found?, Scalar.found?, Numeral.value?_ofDecimal hl hg, Option.map_some,
    if_pos hi]

theorem reads_natural {greatest n : Nat} (kind : String) (hn : n ≤ greatest) (hg : n < Numeral.unsignedBound) :
    (natural greatest kind).Reads (.nat n) n := by
  intro depth hdepth
  have h := reads_integer (i := n) kind ⟨Int.natCast_nonneg n, Int.ofNat_le.mpr hn⟩ (by omega) (Int.ofNat_lt.mpr hg)
  have h : integer 0 greatest kind depth (Value.nat n).tree = .ok n := h hdepth
  rw [natural, h]
  rfl

theorem Reads.map (h : d.Reads v a) (f : α → β) : Reads (fun depth t => (d depth t).map f) v (f a) := by
  intro depth hdepth
  exact map_eq_ok_iff.mpr ⟨a, h hdepth, rfl⟩

theorem Reads.nullable {members : List (String × Value)} (h : d.Reads (.object members) a) :
    (nullable d).Reads (.object members) (some a) := h.map some

/-! ## Sequences and maps -/

variable {encode : α → Value}

theorem reads_sequence {as : List α} (h : ∀ a ∈ as, d.Reads (encode a) a) :
    (sequence d).Reads (.array (as.map encode)) as := by
  intro depth hdepth
  obtain ⟨inside, rfl⟩ := Nat.exists_eq_add_one_of_ne_zero (Nat.ne_zero_of_lt hdepth)
  obtain ⟨hinside, hitems⟩ := Value.depth_array_lt_iff.mp hdepth
  have hall : items d inside ((as.map encode).map Value.tree) = .ok as := by
    clear hdepth
    induction as with
    | nil => rfl
    | cons a as ih =>
      obtain ⟨ha, has⟩ := List.forall_mem_cons.mp h
      simp only [List.map_cons, List.forall_mem_cons] at hitems
      exact bind_eq_ok_iff.mpr ⟨a, ha hitems.1, bind_eq_ok_iff.mpr ⟨as, ih has hitems.2, rfl⟩⟩
  rw [Value.tree, Value.itemTrees_eq_map]
  exact bind_eq_ok_iff.mpr ⟨inside, enter_eq_ok_iff.mpr ⟨hinside, rfl⟩, bind_eq_ok_iff.mpr ⟨as, hall, rfl⟩⟩

/-- Reading ascending entries gives a map that finds them, and besides them what it has found before. -/
theorem exists_entries {l : List (String × α)} (hl : l.Pairwise fun e f => e.1 < f.1) {depth : Nat}
    (h : ∀ e ∈ l, d depth (encode e.2).tree = .ok e.2) (m : NameMap α) :
    ∃ r, entries d depth m (l.map fun e => (some e.1, (encode e.2).tree)) = .ok r ∧
      ∀ name, r.get? name = (NameMap.find name l).or (m.get? name) := by
  induction l generalizing m with
  | nil => exact ⟨m, rfl, fun _ => rfl⟩
  | cons e l ih =>
    obtain ⟨he, hrest⟩ := List.forall_mem_cons.mp h
    obtain ⟨r, hr, hfind⟩ := ih hl.tail hrest (m.insert e.1 e.2)
    refine ⟨r, entries_cons_iff.mpr ⟨_, _, rfl, he, hr⟩, fun name => ?_⟩
    rw [hfind, NameMap.get?_insert, NameMap.find]
    by_cases hname : e.1 = name
    · have : NameMap.find name l = none := NameMap.find_eq_none fun f hf heq =>
        String.lt_irrefl _ (hname ▸ heq ▸ List.rel_of_pairwise_cons hl hf)
      simp [hname, this]
    · simp [hname]

theorem reads_dictionary {m : NameMap α} (h : ∀ a, d.Reads (encode a) a) :
    (dictionary d).Reads (.object (m.entries.map fun e => (e.1, encode e.2))) m := by
  intro depth hdepth
  obtain ⟨inside, rfl⟩ := Nat.exists_eq_add_one_of_ne_zero (Nat.ne_zero_of_lt hdepth)
  obtain ⟨hinside, hmembers⟩ := Value.depth_object_lt_iff.mp hdepth
  obtain ⟨r, hr, hfind⟩ := exists_entries m.ascending
    (fun e he => h e.2 (hmembers _ (List.mem_map_of_mem he))) NameMap.empty
  obtain rfl : r = m := NameMap.ext_get? fun name => by rw [hfind, NameMap.get?_empty, Option.or_none]; rfl
  rw [Value.tree, Value.memberTrees_eq_map, List.map_map]
  exact bind_eq_ok_iff.mpr ⟨inside, enter_eq_ok_iff.mpr ⟨hinside, rfl⟩, bind_eq_ok_iff.mpr ⟨r, hr, rfl⟩⟩

end Values

/-! ## Records -/

section Records

variable {α : Type} {fs all : List (Field α)} {ms : List (String × Value)} {a b : α}

/-- **Members fill the fields of a record**, from one record to another: they are values of the fields in their own
order, and no field that is left out is required. -/
inductive Fills : List (Field α) → List (String × Value) → α → α → Prop
  | done (a : α) : Fills [] [] a a
  | member {f : Field α} {fs : List (Field α)} {v : Value} {ms : List (String × Value)} {change : α → α} {a b : α} :
      f.read.Reads v change → Fills fs ms (change a) b → Fills (f :: fs) ((f.name, v) :: ms) a b
  | omitted {f : Field α} {fs : List (Field α)} {ms : List (String × Value)} {a b : α} : f.required = false →
      Fills fs ms a b → Fills (f :: fs) ms a b

theorem find?_of_nodup (hn : (fs.map Field.name).Nodup) {f : Field α} (hf : f ∈ fs) :
    fs.find? (fun g => g.name = f.name) = some f := by
  induction fs with
  | nil => cases hf
  | cons g fs ih =>
    obtain ⟨hg, hfs⟩ := List.nodup_cons.mp hn
    rcases List.mem_cons.mp hf with rfl | hf
    · exact List.find?_cons_of_pos (by simp)
    · have hne : g.name ≠ f.name := fun h => hg (h ▸ List.mem_map_of_mem hf)
      rw [List.find?_cons_of_neg (by simpa using hne)]
      exact ih hfs hf

/-- Members that fill fields are read one after the other, and no required field is missing then. -/
theorem Fills.members (h : Fills fs ms a b) (hall : ∀ f ∈ fs, all.find? (fun g => g.name = f.name) = some f)
    (hn : (fs.map Field.name).Nodup) {depth : Nat} (hdepth : ∀ m ∈ ms, m.2.depth < depth) (seen : List String)
    (hseen : ∀ f ∈ fs, f.name ∉ seen) :
    ∃ seen', Decoder.members all depth seen a (Value.memberTrees ms) = .ok (seen', b) ∧ seen ⊆ seen' ∧
      ∀ f ∈ fs, f.required = true → f.name ∈ seen' := by
  induction h generalizing seen with
  | done a => exact ⟨seen, rfl, List.Subset.refl _, by simp⟩
  | @member f fs v ms change a b hread _ ih =>
    obtain ⟨hf, hfs⟩ := List.nodup_cons.mp hn
    obtain ⟨hfind, hall⟩ := List.forall_mem_cons.mp hall
    obtain ⟨hv, hms⟩ := List.forall_mem_cons.mp hdepth
    obtain ⟨hnew, hseen⟩ := List.forall_mem_cons.mp hseen
    have hseen' : ∀ g ∈ fs, g.name ∉ f.name :: seen := fun g hg h =>
      (List.mem_cons.mp h).elim (fun h => hf (h ▸ List.mem_map_of_mem hg)) (hseen g hg)
    obtain ⟨seen', hr, hsub, hrequired⟩ := ih hall hfs hms _ hseen'
    obtain ⟨hname, hsub⟩ := List.cons_subset.mp hsub
    exact ⟨seen', members_cons_iff.mpr ⟨_, rfl, Or.inr ⟨f, change, hfind, hnew, hread hv, hr⟩⟩, hsub,
      List.forall_mem_cons.mpr ⟨fun _ => hname, hrequired⟩⟩
  | omitted hoptional _ ih =>
    obtain ⟨seen', hr, hsub, hrequired⟩ := ih (List.forall_mem_cons.mp hall).2 (List.nodup_cons.mp hn).2 hdepth seen
      (List.forall_mem_cons.mp hseen).2
    exact ⟨seen', hr, hsub, List.forall_mem_cons.mpr ⟨fun h => (by rw [hoptional] at h; cases h), hrequired⟩⟩

/-- **A record is read from members that fill its fields.** -/
theorem reads_record {name : String} {start : α} (hn : (fs.map Field.name).Nodup) (h : Fills fs ms start a) :
    (record name start fs).Reads (.object ms) a := by
  intro depth hdepth
  obtain ⟨inside, rfl⟩ := Nat.exists_eq_add_one_of_ne_zero (Nat.ne_zero_of_lt hdepth)
  obtain ⟨hinside, hmembers⟩ := Value.depth_object_lt_iff.mp hdepth
  obtain ⟨seen, hr, -, hrequired⟩ := h.members (fun f hf => find?_of_nodup hn hf) hn hmembers [] (by simp)
  have hmissing : ensureRequired fs seen = .ok () := by
    have hnone : fs.find? (fun f => f.required && !(seen.contains f.name)) = none := by
      refine List.find?_eq_none.mpr fun f hf => ?_
      cases hreq : f.required with
      | false => simp
      | true => simpa using hrequired f hf hreq
    rw [ensureRequired, hnone]
  exact bind_eq_ok_iff.mpr ⟨inside, enter_eq_ok_iff.mpr ⟨hinside, rfl⟩, bind_eq_ok_iff.mpr ⟨(seen, a), hr,
    bind_eq_ok_iff.mpr ⟨(), rfl, bind_eq_ok_iff.mpr ⟨(), hmissing, rfl⟩⟩⟩⟩

end Records

/-! ## What is read -/

section Results

variable {α β : Type} {d : Decoder α} {Q : Nat → α → Prop}

/-- **Whatever is read has a property.** -/
def Ensures (d : Decoder α) (Q : Nat → α → Prop) : Prop := ∀ ⦃depth t a⦄, d depth t = .ok a → Q depth a

theorem ensures_true (d : Decoder α) : d.Ensures fun _ _ => True := fun _ _ _ _ => trivial

theorem ensures_integer (least greatest : Int) (kind : String) :
    (integer least greatest kind).Ensures fun _ i => least ≤ i ∧ i ≤ greatest := by
  intro depth t i h
  unfold integer at h
  split at h
  · split at h
    · cases h
      assumption
    · cases h
  · cases h

theorem ensures_natural (greatest : Nat) (kind : String) : (natural greatest kind).Ensures fun _ n => n ≤ greatest := by
  intro depth t n h
  obtain ⟨i, hi, rfl⟩ := map_eq_ok_iff.mp h
  have := ensures_integer _ _ _ hi
  omega

theorem Ensures.nullable (h : d.Ensures Q) : (nullable d).Ensures fun depth o => ∀ a ∈ o, Q depth a := by
  intro depth t o ho a ha
  unfold Decoder.nullable at ho
  split at ho
  · cases ho
    cases ha
  · obtain ⟨b, hb, rfl⟩ := map_eq_ok_iff.mp ho
    cases ha
    exact h hb

theorem Ensures.items (h : d.Ensures Q) {depth : Nat} {ts : List Tree} {as : List α} (has : items d depth ts = .ok as) :
    ∀ a ∈ as, Q depth a := by
  induction ts generalizing as with
  | nil =>
    cases has
    simp
  | cons t ts ih =>
    obtain ⟨a, ha, hrest⟩ := bind_eq_ok_iff.mp has
    obtain ⟨rest, hts, hrest⟩ := bind_eq_ok_iff.mp hrest
    cases hrest
    exact List.forall_mem_cons.mpr ⟨h ha, ih hts⟩

theorem Ensures.sequence (h : d.Ensures Q) :
    (sequence d).Ensures fun depth as => ∃ inside, 0 < inside ∧ depth = inside + 1 ∧ ∀ a ∈ as, Q inside a := by
  intro depth t as ht
  unfold Decoder.sequence at ht
  split at ht
  · rename_i ts closed
    obtain ⟨inside, henter, hrest⟩ := bind_eq_ok_iff.mp ht
    obtain ⟨as', has, hrest⟩ := bind_eq_ok_iff.mp hrest
    obtain ⟨_, -, hrest⟩ := bind_eq_ok_iff.mp hrest
    cases hrest
    obtain ⟨hinside, hdepth⟩ := enter_eq_ok_iff.mp henter
    exact ⟨inside, hinside, hdepth, h.items has⟩
  · cases ht

theorem ensures_dictionary (d : Decoder α) : (dictionary d).Ensures fun depth _ => 1 < depth := by
  intro depth t m ht
  unfold dictionary at ht
  split at ht
  · obtain ⟨inside, henter, -⟩ := bind_eq_ok_iff.mp ht
    obtain ⟨hinside, rfl⟩ := enter_eq_ok_iff.mp henter
    omega
  · cases ht

variable {fs : List (Field α)}

/-- Reading a field keeps a property of the record. -/
def Keeps (P : Nat → α → Prop) (f : Field α) : Prop :=
  f.read.Ensures fun depth change => ∀ a, P (depth + 1) a → P (depth + 1) (change a)

/-- A field keeps what setting it to the values that are read keeps. -/
theorem keeps_of {P : Nat → α → Prop} {R : Nat → β → Prop} {d : Decoder β} {set : β → α → α} {name : String}
    {required : Bool} (hd : d.Ensures R) (h : ∀ depth b a, R depth b → P (depth + 1) a → P (depth + 1) (set b a)) :
    Keeps P (.of name required d set) := by
  intro depth t change hc a ha
  obtain ⟨b, hb, rfl⟩ := map_eq_ok_iff.mp hc
  exact h depth b a (hd hb) ha

theorem members_keep {depth : Nat} {P : α → Prop} {seen : List String} {a : α} {ms : List (Option String × Tree)}
    {r : List String × α} (hr : members fs depth seen a ms = .ok r) (ha : P a)
    (hf : ∀ f ∈ fs, ∀ t change b, f.read depth t = .ok change → P b → P (change b)) : P r.2 := by
  induction ms generalizing seen a with
  | nil =>
    cases hr
    exact ha
  | cons m ms ih =>
    obtain ⟨name, -, ⟨-, hr⟩ | ⟨f, change, hfind, -, hc, hr⟩⟩ := members_cons_iff.mp hr
    · exact ih hr ha
    · exact ih hr (hf f (List.mem_of_find?_eq_some hfind) _ _ _ hc ha)

theorem elements_keep {depth : Nat} {P : α → Prop} {record : String} {size count : Nat} {closed : Bool} {a r : α}
    {ts : List Tree} (hr : elements record size depth closed fs count a ts = .ok r) (ha : P a)
    (hf : ∀ f ∈ fs, ∀ t change b, f.read depth t = .ok change → P b → P (change b)) : P r := by
  induction fs generalizing count a ts with
  | nil =>
    cases ts with
    | nil =>
      obtain ⟨_, -, hr⟩ := bind_eq_ok_iff.mp hr
      cases hr
      exact ha
    | cons => cases hr
  | cons f fs ih =>
    obtain ⟨hf, hfs⟩ := List.forall_mem_cons.mp hf
    cases ts with
    | nil =>
      unfold elements at hr
      split at hr
      · cases hr
      · split at hr
        · cases hr
        · exact ih hr ha hfs
    | cons t ts =>
      obtain ⟨change, hc, hr⟩ := bind_eq_ok_iff.mp hr
      exact ih hr (hf _ _ _ hc ha) hfs

/-- **A record has a property** if the record that says nothing has it and every field keeps it. -/
theorem ensures_record {P : Nat → α → Prop} {name : String} {start : α}
    (hstart : ∀ inside, 0 < inside → P (inside + 1) start)
    (hf : ∀ f ∈ fs, Keeps P f) : (record name start fs).Ensures P := by
  intro depth t a ht
  have keep {inside : Nat} : ∀ f ∈ fs, ∀ t change b, f.read inside t = .ok change → P (inside + 1) b →
      P (inside + 1) (change b) := fun f hfs t change b hc hb => hf f hfs hc b hb
  unfold record at ht
  split at ht
  · obtain ⟨inside, henter, hrest⟩ := bind_eq_ok_iff.mp ht
    obtain ⟨⟨seen, b⟩, hr, hrest⟩ := bind_eq_ok_iff.mp hrest
    obtain ⟨_, -, hrest⟩ := bind_eq_ok_iff.mp hrest
    obtain ⟨_, -, hrest⟩ := bind_eq_ok_iff.mp hrest
    cases hrest
    obtain ⟨hinside, rfl⟩ := enter_eq_ok_iff.mp henter
    exact members_keep hr (hstart _ hinside) keep
  · obtain ⟨inside, henter, hr⟩ := bind_eq_ok_iff.mp ht
    obtain ⟨hinside, rfl⟩ := enter_eq_ok_iff.mp henter
    exact elements_keep hr (hstart _ hinside) keep
  · cases ht

end Results

end Decoder

end ReplicaWatch.Json
