import Mathlib.Data.List.Perm.Basic
import Mathlib.Data.List.Nodup
import Mathlib.Data.List.Pairwise
import Mathlib.Logic.Relation
import ReplicaWatch.Json.Decoder

/-!
# Edits that a reader does not notice

An `Edit` puts the members of an object into another order, or puts a member that no field asks for into an object
that is read as a record, at any depth of a value. What is read as a record is told by a `Shape`, given the fields of
all records. A decoder that reads a value of some shape reads the same after any edit: `Decoder.Tolerates`.

For records the argument goes over members: members that read like others (`ReadsLike`) may take their place, whatever
stands before and behind them, and all edits of the members of an object are of this kind.
-/

namespace ReplicaWatch.Json

/-- How a value is read: as a record, as a list of values of one shape, or without records inside. -/
inductive Shape (ρ : Type)
  | plain
  | list (item : Shape ρ)
  | record (name : ρ)

namespace Shape

variable {ρ : Type} (fields : ρ → List (String × Shape ρ))

/-- The shape of an item. A record may be given as a sequence of its fields. -/
def item : Shape ρ → Nat → Shape ρ
  | plain, _ => plain
  | list s, _ => s
  | record r, i => ((fields r)[i]?.map Prod.snd).getD plain

/-- The shape of a member. -/
def member : Shape ρ → Option String → Shape ρ
  | record r, some name => (((fields r).find? fun p => p.1 = name).map Prod.snd).getD plain
  | _, _ => plain

end Shape

/-- **One edit**, at one place of a value of some shape. -/
inductive Edit {ρ : Type} (fields : ρ → List (String × Shape ρ)) : Shape ρ → Tree → Tree → Prop
  /-- The members of an object that has no name twice are put into another order. -/
  | reorder {s : Shape ρ} {ms ms' : List (Option String × Tree)} {closed : Bool} : ms.Perm ms' →
      (ms.filterMap Prod.fst).Nodup → Edit fields s (.object ms closed) (.object ms' closed)
  /-- A member that is no field of a record is put into it, with any value. -/
  | insert {r : ρ} {before after : List (Option String × Tree)} {key : String} {t : Tree} {closed : Bool} :
      key ∉ (fields r).map Prod.fst →
      Edit fields (.record r) (.object (before ++ after) closed) (.object (before ++ (some key, t) :: after) closed)
  /-- An item is edited. -/
  | item {s : Shape ρ} {before after : List Tree} {t t' : Tree} {closed : Bool} :
      Edit fields (s.item fields before.length) t t' →
      Edit fields s (.array (before ++ t :: after) closed) (.array (before ++ t' :: after) closed)
  /-- The value of a member is edited. -/
  | member {s : Shape ρ} {before after : List (Option String × Tree)} {label : Option String} {t t' : Tree}
      {closed : Bool} : Edit fields (s.member fields label) t t' →
      Edit fields s (.object (before ++ (label, t) :: after) closed) (.object (before ++ (label, t') :: after) closed)

/-- Any number of edits. -/
abbrev Edited {ρ : Type} (fields : ρ → List (String × Shape ρ)) (s : Shape ρ) : Tree → Tree → Prop :=
  Relation.ReflTransGen (Edit fields s)

/-- What may be edited in a value without records inside may be edited in a value of any shape. -/
theorem Edit.of_plain {ρ : Type} {fields : ρ → List (String × Shape ρ)} {t t' : Tree} (h : Edit fields .plain t t')
    (s : Shape ρ) : Edit fields s t t' := by
  generalize hp : Shape.plain = p at h
  induction h generalizing s with
  | reorder hperm hn => exact .reorder hperm hn
  | insert => cases hp
  | item _ ih =>
    subst hp
    exact .item (ih _ rfl)
  | member _ ih =>
    subst hp
    exact .member (ih _ rfl)

/-- What two fields change in a record does not depend on which is read first. -/
def Field.Commutes {α : Type} (f g : Field α) : Prop :=
  ∀ ⦃depth t u change change'⦄, f.read depth t = .ok change → g.read depth u = .ok change' →
    ∀ a, change (change' a) = change' (change a)

instance {α : Type} : Std.Symm (@Field.Commutes α) :=
  ⟨fun _ _ h _ _ _ _ _ hg hf a => (h hf hg a).symm⟩

namespace Decoder

section Shapes

variable {ρ : Type} (fields : ρ → List (String × Shape ρ)) {α β : Type}

/-- **A decoder of values of some shape does not notice an edit.** -/
def Tolerates (s : Shape ρ) (d : Decoder α) : Prop :=
  ∀ ⦃depth t t' a⦄, Edit fields s t t' → d depth t = .ok a → d depth t' = .ok a

variable {fields} {s : Shape ρ}

theorem Tolerates.edited {d : Decoder α} (hd : d.Tolerates fields s) {depth : Nat} {t t' : Tree} {a : α}
    (h : Edited fields s t t') (ht : d depth t = .ok a) : d depth t' = .ok a := by
  induction h with
  | refl => exact ht
  | tail _ hedit ih => exact hd hedit ih

/-! ## Scalars -/

/-- A scalar has no place for an edit. -/
theorem tolerates_of_scalar {d : Decoder α} (h : ∀ {depth t a}, d depth t = .ok a → ∃ v, t = .scalar v) :
    d.Tolerates fields s := by
  intro depth t t' a hedit ht
  obtain ⟨v, rfl⟩ := h ht
  cases hedit

theorem Tolerates.map {d : Decoder α} (hd : d.Tolerates fields s) (f : α → β) :
    Tolerates fields s fun depth t => (d depth t).map f := by
  intro depth t t' b hedit ht
  obtain ⟨a, ha, rfl⟩ := map_eq_ok_iff.mp ht
  exact map_eq_ok_iff.mpr ⟨a, hd hedit ha, rfl⟩

theorem tolerates_stringAs (expected : String) : (stringAs expected).Tolerates fields s := by
  refine tolerates_of_scalar fun {depth t a} h => ?_
  unfold stringAs at h
  split at h
  · exact ⟨_, rfl⟩
  · cases h

theorem tolerates_boolean : boolean.Tolerates fields s := by
  refine tolerates_of_scalar fun {depth t a} h => ?_
  unfold boolean at h
  split at h
  · exact ⟨_, rfl⟩
  · cases h

theorem tolerates_integer (least greatest : Int) (kind : String) :
    (integer least greatest kind).Tolerates fields s := by
  refine tolerates_of_scalar fun {depth t a} h => ?_
  cases t with
  | scalar v => exact ⟨v, rfl⟩
  | array | object | broken => simp [integer, Tree.found?] at h

theorem tolerates_natural (greatest : Nat) (kind : String) : (natural greatest kind).Tolerates fields s :=
  (tolerates_integer 0 greatest kind).map Int.toNat


theorem Tolerates.nullable {d : Decoder α} (hd : d.Tolerates fields s) : (nullable d).Tolerates fields s := by
  intro depth t t' a hedit ht
  have hmap : (d depth t).map some = .ok a → (d depth t').map some = .ok a := fun h => hd.map some hedit h
  cases hedit <;> exact hmap ht

/-! ## Sequences and maps -/

theorem items_append {d : Decoder α} {depth : Nat} {before after after' : List Tree}
    (h : ∀ as, items d depth after = .ok as → items d depth after' = .ok as) {as : List α}
    (has : items d depth (before ++ after) = .ok as) : items d depth (before ++ after') = .ok as := by
  induction before generalizing as with
  | nil => exact h as has
  | cons t before ih =>
    obtain ⟨a, ha, hrest⟩ := bind_eq_ok_iff.mp has
    obtain ⟨rest, hr, hq⟩ := bind_eq_ok_iff.mp hrest
    exact bind_eq_ok_iff.mpr ⟨a, ha, bind_eq_ok_iff.mpr ⟨rest, ih hr, hq⟩⟩

theorem Tolerates.sequence {d : Decoder α} (hd : ∀ i, d.Tolerates fields (s.item fields i)) :
    (sequence d).Tolerates fields s := by
  intro depth t t' as hedit ht
  cases hedit with
  | reorder | insert | member => cases ht
  | item hedit =>
    obtain ⟨inside, henter, ht⟩ := bind_eq_ok_iff.mp ht
    obtain ⟨as', has, ht⟩ := bind_eq_ok_iff.mp ht
    refine bind_eq_ok_iff.mpr ⟨inside, henter, bind_eq_ok_iff.mpr ⟨as', items_append (fun bs hbs => ?_) has, ht⟩⟩
    obtain ⟨b, hb, hrest⟩ := bind_eq_ok_iff.mp hbs
    exact bind_eq_ok_iff.mpr ⟨b, hd _ hedit hb, hrest⟩

theorem entries_cons_iff {d : Decoder α} {depth : Nat} {m r : NameMap α} {label : Option String} {t : Tree}
    {rest : List (Option String × Tree)} : entries d depth m ((label, t) :: rest) = .ok r ↔
      ∃ name a, label = some name ∧ d depth t = .ok a ∧ entries d depth (m.insert name a) rest = .ok r := by
  cases label with
  | none => simp [entries]
  | some name => simp [entries, bind_eq_ok_iff]

theorem entries_append_iff {d : Decoder α} {depth : Nat} {m r : NameMap α}
    {before after : List (Option String × Tree)} : entries d depth m (before ++ after) = .ok r ↔
      ∃ m', entries d depth m before = .ok m' ∧ entries d depth m' after = .ok r := by
  induction before generalizing m with
  | nil => simp [entries]
  | cons x before ih =>
    obtain ⟨label, t⟩ := x
    simp only [List.cons_append, entries_cons_iff, ih]
    constructor
    · rintro ⟨name, a, hl, ha, m', hm', hr⟩
      exact ⟨m', ⟨name, a, hl, ha, hm'⟩, hr⟩
    · rintro ⟨m', ⟨name, a, hl, ha, hm'⟩, hr⟩
      exact ⟨name, a, hl, ha, m', hm', hr⟩

/-- The order of members does not matter if no name occurs twice. -/
theorem entries_perm {d : Decoder α} {depth : Nat} {ms ms' : List (Option String × Tree)} (h : ms.Perm ms')
    (hn : (ms.filterMap Prod.fst).Nodup) {m r : NameMap α} (hr : entries d depth m ms = .ok r) :
    entries d depth m ms' = .ok r := by
  induction h generalizing m with
  | nil => exact hr
  | cons x _ ih =>
    obtain ⟨label, t⟩ := x
    obtain ⟨name, a, rfl, ha, hrest⟩ := entries_cons_iff.mp hr
    exact entries_cons_iff.mpr ⟨name, a, rfl, ha, ih (List.nodup_cons.mp hn).2 hrest⟩
  | swap x y _ =>
    obtain ⟨xl, t⟩ := x
    obtain ⟨yl, u⟩ := y
    obtain ⟨yname, b, rfl, hb, hrest⟩ := entries_cons_iff.mp hr
    obtain ⟨xname, a, rfl, ha, hrest⟩ := entries_cons_iff.mp hrest
    have hne : yname ≠ xname := fun h => (List.nodup_cons.mp hn).1 (by simp [h])
    rw [m.insert_comm hne] at hrest
    exact entries_cons_iff.mpr ⟨xname, a, rfl, ha, entries_cons_iff.mpr ⟨yname, b, rfl, hb, hrest⟩⟩
  | trans h _ ih ih' => exact ih' ((h.filterMap _).nodup_iff.mp hn) (ih hn hr)

theorem Tolerates.dictionary {d : Decoder α} (hd : d.Tolerates fields .plain) :
    (dictionary d).Tolerates fields .plain := by
  intro depth t t' m hedit ht
  cases hedit with
  | item => cases ht
  | reorder hperm hn =>
    obtain ⟨inside, henter, ht⟩ := bind_eq_ok_iff.mp ht
    obtain ⟨r, hr, ht⟩ := bind_eq_ok_iff.mp ht
    exact bind_eq_ok_iff.mpr ⟨inside, henter, bind_eq_ok_iff.mpr ⟨r, entries_perm hperm hn hr, ht⟩⟩
  | member hedit =>
    obtain ⟨inside, henter, ht⟩ := bind_eq_ok_iff.mp ht
    obtain ⟨r, hr, ht⟩ := bind_eq_ok_iff.mp ht
    obtain ⟨m', hbefore, hafter⟩ := entries_append_iff.mp hr
    obtain ⟨name, a, hl, ha, hrest⟩ := entries_cons_iff.mp hafter
    have hr' := entries_append_iff.mpr ⟨m', hbefore, entries_cons_iff.mpr ⟨name, a, hl, hd hedit ha, hrest⟩⟩
    exact bind_eq_ok_iff.mpr ⟨inside, henter, bind_eq_ok_iff.mpr ⟨r, hr', ht⟩⟩

end Shapes

/-! ## Members of a record -/

section Records

variable {α : Type} {fs : List (Field α)} {depth : Nat}

/-- Reading a member passes over it or reads the field that it names. -/
theorem members_cons_iff {seen : List String} {a : α} {label : Option String} {t : Tree}
    {rest : List (Option String × Tree)} {r : List String × α} :
    members fs depth seen a ((label, t) :: rest) = .ok r ↔ ∃ name, label = some name ∧
      ((fs.find? (fun f => f.name = name) = none ∧ members fs depth seen a rest = .ok r) ∨
        ∃ f change, fs.find? (fun f => f.name = name) = some f ∧ name ∉ seen ∧ f.read depth t = .ok change ∧
          members fs depth (name :: seen) (change a) rest = .ok r) := by
  cases label with
  | none => simp [members]
  | some name =>
    rw [members]
    constructor
    · intro h
      refine ⟨name, rfl, ?_⟩
      split at h
      · exact Or.inl ⟨‹_›, h⟩
      · rename_i f hf
        split at h
        · cases h
        · obtain ⟨change, hc, hr⟩ := bind_eq_ok_iff.mp h
          exact Or.inr ⟨f, change, hf, ‹_›, hc, hr⟩
    · rintro ⟨_, hl, ⟨hnone, hr⟩ | ⟨f, change, hf, hnew, hc, hr⟩⟩
      · cases hl
        rw [hnone]
        exact hr
      · cases hl
        simp only [hf, if_neg hnew]
        exact bind_eq_ok_iff.mpr ⟨change, hc, hr⟩

/-- The same names have been seen. -/
def SeenAlike (seen seen' : List String) : Prop := ∀ name, name ∈ seen ↔ name ∈ seen'

theorem SeenAlike.cons {seen seen' : List String} (h : SeenAlike seen seen') (name : String) :
    SeenAlike (name :: seen) (name :: seen') := fun n => by simp [h n]

theorem seenAlike_swap (x y : String) (seen : List String) : SeenAlike (x :: y :: seen) (y :: x :: seen) :=
  fun n => by simp only [List.mem_cons]; tauto

/-- **Members read like others** if a record is the same after either, whatever has been read before. -/
def ReadsLike (fs : List (Field α)) (depth : Nat) (ms ms' : List (Option String × Tree)) : Prop :=
  ∀ ⦃seen seen' a r⦄, SeenAlike seen seen' → members fs depth seen a ms = .ok r →
    ∃ r', members fs depth seen' a ms' = .ok r' ∧ SeenAlike r.1 r'.1 ∧ r.2 = r'.2

namespace ReadsLike

variable {ms ms' ms'' : List (Option String × Tree)}

theorem cons (x : Option String × Tree) (h : ReadsLike fs depth ms ms') :
    ReadsLike fs depth (x :: ms) (x :: ms') := by
  intro seen seen' a r hs hr
  obtain ⟨label, t⟩ := x
  obtain ⟨name, rfl, ⟨hnone, hr⟩ | ⟨f, change, hf, hnew, hc, hr⟩⟩ := members_cons_iff.mp hr
  · obtain ⟨r', hr', halike⟩ := h hs hr
    exact ⟨r', members_cons_iff.mpr ⟨name, rfl, Or.inl ⟨hnone, hr'⟩⟩, halike⟩
  · obtain ⟨r', hr', halike⟩ := h (hs.cons name) hr
    exact ⟨r', members_cons_iff.mpr ⟨name, rfl, Or.inr ⟨f, change, hf, mt (hs name).mpr hnew, hc, hr'⟩⟩, halike⟩

theorem refl (ms : List (Option String × Tree)) : ReadsLike fs depth ms ms := by
  induction ms with
  | nil =>
    intro seen seen' a r hs hr
    cases hr
    exact ⟨_, rfl, hs, rfl⟩
  | cons x ms ih => exact ih.cons x

theorem trans (h : ReadsLike fs depth ms ms') (h' : ReadsLike fs depth ms' ms'') : ReadsLike fs depth ms ms'' := by
  intro seen seen' a r hs hr
  obtain ⟨r', hr', hs', ha⟩ := h (fun _ => Iff.rfl) hr
  obtain ⟨r'', hr'', hs'', ha'⟩ := h' hs hr'
  exact ⟨r'', hr'', fun n => (hs' n).trans (hs'' n), ha.trans ha'⟩

theorem append (before : List (Option String × Tree)) (h : ReadsLike fs depth ms ms') :
    ReadsLike fs depth (before ++ ms) (before ++ ms') := by
  induction before with
  | nil => exact h
  | cons x before ih => exact ih.cons x

/-- A member that is no field is passed over. -/
theorem insert {key : String} (h : fs.find? (fun f => f.name = key) = none) (t : Tree)
    (ms : List (Option String × Tree)) : ReadsLike fs depth ms ((some key, t) :: ms) := by
  intro seen seen' a r hs hr
  obtain ⟨r', hr', halike⟩ := refl ms hs hr
  exact ⟨r', members_cons_iff.mpr ⟨key, rfl, Or.inl ⟨h, hr'⟩⟩, halike⟩

/-- A value may be replaced by one that its field reads alike. -/
theorem member {label : Option String} {t t' : Tree} (h : ∀ name f change, label = some name →
      fs.find? (fun f => f.name = name) = some f → f.read depth t = .ok change → f.read depth t' = .ok change)
    (ms : List (Option String × Tree)) : ReadsLike fs depth ((label, t) :: ms) ((label, t') :: ms) := by
  intro seen seen' a r hs hr
  obtain ⟨name, rfl, ⟨hnone, hr⟩ | ⟨f, change, hf, hnew, hc, hr⟩⟩ := members_cons_iff.mp hr
  · obtain ⟨r', hr', halike⟩ := refl ms hs hr
    exact ⟨r', members_cons_iff.mpr ⟨name, rfl, Or.inl ⟨hnone, hr'⟩⟩, halike⟩
  · obtain ⟨r', hr', halike⟩ := refl ms (hs.cons name) hr
    exact ⟨r', members_cons_iff.mpr
      ⟨name, rfl, Or.inr ⟨f, change, hf, mt (hs name).mpr hnew, h name f change rfl hf hc, hr'⟩⟩, halike⟩

/-- Members may be read in any order if the fields commute. -/
theorem perm (hc : fs.Pairwise Field.Commutes) (h : ms.Perm ms') : ReadsLike fs depth ms ms' := by
  induction h with
  | nil => exact refl []
  | cons x _ ih => exact ih.cons x
  | trans _ _ ih ih' => exact ih.trans ih'
  | swap x y ms =>
    intro seen seen' a r hs hr
    obtain ⟨xlabel, t⟩ := x
    obtain ⟨ylabel, u⟩ := y
    -- two fields in a row are different ones, or the second would be a duplicate; the rest is passing over
    obtain ⟨yname, rfl, ⟨hny, hr⟩ | ⟨g, changey, hg, hnewy, hcy, hr⟩⟩ := members_cons_iff.mp hr
    · obtain ⟨r', hr', halike⟩ := (insert hny u ms).cons (xlabel, t) hs hr
      exact ⟨r', hr', halike⟩
    obtain ⟨xname, rfl, ⟨hnx, hr⟩ | ⟨f, changex, hf, hnewx, hcx, hr⟩⟩ := members_cons_iff.mp hr
    · obtain ⟨r', hr', halike⟩ := refl ms (hs.cons yname) hr
      have hy := members_cons_iff.mpr
        ⟨yname, rfl, Or.inr ⟨g, changey, hg, mt (hs yname).mpr hnewy, hcy, hr'⟩⟩
      exact ⟨r', members_cons_iff.mpr ⟨xname, rfl, Or.inl ⟨hnx, hy⟩⟩, halike⟩
    · obtain ⟨hne, hnewx⟩ := not_or.mp (mt List.mem_cons.mpr hnewx)
      have hfg : f ≠ g := by
        rintro rfl
        have h1 := List.find?_some hf
        have h2 := List.find?_some hg
        simp only [decide_eq_true_eq] at h1 h2
        exact hne (h1.symm.trans h2)
      have hcomm : f.Commutes g := hc.forall (List.mem_of_find?_eq_some hf) (List.mem_of_find?_eq_some hg) hfg
      rw [hcomm hcx hcy a] at hr
      obtain ⟨r', hr', halike⟩ := refl ms (fun n => ((hs.cons yname).cons xname n).trans
        (seenAlike_swap xname yname seen' n)) hr
      have hnewy' : yname ∉ xname :: seen' := fun h => (List.mem_cons.mp h).elim (fun h => hne h.symm)
        (mt (hs yname).mpr hnewy)
      have hy := members_cons_iff.mpr ⟨yname, rfl, Or.inr ⟨g, changey, hg, hnewy', hcy, hr'⟩⟩
      exact ⟨r', members_cons_iff.mpr
        ⟨xname, rfl, Or.inr ⟨f, changex, hf, mt (hs xname).mpr hnewx, hcx, hy⟩⟩, halike⟩

end ReadsLike

theorem ensureRequired_congr {seen seen' : List String} (h : SeenAlike seen seen') (fs : List (Field α)) :
    ensureRequired fs seen = ensureRequired fs seen' := by
  have : (fun f : Field α => f.required && !(seen.contains f.name)) =
      fun f => f.required && !(seen'.contains f.name) := by
    funext f
    rw [Bool.eq_iff_iff]
    simp [h f.name]
  rw [ensureRequired, ensureRequired, this]

/-- A record is the same after members that read like its own. -/
theorem ReadsLike.record {ms ms' : List (Option String × Tree)} {name : String} {start a : α} {closed : Bool}
    (h : ∀ depth, ReadsLike fs depth ms ms') (ha : record name start fs depth (.object ms closed) = .ok a) :
    record name start fs depth (.object ms' closed) = .ok a := by
  obtain ⟨inside, henter, ha⟩ := bind_eq_ok_iff.mp ha
  obtain ⟨⟨seen, b⟩, hr, ha⟩ := bind_eq_ok_iff.mp ha
  obtain ⟨⟨seen', b'⟩, hr', hseen, hb⟩ := h inside (fun _ => Iff.rfl) hr
  cases hb
  refine bind_eq_ok_iff.mpr ⟨inside, henter, bind_eq_ok_iff.mpr ⟨(seen', b), hr', ?_⟩⟩
  simpa only [ensureRequired_congr hseen] using ha

end Records

/-! ## Records -/

section Shapes

variable {ρ : Type} {fields : ρ → List (String × Shape ρ)} {α : Type} {fs : List (Field α)}
  {ps : List (String × Shape ρ)}

/-- The fields of a record have the names and shapes that are given. -/
def Conform (fields : ρ → List (String × Shape ρ)) : List (Field α) → List (String × Shape ρ) → Prop :=
  List.Forall₂ fun f p => f.name = p.1 ∧ f.read.Tolerates fields p.2

theorem Conform.find_eq_none (h : Conform fields fs ps) {key : String} (hkey : key ∉ ps.map Prod.fst) :
    fs.find? (fun f => f.name = key) = none := by
  induction h with
  | nil => rfl
  | cons hfp _ ih =>
    simp only [List.map_cons, List.mem_cons, not_or] at hkey
    rw [List.find?_cons_of_neg (by simpa [hfp.1] using Ne.symm hkey.1)]
    exact ih hkey.2

theorem Conform.tolerates_of_find (h : Conform fields fs ps) {name : String} {f : Field α}
    (hf : fs.find? (fun f => f.name = name) = some f) :
    f.read.Tolerates fields (((ps.find? fun p => p.1 = name).map Prod.snd).getD .plain) := by
  induction h with
  | nil => cases hf
  | @cons g p _ _ hgp _ ih =>
    by_cases hn : g.name = name
    · rw [List.find?_cons_of_pos (by simpa using hn)] at hf
      rw [List.find?_cons_of_pos (by simpa [← hgp.1] using hn)]
      cases hf
      exact hgp.2
    · rw [List.find?_cons_of_neg (by simpa using hn)] at hf
      rw [List.find?_cons_of_neg (by simpa [← hgp.1] using hn)]
      exact ih hf

/-- An item of a record that is given as a sequence may be edited. -/
theorem elements_edit {record : String} {size depth count : Nat} {closed : Bool} {a r : α} (h : Conform fields fs ps)
    {before after : List Tree} {t t' : Tree}
    (hedit : Edit fields ((ps[before.length]?.map Prod.snd).getD .plain) t t')
    (hr : elements record size depth closed fs count a (before ++ t :: after) = .ok r) :
    elements record size depth closed fs count a (before ++ t' :: after) = .ok r := by
  induction h generalizing before count a with
  | nil => cases before <;> cases hr
  | @cons f p _ _ hfp _ ih =>
    cases before with
    | nil =>
      obtain ⟨change, hc, hr⟩ := bind_eq_ok_iff.mp hr
      exact bind_eq_ok_iff.mpr ⟨change, hfp.2 hedit hc, hr⟩
    | cons x before =>
      obtain ⟨change, hc, hr⟩ := bind_eq_ok_iff.mp hr
      exact bind_eq_ok_iff.mpr ⟨change, hc, ih (by simpa using hedit) hr⟩

/-- **A record does not notice an edit** if none of its fields does and the order of its fields does not matter. -/
theorem tolerates_record {r : ρ} (name : String) (start : α) (hf : Conform fields fs (fields r))
    (hc : fs.Pairwise Field.Commutes) : (record name start fs).Tolerates fields (.record r) := by
  intro depth t t' a hedit ha
  cases hedit with
  | reorder hperm _ => exact ReadsLike.record (fun _ => .perm hc hperm) ha
  | insert hkey => exact ReadsLike.record (fun _ => .append _ (.insert (hf.find_eq_none hkey) _ _)) ha
  | member hedit =>
    refine ReadsLike.record (fun _ => .append _ (.member (fun name f change hl hfind hread => ?_) _)) ha
    subst hl
    exact hf.tolerates_of_find hfind hedit hread
  | item hedit =>
    obtain ⟨inside, henter, ha⟩ := bind_eq_ok_iff.mp ha
    exact bind_eq_ok_iff.mpr ⟨inside, henter, elements_edit hf hedit ha⟩

end Shapes

end Decoder

end ReplicaWatch.Json
