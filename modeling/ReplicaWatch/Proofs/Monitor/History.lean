import ReplicaWatch.Proofs.Monitor.Run

/-!
# The moments of a run, by number

A run is told as a history: what happened at which moment (`At`), what has been the case from a moment on (`After`),
and what was the case between two of them (`Through`). A history only grows at its end, so what has been told of it
stays true (`At.snoc`, `After.snoc`, `Through.snoc`).
-/

namespace ReplicaWatch.Monitor

variable {h : List Moment} {i j : Nat} {m n : Moment} {P : Moment → Prop}

/-- The moment with a number has a property. -/
def At (h : List Moment) (i : Nat) (P : Moment → Prop) : Prop := ∃ m, h[i]? = some m ∧ P m

/-- All moments after one have a property. -/
def After (h : List Moment) (i : Nat) (P : Moment → Prop) : Prop := ∀ j m, i < j → h[j]? = some m → P m

/-- All moments after one, up to another, have a property. -/
def Through (h : List Moment) (i j : Nat) (P : Moment → Prop) : Prop :=
  ∀ k m, i < k → k ≤ j → h[k]? = some m → P m

/-- The moments of a history that goes on. -/
theorem getElem?_snoc : (h ++ [m])[i]? = some n ↔ h[i]? = some n ∨ i = h.length ∧ n = m := by
  rcases Nat.lt_trichotomy i h.length with hi | hi | hi
  · rw [List.getElem?_append_left hi]
    exact ⟨Or.inl, fun hn => hn.resolve_right fun ⟨he, _⟩ => by omega⟩
  · subst hi
    have hnone : h[h.length]? = none := List.getElem?_eq_none (Nat.le_refl _)
    rw [List.getElem?_concat_length, hnone]
    constructor
    · rintro ⟨⟩
      exact Or.inr ⟨rfl, rfl⟩
    · rintro (hn | ⟨-, rfl⟩)
      · cases hn
      · rfl
  · have hnone : h[i]? = none := List.getElem?_eq_none (by omega)
    have hnone' : (h ++ [m])[i]? = none := List.getElem?_eq_none (by rw [List.length_append]; exact hi)
    rw [hnone, hnone']
    constructor
    · nofun
    · rintro (hn | ⟨he, -⟩)
      · cases hn
      · omega

theorem At.lt (hp : At h i P) : i < h.length := by
  obtain ⟨m, hm, -⟩ := hp
  exact (List.getElem?_eq_some_iff.mp hm).1

theorem At.snoc (hp : At h i P) (m : Moment) : At (h ++ [m]) i P := by
  obtain ⟨n, hn, hp⟩ := hp
  exact ⟨n, getElem?_snoc.mpr (Or.inl hn), hp⟩

theorem At.last (h : List Moment) (hp : P m) : At (h ++ [m]) h.length P :=
  ⟨m, getElem?_snoc.mpr (Or.inr ⟨rfl, rfl⟩), hp⟩

/-- What happens in a history that goes on has happened before, or happens now. -/
theorem At.snoc_cases (hp : At (h ++ [m]) i P) : At h i P ∨ i = h.length ∧ P m := by
  obtain ⟨n, hn, hp⟩ := hp
  rcases getElem?_snoc.mp hn with hn | ⟨hi, rfl⟩
  · exact Or.inl ⟨n, hn, hp⟩
  · exact Or.inr ⟨hi, hp⟩

theorem After.snoc (hp : After h i P) (hm : P m) : After (h ++ [m]) i P := by
  intro k n hk hn
  rcases getElem?_snoc.mp hn with hn | ⟨-, rfl⟩
  · exact hp k n hk hn
  · exact hm

/-- Nothing has come after the last moment. -/
theorem After.last (h : List Moment) (m : Moment) (P : Moment → Prop) : After (h ++ [m]) h.length P := by
  intro k n hk hn
  have hlt := (List.getElem?_eq_some_iff.mp hn).1
  rw [List.length_append, List.length_singleton] at hlt
  omega

theorem After.through (hp : After h i P) (j : Nat) : Through h i j P := fun k m hk _ hm => hp k m hk hm

theorem Through.snoc (hp : Through h i j P) (hj : j < h.length) (m : Moment) : Through (h ++ [m]) i j P := by
  intro k n hik hkj hn
  rcases getElem?_snoc.mp hn with hn | ⟨hk, -⟩
  · exact hp k n hik hkj hn
  · omega

/-- Nothing comes between a moment and itself. -/
theorem Through.refl (h : List Moment) (i : Nat) (P : Moment → Prop) : Through h i i P := by
  intro k n hik hki
  omega

end ReplicaWatch.Monitor
