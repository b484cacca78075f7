import ReplicaWatch.Proofs.Json.Written

/-!
# Values on lines of their own

Between quotation marks a line end is escaped, and nothing else that is written has one, so a written value stays
on one line (`Value.lineEnd_notMem_chars`). Hence texts that are written one behind another, each on a line of its
own, are told apart by cutting at the line ends (`splitOn_lines`).
-/

namespace ReplicaWatch.Json

theorem lineEnd_notMem_escapeChar (c : Char) : '\n' ∉ Quoted.escapeChar c := by
  have hdigit : ∀ n < 16, '\n' ≠ Quoted.hexDigit n := by decide
  unfold Quoted.escapeChar
  repeat' split
  all_goals try decide
  · rename_i hc
    have hhigh := hdigit (c.toNat / 16) (by omega)
    have hlow := hdigit (c.toNat % 16) (by omega)
    simp [hhigh, hlow]
  · rename_i hc _ _ _ _ _
    simpa using Ne.symm hc

theorem lineEnd_notMem_quoted (s : String) : '\n' ∉ Quoted.quoted s := by
  simp [Quoted.quoted, Quoted.escape, lineEnd_notMem_escapeChar]

namespace Value

theorem lineEnd_notMem_writeNumber (digits : Int) (places : Nat) : '\n' ∉ writeNumber digits places := by
  have hsign : '\n' ∉ if digits < 0 then ['-'] else [] := by
    split <;> decide
  have hdigits : '\n' ∉ Nat.toDigits 10 digits.natAbs := fun h =>
    absurd (Nat.isDigit_of_mem_toDigits (by decide) (by decide) h) (by decide)
  have hzeros (n : Nat) : '\n' ∉ List.replicate n '0' ++ Nat.toDigits 10 digits.natAbs := by
    rw [List.mem_append, not_or]
    exact ⟨fun h => absurd (List.eq_of_mem_replicate h) (by decide), hdigits⟩
  unfold writeNumber
  by_cases h : places = 0
  · simp only [if_pos h, List.mem_append, not_or]
    exact ⟨hsign, hdigits⟩
  · simp only [if_neg h, List.mem_append, List.mem_cons, not_or]
    exact ⟨⟨hsign, fun h => hzeros _ (List.mem_of_mem_take h)⟩, by decide,
      fun h => hzeros _ (List.mem_of_mem_drop h)⟩

theorem lineEnd_notMem_itemChars {items : List Value} (h : ∀ v ∈ items, '\n' ∉ v.chars) :
    '\n' ∉ itemChars items := by
  match items with
  | [] => decide
  | [v] => simpa [itemChars] using h
  | v :: w :: rest =>
    obtain ⟨hv, hrest⟩ := List.forall_mem_cons.mp h
    simpa [itemChars] using And.intro hv (lineEnd_notMem_itemChars hrest)

theorem lineEnd_notMem_memberChars {members : List (String × Value)} (h : ∀ m ∈ members, '\n' ∉ m.2.chars) :
    '\n' ∉ memberChars members := by
  match members with
  | [] => decide
  | [(name, v)] => simpa [memberChars, lineEnd_notMem_quoted] using h
  | (name, v) :: m :: rest =>
    obtain ⟨hv, hrest⟩ := List.forall_mem_cons.mp h
    simpa [memberChars, lineEnd_notMem_quoted] using And.intro hv (lineEnd_notMem_memberChars hrest)

/-- **A written value stays on one line.** -/
theorem lineEnd_notMem_chars (v : Value) : '\n' ∉ v.chars := by
  induction v using induct with
  | null => decide
  | boolean b => cases b <;> decide
  | number digits places => exact lineEnd_notMem_writeNumber digits places
  | string text => exact lineEnd_notMem_quoted text
  | array items ih => simpa [chars] using lineEnd_notMem_itemChars ih
  | object members ih => simpa [chars] using lineEnd_notMem_memberChars ih

/-- A value is read from its line, whether the line end is there or not. -/
theorem readText_line (v : Value) : readText (String.ofList (v.chars ++ ['\n'])) = ⟨v.tree, true⟩ := by
  refine readText_eq_iff.mpr ⟨v.isWhole_tree, ?_⟩
  have hend : Spelled [] ['\n'] := .blanks (List.forall_mem_singleton.mpr rfl)
  simpa using v.spelled_chars.append hend

end Value

/-- Lines put one behind another are cut apart at the line ends. -/
theorem splitOn_lines {lines : List (List Char)} (h : ∀ line ∈ lines, '\n' ∉ line) :
    (lines.flatMap (· ++ ['\n'])).splitOn '\n' = lines ++ [[]] := by
  induction lines with
  | nil => rfl
  | cons line rest ih =>
    obtain ⟨hline, hrest⟩ := List.forall_mem_cons.mp h
    rw [List.flatMap_cons, List.append_assoc, List.singleton_append,
      List.splitOn_append_cons_self_of_not_mem hline, ih hrest, List.cons_append]

end ReplicaWatch.Json
