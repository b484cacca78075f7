import Mathlib.Data.List.TakeWhile
import ReplicaWatch.Monitor.Step

/-!
# Reading a feed of lines

A feed yields the same whether its bytes arrive in pieces or all at once: a step of reading that finds a complete line
finds the same one however the input goes on.

- `Feed.completed`: a feed once the rest of its input has arrived;
- `Feed.next_completed`: a step of reading that finds something finds the same in the completed feed;
- `Feed.readThrough`: everything that a feed yields, step by step, until it ends or nothing more has arrived;
- `Feed.lines`, `Feed.lines_cut`: the lines of a text; `Feed.yields`, `Feed.readThrough_of_hasEnded`: what a completed
  feed yields, line by line.
-/

namespace ReplicaWatch

open Monitor

/-- What reading a line gives. -/
def LineReading.taken : LineReading → Taken
  | blank => .skipped
  | signal s => .signal s
  | garbled _ _ => .skipped
  | notText _ => .ended

/-- What is reported of a line. -/
def LineReading.notices : LineReading → List Notice
  | blank => []
  | signal _ => []
  | garbled fault text => [.lineUnreadable fault.message text]
  | notText fault => [.streamFailed fault.message]

/-- What is seen of a step of reading; a signal that is found is taken. -/
def Taken.shown (taken : Taken) (notices : List Notice) : List Observation :=
  match taken with
  | .signal s => notices.map .notice ++ [.ingested s]
  | _ => notices.map .notice

/-- Whether reading goes on after a step. -/
def Taken.hasMore : Taken → Bool
  | .skipped => true
  | .signal _ => true
  | _ => false

namespace Feed

variable {f g : Feed} {taken : Taken} {notices : List Notice} {bytes line rest : List UInt8} {hasEnded : Bool}

/-! ## One step -/

/-- A complete line is the same however the input goes on. -/
theorem takeLine_append (h : takeLine bytes hasEnded = some (line, rest)) {more : List UInt8}
    (hmore : hasEnded = true → more = []) : takeLine (bytes ++ more) true = some (line, rest ++ more) := by
  unfold takeLine at h ⊢
  split at h
  · rename_i c r hd
    cases h
    have hne : (bytes.dropWhile fun b => b != lineEnd).isEmpty = false := by rw [hd]; rfl
    have hshort : (bytes.takeWhile fun b => b != lineEnd).length ≠ bytes.length := by
      have hcut := congrArg List.length (List.takeWhile_append_dropWhile (p := fun b => b != lineEnd) (l := bytes))
      rw [List.length_append, hd, List.length_cons] at hcut
      omega
    rw [List.dropWhile_append, List.takeWhile_append, hne, if_neg hshort, hd]
    rfl
  · rename_i hd
    split at h
    · rename_i hc
      cases h
      obtain ⟨he, hne⟩ := Bool.and_eq_true_iff.mp hc
      rw [hmore he, List.append_nil, hd]
      simp [hne]
    · cases h

/-- A step of reading that finds a complete line. -/
theorem next_of_takeLine (ho : f.isOpen = true) (h : takeLine f.unread f.hasEnded = some (line, rest)) :
    f.next = ((LineReading.ofBytes (withoutLineEnd line)).taken, { f with unread := rest },
      (LineReading.ofBytes (withoutLineEnd line)).notices) := by
  unfold next
  rw [ho, h]
  cases hr : LineReading.ofBytes (withoutLineEnd line) <;> simp [hr, LineReading.taken, LineReading.notices]

/-- A step of reading that finds no complete line. -/
theorem next_of_takeLine_none (ho : f.isOpen = true) (h : takeLine f.unread f.hasEnded = none) :
    f.next = (if f.hasEnded then .ended else .nothing, f, []) := by
  simp [next, ho, h]

theorem next_of_not_isOpen (ho : f.isOpen = false) : f.next = (.ended, f, []) := by
  simp [next, ho]

/-- Reading on uses up bytes. -/
theorem next_shorter (h : f.next = (taken, g, notices)) (hm : taken.hasMore = true) :
    g.unread.length < f.unread.length := by
  cases ho : f.isOpen with
  | false =>
    cases (next_of_not_isOpen ho).symm.trans h
    cases hm
  | true =>
    cases ht : takeLine f.unread f.hasEnded with
    | none =>
      cases (next_of_takeLine_none ho ht).symm.trans h
      split at hm <;> cases hm
    | some p =>
      cases (next_of_takeLine ho ht).symm.trans h
      exact takeLine_shorter ht

/-- Reading does not tell the end of the input. -/
theorem hasEnded_of_next (h : f.next = (taken, g, notices)) : g.hasEnded = f.hasEnded := by
  cases ho : f.isOpen with
  | false => cases (next_of_not_isOpen ho).symm.trans h; rfl
  | true =>
    cases ht : takeLine f.unread f.hasEnded with
    | none => cases (next_of_takeLine_none ho ht).symm.trans h; rfl
    | some p => cases (next_of_takeLine ho ht).symm.trans h; rfl

/-- A feed once the rest of its input has arrived. -/
def completed (f : Feed) (rest : List UInt8) : Feed := { f with unread := f.unread ++ rest, hasEnded := true }

/-- **A step of reading that finds something** finds the same however the input goes on. -/
theorem next_completed (h : f.next = (taken, g, notices)) (hn : taken ≠ .nothing)
    (hrest : f.hasEnded = true → rest = []) : (f.completed rest).next = (taken, g.completed rest, notices) := by
  cases ho : f.isOpen with
  | false =>
    cases (next_of_not_isOpen ho).symm.trans h
    exact next_of_not_isOpen ho
  | true =>
    cases ht : takeLine f.unread f.hasEnded with
    | none =>
      cases (next_of_takeLine_none ho ht).symm.trans h
      cases he : f.hasEnded with
      | false =>
        rw [he] at hn
        exact absurd rfl hn
      | true =>
        have ht' : takeLine (f.completed rest).unread true = none := by
          rw [completed, hrest he, List.append_nil, ← he]
          exact ht
        exact next_of_takeLine_none ho ht'
    | some p =>
      cases (next_of_takeLine ho ht).symm.trans h
      exact next_of_takeLine ho (takeLine_append ht hrest)

/-! ## All steps -/

/-- Everything that a feed yields, until it ends or nothing more has arrived. -/
def readThrough (f : Feed) : List Observation :=
  match _h : f.next with
  | (taken, g, notices) => taken.shown notices ++ if _hm : taken.hasMore = true then g.readThrough else []
termination_by f.unread.length
decreasing_by exact next_shorter _h _hm

theorem readThrough_of_next (h : f.next = (taken, g, notices)) :
    f.readThrough = taken.shown notices ++ if taken.hasMore = true then g.readThrough else [] := by
  rw [readThrough]
  split
  rename_i h'
  cases h.symm.trans h'
  simp

/-! ## Line by line -/

/-- The lines of a text, each with its line end; the last one may lack it. -/
def lines (bytes : List UInt8) : List (List UInt8) :=
  match _h : takeLine bytes true with
  | none => []
  | some (line, rest) => line :: lines rest
termination_by bytes.length
decreasing_by exact takeLine_shorter _h

theorem lines_of_takeLine_none (h : takeLine bytes true = none) : lines bytes = [] := by
  rw [lines]
  split
  · rfl
  · rename_i h'
    cases h.symm.trans h'

theorem lines_of_takeLine (h : takeLine bytes true = some (line, rest)) : lines bytes = line :: lines rest := by
  rw [lines]
  split
  · rename_i h'
    cases h.symm.trans h'
  · rename_i h'
    cases h.symm.trans h'
    rfl

/-- When the input has ended, there is a line as long as there is a byte. -/
theorem eq_nil_of_takeLine_none (h : takeLine bytes true = none) : bytes = [] := by
  unfold takeLine at h
  split at h
  · cases h
  · simpa using h

/-- A line end stands at the end of a line only, and is missing only if nothing follows. -/
theorem lineEnd_of_takeLine (h : takeLine bytes true = some (line, rest)) :
    lineEnd ∉ line.dropLast ∧ (line.getLast? = some lineEnd ∨ rest = []) := by
  unfold takeLine at h
  split at h
  · rename_i c r hd
    cases h
    have hc : c = lineEnd := by
      have hnot := List.head_dropWhile_not (fun b => b != lineEnd) (l := bytes) (by rw [hd]; nofun)
      simp only [hd, List.head_cons] at hnot
      simpa using hnot
    refine ⟨?_, Or.inl (by simp [hc])⟩
    rw [List.dropLast_concat]
    intro hmem
    have hbefore := List.mem_takeWhile_imp hmem
    simp at hbefore
  · rename_i hd
    split at h <;> cases h
    refine ⟨fun hmem => ?_, Or.inr rfl⟩
    have hall := List.dropWhile_eq_nil_iff.mp hd _ (List.dropLast_subset _ hmem)
    simp at hall

/-- **The lines of a text** make it up, and a line end stands at the end of a line and nowhere else; only the last
line may lack it. -/
theorem lines_cut (bytes : List UInt8) :
    (lines bytes).flatten = bytes ∧ (∀ line ∈ lines bytes, lineEnd ∉ line.dropLast) ∧
      ∀ line ∈ (lines bytes).dropLast, line.getLast? = some lineEnd := by
  cases ht : takeLine bytes true with
  | none =>
    rw [lines_of_takeLine_none ht, eq_nil_of_takeLine_none ht]
    exact ⟨rfl, nofun, nofun⟩
  | some p =>
    obtain ⟨line, rest⟩ := p
    have hlt := takeLine_shorter ht
    obtain ⟨hflat, hinner, hends⟩ := lines_cut rest
    obtain ⟨hline, hend⟩ := lineEnd_of_takeLine ht
    rw [lines_of_takeLine ht]
    refine ⟨?_, ?_, ?_⟩
    · rw [List.flatten_cons, hflat, append_of_takeLine ht]
    · intro l hl
      rcases List.mem_cons.mp hl with rfl | hl
      · exact hline
      · exact hinner l hl
    · intro l hl
      cases hr : lines rest with
      | nil => rw [hr] at hl; cases hl
      | cons next more =>
        rw [hr, List.dropLast_cons_cons] at hl
        rcases List.mem_cons.mp hl with rfl | hl
        · refine hend.resolve_right fun hnil => ?_
          rw [hnil, lines_of_takeLine_none rfl] at hr
          cases hr
        · rw [hr] at hends
          exact hends l hl
termination_by bytes.length

/-- What lines yield, up to the first that is no text. -/
def yields : List (List UInt8) → List Observation
  | [] => []
  | line :: rest =>
    let reading := LineReading.ofBytes (withoutLineEnd line)
    reading.taken.shown reading.notices ++ if reading.taken.hasMore then yields rest else []

/-- **A feed whose input has arrived** yields what its lines yield. -/
theorem readThrough_of_hasEnded (f : Feed) (ho : f.isOpen = true) (he : f.hasEnded = true) :
    f.readThrough = yields (lines f.unread) := by
  cases ht : takeLine f.unread true with
  | none =>
    rw [readThrough_of_next (next_of_takeLine_none ho (he ▸ ht)), lines_of_takeLine_none ht, he]
    rfl
  | some p =>
    obtain ⟨line, rest⟩ := p
    have hlt := takeLine_shorter ht
    rw [readThrough_of_next (next_of_takeLine ho (he ▸ ht)), lines_of_takeLine ht,
      readThrough_of_hasEnded { f with unread := rest } ho he]
    rfl
termination_by f.unread.length

end Feed

end ReplicaWatch
