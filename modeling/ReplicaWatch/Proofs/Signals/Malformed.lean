import ReplicaWatch.Proofs.Monitor.Run
import ReplicaWatch.Proofs.Signals.Reading

/-!
# Lines that are no signals

A line that is text and no signal is reported and passed over, so the signals of the lines after it are read all the
same. A line that is no text ends the stream: whatever follows it is not read.

- `Feed.ofBytes`, `Feed.signals`, `Feed.reports`: an input that is there at once, and what reading it gives;
- `Feed.lines_append`, `Feed.yields_append`: an input that is cut at a line end is read part by part;
- `Feed.malformed_line_passed_over`: what a line that is no signal does to the reading of the input around it.
-/

namespace ReplicaWatch

open Monitor

/-- The signal that is taken, if one is. -/
def Monitor.Observation.signal? : Observation → Option Signal
  | .ingested s => some s
  | _ => none

namespace LineReading

/-- What a line says, given with its line end. -/
def ofLine (line : List UInt8) : LineReading := ofBytes (Feed.withoutLineEnd line)

/-- Whether a line is text. -/
def isText : LineReading → Bool
  | notText _ => false
  | _ => true

/-- Whether there is nothing on a line. -/
def isBlank : LineReading → Bool
  | blank => true
  | _ => false

/-- Whether a line is a signal. -/
def isSignal : LineReading → Bool
  | signal _ => true
  | _ => false

@[simp] theorem hasMore_taken (r : LineReading) : r.taken.hasMore = r.isText := by cases r <;> rfl

/-- What is seen of a line that is no signal is what is reported of it. -/
theorem shown_of_isSignal_eq_false {r : LineReading} (hr : r.isSignal = false) :
    r.taken.shown r.notices = r.notices.map .notice := by
  cases r with
  | signal => cases hr
  | blank | garbled | notText => rfl

/-- A line that is no signal is reported once, and not at all if there is nothing on it. -/
theorem length_notices {r : LineReading} (hr : r.isSignal = false) :
    r.notices.length = if r.isBlank then 0 else 1 := by
  cases r with
  | signal => cases hr
  | blank | garbled | notText => rfl

end LineReading

namespace Feed

variable {before line after : List UInt8}

/-! ## An input that is there at once -/

/-- A feed whose whole input is there. -/
def ofBytes (bytes : List UInt8) : Feed := { unread := bytes, hasEnded := true }

/-- The signals that reading an input gives, in their order. -/
def signals (bytes : List UInt8) : List Signal := (ofBytes bytes).readThrough.filterMap Observation.signal?

/-- What is reported when an input is read. -/
def reports (bytes : List UInt8) : List Notice := (ofBytes bytes).readThrough.filterMap Observation.notice?

/-- All lines of an input are text. -/
def IsText (bytes : List UInt8) : Prop := ∀ line ∈ lines bytes, (LineReading.ofLine line).isText = true

instance (bytes : List UInt8) : Decidable (IsText bytes) :=
  inferInstanceAs (Decidable (∀ line ∈ lines bytes, (LineReading.ofLine line).isText = true))

theorem readThrough_ofBytes (bytes : List UInt8) : (ofBytes bytes).readThrough = yields (lines bytes) :=
  readThrough_of_hasEnded _ rfl rfl

/-! ## Cuts at a line end -/

/-- The first line of an input goes up to the first line end, whatever follows. -/
theorem takeLine_of_lineEnd (hl : lineEnd ∉ line) (hasEnded : Bool) :
    takeLine (line ++ lineEnd :: after) hasEnded = some (line ++ [lineEnd], after) := by
  have hall : ∀ b ∈ line, (b != lineEnd) = true := fun b hb => bne_iff_ne.mpr fun h => hl (h ▸ hb)
  unfold takeLine
  rw [List.takeWhile_append_of_pos hall, List.dropWhile_append_of_pos hall]
  simp

/-- **An input that is cut at a line end** has the lines of its two parts. -/
theorem lines_append {before : List UInt8} (hb : before = [] ∨ before.getLast? = some lineEnd) (after : List UInt8) :
    lines (before ++ after) = lines before ++ lines after := by
  rcases hb with rfl | hlast
  · rw [show lines [] = [] from lines_of_takeLine_none rfl]
    rfl
  · obtain ⟨line, rest, hcut, hl⟩ := List.eq_append_cons_of_mem (List.mem_of_getLast? hlast)
    have hlt : rest.length < before.length := by
      rw [hcut, List.length_append, List.length_cons]
      omega
    have hrest : rest = [] ∨ rest.getLast? = some lineEnd := by
      rw [hcut, List.getLast?_append, List.getLast?_cons] at hlast
      cases hr : rest.getLast? with
      | none => exact Or.inl (List.getLast?_eq_none_iff.mp hr)
      | some b =>
        rw [hr] at hlast
        exact Or.inr hlast
    rw [hcut, List.append_assoc, List.cons_append, lines_of_takeLine (takeLine_of_lineEnd hl true),
      lines_of_takeLine (takeLine_of_lineEnd hl true), lines_append hrest after, List.cons_append]
termination_by before.length

/-- What lines yield up to a cut, and beyond it if all lines before it are text. -/
theorem yields_append (ls ms : List (List UInt8)) :
    yields (ls ++ ms) = yields ls ++ if ∀ l ∈ ls, (LineReading.ofLine l).isText = true then yields ms else [] := by
  induction ls with
  | nil => simp [yields]
  | cons l ls ih =>
    have hl : LineReading.ofBytes (withoutLineEnd l) = LineReading.ofLine l := rfl
    rw [List.cons_append, yields, yields, ih, hl]
    cases ht : (LineReading.ofLine l).isText with
    | false => simp [ht]
    | true => simp [ht]

/-- Reading an input that is cut at a line end gives what its first part gives, and then what its second part gives
if all lines of the first are text. -/
theorem readThrough_append (hb : before = [] ∨ before.getLast? = some lineEnd) (after : List UInt8) :
    (ofBytes (before ++ after)).readThrough =
      (ofBytes before).readThrough ++ if IsText before then (ofBytes after).readThrough else [] := by
  simp only [readThrough_ofBytes]
  rw [lines_append hb, yields_append]
  rfl

theorem signals_append (hb : before = [] ∨ before.getLast? = some lineEnd) (after : List UInt8) :
    signals (before ++ after) = signals before ++ if IsText before then signals after else [] := by
  unfold signals
  rw [readThrough_append hb, List.filterMap_append]
  split <;> rfl

theorem reports_append (hb : before = [] ∨ before.getLast? = some lineEnd) (after : List UInt8) :
    reports (before ++ after) = reports before ++ if IsText before then reports after else [] := by
  unfold reports
  rw [readThrough_append hb, List.filterMap_append]
  split <;> rfl

/-! ## One line more -/

/-- Reading a line that is no signal, and what follows it. -/
theorem readThrough_of_malformed (hl : lineEnd ∉ line) (hs : (LineReading.ofLine (line ++ [lineEnd])).isSignal = false)
    (after : List UInt8) :
    (ofBytes (line ++ lineEnd :: after)).readThrough =
      (LineReading.ofLine (line ++ [lineEnd])).notices.map .notice ++
        if (LineReading.ofLine (line ++ [lineEnd])).isText = true then (ofBytes after).readThrough else [] := by
  have hr : LineReading.ofBytes (withoutLineEnd (line ++ [lineEnd])) = LineReading.ofLine (line ++ [lineEnd]) := rfl
  rw [readThrough_ofBytes, lines_of_takeLine (takeLine_of_lineEnd hl true), yields, hr,
    LineReading.shown_of_isSignal_eq_false hs, LineReading.hasMore_taken, readThrough_ofBytes]

theorem signals_of_malformed (hl : lineEnd ∉ line) (hs : (LineReading.ofLine (line ++ [lineEnd])).isSignal = false)
    (after : List UInt8) :
    signals (line ++ lineEnd :: after) =
      if (LineReading.ofLine (line ++ [lineEnd])).isText = true then signals after else [] := by
  have hnone (notices : List Notice) : (notices.map Observation.notice).filterMap Observation.signal? = [] := by
    rw [List.filterMap_map]
    exact List.filterMap_eq_nil_iff.mpr fun _ _ => rfl
  unfold signals
  rw [readThrough_of_malformed hl hs, List.filterMap_append, hnone, List.nil_append]
  split <;> rfl

theorem reports_of_malformed (hl : lineEnd ∉ line) (hs : (LineReading.ofLine (line ++ [lineEnd])).isSignal = false)
    (after : List UInt8) :
    reports (line ++ lineEnd :: after) = (LineReading.ofLine (line ++ [lineEnd])).notices ++
      if (LineReading.ofLine (line ++ [lineEnd])).isText = true then reports after else [] := by
  unfold reports
  rw [readThrough_of_malformed hl hs, List.filterMap_append, filterMap_notice?]
  split <;> rfl

/-- **A line that is no signal is passed over**, if it is text: the signals are those without it, and all else is
reported as without it. It is reported once, and not at all if there is nothing on it. If it is no text, it is reported
and nothing that follows is read. -/
theorem malformed_line_passed_over (before line after : List UInt8)
    (hb : before = [] ∨ before.getLast? = some lineEnd) (hl : lineEnd ∉ line)
    (hs : (LineReading.ofLine (line ++ [lineEnd])).isSignal = false) :
    let reading := LineReading.ofLine (line ++ [lineEnd])
    reading.notices.length = (if reading.isBlank then 0 else 1) ∧
    (reading.isText = true →
      signals (before ++ (line ++ lineEnd :: after)) = signals (before ++ after) ∧
      (IsText before → reports (before ++ after) = reports before ++ reports after ∧
        reports (before ++ (line ++ lineEnd :: after)) = reports before ++ (reading.notices ++ reports after))) ∧
    (reading.isText = false → IsText before →
      signals (before ++ (line ++ lineEnd :: after)) = signals before ∧
      reports (before ++ (line ++ lineEnd :: after)) = reports before ++ reading.notices) := by
  intro reading
  rw [signals_append hb, signals_append hb, reports_append hb, reports_append hb, signals_of_malformed hl hs,
    reports_of_malformed hl hs]
  refine ⟨LineReading.length_notices hs, fun ht => ⟨?_, fun hbefore => ?_⟩, fun ht hbefore => ?_⟩
  · rw [if_pos ht]
  · rw [if_pos ht, if_pos hbefore, if_pos hbefore]
    exact ⟨rfl, rfl⟩
  · rw [ht, if_pos hbefore, if_pos hbefore, if_neg Bool.false_ne_true, if_neg Bool.false_ne_true]
    exact ⟨List.append_nil _, congrArg _ (List.append_nil _)⟩

/-- A signal on a line of its own. -/
def signalLine (resource : String) : List UInt8 :=
  Text.encodeUtf8 ("\x7b\"resource_name\":\"" ++ resource ++ "\"\x7d\n")

theorem number_between_signals_passed_over :
    let input := signalLine "a" ++ (Text.encodeUtf8 "\t7\r" ++ lineEnd :: signalLine "b")
    signals input = [⟨"a", false⟩, ⟨"b", false⟩] ∧
      reports input = [.lineUnreadable "invalid type: integer `7`, expected struct EligibilityEvent" "7"] := by
  intro input
  have hbefore : IsText (signalLine "a") := by decide +kernel
  have htext : (LineReading.ofLine (Text.encodeUtf8 "\t7\r" ++ [lineEnd])).isText = true := by decide +kernel
  obtain ⟨hsignals, hreports⟩ := (malformed_line_passed_over (signalLine "a") (Text.encodeUtf8 "\t7\r")
    (signalLine "b") (Or.inr (by decide +kernel)) (by decide +kernel) (by decide +kernel)).2.1 htext
  have hwithout : signals (signalLine "a" ++ signalLine "b") = [⟨"a", false⟩, ⟨"b", false⟩] := by decide +kernel
  have hline : reports (signalLine "a") ++ ((LineReading.ofLine (Text.encodeUtf8 "\t7\r" ++ [lineEnd])).notices ++
      reports (signalLine "b")) =
        [.lineUnreadable "invalid type: integer `7`, expected struct EligibilityEvent" "7"] := by decide +kernel
  exact ⟨hsignals.trans hwithout, (hreports hbefore).2.trans hline⟩

/-- It is not so that a line never ends the reading of the lines after it. -/
theorem line_without_text_ends_reading :
    ¬ ∀ before line after, before = [] ∨ before.getLast? = some lineEnd → lineEnd ∉ line →
      (LineReading.ofLine (line ++ [lineEnd])).isSignal = false →
      signals (before ++ (line ++ lineEnd :: after)) = signals (before ++ after) := by
  intro hall
  have hsame := hall [] [0xFF] (signalLine "a") (Or.inl rfl) (by decide) (by decide)
  have hwithout : signals ([] ++ signalLine "a") = [⟨"a", false⟩] := by decide +kernel
  have hwith : signals ([] ++ ([0xFF] ++ lineEnd :: signalLine "a")) = [] := by decide +kernel
  rw [hwithout, hwith] at hsame
  cases hsame

end Feed

end ReplicaWatch
