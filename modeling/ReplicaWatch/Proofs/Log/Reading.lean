import ReplicaWatch.Log.Line
import ReplicaWatch.Proofs.Json.Lines
import ReplicaWatch.Proofs.Json.Rearrangement
import ReplicaWatch.Proofs.Text.Utf8

/-!
# Reading the log back

A line of the log is put together by hand, but it is the text of an object of texts (`Line.chars_eq`): what must
come first, then the fields as sorting leaves them. So it stays on one line whatever the fields are, and reading
it gives event and fields back, character by character.
-/

namespace ReplicaWatch.Log

open Json

theorem Severity.passes_iff {threshold severity : Severity} :
    threshold.passes severity = true ↔ threshold.rank ≤ severity.rank :=
  decide_eq_true_iff

/-- Fields sorted by the bytes of their names, and those of one name in the order given. -/
structure IsStablySorted (given sorted : List (String × String)) : Prop where
  perm : sorted.Perm given
  ascending : sorted.Pairwise fun f g => Text.encodeUtf8 f.1 ≤ Text.encodeUtf8 g.1
  stable : ∀ name, sorted.filter (·.1 = name) = given.filter (·.1 = name)

/-- An object all of whose members are texts. -/
def textsValue (members : List (String × String)) : Value := .object (members.map fun m => (m.1, .string m.2))

namespace Line

theorem isStablySorted_sortedFields (l : Line) : IsStablySorted l.fields l.sortedFields := by
  have htrans (f g h : String × String) (hfg : decide (f.1 ≤ g.1) = true) (hgh : decide (g.1 ≤ h.1) = true) :
      decide (f.1 ≤ h.1) = true := by
    rw [decide_eq_true_iff] at *
    exact String.le_trans hfg hgh
  have htotal (f g : String × String) : (decide (f.1 ≤ g.1) || decide (g.1 ≤ f.1)) = true := by
    simpa using String.le_total f.1 g.1
  have hperm : l.sortedFields.Perm l.fields := List.mergeSort_perm ..
  refine ⟨hperm, (List.pairwise_mergeSort htrans htotal _).imp fun h =>
    Text.encodeUtf8_le_iff.mpr (of_decide_eq_true h), fun name => ?_⟩
  -- fields of one name are in order already, so sorting keeps their order
  have hname : (l.fields.filter (·.1 = name)).Pairwise fun f g => decide (f.1 ≤ g.1) = true := by
    refine List.pairwise_of_forall_mem_list fun f hf g hg => ?_
    simp only [List.mem_filter, decide_eq_true_iff] at hf hg
    rw [hf.2, hg.2]
    exact decide_eq_true (String.le_refl name)
  have hsub : (l.fields.filter (·.1 = name)).Sublist l.sortedFields :=
    List.sublist_mergeSort htrans htotal hname List.filter_sublist
  have hsame : (l.fields.filter (·.1 = name)).Sublist (l.sortedFields.filter (·.1 = name)) := by
    simpa [List.filter_filter] using hsub.filter (·.1 = name)
  exact (hsame.eq_of_length (hperm.filter _).length_eq.symm).symm

/-- The text of an object of texts, member by member. -/
theorem chars_textsValue_cons (name value : String) (members : List (String × String)) :
    (textsValue ((name, value) :: members)).chars =
      '{' :: (member name value ++ members.flatMap (fun m => ',' :: member m.1 m.2) ++ ['}']) := by
  induction members generalizing name value with
  | nil => simp [textsValue, Value.chars, Value.memberChars, member]
  | cons m rest ih =>
    have hrest := (List.cons_inj_right _).mp (ih m.1 m.2)
    simp only [textsValue, Value.chars, List.map_cons, Value.memberChars] at hrest ⊢
    rw [List.flatMap_cons, hrest]
    simp [member]

/-- **A line is the text of an object**: what must come first, then the sorted fields. -/
theorem chars_eq (l : Line) (time : String) :
    l.chars time = (textsValue
      ([("event", l.event), ("severity", l.severity.name), ("ts", time)] ++ l.sortedFields)).chars := by
  rw [List.cons_append, chars_textsValue_cons]
  simp [chars]

end Line

theorem isIntegral_textsValue (members : List (String × String)) : (textsValue members).IsIntegral := by
  refine .object fun m hm => ?_
  obtain ⟨n, -, rfl⟩ := List.mem_map.mp hm
  exact .string n.2

/-- **A log line cannot be forged and loses nothing.** Whatever the event and the fields are, a line that the
threshold lets through ends with its only line end, and the value that is read from it is an object of event,
severity, time and the stably sorted fields, in this order and with nothing besides. Below the threshold nothing is
written. -/
theorem emitted_line_reads_back (threshold : Severity) (l : Line) (time : String) :
    (threshold.rank ≤ l.severity.rank →
      (∃ line, (l.emit threshold time).toList = line ++ ['\n'] ∧ '\n' ∉ line) ∧
      ∃ fields, IsStablySorted l.fields fields ∧
        textValue? (l.emit threshold time) =
          some (textsValue ([("event", l.event), ("severity", l.severity.name), ("ts", time)] ++ fields))) ∧
    (l.severity.rank < threshold.rank → l.emit threshold time = "") := by
  constructor
  · intro h
    rw [Line.emit, if_pos (Severity.passes_iff.mpr h), Line.chars_eq]
    refine ⟨⟨_, String.toList_ofList, Value.lineEnd_notMem_chars _⟩, l.sortedFields,
      l.isStablySorted_sortedFields, ?_⟩
    rw [textValue?, Value.readText_line]
    exact (isIntegral_textsValue _).value?_tree
  · intro h
    rw [Line.emit, if_neg (mt Severity.passes_iff.mp (Nat.not_le.mpr h))]

/-- A warning whose fields look like the end of a line, take the names of its own members and come twice. -/
def forgedLine : Line :=
  ⟨.warn, "EVENT_DECODE_FAILED\"\n",
    [("severity", "FATAL"), ("\u0000\n\"", "\x7d\n\x7b"), ("event", "b"), ("event", "a")]⟩

theorem forged_line_reads_back :
    ((∃ line, (forgedLine.emit .info "now").toList = line ++ ['\n'] ∧ '\n' ∉ line) ∧
      ∃ fields, IsStablySorted forgedLine.fields fields ∧ textValue? (forgedLine.emit .info "now") =
        some (textsValue ([("event", "EVENT_DECODE_FAILED\"\n"), ("severity", "WARN"), ("ts", "now")] ++ fields))) ∧
      forgedLine.emit .error "now" = "" :=
  ⟨(emitted_line_reads_back .info forgedLine "now").1 (by decide),
    (emitted_line_reads_back .error forgedLine "now").2 (by decide)⟩

end ReplicaWatch.Log
