import ReplicaWatch.CommandLine.Output
import ReplicaWatch.Proofs.Json.Lines
import ReplicaWatch.Proofs.Json.Rearrangement

/-!
# Reading the output back

The output is made of whole lines, one for each resource that lost its user and one for the answer, if there is
one (`outputText_eq`). Each line is the text of a value (`lineValues`), and the values tell resources and answer
(`lineValues_inj`), so different outputs look different.
-/

namespace ReplicaWatch.CommandLine

open Json

/-- The value on the line of a resource that lost its user. -/
def lostUserValue (resource : String) : Value := .object [("resource", .string resource)]

/-- The value on the line of an answer. -/
def responseValue (data : Value) : Value := .object [("data", data), ("status", .string "ok")]

/-- The values on the lines of an output. -/
def lineValues (lost : List String) (data : Option Value) : List Value :=
  lost.map lostUserValue ++ (data.map responseValue).toList

theorem sorted_response (data : Value) :
    (Value.object [("status", .string "ok"), ("data", data)]).sorted = responseValue data.sorted := by
  have : "data" < "status" := by decide
  simp [Value.sorted, Value.sortedMembers, Value.placeMember, this, responseValue]

theorem outputText_eq (lost : List String) (response : Option Value) :
    (outputText lost response).toList =
      ((lineValues lost (response.map Value.sorted)).map Value.chars).flatMap (· ++ ['\n']) := by
  have hlost (resource : String) : (lostUserLine resource).toList = (lostUserValue resource).chars ++ ['\n'] :=
    String.toList_ofList
  have hresponse : ((response.map responseLine).getD "").toList =
      ((response.map Value.sorted).map responseValue).toList.flatMap fun v => v.chars ++ ['\n'] := by
    cases response with
    | none => rfl
    | some data => simp [responseLine, outputLine, sorted_response]
  simp [outputText, lineValues, hresponse, String.toList_join, List.flatMap_map, hlost]

/-- The output is cut into the texts of its values, with nothing after the last line end. -/
theorem splitOn_outputText (lost : List String) (response : Option Value) :
    (outputText lost response).toList.splitOn '\n' =
      (lineValues lost (response.map Value.sorted)).map Value.chars ++ [[]] := by
  rw [outputText_eq]
  exact splitOn_lines (List.forall_mem_map.mpr fun v _ => v.lineEnd_notMem_chars)

theorem isIntegral_lineValues {lost : List String} {data : Option Value} (h : ∀ v ∈ data, v.IsIntegral) :
    ∀ v ∈ lineValues lost data, v.IsIntegral := by
  intro v hv
  rcases List.mem_append.mp hv with hv | hv
  · obtain ⟨resource, -, rfl⟩ := List.mem_map.mp hv
    exact .object (List.forall_mem_singleton.mpr (.string resource))
  · obtain ⟨d, hd, rfl⟩ := Option.map_eq_some_iff.mp (Option.mem_toList.mp hv)
    exact .object (List.forall_mem_cons.mpr ⟨h d hd, List.forall_mem_singleton.mpr (.string "ok")⟩)

theorem lostUserValue_inj {r s : String} (h : lostUserValue r = lostUserValue s) : r = s := by
  simpa [lostUserValue] using h

/-- The values on the lines tell the resources and the answer. -/
theorem lineValues_inj {lost lost' : List String} {data data' : Option Value}
    (h : lineValues lost data = lineValues lost' data') : lost = lost' ∧ data = data' := by
  induction lost generalizing lost' with
  | nil =>
    cases lost' with
    | nil => cases data <;> cases data' <;> simp_all [lineValues, responseValue]
    | cons s rest => cases data <;> simp_all [lineValues, responseValue, lostUserValue]
  | cons r rest ih =>
    cases lost' with
    | nil => cases data' <;> simp_all [lineValues, responseValue, lostUserValue]
    | cons s rest' =>
      obtain ⟨hhead, htail⟩ := List.cons.inj h
      obtain ⟨rfl, rfl⟩ := ih htail
      exact ⟨by rw [lostUserValue_inj hhead], rfl⟩

/-- The values that are read from the lines of an output are those that were written. -/
theorem textValues_outputText {lost : List String} {response : Option Value} (h : ∀ v ∈ response, v.IsIntegral) :
    ((lineValues lost (response.map Value.sorted)).map Value.chars).map (fun line => textValue? (String.ofList line)) =
      (lineValues lost (response.map Value.sorted)).map some := by
  rw [List.map_map]
  refine List.map_congr_left fun v hv => ?_
  refine (isIntegral_lineValues ?_ v hv).textValue?_write
  intro sorted hsorted
  obtain ⟨d, hd, rfl⟩ := Option.map_eq_some_iff.mp hsorted
  exact (h d hd).sorted

/-- Equal outputs have equal lines, and the values are read from the lines. -/
theorem lineValues_of_outputText_eq {lost lost' : List String} {response response' : Option Value}
    (h : ∀ v ∈ response, v.IsIntegral) (h' : ∀ v ∈ response', v.IsIntegral)
    (htext : outputText lost' response' = outputText lost response) :
    lineValues lost' (response'.map Value.sorted) = lineValues lost (response.map Value.sorted) := by
  have hlines : (lineValues lost' (response'.map Value.sorted)).map Value.chars =
      (lineValues lost (response.map Value.sorted)).map Value.chars := by
    refine (List.append_left_inj [[]]).mp ?_
    rw [← splitOn_outputText, ← splitOn_outputText, htext]
  have hvalues := congrArg (List.map fun line => textValue? (String.ofList line)) hlines
  rw [textValues_outputText h', textValues_outputText h] at hvalues
  exact List.map_injective_iff.mpr (fun _ _ => Option.some.inj) hvalues

theorem alike_of_sorted_eq {response response' : Option Value}
    (h : response'.map Value.sorted = response.map Value.sorted) : Option.Rel Value.Alike response' response := by
  cases response with
  | none =>
    rw [Option.map_eq_none_iff.mp h]
    exact .none
  | some w =>
    obtain ⟨v, rfl, hv⟩ := Option.map_eq_some_iff.mp h
    exact .some (v.alike_sorted.trans (hv ▸ w.alike_sorted.symm))

/-- **The output is a faithful protocol of lines.** Whatever the names of the resources are, the output is cut at
its line ends into one line for each of them and one for the answer, if there is one, in this order and with nothing
after the last line end. Each line is the text of one value: an object that tells the resource, or one that tells the
status and data which is the same as what was to be answered. So different outputs look different. -/
theorem output_reads_back (lost : List String) {response : Option Value} (h : ∀ v ∈ response, v.IsIntegral) :
    (∃ lines data, (outputText lost response).toList.splitOn '\n' = lines ++ [[]] ∧
      Option.Rel Value.Alike response data ∧
      lines.map (fun line => textValue? (String.ofList line)) =
        lost.map (fun resource => some (.object [("resource", .string resource)])) ++
          data.toList.map fun d => some (.object [("data", d), ("status", .string "ok")])) ∧
    ∀ lost' response', (∀ v ∈ response', v.IsIntegral) → outputText lost' response' = outputText lost response →
      lost' = lost ∧ Option.Rel Value.Alike response' response := by
  refine ⟨⟨_, response.map Value.sorted, splitOn_outputText lost response, ?_, ?_⟩,
    fun lost' response' h' htext => ?_⟩
  · cases response with
    | none => exact .none
    | some data => exact .some data.alike_sorted
  · rw [textValues_outputText h]
    cases response <;> simp [lineValues, lostUserValue, responseValue]
  · obtain ⟨rfl, hdata⟩ := lineValues_inj (lineValues_of_outputText_eq h h' htext)
    exact ⟨rfl, alike_of_sorted_eq hdata⟩

/-- Numbers at both ends, an object inside and members that are not in order. -/
def nestedAnswer : Value :=
  .object [("z\n", .array [.int (-9223372036854775808), .object [("b", .null), ("a", .string "\n\"")]]),
    ("a", .int 18446744073709551615)]

theorem isIntegral_nestedAnswer : nestedAnswer.IsIntegral := by
  refine .object (List.forall_mem_cons.mpr ⟨.array (List.forall_mem_cons.mpr ⟨.int (by decide) (by decide), ?_⟩),
    List.forall_mem_singleton.mpr (.int (by decide) (by decide))⟩)
  exact List.forall_mem_singleton.mpr <|
    .object (List.forall_mem_cons.mpr ⟨.null, List.forall_mem_singleton.mpr (.string _)⟩)

theorem nested_answer_reads_back :
    (∃ lines data, (outputText ["a\nb", "", "\""] nestedAnswer).toList.splitOn '\n' = lines ++ [[]] ∧
      Option.Rel Value.Alike (some nestedAnswer) data ∧
      lines.map (fun line => textValue? (String.ofList line)) =
        [some (.object [("resource", .string "a\nb")]), some (.object [("resource", .string "")]),
          some (.object [("resource", .string "\"")])] ++
          data.toList.map fun d => some (.object [("data", d), ("status", .string "ok")])) ∧
    outputText ["a", "b", "\""] none ≠ outputText ["a\nb", "", "\""] nestedAnswer := by
  have h : ∀ v ∈ some nestedAnswer, v.IsIntegral := by
    rintro _ ⟨⟩
    exact isIntegral_nestedAnswer
  obtain ⟨hlines, hinj⟩ := output_reads_back ["a\nb", "", "\""] h
  exact ⟨hlines, fun htext => absurd (hinj _ none (by simp) htext).1 (by decide)⟩

end ReplicaWatch.CommandLine
