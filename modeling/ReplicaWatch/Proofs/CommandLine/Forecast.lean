import ReplicaWatch.CommandLine.Program
import ReplicaWatch.Proofs.Json.Grammar
import ReplicaWatch.Proofs.Json.Written
import ReplicaWatch.Proofs.Monitor.Judgement

/-!
# The report foretells the monitor

The report on a snapshot and a monitor of the same file look the replicas of a resource up in their own ways: the report
once, in a snapshot that has been read, and the monitor anew for every question. They come to the same
(`replicas_of_defined`), and the verdict that the report gives says what a watch does with the answer
(`foretells_verdict`).
-/

namespace ReplicaWatch.CommandLine

open Json Log Monitor

variable {files : Files} {path text : String} {settings : Settings} {severity : Severity} {snapshot : Snapshot}
  {setup : Setup} {s : State} {w : Watch} {replicas : List Replica}

/-! ## Verdicts in a report -/

theorem verdictValue_eq_promotable_iff {v : Verdict} :
    verdictValue v = .object [("status", .string "may_promote")] ↔ v = .promotable := by
  cases v <;> simp [verdictValue]

theorem verdictValue_eq_settled_iff {v : Verdict} :
    verdictValue v = .object [("status", .string "settled")] ↔ v = .settled := by
  cases v <;> simp [verdictValue]

theorem verdictValue_eq_mismatch_iff {v : Verdict} {layer : String} :
    verdictValue v = .object [("status", .string "layer_mismatch"), ("layer", .string layer)] ↔
      ∃ kind, v = .mismatch kind ∧ kind.name = layer := by
  cases v <;> simp [verdictValue]

/-- A verdict in a report says what a watch does with an answer: it goes on to send, it has its resource forgotten for
the layer in the verdict, or it settles. -/
structure Foretells (setup : Setup) (s : State) (w : Watch) (answer : Except BackendError (List Replica))
    (verdict : Value) : Prop where
  sending : verdict = .object [("status", .string "may_promote")] ↔ s.SendsWith setup w answer
  removal : ∀ layer, verdict = .object [("status", .string "layer_mismatch"), ("layer", .string layer)] ↔
    ∃ reason : RemovalReason, reason.message = "layer_mismatch:" ++ layer ∧ s.EndsWith setup w answer (.removed reason)
  settling : verdict = .object [("status", .string "settled")] ↔ s.EndsWith setup w answer .settled

/-- The verdict on replicas foretells what a watch does with them. -/
theorem foretells_verdict (setup : Setup) (ha : s.Asks w) (replicas : List Replica) :
    Foretells setup s w (.ok replicas) (verdictValue (Verdict.ofReplicas replicas)) := by
  refine ⟨verdictValue_eq_promotable_iff.trans ha.sends_iff.symm, fun layer => ?_,
    verdictValue_eq_settled_iff.trans ha.settles_iff.symm⟩
  rw [verdictValue_eq_mismatch_iff]
  constructor
  · rintro ⟨kind, hv, rfl⟩
    exact ⟨_, rfl, ha.removes_iff.mpr ⟨kind, hv, rfl⟩⟩
  · rintro ⟨reason, hreason, hends⟩
    obtain ⟨kind, hv, rfl⟩ := ha.removes_iff.mp hends
    exact ⟨kind, hv, (String.append_right_inj _).mp hreason⟩

/-! ## One snapshot, read twice -/

theorem readText_eq (files : Files) (path : String) : files.readText path = (files path).bind readUtf8 := by
  unfold Files.readText
  cases files path <;> rfl

theorem loadSettings_eq_ok_iff : loadSettings files path = .ok (settings, severity) ↔
    ∃ text, files.readText path = .ok text ∧ Settings.parse text = .ok settings ∧
      settings.severity? = some severity := by
  constructor
  · intro h
    unfold loadSettings at h
    split at h
    · cases h
    · rename_i text ht
      split at h
      · cases h
      · rename_i hp
        split at h
        · rename_i hs
          cases h
          exact ⟨text, ht, hp, hs⟩
        · cases h
  · rintro ⟨text, ht, hp, hs⟩
    simp only [loadSettings, ht, hp, hs]

/-- A defined resource is never missed, by the report or by a question. -/
theorem replicas_of_defined {d : Definition} (hd : d ∈ snapshot.definitions) :
    snapshot.lookUp d.name = .ok (snapshot.replicasOf d.name) ∧
      replicasOrNone snapshot d.name = snapshot.replicasOf d.name := by
  have hfound : (snapshot.definition? d.name).isSome = true := List.find?_isSome.mpr ⟨d, hd, by simp⟩
  have hlookup := Snapshot.lookUp_of_definition hfound
  refine ⟨hlookup, ?_⟩
  unfold replicasOrNone
  rw [hlookup]

/-- The first definition of a name is the one that is found. -/
theorem definition?_of_first {i : Nat} {d : Definition} (hd : snapshot.definitions[i]? = some d)
    (hfirst : ∀ e ∈ snapshot.definitions.take i, e.name ≠ d.name) : snapshot.definition? d.name = some d := by
  obtain ⟨hi, rfl⟩ := List.getElem?_eq_some_iff.mp hd
  refine List.find?_eq_some_iff_append.mpr ⟨by simp, snapshot.definitions.take i, snapshot.definitions.drop (i + 1),
    ?_, fun e he => by simpa using hfirst e he⟩
  rw [List.getElem_cons_drop, List.take_append_drop]

/-- The loop takes note of the quorum that a definition says. -/
theorem observed_of_definition (setup : Setup) {resource : String} {d : Definition} (hl : s.loop = .consulting resource)
    (hgoing : s.isStopping = false) :
    ∃ t rest, s.step? setup (.answerDefinition (.ok d)) =
      some (t, .notice (.observed resource d.hasQuorum) :: rest) := by
  have hgoing : ({ s with loop := .listening } : State).isStopping = false := hgoing
  simp only [State.step?, State.answerDefinition, hl, hgoing, Bool.false_eq_true, if_false]
  exact ⟨_, _, rfl⟩

/-- **The report foretells the monitor.** A report on a snapshot that can be read has one entry for each definition, in
their order. It counts and judges the replicas that a watch of the resource is given by the same file, none of them
missed; its verdict is what the watch does with them; and for the first definition of a name it says of the quorum what
the monitor is told and takes note of. -/
theorem report_foretells_monitor (hc : loadSettings files path = .ok (settings, severity))
    (ht : files.readText settings.snapshotPath = .ok text) (hs : Snapshot.parse text = .ok snapshot)
    (monitor : String) (stdin : List UInt8) (threshold : Severity) :
    let outcome := perform monitor files stdin threshold (.check path)
    let backend := (rehearsal monitor files settings stdin).backend
    ∃ entries : List Value,
      outcome.result = .ok () ∧ outcome.stdout = responseLine (.object [("resources", .array entries)]) ∧
      entries.length = snapshot.definitions.length ∧
      ∀ i d, snapshot.definitions[i]? = some d → ∃ replicas verdict,
        entries[i]? = some (.object [("resource", .string d.name), ("quorum", .boolean d.hasQuorum),
          ("replicas", .nat replicas.length), ("verdict", verdict)]) ∧
        snapshot.lookUp d.name = .ok replicas ∧ backend.replicas d.name = .ok replicas ∧
        (∀ setup (s : State) (w : Watch), s.Asks w → w.resource = d.name →
          Foretells setup s w (backend.replicas w.resource) verdict) ∧
        ((∀ e ∈ snapshot.definitions.take i, e.name ≠ d.name) →
          backend.hasQuorum d.name = .ok d.hasQuorum ∧
          ∀ setup (s : State), s.loop = .consulting d.name → s.isStopping = false → ∃ t rest,
            s.step? setup (.answerDefinition (backend.definition d.name)) =
              some (t, .notice (.observed d.name d.hasQuorum) :: rest)) := by
  have hload : SnapshotFile.load ⟨settings.snapshotPath, files settings.snapshotPath⟩ = .ok snapshot :=
    (SnapshotFile.load_of_text ((readText_eq files _).symm.trans ht)).trans hs
  refine ⟨snapshot.definitions.map (reportEntry snapshot), ?_, ?_, List.length_map _, fun i d hd => ?_⟩
  · simp only [perform, hc, checkSnapshot, ht, hs]
  · simp only [perform, hc, checkSnapshot, ht, hs, report]
  have hmem : d ∈ snapshot.definitions := List.mem_of_getElem? hd
  obtain ⟨hlookup, hnone⟩ := replicas_of_defined hmem
  have hreplicas : (rehearsal monitor files settings stdin).backend.replicas d.name =
      .ok (snapshot.replicasOf d.name) := by
    show SnapshotFile.replicasOf _ _ = _
    unfold SnapshotFile.replicasOf
    rw [hload]
    exact hlookup
  refine ⟨snapshot.replicasOf d.name, verdictValue (Verdict.ofReplicas (snapshot.replicasOf d.name)), ?_, hlookup,
    hreplicas, ?_, fun hfirst => ?_⟩
  · rw [List.getElem?_map, hd, ← hnone]
    rfl
  · intro setup s w ha hw
    rw [hw, hreplicas]
    exact foretells_verdict setup ha _
  · have hdefinition : (rehearsal monitor files settings stdin).backend.definition d.name = .ok d := by
      show SnapshotFile.definition _ _ = _
      unfold SnapshotFile.definition
      rw [hload]
      simp only [definition?_of_first hd hfirst]
    refine ⟨?_, fun setup s hl hgoing => ?_⟩
    · unfold Backend.hasQuorum
      rw [hdefinition]
      rfl
    · rw [hdefinition]
      exact observed_of_definition setup hl hgoing

/-- A configuration that reports everything. -/
def tracing : Value := .object [("snapshot_path", .string "cluster.json"), ("log_level", .string "trace")]

/-- A configuration that reports everything, and a cluster beside it. -/
def filesWith (cluster : Value) : Files := fun path =>
  if path = "watch.json" then
    .ok (Text.plainBytes tracing.chars)
  else if path = "cluster.json" then .ok (Text.plainBytes cluster.chars)
  else .error .missing

theorem readText_filesWith {cluster : Value} (h : cluster.chars.all Text.isPlain = true) :
    (filesWith cluster).readText "cluster.json" = .ok cluster.write := by
  rw [readText_eq, show filesWith cluster "cluster.json" = .ok (Text.plainBytes cluster.chars) by simp [filesWith]]
  exact readUtf8_plainBytes h

theorem loadSettings_filesWith (cluster : Value) : loadSettings (filesWith cluster) "watch.json" =
    .ok ({ snapshotPath := "cluster.json", logLevel := "trace" }, .trace) := by
  have hplain : tracing.chars.all Text.isPlain = true := by decide +kernel
  have htext : (filesWith cluster).readText "watch.json" = .ok tracing.write := by
    rw [readText_eq, show filesWith cluster "watch.json" = .ok (Text.plainBytes tracing.chars) by simp [filesWith]]
    exact readUtf8_plainBytes hplain
  have hdecode : decodeText Settings.decoder tracing.write =
      .ok { snapshotPath := "cluster.json", logLevel := "trace" } :=
    decodeText_eq_ok_iff.mpr ⟨_, Value.spells_write _, rfl⟩
  have hlevel : Settings.severity? { snapshotPath := "cluster.json", logLevel := "trace" } = some .trace := by
    decide +kernel
  have hvalid : Settings.validate { snapshotPath := "cluster.json", logLevel := "trace" } = .ok () := by
    rw [Settings.validate, if_neg (by decide), hlevel, if_neg (by decide)]
    rfl
  simp only [loadSettings, htext, Settings.parse, hdecode, hvalid, hlevel]

/-- A resource with two definitions, of which only the first has quorum, and a replica on another layer. -/
def twiceDefined : Value :=
  .object [("resource_definitions", .array [.object [("name", .string "a"),
      ("props", .object [("DrbdOptions/Resource/quorum", .string "majority")])], .object [("name", .string "a")]]),
    ("resources", .array [.object [("name", .string "a"), ("layer_object", .object [("type", .string "LUKS")])]])]

/-- The snapshot of that cluster. -/
def twiceDefinedSnapshot : Snapshot where
  definitions := [Definition.withQuorum "a" (some "majority"), { name := "a" }]
  replicas := [{ name := "a", layer := { kind := .luks } }]

theorem report_on_twice_defined :
    let backend := (rehearsal "m" (filesWith twiceDefined) { snapshotPath := "cluster.json", logLevel := "trace" }
      []).backend
    let s := ((State.start { monitor := "m" } 0 (signalsOf ["a"])).played { monitor := "m" } (askingFor "a")).2
    let w : Watch := ⟨0, "a", 60000, .asking⟩
    ∃ entries : List Value,
      (perform "m" (filesWith twiceDefined) [] .info (.check "watch.json")).stdout =
        responseLine (.object [("resources", .array entries)]) ∧ entries.length = 2 ∧
      backend.hasQuorum "a" = .ok true ∧ s.Asks w ∧ ∃ verdict,
        entries[0]? = some (.object [("resource", .string "a"), ("quorum", .boolean true), ("replicas", .nat 1),
          ("verdict", verdict)]) ∧
        Foretells { monitor := "m" } s w (backend.replicas "a") verdict := by
  intro backend s w
  have hload : loadSettings (filesWith twiceDefined) "watch.json" = _ := loadSettings_filesWith twiceDefined
  have htext : (filesWith twiceDefined).readText "cluster.json" = .ok twiceDefined.write :=
    readText_filesWith (by decide +kernel)
  have hdecode : decodeText Snapshot.decoder twiceDefined.write = .ok twiceDefinedSnapshot :=
    decodeText_eq_ok_iff.mpr ⟨_, Value.spells_write _, rfl⟩
  have hread : Snapshot.parse twiceDefined.write = .ok twiceDefinedSnapshot := by
    rw [Snapshot.parse, hdecode]
    rfl
  have ha : s.Asks w := ⟨by decide, rfl, by decide⟩
  obtain ⟨entries, -, hout, hlength, hall⟩ := report_foretells_monitor hload htext hread "m" [] .info
  obtain ⟨replicas, verdict, hentry, hlookup, -, hwatch, hquorum⟩ :=
    hall 0 (Definition.withQuorum "a" (some "majority")) rfl
  cases hlookup
  exact ⟨entries, hout, hlength, (hquorum (by simp)).1, ha, verdict, hentry, hwatch _ s w ha rfl⟩

end ReplicaWatch.CommandLine
