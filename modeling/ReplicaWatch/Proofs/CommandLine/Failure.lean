import ReplicaWatch.Proofs.Cluster.RoundTrip
import ReplicaWatch.Proofs.CommandLine.Forecast
import ReplicaWatch.Proofs.CommandLine.Protocol
import ReplicaWatch.Proofs.Text.Utf8

/-!
# What a failing command leaves behind

A command reads its configuration before it does anything else, so what it leaves behind is decided by the file
alone: `Configures` says what must be in order about it, and `loadSettings_eq_ok_iff_configures` that nothing else is
asked for. The report then fails for the snapshot only.
-/

namespace ReplicaWatch

/-- Bytes are read as a text iff they are the bytes of that text. -/
theorem readUtf8_eq_ok_iff {bytes : List UInt8} {text : String} :
    readUtf8 bytes = .ok text ↔ bytes = Text.encodeUtf8 text := by
  rw [← Text.decodeUtf8_eq_ok_iff, readUtf8]
  cases Text.decodeUtf8 bytes <;> simp

namespace CommandLine

open Json Log Monitor

variable {files : Files} {path text : String} {settings : Settings} {severity : Severity} {snapshot : Snapshot}

theorem readText_eq_ok_iff : files.readText path = .ok text ↔ files path = .ok (Text.encodeUtf8 text) := by
  rw [readText_eq]
  cases files path with
  | error e => simp [Except.bind]
  | ok bytes => simp [Except.bind, readUtf8_eq_ok_iff]

/-! ## Accepted configurations -/

theorem ofName?_eq_some_iff {name : String} :
    Severity.ofName? name = some severity ↔ name = severity.name.map Char.toLower := by
  constructor
  · intro h
    unfold Severity.ofName? at h
    repeat' split at h
    all_goals cases h
    all_goals subst name; decide +kernel
  · rintro rfl
    cases severity <;> decide +kernel

/-- A file holds a value: it is the bytes of a text that can be decoded to it. -/
def Holds {α : Type} (files : Files) (path : String) (decoder : Decoder α) (value : α) : Prop :=
  ∃ text, files path = .ok (Text.encodeUtf8 text) ∧ decodeText decoder text = .ok value

/-- A file configures the program: it can be decoded, the path of the snapshot is not empty, the threshold is the name
of a severity in any case, and neither delay nor the capacity is zero. -/
structure Configures (files : Files) (path : String) (settings : Settings) (severity : Severity) : Prop where
  decoded : Holds files path Settings.decoder settings
  snapshotPath : settings.snapshotPath ≠ ""
  logLevel : settings.logLevel.map Char.toLower = severity.name.map Char.toLower
  initialDelay : 0 < settings.initialDelaySecs
  existingDelay : 0 < settings.existingDelaySecs
  outputCapacity : 0 < settings.outputCapacity

theorem severity?_eq_some_iff : settings.severity? = some severity ↔
    settings.logLevel.map Char.toLower = severity.name.map Char.toLower :=
  ofName?_eq_some_iff

/-- The numbers that have been read fit 64 bits. -/
theorem lt_of_decodeText (h : decodeText Settings.decoder text = .ok settings) :
    settings.initialDelaySecs < UInt64.size ∧ settings.existingDelaySecs < UInt64.size ∧
      settings.outputCapacity < UInt64.size := by
  obtain ⟨tree, -, hdecode⟩ := decodeText_eq_ok_iff.mp h
  exact RecordName.ensures_inRange .settings hdecode

/-- Settings that have been read are in order iff the path is not empty, the threshold is known and no number is
zero. -/
theorem validate_eq_ok_iff (h : decodeText Settings.decoder text = .ok settings) : settings.validate = .ok () ↔
    settings.snapshotPath ≠ "" ∧ (∃ severity, settings.severity? = some severity) ∧ 0 < settings.initialDelaySecs ∧
      0 < settings.existingDelaySecs ∧ 0 < settings.outputCapacity := by
  obtain ⟨hinitial, hexisting, -⟩ := lt_of_decodeText h
  have hconfig : settings.monitorConfig.validate = .ok () ↔ 0 < settings.initialDelaySecs ∧
      0 < settings.existingDelaySecs ∧ 0 < settings.outputCapacity := by
    rw [Config.validate_eq_ok_iff, Settings.monitorConfig, Span.toNat_milliseconds_ofSeconds hinitial,
      Span.toNat_milliseconds_ofSeconds hexisting]
    simp
  rw [← hconfig, Settings.validate]
  by_cases hpath : settings.snapshotPath = ""
  · simp [hpath]
  cases hlevel : settings.severity? with
  | none => simp [hpath]
  | some severity => cases settings.monitorConfig.validate <;> simp [hpath]

theorem parse_eq_ok_iff : Settings.parse text = .ok settings ↔
    decodeText Settings.decoder text = .ok settings ∧ settings.validate = .ok () := by
  rw [Settings.parse]
  cases decodeText Settings.decoder text with
  | error f => simp
  | ok s =>
    constructor
    · intro h
      cases hs : s.validate with
      | error f => simp [hs] at h
      | ok u =>
        simp only [hs, Except.ok.injEq] at h
        exact ⟨by rw [h], h ▸ hs⟩
    · rintro ⟨⟨⟩, hs⟩
      simp [hs]

/-- The configuration is loaded iff the file is in order. -/
theorem loadSettings_eq_ok_iff_configures : loadSettings files path = .ok (settings, severity) ↔
    Configures files path settings severity := by
  simp only [loadSettings_eq_ok_iff, readText_eq_ok_iff, parse_eq_ok_iff]
  constructor
  · rintro ⟨text, ht, ⟨hdecode, hvalid⟩, hs⟩
    obtain ⟨hpath, -, hinitial, hexisting, hcapacity⟩ := (validate_eq_ok_iff hdecode).mp hvalid
    exact ⟨⟨text, ht, hdecode⟩, hpath, severity?_eq_some_iff.mp hs, hinitial, hexisting, hcapacity⟩
  · rintro ⟨⟨text, ht, hdecode⟩, hpath, hlevel, hinitial, hexisting, hcapacity⟩
    have hs := severity?_eq_some_iff.mpr hlevel
    have hvalid := (validate_eq_ok_iff hdecode).mpr ⟨hpath, ⟨severity, hs⟩, hinitial, hexisting, hcapacity⟩
    exact ⟨text, ht, ⟨hdecode, hvalid⟩, hs⟩

theorem loadSettings_error {e : CommandError} (h : loadSettings files path = .error e) :
    ∃ reason, e = .config reason := by
  unfold loadSettings at h
  repeat' split at h
  all_goals cases h
  all_goals exact ⟨_, rfl⟩

/-! ## Reports -/

theorem checkSnapshot_of_holds (h : Holds files settings.snapshotPath Snapshot.decoder snapshot) :
    checkSnapshot files settings = .ok (responseLine (report snapshot)) := by
  obtain ⟨text, hfile, hdecode⟩ := h
  simp only [checkSnapshot, readText_eq_ok_iff.mpr hfile, Snapshot.parse, hdecode, Except.mapError]

/-- A report fails only if the file holds no snapshot. -/
theorem checkSnapshot_error (h : ¬∃ snapshot, Holds files settings.snapshotPath Snapshot.decoder snapshot) :
    ∃ reason, checkSnapshot files settings = .error (.snapshot reason) := by
  unfold checkSnapshot
  cases hread : files.readText settings.snapshotPath with
  | error e => exact ⟨_, rfl⟩
  | ok text =>
    cases hdecode : decodeText Snapshot.decoder text with
    | error f => simp only [Snapshot.parse, hdecode, Except.mapError]; exact ⟨_, rfl⟩
    | ok snapshot => exact absurd ⟨snapshot, text, readText_eq_ok_iff.mp hread, hdecode⟩ h

/-- An answer is one line, and the object on it tells the status and the data. -/
theorem responseLine_reads_back (value : Value) : ∃ line data, (responseLine value).toList.splitOn '\n' = [line, []] ∧
    value.Alike data ∧
    readText (String.ofList line) = ⟨(Value.object [("data", data), ("status", .string "ok")]).tree, true⟩ := by
  refine ⟨(responseValue value.sorted).chars, value.sorted, ?_, value.alike_sorted, readText_write _⟩
  have := splitOn_outputText [] (some value)
  simpa [outputText, lineValues] using this

section

variable {monitor : String} {stdin : List UInt8} {threshold : Severity} {request : Request}

/-- Without a configuration nothing is done at all. -/
theorem perform_of_not_configures (h : ¬∃ settings severity, Configures files path settings severity)
    (hr : request ∈ [Request.watch path, .check path]) : ∃ e, e.code = "LOSTUSER_CLI_CONFIG_ERROR" ∧
      perform monitor files stdin threshold request =
        { result := .error e, stdout := "", notices := [], threshold := threshold } := by
  cases hload : loadSettings files path with
  | ok loaded => exact absurd ⟨_, _, loadSettings_eq_ok_iff_configures.mp hload⟩ h
  | error e =>
    obtain ⟨reason, rfl⟩ := loadSettings_error hload
    refine ⟨.config reason, rfl, ?_⟩
    rcases List.mem_pair.mp hr with rfl | rfl <;> simp only [perform, hload]

/-- The threshold of the log is the configured one afterwards. -/
theorem threshold_of_configures (h : Configures files path settings severity)
    (hr : request ∈ [Request.watch path, .check path]) :
    (perform monitor files stdin threshold request).threshold = severity := by
  have hload := loadSettings_eq_ok_iff_configures.mpr h
  rcases List.mem_pair.mp hr with rfl | rfl
  · simp only [perform, hload]
  · simp only [perform, hload]
    split <;> rfl

theorem perform_check_of_configures (h : Configures files path settings severity) :
    perform monitor files stdin threshold (.check path) =
      match checkSnapshot files settings with
      | .error e => { result := .error e, notices := [.configLoaded path settings.snapshotPath], threshold := severity }
      | .ok line => { result := .ok (), stdout := line, notices := [.configLoaded path settings.snapshotPath],
                      threshold := severity } := by
  have hload := loadSettings_eq_ok_iff_configures.mpr h
  cases hcheck : checkSnapshot files settings <;> simp only [perform, hload, hcheck]

end

/-- **A command that fails leaves nothing half done.** If the file does not configure the program, both commands fail
for the configuration, write nothing, report nothing and leave the threshold of the log alone. If it does, the
threshold is the configured one afterwards, whatever happens next. The report then fails for the snapshot, with
nothing written, exactly when the file of the snapshot holds none, and otherwise succeeds with one line: an object of
the report and the status. -/
theorem commands_leave_nothing_half_done (monitor : String) (files : Files) (stdin : List UInt8) (threshold : Severity)
    (path : String) :
    ((¬∃ settings severity, Configures files path settings severity) →
      ∀ request ∈ [Request.watch path, .check path], ∃ e, e.code = "LOSTUSER_CLI_CONFIG_ERROR" ∧
        perform monitor files stdin threshold request =
          { result := .error e, stdout := "", notices := [], threshold := threshold }) ∧
    ∀ settings severity, Configures files path settings severity →
      (∀ request ∈ [Request.watch path, .check path],
        (perform monitor files stdin threshold request).threshold = severity) ∧
      let outcome := perform monitor files stdin threshold (.check path)
      ((¬∃ snapshot, Holds files settings.snapshotPath Snapshot.decoder snapshot) ↔
        (∃ e, outcome.result = .error e ∧ e.code = "LOSTUSER_CLI_SNAPSHOT_ERROR") ∧ outcome.stdout = "") ∧
      ∀ snapshot, Holds files settings.snapshotPath Snapshot.decoder snapshot →
        outcome.result = .ok () ∧ ∃ line data, outcome.stdout.toList.splitOn '\n' = [line, []] ∧
          (report snapshot).Alike data ∧
          readText (String.ofList line) = ⟨(Value.object [("data", data), ("status", .string "ok")]).tree, true⟩ := by
  refine ⟨fun h request hr => perform_of_not_configures h hr, fun settings severity hconfig => ?_⟩
  refine ⟨fun request hr => threshold_of_configures hconfig hr, ?_⟩
  intro outcome
  by_cases hsnapshot : ∃ snapshot, Holds files settings.snapshotPath Snapshot.decoder snapshot
  · have hok {snapshot : Snapshot} (h : Holds files settings.snapshotPath Snapshot.decoder snapshot) :
        outcome.result = .ok () ∧ outcome.stdout = responseLine (report snapshot) := by
      simp only [outcome, perform_check_of_configures hconfig, checkSnapshot_of_holds h, and_self]
    obtain ⟨snapshot, h⟩ := hsnapshot
    refine ⟨?_, fun snapshot h => ⟨(hok h).1, (hok h).2 ▸ responseLine_reads_back _⟩⟩
    simp [(hok h).1, Exists.intro snapshot h]
  · obtain ⟨reason, hfail⟩ := checkSnapshot_error hsnapshot
    have hout : outcome.result = .error (.snapshot reason) ∧ outcome.stdout = "" := by
      simp only [outcome, perform_check_of_configures hconfig, hfail, and_self]
    exact ⟨iff_of_true hsnapshot ⟨⟨_, hout.1, rfl⟩, hout.2⟩, fun snapshot h => absurd ⟨snapshot, h⟩ hsnapshot⟩

theorem configures_filesWith (cluster : Value) :
    Configures (filesWith cluster) "watch.json" { snapshotPath := "cluster.json", logLevel := "trace" } .trace :=
  loadSettings_eq_ok_iff_configures.mp (loadSettings_filesWith cluster)

theorem commands_on_three_files :
    (∃ e, e.code = "LOSTUSER_CLI_CONFIG_ERROR" ∧ perform "m" (filesWith .null) [] .warn (.watch "none.json") =
      { result := .error e, stdout := "", notices := [], threshold := .warn }) ∧
    (perform "m" (filesWith .null) [] .warn (.check "watch.json")).threshold = .trace ∧
    ((∃ e, (perform "m" (filesWith .null) [] .warn (.check "watch.json")).result = .error e ∧
      e.code = "LOSTUSER_CLI_SNAPSHOT_ERROR") ∧
      (perform "m" (filesWith .null) [] .warn (.check "watch.json")).stdout = "") ∧
    (perform "m" (filesWith twiceDefined) [] .warn (.check "watch.json")).result = .ok () := by
  have hnone : ¬∃ settings severity, Configures (filesWith .null) "none.json" settings severity := by
    rintro ⟨settings, severity, ⟨text, hfile, -⟩, -⟩
    cases hfile
  have hnull : ¬∃ snapshot, Holds (filesWith .null) "cluster.json" Snapshot.decoder snapshot := by
    rintro ⟨snapshot, text, hfile, hdecode⟩
    have hread : (filesWith .null).readText "cluster.json" = .ok Value.null.write := readText_filesWith (by decide)
    cases hread.symm.trans (readText_eq_ok_iff.mpr hfile)
    obtain ⟨tree, htree, hdecode⟩ := decodeText_eq_ok_iff.mp hdecode
    cases htree.unique (Value.spells_write .null)
    cases hdecode
  have hsnapshot : Holds (filesWith twiceDefined) "cluster.json" Snapshot.decoder twiceDefinedSnapshot :=
    ⟨twiceDefined.write, readText_eq_ok_iff.mp (readText_filesWith (by decide +kernel)),
      decodeText_eq_ok_iff.mpr ⟨_, Value.spells_write _, rfl⟩⟩
  have hbroken := commands_leave_nothing_half_done "m" (filesWith .null) [] .warn
  obtain ⟨hthreshold, hfails, -⟩ := (hbroken "watch.json").2 _ _ (configures_filesWith .null)
  obtain ⟨-, -, hsucceeds⟩ :=
    (commands_leave_nothing_half_done "m" (filesWith twiceDefined) [] .warn "watch.json").2 _ _
      (configures_filesWith twiceDefined)
  exact ⟨(hbroken "none.json").1 hnone _ (by simp), hthreshold _ (by simp), hfails.mp hnull, (hsucceeds _ hsnapshot).1⟩

end CommandLine

end ReplicaWatch
