import ReplicaWatch.Proofs.CommandLine.Failure

/-!
# Accepted configurations start

Whatever configuration is accepted, its threshold is known, its delays fit the words of a machine and its monitor is
configured well, so a start fails for the signals only, or crashes over the output. The output is what the check of a
configuration does not see to the end: it turns a capacity of zero away, but not one that is too great to be built
(`capacity_beyond_greatest_accepted`).

- `Span.IsExact`: seconds that are told exactly in milliseconds;
- `start?_of_valid`: what comes of starting a monitor that is configured well.
-/

namespace ReplicaWatch

/-! ## Spans of time -/

/-- Seconds become a span, and the span milliseconds, and nothing is lost on the way. -/
structure Monitor.Span.IsExact (seconds milliseconds : Nat) : Prop where
  whole : (ofSeconds seconds.toUInt64).seconds.toNat = seconds
  rest : (ofSeconds seconds.toUInt64).nanoseconds = 0
  told : (ofSeconds seconds.toUInt64).milliseconds.toNat = milliseconds
  kept : milliseconds = seconds * 1000

theorem Monitor.Span.isExact_of_lt {seconds : Nat} (h : seconds < UInt64.size) :
    IsExact seconds (ofSeconds seconds.toUInt64).milliseconds.toNat :=
  ⟨UInt64.toNat_ofNat_of_lt h, rfl, rfl, toNat_milliseconds_ofSeconds h⟩

namespace CommandLine

open Json Log Monitor

variable {text : String} {settings : Settings} {setup : Setup}

/-! ## Starting a monitor -/

/-- A monitor that is configured well starts if its output can be built, and otherwise the start crashes. -/
theorem start?_of_valid (hv : setup.config.validate = .ok ()) (now : Nat) (source : Source) :
    State.start? setup now (.ok source) =
      if Channel.Buildable setup.config.outputCapacity then .ok (State.start setup now source) else .crashed := by
  unfold State.start?
  rw [hv]

theorem start?_ne_config (hv : setup.config.validate = .ok ()) (now : Nat) (subscription : Except BackendError Source)
    (reason : String) : State.start? setup now subscription ≠ .error (.config reason) := by
  cases subscription with
  | error e =>
    unfold State.start?
    rw [hv]
    simp
  | ok source =>
    rw [start?_of_valid hv]
    split <;> simp

theorem start?_eq_ok_iff (hv : setup.config.validate = .ok ()) (now : Nat) (source : Source) :
    State.start? setup now (.ok source) = .ok (State.start setup now source) ↔
      Channel.Buildable setup.config.outputCapacity := by
  rw [start?_of_valid hv]
  split <;> simp [*]

/-- **An accepted configuration starts, if its output can be built.** The threshold is known, both delays are told
exactly in milliseconds, the configuration of the monitor is in order, and no start fails for it. The capacity is not
zero and fits 64 bits; a monitor starts iff the capacity is no greater than all ones of 64 bits shifted by three. -/
theorem accepted_settings_start (h : Settings.parse text = .ok settings) :
    (∃ severity, settings.severity? = some severity) ∧
      Span.IsExact settings.initialDelaySecs settings.monitorConfig.initialDelay ∧
      Span.IsExact settings.existingDelaySecs settings.monitorConfig.existingDelay ∧
      settings.monitorConfig.validate = .ok () ∧
      (∀ monitor clock now subscription reason,
        State.start? ⟨monitor, settings.monitorConfig, clock⟩ now subscription ≠ .error (.config reason)) ∧
      (1 ≤ settings.outputCapacity ∧ settings.outputCapacity < UInt64.size) ∧
      ∀ monitor clock now source, State.start? ⟨monitor, settings.monitorConfig, clock⟩ now (.ok source) =
          .ok (State.start ⟨monitor, settings.monitorConfig, clock⟩ now source) ↔
        settings.outputCapacity ≤ (UInt64.size - 1) >>> 3 := by
  obtain ⟨hdecode, hvalid⟩ := parse_eq_ok_iff.mp h
  obtain ⟨-, hseverity, -, -, hcapacity⟩ := (validate_eq_ok_iff hdecode).mp hvalid
  obtain ⟨hinitial, hexisting, hbound⟩ := lt_of_decodeText hdecode
  have hconfig := Settings.validate_monitorConfig h
  refine ⟨hseverity, Span.isExact_of_lt hinitial, Span.isExact_of_lt hexisting, hconfig,
    fun monitor clock now => start?_ne_config hconfig now, ⟨hcapacity, hbound⟩, fun monitor clock now source => ?_⟩
  rw [start?_eq_ok_iff hconfig, Channel.Buildable, Channel.greatestCapacity]
  exact and_iff_right hcapacity

/-- A configuration with the longest delays and the greatest capacity that can be built. -/
def greatestSettings : Settings where
  snapshotPath := "cluster.json"
  initialDelaySecs := 18446744073709551615
  existingDelaySecs := 18446744073709551615
  outputCapacity := 2305843009213693951
  logLevel := "TRACE"

/-- A configuration whose capacity is one more. -/
def boundlessSettings : Settings where
  snapshotPath := "cluster.json"
  outputCapacity := 2305843009213693952

theorem parse_greatestSettings : Settings.parse greatestSettings.encode.write = .ok greatestSettings := by
  have hdecode : decodeText Settings.decoder greatestSettings.encode.write = .ok greatestSettings :=
    decodeText_eq_ok_iff.mpr ⟨_, Value.spells_write _, rfl⟩
  exact parse_eq_ok_iff.mpr ⟨hdecode, (validate_eq_ok_iff hdecode).mpr
    ⟨by decide, ⟨.trace, by decide +kernel⟩, by decide, by decide, by decide⟩⟩

theorem greatest_settings_start : (∃ severity, greatestSettings.severity? = some severity) ∧
    Span.IsExact 18446744073709551615 18446744073709551615000 ∧
    ∀ monitor clock now source, State.start? ⟨monitor, greatestSettings.monitorConfig, clock⟩ now (.ok source) =
      .ok (State.start ⟨monitor, greatestSettings.monitorConfig, clock⟩ now source) := by
  obtain ⟨hseverity, hinitial, -, -, -, -, hstart⟩ := accepted_settings_start parse_greatestSettings
  refine ⟨hseverity, ?_, fun monitor clock now source => (hstart monitor clock now source).mpr (by decide)⟩
  rw [hinitial.kept] at hinitial
  exact hinitial

/-- A capacity that is too great to be built is accepted all the same, and then every start crashes. -/
theorem capacity_beyond_greatest_accepted :
    Settings.parse boundlessSettings.encode.write = .ok boundlessSettings ∧
      ¬Channel.Buildable boundlessSettings.outputCapacity ∧
      ∀ monitor clock now source,
        State.start? ⟨monitor, boundlessSettings.monitorConfig, clock⟩ now (.ok source) = .crashed := by
  have hdecode : decodeText Settings.decoder boundlessSettings.encode.write = .ok boundlessSettings :=
    decodeText_eq_ok_iff.mpr ⟨_, Value.spells_write _, rfl⟩
  have hparse : Settings.parse boundlessSettings.encode.write = .ok boundlessSettings :=
    parse_eq_ok_iff.mpr ⟨hdecode, (validate_eq_ok_iff hdecode).mpr
      ⟨by decide, ⟨.info, by decide +kernel⟩, by decide, by decide, by decide⟩⟩
  have hbeyond : ¬Channel.Buildable boundlessSettings.outputCapacity := by decide
  refine ⟨hparse, hbeyond, fun monitor clock now source => ?_⟩
  rw [start?_of_valid (Settings.validate_monitorConfig hparse)]
  exact if_neg hbeyond

end CommandLine

end ReplicaWatch
