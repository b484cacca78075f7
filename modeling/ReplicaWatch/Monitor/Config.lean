/-!
# Configuration of the monitor

Two delays before a resource is looked at again, and the number of names that may wait for the consumer.

- `Span`: a delay as it is handed over, in whole seconds; `Span.toNat_milliseconds_ofSeconds`: its milliseconds;
- `Config`, and `Config.validate_eq_ok_iff`: which configurations are in order.
-/

namespace ReplicaWatch.Monitor

/-- A span of time in the words of a machine. -/
structure Span where
  seconds : UInt64
  nanoseconds : UInt32
deriving DecidableEq, Repr

namespace Span

def ofSeconds (seconds : UInt64) : Span := ⟨seconds, 0⟩

/-- The whole milliseconds of a span, in a word of 128 bits. -/
def milliseconds (s : Span) : BitVec 128 :=
  BitVec.ofNat 128 s.seconds.toNat * 1000 + BitVec.ofNat 128 (s.nanoseconds.toNat / 1000000)

/-- Seconds that fit their word are told exactly in milliseconds. -/
theorem toNat_milliseconds_ofSeconds {seconds : Nat} (h : seconds < UInt64.size) :
    (ofSeconds seconds.toUInt64).milliseconds.toNat = seconds * 1000 := by
  have hword : (ofSeconds seconds.toUInt64).seconds.toNat = seconds := UInt64.toNat_ofNat_of_lt h
  have hrest : (ofSeconds seconds.toUInt64).nanoseconds.toNat / 1000000 = 0 :=
    show (0 : UInt32).toNat / 1000000 = 0 by decide
  have hsize : UInt64.size = 18446744073709551616 := rfl
  calc (ofSeconds seconds.toUInt64).milliseconds.toNat
      = (BitVec.ofNat 128 seconds * BitVec.ofNat 128 1000 + BitVec.ofNat 128 0).toNat := by
        rw [milliseconds, hrest, hword]
        rfl
    _ = (BitVec.ofNat 128 (seconds * 1000)).toNat := by rw [BitVec.add_zero, BitVec.ofNat_mul]
    _ = seconds * 1000 := by rw [BitVec.toNat_ofNat, Nat.mod_eq_of_lt (by omega)]

end Span

/-- Which delay a watch waits for. -/
inductive DelayKind
  /-- The resource is seen for the first time. -/
  | initial
  /-- The resource has been seen before. -/
  | existing
deriving DecidableEq, Repr

def DelayKind.name : DelayKind → String
  | initial => "initial"
  | existing => "existing"

/-- The configuration of a monitor. -/
structure Config where
  /-- Milliseconds to wait for a resource that is seen for the first time. -/
  initialDelay : Nat := 60000
  /-- Milliseconds to wait for a resource that has been seen before. -/
  existingDelay : Nat := 45000
  /-- How many names may wait for the consumer. -/
  outputCapacity : Nat := 1
deriving DecidableEq, Repr

/-- What is wrong with a configuration. -/
inductive ConfigFault
  | noInitialDelay
  | noExistingDelay
  | noOutputCapacity
deriving DecidableEq, Repr

def ConfigFault.message : ConfigFault → String
  | noInitialDelay => "initial_delay must be > 0"
  | noExistingDelay => "existing_delay must be > 0"
  | noOutputCapacity => "output_capacity must be > 0"

namespace Config

def delay (c : Config) : DelayKind → Nat
  | .initial => c.initialDelay
  | .existing => c.existingDelay

/-- What is wrong with a configuration, the first fault if there are several. Without a delay every flicker of a
resource would be reported. -/
def validate (c : Config) : Except ConfigFault Unit :=
  if c.initialDelay = 0 then .error .noInitialDelay
  else if c.existingDelay = 0 then .error .noExistingDelay
  else if c.outputCapacity = 0 then .error .noOutputCapacity
  else .ok ()

/-- A configuration is in order iff nothing in it is zero. -/
theorem validate_eq_ok_iff (c : Config) :
    c.validate = .ok () ↔ 0 < c.initialDelay ∧ 0 < c.existingDelay ∧ 0 < c.outputCapacity := by
  unfold validate
  split
  · simp; omega
  · split
    · simp; omega
    · split
      · simp; omega
      · simp; omega

end Config

end ReplicaWatch.Monitor
