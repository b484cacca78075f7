import ReplicaWatch.Json.Value

/-!
# Counters

What has happened since a monitor was started, in numbers that only grow.

- `Counter`: what is counted, by name and in its order;
- `Metrics`: the counts; `Metrics.add` raises one of them (`Metrics.count_add`), `Metrics.encode` writes all.
-/

namespace ReplicaWatch.Monitor

/-- What is counted. -/
inductive Counter
  /-- Signals taken from the stream. -/
  | eventsReceived
  /-- Signals that a resource may not be promoted. -/
  | eventsIgnored
  /-- Watches scheduled. -/
  | watchesScheduled
  /-- Positive signals for resources that were being watched. -/
  | watchesCoalesced
  /-- Positive signals for resources without quorum. -/
  | quorumlessSkips
  /-- Positive signals for resources whose quorum could not be found out. -/
  | quorumQueryFailures
  /-- Names put out. -/
  | notifications
  /-- Watches that found nothing to promote. -/
  | settled
  /-- Watches that found the resource gone. -/
  | removals
  /-- Watches ended by shutdown. -/
  | cancellations
  /-- Watches that found the cluster failing. -/
  | backendFailures
deriving DecidableEq, Repr

namespace Counter

def name : Counter → String
  | eventsReceived => "events_received"
  | eventsIgnored => "events_ignored"
  | watchesScheduled => "watches_scheduled"
  | watchesCoalesced => "watches_coalesced"
  | quorumlessSkips => "quorumless_skips"
  | quorumQueryFailures => "quorum_query_failures"
  | notifications => "notifications"
  | settled => "settled"
  | removals => "removals"
  | cancellations => "cancellations"
  | backendFailures => "backend_failures"

def all : List Counter :=
  [eventsReceived, eventsIgnored, watchesScheduled, watchesCoalesced,
    quorumlessSkips, quorumQueryFailures, notifications, settled,
    removals, cancellations, backendFailures]

def ofName? (s : String) : Option Counter := all.find? (fun c => c.name = s)

end Counter

/-- The counters of a monitor. -/
structure Metrics where
  eventsReceived : Nat := 0
  eventsIgnored : Nat := 0
  watchesScheduled : Nat := 0
  watchesCoalesced : Nat := 0
  quorumlessSkips : Nat := 0
  quorumQueryFailures : Nat := 0
  notifications : Nat := 0
  settled : Nat := 0
  removals : Nat := 0
  cancellations : Nat := 0
  backendFailures : Nat := 0
deriving DecidableEq, Repr

namespace Metrics

def count (m : Metrics) : Counter → Nat
  | .eventsReceived => m.eventsReceived
  | .eventsIgnored => m.eventsIgnored
  | .watchesScheduled => m.watchesScheduled
  | .watchesCoalesced => m.watchesCoalesced
  | .quorumlessSkips => m.quorumlessSkips
  | .quorumQueryFailures => m.quorumQueryFailures
  | .notifications => m.notifications
  | .settled => m.settled
  | .removals => m.removals
  | .cancellations => m.cancellations
  | .backendFailures => m.backendFailures

/-- Raises one counter. -/
def add (m : Metrics) (n : Nat) : Counter → Metrics
  | .eventsReceived => { m with eventsReceived := m.eventsReceived + n }
  | .eventsIgnored => { m with eventsIgnored := m.eventsIgnored + n }
  | .watchesScheduled => { m with watchesScheduled := m.watchesScheduled + n }
  | .watchesCoalesced => { m with watchesCoalesced := m.watchesCoalesced + n }
  | .quorumlessSkips => { m with quorumlessSkips := m.quorumlessSkips + n }
  | .quorumQueryFailures => { m with quorumQueryFailures := m.quorumQueryFailures + n }
  | .notifications => { m with notifications := m.notifications + n }
  | .settled => { m with settled := m.settled + n }
  | .removals => { m with removals := m.removals + n }
  | .cancellations => { m with cancellations := m.cancellations + n }
  | .backendFailures => { m with backendFailures := m.backendFailures + n }

/-- Raising a counter leaves the others alone. -/
theorem count_add (m : Metrics) (n : Nat) (c d : Counter) :
    (m.add n c).count d = if c = d then m.count d + n else m.count d := by
  cases c <;> cases d <;> rfl

/-- The counters by name, in their order. -/
def named (m : Metrics) : List (String × Nat) := Counter.all.map fun c => (c.name, m.count c)

def isZero (m : Metrics) : Bool := Counter.all.all fun c => m.count c = 0

/-- The counters as an object. -/
def encode (m : Metrics) : Json.Value := .object (m.named.map fun e => (e.1, .nat e.2))

end Metrics

end ReplicaWatch.Monitor
