import ReplicaWatch.Cluster.Verdict
import ReplicaWatch.Monitor.Metrics
import ReplicaWatch.Monitor.Registry
import ReplicaWatch.Signals.Source

/-!
# The state of a monitor

A monitor is one loop, which takes signals and schedules watches, and any number of watches. Each of them is a
task that runs from one point of suspension to the next; between those points nothing else happens.

- `Watch`, `WatchPhase`, `Outcome`: a watch waits out its delay, asks for the replicas of its resource and puts
  the name on the output if it may still be promoted;
- `LoopPhase`: where the loop is suspended;
- `Setup`: what a monitor is started with, and the `Clock` that its watches sleep by;
- `State`: all of it, with the registry, the counters, the shutdown cause, the output and the signals.
-/

namespace ReplicaWatch.Monitor

/-- How a watch ended. -/
inductive Outcome
  /-- Shutdown came first. -/
  | cancelled
  /-- The resource was forgotten. -/
  | removed (reason : RemovalReason)
  /-- The name was put on the output. -/
  | notified
  /-- Nobody takes names any more. -/
  | undelivered
  /-- There was nothing to promote. -/
  | settled
  /-- The cluster could not be asked. -/
  | failed (error : BackendError)
deriving DecidableEq, Repr

/-- Where a watch is suspended. -/
inductive WatchPhase
  /-- It has not run yet. -/
  | scheduled
  /-- It waits for its delay to be over. -/
  | waiting (deadline : Nat)
  /-- It has asked for the replicas. -/
  | asking
  /-- It waits for room on the output. -/
  | sending
  | finished (outcome : Outcome)
  | crashed (report : String)
deriving DecidableEq, Repr

/-- Whether a watch is over, one way or the other. -/
def WatchPhase.isOver : WatchPhase → Bool
  | finished _ => true
  | crashed _ => true
  | _ => false

structure Watch where
  /-- Which watch it is; later ones have greater numbers. -/
  id : Nat
  resource : String
  /-- Milliseconds to wait. -/
  delay : Nat
  /-- Where it is suspended. -/
  phase : WatchPhase
deriving DecidableEq, Repr

/-- Where the loop is suspended. -/
inductive LoopPhase
  /-- It has not run yet. -/
  | starting
  /-- It waits for a signal, for the end of a watch, or for shutdown. -/
  | listening
  /-- It has asked for the definition of a resource. -/
  | consulting (resource : String)
  /-- It waits for the remaining watches to end. -/
  | draining
  | stopped (cause : Cause)
  | crashed (report : String)
deriving DecidableEq, Repr

/-- Whether the loop may still schedule watches. -/
def LoopPhase.isActive : LoopPhase → Bool
  | starting => true
  | listening => true
  | consulting _ => true
  | _ => false

/-- Whether a question has crashed the loop. -/
def LoopPhase.isCrashed : LoopPhase → Bool
  | crashed _ => true
  | _ => false

/-- How long tasks sleep. When a sleep ends is up to the runtime, but no sleep of any length is over at once. -/
structure Clock where
  /-- The time at which a sleep ends that begins at a time and is to last for a number of milliseconds. -/
  wake : Nat → Nat → Nat
  lt_wake (now : Nat) {milliseconds : Nat} : 0 < milliseconds → now < wake now milliseconds

/-- Thirty years in milliseconds. -/
def longestSleep : Nat := 30 * 365 * 24 * 60 * 60 * 1000

/-- The clock of a runtime that ends every sleep of more than thirty years after thirty years, whether or not the time
at which it was to end can still be told: a watch with a delay of 1000000000003 milliseconds is seen to ask after
946080000000 of them. -/
def Clock.thirtyYears : Clock where
  wake now milliseconds := now + min milliseconds longestSleep
  lt_wake now {milliseconds} h := by
    have : 0 < longestSleep := by decide
    omega

/-- What a monitor is started with. -/
structure Setup where
  /-- The name of the monitor in log lines. -/
  monitor : String
  config : Config := {}
  /-- The clock that the watches sleep by. -/
  clock : Clock := .thirtyYears

structure State where
  /-- The time in milliseconds. -/
  now : Nat := 0
  registry : Registry := .empty
  metrics : Metrics := {}
  /-- Why the monitor is stopping, once it is. -/
  cause : Option Cause := none
  /-- Where the loop is suspended. -/
  loop : LoopPhase := .starting
  /-- The watches that the loop has not yet taken note of as ended: those under way in the order they were scheduled,
  and those that are over in the order they ended. -/
  watches : List Watch := []
  /-- The number of the next watch. -/
  nextId : Nat := 0
  /-- The names on their way to the consumer. -/
  output : Channel String
  source : Source

namespace State

def start (setup : Setup) (now : Nat) (source : Source) : State :=
  { now := now, output := { capacity := setup.config.outputCapacity }, source := source }

/-- Whether shutdown has been triggered. -/
def isStopping (s : State) : Bool := s.cause.isSome

def watch? (s : State) (id : Nat) : Option Watch := s.watches.find? (fun w => w.id = id)

/-- The state with a watch in another phase. One that is over goes to the end. -/
def setPhase (s : State) (id : Nat) (phase : WatchPhase) : State :=
  let watches := s.watches.map fun w => if w.id = id then { w with phase := phase } else w
  { s with watches :=
      if phase.isOver then watches.filter (fun w => w.id ≠ id) ++ watches.filter (fun w => w.id = id) else watches }

def count (s : State) (c : Counter) : State := { s with metrics := s.metrics.add 1 c }

/-- The watches that are not over. -/
def unfinished (s : State) : List Watch := s.watches.filter (fun w => !w.phase.isOver)

/-- Whether nobody can put a name on the output any more. -/
def isOutputEnded (s : State) : Bool := !s.loop.isActive && s.unfinished.isEmpty

end State

end ReplicaWatch.Monitor
