import ReplicaWatch.Backend.Basic
import ReplicaWatch.Monitor.Start
import ReplicaWatch.Monitor.Step

/-!
# A monitor, its cluster and a clock

A simulation puts a monitor beside a cluster that answers its questions and lets time pass by numbers only.

- `Disturbance`: what can be done to a question before the cluster sees it;
- `Task`, `Plan`: what will become of a question that is being asked;
- `Stream`: who has the stream of signals; a monitor has it as a part of its state;
- `Simulation`: all of it, with everything observed since somebody last looked.
-/

namespace ReplicaWatch.Simulation

open Monitor

/-- What is done to the questions to a cluster. -/
inductive Disturbance
  | none
  /-- They are never answered. -/
  | hang
  /-- They crash the task that asks. -/
  | crash
  /-- They reach the cluster late. -/
  | delay (milliseconds : Nat)
deriving DecidableEq, Repr

/-- Somebody whose turn it may be. -/
inductive Task
  | publisher (ticket : Nat)
  | watch (id : Nat)
  | loop
deriving DecidableEq, Repr

/-- What will become of a question. -/
inductive Plan
  | never
  | crash
  /-- It reaches the cluster at a time. -/
  | due (time : Nat)
deriving DecidableEq, Repr

/-- When a question that is asked at a time reaches the cluster, if it does. -/
def Disturbance.arrival (clock : Clock) (now : Nat) : Disturbance → Nat
  | delay ms => clock.wake now ms
  | _ => now

/-- What becomes of a question that is asked at a time. -/
def Disturbance.plan (clock : Clock) (now : Nat) : Disturbance → Plan
  | hang => .never
  | crash => .crash
  | d => .due (d.arrival clock now)

/-- Who has the stream of signals. -/
inductive Stream
  /-- Nobody has subscribed. -/
  | free (source : Source)
  /-- Somebody outside has it. -/
  | held (source : Source)
  /-- It was taken and given up. -/
  | dropped (source : Source)
  /-- A monitor has it. -/
  | monitored (monitor : State)

end Simulation

open Monitor Simulation

/-- A monitor beside its cluster. -/
structure Simulation where
  setup : Setup
  /-- What a crash is reported as. -/
  crashReport : String := ""
  now : Nat := 0
  backend : Backend
  /-- What is done to questions for definitions. -/
  definitionDisturbance : Disturbance := .none
  /-- What is done to questions for replicas. -/
  replicaDisturbance : Disturbance := .none
  stream : Stream
  /-- The questions that are being asked, and what will become of them. -/
  plans : List (Task × Plan) := []
  /-- What has been observed since somebody last looked. -/
  observed : List Observation := []
  /-- Whether the handle of the monitor is held. -/
  hasHandle : Bool := false
  /-- Whether a handle that can only stop the monitor is held. -/
  hasStopHandle : Bool := false
  /-- Whether the consumer's end of the output is held. -/
  hasReceiver : Bool := false
  /-- The ticket of the next publisher. -/
  nextTicket : Nat := 0

namespace Simulation

def monitor? (s : Simulation) : Option State :=
  match s.stream with
  | .monitored m => some m
  | _ => none

/-- The signals, wherever they are. -/
def source (s : Simulation) : Source :=
  match s.stream with
  | .free source => source
  | .held source => source
  | .dropped source => source
  | .monitored m => m.source

/-- The simulation with other signals. -/
def withSource (s : Simulation) (source : Source) : Simulation :=
  { s with stream :=
      match s.stream with
      | .free _ => .free source
      | .held _ => .held source
      | .dropped _ => .dropped source
      | .monitored m => .monitored { m with source := source } }

/-- Notes observations. -/
def observing (s : Simulation) (seen : List Observation) : Simulation :=
  { s with observed := s.observed ++ seen }

/-- The questions that are asked in an observation, and what will become of them. -/
def plansFor (s : Simulation) : Observation → List (Task × Plan)
  | .askedDefinition _ => [(.loop, s.definitionDisturbance.plan s.setup.clock s.now)]
  | .askedReplicas id _ => [(.watch id, s.replicaDisturbance.plan s.setup.clock s.now)]
  | _ => []

/-- The simulation after something has happened to the monitor. -/
def absorb (s : Simulation) (effect : Effect) : Simulation :=
  { s with
    stream := .monitored effect.1
    plans := s.plans ++ effect.2.flatMap s.plansFor
    observed := s.observed ++ effect.2 }

/-- Forgets the question of a task. -/
def forget (s : Simulation) (task : Task) : Simulation :=
  { s with plans := s.plans.filter fun p => p.1 ≠ task }

/-- Something happens to the monitor, if it can. -/
def act (s : Simulation) (action : Action) : Option Simulation :=
  match s.monitor? with
  | none => none
  | some m => (m.step? s.setup action).map s.absorb

end Simulation

end ReplicaWatch
