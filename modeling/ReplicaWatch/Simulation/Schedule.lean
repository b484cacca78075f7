import ReplicaWatch.Simulation.Basic

/-!
# Whose turn it is

- `Simulation.turn`: one task takes its turn, or has nothing to do;
- `Simulation.settle`: turns are taken until nobody has anything to do;
- `Simulation.advanceTo`: time passes, and whatever is due on the way happens at its exact millisecond.

Watches that have been granted a place on the output come first, then the other watches in the order of their
schedule, then the loop. Publishers stand outside: they have their turn when the monitor has nothing left to do, so
that one that has been granted a place still finds the stream closed if the loop ends before.
-/

namespace ReplicaWatch.Simulation

open Monitor

/-- The publishers whose turn it may be. -/
def publishers : Source → List Task
  | .feed _ => []
  | .queue q =>
    let woken := if q.channel.isOpen then q.channel.granted else q.channel.granted ++ q.channel.waiting
    woken.map fun e => .publisher e.1

def tasks (m : State) : List Task :=
  (m.output.granted ++ m.output.waiting).map (fun e => Task.watch e.1)
    ++ m.watches.map (fun w => Task.watch w.id) ++ [.loop] ++ publishers m.source

def Task.run : Task → Action
  | publisher ticket => .runPublisher ticket
  | watch id => .runWatch id
  | loop => .runLoop

/-- The resource that a task asks about. -/
def question? (m : State) : Task → Option String
  | .publisher _ => none
  | .watch id =>
    match m.watch? id with
    | some w => if w.phase = .asking then some w.resource else none
    | none => none
  | .loop =>
    match m.loop with
    | .consulting resource => some resource
    | _ => none

/-- The question of a task is answered, or crashes it, if it is time for that. -/
def answer (s : Simulation) (m : State) (task : Task) : Option Simulation :=
  match question? m task, s.plans.find? (fun p => p.1 = task) with
  | some resource, some (_, .due time) =>
    if time ≤ s.now then
      match task with
      | .publisher _ => none
      | .watch id =>
        ({ s with backend := s.backend.countReplicas }.forget task).act
          (.answerReplicas id (s.backend.replicas resource))
      | .loop =>
        ({ s with backend := s.backend.countDefinition }.forget task).act
          (.answerDefinition (s.backend.definition resource))
    else none
  | some _, some (_, .crash) =>
    match task with
    | .publisher _ => none
    | .watch id => (s.forget task).act (.crashWatch id s.crashReport)
    | .loop => (s.forget task).act (.crashLoop s.crashReport)
  | _, _ => none

/-- The questions that are open, with the tasks that ask. -/
def openQuestions (s : Simulation) : List (Task × String) :=
  match s.monitor? with
  | none => []
  | some m => (tasks m).filterMap fun task => (question? m task).map fun resource => (task, resource)

/-- One task takes its turn: it runs if it can, else its question is answered if it is time. -/
def takeTurn (s : Simulation) (m : State) (task : Task) : Option Simulation :=
  (s.act task.run).or (s.answer m task)

/-- The first task that has something to do takes its turn. -/
def turn (s : Simulation) : Option Simulation :=
  match s.monitor? with
  | none => none
  | some m => (tasks m).findSome? (s.takeTurn m)

/-- Takes turns, at most a number of them. -/
def turns : Nat → Simulation → Simulation
  | 0, s => s
  | n + 1, s =>
    match s.turn with
    | none => s
    | some s => turns n s

/-- More turns than can be taken before time must pass: a watch takes at most five, a signal or a byte two and a
watch of its own, and the loop four. -/
def patience (s : Simulation) : Nat :=
  match s.monitor? with
  | none => 0
  | some m => 8 * (m.watches.length + m.source.size) + 16

/-- Takes turns until nobody has anything to do. -/
def settle (s : Simulation) : Simulation := turns s.patience s

/-! ## Time -/

/-- The clock shows a later time. -/
def setClock (s : Simulation) (time : Nat) : Simulation :=
  match s.act (.elapse (time - s.now)) with
  | some t => { t with now := time }
  | none => { s with now := time }

/-- The times at which something is due. -/
def alarms (s : Simulation) : List Nat :=
  let questions := s.plans.filterMap fun p =>
    match p.2 with
    | .due time => some time
    | _ => none
  match s.monitor? with
  | none => questions
  | some m =>
    questions ++ m.watches.filterMap fun w =>
      match w.phase with
      | .waiting deadline => some deadline
      | _ => none

/-- The first time after now, up to a limit, at which something is due. -/
def nextAlarm (s : Simulation) (limit : Nat) : Option Nat :=
  ((s.alarms).filter fun t => s.now < t ∧ t ≤ limit).min?

/-- Time passes up to a time, at most a number of alarms on the way. -/
def passTime (limit : Nat) : Nat → Simulation → Simulation
  | 0, s => (s.setClock limit).settle
  | n + 1, s =>
    let s := s.settle
    match s.nextAlarm limit with
    | none => (s.setClock limit).settle
    | some t => passTime limit n (s.setClock t)

/-- Time passes up to a time. Nobody waits for more than two alarms, and no more watches are scheduled than there
are signals. -/
def advanceTo (s : Simulation) (time : Nat) : Simulation := passTime time s.patience s

end ReplicaWatch.Simulation
