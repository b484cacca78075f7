import ReplicaWatch.Simulation.Schedule

/-!
# Driving a simulation

- `Command`: what can be done to a simulation from outside, `Result`: what comes of it;
- `Simulation.perform`: one command; an attempt that does not succeed at once is given up after a millisecond;
- `Simulation.step`: a command at the next beat of the clock, and what is seen a millisecond later (`Reading`);
- `Simulation.run`: commands one after the other.
-/

namespace ReplicaWatch.Simulation

open Monitor

/-- A replica as a command describes it. -/
inductive ReplicaSketch
  /-- On DRBD. -/
  | onDrbd (node : String) (mayPromote : Bool)
  /-- On a layer of another kind. -/
  | onLayer (node kind : String)
  /-- As a text says. -/
  | text (text : String)

/-- Something that is done from outside. -/
inductive Command
  | setDefinition (name : String) (quorum : Option String)
  | setDefinitionText (text : String)
  | setReplicas (name : String) (replicas : List ReplicaSketch)
  | remove (name : String)
  | failReplicas (error : Option BackendError)
  | failDefinitions (error : Option BackendError)
  | publish (s : Signal)
  | burst (name : String) (count : Nat)
  | endPublishing
  | writeFile (bytes : List UInt8)
  | deleteFile
  | writeSignals (bytes : List UInt8)
  | endInput
  | path
  | disturbReplicas (d : Disturbance)
  | disturbDefinitions (d : Disturbance)
  | replicas (name : String)
  | definition (name : String)
  | quorum (name : String)
  | subscribe
  | nextSignal
  | closeStream
  | dropStream
  | start
  | advance (milliseconds : Nat)
  | receive
  | dropReceiver
  | stop
  | stopThroughCopy
  | dropHandle
  | join

/-- What comes of a command. -/
inductive Result
  | done
  | unreadable (fault : Json.Fault)
  | failed (error : BackendError)
  | blocked
  | burst (sent : Nat) (ending : Result)
  | inputEnded
  | broken
  | path (path : Option String)
  | replicas (replicas : List Replica)
  | definition (d : Definition)
  | quorum (hasQuorum : Bool)
  | signal (s : Signal)
  | ended
  | pending
  | noStream
  | notStarted (error : StartError)
  | lost (name : String)
  | outputEnded
  | noReceiver
  | noHandle
  | joined (cause : Cause)
  | crashed (report : String)
  | running

/-- The result of something that either succeeds or fails in the cluster. -/
def Result.ofExcept {α : Type} (success : α → Result) : Except BackendError α → Result
  | .ok a => success a
  | .error e => .failed e

/-! ## The cluster -/

/-- The replica that a sketch describes. -/
def ReplicaSketch.draw (name : String) : ReplicaSketch → Except Json.Fault Replica
  | onDrbd node mayPromote => .ok (Replica.onDrbd name node mayPromote)
  | onLayer node kind => .ok (Replica.onLayer name node (LayerKind.ofName kind))
  | text t => Json.decodeText Replica.decoder t

def onMemory (s : Simulation) (f : MemoryCluster → MemoryCluster) : Simulation :=
  match s.backend with
  | .memory c => { s with backend := .memory (f c) }
  | .file _ => s

/-- Changes what a snapshot file leads to. -/
def onFile (s : Simulation) (content : Except ReadError (List UInt8)) : Simulation :=
  match s.backend with
  | .memory _ => s
  | .file f =>
    { s with backend := .file { f with content := content } }

/-- A question from outside; a disturbance may keep it from the cluster for a while. -/
def ask {α : Type} (s : Simulation) (d : Disturbance) (count : Backend → Backend)
    (question : Backend → Except BackendError α) (success : α → Result) : Simulation × Result :=
  let s := s.advanceTo (d.arrival s.setup.clock s.now)
  ({ s with backend := count s.backend }, .ofExcept success (question s.backend))

/-! ## Signals -/

def atQueue (s : Simulation) (ticket : Nat) (signal : Signal)
    (attempt : SignalQueue → Channel.Reply × SignalQueue) : Simulation × Channel.Reply :=
  match s.source with
  | .feed _ => (s, .refused)
  | .queue q =>
    let (reply, q) := attempt q
    ((s.withSource (.queue q)).observing [.published ticket signal reply], reply)

/-- What a publisher has learnt in the end. -/
def lastReply (s : Simulation) (ticket : Nat) : Channel.Reply :=
  let replies := s.observed.filterMap fun o =>
    match o with
    | .published t _ reply => if t = ticket then some reply else none
    | _ => none
  replies.getLast?.getD .blocked

/-- The result of a publisher's attempt. -/
def publishResult : Channel.Reply → Result
  | .sent => .done
  | .refused => .failed .streamClosed
  | .blocked => .blocked

/-- A publisher tries for a millisecond. -/
def publishSignal (s : Simulation) (signal : Signal) : Simulation × Channel.Reply :=
  let ticket := s.nextTicket
  let (s, reply) := atQueue { s with nextTicket := ticket + 1 } ticket signal (fun q => q.publish ticket signal)
  if reply ≠ .blocked then (s, reply)
  else
    let s := s.settle
    if s.lastReply ticket ≠ .blocked then (s, s.lastReply ticket)
    else
      let s := s.advanceTo (s.now + 1)
      let reply := s.lastReply ticket
      if reply ≠ .blocked then (s, reply)
      else
        match s.source with
        | .feed _ => (s, reply)
        | .queue q => (s.withSource (.queue (q.withdraw ticket)), reply)

/-- Positive signals for one resource, up to the first that does not get through. -/
def publishMany (name : String) : Nat → Nat → Simulation → Simulation × Result
  | 0, sent, s => (s, .burst sent .done)
  | n + 1, sent, s =>
    let (s, reply) := s.publishSignal ⟨name, true⟩
    if reply = .sent then publishMany name n (sent + 1) s else (s, .burst sent (publishResult reply))

/-- Somebody outside looks for the next signal, at most a number of times. -/
def pull : Nat → Simulation → Simulation × Result
  | 0, s => (s, .pending)
  | n + 1, s =>
    let (taken, source, notices) := s.source.next
    let s := (s.withSource source).observing (notices.map .notice)
    match taken with
    | .nothing => (s, .pending)
    | .skipped => pull n s
    | .signal signal => (s, .signal signal)
    | .ended => (s, .ended)

/-- Bytes for the feed. -/
def writeSignals (s : Simulation) (bytes : List UInt8) : Simulation × Result :=
  match s.source with
  | .queue _ => (s, .broken)
  | .feed f =>
    if f.hasEnded then (s, .inputEnded)
    else if !f.isOpen && !bytes.isEmpty then (s, .broken)
    else (s.withSource (.feed (f.write bytes)), .done)

/-! ## The monitor -/

/-- What a new subscription to the signals gives. -/
def subscription (s : Simulation) : Except BackendError Source :=
  match s.stream with
  | .free source => .ok source
  | _ => .error .alreadySubscribed

/-- Somebody starts the monitor. Who crashes over it gives the signals up. -/
def startMonitor (s : Simulation) : Simulation × Result :=
  match State.start? s.setup s.now s.subscription with
  | .ok m =>
    ({ s with stream := .monitored m, hasHandle := true, hasStopHandle := true, hasReceiver := true }, .done)
  | .error e => (s, .notStarted e)
  | .crashed => ({ s with stream := .dropped s.source.close }, .crashed s.crashReport)

def stopMonitor (s : Simulation) (isHeld : Bool) : Simulation × Result :=
  if isHeld then ((s.act .requestStop).getD s, .done) else (s, .noHandle)

/-- The consumer tries to take a name. -/
def tryReceive (s : Simulation) : Option (Simulation × Result) :=
  match s.act .receive with
  | none => none
  | some t =>
    match t.observed.getLast? with
    | some (.received name) => some (t, .lost name)
    | _ => some (t, .outputEnded)

/-- The consumer takes names until it learns that no more will come, at most a number of them, and everybody else takes
turns in between. -/
def serve : Nat → Simulation → Simulation
  | 0, s => s.settle
  | n + 1, s =>
    match s.settle.tryReceive with
    | some (s, .lost _) => serve n s
    | some (s, _) => s
    | none => s.settle

/-- The consumer tries for a millisecond. -/
def receiveName (s : Simulation) : Simulation × Result :=
  if !s.hasReceiver then (s, .noReceiver)
  else
    match s.tryReceive with
    | some r => r
    | none =>
      let s := s.advanceTo (s.now + 1)
      (s.tryReceive).getD (s, .pending)

/-- What the handle of the monitor says of its end. -/
def ending (s : Simulation) : Result :=
  match s.monitor? with
  | none => .running
  | some m =>
    match m.loop with
    | .stopped cause => .joined cause
    | .crashed report => .crashed report
    | _ => .running

theorem ending_of_stopped {s : Simulation} {m : State} {cause : Cause} (hm : s.monitor? = some m)
    (hl : m.loop = .stopped cause) : s.ending = .joined cause := by
  unfold ending
  rw [hm]
  dsimp only
  rw [hl]

/-- Waits for the end of the monitor for a millisecond, and gives the handle away. -/
def joinMonitor (s : Simulation) : Simulation × Result :=
  if !s.hasHandle then (s, .noHandle)
  else
    let s := { s with hasHandle := false }
    match s.ending with
    | .running =>
      let s := s.advanceTo (s.now + 1)
      (s, s.ending)
    | result => (s, result)

/-! ## Commands -/

def perform (s : Simulation) : Command → Simulation × Result
  | .setDefinition name quorum =>
    (s.onMemory (fun c => c.setDefinition (Definition.withQuorum name quorum)), .done)
  | .setDefinitionText text =>
    match Json.decodeText Definition.decoder text with
    | .ok d => (s.onMemory (fun c => c.setDefinition d), .done)
    | .error fault => (s, .unreadable fault)
  | .setReplicas name sketches =>
    match sketches.mapM (ReplicaSketch.draw name) with
    | .ok rs => (s.onMemory (fun c => c.setReplicas name rs), .done)
    | .error fault => (s, .unreadable fault)
  | .remove name => (s.onMemory (fun c => c.remove name), .done)
  | .failReplicas error => (s.onMemory (fun c => { c with replicaFailure := error }), .done)
  | .failDefinitions error => (s.onMemory (fun c => { c with definitionFailure := error }), .done)
  | .publish signal =>
    let (s, reply) := s.publishSignal signal
    (s, publishResult reply)
  | .burst name count => publishMany name count 0 s
  | .endPublishing =>
    match s.source with
    | .feed _ => (s, .done)
    | .queue q => (s.withSource (.queue q.endPublishing), .done)
  | .writeFile bytes => (s.onFile (.ok bytes), .done)
  | .deleteFile => (s.onFile (.error .missing), .done)
  | .writeSignals bytes => s.writeSignals bytes
  | .endInput =>
    match s.source with
    | .queue _ => (s, .done)
    | .feed f => (s.withSource (.feed f.endInput), .done)
  | .path =>
    match s.backend with
    | .memory _ => (s, .path none)
    | .file f => (s, .path (some f.path))
  | .disturbReplicas d => ({ s with replicaDisturbance := d }, .done)
  | .disturbDefinitions d => ({ s with definitionDisturbance := d }, .done)
  | .replicas name =>
    s.ask s.replicaDisturbance Backend.countReplicas (fun b => b.replicas name) .replicas
  | .definition name =>
    s.ask s.definitionDisturbance Backend.countDefinition (fun b => b.definition name) .definition
  | .quorum name =>
    s.ask s.definitionDisturbance Backend.countDefinition (fun b => b.hasQuorum name) .quorum
  | .subscribe =>
    match s.stream with
    | .free source => ({ s with stream := .held source }, .done)
    | _ => (s, .failed .alreadySubscribed)
  | .nextSignal =>
    match s.stream with
    | .held source => pull (source.size + 1) s
    | _ => (s, .noStream)
  | .closeStream =>
    match s.stream with
    | .held source => ({ s with stream := .held source.close }, .done)
    | _ => (s, .done)
  | .dropStream =>
    match s.stream with
    | .held source => ({ s with stream := .dropped source.close }, .done)
    | _ => (s, .done)
  | .start => s.startMonitor
  | .advance ms => (s.advanceTo (s.setup.clock.wake s.now ms), .done)
  | .receive => s.receiveName
  | .dropReceiver => ({ (s.act .dropReceiver).getD s with hasReceiver := false }, .done)
  | .stop => s.stopMonitor s.hasHandle
  | .stopThroughCopy => s.stopMonitor s.hasStopHandle
  | .dropHandle => ({ s with hasHandle := false }, .done)
  | .join => s.joinMonitor

/-! ## Steps and readings -/

/-- What is seen of a simulation. -/
structure Reading where
  time : Nat
  result : Result
  /-- What has been reported since the last reading. -/
  notices : List Notice
  /-- The questions that a cluster in memory has been asked: for replicas, for definitions. -/
  queries : Option (Nat × Nat)
  /-- What the handle shows, while it is held. -/
  monitor : Option State

def notices (seen : List Observation) : List Notice :=
  seen.filterMap fun o =>
    match o with
    | .notice n => some n
    | _ => none

/-- What is seen of a simulation after a command. -/
def reading (s : Simulation) (result : Result) : Reading where
  time := s.now
  result := result
  notices := notices s.observed
  queries :=
    match s.backend with
    | .memory c => some (c.replicaQueries, c.definitionQueries)
    | .file _ => none
  monitor := if s.hasHandle then s.monitor? else none

/-- The beat of the clock: commands are given at its multiples. -/
def beat : Nat := 8

/-- The first beat that is not before a time. -/
def nextBeat (time : Nat) : Nat := (time + (beat - 1)) / beat * beat

/-- When a command that is given now is done, as far as it takes time by itself. -/
def doneBy (s : Simulation) : Command → Nat
  | .advance ms => s.setup.clock.wake s.now ms
  | .replicas _ => s.replicaDisturbance.arrival s.setup.clock s.now
  | .definition _ => s.definitionDisturbance.arrival s.setup.clock s.now
  | .quorum _ => s.definitionDisturbance.arrival s.setup.clock s.now
  | _ => s.now

/-- Gives a command at the next beat and looks a millisecond after it is done. -/
def step (s : Simulation) (c : Command) : Simulation × Reading :=
  let s := s.advanceTo (nextBeat s.now)
  let done := s.doneBy c
  let (s, result) := s.perform c
  let s := s.advanceTo (max (done + 1) s.now)
  ({ s with observed := [] }, s.reading result)

/-- Gives commands one after the other. -/
def run : Simulation → List Command → List Reading
  | _, [] => []
  | s, c :: rest =>
    let (s, reading) := s.step c
    reading :: run s rest

end ReplicaWatch.Simulation
