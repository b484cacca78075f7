import ReplicaWatch.Monitor.State

/-!
# The steps of a monitor

`State.step?` is everything a monitor can do, one action at a time: a task runs from its point of suspension to
the next one, a query is answered or crashes, somebody outside asks the monitor to stop, takes a name, publishes a
signal or writes bytes, or time passes. Any order of possible actions is a run of the monitor. An action that
cannot happen in a state is none; a task that has nothing to do there cannot run.

- `Action`, `Observation`, `Effect`;
- the loop: `State.runLoop`, `State.ingest`, `State.enact`, `State.answerDefinition`, `State.crashLoop`;
- a watch: `State.runWatch`, `State.answerReplicas`, `State.crashWatch`, `State.deliver`;
- the world around: `State.requestStop`, `State.receive`, `State.dropReceiver`, `State.publish`.

Shutdown comes first everywhere: a task that finds a cause when it runs does not look at anything else that may
have become ready.
-/

namespace ReplicaWatch.Monitor

/-- Something that happens. -/
inductive Action
  | elapse (milliseconds : Nat)
  | runLoop
  | answerDefinition (answer : Except BackendError Definition)
  /-- The loop's question crashes it. -/
  | crashLoop (report : String)
  | runWatch (id : Nat)
  | answerReplicas (id : Nat) (answer : Except BackendError (List Replica))
  /-- A watch's question crashes it. -/
  | crashWatch (id : Nat) (report : String)
  /-- Somebody asks the monitor to stop. -/
  | requestStop
  /-- The consumer takes a name, or learns that there will be none. -/
  | receive
  | dropReceiver
  /-- A publisher comes with a signal. -/
  | publish (ticket : Nat) (s : Signal)
  | runPublisher (ticket : Nat)
  | giveUp (ticket : Nat)
  /-- No more publishers are let in. -/
  | endPublishing
  | write (bytes : List UInt8)
  | endInput

/-- Something that can be seen of a step. -/
inductive Observation
  | notice (n : Notice)
  | ingested (s : Signal)
  | askedDefinition (resource : String)
  | askedReplicas (id : Nat) (resource : String)
  | put (id : Nat) (resource : String)
  | received (resource : String)
  /-- The consumer learns that no name will come any more. -/
  | outputEnded
  /-- A publisher learns what becomes of its signal. -/
  | published (ticket : Nat) (s : Signal) (reply : Channel.Reply)
deriving DecidableEq

/-- The name that the consumer takes, if it takes one. -/
def Observation.received? : Observation → Option String
  | .received r => some r
  | _ => none

/-- The names that the consumer takes, in what is seen. -/
def receivedOf (seen : List Observation) : List String := seen.filterMap Observation.received?

/-- A state, and what was seen on the way to it. -/
abbrev Effect := State × List Observation

def State.noting (s : State) (n : Notice) : Effect := (s, [.notice n])

namespace State

/-! ## The loop -/

/-- What the loop does with the admission of a resource. -/
def enact (setup : Setup) (s : State) (resource : String) : Admission → Effect
  | .watch kind =>
    let delay := setup.config.delay kind
    let watch : Watch := ⟨s.nextId, resource, delay, .scheduled⟩
    ({ s with watches := s.watches ++ [watch], nextId := s.nextId + 1 }.count .watchesScheduled).noting
      (.scheduled resource kind delay)
  | .skip .alreadyWatched => (s.count .watchesCoalesced).noting (.coalesced resource)
  | .skip .noQuorum => (s.count .quorumlessSkips, [])

/-- The loop has taken a signal. A resource without an entry is asked about. -/
def ingest (setup : Setup) (s : State) (signal : Signal) : Effect :=
  let s := s.count .eventsReceived
  if !signal.mayPromote then (s.count .eventsIgnored, [.ingested signal])
  else
    match s.registry.admitKnown signal.resource with
    | some (registry, admission) =>
      let (s, seen) := enact setup { s with registry := registry } signal.resource admission
      (s, .ingested signal :: seen)
    | none =>
      ({ s with loop := .consulting signal.resource },
        [.ingested signal, .askedDefinition signal.resource])

/-- The loop takes note of a watch that is over, the one that has been so for longest. -/
def reap (s : State) : Option Effect :=
  match s.watches.find? (fun w => w.phase.isOver) with
  | none => none
  | some w =>
    let s := { s with watches := s.watches.eraseP (fun w => w.phase.isOver) }
    match w.phase with
    | .crashed report => some (s.noting (.watcherFailed report))
    | _ => some (s, [])

/-- The loop looks for the next signal. -/
def listen (setup : Setup) (s : State) : Option Effect :=
  match s.source.next with
  | (.nothing, _, _) => none
  | (.skipped, source, notices) => some ({ s with source := source }, notices.map .notice)
  | (.signal signal, source, notices) =>
    let (s, seen) := ingest setup { s with source := source } signal
    some (s, notices.map .notice ++ seen)
  | (.ended, source, notices) =>
    some ({ s with source := source.close, cause := s.cause.or (some .streamEnded), loop := .draining },
      notices.map .notice ++ [.notice (.streamEnded setup.monitor)])

def runLoop (setup : Setup) (s : State) : Option Effect :=
  match s.loop with
  | .starting =>
    some ({ s with loop := .listening }.noting
      (.monitorStart setup.monitor setup.config.initialDelay setup.config.existingDelay))
  | .listening =>
    if s.isStopping then some ({ s with loop := .draining, source := s.source.close }, [])
    else s.reap.or (listen setup s)
  | .consulting _ => if s.isStopping then some ({ s with loop := .listening }, []) else none
  | .draining =>
    match s.reap with
    | some effect => some effect
    | none =>
      if s.watches.isEmpty then
        let cause := s.cause.getD .stopped
        some ({ s with loop := .stopped cause }.noting (.monitorStopped setup.monitor cause s.registry.size))
      else none
  | .stopped _ => none
  | .crashed _ => none

/-- The loop's question for a definition is answered. -/
def answerDefinition (setup : Setup) (s : State) (answer : Except BackendError Definition) : Option Effect :=
  match s.loop with
  | .consulting resource =>
    let s := { s with loop := .listening }
    if s.isStopping then some (s, [])
    else
      match answer with
      | .error e => some ((s.count .quorumQueryFailures).noting (.quorumUnknown resource e))
      | .ok definition =>
        let (registry, admission) := s.registry.admitNew resource definition.hasQuorum
        let (s, seen) := enact setup { s with registry := registry } resource admission
        some (s, .notice (.observed resource definition.hasQuorum) :: seen)
  | _ => none

/-- The loop's question crashes it: the stream and all watches go down with it. -/
def crashLoop (s : State) (report : String) : Option Effect :=
  match s.loop with
  | .consulting _ =>
    if s.isStopping then some ({ s with loop := .listening }, [])
    else
      some ({ s with
        loop := .crashed report
        source := s.source.close
        watches := []
        output := { s.output with granted := [], waiting := [] } }, [])
  | _ => none

/-! ## A watch -/

/-- A watch ends because the monitor stops. The registry stays as it is. -/
def cancelWatch (s : State) (w : Watch) : Effect :=
  (((s.setPhase w.id (.finished .cancelled)).count .cancellations).noting (.cancelled w.resource))

/-- A watch ends because its resource is to be forgotten. -/
def removeResource (s : State) (w : Watch) (reason : RemovalReason) : Effect :=
  (({ s with registry := s.registry.remove w.resource }.setPhase w.id (.finished (.removed reason))).count
    .removals).noting (.removed w.resource reason)

/-- A watch ends and its resource can be watched again. -/
def finishWatch (s : State) (w : Watch) (outcome : Outcome) : State :=
  { s with registry := s.registry.finishWatch w.resource }.setPhase w.id (.finished outcome)

/-- A watch ends because the cluster could not be asked; the monitor stops for it. -/
def failWatch (s : State) (w : Watch) (error : BackendError) : Effect :=
  ({ s with cause := s.cause.or (some (.backendFailure error)) }.setPhase w.id (.finished (.failed error)) |>.count
    .backendFailures).noting (.backendFailure w.resource error)

/-- What a watch does with the reply of the output. -/
def deliver (s : State) (w : Watch) : Channel.Reply → Effect
  | .sent =>
    ((s.finishWatch w .notified).count .notifications,
      [.put w.id w.resource, .notice (.userLost w.resource true)])
  | .refused => (s.finishWatch w .undelivered).noting (.userLost w.resource false)
  | .blocked => (s.setPhase w.id .sending, [])

/-- What a watch does with the replicas of its resource. -/
def judge (s : State) (w : Watch) (replicas : List Replica) : Effect :=
  match Verdict.ofReplicas replicas with
  | .mismatch kind => s.removeResource w (.layerMismatch kind)
  | .settled => ((s.finishWatch w .settled).count .settled).noting (.settled w.resource)
  | .promotable =>
    let (reply, output) := s.output.offer w.id w.resource
    { s with output := output }.deliver w reply

def runWatch (setup : Setup) (s : State) (id : Nat) : Option Effect :=
  match s.watch? id with
  | none => none
  | some w =>
    match w.phase with
    | .scheduled =>
      if s.isStopping then some (s.cancelWatch w)
      else some (s.setPhase id (.waiting (setup.clock.wake s.now w.delay)), [])
    | .waiting deadline =>
      if s.isStopping then some (s.cancelWatch w)
      else if deadline ≤ s.now then some (s.setPhase id .asking, [.askedReplicas id w.resource])
      else none
    | .asking => if s.isStopping then some (s.cancelWatch w) else none
    | .sending =>
      if s.isStopping then some ({ s with output := s.output.withdraw id }.cancelWatch w)
      else
        match s.output.resume id with
        | (.blocked, _) => none
        | (reply, output) => some ({ s with output := output }.deliver w reply)
    | .finished _ => none
    | .crashed _ => none

/-- A watch's question for replicas is answered. -/
def answerReplicas (s : State) (id : Nat) (answer : Except BackendError (List Replica)) : Option Effect :=
  match s.watch? id with
  | none => none
  | some w =>
    if w.phase ≠ .asking then none
    else if s.isStopping then some (s.cancelWatch w)
    else
      match answer with
      | .ok replicas => some (s.judge w replicas)
      | .error e => if e.isNotFound then some (s.removeResource w .notFound) else some (s.failWatch w e)

/-- A watch's question crashes it. The registry stays as it is. -/
def crashWatch (s : State) (id : Nat) (report : String) : Option Effect :=
  match s.watch? id with
  | none => none
  | some w =>
    if w.phase ≠ .asking then none
    else if s.isStopping then some (s.cancelWatch w)
    else some (s.setPhase id (.crashed report), [])

/-! ## The world around -/

/-- Somebody asks the monitor to stop. Only the first cause of shutdown counts and is reported. -/
def requestStop (setup : Setup) (s : State) : Effect :=
  if s.isStopping then (s, [])
  else { s with cause := some .stopped }.noting (.stopRequested setup.monitor)

/-- The consumer takes a name, or learns that there will be none; it waits as long as neither can be. -/
def receive (s : State) : Option Effect :=
  if !s.output.isOpen then none
  else
    match s.output.take with
    | some (resource, output) => some ({ s with output := output }, [.received resource])
    | none => if s.isOutputEnded then some (s, [.outputEnded]) else none

def dropReceiver (s : State) : State := { s with output := s.output.discard }

/-- A publisher comes with a signal, or looks again. -/
def publish (s : State) (ticket : Nat) (signal : Signal)
    (attempt : SignalQueue → Channel.Reply × SignalQueue) : Option Effect :=
  match s.source with
  | .feed _ => none
  | .queue q =>
    let (reply, q) := attempt q
    some ({ s with source := .queue q }, [.published ticket signal reply])

/-- The signal that a publisher waits with. -/
def pending? (s : State) (ticket : Nat) : Option Signal :=
  match s.source with
  | .feed _ => none
  | .queue q => ((q.channel.granted ++ q.channel.waiting).find? (Channel.isFrom ticket)).map (fun e => e.2)

def onQueue (s : State) (f : SignalQueue → SignalQueue) : Option Effect :=
  match s.source with
  | .feed _ => none
  | .queue q => some ({ s with source := .queue (f q) }, [])

def onFeed (s : State) (f : Feed → Feed) : Option Effect :=
  match s.source with
  | .queue _ => none
  | .feed feed => some ({ s with source := .feed (f feed) }, [])

/-- Everything a monitor can do. -/
def step? (setup : Setup) (s : State) : Action → Option Effect
  | .elapse ms => some ({ s with now := s.now + ms }, [])
  | .runLoop => runLoop setup s
  | .answerDefinition answer => answerDefinition setup s answer
  | .crashLoop report => s.crashLoop report
  | .runWatch id => runWatch setup s id
  | .answerReplicas id answer => s.answerReplicas id answer
  | .crashWatch id report => s.crashWatch id report
  | .requestStop => some (requestStop setup s)
  | .receive => s.receive
  | .dropReceiver => some (s.dropReceiver, [])
  | .publish ticket signal => s.publish ticket signal (fun q => q.publish ticket signal)
  | .runPublisher ticket =>
    match s.pending? ticket with
    | none => none
    | some signal => s.publish ticket signal (fun q => q.resume ticket)
  | .giveUp ticket => s.onQueue (fun q => q.withdraw ticket)
  | .endPublishing => s.onQueue SignalQueue.endPublishing
  | .write bytes => s.onFeed (fun f => f.write bytes)
  | .endInput => s.onFeed Feed.endInput

end State

end ReplicaWatch.Monitor
