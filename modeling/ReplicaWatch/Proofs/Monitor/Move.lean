import ReplicaWatch.Proofs.Monitor.Ending

/-!
# The moves of a monitor

`Move setup s a t seen` lists everything that a step can be, one rule for each way a task goes from one point of
suspension to the next, with its guard, the state after it and what is seen of it. `move_of_step?` says that every
step is one of them, as long as the resource that the loop asks about has no entry (`State.Unrecorded`), which every
move keeps (`Move.unrecorded`).

- `State.taking`, `State.spawning`: a signal is taken, a watch is scheduled;
- `Advance`: the moves of a watch that do not end it; `Ending`: those that do, by outcome.
-/

namespace ReplicaWatch.Monitor

/-! ## The parts of a move -/

/-- The loop waits for a signal, and nothing else is to be done first. -/
structure State.IsListening (s : State) : Prop where
  loop : s.loop = .listening
  going : s.isStopping = false
  reaped : s.watches.find? (fun w => w.phase.isOver) = none

namespace State

/-- The loop has taken a signal from the stream. -/
def taking (s : State) (source : Source) : State :=
  { s with source := source, metrics := s.metrics.add 1 .eventsReceived }

/-- The watch that is scheduled next for a resource. -/
def nextWatch (setup : Setup) (s : State) (resource : String) (kind : DelayKind) : Watch :=
  ⟨s.nextId, resource, setup.config.delay kind, .scheduled⟩

/-- A watch of a resource is scheduled, and its entry says so. -/
def spawning (setup : Setup) (s : State) (resource : String) (kind : DelayKind) : State :=
  { s with
    registry := s.registry.insert resource ⟨true, true⟩
    metrics := s.metrics.add 1 .watchesScheduled
    watches := s.watches ++ [s.nextWatch setup resource kind]
    nextId := s.nextId + 1 }

/-- The resource that the loop asks about has no entry. -/
def Unrecorded (s : State) : Prop := ∀ r, s.loop = .consulting r → s.registry.get? r = none

end State

/-- What is seen when the loop takes note of a watch that is over. -/
def obituary (w : Watch) : List Observation :=
  match w.phase with
  | .crashed report => [.notice (.watcherFailed report)]
  | _ => []

/-- A watch goes on: the action, the phase and the output after it, and what is seen. -/
inductive Advance (setup : Setup) (s : State) (w : Watch) :
    Action → WatchPhase → Channel String → List Observation → Prop
  /-- It begins to wait. -/
  | sleep : w.phase = .scheduled → s.isStopping = false →
      Advance setup s w (.runWatch w.id) (.waiting (setup.clock.wake s.now w.delay)) s.output []
  /-- Its delay is over and it asks. -/
  | ask {deadline : Nat} : w.phase = .waiting deadline → s.isStopping = false → deadline ≤ s.now →
      Advance setup s w (.runWatch w.id) .asking s.output [.askedReplicas w.id w.resource]
  /-- It finds no room for its name. -/
  | block {replicas : List Replica} {output : Channel String} : w.phase = .asking → s.isStopping = false →
      Verdict.ofReplicas replicas = .promotable → s.output.offer w.id w.resource = (.blocked, output) →
      Advance setup s w (.answerReplicas w.id (.ok replicas)) .sending output []

/-- A watch ends: the action, its outcome and the output after it. -/
inductive Ending (s : State) (w : Watch) : Action → Outcome → Channel String → Prop
  /-- Shutdown came first. -/
  | cancel {a : Action} : s.isStopping = true → w.phase ≠ .sending → Ending s w a .cancelled s.output
  /-- Shutdown came while it waited for room. -/
  | withdraw : s.isStopping = true → w.phase = .sending →
      Ending s w (.runWatch w.id) .cancelled (s.output.withdraw w.id)
  | vanish {error : BackendError} : w.phase = .asking → s.isStopping = false → error.isNotFound = true →
      Ending s w (.answerReplicas w.id (.error error)) (.removed .notFound) s.output
  | mismatch {replicas : List Replica} {kind : LayerKind} : w.phase = .asking → s.isStopping = false →
      Verdict.ofReplicas replicas = .mismatch kind →
      Ending s w (.answerReplicas w.id (.ok replicas)) (.removed (.layerMismatch kind)) s.output
  | settle {replicas : List Replica} : w.phase = .asking → s.isStopping = false →
      Verdict.ofReplicas replicas = .settled → Ending s w (.answerReplicas w.id (.ok replicas)) .settled s.output
  /-- There is room for its name at once. -/
  | send {replicas : List Replica} {output : Channel String} : w.phase = .asking → s.isStopping = false →
      Verdict.ofReplicas replicas = .promotable → s.output.offer w.id w.resource = (.sent, output) →
      Ending s w (.answerReplicas w.id (.ok replicas)) .notified output
  /-- It has been granted a place. -/
  | sendLater {output : Channel String} : w.phase = .sending → s.isStopping = false →
      s.output.resume w.id = (.sent, output) → Ending s w (.runWatch w.id) .notified output
  | refuse {replicas : List Replica} {output : Channel String} : w.phase = .asking → s.isStopping = false →
      Verdict.ofReplicas replicas = .promotable → s.output.offer w.id w.resource = (.refused, output) →
      Ending s w (.answerReplicas w.id (.ok replicas)) .undelivered output
  | refuseLater {output : Channel String} : w.phase = .sending → s.isStopping = false →
      s.output.resume w.id = (.refused, output) → Ending s w (.runWatch w.id) .undelivered output
  | fail {error : BackendError} : w.phase = .asking → s.isStopping = false → error.isNotFound = false →
      Ending s w (.answerReplicas w.id (.error error)) (.failed error) s.output

/-! ## The moves -/

/-- A step: the state before it, the action, the state after it and what is seen. -/
inductive Move (setup : Setup) (s : State) : Action → State → List Observation → Prop
  | elapse (ms : Nat) : Move setup s (.elapse ms) { s with now := s.now + ms } []
  -- the loop
  | begin : s.loop = .starting →
      Move setup s .runLoop { s with loop := .listening }
        [.notice (.monitorStart setup.monitor setup.config.initialDelay setup.config.existingDelay)]
  | heed : s.loop = .listening → s.isStopping = true →
      Move setup s .runLoop { s with loop := .draining, source := s.source.close } []
  | reap {w : Watch} : s.loop = .listening ∧ s.isStopping = false ∨ s.loop = .draining →
      s.watches.find? (fun w => w.phase.isOver) = some w →
      Move setup s .runLoop { s with watches := s.watches.eraseP fun w => w.phase.isOver } (obituary w)
  | skip {source : Source} {notices : List Notice} : s.IsListening →
      s.source.next = (.skipped, source, notices) →
      Move setup s .runLoop { s with source := source } (notices.map .notice)
  | ignore {r : String} {source : Source} : s.IsListening → s.source.next = (.signal ⟨r, false⟩, source, []) →
      Move setup s .runLoop ((s.taking source).count .eventsIgnored) [.ingested ⟨r, false⟩]
  | coalesce {r : String} {e : Record} {source : Source} : s.IsListening →
      s.source.next = (.signal ⟨r, true⟩, source, []) → s.registry.get? r = some e → e.isWatched = true →
      Move setup s .runLoop ((s.taking source).count .watchesCoalesced)
        [.ingested ⟨r, true⟩, .notice (.coalesced r)]
  | passOver {r : String} {source : Source} : s.IsListening → s.source.next = (.signal ⟨r, true⟩, source, []) →
      s.registry.get? r = some ⟨false, false⟩ →
      Move setup s .runLoop ((s.taking source).count .quorumlessSkips) [.ingested ⟨r, true⟩]
  | rewatch {r : String} {source : Source} : s.IsListening → s.source.next = (.signal ⟨r, true⟩, source, []) →
      s.registry.get? r = some ⟨true, false⟩ →
      Move setup s .runLoop ((s.taking source).spawning setup r .existing)
        [.ingested ⟨r, true⟩, .notice (.scheduled r .existing (setup.config.delay .existing))]
  | consult {r : String} {source : Source} : s.IsListening → s.source.next = (.signal ⟨r, true⟩, source, []) →
      s.registry.get? r = none →
      Move setup s .runLoop { s.taking source with loop := .consulting r } [.ingested ⟨r, true⟩, .askedDefinition r]
  | endStream {source : Source} {notices : List Notice} : s.IsListening →
      s.source.next = (.ended, source, notices) →
      Move setup s .runLoop { s with source := source.close, cause := some .streamEnded, loop := .draining }
        (notices.map .notice ++ [.notice (.streamEnded setup.monitor)])
  | abandon {r : String} {a : Action} : s.loop = .consulting r → s.isStopping = true →
      Move setup s a { s with loop := .listening } []
  | shrug {r : String} {error : BackendError} : s.loop = .consulting r → s.isStopping = false →
      Move setup s (.answerDefinition (.error error)) ({ s with loop := .listening }.count .quorumQueryFailures)
        [.notice (.quorumUnknown r error)]
  | record {r : String} {d : Definition} : s.loop = .consulting r → s.isStopping = false → s.registry.get? r = none →
      d.hasQuorum = false →
      Move setup s (.answerDefinition (.ok d))
        ({ s with loop := .listening, registry := s.registry.insert r ⟨false, false⟩ }.count .quorumlessSkips)
        [.notice (.observed r false)]
  | watch {r : String} {d : Definition} : s.loop = .consulting r → s.isStopping = false → s.registry.get? r = none →
      d.hasQuorum = true →
      Move setup s (.answerDefinition (.ok d)) ({ s with loop := .listening }.spawning setup r .initial)
        [.notice (.observed r true), .notice (.scheduled r .initial (setup.config.delay .initial))]
  | stop : s.loop = .draining → s.watches = [] →
      Move setup s .runLoop { s with loop := .stopped (s.cause.getD .stopped) }
        [.notice (.monitorStopped setup.monitor (s.cause.getD .stopped) s.registry.size)]
  | crashLoop {r report : String} : s.loop = .consulting r → s.isStopping = false →
      Move setup s (.crashLoop report)
        { s with
          loop := .crashed report
          source := s.source.close
          watches := []
          output := { s.output with granted := [], waiting := [] } } []
  -- a watch
  | advance {w : Watch} {a : Action} {phase : WatchPhase} {output : Channel String} {seen : List Observation} :
      s.watch? w.id = some w → Advance setup s w a phase output seen →
      Move setup s a { s with watches := (s.setPhase w.id phase).watches, output := output } seen
  | crashWatch {w : Watch} {report : String} : s.watch? w.id = some w → w.phase = .asking → s.isStopping = false →
      Move setup s (.crashWatch w.id report) (s.setPhase w.id (.crashed report)) []
  | conclude {w : Watch} {a : Action} {o : Outcome} {output : Channel String} : s.watch? w.id = some w →
      w.phase.isOver = false → Ending s w a o output → Move setup s a (s.conclude w o output) (o.seen w)
  -- the world around
  | requestStop : s.isStopping = false →
      Move setup s .requestStop { s with cause := some .stopped } [.notice (.stopRequested setup.monitor)]
  | requestAgain : s.isStopping = true → Move setup s .requestStop s []
  | receive {resource : String} {output : Channel String} : s.output.isOpen = true →
      s.output.take = some (resource, output) → Move setup s .receive { s with output := output } [.received resource]
  | receiveEnd : s.output.isOpen = true → s.output.take = none → s.isOutputEnded = true →
      Move setup s .receive s [.outputEnded]
  | dropReceiver : Move setup s .dropReceiver { s with output := s.output.discard } []
  | publish {q : SignalQueue} (ticket : Nat) (signal : Signal) : s.source = .queue q →
      Move setup s (.publish ticket signal) { s with source := .queue (q.publish ticket signal).2 }
        [.published ticket signal (q.publish ticket signal).1]
  | runPublisher {q : SignalQueue} {ticket : Nat} {signal : Signal} : s.source = .queue q →
      s.pending? ticket = some signal →
      Move setup s (.runPublisher ticket) { s with source := .queue (q.resume ticket).2 }
        [.published ticket signal (q.resume ticket).1]
  | giveUp {q : SignalQueue} (ticket : Nat) : s.source = .queue q →
      Move setup s (.giveUp ticket) { s with source := .queue (q.withdraw ticket) } []
  | endPublishing {q : SignalQueue} : s.source = .queue q →
      Move setup s .endPublishing { s with source := .queue q.endPublishing } []
  | write {f : Feed} (bytes : List UInt8) : s.source = .feed f →
      Move setup s (.write bytes) { s with source := .feed (f.write bytes) } []
  | endInput {f : Feed} : s.source = .feed f → Move setup s .endInput { s with source := .feed f.endInput } []

variable {setup : Setup} {s t : State} {a : Action} {seen : List Observation}

/-- A watch that is taken note of shows nothing but that it failed. -/
theorem eq_notice_of_mem_obituary {w : Watch} {o : Observation} (ho : o ∈ obituary w) :
    ∃ report, o = .notice (.watcherFailed report) := by
  unfold obituary at ho
  split at ho
  · exact ⟨_, List.mem_singleton.mp ho⟩
  · cases ho

/-- A watch that goes on is under way. -/
theorem Advance.isOver_eq_false {w : Watch} {phase : WatchPhase} {output : Channel String}
    (h : Advance setup s w a phase output seen) : w.phase.isOver = false := by
  cases h with
  | sleep hp | ask hp | block hp => rw [hp]; rfl

/-! ## Every step is a move -/

theorem notices_of_next_signal_feed {f g : Feed} {signal : Signal} {notices : List Notice}
    (h : f.next = (.signal signal, g, notices)) : notices = [] := by
  unfold Feed.next at h
  split at h
  · cases h
  · split at h
    · split at h <;> cases h
    · dsimp only at h
      split at h <;> cases h
      rfl

/-- A signal comes without notices. -/
theorem notices_of_next_signal {source after : Source} {signal : Signal} {notices : List Notice}
    (h : source.next = (.signal signal, after, notices)) : notices = [] := by
  cases source with
  | queue q =>
    simp only [Source.next, Prod.mk.injEq] at h
    exact h.2.2.symm
  | feed f =>
    cases hf : f.next with
    | mk taken rest =>
      obtain ⟨g, ns⟩ := rest
      simp only [Source.next, hf, Prod.mk.injEq] at h
      obtain ⟨rfl, -, rfl⟩ := h
      exact notices_of_next_signal_feed hf

theorem insert_get?_self {g : Registry} {r : String} {e : Record} (h : g.get? r = some e) : g.insert r e = g := by
  refine NameMap.ext_get? fun name => ?_
  rw [NameMap.get?_insert]
  split
  · rename_i heq
    rw [← heq, h]
  · rfl

theorem move_of_listen (hl : s.IsListening) (h : s.listen setup = some (t, seen)) : Move setup s .runLoop t seen := by
  unfold State.listen at h
  split at h
  · cases h
  · rename_i source notices hn
    cases h
    exact .skip hl hn
  · rename_i signal source notices hn
    cases notices_of_next_signal hn
    obtain ⟨r, mayPromote⟩ := signal
    cases mayPromote with
    | false => cases h; exact .ignore hl hn
    | true =>
      cases hg : s.registry.get? r with
      | none =>
        simp [State.ingest, State.count, Registry.admitKnown, hg] at h
        obtain ⟨rfl, rfl⟩ := h
        exact .consult hl hn hg
      | some e =>
        obtain ⟨hasQuorum, isWatched⟩ := e
        cases isWatched with
        | true =>
          simp [State.ingest, State.enact, State.noting, State.count, Registry.admitKnown, Record.readmit, hg,
            insert_get?_self hg] at h
          obtain ⟨rfl, rfl⟩ := h
          exact .coalesce hl hn hg rfl
        | false =>
          cases hasQuorum with
          | false =>
            simp [State.ingest, State.enact, State.count, Registry.admitKnown, Record.readmit, hg,
              insert_get?_self hg] at h
            obtain ⟨rfl, rfl⟩ := h
            exact .passOver hl hn hg
          | true =>
            simp [State.ingest, State.enact, State.noting, State.count, Registry.admitKnown, Record.readmit, hg] at h
            obtain ⟨rfl, rfl⟩ := h
            exact .rewatch hl hn hg
  · rename_i source notices hn
    have hc : s.cause = none := by simpa [State.isStopping] using hl.going
    simp only [hc, Option.none_or] at h
    cases h
    exact .endStream hl hn

/-- The loop takes note of the first watch that is over. -/
theorem eq_of_reap (h : s.reap = some (t, seen)) :
    ∃ w, s.watches.find? (fun w => w.phase.isOver) = some w ∧
      t = { s with watches := s.watches.eraseP fun w => w.phase.isOver } ∧ seen = obituary w := by
  unfold State.reap at h
  split at h
  · cases h
  · rename_i w hw
    refine ⟨w, hw, ?_⟩
    unfold obituary
    dsimp only at h
    split at h <;> cases h <;> simp_all

theorem move_of_reap (hl : s.loop = .listening ∧ s.isStopping = false ∨ s.loop = .draining)
    (h : s.reap = some (t, seen)) : Move setup s .runLoop t seen := by
  obtain ⟨w, hw, rfl, rfl⟩ := eq_of_reap h
  exact .reap hl hw

theorem reap_eq_none_iff : s.reap = none ↔ s.watches.find? (fun w => w.phase.isOver) = none := by
  unfold State.reap
  cases hf : s.watches.find? (fun w => w.phase.isOver) with
  | none => simp
  | some w => simp only [reduceCtorEq, iff_false]; split <;> simp

theorem move_of_runLoop (h : s.runLoop setup = some (t, seen)) : Move setup s .runLoop t seen := by
  unfold State.runLoop at h
  split at h
  · rename_i hl
    cases h
    exact .begin hl
  · rename_i hl
    split at h
    · rename_i hs
      cases h
      exact .heed hl hs
    · rename_i hs
      simp only [Bool.not_eq_true] at hs
      cases hr : s.reap with
      | some effect =>
        rw [hr] at h
        cases h
        exact move_of_reap (.inl ⟨hl, hs⟩) hr
      | none =>
        rw [hr] at h
        exact move_of_listen ⟨hl, hs, reap_eq_none_iff.mp hr⟩ h
  · rename_i r hl
    split at h
    · rename_i hs
      cases h
      exact .abandon hl hs
    · cases h
  · rename_i hl
    split at h
    · rename_i effect hr
      cases h
      exact move_of_reap (.inr hl) hr
    · split at h
      · rename_i he
        cases h
        exact .stop hl (List.isEmpty_iff.mp he)
      · cases h
  · cases h
  · cases h

theorem move_of_answerDefinition {answer : Except BackendError Definition} (hu : s.Unrecorded)
    (h : s.answerDefinition setup answer = some (t, seen)) : Move setup s (.answerDefinition answer) t seen := by
  unfold State.answerDefinition at h
  split at h
  · rename_i r hl
    have hg := hu r hl
    dsimp only at h
    split at h
    · rename_i hs
      cases h
      exact .abandon hl hs
    · rename_i hs
      have hs : s.isStopping = false := by simpa [State.isStopping] using hs
      cases answer with
      | error e => cases h; exact .shrug hl hs
      | ok d =>
        have hn : s.registry.admitKnown r = none := (Registry.admitKnown_eq_none_iff _ _).mpr hg
        cases hq : d.hasQuorum with
        | false =>
          simp [Registry.admitNew, hn, Record.first, hq, State.enact] at h
          obtain ⟨rfl, rfl⟩ := h
          exact .record hl hs hg hq
        | true =>
          simp [Registry.admitNew, hn, Record.first, hq, State.enact, State.noting] at h
          obtain ⟨rfl, rfl⟩ := h
          exact .watch hl hs hg hq
  · cases h

theorem move_of_crashLoop {report : String} (h : s.crashLoop report = some (t, seen)) :
    Move setup s (.crashLoop report) t seen := by
  unfold State.crashLoop at h
  split at h
  · rename_i r hl
    split at h
    · rename_i hs
      cases h
      exact .abandon hl hs
    · rename_i hs
      cases h
      exact .crashLoop hl (by simpa using hs)
  · cases h

theorem id_of_watch? {id : Nat} {w : Watch} (h : s.watch? id = some w) : w.id = id := by
  simpa using List.find?_some h

theorem move_of_deliver {w : Watch} {reply : Channel.Reply} {output : Channel String} (hw : s.watch? w.id = some w)
    (hp : w.phase.isOver = false) (hsent : reply = .sent → Ending s w a .notified output)
    (hrefused : reply = .refused → Ending s w a .undelivered output)
    (hblocked : reply = .blocked → Advance setup s w a .sending output []) :
    Move setup s a ({ s with output := output }.deliver w reply).1 ({ s with output := output }.deliver w reply).2 := by
  cases reply with
  | sent => rw [State.deliver_sent_eq]; exact .conclude hw hp (hsent rfl)
  | refused => rw [State.deliver_refused_eq]; exact .conclude hw hp (hrefused rfl)
  | blocked => exact .advance hw (hblocked rfl)

theorem move_of_runWatch {id : Nat} (h : s.runWatch setup id = some (t, seen)) :
    Move setup s (.runWatch id) t seen := by
  unfold State.runWatch at h
  split at h
  · cases h
  rename_i w hw
  cases id_of_watch? hw
  have cancelled (hs : s.isStopping = true) (hp : w.phase.isOver = false) (hne : w.phase ≠ .sending)
      (h : some (s.cancelWatch w) = some (t, seen)) : Move setup s (.runWatch w.id) t seen := by
    rw [State.cancelWatch_eq s w s.output] at h
    cases h
    exact .conclude hw hp (.cancel hs hne)
  split at h
  · rename_i hp
    split at h
    · rename_i hs
      exact cancelled hs (by simp [hp, WatchPhase.isOver]) (by simp [hp]) h
    · rename_i hs
      cases h
      exact .advance hw (.sleep hp (by simpa using hs))
  · rename_i deadline hp
    split at h
    · rename_i hs
      exact cancelled hs (by simp [hp, WatchPhase.isOver]) (by simp [hp]) h
    · rename_i hs
      split at h
      · rename_i hd
        cases h
        exact .advance hw (.ask hp (by simpa using hs) hd)
      · cases h
  · rename_i hp
    split at h
    · rename_i hs
      exact cancelled hs (by simp [hp, WatchPhase.isOver]) (by simp [hp]) h
    · cases h
  · rename_i hp
    have ho : w.phase.isOver = false := by simp [hp, WatchPhase.isOver]
    split at h
    · rename_i hs
      rw [State.cancelWatch_eq] at h
      cases h
      exact .conclude hw ho (.withdraw hs hp)
    · rename_i hs
      have hs : s.isStopping = false := by simpa using hs
      cases hr : s.output.resume w.id with
      | mk reply output =>
        rw [hr] at h
        cases reply with
        | blocked => cases h
        | sent =>
          have h : some ({ s with output := output }.deliver w .sent) = some (t, seen) := h
          rw [State.deliver_sent_eq] at h
          cases h
          exact .conclude hw ho (.sendLater hp hs hr)
        | refused =>
          have h : some ({ s with output := output }.deliver w .refused) = some (t, seen) := h
          rw [State.deliver_refused_eq] at h
          cases h
          exact .conclude hw ho (.refuseLater hp hs hr)
  · cases h
  · cases h

theorem move_of_judge {w : Watch} {replicas : List Replica} (hw : s.watch? w.id = some w) (hp : w.phase = .asking)
    (hs : s.isStopping = false) :
    Move setup s (.answerReplicas w.id (.ok replicas)) (s.judge w replicas).1 (s.judge w replicas).2 := by
  have ho : w.phase.isOver = false := by simp [hp, WatchPhase.isOver]
  unfold State.judge
  split
  · rename_i kind hv
    rw [State.removeResource_eq]
    exact .conclude hw ho (.mismatch hp hs hv)
  · rename_i hv
    rw [State.settle_eq]
    exact .conclude hw ho (.settle hp hs hv)
  · rename_i hv
    cases hr : s.output.offer w.id w.resource with
    | mk reply output =>
      refine move_of_deliver hw ho (fun h => ?_) (fun h => ?_) (fun h => ?_)
      · exact .send hp hs hv (by rw [hr, h])
      · exact .refuse hp hs hv (by rw [hr, h])
      · exact .block hp hs hv (by rw [hr, h])

theorem move_of_answerReplicas {id : Nat} {answer : Except BackendError (List Replica)}
    (h : s.answerReplicas id answer = some (t, seen)) : Move setup s (.answerReplicas id answer) t seen := by
  unfold State.answerReplicas at h
  split at h
  · cases h
  rename_i w hw
  cases id_of_watch? hw
  split at h
  · cases h
  rename_i hp
  have hp : w.phase = .asking := by simpa using hp
  have ho : w.phase.isOver = false := by simp [hp, WatchPhase.isOver]
  split at h
  · rename_i hs
    rw [State.cancelWatch_eq s w s.output] at h
    cases h
    exact .conclude hw ho (.cancel hs (by simp [hp]))
  · rename_i hs
    have hs : s.isStopping = false := by simpa using hs
    cases answer with
    | ok replicas =>
      have h : s.judge w replicas = (t, seen) := Option.some.inj h
      have hm : Move setup s (.answerReplicas w.id (.ok replicas)) (s.judge w replicas).1 (s.judge w replicas).2 :=
        move_of_judge hw hp hs
      rwa [h] at hm
    | error e =>
      dsimp only at h
      split at h
      · rename_i he
        rw [State.removeResource_eq] at h
        cases h
        exact .conclude hw ho (.vanish hp hs he)
      · rename_i he
        rw [State.failWatch_eq] at h
        cases h
        exact .conclude hw ho (.fail hp hs (by simpa using he))

theorem move_of_crashWatch {id : Nat} {report : String} (h : s.crashWatch id report = some (t, seen)) :
    Move setup s (.crashWatch id report) t seen := by
  unfold State.crashWatch at h
  split at h
  · cases h
  rename_i w hw
  cases id_of_watch? hw
  split at h
  · cases h
  rename_i hp
  have hp : w.phase = .asking := by simpa using hp
  split at h
  · rename_i hs
    rw [State.cancelWatch_eq s w s.output] at h
    cases h
    exact .conclude hw (by simp [hp, WatchPhase.isOver]) (.cancel hs (by simp [hp]))
  · rename_i hs
    cases h
    exact .crashWatch hw hp (by simpa using hs)

/-- **Every step is a move.** -/
theorem move_of_step? (hu : s.Unrecorded) (h : s.step? setup a = some (t, seen)) : Move setup s a t seen := by
  cases a with
  | elapse ms => cases h; exact .elapse ms
  | runLoop => exact move_of_runLoop h
  | answerDefinition answer => exact move_of_answerDefinition hu h
  | crashLoop report => exact move_of_crashLoop h
  | runWatch id => exact move_of_runWatch h
  | answerReplicas id answer => exact move_of_answerReplicas h
  | crashWatch id report => exact move_of_crashWatch h
  | requestStop =>
    simp only [State.step?, State.requestStop] at h
    split at h
    · rename_i hs
      cases h
      exact .requestAgain hs
    · rename_i hs
      cases h
      exact .requestStop (by simpa using hs)
  | receive =>
    simp only [State.step?, State.receive] at h
    split at h
    · cases h
    · rename_i ho
      have ho : s.output.isOpen = true := by simpa using ho
      split at h
      · rename_i resource output ht
        cases h
        exact .receive ho ht
      · rename_i ht
        split at h
        · rename_i he
          cases h
          exact .receiveEnd ho ht he
        · cases h
  | dropReceiver => cases h; exact .dropReceiver
  | publish ticket signal =>
    simp only [State.step?, State.publish] at h
    split at h
    · cases h
    · rename_i q hq
      cases h
      exact .publish ticket signal hq
  | runPublisher ticket =>
    simp only [State.step?] at h
    split at h
    · cases h
    · rename_i signal hp
      simp only [State.publish] at h
      split at h
      · cases h
      · rename_i q hq
        cases h
        exact .runPublisher hq hp
  | giveUp ticket =>
    simp only [State.step?, State.onQueue] at h
    split at h
    · cases h
    · rename_i q hq
      cases h
      exact .giveUp ticket hq
  | endPublishing =>
    simp only [State.step?, State.onQueue] at h
    split at h
    · cases h
    · rename_i q hq
      cases h
      exact .endPublishing hq
  | write bytes =>
    simp only [State.step?, State.onFeed] at h
    split at h
    · cases h
    · rename_i f hf
      cases h
      exact .write bytes hf
  | endInput =>
    simp only [State.step?, State.onFeed] at h
    split at h
    · cases h
    · rename_i f hf
      cases h
      exact .endInput hf

/-- Every move keeps the resource that the loop asks about without an entry. -/
theorem Move.unrecorded (h : Move setup s a t seen) (hu : s.Unrecorded) : t.Unrecorded := by
  intro r hr
  cases h with
  | consult hl hn hg => cases hr; exact hg
  | coalesce hl => exact absurd (hl.loop.symm.trans hr) nofun
  | passOver hl => exact absurd (hl.loop.symm.trans hr) nofun
  | rewatch hl => exact absurd (hl.loop.symm.trans hr) nofun
  | conclude => exact Outcome.get?_registry_of_none _ _ (hu r hr)
  | begin | heed | abandon | shrug | record | watch | endStream | stop | crashLoop => cases hr
  | _ => exact hu r hr

end ReplicaWatch.Monitor
