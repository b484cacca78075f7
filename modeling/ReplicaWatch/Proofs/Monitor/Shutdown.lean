import ReplicaWatch.Proofs.Monitor.Bookkeeping

/-!
# Nothing but cancellations after shutdown

Once a cause of shutdown is recorded, a move does nothing to the registry, the counters and the watches, or it cancels
one watch that is under way (`Move.stopping`). From there the invariant `Frozen` of all runs that go on
(`Run.frozen`), and `frozen_from_shutdown` for the runs from the step that records the cause.

- `Observation.isWork`: what is not seen any more;
- `cancellationsIn`: the lines about cancelled watches, which make up for the watches that were under way;
- `Reachable.watches_of_stopped`: a monitor that has stopped has no watches left.
-/

namespace ReplicaWatch.Monitor

variable {setup : Setup} {s s₀ t u : State} {h : List Moment} {a : Action} {seen : List Observation} {v w : Watch}

/-- Whether an observation shows the monitor at work: a signal is taken, a watch is scheduled, or a name is put on
the output. -/
def Observation.isWork : Observation → Bool
  | .ingested _ => true
  | .notice (.scheduled ..) => true
  | .put .. => true
  | _ => false

def Watch.cancellation (w : Watch) : Notice := .cancelled w.resource

/-- The lines about cancelled watches in a run. -/
def cancellationsIn (h : List Moment) : List Notice := (reported h).filter fun n => n.kind = .watchCancelled

/-! ## Moves after shutdown -/

/-- A move that leaves the registry, the counters and the watches under way as they are, and shows no work. -/
structure Quiet (s t : State) (seen : List Observation) : Prop where
  registry : t.registry = s.registry
  metrics : t.metrics = s.metrics
  cause : t.cause = s.cause
  nextId : t.nextId = s.nextId
  unfinished : t.unfinished = s.unfinished
  idle : ∀ o ∈ seen, o.isWork = false
  silent : ∀ o ∈ seen, ∀ n, o.notice? = some n → n.kind ≠ .watchCancelled

theorem quiet_of_nil {s t : State} (h1 : t.registry = s.registry) (h2 : t.metrics = s.metrics)
    (h3 : t.cause = s.cause) (h4 : t.nextId = s.nextId) (h5 : t.unfinished = s.unfinished) : Quiet s t [] :=
  ⟨h1, h2, h3, h4, h5, fun _ ho => absurd ho List.not_mem_nil, fun _ ho => absurd ho List.not_mem_nil⟩

theorem quiet_of_singleton {s t : State} {o : Observation} (hw : o.isWork = false)
    (hn : ∀ n, o.notice? = some n → n.kind ≠ .watchCancelled) (h1 : t.registry = s.registry)
    (h2 : t.metrics = s.metrics) (h3 : t.cause = s.cause) (h4 : t.nextId = s.nextId)
    (h5 : t.unfinished = s.unfinished) : Quiet s t [o] := by
  refine ⟨h1, h2, h3, h4, h5, ?_, ?_⟩
  · intro p hp
    rw [List.mem_singleton.mp hp]
    exact hw
  · intro p hp
    rw [List.mem_singleton.mp hp]
    exact hn

/-- **A move after shutdown** does nothing of note, or cancels a watch under way. -/
theorem Move.stopping (hm : Move setup s a t seen) (hs : s.isStopping = true) :
    Quiet s t seen ∨
      ∃ w ∈ s.unfinished, ∃ output, t = s.conclude w .cancelled output ∧ seen = [.notice w.cancellation] := by
  have going {P : Prop} (h : s.isStopping = false) : P := by rw [hs] at h; cases h
  cases hm with
  | begin | stop => exact Or.inl (quiet_of_singleton rfl (by rintro n ⟨⟩; nofun) rfl rfl rfl rfl rfl)
  | reap =>
    refine Or.inl ⟨rfl, rfl, rfl, rfl, unfinished_eraseP s, ?_, ?_⟩
    · intro o ho
      obtain ⟨report, rfl⟩ := eq_notice_of_mem_obituary ho
      rfl
    · intro o ho n hn
      obtain ⟨report, rfl⟩ := eq_notice_of_mem_obituary ho
      cases hn
      nofun
  | skip hl | ignore hl | coalesce hl | passOver hl | rewatch hl | consult hl | endStream hl => exact going hl.going
  | shrug _ hg | record _ hg | watch _ hg | crashLoop _ hg => exact going hg
  | advance _ ha =>
    cases ha with
    | sleep _ hg | ask _ hg | block _ hg => exact going hg
  | crashWatch _ _ hg => exact going hg
  | @conclude w _ o output hw ho he =>
    refine Or.inr ⟨w, mem_unfinished_of_watch? hw ho, output, ?_⟩
    cases he with
    | cancel | withdraw => exact ⟨rfl, rfl⟩
    | vanish _ hg | mismatch _ hg | settle _ hg | send _ hg | sendLater _ hg | refuse _ hg | refuseLater _ hg
    | fail _ hg => exact going hg
  | requestStop hg => exact going hg
  | receive | receiveEnd | publish | runPublisher =>
    exact Or.inl (quiet_of_singleton rfl (fun n hn => by cases hn) rfl rfl rfl rfl rfl)
  | _ => exact Or.inl (quiet_of_nil rfl rfl rfl rfl rfl)

/-- A monitor that is stopping goes on stopping. -/
theorem Move.isStopping (hm : Move setup s a t seen) (hs : s.isStopping = true) : t.isStopping = true := by
  unfold State.isStopping at hs ⊢
  rcases hm.stopping hs with hq | ⟨w, -, output, rfl, -⟩
  · rw [hq.cause]
    exact hs
  · show (s.cause.or none).isSome = true
    rw [Option.or_none]
    exact hs

/-- A monitor that goes on has gone on before. -/
theorem Move.going (hm : Move setup s a t seen) (ht : t.isStopping = false) : s.isStopping = false := by
  cases hs : s.isStopping with
  | false => rfl
  | true => rw [hm.isStopping hs] at ht; cases ht

/-- No watch comes under way after shutdown. -/
theorem Move.unfinished_subset (hm : Move setup s a t seen) (hs : s.isStopping = true) :
    ∀ w ∈ t.unfinished, w ∈ s.unfinished := by
  intro w hw
  rcases hm.stopping hs with hq | ⟨v, -, output, rfl, -⟩
  · rwa [hq.unfinished] at hw
  · exact (mem_unfinished_conclude.mp hw).1

/-! ## Runs after shutdown -/

/-- A run from a state in which a cause of shutdown is recorded: the lines about cancelled watches make up for the
watches that were under way, and nothing else has changed. -/
structure Frozen (s : State) (h : List Moment) (t : State) : Prop where
  cause : t.cause = s.cause
  idle : ∀ o ∈ observations h, o.isWork = false
  nextId : t.nextId = s.nextId
  registry : t.registry = s.registry
  counters : ∀ c, c ≠ .cancellations → t.metrics.count c = s.metrics.count c
  cancellations : t.metrics.cancellations = s.metrics.cancellations + (cancellationsIn h).length
  lines : (cancellationsIn h ++ t.unfinished.map Watch.cancellation).Perm (s.unfinished.map Watch.cancellation)

/-- Watches with different numbers, one of them in front. -/
theorem perm_cons_filter_ne {l : List Watch} (hl : l.Pairwise fun v w => v.id ≠ w.id) (hw : w ∈ l) :
    l.Perm (w :: l.filter fun v => v.id ≠ w.id) := by
  have hsplit := List.filter_append_perm (fun v : Watch => v.id = w.id) l
  rw [filter_id_eq hl hw] at hsplit
  simpa using hsplit.symm

theorem Frozen.quiet (hf : Frozen s h t) (hq : Quiet t u seen) : Frozen s (h ++ [⟨t, a, u, seen⟩]) u := by
  have hc : cancellationsIn (h ++ [⟨t, a, u, seen⟩]) = cancellationsIn h := by
    have : ((seen.filterMap Observation.notice?).filter fun n => n.kind = .watchCancelled) = [] := by
      refine List.filter_eq_nil_iff.mpr fun n hn => ?_
      obtain ⟨o, ho, hon⟩ := List.mem_filterMap.mp hn
      simpa using hq.silent o ho n hon
    simp [cancellationsIn, this]
  constructor
  case cause => exact hq.cause.trans hf.cause
  case idle =>
    intro o ho
    rw [observations_append, observations_singleton] at ho
    rcases List.mem_append.mp ho with ho | ho
    · exact hf.idle o ho
    · exact hq.idle o ho
  case nextId => exact hq.nextId.trans hf.nextId
  case registry => exact hq.registry.trans hf.registry
  case counters =>
    intro c hne
    rw [hq.metrics]
    exact hf.counters c hne
  case cancellations =>
    rw [hq.metrics, hc]
    exact hf.cancellations
  case lines =>
    rw [hc, hq.unfinished]
    exact hf.lines

/-- A cancellation keeps a run frozen. -/
theorem Frozen.cancel (hf : Frozen s h t) (hb : Booked t) (hw : w ∈ t.unfinished) (output : Channel String) :
    Frozen s (h ++ [⟨t, a, t.conclude w .cancelled output, [.notice w.cancellation]⟩])
      (t.conclude w .cancelled output) := by
  have hc : cancellationsIn (h ++ [⟨t, a, t.conclude w .cancelled output, [.notice w.cancellation]⟩]) =
      cancellationsIn h ++ [w.cancellation] := by
    simp [cancellationsIn, Observation.notice?, Watch.cancellation, Notice.kind]
  constructor
  case cause =>
    show t.cause.or none = s.cause
    rw [Option.or_none, hf.cause]
  case idle =>
    intro o ho
    rw [observations_append, observations_singleton] at ho
    rcases List.mem_append.mp ho with ho | ho
    · exact hf.idle o ho
    · rw [List.mem_singleton.mp ho]
      rfl
  case nextId => exact hf.nextId
  case registry => exact hf.registry
  case counters =>
    intro c hne
    show (t.metrics.add 1 .cancellations).count c = _
    rw [Metrics.count_add, if_neg (Ne.symm hne)]
    exact hf.counters c hne
  case cancellations =>
    show t.metrics.cancellations + 1 = _
    rw [hc, hf.cancellations, List.length_append]
    rfl
  case lines =>
    -- the watch leaves those under way, and its line joins the lines
    rw [hc, List.append_assoc, unfinished_conclude]
    refine List.Perm.trans (List.Perm.append_left _ ?_) hf.lines
    exact ((perm_cons_filter_ne (hb.distinct.filter _) hw).map Watch.cancellation).symm

/-- **Every run is frozen** from a state in which a cause of shutdown is recorded. -/
theorem Run.frozen (hs : Reachable setup s) (hstop : s.isStopping = true) (hr : Run setup s h t) : Frozen s h t := by
  refine Run.induct (P := fun h t => Frozen s h t) hs ?_ ?_ hr
  · exact ⟨rfl, nofun, rfl, rfl, fun _ _ => rfl, rfl, List.Perm.refl _⟩
  intro h t a u seen _ ht hm hf
  have hts : t.isStopping = true := by
    unfold State.isStopping at hstop ⊢
    rw [hf.cause]
    exact hstop
  rcases hm.stopping hts with hq | ⟨w, hw, output, rfl, rfl⟩
  · exact hf.quiet hq
  · exact hf.cancel ht.booked hw output

/-! ## The end -/

/-- Once the monitor has stopped, no watches are left. -/
theorem Move.watches_of_stopped (hm : Move setup s a t seen) (hs : ∀ c, s.loop = .stopped c → s.watches = []) :
    ∀ c, t.loop = .stopped c → t.watches = [] := by
  intro c hc
  have rephased (hl : s.loop = .stopped c) (id : Nat) (phase : WatchPhase) : (s.setPhase id phase).watches = [] := by
    refine List.eq_nil_of_length_eq_zero ((length_setPhase s id phase).trans ?_)
    rw [hs c hl, List.length_nil]
  cases hm with
  | stop hl hw => exact hw
  | reap hl hf =>
    have hl' : s.loop = .stopped c := hc
    rcases hl with ⟨hl, -⟩ | hl <;> rw [hl] at hl' <;> cases hl'
  | ignore hl | coalesce hl | passOver hl | rewatch hl => exact absurd (hl.loop.symm.trans hc) nofun
  | advance | crashWatch => exact rephased hc _ _
  | @conclude w _ o => exact rephased hc w.id (.finished o)
  | begin | heed | consult | endStream | abandon | shrug | record | watch | crashLoop => cases hc
  | _ => exact hs c hc

theorem Reachable.watches_of_stopped (hs : Reachable setup s) : ∀ c, s.loop = .stopped c → s.watches = [] :=
  hs.induct (P := fun s => ∀ c, s.loop = .stopped c → s.watches = []) (fun _ _ _ _ => rfl) Move.watches_of_stopped

/-- Who records a cause of shutdown: somebody outside, the end of the stream, or a watch that fails, which is no
longer under way then. -/
theorem Move.recording (hm : Move setup s a t seen) (hgoing : s.isStopping = false) (hstop : t.isStopping = true) :
    (a = .requestStop ∧ t.cause = some .stopped ∧ t.unfinished = s.unfinished) ∨
    (a = .runLoop ∧ t.cause = some .streamEnded ∧ t.unfinished = s.unfinished) ∨
    ∃ w ∈ s.unfinished, ∃ e, e.isNotFound = false ∧ a = .answerReplicas w.id (.error e) ∧
      t.cause = some (.backendFailure e) ∧ t.unfinished = s.unfinished.filter fun v => v.id ≠ w.id := by
  have same {P : Prop} (h : t.cause = s.cause) : P := by
    unfold State.isStopping at hgoing hstop
    rw [h, hgoing] at hstop
    cases hstop
  cases hm with
  | requestStop => exact Or.inl ⟨rfl, rfl, rfl⟩
  | endStream => exact Or.inr (Or.inl ⟨rfl, rfl, rfl⟩)
  | @conclude w _ o output hw ho he =>
    have hc : s.cause = none := by simpa [State.isStopping] using hgoing
    have hwu : w ∈ s.unfinished := mem_unfinished_of_watch? hw ho
    cases he with
    | fail _ _ hn =>
      refine Or.inr (Or.inr ⟨w, hwu, _, hn, rfl, ?_, unfinished_conclude _ _ _ _⟩)
      show s.cause.or _ = _
      rw [hc]
      rfl
    | _ => exact same (Option.or_none (o := s.cause))
  | _ => exact same rfl

/-- **Shutdown freezes the monitor.** From the step that records a cause on, no signal is taken, no watch is
scheduled, no name is put on the output, and the registry and every counter but that of cancellations stay as they
are. Every cancellation has its line, and the lines are of different watches that were under way when the cause was
recorded, without the one whose failure it is; once the monitor has stopped, of all of them. -/
theorem frozen_from_shutdown (hs : Reachable setup s) (hgoing : s.isStopping = false)
    (hstep : s.step? setup a = some (s₀, seen)) (hstop : s₀.isStopping = true) (hr : Run setup s₀ h t) :
    ((a = .requestStop ∧ s₀.cause = some .stopped ∧ s₀.unfinished = s.unfinished) ∨
      (a = .runLoop ∧ s₀.cause = some .streamEnded ∧ s₀.unfinished = s.unfinished) ∨
      ∃ w ∈ s.unfinished, ∃ e, e.isNotFound = false ∧ a = .answerReplicas w.id (.error e) ∧
        s₀.cause = some (.backendFailure e) ∧ s₀.unfinished = s.unfinished.filter fun v => v.id ≠ w.id) ∧
    t.cause = s₀.cause ∧
    (∀ o ∈ observations h, o.isWork = false) ∧ t.nextId = s₀.nextId ∧ t.registry = s₀.registry ∧
    (∀ c, c ≠ .cancellations → t.metrics.count c = s₀.metrics.count c) ∧
    t.metrics.cancellations = s₀.metrics.cancellations + (cancellationsIn h).length ∧
    (cancellationsIn h ++ t.unfinished.map Watch.cancellation).Perm (s₀.unfinished.map Watch.cancellation) ∧
    t.metrics.cancellations ≤ s₀.metrics.cancellations + s₀.unfinished.length ∧
    ∀ c, t.loop = .stopped c →
      (cancellationsIn h).Perm (s₀.unfinished.map Watch.cancellation) ∧
      t.metrics.cancellations = s₀.metrics.cancellations + s₀.unfinished.length := by
  have hs₀ : Reachable setup s₀ := .step hs hstep
  have hf : Frozen s₀ h t := hr.frozen hs₀ hstop
  have hlen := hf.lines.length_eq
  rw [List.length_append, List.length_map, List.length_map] at hlen
  refine ⟨(hs.move hstep).recording hgoing hstop, hf.cause, hf.idle, hf.nextId, hf.registry, hf.counters,
    hf.cancellations, hf.lines, ?_, fun c hc => ?_⟩
  · have := hf.cancellations
    omega
  · have hw : t.unfinished = [] := by
      unfold State.unfinished
      rw [(hr.reachable hs₀).watches_of_stopped c hc]
      rfl
    have hlines := hf.lines
    rw [hw] at hlen hlines
    rw [List.map_nil, List.append_nil] at hlines
    refine ⟨hlines, ?_⟩
    rw [hf.cancellations, ← hlen]
    rfl

/-- The moves of a monitor that is asked to stop while it watches one resource. -/
def drainingOne : List Action := [.runLoop, .runWatch 0, .runLoop, .runLoop]

theorem pending_watch_cancelled_by_stop :
    let s := ((State.start { monitor := "m" } 0 (signalsOf ["r"])).played { monitor := "m" } (watchingOne "r")).2
    let p := { s with cause := some .stopped }.played { monitor := "m" } drainingOne
    p.2.loop = .stopped .stopped ∧ (cancellationsIn p.1).Perm [.cancelled "r"] ∧ p.2.metrics.cancellations = 1 := by
  intro s p
  have hs : Reachable { monitor := "m" } s := reachable_played (by decide)
  have hr : Run { monitor := "m" } { s with cause := some .stopped } p.1 p.2 := run_played (by decide)
  have hstep : s.step? { monitor := "m" } .requestStop =
      some ({ s with cause := some .stopped }, [.notice (.stopRequested "m")]) := rfl
  have hend : p.2.loop = .stopped .stopped := by decide
  obtain ⟨-, -, -, -, -, -, -, -, -, hall⟩ := frozen_from_shutdown hs (by decide) hstep rfl hr
  exact ⟨hend, hall _ hend⟩

end ReplicaWatch.Monitor
