import ReplicaWatch.Proofs.Monitor.Lifecycle
import ReplicaWatch.Proofs.Monitor.Shutdown

/-!
# The counters add up

The counters of a monitor are raised in two kinds of tasks, on every way out of each. Four laws of conservation hold
between them, what has been seen of the run, and the state: of the signals that were taken, of the watches that were
scheduled, of the questions for definitions, and of the entries of the registry.

- `occurrences`: how often something is seen in a run; `Moment.crashesWatch`, `Moment.abandons`: what no counter shows;
- `Move.signals_balance`, `Move.watches_balance`, `Move.questions_balance`, `Move.entries_balance`: what a move adds to
  either side of each law;
- `Balanced`: the laws for a run, kept by every move (`Balanced.snoc`);
- `books_balance`: the laws for all runs, with the entries that are made and removed.
-/

namespace ReplicaWatch.Monitor

variable {setup : Setup} {s t : State} {a : Action} {seen : List Observation} {h : List Moment} {w : Watch}
  {now : Nat} {source : Source}

/-! ## What is counted and what is not -/

namespace Observation

/-- Whether it is learnt whether a resource has quorum. -/
def isObserved : Observation → Bool
  | .notice (.observed ..) => true
  | _ => false

/-- Whether a definition is asked for. -/
def isInquiry : Observation → Bool
  | .askedDefinition _ => true
  | _ => false

/-- Whether a watch ends with a name that nobody takes. -/
def isUndelivered : Observation → Bool
  | .notice (.userLost _ false) => true
  | _ => false

end Observation

/-- How often something is seen in a run. -/
def occurrences (p : Observation → Bool) (h : List Moment) : Nat := (observations h).countP p

/-- Whether the loop has asked for the definition of a resource. -/
def LoopPhase.isConsulting : LoopPhase → Bool
  | consulting _ => true
  | _ => false

namespace Moment

/-- Whether a watch crashes with its question. After shutdown it does not: it is cancelled. -/
def crashesWatch (m : Moment) : Bool :=
  match m.action with
  | .crashWatch .. => !m.before.isStopping
  | _ => false

/-- Whether the loop gives up its question because of shutdown. -/
def abandons (m : Moment) : Bool :=
  m.before.loop.isConsulting && m.before.isStopping && !m.after.loop.isConsulting

end Moment

/-- Whether a positive signal has led to a question without an answer, which is pending or has been given up. -/
def isUnanswered (h : List Moment) (s : State) : Bool := s.loop.isConsulting || h.any Moment.abandons

namespace Metrics

/-- The signals that something has come of. -/
def answered (m : Metrics) : Nat :=
  m.eventsIgnored + m.watchesScheduled + m.watchesCoalesced + m.quorumlessSkips + m.quorumQueryFailures

/-- The watches that have ended in a way that is counted. -/
def ended (m : Metrics) : Nat := m.notifications + m.settled + m.removals + m.cancellations + m.backendFailures

end Metrics

theorem occurrences_snoc (p : Observation → Bool) (h : List Moment) (m : Moment) :
    occurrences p (h ++ [m]) = occurrences p h + m.seen.countP p := by
  unfold occurrences
  rw [observations_append, observations_singleton, List.countP_append]

theorem countP_snoc (p : Moment → Bool) (h : List Moment) (m : Moment) :
    (h ++ [m]).countP p = h.countP p + (p m).toNat := by
  rw [List.countP_append, List.countP_singleton]
  cases p m <;> rfl

theorem crashesWatch_of_stopping (hs : s.isStopping = true) :
    (⟨s, a, t, seen⟩ : Moment).crashesWatch = false := by
  unfold Moment.crashesWatch
  cases a <;> simp [hs]

/-- A watch that ends has not crashed. -/
theorem Ending.crashesWatch {o : Outcome} {output : Channel String} (he : Ending s w a o output) :
    (⟨s, a, t, seen⟩ : Moment).crashesWatch = false := by
  cases he with
  | cancel hs => exact crashesWatch_of_stopping hs
  | _ => rfl

theorem abandons_of_loop (hl : t.loop = s.loop) : (⟨s, a, t, seen⟩ : Moment).abandons = false := by
  unfold Moment.abandons
  rw [hl]
  cases s.loop.isConsulting <;> simp

theorem abandons_of_going (hs : s.isStopping = false) : (⟨s, a, t, seen⟩ : Moment).abandons = false := by
  simp [Moment.abandons, hs]

/-- What is counted is about a resource. -/
def Observation.Concerns (p : Observation → Bool) : Prop := ∀ n : Notice, n.resource? = none → p (.notice n) = false

theorem concerns_isObserved : Observation.Concerns Observation.isObserved := by
  intro n hn
  cases n with
  | observed => cases hn
  | _ => rfl

theorem concerns_isUndelivered : Observation.Concerns Observation.isUndelivered := by
  intro n hn
  cases n with
  | userLost => cases hn
  | _ => rfl

theorem concerns_isInquiry : Observation.Concerns Observation.isInquiry := fun _ _ => rfl

/-- Nothing is counted of what is passed over or ends the stream. -/
theorem countP_notices_of_next {p : Observation → Bool} (hp : Observation.Concerns p) {source : Source} {taken : Taken}
    {notices : List Notice} (hn : s.source.next = (taken, source, notices)) : (notices.map .notice).countP p = 0 := by
  refine List.countP_eq_zero.mpr fun o ho => ?_
  obtain ⟨n, hmem, rfl⟩ := List.mem_map.mp ho
  rw [hp n (resource?_of_next hn n hmem)]
  nofun

theorem countP_end_of_stream {p : Observation → Bool} (hp : Observation.Concerns p) {source : Source} {taken : Taken}
    {notices : List Notice} (hn : s.source.next = (taken, source, notices)) (monitor : String) :
    (notices.map Observation.notice ++ [Observation.notice (.streamEnded monitor)]).countP p = 0 := by
  rw [List.countP_append, countP_notices_of_next hp hn, List.countP_singleton, hp _ rfl]
  rfl

/-- Nothing is counted of what is seen of a watch that is over. -/
theorem countP_obituary {p : Observation → Bool} (hp : Observation.Concerns p) (w : Watch) :
    (obituary w).countP p = 0 := by
  refine List.countP_eq_zero.mpr fun o ho => ?_
  obtain ⟨report, rfl⟩ := eq_notice_of_mem_obituary ho
  rw [hp _ rfl]
  nofun

/-- A loop that has not crashed had not crashed before. -/
theorem Move.live (hm : Move setup s a t seen) (hlive : t.loop.isCrashed = false) : s.loop.isCrashed = false := by
  cases hm with
  | begin hl | heed hl | abandon hl | shrug hl | record hl | watch hl | stop hl | crashLoop hl => rw [hl]; rfl
  | consult hl | endStream hl => rw [hl.loop]; rfl
  | _ => exact hlive

/-! ## Signals -/

/-- What a move adds to the signals is in their outcomes, in the question of the loop, or has been given up. -/
def SignalsBalance (m : Moment) : Prop :=
  m.after.metrics.eventsReceived + m.before.metrics.answered + m.before.loop.isConsulting.toNat =
    m.before.metrics.eventsReceived + m.after.metrics.answered + m.after.loop.isConsulting.toNat + m.abandons.toNat

theorem SignalsBalance.of_kept (hl : t.loop = s.loop) (he : t.metrics.eventsReceived = s.metrics.eventsReceived)
    (ha : t.metrics.answered = s.metrics.answered) : SignalsBalance ⟨s, a, t, seen⟩ := by
  unfold SignalsBalance
  rw [abandons_of_loop hl, hl, he, ha]
  rfl

/-- Every signal that a move takes has its outcome, or is in the question of the loop. -/
theorem Move.signals_balance (hm : Move setup s a t seen) (hlive : t.loop.isCrashed = false) :
    SignalsBalance ⟨s, a, t, seen⟩ := by
  cases hm with
  | begin hl | heed hl | stop hl => simp [SignalsBalance, Moment.abandons, LoopPhase.isConsulting, hl]
  | ignore hl | coalesce hl | passOver hl | rewatch hl | consult hl =>
    unfold SignalsBalance
    rw [abandons_of_going hl.going]
    simp [State.taking, State.count, State.spawning, Metrics.add, Metrics.answered, LoopPhase.isConsulting, hl.loop]
    omega
  | endStream hl =>
    unfold SignalsBalance
    rw [abandons_of_going hl.going]
    simp [Metrics.answered, LoopPhase.isConsulting, hl.loop]
  | abandon hl hs => simp [SignalsBalance, Moment.abandons, LoopPhase.isConsulting, hl, hs]
  | shrug hl hs | record hl hs | watch hl hs =>
    unfold SignalsBalance
    rw [abandons_of_going hs]
    simp [State.count, State.spawning, Metrics.add, Metrics.answered, LoopPhase.isConsulting, hl]
    omega
  | crashLoop => cases hlive
  | @conclude w _ o => cases o <;> exact .of_kept rfl rfl rfl
  | _ => exact .of_kept rfl rfl rfl

/-! ## Watches -/

/-- What a move adds to the watches that are scheduled is under way, has ended in a way that is counted, has ended
with a name that nobody takes, or has crashed. -/
def WatchesBalance (m : Moment) : Prop :=
  m.after.metrics.watchesScheduled + m.before.metrics.ended + m.before.unfinished.length =
    m.before.metrics.watchesScheduled + m.after.metrics.ended + m.after.unfinished.length +
      m.seen.countP Observation.isUndelivered + m.crashesWatch.toNat

theorem WatchesBalance.of_kept (hs : t.metrics.watchesScheduled = s.metrics.watchesScheduled)
    (he : t.metrics.ended = s.metrics.ended) (hu : t.unfinished.length = s.unfinished.length)
    (hn : seen.countP Observation.isUndelivered = 0) (hc : (⟨s, a, t, seen⟩ : Moment).crashesWatch = false) :
    WatchesBalance ⟨s, a, t, seen⟩ := by
  unfold WatchesBalance
  rw [hs, he, hu, hn, hc]
  rfl

theorem WatchesBalance.of_scheduled (hs : t.metrics.watchesScheduled = s.metrics.watchesScheduled + 1)
    (he : t.metrics.ended = s.metrics.ended) (hu : t.unfinished.length = s.unfinished.length + 1)
    (hn : seen.countP Observation.isUndelivered = 0) (hc : (⟨s, a, t, seen⟩ : Moment).crashesWatch = false) :
    WatchesBalance ⟨s, a, t, seen⟩ := by
  simp only [WatchesBalance]
  rw [hs, he, hu, hn, hc, Bool.toNat_false]
  omega

theorem WatchesBalance.of_over (hs : t.metrics.watchesScheduled = s.metrics.watchesScheduled)
    (hu : s.unfinished.length = t.unfinished.length + 1)
    (he : t.metrics.ended + seen.countP Observation.isUndelivered + (⟨s, a, t, seen⟩ : Moment).crashesWatch.toNat =
      s.metrics.ended + 1) :
    WatchesBalance ⟨s, a, t, seen⟩ := by
  simp only [WatchesBalance]
  rw [hs, hu]
  omega

theorem length_unfinished_spawning (s : State) (r : String) (kind : DelayKind) :
    (s.spawning setup r kind).unfinished.length = s.unfinished.length + 1 := by
  unfold State.unfinished State.spawning
  rw [List.filter_append, List.length_append]
  rfl

/-- One watch less is under way when one is over. -/
theorem length_unfinished_of_filter (hb : Booked s) (hw : w ∈ s.unfinished)
    (hu : t.unfinished = s.unfinished.filter fun v => v.id ≠ w.id) :
    s.unfinished.length = t.unfinished.length + 1 := by
  have hl : s.unfinished.Pairwise fun v w => v.id ≠ w.id := hb.distinct.filter _
  rw [hu, (perm_cons_filter_ne hl hw).length_eq]
  rfl

/-- A watch that goes on is still under way. -/
theorem length_unfinished_setPhase (hb : Booked s) (hw : w ∈ s.unfinished) (phase : WatchPhase)
    (hp : phase.isOver = false) : (s.setPhase w.id phase).unfinished.length = s.unfinished.length := by
  unfold State.unfinished
  rw [← List.countP_eq_length_filter, ← List.countP_eq_length_filter, (watches_setPhase_perm s w.id phase).countP_eq,
    List.countP_map]
  refine List.countP_congr fun v hv => ?_
  by_cases hid : v.id = w.id
  · have : v = w := eq_of_id_eq hb.distinct hv (mem_unfinished.mp hw).1 hid
    simp [this, hp, (mem_unfinished.mp hw).2]
  · simp [hid]

/-- An ending is counted, or shows a name that nobody takes. -/
theorem Outcome.ended_add (o : Outcome) (m : Metrics) (w : Watch) :
    (o.metrics m).ended + (o.seen w).countP Observation.isUndelivered = m.ended + 1 := by
  cases o <;> simp [Outcome.metrics, Outcome.seen, Outcome.notice, Observation.isUndelivered, Metrics.ended,
    Metrics.add] <;> omega

/-- Every watch that is scheduled is under way, until it ends in one of the ways that are counted, ends with a name
that nobody takes, or crashes. -/
theorem Move.watches_balance (hm : Move setup s a t seen) (hb : Booked s) (hlive : t.loop.isCrashed = false) :
    WatchesBalance ⟨s, a, t, seen⟩ := by
  cases hm with
  | reap => exact .of_kept rfl rfl (by rw [unfinished_eraseP]) (countP_obituary concerns_isUndelivered _) rfl
  | skip hl hn => exact .of_kept rfl rfl rfl (countP_notices_of_next concerns_isUndelivered hn) rfl
  | endStream hl hn => exact .of_kept rfl rfl rfl (countP_end_of_stream concerns_isUndelivered hn _) rfl
  | @rewatch r source => exact .of_scheduled rfl rfl (length_unfinished_spawning (s.taking source) r _) rfl rfl
  | @watch r => exact .of_scheduled rfl rfl (length_unfinished_spawning { s with loop := .listening } r _) rfl rfl
  | crashLoop => cases hlive
  | abandon _ hs => exact .of_kept rfl rfl rfl rfl (crashesWatch_of_stopping hs)
  | @advance w _ phase _ _ hw ha =>
    have hwu := mem_unfinished_of_watch? hw ha.isOver_eq_false
    have hlength := length_unfinished_setPhase hb hwu phase (by cases ha <;> rfl)
    cases ha with
    | sleep | ask | block => exact .of_kept rfl rfl hlength rfl rfl
  | @crashWatch w report hw hp hs =>
    have hwu : w ∈ s.unfinished := mem_unfinished_of_watch? hw (by rw [hp]; rfl)
    have hcrash : Moment.crashesWatch ⟨s, .crashWatch w.id report, s.setPhase w.id (.crashed report), []⟩ = true := by
      simp [Moment.crashesWatch, hs]
    refine .of_over rfl (length_unfinished_of_filter hb hwu (unfinished_setPhase_of_isOver _ _ _ rfl)) ?_
    rw [hcrash]
    rfl
  | @conclude w _ o output hw ho he =>
    have hwu : w ∈ s.unfinished := mem_unfinished_of_watch? hw ho
    have hs : (s.conclude w o output).metrics.watchesScheduled = s.metrics.watchesScheduled := by cases o <;> rfl
    refine .of_over hs (length_unfinished_of_filter hb hwu (unfinished_conclude s w o output)) ?_
    rw [he.crashesWatch]
    exact o.ended_add s.metrics w
  | _ => exact .of_kept rfl rfl rfl rfl rfl

/-! ## Questions and entries -/

/-- Every question that a move asks is pending, has its answer, has failed, or has been given up. -/
def QuestionsBalance (m : Moment) : Prop :=
  m.before.metrics.quorumQueryFailures + m.seen.countP Observation.isInquiry + m.before.loop.isConsulting.toNat =
    m.seen.countP Observation.isObserved + m.after.metrics.quorumQueryFailures + m.after.loop.isConsulting.toNat +
      m.abandons.toNat

theorem QuestionsBalance.of_kept (hl : t.loop = s.loop)
    (hq : t.metrics.quorumQueryFailures = s.metrics.quorumQueryFailures)
    (hi : seen.countP Observation.isInquiry = 0) (ho : seen.countP Observation.isObserved = 0) :
    QuestionsBalance ⟨s, a, t, seen⟩ := by
  simp only [QuestionsBalance]
  rw [abandons_of_loop hl, hl, hq, hi, ho, Bool.toNat_false]
  omega

/-- The question of the loop has its answer, or has failed. -/
theorem QuestionsBalance.of_answered {r : String} (hs : s.isStopping = false) (hl : s.loop = .consulting r)
    (ht : t.loop = .listening) (hi : seen.countP Observation.isInquiry = 0)
    (ho : t.metrics.quorumQueryFailures + seen.countP Observation.isObserved = s.metrics.quorumQueryFailures + 1) :
    QuestionsBalance ⟨s, a, t, seen⟩ := by
  simp only [QuestionsBalance]
  rw [abandons_of_going hs, hl, ht, hi]
  simp only [LoopPhase.isConsulting, Bool.toNat_true, Bool.toNat_false]
  omega

theorem Move.questions_balance (hm : Move setup s a t seen) (hlive : t.loop.isCrashed = false) :
    QuestionsBalance ⟨s, a, t, seen⟩ := by
  cases hm with
  | begin hl | heed hl | stop hl =>
    simp [QuestionsBalance, Moment.abandons, LoopPhase.isConsulting, Observation.isInquiry, Observation.isObserved, hl]
  | reap => exact .of_kept rfl rfl (countP_obituary concerns_isInquiry _) (countP_obituary concerns_isObserved _)
  | skip hl hn =>
    exact .of_kept rfl rfl (countP_notices_of_next concerns_isInquiry hn)
      (countP_notices_of_next concerns_isObserved hn)
  | endStream hl hn =>
    have hi := countP_end_of_stream concerns_isInquiry hn setup.monitor
    have ho := countP_end_of_stream concerns_isObserved hn setup.monitor
    simp only [QuestionsBalance]
    rw [abandons_of_going hl.going, hi, ho, hl.loop]
    simp [LoopPhase.isConsulting]
  | consult hl =>
    simp only [QuestionsBalance]
    rw [abandons_of_going hl.going, hl.loop]
    simp [LoopPhase.isConsulting, Observation.isInquiry, Observation.isObserved, State.taking, Metrics.add]
  | abandon hl hs => simp [QuestionsBalance, Moment.abandons, LoopPhase.isConsulting, hl, hs]
  | shrug hl hs | record hl hs | watch hl hs => exact .of_answered hs hl rfl rfl rfl
  | crashLoop => cases hlive
  | advance _ ha => cases ha <;> exact .of_kept rfl rfl rfl rfl
  | @conclude w _ o => cases o <;> exact .of_kept rfl rfl rfl rfl
  | _ => exact .of_kept rfl rfl rfl rfl

/-- What a move adds to the registry has been learnt, and what it takes away is removed. -/
def EntriesBalance (m : Moment) : Prop :=
  m.after.registry.size + m.after.metrics.removals =
    m.before.registry.size + m.before.metrics.removals + m.seen.countP Observation.isObserved

theorem EntriesBalance.of_kept (hg : t.registry.size = s.registry.size)
    (hr : t.metrics.removals = s.metrics.removals) (ho : seen.countP Observation.isObserved = 0) :
    EntriesBalance ⟨s, a, t, seen⟩ := by
  simp only [EntriesBalance]
  rw [hg, hr, ho, Nat.add_zero]

theorem EntriesBalance.of_observed (hg : t.registry.size = s.registry.size + 1)
    (hr : t.metrics.removals = s.metrics.removals) (ho : seen.countP Observation.isObserved = 1) :
    EntriesBalance ⟨s, a, t, seen⟩ := by
  simp only [EntriesBalance]
  rw [hg, hr, ho]
  omega

/-- A watch that ends leaves the size of the registry as it is, or removes the entry. -/
theorem size_registry_of_entry {g : Registry} {r : String} {e : Record} (hg : g.get? r = some e) (o : Outcome)
    (m : Metrics) : (o.registry g r).size + (o.metrics m).removals = g.size + m.removals := by
  have finished : (g.finishWatch r).size = g.size := by
    simp only [Registry.finishWatch, hg]
    exact NameMap.size_insert_of_present _ hg
  cases o with
  | cancelled | failed => rfl
  | notified | undelivered | settled => exact congrArg (· + m.removals) finished
  | removed =>
    have := NameMap.size_erase hg
    simp only [Outcome.registry, Outcome.metrics, Registry.remove, Metrics.add]
    omega

theorem Move.entries_balance (hm : Move setup s a t seen) (hb : Booked s) : EntriesBalance ⟨s, a, t, seen⟩ := by
  cases hm with
  | reap => exact .of_kept rfl rfl (countP_obituary concerns_isObserved _)
  | skip hl hn => exact .of_kept rfl rfl (countP_notices_of_next concerns_isObserved hn)
  | endStream hl hn => exact .of_kept rfl rfl (countP_end_of_stream concerns_isObserved hn _)
  | @rewatch r source hl hn hg => exact .of_kept (NameMap.size_insert_of_present _ hg) rfl rfl
  | record hl hs hg | watch hl hs hg => exact .of_observed (NameMap.size_insert_of_absent _ hg) rfl rfl
  | advance _ ha => cases ha <;> exact .of_kept rfl rfl rfl
  | @conclude w _ o output hw ho =>
    have hwu : w ∈ s.unfinished := mem_unfinished_of_watch? hw ho
    have hn : (o.seen w).countP Observation.isObserved = 0 := by cases o <;> rfl
    simp only [EntriesBalance]
    rw [hn]
    exact size_registry_of_entry (hb.entry w hwu) o s.metrics
  | _ => exact .of_kept rfl rfl rfl

/-! ## Failures and questions that are given up -/

/-- The cluster is found failing once, and the monitor stops for it. -/
theorem Move.failures_le (hm : Move setup s a t seen) (hs : s.metrics.backendFailures ≤ s.isStopping.toNat) :
    t.metrics.backendFailures ≤ t.isStopping.toNat := by
  cases hm with
  | endStream | requestStop => exact Nat.le_trans hs (Bool.toNat_le _)
  | @conclude w _ o output hw ho he =>
    have same (hc : o.cause? = none) (hf : (o.metrics s.metrics).backendFailures = s.metrics.backendFailures) :
        (s.conclude w o output).metrics.backendFailures ≤ (s.conclude w o output).isStopping.toNat := by
      show (o.metrics s.metrics).backendFailures ≤ (s.cause.or o.cause?).isSome.toNat
      rw [hc, hf, Option.or_none]
      exact hs
    cases he with
    | fail _ hgoing =>
      rw [hgoing] at hs
      show s.metrics.backendFailures + 1 ≤ (s.cause.or (some _)).isSome.toNat
      rw [Option.isSome_or, Option.isSome_some, Bool.or_true]
      exact Nat.succ_le_succ hs
    | _ => exact same rfl rfl
  | _ => exact hs

/-- Before shutdown only, the loop begins to ask. -/
theorem Move.asking (hm : Move setup s a t seen) (ht : t.loop.isConsulting = true) :
    s.loop.isConsulting = true ∨ s.isStopping = false := by
  cases hm with
  | consult hl => exact Or.inr hl.going
  | begin | heed | endStream | abandon | shrug | record | watch | stop | crashLoop => cases ht
  | _ => exact Or.inl ht

/-- A question is given up at most once, after shutdown, and it is the last. -/
def AbandonsOnce (h : List Moment) (s : State) : Prop :=
  h.countP Moment.abandons = 0 ∨ h.countP Moment.abandons = 1 ∧ s.isStopping = true ∧ s.loop.isConsulting = false

theorem AbandonsOnce.snoc (hs : AbandonsOnce h s) (hm : Move setup s a t seen) :
    AbandonsOnce (h ++ [⟨s, a, t, seen⟩]) t := by
  unfold AbandonsOnce
  rw [countP_snoc]
  cases hab : (⟨s, a, t, seen⟩ : Moment).abandons with
  | true =>
    simp only [Moment.abandons, Bool.and_eq_true, Bool.not_eq_true'] at hab
    obtain ⟨⟨hasked, hstop⟩, hgone⟩ := hab
    rcases hs with hs | ⟨-, -, hs⟩
    · exact Or.inr ⟨by rw [hs]; rfl, hm.isStopping hstop, hgone⟩
    · rw [hasked] at hs
      cases hs
  | false =>
    rcases hs with hs | ⟨hs, hstop, hidle⟩
    · exact Or.inl hs
    · refine Or.inr ⟨hs, hm.isStopping hstop, ?_⟩
      cases ht : t.loop.isConsulting with
      | false => rfl
      | true =>
        rcases hm.asking ht with hasked | hgoing
        · rw [hidle] at hasked
          cases hasked
        · rw [hstop] at hgoing
          cases hgoing

/-! ## The laws -/

/-- The laws that hold between the counters, what has been seen in a run, and the state after it. -/
structure Balanced (h : List Moment) (s : State) : Prop where
  signals : s.metrics.eventsReceived = s.metrics.answered + s.loop.isConsulting.toNat + h.countP Moment.abandons
  watches : s.metrics.watchesScheduled =
    s.metrics.ended + occurrences Observation.isUndelivered h + h.countP Moment.crashesWatch + s.unfinished.length
  failures : s.metrics.backendFailures ≤ s.isStopping.toNat
  questions : occurrences Observation.isInquiry h = occurrences Observation.isObserved h +
    s.metrics.quorumQueryFailures + s.loop.isConsulting.toNat + h.countP Moment.abandons
  entries : s.registry.size + s.metrics.removals = occurrences Observation.isObserved h
  abandoned : AbandonsOnce h s

theorem balanced_start (setup : Setup) (now : Nat) (source : Source) : Balanced [] (State.start setup now source) := by
  constructor
  case abandoned => exact Or.inl rfl
  all_goals rfl

/-- Every move of a loop that does not crash keeps the laws. -/
theorem Balanced.snoc (hbal : Balanced h s) (hm : Move setup s a t seen) (hb : Booked s)
    (hlive : t.loop.isCrashed = false) : Balanced (h ++ [⟨s, a, t, seen⟩]) t := by
  have hsignals := hm.signals_balance hlive
  have hwatches := hm.watches_balance hb hlive
  have hquestions := hm.questions_balance hlive
  have hentries := hm.entries_balance hb
  simp only [SignalsBalance, WatchesBalance, QuestionsBalance, EntriesBalance] at hsignals hwatches hquestions hentries
  constructor
  case signals =>
    have := hbal.signals
    rw [countP_snoc]
    omega
  case watches =>
    have := hbal.watches
    rw [countP_snoc, occurrences_snoc]
    dsimp only
    omega
  case failures => exact hm.failures_le hbal.failures
  case questions =>
    have := hbal.questions
    rw [countP_snoc, occurrences_snoc, occurrences_snoc]
    dsimp only
    omega
  case entries =>
    have := hbal.entries
    rw [occurrences_snoc]
    dsimp only
    omega
  case abandoned => exact hbal.abandoned.snoc hm

/-- The laws hold for every run from a start in which the loop has not crashed. -/
theorem Run.balanced (hr : Run setup (State.start setup now source) h s) (hlive : s.loop.isCrashed = false) :
    Balanced h s := by
  refine Run.induct (P := fun h s => s.loop.isCrashed = false → Balanced h s) (.start now source) ?_ ?_ hr hlive
  · exact fun _ => balanced_start setup now source
  · intro h t a u seen _ ht hm ih hu
    exact (ih (hm.live hu)).snoc hm ht.booked hu

theorem Balanced.unanswered (hb : Balanced h s) :
    (isUnanswered h s).toNat = s.loop.isConsulting.toNat + h.countP Moment.abandons := by
  unfold isUnanswered
  rcases hb.abandoned with h0 | ⟨h1, -, hidle⟩
  · have hany : h.any Moment.abandons = false := by
      rw [List.any_eq_false]
      exact fun m hm => List.countP_eq_zero.mp h0 m hm
    rw [hany, h0, Bool.or_false, Nat.add_zero]
  · have hany : h.any Moment.abandons = true := by
      rw [List.any_eq_true]
      exact List.countP_pos_iff.mp (by omega)
    rw [hany, h1, hidle]
    rfl

/-! ## Entries come and go one by one -/

/-- What is learnt of a resource makes its entry, which was not there. -/
theorem Glimpse.observed {r : String} {q : Bool} {lines : List Notice} (hg : Glimpse setup r s t lines)
    (hl : .observed r q ∈ lines) :
    s.registry.admitKnown r = none ∧ t.registry.get? r = some (Record.first q).1 := by
  have absent (hn : s.registry.get? r = none) : s.registry.admitKnown r = none :=
    (Registry.admitKnown_eq_none_iff _ _).mpr hn
  cases hg with
  | record _ hs ht =>
    obtain rfl : q = false := by simpa using hl
    exact ⟨absent hs, ht⟩
  | watch _ hs ht =>
    obtain rfl : q = true := by simpa using hl
    exact ⟨absent hs, ht⟩
  | @conclude o => cases o <;> simp [Outcome.notice] at hl
  | apart | coalesce | doubt | rewatch => simp at hl

/-- What is removed was there. -/
theorem Glimpse.removed {r : String} {reason : RemovalReason} {lines : List Notice} (hg : Glimpse setup r s t lines)
    (hb : Booked s) (hl : .removed r reason ∈ lines) :
    s.registry.get? r = some ⟨true, true⟩ ∧ t.registry.get? r = none := by
  cases hg with
  | @conclude o hw ht =>
    cases o with
    | removed =>
      obtain ⟨w, hw, rfl⟩ := hw
      refine ⟨hb.entry w hw, ht.trans ?_⟩
      show (s.registry.remove w.resource).get? w.resource = none
      rw [Registry.get?_remove, if_pos rfl]
    | cancelled | notified | undelivered | settled | failed => simp [Outcome.notice] at hl
  | apart | coalesce | doubt | rewatch | record | watch => simp at hl

/-- **The books balance.** In every run in which the loop does not crash, every signal that was taken has had its
outcome, but one whose question is pending or was given up; every watch that was scheduled has ended, been counted
once, or is under way; every question has its answer; and the registry has an entry for everything that was learnt
and not removed. What is learnt makes a new entry, and what is removed had one. -/
theorem books_balance (hr : Run setup (State.start setup now source) h s) (hlive : s.loop.isCrashed = false) :
    let m := s.metrics
    let p := (isUnanswered h s).toNat
    m.eventsReceived = m.eventsIgnored + m.watchesScheduled + m.watchesCoalesced + m.quorumlessSkips +
      m.quorumQueryFailures + p ∧
    m.watchesScheduled = m.notifications + m.settled + m.removals + m.cancellations + m.backendFailures +
      occurrences Observation.isUndelivered h + h.countP Moment.crashesWatch + s.unfinished.length ∧
    m.backendFailures ≤ 1 ∧
    occurrences Observation.isInquiry h =
      occurrences Observation.isObserved h + m.quorumQueryFailures + p ∧
    s.registry.size + m.removals = occurrences Observation.isObserved h ∧
    ∀ k ∈ h,
      (∀ r q, .notice (.observed r q) ∈ k.seen →
        k.before.registry.admitKnown r = none ∧ k.after.registry.get? r = some (Record.first q).1) ∧
      ∀ r reason, .notice (.removed r reason) ∈ k.seen →
        (∃ e, k.before.registry.get? r = some e) ∧ k.after.registry.get? r = none := by
  intro m p
  have hbal := hr.balanced hlive
  have hp : p = _ := hbal.unanswered
  refine ⟨?_, hbal.watches, Nat.le_trans hbal.failures (Bool.toNat_le _), ?_, hbal.entries, fun k hk => ?_⟩
  · rw [hp, ← Nat.add_assoc]
    exact hbal.signals
  · rw [hp, ← Nat.add_assoc]
    exact hbal.questions
  · obtain ⟨hreach, hm⟩ := hr.move_of_mem (.start now source) hk
    have hg := hm.glimpse hreach.unrecorded hreach.booked
    constructor
    · intro r q ho
      exact (hg r).observed (mem_linesIn rfl ho)
    · intro r reason ho
      obtain ⟨hthere, hgone⟩ := (hg r).removed hreach.booked (mem_linesIn rfl ho)
      exact ⟨⟨_, hthere⟩, hgone⟩

/-- The moves of a monitor that loses three watches: the resource of the first is gone, nobody takes the name of the
second, and the third crashes. Then it gives up a question. -/
def losingThree (first second third : String) : List Action :=
  watchingAll [first, second, third] ++
    [.runLoop, .runWatch 0, .runWatch 1, .runWatch 2, .elapse 60000, .runWatch 0, .runWatch 1, .runWatch 2,
      .dropReceiver, .answerReplicas 0 (.error (.notFound first)),
      .answerReplicas 1 (.ok [Replica.onDrbd second "n" true]), .crashWatch 2 "panic", .runLoop, .runLoop, .runLoop,
      .runLoop, .requestStop, .runLoop]

theorem books_of_losing_three :
    let p := (State.start { monitor := "m" } 0 (signalsOf ["a", "b", "c", "a", "d"])).played { monitor := "m" }
      (losingThree "a" "b" "c")
    p.2.loop.isCrashed = false ∧ p.2.unfinished = [] ∧
      p.2.metrics = { eventsReceived := 5, watchesScheduled := 3, watchesCoalesced := 1, removals := 1 } ∧
      isUnanswered p.1 p.2 = true ∧
      p.2.metrics.watchesScheduled =
        p.2.metrics.removals + occurrences Observation.isUndelivered p.1 + p.1.countP Moment.crashesWatch ∧
      p.2.registry.size + p.2.metrics.removals = occurrences Observation.isObserved p.1 := by
  intro p
  have hr : Run { monitor := "m" } (State.start { monitor := "m" } 0 (signalsOf ["a", "b", "c", "a", "d"])) p.1 p.2 :=
    run_played (by decide)
  have hlive : p.2.loop.isCrashed = false := by decide
  have hidle : p.2.unfinished = [] := by decide
  have hm : p.2.metrics = { eventsReceived := 5, watchesScheduled := 3, watchesCoalesced := 1, removals := 1 } := by
    decide
  obtain ⟨-, hwatches, -, -, hentries, -⟩ := books_balance hr hlive
  refine ⟨hlive, hidle, hm, by decide, ?_, hentries⟩
  rw [hidle, hm] at hwatches
  rw [hm]
  simpa using hwatches

end ReplicaWatch.Monitor
