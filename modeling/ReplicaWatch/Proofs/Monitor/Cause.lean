import ReplicaWatch.Proofs.Monitor.Drain
import ReplicaWatch.Proofs.Monitor.Lifecycle
import ReplicaWatch.Proofs.Monitor.Succession
import ReplicaWatch.Simulation.Command

/-!
# One cause of shutdown

Somebody outside, the end of the stream and any number of watches that find the cluster failing can bring a monitor
to its end, all at the same time. Only the first of them counts: it is the cause that is recorded, reported and given
as the reason in the end.

- `Cause.Herald`: the line that belongs to a cause; `heralds`: such lines in a run;
- `Move.cause_or_herald`: a move leaves the cause alone, or records the first one and reports it;
- `Run.heralded`, `Run.farewell`: the line about the cause and the line about the end, in all runs;
- `Run.asked`, `Run.blamed`: a failure that stops the monitor is an answer to a watch that has waited and asked;
- `stops_once_for_one_cause`: all of it together.
-/

namespace ReplicaWatch.Monitor

variable {setup : Setup} {s t : State} {a : Action} {seen : List Observation} {h : List Moment} {w : Watch}
  {c : Cause} {n : Notice} {now : Nat} {source : Source}

/-! ## Lines about the cause and the end -/

/-- The line that belongs to a cause of shutdown. -/
inductive Cause.Herald (monitor : String) : Cause → Notice → Prop
  | stopped : Herald monitor .stopped (.stopRequested monitor)
  | streamEnded : Herald monitor .streamEnded (.streamEnded monitor)
  | backendFailure (r : String) (e : BackendError) : Herald monitor (.backendFailure e) (.backendFailure r e)

/-- Whether a line says why the monitor will stop. -/
def Notice.isHerald (n : Notice) : Bool :=
  n.kind = .monitorStopRequested || n.kind = .eventStreamEnded || n.kind = .backendFailure

/-- Whether a line says that the monitor has stopped. -/
def Notice.isFarewell (n : Notice) : Bool := n.kind = .monitorStopped

/-- The lines of a run that say why the monitor will stop. -/
def heralds (h : List Moment) : List Notice := (reported h).filter Notice.isHerald

/-- The lines of a run that say that the monitor has stopped. -/
def farewells (h : List Moment) : List Notice := (reported h).filter Notice.isFarewell

/-- The lines of one kind in what is seen. -/
def linesWith (p : Notice → Bool) (seen : List Observation) : List Notice :=
  (seen.filterMap Observation.notice?).filter p

theorem heralds_snoc (h : List Moment) (m : Moment) :
    heralds (h ++ [m]) = heralds h ++ linesWith Notice.isHerald m.seen := by
  simp [heralds, linesWith]

theorem farewells_snoc (h : List Moment) (m : Moment) :
    farewells (h ++ [m]) = farewells h ++ linesWith Notice.isFarewell m.seen := by
  simp [farewells, linesWith]

/-- No line of the kind is seen if none of the notices is of the kind. -/
theorem linesWith_eq_nil {p : Notice → Bool} (hp : ∀ n, .notice n ∈ seen → p n = false) : linesWith p seen = [] := by
  refine List.filter_eq_nil_iff.mpr fun n hn => ?_
  obtain ⟨o, ho, hon⟩ := List.mem_filterMap.mp hn
  cases o with
  | notice m =>
    cases hon
    rw [hp _ ho]
    nofun
  | _ => cases hon

theorem linesWith_append (p : Notice → Bool) (seen more : List Observation) :
    linesWith p (seen ++ more) = linesWith p seen ++ linesWith p more := by
  simp [linesWith]

theorem linesWith_obituary {p : Notice → Bool} (hp : ∀ report, p (.watcherFailed report) = false) (w : Watch) :
    linesWith p (obituary w) = [] := by
  refine linesWith_eq_nil fun n hn => ?_
  obtain ⟨report, h⟩ := eq_notice_of_mem_obituary hn
  cases h
  exact hp report

/-- What is passed over or ends the stream is about lines of the stream only. -/
theorem linesWith_of_next {p : Notice → Bool} (hu : ∀ error line, p (.lineUnreadable error line) = false)
    (hf : ∀ error, p (.streamFailed error) = false) {source after : Source} {taken : Taken} {notices : List Notice}
    (hn : source.next = (taken, after, notices)) : linesWith p (notices.map .notice) = [] := by
  refine linesWith_eq_nil fun n hmem => ?_
  obtain ⟨m, hm, h⟩ := List.mem_map.mp hmem
  cases h
  rcases unreadable_of_next hn n hm with ⟨error, line, rfl⟩ | ⟨error, rfl⟩
  · exact hu error line
  · exact hf error

theorem linesWith_seen {p : Notice → Bool} {o : Outcome} (hp : p (o.notice w.resource) = false) :
    linesWith p (o.seen w) = [] := by
  refine linesWith_eq_nil fun n hn => ?_
  rcases Outcome.mem_seen hn with ⟨h, -⟩ | h <;> cases h
  exact hp

/-! ## The cause is recorded once and reported -/

/-- A move leaves the cause alone and says nothing about it, or it records the first cause and reports that. -/
theorem Move.cause_or_herald (hm : Move setup s a t seen) :
    t.cause = s.cause ∧ linesWith Notice.isHerald seen = [] ∨
      s.cause = none ∧ ∃ c n, t.cause = some c ∧ linesWith Notice.isHerald seen = [n] ∧ c.Herald setup.monitor n := by
  cases hm with
  | reap => exact Or.inl ⟨rfl, linesWith_obituary (fun _ => rfl) _⟩
  | skip _ hn => exact Or.inl ⟨rfl, linesWith_of_next (fun _ _ => rfl) (fun _ => rfl) hn⟩
  | endStream hl hn =>
    have hnone : s.cause = none := by simpa [State.isStopping] using hl.going
    refine Or.inr ⟨hnone, _, _, rfl, ?_, .streamEnded⟩
    rw [linesWith_append, linesWith_of_next (fun _ _ => rfl) (fun _ => rfl) hn]
    rfl
  | advance _ ha => cases ha <;> exact Or.inl ⟨rfl, rfl⟩
  | @conclude w _ o output _ _ he =>
    have same (hc : o.cause? = none) (hp : (o.notice w.resource).isHerald = false) :
        (s.conclude w o output).cause = s.cause ∧ linesWith Notice.isHerald (o.seen w) = [] := by
      refine ⟨?_, linesWith_seen hp⟩
      show s.cause.or o.cause? = s.cause
      rw [hc, Option.or_none]
    cases he with
    | fail _ hgoing =>
      have hnone : s.cause = none := by simpa [State.isStopping] using hgoing
      refine Or.inr ⟨hnone, _, _, ?_, rfl, .backendFailure _ _⟩
      show s.cause.or _ = _
      rw [hnone]
      rfl
    | _ => exact Or.inl (same rfl rfl)
  | requestStop hgoing =>
    have hnone : s.cause = none := by simpa [State.isStopping] using hgoing
    exact Or.inr ⟨hnone, _, _, rfl, rfl, .stopped⟩
  | _ => exact Or.inl ⟨rfl, rfl⟩

/-- Whether a cause of shutdown is recorded at a moment. -/
def Moment.recordsCause (m : Moment) : Bool := !m.before.isStopping && m.after.isStopping

/-- **The line about the cause.** In every run the cause is recorded once if there is one, and then there is one line
about it, which belongs to it; if there is none there is no such line. -/
theorem Run.heralded (hr : Run setup (State.start setup now source) h s) :
    h.countP Moment.recordsCause = s.isStopping.toNat ∧
    (s.cause = none → heralds h = []) ∧ ∀ c, s.cause = some c → ∃ n, heralds h = [n] ∧ c.Herald setup.monitor n := by
  refine Run.induct (P := fun h s => h.countP Moment.recordsCause = s.isStopping.toNat ∧
    (s.cause = none → heralds h = []) ∧ ∀ c, s.cause = some c → ∃ n, heralds h = [n] ∧ c.Herald setup.monitor n)
    (.start now source) ⟨rfl, fun _ => rfl, fun _ hc => by cases hc⟩ ?_ hr
  rintro h t a u seen - - hm ⟨hcount, hnone, hsome⟩
  rw [heralds_snoc, List.countP_append, hcount, List.countP_singleton]
  rcases hm.cause_or_herald with ⟨hc, hseen⟩ | ⟨htc, c, n, huc, hseen, hherald⟩
  · have hsame : u.isStopping = t.isStopping := by unfold State.isStopping; rw [hc]
    have hquiet : (⟨t, a, u, seen⟩ : Moment).recordsCause = false := by
      simp [Moment.recordsCause, hsame]
    rw [hquiet, hsame, hc]
    dsimp only
    rw [hseen, List.append_nil]
    exact ⟨rfl, hnone, hsome⟩
  · have hrecords : (⟨t, a, u, seen⟩ : Moment).recordsCause = true := by
      simp [Moment.recordsCause, State.isStopping, htc, huc]
    rw [hrecords, huc, hnone htc]
    refine ⟨?_, fun hc => (by cases hc), fun d hd => ?_⟩
    · simp [State.isStopping, htc, huc]
    · cases hd
      exact ⟨n, hseen, hherald⟩

/-- A cause that is recorded at a moment is the cause from then on. -/
theorem Run.cause_of_mem (hr : Run setup (State.start setup now source) h s) {m : Moment} (hm : m ∈ h) :
    (m.before.cause = some c → m.after.cause = some c) ∧ (m.after.cause = some c → s.cause = some c) := by
  have hstart : Reachable setup (State.start setup now source) := .start now source
  obtain ⟨k, l, rfl⟩ := List.append_of_mem hm
  obtain ⟨hk, step, hl⟩ := hr.split
  have hbefore : Reachable setup m.before := hk.reachable hstart
  have kept {x y : State} {k : List Moment} (hx : Reachable setup x) (hc : x.cause = some c) (hr : Run setup x k y) :
      y.cause = some c := by
    have hstop : x.isStopping = true := by
      unfold State.isStopping
      rw [hc]
      rfl
    rw [(hr.frozen hx hstop).cause, hc]
  exact ⟨fun hc => kept hbefore hc (.single step), fun hc => kept (.step hbefore step) hc hl⟩

/-! ## The end is reported -/

/-- A move after which the monitor has not stopped does not say so. -/
theorem Move.no_farewell (hm : Move setup s a t seen) (hl : ∀ c, t.loop ≠ .stopped c) :
    linesWith Notice.isFarewell seen = [] := by
  cases hm with
  | reap => exact linesWith_obituary (fun _ => rfl) _
  | skip _ hn => exact linesWith_of_next (fun _ _ => rfl) (fun _ => rfl) hn
  | endStream _ hn =>
    rw [linesWith_append, linesWith_of_next (fun _ _ => rfl) (fun _ => rfl) hn]
    rfl
  | stop => exact absurd rfl (hl _)
  | advance _ ha => cases ha <;> rfl
  | @conclude _ _ o => exact linesWith_seen (by cases o <;> rfl)
  | _ => rfl

/-- **The line about the end.** In every run the monitor says that it has stopped once it has, with the cause and the
number of its entries, and not before and not again. -/
theorem Run.farewell (hr : Run setup (State.start setup now source) h s) :
    (∀ c, s.loop = .stopped c → farewells h = [.monitorStopped setup.monitor c s.registry.size]) ∧
    ((∀ c, s.loop ≠ .stopped c) → farewells h = []) := by
  refine Run.induct (P := fun h s =>
    (∀ c, s.loop = .stopped c → farewells h = [.monitorStopped setup.monitor c s.registry.size]) ∧
    ((∀ c, s.loop ≠ .stopped c) → farewells h = [])) (.start now source) ⟨nofun, fun _ => rfl⟩ ?_ hr
  rintro h t a u seen - ht hm ⟨hstopped, hgoing⟩
  rw [farewells_snoc]
  by_cases hend : ∃ c, t.loop = .stopped c
  · obtain ⟨c, hc⟩ := hend
    obtain ⟨huc, hreg, hseen⟩ := hm.of_stopped hc (ht.watches_of_stopped c hc) (ht.isStopping_of_stopped hc)
    have hquiet : linesWith Notice.isFarewell seen = [] := by
      unfold linesWith
      rw [hseen]
      rfl
    rw [hquiet, List.append_nil, hreg]
    refine ⟨fun d hd => ?_, fun hu => absurd huc (hu c)⟩
    cases huc.symm.trans hd
    exact hstopped c hc
  · have hnot : ∀ c, t.loop ≠ .stopped c := fun c hc => hend ⟨c, hc⟩
    rw [hgoing hnot]
    refine ⟨fun c hc => ?_, fun hu => hm.no_farewell hu⟩
    rcases hm.stops hc with htc | hseen
    · exact absurd htc (hnot c)
    · rw [hseen]
      rfl

/-! ## The failure that stops the monitor -/

/-- A watch that has asked is told that the cluster fails, while the monitor is not stopping. -/
structure Moment.Fails (m : Moment) (w : Watch) (e : BackendError) : Prop where
  pending : w ∈ m.before.unfinished
  asking : w.phase = .asking
  going : m.before.isStopping = false
  answer : m.action = .answerReplicas w.id (.error e)
  fatal : e.isNotFound = false

/-- A watch has asked for its replicas after it had waited out its delay. -/
def HasAsked (h : List Moment) (w : Watch) : Prop :=
  ∃ n ∈ h, .askedReplicas w.id w.resource ∈ n.seen ∧
    ∃ v ∈ n.before.unfinished, ∃ deadline, v.id = w.id ∧ v.phase = .waiting deadline ∧ deadline ≤ n.time

theorem HasAsked.append (hw : HasAsked h w) (k : List Moment) : HasAsked (h ++ k) w := by
  obtain ⟨n, hn, hasked⟩ := hw
  exact ⟨n, List.mem_append_left k hn, hasked⟩

/-- In every run, a watch that waits for an answer has asked. -/
theorem Run.asked (hr : Run setup (State.start setup now source) h s) :
    ∀ w ∈ s.unfinished, w.phase = .asking → HasAsked h w := by
  refine Run.induct (P := fun h s => ∀ w ∈ s.unfinished, w.phase = .asking → HasAsked h w) (.start now source)
    nofun ?_ hr
  intro h t a u seen _ ht hm ih w hw hp
  cases hm.came ht.booked hw with
  | stayed hold => exact (ih w hold hp).append _
  | @advanced v phase output hv ha heq =>
    subst heq
    cases ha with
    | @ask deadline hwait _ hdue =>
      exact ⟨_, List.mem_append_right h (List.mem_singleton_self _), List.mem_singleton_self _, v, hv, deadline, rfl,
        hwait, hdue⟩
    | sleep | block => cases hp
  | first _ _ _ _ _ _ heq | again _ _ _ heq => rw [heq] at hp; cases hp

/-- A move after which the cluster's failure is the cause is the one at which a watch fails, or the cause was there. -/
theorem Move.blamed {e : BackendError} (hm : Move setup s a t seen) (hc : t.cause = some (.backendFailure e)) :
    s.cause = some (.backendFailure e) ∨ ∃ w, (⟨s, a, t, seen⟩ : Moment).Fails w e := by
  cases hs : s.isStopping with
  | true =>
    refine Or.inl ?_
    rcases hm.stopping hs with hq | ⟨w, -, output, rfl, -⟩
    · rw [← hq.cause, hc]
    · rw [← hc]
      exact (Option.or_none (o := s.cause)).symm
  | false =>
    have hnone : s.cause = none := by simpa [State.isStopping] using hs
    have silent {P : Prop} (h : t.cause = s.cause) : P := by
      rw [hc, hnone] at h
      cases h
    cases hm with
    | @conclude w _ o output hw ho he =>
      cases he with
      | @fail error hp _ hn =>
        have hcause : s.cause.or (some (.backendFailure error)) = some (.backendFailure e) := hc
        rw [hnone] at hcause
        cases hcause
        exact Or.inr ⟨w, mem_unfinished_of_watch? hw ho, hp, hs, rfl, hn⟩
      | _ => exact silent (Option.or_none (o := s.cause))
    | endStream | requestStop => cases hc
    | _ => exact silent rfl

/-- A watch that fails stops the monitor, and says so. -/
theorem Moment.Fails.blames {m : Moment} {e : BackendError} (hf : m.Fails w e) (hb : Booked m.before)
    (step : m.before.step? setup m.action = some (m.after, m.seen)) :
    m.after.cause = some (.backendFailure e) ∧ m.seen = [.notice (.backendFailure w.resource e)] := by
  have hw : m.before.watch? w.id = some w := hb.watch?.mpr ⟨(mem_unfinished.mp hf.pending).1, rfl⟩
  have hnone : m.before.cause = none := by simpa [State.isStopping] using hf.going
  have heff : m.before.answerReplicas w.id (.error e) = some (m.before.failWatch w e) := by
    simp [State.answerReplicas, hw, hf.asking, hf.going, hf.fatal]
  have hstep : m.before.answerReplicas w.id (.error e) = some (m.after, m.seen) := by
    rw [hf.answer] at step
    exact step
  rw [heff, State.failWatch_eq] at hstep
  obtain ⟨hafter, hseen⟩ := Prod.mk.inj (Option.some.inj hstep)
  refine ⟨?_, hseen.symm⟩
  rw [← hafter]
  show m.before.cause.or _ = _
  rw [hnone]
  rfl

/-- The failure of the cluster that is the cause is what a watch was told that had asked. -/
theorem Run.blamed {e : BackendError} (hr : Run setup (State.start setup now source) h s)
    (hc : s.cause = some (.backendFailure e)) :
    ∃ k m l w, h = k ++ m :: l ∧ m.Fails w e ∧ HasAsked k w := by
  refine Run.induct (P := fun h s => s.cause = some (.backendFailure e) →
    ∃ k m l w, h = k ++ m :: l ∧ m.Fails w e ∧ HasAsked k w) (.start now source) nofun ?_ hr hc
  intro h t a u seen hr _ hm ih hc
  rcases hm.blamed hc with hold | ⟨w, hf⟩
  · obtain ⟨k, m, l, w, rfl, hf, hasked⟩ := ih hold
    exact ⟨k, m, l ++ [_], w, by rw [List.append_assoc, List.cons_append], hf, hasked⟩
  · exact ⟨h, _, [], w, rfl, hf, hr.asked w hf.pending hf.asking⟩

/-! ## What does not stop the monitor -/

/-- That a resource does not exist is no reason to stop. -/
theorem Move.cause_of_notFound {id : Nat} {e : BackendError}
    (hm : Move setup s (.answerReplicas id (.error e)) t seen) (he : e.isNotFound = true) : t.cause = s.cause := by
  cases hm with
  | abandon => rfl
  | advance _ ha => cases ha
  | conclude _ _ hend =>
    cases hend with
    | fail _ _ hn => rw [he] at hn; cases hn
    | _ => exact Option.or_none (o := s.cause)

/-- That a definition cannot be had is no reason to stop, and nothing is recorded then. -/
theorem Move.of_failed_definition {e : BackendError} (hm : Move setup s (.answerDefinition (.error e)) t seen) :
    t.cause = s.cause ∧ t.registry = s.registry := by
  cases hm with
  | abandon | shrug => exact ⟨rfl, rfl⟩
  | advance _ ha => cases ha
  | conclude _ _ hend => cases hend; exact ⟨Option.or_none (o := s.cause), rfl⟩

/-- Nothing is recorded when the loop asks for a definition. -/
theorem Move.registry_of_askedDefinition {r : String} (hm : Move setup s a t seen)
    (ho : .askedDefinition r ∈ seen) : t.registry = s.registry := by
  cases hm with
  | reap =>
    obtain ⟨report, h⟩ := eq_notice_of_mem_obituary ho
    cases h
  | conclude => rcases Outcome.mem_seen ho with ⟨h, -⟩ | h <;> cases h
  | advance | consult => rfl
  | _ => simp at ho

/-! ## All of it -/

/-- **A monitor stops for one cause, and says so.** In every run:

- the cause is recorded once if there is one, and from then on it is the cause;
- there is one line about it, the one that belongs to it, and none if there is no cause;
- once the monitor has stopped, the line about its end and whoever waits for the end give that cause;
- a failure of the cluster is the cause only if a watch was told so that had waited and asked, and it is as the watch
  was told; the first such answer that finds the monitor not stopping always makes it the cause;
- that a resource does not exist, or that a definition cannot be had, leaves the cause alone, and asking in vain for
  a definition leaves the registry alone. -/
theorem stops_once_for_one_cause (hr : Run setup (State.start setup now source) h s) :
    h.countP Moment.recordsCause = s.isStopping.toNat ∧
    (∀ m ∈ h, ∀ c, (m.before.cause = some c → m.after.cause = some c) ∧
      (m.after.cause = some c → s.cause = some c)) ∧
    (s.cause = none → heralds h = []) ∧
    (∀ c, s.cause = some c → ∃ n, heralds h = [n] ∧ c.Herald setup.monitor n) ∧
    (∀ c, s.loop = .stopped c → s.cause = some c ∧
      farewells h = [.monitorStopped setup.monitor c s.registry.size] ∧
      ∀ x : Simulation, x.monitor? = some s → x.hasHandle = true → (x.perform .join).2 = .joined c) ∧
    (∀ e, s.cause = some (.backendFailure e) → ∃ k m l w, h = k ++ m :: l ∧ m.Fails w e ∧ HasAsked k w ∧
      heralds h = [.backendFailure w.resource e]) ∧
    (∀ m ∈ h, ∀ w e, m.Fails w e → s.cause = some (.backendFailure e)) ∧
    (∀ m ∈ h, ∀ id e, m.action = .answerReplicas id (.error e) → e.isNotFound = true →
      m.after.cause = m.before.cause) ∧
    (∀ m ∈ h, ∀ e, m.action = .answerDefinition (.error e) →
      m.after.cause = m.before.cause ∧ m.after.registry = m.before.registry) ∧
    ∀ m ∈ h, ∀ r, .askedDefinition r ∈ m.seen → m.after.registry = m.before.registry := by
  have hstart : Reachable setup (State.start setup now source) := .start now source
  obtain ⟨hcount, hnone, hsome⟩ := hr.heralded
  have blames {m : Moment} (hm : m ∈ h) {w : Watch} {e : BackendError} (hf : m.Fails w e) :
      m.after.cause = some (.backendFailure e) ∧ m.seen = [.notice (.backendFailure w.resource e)] := by
    obtain ⟨k, l, rfl⟩ := List.append_of_mem hm
    obtain ⟨hk, step, -⟩ := hr.split
    exact hf.blames (hk.reachable hstart).booked step
  refine ⟨hcount, fun m hm c => hr.cause_of_mem hm, hnone, hsome, fun c hl => ⟨?_, hr.farewell.1 c hl, ?_⟩,
    fun e hc => ?_, ?_, ?_, ?_, ?_⟩
  · exact (hr.reachable hstart).closing.stopped c hl
  · intro x hx hh
    have hend : ({ x with hasHandle := false } : Simulation).ending = .joined c := Simulation.ending_of_stopped hx hl
    simp [Simulation.perform, Simulation.joinMonitor, hh, hend]
  · obtain ⟨k, m, l, w, hkl, hf, hasked⟩ := hr.blamed hc
    refine ⟨k, m, l, w, hkl, hf, hasked, ?_⟩
    -- there is one line about the cause, and the watch that failed has said it
    obtain ⟨n, hn, -⟩ := hsome _ hc
    have hm : m ∈ h := by rw [hkl]; exact List.mem_append_right k List.mem_cons_self
    have hline : Notice.backendFailure w.resource e ∈ heralds h := by
      refine List.mem_filter.mpr ⟨List.mem_filterMap.mpr ⟨.notice _, ?_, rfl⟩, rfl⟩
      refine List.mem_flatMap.mpr ⟨m, hm, ?_⟩
      rw [(blames hm hf).2]
      exact List.mem_singleton_self _
    rw [hn] at hline ⊢
    rw [List.mem_singleton.mp hline]
  · exact fun m hm w e hf => (hr.cause_of_mem hm).2 (blames hm hf).1
  · intro m hm id e ha he
    have hmove := (hr.move_of_mem hstart hm).2
    rw [ha] at hmove
    exact hmove.cause_of_notFound he
  · intro m hm e ha
    have hmove := (hr.move_of_mem hstart hm).2
    rw [ha] at hmove
    exact hmove.of_failed_definition
  · exact fun m hm r ho => (hr.move_of_mem hstart hm).2.registry_of_askedDefinition ho

/-- The moves of a monitor whose cluster fails for two watches at the same time, while somebody asks it to stop. -/
def failingTwice (first second : String) : List Action :=
  watchingAll [first, second] ++
    [.runWatch 0, .runWatch 1, .elapse 60000, .runWatch 0, .runWatch 1,
      .answerReplicas 0 (.error (.unavailable "down")), .requestStop,
      .answerReplicas 1 (.error (.io "gone")), .runLoop, .runLoop, .runLoop, .runLoop, .requestStop]

theorem cause_of_failing_twice :
    let p := (State.start { monitor := "m" } 0 (signalsOf ["a", "b", "c"])).played { monitor := "m" }
      (failingTwice "a" "b")
    p.2.loop = .stopped (.backendFailure (.unavailable "down")) ∧ p.1.countP Moment.recordsCause = 1 ∧
      (∃ r, heralds p.1 = [.backendFailure r (.unavailable "down")]) ∧
      farewells p.1 = [.monitorStopped "m" (.backendFailure (.unavailable "down")) 2] := by
  intro p
  have hr : Run { monitor := "m" } (State.start { monitor := "m" } 0 (signalsOf ["a", "b", "c"])) p.1 p.2 :=
    run_played (by decide)
  have hl : p.2.loop = .stopped (.backendFailure (.unavailable "down")) := by decide
  obtain ⟨hcount, -, -, -, hend, hblamed, -⟩ := stops_once_for_one_cause hr
  obtain ⟨hc, hfarewell, -⟩ := hend _ hl
  obtain ⟨-, -, -, w, -, -, -, hline⟩ := hblamed _ hc
  refine ⟨hl, ?_, ⟨w.resource, hline⟩, hfarewell⟩
  rw [hcount]
  rfl

end ReplicaWatch.Monitor
