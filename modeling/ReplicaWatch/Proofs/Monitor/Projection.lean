import ReplicaWatch.Proofs.Monitor.Fitness
import ReplicaWatch.Proofs.Monitor.Standing

/-!
# What a work is to one resource

In a monitor in working order every work leaves the standing of a resource alone and shows nothing of it, or is what
a task does for it.

- `State.standing`: how a resource stands in a state; `State.Fit.coherent`: it stands coherently;
- `Spares`: nobody else's question stops the monitor;
- `Move.touches`: the comparison of a work with `Standing.Next`; `settled_of_idle`: a monitor that has nothing to do
  has nothing left to do for the resource;
- `Works.prospect`, `Works.come`: what works have come to, and what is still to come, is what there was to come;
- `Works.of_settled`: works leave a resource alone for which nothing is left to be done.
-/

namespace ReplicaWatch.Monitor

variable {setup : Setup} {s t u : State} {a : Action} {seen : List Observation} {h : List Moment} {v w : Watch}
  {c : MemoryCluster} {q : SignalQueue} {x r : String}

/-! ## How a resource stands -/

/-- The watch of a resource, if one is under way. -/
def State.watchOf (s : State) (x : String) : Option Watch := s.unfinished.find? fun w => w.resource = x

/-- How many signals wait in a stream for a resource. -/
def queuedIn (x : String) : Source → Nat
  | .queue q => q.channel.buffer.count ⟨x, true⟩
  | .feed _ => 0

/-- Whether signals may still come into a stream. -/
def isPublishing : Source → Bool
  | .queue q => q.isPublishing
  | .feed f => !f.hasEnded

/-- How many questions are asked about a resource. -/
def State.consultations (s : State) (x : String) : Nat := if s.loop = .consulting x then 1 else 0

/-- How a resource stands in a state. Once the monitor is stopping, the signals do not matter any more. -/
def State.standing (s : State) (x : String) : Standing where
  now := s.now
  entry := s.registry.get? x
  watch := (s.watchOf x).map fun w => (w.delay, w.phase)
  pending := if s.isStopping then 0 else queuedIn x s.source + s.consultations x
  isEnding := !s.isStopping && !isPublishing s.source
  isStopping := s.isStopping

theorem standing_of_going (hs : s.isStopping = false) :
    s.standing x =
      { now := s.now
        entry := s.registry.get? x
        watch := (s.watchOf x).map fun w => (w.delay, w.phase)
        pending := queuedIn x s.source + s.consultations x
        isEnding := !isPublishing s.source
        isStopping := false } := by
  simp [State.standing, hs]

/-- How often the name of a resource is put on the output, in what is seen. -/
def putsIn (x : String) (seen : List Observation) : Nat :=
  seen.countP fun o =>
    match o with
    | .put _ r => r = x
    | _ => false

/-- No watch of another resource learns that the cluster fails. -/
def Spares (x : String) (m : Moment) : Prop :=
  ∀ w ∈ m.before.unfinished, w.resource ≠ x → ∀ e, m.action = .answerReplicas w.id (.error e) → e.isNotFound = true

/-- Which watch learns that it could not be answered, and why. -/
def Action.failure? : Action → Option (Nat × BackendError)
  | .answerReplicas id (.error e) => some (id, e)
  | _ => none

theorem failure?_eq_some_iff {id : Nat} {e : BackendError} :
    a.failure? = some (id, e) ↔ a = .answerReplicas id (.error e) := by
  constructor
  · intro h
    unfold Action.failure? at h
    split at h <;> cases h
    rfl
  · rintro rfl
    rfl

instance (x : String) (m : Moment) : Decidable (Spares x m) :=
  decidable_of_iff
    (∀ w ∈ m.before.unfinished, w.resource ≠ x → ∀ p ∈ m.action.failure?, p.1 = w.id → p.2.isNotFound = true)
    ⟨fun h w hw hx e ha => h w hw hx _ (failure?_eq_some_iff.mpr ha) rfl,
      fun h w hw hx p hp hid => h w hw hx p.2 (by rw [← hid]; exact failure?_eq_some_iff.mp hp)⟩

theorem watchOf_eq_some_iff (hb : Booked s) : s.watchOf x = some w ↔ w ∈ s.unfinished ∧ w.resource = x := by
  constructor
  · intro h
    exact ⟨List.mem_of_find?_eq_some h, by simpa using List.find?_some h⟩
  · rintro ⟨hw, hx⟩
    cases hf : s.watchOf x with
    | none => exact absurd (List.find?_eq_none.mp hf w hw) (by simpa using hx)
    | some v =>
      have hv : v ∈ s.unfinished := List.mem_of_find?_eq_some hf
      have hvx : v.resource = x := by simpa using List.find?_some hf
      have hid := hb.single v hv w hw (hvx.trans hx.symm)
      rw [eq_of_id_eq hb.distinct (mem_unfinished.mp hv).1 (mem_unfinished.mp hw).1 hid]

theorem watchOf_eq_none_iff : s.watchOf x = none ↔ ∀ w ∈ s.unfinished, w.resource ≠ x := by
  unfold State.watchOf
  simp

/-- A resource with the same watches before and after has the same watch. -/
theorem watchOf_congr (hs : Booked s) (ht : Booked t)
    (h : ∀ w, w.resource = x → (w ∈ t.unfinished ↔ w ∈ s.unfinished)) : t.watchOf x = s.watchOf x := by
  refine Option.ext fun w => ?_
  rw [watchOf_eq_some_iff hs, watchOf_eq_some_iff ht]
  constructor
  · exact fun ⟨hw, hx⟩ => ⟨(h w hx).mp hw, hx⟩
  · exact fun ⟨hw, hx⟩ => ⟨(h w hx).mpr hw, hx⟩

/-- A resource stands as it stood if all that matters to it is as it was. -/
theorem standing_congr (hnow : t.now = s.now) (hentry : t.registry.get? x = s.registry.get? x)
    (hwatch : t.watchOf x = s.watchOf x) (hstop : t.isStopping = s.isStopping)
    (hpending : t.isStopping = false →
      queuedIn x t.source + t.consultations x = queuedIn x s.source + s.consultations x)
    (hpublishing : t.isStopping = false → isPublishing t.source = isPublishing s.source) :
    t.standing x = s.standing x := by
  unfold State.standing
  rw [hnow, hentry, hwatch]
  cases hs : s.isStopping with
  | true => simp [hstop, hs]
  | false =>
    have ht := hstop.trans hs
    simp [ht, hpending ht, hpublishing ht]

/-! ## A signal is taken -/

/-- A signal that is taken from a queue was in it. -/
theorem queuedIn_of_next {y : Signal} {source after : Source} {notices : List Notice} (hq : ∃ q, source = .queue q)
    (hn : source.next = (.signal y, after, notices)) :
    queuedIn x source = queuedIn x after + (if y = ⟨x, true⟩ then 1 else 0) ∧
      isPublishing after = isPublishing source := by
  obtain ⟨q, rfl⟩ := hq
  obtain ⟨-, channel, ht, rfl⟩ := next_queue_signal hn
  refine ⟨?_, rfl⟩
  simp only [queuedIn, Channel.buffer_of_take ht, List.count_cons, beq_iff_eq]

/-! ## Works -/

/-- A work is apart from a resource, or it is done for it. -/
def Touches (setup : Setup) (c : MemoryCluster) (x : String) (s t : State) (seen : List Observation) : Prop :=
  t.standing x = s.standing x ∧ linesIn x seen = [] ∧ putsIn x seen = 0 ∨
    Standing.Next setup c x (s.standing x) (t.standing x) (linesIn x seen) (putsIn x seen)

/-- A signal for another resource, or a negative one, is taken. -/
theorem touches_of_taken {y : Signal} {source : Source} {notices : List Notice} (hs : s.Fit setup) (ht : t.Fit setup)
    (hl : s.IsListening) (hn : s.source.next = (.signal y, source, notices)) (hy : y ≠ ⟨x, true⟩)
    (hsource : t.source = source) (hnow : t.now = s.now) (hcause : t.cause = s.cause)
    (hentry : t.registry.get? x = s.registry.get? x) (hloop : t.loop ≠ .consulting x)
    (hwatches : ∀ w, w.resource = x → (w ∈ t.unfinished ↔ w ∈ s.unfinished)) (hlines : linesIn x seen = [])
    (hputs : putsIn x seen = 0) : Touches setup c x s t seen := by
  obtain ⟨hqueued, hpub⟩ := queuedIn_of_next (x := x) hs.queue hn
  rw [if_neg hy, Nat.add_zero] at hqueued
  refine Or.inl ⟨standing_congr hnow hentry (watchOf_congr hs.reachable.booked ht.reachable.booked hwatches)
    (by unfold State.isStopping; rw [hcause]) (fun _ => ?_) (fun _ => by rw [hsource, hpub]), hlines, hputs⟩
  have hbefore : s.loop ≠ .consulting x := by rw [hl.loop]; nofun
  rw [hsource, hqueued, State.consultations, State.consultations, if_neg hloop, if_neg hbefore]

/-- A signal for the resource is taken, or the question about the resource is answered. -/
theorem touches_of_heard (hs : s.isStopping = false) (ht : t.isStopping = false) (hnow : t.now = s.now)
    (hpub : isPublishing t.source = isPublishing s.source)
    (hpending : queuedIn x s.source + s.consultations x = queuedIn x t.source + t.consultations x + 1)
    (hheard : (s.standing x).hear setup c x = ({ s.standing x with
      entry := t.registry.get? x
      watch := (t.watchOf x).map fun w => (w.delay, w.phase)
      pending := (s.standing x).pending - 1 }, linesIn x seen))
    (hputs : putsIn x seen = 0) : Touches setup c x s t seen := by
  have hbefore : (s.standing x).pending = queuedIn x t.source + t.consultations x + 1 := by
    simp [State.standing, hs, hpending]
  have hafter : t.standing x = { s.standing x with
      entry := t.registry.get? x
      watch := (t.watchOf x).map fun w => (w.delay, w.phase)
      pending := (s.standing x).pending - 1 } := by
    rw [hbefore]
    simp [State.standing, hs, ht, hnow, hpub]
  refine Or.inr ?_
  rw [hputs, hafter]
  exact .of_hear hs (by omega) hheard

/-- A positive signal is taken, of the resource or of another, and no question is asked about it. -/
theorem touches_of_signal {source : Source} {notices : List Notice} (hs : s.Fit setup) (ht : t.Fit setup)
    (hl : s.IsListening) (hn : s.source.next = (.signal ⟨r, true⟩, source, notices)) (hsource : t.source = source)
    (hnow : t.now = s.now) (hcause : t.cause = s.cause) (hloop : t.loop = .listening)
    (hown : r = x → (s.standing x).hear setup c x = ({ s.standing x with
      entry := t.registry.get? x
      watch := (t.watchOf x).map fun w => (w.delay, w.phase)
      pending := (s.standing x).pending - 1 }, linesIn x seen))
    (hother : r ≠ x → t.registry.get? x = s.registry.get? x ∧
      (∀ w, w.resource = x → (w ∈ t.unfinished ↔ w ∈ s.unfinished)) ∧ linesIn x seen = [])
    (hputs : putsIn x seen = 0) : Touches setup c x s t seen := by
  have hidle : t.consultations x = 0 ∧ s.consultations x = 0 := by simp [State.consultations, hloop, hl.loop]
  by_cases hr : r = x
  · subst hr
    obtain ⟨hqueued, hpub⟩ := queuedIn_of_next (x := r) hs.queue hn
    refine touches_of_heard hl.going ?_ hnow (by rw [hsource, hpub]) ?_ (hown rfl) hputs
    · unfold State.isStopping
      rw [hcause]
      exact hl.going
    · rw [hsource, hqueued, hidle.1, hidle.2, if_pos rfl]
  · obtain ⟨hentry, hwatches, hlines⟩ := hother hr
    exact touches_of_taken hs ht hl hn (by simpa using hr) hsource hnow hcause hentry (by rw [hloop]; nofun) hwatches
      hlines hputs

/-- The loop has done something that concerns no stream, no entry and no watch. -/
theorem touches_of_loop (hnow : t.now = s.now) (hregistry : t.registry = s.registry) (hcause : t.cause = s.cause)
    (hunfinished : t.unfinished = s.unfinished)
    (hsource : t.isStopping = false → t.source = s.source ∧ t.consultations x = s.consultations x)
    (hlines : linesIn x seen = []) (hputs : putsIn x seen = 0) : Touches setup c x s t seen := by
  refine Or.inl ⟨standing_congr hnow (by rw [hregistry]) (by unfold State.watchOf; rw [hunfinished])
    (by unfold State.isStopping; rw [hcause]) (fun ht => ?_) (fun ht => ?_), hlines, hputs⟩
  · rw [(hsource ht).1, (hsource ht).2]
  · rw [(hsource ht).1]

/-- A watch that changes its phase is none of a resource that is not its own. -/
theorem mem_unfinished_setPhase_iff_of_ne (hb : Booked s) (hw : w ∈ s.watches) (hne : v.resource ≠ w.resource)
    {phase : WatchPhase} {output : Channel String} :
    v ∈ State.unfinished { s with watches := (s.setPhase w.id phase).watches, output := output } ↔
      v ∈ s.unfinished := by
  rw [mem_unfinished, mem_unfinished]
  refine and_congr_left fun _ => ⟨fun hv => ?_, fun hv => ?_⟩
  · rcases mem_setPhase hv with ⟨hv, -⟩ | ⟨y, hy, hid, rfl⟩
    · exact hv
    · rw [eq_of_id_eq hb.distinct hy hw hid] at hne
      exact absurd rfl hne
  · have hid : v.id ≠ w.id := fun hid => hne (by rw [eq_of_id_eq hb.distinct hv hw hid])
    exact (mem_setPhase_iff s w.id phase).mpr ⟨v, hv, if_neg hid⟩

/-- A watch goes on, but does not wait for room. -/
theorem touches_of_advance (hs : s.Fit setup) (ht : t.Fit setup) {phase : WatchPhase} {output : Channel String}
    (hw : s.watch? w.id = some w) (ha : Advance setup s w a phase output seen)
    (hafter : t = { s with watches := (s.setPhase w.id phase).watches, output := output }) :
    Touches setup c x s t seen := by
  have hb := hs.reachable.booked
  have hmem := (hb.watch?.mp hw).1
  have hquiet : linesIn x seen = [] ∧ putsIn x seen = 0 := by
    cases ha with
    | sleep | ask | block => exact ⟨rfl, rfl⟩
  by_cases hx : w.resource = x
  case neg =>
    refine Or.inl ⟨standing_congr (by rw [hafter]) (by rw [hafter])
      (watchOf_congr hb ht.reachable.booked fun v hv => ?_) (by rw [hafter]; rfl) (fun _ => by rw [hafter]; rfl)
      (fun _ => by rw [hafter]), hquiet⟩
    rw [hafter]
    exact mem_unfinished_setPhase_iff_of_ne hb hmem fun h => hx (h ▸ hv)
  case pos =>
    have hover : phase.isOver = false := by cases ha <;> rfl
    have hbefore : s.watchOf x = some w :=
      (watchOf_eq_some_iff hb).mpr ⟨mem_unfinished_of_watch? hw ha.isOver_eq_false, hx⟩
    have hchanged : t.watchOf x = some { w with phase := phase } := by
      refine (watchOf_eq_some_iff ht.reachable.booked).mpr ⟨mem_unfinished.mpr ⟨?_, hover⟩, hx⟩
      rw [hafter]
      exact (mem_setPhase_iff s w.id phase).mpr ⟨w, hmem, if_pos rfl⟩
    have hstanding : t.standing x = { s.standing x with watch := some (w.delay, phase) } := by
      rw [State.standing, hchanged, hafter]
      rfl
    have hwatch : (s.standing x).watch = some (w.delay, w.phase) := by rw [State.standing, hbefore]; rfl
    refine Or.inr ?_
    rw [hquiet.1, hquiet.2, hstanding]
    cases ha with
    | sleep hp hgoing => exact .sleep hgoing (by rw [hwatch, hp])
    | ask hp hgoing hdue => exact .ask hgoing (by rw [hwatch, hp]) hdue
    | block =>
      have hsending : { w with phase := .sending } ∈ t.unfinished := by
        rw [hafter]
        exact mem_unfinished.mpr ⟨(mem_setPhase_iff s w.id .sending).mpr ⟨w, hmem, if_pos rfl⟩, rfl⟩
      exact absurd rfl (ht.unblocked _ hsending)

theorem putsIn_seen (w : Watch) (o : Outcome) : putsIn w.resource (o.seen w) = Standing.putsOf o := by
  unfold Outcome.seen Standing.putsOf
  split <;> simp [putsIn]

theorem putsIn_seen_of_ne (hne : w.resource ≠ x) (o : Outcome) : putsIn x (o.seen w) = 0 := by
  unfold Outcome.seen
  split <;> simp [putsIn, hne]

/-- The answer that a watch gets is that of the cluster about its resource. -/
theorem Work.answer_eq {answer : Except BackendError (List Replica)} (hb : Booked s) (hmem : w ∈ s.watches)
    (hwork : Work c s (.answerReplicas w.id answer)) : answer = c.replicasOf w.resource := by
  generalize hid : w.id = id at hwork
  cases hwork with
  | replicas hv => rw [eq_of_id_eq hb.distinct hmem hv hid]

theorem ne_refused_of_isOpen {α : Type} {d e : Channel α} {ticket : Nat} {item : α} (ho : d.isOpen = true) :
    d.offer ticket item ≠ (.refused, e) := by
  intro h
  unfold Channel.offer at h
  split at h
  · rename_i hc
    rw [ho] at hc
    cases hc
  · split at h <;> cases h

/-- In working order a watch is cancelled when the monitor stops, and otherwise ends as its answer says. -/
theorem Ending.outcome_eq {o : Outcome} {output : Channel String} (he : Ending s w a o output) (hs : s.Fit setup)
    (hmem : w ∈ s.watches) (hwork : Work c s a) :
    s.isStopping = true ∧ o = .cancelled ∨
      s.isStopping = false ∧ w.phase = .asking ∧ o = .ofAnswer (c.replicasOf w.resource) ∧
        a = .answerReplicas w.id (c.replicasOf w.resource) := by
  have hb := hs.reachable.booked
  cases he with
  | cancel hstop | withdraw hstop => exact Or.inl ⟨hstop, rfl⟩
  | vanish hp hgoing hv | fail hp hgoing hv =>
    have ha := hwork.answer_eq hb hmem
    exact Or.inr ⟨hgoing, hp, by simp [← ha, Outcome.ofAnswer, hv], by rw [← ha]⟩
  | mismatch hp hgoing hv | settle hp hgoing hv | send hp hgoing hv =>
    have ha := hwork.answer_eq hb hmem
    exact Or.inr ⟨hgoing, hp, by simp [← ha, Outcome.ofAnswer, hv], by rw [← ha]⟩
  | sendLater hp | refuseLater hp => exact absurd hp (hs.unblocked w (mem_unfinished.mpr ⟨hmem, by rw [hp]; rfl⟩))
  | refuse _ _ _ ho => exact absurd ho (ne_refused_of_isOpen hs.isOpen)

/-- How a resource stands when its watch has ended. -/
theorem standing_conclude {o : Outcome} {output : Channel String} (hgoing : s.isStopping = false)
    (hnone : (s.conclude w o output).watchOf w.resource = none) :
    (s.conclude w o output).standing w.resource = (s.standing w.resource).conclude o := by
  have hcause : s.cause = none := by simpa [State.isStopping] using hgoing
  have hstop : (s.conclude w o output).isStopping = o.cause?.isSome := by
    simp [State.isStopping, State.conclude, hcause]
  have hentry : (s.conclude w o output).registry.get? w.resource = o.entry (s.registry.get? w.resource) :=
    o.get?_registry_self s.registry w.resource
  unfold Standing.conclude
  rw [State.standing, hnone, hstop, hentry]
  cases o.cause?.isSome with
  | true => rfl
  | false =>
    simp only [State.standing, hgoing]
    rfl

/-- A watch ends. -/
theorem touches_of_conclude (hs : s.Fit setup) (ht : t.Fit setup) {o : Outcome} {output : Channel String}
    (hw : s.watch? w.id = some w) (ho : w.phase.isOver = false) (he : Ending s w a o output) (hwork : Work c s a)
    (hspare : Spares x ⟨s, a, t, seen⟩) (hafter : t = s.conclude w o output) (hseen : seen = o.seen w) :
    Touches setup c x s t seen := by
  have hb := hs.reachable.booked
  have hmem := (hb.watch?.mp hw).1
  have hunfinished := mem_unfinished_of_watch? hw ho
  have hout := he.outcome_eq hs hmem hwork
  by_cases hx : w.resource = x
  case neg =>
    -- the watch of another resource does not stop the monitor
    have hcause : o.cause? = none := by
      rcases hout with ⟨-, rfl⟩ | ⟨-, -, rfl, ha⟩
      · rfl
      · cases hr : c.replicasOf w.resource with
        | error e =>
          have := hspare w hunfinished hx e (by rw [← hr]; exact ha)
          simp [Outcome.ofAnswer, this, Outcome.cause?]
        | ok replicas =>
          cases hv : Verdict.ofReplicas replicas <;> simp [Outcome.ofAnswer, hv, Outcome.cause?]
    rw [hseen]
    refine Or.inl ⟨standing_congr (by rw [hafter]; rfl) ?_ (watchOf_congr hb ht.reachable.booked fun v hv => ?_)
      (by rw [hafter]; simp [State.isStopping, State.conclude, hcause]) (fun _ => by rw [hafter]; rfl)
      (fun _ => by rw [hafter]; rfl), linesIn_seen_of_ne hx o, putsIn_seen_of_ne hx o⟩
    · rw [hafter]
      exact o.get?_registry_of_ne s.registry hx
    · rw [hafter, mem_unfinished_conclude]
      refine and_iff_left_of_imp fun hvs hid => hx ?_
      rw [← eq_of_id_eq hb.distinct (mem_unfinished.mp hvs).1 hmem hid, hv]
  case pos =>
    subst hx
    have hbefore : s.watchOf w.resource = some w := (watchOf_eq_some_iff hb).mpr ⟨hunfinished, rfl⟩
    have hnone : t.watchOf w.resource = none := by
      rw [hafter, watchOf_eq_none_iff]
      intro v hv hr
      obtain ⟨hv, hid⟩ := mem_unfinished_conclude.mp hv
      exact hid (hb.single v hv w hunfinished hr)
    have hwatch : (s.standing w.resource).watch = some (w.delay, w.phase) := by rw [State.standing, hbefore]; rfl
    refine Or.inr ?_
    rw [hseen, linesIn_seen, putsIn_seen]
    rcases hout with ⟨hstop, rfl⟩ | ⟨hgoing, hp, rfl, -⟩
    · have hstanding : t.standing w.resource = { s.standing w.resource with watch := none } := by
        rw [State.standing, hnone, hafter]
        simp [State.standing, State.conclude, State.isStopping, Outcome.cause?, Outcome.registry] at hstop ⊢
        simp [hstop]
      rw [hstanding]
      exact .cancel hstop hwatch
    · have hstanding : t.standing w.resource =
          (s.standing w.resource).conclude (.ofAnswer (c.replicasOf w.resource)) := by
        rw [hafter]
        exact standing_conclude hgoing (by rwa [← hafter])
      rw [hstanding]
      exact .answer hgoing (by rw [hwatch, hp])

/-- The watch that has been scheduled for a resource is the one that is under way. -/
theorem watchOf_spawning {kind : DelayKind} (ht : Booked (s.spawning setup x kind)) :
    (s.spawning setup x kind).watchOf x = some (s.nextWatch setup x kind) :=
  (watchOf_eq_some_iff ht).mpr
    ⟨mem_unfinished.mpr ⟨List.mem_append_right _ (List.mem_singleton_self _), rfl⟩, rfl⟩

/-- A watch that is scheduled is none of another resource. -/
theorem mem_unfinished_spawning_iff_of_ne {kind : DelayKind} (hne : v.resource ≠ r) :
    v ∈ (s.spawning setup r kind).unfinished ↔ v ∈ s.unfinished := by
  refine ⟨fun hv => ?_, fun hv => mem_unfinished_spawning_of_mem hv r kind⟩
  rcases mem_unfinished_spawning hv with hv | rfl
  · exact hv
  · exact absurd rfl hne

theorem putsIn_obituary (w : Watch) : putsIn x (obituary w) = 0 := by
  unfold obituary
  split <;> rfl

/-- The loop has begun, taken a signal, or come to the end of the stream. -/
theorem Move.touches_of_runLoop (hm : Move setup s .runLoop t seen) (hs : s.Fit setup) (ht : t.Fit setup) :
    Touches setup c x s t seen := by
  obtain ⟨q, hq⟩ := hs.queue
  cases hm with
  | begin hl => exact touches_of_loop rfl rfl rfl rfl (fun _ => ⟨rfl, by simp [State.consultations, hl]⟩) rfl rfl
  | heed hl hstop => exact touches_of_loop rfl rfl rfl rfl (fun h => by cases hstop.symm.trans h) rfl rfl
  | @reap w =>
    exact touches_of_loop rfl rfl rfl (unfinished_eraseP s) (fun _ => ⟨rfl, rfl⟩) (linesIn_obituary x w)
      (putsIn_obituary w)
  | skip _ hn =>
    rw [hq] at hn
    exact absurd hn next_queue_ne_skipped
  | abandon hl hstop => exact touches_of_loop rfl rfl rfl rfl (fun h => by cases hstop.symm.trans h) rfl rfl
  | stop hl => exact touches_of_loop rfl rfl rfl rfl (fun _ => ⟨rfl, by simp [State.consultations, hl]⟩) rfl rfl
  | ignore hl hn =>
    exact touches_of_taken hs ht hl hn (by simp) rfl rfl rfl rfl (by simp [State.taking, State.count, hl.loop])
      (fun _ _ => Iff.rfl) rfl rfl
  | @coalesce r e source hl hn hg hwatched =>
    obtain ⟨hasQuorum, isWatched⟩ := e
    cases hwatched
    refine touches_of_signal hs ht hl hn rfl rfl rfl hl.loop (fun hr => ?_)
      (fun hr => ⟨rfl, fun _ _ => Iff.rfl, ?_⟩) rfl
    · subst hr
      rw [Standing.hear_of_isWatched hg, linesIn_cons_of_notice?_eq_none _ rfl, linesIn_cons_of_eq rfl]
      rfl
    · rw [linesIn_cons_of_notice?_eq_none _ rfl, linesIn_cons_of_ne (by simpa [Notice.resource?] using hr)]
      rfl
  | @passOver r source hl hn hg =>
    refine touches_of_signal hs ht hl hn rfl rfl rfl hl.loop (fun hr => ?_)
      (fun _ => ⟨rfl, fun _ _ => Iff.rfl, rfl⟩) rfl
    subst hr
    rw [Standing.hear_of_quorumless hg]
    rfl
  | @rewatch r source hl hn hg =>
    refine touches_of_signal hs ht hl hn rfl rfl rfl hl.loop (fun hr => ?_) (fun hr => ⟨?_, fun w hw => ?_, ?_⟩) rfl
    · subst hr
      rw [Standing.hear_of_unwatched hg, watchOf_spawning ht.reachable.booked,
        linesIn_cons_of_notice?_eq_none _ rfl, linesIn_cons_of_eq rfl]
      simp [State.spawning, State.nextWatch]
    · exact NameMap.get?_insert_of_ne _ _ hr
    · exact mem_unfinished_spawning_iff_of_ne (s := s.taking source) (by rw [hw]; exact Ne.symm hr)
    · rw [linesIn_cons_of_notice?_eq_none _ rfl, linesIn_cons_of_ne (by simpa [Notice.resource?] using hr)]
      rfl
  | @consult r source hl hn hg =>
    by_cases hr : r = x
    · subst hr
      obtain ⟨hqueued, hpub⟩ := queuedIn_of_next (x := r) hs.queue hn
      refine Or.inl ⟨standing_congr rfl rfl rfl rfl (fun _ => ?_) (fun _ => hpub), rfl, rfl⟩
      simp [hqueued, State.consultations, hl.loop, State.taking]
    · exact touches_of_taken hs ht hl hn (by simpa using hr) rfl rfl rfl rfl (by simpa using hr)
        (fun _ _ => Iff.rfl) rfl rfl
  | @endStream source notices hl hn =>
    have hlines := linesIn_map_notice (resource?_of_next hn) x
    rw [hq] at hn
    obtain ⟨rfl, hempty⟩ := next_queue_ended hn
    obtain ⟨hbuffer, hpub⟩ := hempty (hs.flowing hl.going q hq).isClosed
    have hnext : Standing.Next setup c x (s.standing x) (s.standing x).stop [] 0 := .endStream hl.going
      (by simp [State.standing, hq, isPublishing, hpub, hl.going])
      (by simp [State.standing, hq, queuedIn, hbuffer, State.consultations, hl.loop, hl.going])
    refine Or.inr ?_
    have hseen : linesIn x (notices.map .notice ++ [.notice (.streamEnded setup.monitor)]) = [] := by
      rw [linesIn_append, hlines]
      rfl
    have hputs : putsIn x (notices.map .notice ++ [.notice (.streamEnded setup.monitor)]) = 0 := by
      simp [putsIn]
    rw [hseen, hputs]
    exact hnext
  | advance hw ha => exact touches_of_advance hs ht hw ha rfl
  | conclude hw ho he => exact touches_of_conclude hs ht hw ho he .loop (fun _ _ _ _ h => by cases h) rfl rfl

/-- The question about another resource is answered. -/
theorem standing_of_answer (hs : s.Fit setup) (ht : t.Fit setup) (hasked : s.loop = .consulting r) (hr : r ≠ x)
    (hl : t.loop = .listening) (hnow : t.now = s.now) (hsource : t.source = s.source) (hcause : t.cause = s.cause)
    (hentry : t.registry.get? x = s.registry.get? x)
    (hwatches : ∀ w, w.resource = x → (w ∈ t.unfinished ↔ w ∈ s.unfinished)) : t.standing x = s.standing x := by
  refine standing_congr hnow hentry (watchOf_congr hs.reachable.booked ht.reachable.booked hwatches)
    (by unfold State.isStopping; rw [hcause]) (fun _ => ?_) (fun _ => by rw [hsource])
  simp [hsource, State.consultations, hasked, hl, hr]

/-- The question of the loop is answered. -/
theorem Move.touches_of_answer {answer : Except BackendError Definition}
    (hm : Move setup s (.answerDefinition answer) t seen) (hs : s.Fit setup) (ht : t.Fit setup)
    (hasked : s.loop = .consulting r) (hanswer : c.definition r = answer) : Touches setup c x s t seen := by
  cases hm with
  | abandon hl hstop => exact touches_of_loop rfl rfl rfl rfl (fun h => by cases hstop.symm.trans h) rfl rfl
  | shrug hl hgoing =>
    cases hasked.symm.trans hl
    by_cases hr : r = x
    · subst hr
      have hg := hs.reachable.unrecorded r hl
      refine touches_of_heard hgoing hgoing rfl rfl ?_ ?_ rfl
      · simp [State.consultations, hl, State.count]
      · rw [Standing.hear_of_none hg, hanswer, linesIn_cons_of_eq rfl]
        rfl
    · refine Or.inl ⟨standing_of_answer hs ht hl hr rfl rfl rfl rfl rfl fun _ _ => Iff.rfl, ?_, rfl⟩
      rw [linesIn_cons_of_ne (by simpa [Notice.resource?] using hr), linesIn_nil]
  | record hl hgoing hg hq =>
    cases hasked.symm.trans hl
    by_cases hr : r = x
    · subst hr
      refine touches_of_heard hgoing hgoing rfl rfl ?_ ?_ rfl
      · simp [State.consultations, hl, State.count]
      · rw [Standing.hear_of_none hg, hanswer, linesIn_cons_of_eq rfl]
        simp only [hq, State.count, NameMap.get?_insert_self]
        rfl
    · refine Or.inl ⟨standing_of_answer hs ht hl hr rfl rfl rfl rfl (NameMap.get?_insert_of_ne _ _ hr)
        fun _ _ => Iff.rfl, ?_, rfl⟩
      rw [linesIn_cons_of_ne (by simpa [Notice.resource?] using hr), linesIn_nil]
  | watch hl hgoing hg hq =>
    cases hasked.symm.trans hl
    by_cases hr : r = x
    · subst hr
      refine touches_of_heard hgoing hgoing rfl rfl ?_ ?_ rfl
      · simp [State.consultations, hl, State.spawning]
      · rw [Standing.hear_of_none hg, hanswer, watchOf_spawning ht.reachable.booked, linesIn_cons_of_eq rfl,
          linesIn_cons_of_eq rfl]
        simp [hq, State.spawning, State.nextWatch]
    · refine Or.inl ⟨standing_of_answer hs ht hl hr rfl rfl rfl rfl (NameMap.get?_insert_of_ne _ _ hr)
        (fun w hw => mem_unfinished_spawning_iff_of_ne (s := { s with loop := .listening })
          (by rw [hw]; exact Ne.symm hr)), ?_, rfl⟩
      rw [linesIn_cons_of_ne (by simpa [Notice.resource?] using hr),
        linesIn_cons_of_ne (by simpa [Notice.resource?] using hr), linesIn_nil]
  | advance hw ha => exact touches_of_advance hs ht hw ha rfl
  | conclude hw ho he =>
    exact touches_of_conclude hs ht hw ho he (hanswer ▸ .definition hasked) (fun _ _ _ _ h => by cases h) rfl rfl

/-- **A work is apart from a resource, or it is done for it.** -/
theorem Move.touches (hm : Move setup s a t seen) (hs : s.Fit setup) (ht : t.Fit setup) (hwork : Work c s a)
    (hspare : Spares x ⟨s, a, t, seen⟩) : Touches setup c x s t seen := by
  have hworked := hwork
  cases hwork with
  | loop => exact hm.touches_of_runLoop hs ht
  | definition hl => exact hm.touches_of_answer hs ht hl rfl
  | watch | replicas =>
    cases hm with
    | abandon hl hstop => exact touches_of_loop rfl rfl rfl rfl (fun h => by cases hstop.symm.trans h) rfl rfl
    | advance hw ha => exact touches_of_advance hs ht hw ha rfl
    | conclude hw ho he => exact touches_of_conclude hs ht hw ho he hworked hspare rfl rfl

/-! ## The monitor is done -/

theorem isPublishing_of_nothing (hf : Flowing q) {source : Source} {notices : List Notice}
    (hn : (Source.queue q).next = (.nothing, source, notices)) : q.channel.buffer = [] ∧ q.isPublishing = true := by
  simp only [Source.next, SignalQueue.next, hf.isClosed] at hn
  split at hn
  · rename_i hc
    cases hc
  split at hn
  · cases hn
  rename_i ht
  refine ⟨Channel.buffer_eq_nil_of_take ht, ?_⟩
  have hidle := List.append_eq_nil_iff.mp hf.outstanding
  split at hn
  · rename_i hp
    simpa [Channel.hasSenders, hidle.1, hidle.2] using hp
  · cases hn

/-- A monitor that has nothing to do, and goes on, waits for signals, and there are none. -/
theorem listening_of_idle (hs : s.Fit setup) (hidle : Idle setup c s) (hgoing : s.isStopping = false) :
    s.loop = .listening ∧ ∃ q, s.source = .queue q ∧ q.channel.buffer = [] ∧ q.isPublishing = true := by
  have hloop : s.runLoop setup = none := hidle _ .loop
  have hclosing := hs.reachable.closing
  obtain ⟨q, hq⟩ := hs.queue
  unfold State.runLoop at hloop
  cases hl : s.loop with
  | starting => rw [hl] at hloop; cases hloop
  | consulting r =>
    have hanswer : s.answerDefinition setup (c.definition r) = none := hidle _ (.definition hl)
    unfold State.answerDefinition at hanswer
    rw [hl] at hanswer
    dsimp only at hanswer
    split at hanswer
    · cases hanswer
    · split at hanswer <;> cases hanswer
  | draining => rw [hclosing.draining hl] at hgoing; cases hgoing
  | stopped cause => simp [State.isStopping, hclosing.stopped cause hl] at hgoing
  | crashed report =>
    have := hs.live
    rw [hl] at this
    cases this
  | listening =>
    simp only [hl, hgoing, Bool.false_eq_true, if_false, Option.or_eq_none_iff] at hloop
    have hlisten := hloop.2
    unfold State.listen at hlisten
    split at hlisten
    · rename_i source notices hn
      rw [hq] at hn
      exact ⟨rfl, q, hq, isPublishing_of_nothing (hs.flowing hgoing q hq) hn⟩
    all_goals cases hlisten

/-- A watch that has nothing to do, while the monitor goes on, waits for its deadline. -/
theorem waiting_of_idle (hs : s.Fit setup) (hidle : Idle setup c s) (hgoing : s.isStopping = false)
    (hw : w ∈ s.unfinished) : ∃ deadline, w.phase = .waiting deadline ∧ s.now < deadline := by
  obtain ⟨hmem, ho⟩ := mem_unfinished.mp hw
  have hfind : s.watch? w.id = some w := hs.reachable.booked.watch?.mpr ⟨hmem, rfl⟩
  have hrun : s.runWatch setup w.id = none := hidle _ (.watch w.id)
  cases hp : w.phase with
  | scheduled => simp [State.runWatch, hfind, hp, hgoing] at hrun
  | waiting deadline => exact ⟨deadline, rfl, by simpa [State.runWatch, hfind, hp, hgoing] using hrun⟩
  | asking =>
    have hanswer : s.answerReplicas w.id (c.replicasOf w.resource) = none := hidle _ (.replicas hmem hp)
    simp only [State.answerReplicas, hfind, hp, hgoing] at hanswer
    split at hanswer
    · rename_i h
      exact absurd rfl h
    · split at hanswer
      · cases hanswer
      · split at hanswer
        · cases hanswer
        · split at hanswer <;> cases hanswer
  | sending => exact absurd hp (hs.unblocked w hw)
  | finished | crashed => rw [hp] at ho; cases ho

/-- A monitor that has nothing to do has nothing left to do for a resource. -/
theorem settled_of_idle (hs : s.Fit setup) (hidle : Idle setup c s) (x : String) : (s.standing x).Settled := by
  have hb := hs.reachable.booked
  constructor
  case stopped =>
    intro hstop
    cases hw : s.watchOf x with
    | none => simp [State.standing, hw]
    | some w =>
      obtain ⟨t, seen, step, -⟩ := cancelled_at_turn setup hb hstop ((watchOf_eq_some_iff hb).mp hw).1
      rw [hidle _ (.watch w.id)] at step
      cases step
  case quiet =>
    intro hgoing
    have hgoing : s.isStopping = false := hgoing
    obtain ⟨hl, q, hq, hbuffer, hpub⟩ := listening_of_idle hs hidle hgoing
    have hpending : (s.standing x).pending = 0 := by
      simp [State.standing, hgoing, hq, queuedIn, hbuffer, State.consultations, hl]
    have hending : (s.standing x).isEnding = false := by simp [State.standing, hq, isPublishing, hpub]
    have hwatch : (s.standing x).isDue = false ∧ ∀ delay, (s.standing x).watch ≠ some (delay, .scheduled) := by
      cases hw : s.watchOf x with
      | none =>
        have hnone : (s.standing x).watch = none := by simp [State.standing, hw]
        exact ⟨Standing.isDue_of_none hnone, fun delay h => by rw [hnone] at h; cases h⟩
      | some w =>
        obtain ⟨deadline, hp, hlt⟩ := waiting_of_idle hs hidle hgoing ((watchOf_eq_some_iff hb).mp hw).1
        have hwaiting : (s.standing x).watch = some (w.delay, .waiting deadline) := by simp [State.standing, hw, hp]
        refine ⟨?_, fun delay h => by rw [hwaiting] at h; cases h⟩
        unfold Standing.isDue
        rw [hwaiting]
        exact decide_eq_false (Nat.not_le.mpr hlt)
    exact ⟨hwatch.1, hpending, hending, hwatch.2⟩

/-- A resource stands coherently, if it has nothing else to wait for when it is due. -/
theorem State.Fit.coherent (hs : s.Fit setup)
    (hdue : (s.standing x).isStopping = false → (s.standing x).isDue = true →
      (s.standing x).pending = 0 ∧ (s.standing x).isEnding = false) : (s.standing x).Coherent := by
  have hb := hs.reachable.booked
  have watched {p : Nat × WatchPhase} (hp : (s.standing x).watch = some p) :
      ∃ w ∈ s.unfinished, w.resource = x ∧ (w.delay, w.phase) = p := by
    obtain ⟨w, hw, rfl⟩ := Option.map_eq_some_iff.mp hp
    obtain ⟨hmem, hx⟩ := (watchOf_eq_some_iff hb).mp hw
    exact ⟨w, hmem, hx, rfl⟩
  constructor
  case due => exact hdue
  case delayed =>
    intro delay phase hp
    obtain ⟨w, hw, -, hwp⟩ := watched hp
    cases hwp
    exact hs.delayed w hw
  case watched =>
    intro hne
    obtain ⟨p, hp⟩ := Option.ne_none_iff_exists'.mp hne
    obtain ⟨w, hw, rfl, -⟩ := watched hp
    exact hb.entry w hw

/-! ## What works come to -/

theorem observations_snoc (h : List Moment) (m : Moment) : observations (h ++ [m]) = observations h ++ m.seen := by
  rw [observations_append, observations_singleton]

theorem putsIn_append (seen more : List Observation) : putsIn x (seen ++ more) = putsIn x seen + putsIn x more :=
  List.countP_append

/-- **What works have come to, and what is still to come, is what there was to come.** -/
theorem Works.prospect (hw : Works setup c s h t) (hs : s.Fit setup) (hdelay : ∀ kind, 0 < setup.config.delay kind)
    (hc : (s.standing x).Coherent) (hroom : ∀ m ∈ h, m.HasRoom) (hspare : ∀ m ∈ h, Spares x m) :
    (t.standing x).Coherent ∧
      (s.standing x).prospect setup c x =
        ⟨linesIn x (observations h) ++ ((t.standing x).prospect setup c x).lines,
          putsIn x (observations h) + ((t.standing x).prospect setup c x).puts,
          ((t.standing x).prospect setup c x).last⟩ := by
  refine Works.induct (P := fun h t => (∀ m ∈ h, m.HasRoom) → (∀ m ∈ h, Spares x m) → (t.standing x).Coherent ∧
    (s.standing x).prospect setup c x =
        ⟨linesIn x (observations h) ++ ((t.standing x).prospect setup c x).lines,
          putsIn x (observations h) + ((t.standing x).prospect setup c x).puts,
          ((t.standing x).prospect setup c x).last⟩) hw ?_ ?_ hroom hspare
  · exact fun _ _ => ⟨hc, by simp [observations, putsIn]⟩
  intro h t a u seen hworks step hwork ih hroom hspare
  have hroomBefore := fun m hm => hroom m (List.mem_append_left _ hm)
  have hlast : (⟨t, a, u, seen⟩ : Moment) ∈ h ++ [⟨t, a, u, seen⟩] :=
    List.mem_append_right _ (List.mem_singleton_self _)
  obtain ⟨hct, hprospect⟩ := ih hroomBefore fun m hm => hspare m (List.mem_append_left _ hm)
  have hft := hworks.fit hs hdelay hroomBefore
  have hfu := hft.step step hdelay hwork.isCrash hwork.dropsReceiver (hroom _ hlast)
  rw [hprospect, observations_snoc, linesIn_append, putsIn_append]
  rcases (hft.reachable.move step).touches hft hfu hwork (hspare _ hlast) with ⟨hsame, hlines, hputs⟩ | hnext
  · rw [hsame, hlines, hputs]
    simpa using hct
  · refine ⟨hnext.coherent hct hdelay, ?_⟩
    rw [hnext.prospect hct]
    simp [Nat.add_assoc]

/-- When the monitor is done, works have come to all that there was to come. -/
theorem Works.come (hw : Works setup c s h t) (hs : s.Fit setup) (hdelay : ∀ kind, 0 < setup.config.delay kind)
    (hc : (s.standing x).Coherent) (hroom : ∀ m ∈ h, m.HasRoom) (hspare : ∀ m ∈ h, Spares x m)
    (hidle : Idle setup c t) :
    (s.standing x).prospect setup c x = ⟨linesIn x (observations h), putsIn x (observations h), t.standing x⟩ := by
  rw [(hw.prospect hs hdelay hc hroom hspare).2, (settled_of_idle (hw.fit hs hdelay hroom) hidle x).prospect]
  simp

/-- Works leave a resource alone for which nothing is left to be done. -/
theorem Works.of_settled (hw : Works setup c s h t) (hs : s.Fit setup) (hdelay : ∀ kind, 0 < setup.config.delay kind)
    (hsettled : (s.standing x).Settled) (hroom : ∀ m ∈ h, m.HasRoom) (hspare : ∀ m ∈ h, Spares x m) :
    t.standing x = s.standing x ∧ linesIn x (observations h) = [] ∧ putsIn x (observations h) = 0 := by
  refine Works.induct (P := fun h t => (∀ m ∈ h, m.HasRoom) → (∀ m ∈ h, Spares x m) → t.standing x = s.standing x ∧
    linesIn x (observations h) = [] ∧ putsIn x (observations h) = 0) hw (fun _ _ => ⟨rfl, rfl, rfl⟩) ?_ hroom hspare
  intro h t a u seen hworks step hwork ih hroom hspare
  have hroomBefore := fun m hm => hroom m (List.mem_append_left _ hm)
  have hlast : (⟨t, a, u, seen⟩ : Moment) ∈ h ++ [⟨t, a, u, seen⟩] :=
    List.mem_append_right _ (List.mem_singleton_self _)
  obtain ⟨hstanding, hlines, hputs⟩ := ih hroomBefore fun m hm => hspare m (List.mem_append_left _ hm)
  have hft := hworks.fit hs hdelay hroomBefore
  have hfu := hft.step step hdelay hwork.isCrash hwork.dropsReceiver (hroom _ hlast)
  rw [observations_snoc, linesIn_append, putsIn_append, hlines, hputs]
  rcases (hft.reachable.move step).touches hft hfu hwork (hspare _ hlast) with ⟨hsame, hlines, hputs⟩ | hnext
  · exact ⟨hsame.trans hstanding, hlines, by rw [hputs]⟩
  · exact absurd (hstanding ▸ hsettled) hnext.not_settled

end ReplicaWatch.Monitor
