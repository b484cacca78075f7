import ReplicaWatch.Proofs.Monitor.Projection

/-!
# The shadow of a monitor

Beside a monitor that is told of many resources goes one that is told of a single one. As long as both stand alike for
that resource (`Shadows`), the shadow has at most as many signals and names under way, so it finds room wherever the
monitor finds some, and comes to the same.

- `State.Only`: all that is going on concerns one resource; `Move.only`: a work keeps it so;
- `Move.count_output`: the names of a resource on the output are those that have been put there;
- `Works.only`: a monitor of one resource finds room on the output for what there is to come;
- `Standing.accept`: what an input is to a resource; `State.Fit.standing_attempt`: the comparison with a step;
- `Shadows.attempt`, `Shadows.given`, `Shadows.works`: the shadow follows.
-/

namespace ReplicaWatch.Monitor

variable {setup : Setup} {s t u : State} {a : Action} {seen : List Observation} {h : List Moment} {v w : Watch}
  {c : MemoryCluster} {q : SignalQueue} {x r : String}

/-! ## The names on the output -/

/-- The output is as wide as it was set up to be, and within that. -/
theorem Reachable.output (hs : Reachable setup s) :
    s.output.capacity = setup.config.outputCapacity ∧ s.output.Sound := by
  induction hs with
  | start => exact ⟨rfl, Channel.sound_new _⟩
  | step hs step ih =>
    have hc := (hs.move step).conveyance hs.booked hs.addressed
    exact ⟨hc.capacity.trans ih.1, hc.sound ih.2⟩

theorem count_deliveredOf_seen (w : Watch) (o : Outcome) : (deliveredOf (o.seen w)).count x = putsIn x (o.seen w) := by
  by_cases ho : o = .notified
  · subst ho
    rw [deliveredOf_seen_notified]
    by_cases hx : w.resource = x <;> simp [Outcome.seen, putsIn, hx]
  · rw [deliveredOf_seen_of_ne w ho]
    simp [Outcome.seen, ho, putsIn]

/-- A work puts as many names on the output as are seen to be put there. -/
theorem Move.count_output (hm : Move setup s a t seen) (hs : Reachable setup s) (hwork : Work c s a) (x : String) :
    t.output.buffer.count x = s.output.buffer.count x + putsIn x seen := by
  cases hm with
  | elapse | crashLoop | crashWatch | requestStop | requestAgain | receive | receiveEnd | dropReceiver | publish
  | runPublisher | giveUp | endPublishing | write | endInput => cases hwork
  | reap => rw [putsIn_obituary]; rfl
  | skip | endStream => simp [putsIn]
  | @advance w _ phase output _ hw ha =>
    cases ha with
    | sleep | ask => rfl
    | block _ _ _ ho =>
      have hsame := Channel.buffer_of_offer_of_ne ho fun h => by cases h
      rw [show output.buffer = _ from hsame]
      rfl
  | @conclude w _ o output hw _ he =>
    show output.buffer.count x = _
    rw [he.buffer hs.addressed (hs.booked.watch?.mp hw).1, List.count_append, count_deliveredOf_seen]
  | _ => rfl

theorem Works.count_output (hw : Works setup c s h t) (hs : Reachable setup s) (x : String) :
    t.output.buffer.count x = s.output.buffer.count x + putsIn x (observations h) := by
  refine Works.induct (P := fun h t => t.output.buffer.count x = s.output.buffer.count x + putsIn x (observations h))
    hw rfl ?_
  intro h t a u seen hworks step hwork ih
  have ht := hworks.run.reachable hs
  rw [(ht.move step).count_output ht hwork, ih, observations_snoc, putsIn_append, Nat.add_assoc]

/-! ## A monitor of one resource -/

/-- All that is going on concerns one resource. -/
structure State.Only (s : State) (x : String) : Prop where
  watches : ∀ w ∈ s.watches, w.resource = x
  signals : ∀ q, s.source = .queue q → ∀ y ∈ q.channel.buffer, y = ⟨x, true⟩
  loop : ∀ r, s.loop = .consulting r → r = x
  names : ∀ r ∈ s.output.buffer, r = x

theorem State.Only.signals_of_next {y : Signal} {source : Source} {notices : List Notice} (ho : s.Only x)
    (hq : s.source = .queue q) (hn : s.source.next = (.signal y, source, notices)) :
    y = ⟨x, true⟩ ∧ ∀ q, source = .queue q → ∀ y ∈ q.channel.buffer, y = ⟨x, true⟩ := by
  rw [hq] at hn
  obtain ⟨-, channel, ht, rfl⟩ := next_queue_signal hn
  have hsignals := ho.signals q hq
  rw [Channel.buffer_of_take ht] at hsignals
  refine ⟨hsignals y List.mem_cons_self, fun p hp z hz => ?_⟩
  cases hp
  exact hsignals z (List.mem_cons_of_mem _ hz)

theorem State.Only.signals_close (ho : s.Only x) (hq : s.source = .queue q) :
    ∀ p, s.source.close = .queue p → ∀ y ∈ p.channel.buffer, y = ⟨x, true⟩ := by
  intro p hp y hy
  rw [hq] at hp
  cases hp
  exact ho.signals q hq y hy

/-- A watch that ends puts its own name on the output, or none. -/
theorem State.Only.names_of_ending {o : Outcome} {output : Channel String} (ho : s.Only x) (hs : Reachable setup s)
    (hw : w ∈ s.watches) (he : Ending s w a o output) : ∀ r ∈ output.buffer, r = x := by
  intro r hr
  rw [he.buffer hs.addressed hw] at hr
  rcases List.mem_append.mp hr with hr | hr
  · exact ho.names r hr
  · by_cases hnotified : o = .notified
    · subst hnotified
      rw [deliveredOf_seen_notified] at hr
      rw [List.mem_singleton.mp hr]
      exact ho.watches w hw
    · rw [deliveredOf_seen_of_ne w hnotified] at hr
      cases hr

/-- A monitor of one resource goes on to concern itself with it only. -/
theorem Move.only (hm : Move setup s a t seen) (hs : s.Fit setup) (hwork : Work c s a) (ho : s.Only x) : t.Only x := by
  obtain ⟨q, hq⟩ := hs.queue
  have rephased (id : Nat) (phase : WatchPhase) : ∀ w ∈ (s.setPhase id phase).watches, w.resource = x := by
    intro w hw
    rcases mem_setPhase hw with ⟨hw, -⟩ | ⟨v, hv, -, rfl⟩
    · exact ho.watches w hw
    · exact ho.watches v hv
  have spawned {r : String} (hr : r = x) (kind : DelayKind) :
      ∀ w ∈ s.watches ++ [s.nextWatch setup r kind], w.resource = x := by
    intro w hw
    rcases List.mem_append.mp hw with hw | hw
    · exact ho.watches w hw
    · rw [List.mem_singleton.mp hw]
      exact hr
  have same {r : String} (hy : (⟨r, true⟩ : Signal) = ⟨x, true⟩) : r = x := by
    cases hy
    rfl
  cases hm with
  | elapse | crashLoop | crashWatch | requestStop | requestAgain | receive | receiveEnd | dropReceiver | publish
  | runPublisher | giveUp | endPublishing | write | endInput => cases hwork
  | begin | abandon | shrug | record | stop => exact ⟨ho.watches, ho.signals, nofun, ho.names⟩
  | heed => exact ⟨ho.watches, ho.signals_close hq, nofun, ho.names⟩
  | endStream _ hn =>
    rw [hq] at hn
    obtain ⟨rfl, -⟩ := next_queue_ended hn
    exact ⟨ho.watches, by rw [← hq]; exact ho.signals_close hq, nofun, ho.names⟩
  | reap => exact ⟨fun w hw => ho.watches w (List.mem_of_mem_eraseP hw), ho.signals, ho.loop, ho.names⟩
  | skip _ hn =>
    rw [hq] at hn
    exact absurd hn next_queue_ne_skipped
  | ignore hl hn | coalesce hl hn | passOver hl hn =>
    exact ⟨ho.watches, (ho.signals_of_next hq hn).2, ho.loop, ho.names⟩
  | rewatch hl hn =>
    obtain ⟨hy, hsignals⟩ := ho.signals_of_next hq hn
    exact ⟨spawned (same hy) _, hsignals, ho.loop, ho.names⟩
  | consult hl hn =>
    obtain ⟨hy, hsignals⟩ := ho.signals_of_next hq hn
    refine ⟨ho.watches, hsignals, fun p hp => ?_, ho.names⟩
    cases hp
    exact same hy
  | watch hl => exact ⟨spawned (ho.loop _ hl) _, ho.signals, nofun, ho.names⟩
  | @advance w _ phase output _ hw ha =>
    refine ⟨rephased _ _, ho.signals, ho.loop, ?_⟩
    cases ha with
    | sleep | ask => exact ho.names
    | block _ _ _ hoff =>
      intro r hr
      rw [show output.buffer = _ from Channel.buffer_of_offer_of_ne hoff nofun] at hr
      exact ho.names r hr
  | @conclude w _ o _ hw _ he =>
    exact ⟨rephased w.id (.finished o), ho.signals, ho.loop,
      ho.names_of_ending hs.reachable (hs.reachable.booked.watch?.mp hw).1 he⟩

/-- Only who comes or looks again learns what becomes of a signal. -/
theorem Move.published (hm : Move setup s a t seen) {ticket : Nat} {y : Signal} {reply : Channel.Reply}
    (hmem : .published ticket y reply ∈ seen) :
    (a = .publish ticket y ∧ ∃ q, s.source = .queue q ∧ reply = (q.publish ticket y).1) ∨
      a = .runPublisher ticket := by
  cases hm with
  | publish _ _ hq =>
    cases List.mem_singleton.mp hmem
    exact Or.inl ⟨rfl, _, hq, rfl⟩
  | runPublisher =>
    cases List.mem_singleton.mp hmem
    exact Or.inr rfl
  | reap =>
    obtain ⟨report, hr⟩ := eq_notice_of_mem_obituary hmem
    cases hr
  | advance _ ha => cases ha <;> simp at hmem
  | conclude => rcases Outcome.mem_seen hmem with ⟨hr, -⟩ | hr <;> cases hr
  | _ => simp at hmem

/-- A name finds room on the output if there is room for all that are to come. -/
theorem Advance.ne_sending (hs : s.Fit setup) (hw : w ∈ s.unfinished) {phase : WatchPhase} {output : Channel String}
    (ha : Advance setup s w a phase output seen) (hwork : Work c s a) (ho : s.Only x)
    (hroom : s.output.buffer.length + ((s.standing x).prospect setup c x).puts ≤ s.output.capacity) :
    phase ≠ .sending := by
  have hb := hs.reachable.booked
  cases ha with
  | sleep | ask => nofun
  | @block replicas output hp hgoing hv hoff =>
    intro _
    have hmem := (mem_unfinished.mp hw).1
    have hx := ho.watches w hmem
    have hwatch : (s.standing x).watch = some (w.delay, .asking) := by
      simp [State.standing, (watchOf_eq_some_iff hb).mpr ⟨hw, hx⟩, hp]
    have hputs : ((s.standing x).prospect setup c x).puts = 1 := by
      have hdue : (s.standing x).isDue = true := by simp [Standing.isDue, hwatch]
      have hanswer : Outcome.ofAnswer (c.replicasOf x) = .notified := by
        rw [← hx, ← hwork.answer_eq hb hmem]
        simp [Outcome.ofAnswer, hv]
      rw [Standing.prospect_of_due hgoing hdue, hanswer]
      rfl
    -- nobody has been granted a place, so an output without room is full of names
    have hfull : s.output.room = 0 := by
      unfold Channel.offer at hoff
      rw [hs.isOpen] at hoff
      simp only [Bool.not_true, Bool.false_eq_true, if_false] at hoff
      split at hoff
      · cases hoff
      · omega
    have hgranted : s.output.granted = [] := (List.append_eq_nil_iff.mp hs.outstanding).1
    simp only [Channel.room, hgranted, List.length_nil] at hfull
    omega

/-- A work finds room on the output if there is room for all names that are to come. -/
theorem Move.hasRoom_of_only (hm : Move setup s a t seen) (hs : s.Fit setup) (hwork : Work c s a) (ho : s.Only x)
    (hroom : s.output.buffer.length + ((s.standing x).prospect setup c x).puts ≤ s.output.capacity) :
    (⟨s, a, t, seen⟩ : Moment).HasRoom := by
  refine ⟨fun _ ticket y hmem => ?_, fun w hw => ?_⟩
  · rcases hm.published hmem with ⟨rfl, -⟩ | rfl <;> cases hwork
  · cases hm.came hs.reachable.booked hw with
    | stayed hw => exact hs.unblocked w hw
    | advanced hv ha heq => rw [heq]; exact ha.ne_sending hs hv hwork ho hroom
    | first _ _ _ _ _ _ heq | again _ _ _ heq => rw [heq]; nofun

theorem State.Only.spares {m : Moment} (ho : m.before.Only x) : Spares x m :=
  fun w hw hx => absurd (ho.watches w (mem_unfinished.mp hw).1) hx

theorem State.Only.length_names (ho : s.Only x) : s.output.buffer.length = s.output.buffer.count x :=
  (List.count_eq_length.mpr fun r hr => (ho.names r hr).symm).symm

/-- **A monitor of one resource** that has room for all names that are to come finds room for each of them. -/
theorem Works.only (hw : Works setup c s h t) (hs : s.Fit setup) (hdelay : ∀ kind, 0 < setup.config.delay kind)
    (hc : (s.standing x).Coherent) (ho : s.Only x)
    (hroom : s.output.buffer.count x + ((s.standing x).prospect setup c x).puts ≤ setup.config.outputCapacity) :
    (∀ m ∈ h, m.HasRoom ∧ Spares x m) ∧ t.Only x := by
  refine Works.induct (P := fun h t => (∀ m ∈ h, m.HasRoom ∧ Spares x m) ∧ t.Only x) hw
    ⟨fun m hm => absurd hm List.not_mem_nil, ho⟩ ?_
  intro h t a u seen hworks step hwork ⟨hbefore, hot⟩
  have hft := hworks.fit hs hdelay fun m hm => (hbefore m hm).1
  have hm := hft.reachable.move step
  -- what has been put on the output so far is no longer to come
  have hleft : t.output.buffer.length + ((t.standing x).prospect setup c x).puts ≤ t.output.capacity := by
    have hprospect := (hworks.prospect hs hdelay hc (fun m hm => (hbefore m hm).1) fun m hm => (hbefore m hm).2).2
    rw [hprospect] at hroom
    rw [hot.length_names, hft.reachable.output.1, hworks.count_output hs.reachable x, Nat.add_assoc]
    exact hroom
  refine ⟨fun m hmem => ?_, hm.only hft hwork hot⟩
  rcases List.mem_append.mp hmem with hmem | hmem
  · exact hbefore m hmem
  · rw [List.mem_singleton.mp hmem]
    exact ⟨hm.hasRoom_of_only hft hwork hot hleft, hot.spares⟩

/-! ## Inputs -/

/-- What an input is to a resource. -/
def Standing.accept (x : String) (v : Standing) : Input → Standing
  | .publish _ y =>
    if y = ⟨x, true⟩ ∧ v.isStopping = false ∧ v.isEnding = false then { v with pending := v.pending + 1 } else v
  | .endPublishing => if v.isStopping then v else { v with isEnding := true }
  | .stop => if v.isStopping then v else v.stop
  | .change _ => v
  | .receive => v

theorem Standing.isDue_accept (v : Standing) (i : Input) : (v.accept x i).isDue = v.isDue := by
  cases i with
  | change | receive => rfl
  | publish | endPublishing | stop => dsimp only [accept]; split <;> rfl

theorem attempt_publish (hq : s.source = .queue q) (ticket : Nat) (y : Signal) :
    s.attempt setup (.publish ticket y) =
      ([⟨s, .publish ticket y, { s with source := .queue (q.publish ticket y).2 },
          [.published ticket y (q.publish ticket y).1]⟩],
        { s with source := .queue (q.publish ticket y).2 }) := by
  simp [State.attempt, Input.action?, State.step?, State.publish, hq]

theorem attempt_endPublishing (hq : s.source = .queue q) :
    s.attempt setup .endPublishing =
      ([⟨s, .endPublishing, { s with source := .queue q.endPublishing }, []⟩],
        { s with source := .queue q.endPublishing }) := by
  simp [State.attempt, Input.action?, State.step?, State.onQueue, hq]

theorem attempt_receive (ho : s.output.isOpen = true) :
    (s.attempt setup .receive).2 = { s with output := (s.output.take.map Prod.snd).getD s.output } := by
  unfold State.attempt
  simp only [Input.action?, State.step?, State.receive, ho, Bool.not_true, Bool.false_eq_true, if_false]
  cases ht : s.output.take with
  | some p => rfl
  | none => cases he : s.isOutputEnded <;> simp

/-- What an open queue without waiting publishers does with a signal for which it has room. -/
theorem Flowing.buffer_publish {ticket : Nat} {y : Signal} (hf : Flowing q) (hp : q.isPublishing = true)
    (hr : (q.publish ticket y).1 ≠ .blocked) :
    (q.publish ticket y).2.channel.buffer = q.channel.buffer ++ [y] ∧
      q.channel.buffer.length < SignalQueue.capacity := by
  have hgranted : q.channel.granted = [] := (List.append_eq_nil_iff.mp hf.outstanding).1
  unfold SignalQueue.publish at hr ⊢
  rw [if_pos hp] at hr ⊢
  unfold Channel.offer at hr ⊢
  simp only [hf.isOpen, Bool.not_true, Bool.false_eq_true, if_false] at hr ⊢
  split at hr
  · rename_i hroom
    simp only [hroom, if_true]
    simp only [Channel.room, hgranted, hf.capacity, List.length_nil] at hroom
    exact ⟨trivial, by omega⟩
  · exact absurd rfl hr

theorem isPublishing_publish (q : SignalQueue) (ticket : Nat) (y : Signal) :
    (q.publish ticket y).2.isPublishing = q.isPublishing := by
  unfold SignalQueue.publish
  split <;> rfl

theorem publish_of_not_isPublishing (hp : q.isPublishing = false) (ticket : Nat) (y : Signal) :
    q.publish ticket y = (.refused, q) := by
  simp [SignalQueue.publish, hp]

theorem State.Fit.standing_publish (hs : s.Fit setup) (hq : s.source = .queue q) {ticket : Nat} {y : Signal}
    (hr : s.isStopping = false → (q.publish ticket y).1 ≠ .blocked) :
    State.standing { s with source := .queue (q.publish ticket y).2 } x =
      (s.standing x).accept x (.publish ticket y) := by
  dsimp only [Standing.accept]
  cases hstop : s.isStopping with
  | true =>
    rw [if_neg (by simp [State.standing, hstop])]
    exact standing_congr rfl rfl rfl rfl (fun h => by cases hstop.symm.trans h) fun h => by cases hstop.symm.trans h
  | false =>
    cases hp : q.isPublishing with
    | false =>
      rw [if_neg (by simp [State.standing, isPublishing, hq, hp, hstop]), publish_of_not_isPublishing hp]
      exact standing_congr rfl rfl rfl rfl (fun _ => by rw [hq]; rfl) fun _ => by rw [hq]
    | true =>
      obtain ⟨hbuffer, -⟩ := (hs.flowing hstop q hq).buffer_publish hp (hr hstop)
      have hqueued : queuedIn x (.queue (q.publish ticket y).2) =
          queuedIn x s.source + if y = ⟨x, true⟩ then 1 else 0 := by
        simp [queuedIn, hq, hbuffer, List.count_singleton]
      have hpub : isPublishing (.queue (q.publish ticket y).2) = isPublishing s.source := by
        rw [hq]
        exact isPublishing_publish q ticket y
      by_cases hy : y = ⟨x, true⟩
      · rw [if_pos ⟨hy, hstop, by simp [State.standing, isPublishing, hq, hp]⟩]
        rw [if_pos hy] at hqueued
        rw [standing_of_going (s := { s with source := .queue (q.publish ticket y).2 }) hstop, standing_of_going hstop,
          hqueued, hpub, Nat.add_right_comm]
        rfl
      · rw [if_neg fun h => hy h.1]
        rw [if_neg hy] at hqueued
        exact standing_congr rfl rfl rfl rfl (fun _ => by rw [hqueued]; rfl) fun _ => hpub

theorem Flowing.publish_ne_blocked {ticket : Nat} {y : Signal} (hf : Flowing q)
    (hlt : q.channel.buffer.length < SignalQueue.capacity) : (q.publish ticket y).1 ≠ .blocked := by
  have hgranted : q.channel.granted = [] := (List.append_eq_nil_iff.mp hf.outstanding).1
  have hroom : 0 < q.channel.room := by
    simp only [Channel.room, hgranted, hf.capacity, List.length_nil]
    omega
  cases hp : q.isPublishing <;> simp [SignalQueue.publish, Channel.offer, hp, hf.isOpen, hroom]

/-- **What an input is to a resource** in a monitor in working order. -/
theorem State.Fit.standing_attempt {i : Input} (hs : s.Fit setup) (hroom : ∀ m ∈ (s.attempt setup i).1, m.HasRoom)
    (x : String) : (s.attempt setup i).2.standing x = (s.standing x).accept x i := by
  obtain ⟨q, hq⟩ := hs.queue
  cases i with
  | change f => rfl
  | publish ticket y =>
    rw [attempt_publish hq] at hroom ⊢
    refine hs.standing_publish hq fun hgoing hb => ?_
    refine (hroom _ (List.mem_singleton_self _)).publishers hgoing ticket y ?_
    rw [← hb]
    exact List.mem_singleton_self _
  | endPublishing =>
    rw [attempt_endPublishing hq]
    show State.standing { s with source := .queue q.endPublishing } x =
      if s.isStopping then s.standing x else { s.standing x with isEnding := true }
    cases hstop : s.isStopping with
    | true =>
      exact standing_congr rfl rfl rfl rfl (fun h => by cases hstop.symm.trans h) fun h => by cases hstop.symm.trans h
    | false =>
      rw [standing_of_going (s := { s with source := .queue q.endPublishing }) hstop, standing_of_going hstop, hq]
      rfl
  | stop =>
    show (s.requestStop setup).1.standing x = if s.isStopping then s.standing x else (s.standing x).stop
    unfold State.requestStop
    cases hstop : s.isStopping with
    | true => rfl
    | false => rfl
  | receive =>
    rw [attempt_receive hs.isOpen]
    rfl

/-- What an input leaves alone. -/
theorem attempt_frame (hs : s.Fit setup) (i : Input) :
    (s.attempt setup i).2.now = s.now ∧ (s.attempt setup i).2.loop = s.loop ∧
      (s.attempt setup i).2.watches = s.watches := by
  obtain ⟨q, hq⟩ := hs.queue
  cases i with
  | change => exact ⟨rfl, rfl, rfl⟩
  | publish => rw [attempt_publish hq]; exact ⟨rfl, rfl, rfl⟩
  | endPublishing => rw [attempt_endPublishing hq]; exact ⟨rfl, rfl, rfl⟩
  | stop =>
    show (s.requestStop setup).1.now = _ ∧ (s.requestStop setup).1.loop = _ ∧ (s.requestStop setup).1.watches = _
    unfold State.requestStop
    split <;> exact ⟨rfl, rfl, rfl⟩
  | receive => rw [attempt_receive hs.isOpen]; exact ⟨rfl, rfl, rfl⟩

/-- A monitor that goes on after an input has gone on so far. -/
theorem going_of_attempt {i : Input} (hs : s.Fit setup) (hgoing : (s.attempt setup i).2.isStopping = false) :
    s.isStopping = false :=
  Run.induct (P := fun _ t => t.isStopping = false → s.isStopping = false) hs.reachable id
    (fun _ _ hm ih ht => ih (hm.going ht)) (run_attempt setup s i) hgoing

/-- What an input is to the monitor is a step, if it is anything. -/
theorem step_of_mem_attempt {i : Input} {m : Moment} (hm : m ∈ (s.attempt setup i).1) :
    m.before = s ∧ m.after = (s.attempt setup i).2 ∧ i.action? = some m.action ∧
      s.step? setup m.action = some (m.after, m.seen) := by
  unfold State.attempt at hm ⊢
  cases hi : i.action? with
  | none => rw [hi] at hm; cases hm
  | some a =>
    rw [hi] at hm
    dsimp only at hm ⊢
    cases step : s.step? setup a with
    | none => rw [step] at hm; cases hm
    | some effect =>
      rw [step] at hm
      cases List.mem_singleton.mp hm
      exact ⟨rfl, rfl, rfl, step⟩

/-- What an input shows is not about a resource. -/
theorem attempt_seen (setup : Setup) (s : State) (i : Input) (x : String) :
    ∀ m ∈ (s.attempt setup i).1, linesIn x m.seen = [] ∧ putsIn x m.seen = 0 := by
  rintro ⟨before, a, t, seen⟩ hm
  obtain ⟨-, -, hi, step⟩ := step_of_mem_attempt hm
  cases i with
  | change => cases hi
  | publish =>
    cases hi
    simp only [State.step?, State.publish] at step
    split at step <;> cases step
    exact ⟨rfl, rfl⟩
  | endPublishing =>
    cases hi
    simp only [State.step?, State.onQueue] at step
    split at step <;> cases step
    exact ⟨rfl, rfl⟩
  | stop =>
    cases hi
    simp only [State.step?, State.requestStop] at step
    split at step <;> cases step
    · exact ⟨rfl, rfl⟩
    · exact ⟨by rw [linesIn_cons_of_ne (by simp [Notice.resource?])]; rfl, rfl⟩
  | receive =>
    cases hi
    simp only [State.step?, State.receive] at step
    split at step
    · cases step
    · split at step
      · cases step
        exact ⟨rfl, rfl⟩
      · split at step <;> cases step
        exact ⟨rfl, rfl⟩

theorem mem_buffer_publish {ticket : Nat} {y z : Signal} (hz : z ∈ (q.publish ticket y).2.channel.buffer) :
    z ∈ q.channel.buffer ∨ z = y := by
  cases hp : q.isPublishing with
  | false =>
    rw [publish_of_not_isPublishing hp] at hz
    exact Or.inl hz
  | true =>
    cases ho : q.channel.offer ticket y with
    | mk reply channel =>
      simp only [SignalQueue.publish, hp, ho, if_true] at hz
      by_cases hr : reply = .sent
      · rw [Channel.buffer_of_offer_sent (hr ▸ ho)] at hz
        simpa using hz
      · rw [Channel.buffer_of_offer_of_ne ho hr] at hz
        exact Or.inl hz

theorem mem_buffer_attempt (hs : s.Fit setup) {i : Input} {r : String}
    (hr : r ∈ (s.attempt setup i).2.output.buffer) : r ∈ s.output.buffer := by
  obtain ⟨q, hq⟩ := hs.queue
  cases i with
  | change => exact hr
  | publish => rw [attempt_publish hq] at hr; exact hr
  | endPublishing => rw [attempt_endPublishing hq] at hr; exact hr
  | stop =>
    have hr : r ∈ (s.requestStop setup).1.output.buffer := hr
    unfold State.requestStop at hr
    split at hr <;> exact hr
  | receive =>
    rw [attempt_receive hs.isOpen] at hr
    cases ht : s.output.take with
    | none => rw [ht] at hr; exact hr
    | some p =>
      obtain ⟨first, output⟩ := p
      rw [ht] at hr
      rw [Channel.buffer_of_take ht]
      exact List.mem_cons_of_mem _ hr

/-- Whether an input is no signal, or a positive signal of a resource. -/
def Input.isAbout (x : String) : Input → Bool
  | .publish _ y => y = ⟨x, true⟩
  | _ => true

theorem State.Only.attempt {i : Input} (ho : s.Only x) (hs : s.Fit setup) (hi : i.isAbout x = true) :
    (s.attempt setup i).2.Only x := by
  obtain ⟨-, hloop, hwatches⟩ := attempt_frame hs i
  obtain ⟨q, hq⟩ := hs.queue
  constructor
  case watches => rw [hwatches]; exact ho.watches
  case loop => rw [hloop]; exact ho.loop
  case names => exact fun r hr => ho.names r (mem_buffer_attempt hs hr)
  case signals =>
    cases i with
    | change => exact ho.signals
    | publish ticket y =>
      rw [attempt_publish hq]
      intro p hp z hz
      cases hp
      rcases mem_buffer_publish hz with hz | rfl
      · exact ho.signals q hq z hz
      · simpa [Input.isAbout] using hi
    | endPublishing =>
      rw [attempt_endPublishing hq]
      intro p hp z hz
      cases hp
      exact ho.signals q hq z hz
    | stop =>
      show ∀ q, (s.requestStop setup).1.source = .queue q → _
      unfold State.requestStop
      split <;> exact ho.signals
    | receive =>
      rw [attempt_receive hs.isOpen]
      exact ho.signals

/-- An input finds room if it is no signal or there is room for it. -/
theorem hasRoom_attempt {i : Input} (hs : s.Fit setup)
    (hr : s.isStopping = false → ∀ ticket y q, i = .publish ticket y → s.source = .queue q →
      (q.publish ticket y).1 ≠ .blocked) : ∀ m ∈ (s.attempt setup i).1, m.HasRoom := by
  intro m hmem
  obtain ⟨hbefore, hafter, hi, step⟩ := step_of_mem_attempt hmem
  have hm := hs.reachable.move step
  constructor
  case watches =>
    intro w hw
    rw [hafter, State.unfinished, (attempt_frame hs i).2.2] at hw
    exact hs.unblocked w hw
  case publishers =>
    intro hgoing ticket y hpublished
    have hbefore := hm.going hgoing
    rcases hm.published hpublished with ⟨ha, q, hq, hreply⟩ | ha
    · rw [ha] at hi
      have hpublish : i = .publish ticket y := by cases i <;> cases hi; rfl
      exact hr hbefore ticket y q hpublish hq hreply.symm
    · rw [ha] at hi
      cases i <;> cases hi

/-! ## The shadow follows -/

/-- A monitor and its shadow, which concerns itself with one resource only, stand alike for it. -/
structure Shadows (setup : Setup) (x : String) (v s : State) : Prop where
  shadow : v.Fit setup
  monitor : s.Fit setup
  only : v.Only x
  standing : v.standing x = s.standing x
  names : v.output.buffer.count x ≤ s.output.buffer.count x

namespace Shadows

variable {v z : State} {k : List Moment} {i : Input}

theorem isStopping (hsh : Shadows setup x v s) : v.isStopping = s.isStopping :=
  congrArg Standing.isStopping hsh.standing

/-- A signal that finds room in a monitor finds room in its shadow. -/
theorem ne_blocked (hsh : Shadows setup x v s) (hidle : s.consultations x = 0) (hgoing : s.isStopping = false)
    {ticket : Nat} {y : Signal} {p q : SignalQueue} (hv : v.source = .queue p) (hs : s.source = .queue q)
    (hr : (q.publish ticket y).1 ≠ .blocked) : (p.publish ticket y).1 ≠ .blocked := by
  have hvgoing := hsh.isStopping.trans hgoing
  cases hp : p.isPublishing with
  | false =>
    rw [publish_of_not_isPublishing hp]
    nofun
  | true =>
    have hstanding := hsh.standing
    rw [standing_of_going hvgoing, standing_of_going hgoing, hv, hs] at hstanding
    simp only [Standing.mk.injEq, hidle, isPublishing, queuedIn] at hstanding
    obtain ⟨-, -, -, hpending, hpub, -⟩ := hstanding
    have hq : q.isPublishing = true := by simpa [hp] using hpub
    have hlt := ((hsh.monitor.flowing hgoing q hs).buffer_publish hq hr).2
    have hall : p.channel.buffer.count ⟨x, true⟩ = p.channel.buffer.length :=
      List.count_eq_length.mpr fun z hz => (hsh.only.signals p hv z hz).symm
    have hle : q.channel.buffer.count ⟨x, true⟩ ≤ q.channel.buffer.length := List.count_le_length
    exact (hsh.shadow.flowing hvgoing p hv).publish_ne_blocked (by omega)

/-- Names that are taken leave no more of them on the output of the shadow. -/
theorem names_attempt (hsh : Shadows setup x v s) (i : Input) :
    (v.attempt setup i).2.output.buffer.count x ≤ (s.attempt setup i).2.output.buffer.count x := by
  obtain ⟨p, hp⟩ := hsh.shadow.queue
  obtain ⟨q, hq⟩ := hsh.monitor.queue
  have hnames := hsh.names
  cases i with
  | change => exact hnames
  | publish => rw [attempt_publish hp, attempt_publish hq]; exact hnames
  | endPublishing => rw [attempt_endPublishing hp, attempt_endPublishing hq]; exact hnames
  | stop =>
    show (v.requestStop setup).1.output.buffer.count x ≤ (s.requestStop setup).1.output.buffer.count x
    unfold State.requestStop
    split <;> split <;> exact hnames
  | receive =>
    rw [attempt_receive hsh.shadow.isOpen, attempt_receive hsh.monitor.isOpen]
    cases hv : v.output.take with
    | none => simp [Channel.buffer_eq_nil_of_take hv]
    | some first =>
      -- the shadow gives up one of its names, and the monitor gives up one at most
      have hvx : first.1 = x := hsh.only.names _ (by rw [Channel.buffer_of_take hv]; exact List.mem_cons_self)
      rw [Channel.buffer_of_take hv, hvx, List.count_cons_self] at hnames
      cases hs : s.output.take with
      | none => simp [Channel.buffer_eq_nil_of_take hs] at hnames
      | some first =>
        rw [Channel.buffer_of_take hs, List.count_cons] at hnames
        simp only [Option.map_some, Option.getD_some]
        split at hnames <;> omega

/-- An input that is about the resource reaches both. -/
theorem attempt (hsh : Shadows setup x v s) (hdelay : ∀ kind, 0 < setup.config.delay kind)
    (hidle : s.isStopping = false → s.consultations x = 0) (hi : i.isAbout x = true)
    (hroom : ∀ m ∈ (s.attempt setup i).1, m.HasRoom) :
    Shadows setup x (v.attempt setup i).2 (s.attempt setup i).2 := by
  obtain ⟨q, hq⟩ := hsh.monitor.queue
  have hshadow : ∀ m ∈ (v.attempt setup i).1, m.HasRoom := by
    refine hasRoom_attempt hsh.shadow fun hgoing ticket y p hpublish hp => ?_
    subst hpublish
    have hgoing := hsh.isStopping.symm.trans hgoing
    rw [attempt_publish hq] at hroom
    refine hsh.ne_blocked (hidle hgoing) hgoing hp hq fun hb => ?_
    refine (hroom _ (List.mem_singleton_self _)).publishers hgoing ticket y ?_
    rw [← hb]
    exact List.mem_singleton_self _
  constructor
  case shadow => exact hsh.shadow.attempt hdelay hshadow
  case monitor => exact hsh.monitor.attempt hdelay hroom
  case only => exact hsh.only.attempt hsh.shadow hi
  case standing =>
    rw [hsh.shadow.standing_attempt hshadow, hsh.monitor.standing_attempt hroom, hsh.standing]
  case names => exact hsh.names_attempt i

/-- A signal that is not about the resource reaches the monitor only. -/
theorem attempt_other (hsh : Shadows setup x v s) (hdelay : ∀ kind, 0 < setup.config.delay kind)
    (hi : i.isAbout x = false) (hroom : ∀ m ∈ (s.attempt setup i).1, m.HasRoom) :
    Shadows setup x v (s.attempt setup i).2 := by
  obtain ⟨q, hq⟩ := hsh.monitor.queue
  have hsame : (s.standing x).accept x i = s.standing x ∧ (s.attempt setup i).2.output = s.output := by
    cases i with
    | publish ticket y =>
      rw [attempt_publish hq]
      exact ⟨if_neg fun h => by simp [Input.isAbout, h.1] at hi, rfl⟩
    | _ => cases hi
  constructor
  case shadow => exact hsh.shadow
  case monitor => exact hsh.monitor.attempt hdelay hroom
  case only => exact hsh.only
  case standing => rw [hsh.monitor.standing_attempt hroom, hsame.1, hsh.standing]
  case names => rw [hsame.2]; exact hsh.names

/-- **Inputs reach a monitor and its shadow**, those that are not about the resource the monitor only. -/
theorem given (hsh : Shadows setup x v s) (hdelay : ∀ kind, 0 < setup.config.delay kind)
    (hidle : s.isStopping = false → s.consultations x = 0) {inputs : List Input}
    (hroom : ∀ m ∈ (s.given setup inputs).1, m.HasRoom) :
    Shadows setup x (v.given setup (inputs.filter (Input.isAbout x))).2 (s.given setup inputs).2 ∧
      ((s.given setup inputs).2.standing x).isDue = (s.standing x).isDue := by
  induction inputs generalizing v s with
  | nil => exact ⟨hsh, rfl⟩
  | cons i rest ih =>
    have hfirst : ∀ m ∈ (s.attempt setup i).1, m.HasRoom := fun m hm => hroom m (List.mem_append_left _ hm)
    have hrest : ∀ m ∈ ((s.attempt setup i).2.given setup rest).1, m.HasRoom := fun m hm =>
      hroom m (List.mem_append_right _ hm)
    have hconsult (hgoing : (s.attempt setup i).2.isStopping = false) :
        (s.attempt setup i).2.consultations x = 0 := by
      unfold State.consultations at hidle ⊢
      rw [(attempt_frame hsh.monitor i).2.1]
      exact hidle (going_of_attempt hsh.monitor hgoing)
    have hdue : ((s.attempt setup i).2.standing x).isDue = (s.standing x).isDue := by
      rw [hsh.monitor.standing_attempt hfirst, Standing.isDue_accept]
    cases hi : i.isAbout x with
    | true =>
      rw [List.filter_cons_of_pos hi]
      obtain ⟨hlater, hduelater⟩ := ih (hsh.attempt hdelay hidle hi hfirst) hconsult hrest
      exact ⟨hlater, hduelater.trans hdue⟩
    | false =>
      rw [List.filter_cons_of_neg (by simp [hi])]
      obtain ⟨hlater, hduelater⟩ := ih (hsh.attempt_other hdelay hi hfirst) hconsult hrest
      exact ⟨hlater, hduelater.trans hdue⟩

/-- The shadow finds room on the output for what there is to come, if the monitor does. -/
theorem finds_room (hsh : Shadows setup x v s) (hdelay : ∀ kind, 0 < setup.config.delay kind)
    (hc : (s.standing x).Coherent) (hv : Works setup c v k z) (hs : Works setup c s h t)
    (hputs : ((s.standing x).prospect setup c x).puts ≤ putsIn x (observations h)) :
    (∀ m ∈ k, m.HasRoom ∧ Spares x m) ∧ z.Only x := by
  refine hv.only hsh.shadow hdelay (hsh.standing ▸ hc) hsh.only ?_
  rw [hsh.standing]
  have hcount := hs.count_output hsh.monitor.reachable x
  have hlength : t.output.buffer.count x ≤ t.output.buffer.length := List.count_le_length
  obtain ⟨hcapacity, hsound⟩ := (hs.run.reachable hsh.monitor.reachable).output
  have hwithin := hsound.within
  have hnames := hsh.names
  omega

/-- Works that leave the resource alone leave the shadow beside the monitor. -/
theorem of_settled (hsh : Shadows setup x v s) (hdelay : ∀ kind, 0 < setup.config.delay kind)
    (hsettled : (s.standing x).Settled) (hv : Works setup c v k z) (hs : Works setup c s h t)
    (hroom : ∀ m ∈ h, m.HasRoom) (hspare : ∀ m ∈ h, Spares x m) :
    Shadows setup x z t ∧ t.standing x = s.standing x ∧
      (linesIn x (observations k) = [] ∧ putsIn x (observations k) = 0) ∧
      linesIn x (observations h) = [] ∧ putsIn x (observations h) = 0 := by
  have hc := hsh.monitor.coherent fun hgoing _ => ⟨(hsettled.quiet hgoing).2.1, (hsettled.quiet hgoing).2.2.1⟩
  obtain ⟨hk, honly⟩ := hsh.finds_room hdelay hc hv hs (by rw [hsettled.prospect]; exact Nat.zero_le _)
  have hkroom := fun m hm => (hk m hm).1
  obtain ⟨hstanding, hseen⟩ := hs.of_settled hsh.monitor hdelay hsettled hroom hspare
  obtain ⟨hvstanding, hvseen⟩ :=
    hv.of_settled hsh.shadow hdelay (hsh.standing ▸ hsettled) hkroom fun m hm => (hk m hm).2
  refine ⟨?_, hstanding, hvseen, hseen⟩
  constructor
  case shadow => exact hv.fit hsh.shadow hdelay hkroom
  case monitor => exact hs.fit hsh.monitor hdelay hroom
  case only => exact honly
  case standing => rw [hvstanding, hstanding, hsh.standing]
  case names =>
    rw [hv.count_output hsh.shadow.reachable x, hs.count_output hsh.monitor.reachable x, hvseen.2, hseen.2]
    exact hsh.names

/-- **Works until both are done** come to the same for the resource. -/
theorem works (hsh : Shadows setup x v s) (hdelay : ∀ kind, 0 < setup.config.delay kind)
    (hc : (s.standing x).Coherent) (hv : Works setup c v k z) (hs : Works setup c s h t) (hvidle : Idle setup c z)
    (hidle : Idle setup c t) (hroom : ∀ m ∈ h, m.HasRoom) (hspare : ∀ m ∈ h, Spares x m) :
    Shadows setup x z t ∧ linesIn x (observations k) = linesIn x (observations h) ∧
      putsIn x (observations k) = putsIn x (observations h) := by
  have hcome := hs.come hsh.monitor hdelay hc hroom hspare hidle
  obtain ⟨hk, honly⟩ := hsh.finds_room hdelay hc hv hs (by rw [hcome])
  have hkroom := fun m hm => (hk m hm).1
  have hvcome := hv.come hsh.shadow hdelay (hsh.standing ▸ hc) hkroom (fun m hm => (hk m hm).2) hvidle
  rw [hsh.standing, hcome, Prospect.mk.injEq] at hvcome
  obtain ⟨hlines, hputs, hstanding⟩ := hvcome
  refine ⟨?_, hlines.symm, hputs.symm⟩
  constructor
  case shadow => exact hv.fit hsh.shadow hdelay hkroom
  case monitor => exact hs.fit hsh.monitor hdelay hroom
  case only => exact honly
  case standing => exact hstanding.symm
  case names =>
    rw [hv.count_output hsh.shadow.reachable x, hs.count_output hsh.monitor.reachable x, hputs]
    exact Nat.add_le_add_right hsh.names _

/-- **The shadow follows across inputs** that come when nothing is left to be done for the resource. -/
theorem across_inputs (hsh : Shadows setup x v s) (hdelay : ∀ kind, 0 < setup.config.delay kind)
    (hsettled : (s.standing x).Settled) {early dearly late dlate : List Moment} {d : MemoryCluster} {p u : State}
    {inputs : List Input} (hdearly : Works setup c v dearly p) (hearly : Works setup c s early u)
    (hdlate : Works setup d (p.given setup (inputs.filter (Input.isAbout x))).2 dlate z)
    (hlate : Works setup d (u.given setup inputs).2 late t) (hdidle : Idle setup d z) (hidle : Idle setup d t)
    (hroom : ∀ m ∈ early ++ (u.given setup inputs).1 ++ late, m.HasRoom) (hspare : ∀ m ∈ early ++ late, Spares x m) :
    Shadows setup x z t ∧ linesIn x (observations (dearly ++ dlate)) = linesIn x (observations (early ++ late)) ∧
      putsIn x (observations (dearly ++ dlate)) = putsIn x (observations (early ++ late)) := by
  obtain ⟨hmid, hstanding, hdsilent, hsilent⟩ := hsh.of_settled hdelay hsettled hdearly hearly
    (fun m hm => hroom m (List.mem_append_left _ (List.mem_append_left _ hm))) fun m hm =>
      hspare m (List.mem_append_left _ hm)
  have hconsult (hgoing : u.isStopping = false) : u.consultations x = 0 := by
    have hpending := ((hstanding ▸ hsettled : (u.standing x).Settled).quiet hgoing).2.1
    rw [standing_of_going hgoing] at hpending
    exact (Nat.add_eq_zero_iff.mp hpending).2
  obtain ⟨hgiven, hdue⟩ := hmid.given hdelay hconsult fun m hm =>
    hroom m (List.mem_append_left _ (List.mem_append_right _ hm))
  -- the inputs do not bring the watch of the resource to the end of its delay
  have hc := hgiven.monitor.coherent fun _ h => by
    rw [hdue, hstanding, hsettled.isDue] at h
    cases h
  obtain ⟨hend, hlines, hputs⟩ := hgiven.works hdelay hc hdlate hlate hdidle hidle
    (fun m hm => hroom m (List.mem_append_right _ hm)) fun m hm => hspare m (List.mem_append_right _ hm)
  refine ⟨hend, ?_, ?_⟩
  · rw [observations_append, observations_append, linesIn_append, linesIn_append, hdsilent.1, hsilent.1, hlines]
  · rw [observations_append, observations_append, putsIn_append, putsIn_append, hdsilent.2, hsilent.2, hputs]

end Shadows

end ReplicaWatch.Monitor
