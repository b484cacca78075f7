import ReplicaWatch.Monitor.Start
import ReplicaWatch.Proofs.Monitor.Shadow

/-!
# Resources are isolated from each other

What a session shows of a resource does not depend on what signals there are of other resources. A monitor that is
given the same script without the signals of others, and without the negative ones, is a shadow of the first; it
follows beat by beat (`Shadows.round`), so both show the same of the resource (`view_independent_of_others`).

Signals that were published before the monitor started are the inputs of a first beat in which no time passes.

- `Round.view`: the lines about a resource with their times, its entry, and the times at which its name is put on the
  output;
- `Beat.about`: what is left of a beat;
- `Round.ExpiresApart`: no watch of the resource ends its delay in the millisecond of an input.
-/

namespace ReplicaWatch.Monitor

variable {setup : Setup} {s t v : State} {a : Action} {seen : List Observation} {h : List Moment} {c : MemoryCluster}
  {x : String} {n now : Nat}

/-! ## What is shown of a resource -/

/-- The lines about a resource, with their times. -/
def timedLines (x : String) (h : List Moment) : List (Nat × Notice) :=
  h.flatMap fun m => (linesIn x m.seen).map fun l => (m.time, l)

/-- The times at which the name of a resource is put on the output. -/
def putTimes (x : String) (h : List Moment) : List Nat := h.flatMap fun m => List.replicate (putsIn x m.seen) m.time

/-- What is shown of a resource in a round, and its entry at the end of it. -/
structure View where
  lines : List (Nat × Notice)
  entry : Option Record
  puts : List Nat
deriving DecidableEq

def Round.view (x : String) (r : Round) : View where
  lines := timedLines x r.moments
  entry := r.after.registry.get? x
  puts := putTimes x r.moments

/-- A beat without the signals of other resources and the negative ones. -/
def Beat.about (x : String) (b : Beat) : Beat := { b with inputs := b.inputs.filter (Input.isAbout x) }

/-- No watch of a resource ends its delay when something is done from outside. -/
def Round.ExpiresApart (x : String) (r : Round) : Prop :=
  r.beat.inputs ≠ [] → ∀ w ∈ r.before.unfinished, w.resource = x → ∀ deadline, w.phase = .waiting deadline →
    r.before.now + r.beat.elapsed < deadline

/-- When the delay of a watch is over that waits for it. -/
def WatchPhase.deadline? : WatchPhase → Option Nat
  | .waiting deadline => some deadline
  | _ => none

theorem deadline?_eq_some_iff {p : WatchPhase} {deadline : Nat} :
    p.deadline? = some deadline ↔ p = .waiting deadline := by
  cases p <;> simp [WatchPhase.deadline?]

instance (x : String) (r : Round) : Decidable (r.ExpiresApart x) :=
  decidable_of_iff
    (r.beat.inputs.isEmpty = false → ∀ w ∈ r.before.unfinished, w.resource = x → ∀ deadline ∈ w.phase.deadline?,
      r.before.now + r.beat.elapsed < deadline)
    ⟨fun h hne w hw hx deadline hp => h (by simpa using hne) w hw hx deadline (deadline?_eq_some_iff.mpr hp),
      fun h hne w hw hx deadline hp => h (by simpa using hne) w hw hx deadline (deadline?_eq_some_iff.mp hp)⟩

/-- What is shown at one time. -/
theorem timedLines_of_time (hm : ∀ m ∈ h, m.time = n) :
    timedLines x h = (linesIn x (observations h)).map fun l => (n, l) := by
  induction h with
  | nil => rfl
  | cons m rest ih =>
    obtain ⟨hfirst, hrest⟩ := List.forall_mem_cons.mp hm
    show ((linesIn x m.seen).map fun l => (m.time, l)) ++ timedLines x rest = _
    rw [ih hrest, hfirst, ← List.map_append, ← linesIn_append]
    rfl

theorem putTimes_of_time (hm : ∀ m ∈ h, m.time = n) :
    putTimes x h = List.replicate (putsIn x (observations h)) n := by
  induction h with
  | nil => rfl
  | cons m rest ih =>
    obtain ⟨hfirst, hrest⟩ := List.forall_mem_cons.mp hm
    show List.replicate (putsIn x m.seen) m.time ++ putTimes x rest = _
    rw [ih hrest, hfirst, List.replicate_append_replicate, ← putsIn_append]
    rfl

/-- Time passes in no other way. -/
theorem Move.now_eq (hm : Move setup s a t seen) (ha : ∀ ms, a ≠ .elapse ms) : t.now = s.now := by
  cases hm with
  | elapse ms => exact absurd rfl (ha ms)
  | _ => rfl

theorem Work.ne_elapse (hw : Work c s a) (ms : Nat) : a ≠ .elapse ms := by
  rintro rfl
  cases hw

theorem Run.now_eq (hr : Run setup s h t) (hs : Reachable setup s) (ha : ∀ m ∈ h, ∀ ms, m.action ≠ .elapse ms) :
    t.now = s.now ∧ ∀ m ∈ h, m.time = s.now := by
  refine Run.induct (P := fun h t => (∀ m ∈ h, ∀ ms, m.action ≠ .elapse ms) → t.now = s.now ∧ ∀ m ∈ h, m.time = s.now)
    hs (fun _ => ⟨rfl, fun m hm => absurd hm List.not_mem_nil⟩) ?_ hr ha
  intro h t a u seen _ _ hm ih ha
  obtain ⟨hnow, htime⟩ := ih fun m hm => ha m (List.mem_append_left _ hm)
  refine ⟨(hm.now_eq (ha _ (List.mem_append_right _ (List.mem_singleton_self _)))).trans hnow, fun m hm => ?_⟩
  rcases List.mem_append.mp hm with hm | hm
  · exact htime m hm
  · rw [List.mem_singleton.mp hm]
    exact hnow

theorem observations_cons (m : Moment) (h : List Moment) : observations (m :: h) = m.seen ++ observations h := rfl

theorem observations_of_silent (hm : ∀ m ∈ h, linesIn x m.seen = [] ∧ putsIn x m.seen = 0) :
    linesIn x (observations h) = [] ∧ putsIn x (observations h) = 0 := by
  induction h with
  | nil => exact ⟨rfl, rfl⟩
  | cons m rest ih =>
    obtain ⟨hfirst, hrest⟩ := List.forall_mem_cons.mp hm
    rw [observations_cons, linesIn_append, putsIn_append, hfirst.1, hfirst.2, (ih hrest).1, (ih hrest).2]
    exact ⟨rfl, rfl⟩

/-- Nothing is shown of a resource when inputs reach a monitor, and no time passes. -/
theorem given_seen (setup : Setup) (s : State) (inputs : List Input) (x : String) :
    linesIn x (observations (s.given setup inputs).1) = [] ∧ putsIn x (observations (s.given setup inputs).1) = 0 ∧
      ∀ m ∈ (s.given setup inputs).1, ∀ ms, m.action ≠ .elapse ms := by
  induction inputs generalizing s with
  | nil => exact ⟨rfl, rfl, fun m hm => absurd hm List.not_mem_nil⟩
  | cons i rest ih =>
    obtain ⟨hlines, hputs, hcalm⟩ := ih (s.attempt setup i).2
    have hfirst := observations_of_silent (attempt_seen setup s i x)
    unfold State.given
    rw [observations_append, linesIn_append, putsIn_append, hlines, hputs, hfirst.1, hfirst.2]
    refine ⟨rfl, rfl, fun m hm => ?_⟩
    rcases List.mem_append.mp hm with hm | hm
    · have hi := (step_of_mem_attempt hm).2.2.1
      intro ms ha
      rw [ha] at hi
      cases i <;> cases hi
    · exact hcalm m hm

/-- What is shown in a beat is shown when its time has passed. -/
theorem Round.IsPlayed.view_eq {r : Round} (hr : r.IsPlayed setup c) (hs : Reachable setup r.before) (x : String) :
    r.view x =
      ⟨(linesIn x (observations r.moments)).map fun l => (r.before.now + r.beat.elapsed, l), r.after.registry.get? x,
        List.replicate (putsIn x (observations r.moments)) (r.before.now + r.beat.elapsed)⟩ := by
  obtain ⟨early, u, late, hearly, hlate, -, hmoments⟩ := hr
  have hlater : Reachable setup (r.before.later r.beat.elapsed) := hs.step (a := .elapse r.beat.elapsed) rfl
  have hrun := (hearly.run.trans (run_given setup u r.beat.inputs)).trans hlate.run
  have htime := (hrun.now_eq hlater fun m hm => ?_).2
  · unfold Round.view
    rw [hmoments, observations_cons]
    show View.mk (timedLines x (early ++ _ ++ late)) _ (putTimes x (early ++ _ ++ late)) = _
    rw [timedLines_of_time htime, putTimes_of_time htime]
    rfl
  · rcases List.mem_append.mp hm with hm | hm
    · rcases List.mem_append.mp hm with hm | hm
      · exact (hearly.work m hm).ne_elapse
      · exact (given_seen setup u r.beat.inputs x).2.2 m hm
    · exact (hlate.work m hm).ne_elapse

/-! ## Beat by beat -/

theorem onCluster_about (x : String) (b : Beat) (c : MemoryCluster) : (b.about x).onCluster c = b.onCluster c := by
  unfold Beat.onCluster Beat.about
  dsimp only
  induction b.inputs generalizing c with
  | nil => rfl
  | cons i rest ih =>
    cases hi : i.isAbout x with
    | true =>
      rw [List.filter_cons_of_pos hi]
      exact ih _
    | false =>
      have hsame : Input.onCluster c i = c := by cases i <;> first | rfl | cases hi
      rw [List.filter_cons_of_neg (by simp [hi]), List.foldl_cons, hsame]
      exact ih c

/-- Time passes for a monitor and its shadow alike. -/
theorem Shadows.later (hsh : Shadows setup x v s) (n : Nat) : Shadows setup x (v.later n) (s.later n) := by
  have hstanding := congrArg (fun u : Standing => { u with now := u.now + n }) hsh.standing
  exact ⟨hsh.shadow.later n, hsh.monitor.later n, ⟨hsh.only.watches, hsh.only.signals, hsh.only.loop, hsh.only.names⟩,
    hstanding, hsh.names⟩

/-- A resource that is not due when time has passed is still settled. -/
theorem Standing.Settled.later (hs : (s.standing x).Settled)
    (hdue : s.isStopping = false → ((s.later n).standing x).isDue = false) : ((s.later n).standing x).Settled :=
  ⟨hs.stopped, fun hgoing => ⟨hdue hgoing, (hs.quiet hgoing).2⟩⟩

/-- A watch that ends its delay later than an input comes is not due when it comes. -/
theorem Round.ExpiresApart.isDue {r : Round} (hr : r.ExpiresApart x) (hinputs : r.beat.inputs ≠ [])
    (hb : Booked r.before) (hdue : (r.before.standing x).isDue = false) :
    ((r.before.later r.beat.elapsed).standing x).isDue = false := by
  have hsame : ((r.before.later r.beat.elapsed).standing x).watch = (r.before.standing x).watch := rfl
  unfold Standing.isDue at hdue ⊢
  rw [hsame]
  cases hw : r.before.watchOf x with
  | none => simp [State.standing, hw]
  | some w =>
    have hwatch : (r.before.standing x).watch = some (w.delay, w.phase) := by simp [State.standing, hw]
    obtain ⟨hmem, hx⟩ := (watchOf_eq_some_iff hb).mp hw
    rw [hwatch] at hdue ⊢
    cases hp : w.phase with
    | waiting deadline => exact decide_eq_false (Nat.not_le.mpr (hr hinputs w hmem hx deadline hp))
    | asking => rw [hp] at hdue; cases hdue
    | _ => rfl

/-- What is shown in a beat is shown by the works in it. -/
theorem shown_of_parts {r : Round} {early late : List Moment} {u : State} {first : Moment}
    (hfirst : first.seen = []) (hmoments : r.moments = first :: (early ++ (u.given setup r.beat.inputs).1 ++ late))
    (x : String) :
    linesIn x (observations r.moments) = linesIn x (observations (early ++ late)) ∧
      putsIn x (observations r.moments) = putsIn x (observations (early ++ late)) := by
  obtain ⟨hlines, hputs, -⟩ := given_seen setup u r.beat.inputs x
  rw [hmoments, observations_cons, hfirst, List.nil_append, observations_append, observations_append,
    observations_append]
  simp [putsIn_append, hlines, hputs]

/-- **The shadow follows for a beat**, and shows the same of the resource. -/
theorem Shadows.round {r d : Round} (hsh : Shadows setup x d.before r.before)
    (hdelay : ∀ kind, 0 < setup.config.delay kind) (hsettled : (r.before.standing x).Settled)
    (hbeat : d.beat = r.beat.about x) (hr : r.IsPlayed setup c) (hd : d.IsPlayed setup c)
    (hroom : ∀ m ∈ r.moments, m.HasRoom) (hspare : ∀ m ∈ r.moments, Spares x m) (hapart : r.ExpiresApart x) :
    Shadows setup x d.after r.after ∧ (r.after.standing x).Settled ∧ d.view x = r.view x := by
  have hview := hr.view_eq hsh.monitor.reachable x
  have hdview := hd.view_eq hsh.shadow.reachable x
  obtain ⟨early, u, late, hearly, hlate, hidle, hmoments⟩ := hr
  obtain ⟨dearly, p, dlate, hdearly, hdlate, hdidle, hdmoments⟩ := hd
  have hnow : d.before.now = r.before.now := congrArg Standing.now hsh.standing
  have helapsed : d.beat.elapsed = r.beat.elapsed := by rw [hbeat]; rfl
  have hinputs : d.beat.inputs = r.beat.inputs.filter (Input.isAbout x) := by rw [hbeat]; rfl
  have hcluster : d.beat.onCluster c = r.beat.onCluster c := by rw [hbeat, onCluster_about]
  obtain ⟨hlines, hputs⟩ := shown_of_parts rfl hmoments x
  obtain ⟨hdlines, hdputs⟩ := shown_of_parts rfl hdmoments x
  have hrest (m : Moment) (hm : m ∈ early ++ (u.given setup r.beat.inputs).1 ++ late) : m ∈ r.moments := by
    rw [hmoments]
    exact List.mem_cons_of_mem _ hm
  have hworks (m : Moment) (hm : m ∈ early ++ late) : m ∈ r.moments := by
    refine hrest m ?_
    rcases List.mem_append.mp hm with hm | hm
    · exact List.mem_append_left _ (List.mem_append_left _ hm)
    · exact List.mem_append_right _ hm
  rw [helapsed] at hdearly
  rw [hcluster, hinputs] at hdlate
  rw [hcluster] at hdidle
  have hlater := hsh.later r.beat.elapsed
  have hstep : Shadows setup x d.after r.after ∧
      linesIn x (observations (dearly ++ dlate)) = linesIn x (observations (early ++ late)) ∧
      putsIn x (observations (dearly ++ dlate)) = putsIn x (observations (early ++ late)) := by
    by_cases hnone : r.beat.inputs = []
    case pos =>
      -- nothing comes in between, so the monitor works on until it is done
      have hsame : r.beat.onCluster c = c := by rw [Beat.onCluster, hnone]; rfl
      rw [hsame, hnone] at hlate hdlate
      rw [hsame] at hidle hdidle
      have hc := hlater.monitor.coherent fun hgoing _ =>
        ⟨(hsettled.quiet hgoing).2.1, (hsettled.quiet hgoing).2.2.1⟩
      exact hlater.works hdelay hc (hdearly.trans hdlate) (hearly.trans hlate) hdidle hidle
        (fun m hm => hroom m (hworks m hm)) fun m hm => hspare m (hworks m hm)
    case neg =>
      have hquiet := hsettled.later fun hgoing =>
        hapart.isDue hnone hsh.monitor.reachable.booked (hsettled.quiet hgoing).1
      exact hlater.across_inputs hdelay hquiet hdearly hearly hdlate hlate hdidle hidle
        (fun m hm => hroom m (hrest m hm)) fun m hm => hspare m (hworks m hm)
  obtain ⟨hafter, hsamelines, hsameputs⟩ := hstep
  refine ⟨hafter, settled_of_idle hafter.monitor hidle x, ?_⟩
  have hentry : d.after.registry.get? x = r.after.registry.get? x := congrArg Standing.entry hafter.standing
  rw [hview, hdview, hlines, hputs, hdlines, hdputs, hsamelines, hsameputs, hentry, hnow, helapsed]

/-- **The shadow follows for a session**, and shows the same of the resource in every beat. -/
theorem Shadows.session {rounds reduced : List Round} (hsh : Shadows setup x v s)
    (hdelay : ∀ kind, 0 < setup.config.delay kind) (hsettled : (s.standing x).Settled)
    (hs : Session setup c s rounds) (hv : Session setup c v reduced)
    (hbeats : reduced.map Round.beat = rounds.map fun r => r.beat.about x)
    (hroom : ∀ r ∈ rounds, ∀ m ∈ r.moments, m.HasRoom) (hspare : ∀ r ∈ rounds, ∀ m ∈ r.moments, Spares x m)
    (hapart : ∀ r ∈ rounds, r.ExpiresApart x) : reduced.map (Round.view x) = rounds.map (Round.view x) := by
  induction rounds generalizing c s v reduced with
  | nil =>
    rw [List.map_eq_nil_iff.mp hbeats]
  | cons r rest ih =>
    obtain ⟨d, later, rfl, hbeat, hlater⟩ := List.map_eq_cons_iff.mp hbeats
    obtain ⟨rfl, hr, hrest⟩ := hs
    obtain ⟨rfl, hd, hvrest⟩ := hv
    obtain ⟨hafter, hdone, hview⟩ := hsh.round hdelay hsettled hbeat hr hd (hroom r List.mem_cons_self)
      (hspare r List.mem_cons_self) (hapart r List.mem_cons_self)
    rw [hbeat, onCluster_about] at hvrest
    rw [List.map_cons, List.map_cons, hview, ih hafter hdone hrest hvrest hlater
      (fun r hr => hroom r (List.mem_cons_of_mem _ hr)) (fun r hr => hspare r (List.mem_cons_of_mem _ hr))
      fun r hr => hapart r (List.mem_cons_of_mem _ hr)]

/-! ## Every resource is alone -/

theorem delay_pos_of_start? {subscription : Except BackendError Source}
    (hs : State.start? setup now subscription = .ok s) (kind : DelayKind) : 0 < setup.config.delay kind := by
  unfold State.start? at hs
  split at hs
  · cases hs
  · rename_i hv
    obtain ⟨hinitial, hexisting, -⟩ := (Config.validate_eq_ok_iff _).mp hv
    cases kind
    · exact hinitial
    · exact hexisting

theorem eq_start_of_start? {source : Source} (hs : State.start? setup now (.ok source) = .ok s) :
    s = State.start setup now source := by
  unfold State.start? at hs
  split at hs
  · cases hs
  · dsimp only at hs
    split at hs <;> cases hs
    rfl

/-- A monitor that has just started is in working order, and its own shadow. -/
theorem shadows_start (setup : Setup) (now : Nat) (x : String) :
    Shadows setup x (State.start setup now (.queue .empty)) (State.start setup now (.queue .empty)) := by
  have hfit : (State.start setup now (.queue .empty)).Fit setup := by
    refine ⟨.start now _, rfl, ⟨_, rfl⟩, fun _ q hq => ?_, nofun, nofun, rfl, rfl⟩
    cases hq
    exact ⟨rfl, rfl, rfl, rfl⟩
  refine ⟨hfit, hfit, ⟨nofun, fun q hq y hy => ?_, nofun, nofun⟩, rfl, Nat.le_refl _⟩
  cases hq
  cases hy

theorem settled_start (setup : Setup) (now : Nat) (x : String) :
    ((State.start setup now (.queue .empty)).standing x).Settled :=
  ⟨nofun, fun _ => ⟨rfl, rfl, rfl, nofun⟩⟩

/-- **Resources are isolated from each other.** Take a session of a monitor that has just started, with a cluster that
answers every question at once, in which nobody finds a channel full, no watch of the resource ends its delay in the
millisecond of an input, and no watch of another resource learns that the cluster fails. The same script without the
signals of other resources and the negative ones can be played, and however it is played, every beat shows the same
lines about the resource at the same times, puts its name on the output at the same times, and leaves the same entry. -/
theorem view_independent_of_others {rounds : List Round}
    (hstart : State.start? setup now (.ok (.queue .empty)) = .ok s) (hs : Session setup c s rounds)
    (hroom : ∀ r ∈ rounds, ∀ m ∈ r.moments, m.HasRoom) (hspare : ∀ r ∈ rounds, ∀ m ∈ r.moments, Spares x m)
    (hapart : ∀ r ∈ rounds, r.ExpiresApart x) :
    (∃ reduced : List Round, reduced.map Round.beat = (rounds.map fun r => r.beat.about x) ∧
      Session setup c s reduced) ∧
    ∀ reduced : List Round, reduced.map Round.beat = (rounds.map fun r => r.beat.about x) →
      Session setup c s reduced → reduced.map (Round.view x) = rounds.map (Round.view x) := by
  have hdelay := delay_pos_of_start? hstart
  obtain rfl := eq_start_of_start? hstart
  constructor
  · exact ⟨_, session_perform c (.start now _) ⟨_, rfl⟩ _⟩
  · exact fun reduced hbeats hreduced =>
      (shadows_start setup now x).session hdelay (settled_start setup now x) hs hreduced hbeats hroom hspare hapart

/-- Two resources with quorum, one of which has a replica that may be promoted. -/
def twoResources : MemoryCluster :=
  (((MemoryCluster.setDefinition {} (.withQuorum "a" (some "majority"))).setDefinition
    (.withQuorum "b" (some "majority"))).setReplicas "a" [Replica.onDrbd "a" "n" true])

/-- A script with signals of two resources, in which both are watched at the same time. -/
def mixedScript : List Beat :=
  [⟨1, [.publish 0 ⟨"b", true⟩, .publish 1 ⟨"a", true⟩, .publish 2 ⟨"a", false⟩]⟩, ⟨20, []⟩,
    ⟨1, [.receive, .publish 3 ⟨"a", true⟩, .publish 4 ⟨"b", true⟩]⟩, ⟨1, [.stop]⟩]

theorem view_of_mixed_script :
    let setup : Setup := { monitor := "m", config := { initialDelay := 20, existingDelay := 10 } }
    let s := State.start setup 0 (.queue .empty)
    let rounds := s.perform setup twoResources mixedScript
    let reduced := s.perform setup twoResources (mixedScript.map (Beat.about "a"))
    (∀ r ∈ rounds, ∀ m ∈ r.moments, m.HasRoom ∧ Spares "a" m) ∧ (∀ r ∈ rounds, r.ExpiresApart "a") ∧
      reduced.map (Round.view "a") =
        [⟨[(1, .observed "a" true), (1, .scheduled "a" .initial 20)], some ⟨true, true⟩, []⟩,
          ⟨[(21, .userLost "a" true)], some ⟨true, false⟩, [21]⟩,
          ⟨[(22, .scheduled "a" .existing 10)], some ⟨true, true⟩, []⟩,
          ⟨[(23, .cancelled "a")], some ⟨true, true⟩, []⟩] := by
  intro setup s rounds reduced
  have hstart : State.start? setup 0 (.ok (.queue .empty)) = .ok s := rfl
  have hs : Reachable setup s := .start 0 (.queue .empty)
  obtain ⟨hscript, hrounds⟩ := session_perform twoResources hs ⟨_, rfl⟩ mixedScript
  obtain ⟨hreduced, hplayed⟩ := session_perform twoResources hs ⟨_, rfl⟩ (mixedScript.map (Beat.about "a"))
  have hbeats : reduced.map Round.beat = rounds.map fun r => r.beat.about "a" := by
    rw [hreduced, ← hscript, List.map_map]
    rfl
  have hroom : ∀ r ∈ rounds, ∀ m ∈ r.moments, m.HasRoom ∧ Spares "a" m := by decide +kernel
  have hapart : ∀ r ∈ rounds, r.ExpiresApart "a" := by decide +kernel
  have hshown := (view_independent_of_others hstart hrounds
    (fun r hr m hm => (hroom r hr m hm).1) (fun r hr m hm => (hroom r hr m hm).2) hapart).2 reduced hbeats hplayed
  refine ⟨hroom, hapart, hshown.trans ?_⟩
  decide +kernel

end ReplicaWatch.Monitor
