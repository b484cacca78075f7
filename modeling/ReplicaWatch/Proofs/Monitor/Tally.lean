import Mathlib.Data.List.Induction
import ReplicaWatch.Proofs.Monitor.Cause
import ReplicaWatch.Proofs.Monitor.Input
import ReplicaWatch.Proofs.Monitor.Intake
import ReplicaWatch.Proofs.Signals.Malformed

/-!
# The tally of a monitor that nothing disturbs

A monitor that takes positive signals for some names, while every question about a definition is answered alike and no
delay is over, reports of each name what the names before it leave to be said. So its lines can be told from the names
alone, and when the stream ends, every watch that was scheduled is cancelled.

- `reception`, `receptions`: what is reported of a name, and of names one after the other; `subjects_observed`,
  `subjects_scheduled`, `length_coalesced`, `length_unknown` count it;
- `Moment.Undisturbed`: what must not happen;
- `Told`: what a monitor has come to that has taken signals for some names; `Move.told` is one step of it,
  `Run.accounted` all steps up to the cause of shutdown;
- `Run.tallied`: all lines of a run that count, up to its end;
- `Tally`: how many lines there are; `Run.tally`: a run that has come to its end has them.
-/

namespace ReplicaWatch.Monitor

open Log (EventKind)

/-- The names in the positive signals of a list, in their order. -/
def positives (signals : List Signal) : List String := (signals.filter Signal.mayPromote).map Signal.resource

/-- The lines of one kind. -/
def linesOf (k : EventKind) (log : List Notice) : List Notice := log.filter fun n => n.kind = k

/-- The resources that the lines of one kind are about. -/
def subjects (k : EventKind) (log : List Notice) : List String := (linesOf k log).filterMap Notice.resource?

@[simp] theorem linesOf_append (k : EventKind) (log more : List Notice) :
    linesOf k (log ++ more) = linesOf k log ++ linesOf k more := List.filter_append _ _

@[simp] theorem subjects_append (k : EventKind) (log more : List Notice) :
    subjects k (log ++ more) = subjects k log ++ subjects k more := by
  simp [subjects]

/-- Every line of a kind that is about a resource names one. -/
theorem length_subjects {k : EventKind} (hk : ∀ n : Notice, n.kind = k → n.resource?.isSome = true)
    (log : List Notice) : (subjects k log).length = (linesOf k log).length := by
  unfold subjects
  rw [List.length_filterMap_eq_countP, List.countP_eq_length]
  intro n hn
  exact hk n (by simpa using (List.mem_filter.mp hn).2)

/-! ## Names -/

section Names

variable (definition? : String → Option Definition)

/-- The names that have a definition. -/
def defined (names : List String) : List String := names.filter fun r => (definition? r).isSome

/-- The names that have none. -/
def undefined (names : List String) : List String := names.filter fun r => (definition? r).isNone

/-- The names whose definition enables quorum. -/
def quorate (names : List String) : List String := names.filter fun r => (definition? r).any Definition.hasQuorum

end Names

/-- A name that comes last is new, or was there before. -/
theorem eraseDups_filter_snoc (p : String → Bool) (names : List String) (r : String) :
    ((names ++ [r]).filter p).eraseDups =
      (names.filter p).eraseDups ++ if p r = true ∧ r ∉ names then [r] else [] := by
  have hone : [r].eraseDups = [r] := rfl
  rw [List.filter_append, List.eraseDups_append]
  by_cases hp : p r = true
  · by_cases hm : r ∈ names <;> simp [List.removeAll, hp, hm, hone]
  · simp [hp, List.removeAll]

/-! ## What is reported of names -/

section Receptions

variable (delay : Nat) (answer : String → Except BackendError Definition)

/-- What is reported of a positive signal for a name, after those for the names before. -/
def reception (before : List String) (r : String) : List Notice :=
  match answer r with
  | .error e => [.quorumUnknown r e]
  | .ok d =>
    if r ∈ before then if d.hasQuorum then [.coalesced r] else []
    else if d.hasQuorum then [.observed r true, .scheduled r .initial delay] else [.observed r false]

/-- What is reported of positive signals for names, one after the other. -/
def receptions (before : List String) : List String → List Notice
  | [] => []
  | r :: rest => reception delay answer before r ++ receptions (before ++ [r]) rest

/-- The definition that a question gives, if it gives one. -/
def definitionBy (r : String) : Option Definition := (answer r).toOption

variable {delay answer}

/-- A signal for a name that has come before is coalesced, if the name has quorum. -/
theorem reception_of_mem {before : List String} {r : String} {d : Definition} (ha : answer r = .ok d)
    (hm : r ∈ before) : reception delay answer before r = if d.hasQuorum then [.coalesced r] else [] := by
  simp [reception, ha, hm]

/-- A name that comes for the first time is observed, and watched if it has quorum. -/
theorem reception_of_not_mem {before : List String} {r : String} {d : Definition} (ha : answer r = .ok d)
    (hm : r ∉ before) : reception delay answer before r =
      if d.hasQuorum then [.observed r true, .scheduled r .initial delay] else [.observed r false] := by
  simp [reception, ha, hm]

theorem receptions_append (before names more : List String) :
    receptions delay answer before (names ++ more) =
      receptions delay answer before names ++ receptions delay answer (before ++ names) more := by
  induction names generalizing before with
  | nil => simp [receptions]
  | cons r names ih => simp [receptions, ih]

theorem receptions_singleton (before : List String) (r : String) :
    receptions delay answer before [r] = reception delay answer before r := List.append_nil _

theorem receptions_snoc (names : List String) (r : String) :
    receptions delay answer [] (names ++ [r]) = receptions delay answer [] names ++ reception delay answer names r := by
  rw [receptions_append, receptions_singleton, List.nil_append]

/-- Lines that are reported of a name when it is new and has a property are about the names that have it. -/
theorem subjects_receptions {k : EventKind} {p : String → Bool}
    (hk : ∀ before r, subjects k (reception delay answer before r) = if p r = true ∧ r ∉ before then [r] else [])
    (names : List String) : subjects k (receptions delay answer [] names) = (names.filter p).eraseDups := by
  induction names using List.reverseRecOn with
  | nil => rfl
  | append_singleton names r ih => rw [receptions_snoc, subjects_append, ih, hk, eraseDups_filter_snoc]

theorem subjects_observed_reception (before : List String) (r : String) :
    subjects .resourceObserved (reception delay answer before r) =
      if (definitionBy answer r).isSome = true ∧ r ∉ before then [r] else [] := by
  unfold reception definitionBy
  cases answer r with
  | error e => simp [subjects, linesOf, Notice.kind, Except.toOption]
  | ok d =>
    by_cases hm : r ∈ before <;> cases hq : d.hasQuorum <;>
      simp [subjects, linesOf, Notice.kind, Notice.resource?, Except.toOption, hm, hq]

theorem subjects_scheduled_reception (before : List String) (r : String) :
    subjects .watchScheduled (reception delay answer before r) =
      if (definitionBy answer r).any Definition.hasQuorum = true ∧ r ∉ before then [r] else [] := by
  unfold reception definitionBy
  cases answer r with
  | error e => simp [subjects, linesOf, Notice.kind, Except.toOption]
  | ok d =>
    by_cases hm : r ∈ before <;> cases hq : d.hasQuorum <;>
      simp [subjects, linesOf, Notice.kind, Notice.resource?, Except.toOption, hm, hq]

/-- A resource is observed at the first of its names, if it has a definition. -/
theorem subjects_observed (names : List String) :
    subjects .resourceObserved (receptions delay answer [] names) = (defined (definitionBy answer) names).eraseDups :=
  subjects_receptions subjects_observed_reception names

/-- A watch is scheduled at the first of its names, if the definition enables quorum. -/
theorem subjects_scheduled (names : List String) :
    subjects .watchScheduled (receptions delay answer [] names) = (quorate (definitionBy answer) names).eraseDups :=
  subjects_receptions subjects_scheduled_reception names

/-- All other signals for names with quorum are coalesced. -/
theorem length_coalesced (names : List String) :
    (linesOf .watchCoalesced (receptions delay answer [] names)).length +
      (quorate (definitionBy answer) names).eraseDups.length = (quorate (definitionBy answer) names).length := by
  induction names using List.reverseRecOn with
  | nil => rfl
  | append_singleton names r ih =>
    have hone : (linesOf .watchCoalesced (reception delay answer names r)).length +
        (if (definitionBy answer r).any Definition.hasQuorum = true ∧ r ∉ names then [r] else []).length =
          ([r].filter fun r => (definitionBy answer r).any Definition.hasQuorum).length := by
      unfold reception definitionBy
      cases ha : answer r with
      | error e => simp [linesOf, Notice.kind, Except.toOption, ha]
      | ok d =>
        by_cases hm : r ∈ names <;> cases hq : d.hasQuorum <;>
          simp [linesOf, Notice.kind, Except.toOption, ha, hm, hq]
    unfold quorate at ih ⊢
    rw [receptions_snoc, linesOf_append, eraseDups_filter_snoc, List.filter_append]
    simp only [List.length_append]
    omega

/-- Every signal for a name without a definition is reported. -/
theorem length_unknown (names : List String) :
    (linesOf .quorumQueryFailed (receptions delay answer [] names)).length =
      (undefined (definitionBy answer) names).length := by
  induction names using List.reverseRecOn with
  | nil => rfl
  | append_singleton names r ih =>
    have hone : (linesOf .quorumQueryFailed (reception delay answer names r)).length =
        ([r].filter fun r => (definitionBy answer r).isNone).length := by
      unfold reception definitionBy
      cases ha : answer r with
      | error e => simp [linesOf, Notice.kind, Except.toOption, ha]
      | ok d =>
        by_cases hm : r ∈ names <;> cases hq : d.hasQuorum <;>
          simp [linesOf, Notice.kind, Except.toOption, ha, hm, hq]
    unfold undefined at ih ⊢
    rw [receptions_snoc, linesOf_append, List.filter_append, List.length_append, List.length_append, ih, hone]

end Receptions

/-! ## Moments that nothing disturbs -/

variable {setup : Setup} {answer : String → Except BackendError Definition} {s t : State} {a : Action}
  {seen : List Observation} {h k : List Moment} {w : Watch} {names : List String} {f : Feed} {now : Nat} {c : Cause}

/-- Nothing disturbs a moment: nobody asks the monitor to stop, no question crashes the loop, a question about a
definition is answered as it always is, and the delay of no watch is over as long as the monitor is not stopping. -/
structure Moment.Undisturbed (answer : String → Except BackendError Definition) (m : Moment) : Prop where
  unasked : m.action ≠ .requestStop
  whole : ∀ report, m.action ≠ .crashLoop report
  answered : ∀ r reply, m.before.loop = .consulting r → m.action = .answerDefinition reply → reply = answer r
  early : m.before.isStopping = false →
    ∀ w ∈ m.before.watches, ∀ deadline, w.phase = .waiting deadline → m.time < deadline

/-- The resource that the loop asks about. -/
def LoopPhase.asked : LoopPhase → List String
  | consulting r => [r]
  | _ => []

/-- What is counted: lines about signals that are taken, and about watches that are cancelled. -/
def tallyKinds : List EventKind :=
  [.resourceObserved, .quorumQueryFailed, .watchScheduled, .watchCoalesced, .watchCancelled]

def Notice.isTallied (n : Notice) : Bool := tallyKinds.contains n.kind

/-- The names in the positive signals that are taken. -/
def positivesIn (seen : List Observation) : List String := positives (seen.filterMap Observation.signal?)

@[simp] theorem positivesIn_append (seen more : List Observation) :
    positivesIn (seen ++ more) = positivesIn seen ++ positivesIn more := by
  simp [positivesIn, positives]

/-- A monitor that nothing has disturbed and that has taken positive signals for some names: the entries and the
watches are those of the names, and no watch has asked. -/
structure Told (answer : String → Except BackendError Definition) (setup : Setup) (names : List String) (s : State) :
    Prop where
  entry : ∀ r, s.registry.get? r =
    if r ∈ names then (definitionBy answer r).map fun d => ⟨d.hasQuorum, d.hasQuorum⟩ else none
  size : s.registry.size =
    (subjects .resourceObserved (receptions (setup.config.delay .initial) answer [] names)).length
  watched : s.watches.map Watch.resource =
    subjects .watchScheduled (receptions (setup.config.delay .initial) answer [] names)
  early : ∀ w ∈ s.watches, w.phase.IsEarly

theorem told_start (setup : Setup) (now : Nat) (source : Source) :
    Told answer setup [] (State.start setup now source) where
  entry r := NameMap.get?_empty r
  size := rfl
  watched := rfl
  early := nofun

/-- A step adds the lines for the names that it decides. -/
structure Decides (answer : String → Except BackendError Definition) (setup : Setup) (names : List String) (s t : State)
    (seen : List Observation) (more : List String) : Prop where
  told : Told answer setup (names ++ more) t
  lines : linesWith Notice.isTallied seen = receptions (setup.config.delay .initial) answer names more
  taken : s.loop.asked ++ positivesIn seen = more ++ t.loop.asked

namespace Told

/-- No watch that has not asked is over. -/
theorem isOver_eq_false {p : WatchPhase} (hp : p.IsEarly) : p.isOver = false := by
  rcases hp with rfl | ⟨deadline, rfl⟩ <;> rfl

theorem reaped (hs : Told answer setup names s) : s.watches.find? (fun w => w.phase.isOver) = none :=
  List.find?_eq_none.mpr fun w hw => by simp [isOver_eq_false (hs.early w hw)]

/-- A resource with an entry has been named and has a definition. -/
theorem of_entry (hs : Told answer setup names s) {r : String} {e : Record} (hr : s.registry.get? r = some e) :
    r ∈ names ∧ ∃ d, answer r = .ok d ∧ e = ⟨d.hasQuorum, d.hasQuorum⟩ := by
  rw [hs.entry] at hr
  split at hr
  · rename_i hm
    refine ⟨hm, ?_⟩
    unfold definitionBy at hr
    cases ha : answer r with
    | error e => rw [ha] at hr; cases hr
    | ok d =>
      rw [ha] at hr
      cases hr
      exact ⟨d, rfl, rfl⟩
  · cases hr

/-- A signal for a resource that has been named, or cannot be known, changes nothing. -/
theorem again (hs : Told answer setup names s) {r : String} (hr : r ∈ names ∨ definitionBy answer r = none)
    (hregistry : t.registry = s.registry) (hwatches : t.watches = s.watches) :
    Told answer setup (names ++ [r]) t := by
  constructor
  case entry =>
    intro x
    rw [hregistry, hs.entry]
    by_cases hx : x = r
    · subst hx
      rcases hr with hr | hr
      · simp [hr]
      · simp [hr]
    · simp [hx]
  case size =>
    rw [hregistry, hs.size, receptions_snoc, subjects_append, subjects_observed_reception]
    rcases hr with hr | hr <;> simp [hr]
  case watched =>
    rw [hwatches, hs.watched, receptions_snoc, subjects_append, subjects_scheduled_reception]
    rcases hr with hr | hr <;> simp [hr]
  case early =>
    rw [hwatches]
    exact hs.early

/-- A resource that has a definition and no entry has not been named. -/
theorem not_mem_of_none (hs : Told answer setup names s) {r : String} {d : Definition} (hd : answer r = .ok d)
    (hn : s.registry.get? r = none) : r ∉ names := fun hm => by
  rw [hs.entry, if_pos hm, definitionBy, hd] at hn
  cases hn

/-- A resource that is known for the first time has an entry from then on, and a watch if it has quorum. -/
theorem met (hs : Told answer setup names s) {r : String} {d : Definition} (hd : answer r = .ok d)
    (hn : s.registry.get? r = none) (hregistry : t.registry = s.registry.insert r ⟨d.hasQuorum, d.hasQuorum⟩)
    (hwatches : t.watches.map Watch.resource = s.watches.map Watch.resource ++ if d.hasQuorum then [r] else [])
    (hearly : ∀ w ∈ t.watches, w.phase.IsEarly) : Told answer setup (names ++ [r]) t := by
  have hdef : definitionBy answer r = some d := by simp [definitionBy, hd, Except.toOption]
  have hnew : r ∉ names := hs.not_mem_of_none hd hn
  constructor
  case entry =>
    intro x
    rw [hregistry, NameMap.get?_insert, hs.entry]
    by_cases hx : r = x
    · subst hx
      simp [hdef]
    · simp [hx, Ne.symm hx]
  case size =>
    rw [hregistry, NameMap.size_insert_of_absent _ hn, hs.size, receptions_snoc, subjects_append,
      subjects_observed_reception]
    simp [hdef, hnew]
  case watched =>
    rw [hwatches, hs.watched, receptions_snoc, subjects_append, subjects_scheduled_reception]
    simp [hdef, hnew]
  case early => exact hearly

/-- What leaves the registry and the watches as they are changes nothing. -/
theorem same (hs : Told answer setup names s) (hregistry : t.registry = s.registry)
    (hwatches : t.watches = s.watches) : Told answer setup names t := by
  refine ⟨?_, ?_, ?_, ?_⟩
  · rw [hregistry]; exact hs.entry
  · rw [hregistry]; exact hs.size
  · rw [hwatches]; exact hs.watched
  · rw [hwatches]; exact hs.early

end Told

/-! ## Moves -/

theorem positivesIn_of_notices (notices : List Notice) (more : List Observation) :
    positivesIn (notices.map .notice ++ more) = positivesIn more := by
  unfold positivesIn
  rw [filterMap_map_notice fun _ => rfl]

/-- A watch that goes on watches the same resource. -/
theorem resources_setPhase (s : State) (id : Nat) (phase : WatchPhase) (hp : phase.isOver = false) :
    (s.setPhase id phase).watches.map Watch.resource = s.watches.map Watch.resource := by
  rw [watches_setPhase_of_not_isOver s id hp, List.map_map]
  refine List.map_congr_left fun w _ => ?_
  simp only [Function.comp]
  split <;> rfl

/-- As long as the monitor is not stopping, no watch ends that has not asked. -/
theorem Told.not_ending (hs : Told answer setup names s) (hgoing : s.isStopping = false)
    (hw : s.watch? w.id = some w) {o : Outcome} {output : Channel String} : ¬ Ending s w a o output := by
  have asked {p : WatchPhase} (hp : w.phase = p) : p.IsEarly := hp ▸ hs.early w (List.mem_of_find?_eq_some hw)
  intro he
  cases he with
  | cancel hstop | withdraw hstop => rw [hgoing] at hstop; cases hstop
  | vanish hp | mismatch hp | settle hp | send hp | refuse hp | fail hp | sendLater hp | refuseLater hp =>
    rcases asked hp with h | ⟨_, h⟩ <;> cases h

/-- **A move that nothing disturbs** decides a name or none, as long as the monitor is not stopping. -/
theorem Move.told (hm : Move setup s a t seen) (hs : Told answer setup names s) (hgoing : s.isStopping = false)
    (hu : Moment.Undisturbed answer ⟨s, a, t, seen⟩) : ∃ more, Decides answer setup names s t seen more := by
  have stopping {P : Prop} (h : s.isStopping = true) : P := by rw [hgoing] at h; cases h
  have asking {P : Prop} {w : Watch} (hw : s.watch? w.id = some w) (hp : w.phase = .asking) : P := by
    rcases hs.early w (List.mem_of_find?_eq_some hw) with h | ⟨_, h⟩ <;> cases hp.symm.trans h
  have keeps (hregistry : t.registry = s.registry) (hwatches : t.watches = s.watches)
      (hlines : linesWith Notice.isTallied seen = []) (htaken : s.loop.asked ++ positivesIn seen = [] ++ t.loop.asked) :
      ∃ more, Decides answer setup names s t seen more := by
    refine ⟨[], ?_, hlines, htaken⟩
    rw [List.append_nil]
    exact hs.same hregistry hwatches
  have heard {more : List String} (hl : s.IsListening) (hloop : t.loop = s.loop) (hmore : positivesIn seen = more) :
      s.loop.asked ++ positivesIn seen = more ++ t.loop.asked := by
    rw [hloop, hl.loop, hmore]
    exact (List.append_nil more).symm
  cases hm with
  | begin hl | stop hl => exact keeps rfl rfl rfl (by rw [hl]; rfl)
  | heed _ hstop | abandon _ hstop | requestAgain hstop => exact stopping hstop
  | reap _ hw => rw [hs.reaped] at hw; cases hw
  | @skip _ notices hl hn =>
    refine keeps rfl rfl (linesWith_of_next (fun _ _ => rfl) (fun _ => rfl) hn) (heard hl rfl ?_)
    rw [← List.append_nil (notices.map _), positivesIn_of_notices]
    rfl
  | ignore hl => exact keeps rfl rfl rfl (heard hl rfl rfl)
  | @coalesce r _ _ hl _ hr he =>
    obtain ⟨hmem, d, hd, rfl⟩ := hs.of_entry hr
    refine ⟨[r], hs.again (Or.inl hmem) rfl rfl, ?_, heard hl rfl rfl⟩
    have hq : d.hasQuorum = true := he
    rw [receptions_singleton, reception_of_mem hd hmem, if_pos hq]
    rfl
  | @passOver r _ hl _ hr =>
    obtain ⟨hmem, d, hd, he⟩ := hs.of_entry hr
    refine ⟨[r], hs.again (Or.inl hmem) rfl rfl, ?_, heard hl rfl rfl⟩
    have hq : d.hasQuorum = false := (congrArg Record.hasQuorum he).symm
    rw [receptions_singleton, reception_of_mem hd hmem, hq]
    rfl
  | rewatch _ _ hr =>
    obtain ⟨-, d, -, he⟩ := hs.of_entry hr
    have hq : true = d.hasQuorum := congrArg Record.hasQuorum he
    have hw : false = d.hasQuorum := congrArg Record.isWatched he
    rw [← hq] at hw
    cases hw
  | consult hl => exact keeps rfl rfl rfl (by rw [hl.loop]; rfl)
  | @endStream _ notices hl hn =>
    refine keeps rfl rfl ?_ ?_
    · rw [linesWith_append, linesWith_of_next (fun _ _ => rfl) (fun _ => rfl) hn]
      rfl
    · rw [hl.loop, positivesIn_of_notices]
      rfl
  | @shrug r e hl _ =>
    have ha : answer r = .error e := (hu.answered r _ hl rfl).symm
    refine ⟨[r], hs.again (Or.inr ?_) rfl rfl, ?_, by rw [hl]; rfl⟩
    · simp [definitionBy, ha, Except.toOption]
    · rw [receptions_singleton, show reception _ answer names r = [.quorumUnknown r e] by simp [reception, ha]]
      rfl
  | @record r d hl _ hr hq =>
    have ha : answer r = .ok d := (hu.answered r _ hl rfl).symm
    have hnew : r ∉ names := hs.not_mem_of_none ha hr
    refine ⟨[r], hs.met ha hr (by rw [hq]; rfl) (by rw [hq]; exact (List.append_nil _).symm) hs.early, ?_,
      by rw [hl]; rfl⟩
    rw [receptions_singleton, reception_of_not_mem ha hnew, hq]
    rfl
  | @watch r d hl _ hr hq =>
    have ha : answer r = .ok d := (hu.answered r _ hl rfl).symm
    have hnew : r ∉ names := hs.not_mem_of_none ha hr
    refine ⟨[r], hs.met ha hr (by rw [hq]; rfl) (by rw [hq]; exact List.map_append) ?_, ?_, by rw [hl]; rfl⟩
    · intro w hw
      rcases List.mem_append.mp hw with hw | hw
      · exact hs.early w hw
      · rw [List.mem_singleton.mp hw]
        exact Or.inl rfl
    · rw [receptions_singleton, reception_of_not_mem ha hnew, if_pos hq]
      rfl
  | crashLoop => exact absurd rfl (hu.whole _)
  | @advance w _ phase _ _ hw ha =>
    have hwatched := resources_setPhase s w.id phase (by cases ha <;> rfl)
    have hmem : ∀ v ∈ (s.setPhase w.id phase).watches, v ∈ s.watches ∨ v.phase = phase := fun v hv => by
      rcases mem_setPhase hv with ⟨hv, -⟩ | ⟨x, -, -, rfl⟩
      · exact Or.inl hv
      · exact Or.inr rfl
    cases ha with
    | sleep =>
      refine ⟨[], ?_, rfl, List.append_nil _⟩
      rw [List.append_nil]
      refine ⟨hs.entry, hs.size, hwatched.trans hs.watched, fun v hv => ?_⟩
      rcases hmem v hv with hv | hp
      · exact hs.early v hv
      · exact Or.inr ⟨_, hp⟩
    | ask hp _ hd =>
      have := hu.early hgoing _ (List.mem_of_find?_eq_some hw) _ hp
      exact absurd hd (Nat.not_le.mpr this)
    | block hp => exact asking hw hp
  | crashWatch hw hp => exact asking hw hp
  | conclude hw _ he => exact absurd he (hs.not_ending hgoing hw)
  | requestStop => exact absurd rfl hu.unasked
  | _ => exact keeps rfl rfl rfl (List.append_nil _)

/-- A monitor that nothing has disturbed stops for the end of the stream only. -/
theorem Move.ends_stream (hm : Move setup s a t seen) (hs : Told answer setup names s) (hgoing : s.isStopping = false)
    (hu : Moment.Undisturbed answer ⟨s, a, t, seen⟩) (hstop : t.isStopping = true) :
    t.loop = .draining ∧ t.cause = some .streamEnded := by
  have same {P : Prop} (h : t.cause = s.cause) : P := by
    unfold State.isStopping at hgoing hstop
    rw [h, hgoing] at hstop
    cases hstop
  cases hm with
  | endStream => exact ⟨rfl, rfl⟩
  | conclude hw _ he => exact absurd he (hs.not_ending hgoing hw)
  | requestStop => exact absurd rfl hu.unasked
  | _ => exact same rfl

/-- A move after shutdown shows nothing that counts but cancellations. -/
theorem Move.tallied_of_stopping (hm : Move setup s a t seen) (hstop : s.isStopping = true) :
    linesWith Notice.isTallied seen = linesWith (fun n => n.kind = .watchCancelled) seen := by
  have going {P : Prop} (h : s.isStopping = false) : P := by rw [hstop] at h; cases h
  cases hm with
  | reap => rw [linesWith_obituary fun _ => rfl, linesWith_obituary fun _ => rfl]
  | skip hl | ignore hl | coalesce hl | passOver hl | rewatch hl | consult hl | endStream hl => exact going hl.going
  | shrug _ hg | record _ hg | watch _ hg => exact going hg
  | advance _ ha => cases ha <;> rfl
  | @conclude w _ o => cases o <;> rfl
  | _ => rfl

/-! ## Runs -/

/-- A run of a monitor that nothing disturbs: some names are decided, and their lines have been reported. -/
structure Accounted (answer : String → Except BackendError Definition) (setup : Setup) (h : List Moment) (s : State)
    (names : List String) : Prop where
  told : Told answer setup names s
  lines : linesWith Notice.isTallied (observations h) = receptions (setup.config.delay .initial) answer [] names
  taken : positivesIn (observations h) = names ++ s.loop.asked
  unput : ∀ id r, .put id r ∉ observations h

theorem Accounted.snoc (hs : Accounted answer setup h s names) (hb : Booked s) (hm : Move setup s a t seen)
    (hgoing : s.isStopping = false) (hu : Moment.Undisturbed answer ⟨s, a, t, seen⟩) :
    ∃ names', Accounted answer setup (h ++ [⟨s, a, t, seen⟩]) t names' := by
  obtain ⟨more, hmore⟩ := hm.told hs.told hgoing hu
  refine ⟨names ++ more, hmore.told, ?_, ?_, fun id r ho => ?_⟩
  · rw [observations_append, observations_singleton, linesWith_append, hs.lines, hmore.lines, receptions_append,
      List.nil_append]
  · rw [observations_append, observations_singleton, positivesIn_append, hs.taken, List.append_assoc, hmore.taken,
      List.append_assoc]
  · rw [observations_append, observations_singleton] at ho
    rcases List.mem_append.mp ho with ho | ho
    · exact hs.unput id r ho
    · obtain ⟨w, hw, output, -, -, he, -⟩ := hm.puts ho
      exact hs.told.not_ending hgoing (hb.watch?.mpr ⟨(mem_unfinished.mp hw).1, rfl⟩) he

/-- **Every run that nothing disturbs** reports what the names in its signals say, as long as the monitor is not
stopping. -/
theorem Run.accounted {source : Source} (hr : Run setup (State.start setup now source) h s)
    (hu : ∀ m ∈ h, m.Undisturbed answer) (hgoing : s.isStopping = false) :
    ∃ names, Accounted answer setup h s names := by
  refine Run.induct (P := fun h s => (∀ m ∈ h, m.Undisturbed answer) → s.isStopping = false →
    ∃ names, Accounted answer setup h s names) (.start now source)
    (fun _ _ => ⟨[], told_start setup now source, rfl, rfl, nofun⟩) ?_ hr hu hgoing
  intro h t a u seen _ hreach hm ih hu hgoing
  have ht := hm.going hgoing
  obtain ⟨names, hnames⟩ := ih (fun m hm => hu m (List.mem_append_left _ hm)) ht
  exact hnames.snoc hreach.booked hm ht (hu _ (List.mem_append_right _ (List.mem_singleton_self _)))

/-- After shutdown nothing is reported that counts but cancellations, and no signal is taken. -/
theorem Run.tallied_of_stopping (hs : Reachable setup s) (hstop : s.isStopping = true) (hr : Run setup s h t) :
    linesWith Notice.isTallied (observations h) = cancellationsIn h ∧ positivesIn (observations h) = [] := by
  constructor
  · refine (Run.induct (P := fun h t => t.isStopping = true ∧
      linesWith Notice.isTallied (observations h) = cancellationsIn h) hs ⟨hstop, rfl⟩ ?_ hr).2
    rintro h t a u seen - - hm ⟨ht, hlines⟩
    refine ⟨hm.isStopping ht, ?_⟩
    rw [observations_append, observations_singleton, linesWith_append, hlines, hm.tallied_of_stopping ht]
    simp [cancellationsIn, linesWith]
  · have hnone : (observations h).filterMap Observation.signal? = [] := by
      refine List.filterMap_eq_nil_iff.mpr fun o ho => ?_
      have hidle := (hr.frozen hs hstop).idle o ho
      cases o <;> first | rfl | cases hidle
    unfold positivesIn
    rw [hnone]
    rfl

/-- **All lines that count** of a run that nothing disturbs and that has come to its end: those of the names in its
signals, and then a cancellation for each watch that was scheduled. -/
theorem Run.tallied {source : Source} (hr : Run setup (State.start setup now source) h s)
    (hu : ∀ m ∈ h, m.Undisturbed answer) (hl : s.loop = .stopped c) :
    let lines := receptions (setup.config.delay .initial) answer [] (positivesIn (observations h))
    c = .streamEnded ∧ s.registry.size = (subjects .resourceObserved lines).length ∧
      ∃ last, linesWith Notice.isTallied (observations h) = lines ++ last ∧
        last.Perm ((subjects .watchScheduled lines).map .cancelled) ∧ ∀ id r, .put id r ∉ observations h := by
  have hstart : Reachable setup (State.start setup now source) := .start now source
  have hs : Reachable setup s := hr.reachable hstart
  have hcount := hr.heralded.1
  rw [hs.isStopping_of_stopped hl] at hcount
  obtain ⟨m, hm, hrecords⟩ := List.countP_pos_iff.mp (by rw [hcount]; exact Nat.one_pos)
  obtain ⟨k, l, rfl⟩ := List.append_of_mem hm
  -- the run is cut at the moment that records the cause
  obtain ⟨hk, step, hafter⟩ := hr.split
  have hbefore := hk.reachable hstart
  have hend : Reachable setup m.after := .step hbefore step
  obtain ⟨hgoing, hstop⟩ : m.before.isStopping = false ∧ m.after.isStopping = true := by
    simpa [Moment.recordsCause] using hrecords
  have hmu : m.Undisturbed answer := hu m hm
  obtain ⟨before, hbeforeNames⟩ :=
    hk.accounted (fun n hn => hu n (List.mem_append_left _ hn)) hgoing
  obtain ⟨hloop, hcause⟩ := (hbefore.move step).ends_stream hbeforeNames.told hgoing hmu hstop
  obtain ⟨names, hnames⟩ := hbeforeNames.snoc hbefore.booked (hbefore.move step) hgoing hmu
  -- from then on watches are cancelled, and nothing else that counts is reported
  have hfrozen := hafter.frozen hend hstop
  obtain ⟨hlines, htaken⟩ := hafter.tallied_of_stopping hend hstop
  have hsplit : observations (k ++ m :: l) = observations (k ++ [m]) ++ observations l := by
    rw [← observations_append, List.append_assoc, List.singleton_append]
  have hpositives : positivesIn (observations (k ++ m :: l)) = names := by
    rw [hsplit, positivesIn_append, htaken, hnames.taken, hloop]
    exact (List.append_nil _).trans (List.append_nil _)
  have hidle : s.unfinished = [] := by
    unfold State.unfinished
    rw [hs.watches_of_stopped c hl]
    rfl
  have hwatching : m.after.unfinished = m.after.watches :=
    List.filter_eq_self.mpr fun w hw => by simp [Told.isOver_eq_false (hnames.told.early w hw)]
  rw [hpositives]
  refine ⟨?_, ?_, cancellationsIn l, ?_, ?_, fun id r ho => ?_⟩
  · have := hs.closing.stopped c hl
    rw [hfrozen.cause, hcause] at this
    exact (Option.some.inj this).symm
  · rw [hfrozen.registry]
    exact hnames.told.size
  · rw [hsplit, linesWith_append, hnames.lines, hlines]
  · have hperm := hfrozen.lines
    rw [hidle, hwatching, List.map_nil, List.append_nil] at hperm
    rw [← hnames.told.watched, List.map_map]
    exact hperm
  · rw [hsplit] at ho
    rcases List.mem_append.mp ho with ho | ho
    · exact hnames.unput id r ho
    · cases hfrozen.idle _ ho

/-! ## The tally -/

/-- How many lines there are of a monitor that has taken positive signals for some names, and what the last one is. -/
structure Tally (monitor : String) (definition? : String → Option Definition) (names : List String) (log : List Notice) :
    Prop where
  /-- A resource is observed for every distinct name that has a definition. -/
  observed : (linesOf .resourceObserved log).length = (defined definition? names).eraseDups.length
  /-- A watch is scheduled for every distinct name whose definition enables quorum. -/
  scheduled : (linesOf .watchScheduled log).length = (quorate definition? names).eraseDups.length
  scheduledOnce : (subjects .watchScheduled log).Perm (quorate definition? names).eraseDups
  /-- Every watch is cancelled. -/
  cancelled : (linesOf .watchCancelled log).length = (quorate definition? names).eraseDups.length
  cancelledOnce : (subjects .watchCancelled log).Perm (quorate definition? names).eraseDups
  /-- The other signals for these names are coalesced. -/
  coalesced : (linesOf .watchCoalesced log).length + (quorate definition? names).eraseDups.length =
    (quorate definition? names).length
  /-- Every signal for a name without a definition asks in vain. -/
  failed : (linesOf .quorumQueryFailed log).length = (undefined definition? names).length
  last : (log.map Notice.line).getLast? = some ⟨.info, "MONITOR_STOPPED", [("monitor_id", monitor),
    ("reason", "stream_ended"), ("tracked_resources", toString (linesOf .resourceObserved log).length)]⟩

/-- The line about the configuration comes before the lines that count. -/
theorem Tally.configLoaded {monitor : String} {definition? : String → Option Definition} {log : List Notice}
    (ht : Tally monitor definition? names log) (config snapshot : String) :
    Tally monitor definition? names (.configLoaded config snapshot :: log) where
  observed := ht.observed
  scheduled := ht.scheduled
  scheduledOnce := ht.scheduledOnce
  cancelled := ht.cancelled
  cancelledOnce := ht.cancelledOnce
  coalesced := ht.coalesced
  failed := ht.failed
  last := by
    rw [List.map_cons, List.getLast?_cons, ht.last]
    rfl

/-- Lines of a kind that is counted are among those that are. -/
theorem linesOf_tallied {k : EventKind} (hk : k ∈ tallyKinds) (log : List Notice) :
    linesOf k (log.filter Notice.isTallied) = linesOf k log := by
  unfold linesOf
  rw [List.filter_filter]
  refine List.filter_congr fun n _ => ?_
  by_cases hn : n.kind = k
  · simp [Notice.isTallied, hn, hk]
  · simp [hn]

/-- Cancellations are about the watches that are cancelled. -/
theorem subjects_cancelled (names : List String) :
    subjects .watchCancelled (names.map Notice.cancelled) = names := by
  induction names with
  | nil => rfl
  | cons r names ih => exact congrArg (r :: ·) ih

/-- No signal cancels a watch. -/
theorem linesOf_cancelled_receptions {delay : Nat} (before names : List String) :
    linesOf .watchCancelled (receptions delay answer before names) = [] := by
  induction names generalizing before with
  | nil => rfl
  | cons r names ih =>
    have hone : linesOf .watchCancelled (reception delay answer before r) = [] := by
      unfold reception
      repeat' split
      all_goals rfl
    rw [receptions, linesOf_append, hone, ih]
    rfl

/-- **The tally of lines.** Lines of which those that count are the lines of some names and a cancellation of each watch
that they schedule. -/
theorem tally_of_lines {delay : Nat} {monitor : String} {log last : List Notice}
    (hlines : log.filter Notice.isTallied = receptions delay answer [] names ++ last)
    (hlast : last.Perm ((subjects .watchScheduled (receptions delay answer [] names)).map .cancelled))
    (hend : log.getLast? = some (.monitorStopped monitor .streamEnded
      (subjects .resourceObserved (receptions delay answer [] names)).length)) :
    Tally monitor (definitionBy answer) names log := by
  have hcancelled : ∀ n ∈ last, n.kind = .watchCancelled := fun n hn => by
    obtain ⟨r, -, rfl⟩ := List.mem_map.mp (hlast.mem_iff.mp hn)
    rfl
  have of_names {k : EventKind} (hk : k ∈ tallyKinds) (hne : k ≠ .watchCancelled) :
      linesOf k log = linesOf k (receptions delay answer [] names) := by
    have hnone : linesOf k last = [] := List.filter_eq_nil_iff.mpr fun n hn => by
      rw [hcancelled n hn]
      simpa using hne.symm
    rw [← linesOf_tallied hk, hlines, linesOf_append, hnone, List.append_nil]
  have hobserved : (linesOf .resourceObserved log).length =
      (subjects .resourceObserved (receptions delay answer [] names)).length := by
    rw [of_names (by decide) (by decide), length_subjects (by rintro ⟨⟩ <;> simp [Notice.kind, Notice.resource?])]
  have hscheduled : subjects .watchScheduled log = (quorate (definitionBy answer) names).eraseDups := by
    unfold subjects
    rw [of_names (by decide) (by decide)]
    exact subjects_scheduled names
  have hcancels : (subjects .watchCancelled log).Perm (quorate (definitionBy answer) names).eraseDups := by
    have hof : subjects .watchCancelled log = subjects .watchCancelled last := by
      unfold subjects
      rw [← linesOf_tallied (by decide), hlines, linesOf_append, linesOf_cancelled_receptions, List.nil_append]
    have hperm : (subjects .watchCancelled last).Perm (subjects .watchCancelled
        ((subjects .watchScheduled (receptions delay answer [] names)).map .cancelled)) :=
      (hlast.filter _).filterMap _
    rw [subjects_cancelled, subjects_scheduled] at hperm
    rwa [hof]
  constructor
  case observed => rw [hobserved, subjects_observed]
  case scheduled =>
    rw [← hscheduled, length_subjects (by rintro ⟨⟩ <;> simp [Notice.kind, Notice.resource?])]
  case scheduledOnce => rw [hscheduled]
  case cancelled =>
    rw [← hcancels.length_eq, length_subjects (by rintro ⟨⟩ <;> simp [Notice.kind, Notice.resource?])]
  case cancelledOnce => exact hcancels
  case coalesced =>
    rw [of_names (by decide) (by decide)]
    exact length_coalesced names
  case failed =>
    rw [of_names (by decide) (by decide)]
    exact length_unknown names
  case last =>
    rw [List.getLast?_map, hend, hobserved]
    rfl

/-- The signals of a feed are those that a monitor has taken that has stopped for the end of it. -/
theorem Run.signals (hr : Run setup (State.start setup now (.feed f)) h s) (hw : ∀ m ∈ h, m.writesInTime = true)
    (ho : f.isOpen = true) (hc : s.cause = some .streamEnded) :
    (observations h).filterMap Observation.signal? = Feed.signals (f.unread ++ writtenIn h) := by
  obtain ⟨g, -, hfaith⟩ := hr.faithful hw
  obtain ⟨more, hwhole, -, hnone⟩ := hfaith [] fun _ => rfl
  have hfeed : f.completed (writtenIn h) = Feed.ofBytes (f.unread ++ writtenIn h) := by
    unfold Feed.completed Feed.ofBytes
    rw [ho]
  rw [hnone hc, List.append_nil, List.append_nil, hfeed] at hwhole
  unfold Feed.signals
  rw [hwhole, yieldedIn, List.filterMap_filter]
  refine List.filterMap_congr fun o _ => ?_
  cases o <;> first | rfl | (split <;> rfl)

/-- **The tally of a monitor that nothing disturbs.** In every run from an open feed of lines that has come to its end,
in which nothing is written after the end of the input and nothing disturbs a moment, the monitor has stopped for the end
of the stream, and the lines are those that the signals of the whole input say. -/
theorem Run.tally (hr : Run setup (State.start setup now (.feed f)) h s) (hw : ∀ m ∈ h, m.writesInTime = true)
    (hu : ∀ m ∈ h, m.Undisturbed answer) (ho : f.isOpen = true) (hl : s.loop = .stopped c) :
    c = .streamEnded ∧ (∀ id r, .put id r ∉ observations h) ∧
      Tally setup.monitor (definitionBy answer) (positives (Feed.signals (f.unread ++ writtenIn h))) (reported h) := by
  obtain ⟨rfl, hsize, last, hlines, hlast, hunput⟩ := hr.tallied hu hl
  have hcause : s.cause = some .streamEnded := (hr.reachable (.start now _)).closing.stopped _ hl
  have hnames : positivesIn (observations h) = positives (Feed.signals (f.unread ++ writtenIn h)) := by
    unfold positivesIn
    rw [hr.signals hw ho hcause]
  rw [hnames] at hsize hlines hlast
  refine ⟨rfl, hunput, tally_of_lines hlines hlast ?_⟩
  obtain ⟨lines, hreported⟩ := hr.last_line hl
  rw [hreported, hsize]
  exact List.getLast?_concat

end ReplicaWatch.Monitor
