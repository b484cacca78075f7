import ReplicaWatch.Proofs.Monitor.Accounting
import ReplicaWatch.Proofs.Monitor.Vigilance

/-!
# What a crashed watch leaves behind

A watch whose question crashes ends without a word to the registry, and the loop, when it takes note of it, only
reports that it failed. The entry of its resource stays marked as watched while nothing watches it, and nothing ever
changes that: the resource is muted.

- `State.Mutes`: a flag without a watch, kept by every move (`Move.mutes`);
- `Reachable.mutes_of_crashed`: there is one for every watch that has crashed;
- `Moment.Reaps`: the loop takes note of a watch; `crashed_watch_mutes`: what follows for the signals of its resource;
- `crash_outlasted_by_flag`: that a flag lasts as long as its watch is false;
- `State.untold`, `failuresIn`, `failures_told_in_order`: the loop reports crashes in the order in which they happen.
-/

namespace ReplicaWatch.Monitor

variable {setup : Setup} {s t : State} {a : Action} {seen : List Observation} {h : List Moment} {w : Watch}
  {m : Moment} {r report : String} {now : Nat} {source : Source}

/-! ## Flags without watches -/

/-- A resource is marked as watched, and no watch of it is under way. -/
def State.Mutes (s : State) (r : String) : Prop := s.registry.get? r = some ⟨true, true⟩ ∧ ¬ s.IsWatching r

/-- A resource that is muted stays muted. -/
theorem Move.mutes (hm : Move setup s a t seen) (hu : s.Unrecorded) (hb : Booked s) (hs : s.Mutes r) : t.Mutes r := by
  obtain ⟨he, hn, -⟩ := (hm.glimpse hu hb r).crashed hs.1 hs.2
  exact ⟨he, hn⟩

/-- A positive signal of a resource that is muted is counted with the others, and that is all. -/
theorem Move.coalesces (hm : Move setup s a t seen) (hs : s.Mutes r) (ho : .ingested ⟨r, true⟩ ∈ seen) :
    seen = [.ingested ⟨r, true⟩, .notice (.coalesced r)] := by
  obtain ⟨-, -, hadmits⟩ := hm.admits ho
  cases hadmits with
  | coalesced => rfl
  | passedOver hg | rewatched hg | asked hg => cases hg.symm.trans hs.1

/-- Nothing is said of a resource that is muted but that signals of it have come. -/
theorem Move.eq_coalesced (hm : Move setup s a t seen) (hu : s.Unrecorded) (hb : Booked s) (hs : s.Mutes r)
    {line : Notice} (ho : .notice line ∈ seen) (hr : line.resource? = some r) : line = .coalesced r := by
  obtain ⟨-, -, hlines⟩ := (hm.glimpse hu hb r).crashed hs.1 hs.2
  obtain ⟨words, hwords, hsignals⟩ := Language.mem_kstar.mp hlines
  have hmem := mem_linesIn hr ho
  rw [hwords] at hmem
  obtain ⟨word, hword, hline⟩ := List.mem_flatten.mp hmem
  rw [hsignals word hword] at hline
  exact List.mem_singleton.mp hline

/-- A resource that is muted at some time is so from then on. -/
theorem Run.mutes (hs : Reachable setup s) (hr : Run setup s h t) (hmuted : s.Mutes r) : t.Mutes r :=
  Run.induct (P := fun _ t => t.Mutes r) hs hmuted (fun _ ht hm ih => hm.mutes ht.unrecorded ht.booked ih) hr

/-! ## Watches that have crashed -/

theorem mutes_setPhase_crashed (hb : Booked s) (hw : w ∈ s.unfinished) (report : String) :
    (s.setPhase w.id (.crashed report)).Mutes w.resource := by
  refine ⟨hb.entry w hw, ?_⟩
  rintro ⟨v, hv, hvr⟩
  rw [unfinished_setPhase_of_isOver s w.id _ rfl, List.mem_filter] at hv
  exact absurd (hb.single v hv.1 w hw hvr) (by simpa using hv.2)

/-- A watch that has crashed had crashed before, or crashes now and leaves its resource muted. -/
theorem Move.crashed (hm : Move setup s a t seen) (hb : Booked s) (hw : w ∈ t.watches)
    (hp : w.phase = .crashed report) : w ∈ s.watches ∨ t.Mutes w.resource := by
  cases hm with
  | reap => exact Or.inl (List.mem_of_mem_eraseP hw)
  | rewatch | watch =>
    rcases List.mem_append.mp hw with hw | hw
    · exact Or.inl hw
    · rw [List.mem_singleton.mp hw] at hp
      cases hp
  | crashLoop => cases hw
  | advance _ ha =>
    rcases mem_setPhase hw with ⟨hw, -⟩ | ⟨x, -, -, rfl⟩
    · exact Or.inl hw
    · cases hp
      cases ha
  | conclude =>
    rcases mem_conclude hw with ⟨hw, -⟩ | ⟨x, -, -, rfl⟩
    · exact Or.inl hw
    · cases hp
  | @crashWatch v _ hv hvp =>
    rcases mem_setPhase hw with ⟨hw, -⟩ | ⟨x, hx, hid, rfl⟩
    · exact Or.inl hw
    · have hxv : x = v := eq_of_id_eq hb.distinct hx (hb.watch?.mp hv).1 hid
      subst hxv
      exact Or.inr (mutes_setPhase_crashed hb (mem_unfinished.mpr ⟨hx, by rw [hvp]; rfl⟩) _)
  | _ => exact Or.inl hw

/-- **A watch that has crashed has muted its resource**, until the loop takes note of it at least. -/
theorem Reachable.mutes_of_crashed (hs : Reachable setup s) (hw : w ∈ s.watches) (hp : w.phase = .crashed report) :
    s.Mutes w.resource := by
  induction hs with
  | start => cases hw
  | step hs step ih =>
    have hm := hs.move step
    rcases hm.crashed hs.booked hw hp with hws | hmuted
    · exact hm.mutes hs.unrecorded hs.booked (ih hws)
    · exact hmuted

/-- The loop takes note of a watch that is over. -/
def Moment.Reaps (m : Moment) (w : Watch) : Prop :=
  m.before.watches.find? (fun w => w.phase.isOver) = some w ∧
    m.after = { m.before with watches := m.before.watches.eraseP fun w => w.phase.isOver }

/-- A failure is reported when the loop takes note of a watch that has crashed. -/
theorem Move.failed (hm : Move setup s a t seen) (ho : .notice (.watcherFailed report) ∈ seen) :
    ∃ w, Moment.Reaps ⟨s, a, t, seen⟩ w ∧ w.phase = .crashed report := by
  have unread {source : Source} {taken : Taken} {notices : List Notice} {P : Prop}
      (hn : s.source.next = (taken, source, notices))
      (ho : Observation.notice (.watcherFailed report) ∈ notices.map Observation.notice) : P := by
    obtain ⟨line, hline, h⟩ := List.mem_map.mp ho
    cases h
    rcases unreadable_of_next hn _ hline with ⟨_, _, h⟩ | ⟨_, h⟩ <;> cases h
  cases hm with
  | @reap w _ hw =>
    refine ⟨w, ⟨hw, rfl⟩, ?_⟩
    unfold obituary at ho
    split at ho
    · rename_i hp
      cases List.mem_singleton.mp ho
      exact hp
    · cases ho
  | skip _ hn => exact unread hn ho
  | endStream _ hn =>
    rcases List.mem_append.mp ho with ho | ho
    · exact unread hn ho
    · simp at ho
  | @conclude _ _ o =>
    rcases Outcome.mem_seen ho with ⟨h, -⟩ | h
    · cases h
    · cases o <;> cases h
  | advance _ ha => cases ha <;> simp at ho
  | _ => simp at ho

/-- **A crashed watch mutes its resource.** Whenever the loop reports that a watch has failed, it has taken note of a
watch that crashed, whose resource is marked as watched and not watched, then and in the whole rest of the run: every
positive signal of it is coalesced, and nothing else is ever said of it. -/
theorem crashed_watch_mutes {i : Nat} (hr : Run setup (State.start setup now source) h s) (hi : h[i]? = some m)
    (hf : .notice (.watcherFailed report) ∈ m.seen) :
    ∃ w, m.Reaps w ∧ w.phase = .crashed report ∧ m.after.Mutes w.resource ∧
      ∀ j (n : Moment), i < j → h[j]? = some n → n.after.Mutes w.resource ∧
        (.ingested ⟨w.resource, true⟩ ∈ n.seen →
          n.seen = [.ingested ⟨w.resource, true⟩, .notice (.coalesced w.resource)]) ∧
        ∀ line : Notice, .notice line ∈ n.seen → line.resource? = some w.resource → line = .coalesced w.resource := by
  have hstart : Reachable setup (State.start setup now source) := .start now source
  have hmem : m ∈ h := List.mem_of_getElem? hi
  obtain ⟨hbefore, hmove⟩ := hr.move_of_mem hstart hmem
  obtain ⟨w, hw, hp⟩ := hmove.failed hf
  have hmuted : m.before.Mutes w.resource := hbefore.mutes_of_crashed (List.mem_of_find?_eq_some hw.1) hp
  have hafter : m.after.Mutes w.resource := hmove.mutes hbefore.unrecorded hbefore.booked hmuted
  obtain ⟨_, _, -, hupto⟩ := hr.upTo hmem
  refine ⟨w, hw, hp, hafter, fun j n hij hj => ?_⟩
  obtain ⟨hn, hnmove⟩ := hr.move_of_mem hstart (List.mem_of_getElem? hj)
  obtain ⟨_, hbetween⟩ := hr.between hi hj hij
  have hnmuted : n.before.Mutes w.resource := hbetween.mutes (hupto.reachable hstart) hafter
  exact ⟨hnmove.mutes hn.unrecorded hn.booked hnmuted, hnmove.coalesces hnmuted,
    fun line => hnmove.eq_coalesced hn.unrecorded hn.booked hnmuted⟩

/-- The moves of a monitor whose only watch crashes, up to the signal after it. -/
def crashingFirst (r : String) : List Action :=
  watchingOne r ++ [.runWatch 0, .elapse 60000, .runWatch 0, .crashWatch 0 "panic", .runLoop, .runLoop]

theorem signal_after_crash_coalesced :
    let p := (State.start { monitor := "m" } 0 (signalsOf ["r", "r"])).played { monitor := "m" } (crashingFirst "r")
    At p.1 7 (fun m => .notice (.watcherFailed "panic") ∈ m.seen ∧ m.after.Mutes "r") ∧
    At p.1 8 fun n => n.seen = [.ingested ⟨"r", true⟩, .notice (.coalesced "r")] := by
  intro p
  have hr : Run { monitor := "m" } (State.start { monitor := "m" } 0 (signalsOf ["r", "r"])) p.1 p.2 :=
    run_played (by decide)
  obtain ⟨m, hm, hf, hfirst⟩ : At p.1 7 fun m => .notice (.watcherFailed "panic") ∈ m.seen ∧
      m.before.watches.map Watch.resource = ["r"] :=
    ⟨_, rfl, List.mem_cons_self, rfl⟩
  obtain ⟨n, hn, htaken⟩ : At p.1 8 fun n => .ingested ⟨"r", true⟩ ∈ n.seen := ⟨_, rfl, List.mem_cons_self⟩
  obtain ⟨w, hw, -, hmuted, hlater⟩ := crashed_watch_mutes hr hm hf
  have hwr : w.resource = "r" := by
    have := List.mem_map_of_mem (f := Watch.resource) (List.mem_of_find?_eq_some hw.1)
    rw [hfirst] at this
    exact List.mem_singleton.mp this
  rw [hwr] at hmuted hlater
  exact ⟨⟨m, hm, hf, hmuted⟩, n, hn, (hlater 8 n (by decide) hn).2.1 htaken⟩

/-- It is not so that a flag lasts only as long as its watch. -/
theorem crash_outlasted_by_flag :
    ¬ ∀ setup now source h s, Run setup (State.start setup now source) h s → ∀ m ∈ h, m.after.isStopping = false →
      ∀ w report, m.Reaps w → w.phase = .crashed report →
        ∀ e, m.after.registry.get? w.resource = some e → e.isWatched = false := by
  intro hall
  let p := (State.start { monitor := "m" } 0 (signalsOf ["r", "r"])).played { monitor := "m" } (crashingFirst "r")
  have hr : Run { monitor := "m" } (State.start { monitor := "m" } 0 (signalsOf ["r", "r"])) p.1 p.2 :=
    run_played (by decide)
  obtain ⟨m, hm, hgoing, hreaps, hentry⟩ : At p.1 7 fun m => m.after.isStopping = false ∧
      m.Reaps ⟨0, "r", 60000, .crashed "panic"⟩ ∧ m.after.registry.get? "r" = some ⟨true, true⟩ :=
    ⟨_, rfl, rfl, ⟨rfl, rfl⟩, rfl⟩
  have hflag := hall _ _ _ _ _ hr m (List.mem_of_getElem? hm) hgoing _ _ hreaps rfl _ hentry
  cases hflag

/-! ## The order of the reports -/

/-- The report that a watch has crashed with, if it has. -/
def WatchPhase.report? : WatchPhase → Option String
  | crashed report => some report
  | _ => none

/-- The reports of the crashes that the loop has not yet taken note of. -/
def State.untold (s : State) : List String := s.watches.filterMap fun w => w.phase.report?

/-- The report of the watch that crashes, if one does. After shutdown none does: it is cancelled. -/
def Moment.crash? (m : Moment) : Option String :=
  match m.action with
  | .crashWatch _ report => if m.before.isStopping then none else some report
  | _ => none

/-- The crash that is reported, if one is. -/
def Notice.failure? : Notice → Option String
  | .watcherFailed report => some report
  | _ => none

/-- The crashes that are reported, in what is seen. -/
def failuresOf (seen : List Observation) : List String :=
  (seen.filterMap Observation.notice?).filterMap Notice.failure?

/-- The crashes that have been reported in a run, in the order of the reports. -/
def failuresIn (h : List Moment) : List String := (reported h).filterMap Notice.failure?

theorem report?_of_not_isOver {phase : WatchPhase} (hp : phase.isOver = false) : phase.report? = none := by
  cases phase with
  | crashed => cases hp
  | _ => rfl

theorem crash?_of_not_crashesWatch (hm : m.crashesWatch = false) : m.crash? = none := by
  unfold Moment.crashesWatch at hm
  unfold Moment.crash?
  split
  · rename_i ha
    simpa [ha] using hm
  · rfl

theorem failuresOf_notices_of_next {after : Source} {taken : Taken} {notices : List Notice}
    (hn : source.next = (taken, after, notices)) (more : List Observation) :
    failuresOf (notices.map .notice ++ more) = failuresOf more := by
  have hnone : notices.filterMap Notice.failure? = [] := by
    refine List.filterMap_eq_nil_iff.mpr fun n hmem => ?_
    rcases unreadable_of_next hn n hmem with ⟨_, _, rfl⟩ | ⟨_, rfl⟩ <;> rfl
  unfold failuresOf
  rw [List.filterMap_append, List.filterMap_append, filterMap_notice?, hnone, List.nil_append]

theorem failuresOf_obituary (w : Watch) : failuresOf (obituary w) = w.phase.report?.toList := by
  unfold obituary
  split
  · rename_i hp
    rw [hp]
    rfl
  · rename_i hp
    cases hw : w.phase with
    | crashed report => exact absurd hw (hp report)
    | _ => rfl

/-- A watch that is under way and gets into another phase has its crash told last, if it crashes. -/
theorem untold_setPhase (hb : Booked s) (hw : w ∈ s.unfinished) (phase : WatchPhase) :
    (s.setPhase w.id phase).untold = s.untold ++ phase.report?.toList := by
  obtain ⟨hmem, hunder⟩ := mem_unfinished.mp hw
  -- no other watch has the number, and this one has no report yet
  have hnone : ∀ v ∈ s.watches, v.id = w.id → v.phase.report? = none := fun v hv hid => by
    rw [eq_of_id_eq hb.distinct hv hmem hid, report?_of_not_isOver hunder]
  cases hp : phase.isOver with
  | false =>
    unfold State.untold
    rw [watches_setPhase_of_not_isOver s w.id hp, List.filterMap_map, report?_of_not_isOver hp]
    refine (List.filterMap_congr fun v hv => ?_).trans (List.append_nil _).symm
    by_cases hid : v.id = w.id
    · simp [hid, hnone v hv hid, report?_of_not_isOver hp]
    · simp [hid]
  | true =>
    have hothers : (s.watches.filter fun v => v.id ≠ w.id).filterMap (fun v => v.phase.report?) = s.untold := by
      unfold State.untold
      rw [List.filterMap_filter]
      refine List.filterMap_congr fun v hv => ?_
      by_cases hid : v.id = w.id
      · simp [hid, hnone v hv hid]
      · simp [hid]
    unfold State.untold at hothers ⊢
    rw [watches_setPhase_of_isOver s w.id hp, List.filterMap_append, hothers, filter_id_eq hb.distinct hmem,
      List.map_singleton, List.filterMap_cons]
    cases phase.report? <;> rfl

/-- The first watch that is over is told of before the others. -/
theorem untold_eraseP {watches : List Watch} (hw : watches.find? (fun w => w.phase.isOver) = some w) :
    watches.filterMap (fun w => w.phase.report?) =
      w.phase.report?.toList ++ (watches.eraseP fun w => w.phase.isOver).filterMap fun w => w.phase.report? := by
  induction watches with
  | nil => cases hw
  | cons v l ih =>
    cases hv : v.phase.isOver with
    | true =>
      simp only [List.find?_cons, hv, Option.some.injEq] at hw
      subst hw
      rw [List.eraseP_cons, hv, cond_true, List.filterMap_cons]
      cases v.phase.report? <;> rfl
    | false =>
      simp only [List.find?_cons, hv] at hw
      rw [List.eraseP_cons, hv, cond_false, List.filterMap_cons, List.filterMap_cons,
        report?_of_not_isOver hv]
      exact ih hw

/-- A move that lets no watch crash and tells of no crash leaves as much to be told as before. -/
theorem crashes_told_of_kept (hu : t.untold = s.untold) (hs : failuresOf seen = [])
    (hc : (⟨s, a, t, seen⟩ : Moment).crash? = none) :
    s.untold ++ (⟨s, a, t, seen⟩ : Moment).crash?.toList = failuresOf seen ++ t.untold := by
  rw [hu, hs, hc]
  exact List.append_nil _

/-- A crash is to be told after those before it, and the first is told first. -/
theorem Move.crashes_told (hm : Move setup s a t seen) (hb : Booked s) (hlive : t.loop.isCrashed = false) :
    s.untold ++ (⟨s, a, t, seen⟩ : Moment).crash?.toList = failuresOf seen ++ t.untold := by
  have spawned (r : String) (kind : DelayKind) :
      (s.watches ++ [s.nextWatch setup r kind]).filterMap (fun w => w.phase.report?) = s.untold := by
    rw [List.filterMap_append]
    exact List.append_nil _
  cases hm with
  | reap _ hw =>
    rw [failuresOf_obituary]
    exact (List.append_nil _).trans (untold_eraseP hw)
  | skip _ hn =>
    have hnothing := failuresOf_notices_of_next hn []
    rw [List.append_nil] at hnothing
    exact crashes_told_of_kept rfl hnothing rfl
  | endStream _ hn => exact crashes_told_of_kept rfl (failuresOf_notices_of_next hn _) rfl
  | @rewatch r | @watch r => exact crashes_told_of_kept (spawned r _) rfl rfl
  | crashLoop => cases hlive
  | abandon _ hs => exact crashes_told_of_kept rfl rfl (crash?_of_not_crashesWatch (crashesWatch_of_stopping hs))
  | @advance w _ phase _ _ hw ha =>
    have hsame := untold_setPhase hb (mem_unfinished_of_watch? hw ha.isOver_eq_false) phase
    cases ha with
    | sleep | ask | block => exact crashes_told_of_kept (hsame.trans (List.append_nil _)) rfl rfl
  | @crashWatch w report hw hp hs =>
    have hnew := untold_setPhase hb (mem_unfinished_of_watch? hw (by rw [hp]; rfl)) (.crashed report)
    rw [hnew]
    simp [Moment.crash?, hs, failuresOf, WatchPhase.report?]
  | @conclude w _ o output hw ho he =>
    have hsame := untold_setPhase hb (mem_unfinished_of_watch? hw ho) (.finished o)
    have hseen : failuresOf (o.seen w) = [] := by cases o <;> rfl
    exact crashes_told_of_kept (hsame.trans (List.append_nil _)) hseen (crash?_of_not_crashesWatch he.crashesWatch)
  | _ => exact crashes_told_of_kept rfl rfl rfl

/-- **Crashes are told in the order in which they happen**, each once: those that have been reported are the first that
happened, and the others are known and wait for the loop; none is left when the monitor has stopped. -/
theorem failures_told_in_order (hr : Run setup (State.start setup now source) h s)
    (hlive : s.loop.isCrashed = false) :
    h.filterMap Moment.crash? = failuresIn h ++ s.untold ∧
      ∀ c, s.loop = .stopped c → h.filterMap Moment.crash? = failuresIn h := by
  have hstart : Reachable setup (State.start setup now source) := .start now source
  have htold : h.filterMap Moment.crash? = failuresIn h ++ s.untold := by
    refine Run.induct (P := fun h s => s.loop.isCrashed = false →
      h.filterMap Moment.crash? = failuresIn h ++ s.untold) hstart (fun _ => rfl) ?_ hr hlive
    intro h t a u seen _ ht hm ih hu
    calc List.filterMap Moment.crash? (h ++ [⟨t, a, u, seen⟩])
        = failuresIn h ++ (t.untold ++ (⟨t, a, u, seen⟩ : Moment).crash?.toList) := by
          rw [List.filterMap_append, ih (hm.live hu), List.append_assoc]
          rfl
      _ = failuresIn h ++ (failuresOf seen ++ u.untold) := by rw [hm.crashes_told ht.booked hu]
      _ = failuresIn (h ++ [⟨t, a, u, seen⟩]) ++ u.untold := by
          simp [failuresIn, failuresOf]
  refine ⟨htold, fun c hc => ?_⟩
  rw [htold, State.untold, (hr.reachable hstart).watches_of_stopped c hc]
  exact List.append_nil _

/-- The second of two watches crashes first. -/
example :
    let p := (State.start { monitor := "m" } 0 (signalsOf ["r", "q"])).played { monitor := "m" }
      (watchingAll ["r", "q"] ++ [.runWatch 0, .runWatch 1, .elapse 60000, .runWatch 0, .runWatch 1,
        .crashWatch 1 "first", .crashWatch 0 "second", .runLoop])
    p.1.filterMap Moment.crash? = ["first", "second"] ∧ failuresIn p.1 = ["first"] ∧ p.2.untold = ["second"] := by
  decide

end ReplicaWatch.Monitor
