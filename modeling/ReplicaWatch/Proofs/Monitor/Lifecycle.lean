import Mathlib.Computability.Language
import Mathlib.Order.CompletePartialOrder
import ReplicaWatch.Proofs.Monitor.Bookkeeping

/-!
# The life of a resource in the log

The lines about one resource, in every run, are a word of a regular language: the resource comes and goes any number
of times, and then it stands somewhere. A life begins with quorum and its first watch, goes on with watch after watch,
and ends when the resource is forgotten.

- `Life.watched`, `Life.life`, `Life.past`, `Life.ending`: the language, and how its words grow;
- `Glimpse`: what a move is to one resource; `Move.glimpse` says that every move is one;
- `Stands`: where a resource stands after the lines about it, kept by every glimpse (`Glimpse.stands`);
- `lines_about_resource`: the words of all runs.
-/

namespace ReplicaWatch.Monitor

open scoped Computability

/-! ## The words -/

namespace Life

variable (setup : Setup) (r : String)

/-- The quorum of the resource could not be learnt. -/
def unanswered : Language Notice := {w | ∃ error, w = [.quorumUnknown r error]}

/-- The resource is seen for the first time, without quorum. -/
def quorumless : Language Notice := {[.observed r false]}

/-- The resource is seen for the first time, with quorum, and watched. -/
def opening : Language Notice := {[.observed r true, .scheduled r .initial (setup.config.delay .initial)]}

/-- Signals that come while the resource is watched. -/
def signals : Language Notice := ({[.coalesced r]} : Language Notice)∗

/-- A watch of the resource has found a lost user, whether anybody takes the name or not, or nothing to promote. -/
def report : Language Notice := {w | (∃ delivered, w = [.userLost r delivered]) ∨ w = [.settled r]}

def reopening : Language Notice := {[.scheduled r .existing (setup.config.delay .existing)]}

def removal : Language Notice := {w | ∃ reason, w = [.removed r reason]}

/-- A watch of the resource ends, and with it the monitor. -/
def breakdown : Language Notice := {w | w = [.cancelled r] ∨ ∃ error, w = [.backendFailure r error]}

/-- A life up to a point where the resource is watched. -/
def watched : Language Notice := opening setup r * signals r * (report r * reopening setup r * signals r)∗

/-- A whole life. -/
def life : Language Notice := watched setup r * removal r

/-- What the resource has behind it. -/
def past : Language Notice := (unanswered r + life setup r)∗

/-- The words with which words of a language begin. -/
def prefixes (l : Language Notice) : Language Notice := {u | ∃ w ∈ l, u <+: w}

/-- Where the lines about the resource can end: nowhere in particular, without quorum, in the middle of a life, or
in the breakdown of the watch that is under way. -/
def ending : Language Notice :=
  1 + quorumless r + prefixes (life setup r) + watched setup r * breakdown r

theorem opening_le_watched : opening setup r ≤ watched setup r := by
  unfold watched signals
  calc opening setup r = opening setup r * 1 * 1 := by rw [mul_one, mul_one]
    _ ≤ _ := by gcongr <;> exact one_le_kstar

/-- Signals come. -/
theorem watched_mul_signals : watched setup r * signals r = watched setup r := by
  have hs : signals r * signals r = signals r := kstar_mul_kstar _
  unfold watched
  rw [← one_add_kstar_mul (a := report r * reopening setup r * signals r)]
  simp only [mul_add, add_mul, mul_one, mul_assoc, hs]

/-- The next watch begins. -/
theorem watched_mul_report_mul_reopening_le :
    watched setup r * report r * reopening setup r ≤ watched setup r := by
  have hround : report r * reopening setup r ≤ report r * reopening setup r * signals r := by
    calc report r * reopening setup r = report r * reopening setup r * 1 := (mul_one _).symm
      _ ≤ _ := by gcongr; exact one_le_kstar
  rw [mul_assoc]
  unfold watched
  rw [mul_assoc]
  gcongr
  exact (mul_le_mul_right hround _).trans kstar_mul_le_kstar

theorem past_mul_life_le : past setup r * life setup r ≤ past setup r := by
  unfold past
  calc _ ≤ (unanswered r + life setup r)∗ * (unanswered r + life setup r) := by gcongr; exact le_add_self
    _ ≤ _ := kstar_mul_le_kstar

theorem past_mul_unanswered_le : past setup r * unanswered r ≤ past setup r := by
  unfold past
  calc _ ≤ (unanswered r + life setup r)∗ * (unanswered r + life setup r) := by gcongr; exact le_self_add
    _ ≤ _ := kstar_mul_le_kstar

/-- A life is unfinished as long as the resource is watched. -/
theorem watched_le_prefixes : watched setup r ≤ prefixes (life setup r) := by
  intro w hw
  refine ⟨w ++ [.removed r .notFound], ?_, List.prefix_append _ _⟩
  exact Language.append_mem_mul hw ⟨_, rfl⟩

/-- A life is unfinished when a watch has reported. -/
theorem watched_mul_report_le_prefixes : watched setup r * report r ≤ prefixes (life setup r) := by
  intro w hw
  refine ⟨w ++ [.scheduled r .existing (setup.config.delay .existing)] ++ [.removed r .notFound], ?_, ?_⟩
  · refine Language.append_mem_mul ?_ ⟨_, rfl⟩
    exact watched_mul_report_mul_reopening_le setup r (Language.append_mem_mul hw rfl)
  · rw [List.append_assoc]
    exact List.prefix_append _ _

end Life

open Life

/-! ## The lines about a resource -/

/-- What is reported about a resource. -/
def linesIn (r : String) (seen : List Observation) : List Notice :=
  (seen.filterMap Observation.notice?).filter fun n => n.resource? = some r

/-- The log lines of a run that carry a resource. -/
def linesAbout (r : String) (h : List Moment) : List Notice :=
  (reported h).filter fun n => ("resource", r) ∈ n.line.fields

@[simp] theorem linesIn_nil (r : String) : linesIn r [] = [] := rfl

@[simp] theorem linesIn_append (r : String) (seen more : List Observation) :
    linesIn r (seen ++ more) = linesIn r seen ++ linesIn r more := by
  simp [linesIn]

theorem mem_linesIn {r : String} {n : Notice} {seen : List Observation} (hn : n.resource? = some r)
    (hs : .notice n ∈ seen) : n ∈ linesIn r seen :=
  List.mem_filter.mpr ⟨List.mem_filterMap.mpr ⟨_, hs, rfl⟩, by simp [hn]⟩

theorem linesIn_cons_of_eq {r : String} {n : Notice} (h : n.resource? = some r) (seen : List Observation) :
    linesIn r (.notice n :: seen) = n :: linesIn r seen := by
  simp [linesIn, Observation.notice?, h]

theorem linesIn_cons_of_ne {r : String} {n : Notice} (h : n.resource? ≠ some r) (seen : List Observation) :
    linesIn r (.notice n :: seen) = linesIn r seen := by
  simp [linesIn, Observation.notice?, h]

theorem linesIn_cons_of_notice?_eq_none (r : String) {o : Observation} (ho : o.notice? = none)
    (seen : List Observation) : linesIn r (o :: seen) = linesIn r seen := by
  simp [linesIn, ho]

theorem linesAbout_eq (r : String) (h : List Moment) : linesAbout r h = linesIn r (observations h) := by
  unfold linesAbout linesIn reported
  refine List.filter_congr fun n _ => ?_
  rw [decide_eq_decide]
  exact (n.resource?_eq_some_iff r).symm

variable {setup : Setup} {s t u : State} {a : Action} {seen : List Observation} {h : List Moment} {w : Watch}
  {r : String}

/-- What is said of what is passed over or ends the stream. -/
theorem unreadable_of_next {source after : Source} {taken : Taken} {notices : List Notice}
    (h : source.next = (taken, after, notices)) :
    ∀ n ∈ notices, (∃ error line, n = .lineUnreadable error line) ∨ ∃ error, n = .streamFailed error := by
  intro n hn
  cases source with
  | queue q =>
    simp only [Source.next, Prod.mk.injEq] at h
    rw [← h.2.2] at hn
    cases hn
  | feed f =>
    have hf : n ∈ f.next.2.2 := by
      simp only [Source.next, Prod.mk.injEq] at h
      rwa [h.2.2]
    unfold Feed.next at hf
    split at hf
    · cases hf
    · split at hf
      · cases hf
      · dsimp only at hf
        split at hf
        · cases hf
        · cases hf
        · exact Or.inl ⟨_, _, List.mem_singleton.mp hf⟩
        · exact Or.inr ⟨_, List.mem_singleton.mp hf⟩

/-- What is passed over or ends the stream has no lines about resources. -/
theorem resource?_of_next {source after : Source} {taken : Taken} {notices : List Notice}
    (h : source.next = (taken, after, notices)) : ∀ n ∈ notices, n.resource? = none := by
  intro n hn
  rcases unreadable_of_next h n hn with ⟨_, _, rfl⟩ | ⟨_, rfl⟩ <;> rfl

theorem linesIn_map_notice {notices : List Notice} (h : ∀ n ∈ notices, n.resource? = none) (r : String) :
    linesIn r (notices.map .notice) = [] := by
  induction notices with
  | nil => rfl
  | cons n rest ih =>
    have hn : n.resource? = none := h n List.mem_cons_self
    rw [List.map_cons, linesIn_cons_of_ne (by simp [hn]), ih fun m hm => h m (List.mem_cons_of_mem _ hm)]

theorem linesIn_obituary (r : String) (w : Watch) : linesIn r (obituary w) = [] := by
  refine List.filter_eq_nil_iff.mpr fun n hn => ?_
  obtain ⟨o, ho, hon⟩ := List.mem_filterMap.mp hn
  obtain ⟨report, rfl⟩ := eq_notice_of_mem_obituary ho
  cases hon
  simp [Notice.resource?]

theorem linesIn_seen (w : Watch) (o : Outcome) : linesIn w.resource (o.seen w) = [o.notice w.resource] := by
  have hn : (o.notice w.resource).resource? = some w.resource := Outcome.resource?_notice _ _
  unfold Outcome.seen
  split
  · rw [linesIn_cons_of_notice?_eq_none _ rfl, linesIn_cons_of_eq hn, linesIn_nil]
  · rw [linesIn_cons_of_eq hn, linesIn_nil]

theorem linesIn_seen_of_ne (hne : w.resource ≠ r) (o : Outcome) : linesIn r (o.seen w) = [] := by
  have hn : (o.notice w.resource).resource? ≠ some r := by simpa using hne
  unfold Outcome.seen
  split
  · rw [linesIn_cons_of_notice?_eq_none _ rfl, linesIn_cons_of_ne hn, linesIn_nil]
  · rw [linesIn_cons_of_ne hn, linesIn_nil]

/-! ## What a move is to one resource -/

/-- Whether a watch of a resource is under way. -/
def State.IsWatching (s : State) (r : String) : Prop := ∃ w ∈ s.unfinished, w.resource = r

/-- Whether no line about a resource follows a line. -/
def Notice.isFinal : Notice → Bool
  | observed _ false => true
  | cancelled _ => true
  | backendFailure .. => true
  | _ => false

/-- What a move is to one resource: its entry and its watch before and after, and the lines about it. -/
inductive Glimpse (setup : Setup) (r : String) (s t : State) : List Notice → Prop
  /-- It is left alone. -/
  | apart : t.registry.get? r = s.registry.get? r → (t.IsWatching r → s.IsWatching r) →
      (s.isStopping = true → t.isStopping = true) → Glimpse setup r s t []
  | coalesce {e : Record} : s.isStopping = false → s.registry.get? r = some e → e.isWatched = true →
      t.registry.get? r = some e → (t.IsWatching r → s.IsWatching r) → Glimpse setup r s t [.coalesced r]
  | doubt {error : BackendError} : s.isStopping = false → s.registry.get? r = none → t.registry.get? r = none →
      Glimpse setup r s t [.quorumUnknown r error]
  | record : s.isStopping = false → s.registry.get? r = none → t.registry.get? r = some ⟨false, false⟩ →
      Glimpse setup r s t [.observed r false]
  | watch : s.isStopping = false → s.registry.get? r = none → t.registry.get? r = some ⟨true, true⟩ →
      Glimpse setup r s t [.observed r true, .scheduled r .initial (setup.config.delay .initial)]
  | rewatch : s.isStopping = false → s.registry.get? r = some ⟨true, false⟩ →
      t.registry.get? r = some ⟨true, true⟩ →
      Glimpse setup r s t [.scheduled r .existing (setup.config.delay .existing)]
  /-- Its watch ends. -/
  | conclude {o : Outcome} : s.IsWatching r → t.registry.get? r = (o.registry s.registry r).get? r →
      ¬ t.IsWatching r → ((o.notice r).isFinal = true → t.isStopping = true) → Glimpse setup r s t [o.notice r]

theorem isWatching_of_spawning {q : String} (hne : q ≠ r) {kind : DelayKind}
    (ht : (s.spawning setup q kind).IsWatching r) : s.IsWatching r := by
  obtain ⟨v, hv, hvr⟩ := ht
  rcases mem_unfinished_spawning hv with hv | rfl
  · exact ⟨v, hv, hvr⟩
  · exact absurd hvr hne

theorem isWatching_of_setPhase (hb : Booked s) (hw : w ∈ s.unfinished) {phase : WatchPhase} {output : Channel String}
    (ht : State.IsWatching { s with watches := (s.setPhase w.id phase).watches, output := output } r) :
    s.IsWatching r := by
  obtain ⟨v, hv, hvr⟩ := ht
  obtain ⟨x, hx, -, hxr⟩ := exists_of_mem_unfinished_setPhase hb.distinct hw hv
  exact ⟨x, hx, hxr.trans hvr⟩

/-- The end of a watch is the end of it to its own resource, and nothing to another. -/
theorem glimpse_conclude (hb : Booked s) (hw : w ∈ s.unfinished) {o : Outcome} {output : Channel String}
    (hc : o = .cancelled → s.isStopping = true) (r : String) :
    Glimpse setup r s (s.conclude w o output) (linesIn r (o.seen w)) := by
  by_cases hr : w.resource = r
  · subst hr
    rw [linesIn_seen]
    refine .conclude ⟨w, hw, rfl⟩ rfl ?_ ?_
    · rintro ⟨v, hv, hvr⟩
      obtain ⟨hv, hne⟩ := mem_unfinished_conclude.mp hv
      exact hne (hb.single v hv w hw hvr)
    · intro hfinal
      show (s.cause.or o.cause?).isSome = true
      cases o with
      | cancelled => exact (Option.isSome_or ..).trans (by rw [show s.cause.isSome = true from hc rfl]; rfl)
      | failed error => simp [Outcome.cause?]
      | removed | notified | undelivered | settled => cases hfinal
  · rw [linesIn_seen_of_ne hr]
    refine .apart (o.get?_registry_of_ne s.registry hr) ?_ ?_
    · rintro ⟨v, hv, hvr⟩
      exact ⟨v, (mem_unfinished_conclude.mp hv).1, hvr⟩
    · intro hs
      show (s.cause.or o.cause?).isSome = true
      rw [Option.isSome_or, show s.cause.isSome = true from hs, Bool.true_or]

/-- **Every move is a glimpse** of each resource. -/
theorem Move.glimpse (hm : Move setup s a t seen) (hu : s.Unrecorded) (hb : Booked s) (r : String) :
    Glimpse setup r s t (linesIn r seen) := by
  cases hm with
  | requestStop => exact .apart rfl id fun _ => rfl
  | reap =>
    rw [linesIn_obituary]
    refine .apart rfl ?_ id
    unfold State.IsWatching
    rw [unfinished_eraseP]
    exact id
  | skip hl hn =>
    rw [linesIn_map_notice (resource?_of_next hn)]
    exact .apart rfl id id
  | endStream hl hn =>
    rw [linesIn_append, linesIn_map_notice (resource?_of_next hn)]
    exact .apart rfl id fun _ => rfl
  | @coalesce q e source hl hn hg hwatched =>
    rw [linesIn_cons_of_notice?_eq_none r rfl]
    by_cases hq : q = r
    · subst hq
      rw [linesIn_cons_of_eq rfl]
      exact .coalesce hl.going hg hwatched hg id
    · rw [linesIn_cons_of_ne (by simpa [Notice.resource?] using hq)]
      exact .apart rfl id id
  | @rewatch q source hl hn hg =>
    rw [linesIn_cons_of_notice?_eq_none r rfl]
    by_cases hq : q = r
    · subst hq
      rw [linesIn_cons_of_eq rfl]
      exact .rewatch hl.going hg (NameMap.get?_insert_self _ _ _)
    · rw [linesIn_cons_of_ne (by simpa [Notice.resource?] using hq)]
      exact .apart (NameMap.get?_insert_of_ne _ _ hq) (fun ht => isWatching_of_spawning (s := s.taking source) hq ht) id
  | @shrug q error hl hs =>
    by_cases hq : q = r
    · subst hq
      rw [linesIn_cons_of_eq rfl]
      exact .doubt hs (hu q hl) (hu q hl)
    · rw [linesIn_cons_of_ne (by simpa [Notice.resource?] using hq)]
      exact .apart rfl id id
  | @record q d hl hs hg =>
    by_cases hq : q = r
    · subst hq
      rw [linesIn_cons_of_eq rfl]
      exact .record hs hg (NameMap.get?_insert_self _ _ _)
    · rw [linesIn_cons_of_ne (by simpa [Notice.resource?] using hq)]
      exact .apart (NameMap.get?_insert_of_ne _ _ hq) id id
  | @watch q d hl hs hg =>
    by_cases hq : q = r
    · subst hq
      rw [linesIn_cons_of_eq rfl, linesIn_cons_of_eq rfl]
      exact .watch hs hg (NameMap.get?_insert_self _ _ _)
    · rw [linesIn_cons_of_ne (by simpa [Notice.resource?] using hq),
        linesIn_cons_of_ne (by simpa [Notice.resource?] using hq)]
      exact .apart (NameMap.get?_insert_of_ne _ _ hq)
        (fun ht => isWatching_of_spawning (s := { s with loop := .listening }) hq ht) id
  | crashLoop =>
    refine .apart rfl ?_ id
    rintro ⟨v, hv, -⟩
    cases hv
  | @advance w _ phase output _ hw ha =>
    have hwu : w ∈ s.unfinished := mem_unfinished_of_watch? hw ha.isOver_eq_false
    have hseen : linesIn r seen = [] := by cases ha <;> rfl
    rw [hseen]
    exact .apart rfl (isWatching_of_setPhase hb hwu) id
  | @crashWatch w report hw hp =>
    have hwu : w ∈ s.unfinished := mem_unfinished_of_watch? hw (by rw [hp]; rfl)
    exact .apart rfl (@isWatching_of_setPhase s w r hb hwu (.crashed report) s.output) id
  | @conclude w _ o output hw ho he =>
    refine glimpse_conclude hb (mem_unfinished_of_watch? hw ho) (fun hc => ?_) r
    cases he with
    | cancel hs | withdraw hs => exact hs
    | _ => cases hc
  | _ => exact .apart rfl id id

/-! ## Where a resource stands -/

/-- Where a resource stands after the lines about it. -/
inductive Stands (setup : Setup) (r : String) (s : State) (lines : List Notice) : Prop
  | unknown : s.registry.get? r = none → lines ∈ past setup r → Stands setup r s lines
  | barred : s.registry.get? r = some ⟨false, false⟩ → lines ∈ past setup r * quorumless r → Stands setup r s lines
  /-- A watch is under way, or has crashed. -/
  | tracked : s.registry.get? r = some ⟨true, true⟩ → lines ∈ past setup r * watched setup r → Stands setup r s lines
  | idle : s.registry.get? r = some ⟨true, false⟩ → lines ∈ past setup r * (watched setup r * report r) →
      Stands setup r s lines
  /-- Its last watch went down with the monitor. -/
  | closed : s.isStopping = true → ¬ s.IsWatching r → lines ∈ past setup r * (watched setup r * breakdown r) →
      Stands setup r s lines

theorem append_mem {l m k : Language Notice} {v w : List Notice} (hv : v ∈ l) (hw : w ∈ m) (h : l * m ≤ k) :
    v ++ w ∈ k :=
  h (Language.append_mem_mul hv hw)

/-- A resource that is not known stands at its past. -/
theorem Stands.of_none {lines : List Notice} (hs : Stands setup r s lines) (hgoing : s.isStopping = false)
    (hg : s.registry.get? r = none) : lines ∈ past setup r := by
  cases hs with
  | unknown _ hl => exact hl
  | barred hg' | tracked hg' | idle hg' => rw [hg] at hg'; cases hg'
  | closed hs => rw [hgoing] at hs; cases hs

/-- A resource that is marked as watched stands in the middle of a life. -/
theorem Stands.of_isWatched {lines : List Notice} {e : Record} (hs : Stands setup r s lines)
    (hgoing : s.isStopping = false) (hg : s.registry.get? r = some e) (he : e.isWatched = true) :
    e = ⟨true, true⟩ ∧ lines ∈ past setup r * watched setup r := by
  cases hs with
  | tracked hg' hl =>
    rw [hg] at hg'
    exact ⟨Option.some.inj hg', hl⟩
  | unknown hg' => rw [hg] at hg'; cases hg'
  | barred hg' | idle hg' => rw [hg] at hg'; cases hg'; cases he
  | closed hs => rw [hgoing] at hs; cases hs

/-- The end of a watch leads on from the middle of a life. -/
theorem Stands.conclude {lines : List Notice} {o : Outcome} (hg : s.registry.get? r = some ⟨true, true⟩)
    (hl : lines ∈ past setup r * watched setup r) (ht : t.registry.get? r = (o.registry s.registry r).get? r)
    (hn : ¬ t.IsWatching r) (hf : (o.notice r).isFinal = true → t.isStopping = true) :
    Stands setup r t (lines ++ [o.notice r]) := by
  have idle (hr : t.registry.get? r = (s.registry.finishWatch r).get? r) (hw : [o.notice r] ∈ report r) :
      Stands setup r t (lines ++ [o.notice r]) := by
    refine .idle ?_ (append_mem hl hw (mul_assoc _ _ _).le)
    rw [hr, Registry.get?_finishWatch, if_pos rfl, hg]
    rfl
  have closed (hw : [o.notice r] ∈ breakdown r) (hf : t.isStopping = true) :
      Stands setup r t (lines ++ [o.notice r]) :=
    .closed hf hn (append_mem hl hw (mul_assoc _ _ _).le)
  cases o with
  | cancelled => exact closed (Or.inl rfl) (hf rfl)
  | failed error => exact closed (Or.inr ⟨error, rfl⟩) (hf rfl)
  | notified => exact idle ht (Or.inl ⟨true, rfl⟩)
  | undelivered => exact idle ht (Or.inl ⟨false, rfl⟩)
  | settled => exact idle ht (Or.inr rfl)
  | removed reason =>
    refine .unknown ?_ (append_mem (m := removal r) hl ⟨reason, rfl⟩ ?_)
    · rw [ht]
      show (s.registry.remove r).get? r = none
      rw [Registry.get?_remove, if_pos rfl]
    · rw [mul_assoc]
      exact past_mul_life_le setup r

theorem Glimpse.stands {lines more : List Notice} (hg : Glimpse setup r s t more) (hb : Booked s)
    (hs : Stands setup r s lines) : Stands setup r t (lines ++ more) := by
  cases hg with
  | apart hr hw hst =>
    rw [List.append_nil]
    cases hs with
    | unknown hg hl => exact .unknown (hr.trans hg) hl
    | barred hg hl => exact .barred (hr.trans hg) hl
    | tracked hg hl => exact .tracked (hr.trans hg) hl
    | idle hg hl => exact .idle (hr.trans hg) hl
    | closed hs hn hl => exact .closed (hst hs) (fun ht => hn (hw ht)) hl
  | coalesce hgoing he hw ht =>
    obtain ⟨rfl, hl⟩ := hs.of_isWatched hgoing he hw
    have hw : [.coalesced r] ∈ signals r := (le_kstar : ({[.coalesced r]} : Language Notice) ≤ signals r) rfl
    refine .tracked ht (append_mem hl hw ?_)
    rw [mul_assoc, watched_mul_signals]
  | doubt hgoing he ht =>
    exact .unknown ht (append_mem (m := unanswered r) (hs.of_none hgoing he) ⟨_, rfl⟩ (past_mul_unanswered_le setup r))
  | record hgoing he ht => exact .barred ht (Language.append_mem_mul (hs.of_none hgoing he) rfl)
  | watch hgoing he ht =>
    refine .tracked ht (append_mem (m := opening setup r) (hs.of_none hgoing he) rfl ?_)
    exact mul_le_mul_right (opening_le_watched setup r) _
  | rewatch hgoing he ht =>
    cases hs with
    | idle _ hl =>
      refine .tracked ht (append_mem (m := reopening setup r) hl rfl ?_)
      rw [mul_assoc]
      exact mul_le_mul_right (watched_mul_report_mul_reopening_le setup r) _
    | unknown he' | barred he' | tracked he' => rw [he] at he'; cases he'
    | closed hs => rw [hgoing] at hs; cases hs
  | conclude hw ht hn hf =>
    -- the watch that ends is under way, so the entry says so, and the resource stands in the middle of a life
    cases hs with
    | tracked he hl => exact .conclude he hl ht hn hf
    | closed _ hn' => exact absurd hw hn'
    | unknown he | barred he | idle he =>
      obtain ⟨w, hw, hwr⟩ := hw
      have := hb.entry w hw
      rw [hwr, he] at this
      cases this

/-- A resource stands at an ending. -/
theorem Stands.mem_ending {lines : List Notice} (hs : Stands setup r s lines) :
    lines ∈ past setup r * ending setup r := by
  have reach {l : Language Notice} (hl : l ≤ ending setup r) (hm : lines ∈ past setup r * l) :
      lines ∈ past setup r * ending setup r := mul_le_mul_right hl _ hm
  have unfinished {l : Language Notice} (hl : l ≤ prefixes (life setup r)) : l ≤ ending setup r :=
    hl.trans (le_add_self.trans le_self_add)
  cases hs with
  | unknown _ hl =>
    refine reach (l := 1) ?_ (by rwa [mul_one])
    exact le_self_add.trans (le_self_add.trans le_self_add)
  | barred _ hl => exact reach (le_add_self.trans (le_self_add.trans le_self_add)) hl
  | tracked _ hl => exact reach (unfinished (watched_le_prefixes setup r)) hl
  | idle _ hl => exact reach (unfinished (watched_mul_report_le_prefixes setup r)) hl
  | closed _ _ hl => exact reach le_add_self hl

/-! ## Nothing follows a final line -/

/-- Words without final lines. -/
def plain : Language Notice := {w | ∀ n ∈ w, n.isFinal = false}

theorem plain_mul_le {l m : Language Notice} (hl : l ≤ plain) (hm : m ≤ plain) : l * m ≤ plain := by
  rintro _ ⟨v, hv, w, hw, rfl⟩ n hn
  rcases List.mem_append.mp hn with hn | hn
  · exact hl hv n hn
  · exact hm hw n hn

theorem plain_kstar_le {l : Language Notice} (hl : l ≤ plain) : l∗ ≤ plain := by
  refine kstar_le_of_mul_le_left ?_ (plain_mul_le le_rfl hl)
  rintro _ rfl
  exact nofun

theorem report_le_plain (r : String) : report r ≤ plain := by
  rintro _ (⟨delivered, rfl⟩ | rfl) n hn
  · rw [List.mem_singleton.mp hn]; rfl
  · rw [List.mem_singleton.mp hn]; rfl

theorem watched_le_plain (setup : Setup) (r : String) : watched setup r ≤ plain := by
  have hopening : opening setup r ≤ plain := by
    rintro _ rfl n hn
    rcases List.mem_pair.mp hn with rfl | rfl <;> rfl
  have hsignals : signals r ≤ plain := by
    refine plain_kstar_le ?_
    rintro _ rfl n hn
    rw [List.mem_singleton.mp hn]
    rfl
  have hreopening : reopening setup r ≤ plain := by
    rintro _ rfl n hn
    rw [List.mem_singleton.mp hn]
    rfl
  have hround : report r * reopening setup r * signals r ≤ plain :=
    plain_mul_le (plain_mul_le (report_le_plain r) hreopening) hsignals
  exact plain_mul_le (plain_mul_le hopening hsignals) (plain_kstar_le hround)

theorem past_le_plain (setup : Setup) (r : String) : past setup r ≤ plain := by
  refine plain_kstar_le (add_le ?_ (plain_mul_le (watched_le_plain setup r) ?_))
  · rintro _ ⟨error, rfl⟩ n hn
    rw [List.mem_singleton.mp hn]
    rfl
  · rintro _ ⟨reason, rfl⟩ n hn
    rw [List.mem_singleton.mp hn]
    rfl

/-- Where a resource stands, no line but the last is final. -/
theorem Stands.isFinal_dropLast {lines : List Notice} (hs : Stands setup r s lines) :
    ∀ n ∈ lines.dropLast, n.isFinal = false := by
  have inner {l : Language Notice} (hp : l ≤ plain) (hl : lines ∈ past setup r * l) :
      ∀ n ∈ lines.dropLast, n.isFinal = false := fun n hn =>
    plain_mul_le (past_le_plain setup r) hp hl n (List.dropLast_subset _ hn)
  have closing {v : List Notice} {n : Notice} (hv : v ∈ plain) : ∀ m ∈ (v ++ [n]).dropLast, m.isFinal = false := by
    rw [List.dropLast_concat]
    exact hv
  have hpw := plain_mul_le (past_le_plain setup r) (watched_le_plain setup r)
  cases hs with
  | unknown _ hl => exact fun n hn => past_le_plain setup r hl n (List.dropLast_subset _ hn)
  | tracked _ hl => exact inner (watched_le_plain setup r) hl
  | idle _ hl => exact inner (plain_mul_le (watched_le_plain setup r) (report_le_plain r)) hl
  | barred _ hl =>
    obtain ⟨v, hv, _, rfl, rfl⟩ := hl
    exact closing (past_le_plain setup r hv)
  | closed _ _ hl =>
    rw [← mul_assoc] at hl
    obtain ⟨v, hv, w, hw, rfl⟩ := hl
    rcases hw with rfl | ⟨error, rfl⟩
    · exact closing (hpw hv)
    · exact closing (hpw hv)

/-! ## After a crash -/

/-- A resource whose watch has crashed is only seen in signals, and that does not change. -/
theorem Glimpse.crashed {more : List Notice} (hg : Glimpse setup r s t more)
    (he : s.registry.get? r = some ⟨true, true⟩) (hn : ¬ s.IsWatching r) :
    t.registry.get? r = some ⟨true, true⟩ ∧ ¬ t.IsWatching r ∧ more ∈ signals r := by
  -- the entry still says that the resource is watched, so no watch is scheduled, and there is none that could end
  cases hg with
  | apart ht hw => exact ⟨ht.trans he, fun h => hn (hw h), Language.nil_mem_kstar _⟩
  | coalesce _ he' _ ht hw =>
    refine ⟨ht.trans (he'.symm.trans he), fun h => hn (hw h), ?_⟩
    exact (le_kstar : ({[.coalesced r]} : Language Notice) ≤ signals r) rfl
  | doubt _ he' | record _ he' | watch _ he' | rewatch _ he' => rw [he] at he'; cases he'
  | conclude hw => exact absurd hw hn

/-- A watch that crashes is not under way any more, and shows nothing. -/
theorem crash_of_step (hb : Booked s) {report : String} (hw : s.watch? w.id = some w) (hgoing : s.isStopping = false)
    (hstep : s.step? setup (.crashWatch w.id report) = some (t, seen)) :
    s.registry.get? w.resource = some ⟨true, true⟩ ∧ t.registry = s.registry ∧ ¬ t.IsWatching w.resource ∧
      seen = [] := by
  simp only [State.step?, State.crashWatch, hw, hgoing] at hstep
  split at hstep
  · cases hstep
  · rename_i hp
    have hp : w.phase = .asking := by simpa using hp
    have hwu : w ∈ s.unfinished := mem_unfinished_of_watch? hw (by rw [hp]; rfl)
    cases hstep
    refine ⟨hb.entry w hwu, rfl, ?_, rfl⟩
    rintro ⟨v, hv, hvr⟩
    obtain ⟨hv, ho⟩ := mem_unfinished.mp hv
    rcases mem_setPhase hv with ⟨hv, hne⟩ | ⟨x, -, -, rfl⟩
    · exact hne (hb.single v (mem_unfinished.mpr ⟨hv, ho⟩) w hwu hvr)
    · cases ho

/-! ## The lines of a run -/

theorem linesAbout_append (r : String) (h k : List Moment) :
    linesAbout r (h ++ k) = linesAbout r h ++ linesAbout r k := by
  rw [linesAbout_eq, linesAbout_eq, linesAbout_eq, observations_append, linesIn_append]

theorem linesAbout_singleton (r : String) (m : Moment) : linesAbout r [m] = linesIn r m.seen := by
  rw [linesAbout_eq, observations_singleton]

/-- In every run from a start each resource stands somewhere. -/
theorem Run.stands {now : Nat} {source : Source} (hr : Run setup (State.start setup now source) h s) (r : String) :
    Stands setup r s (linesAbout r h) := by
  refine Run.induct (P := fun h s => Stands setup r s (linesAbout r h)) (.start now source) ?_ ?_ hr
  · exact .unknown (NameMap.get?_empty r) (Language.nil_mem_kstar _)
  · intro h t a u seen _ ht hm hs
    rw [linesAbout_append, linesAbout_singleton]
    exact (hm.glimpse ht.unrecorded ht.booked r).stands ht.booked hs

/-- From a state in which its watch has crashed, a resource is only seen in signals. -/
theorem Run.crashed (hs : Reachable setup s) (he : s.registry.get? r = some ⟨true, true⟩) (hn : ¬ s.IsWatching r)
    (hr : Run setup s h t) : linesAbout r h ∈ signals r := by
  have := Run.induct (P := fun h t => t.registry.get? r = some ⟨true, true⟩ ∧ ¬ t.IsWatching r ∧
    linesAbout r h ∈ signals r) hs ⟨he, hn, Language.nil_mem_kstar _⟩ ?_ hr
  · exact this.2.2
  · rintro h t a u seen _ ht hm ⟨he, hn, hl⟩
    obtain ⟨he', hn', hl'⟩ := (hm.glimpse ht.unrecorded ht.booked r).crashed he hn
    refine ⟨he', hn', ?_⟩
    rw [linesAbout_append, linesAbout_singleton]
    exact append_mem hl hl' (kstar_mul_kstar _).le

/-- **The lines about a resource.** In every run they are a word of lives and unanswered questions up to an ending;
nothing follows a final line; and from the moment on in which a watch of the resource crashes, in the middle of a
life, there are only signals. -/
theorem lines_about_resource {now : Nat} {source : Source} (hr : Run setup (State.start setup now source) h s)
    (r : String) :
    linesAbout r h ∈ past setup r * ending setup r ∧
    (∀ n ∈ (linesAbout r h).dropLast, n.isFinal = false) ∧
    ∀ before m after, h = before ++ m :: after → ∀ w report, m.action = .crashWatch w.id report →
      m.before.isStopping = false → m.before.watch? w.id = some w → w.resource = r →
      linesAbout r before ∈ past setup r * watched setup r ∧ linesAbout r (m :: after) ∈ signals r := by
  have hs := hr.stands r
  refine ⟨hs.mem_ending, hs.isFinal_dropLast, ?_⟩
  rintro before m after rfl w report ha hgoing hw rfl
  obtain ⟨hbefore, hstep, hafter⟩ := hr.split
  have hm : Reachable setup m.before := hbefore.reachable (.start now source)
  have ht : Reachable setup m.after := .step hm hstep
  rw [ha] at hstep
  obtain ⟨he, hg, hn, hseen⟩ := crash_of_step hm.booked hw hgoing hstep
  refine ⟨((hbefore.stands _).of_isWatched hgoing he rfl).2, ?_⟩
  have hfirst : linesAbout w.resource [m] = [] := by rw [linesAbout_singleton, hseen, linesIn_nil]
  rw [← List.singleton_append, linesAbout_append, hfirst]
  exact hafter.crashed ht (by rw [hg, he]) hn

/-- A resource that is watched, found without a user, watched again and signalled, whose second watch crashes. -/
def crashingSecond (r : String) : List Action :=
  watchingOne r ++ [.runWatch 0, .elapse 60000, .runWatch 0, .answerReplicas 0 (.ok []), .runLoop, .runLoop,
    .runWatch 1, .elapse 45000, .runWatch 1, .runLoop, .crashWatch 1 "panic", .runLoop, .runLoop]

theorem lines_of_crashing_second :
    let p := (State.start { monitor := "m" } 0 (signalsOf ["r", "r", "r", "r"])).played { monitor := "m" }
      (crashingSecond "r")
    linesAbout "r" p.1 = [.observed "r" true, .scheduled "r" .initial 60000, .settled "r",
      .scheduled "r" .existing 45000, .coalesced "r", .coalesced "r"] ∧
    linesAbout "r" p.1 ∈ past { monitor := "m" } "r" * ending { monitor := "m" } "r" := by
  intro p
  have hr : Run { monitor := "m" } (State.start { monitor := "m" } 0 (signalsOf ["r", "r", "r", "r"])) p.1 p.2 :=
    run_played (by decide)
  exact ⟨by decide, (lines_about_resource hr "r").1⟩

end ReplicaWatch.Monitor
