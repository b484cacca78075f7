import ReplicaWatch.Proofs.Cluster.Verdict
import ReplicaWatch.Proofs.Monitor.History
import ReplicaWatch.Proofs.Monitor.Lifecycle
import ReplicaWatch.Proofs.Monitor.Succession

/-!
# Why a name is on the output

Behind every name that is put on the output there is a history: a signal was taken, the loop admitted it and
scheduled a watch, the watch waited out its delay and asked, and the answer said that the resource may be promoted;
all that time the resource had an entry, made when its definition was found to have quorum.

- `Moment.Takes`, `Moment.Schedules`, `Moment.Asks`, `Moment.Confirms`, `Moment.Creates`, `Moment.Puts`: what happens;
- `Origin`, `Traced`: where a watch comes from; `Backed`: how far it has got since, kept by every move (`Run.backed`);
- `Justified`: the history of a name; `put_justified`: every name has its own.
-/

namespace ReplicaWatch.Monitor

variable {setup : Setup} {s t u : State} {a : Action} {seen : List Observation} {h : List Moment} {v w : Watch}
  {m : Moment} {now : Nat} {source : Source} {r : String}

/-! ## What happens at a moment -/

/-- The top layer of all replicas is DRBD, and at least one of them may be promoted. -/
def IsPromotable (replicas : List Replica) : Prop :=
  replicas ≠ [] ∧ (∀ x ∈ replicas, x.layer.kind = .drbd) ∧
    ∃ x ∈ replicas, ∃ data, x.layer.drbd = some data ∧ data.mayPromote = true

namespace Moment

/-- A sign that a resource may be promoted is taken. -/
def Takes (m : Moment) (r : String) : Prop := .ingested ⟨r, true⟩ ∈ m.seen

/-- No signal is taken. -/
def TakesNone (m : Moment) : Prop := ∀ x, .ingested x ∉ m.seen

/-- A watch is scheduled, with a number that is new, and reported with its delay. -/
def Schedules (setup : Setup) (m : Moment) (id : Nat) (r : String) (kind : DelayKind) : Prop :=
  .notice (.scheduled r kind (setup.config.delay kind)) ∈ m.seen ∧
    m.before.nextId = id ∧ m.after.nextId = id + 1 ∧
    m.after.watches = m.before.watches ++ [⟨id, r, setup.config.delay kind, .scheduled⟩]

/-- A watch asks for the replicas of its resource. -/
def Asks (m : Moment) (id : Nat) (r : String) : Prop := .askedReplicas id r ∈ m.seen

/-- A watch that has asked learns that its resource may be promoted. -/
def Confirms (m : Moment) (id : Nat) (r : String) : Prop :=
  ∃ w replicas, m.before.watch? id = some w ∧ w.resource = r ∧ w.phase = .asking ∧ m.before.isStopping = false ∧
    m.action = .answerReplicas id (.ok replicas) ∧ IsPromotable replicas

/-- The loop learns that the definition of a resource without an entry has quorum, and makes the entry. -/
def Creates (m : Moment) (r : String) : Prop :=
  ∃ d value, m.before.loop = .consulting r ∧ m.before.registry.get? r = none ∧ m.action = .answerDefinition (.ok d) ∧
    d.props.get? Definition.quorumProperty = some value ∧ value ≠ Definition.quorumOff ∧
    m.after.registry.get? r = some ⟨true, true⟩

/-- A watch puts the name of its resource on the output. -/
def Puts (m : Moment) (id : Nat) (r : String) : Prop := .put id r ∈ m.seen

end Moment

theorem isPromotable_of_verdict {replicas : List Replica} (hv : Verdict.ofReplicas replicas = .promotable) :
    IsPromotable replicas := by
  obtain ⟨hdrbd, x, hx, hdata⟩ := Verdict.ofReplicas_eq_promotable_iff.mp hv
  exact ⟨List.ne_nil_of_mem hx, hdrbd, x, hx, hdata⟩

/-- A definition with quorum has the property, with a value that does not turn it off. -/
theorem value_of_hasQuorum {d : Definition} (hq : d.hasQuorum = true) :
    ∃ value, d.props.get? Definition.quorumProperty = some value ∧ value ≠ Definition.quorumOff := by
  unfold Definition.hasQuorum at hq
  split at hq
  · cases hq
  · rename_i value hv
    exact ⟨value, hv, by simpa using hq⟩

/-! ## The question of the loop -/

/-- The loop asks about a resource since it took a signal of it, and has taken none since. -/
theorem Move.consulting (hm : Move setup s a t seen) (hl : t.loop = .consulting r) :
    (s.loop = .consulting r ∧ ∀ x, .ingested x ∉ seen) ∨ .ingested ⟨r, true⟩ ∈ seen := by
  cases hm with
  | consult =>
    cases hl
    exact Or.inr List.mem_cons_self
  | begin | heed | endStream | abandon | shrug | record | watch | stop | crashLoop => cases hl
  | skip hs | ignore hs | coalesce hs | passOver hs | rewatch hs => exact absurd (hs.loop.symm.trans hl) nofun
  | reap hs =>
    have hl : s.loop = .consulting r := hl
    rcases hs with ⟨hs, -⟩ | hs <;> rw [hs] at hl <;> cases hl
  | advance _ ha => exact Or.inl ⟨hl, fun x => by cases ha <;> simp⟩
  | conclude =>
    refine Or.inl ⟨hl, fun x hx => ?_⟩
    rcases Outcome.mem_seen hx with ⟨h, -⟩ | h
    · cases h
    · cases h
  | _ => exact Or.inl ⟨hl, by simp⟩

/-- The signal that the loop asks about. -/
theorem Run.pending (hr : Run setup (State.start setup now source) h s) :
    ∀ r, s.loop = .consulting r → ∃ i time, At h i (fun m => m.Takes r ∧ m.time = time) ∧ time ≤ s.now ∧
      After h i Moment.TakesNone := by
  refine Run.induct (P := fun h s => ∀ r, s.loop = .consulting r → ∃ i time,
    At h i (fun m => m.Takes r ∧ m.time = time) ∧ time ≤ s.now ∧ After h i Moment.TakesNone)
    (.start now source) (fun r hl => by cases hl) ?_ hr
  intro h t a u seen _ ht hm ih r hl
  rcases hm.consulting hl with ⟨hl, hnone⟩ | htaken
  · obtain ⟨i, time, hi, htime, hafter⟩ := ih r hl
    exact ⟨i, time, hi.snoc _, Nat.le_trans htime hm.now_le, hafter.snoc hnone⟩
  · exact ⟨h.length, t.now, At.last h ⟨htaken, rfl⟩, hm.now_le, After.last h _ _⟩

/-! ## Entries with quorum -/

/-- An entry with quorum was there before, or is made for a definition with quorum. -/
theorem Move.quorum_entry {e : Record} (hm : Move setup s a t seen) (ht : t.registry.get? r = some e)
    (hq : e.hasQuorum = true) :
    (∃ d, s.registry.get? r = some d ∧ d.hasQuorum = true) ∨ (⟨s, a, t, seen⟩ : Moment).Creates r := by
  cases hm with
  | @rewatch q source hl hn hg =>
    rcases get?_insert_some ht with ⟨rfl, -⟩ | he
    · exact Or.inl ⟨_, hg, rfl⟩
    · exact Or.inl ⟨e, he, hq⟩
  | @record q d hl hs hg =>
    rcases get?_insert_some ht with ⟨-, rfl⟩ | he
    · cases hq
    · exact Or.inl ⟨e, he, hq⟩
  | @watch q d hl hs hg hd =>
    rcases get?_insert_some ht with ⟨rfl, -⟩ | he
    · obtain ⟨value, hv, hne⟩ := value_of_hasQuorum hd
      exact Or.inr ⟨d, value, hl, hg, rfl, hv, hne, NameMap.get?_insert_self _ _ _⟩
    · exact Or.inl ⟨e, he, hq⟩
  | conclude =>
    obtain ⟨d, hd, hdq, -⟩ := Outcome.get?_registry_some ht
    exact Or.inl ⟨d, hd, hdq.symm.trans hq⟩
  | _ => exact Or.inl ⟨e, ht, hq⟩

/-- Every entry with quorum has been made at some moment, and has been there since. -/
theorem Run.entry_created (hr : Run setup (State.start setup now source) h s) :
    ∀ r e, s.registry.get? r = some e → e.hasQuorum = true →
      ∃ c, At h c (Moment.Creates · r) ∧ After h c fun m => m.before.registry.get? r ≠ none := by
  refine Run.induct (P := fun h s => ∀ r e, s.registry.get? r = some e → e.hasQuorum = true →
      ∃ c, At h c (Moment.Creates · r) ∧ After h c fun m => m.before.registry.get? r ≠ none)
    (.start now source) (fun r e he => ?_) ?_ hr
  · rw [show (State.start setup now source).registry.get? r = none from NameMap.get?_empty r] at he
    cases he
  · intro h t a u seen _ ht hm ih r e he hq
    rcases hm.quorum_entry he hq with ⟨d, hd, hdq⟩ | hc
    · obtain ⟨c, hc, hkept⟩ := ih r d hd hdq
      refine ⟨c, hc.snoc _, hkept.snoc ?_⟩
      show t.registry.get? r ≠ none
      rw [hd]
      nofun
    · exact ⟨h.length, At.last h hc, After.last h _ _⟩

/-! ## Where a watch comes from -/

/-- Where a watch comes from: which delay it waits for, the time of its signal, and the numbers of the moments at
which the signal was taken, the watch scheduled and the entry of its resource made. -/
structure Origin where
  kind : DelayKind
  time : Nat
  taken : Nat
  scheduled : Nat
  created : Nat

/-- A history in which a watch has an origin. -/
structure Traced (setup : Setup) (h : List Moment) (id : Nat) (r : String) (o : Origin) : Prop where
  taken : At h o.taken fun m => m.Takes r ∧ m.time = o.time
  scheduled : At h o.scheduled fun m => m.Schedules setup id r o.kind
  created : At h o.created fun m => m.Creates r
  taken_le : o.taken ≤ o.scheduled
  created_le : o.created ≤ o.scheduled
  undisturbed : Through h o.taken o.scheduled Moment.TakesNone

theorem Traced.snoc {id : Nat} {o : Origin} (ht : Traced setup h id r o) (m : Moment) :
    Traced setup (h ++ [m]) id r o :=
  ⟨ht.taken.snoc m, ht.scheduled.snoc m, ht.created.snoc m, ht.taken_le, ht.created_le,
    ht.undisturbed.snoc ht.scheduled.lt m⟩

/-- A watch has asked after its delay, counted from its signal. -/
structure Asked (setup : Setup) (h : List Moment) (id : Nat) (r : String) (o : Origin) (asked : Nat) : Prop where
  asks : At h asked fun m => m.Asks id r ∧ o.time + setup.config.delay o.kind ≤ m.time
  lt : o.scheduled < asked

theorem Asked.snoc {id k : Nat} {o : Origin} (ha : Asked setup h id r o k) (m : Moment) :
    Asked setup (h ++ [m]) id r o k := ⟨ha.asks.snoc m, ha.lt⟩

/-- How far a watch has got in a phase. -/
inductive Progress (setup : Setup) (h : List Moment) (now id : Nat) (r : String) (o : Origin) : WatchPhase → Prop
  | scheduled : o.time ≤ now → Progress setup h now id r o .scheduled
  | waiting {deadline : Nat} : o.time + setup.config.delay o.kind ≤ deadline →
      Progress setup h now id r o (.waiting deadline)
  | asking {k : Nat} : Asked setup h id r o k → Progress setup h now id r o .asking
  | sending {k l : Nat} : Asked setup h id r o k → k < l → At h l (fun m => m.Confirms id r) →
      Progress setup h now id r o .sending

theorem Progress.snoc {id later : Nat} {o : Origin} {phase : WatchPhase} (hp : Progress setup h now id r o phase)
    (hnow : now ≤ later) (m : Moment) : Progress setup (h ++ [m]) later id r o phase := by
  cases hp with
  | scheduled htime => exact .scheduled (Nat.le_trans htime hnow)
  | waiting hd => exact .waiting hd
  | asking ha => exact .asking (ha.snoc m)
  | sending ha hkl hc => exact .sending (ha.snoc m) hkl (hc.snoc m)

/-- A watch under way has an origin, the entry of its resource has been kept since it was made, and the watch has
got as far as its phase says. -/
structure Backed (setup : Setup) (h : List Moment) (s : State) (w : Watch) (o : Origin) : Prop where
  traced : Traced setup h w.id w.resource o
  delay : w.delay = setup.config.delay o.kind
  kept : After h o.created fun m => m.before.registry.get? w.resource ≠ none
  progress : Progress setup h s.now w.id w.resource o w.phase

/-- An answer that lets a watch go on to the output confirms its resource. -/
theorem confirms_of_answer {replicas : List Replica} (hb : Booked s) (hw : w ∈ s.unfinished) (hp : w.phase = .asking)
    (hs : s.isStopping = false) (hv : Verdict.ofReplicas replicas = .promotable) :
    (⟨s, .answerReplicas w.id (.ok replicas), t, seen⟩ : Moment).Confirms w.id w.resource :=
  ⟨w, replicas, hb.watch?.mpr ⟨(mem_unfinished.mp hw).1, rfl⟩, rfl, hp, hs, rfl, isPromotable_of_verdict hv⟩

/-- A watch that goes on gets further. -/
theorem Backed.advance {o : Origin} {phase : WatchPhase} {output : Channel String} (hb : Booked s)
    (hv : v ∈ s.unfinished) (hback : Backed setup h s v o) (ha : Advance setup s v a phase output seen)
    (hsleep : s.now + v.delay ≤ setup.clock.wake s.now v.delay) :
    Progress setup (h ++ [⟨s, a, t, seen⟩]) t.now v.id v.resource o phase := by
  have hprogress := hback.progress
  -- the phase tells how far the watch has got, and the move adds the moment that is the last of the history
  cases ha with
  | sleep hp _ =>
    rw [hp] at hprogress
    cases hprogress with
    | scheduled htime =>
      refine .waiting ?_
      rw [hback.delay] at hsleep ⊢
      omega
  | @ask deadline hp _ hd =>
    rw [hp] at hprogress
    cases hprogress with
    | waiting hle =>
      have hasks : o.time + setup.config.delay o.kind ≤ s.now := Nat.le_trans hle hd
      exact .asking ⟨At.last h ⟨List.mem_singleton_self _, hasks⟩, hback.traced.scheduled.lt⟩
  | block hp hs hverdict _ =>
    rw [hp] at hprogress
    cases hprogress with
    | asking hasked =>
      exact .sending (hasked.snoc _) hasked.asks.lt (At.last h (confirms_of_answer hb hv hp hs hverdict))

/-- **Every watch under way is backed** by the history, if no sleep ends before its time. -/
theorem Run.backed (hsleep : ∀ now kind, now + setup.config.delay kind ≤ setup.clock.wake now (setup.config.delay kind))
    (hr : Run setup (State.start setup now source) h s) : ∀ w ∈ s.unfinished, ∃ o, Backed setup h s w o := by
  refine Run.induct (P := fun h s => ∀ w ∈ s.unfinished, ∃ o, Backed setup h s w o) (.start now source)
    (fun w hw => by cases hw) ?_ hr
  intro h t a u seen hrun ht hm ih w hw
  have hbt := ht.booked
  -- the entry of a resource that is being watched is there
  have present {v : Watch} (hv : v ∈ t.unfinished) : t.registry.get? v.resource ≠ none := by
    rw [hbt.entry v hv]
    nofun
  cases hm.came hbt hw with
  | stayed hwt =>
    obtain ⟨o, ho⟩ := ih w hwt
    exact ⟨o, ho.traced.snoc _, ho.delay, ho.kept.snoc (present hwt), ho.progress.snoc hm.now_le _⟩
  | @advanced v phase output hv ha hwv =>
    subst hwv
    obtain ⟨o, ho⟩ := ih v hv
    have hslept : t.now + v.delay ≤ setup.clock.wake t.now v.delay := by
      rw [ho.delay]
      exact hsleep _ _
    have hprogress : Progress setup (h ++ [⟨t, a, u, seen⟩]) u.now v.id v.resource o phase :=
      ho.advance hbt hv ha hslept
    exact ⟨o, ho.traced.snoc _, ho.delay, ho.kept.snoc (present hv), hprogress⟩
  | @first r d hl hg ha hq hu hseen hnew =>
    -- the entry is made in the same moment in which the watch is scheduled
    subst hnew hu ha hseen
    obtain ⟨i, time, hi, htime, hnone⟩ := hrun.pending r hl
    obtain ⟨value, hv, hne⟩ := value_of_hasQuorum hq
    refine ⟨⟨.initial, time, i, h.length, h.length⟩, ⟨hi.snoc _, ?_, ?_, Nat.le_of_lt hi.lt, Nat.le_refl _, ?_⟩, rfl,
      After.last h _ _, .scheduled htime⟩
    · exact At.last h ⟨List.mem_cons_of_mem _ List.mem_cons_self, rfl, rfl, rfl⟩
    · exact At.last h ⟨d, value, hl, hg, rfl, hv, hne, NameMap.get?_insert_self _ _ _⟩
    · exact (hnone.snoc fun x => by simp).through _
  | @again r source' hg hu hseen hnew =>
    -- the entry has been there since some earlier moment
    subst hnew hu hseen
    obtain ⟨c, hc, hkept⟩ := hrun.entry_created r _ hg rfl
    refine ⟨⟨.existing, t.now, h.length, h.length, c⟩, ⟨?_, ?_, hc.snoc _, Nat.le_refl _, Nat.le_of_lt hc.lt, ?_⟩, rfl,
      hkept.snoc ?_, .scheduled (Nat.le_refl _)⟩
    · exact At.last h ⟨List.mem_cons_self, rfl⟩
    · exact At.last h ⟨List.mem_cons_of_mem _ List.mem_cons_self, rfl, rfl, rfl⟩
    · exact Through.refl _ _ _
    · show t.registry.get? r ≠ none
      rw [hg]
      nofun

/-! ## Names on the output -/

/-- The history of a name that a watch puts on the output at a moment: the watch comes from a signal of the resource,
it has asked after its delay, an answer to it has said that the resource may be promoted, and the entry of the
resource has been kept since it was made for a definition with quorum. -/
structure Justified (setup : Setup) (h : List Moment) (n id : Nat) (r : String) (o : Origin) (asked answered : Nat) :
    Prop extends Traced setup h id r o, Asked setup h id r o asked where
  confirmed : At h answered fun m => m.Confirms id r
  asked_lt : asked < answered
  answered_le : answered ≤ n
  recorded : At h n fun m => m.before.registry.get? r = some ⟨true, true⟩
  kept : Through h o.created n fun m => m.before.registry.get? r ≠ none

theorem Justified.snoc {n id k l : Nat} {o : Origin} (hj : Justified setup h n id r o k l) (m : Moment) :
    Justified setup (h ++ [m]) n id r o k l :=
  ⟨hj.toTraced.snoc m, hj.toAsked.snoc m, hj.confirmed.snoc m, hj.asked_lt, hj.answered_le, hj.recorded.snoc m,
    hj.kept.snoc hj.recorded.lt m⟩

/-- A watch that puts its name on the output is justified. -/
theorem Backed.justified {o : Origin} {output : Channel String} (hb : Booked s) (hw : w ∈ s.unfinished)
    (hback : Backed setup h s w o) (he : Ending s w a .notified output) :
    ∃ k l, Justified setup (h ++ [⟨s, a, t, seen⟩]) h.length w.id w.resource o k l := by
  have hentry := hb.entry w hw
  have hrecorded : At (h ++ [⟨s, a, t, seen⟩]) h.length fun m =>
      m.before.registry.get? w.resource = some ⟨true, true⟩ := At.last h hentry
  have hpresent : s.registry.get? w.resource ≠ none := by
    rw [hentry]
    nofun
  have hkept : Through (h ++ [⟨s, a, t, seen⟩]) o.created h.length fun m =>
      m.before.registry.get? w.resource ≠ none := (hback.kept.snoc hpresent).through _
  have hprogress := hback.progress
  cases he with
  | send hp hs hv _ =>
    rw [hp] at hprogress
    cases hprogress with
    | @asking k hasked =>
      refine ⟨k, h.length, ⟨hback.traced.snoc _, hasked.snoc _, ?_, hasked.asks.lt, Nat.le_refl _, hrecorded, hkept⟩⟩
      exact At.last h (confirms_of_answer hb hw hp hs hv)
  | sendLater hp =>
    rw [hp] at hprogress
    cases hprogress with
    | @sending k l hasked hkl hc =>
      exact ⟨k, l, ⟨hback.traced.snoc _, hasked.snoc _, hc.snoc _, hkl, Nat.le_of_lt hc.lt, hrecorded, hkept⟩⟩

theorem Run.justified
    (hsleep : ∀ now kind, now + setup.config.delay kind ≤ setup.clock.wake now (setup.config.delay kind))
    (hr : Run setup (State.start setup now source) h s) :
    ∀ n id r, At h n (Moment.Puts · id r) → ∃ o k l, Justified setup h n id r o k l := by
  refine Run.induct (P := fun h _ => ∀ n id r, At h n (Moment.Puts · id r) → ∃ o k l, Justified setup h n id r o k l)
    (.start now source) (fun n id r hp => absurd hp.lt (Nat.not_lt_zero n)) ?_ hr
  intro h t a u seen hrun ht hm ih n id r hp
  rcases hp.snoc_cases with hold | ⟨hn, hnew⟩
  · obtain ⟨o, k, l, hj⟩ := ih n id r hold
    exact ⟨o, k, l, hj.snoc _⟩
  · subst hn
    obtain ⟨w, hw, output, rfl, rfl, he, -, -⟩ := hm.puts hnew
    obtain ⟨o, ho⟩ := hrun.backed hsleep w hw
    exact ⟨o, ho.justified ht.booked hw he⟩

/-! ## Resources without quorum -/

/-- An entry without quorum stays as it is. -/
theorem Glimpse.barred {more : List Notice} (hg : Glimpse setup r s t more) (hb : Booked s)
    (he : s.registry.get? r = some ⟨false, false⟩) : t.registry.get? r = some ⟨false, false⟩ := by
  cases hg with
  | apart ht => exact ht.trans he
  | coalesce _ he' _ ht => exact ht.trans (he'.symm.trans he)
  | doubt _ he' | record _ he' | watch _ he' | rewatch _ he' => rw [he] at he'; cases he'
  | conclude hw =>
    obtain ⟨w, hw, hwr⟩ := hw
    have := hb.entry w hw
    rw [hwr, he] at this
    cases this

/-- After a moment at which a resource has an entry without quorum its name is not put on the output any more. -/
theorem Run.barred (hr : Run setup (State.start setup now source) h s) :
    ∀ c r e, At h c (fun m => m.after.registry.get? r = some e) → e.hasQuorum = false →
      s.registry.get? r = some ⟨false, false⟩ ∧ After h c fun m => ∀ id, ¬ m.Puts id r := by
  refine Run.induct (P := fun h s => ∀ c r e, At h c (fun m => m.after.registry.get? r = some e) →
      e.hasQuorum = false → s.registry.get? r = some ⟨false, false⟩ ∧ After h c fun m => ∀ id, ¬ m.Puts id r)
    (.start now source) (fun c r e hc => absurd hc.lt (Nat.not_lt_zero c)) ?_ hr
  intro h t a u seen _ ht hm ih c r e hc hq
  rcases hc.snoc_cases with hc | ⟨rfl, hu⟩
  · obtain ⟨he, hafter⟩ := ih c r e hc hq
    refine ⟨(hm.glimpse ht.unrecorded ht.booked r).barred ht.booked he, hafter.snoc fun id hp => ?_⟩
    -- whoever puts the name on the output has an entry with quorum
    obtain ⟨w, hw, -, -, hwr, -⟩ := hm.puts hp
    have := ht.booked.entry w hw
    rw [hwr, he] at this
    cases this
  · have hw : e.isWatched = false := by
      cases hw : e.isWatched with
      | false => rfl
      | true =>
        rw [(hm.booked ht.booked).quorum r e hu hw] at hq
        cases hq
    obtain ⟨hasQuorum, isWatched⟩ := e
    subst hq hw
    exact ⟨hu, After.last h _ _⟩

/-- **Every name on the output is justified** by a watch of its own, if no sleep ends before its time: no watch asks
twice or puts its name on the output twice, and each name has the history that it should have. After a moment at which
a resource has an entry without quorum its name is not put on the output. -/
theorem put_justified
    (hsleep : ∀ now kind, now + setup.config.delay kind ≤ setup.clock.wake now (setup.config.delay kind))
    (hr : Run setup (State.start setup now source) h s) :
    (putters h).Nodup ∧ (askers h).Nodup ∧
    (∀ n id r, At h n (Moment.Puts · id r) → ∃ o asked answered, Justified setup h n id r o asked answered) ∧
    ∀ c n id r e, At h c (fun m => m.after.registry.get? r = some e) → e.hasQuorum = false → c < n →
      ¬ At h n (Moment.Puts · id r) := by
  refine ⟨hr.put_once.nodup, hr.asked_once.nodup, hr.justified hsleep, ?_⟩
  rintro c n id r e hc hq hcn ⟨m, hm, hp⟩
  exact (hr.barred c r e hc hq).2 n m hcn hm id hp

/-- The moves of a monitor that watches a resource and finds it without a user. -/
def losingOne (r : String) : List Action :=
  watchingOne r ++ [.runWatch 0, .elapse 60000, .runWatch 0, .answerReplicas 0 (.ok [Replica.onDrbd r "n" true])]

theorem put_of_losing_one :
    let p := (State.start { monitor := "m" } 0 (signalsOf ["r"])).played { monitor := "m" } (losingOne "r")
    putters p.1 = [0] ∧ ∃ o asked answered, Justified { monitor := "m" } p.1 6 0 "r" o asked answered := by
  intro p
  have hr : Run { monitor := "m" } (State.start { monitor := "m" } 0 (signalsOf ["r"])) p.1 p.2 :=
    run_played (by decide)
  have hsleep (now : Nat) (kind : DelayKind) :
      now + Config.delay {} kind ≤ Clock.thirtyYears.wake now (Config.delay {} kind) := by
    cases kind <;> exact Nat.le_refl _
  have hput : At p.1 6 (Moment.Puts · 0 "r") := ⟨_, rfl, List.mem_cons_self⟩
  exact ⟨by decide, (put_justified hsleep hr).2.2.1 6 0 "r" hput⟩

end ReplicaWatch.Monitor
