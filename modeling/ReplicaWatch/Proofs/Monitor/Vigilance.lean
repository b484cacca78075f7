import ReplicaWatch.Proofs.Monitor.History
import ReplicaWatch.Proofs.Monitor.Lifecycle
import ReplicaWatch.Proofs.Monitor.Shutdown
import ReplicaWatch.Proofs.Monitor.Succession

/-!
# No positive signal is lost

A signal that comes while its resource is being watched is dropped, for the watch will look at the replicas anyhow. It
does, as long as no question crashes: the flag of an entry never outlives the watch that it stands for
(`Run.attended`), and a watch ends with an answer, with its name, or with the monitor (`Ending.account`).

- `Calm`, `Truthful`: the runs in question; `Moment.Ingests`, `Moment.Ends`: what happens in them;
- `Move.stays_or_ends`: a watch under way goes on, or its end is the move;
- `State.Attended`: every flag has its watch, kept by every move before shutdown (`Move.attended`);
- `signals_not_lost`: what becomes of a signal in all runs.
-/

namespace ReplicaWatch.Monitor

variable {setup : Setup} {s t : State} {a : Action} {seen : List Observation} {h : List Moment} {v w : Watch}
  {m : Moment} {r : String} {now : Nat} {source : Source}

/-! ## The runs and what happens in them -/

/-- Whether a question to the cluster crashes. -/
def Action.isCrash : Action → Bool
  | crashLoop _ => true
  | crashWatch .. => true
  | _ => false

/-- No question crashes. -/
def Calm (h : List Moment) : Prop := ∀ m ∈ h, m.action.isCrash = false

/-- Every answer to a watch is what the cluster has to say at the moment of the answer. -/
def Truthful (cluster : Nat → String → Except BackendError (List Replica)) (h : List Moment) : Prop :=
  ∀ i m, h[i]? = some m → ∀ w answer, m.before.watch? w.id = some w → m.action = .answerReplicas w.id answer →
    answer = cluster i w.resource

namespace Moment

/-- A positive signal of a resource is dealt with to the end, at once or with the answer to a question about it. -/
def Ingests (m : Moment) (r : String) : Prop :=
  (.ingested ⟨r, true⟩ ∈ m.seen ∨ m.before.loop = .consulting r ∧ m.before.isStopping = false) ∧
    m.after.loop = .listening

/-- The watch with a number ends. -/
def Ends (m : Moment) (id : Nat) : Prop :=
  (∃ w ∈ m.before.unfinished, w.id = id) ∧ ∀ w ∈ m.after.unfinished, w.id ≠ id

/-- A watch of a resource is cancelled because of shutdown. -/
def Cancels (m : Moment) (r : String) : Prop := m.before.isStopping = true ∧ m.seen = [.notice (.cancelled r)]

/-- A watch puts its name on the output, or finds that nobody takes it. -/
def Sends (m : Moment) (id : Nat) (r : String) : Prop :=
  .put id r ∈ m.seen ∨ .notice (.userLost r false) ∈ m.seen

end Moment

/-! ## How a watch ends -/

theorem mem_unfinished_spawning_of_mem (hw : w ∈ s.unfinished) (q : String) (kind : DelayKind) :
    w ∈ (s.spawning setup q kind).unfinished := by
  obtain ⟨hw, ho⟩ := mem_unfinished.mp hw
  exact mem_unfinished.mpr ⟨List.mem_append_left _ hw, ho⟩

/-- A watch that is under way before a move without a crash is so after it, or the move is its end. -/
theorem Move.stays_or_ends (hm : Move setup s a t seen) (ha : a.isCrash = false) (hb : Booked s)
    (hw : w ∈ s.unfinished) :
    (∃ v ∈ t.unfinished, v.id = w.id ∧ v.resource = w.resource) ∨
      ∃ o output, Ending s w a o output ∧ t = s.conclude w o output ∧ seen = o.seen w := by
  have stays (ht : w ∈ t.unfinished) : ∃ v ∈ t.unfinished, v.id = w.id ∧ v.resource = w.resource := ⟨w, ht, rfl, rfl⟩
  cases hm with
  | reap => exact Or.inl (stays (by rwa [unfinished_eraseP]))
  | @rewatch q source => exact Or.inl (stays (mem_unfinished_spawning_of_mem (s := s.taking source) hw q _))
  | @watch q => exact Or.inl (stays (mem_unfinished_spawning_of_mem (s := { s with loop := .listening }) hw q _))
  | crashLoop | crashWatch => cases ha
  | @advance x _ phase output _ hx he =>
    have ho : phase.isOver = false := by cases he <;> rfl
    obtain ⟨hw, hwo⟩ := mem_unfinished.mp hw
    by_cases hid : w.id = x.id
    · refine Or.inl ⟨{ w with phase := phase }, mem_unfinished.mpr ⟨?_, ho⟩, rfl, rfl⟩
      exact (mem_setPhase_iff s x.id phase).mpr ⟨w, hw, if_pos hid⟩
    · exact Or.inl (stays (mem_unfinished.mpr ⟨(mem_setPhase_iff s x.id phase).mpr ⟨w, hw, if_neg hid⟩, hwo⟩))
  | @conclude x _ o output hx ho he =>
    by_cases hid : w.id = x.id
    · have : w = x := eq_of_id_eq hb.distinct (mem_unfinished.mp hw).1 (hb.watch?.mp hx).1 hid
      subst this
      exact Or.inr ⟨o, output, he, rfl, rfl⟩
    · exact Or.inl (stays (mem_unfinished_conclude.mpr ⟨hw, hid⟩))
  | _ => exact Or.inl (stays hw)

/-- **The end of a watch** is a cancellation, an answer about the replicas, or a name that is sent. -/
theorem Ending.account {o : Outcome} {output : Channel String} (he : Ending m.before w m.action o output)
    (hseen : m.seen = o.seen w) :
    m.Cancels w.resource ∨ (∃ answer, m.action = .answerReplicas w.id answer) ∨ m.Sends w.id w.resource := by
  unfold Moment.Cancels Moment.Sends
  rw [hseen]
  generalize m.action = a at he
  cases he with
  | cancel hs | withdraw hs => exact Or.inl ⟨hs, rfl⟩
  | sendLater => exact Or.inr (Or.inr (Or.inl (List.mem_cons_self)))
  | refuseLater => exact Or.inr (Or.inr (Or.inr (List.mem_singleton_self _)))
  | vanish | mismatch | settle | send | refuse | fail => exact Or.inr (Or.inl ⟨_, rfl⟩)

/-! ## Every flag has its watch -/

/-- The resource of every entry that is marked as watched is being watched. -/
def State.Attended (s : State) : Prop :=
  ∀ r e, s.registry.get? r = some e → e.isWatched = true → s.IsWatching r

/-- A flag that is set was so before, or its watch is new. -/
theorem Move.flagged (hm : Move setup s a t seen) {e : Record} (ht : t.registry.get? r = some e)
    (he : e.isWatched = true) :
    (∃ d, s.registry.get? r = some d ∧ d.isWatched = true) ∨ t.IsWatching r := by
  have spawned {x : State} {q : String} {kind : DelayKind}
      (ht : (x.registry.insert q ⟨true, true⟩).get? r = some e) :
      (∃ d, x.registry.get? r = some d ∧ d.isWatched = true) ∨ (x.spawning setup q kind).IsWatching r := by
    rcases get?_insert_some ht with ⟨rfl, -⟩ | ht
    · refine Or.inr ⟨x.nextWatch setup q kind, mem_unfinished.mpr ⟨?_, rfl⟩, rfl⟩
      exact List.mem_append_right _ (List.mem_singleton_self _)
    · exact Or.inl ⟨e, ht, he⟩
  cases hm with
  | @rewatch q source => exact spawned (x := s.taking source) ht
  | @watch q => exact spawned (x := { s with loop := .listening }) ht
  | record =>
    rcases get?_insert_some ht with ⟨-, rfl⟩ | ht
    · cases he
    · exact Or.inl ⟨e, ht, he⟩
  | conclude =>
    obtain ⟨d, hd, -, hkept⟩ := Outcome.get?_registry_some ht
    exact Or.inl ⟨d, hd, hkept he⟩
  | _ => exact Or.inl ⟨e, ht, he⟩

/-- A watch that ends leaves the flag of its entry set only if the monitor stops. -/
theorem Ending.isStopping_of_flag {o : Outcome} {output : Channel String} (he : Ending s w a o output) {e : Record}
    (ht : (o.registry s.registry w.resource).get? w.resource = some e) (hf : e.isWatched = true) :
    (s.conclude w o output).isStopping = true := by
  have finished (ht : (s.registry.finishWatch w.resource).get? w.resource = some e) : e.isWatched = false := by
    rw [Registry.get?_finishWatch, if_pos rfl] at ht
    obtain ⟨d, -, rfl⟩ := Option.map_eq_some_iff.mp ht
    rfl
  have hstop (hs : s.isStopping = true) : (s.conclude w .cancelled output).isStopping = true := by
    show (s.cause.or none).isSome = true
    rw [Option.or_none]
    exact hs
  cases he with
  | cancel hs | withdraw hs => exact hstop hs
  | fail => simp [State.conclude, State.isStopping, Outcome.cause?]
  | vanish | mismatch =>
    have ht : (s.registry.remove w.resource).get? w.resource = some e := ht
    rw [Registry.get?_remove, if_pos rfl] at ht
    cases ht
  | settle | send | sendLater | refuse | refuseLater =>
    rw [finished ht] at hf
    cases hf

/-- Every move without a crash keeps the flags attended, until the monitor stops. -/
theorem Move.attended (hm : Move setup s a t seen) (ha : a.isCrash = false) (hb : Booked s) (hs : s.Attended)
    (hgoing : t.isStopping = false) : t.Attended := by
  intro r e ht he
  rcases hm.flagged ht he with ⟨d, hd, hdw⟩ | hwatching
  · obtain ⟨w, hw, rfl⟩ := hs r d hd hdw
    rcases hm.stays_or_ends ha hb hw with ⟨v, hv, -, hvr⟩ | ⟨o, output, hend, rfl, -⟩
    · exact ⟨v, hv, hvr⟩
    · rw [hend.isStopping_of_flag ht he] at hgoing
      cases hgoing
  · exact hwatching

theorem Calm.of_append {k : List Moment} (hc : Calm (h ++ k)) : Calm h := fun m hm =>
  hc m (List.mem_append_left _ hm)

/-- In a run in which no question crashes, every flag has its watch before shutdown. -/
theorem Run.attended (hr : Run setup (State.start setup now source) h s) (hc : Calm h) (hgoing : s.isStopping = false) :
    s.Attended := by
  refine Run.induct (P := fun h s => Calm h → s.isStopping = false → s.Attended) (.start now source) ?_ ?_ hr hc hgoing
  · intro _ _ r e he
    have hn : (State.start setup now source).registry.get? r = none := NameMap.get?_empty r
    rw [hn] at he
    cases he
  · intro h t a u seen _ ht hm ih hc hu
    have htg : t.isStopping = false := by
      cases hts : t.isStopping with
      | false => rfl
      | true =>
        rw [hm.isStopping hts] at hu
        cases hu
    exact hm.attended (hc _ (List.mem_append_right _ (List.mem_singleton_self _))) ht.booked (ih hc.of_append htg) hu

/-- Before shutdown, a resource is marked as watched exactly while it is being watched. -/
theorem Run.isWatching_iff (hr : Run setup (State.start setup now source) h s) (hc : Calm h)
    (hgoing : s.isStopping = false) (r : String) :
    (∃ e, s.registry.get? r = some e ∧ e.isWatched = true) ↔ s.IsWatching r := by
  constructor
  · rintro ⟨e, he, hw⟩
    exact hr.attended hc hgoing r e he hw
  · rintro ⟨w, hw, rfl⟩
    exact ⟨_, (hr.reachable (.start now source)).booked.entry w hw, rfl⟩

/-! ## What a signal leaves behind -/

/-- What a move makes of a positive signal that it takes, and what is seen of it. -/
inductive Admits (setup : Setup) (s t : State) (r : String) : List Observation → Prop
  | coalesced {e : Record} : s.registry.get? r = some e → e.isWatched = true → t.registry = s.registry →
      Admits setup s t r [.ingested ⟨r, true⟩, .notice (.coalesced r)]
  | passedOver : s.registry.get? r = some ⟨false, false⟩ → t.registry = s.registry →
      Admits setup s t r [.ingested ⟨r, true⟩]
  | rewatched : s.registry.get? r = some ⟨true, false⟩ → t.registry.get? r = some ⟨true, true⟩ →
      Admits setup s t r [.ingested ⟨r, true⟩, .notice (.scheduled r .existing (setup.config.delay .existing))]
  | asked : s.registry.get? r = none → t.loop = .consulting r →
      Admits setup s t r [.ingested ⟨r, true⟩, .askedDefinition r]

/-- A positive signal is taken before shutdown, and admitted. -/
theorem Move.admits (hm : Move setup s a t seen) (ho : .ingested ⟨r, true⟩ ∈ seen) :
    s.isStopping = false ∧ t.isStopping = false ∧ Admits setup s t r seen := by
  cases hm with
  | coalesce hl _ hg hw =>
    obtain rfl : r = _ := by simpa using ho
    exact ⟨hl.going, hl.going, .coalesced hg hw rfl⟩
  | passOver hl _ hg =>
    obtain rfl : r = _ := by simpa using ho
    exact ⟨hl.going, hl.going, .passedOver hg rfl⟩
  | rewatch hl _ hg =>
    obtain rfl : r = _ := by simpa using ho
    exact ⟨hl.going, hl.going, .rewatched hg (NameMap.get?_insert_self _ _ _)⟩
  | consult hl _ hg =>
    obtain rfl : r = _ := by simpa using ho
    exact ⟨hl.going, hl.going, .asked hg rfl⟩
  | reap =>
    obtain ⟨report, h⟩ := eq_notice_of_mem_obituary ho
    cases h
  | conclude => rcases Outcome.mem_seen ho with ⟨h, -⟩ | h <;> cases h
  | advance _ ha => cases ha <;> simp at ho
  | _ => simp at ho

/-- A question that is answered leaves a resource that has quorum marked as watched. -/
theorem Move.isWatched_of_answer (hm : Move setup s a t seen) (hu : s.Unrecorded) (hl : s.loop = .consulting r)
    (hs : s.isStopping = false) (ht : t.loop = .listening) {e : Record} (he : t.registry.get? r = some e)
    (hq : e.hasQuorum = true) : e.isWatched = true ∧ t.isStopping = false := by
  have other {P : Prop} {l : LoopPhase} (hls : s.loop = l) (hne : l ≠ .consulting r) : P :=
    absurd (hls.symm.trans hl) hne
  have same {P : Prop} (hlt : t.loop = s.loop) : P := by cases hl.symm.trans (hlt.symm.trans ht)
  cases hm with
  | begin hls => exact other hls nofun
  | ignore hls | coalesce hls | passOver hls | rewatch hls => exact other hls.loop nofun
  | abandon _ hstop =>
    rw [hs] at hstop
    cases hstop
  | shrug => cases (hu r hl).symm.trans he
  | record hls =>
    cases hls.symm.trans hl
    cases (NameMap.get?_insert_self _ _ _).symm.trans he
    cases hq
  | watch hls =>
    cases hls.symm.trans hl
    cases (NameMap.get?_insert_self _ _ _).symm.trans he
    exact ⟨rfl, hs⟩
  | heed | consult | endStream | stop | crashLoop => cases ht
  | _ => exact same rfl

/-- A positive signal leaves a resource that has quorum marked as watched, and the monitor going. -/
theorem Move.isWatched_of_ingests (hm : Move setup s a t seen) (hu : s.Unrecorded)
    (hi : Moment.Ingests ⟨s, a, t, seen⟩ r) {e : Record} (he : t.registry.get? r = some e)
    (hq : e.hasQuorum = true) : e.isWatched = true ∧ t.isStopping = false := by
  obtain ⟨htaken | ⟨hl, hs⟩, ht⟩ := hi
  · obtain ⟨-, hgoing, hadmits⟩ := hm.admits htaken
    refine ⟨?_, hgoing⟩
    cases hadmits with
    | coalesced hg hw htr =>
      cases hg.symm.trans (htr ▸ he)
      exact hw
    | passedOver hg htr =>
      cases hg.symm.trans (htr ▸ he)
      cases hq
    | rewatched _ hg =>
      cases hg.symm.trans he
      rfl
    | asked _ hl => cases hl.symm.trans ht
  · exact hm.isWatched_of_answer hu hl hs ht he hq

/-- The only watch of a resource. -/
theorem Booked.filter_eq_singleton (hb : Booked s) (hw : w ∈ s.unfinished) :
    (s.unfinished.filter fun v => v.resource = w.resource) = [w] := by
  have hmem : w ∈ s.unfinished.filter fun v => v.resource = w.resource := List.mem_filter.mpr ⟨hw, by simp⟩
  have hle := hb.length_unfinished_le w.resource
  obtain ⟨v, hv⟩ := List.length_eq_one_iff.mp (Nat.le_antisymm hle (List.length_pos_of_mem hmem))
  rw [hv] at hmem ⊢
  rw [List.mem_singleton.mp hmem]

/-- A watch has the name that it has been given with its number. -/
theorem Came.resource_of_id (hc : Came setup s a t seen v) {id : Nat} (hid : v.id = id) (hlt : id < s.nextId)
    (hs : ∀ x ∈ s.unfinished, x.id = id → x.resource = r) : v.resource = r := by
  cases hc with
  | stayed hv => exact hs v hv hid
  | @advanced x phase output hx _ h =>
    subst h
    exact hs x hx hid
  | first _ _ _ _ _ _ h | again _ _ _ h =>
    rw [h] at hid
    exact absurd hid (Nat.ne_of_gt hlt)

/-- A number stays with its resource. -/
theorem Run.resource_of_id (hs : Reachable setup s) (hw : w ∈ s.unfinished) (hr : Run setup s h t)
    (hv : v ∈ t.unfinished) (hid : v.id = w.id) : v.resource = w.resource := by
  have hlt : w.id < s.nextId := hs.booked.below w (mem_unfinished.mp hw).1
  refine (Run.induct (P := fun _ t => w.id < t.nextId ∧ ∀ x ∈ t.unfinished, x.id = w.id → x.resource = w.resource) hs
    ⟨hlt, fun x hx hid => ?_⟩ ?_ hr).2 v hv hid
  · rw [eq_of_id_eq hs.booked.distinct (mem_unfinished.mp hx).1 (mem_unfinished.mp hw).1 hid]
  · rintro h t a u seen _ ht hm ⟨hlt, ih⟩
    exact ⟨Nat.lt_of_lt_of_le hlt hm.nextId_le, fun x hx hid => (hm.came ht.booked hx).resource_of_id hid hlt ih⟩

/-- **No positive signal is lost.** Take a run in which no question crashes and every answer about replicas is what
the cluster has to say at that moment. Whenever a positive signal of a resource has been dealt with before shutdown
and the resource has quorum, there is exactly one watch of it under way, new or old; and if that ends, it is cancelled
because of shutdown, or looks at the replicas after the signal, or sends its name after the signal. Before shutdown a
resource is marked as watched exactly while it is being watched. -/
theorem signals_not_lost {cluster : Nat → String → Except BackendError (List Replica)}
    (hr : Run setup (State.start setup now source) h s) (hc : Calm h) (htrue : Truthful cluster h) :
    (∀ i (m : Moment) r (e : Record), h[i]? = some m → m.Ingests r → m.after.registry.get? r = some e →
      e.hasQuorum = true →
      ∃ w, (m.after.unfinished.filter fun v => v.resource = r) = [w] ∧
        ∀ j (n : Moment), i < j → h[j]? = some n → n.Ends w.id →
          n.Cancels r ∨ n.action = .answerReplicas w.id (cluster j r) ∨ n.Sends w.id r) ∧
    (s.isStopping = false →
      ∀ r, (∃ e, s.registry.get? r = some e ∧ e.isWatched = true) ↔ s.IsWatching r) := by
  refine ⟨fun i m r e hi hm he hq => ?_, hr.isWatching_iff hc⟩
  have hstart : Reachable setup (State.start setup now source) := .start now source
  have hmem : m ∈ h := List.mem_of_getElem? hi
  obtain ⟨hbefore, hmove⟩ := hr.move_of_mem hstart hmem
  obtain ⟨hf, hgoing⟩ := hmove.isWatched_of_ingests hbefore.unrecorded hm he hq
  -- the run is calm up to the signal, so the flag of the entry has its watch
  obtain ⟨k, l, rfl, hk⟩ := hr.upTo hmem
  have hafter : Reachable setup m.after := hk.reachable hstart
  obtain ⟨w, hw, rfl⟩ := hk.attended hc.of_append hgoing r e he hf
  refine ⟨w, hafter.booked.filter_eq_singleton hw, fun j n hij hj hend => ?_⟩
  -- the watch that ends with this number is that one
  have hnmem : n ∈ k ++ l := List.mem_of_getElem? hj
  obtain ⟨hn, hnmove⟩ := hr.move_of_mem hstart hnmem
  obtain ⟨⟨v, hv, hvid⟩, hgone⟩ := hend
  obtain ⟨_, hbetween⟩ := hr.between hi hj hij
  have hvr : v.resource = w.resource := hbetween.resource_of_id hafter hw hv hvid
  rcases hnmove.stays_or_ends (hc n hnmem) hn.booked hv with ⟨x, hx, hxid, -⟩ | ⟨o, output, hending, -, hseen⟩
  · exact absurd (hxid.trans hvid) (hgone x hx)
  have hwatch : n.before.watch? v.id = some v := hn.booked.watch?.mpr ⟨(mem_unfinished.mp hv).1, rfl⟩
  rcases hending.account hseen with hcancel | ⟨answer, ha⟩ | hsend
  · exact Or.inl (hvr ▸ hcancel)
  · rw [htrue j n hj v answer hwatch ha, hvid, hvr] at ha
    exact Or.inr (Or.inl ha)
  · exact Or.inr (Or.inr (hvr ▸ hvid ▸ hsend))

/-- A monitor that takes a second signal of a resource while it asks about the replicas. -/
def signalledTwice (r : String) : List Action :=
  watchingOne r ++ [.runWatch 0, .elapse 60000, .runWatch 0, .runLoop, .answerReplicas 0 (.ok [])]

/-- A cluster in which a resource has no user up to a moment. -/
def recoveringAt (i j : Nat) (r : String) : Except BackendError (List Replica) :=
  .ok (if j < i then [Replica.onDrbd r "n" true] else [])

theorem second_signal_answered :
    let p := (State.start { monitor := "m" } 0 (signalsOf ["r", "r"])).played { monitor := "m" } (signalledTwice "r")
    At p.1 6 (fun m => m.seen = [.ingested ⟨"r", true⟩, .notice (.coalesced "r")] ∧
      ∃ w, w.id = 0 ∧ (m.after.unfinished.filter fun v => v.resource = "r") = [w]) ∧
    At p.1 7 fun n => n.Ends 0 ∧ n.action = .answerReplicas 0 (recoveringAt 7 7 "r") := by
  intro p
  have hr : Run { monitor := "m" } (State.start { monitor := "m" } 0 (signalsOf ["r", "r"])) p.1 p.2 :=
    run_played (by decide)
  have hcalm : Calm p.1 := by unfold Calm; decide
  have htrue : Truthful (recoveringAt 7) p.1 := by
    have hactions : p.1.map Moment.action = signalledTwice "r" := rfl
    intro i m hm w answer _ ha
    generalize w.id = id at ha
    have hi : (signalledTwice "r")[i]? = some (.answerReplicas id answer) := by
      rw [← hactions, List.getElem?_map, hm, ← ha]
      rfl
    match i, hi with
    | 7, hi => cases hi; rfl
    | 0, hi | 1, hi | 2, hi | 3, hi | 4, hi | 5, hi | 6, hi | n + 8, hi => cases hi
  obtain ⟨m, hm, hseen, hloop, hentry, hids⟩ : At p.1 6 fun m =>
      m.seen = [.ingested ⟨"r", true⟩, .notice (.coalesced "r")] ∧ m.after.loop = .listening ∧
        m.after.registry.get? "r" = some ⟨true, true⟩ ∧ m.after.unfinished.map Watch.id = [0] :=
    ⟨_, rfl, rfl, rfl, rfl, rfl⟩
  obtain ⟨n, hn, hends, hgoing, hsettled⟩ : At p.1 7 fun n =>
      n.Ends 0 ∧ n.before.isStopping = false ∧ n.seen = [.notice (.settled "r")] :=
    ⟨_, rfl, ⟨⟨_, List.mem_cons_self, rfl⟩, nofun⟩, rfl, rfl⟩
  have hingests : m.Ingests "r" := ⟨Or.inl (by rw [hseen]; exact List.mem_cons_self), hloop⟩
  obtain ⟨w, hw, hlater⟩ := (signals_not_lost hr hcalm htrue).1 6 m "r" _ hm hingests hentry rfl
  have hmem : w ∈ m.after.unfinished := by
    refine List.mem_of_mem_filter (p := fun v => decide (v.resource = "r")) ?_
    rw [hw]
    exact List.mem_singleton_self w
  have hid : w.id = 0 := by
    have := List.mem_map_of_mem (f := Watch.id) hmem
    rw [hids] at this
    exact List.mem_singleton.mp this
  refine ⟨⟨m, hm, hseen, w, hid, hw⟩, n, hn, hends, ?_⟩
  rcases hlater 7 n (by decide) hn (hid ▸ hends) with ⟨hstop, -⟩ | ha | hsend
  · rw [hgoing] at hstop
    cases hstop
  · rw [← hid]
    exact ha
  · rw [Moment.Sends, hsettled] at hsend
    simp at hsend

end ReplicaWatch.Monitor
