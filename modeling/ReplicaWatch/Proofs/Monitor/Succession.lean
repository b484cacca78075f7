import ReplicaWatch.Proofs.Monitor.Bookkeeping

/-!
# Where the watches come from

What a move leaves under way was under way before it, has gone on, or is new (`Came`, `Move.came`); what is asked and
what is put on the output is so by a watch under way (`Move.asks`, `Move.puts`). `Once` is what follows for numbers
that are used up: no number is seen twice, in no run.
-/

namespace ReplicaWatch.Monitor

variable {setup : Setup} {s t u : State} {a : Action} {seen : List Observation} {h : List Moment} {v w : Watch}

/-! ## Watches after a move -/

/-- How a watch that is under way after a move has come there. -/
inductive Came (setup : Setup) (s : State) (a : Action) (t : State) (seen : List Observation) (w : Watch) : Prop
  | stayed : w ∈ s.unfinished → Came setup s a t seen w
  | advanced {v : Watch} {phase : WatchPhase} {output : Channel String} : v ∈ s.unfinished →
      Advance setup s v a phase output seen → w = { v with phase := phase } → Came setup s a t seen w
  /-- The quorum of its resource has been learnt. -/
  | first {r : String} {d : Definition} : s.loop = .consulting r → s.registry.get? r = none →
      a = .answerDefinition (.ok d) → d.hasQuorum = true → t = { s with loop := .listening }.spawning setup r .initial →
      seen = [.notice (.observed r true), .notice (.scheduled r .initial (setup.config.delay .initial))] →
      w = s.nextWatch setup r .initial → Came setup s a t seen w
  /-- Its resource has been seen before. -/
  | again {r : String} {source : Source} : s.registry.get? r = some ⟨true, false⟩ →
      t = (s.taking source).spawning setup r .existing →
      seen = [.ingested ⟨r, true⟩, .notice (.scheduled r .existing (setup.config.delay .existing))] →
      w = s.nextWatch setup r .existing → Came setup s a t seen w

/-- Every watch that is under way after a move has come there. -/
theorem Move.came (hm : Move setup s a t seen) (hb : Booked s) (hw : w ∈ t.unfinished) :
    Came setup s a t seen w := by
  -- three moves leave something under way that was not so before: two schedule a watch, one lets a watch go on
  cases hm with
  | reap =>
    rw [unfinished_eraseP] at hw
    exact .stayed hw
  | @rewatch r source hl hn hg =>
    rcases mem_unfinished_spawning (s := s.taking source) hw with hw | hw
    · exact .stayed hw
    · exact .again hg rfl rfl hw
  | @watch r d hl hs hg hq =>
    rcases mem_unfinished_spawning (s := { s with loop := .listening }) hw with hw | hw
    · exact .stayed hw
    · exact .first hl hg rfl hq rfl rfl hw
  | crashLoop => cases hw
  | @advance x _ phase output _ hx ha =>
    obtain ⟨hw, ho⟩ := mem_unfinished.mp hw
    have hx := (hb.watch?.mp hx).1
    rcases mem_setPhase hw with ⟨hw, -⟩ | ⟨y, hy, hid, rfl⟩
    · exact .stayed (mem_unfinished.mpr ⟨hw, ho⟩)
    · have : y = x := eq_of_id_eq hb.distinct hy hx hid
      rw [this]
      exact .advanced (mem_unfinished.mpr ⟨hx, ha.isOver_eq_false⟩) ha rfl
  | crashWatch =>
    obtain ⟨hw, ho⟩ := mem_unfinished.mp hw
    rcases mem_setPhase hw with ⟨hw, -⟩ | ⟨y, -, -, rfl⟩
    · exact .stayed (mem_unfinished.mpr ⟨hw, ho⟩)
    · cases ho
  | conclude => exact .stayed (mem_unfinished_conclude.mp hw).1
  | _ => exact .stayed hw

theorem Move.nextId_le (hm : Move setup s a t seen) : s.nextId ≤ t.nextId := by
  cases hm with
  | rewatch | watch => exact Nat.le_succ _
  | _ => exact Nat.le_refl _

theorem Move.now_le (hm : Move setup s a t seen) : s.now ≤ t.now := by
  cases hm with
  | elapse ms => exact Nat.le_add_right _ _
  | _ => exact Nat.le_refl _

/-! ## What watches do -/

/-- A watch that asks has waited out its delay. -/
theorem Move.asks {id : Nat} {r : String} (hm : Move setup s a t seen) (ho : .askedReplicas id r ∈ seen) :
    ∃ w ∈ s.unfinished, ∃ deadline, w.id = id ∧ w.resource = r ∧ w.phase = .waiting deadline ∧ deadline ≤ s.now ∧
      t = { s with watches := (s.setPhase w.id .asking).watches, output := s.output } ∧
      seen = [.askedReplicas w.id w.resource] := by
  cases hm with
  | @advance w _ phase output _ hw ha =>
    have hwu : w ∈ s.unfinished := mem_unfinished_of_watch? hw ha.isOver_eq_false
    cases ha with
    | @ask deadline hp _ hd =>
      cases List.mem_singleton.mp ho
      exact ⟨w, hwu, deadline, rfl, rfl, hp, hd, rfl, rfl⟩
    | sleep | block => cases ho
  | reap =>
    obtain ⟨report, h⟩ := eq_notice_of_mem_obituary ho
    cases h
  | conclude =>
    rcases Outcome.mem_seen ho with ⟨h, -⟩ | h
    · cases h
    · cases h
  | _ => simp at ho

/-- A watch that puts its name on the output ends with it. -/
theorem Move.puts {id : Nat} {r : String} (hm : Move setup s a t seen) (ho : .put id r ∈ seen) :
    ∃ w ∈ s.unfinished, ∃ output, w.id = id ∧ w.resource = r ∧ Ending s w a .notified output ∧
      t = s.conclude w .notified output ∧ seen = Outcome.notified.seen w := by
  cases hm with
  | @conclude w _ o output hw hp he =>
    have hwu : w ∈ s.unfinished := mem_unfinished_of_watch? hw hp
    rcases Outcome.mem_seen ho with ⟨h, rfl⟩ | h
    · cases h
      exact ⟨w, hwu, output, rfl, rfl, he, rfl, rfl⟩
    · cases h
  | reap =>
    obtain ⟨report, h⟩ := eq_notice_of_mem_obituary ho
    cases h
  | advance _ ha => cases ha <;> simp at ho
  | _ => simp at ho

/-! ## Numbers are used once -/

/-- The number of the watch that asks, if one does. -/
def Observation.asker? : Observation → Option Nat
  | .askedReplicas id _ => some id
  | _ => none

/-- The number of the watch that puts a name on the output, if one does. -/
def Observation.putter? : Observation → Option Nat
  | .put id _ => some id
  | _ => none

/-- The watches that have asked in a run. -/
def askers (h : List Moment) : List Nat := (observations h).filterMap Observation.asker?

/-- The watches that have put a name on the output in a run. -/
def putters (h : List Moment) : List Nat := (observations h).filterMap Observation.putter?

/-- Numbers that are used up, each once, by watches that were ready to; no watch that is ready has used its own. -/
structure Once (ready : WatchPhase → Prop) (used : List Nat) (s : State) : Prop where
  nodup : used.Nodup
  below : ∀ id ∈ used, id < s.nextId
  fresh : ∀ w ∈ s.unfinished, ready w.phase → w.id ∉ used

/-- A move that uses at most the number of one watch, which is not ready any more then, and makes no other ready. -/
theorem Once.move {ready : WatchPhase → Prop} {used more : List Nat} (ho : Once ready used s) (hb : Booked s)
    (hid : s.nextId ≤ t.nextId)
    (hready : ∀ w ∈ t.unfinished, ready w.phase → (∃ v ∈ s.unfinished, ready v.phase ∧ v.id = w.id) ∨ s.nextId ≤ w.id)
    (hmore : more = [] ∨ ∃ v ∈ s.unfinished, ready v.phase ∧ more = [v.id] ∧
      ∀ w ∈ t.unfinished, ready w.phase → w.id ≠ v.id) :
    Once ready (used ++ more) t := by
  have hfresh : ∀ w ∈ t.unfinished, ready w.phase → w.id ∉ used := by
    intro w hw hr hu
    rcases hready w hw hr with ⟨v, hv, hvr, hvw⟩ | hnew
    · rw [← hvw] at hu
      exact ho.fresh v hv hvr hu
    · have := ho.below w.id hu
      omega
  have hbelow : ∀ id ∈ used, id < t.nextId := fun id hu => Nat.lt_of_lt_of_le (ho.below id hu) hid
  rcases hmore with rfl | ⟨v, hv, hvr, rfl, hleft⟩
  · rw [List.append_nil]
    exact ⟨ho.nodup, hbelow, hfresh⟩
  · constructor
    case nodup =>
      refine List.nodup_append.mpr ⟨ho.nodup, List.pairwise_singleton _ _, ?_⟩
      intro x hx y hy hxy
      rw [List.mem_singleton.mp hy] at hxy
      rw [hxy] at hx
      exact ho.fresh v hv hvr hx
    case below =>
      intro id hu
      rcases List.mem_append.mp hu with hu | hu
      · exact hbelow id hu
      · rw [List.mem_singleton.mp hu]
        exact Nat.lt_of_lt_of_le (hb.below v (mem_unfinished.mp hv).1) hid
    case fresh =>
      intro w hw hr hu
      rcases List.mem_append.mp hu with hu | hu
      · exact hfresh w hw hr hu
      · exact hleft w hw hr (List.mem_singleton.mp hu)

/-- Whether a watch in a phase has not asked yet. -/
def WatchPhase.IsEarly (p : WatchPhase) : Prop := p = .scheduled ∨ ∃ deadline, p = .waiting deadline

/-- A watch that is new has not asked, and one that goes on without asking had not asked before. -/
theorem Came.early (hc : Came setup s a t seen w) (hw : w.phase.IsEarly) :
    (∃ v ∈ s.unfinished, v.phase.IsEarly ∧ v.id = w.id) ∨ s.nextId ≤ w.id := by
  cases hc with
  | stayed h => exact Or.inl ⟨w, h, hw, rfl⟩
  | @advanced v phase output hv ha h =>
    subst h
    cases ha with
    | sleep hp => exact Or.inl ⟨v, hv, Or.inl hp, rfl⟩
    | ask => rcases hw with hw | ⟨_, hw⟩ <;> cases hw
    | block => rcases hw with hw | ⟨_, hw⟩ <;> cases hw
  | first _ _ _ _ _ _ h => rw [h]; exact Or.inr (Nat.le_refl _)
  | again _ _ _ h => rw [h]; exact Or.inr (Nat.le_refl _)

theorem Came.id (hc : Came setup s a t seen w) : (∃ v ∈ s.unfinished, v.id = w.id) ∨ s.nextId ≤ w.id := by
  cases hc with
  | stayed h => exact Or.inl ⟨w, h, rfl⟩
  | advanced hv _ h => rw [h]; exact Or.inl ⟨_, hv, rfl⟩
  | first _ _ _ _ _ _ h => rw [h]; exact Or.inr (Nat.le_refl _)
  | again _ _ _ h => rw [h]; exact Or.inr (Nat.le_refl _)

theorem filterMap_eq_nil_or {α β : Type} (f : α → Option β) (l : List α) :
    l.filterMap f = [] ∨ ∃ x ∈ l, ∃ y, f x = some y := by
  cases hl : l.filterMap f with
  | nil => exact Or.inl rfl
  | cons y rest =>
    have hy : y ∈ l.filterMap f := by rw [hl]; exact List.mem_cons_self
    obtain ⟨x, hx, hxy⟩ := List.mem_filterMap.mp hy
    exact Or.inr ⟨x, hx, y, hxy⟩

/-- **No watch asks twice.** -/
theorem Run.asked_once {now : Nat} {source : Source} (hr : Run setup (State.start setup now source) h s) :
    Once WatchPhase.IsEarly (askers h) s := by
  refine Run.induct (P := fun h s => Once WatchPhase.IsEarly (askers h) s) (.start now source)
    ⟨List.nodup_nil, nofun, nofun⟩ ?_ hr
  intro h t a u seen _ ht hm ho
  unfold askers
  rw [observations_append, List.filterMap_append, observations_singleton]
  refine ho.move ht.booked hm.nextId_le (fun w hw he => (hm.came ht.booked hw).early he) ?_
  rcases filterMap_eq_nil_or Observation.asker? seen with hn | ⟨o, hos, id, hid⟩
  · exact Or.inl hn
  · refine Or.inr ?_
    cases o with
    | askedReplicas id r =>
      obtain ⟨w, hw, deadline, -, -, hp, -, rfl, rfl⟩ := hm.asks hos
      refine ⟨w, hw, Or.inr ⟨deadline, hp⟩, rfl, ?_⟩
      intro v hv he
      have hmem : v ∈ (t.setPhase w.id .asking).watches := (mem_unfinished.mp hv).1
      rcases mem_setPhase hmem with ⟨-, hne⟩ | ⟨x, -, -, rfl⟩
      · exact hne
      · rcases he with he | ⟨_, he⟩ <;> cases he
    | _ => cases hid

/-- **No watch puts its name on the output twice.** -/
theorem Run.put_once {now : Nat} {source : Source} (hr : Run setup (State.start setup now source) h s) :
    Once (fun _ => True) (putters h) s := by
  refine Run.induct (P := fun h s => Once (fun _ => True) (putters h) s) (.start now source)
    ⟨List.nodup_nil, nofun, nofun⟩ ?_ hr
  intro h t a u seen _ ht hm ho
  unfold putters
  rw [observations_append, List.filterMap_append, observations_singleton]
  refine ho.move ht.booked hm.nextId_le ?_ ?_
  · intro w hw _
    rcases (hm.came ht.booked hw).id with ⟨v, hv, hvw⟩ | hnew
    · exact Or.inl ⟨v, hv, trivial, hvw⟩
    · exact Or.inr hnew
  · rcases filterMap_eq_nil_or Observation.putter? seen with hn | ⟨o, hos, id, hid⟩
    · exact Or.inl hn
    · refine Or.inr ?_
      cases o with
      | put id r =>
        obtain ⟨w, hw, output, -, -, -, rfl, rfl⟩ := hm.puts hos
        exact ⟨w, hw, trivial, rfl, fun v hv _ => (mem_unfinished_conclude.mp hv).2⟩
      | _ => cases hid

end ReplicaWatch.Monitor
