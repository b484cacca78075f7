import ReplicaWatch.Proofs.Monitor.Run

/-!
# The registry knows of every watch

A watch is scheduled by the loop and ended by itself, with any number of other steps in between; the registry is what
they share. `Booked` is what every move keeps of the two (`Move.booked`): no two watches have one number, no two of a
resource are under way, and the entry of a resource that is being watched says so.

- `watch?_eq_some_iff`, `mem_unfinished`, `mem_unfinished_conclude`: the watches of a state; a watch that changes its
  phase may change its place too (`watches_setPhase_perm`);
- `Booked`, and what keeps it: a watch that changes its phase (`Booked.rephase`), one that ends (`Booked.conclude`),
  one that is scheduled (`Booked.spawning`);
- `unfinished_single_and_recorded`: what every reachable state has of it.
-/

namespace ReplicaWatch.Monitor

variable {setup : Setup} {s t : State} {a : Action} {seen : List Observation} {v w : Watch}

/-! ## The watches of a state -/

theorem mem_unfinished : w ∈ s.unfinished ↔ w ∈ s.watches ∧ w.phase.isOver = false := by
  simp [State.unfinished]

theorem eq_of_id_eq : ∀ {l : List Watch}, l.Pairwise (fun v w => v.id ≠ w.id) → v ∈ l → w ∈ l → v.id = w.id → v = w
  | [], _, hv, _, _ => by cases hv
  | x :: l, hl, hv, hw, h => by
    have hx : ∀ y ∈ l, x.id ≠ y.id := fun y hy => List.rel_of_pairwise_cons hl hy
    rcases List.mem_cons.mp hv with rfl | hvl <;> rcases List.mem_cons.mp hw with rfl | hwl
    · rfl
    · exact absurd h (hx w hwl)
    · exact absurd h.symm (hx v hvl)
    · exact eq_of_id_eq hl.tail hvl hwl h

/-- A watch is the only one with its number. -/
theorem filter_id_eq {l : List Watch} (hl : l.Pairwise fun v w => v.id ≠ w.id) (hw : w ∈ l) :
    (l.filter fun v => v.id = w.id) = [w] := by
  have hnodup : l.Nodup := hl.imp fun hne heq => hne (congrArg Watch.id heq)
  have hsame : ∀ v ∈ l, decide (v.id = w.id) = decide (v = w) := fun v hv =>
    decide_eq_decide.mpr ⟨eq_of_id_eq hl hv hw, congrArg Watch.id⟩
  rw [List.filter_congr hsame, List.filter_eq, hnodup.count, if_pos hw, List.replicate_one]

theorem watch?_eq_some_iff (hl : s.watches.Pairwise fun v w => v.id ≠ w.id) {id : Nat} :
    s.watch? id = some w ↔ w ∈ s.watches ∧ w.id = id := by
  constructor
  · exact fun h => ⟨List.mem_of_find?_eq_some h, id_of_watch? h⟩
  · rintro ⟨hw, rfl⟩
    cases hf : s.watch? w.id with
    | none => exact absurd (List.find?_eq_none.mp hf w hw) (by simp)
    | some v => rw [eq_of_id_eq hl (List.mem_of_find?_eq_some hf) hw (id_of_watch? hf)]

/-- A watch that takes part in a move and is not over is under way. -/
theorem mem_unfinished_of_watch? {id : Nat} (hw : s.watch? id = some w) (ho : w.phase.isOver = false) :
    w ∈ s.unfinished :=
  mem_unfinished.mpr ⟨List.mem_of_find?_eq_some hw, ho⟩

/-- The watches after one of them is over: the others, and then that one. -/
theorem watches_setPhase_of_isOver (s : State) (id : Nat) {phase : WatchPhase} (hp : phase.isOver = true) :
    (s.setPhase id phase).watches =
      s.watches.filter (fun w => w.id ≠ id) ++
        (s.watches.filter fun w => w.id = id).map fun w => { w with phase := phase } := by
  unfold State.setPhase
  dsimp only
  -- a watch keeps its number, so the others can be told apart after the change as before it
  have hid (w : Watch) : (if w.id = id then { w with phase := phase } else w).id = w.id := by split <;> rfl
  rw [if_pos hp, List.filter_map, List.filter_map]
  simp only [Function.comp_def, hid]
  congr 1
  · refine (List.map_congr_left fun w hw => ?_).trans (List.map_id _)
    exact if_neg (by simpa using (List.mem_filter.mp hw).2)
  · refine List.map_congr_left fun w hw => ?_
    exact if_pos (by simpa using (List.mem_filter.mp hw).2)

theorem watches_setPhase_of_not_isOver (s : State) (id : Nat) {phase : WatchPhase} (hp : phase.isOver = false) :
    (s.setPhase id phase).watches = s.watches.map fun w => if w.id = id then { w with phase := phase } else w :=
  if_neg (by rw [hp]; exact Bool.false_ne_true)

/-- The watches after one of them has changed its phase, in whatever order. -/
theorem watches_setPhase_perm (s : State) (id : Nat) (phase : WatchPhase) :
    (s.setPhase id phase).watches.Perm (s.watches.map fun w => if w.id = id then { w with phase := phase } else w) := by
  unfold State.setPhase
  dsimp only
  split
  · refine List.perm_append_comm.trans ?_
    simpa using List.filter_append_perm (fun w : Watch => w.id = id) _
  · exact .refl _

theorem length_setPhase (s : State) (id : Nat) (phase : WatchPhase) :
    (s.setPhase id phase).watches.length = s.watches.length :=
  (watches_setPhase_perm s id phase).length_eq.trans (List.length_map _)

theorem mem_setPhase_iff (s : State) (id : Nat) (phase : WatchPhase) : v ∈ (s.setPhase id phase).watches ↔
    ∃ w ∈ s.watches, (if w.id = id then { w with phase := phase } else w) = v :=
  (watches_setPhase_perm s id phase).mem_iff.trans List.mem_map

theorem mem_setPhase {id : Nat} {phase : WatchPhase} (hv : v ∈ (s.setPhase id phase).watches) :
    v ∈ s.watches ∧ v.id ≠ id ∨ ∃ w ∈ s.watches, w.id = id ∧ v = { w with phase := phase } := by
  obtain ⟨w, hw, rfl⟩ := (mem_setPhase_iff s id phase).mp hv
  by_cases h : w.id = id
  · exact Or.inr ⟨w, hw, h, by simp [h]⟩
  · exact Or.inl (by simp [h, hw])

theorem distinct_setPhase (hl : s.watches.Pairwise fun v w => v.id ≠ w.id) (id : Nat) (phase : WatchPhase) :
    (s.setPhase id phase).watches.Pairwise fun v w => v.id ≠ w.id := by
  refine ((watches_setPhase_perm s id phase).pairwise_iff Ne.symm).mpr ?_
  rw [List.pairwise_map]
  refine hl.imp fun {x y} hxy => ?_
  split <;> split <;> exact hxy

/-- The watches that are under way after one is over. -/
theorem unfinished_setPhase_of_isOver (s : State) (id : Nat) (phase : WatchPhase) (hp : phase.isOver = true) :
    (s.setPhase id phase).unfinished = s.unfinished.filter fun v => v.id ≠ id := by
  unfold State.unfinished
  rw [watches_setPhase_of_isOver s id hp, List.filter_append, List.filter_map]
  simp [hp, Function.comp_def, Bool.and_comm]

/-- The watches that are under way after one has ended. -/
theorem unfinished_conclude (s : State) (w : Watch) (o : Outcome) (output : Channel String) :
    (s.conclude w o output).unfinished = s.unfinished.filter fun v => v.id ≠ w.id :=
  unfinished_setPhase_of_isOver s w.id (.finished o) rfl

theorem mem_conclude {o : Outcome} {output : Channel String} (hv : v ∈ (s.conclude w o output).watches) :
    v ∈ s.watches ∧ v.id ≠ w.id ∨ ∃ x ∈ s.watches, x.id = w.id ∧ v = { x with phase := .finished o } :=
  @mem_setPhase s v w.id (.finished o) hv

theorem mem_unfinished_conclude {o : Outcome} {output : Channel String} :
    v ∈ (s.conclude w o output).unfinished ↔ v ∈ s.unfinished ∧ v.id ≠ w.id := by
  simp [unfinished_conclude]

/-- A watch that is under way after one has changed its phase was so before, under the same number and name. -/
theorem exists_of_mem_unfinished_setPhase (hl : s.watches.Pairwise fun v w => v.id ≠ w.id) (hw : w ∈ s.unfinished)
    {phase : WatchPhase} {output : Channel String}
    (hv : v ∈ State.unfinished { s with watches := (s.setPhase w.id phase).watches, output := output }) :
    ∃ x ∈ s.unfinished, x.id = v.id ∧ x.resource = v.resource := by
  obtain ⟨hv, ho⟩ := mem_unfinished.mp hv
  rcases mem_setPhase hv with ⟨hv, -⟩ | ⟨x, hx, hid, rfl⟩
  · exact ⟨v, mem_unfinished.mpr ⟨hv, ho⟩, rfl, rfl⟩
  · have : x = w := eq_of_id_eq hl hx (mem_unfinished.mp hw).1 hid
    exact ⟨w, hw, by rw [this], by rw [this]⟩

theorem below_setPhase {n : Nat} (hl : ∀ w ∈ s.watches, w.id < n) (id : Nat) (phase : WatchPhase) :
    ∀ w ∈ (s.setPhase id phase).watches, w.id < n := by
  intro w hw
  rcases mem_setPhase hw with ⟨hw, -⟩ | ⟨x, hx, -, rfl⟩
  · exact hl w hw
  · exact hl x hx

/-- A watch that is under way after another has been scheduled was so before, or is the new one. -/
theorem mem_unfinished_spawning {r : String} {kind : DelayKind} (hv : v ∈ (s.spawning setup r kind).unfinished) :
    v ∈ s.unfinished ∨ v = s.nextWatch setup r kind := by
  obtain ⟨hv, ho⟩ := mem_unfinished.mp hv
  rcases List.mem_append.mp hv with hv | hv
  · exact Or.inl (mem_unfinished.mpr ⟨hv, ho⟩)
  · exact Or.inr (List.mem_singleton.mp hv)

/-- Taking note of watches that are over leaves those under way. -/
theorem unfinished_eraseP (s : State) :
    State.unfinished { s with watches := s.watches.eraseP fun w => w.phase.isOver } = s.unfinished := by
  show (s.watches.eraseP fun w => w.phase.isOver).filter _ = s.watches.filter _
  induction s.watches with
  | nil => rfl
  | cons v l ih =>
    cases ho : v.phase.isOver with
    | false => simp [ho, ih]
    | true => simp [ho]

/-! ## Entries -/

/-- An entry after another has been made is that one, or was there before. -/
theorem get?_insert_some {g : Registry} {q r : String} {d e : Record} (h : (g.insert q d).get? r = some e) :
    (q = r ∧ d = e) ∨ g.get? r = some e := by
  rw [NameMap.get?_insert] at h
  split at h
  · rename_i hqr
    exact Or.inl ⟨hqr, Option.some.inj h⟩
  · exact Or.inr h

/-- An entry after a watch was there before, and no flag has been set. -/
theorem Outcome.get?_registry_some {o : Outcome} {g : Registry} {resource other : String} {e : Record}
    (h : (o.registry g resource).get? other = some e) :
    ∃ d, g.get? other = some d ∧ e.hasQuorum = d.hasQuorum ∧ (e.isWatched = true → d.isWatched = true) := by
  by_cases hr : resource = other
  · subst hr
    have finished (h : (g.finishWatch resource).get? resource = some e) :
        ∃ d, g.get? resource = some d ∧ e.hasQuorum = d.hasQuorum ∧ (e.isWatched = true → d.isWatched = true) := by
      rw [Registry.get?_finishWatch, if_pos rfl] at h
      obtain ⟨d, hd, rfl⟩ := Option.map_eq_some_iff.mp h
      exact ⟨d, hd, rfl, nofun⟩
    cases o with
    | cancelled => exact ⟨e, h, rfl, id⟩
    | failed => exact ⟨e, h, rfl, id⟩
    | notified => exact finished h
    | undelivered => exact finished h
    | settled => exact finished h
    | removed =>
      have h : (g.remove resource).get? resource = some e := h
      rw [Registry.get?_remove, if_pos rfl] at h
      cases h
  · rw [o.get?_registry_of_ne g hr] at h
    exact ⟨e, h, rfl, id⟩

/-! ## The invariant -/

/-- No two watches have one number, at most one of a resource is under way, and its entry says so. -/
structure Booked (s : State) : Prop where
  distinct : s.watches.Pairwise fun v w => v.id ≠ w.id
  below : ∀ w ∈ s.watches, w.id < s.nextId
  single : ∀ v ∈ s.unfinished, ∀ w ∈ s.unfinished, v.resource = w.resource → v.id = w.id
  entry : ∀ w ∈ s.unfinished, s.registry.get? w.resource = some ⟨true, true⟩
  quorum : ∀ r e, s.registry.get? r = some e → e.isWatched = true → e.hasQuorum = true

theorem booked_start (setup : Setup) (now : Nat) (source : Source) : Booked (State.start setup now source) := by
  constructor
  case distinct => exact List.Pairwise.nil
  case below | single | entry => nofun
  case quorum =>
    intro r e he
    have hn : (State.start setup now source).registry.get? r = none := NameMap.get?_empty r
    rw [hn] at he
    cases he

namespace Booked

theorem watch? (hb : Booked s) {id : Nat} : s.watch? id = some w ↔ w ∈ s.watches ∧ w.id = id :=
  watch?_eq_some_iff hb.distinct

/-- A resource that may be watched anew is not being watched. -/
theorem resource_ne (hb : Booked s) {r : String} (hr : s.registry.get? r ≠ some ⟨true, true⟩)
    (hw : w ∈ s.unfinished) : w.resource ≠ r := by
  rintro rfl
  exact hr (hb.entry w hw)

theorem rephase (hb : Booked s) (hw : w ∈ s.unfinished) (phase : WatchPhase) (output : Channel String) :
    Booked { s with watches := (s.setPhase w.id phase).watches, output := output } := by
  constructor
  case distinct => exact distinct_setPhase hb.distinct _ _
  case below => exact below_setPhase hb.below _ _
  case single =>
    intro v hv x hx hvx
    obtain ⟨v', hv', hvid, hvr⟩ := exists_of_mem_unfinished_setPhase hb.distinct hw hv
    obtain ⟨x', hx', hxid, hxr⟩ := exists_of_mem_unfinished_setPhase hb.distinct hw hx
    rw [← hvid, ← hxid]
    exact hb.single v' hv' x' hx' (by rw [hvr, hxr, hvx])
  case entry =>
    intro v hv
    obtain ⟨v', hv', -, hvr⟩ := exists_of_mem_unfinished_setPhase hb.distinct hw hv
    rw [← hvr]
    exact hb.entry v' hv'
  case quorum => exact hb.quorum

/-- A watch under way ends: no other watch of its resource needs the entry. -/
theorem conclude (hb : Booked s) (hw : w ∈ s.unfinished) (o : Outcome) (output : Channel String) :
    Booked (s.conclude w o output) := by
  constructor
  case distinct => exact distinct_setPhase hb.distinct w.id (.finished o)
  case below => exact below_setPhase hb.below w.id (.finished o)
  case single =>
    intro v hv x hx
    exact hb.single v (mem_unfinished_conclude.mp hv).1 x (mem_unfinished_conclude.mp hx).1
  case entry =>
    intro v hv
    obtain ⟨hv, hne⟩ := mem_unfinished_conclude.mp hv
    have hr : w.resource ≠ v.resource := fun h => hne (hb.single v hv w hw h.symm)
    exact (o.get?_registry_of_ne s.registry hr).trans (hb.entry v hv)
  case quorum =>
    intro r e he hf
    obtain ⟨d, hd, hq, hwatched⟩ := Outcome.get?_registry_some he
    exact hq.trans (hb.quorum r d hd (hwatched hf))

/-- A watch is scheduled for a resource that is not being watched. -/
theorem spawning (hb : Booked s) {r : String} (hr : s.registry.get? r ≠ some ⟨true, true⟩) (kind : DelayKind) :
    Booked (s.spawning setup r kind) := by
  constructor
  case distinct =>
    refine List.pairwise_append.mpr ⟨hb.distinct, List.pairwise_singleton _ _, ?_⟩
    intro v hv x hx
    rw [List.mem_singleton.mp hx]
    exact Nat.ne_of_lt (hb.below v hv)
  case below =>
    intro v hv
    show v.id < s.nextId + 1
    rcases List.mem_append.mp hv with hv | hv
    · have := hb.below v hv
      omega
    · rw [List.mem_singleton.mp hv]
      exact Nat.lt_succ_self _
  case single =>
    intro v hv x hx hvx
    rcases mem_unfinished_spawning hv with hv | rfl <;> rcases mem_unfinished_spawning hx with hx | rfl
    · exact hb.single v hv x hx hvx
    · exact absurd hvx (hb.resource_ne hr hv)
    · exact absurd hvx.symm (hb.resource_ne hr hx)
    · rfl
  case entry =>
    intro v hv
    rcases mem_unfinished_spawning hv with hv | rfl
    · exact (NameMap.get?_insert_of_ne _ _ (hb.resource_ne hr hv).symm).trans (hb.entry v hv)
    · exact NameMap.get?_insert_self _ _ _
  case quorum =>
    intro q e he hf
    rcases get?_insert_some he with ⟨-, rfl⟩ | he
    · rfl
    · exact hb.quorum q e he hf

theorem recording (hb : Booked s) {r : String} (hr : s.registry.get? r = none) :
    Booked ({ s with loop := .listening, registry := s.registry.insert r ⟨false, false⟩ }.count .quorumlessSkips) := by
  refine ⟨hb.distinct, hb.below, hb.single, ?entry, ?quorum⟩
  case entry =>
    intro w hw
    have hne : w.resource ≠ r := hb.resource_ne (by simp [hr]) hw
    exact (NameMap.get?_insert_of_ne _ _ hne.symm).trans (hb.entry w hw)
  case quorum =>
    intro q e he hf
    rcases get?_insert_some he with ⟨-, rfl⟩ | he
    · cases hf
    · exact hb.quorum q e he hf

end Booked

theorem Booked.reap (hb : Booked s) : Booked { s with watches := s.watches.eraseP fun w => w.phase.isOver } := by
  constructor
  case distinct => exact hb.distinct.sublist List.eraseP_sublist
  case below =>
    intro v hv
    exact hb.below v (List.mem_of_mem_eraseP hv)
  case single =>
    rw [unfinished_eraseP]
    exact hb.single
  case entry =>
    rw [unfinished_eraseP]
    exact hb.entry
  case quorum => exact hb.quorum

/-- Every move keeps the books. -/
theorem Move.booked (h : Move setup s a t seen) (hb : Booked s) : Booked t := by
  cases h with
  | reap => exact hb.reap
  | rewatch hl hn hg =>
    exact Booked.spawning (s := s.taking _) ⟨hb.distinct, hb.below, hb.single, hb.entry, hb.quorum⟩
      (by simp [State.taking, hg]) _
  | watch hl hs hg hq =>
    exact Booked.spawning (s := { s with loop := .listening })
      ⟨hb.distinct, hb.below, hb.single, hb.entry, hb.quorum⟩ (by simp [hg]) _
  | record hl hs hg hq => exact hb.recording hg
  | crashLoop => exact ⟨List.Pairwise.nil, nofun, nofun, nofun, hb.quorum⟩
  | advance hw ha =>
    exact hb.rephase (mem_unfinished_of_watch? hw ha.isOver_eq_false) _ _
  | @crashWatch w report hw hp =>
    exact hb.rephase (mem_unfinished_of_watch? hw (by simp [hp, WatchPhase.isOver])) (.crashed report) s.output
  | conclude hw ho => exact hb.conclude (mem_unfinished_of_watch? hw ho) _ _
  | _ => exact ⟨hb.distinct, hb.below, hb.single, hb.entry, hb.quorum⟩

theorem Reachable.booked (hs : Reachable setup s) : Booked s := hs.induct (booked_start setup) Move.booked

/-! ## One watch of a resource -/

theorem Booked.length_unfinished_le (hb : Booked s) (name : String) :
    (s.unfinished.filter fun w => w.resource = name).length ≤ 1 := by
  have hl : (s.unfinished.filter fun w => w.resource = name).Pairwise fun v w => v.id ≠ w.id :=
    (hb.distinct.filter _).filter _
  match hf : s.unfinished.filter fun w => w.resource = name with
  | [] => rw [hf]; exact Nat.zero_le 1
  | [_] => rw [hf]; exact Nat.le_refl 1
  | v :: w :: rest =>
    have hmem : ∀ x ∈ [v, w], x ∈ s.unfinished ∧ x.resource = name := fun x hx => by
      have : x ∈ s.unfinished.filter fun w => w.resource = name := by
        rw [hf]
        exact List.mem_of_mem_take (i := 2) hx
      simpa using this
    obtain ⟨hv, hvn⟩ := hmem v (by simp)
    obtain ⟨hw, hwn⟩ := hmem w (by simp)
    rw [hf] at hl
    exact absurd (hb.single v hv w hw (hvn.trans hwn.symm)) (List.rel_of_pairwise_cons hl List.mem_cons_self)

/-- **One watch of a resource.** In every reachable state at most one watch of a resource is under way; the entry of
a resource that is being watched says that it has quorum and is watched; and no entry without quorum is marked as
watched. -/
theorem unfinished_single_and_recorded (hs : Reachable setup s) (name : String) :
    (s.unfinished.filter fun w => w.resource = name).length ≤ 1 ∧
    (∀ w ∈ s.unfinished, w.resource = name →
      ∃ e, s.registry.get? name = some e ∧ e.hasQuorum = true ∧ e.isWatched = true) ∧
    ∀ e, s.registry.get? name = some e →
      (e.isWatched = true → e.hasQuorum = true) ∧ (e.phase = .noQuorumIdle → e.isWatched = false) := by
  have hb := hs.booked
  refine ⟨hb.length_unfinished_le name, ?_, fun e he => ⟨hb.quorum name e he, fun hp => ?_⟩⟩
  · rintro w hw rfl
    exact ⟨_, hb.entry w hw, rfl, rfl⟩
  · -- an entry that stands idle for lack of quorum has none, so its flag cannot be set
    have hq : e.hasQuorum = false := by
      unfold Record.phase at hp
      cases h : e.hasQuorum with
      | false => rfl
      | true => cases hw : e.isWatched <;> simp [h, hw] at hp
    cases hw : e.isWatched with
    | false => rfl
    | true => rw [hb.quorum name e he hw] at hq; cases hq

/-- Signals of some resources, waiting to be taken. -/
def signalsOf (resources : List String) : Source :=
  .queue { SignalQueue.empty with
    channel := { SignalQueue.empty.channel with buffer := resources.map fun r => ⟨r, true⟩ } }

/-- A monitor that takes a signal of each of some resources with quorum, and watches them. -/
def watchingAll (resources : List String) : List Action :=
  .runLoop :: resources.flatMap fun r => [.runLoop, .answerDefinition (.ok (Definition.withQuorum r (some "majority")))]

/-- A monitor that takes a signal of a resource with quorum, and watches it. -/
def watchingOne (r : String) : List Action :=
  [.runLoop, .runLoop, .answerDefinition (.ok (Definition.withQuorum r (some "majority")))]

theorem watched_resource_recorded :
    let s := ((State.start { monitor := "m" } 0 (signalsOf ["r"])).played { monitor := "m" } (watchingOne "r")).2
    s.unfinished.map Watch.resource = ["r"] ∧ (s.unfinished.filter fun w => w.resource = "r").length ≤ 1 ∧
      ∃ e, s.registry.get? "r" = some e ∧ e.hasQuorum = true ∧ e.isWatched = true := by
  intro s
  have hs : Reachable { monitor := "m" } s := reachable_played (by decide)
  have hr : s.unfinished.map Watch.resource = ["r"] := by decide
  obtain ⟨w, hw, hwr⟩ : ∃ w ∈ s.unfinished, w.resource = "r" := by
    rw [← List.mem_map, hr]
    exact List.mem_singleton_self _
  have all := unfinished_single_and_recorded hs "r"
  exact ⟨hr, all.1, all.2.1 w hw hwr⟩

end ReplicaWatch.Monitor
