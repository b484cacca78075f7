import ReplicaWatch.Proofs.Monitor.Bookkeeping

/-!
# What a watch does with an answer

A watch that has asked for the replicas of its resource does one of three things with them, and what it does says what
they are: it goes on to send its name if they may be promoted (`Asks.sends_iff`), it has the resource forgotten if one
of them is on a layer of another kind (`Asks.removes_iff`), and it settles if none may be promoted (`Asks.settles_iff`).
If the resource is gone, so is its entry (`Asks.vanishes`).
-/

namespace ReplicaWatch.Monitor

/-- A watch has asked for the replicas of its resource, and will act on the answer. -/
structure State.Asks (s : State) (w : Watch) : Prop where
  watch : s.watch? w.id = some w
  phase : w.phase = .asking
  going : s.isStopping = false

/-- With an answer a watch goes on to send: it offers its name to the output. -/
def State.SendsWith (setup : Setup) (s : State) (w : Watch) (answer : Except BackendError (List Replica)) : Prop :=
  s.step? setup (.answerReplicas w.id answer) =
    some ({ s with output := (s.output.offer w.id w.resource).2 }.deliver w (s.output.offer w.id w.resource).1)

/-- With an answer a watch ends, by an outcome that leaves the output alone. -/
def State.EndsWith (setup : Setup) (s : State) (w : Watch) (answer : Except BackendError (List Replica))
    (o : Outcome) : Prop :=
  s.step? setup (.answerReplicas w.id answer) = some (s.conclude w o s.output, o.seen w)

variable {setup : Setup} {s : State} {w : Watch} {replicas : List Replica}

/-- What is seen of a watch that sends. -/
theorem seen_deliver (s : State) (w : Watch) (reply : Channel.Reply) :
    (s.deliver w reply).2 = Outcome.notified.seen w ∨ (s.deliver w reply).2 = Outcome.undelivered.seen w ∨
      (s.deliver w reply).2 = [] := by
  cases reply with
  | sent => exact Or.inl rfl
  | refused => exact Or.inr (Or.inl rfl)
  | blocked => exact Or.inr (Or.inr rfl)

/-- A watch that sends does not look like one that ends otherwise. -/
theorem deliver_ne_ending {reply : Channel.Reply} {o : Outcome} {t : State} (hn : o ≠ .notified)
    (hu : o ≠ .undelivered) : s.deliver w reply ≠ (t, o.seen w) := by
  intro h
  have h := congrArg Prod.snd h
  rcases seen_deliver s w reply with hs | hs | hs <;> rw [hs] at h <;> cases o <;> first | contradiction | cases h

/-- Outcomes are told apart by what is seen of them. -/
theorem Outcome.seen_injective {o p : Outcome} (h : o.seen w = p.seen w) : o = p := by
  cases o <;> cases p <;> cases h <;> rfl

/-- A watch that has its resource forgotten leaves no entry. -/
theorem entry_of_removed (s : State) (w : Watch) (reason : RemovalReason) (output : Channel String) :
    (s.conclude w (.removed reason) output).registry.get? w.resource = none := by
  show (s.registry.remove w.resource).get? w.resource = _
  rw [Registry.get?_remove, if_pos rfl]

namespace State.Asks

variable (ha : s.Asks w)

include ha

theorem step?_ok (setup : Setup) (replicas : List Replica) :
    s.step? setup (.answerReplicas w.id (.ok replicas)) = some (s.judge w replicas) := by
  simp [State.step?, State.answerReplicas, ha.watch, ha.phase, ha.going]

theorem step?_promotable (setup : Setup) (hv : Verdict.ofReplicas replicas = .promotable) :
    s.SendsWith setup w (.ok replicas) := by
  unfold SendsWith
  rw [ha.step?_ok, State.judge, hv]

theorem step?_mismatch (setup : Setup) {kind : LayerKind} (hv : Verdict.ofReplicas replicas = .mismatch kind) :
    s.EndsWith setup w (.ok replicas) (.removed (.layerMismatch kind)) := by
  unfold EndsWith
  rw [ha.step?_ok, State.judge, hv]
  exact congrArg some (State.removeResource_eq s w _)

theorem step?_settled (setup : Setup) (hv : Verdict.ofReplicas replicas = .settled) :
    s.EndsWith setup w (.ok replicas) .settled := by
  unfold EndsWith
  rw [ha.step?_ok, State.judge, hv]
  exact congrArg some (State.settle_eq s w)

/-- A resource that is gone is forgotten. -/
theorem vanishes (setup : Setup) (resource : String) :
    s.EndsWith setup w (.error (.notFound resource)) (.removed .notFound) := by
  unfold EndsWith
  rw [← State.removeResource_eq]
  simp [State.step?, State.answerReplicas, ha.watch, ha.phase, ha.going, BackendError.isNotFound]

/-- **A watch goes on to send** exactly with replicas that may be promoted. -/
theorem sends_iff : s.SendsWith setup w (.ok replicas) ↔ Verdict.ofReplicas replicas = .promotable := by
  refine ⟨fun h => ?_, ha.step?_promotable setup⟩
  cases hv : Verdict.ofReplicas replicas with
  | promotable => rfl
  | mismatch kind =>
    exact absurd (Option.some.inj (h.symm.trans (ha.step?_mismatch setup hv))) (deliver_ne_ending nofun nofun)
  | settled =>
    exact absurd (Option.some.inj (h.symm.trans (ha.step?_settled setup hv))) (deliver_ne_ending nofun nofun)

/-- A watch that ends with replicas ends as they say. -/
theorem outcome_of_ends {o : Outcome} (h : s.EndsWith setup w (.ok replicas) o) (hn : o ≠ .notified)
    (hu : o ≠ .undelivered) :
    (∃ kind, Verdict.ofReplicas replicas = .mismatch kind ∧ o = .removed (.layerMismatch kind)) ∨
      Verdict.ofReplicas replicas = .settled ∧ o = .settled := by
  have same {p : Outcome} (hp : s.EndsWith setup w (.ok replicas) p) : o = p :=
    Outcome.seen_injective (congrArg Prod.snd (Option.some.inj (h.symm.trans hp)))
  cases hv : Verdict.ofReplicas replicas with
  | promotable =>
    exact absurd (Option.some.inj ((ha.step?_promotable setup hv).symm.trans h)) (deliver_ne_ending hn hu)
  | mismatch kind => exact Or.inl ⟨kind, rfl, same (ha.step?_mismatch setup hv)⟩
  | settled => exact Or.inr ⟨rfl, same (ha.step?_settled setup hv)⟩

/-- **A watch has its resource forgotten** exactly for a replica on a layer of another kind. -/
theorem removes_iff {reason : RemovalReason} : s.EndsWith setup w (.ok replicas) (.removed reason) ↔
    ∃ kind, Verdict.ofReplicas replicas = .mismatch kind ∧ reason = .layerMismatch kind := by
  constructor
  · intro h
    rcases ha.outcome_of_ends h nofun nofun with ⟨kind, hv, ho⟩ | ⟨-, ho⟩
    · cases ho
      exact ⟨kind, hv, rfl⟩
    · cases ho
  · rintro ⟨kind, hv, rfl⟩
    exact ha.step?_mismatch setup hv

/-- **A watch settles** exactly with replicas none of which may be promoted. -/
theorem settles_iff : s.EndsWith setup w (.ok replicas) .settled ↔ Verdict.ofReplicas replicas = .settled := by
  refine ⟨fun h => ?_, ha.step?_settled setup⟩
  rcases ha.outcome_of_ends h nofun nofun with ⟨kind, -, ho⟩ | ⟨hv, -⟩
  · cases ho
  · exact hv

/-- A resource that is being watched has an entry that says so. -/
theorem entry (hs : Reachable setup s) : s.registry.get? w.resource = some ⟨true, true⟩ :=
  hs.booked.entry w (mem_unfinished_of_watch? ha.watch (by rw [ha.phase]; rfl))

/-- The entry of a watch that settles stays, and can be watched again. -/
theorem entry_of_settled (hs : Reachable setup s) (output : Channel String) :
    (s.conclude w .settled output).registry.get? w.resource = some ⟨true, false⟩ := by
  show (s.registry.finishWatch w.resource).get? w.resource = _
  rw [Registry.get?_finishWatch, if_pos rfl, ha.entry hs]
  rfl

end State.Asks

/-- The moves of a monitor that watches a resource until it asks for its replicas. -/
def askingFor (resource : String) : List Action :=
  watchingOne resource ++ [.runWatch 0, .elapse 60000, .runWatch 0]

end ReplicaWatch.Monitor
