import ReplicaWatch.Backend.Memory
import ReplicaWatch.Proofs.Monitor.Lifecycle

/-!
# How a resource stands

All that matters of a monitor to one resource: its entry, its watch, the signals that the loop has still to take for
it, and whether the stream is about to end or the monitor to stop. What becomes of it before any more time passes
depends on nothing else, and not on the order in which the tasks work.

- `Standing`, `State.standing`: how a resource stands in a state;
- `Standing.Next`: what a task does for the resource;
- `Standing.prospect`: the lines, the names put on the output and the standing that it will come to;
- `Standing.Next.prospect`: whatever is done next, it comes to the same; `Standing.Next.not_settled`: when it has come
  to that, nothing more is done.
-/

namespace ReplicaWatch.Monitor

/-- What an answer makes of a watch that finds room on the output. -/
def Outcome.ofAnswer : Except BackendError (List Replica) → Outcome
  | .error e => if e.isNotFound then .removed .notFound else .failed e
  | .ok replicas =>
    match Verdict.ofReplicas replicas with
    | .mismatch kind => .removed (.layerMismatch kind)
    | .settled => .settled
    | .promotable => .notified

/-- What becomes of the entry of a resource when its watch ends. -/
def Outcome.entry (e : Option Record) : Outcome → Option Record
  | cancelled => e
  | removed _ => none
  | notified => e.map fun r => { r with isWatched := false }
  | undelivered => e.map fun r => { r with isWatched := false }
  | settled => e.map fun r => { r with isWatched := false }
  | failed _ => e

theorem Outcome.get?_registry_self (o : Outcome) (g : Registry) (r : String) :
    (o.registry g r).get? r = o.entry (g.get? r) := by
  cases o <;> simp [Outcome.registry, Outcome.entry, Registry.get?_finishWatch, Registry.get?_remove]

/-- How a resource stands. -/
structure Standing where
  now : Nat
  entry : Option Record
  /-- The delay and the phase of the watch that is under way. -/
  watch : Option (Nat × WatchPhase)
  /-- The signals that the loop has still to take, the one that it asks about included. -/
  pending : Nat
  /-- Whether the stream ends when all signals have been taken. -/
  isEnding : Bool
  isStopping : Bool
deriving DecidableEq

/-- What becomes of a resource: the lines about it, how often its name is put on the output, and how it stands then. -/
structure Prospect where
  lines : List Notice
  puts : Nat
  last : Standing

namespace Standing

variable (setup : Setup) (c : MemoryCluster) (x : String)

/-- A signal is taken; an unknown resource is asked about. -/
def hear (v : Standing) : Standing × List Notice :=
  let u := { v with pending := v.pending - 1 }
  let watched (kind : DelayKind) : Standing :=
    { u with entry := some ⟨true, true⟩, watch := some (setup.config.delay kind, .scheduled) }
  match v.entry with
  | none =>
    match c.definition x with
    | .error e => (u, [.quorumUnknown x e])
    | .ok d =>
      if d.hasQuorum then
        (watched .initial, [.observed x true, .scheduled x .initial (setup.config.delay .initial)])
      else ({ u with entry := some ⟨false, false⟩ }, [.observed x false])
  | some ⟨_, true⟩ => (u, [.coalesced x])
  | some ⟨true, false⟩ => (watched .existing, [.scheduled x .existing (setup.config.delay .existing)])
  | some ⟨false, false⟩ => (u, [])

/-- Signals are taken, one after the other. -/
def hearAll : Nat → Standing → Standing × List Notice
  | 0, v => (v, [])
  | n + 1, v => ((hearAll n (v.hear setup c x).1).1, (v.hear setup c x).2 ++ (hearAll n (v.hear setup c x).1).2)

/-- The monitor begins to stop: no more signals are taken. -/
def stop (v : Standing) : Standing := { v with pending := 0, isEnding := false, isStopping := true }

/-- The watch ends. -/
def conclude (v : Standing) (o : Outcome) : Standing :=
  let u := { v with entry := o.entry v.entry, watch := none }
  if o.cause?.isSome then u.stop else u

/-- Whether the watch asks, or is about to. -/
def isDue (v : Standing) : Bool :=
  match v.watch with
  | some (_, .waiting deadline) => deadline ≤ v.now
  | some (_, .asking) => true
  | _ => false

/-- The watch begins to wait. -/
def sleep (v : Standing) : Standing :=
  match v.watch with
  | some (delay, .scheduled) => { v with watch := some (delay, .waiting (setup.clock.wake v.now delay)) }
  | _ => v

/-- How often a watch with an outcome puts its name on the output. -/
def putsOf (o : Outcome) : Nat := if o = .notified then 1 else 0

/-- What a task does for a resource. -/
inductive Next : Standing → Standing → List Notice → Nat → Prop
  | hear {v : Standing} : v.isStopping = false → 0 < v.pending →
      Next v (v.hear setup c x).1 (v.hear setup c x).2 0
  | sleep {v : Standing} {delay : Nat} : v.isStopping = false → v.watch = some (delay, .scheduled) →
      Next v { v with watch := some (delay, .waiting (setup.clock.wake v.now delay)) } [] 0
  | ask {v : Standing} {delay deadline : Nat} : v.isStopping = false →
      v.watch = some (delay, .waiting deadline) → deadline ≤ v.now →
      Next v { v with watch := some (delay, .asking) } [] 0
  | answer {v : Standing} {delay : Nat} : v.isStopping = false → v.watch = some (delay, .asking) →
      Next v (v.conclude (.ofAnswer (c.replicasOf x))) [(Outcome.ofAnswer (c.replicasOf x)).notice x]
        (putsOf (.ofAnswer (c.replicasOf x)))
  | endStream {v : Standing} : v.isStopping = false → v.isEnding = true → v.pending = 0 → Next v v.stop [] 0
  | cancel {v : Standing} {p : Nat × WatchPhase} : v.isStopping = true → v.watch = some p →
      Next v { v with watch := none } [.cancelled x] 0

/-- What becomes of a resource when the monitor stops. -/
def wind (v : Standing) : Prospect :=
  match v.watch with
  | none => ⟨[], 0, v⟩
  | some _ => ⟨[.cancelled x], 0, { v with watch := none }⟩

/-- What becomes of a resource before more time passes. -/
def prospect (v : Standing) : Prospect :=
  if v.isStopping then v.wind x
  else if v.isDue then
    let o := Outcome.ofAnswer (c.replicasOf x)
    ⟨[o.notice x], putsOf o, v.conclude o⟩
  else
    let p := hearAll setup c x v.pending v
    if v.isEnding then ⟨p.2 ++ (p.1.stop.wind x).lines, 0, (p.1.stop.wind x).last⟩ else ⟨p.2, 0, p.1.sleep setup⟩

/-- What is so of a resource in every state: what is due is due alone, delays are not zero, and what is watched is
recorded as watched. -/
structure Coherent (v : Standing) : Prop where
  due : v.isStopping = false → v.isDue = true → v.pending = 0 ∧ v.isEnding = false
  delayed : ∀ delay phase, v.watch = some (delay, phase) → 0 < delay
  watched : v.watch ≠ none → v.entry = some ⟨true, true⟩

variable {setup c x} {v u : Standing} {lines : List Notice} {puts : Nat}

/-! ## What is heard -/

/-- A signal that is taken leaves the rest as it is. -/
theorem hear_frame (setup : Setup) (c : MemoryCluster) (x : String) (v : Standing) :
    (v.hear setup c x).1.now = v.now ∧ (v.hear setup c x).1.pending = v.pending - 1 ∧
    (v.hear setup c x).1.isEnding = v.isEnding ∧ (v.hear setup c x).1.isStopping = v.isStopping := by
  unfold hear
  split
  · split
    · exact ⟨rfl, rfl, rfl, rfl⟩
    · dsimp only
      split <;> exact ⟨rfl, rfl, rfl, rfl⟩
  all_goals exact ⟨rfl, rfl, rfl, rfl⟩

/-- A signal that is taken leaves the watch as it is, or schedules one. -/
theorem watch_hear (setup : Setup) (c : MemoryCluster) (x : String) (v : Standing) :
    (v.hear setup c x).1.watch = v.watch ∨
    ∃ kind, (v.hear setup c x).1.watch = some (setup.config.delay kind, .scheduled) ∧
      (v.hear setup c x).1.entry = some ⟨true, true⟩ := by
  unfold hear
  split
  · split
    · exact Or.inl rfl
    · dsimp only
      split
      · exact Or.inr ⟨.initial, rfl, rfl⟩
      · exact Or.inl rfl
  · exact Or.inl rfl
  · exact Or.inr ⟨.existing, rfl, rfl⟩
  · exact Or.inl rfl

theorem hearAll_succ (n : Nat) (v : Standing) : hearAll setup c x (n + 1) v =
    ((hearAll setup c x n (v.hear setup c x).1).1,
      (v.hear setup c x).2 ++ (hearAll setup c x n (v.hear setup c x).1).2) := rfl

/-- A resource that is watched needs no other watch. -/
theorem hear_of_isWatched {hasQuorum : Bool} (hv : v.entry = some ⟨hasQuorum, true⟩) :
    v.hear setup c x = ({ v with pending := v.pending - 1 }, [.coalesced x]) := by
  unfold hear
  rw [hv]

theorem hear_of_quorumless (hv : v.entry = some ⟨false, false⟩) :
    v.hear setup c x = ({ v with pending := v.pending - 1 }, []) := by
  unfold hear
  rw [hv]

theorem hear_of_unwatched (hv : v.entry = some ⟨true, false⟩) :
    v.hear setup c x =
      ({ v with
          pending := v.pending - 1
          entry := some ⟨true, true⟩
          watch := some (setup.config.delay .existing, .scheduled) },
        [.scheduled x .existing (setup.config.delay .existing)]) := by
  unfold hear
  rw [hv]

theorem hear_of_none (hv : v.entry = none) :
    v.hear setup c x =
      match c.definition x with
      | .error e => ({ v with pending := v.pending - 1 }, [.quorumUnknown x e])
      | .ok d =>
        if d.hasQuorum then
          ({ v with
              pending := v.pending - 1
              entry := some ⟨true, true⟩
              watch := some (setup.config.delay .initial, .scheduled) },
            [.observed x true, .scheduled x .initial (setup.config.delay .initial)])
        else ({ v with pending := v.pending - 1, entry := some ⟨false, false⟩ }, [.observed x false]) := by
  unfold hear
  rw [hv]

/-- Signals for a resource that is watched change nothing. -/
theorem hearAll_of_watched (n : Nat) (hv : v.entry = some ⟨true, true⟩) :
    hearAll setup c x n v = ({ v with pending := v.pending - n }, List.replicate n (.coalesced x)) := by
  induction n generalizing v with
  | zero => rfl
  | succ n ih =>
    rw [hearAll_succ, hear_of_isWatched hv, ih (by exact hv)]
    simp [List.replicate_succ, Nat.sub_sub, Nat.add_comm]

theorem Next.of_hear (hs : v.isStopping = false) (hp : 0 < v.pending) (h : v.hear setup c x = (u, lines)) :
    Next setup c x v u lines 0 := by
  have hn : Next setup c x v (v.hear setup c x).1 (v.hear setup c x).2 0 := .hear hs hp
  rwa [h] at hn

/-! ## Standings are coherent -/

/-- A watch that is scheduled or none is not due. -/
theorem isDue_of_scheduled {delay : Nat} (hw : v.watch = some (delay, .scheduled)) : v.isDue = false := by
  simp [isDue, hw]

theorem isDue_of_none (hw : v.watch = none) : v.isDue = false := by
  simp [isDue, hw]

theorem Coherent.not_due_of_pending (hv : v.Coherent) (hs : v.isStopping = false) (hp : 0 < v.pending) :
    v.isDue = false := by
  cases hd : v.isDue with
  | false => rfl
  | true => have := (hv.due hs hd).1; omega

theorem Coherent.not_due_of_isEnding (hv : v.Coherent) (hs : v.isStopping = false) (he : v.isEnding = true) :
    v.isDue = false := by
  cases hd : v.isDue with
  | false => rfl
  | true => rw [(hv.due hs hd).2] at he; cases he

/-- What is watched stays due or not when a signal is taken, and what is scheduled then is not due. -/
theorem isDue_hear (hd : v.isDue = false) : (v.hear setup c x).1.isDue = false := by
  rcases watch_hear setup c x v with hw | ⟨kind, hw, -⟩
  · unfold isDue at hd ⊢
    rw [hw, (hear_frame setup c x v).1]
    exact hd
  · exact isDue_of_scheduled hw

theorem coherent_of_none (hw : v.watch = none) : v.Coherent := by
  refine ⟨fun _ hd => ?_, fun _ _ h => ?_, fun h => absurd hw h⟩
  · rw [isDue_of_none hw] at hd
    cases hd
  · rw [hw] at h
    cases h

theorem Coherent.hear (hv : v.Coherent) (hdelay : ∀ kind, 0 < setup.config.delay kind) (hs : v.isStopping = false)
    (hp : 0 < v.pending) : (v.hear setup c x).1.Coherent := by
  constructor
  case due =>
    intro _ hd
    rw [isDue_hear (hv.not_due_of_pending hs hp)] at hd
    cases hd
  case delayed =>
    intro delay phase hw
    rcases watch_hear setup c x v with hsame | ⟨kind, hnew, -⟩
    · exact hv.delayed delay phase (hsame.symm.trans hw)
    · cases hnew.symm.trans hw
      exact hdelay kind
  case watched =>
    intro hw
    rcases watch_hear setup c x v with hsame | ⟨kind, -, hentry⟩
    · have hentry := hv.watched (hsame ▸ hw)
      rw [hear_of_isWatched hentry]
      exact hentry
    · exact hentry

/-- Whatever is done for a resource, it stands coherently. -/
theorem Next.coherent (hn : Next setup c x v u lines puts) (hv : v.Coherent)
    (hdelay : ∀ kind, 0 < setup.config.delay kind) : u.Coherent := by
  cases hn with
  | hear hs hp => exact hv.hear hdelay hs hp
  | @sleep delay hs hw =>
    have hpos := hv.delayed delay _ hw
    refine ⟨fun _ hd => ?_, fun _ _ hu => ?_, fun _ => hv.watched (by rw [hw]; nofun)⟩
    · have hlt := setup.clock.lt_wake v.now hpos
      simp [isDue] at hd
      omega
    · cases hu
      exact hpos
  | @ask delay deadline hs hw hd =>
    have hdue : v.isDue = true := by simp [isDue, hw, hd]
    refine ⟨fun _ _ => hv.due hs hdue, fun _ _ hu => ?_, fun _ => hv.watched (by rw [hw]; nofun)⟩
    cases hu
    exact hv.delayed delay _ hw
  | answer =>
    unfold conclude
    dsimp only
    split <;> exact coherent_of_none rfl
  | endStream => exact ⟨nofun, hv.delayed, hv.watched⟩
  | cancel => exact coherent_of_none rfl

/-! ## What it comes to -/

/-- There is nothing left to be done for a resource. -/
structure Settled (v : Standing) : Prop where
  stopped : v.isStopping = true → v.watch = none
  quiet : v.isStopping = false →
    v.isDue = false ∧ v.pending = 0 ∧ v.isEnding = false ∧ ∀ delay, v.watch ≠ some (delay, .scheduled)

/-- What is settled stays as it is. -/
theorem Settled.prospect (hv : v.Settled) : v.prospect setup c x = ⟨[], 0, v⟩ := by
  unfold Standing.prospect
  cases hs : v.isStopping with
  | true => simp [wind, hv.stopped hs]
  | false =>
    obtain ⟨hd, hp, he, hw⟩ := hv.quiet hs
    have hsleep : v.sleep setup = v := by
      unfold sleep
      split
      · rename_i delay h
        exact absurd h (hw delay)
      · rfl
    simp [hd, hp, he, hearAll, hsleep]

theorem Settled.isDue (hv : v.Settled) : v.isDue = false := by
  cases hs : v.isStopping with
  | true => exact isDue_of_none (hv.stopped hs)
  | false => exact (hv.quiet hs).1

/-- **Nothing is done** for a resource that is settled. -/
theorem Next.not_settled (hn : Next setup c x v u lines puts) : ¬ v.Settled := by
  intro hv
  cases hn with
  | hear hs hp => have := (hv.quiet hs).2.1; omega
  | sleep hs hw => exact (hv.quiet hs).2.2.2 _ hw
  | ask hs hw hd =>
    have := (hv.quiet hs).1
    simp [isDue, hw] at this
    omega
  | answer hs hw =>
    have := (hv.quiet hs).1
    simp [isDue, hw] at this
  | endStream hs he =>
    have := (hv.quiet hs).2.2.1
    rw [he] at this
    cases this
  | cancel hs hw =>
    have := hv.stopped hs
    rw [hw] at this
    cases this

/-- A resource whose watch has just ended is settled, unless signals wait for it. -/
theorem settled_conclude (o : Outcome) (hp : v.pending = 0) (he : v.isEnding = false) : (v.conclude o).Settled := by
  unfold conclude
  dsimp only
  split
  · exact ⟨fun _ => rfl, nofun⟩
  · exact ⟨fun _ => rfl, fun _ => ⟨rfl, hp, he, nofun⟩⟩

theorem prospect_of_stopping (hs : v.isStopping = true) : v.prospect setup c x = v.wind x := by
  simp [prospect, hs]

theorem prospect_of_due (hs : v.isStopping = false) (hd : v.isDue = true) :
    v.prospect setup c x = ⟨[(Outcome.ofAnswer (c.replicasOf x)).notice x], putsOf (.ofAnswer (c.replicasOf x)),
      v.conclude (.ofAnswer (c.replicasOf x))⟩ := by
  simp [prospect, hs, hd]

theorem prospect_of_not_due (hs : v.isStopping = false) (hd : v.isDue = false) :
    v.prospect setup c x =
      if v.isEnding then ⟨(hearAll setup c x v.pending v).2 ++ ((hearAll setup c x v.pending v).1.stop.wind x).lines, 0,
        ((hearAll setup c x v.pending v).1.stop.wind x).last⟩
      else ⟨(hearAll setup c x v.pending v).2, 0, (hearAll setup c x v.pending v).1.sleep setup⟩ := by
  simp [prospect, hs, hd]

theorem puts_wind (v : Standing) : (v.wind x).puts = 0 := by
  unfold wind
  split <;> rfl

/-- **Whatever is done next for a resource**, it comes to the same. -/
theorem Next.prospect (hn : Next setup c x v u lines puts) (hv : v.Coherent) :
    v.prospect setup c x =
      ⟨lines ++ (u.prospect setup c x).lines, puts + (u.prospect setup c x).puts, (u.prospect setup c x).last⟩ := by
  cases hn with
  | hear hs hp =>
    obtain ⟨n, hn⟩ : ∃ n, v.pending = n + 1 := ⟨v.pending - 1, by omega⟩
    obtain ⟨-, hpending, hending, hstopping⟩ := hear_frame setup c x v
    have hd := hv.not_due_of_pending hs hp
    rw [prospect_of_not_due hs hd, prospect_of_not_due (hstopping.trans hs) (isDue_hear hd), hending, hpending, hn,
      Nat.add_sub_cancel, hearAll_succ]
    cases v.isEnding with
    | true => simp
    | false => simp
  | @sleep delay hs hw =>
    have hentry := hv.watched (by rw [hw]; nofun)
    have hlt := setup.clock.lt_wake v.now (hv.delayed delay _ hw)
    have hd : ({ v with watch := some (delay, .waiting (setup.clock.wake v.now delay)) } : Standing).isDue = false := by
      simp [isDue]
      omega
    rw [prospect_of_not_due hs (isDue_of_scheduled hw), prospect_of_not_due (by exact hs) hd,
      hearAll_of_watched _ hentry, hearAll_of_watched _ (by exact hentry)]
    cases he : v.isEnding with
    | true => simp [wind, stop, hw]
    | false => simp [Standing.sleep, hw]
  | @ask delay deadline hs hw hd =>
    rw [prospect_of_due hs (by simp [isDue, hw, hd]), prospect_of_due (by exact hs) rfl]
    simp [conclude]
  | @answer delay hs hw =>
    have hd : v.isDue = true := by simp [isDue, hw]
    obtain ⟨hp, he⟩ := hv.due hs hd
    rw [prospect_of_due hs hd, (settled_conclude _ hp he).prospect]
    simp
  | endStream hs he hp =>
    rw [prospect_of_not_due hs (hv.not_due_of_isEnding hs he), prospect_of_stopping (v := v.stop) rfl, he, hp]
    simp [hearAll, puts_wind]
  | cancel hs hw =>
    rw [prospect_of_stopping hs, prospect_of_stopping (by exact hs)]
    simp [wind, hw]

end Standing

end ReplicaWatch.Monitor
