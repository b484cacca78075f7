import ReplicaWatch.Proofs.Monitor.Bookkeeping
import ReplicaWatch.Proofs.Monitor.Traffic

/-!
# A monitor is traffic

The loop of a monitor admits signals one after the other, while its watches come and go. So what a monitor does to its
registry is an interleaving of calls: one for every signal that changes the registry or has to be asked about, which is
later the call of its watch. `Mirrors` says which calls stand for the loop and for the watches under way. A move is
followed by at most two deeds (`Mirrors.move`), hence every registry that a monitor gets into comes of an interleaving
(`Reachable.mirrored`).
-/

namespace ReplicaWatch.Monitor

/-- Traffic that has come to the same as a monitor: the registry is the same, a call asks for the loop, and every watch
under way has been granted to a call. Calls with great numbers have not been made yet. -/
structure Mirrors (s : State) (u : Traffic (String × Nat)) : Prop where
  reached : ∃ h, Interleaving Prod.fst {} h u
  registry : u.registry = s.registry
  asking : ∀ r, s.loop = .consulting r → ∃ n, u.stage (r, n) = .asking
  watching : ∀ w ∈ s.unfinished, ∃ n, (u.stage (w.resource, n)).isWatching = true
  spare : ∃ bound, ∀ r n, bound ≤ n → u.stage (r, n) = .arrived

variable {setup : Setup} {s t : State} {u : Traffic (String × Nat)} {a : Action} {seen : List Observation} {w : Watch}
  {r : String} {n : Nat} {stage : Stage} {d : Deed}

namespace Mirrors

theorem start (setup : Setup) (now : Nat) (source : Source) : Mirrors (State.start setup now source) {} where
  reached := ⟨[], .nil⟩
  registry := rfl
  asking := nofun
  watching := nofun
  spare := ⟨0, fun _ _ _ => rfl⟩

/-- A move that leaves the registry alone needs no deed. -/
theorem of_kept (hm : Mirrors s u) (hregistry : t.registry = s.registry)
    (hloop : ∀ r, t.loop = .consulting r → s.loop = .consulting r)
    (hwatches : ∀ w ∈ t.unfinished, ∃ v ∈ s.unfinished, v.resource = w.resource) : Mirrors t u where
  reached := hm.reached
  registry := hm.registry.trans hregistry.symm
  asking := fun r hr => hm.asking r (hloop r hr)
  watching := fun w hw => by
    obtain ⟨v, hv, hvw⟩ := hwatches w hw
    exact hvw ▸ hm.watching v hv
  spare := hm.spare

/-- A deed of a call. The loop and the watches under way after it have other calls, or this one at its new stage. -/
theorem deed (hm : Mirrors s u) (hnext : (u.stage (r, n)).next s.registry r d = some (t.registry, stage))
    (hloop : ∀ q, t.loop = .consulting q → (∃ m, u.stage (q, m) = .asking ∧ (q, m) ≠ (r, n)) ∨ q = r ∧ stage = .asking)
    (hwatches : ∀ w ∈ t.unfinished, (∃ m, (u.stage (w.resource, m)).isWatching = true ∧ (w.resource, m) ≠ (r, n)) ∨
      w.resource = r ∧ stage.isWatching = true) :
    ∃ v, Mirrors t v ∧ v.stage (r, n) = stage := by
  let v : Traffic (String × Nat) := ⟨t.registry, Function.update u.stage (r, n) stage⟩
  have hself : v.stage (r, n) = stage := Function.update_self _ _ _
  have hother {c : String × Nat} (hc : c ≠ (r, n)) : v.stage c = u.stage c := Function.update_of_ne hc _ _
  refine ⟨v, ⟨?reached, rfl, ?asking, ?watching, ?spare⟩, hself⟩
  case reached =>
    obtain ⟨h, hr⟩ := hm.reached
    refine ⟨_, hr.snoc (i := (r, n)) (d := d) (step?_eq_some_iff.mpr ⟨?_, fun c hc => hother hc⟩)⟩
    rw [hself, hm.registry]
    exact hnext
  case asking =>
    intro q hq
    rcases hloop q hq with ⟨m, hm, hne⟩ | ⟨rfl, rfl⟩
    · exact ⟨m, (hother hne).trans hm⟩
    · exact ⟨n, hself⟩
  case watching =>
    intro w hw
    rcases hwatches w hw with ⟨m, hm, hne⟩ | ⟨rfl, hstage⟩
    · exact ⟨m, by rw [hother hne, hm]⟩
    · exact ⟨n, by rw [hself, hstage]⟩
  case spare =>
    obtain ⟨bound, hspare⟩ := hm.spare
    refine ⟨max bound (n + 1), fun q m hm => ?_⟩
    have hne : (q, m) ≠ (r, n) := by
      rintro ⟨⟩
      omega
    exact (hother hne).trans (hspare q m (by omega))

/-- A call without a watch is not the call of any watch under way. -/
theorem watching_apart (hm : Mirrors s u) (hw : w ∈ s.unfinished) {c : String × Nat}
    (hc : (u.stage c).isWatching = false) : ∃ m, (u.stage (w.resource, m)).isWatching = true ∧ (w.resource, m) ≠ c := by
  obtain ⟨m, hm⟩ := hm.watching w hw
  refine ⟨m, hm, ?_⟩
  rintro rfl
  cases hm.symm.trans hc

/-- A call that has not been made yet. -/
theorem exists_arrived (hm : Mirrors s u) (r : String) : ∃ n, u.stage (r, n) = .arrived := by
  obtain ⟨bound, hspare⟩ := hm.spare
  exact ⟨bound, hspare r bound (Nat.le_refl _)⟩

/-- The loop asks about a resource without an entry. -/
theorem consult (hm : Mirrors s u) (hr : s.registry.get? r = none) (hregistry : t.registry = s.registry)
    (hloop : t.loop = .consulting r) (hwatches : t.unfinished = s.unfinished) : ∃ v, Mirrors t v := by
  obtain ⟨n, hn⟩ := hm.exists_arrived r
  have hnext : (u.stage (r, n)).next s.registry r .lookUp = some (t.registry, .asking) := by
    rw [hn, Stage.next, (Registry.admitKnown_eq_none_iff _ _).mpr hr, hregistry]
  refine (hm.deed hnext (fun q hq => ?_) fun w hw => ?_).imp fun _ hv => hv.1
  · cases hloop.symm.trans hq
    exact .inr ⟨rfl, rfl⟩
  · exact .inl (hm.watching_apart (hwatches ▸ hw) (by rw [hn]; rfl))

/-- The loop has heard about a resource. -/
theorem learn (hm : Mirrors s u) (hr : s.loop = .consulting r) (definition : Definition) :
    ∃ n v, Mirrors { s with loop := .listening } v ∧ v.stage (r, n) = .informed definition.hasQuorum := by
  obtain ⟨n, hn⟩ := hm.asking r hr
  refine ⟨n, hm.deed (d := .hear (.ok definition)) (by rw [hn]; rfl) nofun fun w hw => ?_⟩
  exact .inl (hm.watching_apart hw (by rw [hn]; rfl))

/-- A watch is scheduled for a call that is granted one. -/
theorem spawning (hm : Mirrors s u) (hloop : ∀ q, s.loop ≠ .consulting q) {kind : DelayKind}
    (hnext : (u.stage (r, n)).next s.registry r d =
      some (s.registry.insert r ⟨true, true⟩, .decided (.ok (.watch kind))))
    (hn : (u.stage (r, n)).isWatching = false) : ∃ v, Mirrors (s.spawning setup r kind) v := by
  refine (hm.deed (t := s.spawning setup r kind) hnext (fun q hq => absurd hq (hloop q)) fun w hw => ?_).imp
    fun _ hv => hv.1
  rcases mem_unfinished_spawning hw with hw | rfl
  · exact .inl (hm.watching_apart hw hn)
  · exact .inr ⟨rfl, rfl⟩

/-- A watch under way ends: its call tells the registry, if it tells it anything. -/
theorem conclude (hm : Mirrors s u) (hb : Booked s) (hw : w ∈ s.unfinished) (o : Outcome) (output : Channel String) :
    ∃ v, Mirrors (s.conclude w o output) v := by
  have hkept (h : (s.conclude w o output).registry = s.registry) : ∃ v, Mirrors (s.conclude w o output) v :=
    ⟨u, hm.of_kept h (fun _ hr => hr) fun x hx => ⟨x, (mem_unfinished_conclude.mp hx).1, rfl⟩⟩
  have hreleased {d : Deed} (h : ∀ kind, (Stage.decided (.ok (.watch kind))).next s.registry w.resource d =
      some ((s.conclude w o output).registry, .released)) : ∃ v, Mirrors (s.conclude w o output) v := by
    obtain ⟨n, hn⟩ := hm.watching w hw
    obtain ⟨kind, hkind⟩ := Stage.eq_of_isWatching hn
    refine (hm.deed (r := w.resource) (n := n) (by rw [hkind]; exact h kind) (fun q hq => .inl ?_) fun x hx => .inl ?_).imp
      fun _ hv => hv.1
    · obtain ⟨m, hm⟩ := hm.asking q hq
      refine ⟨m, hm, ?_⟩
      rintro ⟨⟩
      cases hm.symm.trans hkind
    · -- no other watch of the resource is under way
      obtain ⟨hx, hid⟩ := mem_unfinished_conclude.mp hx
      obtain ⟨m, hm⟩ := hm.watching x hx
      exact ⟨m, hm, fun hc => hid (hb.single x hx w hw (Prod.mk.inj hc).1)⟩
  cases o with
  | cancelled | failed => exact hkept rfl
  | removed => exact hreleased (d := .forget) fun _ => rfl
  | notified | undelivered | settled => exact hreleased (d := .finish) fun _ => rfl

/-- Every move of a monitor is followed by the traffic. -/
theorem move (hm : Mirrors s u) (hb : Booked s) (h : Move setup s a t seen) : ∃ v, Mirrors t v := by
  have same : ∀ w ∈ s.unfinished, ∃ v ∈ s.unfinished, v.resource = w.resource := fun w hw => ⟨w, hw, rfl⟩
  cases h with
  | consult _ _ hg => exact hm.consult hg rfl rfl rfl
  | @rewatch r source hl _ hg =>
    have htaking : Mirrors (s.taking source) u := hm.of_kept rfl (fun _ hr => hr) same
    have hadmit : (s.taking source).registry.admitKnown r = _ := Registry.admitKnown_of_some hg
    obtain ⟨n, hn⟩ := hm.exists_arrived r
    refine htaking.spawning (n := n) (d := .lookUp) (fun q hq => ?_) ?_ (by rw [hn]; rfl)
    · cases hl.loop.symm.trans hq
    · rw [hn, Stage.next, hadmit]
      rfl
  | @record r definition hl _ hg hq =>
    obtain ⟨n, v, hv, hn⟩ := hm.learn hl definition
    have hnext : (v.stage (r, n)).next s.registry r .enter =
        some (s.registry.insert r ⟨false, false⟩, .decided (.ok (.skip .noQuorum))) := by
      rw [hn, hq, Stage.next, Registry.admitNew_of_none hg]
      rfl
    refine (hv.deed hnext (fun q hloop => ?_) fun w hw => ?_).imp fun _ hv => hv.1
    · cases hloop
    · exact .inl (hv.watching_apart hw (by rw [hn]; rfl))
  | @watch r definition hl _ hg hq =>
    obtain ⟨n, v, hv, hn⟩ := hm.learn hl definition
    refine hv.spawning (n := n) (d := .enter) nofun ?_ (by rw [hn]; rfl)
    rw [hn, hq, Stage.next, Registry.admitNew_of_none hg]
    rfl
  | reap =>
    refine ⟨u, hm.of_kept rfl (fun _ hr => hr) ?_⟩
    rw [unfinished_eraseP]
    exact same
  | crashLoop => exact ⟨u, hm.of_kept rfl nofun nofun⟩
  | advance hw ha =>
    refine ⟨u, hm.of_kept rfl (fun _ hr => hr) fun x hx => ?_⟩
    obtain ⟨y, hy, -, hxy⟩ :=
      exists_of_mem_unfinished_setPhase hb.distinct (mem_unfinished_of_watch? hw ha.isOver_eq_false) hx
    exact ⟨y, hy, hxy⟩
  | @crashWatch w report hw hp =>
    refine ⟨u, hm.of_kept rfl (fun _ hr => hr) fun x hx => ?_⟩
    obtain ⟨y, hy, -, hxy⟩ := @exists_of_mem_unfinished_setPhase s x w hb.distinct
      (mem_unfinished_of_watch? hw (by rw [hp]; rfl)) (.crashed report) s.output hx
    exact ⟨y, hy, hxy⟩
  | conclude hw ho => exact hm.conclude hb (mem_unfinished_of_watch? hw ho) _ _
  | begin | heed | endStream | abandon | shrug | stop => exact ⟨u, hm.of_kept rfl nofun same⟩
  | _ => exact ⟨u, hm.of_kept rfl (fun _ hr => hr) same⟩

end Mirrors

/-- **What a monitor does to its registry is an interleaving of admissions**, each watch under way being one that has
been granted. -/
theorem Reachable.mirrored (hs : Reachable setup s) : ∃ u, Mirrors s u := by
  induction hs with
  | start now source => exact ⟨{}, .start setup now source⟩
  | step hs step ih =>
    obtain ⟨u, hu⟩ := ih
    exact hu.move hs.booked (hs.move step)

end ReplicaWatch.Monitor
