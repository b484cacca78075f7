import ReplicaWatch.Proofs.Monitor.Justification

/-!
# How often a name comes

Between two names of a resource lies a whole watch of it. What carries this is one floor under the time of the next
name: no watch of the resource under way asks before it, and none that is scheduled from now on does, whether the
resource is known or has to be seen for the first time again.

- `Watch.soonest`: the earliest time at which a watch asks; `Rests`: the floor, kept by every move (`Move.rests`);
- `Move.rests_of_puts`, `Move.rests_of_forgets`: a name raises it by the delay of a known resource, and forgetting the
  resource by the delay of a new one;
- `Run.unheard`: a resource of which no signal has been taken is not known;
- `puts_apart`: the distances that follow.
-/

namespace ReplicaWatch.Monitor

variable {setup : Setup} {s t : State} {a : Action} {seen : List Observation} {h : List Moment} {v w : Watch}
  {m n : Moment} {now f : Nat} {source : Source} {r : String}

/-! ## The floor -/

/-- The earliest time at which a watch asks, or has asked. -/
def Watch.soonest (w : Watch) (now : Nat) : Nat :=
  match w.phase with
  | .scheduled => now + w.delay
  | .waiting deadline => deadline
  | _ => now

/-- No name of a resource is put on the output before a time: no watch of it asks before. A resource that is not known
waits out the initial delay first, and one that is known and not watched the existing one. -/
structure Rests (setup : Setup) (r : String) (f : Nat) (s : State) : Prop where
  watches : ∀ w ∈ s.unfinished, w.resource = r → f ≤ w.soonest s.now
  unknown : s.registry.get? r = none → f ≤ s.now + setup.config.initialDelay
  idle : s.registry.get? r = some ⟨true, false⟩ → f ≤ s.now + setup.config.existingDelay

/-- Whether a watch has asked and has not ended. -/
def WatchPhase.HasAsked (p : WatchPhase) : Prop := p = .asking ∨ p = .sending

theorem Watch.soonest_le (w : Watch) {now later : Nat} (hle : now ≤ later) : w.soonest now ≤ w.soonest later := by
  unfold soonest
  split
  · exact Nat.add_le_add_right hle _
  · exact Nat.le_refl _
  · exact hle

theorem Watch.soonest_of_hasAsked (hp : w.phase.HasAsked) (now : Nat) : w.soonest now = now := by
  unfold soonest
  rcases hp with hp | hp <;> rw [hp]

/-- The floor of a resource with a watch that has asked has been reached. -/
theorem Rests.le_now (hs : Rests setup r f s) (hw : w ∈ s.unfinished) (hr : w.resource = r)
    (hp : w.phase.HasAsked) : f ≤ s.now :=
  (hs.watches w hw hr).trans (Nat.le_of_eq (Watch.soonest_of_hasAsked hp s.now))

/-- Nobody watches a resource whose entry does not say so. -/
theorem Rests.of_unwatched (hb : Booked s) (hr : s.registry.get? r ≠ some ⟨true, true⟩)
    (hunknown : s.registry.get? r = none → f ≤ s.now + setup.config.initialDelay)
    (hidle : s.registry.get? r = some ⟨true, false⟩ → f ≤ s.now + setup.config.existingDelay) : Rests setup r f s :=
  ⟨fun _ hw hwr => absurd hwr (hb.resource_ne hr hw), hunknown, hidle⟩

/-! ## What a move does to it -/

/-- Every watch waits out a delay of the configuration. -/
theorem Move.delays (hm : Move setup s a t seen) (hb : Booked s)
    (hs : ∀ w ∈ s.unfinished, ∃ kind, w.delay = setup.config.delay kind) :
    ∀ w ∈ t.unfinished, ∃ kind, w.delay = setup.config.delay kind := by
  intro w hw
  cases hm.came hb hw with
  | stayed hw => exact hs w hw
  | @advanced v _ _ hv _ heq => rw [heq]; exact hs v hv
  | first _ _ _ _ _ _ heq => rw [heq]; exact ⟨.initial, rfl⟩
  | again _ _ _ heq => rw [heq]; exact ⟨.existing, rfl⟩

theorem Reachable.delays (hs : Reachable setup s) : ∀ w ∈ s.unfinished, ∃ kind, w.delay = setup.config.delay kind := by
  induction hs with
  | start => nofun
  | step hs step ih => exact (hs.move step).delays hs.booked ih

theorem Ending.hasAsked {o : Outcome} {output : Channel String} (he : Ending s w a o output) (ho : o ≠ .cancelled)
    : w.phase.HasAsked := by
  cases he with
  | cancel | withdraw => exact absurd rfl ho
  | sendLater hp | refuseLater hp => exact Or.inr hp
  | vanish hp | mismatch hp | settle hp | send hp | refuse hp | fail hp => exact Or.inl hp

/-- An entry that says that nobody watches was so before, or a watch that had asked has ended. -/
theorem Move.released (hm : Move setup s a t seen)
    (ht : t.registry.get? r = none ∨ t.registry.get? r = some ⟨true, false⟩) :
    t.registry.get? r = s.registry.get? r ∨
      t.now = s.now ∧ ∃ w ∈ s.unfinished, w.resource = r ∧ w.phase.HasAsked := by
  have inserted {e : Record} {q : String} (he : e ≠ ⟨true, false⟩)
      (ht : (s.registry.insert q e).get? r = none ∨ (s.registry.insert q e).get? r = some ⟨true, false⟩) :
      (s.registry.insert q e).get? r = s.registry.get? r := by
    rw [NameMap.get?_insert] at ht ⊢
    split
    · rename_i hq
      rw [if_pos hq] at ht
      rcases ht with ht | ht
      · cases ht
      · exact absurd (Option.some.inj ht) he
    · rfl
  cases hm with
  | rewatch | record | watch => exact Or.inl (inserted nofun ht)
  | @conclude w _ o output hw hp he =>
    by_cases hr : w.resource = r
    · by_cases ho : o = .cancelled
      · subst ho
        exact Or.inl rfl
      · exact Or.inr ⟨rfl, w, mem_unfinished_of_watch? hw hp, hr, he.hasAsked ho⟩
    · exact Or.inl (o.get?_registry_of_ne s.registry hr)
  | _ => exact Or.inl rfl

/-- A watch that goes on asks no sooner than before, if no sleep ends before its time. -/
theorem Advance.soonest_le {phase : WatchPhase} {output : Channel String} (ha : Advance setup s w a phase output seen)
    (hsleep : s.now + w.delay ≤ setup.clock.wake s.now w.delay) :
    w.soonest s.now ≤ ({ w with phase := phase } : Watch).soonest s.now := by
  unfold Watch.soonest
  cases ha with
  | sleep hp => rw [hp]; exact hsleep
  | ask hp _ hd => rw [hp]; exact hd
  | block hp => rw [hp]

/-- A watch that is scheduled asks no sooner than the floor: the resource is not known, or nobody watches it. -/
theorem Rests.le_nextWatch (hf : Rests setup r f s) {kind : DelayKind}
    (hr : kind = .initial ∧ s.registry.get? r = none ∨ kind = .existing ∧ s.registry.get? r = some ⟨true, false⟩) :
    f ≤ (s.nextWatch setup r kind).soonest s.now := by
  rcases hr with ⟨rfl, hr⟩ | ⟨rfl, hr⟩
  · exact hf.unknown hr
  · exact hf.idle hr

/-- **Every move keeps the floor**, if no sleep ends before its time. -/
theorem Move.rests (hsleep : ∀ now kind, now + setup.config.delay kind ≤ setup.clock.wake now (setup.config.delay kind))
    (hm : Move setup s a t seen) (hs : Reachable setup s) (hf : Rests setup r f s) : Rests setup r f t := by
  have hb := hs.booked
  have hnow := hm.now_le
  constructor
  case watches =>
    intro w hw hr
    cases hm.came hb hw with
    | stayed hw => exact (hf.watches w hw hr).trans (w.soonest_le hnow)
    | @advanced v phase output hv ha heq =>
      subst heq
      obtain ⟨kind, hkind⟩ := hs.delays v hv
      have hslept : s.now + v.delay ≤ setup.clock.wake s.now v.delay := hkind ▸ hsleep s.now kind
      exact ((hf.watches v hv hr).trans (ha.soonest_le hslept)).trans (Watch.soonest_le _ hnow)
    | first _ hg _ _ _ _ heq =>
      subst heq hr
      exact (hf.le_nextWatch (Or.inl ⟨rfl, hg⟩)).trans (Watch.soonest_le _ hnow)
    | again hg _ _ heq =>
      subst heq hr
      exact (hf.le_nextWatch (Or.inr ⟨rfl, hg⟩)).trans (Watch.soonest_le _ hnow)
  case unknown =>
    intro ht
    rcases hm.released (Or.inl ht) with hsame | ⟨_, w, hw, hr, hp⟩
    · have := hf.unknown (hsame.symm.trans ht)
      omega
    · have := hf.le_now hw hr hp
      omega
  case idle =>
    intro ht
    rcases hm.released (Or.inr ht) with hsame | ⟨_, w, hw, hr, hp⟩
    · have := hf.idle (hsame.symm.trans ht)
      omega
    · have := hf.le_now hw hr hp
      omega

theorem Run.rests (hsleep : ∀ now kind, now + setup.config.delay kind ≤ setup.clock.wake now (setup.config.delay kind))
    (hs : Reachable setup s) (hr : Run setup s h t) (hf : Rests setup r f s) : Rests setup r f t :=
  Run.induct (P := fun _ t => Rests setup r f t) hs hf (fun _ ht hm ih => hm.rests hsleep ht ih) hr

/-! ## What raises it -/

/-- A name is put on the output when the floor has been reached, and raises it by the existing delay. -/
theorem Move.rests_of_puts {id : Nat} (hm : Move setup s a t seen) (hb : Booked s) (ho : .put id r ∈ seen) :
    (∀ f, Rests setup r f s → f ≤ s.now) ∧ Rests setup r (s.now + setup.config.existingDelay) t := by
  have ht := hm.booked hb
  obtain ⟨w, hw, output, -, rfl, he, rfl, -⟩ := hm.puts ho
  have hentry : (s.conclude w .notified output).registry.get? w.resource = some ⟨true, false⟩ := by
    show (s.registry.finishWatch w.resource).get? w.resource = _
    rw [Registry.get?_finishWatch, if_pos rfl, hb.entry w hw]
    rfl
  refine ⟨fun f hf => hf.le_now hw rfl (he.hasAsked nofun), .of_unwatched ht ?_ ?_ fun _ => Nat.le_refl _⟩
  · rw [hentry]
    nofun
  · rw [hentry]
    nofun

/-- A move puts the name of one watch at most on the output. -/
theorem Move.putter_unique {x y : Nat} {q : String} (hm : Move setup s a t seen) (hx : .put x q ∈ seen)
    (hy : .put y r ∈ seen) : x = y := by
  obtain ⟨w, -, -, rfl, -, -, -, rfl⟩ := hm.puts hx
  rcases Outcome.mem_seen hy with ⟨h, -⟩ | h
  · cases h
    rfl
  · cases h

/-- A resource is known before a moment and not known after it. -/
def Moment.Forgets (m : Moment) (r : String) : Prop :=
  m.before.registry.get? r ≠ none ∧ m.after.registry.get? r = none

/-- A resource is forgotten when the floor has been reached, and that raises it by the initial delay. -/
theorem Move.rests_of_forgets (hm : Move setup s a t seen) (hb : Booked s)
    (hr : (⟨s, a, t, seen⟩ : Moment).Forgets r) (hf : Rests setup r f s) :
    Rests setup r (f + setup.config.initialDelay) t := by
  obtain ⟨hknown, hforgotten⟩ := hr
  have hforgotten : t.registry.get? r = none := hforgotten
  rcases hm.released (Or.inl hforgotten) with hsame | ⟨hnow, w, hw, hwr, hp⟩
  · exact absurd (hsame.symm.trans hforgotten) hknown
  · have hreached := hf.le_now hw hwr hp
    refine .of_unwatched (hm.booked hb) ?_ (fun _ => by omega) ?_
    · rw [hforgotten]
      nofun
    · rw [hforgotten]
      nofun

/-! ## Resources that are not known -/

/-- A resource that is not known stays so, unless the loop has asked about it. -/
theorem Move.get?_registry_of_none (hm : Move setup s a t seen) (hs : s.registry.get? r = none)
    (hl : s.loop ≠ .consulting r) : t.registry.get? r = none := by
  have inserted {e : Record} {q : String} (hq : q ≠ r) : (s.registry.insert q e).get? r = none :=
    (NameMap.get?_insert_of_ne _ _ hq).trans hs
  cases hm with
  | rewatch _ _ hg => exact inserted fun hq => by rw [hq, hs] at hg; cases hg
  | record hq => exact inserted fun h => hl (h ▸ hq)
  | watch hq => exact inserted fun h => hl (h ▸ hq)
  | conclude => exact Outcome.get?_registry_of_none _ _ hs
  | _ => exact hs

/-- A resource of which no signal has been taken is not known, and is not asked about. -/
theorem Run.unheard (hr : Run setup (State.start setup now source) h s) (hn : ∀ m ∈ h, ¬ m.Takes r) :
    s.registry.get? r = none ∧ s.loop ≠ .consulting r := by
  refine Run.induct (P := fun h s => (∀ m ∈ h, ¬ m.Takes r) → s.registry.get? r = none ∧ s.loop ≠ .consulting r)
    (.start now source) (fun _ => ⟨NameMap.get?_empty r, nofun⟩) ?_ hr hn
  intro h t a u seen _ ht hm ih hn
  obtain ⟨hunknown, hloop⟩ := ih fun m hm => hn m (List.mem_append_left _ hm)
  have hnone : .ingested ⟨r, true⟩ ∉ seen := hn ⟨t, a, u, seen⟩ (List.mem_append_right _ (List.mem_singleton_self _))
  refine ⟨hm.get?_registry_of_none hunknown hloop, fun hl => ?_⟩
  rcases hm.consulting hl with ⟨hl, -⟩ | htaken
  · exact hloop hl
  · exact hnone htaken

/-! ## The distances -/

/-- A floor before a moment of a run holds before every later one. -/
theorem Run.rests_at {i j : Nat}
    (hsleep : ∀ now kind, now + setup.config.delay kind ≤ setup.clock.wake now (setup.config.delay kind))
    (hr : Run setup (State.start setup now source) h s) (hi : h[i]? = some m) (hj : h[j]? = some n) (hij : i < j)
    (hf : Rests setup r f m.after) : Rests setup r f n.before := by
  obtain ⟨_, _, -, hupto⟩ := hr.upTo (List.mem_of_getElem? hi)
  obtain ⟨_, hbetween⟩ := hr.between hi hj hij
  exact hbetween.rests hsleep (hupto.reachable (.start now source)) hf

/-- What has happened in a history has happened for a first time. -/
theorem exists_first {P : Moment → Prop} (hp : ∃ m ∈ h, P m) : ∃ k m l, h = k ++ m :: l ∧ P m ∧ ∀ x ∈ k, ¬ P x := by
  classical
  have hfound : (h.find? fun m => decide (P m)).isSome = true := by simpa using hp
  obtain ⟨m, hm⟩ := Option.isSome_iff_exists.mp hfound
  obtain ⟨hpm, k, l, hkl, hk⟩ := List.find?_eq_some_iff_append.mp hm
  exact ⟨k, m, l, hkl, of_decide_eq_true hpm, fun x hx => by simpa using hk x hx⟩

/-- A resource that is known at a moment has been heard of, and had not been known until then. -/
theorem Run.exists_first_signal {j : Nat} (hr : Run setup (State.start setup now source) h s) (hj : h[j]? = some n)
    (hknown : n.before.registry.get? r ≠ none) :
    ∃ i m, h[i]? = some m ∧ i < j ∧ m.Takes r ∧ (∀ x ∈ h.take i, ¬ x.Takes r) ∧
      m.before.registry.get? r = none := by
  obtain ⟨hlt, rfl⟩ := List.getElem?_eq_some_iff.mp hj
  have hcut : h.take j ++ h[j] :: h.drop (j + 1) = h := by
    rw [List.getElem_cons_drop, List.take_append_drop]
  have hbefore : Run setup (State.start setup now source) (h.take j) h[j].before := (hcut ▸ hr).split.1
  have hheard : ∃ m ∈ h.take j, m.Takes r := by
    by_contra hnone
    exact hknown (hbefore.unheard fun m hm htakes => hnone ⟨m, hm, htakes⟩).1
  obtain ⟨k, m, l, hkl, htakes, hfirst⟩ := exists_first hheard
  rw [hkl] at hbefore hcut
  have htake : h.take k.length = k := by
    rw [← hcut, List.append_assoc]
    exact List.take_left
  refine ⟨k.length, m, ?_, ?_, htakes, htake.symm ▸ hfirst, (hbefore.split.1.unheard hfirst).1⟩
  · rw [← hcut]
    simp
  · have := congrArg List.length hkl
    simp only [List.length_take, List.length_append, List.length_cons] at this
    omega

/-- **Names of a resource keep their distance**, if no sleep ends before its time. Every watch that puts a name on the
output does so once. Of any two names of a resource the later comes at least the existing delay after the earlier, and
the initial delay more if the resource has been forgotten in between. The first signal of the resource comes at least
the initial delay before every name of it. -/
theorem puts_apart (hsleep : ∀ now kind, now + setup.config.delay kind ≤ setup.clock.wake now (setup.config.delay kind))
    (hr : Run setup (State.start setup now source) h s) :
    (putters h).Nodup ∧
    (∀ (i j : Nat) (m n : Moment) (v w : Nat) (r : String), h[i]? = some m → h[j]? = some n → m.Puts v r →
      n.Puts w r → v ≠ w → i ≤ j → m.time + setup.config.existingDelay ≤ n.time ∧
      ∀ (k : Nat) (x : Moment), i < k → k < j → h[k]? = some x → x.Forgets r →
        m.time + setup.config.existingDelay + setup.config.initialDelay ≤ n.time) ∧
    ∀ (j : Nat) (n : Moment) (w : Nat) (r : String), h[j]? = some n → n.Puts w r →
      ∃ i m, h[i]? = some m ∧ i < j ∧ m.Takes r ∧ (∀ x ∈ h.take i, ¬ x.Takes r) ∧
        m.time + setup.config.initialDelay ≤ n.time := by
  have hstart : Reachable setup (State.start setup now source) := .start now source
  have move {i : Nat} {m : Moment} (hi : h[i]? = some m) : Reachable setup m.before ∧
      Move setup m.before m.action m.after m.seen := hr.move_of_mem hstart (List.mem_of_getElem? hi)
  -- a name comes when the floor has been reached
  have reached {j w f : Nat} {n : Moment} {r : String} (hj : h[j]? = some n) (hput : n.Puts w r)
      (hf : Rests setup r f n.before) : f ≤ n.time :=
    ((move hj).2.rests_of_puts (move hj).1.booked hput).1 f hf
  refine ⟨hr.put_once.nodup, fun i j m n v w r hi hj hv hw hne hij => ?_, fun j n w r hj hw => ?_⟩
  · have hlt : i < j := by
      refine Nat.lt_of_le_of_ne hij fun heq => ?_
      rw [heq, hj] at hi
      cases hi
      exact hne ((move hj).2.putter_unique hv hw)
    have hraised := ((move hi).2.rests_of_puts (move hi).1.booked hv).2
    refine ⟨reached hj hw (hr.rests_at hsleep hi hj hlt hraised), fun k x hik hkj hk hx => ?_⟩
    have hbefore := hr.rests_at hsleep hi hk hik hraised
    exact reached hj hw
      (hr.rests_at hsleep hk hj hkj ((move hk).2.rests_of_forgets (move hk).1.booked hx hbefore))
  · have hknown : n.before.registry.get? r ≠ none := by
      obtain ⟨x, hx, -, -, rfl, -⟩ := (move hj).2.puts hw
      rw [(move hj).1.booked.entry x hx]
      nofun
    obtain ⟨i, m, hi, hij, htakes, hfirst, hunknown⟩ := hr.exists_first_signal hj hknown
    refine ⟨i, m, hi, hij, htakes, hfirst, ?_⟩
    have hf : Rests setup r (m.time + setup.config.initialDelay) m.before := by
      refine .of_unwatched (move hi).1.booked ?_ (fun _ => Nat.le_refl _) ?_
      · rw [hunknown]
        nofun
      · rw [hunknown]
        nofun
    exact reached hj hw (hr.rests_at hsleep hi hj hij ((move hi).2.rests hsleep (move hi).1 hf))

/-- The moves of a monitor that finds a resource without a user, then finds it gone, and finds it anew without one. -/
def losingTwice (r : String) : List Action :=
  losingOne r ++
    [.receive, .runLoop, .runLoop, .runWatch 1, .elapse 45000, .runWatch 1, .answerReplicas 1 (.error (.notFound r)),
      .runLoop, .runLoop, .answerDefinition (.ok (Definition.withQuorum r (some "majority"))), .runWatch 2,
      .elapse 60000, .runWatch 2, .answerReplicas 2 (.ok [Replica.onDrbd r "n" true])]

theorem names_of_losing_twice :
    let p := (State.start { monitor := "m" } 0 (signalsOf ["r", "r", "r"])).played { monitor := "m" } (losingTwice "r")
    putters p.1 = [0, 2] ∧ ∃ m x n, p.1[6]? = some m ∧ p.1[13]? = some x ∧ p.1[20]? = some n ∧ m.Puts 0 "r" ∧
      x.Forgets "r" ∧ n.Puts 2 "r" ∧ m.time + 45000 + 60000 ≤ n.time := by
  intro p
  have hr : Run { monitor := "m" } (State.start { monitor := "m" } 0 (signalsOf ["r", "r", "r"])) p.1 p.2 :=
    run_played (by decide)
  have hsleep (now : Nat) (kind : DelayKind) :
      now + Config.delay {} kind ≤ Clock.thirtyYears.wake now (Config.delay {} kind) := by
    cases kind <;> exact Nat.le_refl _
  obtain ⟨m, hm, hfirst⟩ : At p.1 6 (Moment.Puts · 0 "r") := ⟨_, rfl, List.mem_cons_self⟩
  obtain ⟨x, hx, hgone⟩ : At p.1 13 (Moment.Forgets · "r") := ⟨_, rfl, nofun, rfl⟩
  obtain ⟨n, hn, hsecond⟩ : At p.1 20 (Moment.Puts · 2 "r") := ⟨_, rfl, List.mem_cons_self⟩
  have hapart := ((puts_apart hsleep hr).2.1 6 20 m n 0 2 "r" hm hn hfirst hsecond (by decide) (by decide)).2
  exact ⟨by decide, m, x, n, hm, hx, hn, hfirst, hgone, hsecond, hapart 13 x (by decide) (by decide) hx hgone⟩

end ReplicaWatch.Monitor
