import ReplicaWatch.Proofs.Monitor.Accounting
import ReplicaWatch.Proofs.Signals.Reading

/-!
# What comes out of a feed of lines

A monitor that reads lines takes in the same signals and reports the same lines whichever way the input is cut into
pieces, and whatever else happens between the pieces.

- `Observation.isYield`, `yieldedIn`: what a run shows of reading; `writtenIn`: what has been written in a run;
- `Leaves`, `Reads`: a move reads nothing, or takes one step of reading (`Move.leaves_or_reads`);
- `Run.faithful`: what the whole input yields is what the run has shown, and what the rest of the input yields as long
  as the monitor goes on reading;
- `yields_independent_of_cuts`: the comparison with the input at once.
-/

namespace ReplicaWatch.Monitor

variable {setup : Setup} {s t : State} {a : Action} {seen : List Observation} {h : List Moment} {f g k : Feed}
  {now : Nat}

/-! ## What is written and what is read -/

/-- Whether something that is seen comes from reading: a signal is taken, or a line is reported. -/
def Observation.isYield : Observation → Bool
  | .ingested _ => true
  | .notice (.lineUnreadable ..) => true
  | .notice (.streamFailed _) => true
  | _ => false

/-- What a run shows of reading. -/
def yieldedIn (h : List Moment) : List Observation := (observations h).filter Observation.isYield

/-- The bytes that an action writes. -/
def Action.written : Action → List UInt8
  | .write bytes => bytes
  | _ => []

/-- The bytes that are written in a run. -/
def writtenIn (h : List Moment) : List UInt8 := h.flatMap fun m => m.action.written

/-- Whether the input of a monitor has ended. -/
def State.isInputEnded (s : State) : Bool :=
  match s.source with
  | .queue _ => false
  | .feed f => f.hasEnded

/-- Whether nothing is written once the input has ended. -/
def Moment.writesInTime (m : Moment) : Bool := m.action.written.isEmpty || !m.before.isInputEnded

/-- The loop is there, and nothing has told it to stop. -/
structure State.IsGoing (s : State) : Prop where
  going : s.isStopping = false
  live : s.loop.isCrashed = false

/-- A monitor that goes on has gone on before. -/
theorem Move.isGoing (hm : Move setup s a t seen) (ht : t.IsGoing) : s.IsGoing := ⟨hm.going ht.going, hm.live ht.live⟩

theorem isYield_obituary {w : Watch} : (obituary w).filter Observation.isYield = [] := by
  refine List.filter_eq_nil_iff.mpr fun o ho => ?_
  obtain ⟨report, rfl⟩ := eq_notice_of_mem_obituary ho
  nofun

theorem isYield_seen {w : Watch} {o : Outcome} : (o.seen w).filter Observation.isYield = [] := by
  refine List.filter_eq_nil_iff.mpr fun ob hob => ?_
  rcases Outcome.mem_seen hob with ⟨rfl, -⟩ | rfl
  · nofun
  · cases o <;> nofun

/-! ## Moves -/

/-- A move that reads nothing. Bytes may arrive, the input may end, and the feed is closed only when the monitor does
not go on. -/
structure Leaves (s : State) (f : Feed) (a : Action) (t : State) (g : Feed) (seen : List Observation) : Prop where
  source : t.source = .feed g
  silent : seen.filter Observation.isYield = []
  ended : f.hasEnded = true → g.hasEnded = true ∧ a.written = []
  unread : t.IsGoing → g.unread = f.unread ++ a.written ∧ g.isOpen = f.isOpen
  cause : t.cause = some .streamEnded → s.cause = some .streamEnded

/-- A move that takes one step of reading. The monitor goes on, with the feed open, only if there may be more. -/
structure Reads (s : State) (f : Feed) (a : Action) (t : State) (g : Feed) (seen : List Observation) (taken : Taken)
    (notices : List Notice) : Prop where
  going : s.IsGoing
  written : a.written = []
  step : f.next = (taken, g, notices)
  found : taken ≠ .nothing
  source : t.source = if taken.hasMore then .feed g else .feed g.close
  shown : seen.filter Observation.isYield = taken.shown notices
  cause : t.cause = if taken.hasMore then none else some .streamEnded

theorem next_of_feed {taken : Taken} {source : Source} {notices : List Notice}
    (h : (Source.feed f).next = (taken, source, notices)) : ∃ g, source = .feed g ∧ f.next = (taken, g, notices) := by
  cases hf : f.next with
  | mk x rest =>
    obtain ⟨g, ns⟩ := rest
    simp only [Source.next, hf, Prod.mk.injEq] at h
    obtain ⟨rfl, rfl, rfl⟩ := h
    exact ⟨g, rfl, rfl⟩

/-- Everything that reading reports is shown. -/
theorem isYield_of_next {source after : Source} {taken : Taken} {notices : List Notice}
    (h : source.next = (taken, after, notices)) :
    (notices.map Observation.notice).filter Observation.isYield = notices.map .notice := by
  refine List.filter_eq_self.mpr fun o ho => ?_
  obtain ⟨n, hn, rfl⟩ := List.mem_map.mp ho
  rcases unreadable_of_next h n hn with ⟨error, line, rfl⟩ | ⟨error, rfl⟩ <;> rfl

theorem cause_of_going (hs : s.isStopping = false) : s.cause = none := by simpa [State.isStopping] using hs

/-- A monitor that waits for a signal goes on. -/
theorem State.IsListening.isGoing (hl : s.IsListening) : s.IsGoing := ⟨hl.going, by rw [hl.loop]; rfl⟩

/-- A monitor that has taken a signal has taken one step of reading. -/
theorem reads_of_signal {signal : Signal} {source : Source} {more : List Observation} (hl : s.IsListening)
    (hf : s.source = .feed f) (hn : s.source.next = (.signal signal, source, [])) (hs : t.source = source)
    (hc : t.cause = s.cause) (hseen : seen = .ingested signal :: more) (hmore : more.filter Observation.isYield = []) :
    ∃ g, Leaves s f .runLoop t g seen ∨ ∃ taken notices, Reads s f .runLoop t g seen taken notices := by
  rw [hf] at hn
  obtain ⟨g, rfl, hnext⟩ := next_of_feed hn
  refine ⟨g, Or.inr ⟨_, _, hl.isGoing, rfl, hnext, nofun, hs, ?_, ?_⟩⟩
  · rw [hseen, List.filter_cons_of_pos rfl, hmore]
    rfl
  · rw [hc, cause_of_going hl.going]
    rfl

/-- **A move reads nothing, or takes one step of reading**; here, one that neither writes nor ends the input. -/
theorem Move.leaves_or_reads (hm : Move setup s a t seen) (hf : s.source = .feed f) (hwrite : ∀ bytes, a ≠ .write bytes)
    (hend : a ≠ .endInput) :
    ∃ g, Leaves s f a t g seen ∨ ∃ taken notices, Reads s f a t g seen taken notices := by
  have hw : a.written = [] := by
    cases a with
    | write bytes => exact absurd rfl (hwrite bytes)
    | _ => rfl
  have keeps (hs : t.source = s.source) (hseen : seen.filter Observation.isYield = [])
      (hc : t.cause = some .streamEnded → s.cause = some .streamEnded) :
      ∃ g, Leaves s f a t g seen ∨ ∃ taken notices, Reads s f a t g seen taken notices :=
    ⟨f, Or.inl ⟨hs.trans hf, hseen, fun h => ⟨h, hw⟩, fun _ => ⟨by rw [hw, List.append_nil], rfl⟩, hc⟩⟩
  have closes (hs : t.source = s.source.close) (hseen : seen = [])
      (hdown : t.isStopping = true ∨ t.loop.isCrashed = true)
      (hc : t.cause = s.cause) : ∃ g, Leaves s f a t g seen ∨ ∃ taken notices, Reads s f a t g seen taken notices := by
    refine ⟨f.close, Or.inl ⟨by rw [hs, hf]; rfl, by rw [hseen]; rfl, fun h => ⟨h, hw⟩, fun ht => ?_, fun h => hc ▸ h⟩⟩
    rcases hdown with h | h
    · rw [ht.going] at h; cases h
    · rw [ht.live] at h; cases h
  have queued {P : Prop} {q : SignalQueue} (hq : s.source = .queue q) : P := by
    rw [hf] at hq
    cases hq
  cases hm with
  | heed _ hstop => exact closes rfl rfl (Or.inl hstop) rfl
  | crashLoop => exact closes rfl rfl (Or.inr rfl) rfl
  | reap => exact keeps rfl isYield_obituary id
  | @skip source notices hl hn =>
    have hshown := isYield_of_next hn
    rw [hf] at hn
    obtain ⟨g, rfl, hnext⟩ := next_of_feed hn
    exact ⟨g, Or.inr ⟨_, _, hl.isGoing, rfl, hnext, nofun, rfl, hshown, cause_of_going hl.going⟩⟩
  | ignore hl hn | coalesce hl hn | passOver hl hn | rewatch hl hn | consult hl hn =>
    exact reads_of_signal hl hf hn rfl rfl rfl rfl
  | @endStream source notices hl hn =>
    have hshown := isYield_of_next hn
    rw [hf] at hn
    obtain ⟨g, rfl, hnext⟩ := next_of_feed hn
    refine ⟨g, Or.inr ⟨_, _, hl.isGoing, rfl, hnext, nofun, rfl, ?_, rfl⟩⟩
    rw [List.filter_append, hshown]
    exact List.append_nil _
  | advance _ ha => exact keeps rfl (by cases ha <;> rfl) id
  | @conclude w _ o =>
    refine keeps rfl isYield_seen fun hc => ?_
    have hc : s.cause.or o.cause? = some .streamEnded := hc
    rcases Option.or_eq_some_iff.mp hc with h | ⟨-, h⟩
    · exact h
    · cases o <;> cases h
  | requestStop => exact keeps rfl rfl nofun
  | publish _ _ hq | runPublisher hq | giveUp _ hq | endPublishing hq => exact queued hq
  | write bytes => exact absurd rfl (hwrite bytes)
  | endInput => exact absurd rfl hend
  | _ => exact keeps rfl rfl id

/-- Bytes that are written arrive. -/
theorem leaves_of_write {bytes : List UInt8} (step : s.step? setup (.write bytes) = some (t, seen))
    (hf : s.source = .feed f) (hw : (⟨s, .write bytes, t, seen⟩ : Moment).writesInTime = true) :
    Leaves s f (.write bytes) t (f.write bytes) seen := by
  simp only [State.step?, State.onFeed, hf] at step
  cases step
  refine ⟨rfl, rfl, fun he => ⟨he, ?_⟩, fun _ => ⟨rfl, rfl⟩, id⟩
  simpa [Moment.writesInTime, State.isInputEnded, hf, he] using hw

theorem leaves_of_endInput (step : s.step? setup .endInput = some (t, seen)) (hf : s.source = .feed f) :
    Leaves s f .endInput t f.endInput seen := by
  simp only [State.step?, State.onFeed, hf] at step
  cases step
  exact ⟨rfl, rfl, fun _ => ⟨rfl, rfl⟩, fun _ => ⟨(List.append_nil _).symm, rfl⟩, id⟩

/-! ## Runs -/

/-- However the input goes on, the whole of it yields what a run has shown of it and something more: what is left of
the input yields that as long as the monitor goes on, and it is nothing if the end of the stream has stopped it. -/
def Faithful (f : Feed) (h : List Moment) (s : State) (g : Feed) : Prop :=
  ∀ rest, (g.hasEnded = true → rest = []) →
    ∃ more, (f.completed (writtenIn h ++ rest)).readThrough = yieldedIn h ++ more ∧
      (s.IsGoing → more = (g.completed rest).readThrough) ∧ (s.cause = some .streamEnded → more = [])

theorem writtenIn_snoc (h : List Moment) (m : Moment) : writtenIn (h ++ [m]) = writtenIn h ++ m.action.written := by
  simp [writtenIn]

theorem yieldedIn_snoc (h : List Moment) (m : Moment) :
    yieldedIn (h ++ [m]) = yieldedIn h ++ m.seen.filter Observation.isYield := by
  simp [yieldedIn]

theorem Faithful.leaves {g' : Feed} (hfaith : Faithful f h s g) (hm : Move setup s a t seen)
    (hl : Leaves s g a t g' seen) : Faithful f (h ++ [⟨s, a, t, seen⟩]) t g' := by
  intro rest hrest
  have hmore : g.hasEnded = true → a.written ++ rest = [] := fun he => by
    obtain ⟨he', hw⟩ := hl.ended he
    rw [hw, hrest he']
    rfl
  obtain ⟨more, hwhole, hgoing, hend⟩ := hfaith (a.written ++ rest) hmore
  refine ⟨more, ?_, fun ht => ?_, fun hc => hend (hl.cause hc)⟩
  · rw [writtenIn_snoc, yieldedIn_snoc, hl.silent, List.append_nil, List.append_assoc]
    exact hwhole
  · rw [hgoing (hm.isGoing ht)]
    obtain ⟨hunread, hopen⟩ := hl.unread ht
    unfold Feed.completed
    rw [hunread, hopen, List.append_assoc]

theorem Faithful.reads {g' : Feed} {taken : Taken} {notices : List Notice} (hfaith : Faithful f h s g)
    (hr : Reads s g a t g' seen taken notices) :
    Faithful f (h ++ [⟨s, a, t, seen⟩]) t (if taken.hasMore then g' else g'.close) := by
  intro rest hrest
  have hsame : g.hasEnded = true → rest = [] := by
    intro he
    refine hrest ?_
    rw [← Feed.hasEnded_of_next hr.step] at he
    split <;> exact he
  obtain ⟨more, hwhole, hgoing, -⟩ := hfaith rest hsame
  -- the step finds in the whole input what it has found in the part of it that had arrived
  rw [hgoing hr.going, Feed.readThrough_of_next (Feed.next_completed hr.step hr.found hsame),
    ← List.append_assoc] at hwhole
  have hsnoc : yieldedIn (h ++ [⟨s, a, t, seen⟩]) = yieldedIn h ++ taken.shown notices := by
    rw [yieldedIn_snoc, hr.shown]
  rw [writtenIn_snoc, hsnoc, hr.written, List.append_nil]
  have hcause := hr.cause
  cases hm : taken.hasMore with
  | true =>
    rw [hm] at hwhole hcause
    exact ⟨_, hwhole, fun _ => rfl, fun hc => by rw [hc] at hcause; cases hcause⟩
  | false =>
    rw [hm] at hwhole hcause
    refine ⟨_, hwhole, fun ht => ?_, fun _ => rfl⟩
    have hnone := cause_of_going ht.going
    rw [hcause] at hnone
    cases hnone

/-- **Every run is faithful** to what is written while the input has not ended. -/
theorem Run.faithful (hr : Run setup (State.start setup now (.feed f)) h s) (hw : ∀ m ∈ h, m.writesInTime = true) :
    ∃ g, s.source = .feed g ∧ Faithful f h s g := by
  induction hr with
  | nil =>
    refine ⟨f, rfl, fun rest _ => ⟨_, rfl, fun _ => rfl, nofun⟩⟩
  | @snoc h t u a seen hr step ih =>
    obtain ⟨g, hg, hfaith⟩ := ih fun m hm => hw m (List.mem_append_left _ hm)
    have hm : Move setup t a u seen := (hr.reachable (.start now (.feed f))).move step
    have leaves {g' : Feed} (hl : Leaves t g a u g' seen) :
        ∃ g', u.source = .feed g' ∧ Faithful f (h ++ [⟨t, a, u, seen⟩]) u g' :=
      ⟨g', hl.source, hfaith.leaves hm hl⟩
    by_cases hwrite : ∃ bytes, a = .write bytes
    · obtain ⟨bytes, rfl⟩ := hwrite
      exact leaves (leaves_of_write step hg (hw _ (List.mem_append_right _ (List.mem_singleton_self _))))
    by_cases hend : a = .endInput
    · subst hend
      exact leaves (leaves_of_endInput step hg)
    obtain ⟨g', hl | ⟨taken, notices, hreads⟩⟩ :=
      hm.leaves_or_reads hg (fun bytes ha => hwrite ⟨bytes, ha⟩) hend
    · exact leaves hl
    · refine ⟨_, ?_, hfaith.reads hreads⟩
      rw [hreads.source]
      split <;> rfl

/-! ## After shutdown -/

/-- A monitor that is stopping reads nothing. -/
theorem Move.reads_nothing (hm : Move setup s a t seen) (hs : s.isStopping = true) :
    seen.filter Observation.isYield = [] := by
  cases hm with
  | reap => exact isYield_obituary
  | skip hl | ignore hl | coalesce hl | passOver hl | rewatch hl | consult hl | endStream hl =>
    exact absurd hs (by rw [hl.going]; nofun)
  | advance _ ha => cases ha <;> rfl
  | conclude => exact isYield_seen
  | _ => rfl

theorem Run.reads_nothing (hs : Reachable setup s) (hstop : s.isStopping = true) (hr : Run setup s h t) :
    t.isStopping = true ∧ yieldedIn h = [] := by
  refine Run.induct (P := fun h t => t.isStopping = true ∧ yieldedIn h = []) hs ⟨hstop, rfl⟩ ?_ hr
  rintro h t a u seen - - hm ⟨ht, hnil⟩
  refine ⟨hm.isStopping ht, ?_⟩
  rw [yieldedIn_snoc, hnil, hm.reads_nothing ht]
  rfl

/-! ## The whole input at once -/

/-- **However the input is cut**, a monitor that reads lines shows what the input yields when all of it is there at
once. In every run from a feed of lines in which nothing is written after the end of the input: whatever is still to
come of the input, the signals taken so far and the lines reported, in their order, are a first part of what the whole
of it yields, and all of that once the end of the stream has stopped the monitor. From a cause of shutdown on, no more
are shown. -/
theorem yields_independent_of_cuts (hr : Run setup (State.start setup now (.feed f)) h s)
    (hw : ∀ m ∈ h, m.writesInTime = true) :
    (∀ rest, (s.isInputEnded = true → rest = []) →
      yieldedIn h <+: (f.completed (writtenIn h ++ rest)).readThrough ∧
      (s.cause = some .streamEnded → yieldedIn h = (f.completed (writtenIn h ++ rest)).readThrough)) ∧
    ∀ k m l, h = k ++ m :: l → m.before.isStopping = true → yieldedIn h = yieldedIn k := by
  constructor
  · intro rest hrest
    obtain ⟨g, hg, hfaith⟩ := hr.faithful hw
    have hended : g.hasEnded = true → rest = [] := fun he => hrest (by unfold State.isInputEnded; rw [hg]; exact he)
    obtain ⟨more, hwhole, -, hend⟩ := hfaith rest hended
    refine ⟨⟨more, hwhole.symm⟩, fun hc => ?_⟩
    rw [hwhole, hend hc, List.append_nil]
  · rintro k m l rfl hstop
    obtain ⟨hk, step, hl⟩ := hr.split
    have hrest : yieldedIn (m :: l) = [] :=
      (((Run.single step).trans hl).reads_nothing (hk.reachable (.start now (.feed f))) hstop).2
    unfold yieldedIn at hrest ⊢
    rw [observations_append, List.filter_append, hrest, List.append_nil]

/-- The moves of a monitor that reads three lines and a last one without a line end. The input is cut inside a line
end and inside a character, and a watch is scheduled and ends before the second line is complete. -/
def readingCut : List Action :=
  [.runLoop, .write (Text.encodeUtf8 "\x7b\"resource_name\":\"a\",\"may_promote\":true\x7d\r"),
    .write (Text.encodeUtf8 "\n\x7b\"resource_name\":\"" ++ [0xC3]), .runLoop,
    .answerDefinition (.ok (Definition.withQuorum "a" (some "majority"))), .runWatch 0, .elapse 60000, .runWatch 0,
    .answerReplicas 0 (.ok []), .write ([0xA9] ++ Text.encodeUtf8 "\"\x7d\r"), .runLoop,
    .write (Text.encodeUtf8 "\nno\n"), .runLoop, .runLoop,
    .write (Text.encodeUtf8 "\x7b\"resource_name\":\"b\"\x7d"), .endInput, .runLoop, .runLoop, .runLoop]

theorem yields_of_reading_cut :
    let p := (State.start { monitor := "m" } 0 (.feed {})).played { monitor := "m" } readingCut
    (∀ m ∈ p.1, m.writesInTime = true) ∧ p.2.loop = .stopped .streamEnded ∧
      writtenIn p.1 = Text.encodeUtf8 ("\x7b\"resource_name\":\"a\",\"may_promote\":true\x7d\r\n" ++
        "\x7b\"resource_name\":\"é\"\x7d\r\nno\n\x7b\"resource_name\":\"b\"\x7d") ∧
      Feed.yields (Feed.lines (writtenIn p.1)) =
        [.ingested ⟨"a", true⟩, .ingested ⟨"é", false⟩,
          .notice (.lineUnreadable "syntax error" "no"), .ingested ⟨"b", false⟩] := by
  intro p
  have hr : Run { monitor := "m" } (State.start { monitor := "m" } 0 (.feed {})) p.1 p.2 :=
    run_played (by decide +kernel)
  obtain ⟨hw, hl, hc, hwritten, hyielded⟩ :
      (∀ m ∈ p.1, m.writesInTime = true) ∧ p.2.loop = .stopped .streamEnded ∧ p.2.cause = some .streamEnded ∧
        writtenIn p.1 = Text.encodeUtf8 ("\x7b\"resource_name\":\"a\",\"may_promote\":true\x7d\r\n" ++
          "\x7b\"resource_name\":\"é\"\x7d\r\nno\n\x7b\"resource_name\":\"b\"\x7d") ∧
        yieldedIn p.1 = [.ingested ⟨"a", true⟩, .ingested ⟨"é", false⟩,
          .notice (.lineUnreadable "syntax error" "no"), .ingested ⟨"b", false⟩] := by
    decide +kernel
  refine ⟨hw, hl, hwritten, ?_⟩
  have hall := ((yields_independent_of_cuts hr hw).1 [] fun _ => rfl).2 hc
  rw [List.append_nil, Feed.readThrough_of_hasEnded _ rfl rfl, hyielded] at hall
  exact hall.symm

end ReplicaWatch.Monitor
