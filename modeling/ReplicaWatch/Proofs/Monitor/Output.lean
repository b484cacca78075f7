import ReplicaWatch.Proofs.Monitor.Lifecycle
import ReplicaWatch.Proofs.Monitor.Shutdown

/-!
# Names reach the consumer once and in their order

Any number of watches put names on the output, and one consumer takes them off, at any time; a watch that finds no
room has its name written down and puts it in when it is granted a place, or takes it back when shutdown comes first.
Log, counter and output agree on the names all the same: `Conveyance` says what a move does to the three, and
`Conveyed` what a run has done to them.

- `receivedIn`, `deliveredIn`: the names that the consumer has taken, and those that were reported as delivered;
- `State.Addressed`: a place that is granted to a watch is for the name of its resource, kept by every move;
- `Move.conveyance`, `Run.conveyed`: the step and the run;
- `Move.output_ended`: once nobody can put a name on the output, nobody does;
- `names_received_in_order`: what the consumer gets, in all runs.
-/

namespace ReplicaWatch.Monitor

variable {setup : Setup} {s t : State} {a : Action} {seen : List Observation} {h k : List Moment} {w : Watch}
  {now : Nat} {source : Source}

/-! ## Names in a run -/

/-- The name that is reported as delivered, if one is. -/
def Notice.delivered? : Notice → Option String
  | .userLost r true => some r
  | _ => none

/-- The names that are reported as delivered, in what is seen. -/
def deliveredOf (seen : List Observation) : List String :=
  (seen.filterMap Observation.notice?).filterMap Notice.delivered?

/-- The names that the consumer has taken in a run, in their order. -/
def receivedIn (h : List Moment) : List String := receivedOf (observations h)

/-- The names that have been reported as delivered in a run, in the order of the reports. -/
def deliveredIn (h : List Moment) : List String := (reported h).filterMap Notice.delivered?

/-- Whether the consumer gives its end of the output away. -/
def Action.dropsReceiver : Action → Bool
  | dropReceiver => true
  | _ => false

/-- The consumer's end of the output is held throughout a run. -/
def Held (h : List Moment) : Prop := ∀ m ∈ h, m.action.dropsReceiver = false

theorem receivedIn_append (h k : List Moment) : receivedIn (h ++ k) = receivedIn h ++ receivedIn k := by
  simp [receivedIn, receivedOf]

theorem deliveredIn_append (h k : List Moment) : deliveredIn (h ++ k) = deliveredIn h ++ deliveredIn k := by
  simp [deliveredIn]

theorem receivedIn_singleton (m : Moment) : receivedIn [m] = receivedOf m.seen := by simp [receivedIn]

theorem deliveredIn_singleton (m : Moment) : deliveredIn [m] = deliveredOf m.seen := by simp [deliveredIn, deliveredOf]

theorem receivedOf_map_notice (notices : List Notice) : receivedOf (notices.map .notice) = [] := by
  unfold receivedOf
  rw [List.filterMap_map]
  exact List.filterMap_eq_nil_iff.mpr fun _ _ => rfl

/-- What is passed over or ends the stream is no delivery. -/
theorem deliveredOf_of_next {source after : Source} {taken : Taken} {notices : List Notice}
    (hn : source.next = (taken, after, notices)) (more : List Observation) :
    deliveredOf (notices.map .notice ++ more) = deliveredOf more := by
  unfold deliveredOf
  rw [List.filterMap_append, List.filterMap_append, filterMap_notice?]
  have hnone : notices.filterMap Notice.delivered? = [] := by
    refine List.filterMap_eq_nil_iff.mpr fun n hmem => ?_
    rcases unreadable_of_next hn n hmem with ⟨_, _, rfl⟩ | ⟨_, rfl⟩ <;> rfl
  rw [hnone, List.nil_append]

theorem receivedOf_obituary (w : Watch) : receivedOf (obituary w) = [] := by
  unfold obituary
  split <;> rfl

theorem deliveredOf_obituary (w : Watch) : deliveredOf (obituary w) = [] := by
  unfold obituary
  split <;> rfl

theorem receivedOf_seen (w : Watch) (o : Outcome) : receivedOf (o.seen w) = [] := by
  unfold Outcome.seen
  split <;> rfl

theorem deliveredOf_seen_notified (w : Watch) : deliveredOf (Outcome.notified.seen w) = [w.resource] := rfl

theorem deliveredOf_seen_of_ne (w : Watch) {o : Outcome} (ho : o ≠ .notified) : deliveredOf (o.seen w) = [] := by
  cases o with
  | notified => exact absurd rfl ho
  | cancelled | removed | undelivered | settled | failed => rfl

/-! ## Places are granted to names -/

/-- Whoever waits for room on the output, or has been granted a place, is a watch with the name of its resource. -/
def State.Addressed (s : State) : Prop :=
  ∀ e ∈ s.output.outstanding, e.1 < s.nextId ∧ ∀ w ∈ s.watches, w.id = e.1 → w.resource = e.2

/-- What keeps the places addressed: no entry is new, and a watch that is new has a number that is new. -/
theorem State.Addressed.of_subset (hs : s.Addressed) (hid : s.nextId ≤ t.nextId)
    (he : ∀ e ∈ t.output.outstanding, e ∈ s.output.outstanding)
    (hw : ∀ w ∈ t.watches, (∃ v ∈ s.watches, v.id = w.id ∧ v.resource = w.resource) ∨ s.nextId ≤ w.id) :
    t.Addressed := by
  intro e hmem
  obtain ⟨hlt, hname⟩ := hs e (he e hmem)
  refine ⟨Nat.lt_of_lt_of_le hlt hid, fun w hwt hwe => ?_⟩
  rcases hw w hwt with ⟨v, hv, hvid, hvr⟩ | hnew
  · rw [← hvr]
    exact hname v hv (hvid.trans hwe)
  · omega

theorem exists_of_mem_setPhase (id : Nat) (phase : WatchPhase) (hw : w ∈ (s.setPhase id phase).watches) :
    ∃ v ∈ s.watches, v.id = w.id ∧ v.resource = w.resource := by
  rcases mem_setPhase hw with ⟨hw, -⟩ | ⟨v, hv, -, rfl⟩
  · exact ⟨w, hw, rfl, rfl⟩
  · exact ⟨v, hv, rfl, rfl⟩

/-- The output that a watch leaves behind when it ends has no new entries. -/
theorem Ending.mem_outstanding {o : Outcome} {output : Channel String} (he : Ending s w a o output) :
    ∀ e ∈ output.outstanding, e ∈ s.output.outstanding := by
  intro e hmem
  have offered {reply : Channel.Reply} (ho : s.output.offer w.id w.resource = (reply, output))
      (hne : reply ≠ .blocked) : e ∈ s.output.outstanding := by
    unfold Channel.offer at ho
    split at ho
    · cases ho
      exact hmem
    · split at ho
      · cases ho
        exact hmem
      · cases ho
        exact absurd rfl hne
  have resumed {reply : Channel.Reply} (ho : s.output.resume w.id = (reply, output)) : e ∈ s.output.outstanding := by
    have : output = (s.output.resume w.id).2 := by rw [ho]
    rw [this] at hmem
    exact Channel.mem_outstanding_resume hmem
  cases he with
  | withdraw => exact Channel.mem_outstanding_withdraw hmem
  | send _ _ _ ho => exact offered ho nofun
  | refuse _ _ _ ho => exact offered ho nofun
  | sendLater _ _ ho | refuseLater _ _ ho => exact resumed ho
  | cancel | vanish | mismatch | settle | fail => exact hmem

theorem Move.addressed (hm : Move setup s a t seen) (hb : Booked s) (hs : s.Addressed) : t.Addressed := by
  have stays : ∀ w ∈ s.watches, (∃ v ∈ s.watches, v.id = w.id ∧ v.resource = w.resource) ∨ s.nextId ≤ w.id :=
    fun w hw => Or.inl ⟨w, hw, rfl, rfl⟩
  have spawned (r : String) (kind : DelayKind) : ∀ w ∈ s.watches ++ [s.nextWatch setup r kind],
      (∃ v ∈ s.watches, v.id = w.id ∧ v.resource = w.resource) ∨ s.nextId ≤ w.id := by
    intro w hw
    rcases List.mem_append.mp hw with hw | hw
    · exact stays w hw
    · rw [List.mem_singleton.mp hw]
      exact Or.inr (Nat.le_refl _)
  cases hm with
  | reap => exact hs.of_subset (Nat.le_refl _) (fun _ he => he) fun w hw => stays w (List.mem_of_mem_eraseP hw)
  | @rewatch r => exact hs.of_subset (Nat.le_succ _) (fun _ he => he) (spawned r _)
  | @watch r => exact hs.of_subset (Nat.le_succ _) (fun _ he => he) (spawned r _)
  | crashLoop => exact fun _ he => absurd he List.not_mem_nil
  | @advance w _ phase output _ hw ha =>
    have hold : ∀ v ∈ (s.setPhase w.id phase).watches,
        (∃ x ∈ s.watches, x.id = v.id ∧ x.resource = v.resource) ∨ s.nextId ≤ v.id :=
      fun v hv => Or.inl (exists_of_mem_setPhase w.id phase hv)
    cases ha with
    | sleep | ask => exact hs.of_subset (Nat.le_refl _) (fun _ he => he) hold
    | block _ _ _ ho =>
      -- the entry that is new is for the name of the watch that offers it
      have hmem : w ∈ s.watches := (hb.watch?.mp hw).1
      intro e he
      have : output = (s.output.offer w.id w.resource).2 := by rw [ho]
      rw [show e ∈ output.outstanding ↔ _ from Iff.rfl, this] at he
      rcases Channel.mem_outstanding_offer he with he | rfl
      · exact hs.of_subset (t := s.setPhase w.id .sending) (Nat.le_refl _) (fun _ he => he) hold e he
      · refine ⟨hb.below w hmem, fun v hv hid => ?_⟩
        obtain ⟨x, hx, hxid, hxr⟩ := exists_of_mem_setPhase w.id .sending hv
        rw [← hxr, eq_of_id_eq hb.distinct hx hmem (hxid.trans hid)]
  | @crashWatch w report =>
    exact hs.of_subset (Nat.le_refl _) (fun _ he => he) fun v hv =>
      Or.inl (exists_of_mem_setPhase w.id (.crashed report) hv)
  | @conclude w _ o _ _ _ he =>
    exact hs.of_subset (Nat.le_refl _) he.mem_outstanding fun v hv =>
      Or.inl (exists_of_mem_setPhase w.id (.finished o) hv)
  | receive _ ht =>
    refine hs.of_subset (Nat.le_refl _) (fun e he => ?_) stays
    rwa [show e ∈ _ ↔ _ from Iff.rfl, Channel.outstanding_of_take ht] at he
  | _ => exact hs.of_subset (Nat.le_refl _) (fun _ he => he) stays

theorem Reachable.addressed (hs : Reachable setup s) : s.Addressed := by
  induction hs with
  | start => exact fun _ he => absurd he List.not_mem_nil
  | step hs step ih => exact (hs.move step).addressed hs.booked ih

/-! ## Log, counter and output -/

/-- What a move does to the names: what the consumer takes leaves the output at its front, and what is reported as
delivered comes in at its back and is counted. -/
structure Conveyance (s t : State) (seen : List Observation) : Prop where
  capacity : t.output.capacity = s.output.capacity
  sound : s.output.Sound → t.output.Sound
  held : t.output.isOpen = true → s.output.isOpen = true
  names : t.output.isOpen = true → receivedOf seen ++ t.output.buffer = s.output.buffer ++ deliveredOf seen
  counter : t.metrics.notifications = s.metrics.notifications + (deliveredOf seen).length

/-- A move that leaves the output and its counter alone, and shows no name. -/
theorem Conveyance.of_kept (ho : t.output = s.output) (hm : t.metrics.notifications = s.metrics.notifications)
    (hr : receivedOf seen = []) (hd : deliveredOf seen = []) : Conveyance s t seen := by
  constructor
  case capacity => rw [ho]
  case sound => exact fun hs => ho ▸ hs
  case held => exact fun h => ho ▸ h
  case names => exact fun _ => by rw [hr, hd, ho, List.nil_append, List.append_nil]
  case counter => rw [hm, hd]; rfl

/-- A sender is let in or not: an item that is sent is the only one that is new, at the back. -/
theorem Ending.buffer {o : Outcome} {output : Channel String} (he : Ending s w a o output) (hs : s.Addressed)
    (hw : w ∈ s.watches) : output.buffer = s.output.buffer ++ deliveredOf (o.seen w) := by
  cases he with
  | cancel | vanish | mismatch | settle | fail => exact (List.append_nil _).symm
  | withdraw => rw [Channel.buffer_withdraw]; exact (List.append_nil _).symm
  | send _ _ _ ho => exact Channel.buffer_of_offer_sent ho
  | refuse _ _ _ ho => rw [Channel.buffer_of_offer_of_ne ho nofun]; exact (List.append_nil _).symm
  | refuseLater _ _ ho => rw [Channel.buffer_of_resume_of_ne ho nofun]; exact (List.append_nil _).symm
  | sendLater _ _ ho =>
    -- the place was granted to this watch, so the item is the name of its resource
    obtain ⟨item, hmem, hbuffer⟩ := Channel.buffer_of_resume_sent ho
    rw [hbuffer, deliveredOf_seen_notified]
    have := (hs (w.id, item) (List.mem_append_left _ hmem)).2 w hw rfl
    rw [this]

/-- The output that a watch leaves behind when it ends is the output that it found, with other items in it. -/
theorem Ending.output {o : Outcome} {output : Channel String} (he : Ending s w a o output) :
    output.capacity = s.output.capacity ∧ output.isOpen = s.output.isOpen ∧ (s.output.Sound → output.Sound) := by
  have offered {reply : Channel.Reply} (ho : s.output.offer w.id w.resource = (reply, output)) :
      output.capacity = s.output.capacity ∧ output.isOpen = s.output.isOpen ∧ (s.output.Sound → output.Sound) := by
    obtain rfl : output = (s.output.offer w.id w.resource).2 := by rw [ho]
    exact ⟨Channel.capacity_offer _ _ _, Channel.isOpen_offer _ _ _, fun h => Channel.sound_offer h _ _⟩
  have resumed {reply : Channel.Reply} (ho : s.output.resume w.id = (reply, output)) :
      output.capacity = s.output.capacity ∧ output.isOpen = s.output.isOpen ∧ (s.output.Sound → output.Sound) := by
    obtain rfl : output = (s.output.resume w.id).2 := by rw [ho]
    exact ⟨Channel.capacity_resume _ _, Channel.isOpen_resume _ _, fun h => Channel.sound_resume h _⟩
  cases he with
  | cancel | vanish | mismatch | settle | fail => exact ⟨rfl, rfl, id⟩
  | withdraw =>
    exact ⟨Channel.capacity_withdraw _ _, Channel.isOpen_withdraw _ _, fun h => Channel.sound_withdraw h _⟩
  | send _ _ _ ho | refuse _ _ _ ho => exact offered ho
  | sendLater _ _ ho | refuseLater _ _ ho => exact resumed ho

theorem Outcome.notifications (o : Outcome) (m : Metrics) (w : Watch) :
    (o.metrics m).notifications = m.notifications + (deliveredOf (o.seen w)).length := by
  cases o <;> rfl

/-- Log, counter and output agree on the names of every move. -/
theorem Move.conveyance (hm : Move setup s a t seen) (hb : Booked s) (hs : s.Addressed) : Conveyance s t seen := by
  cases hm with
  | reap => exact .of_kept rfl rfl (receivedOf_obituary _) (deliveredOf_obituary _)
  | skip _ hn =>
    have hd := deliveredOf_of_next hn []
    rw [List.append_nil] at hd
    exact .of_kept rfl rfl (receivedOf_map_notice _) hd
  | endStream _ hn =>
    refine .of_kept rfl rfl ?_ (deliveredOf_of_next hn _)
    unfold receivedOf
    rw [List.filterMap_append]
    exact List.append_eq_nil_iff.mpr ⟨receivedOf_map_notice _, rfl⟩
  | crashLoop =>
    constructor
    case capacity | counter => rfl
    case sound =>
      exact fun h => ⟨Nat.le_trans (Nat.add_le_add_left (Nat.zero_le _) _) h.within, fun _ hw => absurd rfl hw⟩
    case held => exact id
    case names => exact fun _ => (List.append_nil _).symm
  | @advance w _ phase output _ _ ha =>
    cases ha with
    | sleep | ask => exact .of_kept rfl rfl rfl rfl
    | block _ _ _ ho =>
      have hout : output = (s.output.offer w.id w.resource).2 := by rw [ho]
      constructor
      case capacity => rw [hout]; exact Channel.capacity_offer _ _ _
      case sound => rw [hout]; exact fun h => Channel.sound_offer h _ _
      case held => rw [hout]; exact fun h => (Channel.isOpen_offer _ _ _).symm.trans h
      case names => exact fun _ => (Channel.buffer_of_offer_of_ne ho nofun).trans (List.append_nil _).symm
      case counter => rfl
  | @conclude w _ o output hw ho he =>
    obtain ⟨hcap, hopen, hsound⟩ := he.output
    constructor
    case capacity => exact hcap
    case sound => exact hsound
    case held => exact fun h => hopen.symm.trans h
    case names =>
      rw [receivedOf_seen]
      exact fun _ => he.buffer hs (hb.watch?.mp hw).1
    case counter => exact o.notifications s.metrics w
  | @receive resource output ho ht =>
    constructor
    case capacity => exact Channel.capacity_of_take ht
    case sound => exact fun h => Channel.sound_take h ht
    case held => exact fun _ => ho
    case names => exact fun _ => (Channel.buffer_of_take ht).symm.trans (List.append_nil _).symm
    case counter => rfl
  | dropReceiver =>
    constructor
    case capacity | counter => rfl
    case sound => exact Channel.sound_discard
    case held | names => exact fun h => by cases h
  | _ => exact .of_kept rfl rfl rfl rfl

/-- What a run has done to the names: what the consumer has taken and what is still on the output is what was
reported as delivered, and counted. -/
structure Conveyed (setup : Setup) (h : List Moment) (s : State) : Prop where
  capacity : s.output.capacity = setup.config.outputCapacity
  sound : s.output.Sound
  names : s.output.isOpen = true → receivedIn h ++ s.output.buffer = deliveredIn h
  counter : s.metrics.notifications = (deliveredIn h).length

theorem Conveyed.snoc (hc : Conveyed setup h s) (hm : Conveyance s t seen) :
    Conveyed setup (h ++ [⟨s, a, t, seen⟩]) t := by
  constructor
  case capacity => exact hm.capacity.trans hc.capacity
  case sound => exact hm.sound hc.sound
  case names =>
    intro ho
    rw [receivedIn_append, deliveredIn_append, receivedIn_singleton, deliveredIn_singleton, List.append_assoc,
      hm.names ho, ← List.append_assoc, hc.names (hm.held ho)]
  case counter =>
    rw [deliveredIn_append, deliveredIn_singleton, List.length_append, hm.counter, hc.counter]

theorem Run.conveyed (hr : Run setup (State.start setup now source) h s) : Conveyed setup h s := by
  refine Run.induct (P := fun h s => Conveyed setup h s) (.start now source) ?_ ?_ hr
  · exact ⟨rfl, Channel.sound_new _, fun _ => rfl, rfl⟩
  · intro h t a u seen _ ht hm ih
    exact ih.snoc (hm.conveyance ht.booked ht.addressed)

/-- A name that is reported as delivered is put on the output in the same move. -/
theorem Move.put_of_delivered (hm : Move setup s a t seen) {r : String} (hr : r ∈ deliveredOf seen) :
    ∃ id, .put id r ∈ seen := by
  have none {P : Prop} (hnil : deliveredOf seen = []) : P := by
    rw [hnil] at hr
    cases hr
  cases hm with
  | reap => exact none (deliveredOf_obituary _)
  | skip _ hn =>
    have hd := deliveredOf_of_next hn []
    rw [List.append_nil] at hd
    exact none hd
  | endStream _ hn => exact none (deliveredOf_of_next hn _)
  | advance _ ha => cases ha <;> cases hr
  | @conclude w _ o =>
    by_cases ho : o = .notified
    · subst ho
      rw [List.mem_singleton.mp hr]
      exact ⟨w.id, List.mem_cons_self⟩
    · exact none (deliveredOf_seen_of_ne w ho)
  | _ => cases hr

/-- Nobody but the consumer closes the output. -/
theorem Move.isOpen_output (hm : Move setup s a t seen) (ha : a.dropsReceiver = false) :
    t.output.isOpen = s.output.isOpen := by
  cases hm with
  | @advance w _ phase output _ _ hadv =>
    cases hadv with
    | sleep | ask => rfl
    | block _ _ _ ho =>
      obtain rfl : output = (s.output.offer w.id w.resource).2 := by rw [ho]
      exact Channel.isOpen_offer _ _ _
  | conclude _ _ he => exact he.output.2.1
  | receive _ ht => exact Channel.isOpen_of_take ht
  | dropReceiver => cases ha
  | _ => rfl

theorem Run.isOpen_output (hr : Run setup (State.start setup now source) h s) (hheld : Held h) :
    s.output.isOpen = true := by
  refine Run.induct (P := fun h s => Held h → s.output.isOpen = true) (.start now source) (fun _ => rfl) ?_ hr hheld
  intro h t a u seen _ _ hm ih hheld
  rw [hm.isOpen_output (hheld _ (List.mem_append_right _ (List.mem_singleton_self _)))]
  exact ih fun m hm => hheld m (List.mem_append_left _ hm)

/-- As long as nothing is put on the output, there is nothing on it, and the consumer takes nothing. -/
theorem Run.received_of_unput (hr : Run setup (State.start setup now source) h s) (hheld : Held h)
    (hunput : ∀ id r, .put id r ∉ observations h) : receivedIn h = [] ∧ s.output.buffer = [] := by
  have hnone : deliveredIn h = [] := by
    refine Run.induct (P := fun h _ => (∀ id r, .put id r ∉ observations h) → deliveredIn h = []) (.start now source)
      (fun _ => rfl) ?_ hr hunput
    intro h t a u seen _ _ hm ih hunput
    rw [observations_append, observations_singleton] at hunput
    have hseen : deliveredOf seen = [] := List.eq_nil_iff_forall_not_mem.mpr fun r hd => by
      obtain ⟨id, hput⟩ := hm.put_of_delivered hd
      exact hunput id r (List.mem_append_right _ hput)
    rw [deliveredIn_append, deliveredIn_singleton, hseen,
      ih fun id r hput => hunput id r (List.mem_append_left _ hput)]
    rfl
  have hnames := hr.conveyed.names (hr.isOpen_output hheld)
  rw [hnone] at hnames
  exact List.append_eq_nil_iff.mp hnames

/-! ## The end of the names -/

theorem isOutputEnded_iff : s.isOutputEnded = true ↔ s.loop.isActive = false ∧ s.unfinished = [] := by
  simp [State.isOutputEnded]

/-- Once the loop schedules no more watches and none is under way, it stays so, and no name is delivered. -/
theorem Move.output_ended (hm : Move setup s a t seen) (hs : s.isOutputEnded = true) :
    t.isOutputEnded = true ∧ deliveredOf seen = [] := by
  obtain ⟨hloop, hidle⟩ := isOutputEnded_iff.mp hs
  have active {P : Prop} {l : LoopPhase} (hl : s.loop = l) (ha : l.isActive = true) : P := by
    rw [← hl, hloop] at ha
    cases ha
  have none {P : Prop} {w : Watch} (hw : s.watch? w.id = some w) (ho : w.phase.isOver = false) : P := by
    have := mem_unfinished_of_watch? hw ho
    rw [hidle] at this
    cases this
  cases hm with
  | begin hl | heed hl | abandon hl | shrug hl | record hl | watch hl | crashLoop hl => exact active hl rfl
  | skip hl | ignore hl | coalesce hl | passOver hl | rewatch hl | consult hl | endStream hl => exact active hl.loop rfl
  | reap => exact ⟨isOutputEnded_iff.mpr ⟨hloop, (unfinished_eraseP s).trans hidle⟩, deliveredOf_obituary _⟩
  | stop => exact ⟨isOutputEnded_iff.mpr ⟨rfl, hidle⟩, rfl⟩
  | advance hw ha => exact none hw ha.isOver_eq_false
  | crashWatch hw hp => exact none hw (by rw [hp]; rfl)
  | conclude hw ho => exact none hw ho
  | _ => exact ⟨hs, rfl⟩

theorem Run.output_ended (hs : Reachable setup s) (he : s.isOutputEnded = true) (hr : Run setup s h t) :
    t.isOutputEnded = true ∧ deliveredIn h = [] := by
  refine Run.induct (P := fun h t => t.isOutputEnded = true ∧ deliveredIn h = []) hs ⟨he, rfl⟩ ?_ hr
  rintro h t a u seen - ht hm ⟨hte, hd⟩
  obtain ⟨hue, hseen⟩ := hm.output_ended hte
  refine ⟨hue, ?_⟩
  rw [deliveredIn_append, hd, deliveredIn_singleton, hseen]
  rfl

/-- A consumer that learns that no name will come finds the output open, empty and ended. -/
theorem Move.learns_end (hm : Move setup s a t seen) (ho : .outputEnded ∈ seen) :
    s.output.isOpen = true ∧ s.output.buffer = [] ∧ s.isOutputEnded = true ∧ seen = [.outputEnded] := by
  cases hm with
  | receiveEnd hopen ht he => exact ⟨hopen, Channel.buffer_eq_nil_of_take ht, he, rfl⟩
  | reap =>
    obtain ⟨report, h⟩ := eq_notice_of_mem_obituary ho
    cases h
  | conclude => rcases Outcome.mem_seen ho with ⟨h, -⟩ | h <;> cases h
  | advance _ ha => cases ha <;> simp at ho
  | _ => simp at ho

/-- **Names reach the consumer once and in their order.** In every run, as long as the consumer's end of the output
is held, the names that it has taken and those that wait for it are the names reported as delivered, in the order of
the reports; the counter of notifications is how many there are, at most the capacity of the output of them wait, and
so no more have been delivered than the consumer has taken and the output holds. The consumer learns that no name
will come only when the loop schedules no more watches, none is under way, and it has taken every name that was
delivered, or will be. -/
theorem names_received_in_order (hr : Run setup (State.start setup now source) h s) :
    (Held h →
      receivedIn h ++ s.output.buffer = deliveredIn h ∧
      s.metrics.notifications ≤ (receivedIn h).length + setup.config.outputCapacity) ∧
    s.metrics.notifications = (deliveredIn h).length ∧
    s.output.buffer.length ≤ setup.config.outputCapacity ∧
    ∀ k m l, h = k ++ m :: l → .outputEnded ∈ m.seen →
      m.before.loop.isActive = false ∧ m.before.unfinished = [] ∧ m.before.output.buffer = [] ∧
      receivedIn k = deliveredIn h := by
  have hc : Conveyed setup h s := hr.conveyed
  have hbuffer : s.output.buffer.length ≤ setup.config.outputCapacity := by
    have := hc.sound.within
    rw [hc.capacity] at this
    omega
  refine ⟨fun hheld => ?_, hc.counter, hbuffer, ?_⟩
  · have hnames := hc.names (hr.isOpen_output hheld)
    refine ⟨hnames, ?_⟩
    rw [hc.counter, ← hnames, List.length_append]
    omega
  · rintro k m l rfl hend
    have hstart : Reachable setup (State.start setup now source) := .start now source
    obtain ⟨hk, step, hl⟩ := hr.split
    have hbefore : Reachable setup m.before := hk.reachable hstart
    obtain ⟨hopen, hempty, hended, hseen⟩ := (hbefore.move step).learns_end hend
    obtain ⟨hloop, hidle⟩ := isOutputEnded_iff.mp hended
    refine ⟨hloop, hidle, hempty, ?_⟩
    -- what the consumer has taken is all that was delivered before, and nothing is delivered from here on
    have hrest : deliveredIn (m :: l) = [] := (((Run.single step).trans hl).output_ended hbefore hended).2
    have hnames := hk.conveyed.names hopen
    rw [hempty, List.append_nil] at hnames
    rw [deliveredIn_append, hrest, List.append_nil, hnames]

/-- The moves of a monitor that is stopped while one name waits for the consumer and a watch for room, and of a
consumer that comes afterwards. -/
def stoppingBlocked (first second : String) : List Action :=
  watchingAll [first, second] ++
    [.runWatch 0, .runWatch 1, .elapse 60000, .runWatch 0, .runWatch 1,
      .answerReplicas 0 (.ok [Replica.onDrbd first "n" true]), .answerReplicas 1 (.ok [Replica.onDrbd second "n" true]),
      .requestStop, .runWatch 1, .runLoop, .receive, .receive]

theorem names_of_stopped_monitor :
    let p := (State.start { monitor := "m" } 0 (signalsOf ["a", "b"])).played { monitor := "m" }
      (stoppingBlocked "a" "b")
    Held p.1 ∧ (∃ k m, p.1 = k ++ [m] ∧ .outputEnded ∈ m.seen ∧ receivedIn k = ["a"]) ∧
      receivedIn p.1 ++ p.2.output.buffer = ["a"] ∧ p.2.metrics.notifications = 1 ∧ p.2.metrics.cancellations = 1 := by
  intro p
  have hr : Run { monitor := "m" } (State.start { monitor := "m" } 0 (signalsOf ["a", "b"])) p.1 p.2 :=
    run_played (by decide)
  have hkept : Held p.1 := by unfold Held; decide
  have hdelivered : deliveredIn p.1 = ["a"] := by decide
  obtain ⟨hheld, hcount, -, hend⟩ := names_received_in_order hr
  obtain ⟨m, hm, hlast⟩ : ∃ m, p.1.getLast? = some m ∧ .outputEnded ∈ m.seen := ⟨_, rfl, List.mem_cons_self⟩
  obtain ⟨k, hk⟩ := List.getLast?_eq_some_iff.mp hm
  refine ⟨hkept, ⟨k, m, hk, hlast, ?_⟩, ?_, ?_, by decide⟩
  · rw [(hend k m [] hk hlast).2.2.2, hdelivered]
  · rw [(hheld hkept).1, hdelivered]
  · rw [hcount, hdelivered]
    rfl

end ReplicaWatch.Monitor
