/-!
# Bounded channels

A channel takes items from any number of senders and hands them to one receiver in the order of their arrival.
At most `capacity` items are under way; a sender that finds no room waits. Every place that becomes free is
granted to the sender that has waited longest, who puts its item in when it next runs. A closed channel refuses
every sender, also one with a granted place, and still hands out what is in it.

- `offer`, `resume`, `withdraw`: the sending side, a sender known by its ticket;
- `take`, `close`, `discard`: the receiving side;
- `Sound`: at most `capacity` items and grants, and nobody waits while there is room. Every operation keeps it
  (`sound_offer`, `sound_resume`, `sound_withdraw`, `sound_take`, `sound_close`, `sound_discard`);
- `isOpen_offer`, `isOpen_withdraw`, `isOpen_resume`: no sender opens or closes a channel;
- `buffer_of_offer_sent`, `buffer_of_resume_sent`, `buffer_of_take`: items come in at one end and leave at the other;
- `outstanding`: the items that have not arrived. Only an offer adds to them (`mem_outstanding_offer`).
-/

namespace ReplicaWatch

structure Channel (α : Type) where
  /-- How many items may be under way. -/
  capacity : Nat
  /-- The items that have arrived, the oldest first. -/
  buffer : List α := []
  /-- The senders with a granted place and their items, in the order of the grants. -/
  granted : List (Nat × α) := []
  /-- The senders that wait and their items, the one that has waited longest first. -/
  waiting : List (Nat × α) := []
  /-- Whether the receiver still takes items. -/
  isOpen : Bool := true

namespace Channel

variable {α : Type}

/-- What a sender learns. -/
inductive Reply
  /-- The item has arrived. -/
  | sent
  /-- Nobody will take the item. -/
  | refused
  /-- There is no room yet. -/
  | blocked
deriving DecidableEq, Repr

/-- The greatest capacity that a channel can be built with on a machine of 64 bits: 61 bits, all of them set. -/
def greatestCapacity : Nat := 2305843009213693951

/-- Whether a channel of a capacity can be built. -/
def Buildable (capacity : Nat) : Prop := 1 ≤ capacity ∧ capacity ≤ greatestCapacity

instance (capacity : Nat) : Decidable (Buildable capacity) :=
  inferInstanceAs (Decidable (1 ≤ capacity ∧ capacity ≤ greatestCapacity))

/-- The number of places that are neither taken nor granted. -/
def room (c : Channel α) : Nat := c.capacity - (c.buffer.length + c.granted.length)

/-- Grants free places to waiting senders, as long as the channel is open. -/
def refill (c : Channel α) : Channel α :=
  if c.isOpen then
    { c with granted := c.granted ++ c.waiting.take c.room, waiting := c.waiting.drop c.room }
  else c

/-- Whether an entry belongs to a sender. -/
def isFrom (ticket : Nat) (entry : Nat × α) : Bool := entry.1 = ticket

/-- Entries without those of a sender. -/
def without (ticket : Nat) (entries : List (Nat × α)) : List (Nat × α) :=
  entries.filter fun e => !isFrom ticket e

/-! ## The sending side -/

/-- A sender offers an item for the first time. -/
def offer (c : Channel α) (ticket : Nat) (item : α) : Reply × Channel α :=
  if !c.isOpen then (.refused, c)
  else if 0 < c.room then (.sent, { c with buffer := c.buffer ++ [item] })
  else (.blocked, { c with waiting := c.waiting ++ [(ticket, item)] })

/-- Takes a sender off the channel and grants its place to the next one. -/
def withdraw (c : Channel α) (ticket : Nat) : Channel α :=
  refill { c with granted := without ticket c.granted, waiting := without ticket c.waiting }

/-- A waiting sender looks again. -/
def resume (c : Channel α) (ticket : Nat) : Reply × Channel α :=
  if !c.isOpen then (.refused, c.withdraw ticket)
  else
    match c.granted.find? (isFrom ticket) with
    | some (_, item) =>
      (.sent, { c with buffer := c.buffer ++ [item], granted := c.granted.eraseP (isFrom ticket) })
    | none => (.blocked, c)

/-! ## The receiving side -/

/-- Takes the oldest item. -/
def take (c : Channel α) : Option (α × Channel α) :=
  match c.buffer with
  | [] => none
  | item :: rest => some (item, refill { c with buffer := rest })

def close (c : Channel α) : Channel α := { c with isOpen := false }

/-- Takes no more items, and drops those that have arrived. -/
def discard (c : Channel α) : Channel α := { c with isOpen := false, buffer := [] }

/-- Whether somebody has an item that has not arrived. -/
def hasSenders (c : Channel α) : Bool := !c.granted.isEmpty || !c.waiting.isEmpty

/-! ## What is left alone -/

@[simp] theorem isOpen_refill (c : Channel α) : c.refill.isOpen = c.isOpen := by
  unfold refill
  split <;> rfl

@[simp] theorem buffer_refill (c : Channel α) : c.refill.buffer = c.buffer := by
  unfold refill
  split <;> rfl

@[simp] theorem isOpen_withdraw (c : Channel α) (ticket : Nat) : (c.withdraw ticket).isOpen = c.isOpen := by
  simp [withdraw]

@[simp] theorem buffer_withdraw (c : Channel α) (ticket : Nat) : (c.withdraw ticket).buffer = c.buffer := by
  simp [withdraw]

@[simp] theorem isOpen_offer (c : Channel α) (ticket : Nat) (item : α) :
    (c.offer ticket item).2.isOpen = c.isOpen := by
  unfold offer
  split
  · rfl
  · split <;> rfl

@[simp] theorem isOpen_resume (c : Channel α) (ticket : Nat) : (c.resume ticket).2.isOpen = c.isOpen := by
  unfold resume
  split
  · simp
  · split <;> rfl

@[simp] theorem capacity_refill (c : Channel α) : c.refill.capacity = c.capacity := by
  unfold refill
  split <;> rfl

@[simp] theorem capacity_withdraw (c : Channel α) (ticket : Nat) : (c.withdraw ticket).capacity = c.capacity := by
  simp [withdraw]

@[simp] theorem capacity_offer (c : Channel α) (ticket : Nat) (item : α) :
    (c.offer ticket item).2.capacity = c.capacity := by
  unfold offer
  split
  · rfl
  · split <;> rfl

@[simp] theorem capacity_resume (c : Channel α) (ticket : Nat) : (c.resume ticket).2.capacity = c.capacity := by
  unfold resume
  split
  · simp
  · split <;> rfl

/-! ## Items come and go -/

/-- An item that is sent comes in last. -/
theorem buffer_of_offer_sent {c d : Channel α} {ticket : Nat} {item : α} (h : c.offer ticket item = (.sent, d)) :
    d.buffer = c.buffer ++ [item] := by
  unfold offer at h
  split at h
  · cases h
  · split at h <;> cases h
    rfl

theorem buffer_of_offer_of_ne {c d : Channel α} {ticket : Nat} {item : α} {reply : Reply}
    (h : c.offer ticket item = (reply, d)) (hr : reply ≠ .sent) : d.buffer = c.buffer := by
  unfold offer at h
  split at h
  · cases h
    rfl
  · split at h <;> cases h
    · exact absurd rfl hr
    · rfl

/-- An item that has been granted a place comes in last. -/
theorem buffer_of_resume_sent {c d : Channel α} {ticket : Nat} (h : c.resume ticket = (.sent, d)) :
    ∃ item, (ticket, item) ∈ c.granted ∧ d.buffer = c.buffer ++ [item] := by
  unfold resume at h
  split at h
  · cases h
  · split at h
    · rename_i e item hf
      cases h
      have he : e = ticket := by simpa [isFrom] using List.find?_some hf
      exact ⟨item, he ▸ List.mem_of_find?_eq_some hf, rfl⟩
    · cases h

theorem buffer_of_resume_of_ne {c d : Channel α} {ticket : Nat} {reply : Reply} (h : c.resume ticket = (reply, d))
    (hr : reply ≠ .sent) : d.buffer = c.buffer := by
  unfold resume at h
  split at h
  · cases h
    exact buffer_withdraw c ticket
  · split at h <;> cases h
    · exact absurd rfl hr
    · rfl

/-- The item that has been in longest goes out. -/
theorem buffer_of_take {c d : Channel α} {item : α} (h : c.take = some (item, d)) : c.buffer = item :: d.buffer := by
  unfold take at h
  split at h
  · cases h
  · rename_i first rest hb
    cases h
    rw [hb, buffer_refill]

theorem buffer_eq_nil_of_take {c : Channel α} (h : c.take = none) : c.buffer = [] := by
  unfold take at h
  split at h
  · assumption
  · cases h

/-- The items that have not arrived, with their senders. -/
def outstanding (c : Channel α) : List (Nat × α) := c.granted ++ c.waiting

theorem outstanding_refill (c : Channel α) : c.refill.outstanding = c.outstanding := by
  unfold refill outstanding
  split
  · rw [List.append_assoc, List.take_append_drop]
  · rfl

theorem mem_outstanding_withdraw {c : Channel α} {ticket : Nat} {e : Nat × α}
    (he : e ∈ (c.withdraw ticket).outstanding) : e ∈ c.outstanding := by
  unfold withdraw at he
  rw [outstanding_refill] at he
  rcases List.mem_append.mp he with he | he
  · exact List.mem_append_left _ (List.mem_filter.mp he).1
  · exact List.mem_append_right _ (List.mem_filter.mp he).1

theorem mem_outstanding_offer {c : Channel α} {ticket : Nat} {item : α} {e : Nat × α}
    (he : e ∈ (c.offer ticket item).2.outstanding) : e ∈ c.outstanding ∨ e = (ticket, item) := by
  unfold offer at he
  split at he
  · exact Or.inl he
  · split at he
    · exact Or.inl he
    · simpa [outstanding, or_assoc] using he

theorem mem_outstanding_resume {c : Channel α} {ticket : Nat} {e : Nat × α}
    (he : e ∈ (c.resume ticket).2.outstanding) : e ∈ c.outstanding := by
  unfold resume at he
  split at he
  · exact mem_outstanding_withdraw he
  · split at he
    · rcases List.mem_append.mp he with he | he
      · exact List.mem_append_left _ (List.mem_of_mem_eraseP he)
      · exact List.mem_append_right _ he
    · exact he

theorem capacity_of_take {c d : Channel α} {item : α} (h : c.take = some (item, d)) : d.capacity = c.capacity := by
  unfold take at h
  split at h
  · cases h
  · cases h
    exact capacity_refill _

theorem isOpen_of_take {c d : Channel α} {item : α} (h : c.take = some (item, d)) : d.isOpen = c.isOpen := by
  unfold take at h
  split at h
  · cases h
  · cases h
    exact isOpen_refill _

theorem outstanding_of_take {c d : Channel α} {item : α} (h : c.take = some (item, d)) :
    d.outstanding = c.outstanding := by
  unfold take at h
  split at h
  · cases h
  · cases h
    exact outstanding_refill _

/-! ## Room -/

/-- At most `capacity` items and grants, and nobody waits at an open channel while there is room. -/
structure Sound (c : Channel α) : Prop where
  /-- Items and grants stay within the capacity. -/
  within : c.buffer.length + c.granted.length ≤ c.capacity
  /-- Who waits, waits for room. -/
  full : c.isOpen = true → c.waiting ≠ [] → c.room = 0

/-- A new channel is sound. -/
theorem sound_new (capacity : Nat) : Sound ({ capacity := capacity } : Channel α) :=
  ⟨by simp, by simp⟩

/-- Granting free places makes a channel sound that is within its capacity. -/
theorem sound_refill {c : Channel α} (h : c.buffer.length + c.granted.length ≤ c.capacity)
    (hc : c.isOpen = false → Sound c) : Sound c.refill := by
  unfold refill
  split
  · constructor
    · simp only [List.length_append, List.length_take, room]
      omega
    · intro _ hw
      have : c.room < c.waiting.length := by
        have := List.length_pos_iff.mpr hw
        rw [List.length_drop] at this
        omega
      simp only [room, List.length_append, List.length_take]
      unfold room at this
      omega
  · rename_i ho
    exact hc (by simpa using ho)

theorem length_without_le (ticket : Nat) (l : List (Nat × α)) : (without ticket l).length ≤ l.length :=
  List.length_filter_le _ _

theorem sound_offer {c : Channel α} (h : Sound c) (ticket : Nat) (item : α) :
    Sound (c.offer ticket item).2 := by
  unfold offer
  split
  · exact h
  · split
    · rename_i ho hroom
      constructor
      · simp only [List.length_append, List.length_singleton]
        unfold room at hroom
        omega
      · intro ho' hw
        have := h.full ho' hw
        omega
    · rename_i hroom
      exact ⟨h.within, fun _ _ => by simp only [room] at hroom ⊢; omega⟩

theorem sound_withdraw {c : Channel α} (h : Sound c) (ticket : Nat) : Sound (c.withdraw ticket) := by
  unfold withdraw
  have hl : c.buffer.length + (without ticket c.granted).length ≤ c.capacity :=
    Nat.le_trans (Nat.add_le_add_left (length_without_le ticket c.granted) _) h.within
  refine sound_refill hl fun ho => ⟨hl, fun ho' => ?_⟩
  simp_all

theorem sound_resume {c : Channel α} (h : Sound c) (ticket : Nat) : Sound (c.resume ticket).2 := by
  unfold resume
  split
  · exact sound_withdraw h ticket
  · split
    · rename_i ho e item hf
      have hmem : ∃ x ∈ c.granted, isFrom ticket x = true :=
        ⟨_, List.mem_of_find?_eq_some hf, List.find?_some hf⟩
      have hlen : (c.granted.eraseP (isFrom ticket)).length = c.granted.length - 1 :=
        List.length_eraseP_of_mem hmem.choose_spec.1 hmem.choose_spec.2
      have hpos : 0 < c.granted.length := List.length_pos_of_mem hmem.choose_spec.1
      have hw := h.within
      constructor
      · simp only [List.length_append, List.length_singleton, hlen]
        omega
      · intro ho' hne
        have := h.full ho' hne
        simp only [room, List.length_append, List.length_singleton, hlen] at this ⊢
        omega
    · exact h

theorem sound_take {c d : Channel α} {item : α} (h : Sound c) (ht : c.take = some (item, d)) : Sound d := by
  unfold take at ht
  split at ht
  · simp at ht
  · rename_i i rest hb
    cases ht
    have hw := h.within
    rw [hb] at hw
    simp only [List.length_cons] at hw
    have hl : rest.length + c.granted.length ≤ c.capacity := by omega
    exact sound_refill hl fun ho => ⟨hl, fun ho' => by simp_all⟩

theorem sound_close {c : Channel α} (h : Sound c) : Sound c.close :=
  ⟨h.within, fun ho => by simp [close] at ho⟩

theorem sound_discard {c : Channel α} (h : Sound c) : Sound c.discard := by
  have := h.within
  refine ⟨?_, fun ho => by simp [discard] at ho⟩
  simp only [discard, List.length_nil]
  omega

end Channel

end ReplicaWatch
