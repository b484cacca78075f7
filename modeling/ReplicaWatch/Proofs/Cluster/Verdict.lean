import ReplicaWatch.Cluster.Verdict

/-!
# Verdicts put together

A verdict looks through the replicas twice, first for one that is not on DRBD and then for one that may be promoted.
It can be had in one pass as well: every replica has a verdict of its own (`Verdict.ofReplica`), and verdicts are put
together from left to right (`Verdict.join`), where a mismatch counts before everything else and of two mismatches the
first one.

- `join_assoc`, `settled_join`, `join_settled`: the laws of the join;
- `ofReplicas_cons`, `ofReplicas_append`: the verdict on two lots of replicas is the join of the verdicts on each;
- `isMismatch_ofReplicas`, `ofReplicas_eq_promotable_iff`: whether there is a mismatch, and whether the resource may be
  promoted, is a matter of which replicas there are, not of their order or number (`isMismatch_congr`,
  `promotable_congr`). The kind in a mismatch is that of the first one (`ofReplicas_eq_mismatch_iff`).
-/

namespace ReplicaWatch

theorem LayerKind.isReplicated_iff {k : LayerKind} : k.isReplicated = true ↔ k = .drbd := by cases k <;> decide

/-- A replica may be promoted if it is on DRBD and its data says so. -/
theorem Replica.mayPromote_iff {r : Replica} :
    r.mayPromote = true ↔ r.layer.kind = .drbd ∧ ∃ data, r.layer.drbd = some data ∧ data.mayPromote = true := by
  unfold Replica.mayPromote
  cases r.layer.drbd <;> simp [LayerKind.isReplicated_iff]

namespace Verdict

variable {v w : Verdict} {r : Replica} {rs xs ys : List Replica}

/-! ## Joining verdicts -/

def isMismatch : Verdict → Bool
  | mismatch _ => true
  | _ => false

/-- Two verdicts put together: the first mismatch counts, and without any, whether something may be promoted. -/
def join (v w : Verdict) : Verdict :=
  if v.isMismatch then v
  else if w.isMismatch then w
  else if v = .promotable ∨ w = .promotable then .promotable
  else .settled

@[simp] theorem settled_join (v : Verdict) : settled.join v = v := by cases v <;> rfl

@[simp] theorem join_settled (v : Verdict) : v.join .settled = v := by cases v <;> rfl

theorem join_assoc (u v w : Verdict) : (u.join v).join w = u.join (v.join w) := by
  cases u <;> cases v <;> cases w <;> rfl

@[simp] theorem isMismatch_join (v w : Verdict) : (v.join w).isMismatch = (v.isMismatch || w.isMismatch) := by
  cases v <;> cases w <;> rfl

theorem join_eq_promotable_iff :
    v.join w = .promotable ↔ v.isMismatch = false ∧ w.isMismatch = false ∧ (v = .promotable ∨ w = .promotable) := by
  cases v <;> cases w <;> simp [join, isMismatch]

/-- What is neither a mismatch nor promotable is settled. -/
theorem eq_settled_iff : v = .settled ↔ v.isMismatch = false ∧ v ≠ .promotable := by cases v <;> simp [isMismatch]

/-! ## One replica more -/

/-- The verdict on a single replica. -/
def ofReplica (r : Replica) : Verdict :=
  if r.layer.kind = .drbd then (if r.mayPromote then .promotable else .settled) else .mismatch r.layer.kind

theorem isMismatch_ofReplica : (ofReplica r).isMismatch = false ↔ r.layer.kind = .drbd := by
  unfold ofReplica
  split
  · rename_i hk
    exact iff_of_true (by split <;> rfl) hk
  · rename_i hk
    exact iff_of_false nofun hk

theorem ofReplica_eq_promotable_iff : ofReplica r = .promotable ↔ r.mayPromote = true := by
  unfold ofReplica
  split
  · split <;> simp [*]
  · rename_i hk
    exact iff_of_false nofun fun hp => hk (Replica.mayPromote_iff.mp hp).1

/-- One replica more in front joins its verdict. -/
theorem ofReplicas_cons (r : Replica) (rs : List Replica) :
    ofReplicas (r :: rs) = (ofReplica r).join (ofReplicas rs) := by
  unfold ofReplicas ofReplica
  by_cases hk : r.layer.kind = .drbd
  · have hr : r.layer.kind.isReplicated = true := LayerKind.isReplicated_iff.mpr hk
    rw [List.find?_cons_of_neg (by simp [hr]), List.any_cons, if_pos hk]
    cases rs.find? (fun r => !r.layer.kind.isReplicated) with
    | some x => cases r.mayPromote <;> rfl
    | none => cases r.mayPromote <;> cases rs.any Replica.mayPromote <;> rfl
  · have hr : r.layer.kind.isReplicated = false := Bool.eq_false_iff.mpr (mt LayerKind.isReplicated_iff.mp hk)
    rw [List.find?_cons_of_pos (by simp [hr]), if_neg hk]
    rfl

/-- The verdict on two lots of replicas joins the verdicts on each. -/
theorem ofReplicas_append (xs ys : List Replica) :
    ofReplicas (xs ++ ys) = (ofReplicas xs).join (ofReplicas ys) := by
  induction xs with
  | nil => exact (settled_join _).symm
  | cons r xs ih => rw [List.cons_append, ofReplicas_cons, ofReplicas_cons, ih, join_assoc]

/-! ## What a verdict says of the replicas -/

/-- There is no mismatch iff all replicas are on DRBD. -/
theorem isMismatch_ofReplicas : (ofReplicas rs).isMismatch = false ↔ ∀ r ∈ rs, r.layer.kind = .drbd := by
  induction rs with
  | nil => exact iff_of_true rfl (List.forall_mem_nil _)
  | cons r rs ih =>
    rw [ofReplicas_cons, isMismatch_join, Bool.or_eq_false_iff, isMismatch_ofReplica, ih, List.forall_mem_cons]

/-- Without a mismatch, one replica that may be promoted is enough. -/
theorem ofReplicas_eq_promotable_iff : ofReplicas rs = .promotable ↔
    (∀ r ∈ rs, r.layer.kind = .drbd) ∧ ∃ r ∈ rs, ∃ data, r.layer.drbd = some data ∧ data.mayPromote = true := by
  induction rs with
  | nil => simp [ofReplicas_nil]
  | cons r rs ih =>
    rw [ofReplicas_cons, join_eq_promotable_iff, isMismatch_ofReplica, isMismatch_ofReplicas, ih,
      ofReplica_eq_promotable_iff, Replica.mayPromote_iff]
    constructor
    · rintro ⟨hr, hrs, ⟨-, hdata⟩ | ⟨-, x, hx, hdata⟩⟩
      · exact ⟨List.forall_mem_cons.mpr ⟨hr, hrs⟩, r, List.mem_cons_self, hdata⟩
      · exact ⟨List.forall_mem_cons.mpr ⟨hr, hrs⟩, x, List.mem_cons_of_mem _ hx, hdata⟩
    · rintro ⟨hall, x, hx, hdata⟩
      obtain ⟨hr, hrs⟩ := List.forall_mem_cons.mp hall
      rcases List.mem_cons.mp hx with rfl | hx
      · exact ⟨hr, hrs, .inl ⟨hr, hdata⟩⟩
      · exact ⟨hr, hrs, .inr ⟨hrs, x, hx, hdata⟩⟩

/-- The mismatch is of the first replica that is not on DRBD. -/
theorem ofReplicas_eq_mismatch_iff {kind : LayerKind} : ofReplicas rs = .mismatch kind ↔
    ∃ before r after, rs = before ++ r :: after ∧ (∀ x ∈ before, x.layer.kind = .drbd) ∧
      r.layer.kind ≠ .drbd ∧ r.layer.kind = kind := by
  rw [ofReplicas_mismatch_iff, Option.map_eq_some_iff]
  simp only [List.find?_eq_some_iff_append, Bool.not_not, Bool.not_eq_true', ← Bool.not_eq_true,
    LayerKind.isReplicated_iff]
  constructor
  · rintro ⟨r, ⟨hr, before, after, hrs, hbefore⟩, hkind⟩
    exact ⟨before, r, after, hrs, hbefore, hr, hkind⟩
  · rintro ⟨before, r, after, hrs, hbefore, hr, hkind⟩
    exact ⟨r, ⟨hr, before, after, hrs, hbefore⟩, hkind⟩

/-! ## Other orders and numbers -/

/-- Whether there is a mismatch depends on which replicas there are only. -/
theorem isMismatch_congr (h : ∀ r, r ∈ xs ↔ r ∈ ys) : (ofReplicas xs).isMismatch = (ofReplicas ys).isMismatch := by
  have hfalse : (ofReplicas xs).isMismatch = false ↔ (ofReplicas ys).isMismatch = false := by
    simp only [isMismatch_ofReplicas, h]
  rw [Bool.eq_iff_iff, ← Bool.not_eq_false, ← Bool.not_eq_false, hfalse]

/-- So does whether the resource may be promoted. -/
theorem promotable_congr (h : ∀ r, r ∈ xs ↔ r ∈ ys) : ofReplicas xs = .promotable ↔ ofReplicas ys = .promotable := by
  simp only [ofReplicas_eq_promotable_iff, h]

/-- **A verdict is put together from the verdicts on the parts**, from left to right, and nothing at all is settled.
Hence a resource may be promoted iff all replicas are on DRBD and the data of one of them says so; a mismatch is of the
first replica that is not on DRBD; and replicas in another order, or some of them more than once, get a verdict of the
same sort. -/
theorem verdict_of_parts :
    ofReplicas [] = .settled ∧
      (∀ xs ys, ofReplicas (xs ++ ys) = (ofReplicas xs).join (ofReplicas ys)) ∧
      (∀ rs, ofReplicas rs = .promotable ↔ (∀ r ∈ rs, r.layer.kind = .drbd) ∧
        ∃ r ∈ rs, ∃ data, r.layer.drbd = some data ∧ data.mayPromote = true) ∧
      (∀ rs kind, ofReplicas rs = .mismatch kind ↔ ∃ before r after, rs = before ++ r :: after ∧
        (∀ x ∈ before, x.layer.kind = .drbd) ∧ r.layer.kind ≠ .drbd ∧ r.layer.kind = kind) ∧
      ∀ xs ys, (∀ r, r ∈ xs ↔ r ∈ ys) →
        (ofReplicas xs).isMismatch = (ofReplicas ys).isMismatch ∧
        (ofReplicas xs = .promotable ↔ ofReplicas ys = .promotable) ∧
        (ofReplicas xs = .settled ↔ ofReplicas ys = .settled) := by
  refine ⟨ofReplicas_nil, ofReplicas_append, fun _ => ofReplicas_eq_promotable_iff,
    fun _ _ => ofReplicas_eq_mismatch_iff, fun xs ys h => ⟨isMismatch_congr h, promotable_congr h, ?_⟩⟩
  rw [eq_settled_iff, eq_settled_iff, isMismatch_congr h, ne_eq, promotable_congr h]

/-- Replicas of which two are not on DRBD. -/
def mixedReplicas : List Replica :=
  [.onDrbd "r" "a" false, .onLayer "r" "b" .luks, .onDrbd "r" "c" true, .onLayer "r" "d" .nvme]

/-- Back to front and then once more, the replicas are a mismatch as before, but of another kind. -/
theorem verdict_of_mixed_replicas :
    (∀ r, r ∈ mixedReplicas.reverse ++ mixedReplicas ↔ r ∈ mixedReplicas) ∧
      ofReplicas mixedReplicas = .mismatch .luks ∧
      ofReplicas (mixedReplicas.reverse ++ mixedReplicas) = .mismatch .nvme ∧
      (ofReplicas (mixedReplicas.reverse ++ mixedReplicas)).isMismatch = (ofReplicas mixedReplicas).isMismatch ∧
      ofReplicas (mixedReplicas.reverse ++ mixedReplicas) =
        (ofReplicas mixedReplicas.reverse).join (ofReplicas mixedReplicas) := by
  obtain ⟨-, happend, -, hmismatch, hsame⟩ := verdict_of_parts
  have hmem : ∀ r, r ∈ mixedReplicas.reverse ++ mixedReplicas ↔ r ∈ mixedReplicas := fun r => by simp
  exact ⟨hmem, (hmismatch _ _).mpr ⟨[.onDrbd "r" "a" false], _, _, rfl, by simp [Replica.onDrbd], nofun, rfl⟩,
    (hmismatch _ _).mpr ⟨[], _, _, rfl, List.forall_mem_nil _, nofun, rfl⟩, (hsame _ _ hmem).1, happend _ _⟩

end Verdict

end ReplicaWatch
