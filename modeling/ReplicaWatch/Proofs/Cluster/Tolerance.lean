import ReplicaWatch.Cluster.Snapshot
import ReplicaWatch.CommandLine.Settings
import ReplicaWatch.Proofs.Json.Tolerance
import ReplicaWatch.Proofs.Json.Written

/-!
# Records that are read alike

`RecordName` lists the records that can be read, with their fields (`RecordName.fields`), their types
(`RecordName.Content`) and their decoders (`RecordName.decoder`). Neither the order of members nor members that are no
fields make a difference to any of them, at any depth: `RecordName.reads_alike`.
-/

namespace ReplicaWatch

open Json CommandLine

/-- The records that can be read. -/
inductive RecordName
  | signal
  | usage
  | drbd
  | layer
  | replica
  | definition
  | snapshot
  | settings
deriving DecidableEq

namespace RecordName

/-- The fields of a record in their own order, each with its shape. -/
def fields : RecordName → List (String × Shape RecordName)
  | signal => [("resource_name", .plain), ("may_promote", .plain)]
  | usage => [("in_use", .plain)]
  | drbd => [("node_id", .plain), ("peer_slots", .plain), ("flags", .plain), ("may_promote", .plain)]
  | layer =>
    [("type", .plain), ("resource_name_suffix", .plain), ("children", .list (.record layer)),
      ("drbd", .record drbd)]
  | replica =>
    [("name", .plain), ("node_name", .plain), ("props", .plain), ("flags", .plain),
      ("layer_object", .record layer), ("state", .record usage)]
  | definition => [("name", .plain), ("props", .plain)]
  | snapshot => [("resource_definitions", .list (.record definition)), ("resources", .list (.record replica))]
  | settings =>
    [("snapshot_path", .plain), ("initial_delay_secs", .plain), ("existing_delay_secs", .plain),
      ("output_capacity", .plain), ("log_level", .plain)]

/-- What a record is read as. -/
abbrev Content : RecordName → Type
  | signal => Signal
  | usage => Usage
  | drbd => DrbdData
  | layer => Layer
  | replica => Replica
  | definition => Definition
  | snapshot => Snapshot
  | settings => Settings

def decoder : (r : RecordName) → Decoder r.Content
  | signal => Signal.decoder
  | usage => Usage.decoder
  | drbd => DrbdData.decoder
  | layer => Layer.decoder
  | replica => Replica.decoder
  | definition => Definition.decoder
  | snapshot => Snapshot.decoder
  | settings => Settings.decoder

end RecordName

open Decoder

/-- Fields that are set independently of one another commute. -/
theorem commutes_of {α β γ : Type} {name name' : String} {required required' : Bool} {d : Decoder β} {e : Decoder γ}
    {set : β → α → α} {set' : γ → α → α} (h : ∀ b c a, set b (set' c a) = set' c (set b a)) :
    (Json.Field.of name required d set).Commutes (.of name' required' e set') := by
  intro depth t u change change' hf hg a
  obtain ⟨b, -, rfl⟩ := map_eq_ok_iff.mp hf
  obtain ⟨c, -, rfl⟩ := map_eq_ok_iff.mp hg
  exact h b c a

/-! ## Each record -/

/-- A layer kind is a string, or an object with one member whose value is null. -/
theorem eq_of_layerKind {depth : Nat} {t : Tree} {k : LayerKind} (h : LayerKind.decoder depth t = .ok k) :
    (∃ v, t = .scalar v) ∨ ∃ s, t = .object [(some s, .scalar .null)] true := by
  unfold LayerKind.decoder at h
  split at h
  · exact Or.inl ⟨_, rfl⟩
  · obtain ⟨_, -, h⟩ := bind_eq_ok_iff.mp h
    split at h
    · obtain ⟨_, hclosed, -⟩ := bind_eq_ok_iff.mp h
      unfold ensureClosed at hclosed
      split at hclosed
      · rename_i hend
        simp only [Bool.and_eq_true, List.isEmpty_iff] at hend
        obtain ⟨rfl, rfl⟩ := hend
        exact Or.inr ⟨_, rfl⟩
      · cases hclosed
    · cases h
    · cases h
  · cases h

theorem tolerates_layerKind : LayerKind.decoder.Tolerates RecordName.fields .plain := by
  intro depth t t' k hedit h
  suffices t' = t by rwa [this]
  rcases eq_of_layerKind h with ⟨v, rfl⟩ | ⟨s, rfl⟩
  · cases hedit
  · generalize hu : Tree.object [(some s, .scalar .null)] true = u at hedit
    cases hedit with
    | item => cases hu
    | reorder hperm _ =>
      cases hu
      rw [List.singleton_perm.mp hperm]
    | @member _ before after _ _ _ _ hedit =>
      injection hu with hms
      cases before with
      | nil =>
        cases hms
        cases hedit
      | cons _ before => cases before <;> cases hms

theorem tolerates_texts : (sequence string).Tolerates RecordName.fields .plain :=
  .sequence fun _ => tolerates_stringAs _

theorem tolerates_props : (dictionary string).Tolerates RecordName.fields .plain :=
  .dictionary (tolerates_stringAs _)

theorem tolerates_signal : Signal.decoder.Tolerates RecordName.fields (.record .signal) :=
  tolerates_record _ _ (.cons ⟨rfl, (tolerates_stringAs _).map _⟩ <|
    .cons ⟨rfl, tolerates_boolean.map _⟩ .nil) (by simp [commutes_of])

theorem tolerates_usage : Usage.decoder.Tolerates RecordName.fields (.record .usage) :=
  tolerates_record _ _ (.cons ⟨rfl, tolerates_boolean.map _⟩ .nil) (List.pairwise_singleton _ _)

theorem tolerates_drbd : DrbdData.decoder.Tolerates RecordName.fields (.record .drbd) :=
  tolerates_record _ _ (.cons ⟨rfl, (tolerates_natural _ _).map _⟩ <|
    .cons ⟨rfl, (tolerates_integer _ _ _).map _⟩ <| .cons ⟨rfl, tolerates_texts.map _⟩ <|
    .cons ⟨rfl, tolerates_boolean.map _⟩ .nil) (by simp [commutes_of])

theorem tolerates_layerBelow (levels : Nat) :
    (Layer.decoderBelow levels).Tolerates RecordName.fields (.record .layer) := by
  induction levels with
  | zero =>
    intro depth t t' l _ h
    cases h
  | succ levels ih =>
    exact tolerates_record _ _ (.cons ⟨rfl, tolerates_layerKind.map _⟩ <|
      .cons ⟨rfl, (tolerates_stringAs _).map _⟩ <| .cons ⟨rfl, (Tolerates.sequence fun _ => ih).map _⟩ <|
      .cons ⟨rfl, tolerates_drbd.nullable.map _⟩ .nil) (by simp [Layer.fields, commutes_of])

theorem tolerates_layer : Layer.decoder.Tolerates RecordName.fields (.record .layer) :=
  fun depth _ _ _ hedit h => tolerates_layerBelow depth hedit h

theorem tolerates_replica : Replica.decoder.Tolerates RecordName.fields (.record .replica) :=
  tolerates_record _ _ (.cons ⟨rfl, (tolerates_stringAs _).map _⟩ <|
    .cons ⟨rfl, (tolerates_stringAs _).map _⟩ <| .cons ⟨rfl, tolerates_props.map _⟩ <|
    .cons ⟨rfl, tolerates_texts.map _⟩ <| .cons ⟨rfl, tolerates_layer.map _⟩ <|
    .cons ⟨rfl, tolerates_usage.map _⟩ .nil) (by simp [commutes_of])

theorem tolerates_definition : Definition.decoder.Tolerates RecordName.fields (.record .definition) :=
  tolerates_record _ _ (.cons ⟨rfl, (tolerates_stringAs _).map _⟩ <|
    .cons ⟨rfl, tolerates_props.map _⟩ .nil) (by simp [commutes_of])

theorem tolerates_snapshot : Snapshot.decoder.Tolerates RecordName.fields (.record .snapshot) :=
  tolerates_record _ _ (.cons ⟨rfl, (Tolerates.sequence fun _ => tolerates_definition).map _⟩ <|
    .cons ⟨rfl, (Tolerates.sequence fun _ => tolerates_replica).map _⟩ .nil) (by simp [commutes_of])

theorem tolerates_settings : Settings.decoder.Tolerates RecordName.fields (.record .settings) :=
  tolerates_record _ _ (.cons ⟨rfl, (tolerates_stringAs _).map _⟩ <|
    .cons ⟨rfl, (tolerates_natural _ _).map _⟩ <| .cons ⟨rfl, (tolerates_natural _ _).map _⟩ <|
    .cons ⟨rfl, (tolerates_natural _ _).map _⟩ <| .cons ⟨rfl, (tolerates_stringAs _).map _⟩ .nil)
    (by simp [commutes_of])

theorem RecordName.tolerates (r : RecordName) : r.decoder.Tolerates fields (.record r) := by
  cases r with
  | signal => exact tolerates_signal
  | usage => exact tolerates_usage
  | drbd => exact tolerates_drbd
  | layer => exact tolerates_layer
  | replica => exact tolerates_replica
  | definition => exact tolerates_definition
  | snapshot => exact tolerates_snapshot
  | settings => exact tolerates_settings

/-! ## Texts that are read alike -/

namespace RecordName

/-- **A text of a record may be edited without notice**: it spells a value, and whatever text spells this value with
the members of objects in another order, and with further members in records that are none of their fields, is read
the same. -/
theorem reads_alike (r : RecordName) {text : String} {v : r.Content} (h : decodeText r.decoder text = .ok v) :
    ∃ t : Tree, t.Spells text ∧ ∀ t' text', Edited fields (.record r) t t' → t'.Spells text' →
      decodeText r.decoder text' = .ok v := by
  obtain ⟨t, ht, hv⟩ := decodeText_eq_ok_iff.mp h
  exact ⟨t, ht, fun t' text' hedit ht' => decodeText_eq_ok_iff.mpr ⟨t', ht', r.tolerates.edited hedit hv⟩⟩

/-- A replica whose usage has a member that is no field, in front of its name. -/
theorem replica_read_alike :
    decodeText Replica.decoder
        (Value.object [("name", .string "db"), ("state", .object [("in_use", .boolean true)])]).write =
      .ok { name := "db", usage := { inUse := true } } ∧
    decodeText Replica.decoder
        (Value.object [("state", .object [("by", .array [.object []]), ("in_use", .boolean true)]),
          ("name", .string "db")]).write =
      .ok { name := "db", usage := { inUse := true } } := by
  have h : decodeText Replica.decoder
      (Value.object [("name", .string "db"), ("state", .object [("in_use", .boolean true)])]).write =
        .ok { name := "db", usage := { inUse := true } } :=
    decodeText_eq_ok_iff.mpr ⟨_, Value.spells_write _, rfl⟩
  refine ⟨h, ?_⟩
  obtain ⟨t, ht, hedited⟩ := reads_alike .replica h
  rw [ht.unique (Value.spells_write _)] at hedited
  refine hedited _ _ (.tail (.single (.reorder (List.Perm.swap _ _ []) (by decide))) ?_) (Value.spells_write _)
  exact @Edit.member _ _ _ [] _ _ _ _ _ (@Edit.insert _ _ _ [] _ _ _ _ (by decide))

end RecordName

end ReplicaWatch
