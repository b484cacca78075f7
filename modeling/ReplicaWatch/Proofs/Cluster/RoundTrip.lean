import ReplicaWatch.Proofs.Cluster.Tolerance
import ReplicaWatch.Proofs.Json.RoundTrip

/-!
# Records that are written and read back

Every record that can be read can be written (`RecordName.encode`). What is written is read back as it was, unless it
nests too deep (`RecordName.reads_encode`), and nothing that has been read nests too deep when it is written
(`RecordName.ensures_depth`): the parts that the text of a record may leave out and that are written all the same nest
less deep than the limit. So reading undoes writing: `RecordName.decode_encode`.
-/

namespace ReplicaWatch

open Json CommandLine

namespace RecordName

def encode : (r : RecordName) → r.Content → Value
  | signal => Signal.encode
  | usage => Usage.encode
  | drbd => DrbdData.encode
  | layer => Layer.encode
  | replica => Replica.encode
  | definition => Definition.encode
  | snapshot => Snapshot.encode
  | settings => Settings.encode

/-- The numbers of settings fit 64 bits; all other numbers are of types that fit. -/
def InRange : (r : RecordName) → r.Content → Prop
  | settings => fun s =>
    s.initialDelaySecs < Numeral.unsignedBound ∧ s.existingDelaySecs < Numeral.unsignedBound ∧
      s.outputCapacity < Numeral.unsignedBound
  | _ => fun _ => True

end RecordName

open Decoder

/-! ## Reading what is written -/

/-- A member that is left out must be the one that the field has anyway. -/
theorem fills_memberUnless {α : Type} {f : Json.Field α} {fs : List (Json.Field α)} {ms : List (String × Value)}
    {v : Value} {change : α → α} {a b : α} {omitted : Bool} (hread : f.read.Reads v change)
    (hoptional : f.required = false) (hdefault : omitted = true → change a = a) (h : Fills fs ms (change a) b) :
    Fills (f :: fs) (memberUnless omitted f.name v ++ ms) a b := by
  cases omitted with
  | true =>
    rw [hdefault rfl] at h
    exact .omitted hoptional h
  | false => exact .member hread h

theorem reads_texts (texts : List String) : (sequence string).Reads (encodeTexts texts) texts :=
  reads_sequence fun _ _ => reads_stringAs _ _

theorem reads_props (props : NameMap String) : (dictionary string).Reads (encodeProps props) props :=
  reads_dictionary fun _ => reads_stringAs _ _

theorem reads_layerKind (k : LayerKind) : LayerKind.decoder.Reads k.encode k := fun _ _ => by
  rw [LayerKind.encode, Value.tree, LayerKind.decoder, LayerKind.ofName_name]

theorem reads_signal (s : Signal) : Signal.decoder.Reads s.encode s :=
  reads_record (by decide) (.member ((reads_stringAs _ _).map _) <| .member ((reads_boolean _).map _) <| .done _)

theorem reads_usage (u : Usage) : Usage.decoder.Reads u.encode u :=
  reads_record (by decide) (.member ((reads_boolean _).map _) <| .done _)

theorem reads_definition (d : Definition) : Definition.decoder.Reads d.encode d :=
  reads_record (by decide) (.member ((reads_stringAs _ _).map _) <| .member ((reads_props _).map _) <| .done _)

theorem reads_drbd (d : DrbdData) : DrbdData.decoder.Reads d.encode d := by
  have hnode : (natural 4294967295 "u32").Reads (.nat d.nodeId.toNat) d.nodeId.toNat := by
    have := d.nodeId.toNat_lt
    exact reads_natural "u32" (by omega) (by unfold Numeral.unsignedBound; omega)
  have hslots : (integer (-2147483648) 2147483647 "i32").Reads (.int d.peerSlots.toInt) d.peerSlots.toInt := by
    have h1 := d.peerSlots.le_toInt
    have h2 := d.peerSlots.toInt_lt
    exact reads_integer "i32" (by omega) (by unfold Numeral.signedBound; omega) (by unfold Numeral.unsignedBound; omega)
  unfold DrbdData.encode
  refine reads_record (by decide) (.member (hnode.map _) <| .member (hslots.map _) <|
    fills_memberUnless ((reads_texts _).map _) rfl (fun h => ?_) <| .member ((reads_boolean _).map _) ?_)
  · rw [List.isEmpty_iff.mp h]
  · rw [UInt32.ofNat_toNat, Int32.ofInt_toInt]
    exact .done d

theorem encodeAll_eq_map (ls : List Layer) : Layer.encodeAll ls = ls.map Layer.encode := by
  induction ls with
  | nil => rfl
  | cons l ls ih => rw [Layer.encodeAll, ih]; rfl

/-- What is written of a layer. -/
def Layer.members (l : Layer) : List (String × Value) :=
  ("type", l.kind.encode) :: (memberUnless l.nameSuffix.isEmpty "resource_name_suffix" (.string l.nameSuffix) ++
    (memberUnless l.children.isEmpty "children" (.array (l.children.map Layer.encode)) ++
      DrbdData.encodeMember l.drbd))

theorem Layer.encode_eq (l : Layer) : l.encode = .object l.members := by
  obtain ⟨kind, suffix, children, drbd⟩ := l
  simp [Layer.encode, Layer.members, encodeAll_eq_map]

theorem fills_layer {below : Decoder Layer} {l : Layer} (h : ∀ c ∈ l.children, below.Reads c.encode c) :
    Fills (Layer.fields below) l.members {} l := by
  obtain ⟨kind, suffix, children, drbd⟩ := l
  refine .member ((reads_layerKind _).map _) <| fills_memberUnless ((reads_stringAs _ _).map _) rfl (fun h => ?_) <|
    fills_memberUnless ((reads_sequence h).map _) rfl (fun h => ?_) ?_
  · rw [String.isEmpty_iff.mp h]
  · rw [List.isEmpty_iff.mp h]
  · cases drbd with
    | none => exact .omitted rfl (.done _)
    | some d => exact .member ((reads_drbd d).nullable.map _) (.done _)

/-- Layers below one another nest less deep the further down they are. -/
theorem depth_lt_of_mem_children {l c : Layer} (hc : c ∈ l.children) {n : Nat} (h : l.encode.depth < n + 2) :
    c.encode.depth < n := by
  rw [Layer.encode_eq, Value.depth_object_lt_iff] at h
  have hne : l.children.isEmpty = false := by
    rw [List.isEmpty_eq_false_iff]
    exact List.ne_nil_of_mem hc
  have harray := h.2 ("children", .array (l.children.map Layer.encode)) (by simp [Layer.members, memberUnless, hne])
  exact (Value.depth_array_lt_iff.mp harray).2 _ (List.mem_map_of_mem hc)

theorem reads_layerBelow (levels : Nat) : ∀ l : Layer, l.encode.depth ≤ levels →
    (Layer.decoderBelow levels).Reads l.encode l := by
  -- one level more costs two arrays or objects, so the depth bounds the levels from above
  induction levels with
  | zero =>
    intro l hl
    rw [Layer.encode_eq, Value.depth] at hl
    omega
  | succ levels ih =>
    intro l hl
    have hchildren : ∀ c ∈ l.children, (Layer.decoderBelow levels).Reads c.encode c := fun c hc =>
      ih c (Nat.le_of_lt (depth_lt_of_mem_children hc (by omega)))
    rw [Layer.encode_eq]
    have hnames : ["type", "resource_name_suffix", "children", "drbd"].Nodup := by decide
    exact reads_record hnames (fills_layer hchildren)

theorem reads_layer (l : Layer) : Layer.decoder.Reads l.encode l :=
  fun depth hdepth => reads_layerBelow depth l (Nat.le_of_lt hdepth) hdepth

theorem props_eq_empty {props : NameMap String} (h : props.isEmpty = true) : props = .empty := by
  refine NameMap.ext_get? fun name => ?_
  rw [NameMap.get?, List.isEmpty_iff.mp h]
  rfl

theorem reads_replica (r : Replica) : Replica.decoder.Reads r.encode r := by
  unfold Replica.encode
  simp only [List.cons_append, List.nil_append, List.append_assoc]
  refine reads_record (by decide) (.member ((reads_stringAs _ _).map _) <| .member ((reads_stringAs _ _).map _) <|
    fills_memberUnless ((reads_props _).map _) rfl (fun h => ?_) <|
    fills_memberUnless ((reads_texts _).map _) rfl (fun h => ?_) <| .member ((reads_layer _).map _) <|
    .member ((reads_usage _).map _) <| .done r)
  · rw [props_eq_empty h]
  · rw [List.isEmpty_iff.mp h]

theorem reads_snapshot (s : Snapshot) : Snapshot.decoder.Reads s.encode s :=
  reads_record (by decide) (.member ((reads_sequence fun d _ => reads_definition d).map _) <|
    .member ((reads_sequence fun r _ => reads_replica r).map _) <| .done s)

theorem reads_settings {s : Settings} (h : RecordName.InRange .settings s) : Settings.decoder.Reads s.encode s := by
  have reads {n : Nat} (kind : String) (hn : n < Numeral.unsignedBound) : (natural64 kind).Reads (.nat n) n :=
    reads_natural kind (Nat.le_pred_of_lt hn) hn
  obtain ⟨hinitial, hexisting, hcapacity⟩ := h
  exact reads_record (by decide) (.member ((reads_stringAs _ _).map _) <| .member ((reads _ hinitial).map _) <|
    .member ((reads _ hexisting).map _) <| .member ((reads _ hcapacity).map _) <|
    .member ((reads_stringAs _ _).map _) <| .done s)

/-- **What is written is read back.** -/
theorem RecordName.reads_encode (r : RecordName) {v : r.Content} (h : r.InRange v) :
    r.decoder.Reads (r.encode v) v := by
  cases r with
  | signal => exact reads_signal v
  | usage => exact reads_usage v
  | drbd => exact reads_drbd v
  | layer => exact reads_layer v
  | replica => exact reads_replica v
  | definition => exact reads_definition v
  | snapshot => exact reads_snapshot v
  | settings => exact reads_settings h

/-! ## How deep what has been read nests when it is written -/

theorem forall_mem_memberUnless {P : String × Value → Prop} {omitted : Bool} {name : String} {v : Value} :
    (∀ m ∈ memberUnless omitted name v, P m) ↔ (omitted = false → P (name, v)) := by
  cases omitted <;> simp [memberUnless]

theorem depth_texts_lt_iff {texts : List String} {n : Nat} : (encodeTexts texts).depth < n ↔ 1 < n := by
  cases n with
  | zero => simp
  | succ n =>
    rw [encodeTexts, Value.depth_array_lt_iff, Nat.lt_add_left_iff_pos]
    exact and_iff_left_of_imp fun h => List.forall_mem_map.mpr fun _ _ => h

theorem depth_props_lt_iff {props : NameMap String} {n : Nat} : (encodeProps props).depth < n ↔ 1 < n := by
  cases n with
  | zero => simp
  | succ n =>
    rw [encodeProps, Value.depth_object_lt_iff, Nat.lt_add_left_iff_pos]
    exact and_iff_left_of_imp fun h => List.forall_mem_map.mpr fun _ _ => h

theorem depth_usage_lt_iff {u : Usage} {n : Nat} : u.encode.depth < n + 1 ↔ 0 < n := by
  rw [Usage.encode, Value.depth_object_lt_iff]
  simp [Value.depth]

theorem depth_drbd_lt_iff {d : DrbdData} {n : Nat} :
    d.encode.depth < n + 1 ↔ 0 < n ∧ (d.flags.isEmpty = false → 1 < n) := by
  rw [DrbdData.encode, Value.depth_object_lt_iff]
  simp only [List.forall_mem_append, List.forall_mem_cons, forall_mem_memberUnless, depth_texts_lt_iff, Value.nat,
    Value.int, Value.depth, List.not_mem_nil, false_imp_iff, implies_true]
  tauto

theorem depth_layer_lt_iff {l : Layer} {n : Nat} : l.encode.depth < n + 1 ↔
    0 < n ∧ (l.children.isEmpty = false → (Value.array (l.children.map Layer.encode)).depth < n) ∧
      ∀ d ∈ l.drbd, d.encode.depth < n := by
  have hdrbd : (∀ m ∈ DrbdData.encodeMember l.drbd, m.2.depth < n) ↔ ∀ d ∈ l.drbd, d.encode.depth < n := by
    cases l.drbd <;> simp [DrbdData.encodeMember]
  rw [Layer.encode_eq, Value.depth_object_lt_iff, Layer.members]
  simp only [List.forall_mem_append, List.forall_mem_cons, forall_mem_memberUnless, hdrbd, LayerKind.encode]
  simp only [Value.depth]
  tauto

theorem depth_replica_lt_iff {r : Replica} {n : Nat} : r.encode.depth < n + 1 ↔
    0 < n ∧ (r.props.isEmpty = false → 1 < n) ∧ (r.flags.isEmpty = false → 1 < n) ∧ r.layer.encode.depth < n ∧
      r.usage.encode.depth < n := by
  rw [Replica.encode, Value.depth_object_lt_iff]
  simp only [List.forall_mem_append, List.forall_mem_cons, forall_mem_memberUnless, depth_texts_lt_iff,
    depth_props_lt_iff, Value.depth, List.not_mem_nil, false_imp_iff, implies_true]
  tauto

theorem depth_definition_lt_iff {d : Definition} {n : Nat} : d.encode.depth < n + 1 ↔ 1 < n := by
  rw [Definition.encode, Value.depth_object_lt_iff]
  simp only [List.forall_mem_cons, depth_props_lt_iff, Value.depth, List.not_mem_nil, false_imp_iff, implies_true]
  constructor
  · exact fun h => h.2.2.1
  · exact fun h => ⟨by omega, by omega, h, trivial⟩

theorem depth_snapshot_lt_iff {s : Snapshot} {n : Nat} : s.encode.depth < n + 1 ↔
    0 < n ∧ (Value.array (s.definitions.map Definition.encode)).depth < n ∧
      (Value.array (s.replicas.map Replica.encode)).depth < n := by
  rw [Snapshot.encode, Value.depth_object_lt_iff]
  simp only [List.forall_mem_cons, List.not_mem_nil, false_imp_iff, implies_true, and_true]

/-- A record nests less deep than given when it is written. -/
def Fits {α : Type} (encode : α → Value) (n : Nat) (a : α) : Prop := (encode a).depth < n

theorem ensures_usage : Usage.decoder.Ensures (Fits Usage.encode) :=
  ensures_record (fun _ hn => depth_usage_lt_iff.mpr hn) <| List.forall_mem_singleton.mpr <|
    keeps_of (ensures_true _) fun _ _ _ _ h => depth_usage_lt_iff.mpr (depth_usage_lt_iff.mp h)

theorem ensures_drbd : DrbdData.decoder.Ensures (Fits DrbdData.encode) := by
  refine ensures_record (fun n hn => depth_drbd_lt_iff.mpr ⟨hn, fun h => (by cases h)⟩) ?_
  simp only [List.forall_mem_cons, List.not_mem_nil, false_imp_iff, implies_true, and_true]
  refine ⟨keeps_of (ensures_true _) fun n i d _ h => ?_, keeps_of (ensures_true _) fun n i d _ h => ?_,
    keeps_of (ensures_true _).sequence fun n i d hi h => ?_, keeps_of (ensures_true _) fun n i d _ h => ?_⟩
  all_goals
    have h := depth_drbd_lt_iff.mp h
    refine depth_drbd_lt_iff.mpr ?_
  · exact h
  · exact h
  · obtain ⟨inside, hinside, rfl, -⟩ := hi
    exact ⟨h.1, fun _ => by omega⟩
  · exact h

/-- A layer that says nothing. -/
theorem depth_layer_start_lt_iff {n : Nat} : (Layer.encode {}).depth < n + 1 ↔ 0 < n :=
  ⟨fun h => (depth_layer_lt_iff.mp h).1,
    fun h => depth_layer_lt_iff.mpr ⟨h, fun h => (by cases h), fun _ h => (by cases h)⟩⟩

theorem ensures_layerBelow (levels : Nat) : (Layer.decoderBelow levels).Ensures (Fits Layer.encode) := by
  induction levels with
  | zero =>
    intro n t l h
    cases h
  | succ levels ih =>
    refine ensures_record (fun n hn => depth_layer_start_lt_iff.mpr hn) ?_
    simp only [Layer.fields, List.forall_mem_cons, List.not_mem_nil, false_imp_iff, implies_true, and_true]
    refine ⟨keeps_of (ensures_true _) fun n i l _ h => ?_, keeps_of (ensures_true _) fun n i l _ h => ?_,
      keeps_of ih.sequence fun n cs l hcs h => ?_, keeps_of ensures_drbd.nullable fun n o l ho h => ?_⟩
    all_goals
      have h := depth_layer_lt_iff.mp h
      refine depth_layer_lt_iff.mpr ?_
    · exact h
    · exact h
    · obtain ⟨inside, hinside, rfl, hcs⟩ := hcs
      exact ⟨h.1, fun _ => Value.depth_array_lt_iff.mpr ⟨hinside, List.forall_mem_map.mpr hcs⟩, h.2.2⟩
    · exact ⟨h.1, h.2.1, ho⟩

theorem ensures_layer : Layer.decoder.Ensures (Fits Layer.encode) := fun n _ _ h => ensures_layerBelow n h

/-- The layers and the usage of a replica are written even if they were left out, so that a replica fits only where it
may nest twice. -/
theorem ensures_replica : Replica.decoder.Ensures fun n r => 2 < n → Fits Replica.encode n r := by
  refine ensures_record (fun n hn h => ?_) ?_
  · obtain ⟨n, rfl⟩ := Nat.exists_eq_add_one_of_ne_zero (Nat.ne_zero_of_lt hn)
    have hn : 0 < n := by omega
    exact depth_replica_lt_iff.mpr ⟨by omega, fun h => (by cases h), fun h => (by cases h),
      depth_layer_start_lt_iff.mpr hn, depth_usage_lt_iff.mpr hn⟩
  · simp only [List.forall_mem_cons, List.not_mem_nil, false_imp_iff, implies_true, and_true]
    refine ⟨keeps_of (ensures_true _) fun n i r _ h hn => ?_, keeps_of (ensures_true _) fun n i r _ h hn => ?_,
      keeps_of (ensures_dictionary _) fun n i r hi h hn => ?_,
      keeps_of (ensures_true _).sequence fun n i r hi h hn => ?_, keeps_of ensures_layer fun n l r hl h hn => ?_,
      keeps_of ensures_usage fun n u r hu h hn => ?_⟩
    all_goals
      have h := depth_replica_lt_iff.mp (h hn)
      refine depth_replica_lt_iff.mpr ?_
    · exact h
    · exact h
    · exact ⟨h.1, fun _ => hi, h.2.2⟩
    · exact ⟨h.1, h.2.1, fun _ => by omega, h.2.2.2⟩
    · exact ⟨h.1, h.2.1, h.2.2.1, hl, h.2.2.2.2⟩
    · exact ⟨h.1, h.2.1, h.2.2.1, h.2.2.2.1, hu⟩

theorem ensures_snapshot : Snapshot.decoder.Ensures fun n s => 4 < n → Fits Snapshot.encode n s := by
  refine ensures_record (fun n hn h => ?_) ?_
  · obtain ⟨n, rfl⟩ := Nat.exists_eq_add_one_of_ne_zero (Nat.ne_zero_of_lt hn)
    exact depth_snapshot_lt_iff.mpr ⟨by omega, Value.depth_array_lt_iff.mpr ⟨by omega, fun _ h => (by cases h)⟩,
      Value.depth_array_lt_iff.mpr ⟨by omega, fun _ h => (by cases h)⟩⟩
  · simp only [List.forall_mem_cons, List.not_mem_nil, false_imp_iff, implies_true, and_true]
    refine ⟨keeps_of (ensures_true _).sequence fun n ds s hds h hn => ?_,
      keeps_of ensures_replica.sequence fun n rs s hrs h hn => ?_⟩
    · obtain ⟨inside, hinside, rfl, -⟩ := hds
      obtain ⟨inside, rfl⟩ := Nat.exists_eq_add_one_of_ne_zero (Nat.ne_zero_of_lt hinside)
      have h := depth_snapshot_lt_iff.mp (h hn)
      exact depth_snapshot_lt_iff.mpr ⟨h.1, Value.depth_array_lt_iff.mpr ⟨hinside, List.forall_mem_map.mpr fun d _ =>
        depth_definition_lt_iff.mpr (by omega)⟩, h.2.2⟩
    · obtain ⟨inside, hinside, rfl, hrs⟩ := hrs
      have h := depth_snapshot_lt_iff.mp (h hn)
      exact depth_snapshot_lt_iff.mpr ⟨h.1, h.2.1, Value.depth_array_lt_iff.mpr
        ⟨hinside, List.forall_mem_map.mpr fun r hr => hrs r hr (by omega)⟩⟩

/-- **Nothing that has been read nests too deep when it is written.** -/
theorem RecordName.ensures_depth (r : RecordName) :
    r.decoder.Ensures fun n v => 4 < n → Fits r.encode n v := by
  intro n t v h hn
  cases r with
  | signal =>
    obtain ⟨n, rfl⟩ := Nat.exists_eq_add_one_of_ne_zero (Nat.ne_zero_of_lt hn)
    exact Value.depth_object_lt_iff.mpr ⟨by omega, by simp [Value.depth]; omega⟩
  | usage => exact ensures_usage h
  | drbd => exact ensures_drbd h
  | layer => exact ensures_layer h
  | replica => exact ensures_replica h (by omega)
  | definition =>
    obtain ⟨n, rfl⟩ := Nat.exists_eq_add_one_of_ne_zero (Nat.ne_zero_of_lt hn)
    exact depth_definition_lt_iff.mpr (by omega)
  | snapshot => exact ensures_snapshot h hn
  | settings =>
    obtain ⟨n, rfl⟩ := Nat.exists_eq_add_one_of_ne_zero (Nat.ne_zero_of_lt hn)
    exact Value.depth_object_lt_iff.mpr ⟨by omega, by simp [Value.depth, Value.nat]; omega⟩

/-- Numbers that have been read are in range. -/
theorem RecordName.ensures_inRange (r : RecordName) : r.decoder.Ensures fun _ v => r.InRange v := by
  cases r with
  | settings =>
    have fits (kind : String) : (natural64 kind).Ensures fun _ n => n < Numeral.unsignedBound := fun _ _ n h =>
      Nat.lt_of_le_pred (by decide) (ensures_natural _ _ h)
    refine ensures_record (fun _ _ => ⟨by decide, by decide, by decide⟩) ?_
    simp only [List.forall_mem_cons, List.not_mem_nil, false_imp_iff, implies_true, and_true]
    exact ⟨keeps_of (ensures_true _) fun _ _ _ _ h => h, keeps_of (fits _) fun _ _ _ hn h => ⟨hn, h.2.1, h.2.2⟩,
      keeps_of (fits _) fun _ _ _ hn h => ⟨h.1, hn, h.2.2⟩, keeps_of (fits _) fun _ _ _ hn h => ⟨h.1, h.2.1, hn⟩,
      keeps_of (ensures_true _) fun _ _ _ _ h => h⟩
  | signal | usage | drbd | layer | replica | definition | snapshot => exact fun _ _ _ _ => trivial

/-! ## Reading undoes writing -/

namespace RecordName

/-- A text is one that a record may be written as: the order of members is left open, in maps above all. -/
def IsTextOf (r : RecordName) (v : r.Content) (text : String) : Prop :=
  ∃ t, Edited fields .plain (r.encode v).tree t ∧ t.Spells text

theorem isTextOf_write (r : RecordName) (v : r.Content) : r.IsTextOf v (r.encode v).write :=
  ⟨_, .refl, Value.spells_write _⟩

theorem decode_of_isTextOf (r : RecordName) {v : r.Content} (hrange : r.InRange v) (hdepth : (r.encode v).depth ≤ 127)
    {text : String} (h : r.IsTextOf v text) : decodeText r.decoder text = .ok v := by
  obtain ⟨t, hedited, ht⟩ := h
  have hread : r.decoder greatestDepth (r.encode v).tree = .ok v := r.reads_encode hrange (Nat.lt_succ_of_le hdepth)
  have hsame : Edited fields (.record r) (r.encode v).tree t :=
    Relation.ReflTransGen.mono (fun _ _ h => Edit.of_plain h _) _ _ hedited
  exact decodeText_eq_ok_iff.mpr ⟨t, ht, r.tolerates.edited hsame hread⟩

/-- **Reading undoes writing.** Every record is read back from any text that it may be written as, if it nests at most
127 deep there; every record that has been read does; and settings that have been accepted are accepted again. -/
theorem decode_encode :
    (∀ (r : RecordName) (v : r.Content), r.InRange v → (r.encode v).depth ≤ 127 →
      decodeText r.decoder (r.encode v).write = .ok v ∧
        ∀ text, r.IsTextOf v text → decodeText r.decoder text = .ok v) ∧
    (∀ (r : RecordName) (text : String) (v : r.Content), decodeText r.decoder text = .ok v →
      (r.encode v).depth ≤ 127 ∧ decodeText r.decoder (r.encode v).write = .ok v) ∧
    (∀ (text : String) (s : Settings), Settings.parse text = .ok s → Settings.parse s.encode.write = .ok s) := by
  have again (r : RecordName) (text : String) (v : r.Content) (h : decodeText r.decoder text = .ok v) :
      (r.encode v).depth ≤ 127 ∧ decodeText r.decoder (r.encode v).write = .ok v := by
    obtain ⟨t, -, hv⟩ := decodeText_eq_ok_iff.mp h
    have hdepth : (r.encode v).depth ≤ 127 := Nat.le_of_lt_succ (r.ensures_depth hv (by decide))
    exact ⟨hdepth, r.decode_of_isTextOf (r.ensures_inRange hv) hdepth (r.isTextOf_write v)⟩
  refine ⟨fun r v hrange hdepth => ⟨?_, fun text => r.decode_of_isTextOf hrange hdepth⟩, again, fun text s h => ?_⟩
  · exact r.decode_of_isTextOf hrange hdepth (r.isTextOf_write v)
  · have hdecode : decodeText Settings.decoder text = .ok s := by
      unfold Settings.parse at h
      split at h
      · cases h
      · rename_i hd
        split at h
        · cases h
          exact hd
        · cases h
    have hagain : decodeText Settings.decoder s.encode.write = .ok s := (again .settings text s hdecode).2
    simp only [Settings.parse, hagain, Settings.validate_of_parse h]

/-- A snapshot with layers below one another. -/
def layeredSnapshot : Snapshot where
  definitions := [{ name := "db", props := NameMap.empty.insert "quorum" "off" }]
  replicas :=
    [{ name := "db"
       nodeName := "a"
       flags := ["TIE_BREAKER"]
       layer :=
        { kind := .drbd
          children := [{ kind := .storage, nameSuffix := ".meta" }]
          drbd := some { nodeId := 1, peerSlots := -7, flags := ["DISKLESS"], mayPromote := true } } }]

/-- A snapshot, a replica of which only the name is given, and settings of which only the path is given. -/
theorem records_read_back :
    decodeText Snapshot.decoder layeredSnapshot.encode.write = .ok layeredSnapshot ∧
    decodeText Replica.decoder (Replica.encode { name := "db" }).write = .ok { name := "db" } ∧
    Settings.parse (Settings.encode { snapshotPath := "cluster.json" }).write =
      .ok { snapshotPath := "cluster.json" } := by
  have hreplica : decodeText Replica.decoder (Value.object [("name", .string "db")]).write = .ok { name := "db" } :=
    decodeText_eq_ok_iff.mpr ⟨_, Value.spells_write _, rfl⟩
  have hsettings : Settings.parse (Value.object [("snapshot_path", .string "cluster.json")]).write =
      .ok { snapshotPath := "cluster.json" } := by
    have hdecode : decodeText Settings.decoder (Value.object [("snapshot_path", .string "cluster.json")]).write =
        .ok { snapshotPath := "cluster.json" } := decodeText_eq_ok_iff.mpr ⟨_, Value.spells_write _, rfl⟩
    have hvalid : Settings.validate { snapshotPath := "cluster.json" } = .ok () := by
      rw [Settings.validate, if_neg (by decide), if_neg (by decide +kernel)]
      rfl
    simp only [Settings.parse, hdecode, hvalid]
  exact ⟨(decode_encode.1 .snapshot _ trivial (by decide)).1, (decode_encode.2.1 .replica _ _ hreplica).2,
    decode_encode.2.2 _ _ hsettings⟩

end RecordName

end ReplicaWatch
