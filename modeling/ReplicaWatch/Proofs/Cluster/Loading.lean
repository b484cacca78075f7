import Mathlib.Data.List.Induction
import Mathlib.Data.List.Nodup
import ReplicaWatch.Backend.Basic
import ReplicaWatch.Proofs.Json.Tolerance
import ReplicaWatch.Proofs.Json.Written
import ReplicaWatch.Proofs.Monitor.Judgement

/-!
# A snapshot in memory

A snapshot can be loaded into a cluster in memory: every definition is stored, and the replicas of every resource that
has some, one after the other in any order. `Loaded` is what has been stored by then (`Loaded.snoc`); once everything is,
the cluster answers as a file with the snapshot does, but for resources without replicas (`answers_alike`).
-/

namespace ReplicaWatch

open Monitor

/-- Something of a snapshot that is stored. -/
inductive Store
  | definition (d : Definition)
  /-- The replicas of a resource, in the order of the snapshot. -/
  | replicas (resource : String)
deriving DecidableEq

namespace Snapshot

variable {s : Snapshot} {stores : List Store} {c : MemoryCluster}

/-- Stores something of a snapshot. -/
def store (s : Snapshot) (c : MemoryCluster) : Store → MemoryCluster
  | .definition d => c.setDefinition d
  | .replicas resource => c.setReplicas resource (s.replicasOf resource)

/-- A cluster in memory after some things of a snapshot have been stored. -/
def loaded (s : Snapshot) (stores : List Store) : MemoryCluster := stores.foldl s.store {}

/-- Everything of a snapshot is stored: each of its definitions, and the replicas of each resource that has some. -/
structure IsLoadedBy (s : Snapshot) (stores : List Store) : Prop where
  definition : ∀ d, .definition d ∈ stores ↔ d ∈ s.definitions
  replicas : ∀ resource, .replicas resource ∈ stores ↔ s.replicasOf resource ≠ []

/-- What a cluster holds after some things of a snapshot have been stored. -/
structure Loaded (s : Snapshot) (stores : List Store) (c : MemoryCluster) : Prop where
  definition : ∀ name d, c.definitions.get? name = some d ↔ .definition d ∈ stores ∧ d.name = name
  replicas : ∀ name, c.replicas.get? name = if .replicas name ∈ stores then some (s.replicasOf name) else none
  answering : c.definitionFailure = none ∧ c.replicaFailure = none

/-- No two definitions that are stored share their name. -/
def Distinct (stores : List Store) : Prop :=
  ∀ d e, .definition d ∈ stores → .definition e ∈ stores → d.name = e.name → d = e

/-- Every store adds what it stores. -/
theorem Loaded.snoc {x : Store} (hl : Loaded s stores c) (hd : Distinct (stores ++ [x])) :
    Loaded s (stores ++ [x]) (s.store c x) := by
  have before {y : Store} (hy : y ∈ stores) : y ∈ stores ++ [x] := List.mem_append_left _ hy
  have now : x ∈ stores ++ [x] := List.mem_append_right _ (List.mem_singleton_self x)
  cases x with
  | definition d =>
    refine ⟨fun name e => ?_, fun name => ?_, hl.answering⟩
    · show (c.definitions.insert d.name d).get? name = some e ↔ _
      rw [NameMap.get?_insert]
      split
      · rename_i hname
        constructor
        · rintro ⟨⟩
          exact ⟨now, hname⟩
        · rintro ⟨he, rfl⟩
          rw [hd d e now he hname]
      · rename_i hname
        rw [hl.definition]
        refine and_congr_left fun he => ⟨before, fun h => ?_⟩
        rcases List.mem_append.mp h with h | h
        · exact h
        · cases List.mem_singleton.mp h
          exact absurd he hname
    · show c.replicas.get? name = _
      rw [hl.replicas]
      simp
  | replicas resource =>
    refine ⟨fun name e => ?_, fun name => ?_, hl.answering⟩
    · show c.definitions.get? name = some e ↔ _
      rw [hl.definition]
      simp
    · show (c.replicas.insert resource (s.replicasOf resource)).get? name = _
      rw [NameMap.get?_insert, hl.replicas]
      by_cases hname : resource = name
      · simp [hname]
      · simp [hname, Ne.symm hname]

theorem loaded_of_distinct (s : Snapshot) (hd : Distinct stores) : Loaded s stores (s.loaded stores) := by
  induction stores using List.reverseRecOn with
  | nil => exact ⟨by simp [loaded], by simp [loaded], rfl, rfl⟩
  | append_singleton stores x ih =>
    have hl := ih fun d e h h' => hd d e (List.mem_append_left _ h) (List.mem_append_left _ h')
    unfold loaded at hl ⊢
    rw [List.foldl_append]
    exact hl.snoc hd

/-- The only definition of a name is the first. -/
theorem definition?_eq_some_iff (hn : (s.definitions.map Definition.name).Nodup) {name : String} {d : Definition} :
    s.definition? name = some d ↔ d ∈ s.definitions ∧ d.name = name := by
  constructor
  · exact fun h => ⟨List.mem_of_find?_eq_some h, by simpa using List.find?_some h⟩
  · rintro ⟨hd, rfl⟩
    cases hf : s.definition? d.name with
    | none => exact absurd (List.find?_eq_none.mp hf d hd) (by simp)
    | some e =>
      have he : e.name = d.name := by simpa using List.find?_some hf
      rw [List.inj_on_of_nodup_map hn (List.mem_of_find?_eq_some hf) hd he]

/-- A load of definitions with different names holds the first definition of each name. -/
theorem IsLoadedBy.definition_eq (hl : s.IsLoadedBy stores) (hn : (s.definitions.map Definition.name).Nodup)
    (hc : s.Loaded stores c) (name : String) : c.definitions.get? name = s.definition? name := by
  refine Option.ext fun d => ?_
  rw [hc.definition, hl.definition, definition?_eq_some_iff hn]

theorem IsLoadedBy.distinct (hl : s.IsLoadedBy stores) (hn : (s.definitions.map Definition.name).Nodup) :
    Distinct stores := fun d e hd he hname =>
  List.inj_on_of_nodup_map hn ((hl.definition d).mp hd) ((hl.definition e).mp he) hname

end Snapshot

/-! ## A file and its load -/

section Alike

variable {s : Snapshot} {stores : List Store} {f : SnapshotFile}

theorem definition_of_load (hf : f.load = .ok s) (name : String) :
    f.definition name = match s.definition? name with
      | some d => .ok d
      | none => .error (.notFound name) := by
  cases hd : s.definition? name <;> simp [SnapshotFile.definition, hf, hd]

theorem replicasOf_of_load (hf : f.load = .ok s) (name : String) : f.replicasOf name = s.lookUp name := by
  unfold SnapshotFile.replicasOf
  rw [hf]

theorem definition_loaded (hn : (s.definitions.map Definition.name).Nodup) (hl : s.IsLoadedBy stores)
    (name : String) :
    (s.loaded stores).definition name = match s.definition? name with
      | some d => .ok d
      | none => .error (.notFound name) := by
  have hc := Snapshot.loaded_of_distinct s (hl.distinct hn)
  unfold MemoryCluster.definition MemoryCluster.answer
  rw [hc.answering.1, hl.definition_eq hn hc]
  cases s.definition? name <;> rfl

/-- A cluster in memory knows the replicas of a resource if there are any. -/
theorem replicasOf_loaded (hn : (s.definitions.map Definition.name).Nodup) (hl : s.IsLoadedBy stores)
    (name : String) :
    (s.loaded stores).replicasOf name =
      if s.replicasOf name = [] then .error (.notFound name) else .ok (s.replicasOf name) := by
  have hc := Snapshot.loaded_of_distinct s (hl.distinct hn)
  unfold MemoryCluster.replicasOf MemoryCluster.answer
  rw [hc.answering.2, hc.replicas]
  by_cases hr : s.replicasOf name = []
  · rw [if_neg (fun h => (hl.replicas name).mp h hr), if_pos hr]
  · rw [if_pos ((hl.replicas name).mpr hr), if_neg hr]

/-- **A file and its load answer alike.** Of definitions with different names every one is answered alike. The replicas
are answered alike but for the resources that are defined without any: a watch of one settles with what the file answers,
and its entry stays; with what the cluster in memory answers it has the resource forgotten. -/
theorem answers_alike (hf : f.load = .ok s) (hn : (s.definitions.map Definition.name).Nodup)
    (hl : s.IsLoadedBy stores) :
    (∀ name, (Backend.file f).definition name = (Backend.memory (s.loaded stores)).definition name) ∧
    (∀ name, (Backend.file f).replicas name ≠ (Backend.memory (s.loaded stores)).replicas name ↔
      (s.definition? name).isSome = true ∧ s.replicasOf name = []) ∧
    ∀ name, (s.definition? name).isSome = true → s.replicasOf name = [] →
      (Backend.file f).replicas name = .ok [] ∧
      (Backend.memory (s.loaded stores)).replicas name = .error (.notFound name) ∧
      ∀ setup m w, Reachable setup m → m.Asks w → w.resource = name →
        m.EndsWith setup w ((Backend.file f).replicas name) .settled ∧
        (m.conclude w .settled m.output).registry.get? name = some ⟨true, false⟩ ∧
        m.EndsWith setup w ((Backend.memory (s.loaded stores)).replicas name) (.removed .notFound) ∧
        (m.conclude w (.removed .notFound) m.output).registry.get? name = none := by
  have hfile (name : String) : (Backend.file f).replicas name = s.lookUp name := replicasOf_of_load hf name
  have hmemory (name : String) : (Backend.memory (s.loaded stores)).replicas name =
      if s.replicasOf name = [] then .error (.notFound name) else .ok (s.replicasOf name) := replicasOf_loaded hn hl name
  have undefined {name : String} (hd : (s.definition? name).isSome = true) (hr : s.replicasOf name = []) :
      (Backend.file f).replicas name = .ok [] ∧
        (Backend.memory (s.loaded stores)).replicas name = .error (.notFound name) := by
    refine ⟨?_, (hmemory name).trans (if_pos hr)⟩
    rw [hfile, Snapshot.lookUp_of_definition hd, hr]
  refine ⟨fun name => (definition_of_load hf name).trans (definition_loaded hn hl name).symm, fun name => ?_,
    fun name hd hr => ?_⟩
  · constructor
    · intro hne
      -- the two differ only in what they say of a resource without replicas
      have hr : s.replicasOf name = [] := by
        by_contra hr
        refine hne ?_
        rw [hfile, hmemory, if_neg hr]
        simp [Snapshot.lookUp, hr]
      refine ⟨?_, hr⟩
      by_contra hd
      refine hne ?_
      rw [hfile, hmemory, if_pos hr]
      simp [Snapshot.lookUp, hr, Option.not_isSome_iff_eq_none.mp hd]
    · rintro ⟨hd, hr⟩
      obtain ⟨h1, h2⟩ := undefined hd hr
      rw [h1, h2]
      intro h
      cases h
  · obtain ⟨h1, h2⟩ := undefined hd hr
    refine ⟨h1, h2, ?_⟩
    rintro setup m w hm ha rfl
    rw [h1, h2]
    exact ⟨ha.step?_settled setup Verdict.ofReplicas_nil, ha.entry_of_settled hm _, ha.vanishes setup _,
      entry_of_removed m w _ _⟩

/-- A resource with a definition and a replica, one with a definition only, and one with a replica only. -/
def unevenSnapshot : Snapshot where
  definitions := [{ name := "a" }, { name := "b" }]
  replicas := [{ name := "c" }, { name := "a" }]

/-- What is written of that snapshot in a file. -/
def unevenValue : Json.Value :=
  .object [("resource_definitions", .array [.object [("name", .string "a")], .object [("name", .string "b")]]),
    ("resources", .array [.object [("name", .string "c")], .object [("name", .string "a")]])]

/-- A file with a value. -/
def fileOf (v : Json.Value) : SnapshotFile := ⟨"cluster.json", .ok (Text.plainBytes v.chars)⟩

/-- The stores of that snapshot, in some order. -/
def unevenStores : List Store := [.replicas "a", .definition { name := "b" }, .replicas "c", .definition { name := "a" }]

theorem uneven_answers :
    let file := Backend.file (fileOf unevenValue)
    let memory := Backend.memory (unevenSnapshot.loaded unevenStores)
    let m := ((State.start { monitor := "m" } 0 (signalsOf ["b"])).played { monitor := "m" } (askingFor "b")).2
    let w : Watch := ⟨0, "b", 60000, .asking⟩
    (fileOf unevenValue).load = .ok unevenSnapshot ∧ (unevenSnapshot.definitions.map Definition.name).Nodup ∧
      unevenSnapshot.IsLoadedBy unevenStores ∧ file.definition "b" = memory.definition "b" ∧
      file.replicas "c" = memory.replicas "c" ∧ file.replicas "b" = .ok [] ∧
      memory.replicas "b" = .error (.notFound "b") ∧ Reachable { monitor := "m" } m ∧ m.Asks w ∧
      m.EndsWith { monitor := "m" } w (file.replicas "b") .settled ∧
      m.EndsWith { monitor := "m" } w (memory.replicas "b") (.removed .notFound) := by
  intro file memory m w
  have htext : readUtf8 (Text.plainBytes unevenValue.chars) = .ok unevenValue.write :=
    readUtf8_plainBytes (by decide +kernel)
  have hread : Json.decodeText Snapshot.decoder unevenValue.write = .ok unevenSnapshot :=
    Json.decodeText_eq_ok_iff.mpr ⟨_, Json.Value.spells_write _, rfl⟩
  have hload : (fileOf unevenValue).load = .ok unevenSnapshot := by
    rw [SnapshotFile.load_of_text (f := fileOf unevenValue) htext, Snapshot.parse, hread]
    rfl
  have hn : (unevenSnapshot.definitions.map Definition.name).Nodup := by decide
  have hl : unevenSnapshot.IsLoadedBy unevenStores := by
    constructor
    · intro d
      simp [unevenStores, unevenSnapshot, or_comm]
    · intro resource
      have : unevenSnapshot.replicasOf resource ≠ [] ↔ "c" = resource ∨ "a" = resource := by
        simp [Snapshot.replicasOf, unevenSnapshot, imp_iff_not_or]
      rw [this]
      simp [unevenStores, eq_comm, or_comm]
  have hm : Reachable { monitor := "m" } m := reachable_played (by decide)
  have ha : m.Asks w := ⟨by decide, rfl, by decide⟩
  obtain ⟨hdefinition, hreplicas, hundefined⟩ := answers_alike hload hn hl
  obtain ⟨hfile, hmemory, hwatch⟩ := hundefined "b" rfl rfl
  obtain ⟨hsettled, -, hremoved, -⟩ := hwatch _ m w hm ha rfl
  refine ⟨hload, hn, hl, hdefinition "b", ?_, hfile, hmemory, hm, ha, hsettled, hremoved⟩
  by_contra hne
  cases ((hreplicas "c").mp hne).1

end Alike

end ReplicaWatch
