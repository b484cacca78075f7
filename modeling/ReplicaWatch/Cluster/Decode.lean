import ReplicaWatch.Cluster.Basic
import ReplicaWatch.Json.Decoder

/-!
# Reading the cluster's values

One decoder for every type of the cluster. All fields but names may be left out, and unknown fields are passed
over.
-/

namespace ReplicaWatch

open Json

/-- Reads a layer kind: its name, or an object with the name as its one member and null as the value. -/
def LayerKind.decoder : Decoder LayerKind := fun depth t =>
  match t with
  | .scalar (.string (some s)) => .ok (LayerKind.ofName s)
  | .object members closed => do
    let _ ← Decoder.enter depth
    match members with
    | (some s, .scalar .null) :: more => do
      Decoder.ensureClosed (more.isEmpty && closed)
      return LayerKind.ofName s
    | (some _, t) :: _ => .error (t.mismatch "unit")
    | _ => .error .malformed
  | _ => .error .malformed

def DrbdData.decoder : Decoder DrbdData :=
  Decoder.record "DrbdResource" {}
    [ .of "node_id" false (Decoder.natural 4294967295 "u32") (fun n d => { d with nodeId := UInt32.ofNat n }),
      .of "peer_slots" false (Decoder.integer (-2147483648) 2147483647 "i32")
        (fun i d => { d with peerSlots := Int32.ofInt i }),
      .of "flags" false (Decoder.sequence Decoder.string) (fun fs d => { d with flags := fs }),
      .of "may_promote" false Decoder.boolean (fun b d => { d with mayPromote := b }) ]

/-- The fields of a layer, given how the layers below are read. -/
def Layer.fields (below : Decoder Layer) : List (Json.Field Layer) :=
  [ .of "type" false LayerKind.decoder (fun k l => { l with kind := k }),
    .of "resource_name_suffix" false Decoder.string (fun s l => { l with nameSuffix := s }),
    .of "children" false (Decoder.sequence below) (fun ls l => { l with children := ls }),
    .of "drbd" false (Decoder.nullable DrbdData.decoder) (fun d l => { l with drbd := d }) ]

/-- Reads a layer with fewer than the given number of layers below one another. -/
def Layer.decoderBelow : Nat → Decoder Layer
  | 0 => fun _ _ => .error .malformed
  | levels + 1 => Decoder.record "ResourceLayer" {} (Layer.fields (Layer.decoderBelow levels))

/-- Reads a layer. Every layer below another one nests two deeper, so there are never more of them than the
depth allows. -/
def Layer.decoder : Decoder Layer := fun depth t => Layer.decoderBelow depth depth t

def Usage.decoder : Decoder Usage :=
  Decoder.record "ResourceState" {} [.of "in_use" false Decoder.boolean (fun b u => { u with inUse := b })]

def Replica.decoder : Decoder Replica :=
  Decoder.record "Resource" { name := "" }
    [ .of "name" true Decoder.string (fun s r => { r with name := s }),
      .of "node_name" false Decoder.string (fun s r => { r with nodeName := s }),
      .of "props" false (Decoder.dictionary Decoder.string) (fun m r => { r with props := m }),
      .of "flags" false (Decoder.sequence Decoder.string) (fun fs r => { r with flags := fs }),
      .of "layer_object" false Layer.decoder (fun l r => { r with layer := l }),
      .of "state" false Usage.decoder (fun u r => { r with usage := u }) ]

def Definition.decoder : Decoder Definition :=
  Decoder.record "ResourceDefinition" { name := "" }
    [ .of "name" true Decoder.string (fun s d => { d with name := s }),
      .of "props" false (Decoder.dictionary Decoder.string) (fun m d => { d with props := m }) ]

def Signal.decoder : Decoder Signal :=
  Decoder.record "EligibilityEvent" { resource := "" }
    [ .of "resource_name" true Decoder.string (fun s e => { e with resource := s }),
      .of "may_promote" false Decoder.boolean (fun b e => { e with mayPromote := b }) ]

end ReplicaWatch
