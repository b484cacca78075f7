import ReplicaWatch.Cluster.Basic
import ReplicaWatch.Json.Value

/-!
# Writing the cluster's values

One encoder for every type of the cluster. Empty properties, flags, suffixes and lists of layers and absent DRBD
data are left out of replicas and layers; every other field is always written.
-/

namespace ReplicaWatch

open Json

def encodeTexts (texts : List String) : Value := .array (texts.map .string)

def encodeProps (props : NameMap String) : Value := .object (props.entries.map fun e => (e.1, .string e.2))

/-- A member that is written only if it says something. -/
def memberUnless (omitted : Bool) (name : String) (value : Value) : List (String × Value) :=
  if omitted then [] else [(name, value)]

def LayerKind.encode (k : LayerKind) : Value := .string k.name

def DrbdData.encode (d : DrbdData) : Value :=
  .object ([("node_id", .nat d.nodeId.toNat), ("peer_slots", .int d.peerSlots.toInt)]
    ++ memberUnless d.flags.isEmpty "flags" (encodeTexts d.flags)
    ++ [("may_promote", .boolean d.mayPromote)])

/-- Writes the DRBD data of a layer, if there are any. -/
def DrbdData.encodeMember : Option DrbdData → List (String × Value)
  | none => []
  | some d => [("drbd", d.encode)]

mutual

def Layer.encode : Layer → Value
  | ⟨kind, suffix, children, drbd⟩ =>
    .object ([("type", kind.encode)]
      ++ memberUnless suffix.isEmpty "resource_name_suffix" (.string suffix)
      ++ memberUnless children.isEmpty "children" (.array (Layer.encodeAll children))
      ++ DrbdData.encodeMember drbd)

def Layer.encodeAll : List Layer → List Value
  | [] => []
  | l :: rest => l.encode :: Layer.encodeAll rest

end

def Usage.encode (u : Usage) : Value := .object [("in_use", .boolean u.inUse)]

def Replica.encode (r : Replica) : Value :=
  .object ([("name", .string r.name), ("node_name", .string r.nodeName)]
    ++ memberUnless r.props.isEmpty "props" (encodeProps r.props)
    ++ memberUnless r.flags.isEmpty "flags" (encodeTexts r.flags)
    ++ [("layer_object", r.layer.encode), ("state", r.usage.encode)])

def Definition.encode (d : Definition) : Value :=
  .object [("name", .string d.name), ("props", encodeProps d.props)]

def Signal.encode (s : Signal) : Value :=
  .object [("resource_name", .string s.resource), ("may_promote", .boolean s.mayPromote)]

end ReplicaWatch
