import ReplicaWatch.NameMap

/-!
# The cluster as the monitor sees it

- `LayerKind`, `DrbdData`, `Layer`: the stack of device layers that a replica is assembled from. Only the DRBD
  layer is replicated; every other kind is outside the monitor's model;
- `Usage`, `Replica`: one replica of a resource, as deployed on one node;
- `Definition`: what is configured for all replicas of a resource, quorum above all;
- `Signal`: a sign from the cluster that a resource may or may not be promoted.
-/

namespace ReplicaWatch

/-! ## Layers -/

inductive LayerKind
  /-- The replicated block device. -/
  | drbd
  | luks
  | storage
  | nvme
  | exos
  | writecache
  | cache
  | bcache
  /-- Any other kind. -/
  | unknown
deriving DecidableEq, Repr

namespace LayerKind

def name : LayerKind → String
  | drbd => "DRBD"
  | luks => "LUKS"
  | storage => "STORAGE"
  | nvme => "NVME"
  | exos => "EXOS"
  | writecache => "WRITECACHE"
  | cache => "CACHE"
  | bcache => "BCACHE"
  | unknown => "UNKNOWN"

/-- The kinds that have a name of their own. -/
def known : List LayerKind := [drbd, luks, storage, nvme, exos, writecache, cache, bcache]

/-- The kind with a name; a name that no kind has stands for an unknown one. -/
def ofName (s : String) : LayerKind := (known.find? (fun k => k.name = s)).getD unknown

/-- Whether the layer replicates its data to other nodes. -/
def isReplicated : LayerKind → Bool
  | drbd => true
  | _ => false

/-- Every kind is found under its name. -/
theorem ofName_name (k : LayerKind) : ofName k.name = k := by cases k <;> decide

end LayerKind

/-- What a DRBD layer knows of its replica. -/
structure DrbdData where
  /-- The number of the replica among its peers. -/
  nodeId : UInt32 := 0
  /-- How many peers the replica has room for. -/
  peerSlots : Int32 := 0
  flags : List String := []
  /-- Whether the replica may be promoted. -/
  mayPromote : Bool := false
deriving DecidableEq, Repr

/-- A device layer and the layers below it. -/
structure Layer where
  kind : LayerKind := .unknown
  /-- What the layer appends to the name of the resource. -/
  nameSuffix : String := ""
  children : List Layer := []
  /-- What only a DRBD layer knows. -/
  drbd : Option DrbdData := none

instance : Inhabited Layer := ⟨{}⟩

/-! ## Replicas -/

/-- How a replica is being used. -/
structure Usage where
  /-- Whether something has the replica open. -/
  inUse : Bool := false
deriving DecidableEq, Repr

/-- One replica of a resource. -/
structure Replica where
  /-- The resource it belongs to. -/
  name : String
  /-- The node it is deployed on. -/
  nodeName : String := ""
  props : NameMap String := .empty
  flags : List String := []
  /-- The top of its layer stack. -/
  layer : Layer := {}
  /-- How it is being used. -/
  usage : Usage := {}

namespace Replica

/-- Whether the replica's top layer is DRBD and may be promoted. -/
def mayPromote (r : Replica) : Bool :=
  r.layer.kind.isReplicated && (r.layer.drbd.map (fun d => d.mayPromote)).getD false

/-- A replica on a DRBD layer. -/
def onDrbd (name node : String) (mayPromote : Bool) : Replica :=
  { name := name, nodeName := node, layer := { kind := .drbd, drbd := some { mayPromote := mayPromote } } }

/-- A replica on a layer of the given kind. -/
def onLayer (name node : String) (kind : LayerKind) : Replica :=
  { name := name, nodeName := node, layer := { kind := kind } }

end Replica

/-! ## Definitions -/

/-- What is configured for all replicas of a resource. -/
structure Definition where
  name : String
  props : NameMap String := .empty
deriving DecidableEq

namespace Definition

/-- The property that configures quorum. -/
def quorumProperty : String := "DrbdOptions/Resource/quorum"

/-- The value of the property that turns quorum off. -/
def quorumOff : String := "off"

/-- Whether quorum is enabled: the property is set, and not to off. -/
def hasQuorum (d : Definition) : Bool :=
  match d.props.get? quorumProperty with
  | none => false
  | some value => value != quorumOff

/-- A definition with the quorum property, if a value is given. -/
def withQuorum (name : String) (quorum : Option String) : Definition :=
  match quorum with
  | none => { name := name }
  | some value => { name := name, props := NameMap.empty.insert quorumProperty value }

end Definition

/-! ## Signals -/

/-- A sign that a resource may or may not be promoted. -/
structure Signal where
  resource : String
  /-- Whether it may be promoted. -/
  mayPromote : Bool := false
deriving DecidableEq, Repr

end ReplicaWatch
