import Mathlib.Logic.Function.Basic
import DrbdTests.Collections.Collection
import DrbdTests.Lib.Stateful

/-!
# The objects of a test run

The Python objects `Host`, `Resource`, `Node`, `Volume` and the classes of `disktools`, and
the `World` that holds them. Hosts, resources and nodes are referred to by numbers, as
Python refers to them by reference. A `Volume` belongs to the list `disks` of one node
from the moment it is appended there, so it is a value in that list; `object` is its
identity.

What happens outside of the process is a list of requests: commands run on hosts over SSH
and waits for events, the latest first, each with whether it succeeded. `Env` is what the
outside answers. `effect` records, next to the words of a command, which object of
`disktools` or which config it is about.
-/

namespace DrbdTests

abbrev HostId := Nat
abbrev ResourceId := Nat
abbrev NodeId := Nat
abbrev ObjectId := Nat

inductive Platform
  | linux
  | windows
  deriving DecidableEq, Repr

/-- An IPv4 address, as `init_host` reads it: a non-empty string of digits and dots. -/
structure Addr where
  text : String
  nonempty : text ≠ ""
  chars : ∀ c ∈ text.toList, c.isDigit ∨ c = '.'
  deriving DecidableEq

/-- A TCP port: never zero. -/
abbrev Port := { p : Nat // 0 < p }

abbrev Version := Nat × Nat × Nat

/-- `a >= b` on tuples. -/
def Version.ge (a b : Version) : Bool :=
  b.1 < a.1 || (b.1 == a.1 && (b.2.1 < a.2.1 || (b.2.1 == a.2.1 && b.2.2 ≤ a.2.2)))

/-! ## `disktools` -/

inductive StorageBackend
  | lvm
  | raw
  | zfs
  | storageSpaces
  deriving DecidableEq, Repr

/-- `LvmPool`, `RawPool`, `ZfsPool` and `StorageSpacesPool`. -/
structure StoragePool where
  backend : StorageBackend
  backingDevice : String
  thin : Bool
  discardGranularity : Option Nat
  deriving DecidableEq, Repr

/-- `LvmVolume`, `RawVolume`, `ZfsVolume` and `StorageSpacesVolume`, with what
`volume_path` and `remove` read. -/
inductive BackingVolume
  | lvmVolume (lv : String)
  | rawVolume (devicePath partNumber backingDevice : String)
  | zfsVolume (datasetName zvolPath : String)
  | storageSpacesVolume (name lv : String)
  deriving DecidableEq, Repr

/-- The `dm_type` of a `DeviceMapperTarget`: `DelayVolume` or `EmulatedBlockSizeVolume`. -/
inductive DmType
  | delay
  | ebs
  deriving DecidableEq, Repr

/-- What `create_disk` returns: a backing volume, below any number of device-mapper
layers. Every object has the host its commands run on. -/
inductive DiskVolume
  | backing (object : ObjectId) (host : HostId) (volume : BackingVolume)
  | deviceMapperTarget (object : ObjectId) (host : HostId) (dmType : DmType) (deviceName : String)
      (backingVolume : DiskVolume)
  deriving DecidableEq, Repr

def DiskVolume.object : DiskVolume → ObjectId
  | backing object _ _ => object
  | deviceMapperTarget object _ _ _ _ => object

def BackingVolume.volumePath : BackingVolume → String
  | lvmVolume lv => lv
  | rawVolume devicePath _ _ => devicePath
  | zfsVolume _ zvolPath => zvolPath
  | storageSpacesVolume _ lv => lv

def DiskVolume.volumePath : DiskVolume → String
  | backing _ _ volume => volume.volumePath
  | deviceMapperTarget _ _ _ deviceName _ => "/dev/mapper/" ++ deviceName

/-! ## `drbdtest` -/

/-- The attributes of a `Host` that a generated config can depend on. -/
structure HostInfo where
  name : String
  hostname : String
  platform : Platform
  osId : String
  osVersionId : String
  addr : Addr
  addrs : List Addr
  drbdVersion : String
  drbdVersionTuple : Version
  drbdGitHash : String
  deriving DecidableEq

structure Host where
  info : HostInfo
  volumeGroup : String
  storageBackend : StorageBackend
  backingDevice : String
  drbdConfigDir : String
  port : Port
  minors : Nat
  storagePool : Option StoragePool
  drbdmetaUuidOptions : Option Bool

structure Volume where
  object : ObjectId
  volume : Nat
  minor : Nat
  diskVolume : Option DiskVolume
  metaVolume : Option DiskVolume
  diskLv : Option String
  metaLv : Option String
  tiebreaker : Option Bool
  deriving DecidableEq, Repr

/-- `Volume.disk` -/
def Volume.disk (v : Volume) : Option String := v.diskVolume.map DiskVolume.volumePath

/-- `Volume.meta` -/
def Volume.meta (v : Volume) : Option String := v.metaVolume.map DiskVolume.volumePath

/-- `Connection` objects are equal when their two nodes are the same. -/
structure Connection where
  node1 : NodeId
  node2 : NodeId
  deriving DecidableEq, Repr

structure Node where
  fencingMode : String
  host : HostId
  resource : ResourceId
  name : String
  port : Port
  disks : List Volume
  id : Nat
  configChanged : Bool
  connections : OrderedSet Connection

structure Resource where
  name : String
  netOptions : String
  diskOptions : String
  resourceOptions : String
  handlers : String
  nodes : OrderedSet NodeId
  numVolumes : Nat
  transport : Option String
  tls : String
  forbiddenPatterns : OrderedSet String

/-- The module-level settings that `setup` makes from the command line. -/
structure Settings where
  proxyEnable : Bool
  lz4Enable : Bool
  zstdEnable : Nat
  memlimit : Option Nat
  noRmmod : Bool
  skipCleanup : Bool
  deriving DecidableEq, Repr

/-! ## Requests to the environment -/

inductive Effect
  | none
  | createPool
  | removePool
  /-- A device now exists for this object of `disktools`, stacked on that of another one. -/
  | create (object : ObjectId) (on : Option ObjectId)
  | remove (object : ObjectId)
  /-- The config of this node is stored. -/
  | upload (node : NodeId)
  deriving DecidableEq, Repr

inductive Request
  | command (host : HostId) (argv : List String) (stdin : Option String) (effect : Effect)
  | events (nodes : List NodeId) (pattern : String)
  deriving DecidableEq, Repr

def Request.effect : Request → Effect
  | command _ _ _ effect => effect
  | events _ _ => .none

/-- How a command ended (a wait for events that timed out has a non-zero code), and what
it printed. -/
structure Reply where
  returncode : Nat
  stdout : String
  deriving DecidableEq, Repr

/-- The outside of the process: the reply to the `k`-th request, the local files, and
`uuid.uuid5` in the URL namespace. -/
structure Env where
  replies : Nat → Reply
  files : String → String
  uuid5 : String → String

/-- All objects, the attributes of the one `Cluster`, and what was asked of the
environment. `nodeCount`, `resourceCount` and `objectCount` are the next unused numbers. -/
structure World where
  settings : Settings
  job : String
  resourceName : String
  transport : Option String
  tls : String
  hosts : List HostId
  resources : List ResourceId
  host : HostId → Host
  node : NodeId → Node
  resource : ResourceId → Resource
  nodeCount : Nat
  resourceCount : Nat
  objectCount : Nat
  requests : List (Request × Bool)
  env : Env

abbrev Py (α : Type) := Stateful.Comp World PyError α

namespace World

def setHost (w : World) (h : HostId) (f : Host → Host) : World :=
  { w with host := Function.update w.host h (f (w.host h)) }

def setNode (w : World) (n : NodeId) (f : Node → Node) : World :=
  { w with node := Function.update w.node n (f (w.node n)) }

def setResource (w : World) (r : ResourceId) (f : Resource → Resource) : World :=
  { w with resource := Function.update w.resource r (f (w.resource r)) }

/-- The members of `resource.nodes`, in order. -/
def members (w : World) (r : ResourceId) : List NodeId := (w.resource r).nodes.items

/-- The requests that had an effect, the latest first. -/
def record (w : World) : List Request :=
  (w.requests.filter fun p => p.2 ∧ p.1.effect ≠ .none).map Prod.fst

/-- The text that was last uploaded as the config of a node. -/
def uploaded (w : World) (n : NodeId) : Option String :=
  w.record.findSome? fun
    | .command _ _ stdin (.upload m) => if m = n then stdin else none
    | _ => none

variable (w : World)

@[simp] theorem setHost_host (h h' : HostId) (f : Host → Host) :
    (w.setHost h f).host h' = if h' = h then f (w.host h) else w.host h' := by
  simp only [setHost, Function.update_apply]

@[simp] theorem setHost_node (h : HostId) (f : Host → Host) : (w.setHost h f).node = w.node := rfl

@[simp] theorem setHost_resource (h : HostId) (f : Host → Host) :
    (w.setHost h f).resource = w.resource := rfl

@[simp] theorem setHost_requests (h : HostId) (f : Host → Host) :
    (w.setHost h f).requests = w.requests := rfl

@[simp] theorem setNode_node (n m : NodeId) (f : Node → Node) :
    (w.setNode n f).node m = if m = n then f (w.node n) else w.node m := by
  simp only [setNode, Function.update_apply]

@[simp] theorem setNode_host (n : NodeId) (f : Node → Node) : (w.setNode n f).host = w.host := rfl

@[simp] theorem setNode_resource (n : NodeId) (f : Node → Node) :
    (w.setNode n f).resource = w.resource := rfl

@[simp] theorem setNode_requests (n : NodeId) (f : Node → Node) :
    (w.setNode n f).requests = w.requests := rfl

@[simp] theorem setResource_resource (r s : ResourceId) (f : Resource → Resource) :
    (w.setResource r f).resource s = if s = r then f (w.resource r) else w.resource s := by
  simp only [setResource, Function.update_apply]

@[simp] theorem setResource_node (r : ResourceId) (f : Resource → Resource) :
    (w.setResource r f).node = w.node := rfl

@[simp] theorem setResource_host (r : ResourceId) (f : Resource → Resource) :
    (w.setResource r f).host = w.host := rfl

@[simp] theorem setResource_requests (r : ResourceId) (f : Resource → Resource) :
    (w.setResource r f).requests = w.requests := rfl

end World

end DrbdTests
