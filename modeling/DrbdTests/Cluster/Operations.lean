import DrbdTests.Cluster.Storage
import DrbdTests.Lib.Runs

/-!
# The operations of a test

The methods of `Host`, `Cluster`, `Resource`, `Node` and `Volume` with which a test changes
the objects, the exit handlers, and `Op`, which lists the calls a test can make.
-/

namespace DrbdTests

open Stateful Runs

/-! ## `Host` -/

namespace Host

def nextMinor (h : HostId) : Py Nat := do
  modify fun w => w.setHost h fun host => { host with minors := host.minors + 1 }
  return ((← get).host h).minors

def nextPort (h : HostId) : Py Port := do
  let port := ((← get).host h).port
  modify fun w => w.setHost h fun host => { host with port := ⟨port.val + 1, Nat.succ_pos _⟩ }
  return port

def createStoragePool (h : HostId) (thin : Bool) (discardGranularity : Option Nat) : Py PUnit := do
  let host := (← get).host h
  when host.storagePool.isSome (throw (.runtimeError "storage pool already created"))
  let pool ← DrbdTests.createStoragePool h host.storageBackend host.backingDevice thin
    discardGranularity
  modify fun w => w.setHost h fun host => { host with storagePool := some pool }

def removeStoragePool (h : HostId) : Py PUnit := do
  match ((← get).host h).storagePool with
  | none => throw (.runtimeError "no storage pool to remove")
  | some pool => do
    pool.remove h
    modify fun w => w.setHost h fun host => { host with storagePool := none }

/-- `Host.cleanup` -/
def cleanup (h : HostId) : Py PUnit := do
  let w ← get
  when (w.host h).storagePool.isSome (removeStoragePool h)

def setInfo (h : HostId) (f : HostInfo → HostInfo) : Py PUnit :=
  modify fun w => w.setHost h fun host => { host with info := f host.info }

end Host

/-- A group of a regular expression that did not match: `None` has no `group`. -/
def groupOf {α : Type} (m : Option α) : Py α :=
  match m with
  | some a => pure a
  | none => throw .attributeError

/-- `re.match(r'([0-9]+)\.([0-9]+)\.([0-9]+).*', text)` -/
def matchVersion (text : List Char) : Option Version :=
  match Text.takeInt text with
  | some (major, '.' :: rest) =>
    match Text.takeInt rest with
    | some (minor, '.' :: rest) =>
      match Text.takeInt rest with
      | some (patch, _) => some (major, minor, patch)
      | none => none
    | _ => none
  | _ => none

/-- `re.match(r'version: ([^ -]+).*', line)` -/
def matchVersionLine (line : List Char) : Option (List Char) :=
  match (Text.afterPrefix "version: ".toList line).map (List.takeWhile fun c => c ≠ ' ' ∧ c ≠ '-') with
  | some (c :: rest) => some (c :: rest)
  | _ => none

/-- `[0-9A-Fa-f]` -/
def isHexDigit (c : Char) : Bool := c.isDigit || ('A' ≤ c && c ≤ 'F') || ('a' ≤ c && c ≤ 'f')

/-- `re.match(r'(?:srcversion|GIT-hash): ([0-9A-Fa-f]+).*', line)` -/
def matchHashLine (line : List Char) : Option (List Char) :=
  let text := (Text.afterPrefix "srcversion: ".toList line).orElse fun _ =>
    Text.afterPrefix "GIT-hash: ".toList line
  match text.map (List.takeWhile isHexDigit) with
  | some (c :: rest) => some (c :: rest)
  | _ => none

namespace LinuxPlatformHelper

def readDrbdVersion (h : HostId) : Py PUnit := do
  let _ ← Host.run h ["bash", "-c", "cat /proc/drbd > /dev/kmsg || modprobe drbd"]
  let out ← Host.run h ["cat", "/proc/drbd"]
  match Text.splitlines out.toList with
  | versionLine :: gitHashLine :: _ => do
    let version ← groupOf (matchVersionLine versionLine)
    Host.setInfo h fun info => { info with drbdVersion := String.ofList version }
    let hash ← groupOf (matchHashLine gitHashLine)
    Host.setInfo h fun info => { info with drbdGitHash := String.ofList (hash.map Char.toLower) }
    let tuple ← groupOf (matchVersion version)
    Host.setInfo h fun info => { info with drbdVersionTuple := tuple }
  | _ => throw .indexError

/-- A command in `try: ... except: pass`. -/
def tryRun (h : HostId) (cmd : List String) : Py PUnit :=
  tryCatch (Host.act h cmd none .none) fun _ => pure ⟨⟩

def rmmod (h : HostId) : Py PUnit := do
  let w ← get
  when ((w.host h).info.drbdVersionTuple.ge (9, 0, 0)) do
    tryRun h ["rmmod", "drbd_transport_tcp"]
    tryRun h ["rmmod", "drbd_transport_lb-tcp"]
    tryRun h ["rmmod", "drbd_transport_rdma"]
  tryCatch (Host.act h ["rmmod", "drbd"] none .none) fun e => do
    let _ ← Host.runWith true h ["cat", "/sys/kernel/debug/drbd/reference_counts"] none .none
    throw e

/-- `cleanup_framework`, without the processes that capture logs. -/
def cleanupFramework (h : HostId) : Py PUnit := do
  let _ ← Host.run h ["journalctl", "-u", "tlshd", "-b", "0", "-q"]
  let _ ← Host.run h ["bash", "--norc", "-xec",
    "iptables -D INPUT -j drbd-test-input\niptables -D OUTPUT -j drbd-test-output\n"
      ++ "iptables -F drbd-test-input && iptables -X drbd-test-input || true\n"
      ++ "iptables -F drbd-test-output && iptables -X drbd-test-output || true"]
  pure ⟨⟩

end LinuxPlatformHelper

namespace WindowsPlatformHelper

/-- One line of the output of `drbdadm --version`. -/
def readVersionLine (h : HostId) (line : List Char) : Py PUnit := do
  let a := (line.splitOn '=').map String.ofList
  let value : Py String :=
    match a with
    | _ :: v :: _ => pure v
    | _ => throw .indexError
  when (a.head? = some "DRBD_KERNEL_VERSION") do
    let v ← value
    Host.setInfo h fun info => { info with drbdVersion := v }
  when (a.head? = some "WINDRBD_VERSION") do
    let v ← value
    Host.setInfo h fun info => { info with drbdGitHash := v }

def readDrbdVersion (h : HostId) : Py PUnit := do
  let out ← Host.run h ["drbdadm", "--version"]
  (Text.splitlines out.toList).forM (readVersionLine h)
  let version := ((← get).host h).info.drbdVersion
  let tuple ← groupOf (matchVersion version.toList)
  Host.setInfo h fun info => { info with drbdVersionTuple := tuple }

end WindowsPlatformHelper

namespace Host

def readDrbdVersion (h : HostId) : Py PUnit := do
  match ((← get).host h).info.platform with
  | .linux => LinuxPlatformHelper.readDrbdVersion h
  | .windows => WindowsPlatformHelper.readDrbdVersion h

/-- `Host.rmmod`; the Windows helper does nothing. -/
def rmmod (h : HostId) : Py PUnit := do
  let w ← get
  when (!w.settings.noRmmod && (w.host h).info.platform = .linux) (LinuxPlatformHelper.rmmod h)

def cleanupFramework (h : HostId) : Py PUnit := do
  let w ← get
  when ((w.host h).info.platform = .linux) (LinuxPlatformHelper.cleanupFramework h)

end Host

/-! ## `Volume` -/

/-- `Volume.__init__` -/
def Volume.init (n : NodeId) (volume : Nat) (minor : Option Nat) : Py Volume := do
  let w ← get
  let minor ← match minor with
    | some minor => pure minor
    | none => Host.nextMinor (w.node n).host
  let object ← newObject
  return ⟨object, volume, minor, none, none, none, none, none⟩

/-- The keyword arguments of `Node.add_disk`. -/
structure NodeDiskArgs where
  metaSize : Option String
  disk : DiskArgs
  zeroOut : Bool
  deriving DecidableEq, Repr

/-- The defaults of the keyword arguments. -/
def NodeDiskArgs.default : NodeDiskArgs := ⟨none, ⟨none, none, none⟩, false⟩

/-- The names `disk_lv` and `meta_lv` of a volume. -/
def lvName (resourceName kind : String) (volume : Nat) : String :=
  resourceName ++ "-" ++ kind ++ toString volume

/-- `Volume.create_disks` -/
def Volume.createDisks (n : NodeId) (self : Volume) (size : String) (args : NodeDiskArgs) :
    Py Volume := do
  let w ← get
  let host := (w.node n).host
  let name := (w.resource (w.node n).resource).name
  let diskLv := lvName name "disk" self.volume
  let diskVolume ← createDisk host diskLv size args.disk
  let self := { self with diskLv := some diskLv, diskVolume := some diskVolume }
  match args.metaSize with
  | some metaSize =>
    if metaSize = "" then return self
    else do
      let metaLv := lvName name "meta" self.volume
      let metaVolume ← createDisk host metaLv metaSize { args.disk with maxSize := none }
      return { self with metaLv := some metaLv, metaVolume := some metaVolume }
  | none => return self

/-- `Volume.create_md` -/
def Volume.createMd (n : NodeId) (self : Volume) (maxPeers bitmapBlockSize : Option Nat)
    (md : MdArgs) : Py PUnit := do
  let w ← get
  let peers := (w.members (w.node n).resource).length - 1
  DrbdTests.createMd n self.volume (maxPeers.getD (max peers 1)) bitmapBlockSize md

def removeIfPresent : Option DiskVolume → Py PUnit
  | some diskVolume => diskVolume.remove
  | none => pure ⟨⟩

/-- The body of the loop of `Node.remove_disks`. -/
def Volume.removeDisks (self : Volume) : Py PUnit := do
  removeIfPresent self.diskVolume
  removeIfPresent self.metaVolume

/-! ## `Node` -/

namespace World

/-- A volume is stored under its number if there is one already, and else appended. -/
def storeVolume (w : World) (n : NodeId) (volumeNumber : Nat) (volume : Volume) : World :=
  w.setNode n fun node =>
    { node with
      disks :=
        if volumeNumber < node.disks.length then node.disks.set volumeNumber volume
        else node.disks ++ [volume]
      configChanged := true }

def clearDisks (w : World) (n : NodeId) : World := w.setNode n fun node => { node with disks := [] }

/-- `config_changed = True` for each of the nodes. -/
def touch (w : World) (nodes : List NodeId) : World := nodes.foldl (fun w n => w.setFlag n true) w

end World

namespace Node

/-- The part of `add_disk` that makes the devices of a new volume. -/
def createDisks (n : NodeId) (volume : Volume) (size : Option String) (args : NodeDiskArgs) :
    Py Volume :=
  match size with
  | none => pure volume
  | some size => do
    let volume ← volume.createDisks n size args
    when args.zeroOut do
      let _ ← Node.run n ["blkdiscard", "-z", volume.disk.getD "None"]
    return volume

/-- `add_disk` up to the point where the new volume is stored. -/
def newVolume (n : NodeId) (volumeNumber : Nat) (size : Option String) (args : NodeDiskArgs) :
    Py Volume := do
  let w ← get
  let host := (w.node n).host
  when (w.host host).storagePool.isNone (Host.createStoragePool host false none)
  let volume ← Volume.init n volumeNumber ((w.node n).disks[volumeNumber]?.map Volume.minor)
  createDisks n volume size args

def addDisk (n : NodeId) (volumeNumber : Nat) (size : Option String) (args : NodeDiskArgs) :
    Py Volume := do
  let volume ← newVolume n volumeNumber size args
  modify fun w => w.storeVolume n volumeNumber volume
  return volume

def removeDisks (n : NodeId) : Py PUnit := do
  let w ← get
  (w.node n).disks.forM Volume.removeDisks
  modify fun w => w.clearDisks n

def cleanup (n : NodeId) : Py PUnit := do
  let w ← get
  let _ ← Node.runWith false false n ["bash", "-c",
    "! [ -e /proc/drbd ] || drbdsetup down " ++ (w.resource (w.node n).resource).name]
  removeDisks n

/-- `Node.__init__`, with `init_node` of the platform helper. -/
def init (h : HostId) (r : ResourceId) (port : Port) : Py NodeId := do
  let w ← get
  let n := w.nodeCount
  let node : Node :=
    { fencingMode := "", host := h, resource := r, name := (w.host h).info.name, port := port
      disks := [], id := (w.resource r).nodes.length, configChanged := true
      connections := OrderedSet.empty }
  set { w with nodeCount := n + 1, node := Function.update w.node n node }
  let w ← get
  let nodes ← Py.liftExcept (Collection.add (fun m => (w.node m).resource) (w.resource r).nodes n)
  modify fun w => w.setResource r fun resource => { resource with nodes := nodes }
  when ((w.host h).info.platform = .windows) (Host.act h
    ["netsh", "advfirewall", "firewall", "add", "rule", "name=DRBDTest" ++ toString port.val,
      "protocol=tcp", "dir=in", "localport=" ++ toString port.val, "action=allow"] none .none)
  return n

/-- `node0.connections.add(Connection(node0, node1))` -/
def addConnection (node0 node1 : NodeId) : Py PUnit := do
  let w ← get
  when ((w.node node0).resource ≠ (w.node node1).resource) (throw .assertionError)
  let connections ← Py.liftExcept (Collection.add
    (fun (c : Connection) => (w.node c.node1).resource) (w.node node0).connections ⟨node0, node1⟩)
  modify fun w => w.setNode node0 fun node => { node with connections := connections }

end Node

/-! ## `Resource` -/

namespace Resource

/-- `Resource.__init__`. The exit handler `cleanup` is registered here, so the handlers of
all resources are registered in the order of their numbers. -/
def init (name : Option String) : Py ResourceId := do
  let w ← get
  let r := w.resourceCount
  let resource : Resource :=
    { name := name.getD w.resourceName, netOptions := "", diskOptions := "", resourceOptions := ""
      handlers := "", nodes := OrderedSet.empty, numVolumes := 0, transport := w.transport
      tls := w.tls
      forbiddenPatterns := OrderedSet.ofList
        ["connection:Timeout", "connection:ProtocolError", "disk:Failed", "peer-disk:Failed"] }
  set { w with resourceCount := r + 1, resource := Function.update w.resource r resource }
  return r

def touchConfig (r : ResourceId) : Py PUnit := modify fun w => w.touch (w.members r)

def nextVolume (r : ResourceId) : Py Nat := do
  let volume := ((← get).resource r).numVolumes
  modify fun w => w.setResource r fun resource => { resource with numVolumes := volume + 1 }
  return volume

def removeStoragePool (r : ResourceId) : Py PUnit := do
  let w ← get
  (w.members r).forM Node.removeDisks
  modify fun w => w.setResource r fun resource => { resource with numVolumes := 0 }
  w.hosts.forM Host.removeStoragePool

/-- The arguments of `Resource.add_disk`; `diskfulNodes` and `bitmapBlockSizes` may be
absent. -/
structure AddDiskArgs where
  size : String
  diskfulNodes : Option (List NodeId)
  disk : NodeDiskArgs
  maxPeers : Option Nat
  bitmapBlockSizes : Option (List (NodeId × Nat))
  md : MdArgs
  deriving DecidableEq, Repr

/-- The body of the first loop of `add_disk`. -/
def addDiskOn (volumeNumber : Nat) (args : AddDiskArgs) (diskfulVolumes : List (NodeId × Volume))
    (n : NodeId) : Py (List (NodeId × Volume)) :=
  if args.diskfulNodes.all (n ∈ ·) then do
    let volume ← Node.addDisk n volumeNumber (some args.size) args.disk
    return diskfulVolumes ++ [(n, volume)]
  else do
    let _ ← Node.addDisk n volumeNumber none .default
    return diskfulVolumes

/-- The two loops of `add_disk`. -/
def addDiskOnMembers (r : ResourceId) (volumeNumber : Nat) (args : AddDiskArgs) : Py PUnit := do
  let w ← get
  let diskfulVolumes ← (w.members r).foldlM (addDiskOn volumeNumber args) []
  diskfulVolumes.forM fun (n, volume) =>
    volume.createMd n args.maxPeers (args.bitmapBlockSizes.bind (List.lookup n)) args.md

def addDisk (r : ResourceId) (args : AddDiskArgs) : Py Nat := do
  let volumeNumber ← nextVolume r
  addDiskOnMembers r volumeNumber args
  return volumeNumber

/-- A setter of one of the option strings. -/
def setOption (r : ResourceId) (f : Resource → Resource) : Py PUnit := do
  modify fun w => w.setResource r f
  touchConfig r

def setNetOptions (r : ResourceId) (value : String) : Py PUnit :=
  setOption r fun resource => { resource with netOptions := value }

def setDiskOptions (r : ResourceId) (value : String) : Py PUnit :=
  setOption r fun resource => { resource with diskOptions := value }

def setResourceOptions (r : ResourceId) (value : String) : Py PUnit :=
  setOption r fun resource => { resource with resourceOptions := value }

def setHandlers (r : ResourceId) (value : String) : Py PUnit :=
  setOption r fun resource => { resource with handlers := value }

/-- `set_fencing_mode`: the setter of each node changes the flag of that node. -/
def setFencingMode (r : ResourceId) (mode : String) : Py PUnit := do
  let w ← get
  (w.members r).forM fun n => modify fun w =>
    w.setNode n fun node => { node with fencingMode := mode, configChanged := true }

def addNode (r : ResourceId) (newNode : NodeId) : Py PUnit := do
  let w ← get
  let nodes ← Py.liftExcept
    (Collection.add (fun m => (w.node m).resource) (w.resource r).nodes newNode)
  modify fun w => w.setResource r fun resource => { resource with nodes := nodes }
  touchConfig r

def removeNode (r : ResourceId) (delNode : NodeId) : Py PUnit := do
  let w ← get
  let nodes ← Py.liftExcept
    (Collection.remove (fun m => (w.node m).resource) (w.resource r).nodes delNode)
  modify fun w => w.setResource r fun resource => { resource with nodes := nodes }
  touchConfig r

def rename (r : ResourceId) (newName : String) : Py PUnit := do
  let w ← get
  let name := (w.resource r).name
  (w.members r).forM fun n => do
    let _ ← Node.run n ["drbdsetup", "rename-resource", name, newName]
  Nodes.event (w.members r) ("rename resource name:" ++ name ++ " new_name:" ++ newName)
  modify fun w => w.setResource r fun resource => { resource with name := newName }
  touchConfig r

def cleanup (r : ResourceId) : Py PUnit := do
  let w ← get
  when (!w.settings.skipCleanup) ((w.members r).forM Node.cleanup)

end Resource

/-- `Volume.set_tiebreaker`, for the volume with this identity among the disks of a node.
A volume that is no longer there only has the configs of its resource marked. -/
def Volume.setTiebreaker (n : NodeId) (object : ObjectId) (value : Option Bool) : Py PUnit := do
  modify fun w => w.setNode n fun node =>
    { node with
      disks := node.disks.map fun v => if v.object = object then { v with tiebreaker := value } else v }
  let w ← get
  Resource.touchConfig (w.node n).resource

/-- `Host.install_drbd` -/
def Host.installDrbd (h : HostId) (version : String) : Py PUnit := do
  Host.rmmod h
  let _ ← Host.runHelper h "install-drbd" ["/opt/package-download", version]
  Host.readDrbdVersion h
  let w ← get
  w.resources.forM Resource.touchConfig

/-! ## `Cluster` -/

namespace Cluster

def createResource (name : Option String) : Py ResourceId := do
  let r ← Resource.init name
  let w ← get
  w.hosts.forM fun h => do
    let port ← Host.nextPort h
    let _ ← Node.init h r port
  let nodes := (← get).members r
  nodes.forM fun node0 => nodes.forM fun node1 =>
    when (node0 ≠ node1) (Node.addConnection node0 node1)
  modify fun w => { w with resources := w.resources ++ [r] }
  return r

def createStoragePool (thin : Bool) (discardGranularity : Option Nat) : Py PUnit := do
  let w ← get
  w.hosts.forM fun h => Host.createStoragePool h thin discardGranularity

def cleanup : Py PUnit := do
  let w ← get
  when (!w.settings.skipCleanup) (w.hosts.forM Host.cleanup)
  w.hosts.forM Host.cleanupFramework

end Cluster

/-- The exit handlers, the last registered first. -/
def exitHandlers : Py PUnit := do
  let w ← get
  (List.range w.resourceCount).reverse.forM Resource.cleanup
  Cluster.cleanup

/-! ## Calls -/

/-- The calls by which a test changes the objects, or has a command run on a node. -/
inductive Op
  | createResource (name : Option String)
  | createStoragePool (thin : Bool) (discardGranularity : Option Nat)
  | addDisk (r : ResourceId) (args : Resource.AddDiskArgs)
  | nextVolume (r : ResourceId)
  | nodeAddDisk (n : NodeId) (volumeNumber : Nat) (size : Option String) (args : NodeDiskArgs)
  | removeDisks (n : NodeId)
  | removeStoragePool (r : ResourceId)
  | setNetOptions (r : ResourceId) (value : String)
  | setDiskOptions (r : ResourceId) (value : String)
  | setResourceOptions (r : ResourceId) (value : String)
  | setHandlers (r : ResourceId) (value : String)
  | setFencingMode (r : ResourceId) (mode : String)
  | setTiebreaker (n : NodeId) (volume : ObjectId) (value : Option Bool)
  | addNode (r : ResourceId) (n : NodeId)
  | removeNode (r : ResourceId) (n : NodeId)
  | rename (r : ResourceId) (newName : String)
  | installDrbd (h : HostId) (version : String)
  | run (n : NodeId) (updateConfig catching : Bool) (cmd : List String)
  deriving DecidableEq, Repr

namespace Op

def exec : Op → Py PUnit
  | createResource name => do let _ ← Cluster.createResource name
  | createStoragePool thin discardGranularity => Cluster.createStoragePool thin discardGranularity
  | addDisk r args => do let _ ← Resource.addDisk r args
  | nextVolume r => do let _ ← Resource.nextVolume r
  | nodeAddDisk n volumeNumber size args => do let _ ← Node.addDisk n volumeNumber size args
  | removeDisks n => Node.removeDisks n
  | removeStoragePool r => Resource.removeStoragePool r
  | setNetOptions r value => Resource.setNetOptions r value
  | setDiskOptions r value => Resource.setDiskOptions r value
  | setResourceOptions r value => Resource.setResourceOptions r value
  | setHandlers r value => Resource.setHandlers r value
  | setFencingMode r mode => Resource.setFencingMode r mode
  | setTiebreaker n volume value => Volume.setTiebreaker n volume value
  | addNode r n => Resource.addNode r n
  | removeNode r n => Resource.removeNode r n
  | rename r newName => Resource.rename r newName
  | installDrbd h version => Host.installDrbd h version
  | run n updateConfig catching cmd => do let _ ← Node.runWith updateConfig catching n cmd

/-- The objects a call is made with exist. -/
def Refers (op : Op) (w : World) : Prop :=
  match op with
  | createResource _ | createStoragePool _ _ => True
  | addDisk r _ | nextVolume r | removeStoragePool r | setNetOptions r _ | setDiskOptions r _
  | setResourceOptions r _ | setHandlers r _ | setFencingMode r _ | rename r _ =>
    r ∈ w.resources
  | nodeAddDisk n _ _ _ | removeDisks n | setTiebreaker n _ _ | run n _ _ _ => n < w.nodeCount
  | addNode r n | removeNode r n => r ∈ w.resources ∧ n < w.nodeCount
  | installDrbd h _ => h ∈ w.hosts

instance (w : World) (op : Op) : Decidable (op.Refers w) := by
  cases op <;> dsimp only [Refers] <;> infer_instance

/-- A call that returns. -/
def Step (op : Op) (w w' : World) : Prop := op.Refers w ∧ Returns op.exec w ⟨⟩ w'

/-- A call, whether it returns or raises. -/
def Attempt (op : Op) (w w' : World) : Prop :=
  op.Refers w ∧ w' = (Stateful.exec op.exec w).2

theorem Step.attempt {w w' : World} {op : Op} (h : op.Step w w') : op.Attempt w w' :=
  ⟨h.1, by rw [show Stateful.exec op.exec w = _ from h.2]⟩

/-- The state after one call. -/
def after (op : Op) (w : World) : World := (Stateful.exec op.exec w).2

/-- The state after several calls. -/
def afterAll (w : World) (ops : List Op) : World := ops.foldl (fun w op => op.after w) w

/-- The calls can be made one after the other, each in a state that is `ok` for it. -/
def Allowed (ok : World → Op → Prop) : World → List Op → Prop
  | _, [] => True
  | w, op :: ops => op.Refers w ∧ ok w op ∧ Allowed ok (op.after w) ops

instance decidableAllowed (ok : World → Op → Prop) [∀ w op, Decidable (ok w op)] :
    (w : World) → (ops : List Op) → Decidable (Allowed ok w ops)
  | _, [] => isTrue trivial
  | w, op :: ops =>
    have := decidableAllowed ok (op.after w) ops
    inferInstanceAs (Decidable (_ ∧ _ ∧ _))

theorem run_of_allowed {ok : World → Op → Prop} {w : World} {ops : List Op}
    (h : Allowed ok w ops) :
    Run (Guarded ok fun w op w' => op.Attempt w w') w ops (afterAll w ops) := by
  induction ops generalizing w with
  | nil => exact .nil
  | cons op ops ih => exact .cons ⟨h.2.1, h.1, rfl⟩ (ih h.2.2)

/-- The call returns. -/
def Succeeds (w : World) (op : Op) : Prop := (Stateful.exec op.exec w).1.toBool

instance (w : World) (op : Op) : Decidable (op.Succeeds w) :=
  inferInstanceAs (Decidable (_ = true))

theorem step_of_succeeds {w : World} {op : Op} (href : op.Refers w) (h : Succeeds w op) :
    op.Step w (op.after w) := ⟨href, returns_of_toBool h⟩

theorem run_of_succeeds {ok : World → Op → Prop} {w : World} {ops : List Op}
    (h : Allowed (fun w op => ok w op ∧ Succeeds w op) w ops) :
    Run (Guarded ok fun w op w' => op.Step w w') w ops (afterAll w ops) := by
  induction ops generalizing w with
  | nil => exact .nil
  | cons op ops ih => exact .cons ⟨h.2.1.1, step_of_succeeds h.1 h.2.1.2⟩ (ih h.2.2)

end Op

/-! ## What the operations leave unchanged -/

theorem unchanging_nextMinor (h : HostId) : unchanging.Holds (Host.nextMinor h) := by
  refine Frame.holds_bind (Frame.holds_modify fun w => ?_) fun _ => ?_
  · exact unchanging_setHost fun _ => rfl
  · exact Frame.holds_bind Frame.holds_get fun w => Frame.holds_pure _

theorem asking_tryRun (h : HostId) (cmd : List String) :
    asking.Holds (LinuxPlatformHelper.tryRun h cmd) :=
  Frame.holds_tryCatch (asking_act h cmd none) fun _ => Frame.holds_pure _

theorem asking_rmmod (h : HostId) : asking.Holds (Host.rmmod h) := by
  refine Frame.holds_bind Frame.holds_get fun w => Frame.holds_when fun _ => ?_
  refine Frame.holds_bind Frame.holds_get fun w => ?_
  refine Frame.holds_bind (Frame.holds_when fun _ => ?_) fun _ => ?_
  · refine Frame.holds_bind (asking_tryRun h _) fun _ => ?_
    exact Frame.holds_bind (asking_tryRun h _) fun _ => asking_tryRun h _
  · refine Frame.holds_tryCatch (asking_act h _ none) fun e => ?_
    exact Frame.holds_bind (asking_runWith true h _ none) fun _ => Frame.holds_throw _

namespace DeviceFrame

variable {F : Frame World} (hF : DeviceFrame F)

include hF

/-- Of the counters of a host, a new volume only needs that of the minors. -/
theorem volumeInit (hminor : ∀ h, F.Holds (Host.nextMinor h)) (n : NodeId) (volume : Nat)
    (minor : Option Nat) : F.Holds (Volume.init n volume minor) := by
  refine Frame.holds_bind Frame.holds_get fun w => ?_
  have hrest : ∀ minor : Nat, F.Holds (do
      let object ← DrbdTests.newObject
      return (⟨object, volume, minor, none, none, none, none, none⟩ : Volume)) := fun minor =>
    Frame.holds_bind hF.holds_newObject fun object => Frame.holds_pure _
  cases minor with
  | none => exact Frame.holds_bind (hminor _) hrest
  | some minor => exact Frame.holds_bind (Frame.holds_pure minor) hrest

theorem volumeCreateDisks (n : NodeId) (volume : Volume) (size : String) (args : NodeDiskArgs) :
    F.Holds (volume.createDisks n size args) := by
  refine Frame.holds_bind Frame.holds_get fun w => ?_
  refine Frame.holds_bind (hF.createDisk _ _ size _) fun diskVolume => ?_
  split
  · refine Frame.holds_ite (fun _ => Frame.holds_pure _) fun _ => ?_
    exact Frame.holds_bind (hF.createDisk _ _ _ _) fun metaVolume => Frame.holds_pure _
  · exact Frame.holds_pure _

theorem removeIfPresent (diskVolume : Option DiskVolume) :
    F.Holds (DrbdTests.removeIfPresent diskVolume) := by
  cases diskVolume with
  | none => exact Frame.holds_pure _
  | some diskVolume => exact hF.remove diskVolume

theorem volumeRemoveDisks (volume : Volume) : F.Holds volume.removeDisks :=
  Frame.holds_bind (hF.removeIfPresent _) fun _ => hF.removeIfPresent _

end DeviceFrame

namespace PoolFrame

variable {F : Frame World} (hF : PoolFrame F)

include hF

theorem hostCreateStoragePool (h : HostId) (thin : Bool) (discardGranularity : Option Nat) :
    F.Holds (Host.createStoragePool h thin discardGranularity) := by
  refine Frame.holds_bind Frame.holds_get fun w => ?_
  refine Frame.holds_bind (Frame.holds_when fun _ => Frame.holds_throw _) fun _ => ?_
  refine Frame.holds_bind (hF.toDeviceFrame.createStoragePool h _ _ thin _) fun pool => ?_
  exact Frame.holds_modify fun w => hF.setPool w h _

theorem hostRemoveStoragePool (h : HostId) : F.Holds (Host.removeStoragePool h) := by
  refine Frame.holds_bind Frame.holds_get fun w => ?_
  split
  · exact Frame.holds_throw _
  · refine Frame.holds_bind (hF.toDeviceFrame.removePool h _) fun _ => ?_
    exact Frame.holds_modify fun w => hF.setPool w h _

end PoolFrame

namespace NodeFrame

variable {F : Frame World} {n : NodeId} (hF : NodeFrame F n)

include hF

theorem createDisks (volume : Volume) (size : Option String) (args : NodeDiskArgs) :
    F.Holds (Node.createDisks n volume size args) := by
  cases size with
  | none => exact Frame.holds_pure _
  | some size =>
    refine Frame.holds_bind (hF.volumeCreateDisks n volume size args) fun volume => ?_
    refine Frame.holds_bind (Frame.holds_when fun _ => ?_) fun _ => Frame.holds_pure _
    exact Frame.holds_bind (hF.runWith true false _) fun _ => Frame.holds_pure _

theorem newVolume (hminor : ∀ h, F.Holds (Host.nextMinor h)) (volumeNumber : Nat)
    (size : Option String) (args : NodeDiskArgs) :
    F.Holds (Node.newVolume n volumeNumber size args) := by
  refine Frame.holds_bind Frame.holds_get fun w => ?_
  refine Frame.holds_bind (Frame.holds_when fun _ => ?_) fun _ => ?_
  · exact hF.hostCreateStoragePool _ false none
  · refine Frame.holds_bind (hF.volumeInit hminor n volumeNumber _) fun volume => ?_
    exact hF.createDisks volume size args

theorem volumeCreateMd (volume : Volume) (maxPeers bitmapBlockSize : Option Nat) (md : MdArgs) :
    F.Holds (volume.createMd n maxPeers bitmapBlockSize md) :=
  Frame.holds_bind Frame.holds_get fun _ => hF.createMd volume.volume _ _ md

end NodeFrame

theorem unchanging_volumeInit (n : NodeId) (volume : Nat) (minor : Option Nat) :
    unchanging.Holds (Volume.init n volume minor) :=
  unchanging_devices.volumeInit unchanging_nextMinor n volume minor

theorem keepingGraph_newVolume (n : NodeId) (volumeNumber : Nat) (size : Option String)
    (args : NodeDiskArgs) : keepingGraph.Holds (Node.newVolume n volumeNumber size args) :=
  (keepingGraph_commands.node n).newVolume
    (fun h => keepingGraph_of_unchanging (unchanging_nextMinor h)) volumeNumber size args

/-- The state `setup` returns with: hosts, but no resources yet. -/
structure World.Initial (w : World) : Prop where
  hosts_nodup : w.hosts.Nodup
  resources_nil : w.resources = []
  resourceCount_zero : w.resourceCount = 0
  nodeCount_zero : w.nodeCount = 0
  objectCount_zero : w.objectCount = 0
  requests_nil : w.requests = []
  storagePool_none : ∀ h, (w.host h).storagePool = none

/-- A cluster of Linux hosts that support DRBD 9, with storage in LVM, on which every command
succeeds and prints nothing. -/
def World.plain (hosts : Nat) : World where
  settings := ⟨false, false, 0, none, false, false⟩
  job := "job"
  resourceName := "res"
  transport := none
  tls := "no"
  hosts := List.range hosts
  resources := []
  host _ :=
    { info :=
        { name := "h", hostname := "h", platform := .linux, osId := "", osVersionId := ""
          addr := ⟨"1", by decide, by simp⟩, addrs := [⟨"1", by decide, by simp⟩]
          drbdVersion := "9.2.0", drbdVersionTuple := (9, 2, 0), drbdGitHash := "" }
      volumeGroup := "scratch", storageBackend := .lvm, backingDevice := "dev"
      drbdConfigDir := "dir", port := ⟨7789, by decide⟩, minors := 0, storagePool := none
      drbdmetaUuidOptions := none }
  node _ := ⟨"", 0, 0, "", ⟨1, by decide⟩, [], 0, false, OrderedSet.empty⟩
  resource _ := ⟨"", "", "", "", "", OrderedSet.empty, 0, none, "", OrderedSet.empty⟩
  nodeCount := 0
  resourceCount := 0
  objectCount := 0
  requests := []
  env := ⟨fun _ => ⟨0, ""⟩, fun _ => "", fun _ => ""⟩

theorem plain_initial (hosts : Nat) : (World.plain hosts).Initial where
  hosts_nodup := List.nodup_range
  resources_nil := rfl
  resourceCount_zero := rfl
  nodeCount_zero := rfl
  objectCount_zero := rfl
  requests_nil := rfl
  storagePool_none _ := rfl

end DrbdTests
