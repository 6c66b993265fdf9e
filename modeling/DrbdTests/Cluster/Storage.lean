import Mathlib.Algebra.Group.Int.Defs
import DrbdTests.Cluster.Commands

/-!
# `disktools`

Storage pools, the volumes created in them, and the device-mapper layers on top. Every
constructor runs the commands that make the device, and `remove` the ones that take it
away; a layer is taken away before the volume below it.

Of all of it, `DeviceFrame` allows what is needed (`create_md`, which runs `drbdadm`, needs
`NodeFrame`): a new volume only becomes part of a node when the caller stores it.
-/

namespace DrbdTests

open Stateful

/-- The identity of a new Python object. -/
def newObject : Py ObjectId := do
  let w ← get
  set { w with objectCount := w.objectCount + 1 }
  return w.objectCount

/-- The keyword arguments of `create_disk`. -/
structure DiskArgs where
  maxSize : Option String
  delayMs : Option Nat
  logicalBlockSize : Option Nat
  deriving DecidableEq, Repr

/-! ## Storage pools -/

/-- `LvmPool.__init__` -/
def LvmPool.init (host : HostId) (backingDevice : String) (thin : Bool)
    (discardGranularity : Option Nat) : Py StoragePool := do
  let volumeGroup := ((← get).host host).volumeGroup
  Host.act host ["vgcreate", volumeGroup, backingDevice] none .createPool
  when thin do
    let extraArgs :=
      match discardGranularity with
      | some n => if n = 0 then [] else ["--chunksize", toString n ++ "B"]
      | none => []
    Host.act host (["lvcreate", volumeGroup, "--thinpool", "drbdthinpool", "--extents", "100%FREE"]
      ++ extraArgs) none .none
  return ⟨.lvm, backingDevice, thin, discardGranularity⟩

/-- `ZfsPool.__init__` -/
def ZfsPool.init (host : HostId) (backingDevice : String) (thin : Bool)
    (discardGranularity : Option Nat) : Py StoragePool := do
  let volumeGroup := ((← get).host host).volumeGroup
  Host.act host ["zpool", "create", volumeGroup, backingDevice] none .createPool
  return ⟨.zfs, backingDevice, thin, discardGranularity⟩

/-- `disktools.create_storage_pool` -/
def createStoragePool (host : HostId) (backend : StorageBackend) (backingDevice : String)
    (thin : Bool) (discardGranularity : Option Nat) : Py StoragePool :=
  match backend with
  | .lvm => LvmPool.init host backingDevice thin discardGranularity
  | .raw => if thin then throw .valueError else pure ⟨.raw, backingDevice, thin, none⟩
  | .zfs => ZfsPool.init host backingDevice thin discardGranularity
  | .storageSpaces => pure ⟨.storageSpaces, backingDevice, thin, none⟩

/-- `remove` of the four pools. -/
def StoragePool.remove (host : HostId) (pool : StoragePool) : Py PUnit := do
  let volumeGroup := ((← get).host host).volumeGroup
  match pool.backend with
  | .lvm => Host.act host ["vgremove", "-y", volumeGroup] none .removePool
  | .raw => Host.act host ["wipefs", "-a", pool.backingDevice] none .removePool
  | .zfs => Host.act host ["zpool", "destroy", volumeGroup] none .removePool
  | .storageSpaces => pure ⟨⟩

/-! ## Volumes -/

/-- `LvmVolume.__init__` -/
def LvmVolume.init (host : HostId) (name size : String) (thin : Bool) : Py DiskVolume := do
  let object ← newObject
  let volumeGroup := ((← get).host host).volumeGroup
  let lvcreateArgs :=
    if thin then ["--virtualsize", size, "--thin", volumeGroup ++ "/drbdthinpool"]
    else ["--size", size, volumeGroup]
  Host.act host (["lvcreate", "--name", name] ++ lvcreateArgs ++ ["--wipesignatures", "y", "--yes"])
    none (.create object none)
  return .backing object host (.lvmVolume ("/dev/" ++ volumeGroup ++ "/" ++ name))

/-- `RawVolume.__init__` -/
def RawVolume.init (host : HostId) (backingDevice name size : String) (maxSize : Option String) :
    Py DiskVolume := do
  let object ← newObject
  let guid := (← get).env.uuid5 name
  let devicePath := "/dev/disk/by-partuuid/" ++ guid
  -- a volume that may grow starts at a negative offset from the end of the device
  let start := if Config.truthy maxSize then "-" ++ maxSize.getD "" else "0"
  Host.act host ["sgdisk", "--new=0:" ++ start ++ ":+" ++ size, "--partition-guid=0:" ++ guid,
    backingDevice] none (.create object none)
  Host.act host ["partx", "--update", backingDevice] none .none
  Host.act host ["udevadm", "trigger"] none .none
  Host.act host ["udevadm", "settle"] none .none
  let partNumber ← Host.run host ["partx", "--show", "--output", "NR", "--noheadings", devicePath]
  return .backing object host (.rawVolume devicePath partNumber backingDevice)

/-- `ZfsVolume.__init__` -/
def ZfsVolume.init (host : HostId) (name size : String) (thin : Bool)
    (discardGranularity : Option Nat) : Py DiskVolume := do
  let object ← newObject
  let datasetName := ((← get).host host).volumeGroup ++ "/" ++ name
  let extraArgs := (if thin then ["-s"] else []) ++
    (match discardGranularity with
      | some n => ["-o", "volblocksize=" ++ toString n]
      | none => [])
  Host.act host (["zfs", "create", "-V", size, datasetName] ++ extraArgs) none (.create object none)
  Host.act host ["udevadm", "trigger"] none .none
  Host.act host ["udevadm", "settle"] none .none
  return .backing object host (.zfsVolume datasetName ("/dev/zvol/" ++ datasetName))

/-- `StorageSpacesVolume.size_in_bytes` -/
def StorageSpacesVolume.sizeInBytes (size : String) : Except PyError Int :=
  let digits := size.toList
  match digits.getLast? with
  | none => .error .valueError
  | some last =>
    let unit := last.toUpper
    if '0' ≤ unit ∧ unit ≤ '9' then
      match Text.parseInt digits with
      | some n => .ok n
      | none => .error .valueError
    else
      match Text.parseInt digits.dropLast, ['K', 'M', 'G', 'T', 'P'].idxOf? unit with
      | some n, some exponent => .ok (n * 1024 ^ (exponent + 1))
      | _, _ => .error .valueError

/-- `StorageSpacesVolume.__init__` -/
def StorageSpacesVolume.init (host : HostId) (name size : String) (thin : Bool)
    (backingDevice : String) : Py DiskVolume := do
  let object ← newObject
  let bytes ← Py.liftExcept (sizeInBytes size)
  Host.act host ["./linstor-wmi-helper", "virtual-disk", "create", backingDevice, name,
    toString bytes, if thin then "thin" else "thick"] none (.create object none)
  let line ← Host.run host
    ["bash", "-c", "./linstor-wmi-helper virtual-disk list " ++ name ++ " 2>&1"]
  match (line.toList.splitOn '\t')[4]? with
  | some field =>
    let lv := String.ofList (field.filter fun c => c ≠ '\x7b' ∧ c ≠ '\x7d')
    return .backing object host (.storageSpacesVolume name lv)
  | none => throw .indexError

/-- `create_disk` of the four pools. -/
def StoragePool.createDisk (host : HostId) (pool : StoragePool) (name size : String)
    (maxSize : Option String) : Py DiskVolume :=
  match pool.backend with
  | .lvm => LvmVolume.init host name size pool.thin
  | .raw => RawVolume.init host pool.backingDevice name size maxSize
  | .zfs => ZfsVolume.init host name size pool.thin pool.discardGranularity
  | .storageSpaces => StorageSpacesVolume.init host name size pool.thin pool.backingDevice

def DmType.word : DmType → String
  | delay => "delay"
  | ebs => "ebs"

/-- `DeviceMapperTarget.__init__`; `parameter` is the last word of `_table`. -/
def DeviceMapperTarget.init (host : HostId) (name : String) (backingVolume : DiskVolume)
    (dmType : DmType) (parameter : Nat) : Py DiskVolume := do
  let object ← newObject
  let deviceName := name ++ "-" ++ dmType.word
  let sectors ← Host.run host ["blockdev", "--getsz", backingVolume.volumePath]
  let table := "0 " ++ sectors ++ " " ++ dmType.word ++ " " ++ backingVolume.volumePath ++ " 0 "
    ++ toString parameter
  Host.act host ["dmsetup", "create", deviceName] (some table)
    (.create object (some backingVolume.object))
  return .deviceMapperTarget object host dmType deviceName backingVolume

/-- A layer that is only made when its argument is given. -/
def addLayer (host : HostId) (name : String) (dmType : DmType) (parameter : Option Nat)
    (diskVolume : DiskVolume) : Py DiskVolume :=
  match parameter with
  | some n => DeviceMapperTarget.init host name diskVolume dmType n
  | none => pure diskVolume

/-- `disktools.create_disk`: the backing volume, then `DelayVolume`, then
`EmulatedBlockSizeVolume` (whose table counts in sectors of 512 bytes). -/
def createDisk (host : HostId) (name size : String) (args : DiskArgs) : Py DiskVolume := do
  let w ← get
  match (w.host host).storagePool with
  | none => throw .attributeError
  | some pool => do
    let diskVolume ← pool.createDisk host name size args.maxSize
    let diskVolume ← addLayer host name .delay args.delayMs diskVolume
    addLayer host name .ebs (args.logicalBlockSize.map (· / 512)) diskVolume

/-- `remove` of the four volumes. -/
def BackingVolume.removeCommand : BackingVolume → List String
  | lvmVolume lv => ["lvremove", "--force", lv]
  | rawVolume _ partNumber backingDevice => ["sgdisk", "--delete=" ++ partNumber, backingDevice]
  | zfsVolume datasetName _ => ["zfs", "destroy", datasetName]
  | storageSpacesVolume name _ => ["./linstor-wmi-helper", "virtual-disk", "delete", name]

/-- `remove`: the layers from the top, then the backing volume. -/
def DiskVolume.remove : DiskVolume → Py PUnit
  | backing object host volume => Host.act host volume.removeCommand none (.remove object)
  | deviceMapperTarget object host _ deviceName backingVolume => do
    Host.act host ["dmsetup", "remove", deviceName] none (.remove object)
    backingVolume.remove

/-! ## `create_md` -/

/-- The keyword arguments of `create_md` that are passed through. -/
structure MdArgs where
  initialCurrentUuid : Option String
  consistent : Bool
  uptodate : Bool
  peersOutdated : Bool
  rotateUuids : Bool
  deriving DecidableEq, Repr

/-- `_drbdmeta_supports_uuid_options`: the answer is kept in the host. -/
def drbdmetaSupportsUuidOptions (host : HostId) : Py Bool := do
  match ((← get).host host).drbdmetaUuidOptions with
  | some answer => return answer
  | none =>
    let out ← Host.run host ["bash", "-c",
      "drbdmeta - v09 /dev/null internal create-md 3 --initial-current-uuid 2>&1 || true"]
    let answer : Bool := "requires an argument".toList <:+: out.toList
    modify fun w => w.setHost host fun h => { h with drbdmetaUuidOptions := some answer }
    return answer

/-- The `drbdadm` arguments of `create_md`. -/
def createMdArgs (resourceName : String) (version : Version) (volumeNumber maxPeers : Nat)
    (bitmapBlockSize : Option Nat) (md : MdArgs) : List String :=
  ["create-md", "--force", resourceName ++ "/" ++ toString volumeNumber]
    ++ (if version.ge (9, 0, 0) then ["--max-peers=" ++ toString maxPeers] else [])
    ++ (match bitmapBlockSize with
        | some n => ["--bitmap-block-size=" ++ toString n]
        | none => [])
    ++ (if Config.truthy md.initialCurrentUuid then
          ["--initial-current-uuid=" ++ md.initialCurrentUuid.getD ""] else [])
    ++ (if md.consistent then ["--consistent"] else [])
    ++ (if md.uptodate then ["--uptodate"] else [])
    ++ (if md.peersOutdated then ["--peers-outdated"] else [])
    ++ (if md.rotateUuids then ["--rotate-uuids"] else [])

/-- `disktools.create_md` -/
def createMd (n : NodeId) (volumeNumber maxPeers : Nat) (bitmapBlockSize : Option Nat)
    (md : MdArgs) : Py PUnit := do
  let w ← get
  let host := (w.node n).host
  let version := (w.host host).info.drbdVersionTuple
  when (bitmapBlockSize.isSome && !version.ge (9, 3, 0)) (throw .assertionError)
  when (Config.truthy md.initialCurrentUuid || md.consistent || md.uptodate || md.peersOutdated
      || md.rotateUuids) do
    let supported ← drbdmetaSupportsUuidOptions host
    when (!supported) (throw (.runtimeError ("drbdmeta on " ++ (w.host host).info.name
      ++ " does not support --initial-current-uuid and related options")))
  let _ ← Node.drbdadm n (createMdArgs (w.resource (w.node n).resource).name version volumeNumber
    maxPeers bitmapBlockSize md)

/-! ## What `disktools` leaves unchanged -/

namespace DeviceFrame

variable {F : Frame World} (hF : DeviceFrame F)

include hF

theorem holds_newObject : F.Holds DrbdTests.newObject := hF.newObject

theorem createStoragePool (host : HostId) (backend : StorageBackend)
    (backingDevice : String) (thin : Bool) (discardGranularity : Option Nat) :
    F.Holds (DrbdTests.createStoragePool host backend backingDevice thin discardGranularity) := by
  unfold DrbdTests.createStoragePool
  split
  · refine Frame.holds_bind Frame.holds_get fun _ => ?_
    refine Frame.holds_bind (hF.act host _ none (by simp)) fun _ => ?_
    refine Frame.holds_bind (Frame.holds_when fun _ => ?_) fun _ => Frame.holds_pure _
    exact hF.act host _ none (by simp)
  · exact Frame.holds_ite (fun _ => Frame.holds_throw _) fun _ => Frame.holds_pure _
  · refine Frame.holds_bind Frame.holds_get fun _ => ?_
    exact Frame.holds_bind (hF.act host _ none (by simp)) fun _ => Frame.holds_pure _
  · exact Frame.holds_pure _

theorem removePool (host : HostId) (pool : StoragePool) :
    F.Holds (pool.remove host) := by
  refine Frame.holds_bind Frame.holds_get fun _ => ?_
  split
  · exact hF.act host _ none (by simp)
  · exact hF.act host _ none (by simp)
  · exact hF.act host _ none (by simp)
  · exact Frame.holds_pure _

theorem poolCreateDisk (host : HostId) (pool : StoragePool) (name size : String)
    (maxSize : Option String) : F.Holds (pool.createDisk host name size maxSize) := by
  unfold StoragePool.createDisk
  split
  · refine Frame.holds_bind hF.holds_newObject fun object => ?_
    refine Frame.holds_bind Frame.holds_get fun _ => ?_
    exact Frame.holds_bind (hF.act host _ none (by simp)) fun _ => Frame.holds_pure _
  · refine Frame.holds_bind hF.holds_newObject fun object => ?_
    refine Frame.holds_bind Frame.holds_get fun _ => ?_
    refine Frame.holds_bind (hF.act host _ none (by simp)) fun _ => ?_
    refine Frame.holds_bind (hF.act host _ none (by simp)) fun _ => ?_
    refine Frame.holds_bind (hF.act host _ none (by simp)) fun _ => ?_
    refine Frame.holds_bind (hF.act host _ none (by simp)) fun _ => ?_
    exact Frame.holds_bind (hF.run host _) fun _ => Frame.holds_pure _
  · refine Frame.holds_bind hF.holds_newObject fun object => ?_
    refine Frame.holds_bind Frame.holds_get fun _ => ?_
    refine Frame.holds_bind (hF.act host _ none (by simp)) fun _ => ?_
    refine Frame.holds_bind (hF.act host _ none (by simp)) fun _ => ?_
    exact Frame.holds_bind (hF.act host _ none (by simp)) fun _ => Frame.holds_pure _
  · refine Frame.holds_bind hF.holds_newObject fun object => ?_
    refine Frame.holds_bind (holds_liftExcept _) fun bytes => ?_
    refine Frame.holds_bind (hF.act host _ none (by simp)) fun _ => ?_
    refine Frame.holds_bind (hF.run host _) fun line => ?_
    split
    · exact Frame.holds_pure _
    · exact Frame.holds_throw _

theorem addLayer (host : HostId) (name : String) (dmType : DmType)
    (parameter : Option Nat) (diskVolume : DiskVolume) :
    F.Holds (DrbdTests.addLayer host name dmType parameter diskVolume) := by
  unfold DrbdTests.addLayer
  split
  · refine Frame.holds_bind hF.holds_newObject fun object => ?_
    refine Frame.holds_bind (hF.run host _) fun sectors => ?_
    exact Frame.holds_bind (hF.act host _ _ (by simp)) fun _ => Frame.holds_pure _
  · exact Frame.holds_pure _

theorem createDisk (host : HostId) (name size : String) (args : DiskArgs) :
    F.Holds (DrbdTests.createDisk host name size args) := by
  refine Frame.holds_bind Frame.holds_get fun w => ?_
  split
  · exact Frame.holds_throw _
  · refine Frame.holds_bind (hF.poolCreateDisk host _ name size _) fun _ => ?_
    refine Frame.holds_bind (hF.addLayer host name _ _ _) fun _ => ?_
    exact hF.addLayer host name _ _ _

theorem remove (diskVolume : DiskVolume) : F.Holds diskVolume.remove := by
  induction diskVolume with
  | backing object host volume => exact hF.act host _ none (by simp)
  | deviceMapperTarget object host dmType deviceName backingVolume ih =>
    exact Frame.holds_bind (hF.act host _ none (by simp)) fun _ => ih

theorem drbdmetaSupportsUuidOptions (host : HostId) :
    F.Holds (DrbdTests.drbdmetaSupportsUuidOptions host) := by
  refine Frame.holds_bind Frame.holds_get fun w => ?_
  split
  · exact Frame.holds_pure _
  · refine Frame.holds_bind (hF.run host _) fun out => ?_
    refine Frame.holds_bind (Frame.holds_modify fun w => ?_) fun _ => Frame.holds_pure _
    exact hF.setOptions w host _

end DeviceFrame

theorem NodeFrame.createMd {F : Frame World} {n : NodeId} (hF : NodeFrame F n)
    (volumeNumber maxPeers : Nat) (bitmapBlockSize : Option Nat) (md : MdArgs) :
    F.Holds (DrbdTests.createMd n volumeNumber maxPeers bitmapBlockSize md) := by
  refine Frame.holds_bind Frame.holds_get fun w => ?_
  refine Frame.holds_bind (Frame.holds_when fun _ => Frame.holds_throw _) fun _ => ?_
  refine Frame.holds_bind (Frame.holds_when fun _ => ?_) fun _ => ?_
  · refine Frame.holds_bind ?_ fun _ => Frame.holds_when fun _ => Frame.holds_throw _
    exact hF.drbdmetaSupportsUuidOptions _
  · exact Frame.holds_bind (hF.drbdadm _) fun _ => Frame.holds_pure _

end DrbdTests
