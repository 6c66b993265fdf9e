import DrbdTests.Cluster.Operations
import DrbdTests.Lib.Content

/-!
# Disks that are resized

`Volume.resize` and the `resize` methods of `disktools`. A disk that grows shows whatever the storage had
there before; with `zero_out` the new part is filled with zeros.

`disk_is_file` says that this works: a disk that `add_disk` has made with `zero_out`, and that is only
resized with `zero_out`, always has the content of a file that starts empty, and is truncated to the same
sizes and written in the same places. So what is on it does not depend on the storage.

`Media` is what the storage decides: the real size of a resized disk, what the new part shows, and
everything about devices that are made or removed. The partition of a `RawVolume` is made anew by
`resize`, at a place that `sgdisk` chooses, so nothing is said about raw volumes that are resized.
-/

namespace DrbdTests

open Stateful

/-! ## `resize` -/

/-- The attributes of a `RawVolume` that only `resize` reads. -/
structure Partition where
  start : String
  guid : String

/-- `RawVolume._refresh_partitions` -/
def RawVolume.refreshPartitions (host : HostId) (backingDevice : String) : Py PUnit := do
  Host.act host ["partx", "--update", backingDevice] none .none
  Host.act host ["udevadm", "trigger"] none .none
  Host.act host ["udevadm", "settle"] none .none

/-- `resize` of the four volumes. -/
def BackingVolume.resize (partition : Partition) (host : HostId) (size : String) :
    BackingVolume → Py PUnit
  | lvmVolume lv => Host.act host ["lvresize", "-L", size, lv] none .none
  | rawVolume _ partNumber backingDevice => do
    Host.act host ["sgdisk", "--delete=" ++ partNumber,
      "--new=" ++ partNumber ++ ":" ++ partition.start ++ ":+" ++ size,
      "--partition-guid=" ++ partNumber ++ ":" ++ partition.guid, backingDevice] none .none
    RawVolume.refreshPartitions host backingDevice
  | zfsVolume datasetName _ => Host.act host ["zfs", "set", "volsize=" ++ size, datasetName] none .none
  | storageSpacesVolume name _ => do
    let bytes ← Py.liftExcept (StorageSpacesVolume.sizeInBytes size)
    Host.act host ["./linstor-wmi-helper", "virtual-disk", "resize", name, toString bytes] none .none

/-- `resize` of what `create_disk` returns. -/
def DiskVolume.resize (partition : Partition) (size : String) : DiskVolume → Py PUnit
  | backing _ host volume => volume.resize partition host size
  | deviceMapperTarget .. => throw (.runtimeError "delay storage volume does not implement resize")

namespace Volume

/-- `int(self.node.run(['blockdev', '--getsize64', self.disk], return_stdout=True).strip())` -/
def diskSize (n : NodeId) (self : Volume) : Py Int := do
  let out ← Node.run n ["blockdev", "--getsize64", self.disk.getD "None"]
  match Text.parseInt (Text.strip out.toList) with
  | some size => return size
  | none => throw .valueError

/-- `self.disk_volume.resize(size)` -/
def resizeDisk (partition : Partition) (self : Volume) (size : String) : Py PUnit :=
  match self.diskVolume with
  | some diskVolume => diskVolume.resize partition size
  | none => throw .attributeError

/-- The end of `resize`: what has been added is filled with zeros. -/
def zeroAdded (n : NodeId) (self : Volume) (oldSize : Int) : Py PUnit := do
  let newSize ← diskSize n self
  let length := newSize - oldSize
  when (0 < length) do
    let _ ← Node.run n ["blkdiscard", "-z", "--offset", toString oldSize, "--length", toString length,
      self.disk.getD "None"]

def resize (partition : Partition) (n : NodeId) (self : Volume) (size : String) (zeroOut : Bool) :
    Py PUnit := do
  let oldSize ← if zeroOut then diskSize n self else pure 0
  resizeDisk partition self size
  when zeroOut (zeroAdded n self oldSize)

end Volume

/-! ## What is on the devices -/

variable {α : Type}

/-- What is on the device at a path of a host. -/
abbrev Contents (α : Type) := HostId → String → List α

def Contents.set (c : Contents α) (host : HostId) (path : String) (content : List α) : Contents α :=
  fun host' path' => if host' = host ∧ path' = path then content else c host' path'

structure Media (α : Type) where
  zero : α
  /-- The size of the device that the `k`-th request resizes, and what its new part shows. -/
  size : Nat → Nat
  fresh : Nat → Nat → α
  /-- What is on the devices when the `k`-th request has made or removed some. -/
  remade : Nat → Contents α → Contents α
  /-- The device of a virtual disk. -/
  virtualDisk : HostId → String → Option String

namespace Media

variable (M : Media α)

def resized (k : Nat) (c : Contents α) (host : HostId) (path : String) : Contents α :=
  c.set host path (Content.resize (M.size k) (M.fresh k) (c host path))

/-- What a command that succeeds does to the devices. -/
def command (k : Nat) (c : Contents α) (host : HostId) : List String → Contents α
  | ["blkdiscard", "-z", path] =>
    c.set host path (Content.fill M.zero 0 (c host path).length (c host path))
  | ["blkdiscard", "-z", "--offset", offset, "--length", length, path] =>
    match Text.parseInt offset.toList, Text.parseInt length.toList with
    | some offset, some length =>
      c.set host path (Content.fill M.zero offset.toNat length.toNat (c host path))
    | _, _ => c
  | ["lvresize", "-L", _, lv] => M.resized k c host lv
  | ["zfs", "set", property, datasetName] =>
    if "volsize=".toList <+: property.toList then M.resized k c host ("/dev/zvol/" ++ datasetName) else c
  | ["./linstor-wmi-helper", "virtual-disk", "resize", name, _] =>
    match M.virtualDisk host name with
    | some path => M.resized k c host path
    | none => c
  | "sgdisk" :: _ => M.remade k c
  | _ => c

def step (k : Nat) (c : Contents α) : Request × Bool → Contents α
  | (.command host argv _ .none, true) => M.command k c host argv
  | (.command _ _ _ (.upload _), _) => c
  | (.events _ _, _) => c
  | (.command _ _ _ .none, false) => c
  | _ => M.remade k c

/-- The devices after some requests, the latest first. -/
def after (k : Nat) (c : Contents α) : List (Request × Bool) → Contents α
  | [] => c
  | r :: earlier => M.step (k + earlier.length) (after k c earlier) r

/-- `blockdev` prints the size of the device. -/
def Prints (reply : Reply) (c : Contents α) : Request × Bool → Prop
  | (.command host ["blockdev", "--getsize64", path] _ _, true) =>
    reply.stdout = toString (c host path).length ++ "\n"
  | _ => True

def Truthful (replies : Nat → Reply) (k : Nat) (c : Contents α) : List (Request × Bool) → Prop
  | [] => True
  | r :: earlier =>
    Truthful replies k c earlier ∧ Prints (replies (k + earlier.length)) (M.after k c earlier) r

/-- The requests of a call, with what they do to the devices. -/
def Goes (w : World) (c : Contents α) (w' : World) (c' : Contents α) : Prop :=
  ∃ more, w'.requests = more ++ w.requests ∧ c' = M.after w.requests.length c more ∧
    M.Truthful w'.env.replies w.requests.length c more

end Media

/-! ## Files -/

/-- What is done to a disk or to a file. -/
inductive FileOp (α : Type)
  | truncate (size : Nat)
  | write (offset : Nat) (data : List α)

/-- The content of a file that starts empty. -/
def FileOp.content (zero : α) (ops : List (FileOp α)) : List α :=
  ops.foldl (fun c op => match op with
    | truncate size => Content.truncate zero size c
    | write offset data => Content.write offset data c) []

/-- The device at this path is the one of the volume. -/
def BackingVolume.At (M : Media α) (host : HostId) (path : String) : BackingVolume → Prop
  | lvmVolume lv => lv = path
  | rawVolume .. => False
  | zfsVolume datasetName zvolPath => zvolPath = path ∧ path = "/dev/zvol/" ++ datasetName
  | storageSpacesVolume name lv => lv = path ∧ M.virtualDisk host name = some path

/-- The life of a disk that is made and resized with `zero_out`, and what has been done to it. -/
inductive Life (M : Media α) (host : HostId) (path : String) : World → Contents α → List (FileOp α) → Prop
  | added {w w' : World} {c c' : Contents α} {n : NodeId} {volumeNumber : Nat} {size : String}
      {args : NodeDiskArgs} {volume : Volume}
      (hreturns : Returns (Node.addDisk n volumeNumber (some size) args) w volume w')
      (hzero : args.zeroOut = true) (hhost : (w.node n).host = host) (hdisk : volume.disk = some path)
      (hgoes : M.Goes w c w' c') : Life M host path w' c' [.truncate (c' host path).length]
  | resized {w w' : World} {c c' : Contents α} {ops : List (FileOp α)} {n : NodeId} {volume : Volume}
      {partition : Partition} {size : String} {object : ObjectId} {backing : BackingVolume}
      (h : Life M host path w c ops)
      (hreturns : Returns (volume.resize partition n size true) w ⟨⟩ w')
      (hhost : (w.node n).host = host) (hdisk : volume.diskVolume = some (.backing object host backing))
      (hat : backing.At M host path) (hgoes : M.Goes w c w' c') :
      Life M host path w' c' (ops ++ [.truncate (c' host path).length])
  | written {w : World} {c : Contents α} {ops : List (FileOp α)} (h : Life M host path w c ops)
      (offset : Nat) (data : List α) : Life M host path w
        (c.set host path (Content.write offset data (c host path))) (ops ++ [.write offset data])
  /-- Anything that is done elsewhere. -/
  | elsewhere {w w' : World} {c c' : Contents α} {ops : List (FileOp α)} (h : Life M host path w c ops)
      (hsame : c' host path = c host path) : Life M host path w' c' ops

/-! ## Requests and devices -/

variable {M : Media α} {w w₁ w' : World} {c c' : Contents α} {k : Nat} {host : HostId} {path : String}

@[simp] theorem Contents.set_self (content : List α) : c.set host path content host path = content :=
  if_pos ⟨rfl, rfl⟩

/-- Requests are added, and no node moves to another host. -/
def extending : Frame World where
  rel w w' := (∃ more, w'.requests = more ++ w.requests) ∧ w'.env = w.env ∧
    ∀ n, (w'.node n).host = (w.node n).host
  refl w := ⟨⟨[], rfl⟩, rfl, fun _ => rfl⟩
  trans := by
    rintro w w₁ w₂ ⟨⟨more, h⟩, henv, hhost⟩ ⟨⟨more', h'⟩, henv', hhost'⟩
    refine ⟨⟨more' ++ more, ?_⟩, henv'.trans henv, fun n => (hhost' n).trans (hhost n)⟩
    rw [h', h, List.append_assoc]

theorem extending_request (w : World) (r : Request × Bool) :
    extending.rel w { w with requests := r :: w.requests } :=
  ⟨⟨[r], rfl⟩, rfl, fun _ => rfl⟩

theorem extending_setHost (w : World) (h : HostId) (f : Host → Host) : extending.rel w (w.setHost h f) :=
  ⟨⟨[], rfl⟩, rfl, fun _ => rfl⟩

theorem extending_setNode (n : NodeId) {f : Node → Node} (hf : ∀ node, (f node).host = node.host) :
    extending.rel w (w.setNode n f) := by
  refine ⟨⟨[], rfl⟩, rfl, fun m => ?_⟩
  rw [World.setNode_node]
  split
  · subst m
    exact hf _
  · rfl

theorem extending_node (n : NodeId) : NodeFrame extending n where
  request w r ok _ := extending_request w (r, ok)
  newObject _ := ⟨⟨[], rfl⟩, rfl, fun _ => rfl⟩
  setOptions w h _ := extending_setHost w h _
  setPool w h _ := extending_setHost w h _
  updateConfig := by
    refine Frame.holds_bind Frame.holds_get fun w => Frame.holds_when fun _ => ?_
    refine Frame.holds_bind (Frame.holds_modify fun w => extending_setNode n fun _ => rfl) fun _ => ?_
    refine Frame.holds_bind (holds_liftExcept _) fun config => ?_
    refine Frame.holds_bind (holds_runWith fun w ok => ?_) fun _ => Frame.holds_pure _
    exact extending_request w _

namespace Media

theorem after_append (later earlier : List (Request × Bool)) :
    M.after k c (later ++ earlier) = M.after (k + earlier.length) (M.after k c earlier) later := by
  induction later with
  | nil => rfl
  | cons r later ih =>
    rw [List.cons_append, after, after, ih, List.length_append]
    congr 1
    omega

theorem Truthful.of_append {replies : Nat → Reply} {later earlier : List (Request × Bool)}
    (h : M.Truthful replies k c (later ++ earlier)) : M.Truthful replies k c earlier ∧
      M.Truthful replies (k + earlier.length) (M.after k c earlier) later := by
  induction later with
  | nil => exact ⟨h, trivial⟩
  | cons r later ih =>
    obtain ⟨hlater, hr⟩ := h
    obtain ⟨hfirst, hrest⟩ := ih hlater
    have hr : Prints (replies (k + (later ++ earlier).length)) (M.after k c (later ++ earlier)) r := hr
    rw [after_append, List.length_append, Nat.add_comm later.length, ← Nat.add_assoc] at hr
    exact ⟨hfirst, hrest, hr⟩

/-- A call is taken apart. -/
theorem Goes.split (h : M.Goes w c w' c') (h₁ : extending.rel w w₁) (h₂ : extending.rel w₁ w') :
    ∃ c₁, M.Goes w c w₁ c₁ ∧ M.Goes w₁ c₁ w' c' := by
  obtain ⟨more, hmore, rfl, htruth⟩ := h
  obtain ⟨⟨earlier, hearlier⟩, henv, -⟩ := h₁
  obtain ⟨⟨later, hlater⟩, henv', -⟩ := h₂
  have hsplit : more = later ++ earlier := by
    apply (List.append_left_inj w.requests).mp
    rw [← hmore, hlater, hearlier, List.append_assoc]
  have hlength : w₁.requests.length = w.requests.length + earlier.length := by
    rw [hearlier, List.length_append, Nat.add_comm]
  subst hsplit
  obtain ⟨hfirst, hrest⟩ := htruth.of_append
  rw [henv'] at hfirst
  refine ⟨M.after w.requests.length c earlier, ⟨earlier, hearlier, rfl, hfirst⟩, later, hlater, ?_, ?_⟩
  · rw [after_append, hlength]
  · rw [hlength]
    exact hrest

theorem Goes.eq_self (h : M.Goes w c w c') : c' = c := by
  obtain ⟨more, hmore, rfl, -⟩ := h
  obtain rfl : more = [] := (List.append_left_inj w.requests).mp hmore.symm
  rfl

/-- One command. -/
theorem Goes.command {host : HostId} {cmd : List String} {stdin : Option String}
    (h : M.Goes w c w' c')
    (hrequests : w'.requests = (.command host cmd stdin .none, true) :: w.requests) :
    c' = M.command w.requests.length c host cmd ∧
      ∀ path, cmd = ["blockdev", "--getsize64", path] →
        (w'.env.replies w.requests.length).stdout = toString (c host path).length ++ "\n" := by
  obtain ⟨more, hmore, rfl, htruth⟩ := h
  obtain rfl : more = [(.command host cmd stdin .none, true)] := by
    apply (List.append_left_inj w.requests).mp
    rw [← hmore, hrequests]
    rfl
  refine ⟨rfl, ?_⟩
  rintro path rfl
  exact htruth.2

end Media

/-- `update_config` does nothing to the devices. -/
theorem goes_updateConfig {n : NodeId} {u : PUnit} (hreturns : Returns (Node.updateConfig n) w u w')
    (h : M.Goes w c w' c') : c' = c := by
  obtain ⟨more, hmore, rfl, -⟩ := h
  have hexec : exec (Node.updateConfig n) w = (.ok u, w') := hreturns
  rcases updateConfig_cases n w with ⟨-, hnone⟩ | ⟨-, e, hraise⟩ | ⟨-, config, ok, -, hupload⟩
  · rw [hexec, Prod.mk.injEq] at hnone
    obtain rfl : more = [] := by
      rw [hnone.2] at hmore
      exact (List.append_left_inj w.requests).mp hmore.symm
    rfl
  · rw [hexec, Prod.mk.injEq] at hraise
    cases hraise.1
  · rw [hexec] at hupload
    obtain rfl : more = [(.command (w.node n).host
        ["bash", "-c", "cat > " ++ Node.drbdConfigFilePath w n] (some config) (.upload n), ok)] := by
      apply (List.append_left_inj w.requests).mp
      rw [← hmore]
      exact congrArg World.requests hupload
    cases ok
    · rfl
    · rfl

theorem goes_nodeRun {n : NodeId} {cmd : List String} {out : String}
    (hreturns : Returns (Node.run n cmd) w out w') (h : M.Goes w c w' c') :
    (∃ k, c' = M.command k c (w.node n).host cmd) ∧
      ∀ path, cmd = ["blockdev", "--getsize64", path] →
        out = String.ofList (Text.strip (toString (c (w.node n).host path).length ++ "\n").toList) := by
  obtain ⟨u, w₁, hupdate, hrun⟩ := returns_bind.mp hreturns
  have hhost := ((extending_node n).updateConfig.rel_of_returns hupdate).2.2 n
  obtain ⟨hcode, hout, hw'⟩ := runWith_returns.mp (returns_get_bind.mp hrun)
  obtain ⟨c₁, hgoes, hgoes'⟩ := h.split ((extending_node n).updateConfig.rel_of_returns hupdate)
    (by rw [hw']; exact extending_request w₁ _)
  obtain rfl := goes_updateConfig hupdate hgoes
  rw [hhost] at hw'
  obtain ⟨hcommand, hreply⟩ := hgoes'.command (by rw [hw'])
  refine ⟨⟨_, hcommand⟩, fun path hcmd => ?_⟩
  rw [hout, ← hreply path hcmd, hw']

/-! ## The two calls -/

theorem goes_act {h : HostId} {cmd : List String} {u : PUnit}
    (hreturns : Returns (Host.act h cmd none .none) w u w') (hgoes : M.Goes w c w' c') :
    ∃ k, c' = M.command k c h cmd :=
  ⟨_, (hgoes.command (by rw [act_returns hreturns])).1⟩

/-- A disk is resized where it is. -/
theorem goes_resize {partition : Partition} {size : String} {backing : BackingVolume} {u : PUnit}
    (hreturns : Returns (backing.resize partition host size) w u w') (hat : backing.At M host path)
    (hgoes : M.Goes w c w' c') : ∃ k, c' = M.resized k c host path := by
  cases backing with
  | lvmVolume lv =>
    obtain rfl : lv = path := hat
    exact goes_act hreturns hgoes
  | rawVolume devicePath partNumber backingDevice => exact absurd hat id
  | zfsVolume datasetName zvolPath =>
    obtain ⟨-, rfl⟩ := hat
    obtain ⟨k, hk⟩ := goes_act hreturns hgoes
    refine ⟨k, hk.trans ?_⟩
    have hprefix : "volsize=".toList <+: ("volsize=" ++ size).toList :=
      ⟨size.toList, by rw [String.toList_append]⟩
    exact if_pos hprefix
  | storageSpacesVolume name lv =>
    obtain ⟨bytes, w₁, hbytes, hreturns⟩ := returns_bind.mp hreturns
    rw [Returns, exec_liftExcept, Prod.mk.injEq] at hbytes
    obtain ⟨-, rfl⟩ := hbytes
    obtain ⟨k, hk⟩ := goes_act hreturns hgoes
    refine ⟨k, hk.trans ?_⟩
    change (match M.virtualDisk host name with | some path => M.resized k c host path | none => c) = _
    rw [hat.2]

/-- What `blockdev` has printed is the size of the disk. -/
theorem goes_diskSize {n : NodeId} {volume : Volume} {size : Int} (hdisk : volume.disk = some path)
    (hreturns : Returns (Volume.diskSize n volume) w size w') (hgoes : M.Goes w c w' c') :
    c' = c ∧ size = (c (w.node n).host path).length ∧ extending.rel w w' := by
  obtain ⟨out, w₁, hrun, hread⟩ := returns_bind.mp hreturns
  have hextends := ((extending_node n).runWith true false _).rel_of_returns hrun
  rw [hdisk] at hrun
  have hw₁ : w₁ = w' := by
    split at hread
    · exact (returns_pure.mp hread).2
    · cases returns_throw.mp hread
  subst hw₁
  obtain ⟨⟨k, hk⟩, hout⟩ := goes_nodeRun hrun hgoes
  refine ⟨hk, ?_, hextends⟩
  have hparse : Text.parseInt (Text.strip out.toList) =
      some ((c (w.node n).host path).length : Int) := by
    have hnewline : ∀ b ∈ ("\n" : String).toList, Text.isSpace b = true := by decide
    have hstrip := Text.strip_toString (c (w.node n).host path).length (List.forall_mem_nil _)
    rw [List.append_nil] at hstrip
    rw [hout path rfl, String.toList_append, Text.strip_toString _ hnewline, String.toList_ofList,
      hstrip, Text.parseInt_toString]
  rw [hparse] at hread
  exact (returns_pure.mp hread).1.symm

theorem extending_diskSize (n : NodeId) (volume : Volume) :
    extending.Holds (Volume.diskSize n volume) := by
  refine Frame.holds_bind ((extending_node n).runWith true false _) fun out => ?_
  split
  · exact Frame.holds_pure _
  · exact Frame.holds_throw _

theorem extending_zeroAdded (n : NodeId) (volume : Volume) (oldSize : Int) :
    extending.Holds (Volume.zeroAdded n volume oldSize) := by
  refine Frame.holds_bind (extending_diskSize n volume) fun newSize => Frame.holds_when fun _ => ?_
  exact Frame.holds_bind ((extending_node n).runWith true false _) fun _ => Frame.holds_pure _

theorem extending_resize (partition : Partition) (size : String) (backing : BackingVolume) :
    extending.Holds (backing.resize partition host size) := by
  have hact : ∀ cmd, extending.Holds (Host.act host cmd none .none) := fun cmd =>
    (extending_node 0).act host cmd none (by simp)
  cases backing with
  | lvmVolume lv => exact hact _
  | rawVolume devicePath partNumber backingDevice =>
    refine Frame.holds_bind (hact _) fun _ => Frame.holds_bind (hact _) fun _ => ?_
    exact Frame.holds_bind (hact _) fun _ => hact _
  | zfsVolume datasetName zvolPath => exact hact _
  | storageSpacesVolume name lv => exact Frame.holds_bind (holds_liftExcept _) fun bytes => hact _

/-- The part of the disk behind its old size is filled with zeros. -/
theorem goes_zeroAdded {n : NodeId} {volume : Volume} {oldSize : Nat} {u : PUnit}
    (hreturns : Returns (Volume.zeroAdded n volume oldSize) w u w') (hdisk : volume.disk = some path)
    (hgoes : M.Goes w c w' c') : c' (w.node n).host path = Content.fill M.zero oldSize
      ((c (w.node n).host path).length - oldSize) (c (w.node n).host path) := by
  obtain ⟨newSize, w₁, hnew, hfill⟩ := returns_bind.mp hreturns
  have hextends := (extending_diskSize n volume).rel_of_returns hnew
  have hextends' := (Frame.holds_when fun _ => Frame.holds_bind
    ((extending_node n).runWith true false _) fun _ => Frame.holds_pure _).rel_of_returns hfill
  obtain ⟨c₁, hgoes₁, hgoes₂⟩ := hgoes.split hextends hextends'
  obtain ⟨rfl, rfl, -⟩ := goes_diskSize hdisk hnew hgoes₁
  rw [returns_when] at hfill
  split at hfill
  · rename_i hgrown
    obtain ⟨out, hrun⟩ := returns_drop.mp hfill
    obtain ⟨⟨k, rfl⟩, -⟩ := goes_nodeRun hrun hgoes₂
    obtain ⟨length, hlength⟩ : ∃ length : Nat,
        ((c₁ (w.node n).host path).length : Int) - oldSize = length :=
      ⟨(c₁ (w.node n).host path).length - oldSize, by have := of_decide_eq_true hgrown; omega⟩
    have hnat : (c₁ (w.node n).host path).length - oldSize = length := by omega
    have hoffset : toString (oldSize : Int) = toString oldSize := rfl
    have hadded : toString (length : Int) = toString length := rfl
    rw [hextends.2.2 n, hdisk, hlength, hnat, hoffset, hadded, Option.getD_some]
    simp only [Media.command, Text.parseInt_toString, Contents.set_self, Int.toNat_natCast]
  · rename_i hshrunk
    subst hfill
    have hnat : (c₁ (w.node n).host path).length - oldSize = 0 := by
      simp only [decide_eq_true_eq] at hshrunk
      omega
    rw [hgoes₂.eq_self, hnat, Content.fill_nothing]

/-- The disk is then a file of another size. -/
theorem goes_volumeResize {n : NodeId} {volume : Volume} {partition : Partition} {size : String}
    {object : ObjectId} {backing : BackingVolume} {u : PUnit}
    (hreturns : Returns (volume.resize partition n size true) w u w') (hhost : (w.node n).host = host)
    (hdisk : volume.diskVolume = some (.backing object host backing)) (hat : backing.At M host path)
    (hgoes : M.Goes w c w' c') :
    c' host path = Content.truncate M.zero (c' host path).length (c host path) := by
  have hpath : volume.disk = some path := by
    rw [Volume.disk, hdisk, Option.map_some]
    cases backing with
    | lvmVolume lv => exact congrArg some hat
    | rawVolume devicePath partNumber backingDevice => exact absurd hat id
    | zfsVolume datasetName zvolPath => exact congrArg some hat.1
    | storageSpacesVolume name lv => exact congrArg some hat.1
  obtain ⟨oldSize, w₁, hold, hreturns⟩ := returns_bind.mp hreturns
  obtain ⟨_, w₂, hresize, hzero⟩ := returns_bind.mp hreturns
  rw [Volume.resizeDisk, hdisk] at hresize
  have hextends₁ := (extending_diskSize n volume).rel_of_returns hold
  have hextends₂ := (extending_resize partition size backing).rel_of_returns hresize
  have hextends₃ := (extending_zeroAdded n volume oldSize).rel_of_returns hzero
  obtain ⟨c₁, hgoes₁, hgoes⟩ := hgoes.split hextends₁ (extending.trans hextends₂ hextends₃)
  obtain ⟨c₂, hgoes₂, hgoes⟩ := hgoes.split hextends₂ hextends₃
  obtain ⟨rfl, rfl, -⟩ := goes_diskSize hpath hold hgoes₁
  obtain ⟨k, rfl⟩ := goes_resize hresize hat hgoes₂
  have hfilled := goes_zeroAdded hzero hpath hgoes
  rw [hextends₂.2.2 n, hextends₁.2.2 n, hhost] at hfilled
  rw [hfilled, Media.resized, Contents.set_self, Content.length_resize, Content.fill_resize,
    Content.length_truncate]

theorem extending_nextMinor (h : HostId) : extending.Holds (Host.nextMinor h) := by
  refine Frame.holds_bind (Frame.holds_modify fun w => extending_setHost w h _) fun _ => ?_
  exact Frame.holds_bind Frame.holds_get fun w => Frame.holds_pure _

/-- The whole disk is filled with zeros. -/
theorem goes_addDisk {n : NodeId} {volumeNumber : Nat} {size : String} {args : NodeDiskArgs}
    {volume : Volume} (hreturns : Returns (Node.addDisk n volumeNumber (some size) args) w volume w')
    (hzero : args.zeroOut = true) (hhost : (w.node n).host = host) (hdisk : volume.disk = some path)
    (hgoes : M.Goes w c w' c') :
    c' host path = Content.truncate M.zero (c' host path).length [] := by
  have hframe := extending_node n
  obtain ⟨stored, w₁, hnew, hstore⟩ := returns_bind.mp hreturns
  obtain ⟨_, w₂, hmodify, hpure⟩ := returns_bind.mp hstore
  obtain ⟨rfl, rfl⟩ := returns_pure.mp hpure
  obtain rfl := returns_modify.mp hmodify
  replace hgoes : M.Goes w c w₁ c' := hgoes
  rw [Node.newVolume, returns_get_bind] at hnew
  obtain ⟨_, w₂, hpool, hnew⟩ := returns_bind.mp hnew
  obtain ⟨fresh, w₃, hinit, hdisks⟩ := returns_bind.mp hnew
  obtain ⟨made, w₄, hmade, hdisks⟩ := returns_bind.mp hdisks
  obtain ⟨_, w₅, hrun, hpure⟩ := returns_bind.mp hdisks
  obtain ⟨rfl, rfl⟩ := returns_pure.mp hpure
  rw [hzero, when_true, hdisk] at hrun
  obtain ⟨out, hrun⟩ := returns_drop.mp hrun
  have hmaking : extending.rel w w₄ := by
    refine extending.trans ?_ ((hframe.volumeCreateDisks n fresh size args).rel_of_returns hmade)
    refine extending.trans ?_ ((hframe.volumeInit extending_nextMinor n _ _).rel_of_returns hinit)
    exact (Frame.holds_when fun _ => hframe.hostCreateStoragePool _ false none).rel_of_returns hpool
  obtain ⟨c₁, -, hgoes₁⟩ := hgoes.split hmaking ((hframe.runWith true false _).rel_of_returns hrun)
  obtain ⟨⟨k, rfl⟩, -⟩ := goes_nodeRun hrun hgoes₁
  rw [hmaking.2.2 n, hhost, Option.getD_some]
  simp only [Media.command, Contents.set_self, Content.fill_all, Content.length_truncate]

theorem FileOp.content_append (zero : α) (ops : List (FileOp α)) (op : FileOp α) :
    FileOp.content zero (ops ++ [op]) = match op with
      | truncate size => Content.truncate zero size (FileOp.content zero ops)
      | write offset data => Content.write offset data (FileOp.content zero ops) := by
  rw [FileOp.content, List.foldl_append]
  rfl

/-- A disk that is made and resized with `zero_out` is a file. -/
theorem disk_is_file {ops : List (FileOp α)} (h : Life M host path w c ops) :
    c host path = FileOp.content M.zero ops := by
  induction h with
  | added hreturns hzero hhost hdisk hgoes => exact goes_addDisk hreturns hzero hhost hdisk hgoes
  | resized h hreturns hhost hdisk hat hgoes ih =>
    rw [FileOp.content_append, ← ih]
    exact goes_volumeResize hreturns hhost hdisk hat hgoes
  | written h offset data ih => rw [FileOp.content_append, Contents.set_self, ih]
  | elsewhere h hsame ih => rw [hsame, ih]

/-! ## A disk that grows -/

/-- New cells show ones. -/
def dirtyMedia : Media Nat where
  zero := 0
  size _ := 4
  fresh _ _ := 1
  remade _ c := c.set 0 "/dev/scratch/-disk0" [1, 1]
  virtualDisk _ _ := none

/-- `blockdev` prints the size before the disk grows, and then the one after. -/
def growing : World :=
  { World.plain 1 with
    env := ⟨fun k => ⟨0, if k = 3 then "2\n" else if k = 5 then "4\n" else ""⟩, fun _ => "", fun _ => ""⟩ }

def grownDisk : Volume :=
  ⟨0, 0, 1, some (.backing 1 0 (.lvmVolume "/dev/scratch/-disk0")), none, some "-disk0", none, none⟩

def withDisk : World :=
  (exec (Node.addDisk 0 0 (some "2") ⟨none, ⟨none, none, none⟩, true⟩) growing).2

/-- The config is up to date. -/
def uploaded : World := withDisk.setFlag 0 false

def withLargerDisk : World := (exec (grownDisk.resize ⟨"", ""⟩ 0 "4" true) uploaded).2

theorem disk_is_file_grown : ∃ w c, Life dirtyMedia 0 "/dev/scratch/-disk0" w c
      [.truncate 2, .write 1 [7], .truncate 4] ∧ c 0 "/dev/scratch/-disk0" = [0, 7, 0, 0] := by
  have hadded : Returns (Node.addDisk 0 0 (some "2") ⟨none, ⟨none, none, none⟩, true⟩) growing grownDisk
      withDisk := by
    have hvalue : (exec (Node.addDisk 0 0 (some "2") ⟨none, ⟨none, none, none⟩, true⟩) growing).1 =
      .ok grownDisk := rfl
    exact Prod.ext hvalue rfl
  have hresized : Returns (grownDisk.resize ⟨"", ""⟩ 0 "4" true) uploaded ⟨⟩ withLargerDisk :=
    returns_of_toBool (by decide +kernel)
  have hmade : dirtyMedia.Goes growing (fun _ _ => []) withDisk
      (dirtyMedia.after 0 (fun _ _ => []) withDisk.requests) :=
    ⟨withDisk.requests, rfl, rfl, ⟨⟨⟨trivial, trivial⟩, trivial⟩, trivial⟩⟩
  have hgrown : ∀ c : Contents Nat, (c 0 "/dev/scratch/-disk0").length = 2 → dirtyMedia.Goes uploaded c
      withLargerDisk (dirtyMedia.after 3 c (withLargerDisk.requests.take 4)) := by
    intro c hlength
    refine ⟨withLargerDisk.requests.take 4, rfl, rfl, ⟨⟨⟨⟨trivial, ?_⟩, trivial⟩, ?_⟩, trivial⟩⟩
    · change "2\n" = toString (c 0 "/dev/scratch/-disk0").length ++ "\n"
      rw [hlength]
      decide
    · change "4\n" = toString (dirtyMedia.resized 4 c 0 "/dev/scratch/-disk0" 0
        "/dev/scratch/-disk0").length ++ "\n"
      rw [Media.resized, Contents.set_self, Content.length_resize]
      decide
  have hwritten := (Life.added hadded rfl rfl rfl hmade).written 1 [7]
  have huploaded : Life dirtyMedia 0 "/dev/scratch/-disk0" uploaded _ _ := hwritten.elsewhere rfl
  have hlife := huploaded.resized hresized rfl rfl rfl (hgrown _ rfl)
  exact ⟨_, _, hlife, disk_is_file hlife⟩

end DrbdTests
