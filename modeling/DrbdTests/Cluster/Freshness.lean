import DrbdTests.Cluster.Mesh

/-!
# Freshness of uploaded configs

`update_config` uploads the config of a node only when `config_changed` is set, so a node
whose flag is not set relies on its last upload (`Relies`). `Current` says that this upload
is what `Node.config` generates now.

The config of a node contains sections of all members of its resource. Most calls set the
flags of all members. `Node.add_disk` sets only the flag of its own node, and `remove_disks`
and `remove_storage_pool` set none; `Op.MarksConfigs` is the condition under which that does
no harm.
-/

namespace DrbdTests

open Stateful Runs

/-- The last upload of the node counts as its config. -/
def Relies (w : World) (n : NodeId) : Prop :=
  (w.node n).configChanged = false ∧ (w.uploaded n).isSome

instance (w : World) (n : NodeId) : Decidable (Relies w n) :=
  inferInstanceAs (Decidable (_ ∧ _))

/-- If the node relies on its last upload, this is the config it would generate now. -/
def Current (w : World) (n : NodeId) : Prop :=
  (w.node n).configChanged = false → ∀ text, w.uploaded n = some text → Node.config w n = .ok text

/-- The members of all resources are current. -/
def Fresh (w : World) : Prop := ∀ r ∈ w.resources, ∀ n ∈ w.members r, Current w n

variable {w₀ w w' : World} {n m : NodeId} {r s : ResourceId}

theorem current_of_not_relies (h : ¬ Relies w n) : Current w n := by
  intro hflag text htext
  exact absurd ⟨hflag, by rw [htext]; rfl⟩ h

theorem Current.congr (h : Current w n)
    (hflag : (w'.node n).configChanged = (w.node n).configChanged ∨
      (w'.node n).configChanged = true)
    (hup : w'.uploaded n = w.uploaded n) (hconfig : Node.config w' n = Node.config w n) :
    Current w' n := by
  intro hclean text htext
  rcases hflag with hflag | hflag
  · rw [hconfig]
    exact h (hflag ▸ hclean) text (hup ▸ htext)
  · rw [hflag] at hclean
    cases hclean

/-! ## Commands -/

/-- The node has not been touched, or its present config has been uploaded. -/
def SettledAt (w w' : World) (n : NodeId) : Prop :=
  ((w'.node n).configChanged = (w.node n).configChanged ∧ w'.uploaded n = w.uploaded n) ∨
    ((w'.node n).configChanged = false ∧
      ∃ text, w'.uploaded n = some text ∧ Node.config w n = .ok text)

theorem SettledAt.trans {a b c : World} (hg : b.graph = a.graph) (h : SettledAt a b n)
    (h' : SettledAt b c n) : SettledAt a c n := by
  rcases h' with ⟨hflag, hup⟩ | ⟨hflag, text, hup, hconfig⟩
  · rcases h with ⟨hflag', hup'⟩ | ⟨hflag', text, hup', hconfig⟩
    · exact Or.inl ⟨hflag.trans hflag', hup.trans hup'⟩
    · exact Or.inr ⟨hflag.trans hflag', text, hup.trans hup', hconfig⟩
  · rw [graph_config hg] at hconfig
    exact Or.inr ⟨hflag, text, hup, hconfig⟩

/-- Commands on one node: the flags and uploads of all others stay as they are. -/
def settling (n : NodeId) : Frame World where
  rel w w' := w'.graph = w.graph ∧ SettledAt w w' n ∧ ∀ m, m ≠ n →
    (w'.node m).configChanged = (w.node m).configChanged ∧ w'.uploaded m = w.uploaded m
  refl _ := ⟨rfl, Or.inl ⟨rfl, rfl⟩, fun _ _ => ⟨rfl, rfl⟩⟩
  trans := by
    rintro a b c ⟨hg, hn, hm⟩ ⟨hg', hn', hm'⟩
    refine ⟨hg'.trans hg, hn.trans hg hn', fun m hne => ?_⟩
    exact ⟨(hm' m hne).1.trans (hm m hne).1, (hm' m hne).2.trans (hm m hne).2⟩

/-- Commands on any nodes. -/
def settlingAll : Frame World where
  rel w w' := w'.graph = w.graph ∧ ∀ n, SettledAt w w' n
  refl _ := ⟨rfl, fun _ => Or.inl ⟨rfl, rfl⟩⟩
  trans := by
    rintro a b c ⟨hg, hn⟩ ⟨hg', hn'⟩
    exact ⟨hg'.trans hg, fun n => (hn n).trans hg (hn' n)⟩

theorem settled_rel (h : (settling n).rel w w') : settlingAll.rel w w' := by
  obtain ⟨hg, hn, hm⟩ := h
  refine ⟨hg, fun m => ?_⟩
  by_cases hmn : m = n
  · exact hmn ▸ hn
  · exact Or.inl (hm m hmn)

theorem settled_of_settling {α : Type} {f : Py α} (h : (settling n).OnReturn f) :
    settlingAll.OnReturn f := fun w a w' hr => settled_rel (h w a w' hr)

theorem graph_of_unchanging (hw : unchanging.rel w w') : w'.graph = w.graph := by
  have hg := congrArg (fun p => World.graph p.1) hw
  exact hg

theorem settling_rel (hw : unchanging.rel w w') : (settling n).rel w w' := by
  have hnode : w'.node = w.node := congrArg (fun p => World.node p.1) hw
  have hup : w'.uploaded = w.uploaded := congrArg Prod.snd hw
  have hsame : ∀ k, (w'.node k).configChanged = (w.node k).configChanged ∧
      w'.uploaded k = w.uploaded k := fun k => by rw [hnode, hup]; exact ⟨rfl, rfl⟩
  exact ⟨graph_of_unchanging hw, Or.inl (hsame n), fun m _ => hsame m⟩

theorem settling_of_unchanging {α : Type} {f : Py α} (h : unchanging.Holds f) :
    (settling n).OnReturn f := fun _ _ _ hr => settling_rel (h.rel_of_returns hr)

theorem settling_of_asking {α : Type} {f : Py α} (h : asking.Holds f) :
    (settling n).OnReturn f := settling_of_unchanging (unchanging_of_asking h)

theorem uploaded_upload (w : World) (host : HostId) (cmd : List String) (text : String)
    (n m : NodeId) :
    World.uploaded { w with
        requests := (.command host cmd (some text) (.upload n), true) :: w.requests } m =
      if n = m then some text else w.uploaded m := by
  unfold World.uploaded World.record
  rw [List.filter_cons_of_pos (by simp [Request.effect]), List.map_cons, List.findSome?_cons]
  by_cases h : n = m
  · simp [h]
  · simp [h]

theorem settling_updateConfig (n : NodeId) : (settling n).OnReturn (Node.updateConfig n) := by
  intro w a w' hr
  unfold Node.updateConfig at hr
  rw [returns_get_bind, returns_when] at hr
  split at hr
  · obtain ⟨_, w₁, hflag, hr⟩ := returns_bind.mp hr
    rw [returns_modify] at hflag
    obtain ⟨text, w₂, hconfig, hr⟩ := returns_bind.mp hr
    obtain ⟨htext, rfl⟩ : Node.config w n = .ok text ∧ w₁ = w₂ := by
      rcases hc : Node.config w n with e | t
      · rw [hc] at hconfig
        exact absurd hconfig (by simp [Py.liftExcept])
      · rw [hc] at hconfig
        obtain ⟨rfl, rfl⟩ := returns_pure.mp hconfig
        exact ⟨rfl, rfl⟩
    have hw' := act_returns hr
    subst hflag
    rw [hw']
    refine ⟨graph_setFlag w n false, Or.inr ⟨?_, text, ?_, htext⟩, fun m hm => ⟨?_, ?_⟩⟩
    · change ((w.setFlag n false).node n).configChanged = false
      rw [World.setFlag, World.setNode_node, if_pos rfl]
    · rw [uploaded_upload, if_pos rfl]
    · change ((w.setFlag n false).node m).configChanged = _
      rw [World.setFlag, World.setNode_node, if_neg hm]
    · rw [uploaded_upload, if_neg (Ne.symm hm)]
      rfl
  · subst hr
    exact (settling n).refl w

theorem settling_nodeRunWith (updateConfig catching : Bool) (n : NodeId) (cmd : List String) :
    (settling n).OnReturn (Node.runWith updateConfig catching n cmd) := by
  refine Frame.OnReturn.bind (Frame.onReturn_when fun _ => settling_updateConfig n) fun _ => ?_
  exact Frame.OnReturn.bind Frame.onReturn_get fun w =>
    settling_of_asking (asking_runWith catching _ cmd none)

theorem settling_drbdadm (n : NodeId) (cmd : List String) :
    (settling n).OnReturn (Node.drbdadm n cmd) :=
  Frame.OnReturn.bind Frame.onReturn_get fun _ => settling_nodeRunWith true false n _

theorem settling_createMd (n : NodeId) (volume : Volume) (maxPeers bitmapBlockSize : Option Nat)
    (md : MdArgs) : (settling n).OnReturn (volume.createMd n maxPeers bitmapBlockSize md) := by
  refine Frame.OnReturn.bind Frame.onReturn_get fun _ => ?_
  refine Frame.OnReturn.bind Frame.onReturn_get fun w => ?_
  refine Frame.OnReturn.bind (Frame.onReturn_when fun _ => Frame.onReturn_throw _) fun _ => ?_
  refine Frame.OnReturn.bind (Frame.onReturn_when fun _ => ?_) fun _ => ?_
  · refine Frame.OnReturn.bind ?_ fun _ => Frame.onReturn_when fun _ => Frame.onReturn_throw _
    exact settling_of_unchanging (unchanging_devices.drbdmetaSupportsUuidOptions _)
  · exact Frame.OnReturn.bind (settling_drbdadm n _) fun _ => Frame.onReturn_pure _

theorem settling_setHost {h : HostId} {f : Host → Host}
    (hf : ∀ host, { f host with minors := 0, storagePool := none, drbdmetaUuidOptions := none } =
      { host with minors := 0, storagePool := none, drbdmetaUuidOptions := none }) :
    (settling n).rel w (w.setHost h f) :=
  ⟨graph_setHost hf, Or.inl ⟨rfl, rfl⟩, fun _ _ => ⟨rfl, rfl⟩⟩

theorem settling_hostCreateStoragePool (h : HostId) (thin : Bool)
    (discardGranularity : Option Nat) :
    (settling n).OnReturn (Host.createStoragePool h thin discardGranularity) := by
  refine Frame.OnReturn.bind Frame.onReturn_get fun w => ?_
  refine Frame.OnReturn.bind (Frame.onReturn_when fun _ => Frame.onReturn_throw _) fun _ => ?_
  refine Frame.OnReturn.bind (settling_of_unchanging ?_) fun pool => ?_
  · exact unchanging_devices.createStoragePool h _ _ thin _
  · exact Frame.onReturn_modify fun w => settling_setHost fun _ => rfl

theorem settling_hostRemoveStoragePool (h : HostId) :
    (settling n).OnReturn (Host.removeStoragePool h) := by
  refine Frame.OnReturn.bind Frame.onReturn_get fun w => ?_
  split
  · exact Frame.onReturn_throw _
  · refine Frame.OnReturn.bind (settling_of_unchanging (unchanging_devices.removePool h _)) fun _ => ?_
    exact Frame.onReturn_modify fun w => settling_setHost fun _ => rfl

theorem settling_newVolume (n : NodeId) (number : Nat) (size : Option String)
    (args : NodeDiskArgs) : (settling n).OnReturn (Node.newVolume n number size args) := by
  refine Frame.OnReturn.bind Frame.onReturn_get fun w => ?_
  refine Frame.OnReturn.bind (Frame.onReturn_when fun _ => ?_) fun _ => ?_
  · exact settling_hostCreateStoragePool _ false none
  refine Frame.OnReturn.bind (settling_of_unchanging (unchanging_volumeInit n number _)) ?_
  intro volume
  cases size with
  | none => exact Frame.onReturn_pure _
  | some size =>
    refine Frame.OnReturn.bind (settling_of_unchanging ?_) fun volume => ?_
    · exact unchanging_devices.volumeCreateDisks n volume size args
    · refine Frame.OnReturn.bind (Frame.onReturn_when fun _ => ?_) fun _ => Frame.onReturn_pure _
      exact Frame.OnReturn.bind (settling_nodeRunWith true false n _) fun _ => Frame.onReturn_pure _

theorem Current.settled (h : Current w n) (hs : settlingAll.rel w w') : Current w' n := by
  obtain ⟨hg, hn⟩ := hs
  rcases hn n with ⟨hflag, hup⟩ | ⟨hflag, text, hup, hconfig⟩
  · exact h.congr (Or.inl hflag) hup (graph_config hg n)
  · intro _ text' htext'
    rw [hup] at htext'
    cases htext'
    rw [graph_config hg]
    exact hconfig

theorem Fresh.settled (h : Fresh w) (hs : settlingAll.rel w w') : Fresh w' := by
  intro r hr n hn
  rw [graph_resources hs.1] at hr
  rw [graph_members hs.1] at hn
  exact (h r hr n hn).settled hs

/-! ## The section of a replaced volume -/

/-- The path of the volume that `create_disk` makes, when its name decides it. -/
def createdPath (backend : StorageBackend) (volumeGroup : String) (uuid5 : String → String)
    (name : String) (args : DiskArgs) : Option String :=
  if args.logicalBlockSize.isSome then some ("/dev/mapper/" ++ (name ++ "-" ++ DmType.ebs.word))
  else if args.delayMs.isSome then some ("/dev/mapper/" ++ (name ++ "-" ++ DmType.delay.word))
  else
    match backend with
    | .lvm => some ("/dev/" ++ volumeGroup ++ "/" ++ name)
    | .raw => some ("/dev/disk/by-partuuid/" ++ uuid5 name)
    | .zfs => some ("/dev/zvol/" ++ (volumeGroup ++ "/" ++ name))
    | .storageSpaces => none

/-- The backend of the storage pool of a host, which `add_disk` creates if it is missing. -/
def poolBackend (w : World) (h : HostId) : StorageBackend :=
  ((w.host h).storagePool.map StoragePool.backend).getD (w.host h).storageBackend

/-- What a config contains about the volume with which `Node.add_disk` replaces another,
as far as it can be told beforehand. -/
def expectedView (w : World) (n : NodeId) (number : Nat) (size : Option String)
    (args : NodeDiskArgs) : Option VolumeView := do
  let host := (w.node n).host
  let name := (w.resource (w.node n).resource).name
  let path (kind : String) := createdPath (poolBackend w host) (w.host host).volumeGroup
    w.env.uuid5 (lvName name kind number) args.disk
  let old ← (w.node n).disks[number]?
  if size.isNone then return ⟨old.minor, none, none, none⟩
  let disk ← path "disk"
  if Config.truthy args.metaSize then
    return ⟨old.minor, some disk, some (← path "meta"), none⟩
  else return ⟨old.minor, some disk, none, none⟩

theorem poolCreateDisk_path {h : HostId} {pool : StoragePool} {name size : String}
    {maxSize : Option String} {d : DiskVolume} {p : String}
    (hr : Returns (pool.createDisk h name size maxSize) w d w')
    (hp : createdPath pool.backend (w.host h).volumeGroup w.env.uuid5 name ⟨none, none, none⟩
      = some p) : d.volumePath = p := by
  unfold StoragePool.createDisk at hr
  obtain ⟨backend, backingDevice, thin, discardGranularity⟩ := pool
  cases backend with
  | lvm =>
    obtain ⟨object, w₁, hobj, hr⟩ := returns_bind.mp hr
    cases hobj
    rw [returns_get_bind] at hr
    obtain ⟨_, w₂, _, hr⟩ := returns_bind.mp hr
    obtain ⟨rfl, rfl⟩ := returns_pure.mp hr
    exact Option.some.inj hp
  | raw =>
    obtain ⟨object, w₁, hobj, hr⟩ := returns_bind.mp hr
    cases hobj
    rw [returns_get_bind] at hr
    obtain ⟨_, w₂, _, hr⟩ := returns_bind.mp hr
    obtain ⟨_, w₃, _, hr⟩ := returns_bind.mp hr
    obtain ⟨_, w₄, _, hr⟩ := returns_bind.mp hr
    obtain ⟨_, w₅, _, hr⟩ := returns_bind.mp hr
    obtain ⟨_, w₆, _, hr⟩ := returns_bind.mp hr
    obtain ⟨rfl, rfl⟩ := returns_pure.mp hr
    exact Option.some.inj hp
  | zfs =>
    obtain ⟨object, w₁, hobj, hr⟩ := returns_bind.mp hr
    cases hobj
    rw [returns_get_bind] at hr
    obtain ⟨_, w₂, _, hr⟩ := returns_bind.mp hr
    obtain ⟨_, w₃, _, hr⟩ := returns_bind.mp hr
    obtain ⟨_, w₄, _, hr⟩ := returns_bind.mp hr
    obtain ⟨rfl, rfl⟩ := returns_pure.mp hr
    exact Option.some.inj hp
  | storageSpaces => cases hp

theorem addLayer_path {h : HostId} {name : String} {dmType : DmType} {parameter : Option Nat}
    {d d' : DiskVolume} (hr : Returns (addLayer h name dmType parameter d) w d' w') :
    d'.volumePath = if parameter.isSome then "/dev/mapper/" ++ (name ++ "-" ++ dmType.word)
      else d.volumePath := by
  cases parameter with
  | none =>
    obtain ⟨rfl, rfl⟩ := returns_pure.mp hr
    rfl
  | some k =>
    obtain ⟨object, w₁, _, hr⟩ := returns_bind.mp hr
    obtain ⟨_, w₂, _, hr⟩ := returns_bind.mp hr
    obtain ⟨_, w₃, _, hr⟩ := returns_bind.mp hr
    obtain ⟨rfl, rfl⟩ := returns_pure.mp hr
    rfl

theorem createDisk_path {h : HostId} {name size : String} {args : DiskArgs} {d : DiskVolume}
    {pool : StoragePool} {p : String} (hr : Returns (createDisk h name size args) w d w')
    (hpool : (w.host h).storagePool = some pool)
    (hp : createdPath pool.backend (w.host h).volumeGroup w.env.uuid5 name args = some p) :
    d.volumePath = p := by
  unfold createDisk at hr
  rw [returns_get_bind, hpool] at hr
  obtain ⟨d₁, w₁, hbacking, hr⟩ := returns_bind.mp hr
  obtain ⟨d₂, w₂, hdelay, hebs⟩ := returns_bind.mp hr
  rw [addLayer_path hebs, addLayer_path hdelay]
  obtain ⟨maxSize, delayMs, logicalBlockSize⟩ := args
  rcases logicalBlockSize with _ | k
  · rcases delayMs with _ | k
    · exact poolCreateDisk_path hbacking hp
    · exact Option.some.inj hp
  · exact Option.some.inj hp

theorem createStoragePool_backend {h : HostId} {backend : StorageBackend} {backingDevice : String}
    {thin : Bool} {discardGranularity : Option Nat} {pool : StoragePool}
    (hr : Returns (createStoragePool h backend backingDevice thin discardGranularity) w pool w') :
    pool.backend = backend := by
  cases backend with
  | lvm =>
    obtain ⟨_, w₂, _, hr⟩ := returns_bind.mp hr
    obtain ⟨_, w₃, _, hr⟩ := returns_bind.mp hr
    obtain ⟨_, w₄, _, hr⟩ := returns_bind.mp hr
    obtain ⟨rfl, rfl⟩ := returns_pure.mp hr
    rfl
  | raw =>
    simp only [createStoragePool] at hr
    split at hr
    · exact absurd hr (by simp)
    · obtain ⟨rfl, rfl⟩ := returns_pure.mp hr
      rfl
  | zfs =>
    obtain ⟨_, w₂, _, hr⟩ := returns_bind.mp hr
    obtain ⟨_, w₃, _, hr⟩ := returns_bind.mp hr
    obtain ⟨rfl, rfl⟩ := returns_pure.mp hr
    rfl
  | storageSpaces =>
    obtain ⟨rfl, rfl⟩ := returns_pure.mp hr
    rfl

/-- After the first statement of `add_disk` the host has a pool of the expected backend. -/
theorem ensurePool_returns {h : HostId} {u : PUnit}
    (hr : Returns (when (w.host h).storagePool.isNone (Host.createStoragePool h false none)) w u w') :
    ∃ pool, (w'.host h).storagePool = some pool ∧ pool.backend = poolBackend w h := by
  unfold poolBackend
  rw [returns_when] at hr
  rcases hpool : (w.host h).storagePool with _ | pool
  · rw [hpool, if_pos (by rfl)] at hr
    unfold Host.createStoragePool at hr
    rw [returns_get_bind] at hr
    obtain ⟨_, w₁, _, hr⟩ := returns_bind.mp hr
    obtain ⟨pool, w₂, hcreate, hr⟩ := returns_bind.mp hr
    have hbackend := createStoragePool_backend hcreate
    rw [returns_modify] at hr
    subst hr
    refine ⟨pool, ?_, hbackend⟩
    rw [World.setHost_host, if_pos rfl]
  · rw [hpool, if_neg (by simp)] at hr
    subst hr
    exact ⟨pool, hpool, rfl⟩

theorem volumeCreateDisks_paths {volume volume' : Volume} {size : String} {args : NodeDiskArgs}
    {pool : StoragePool} (hr : Returns (volume.createDisks n size args) w volume' w')
    (hpool : (w.host (w.node n).host).storagePool = some pool) :
    (∀ p, createdPath pool.backend (w.host (w.node n).host).volumeGroup w.env.uuid5
      (lvName (w.resource (w.node n).resource).name "disk" volume.volume) args.disk = some p →
        volume'.disk = some p) ∧
    (Config.truthy args.metaSize → ∀ p,
      createdPath pool.backend (w.host (w.node n).host).volumeGroup w.env.uuid5
        (lvName (w.resource (w.node n).resource).name "meta" volume.volume) args.disk = some p →
          volume'.meta = some p) ∧
    (¬ Config.truthy args.metaSize → volume'.metaVolume = volume.metaVolume) := by
  unfold Volume.createDisks at hr
  rw [returns_get_bind] at hr
  obtain ⟨d, w₁, hdisk, hr⟩ := returns_bind.mp hr
  have hpath := fun p hp => createDisk_path (p := p) hdisk hpool hp
  have hstill := (unchanging_devices.createDisk _ _ size _).rel_of_returns hdisk
  have hpool₁ : (w₁.host (w.node n).host).storagePool = some pool :=
    (congrArg (fun p => (World.host p.1 (w.node n).host).storagePool) hstill).trans hpool
  have hgroup : (w₁.host (w.node n).host).volumeGroup = (w.host (w.node n).host).volumeGroup :=
    congrArg (fun p => (World.host p.1 (w.node n).host).volumeGroup) hstill
  have henv : w₁.env = w.env := congrArg (fun p => World.env p.1) hstill
  rcases hm : args.metaSize with _ | metaSize
  · simp only [hm] at hr
    obtain ⟨rfl, rfl⟩ := returns_pure.mp hr
    exact ⟨fun p hp => congrArg some (hpath p hp), by simp [Config.truthy], fun _ => rfl⟩
  · simp only [hm] at hr
    by_cases hempty : metaSize = ""
    · rw [if_pos hempty] at hr
      obtain ⟨rfl, rfl⟩ := returns_pure.mp hr
      exact ⟨fun p hp => congrArg some (hpath p hp), by simp [Config.truthy, hempty], fun _ => rfl⟩
    · rw [if_neg hempty] at hr
      obtain ⟨d', w₂, hmeta, hr⟩ := returns_bind.mp hr
      obtain ⟨rfl, rfl⟩ := returns_pure.mp hr
      refine ⟨fun p hp => congrArg some (hpath p hp), fun _ p hp => congrArg some ?_, ?_⟩
      · refine createDisk_path hmeta hpool₁ ?_
        rw [hgroup, henv]
        exact hp
      · simp [Config.truthy, hempty]

theorem newVolume_view {number : Nat} {size : Option String} {args : NodeDiskArgs}
    {volume : Volume} {view : VolumeView}
    (hr : Returns (Node.newVolume n number size args) w volume w')
    (hview : expectedView w n number size args = some view) : volume.view = view := by
  obtain ⟨-, htie, hminor⟩ := newVolume_returns hr
  unfold expectedView at hview
  rcases hold : (w.node n).disks[number]? with _ | old
  · rw [hold] at hview
    cases hview
  rw [hold] at hview
  have hm := hminor old hold
  unfold Node.newVolume at hr
  rw [returns_get_bind] at hr
  obtain ⟨_, w₁, hensure, hr⟩ := returns_bind.mp hr
  obtain ⟨v, w₂, hinit, hr⟩ := returns_bind.mp hr
  obtain ⟨pool, hpool, hbackend⟩ := ensurePool_returns hensure
  obtain ⟨hnumber, -, hnodisk, hnometa, -⟩ := volumeInit_returns hinit
  have hg₁ : w₁.graph = w.graph := (Frame.holds_when (F := keepingGraph)
    fun _ => keepingGraph_commands.pools.hostCreateStoragePool _ false none).rel_of_returns hensure
  have hstill := (unchanging_volumeInit n number _).rel_of_returns hinit
  have hg : w₂.graph = w.graph := (congrArg (fun p => World.graph p.1) hstill).trans hg₁
  have hpool₂ : (w₂.host (w.node n).host).storagePool = some pool :=
    (congrArg (fun p => (World.host p.1 (w.node n).host).storagePool) hstill).trans hpool
  have hgroup : (w₂.host (w.node n).host).volumeGroup = (w.host (w.node n).host).volumeGroup := by
    have := congrArg Host.volumeGroup (congrFun (congrArg World.host hg) (w.node n).host)
    exact this
  cases size with
  | none =>
    obtain ⟨rfl, rfl⟩ := returns_pure.mp hr
    obtain rfl := Option.some.inj hview
    simp only [Volume.view, Volume.disk, Volume.meta, hnodisk, hnometa, htie, hm, Option.map_none]
  | some size =>
    obtain ⟨v', w₃, hcreate, hr⟩ := returns_bind.mp hr
    obtain ⟨_, w₄, _, hr⟩ := returns_bind.mp hr
    obtain ⟨rfl, rfl⟩ := returns_pure.mp hr
    rw [← graph_nodeHost hg n] at hpool₂
    obtain ⟨hdisk, hmeta, hnone⟩ := volumeCreateDisks_paths hcreate hpool₂
    rw [graph_nodeHost hg, graph_nodeResource hg, graph_resource hg, graph_env hg, hgroup, hbackend,
      hnumber] at hdisk hmeta
    simp only [Option.bind_eq_bind, Option.bind_some, Option.isNone_some, Bool.false_eq_true,
      if_false] at hview
    obtain ⟨p, hp, hview⟩ := Option.bind_eq_some_iff.mp hview
    have hd : v'.disk = some p := hdisk p hp
    split at hview
    · rename_i htruthy
      obtain ⟨q, hq, hview⟩ := Option.bind_eq_some_iff.mp hview
      obtain rfl := Option.some.inj hview
      simp only [Volume.view, hd, hmeta htruthy q hq, htie, hm]
    · rename_i htruthy
      obtain rfl := Option.some.inj hview
      have hmnone : v'.meta = none := by rw [Volume.meta, hnone htruthy, hnometa, Option.map_none]
      simp only [Volume.view, hd, hmnone, htie, hm]

/-! ## Updates of the objects -/

theorem touch_node (w : World) (nodes : List NodeId) (m : NodeId) :
    (w.touch nodes).node m =
      if m ∈ nodes then { w.node m with configChanged := true } else w.node m := by
  unfold World.touch
  induction nodes generalizing w with
  | nil => simp
  | cons n nodes ih =>
    rw [List.foldl_cons, ih, World.setFlag, World.setNode_node]
    by_cases hmn : m = n
    · subst hmn
      simp
    · simp [hmn]

theorem uploaded_touch (w : World) (nodes : List NodeId) :
    (w.touch nodes).uploaded = w.uploaded := by
  unfold World.touch
  induction nodes generalizing w with
  | nil => rfl
  | cons n nodes ih =>
    rw [List.foldl_cons, ih]
    rfl

/-- Setting flags only takes claims back. -/
theorem Fresh.touch (nodes : List NodeId)
    (h : ∀ r ∈ w.resources, ∀ n ∈ w.members r, n ∉ nodes → Current w n) :
    Fresh (w.touch nodes) := by
  have hg := graph_touch w nodes
  intro r hr n hn
  rw [graph_resources hg] at hr
  rw [graph_members hg] at hn
  by_cases hmem : n ∈ nodes
  · refine current_of_not_relies fun hrel => ?_
    have hflag := hrel.1
    rw [touch_node, if_pos hmem] at hflag
    cases hflag
  · refine (h r hr n hn hmem).congr (Or.inl ?_) ?_ (graph_config hg n)
    · rw [touch_node, if_neg hmem]
    · rw [uploaded_touch]

/-- A config is made from the views of the resource and of the node itself. -/
theorem config_of_views (hset : w'.settings = w.settings)
    (hnr : (w'.node n).resource = (w.node n).resource)
    (hres : w'.resourceView (w.node n).resource = w.resourceView (w.node n).resource)
    (hview : w'.nodeView n = w.nodeView n) : Node.config w' n = Node.config w n :=
  Node.config_congr hset (by rw [hnr, hres]) hview

theorem resourceView_congr (hres : w'.resource r = w.resource r)
    (hviews : ∀ m ∈ w.members r, w'.nodeView m = w.nodeView m) :
    w'.resourceView r = w.resourceView r := by
  have hmap : (w'.members r).map w'.nodeView = (w.members r).map w.nodeView := by
    have hmem : w'.members r = w.members r := by rw [World.members, hres, World.members]
    rw [hmem]
    exact List.map_congr_left hviews
  unfold World.resourceView
  rw [hmap, hres]

/-- A change of one node, in attributes that only its own sections show. -/
theorem Current.setNode {f : Node → Node} (h : Current w m) (hmn : m ≠ n)
    (hviews : n ∈ w.members (w.node m).resource → (w.setNode n f).nodeView n = w.nodeView n) :
    Current (w.setNode n f) m := by
  have hother : ∀ k, k ≠ n → (w.setNode n f).nodeView k = w.nodeView k := by
    intro k hk
    simp only [World.nodeView, World.setNode_node, if_neg hk, World.setNode_host]
  have hnode : (w.setNode n f).node m = w.node m := by rw [World.setNode_node, if_neg hmn]
  refine h.congr (Or.inl (by rw [hnode])) rfl ?_
  refine config_of_views rfl (by rw [hnode]) (resourceView_congr rfl fun k hk => ?_) (hother m hmn)
  by_cases hkn : k = n
  · subst hkn
    exact hviews hk
  · exact hother k hkn

/-- A change of one resource does not show in the configs of the others. -/
theorem Current.setResource {f : Resource → Resource} (h : Current w n)
    (hr : (w.node n).resource ≠ r) : Current (w.setResource r f) n := by
  refine h.congr (Or.inl rfl) rfl (config_of_views rfl rfl ?_ rfl)
  refine resourceView_congr ?_ fun _ _ => rfl
  rw [World.setResource_resource, if_neg hr]

/-- A change of a resource that its configs do not show. -/
theorem Current.setResource_hidden {f : Resource → Resource} (h : Current w n)
    (hf : (w.setResource r f).resourceView r = w.resourceView r) :
    Current (w.setResource r f) n := by
  by_cases hr : (w.node n).resource = r
  · refine h.congr (Or.inl rfl) rfl (config_of_views rfl rfl ?_ rfl)
    rw [hr, hf]
  · exact h.setResource hr

/-! ## The condition -/

/-- The replaced volume has the same section in a config as the one that replaces it. -/
def KeepsSection (w : World) (n : NodeId) (number : Nat) (size : Option String)
    (args : NodeDiskArgs) : Prop :=
  ((w.node n).disks[number]?.map Volume.view).isSome ∧
    (w.node n).disks[number]?.map Volume.view = expectedView w n number size args

/-- What `Node.add_disk`, `remove_disks` and `remove_storage_pool` change is either not part
of any config, or no other member relies on a config that contains it. -/
def Op.MarksConfigs (op : Op) (w : World) : Prop :=
  match op with
  | .nodeAddDisk n number size args =>
    n ∉ w.members (w.node n).resource ∨
      (∀ m ∈ w.members (w.node n).resource, m ≠ n → ¬ Relies w m) ∨
      KeepsSection w n number size args
  | .removeDisks n =>
    n ∉ w.members (w.node n).resource ∨ (w.node n).disks = [] ∨
      ∀ m ∈ w.members (w.node n).resource, ¬ Relies w m
  | .removeStoragePool r =>
    (∀ n ∈ w.members r, (w.node n).disks = []) ∨ ∀ m ∈ w.members r, ¬ Relies w m
  | .addNode r n => (w.node n).resource = r
  | _ => True

instance (w : World) (n : NodeId) (number : Nat) (size : Option String) (args : NodeDiskArgs) :
    Decidable (KeepsSection w n number size args) :=
  inferInstanceAs (Decidable (_ ∧ _))

instance (op : Op) (w : World) : Decidable (op.MarksConfigs w) :=
  match op with
  | .nodeAddDisk n number size args => inferInstanceAs (Decidable
      (_ ∨ (∀ m ∈ w.members _, m ≠ n → ¬ Relies w m) ∨ KeepsSection w n number size args))
  | .removeDisks _ => inferInstanceAs (Decidable (_ ∨ _ ∨ ∀ m ∈ w.members _, ¬ Relies w m))
  | .removeStoragePool r => inferInstanceAs (Decidable
      ((∀ n ∈ w.members r, (w.node n).disks = []) ∨ ∀ m ∈ w.members r, ¬ Relies w m))
  | .addNode _ _ => inferInstanceAs (Decidable (_ = _))
  | .createResource _ | .createStoragePool _ _ | .addDisk _ _ | .nextVolume _
  | .setNetOptions _ _ | .setDiskOptions _ _ | .setResourceOptions _ _ | .setHandlers _ _
  | .setFencingMode _ _ | .setTiebreaker _ _ _ | .removeNode _ _ | .rename _ _
  | .installDrbd _ _ | .run _ _ _ _ =>
    isTrue trivial

theorem Op.MarksConfigs.addsOwnNode {op : Op} (h : op.MarksConfigs w) : op.AddsOwnNode w := by
  cases op with
  | addNode r n => exact h
  | _ => trivial

/-! ## One call -/

/-- Members belong to their resource. -/
def OwnMembers (w : World) : Prop := ∀ r ∈ w.resources, ∀ n ∈ w.members r, (w.node n).resource = r

theorem OwnMembers.congr (h : OwnMembers w) (hm : w'.layout.mesh = w.layout.mesh) :
    OwnMembers w' := by
  have hres : w'.resources = w.resources := congrArg Layout.resources hm
  have hnr : ∀ n, (w'.node n).resource = (w.node n).resource :=
    congrFun (congrArg Layout.nodeResource hm)
  intro r hr n hn
  rw [hnr]
  exact h r (hres ▸ hr) n ((mem_members_of_mesh hm r n).mp hn)

theorem Fresh.setResource_hidden {f : Resource → Resource} (h : Fresh w)
    (hn : ∀ resource, (f resource).nodes = resource.nodes)
    (hf : (w.setResource r f).resourceView r = w.resourceView r) : Fresh (w.setResource r f) := by
  have hl := layout_setResource (w := w) (r := r) hn
  intro s hs n hmem
  have hmem' := (mem_members_of_mesh (congrArg Layout.mesh hl) s n).mp hmem
  exact (h s hs n hmem').setResource_hidden hf

/-- A change of a resource after which all its members are marked. -/
theorem Fresh.setResource_touch {f : Resource → Resource} (h : Fresh w) (hown : OwnMembers w) :
    Fresh ((w.setResource r f).touch ((w.setResource r f).members r)) := by
  refine Fresh.touch _ fun s hs n hn hout => ?_
  have hsr : s ≠ r := by
    rintro rfl
    exact hout hn
  rw [World.members, World.setResource_resource, if_neg hsr] at hn
  refine (h s hs n hn).setResource ?_
  rw [hown s hs n hn]
  exact hsr

/-- A change of one node after which all members of its resource are marked. -/
theorem Fresh.setNode_touch {f : Node → Node} (h : Fresh w) (hown : OwnMembers w) :
    Fresh ((w.setNode n f).touch ((w.setNode n f).members (w.node n).resource)) := by
  refine Fresh.touch _ fun s hs m hm hout => ?_
  have hsr : s ≠ (w.node n).resource := by
    rintro rfl
    exact hout hm
  have hmr := hown s hs m hm
  have hmn : m ≠ n := by
    rintro rfl
    exact hsr hmr.symm
  refine (h s hs m hm).setNode hmn fun hmem => ?_
  rw [hmr] at hmem
  exact absurd (hown s hs n hmem).symm hsr

/-- A change of one node that its sections do not show. -/
theorem Fresh.setNode_hidden {f : Node → Node} (h : Fresh w)
    (hflag : (f (w.node n)).configChanged = (w.node n).configChanged)
    (hres : (f (w.node n)).resource = (w.node n).resource)
    (hview : (w.setNode n f).nodeView n = w.nodeView n) : Fresh (w.setNode n f) := by
  have hviews : ∀ k, (w.setNode n f).nodeView k = w.nodeView k := by
    intro k
    by_cases hk : k = n
    · rw [hk, hview]
    · simp only [World.nodeView, World.setNode_node, if_neg hk, World.setNode_host]
  intro s hs m hm
  refine (h s hs m hm).congr (Or.inl ?_) rfl ?_
  · rw [World.setNode_node]
    split
    · rename_i hmn
      rw [hmn, hflag]
    · rfl
  · refine config_of_views rfl ?_ (resourceView_congr rfl fun k _ => hviews k) (hviews m)
    rw [World.setNode_node]
    split
    · rename_i hmn
      rw [hmn, hres]
    · rfl

/-- A change of one node when no other member of its resource relies on its config. -/
theorem Fresh.setNode_unseen {f : Node → Node} (h : Fresh w) (hown : OwnMembers w)
    (hn : n ∈ w.members (w.node n).resource → Current (w.setNode n f) n)
    (hothers : ∀ m ∈ w.members (w.node n).resource, m ≠ n → n ∈ w.members (w.node n).resource →
      ¬ Relies w m) : Fresh (w.setNode n f) := by
  intro s hs m hm
  have hmr := hown s hs m hm
  by_cases hmn : m = n
  · subst hmn
    exact hn (hmr ▸ hm)
  · by_cases hmem : n ∈ w.members s
    · have hnr := hown s hs n hmem
      have hrel := hothers m (hnr ▸ hm) hmn (hnr ▸ hmem)
      refine current_of_not_relies ?_
      rw [Relies, World.setNode_node, if_neg hmn]
      exact hrel
    · exact (h s hs m hm).setNode hmn fun hmem' => absurd (hmr ▸ hmem') hmem

theorem relies_of_unchanging (hw : unchanging.rel w w') (m : NodeId) : Relies w' m ↔ Relies w m := by
  have hnode : w'.node = w.node := congrArg (fun p => World.node p.1) hw
  have hup : w'.uploaded = w.uploaded := congrArg Prod.snd hw
  rw [Relies, Relies, hnode, hup]

/-- `remove_disks` runs the commands for the devices, and then empties the list. -/
theorem removeDisks_returns {u : PUnit} (hr : Returns (Node.removeDisks n) w u w') :
    ∃ w₁, unchanging.rel w w₁ ∧ w' = w₁.clearDisks n := by
  unfold Node.removeDisks at hr
  rw [returns_get_bind] at hr
  obtain ⟨_, w₁, hloop, hr⟩ := returns_bind.mp hr
  rw [returns_modify] at hr
  refine ⟨w₁, ?_, hr.symm⟩
  exact (Frame.holds_forM _ fun volume _ => unchanging_devices.volumeRemoveDisks volume).rel_of_returns hloop

theorem Fresh.removeDisks {u : PUnit} (h : Fresh w) (hown : OwnMembers w)
    (hmark : (Op.removeDisks n).MarksConfigs w) (hr : Returns (Node.removeDisks n) w u w') :
    Fresh w' := by
  obtain ⟨w₁, hstill, rfl⟩ := removeDisks_returns hr
  have hg := graph_of_unchanging hstill
  have h₁ : Fresh w₁ := h.settled (settled_rel (n := n) (settling_rel hstill))
  have hown₁ : OwnMembers w₁ := hown.congr (congrArg Layout.mesh (layout_of_graph hg))
  have hnr := graph_nodeResource hg n
  have hmem := graph_members hg (w.node n).resource
  rcases hmark with hout | hempty | hrel
  · refine h₁.setNode_unseen hown₁ (fun hin => ?_) fun m _ _ hin => ?_
    · rw [hnr, hmem] at hin
      exact absurd hin hout
    · rw [hnr, hmem] at hin
      exact absurd hin hout
  · rw [← graph_disks hg] at hempty
    refine h₁.setNode_hidden rfl rfl ?_
    simp only [World.nodeView, World.setNode_node, if_pos, World.setNode_host, hempty]
  · refine h₁.setNode_unseen hown₁ (fun hin => ?_) fun m hm _ _ => ?_
    · rw [hnr, hmem] at hin
      have hn := (relies_of_unchanging hstill n).not.mpr (hrel n hin)
      refine current_of_not_relies ?_
      rw [Relies, World.setNode_node, if_pos rfl]
      exact hn
    · rw [hnr, hmem] at hm
      exact (relies_of_unchanging hstill m).not.mpr (hrel m hm)

/-- `Node.add_disk` on a state in which its condition holds. -/
theorem Fresh.nodeAddDisk {number : Nat} {size : Option String} {args : NodeDiskArgs}
    {volume : Volume} (h : Fresh w) (hown : OwnMembers w)
    (hmark : (Op.nodeAddDisk n number size args).MarksConfigs w)
    (hr : Returns (Node.addDisk n number size args) w volume w') : Fresh w' := by
  obtain ⟨v, w₁, hnew, hr⟩ := returns_bind.mp hr
  obtain ⟨_, w₂, hstore, hr⟩ := returns_bind.mp hr
  rw [returns_modify] at hstore
  obtain ⟨rfl, rfl⟩ := returns_pure.mp hr
  subst hstore
  have hsettling := settling_newVolume n number size args _ _ _ hnew
  have h₁ : Fresh w₁ := h.settled (settled_rel hsettling)
  obtain ⟨hg, -, hothers⟩ := hsettling
  have hown₁ : OwnMembers w₁ := hown.congr (congrArg Layout.mesh (layout_of_graph hg))
  have hnr := graph_nodeResource hg n
  have hmem := graph_members hg (w.node n).resource
  have hself : Current (w₁.storeVolume n number v) n := by
    refine current_of_not_relies fun hrel => ?_
    have hflag := hrel.1
    rw [World.storeVolume, World.setNode_node, if_pos rfl] at hflag
    cases hflag
  rcases hmark with hout | hrel | hkeep
  · refine h₁.setNode_unseen hown₁ (fun _ => hself) fun m _ _ hin => ?_
    rw [hnr, hmem] at hin
    exact absurd hin hout
  · refine h₁.setNode_unseen hown₁ (fun _ => hself) fun m hm hmn _ => ?_
    rw [hnr, hmem] at hm
    obtain ⟨hflag, hup⟩ := hothers m hmn
    rw [Relies, hflag, hup]
    exact hrel m hm hmn
  · -- the new section is the old one
    obtain ⟨hsome, hview⟩ := hkeep
    obtain ⟨view, hold⟩ := Option.isSome_iff_exists.mp hsome
    have hv : v.view = view := newVolume_view hnew (hview ▸ hold)
    have hlt : number < (w₁.node n).disks.length := by
      rw [graph_disks hg]
      by_contra hge
      rw [List.getElem?_eq_none (Nat.not_lt.mp hge)] at hold
      cases hold
    have hsame : (w₁.storeVolume n number v).nodeView n = w₁.nodeView n := by
      have hdisks : ((w₁.node n).disks.set number v).map Volume.view
          = (w₁.node n).disks.map Volume.view := by
        rw [List.map_set, hv, graph_disks hg]
        have hi : ((w.node n).disks.map Volume.view)[number]? = some view := by
          rw [List.getElem?_map, hold]
        obtain ⟨hlt', hget⟩ := List.getElem?_eq_some_iff.mp hi
        rw [← hget, List.set_getElem_self]
      simp only [World.nodeView, World.storeVolume, World.setNode_node, if_pos, if_pos hlt,
        World.setNode_host, hdisks]
    intro s hs m hm
    by_cases hmn : m = n
    · exact hmn ▸ hself
    · exact (h₁ s hs m hm).setNode hmn fun _ => hsame

/-! ## Loops over the members -/

/-- The members of all other resources are current. -/
def FreshBut (w : World) (r : ResourceId) : Prop :=
  ∀ s ∈ w.resources, s ≠ r → ∀ n ∈ w.members s, Current w n

theorem Fresh.freshBut (h : Fresh w) (r : ResourceId) : FreshBut w r := fun s hs _ => h s hs

theorem FreshBut.settled (h : FreshBut w r) (hs : settlingAll.rel w w') : FreshBut w' r := by
  intro s hsr hne n hn
  rw [graph_resources hs.1] at hsr
  rw [graph_members hs.1] at hn
  exact (h s hsr hne n hn).settled hs

theorem FreshBut.setNode {f : Node → Node} (h : FreshBut w r) (hown : OwnMembers w)
    (hn : (w.node n).resource = r) : FreshBut (w.setNode n f) r := by
  intro s hs hne m hm
  have hmr := hown s hs m hm
  have hmn : m ≠ n := by
    rintro rfl
    exact hne (hmr.symm.trans hn)
  refine (h s hs hne m hm).setNode hmn fun hmem => ?_
  rw [hmr] at hmem
  exact absurd ((hown s hs n hmem).symm.trans hn) hne

/-- When the flags of all members are set, nothing is claimed about their configs. -/
theorem FreshBut.fresh (h : FreshBut w r)
    (hflags : ∀ n ∈ w.members r, (w.node n).configChanged = true) : Fresh w := by
  intro s hs n hn
  by_cases hsr : s = r
  · subst hsr
    refine current_of_not_relies fun hrel => ?_
    rw [Relies, hflags n hn] at hrel
    exact absurd hrel.1 (by simp)
  · exact h s hs hsr n hn

/-- The state of a loop over the members of `r` that sets their flags. -/
structure Marking (w₀ : World) (r : ResourceId) (done : List NodeId) (w : World) : Prop where
  mesh : w.layout.mesh = w₀.layout.mesh
  freshBut : FreshBut w r
  flags : ∀ n ∈ done, (w.node n).configChanged = true

theorem Marking.own {done : List NodeId} (h : Marking w₀ r done w) (hown : OwnMembers w₀) :
    OwnMembers w := hown.congr h.mesh

/-- One iteration: the node and its devices change, and its flag is set. -/
theorem Marking.setNode {done : List NodeId} {f : Node → Node} (h : Marking w₀ r done w)
    (hown : OwnMembers w₀) (hn : (w.node n).resource = r)
    (hr : ∀ node, (f node).resource = node.resource)
    (hc : ∀ node, (f node).connections = node.connections)
    (hf : ∀ node, (f node).configChanged = true) : Marking w₀ r (done ++ [n]) (w.setNode n f) where
  mesh := (mesh_setNode hr hc).trans h.mesh
  freshBut := h.freshBut.setNode (h.own hown) hn
  flags m hm := by
    rw [World.setNode_node]
    split
    · exact hf _
    · rename_i hmn
      rcases List.mem_append.mp hm with hm | hm
      · exact h.flags m hm
      · exact absurd (List.mem_singleton.mp hm) hmn

theorem Marking.settling {done : List NodeId} (h : Marking w₀ r done w) (hn : n ∉ done)
    (hs : (settling n).rel w w') : Marking w₀ r done w' where
  mesh := (congrArg Layout.mesh (layout_of_graph hs.1)).trans h.mesh
  freshBut := h.freshBut.settled (settled_rel hs)
  flags m hm := by
    have hmn : m ≠ n := by
      rintro rfl
      exact hn hm
    rw [(hs.2.2 m hmn).1]
    exact h.flags m hm

theorem Marking.fresh (h : Marking w₀ r (w₀.members r) w) : Fresh w := by
  refine h.freshBut.fresh fun n hn => h.flags n ?_
  rwa [members_of_mesh h.mesh] at hn

theorem Fresh.marking (h : Fresh w) : Marking w r [] w := ⟨rfl, h.freshBut r, by simp⟩

theorem nodup_of_append {pre post : List NodeId} (h : (w.members r) = pre ++ n :: post) :
    n ∉ pre := by
  have hnodup := (w.resource r).nodes.nodup
  rw [World.members] at h
  rw [h] at hnodup
  exact fun hmem => (List.disjoint_of_nodup_append hnodup) hmem List.mem_cons_self

theorem Fresh.setFencingMode {mode : String} {u : PUnit} (h : Fresh w) (hown : OwnMembers w)
    (hr : r ∈ w.resources) (hret : Returns (Resource.setFencingMode r mode) w u w') : Fresh w' := by
  unfold Resource.setFencingMode at hret
  rw [returns_get_bind] at hret
  refine (Returns.forM_invariant (fun done w' => Marking w r done w') hret h.marking ?_).fresh
  intro pre n post w₁ w₂ hsplit hI hstep
  rw [returns_modify] at hstep
  subst hstep
  have hmem : n ∈ w.members r := by
    rw [hsplit]
    simp
  have hnr : (w₁.node n).resource = r :=
    (congrFun (congrArg Layout.nodeResource hI.mesh) n).trans (hown r hr n hmem)
  exact hI.setNode hown hnr (fun _ => rfl) (fun _ => rfl) fun _ => rfl

theorem Marking.addDisk {done : List NodeId} {number : Nat} {size : Option String}
    {args : NodeDiskArgs} {volume : Volume} (h : Marking w₀ r done w) (hown : OwnMembers w₀)
    (hn : n ∉ done) (hnr : (w₀.node n).resource = r)
    (hret : Returns (Node.addDisk n number size args) w volume w') :
    Marking w₀ r (done ++ [n]) w' := by
  obtain ⟨v, w₁, hnew, hret⟩ := returns_bind.mp hret
  obtain ⟨_, w₂, hstore, hret⟩ := returns_bind.mp hret
  rw [returns_modify] at hstore
  obtain ⟨rfl, rfl⟩ := returns_pure.mp hret
  subst hstore
  have h₁ := h.settling hn (settling_newVolume n number size args _ _ _ hnew)
  have hnr₁ : (w₁.node n).resource = r :=
    (congrFun (congrArg Layout.nodeResource h₁.mesh) n).trans hnr
  exact h₁.setNode hown hnr₁ (fun _ => rfl) (fun _ => rfl) fun _ => rfl

theorem Fresh.addDiskOnMembers {number : Nat} {args : Resource.AddDiskArgs} {u : PUnit}
    (h : Fresh w) (hown : OwnMembers w) (hr : r ∈ w.resources)
    (hret : Returns (Resource.addDiskOnMembers r number args) w u w') : Fresh w' := by
  unfold Resource.addDiskOnMembers at hret
  rw [returns_get_bind] at hret
  obtain ⟨volumes, w₁, hloop, hret⟩ := returns_bind.mp hret
  have h₁ : Marking w r (w.members r) w₁ := by
    refine Returns.foldlM_invariant (fun done _ w' => Marking w r done w') hloop h.marking ?_
    intro pre n post _ w₂ _ w₃ hsplit hI hstep
    have hmem : n ∈ w.members r := by
      rw [hsplit]
      simp
    unfold Resource.addDiskOn at hstep
    split at hstep
    · obtain ⟨v, w₄, hadd, hstep⟩ := returns_bind.mp hstep
      obtain ⟨-, rfl⟩ := returns_pure.mp hstep
      exact hI.addDisk hown (nodup_of_append hsplit) (hown r hr n hmem) hadd
    · obtain ⟨v, w₄, hadd, hstep⟩ := returns_bind.mp hstep
      obtain ⟨-, rfl⟩ := returns_pure.mp hstep
      exact hI.addDisk hown (nodup_of_append hsplit) (hown r hr n hmem) hadd
  have hmd : settlingAll.OnReturn (volumes.forM fun p =>
      p.2.createMd p.1 args.maxPeers (args.bitmapBlockSizes.bind (List.lookup p.1)) args.md) :=
    Frame.onReturn_forM _ fun p _ => settled_of_settling (settling_createMd p.1 p.2 _ _ _)
  exact h₁.fresh.settled (hmd _ _ _ hret)

/-- No config shows the number of volumes. -/
theorem Fresh.setNumVolumes (h : Fresh w) (numVolumes : Nat) :
    Fresh (w.setResource r fun resource => { resource with numVolumes := numVolumes }) := by
  refine h.setResource_hidden (fun _ => rfl) ?_
  simp only [World.resourceView, World.members, World.setResource_resource, if_pos]
  rfl

theorem own_setNumVolumes (h : OwnMembers w) (numVolumes : Nat) :
    OwnMembers (w.setResource r fun resource => { resource with numVolumes := numVolumes }) :=
  h.congr (congrArg Layout.mesh (layout_setResource fun _ => rfl))

theorem Fresh.addDisk {args : Resource.AddDiskArgs} {number : Nat} (h : Fresh w)
    (hown : OwnMembers w) (hr : r ∈ w.resources)
    (hret : Returns (Resource.addDisk r args) w number w') : Fresh w' := by
  obtain ⟨number, w₁, hnext, hret⟩ := returns_bind.mp hret
  obtain ⟨_, w₂, hadd, hret⟩ := returns_bind.mp hret
  obtain ⟨-, rfl⟩ := returns_pure.mp hret
  obtain ⟨-, rfl⟩ := nextVolume_returns hnext
  exact (h.setNumVolumes _).addDiskOnMembers (own_setNumVolumes hown _) hr hadd

theorem Fresh.removeStoragePool {u : PUnit} (h : Fresh w) (hown : OwnMembers w)
    (hr : r ∈ w.resources) (hmark : (Op.removeStoragePool r).MarksConfigs w)
    (hret : Returns (Resource.removeStoragePool r) w u w') : Fresh w' := by
  unfold Resource.removeStoragePool at hret
  rw [returns_get_bind] at hret
  obtain ⟨_, w₁, hloop, hret⟩ := returns_bind.mp hret
  obtain ⟨_, w₂, hset, hret⟩ := returns_bind.mp hret
  rw [returns_modify] at hset
  subst hset
  -- each iteration keeps the condition, and so keeps the configs current
  have hI : Fresh w₁ ∧ w₁.layout.mesh = w.layout.mesh ∧
      ((∀ n ∈ w.members r, (w₁.node n).disks = []) ∨ ∀ m ∈ w.members r, ¬ Relies w₁ m) := by
    refine Returns.forM_invariant (fun _ (w₁ : World) => Fresh w₁ ∧
      w₁.layout.mesh = w.layout.mesh ∧
      ((∀ n ∈ w.members r, (w₁.node n).disks = []) ∨ ∀ m ∈ w.members r, ¬ Relies w₁ m))
      hloop ⟨h, rfl, hmark⟩ ?_
    rintro pre n post u₁ u₂ hsplit ⟨hfresh, hmesh, hcond⟩ hstep
    have hn : n ∈ w.members r := by
      rw [hsplit]
      simp
    have hmembers : u₁.members (u₁.node n).resource = w.members r := by
      rw [show (u₁.node n).resource = (w.node n).resource from
        congrFun (congrArg Layout.nodeResource hmesh) n, hown r hr n hn, members_of_mesh hmesh]
    have hmark₁ : (Op.removeDisks n).MarksConfigs u₁ := by
      rcases hcond with hempty | hrel
      · exact Or.inr (Or.inl (hempty n hn))
      · refine Or.inr (Or.inr ?_)
        rw [hmembers]
        exact hrel
    have hmesh₂ := (keepingMesh_removeDisks n).rel_of_returns hstep
    refine ⟨hfresh.removeDisks (hown.congr hmesh) hmark₁ hstep, hmesh₂.trans hmesh, ?_⟩
    obtain ⟨u₃, hstill, rfl⟩ := removeDisks_returns hstep
    rcases hcond with hempty | hrel
    · refine Or.inl fun m hm => ?_
      rw [World.clearDisks, World.setNode_node]
      split
      · rfl
      · rw [graph_disks (graph_of_unchanging hstill)]
        exact hempty m hm
    · refine Or.inr fun m hm hrelies => hrel m hm ((relies_of_unchanging hstill m).mp ?_)
      refine ⟨?_, hrelies.2⟩
      have hflag := hrelies.1
      rw [World.clearDisks, World.setNode_node] at hflag
      split at hflag
      · rename_i hmn
        rw [hmn]
        exact hflag
      · exact hflag
  have hpools : settlingAll.OnReturn (w.hosts.forM Host.removeStoragePool) :=
    Frame.onReturn_forM _ fun k _ => settled_of_settling (n := 0) (settling_hostRemoveStoragePool k)
  exact (hI.1.setNumVolumes 0).settled (hpools _ _ _ hret)

/-! ## The remaining calls -/

theorem Fresh.addNode {u : PUnit} (h : Fresh w) (hown : OwnMembers w)
    (hret : Returns (Resource.addNode r n) w u w') : Fresh w' := by
  obtain ⟨w₁, rfl, rfl⟩ := addNode_returns hret
  exact h.setResource_touch hown

theorem Fresh.removeNode {u : PUnit} (h : Fresh w) (hown : OwnMembers w)
    (hret : Returns (Resource.removeNode r n) w u w') : Fresh w' := by
  obtain ⟨w₁, rfl, rfl⟩ := removeNode_returns hret
  exact h.setResource_touch hown

theorem Fresh.setOption {f : Resource → Resource} {u : PUnit} (h : Fresh w) (hown : OwnMembers w)
    (hret : Returns (Resource.setOption r f) w u w') : Fresh w' := by
  obtain ⟨_, w₁, hset, htouch⟩ := returns_bind.mp hret
  rw [returns_modify] at hset
  subst hset
  rw [Resource.touchConfig, returns_modify] at htouch
  subst htouch
  exact h.setResource_touch hown

theorem Fresh.setTiebreaker {object : ObjectId} {value : Option Bool} {u : PUnit} (h : Fresh w)
    (hown : OwnMembers w) (hret : Returns (Volume.setTiebreaker n object value) w u w') :
    Fresh w' := by
  obtain ⟨_, w₁, hset, hret⟩ := returns_bind.mp hret
  rw [returns_modify] at hset
  subst hset
  rw [returns_get_bind, Resource.touchConfig, returns_modify, World.setNode_node, if_pos rfl] at hret
  subst hret
  exact h.setNode_touch hown

theorem Fresh.rename {newName : String} {u : PUnit} (h : Fresh w) (hown : OwnMembers w)
    (hret : Returns (Resource.rename r newName) w u w') : Fresh w' := by
  unfold Resource.rename at hret
  rw [returns_get_bind] at hret
  obtain ⟨_, w₁, hloop, hret⟩ := returns_bind.mp hret
  obtain ⟨_, w₂, hevent, hret⟩ := returns_bind.mp hret
  have hruns : settlingAll.OnReturn ((w.members r).forM fun n => do
      let _ ← Node.run n ["drbdsetup", "rename-resource", (w.resource r).name, newName]) :=
    Frame.onReturn_forM _ fun m _ => settled_of_settling
      (Frame.OnReturn.bind (settling_nodeRunWith true false m _) fun _ => Frame.onReturn_pure _)
  have hs : settlingAll.rel w w₂ := settlingAll.trans (hruns _ _ _ hloop)
    (settled_of_settling (n := 0) (settling_of_asking (asking_event _ _)) _ _ _ hevent)
  have hown₂ := hown.congr (congrArg Layout.mesh (layout_of_graph hs.1))
  exact (h.settled hs).setOption hown₂ hret

/-- The flags of all members are set after `touch_config` of all resources. -/
theorem fresh_of_touchAll {u : PUnit} (hret : Returns (w.resources.forM Resource.touchConfig) w u w') :
    Fresh w' := by
  have hI : w'.graph = w.graph ∧
      ∀ r ∈ w.resources, ∀ n ∈ w.members r, (w'.node n).configChanged = true := by
    refine Returns.forM_invariant (fun done (w' : World) => w'.graph = w.graph ∧
      ∀ r ∈ done, ∀ n ∈ w.members r, (w'.node n).configChanged = true) hret ⟨rfl, by simp⟩ ?_
    rintro pre r post w₁ w₂ - ⟨hg, hflags⟩ hstep
    rw [Resource.touchConfig, returns_modify] at hstep
    subst hstep
    refine ⟨(graph_touch w₁ _).trans hg, fun s hs n hn => ?_⟩
    rw [touch_node]
    split
    · rfl
    · rename_i hout
      rcases List.mem_append.mp hs with hs | hs
      · exact hflags s hs n hn
      · obtain rfl := List.mem_singleton.mp hs
        exact absurd ((graph_members hg s).symm ▸ hn) hout
  intro r hr n hn
  rw [graph_resources hI.1] at hr
  rw [graph_members hI.1] at hn
  refine current_of_not_relies fun hrel => ?_
  rw [Relies, hI.2 r hr n hn] at hrel
  exact absurd hrel.1 (by simp)

theorem fresh_installDrbd {h : HostId} {version : String} {u : PUnit}
    (hret : Returns (Host.installDrbd h version) w u w') : Fresh w' := by
  obtain ⟨_, w₁, -, hret⟩ := returns_bind.mp hret
  obtain ⟨_, w₂, -, hret⟩ := returns_bind.mp hret
  obtain ⟨_, w₃, -, hret⟩ := returns_bind.mp hret
  rw [returns_get_bind] at hret
  exact fresh_of_touchAll hret

/-- What is not part of the new resource has not changed. -/
theorem Building.current (hB : Building w w') (hw : WellFormed w) (hr : r ∈ w.resources)
    (hn : n ∈ w.members r) (hown : (w.node n).resource = r) (h : Current w n) : Current w' n := by
  have hlt := Nat.ne_of_lt (hw.resources_lt r hr)
  have hview : ∀ m, m < w.nodeCount → w'.nodeView m = w.nodeView m := by
    intro m hm
    simp only [World.nodeView, hB.node m hm, hB.hostInfo]
  have hnode := hB.node n (hw.members_lt r hr n hn)
  have hup : w'.uploaded n = w.uploaded n := by
    rw [World.uploaded, hB.record, World.uploaded]
  refine h.congr (Or.inl (by rw [hnode])) hup ?_
  refine config_of_views hB.settings (by rw [hnode]) ?_ (hview n (hw.members_lt r hr n hn))
  rw [hown]
  exact resourceView_congr (hB.resource r hlt) fun m hm => hview m (hw.members_lt r hr m hm)

theorem Fresh.createResource {name : Option String} (h : Fresh w) (hown : OwnMembers w)
    (hw : WellFormed w) (hret : Returns (Cluster.createResource name) w r w') : Fresh w' := by
  obtain ⟨-, w₁, hB, -, rfl⟩ := createResource_returns hret
  intro s hs n hn
  change s ∈ w₁.resources ++ [w.resourceCount] at hs
  change n ∈ w₁.members s at hn
  change Current w₁ n
  rw [hB.resources] at hs
  rcases List.mem_append.mp hs with hs | hs
  · have hlt := Nat.ne_of_lt (hw.resources_lt s hs)
    rw [World.members, hB.resource s hlt] at hn
    exact hB.current hw hs hn (hown s hs n hn) (h s hs n hn)
  · obtain rfl := List.mem_singleton.mp hs
    obtain ⟨h₁, h₂⟩ := (hB.members n).mp hn
    refine current_of_not_relies fun hrel => ?_
    rw [Relies, (hB.newNode n h₁ h₂).configChanged] at hrel
    exact absurd hrel.1 (by simp)

/-! ## Runs -/

/-- One call that returns, made when its condition holds. -/
theorem Fresh.step {op : Op} (h : Fresh w) (hown : OwnMembers w) (hw : WellFormed w)
    (hmark : op.MarksConfigs w) (hstep : op.Step w w') : Fresh w' := by
  obtain ⟨href, hret⟩ := hstep
  cases op with
  | createResource name =>
    obtain ⟨r, hret⟩ := returns_drop.mp hret
    exact h.createResource hown hw hret
  | createStoragePool thin discardGranularity =>
    have hpools : settlingAll.OnReturn (Cluster.createStoragePool thin discardGranularity) :=
      Frame.OnReturn.bind Frame.onReturn_get fun w => Frame.onReturn_forM _ fun k _ =>
        settled_of_settling (n := 0) (settling_hostCreateStoragePool k thin _)
    exact h.settled (hpools _ _ _ hret)
  | addDisk r args =>
    obtain ⟨number, hret⟩ := returns_drop.mp hret
    exact h.addDisk hown href hret
  | nextVolume r =>
    obtain ⟨number, hret⟩ := returns_drop.mp hret
    obtain ⟨-, rfl⟩ := nextVolume_returns hret
    exact h.setNumVolumes _
  | nodeAddDisk n number size args =>
    obtain ⟨volume, hret⟩ := returns_drop.mp hret
    exact h.nodeAddDisk hown hmark hret
  | removeDisks n => exact h.removeDisks hown hmark hret
  | removeStoragePool r => exact h.removeStoragePool hown href hmark hret
  | setNetOptions r value => exact h.setOption hown hret
  | setDiskOptions r value => exact h.setOption hown hret
  | setResourceOptions r value => exact h.setOption hown hret
  | setHandlers r value => exact h.setOption hown hret
  | setFencingMode r mode => exact h.setFencingMode hown href hret
  | setTiebreaker n object value => exact h.setTiebreaker hown hret
  | addNode r n => exact h.addNode hown hret
  | removeNode r n => exact h.removeNode hown hret
  | rename r newName => exact h.rename hown hret
  | installDrbd k version => exact fresh_installDrbd hret
  | run n updateConfig catching cmd =>
    obtain ⟨out, hret⟩ := returns_drop.mp hret
    exact h.settled (settled_of_settling (settling_nodeRunWith updateConfig catching n cmd) _ _ _ hret)

theorem Meshed.own (h : Meshed w) : OwnMembers w := h.members_own

/-- In every run of calls that return and meet the condition, a member whose flag is not set
and that has uploaded a config has uploaded the one it would generate now. -/
theorem uploaded_configs_current {ops : List Op} (h₀ : w₀.Initial)
    (run : Run (Guarded (fun w (op : Op) => op.MarksConfigs w) fun w op w' => op.Step w w')
      w₀ ops w) :
    ∀ r ∈ w.resources, ∀ n ∈ w.members r, (w.node n).configChanged = false →
      ∀ text, w.uploaded n = some text → Node.config w n = .ok text := by
  have hempty : Fresh w₀ ∧ Meshed w₀ := by
    refine ⟨?_, meshed_of_initial h₀⟩
    intro r hr
    simp [h₀.resources_nil] at hr
  have hI : Fresh w ∧ Meshed w := by
    refine Run.invariant (I := fun w => Fresh w ∧ Meshed w) run hempty ?_
    rintro w op w' ⟨hfresh, hmeshed⟩ ⟨hmark, hstep⟩
    refine ⟨hfresh.step hmeshed.own hmeshed.toWellFormed hmark hstep, ?_⟩
    exact hmeshed.step hmark.addsOwnNode (meshStep_of_attempt hstep.attempt)
  exact hI.1

/-- A run with devices, in which every condition is met: the node whose volume is replaced
is taken out of the resource before, and added again. -/
def freshRun : List Op :=
  [.createResource none,
    .addDisk 0 ⟨"1G", none, .default, none, none, ⟨none, false, false, false, false⟩⟩,
    .run 0 true false ["drbdadm", "up"], .run 1 true false ["drbdadm", "up"],
    .removeNode 0 1, .nodeAddDisk 1 0 none .default, .addNode 0 1,
    .setNetOptions 0 "verify-alg sha1;", .run 1 true false ["drbdadm", "adjust"]]

theorem uploaded_configs_current_rejoining :
    ∃ text, (Op.afterAll (World.plain 2) freshRun).uploaded 1 = some text ∧
      Node.config (Op.afterAll (World.plain 2) freshRun) 1 = .ok text := by
  have hrun : Op.Allowed (fun w op => op.MarksConfigs w ∧ op.Succeeds w) (World.plain 2) freshRun ∧
      0 ∈ (Op.afterAll (World.plain 2) freshRun).resources ∧
      1 ∈ (Op.afterAll (World.plain 2) freshRun).members 0 ∧
      ((Op.afterAll (World.plain 2) freshRun).node 1).configChanged = false ∧
      ((Op.afterAll (World.plain 2) freshRun).uploaded 1).isSome := by
    decide +kernel
  obtain ⟨hallowed, hresource, hmember, hflag, hsome⟩ := hrun
  obtain ⟨text, htext⟩ := Option.isSome_iff_exists.mp hsome
  exact ⟨text, htext, uploaded_configs_current (plain_initial 2) (Op.run_of_succeeds hallowed)
    0 hresource 1 hmember hflag text htext⟩

/-- Without the condition: the peer of a node whose volume is replaced by a diskless one
keeps its flag and its old config. -/
def staleRun : List Op :=
  [.createResource none,
    .addDisk 0 ⟨"1G", none, .default, none, none, ⟨none, false, false, false, false⟩⟩,
    .run 0 true false ["drbdadm", "up"], .run 1 true false ["drbdadm", "up"],
    .nodeAddDisk 1 0 none .default]

theorem stale_config_after_node_add_disk :
    Run (fun w (op : Op) w' => op.Step w w') (World.plain 2) staleRun
      (Op.afterAll (World.plain 2) staleRun) ∧
    0 ∈ (Op.afterAll (World.plain 2) staleRun).resources ∧
    0 ∈ (Op.afterAll (World.plain 2) staleRun).members 0 ∧
    ((Op.afterAll (World.plain 2) staleRun).node 0).configChanged = false ∧
    ∃ text, (Op.afterAll (World.plain 2) staleRun).uploaded 0 = some text ∧
      Node.config (Op.afterAll (World.plain 2) staleRun) 0 ≠ .ok text := by
  have hrun : Op.Allowed (fun w op => True ∧ op.Succeeds w) (World.plain 2) staleRun ∧
      0 ∈ (Op.afterAll (World.plain 2) staleRun).resources ∧
      0 ∈ (Op.afterAll (World.plain 2) staleRun).members 0 ∧
      ((Op.afterAll (World.plain 2) staleRun).node 0).configChanged = false ∧
      ∃ text ∈ (Op.afterAll (World.plain 2) staleRun).uploaded 0,
        Node.config (Op.afterAll (World.plain 2) staleRun) 0 ≠ .ok text := by
    decide +kernel
  obtain ⟨hallowed, hresource, hmember, hflag, hdiffer⟩ := hrun
  have run := Op.run_of_succeeds hallowed
  exact ⟨run.of_guarded, hresource, hmember, hflag, hdiffer⟩

end DrbdTests
