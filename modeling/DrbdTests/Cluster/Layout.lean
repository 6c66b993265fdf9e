import DrbdTests.Cluster.Operations
import DrbdTests.Lib.Runs

/-!
# Layout

Which resources and nodes there are, which nodes are members of which resource, and the
disks and connections of every node. Most calls leave all of this alone (`keepingLayout`);
those that change disks leave the rest of it alone (`keepingMesh`). What is left are
`add_node` and `remove_node`, described here, and `create_resource`.
-/

namespace DrbdTests

open Stateful Runs

structure Layout where
  nodeCount : Nat
  resourceCount : Nat
  resources : List ResourceId
  members : ResourceId → OrderedSet NodeId
  nodeResource : NodeId → ResourceId
  connections : NodeId → OrderedSet Connection
  disks : NodeId → List Volume

def World.layout (w : World) : Layout where
  nodeCount := w.nodeCount
  resourceCount := w.resourceCount
  resources := w.resources
  members r := (w.resource r).nodes
  nodeResource n := (w.node n).resource
  connections n := (w.node n).connections
  disks n := (w.node n).disks

/-- The layout without the disks. -/
def Layout.mesh (l : Layout) : Layout := { l with disks := fun _ => [] }

def keepingLayout : Frame World := Frame.fixing World.layout

def keepingMesh : Frame World := Frame.fixing fun w => w.layout.mesh

theorem layout_of_graph {w w' : World} (h : w'.graph = w.graph) : w'.layout = w.layout := by
  have hn := graph_node h
  simp only [Node.mk.injEq] at hn
  unfold World.layout
  simp only [graph_nodeCount h, graph_resourceCount h, graph_resources h, graph_resource h, hn]

theorem keepingLayout_of_graph {α : Type} {m : Py α} (h : keepingGraph.Holds m) :
    keepingLayout.Holds m := h.mono fun _ _ => layout_of_graph

theorem keepingMesh_of_layout {α : Type} {m : Py α} (h : keepingLayout.Holds m) :
    keepingMesh.Holds m := h.mono fun _ _ => congrArg Layout.mesh

theorem keepingMesh_of_graph {α : Type} {m : Py α} (h : keepingGraph.Holds m) :
    keepingMesh.Holds m := keepingMesh_of_layout (keepingLayout_of_graph h)

/-! ## Updates -/

theorem layout_setNode {w : World} {n : NodeId} {f : Node → Node}
    (hr : ∀ node, (f node).resource = node.resource)
    (hc : ∀ node, (f node).connections = node.connections)
    (hd : ∀ node, (f node).disks = node.disks) : (w.setNode n f).layout = w.layout := by
  unfold World.layout
  congr 1 <;> funext m <;> rw [World.setNode_node] <;> split <;> simp [*]

theorem mesh_setNode {w : World} {n : NodeId} {f : Node → Node}
    (hr : ∀ node, (f node).resource = node.resource)
    (hc : ∀ node, (f node).connections = node.connections) :
    (w.setNode n f).layout.mesh = w.layout.mesh := by
  unfold World.layout Layout.mesh
  congr 1 <;> funext m <;> dsimp only <;> rw [World.setNode_node] <;> split <;> simp [*]

theorem layout_setResource {w : World} {r : ResourceId} {f : Resource → Resource}
    (hn : ∀ resource, (f resource).nodes = resource.nodes) :
    (w.setResource r f).layout = w.layout := by
  unfold World.layout
  congr 1
  funext s
  rw [World.setResource_resource]
  split <;> simp [*]

theorem layout_setFlag (w : World) (n : NodeId) (value : Bool) :
    (w.setFlag n value).layout = w.layout := layout_of_graph (graph_setFlag w n value)

theorem graph_touch (w : World) (nodes : List NodeId) : (w.touch nodes).graph = w.graph := by
  unfold World.touch
  induction nodes generalizing w with
  | nil => rfl
  | cons n nodes ih => rw [List.foldl_cons, ih, graph_setFlag]

theorem layout_touch (w : World) (nodes : List NodeId) : (w.touch nodes).layout = w.layout :=
  layout_of_graph (graph_touch w nodes)

/-! ## Calls that keep the layout -/

/-- What is done for pools stays within the frame, and so do commands without an effect and
the changes of attributes that are neither names, disks nor members. -/
structure AttributeFrame (F : Frame World) : Prop extends PoolFrame F where
  asking : ∀ w w', asking.rel w w' → F.rel w w'
  setFlag : ∀ w n value, F.rel w (w.setFlag n value)
  setInfo : ∀ w h (f : HostInfo → HostInfo),
    F.rel w (w.setHost h fun host => { host with info := f host.info })
  setResource : ∀ w r (f : Resource → Resource),
    (∀ resource, (f resource).nodes = resource.nodes) →
    (∀ resource, (f resource).name = resource.name) → F.rel w (w.setResource r f)
  setFencing : ∀ w n mode,
    F.rel w (w.setNode n fun node => { node with fencingMode := mode, configChanged := true })

/-- What commands do stays within the frame, and so do the changes of attributes that are
neither disks nor members. -/
structure ObjectFrame (F : Frame World) : Prop extends CommandFrame F where
  setInfo : ∀ w h (f : HostInfo → HostInfo),
    F.rel w (w.setHost h fun host => { host with info := f host.info })
  setResource : ∀ w r (f : Resource → Resource),
    (∀ resource, (f resource).nodes = resource.nodes) →
    F.rel w (w.setResource r f)
  setFencing : ∀ w n mode,
    F.rel w (w.setNode n fun node => { node with fencingMode := mode, configChanged := true })

theorem keepingGraph_touchConfig (r : ResourceId) : keepingGraph.Holds (Resource.touchConfig r) :=
  Frame.holds_modify fun w => graph_touch w _

theorem keepingLayout_objects : ObjectFrame keepingLayout where
  requests _ _ := rfl
  newObject _ := rfl
  setOptions _ _ _ := rfl
  setPool _ _ _ := rfl
  setFlag := layout_setFlag
  setInfo _ _ _ := rfl
  setResource _ _ _ h := layout_setResource h
  setFencing _ _ _ := layout_setNode (fun _ => rfl) (fun _ => rfl) fun _ => rfl

theorem holds_groupOf {α : Type} {F : Frame World} (m : Option α) : F.Holds (groupOf m) := by
  cases m with
  | none => exact Frame.holds_throw _
  | some a => exact Frame.holds_pure a

/-- What holds for commands and for `setInfo` holds for `read_drbd_version`. -/
theorem holds_readDrbdVersion {F : Frame World} (h : HostId)
    (hrun : ∀ cmd, F.Holds (Host.run h cmd)) (hinfo : ∀ f, F.Holds (Host.setInfo h f)) :
    F.Holds (Host.readDrbdVersion h) := by
  refine Frame.holds_bind Frame.holds_get fun w => ?_
  split
  · refine Frame.holds_bind (hrun _) fun _ => Frame.holds_bind (hrun _) fun out => ?_
    split
    · refine Frame.holds_bind (holds_groupOf _) fun version => ?_
      refine Frame.holds_bind (hinfo _) fun _ => Frame.holds_bind (holds_groupOf _) fun hash => ?_
      refine Frame.holds_bind (hinfo _) fun _ => Frame.holds_bind (holds_groupOf _) fun tuple => ?_
      exact hinfo _
    · exact Frame.holds_throw _
  · refine Frame.holds_bind (hrun _) fun out => ?_
    refine Frame.holds_bind (Frame.holds_forM _ fun line _ => ?_) fun _ => ?_
    · -- the value is only asked for in the lines that name a version
      unfold WindowsPlatformHelper.readVersionLine
      refine Frame.holds_bind (Frame.holds_when fun _ => ?_) fun _ => Frame.holds_when fun _ => ?_
      all_goals
        refine Frame.holds_bind ?_ fun v => hinfo _
        rcases (line.splitOn '=').map String.ofList with _ | ⟨_, _ | ⟨v, _⟩⟩
        · exact Frame.holds_throw _
        · exact Frame.holds_throw _
        · exact Frame.holds_pure v
    · refine Frame.holds_bind Frame.holds_get fun w => ?_
      exact Frame.holds_bind (holds_groupOf _) fun tuple => hinfo _

/-- The calls that change nothing of the layout. -/
def Op.KeepsLayout : Op → Prop
  | .createStoragePool _ _ | .nextVolume _ | .setNetOptions _ _ | .setDiskOptions _ _
  | .setResourceOptions _ _ | .setHandlers _ _ | .setFencingMode _ _ | .rename _ _
  | .installDrbd _ _ | .run _ _ _ _ => True
  | _ => False

/-- Those of them that change the attributes of objects. -/
def Op.SetsAttributes : Op → Prop
  | .createStoragePool _ _ | .nextVolume _ | .setNetOptions _ _ | .setDiskOptions _ _
  | .setResourceOptions _ _ | .setHandlers _ _ | .setFencingMode _ _ | .installDrbd _ _ => True
  | _ => False

namespace AttributeFrame

variable {F : Frame World} (hF : AttributeFrame F)

include hF

theorem holds_asking {α : Type} {m : Py α} (h : DrbdTests.asking.Holds m) : F.Holds m :=
  h.mono hF.asking

theorem touch (w : World) (nodes : List NodeId) : F.rel w (w.touch nodes) := by
  unfold World.touch
  induction nodes generalizing w with
  | nil => exact F.refl w
  | cons n nodes ih => exact F.trans (hF.setFlag w n true) (ih _)

theorem touchConfig (r : ResourceId) : F.Holds (Resource.touchConfig r) :=
  Frame.holds_modify fun w => hF.touch w _

theorem setOption {r : ResourceId} {f : Resource → Resource}
    (hn : ∀ resource, (f resource).nodes = resource.nodes)
    (hname : ∀ resource, (f resource).name = resource.name) : F.Holds (Resource.setOption r f) :=
  Frame.holds_bind (Frame.holds_modify fun w => hF.setResource w r f hn hname) fun _ =>
    hF.touchConfig r

theorem hostSetInfo (h : HostId) (f : HostInfo → HostInfo) : F.Holds (Host.setInfo h f) :=
  Frame.holds_modify fun w => hF.setInfo w h f

theorem installDrbd (h : HostId) (version : String) : F.Holds (Host.installDrbd h version) := by
  refine Frame.holds_bind (hF.holds_asking (asking_rmmod h)) fun _ => ?_
  refine Frame.holds_bind (hF.holds_asking (asking_runHelper h _ _)) fun _ => ?_
  refine Frame.holds_bind (holds_readDrbdVersion h ?_ (hF.hostSetInfo h)) fun _ => ?_
  · exact fun cmd => hF.holds_asking (asking_run h cmd)
  · refine Frame.holds_bind Frame.holds_get fun w => Frame.holds_forM _ fun r _ => ?_
    exact hF.touchConfig r

theorem setFencingMode (r : ResourceId) (mode : String) :
    F.Holds (Resource.setFencingMode r mode) :=
  Frame.holds_bind Frame.holds_get fun _ => Frame.holds_forM _ fun n _ =>
    Frame.holds_modify fun w => hF.setFencing w n mode

theorem nextVolume (r : ResourceId) : F.Holds (Resource.nextVolume r) := by
  refine Frame.holds_bind Frame.holds_get fun w => ?_
  refine Frame.holds_bind (Frame.holds_modify fun w => ?_) fun _ => Frame.holds_pure _
  exact hF.setResource w r _ (fun _ => rfl) fun _ => rfl

theorem exec {op : Op} (h : op.SetsAttributes) : F.Holds op.exec := by
  cases op with
  | createStoragePool thin discardGranularity =>
    refine Frame.holds_bind Frame.holds_get fun w => Frame.holds_forM _ fun h _ => ?_
    exact hF.hostCreateStoragePool h thin _
  | nextVolume r => exact Frame.holds_bind (hF.nextVolume r) fun _ => Frame.holds_pure _
  | setNetOptions r value => exact hF.setOption (fun _ => rfl) fun _ => rfl
  | setDiskOptions r value => exact hF.setOption (fun _ => rfl) fun _ => rfl
  | setResourceOptions r value => exact hF.setOption (fun _ => rfl) fun _ => rfl
  | setHandlers r value => exact hF.setOption (fun _ => rfl) fun _ => rfl
  | setFencingMode r mode => exact hF.setFencingMode r mode
  | installDrbd host version => exact hF.installDrbd host version
  | createResource | addDisk | nodeAddDisk | removeDisks | removeStoragePool | setTiebreaker
  | addNode | removeNode | rename | run => cases h

end AttributeFrame

namespace ObjectFrame

variable {F : Frame World} (hF : ObjectFrame F)

include hF

/-- A larger frame allows as much. -/
theorem mono {G : Frame World} (hFG : ∀ w w', F.rel w w' → G.rel w w') : ObjectFrame G where
  requests w requests := hFG _ _ (hF.requests w requests)
  newObject w := hFG _ _ (hF.newObject w)
  setOptions w h answer := hFG _ _ (hF.setOptions w h answer)
  setPool w h pool := hFG _ _ (hF.setPool w h pool)
  setFlag w n value := hFG _ _ (hF.setFlag w n value)
  setInfo w h f := hFG _ _ (hF.setInfo w h f)
  setResource w r f h := hFG _ _ (hF.setResource w r f h)
  setFencing w n mode := hFG _ _ (hF.setFencing w n mode)

theorem attributes : AttributeFrame F where
  toPoolFrame := hF.pools
  asking w w' h := by
    rw [h.1]
    exact hF.requests w w'.requests
  setFlag := hF.setFlag
  setInfo := hF.setInfo
  setResource w r f h _ := hF.setResource w r f h
  setFencing := hF.setFencing

theorem rename (r : ResourceId) (newName : String) : F.Holds (Resource.rename r newName) := by
  refine Frame.holds_bind Frame.holds_get fun w => ?_
  refine Frame.holds_bind (Frame.holds_forM _ fun n _ => ?_) fun _ => ?_
  · exact Frame.holds_bind ((hF.node n).runWith true false _) fun _ => Frame.holds_pure _
  · refine Frame.holds_bind (hF.of_asking (asking_event _ _)) fun _ => ?_
    refine Frame.holds_bind (Frame.holds_modify fun w => ?_) fun _ =>
      hF.attributes.touchConfig r
    exact hF.setResource w r _ fun _ => rfl

theorem exec {op : Op} (h : op.KeepsLayout) : F.Holds op.exec := by
  cases op with
  | rename r newName => exact hF.rename r newName
  | run n updateConfig catching cmd =>
    exact Frame.holds_bind ((hF.node n).runWith updateConfig catching cmd) fun _ => Frame.holds_pure _
  | createStoragePool | nextVolume | setNetOptions | setDiskOptions | setResourceOptions
  | setHandlers | setFencingMode | installDrbd => exact hF.attributes.exec trivial
  | createResource | addDisk | nodeAddDisk | removeDisks | removeStoragePool | setTiebreaker
  | addNode | removeNode => cases h

end ObjectFrame

theorem keepingLayout_exec {op : Op} (h : op.KeepsLayout) : keepingLayout.Holds op.exec :=
  keepingLayout_objects.exec h

/-! ## Calls that change disks -/

theorem volumeInit_returns {n : NodeId} {number : Nat} {minor : Option Nat} {w w' : World}
    {volume : Volume} (h : Returns (Volume.init n number minor) w volume w') :
    volume.volume = number ∧ volume.tiebreaker = none ∧ volume.diskVolume = none ∧
      volume.metaVolume = none ∧ ∀ m, minor = some m → volume.minor = m := by
  unfold Volume.init at h
  rw [returns_get_bind] at h
  cases minor with
  | none =>
    obtain ⟨m, u, _, h⟩ := returns_bind.mp h
    obtain ⟨object, u', _, h⟩ := returns_bind.mp h
    obtain ⟨rfl, rfl⟩ := returns_pure.mp h
    exact ⟨rfl, rfl, rfl, rfl, by simp⟩
  | some m =>
    obtain ⟨m', u, hm, h⟩ := returns_bind.mp h
    obtain ⟨object, u', _, h⟩ := returns_bind.mp h
    obtain ⟨rfl, rfl⟩ := returns_pure.mp hm
    obtain ⟨rfl, rfl⟩ := returns_pure.mp h
    exact ⟨rfl, rfl, rfl, rfl, by simp⟩

/-- What the devices of a volume do not change. -/
def Volume.SameIdentity (volume volume' : Volume) : Prop :=
  volume'.volume = volume.volume ∧ volume'.minor = volume.minor ∧
    volume'.tiebreaker = volume.tiebreaker

theorem volumeCreateDisks_returns {n : NodeId} {volume volume' : Volume} {size : String}
    {args : NodeDiskArgs} {w w' : World} (h : Returns (volume.createDisks n size args) w volume' w') :
    volume.SameIdentity volume' := by
  unfold Volume.createDisks at h
  rw [returns_get_bind] at h
  obtain ⟨diskVolume, u, _, h⟩ := returns_bind.mp h
  rcases hm : args.metaSize with _ | metaSize
  · simp only [hm] at h
    obtain ⟨rfl, rfl⟩ := returns_pure.mp h
    exact ⟨rfl, rfl, rfl⟩
  · simp only [hm] at h
    split at h
    · obtain ⟨rfl, rfl⟩ := returns_pure.mp h
      exact ⟨rfl, rfl, rfl⟩
    · obtain ⟨metaVolume, u', _, h⟩ := returns_bind.mp h
      obtain ⟨rfl, rfl⟩ := returns_pure.mp h
      exact ⟨rfl, rfl, rfl⟩

theorem nodeCreateDisks_returns {n : NodeId} {volume volume' : Volume} {size : Option String}
    {args : NodeDiskArgs} {w w' : World}
    (h : Returns (Node.createDisks n volume size args) w volume' w') :
    volume.SameIdentity volume' := by
  cases size with
  | none =>
    obtain ⟨rfl, rfl⟩ := returns_pure.mp h
    exact ⟨rfl, rfl, rfl⟩
  | some size =>
    obtain ⟨v, u, hv, h⟩ := returns_bind.mp h
    obtain ⟨_, u', _, h⟩ := returns_bind.mp h
    obtain ⟨rfl, rfl⟩ := returns_pure.mp h
    exact volumeCreateDisks_returns hv

/-- A new volume has the given number, and the minor of the volume it replaces. -/
theorem newVolume_returns {n : NodeId} {number : Nat} {size : Option String} {args : NodeDiskArgs}
    {w w' : World} {volume : Volume}
    (h : Returns (Node.newVolume n number size args) w volume w') :
    volume.volume = number ∧ volume.tiebreaker = none ∧
      ∀ old, (w.node n).disks[number]? = some old → volume.minor = old.minor := by
  unfold Node.newVolume at h
  rw [returns_get_bind] at h
  obtain ⟨_, u, _, h⟩ := returns_bind.mp h
  obtain ⟨v, u', hv, h⟩ := returns_bind.mp h
  obtain ⟨hnumber, htie, -, -, hminor⟩ := volumeInit_returns hv
  obtain ⟨h1, h2, h3⟩ := nodeCreateDisks_returns h
  refine ⟨h1.trans hnumber, h3.trans htie, fun old hold => ?_⟩
  rw [h2, hminor old.minor (by rw [hold]; rfl)]

/-- `Node.add_disk` either raises before it has changed a disk, or it ends by storing a
volume with the given number. -/
theorem addDisk_cases (n : NodeId) (volumeNumber : Nat) (size : Option String)
    (args : NodeDiskArgs) (w : World) :
    (∃ e, (exec (Node.addDisk n volumeNumber size args) w).1 = .error e ∧
      (exec (Node.addDisk n volumeNumber size args) w).2.graph = w.graph) ∨
    ∃ volume u, Returns (Node.newVolume n volumeNumber size args) w volume u ∧
      u.graph = w.graph ∧
      Returns (Node.addDisk n volumeNumber size args) w volume
        (u.storeVolume n volumeNumber volume) := by
  have hgraph := keepingGraph_newVolume n volumeNumber size args w
  unfold Node.addDisk
  rcases h : exec (Node.newVolume n volumeNumber size args) w with ⟨e | volume, u⟩
  · rw [h] at hgraph
    rw [exec_bind_of_error h]
    exact Or.inl ⟨e, rfl, hgraph⟩
  · rw [h] at hgraph
    refine Or.inr ⟨volume, u, h, hgraph, ?_⟩
    rw [Returns, exec_bind_of_ok h]
    rfl

/-- The calls that change disks and nothing else of the layout. -/
def Op.ChangesDisks : Op → Prop
  | .addDisk _ _ | .nodeAddDisk _ _ _ _ | .removeDisks _ | .removeStoragePool _
  | .setTiebreaker _ _ _ => True
  | _ => False

/-- The nodes on which a call has commands run, after their configs have been updated. -/
def Op.runsOn (w : World) : Op → List NodeId
  | .addDisk r _ | .rename r _ => w.members r
  | .nodeAddDisk n _ _ _ | .run n _ _ _ => [n]
  | _ => []

theorem nextVolume_returns {r : ResourceId} {number : Nat} {w w' : World}
    (h : Returns (Resource.nextVolume r) w number w') :
    number = (w.resource r).numVolumes ∧
      w' = w.setResource r fun resource => { resource with numVolumes := number + 1 } := by
  unfold Resource.nextVolume at h
  rw [returns_get_bind] at h
  obtain ⟨_, u, hset, h⟩ := returns_bind.mp h
  rw [returns_modify] at hset
  obtain ⟨rfl, rfl⟩ := returns_pure.mp h
  exact ⟨rfl, hset.symm⟩

/-- The state in which `Resource.add_disk` starts its loops. -/
def World.countVolume (w : World) (r : ResourceId) : World :=
  w.setResource r fun resource => { resource with numVolumes := (w.resource r).numVolumes + 1 }

theorem members_countVolume (w : World) (r s : ResourceId) :
    (w.countVolume r).members s = w.members s := by
  rw [World.members, World.countVolume, World.setResource_resource]
  split
  · subst s
    rfl
  · rfl

theorem exec_addDisk (r : ResourceId) (args : Resource.AddDiskArgs) (w : World) :
    (exec (Op.exec (.addDisk r args)) w).2 =
      (exec (Resource.addDiskOnMembers r (w.resource r).numVolumes args) (w.countVolume r)).2 := by
  have hnext : Returns (Resource.nextVolume r) w (w.resource r).numVolumes (w.countVolume r) := rfl
  change (exec (Resource.addDisk r args >>= fun _ => pure PUnit.unit) w).2 = _
  rw [Resource.addDisk, bind_assoc, exec_bind_of_ok hnext, bind_assoc]
  rcases h : exec (Resource.addDiskOnMembers r (w.resource r).numVolumes args) (w.countVolume r) with
    ⟨e | ⟨⟩, u⟩
  · rw [exec_bind_of_error h]
  · rw [exec_bind_of_ok h]
    rfl

/-- What holds for `Node.add_disk` on the members and for `create_md` holds for the loops
of `Resource.add_disk`. -/
theorem holds_addDiskOnMembers {F : Frame World} (r : ResourceId) (number : Nat)
    (args : Resource.AddDiskArgs) (w : World)
    (hadd : ∀ n ∈ w.members r, ∀ size args, F.Holds (Node.addDisk n number size args))
    (hmd : ∀ n ∈ w.members r, ∀ (volume : Volume) maxPeers bitmapBlockSize md,
      F.Holds (volume.createMd n maxPeers bitmapBlockSize md)) :
    F.rel w (exec (Resource.addDiskOnMembers r number args) w).2 := by
  unfold Resource.addDiskOnMembers
  rw [exec_get_bind]
  have hloop : F.Holds ((w.members r).foldlM (Resource.addDiskOn number args) []) := by
    refine Frame.holds_foldlM _ _ fun volumes n hn => ?_
    refine Frame.holds_ite (fun _ => ?_) fun _ => ?_
    · exact Frame.holds_bind (hadd n hn _ _) fun _ => Frame.holds_pure _
    · exact Frame.holds_bind (hadd n hn _ _) fun _ => Frame.holds_pure _
  have hrel := hloop w
  rcases h : exec ((w.members r).foldlM (Resource.addDiskOn number args) []) w with
    ⟨e | volumes, u⟩
  · rw [exec_bind_of_error h]
    rwa [h] at hrel
  rw [exec_bind_of_ok h]
  rw [h] at hrel
  -- the volumes of the second loop belong to members
  have hvolumes : ∀ p ∈ volumes, p.1 ∈ w.members r := by
    refine Returns.foldlM_invariant (fun _ (volumes : List (NodeId × Volume)) _ =>
      ∀ p ∈ volumes, p.1 ∈ w.members r) h (by simp) ?_
    intro pre n post volumes u volumes' u' hsplit hI hstep
    unfold Resource.addDiskOn at hstep
    split at hstep
    · obtain ⟨volume, _, _, hstep⟩ := returns_bind.mp hstep
      obtain ⟨rfl, -⟩ := returns_pure.mp hstep
      intro p hp
      rcases List.mem_append.mp hp with hp | hp
      · exact hI p hp
      · rw [List.mem_singleton.mp hp, hsplit]
        simp
    · obtain ⟨_, _, _, hstep⟩ := returns_bind.mp hstep
      obtain ⟨rfl, -⟩ := returns_pure.mp hstep
      exact hI
  exact F.trans hrel (Frame.holds_forM _ (fun p hp => hmd p.1 (hvolumes p hp) p.2 _ _ _) u)

/-- What the calls that change disks do stays within the frame, as far as commands on the
nodes of a set are concerned. -/
structure DiskFrame (F : Frame World) (S : NodeId → Prop) : Prop extends AttributeFrame F where
  node : ∀ n, S n → NodeFrame F n
  nextMinor : ∀ h, F.Holds (Host.nextMinor h)
  setDisks : ∀ w n (f : Node → Node),
    (∀ node, { f node with disks := node.disks, configChanged := node.configChanged } = node) →
    F.rel w (w.setNode n f)

namespace DiskFrame

variable {F : Frame World} {S : NodeId → Prop} (hF : DiskFrame F S)

include hF

theorem addDisk {n : NodeId} (hn : S n) (volumeNumber : Nat) (size : Option String)
    (args : NodeDiskArgs) : F.Holds (Node.addDisk n volumeNumber size args) := by
  refine Frame.holds_bind ((hF.node n hn).newVolume hF.nextMinor _ size args) fun volume => ?_
  refine Frame.holds_bind (Frame.holds_modify fun w => ?_) fun _ => Frame.holds_pure _
  exact hF.setDisks w n _ fun _ => rfl

theorem removeDisks (n : NodeId) : F.Holds (Node.removeDisks n) := by
  refine Frame.holds_bind Frame.holds_get fun w => ?_
  refine Frame.holds_bind (Frame.holds_forM _ fun volume _ => hF.volumeRemoveDisks volume) fun _ => ?_
  exact Frame.holds_modify fun w => hF.setDisks w n _ fun _ => rfl

theorem exec {op : Op} {w : World} (h : op.ChangesDisks) (hS : ∀ n ∈ op.runsOn w, S n) :
    F.rel w (Stateful.exec op.exec w).2 := by
  cases op with
  | addDisk r args =>
    have hcount : F.rel w (w.countVolume r) :=
      hF.setResource w r _ (fun _ => rfl) fun _ => rfl
    have hmember : ∀ n ∈ (w.countVolume r).members r, S n := by
      intro n hn
      rw [members_countVolume] at hn
      exact hS n hn
    rw [exec_addDisk]
    refine F.trans hcount (holds_addDiskOnMembers r _ args _ ?_ ?_)
    · exact fun n hn size args => hF.addDisk (hmember n hn) _ size args
    · exact fun n hn volume _ _ md => (hF.node n (hmember n hn)).volumeCreateMd volume _ _ md
  | nodeAddDisk n volumeNumber size args =>
    have hn : S n := hS n (List.mem_singleton_self n)
    exact Frame.holds_bind (hF.addDisk hn volumeNumber size args) (fun _ => Frame.holds_pure _) w
  | removeDisks n => exact hF.removeDisks n w
  | removeStoragePool r =>
    refine Frame.holds_bind Frame.holds_get (fun w => ?_) w
    refine Frame.holds_bind (Frame.holds_forM _ fun n _ => hF.removeDisks n) fun _ => ?_
    refine Frame.holds_bind (Frame.holds_modify fun w => ?_) fun _ => ?_
    · exact hF.setResource w r _ (fun _ => rfl) fun _ => rfl
    · exact Frame.holds_forM _ fun h _ => hF.hostRemoveStoragePool h
  | setTiebreaker n volume value =>
    refine Frame.holds_bind (Frame.holds_modify fun w => ?_) (fun _ => ?_) w
    · exact hF.setDisks w n _ fun _ => rfl
    · exact Frame.holds_bind Frame.holds_get fun w => hF.touchConfig _
  | createResource | createStoragePool | nextVolume | setNetOptions | setDiskOptions
  | setResourceOptions | setHandlers | setFencingMode | rename | installDrbd | run | addNode
  | removeNode => cases h

end DiskFrame

theorem keepingMesh_objects : ObjectFrame keepingMesh := by
  apply keepingLayout_objects.mono
  intro w w' h
  exact congrArg Layout.mesh h

theorem keepingMesh_disks : DiskFrame keepingMesh fun _ => True where
  toAttributeFrame := keepingMesh_objects.attributes
  node n _ := keepingMesh_objects.node n
  nextMinor h := keepingMesh_of_graph (keepingGraph_of_unchanging (unchanging_nextMinor h))
  setDisks w n f hf := by
    refine mesh_setNode (fun node => ?_) fun node => ?_
    · have hresource := congrArg Node.resource (hf node)
      exact hresource
    · have hconnections := congrArg Node.connections (hf node)
      exact hconnections

theorem keepingMesh_addDisk (n : NodeId) (volumeNumber : Nat) (size : Option String)
    (args : NodeDiskArgs) : keepingMesh.Holds (Node.addDisk n volumeNumber size args) :=
  keepingMesh_disks.addDisk trivial volumeNumber size args

theorem keepingMesh_removeDisks (n : NodeId) : keepingMesh.Holds (Node.removeDisks n) :=
  keepingMesh_disks.removeDisks n

theorem keepingMesh_exec {op : Op} (h : op.ChangesDisks) : keepingMesh.Holds op.exec := fun _ =>
  keepingMesh_disks.exec h fun _ _ => trivial

/-! ## Membership -/

/-- `add_node` either raises, or adds the node and marks the configs of all members. -/
theorem addNode_cases (r : ResourceId) (n : NodeId) (w : World) :
    (∃ e, exec (Resource.addNode r n) w = (.error e, w)) ∨
    ∃ w₁, w₁ = w.setResource r (fun resource =>
        { resource with nodes := (w.resource r).nodes.add n }) ∧
      Returns (Resource.addNode r n) w ⟨⟩ (w₁.touch (w₁.members r)) := by
  simp only [Resource.addNode, Returns, exec_get_bind]
  rcases h : Collection.add (fun m => (w.node m).resource) (w.resource r).nodes n with e | nodes
  · exact Or.inl ⟨e, rfl⟩
  · have hnodes := Collection.add_eq_ok h
    subst hnodes
    exact Or.inr ⟨_, rfl, rfl⟩

/-- `remove_node` either raises, or removes the node and marks the remaining members. -/
theorem removeNode_cases (r : ResourceId) (n : NodeId) (w : World) :
    (∃ e, exec (Resource.removeNode r n) w = (.error e, w)) ∨
    ∃ w₁, w₁ = w.setResource r (fun resource =>
        { resource with nodes := (w.resource r).nodes.discard n }) ∧
      Returns (Resource.removeNode r n) w ⟨⟩ (w₁.touch (w₁.members r)) := by
  simp only [Resource.removeNode, Returns, exec_get_bind]
  rcases h : Collection.remove (fun m => (w.node m).resource) (w.resource r).nodes n with e | nodes
  · exact Or.inl ⟨e, rfl⟩
  · have hnodes := Collection.remove_eq_ok h
    subst hnodes
    exact Or.inr ⟨_, rfl, rfl⟩

theorem addNode_returns {r : ResourceId} {n : NodeId} {w w' : World} {u : PUnit}
    (h : Returns (Resource.addNode r n) w u w') : ∃ w₁, w₁ = w.setResource r (fun resource =>
      { resource with nodes := (w.resource r).nodes.add n }) ∧ w' = w₁.touch (w₁.members r) := by
  rcases addNode_cases r n w with ⟨e, hexec⟩ | ⟨w₁, hw₁, hr⟩
  · rw [Returns, hexec] at h
    cases h
  · exact ⟨w₁, hw₁, (h.unique hr).2⟩

theorem removeNode_returns {r : ResourceId} {n : NodeId} {w w' : World} {u : PUnit}
    (h : Returns (Resource.removeNode r n) w u w') : ∃ w₁, w₁ = w.setResource r (fun resource =>
      { resource with nodes := (w.resource r).nodes.discard n }) ∧ w' = w₁.touch (w₁.members r) := by
  rcases removeNode_cases r n w with ⟨e, hexec⟩ | ⟨w₁, hw₁, hr⟩
  · rw [Returns, hexec] at h
    cases h
  · exact ⟨w₁, hw₁, (h.unique hr).2⟩

end DrbdTests
