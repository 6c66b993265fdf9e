import DrbdTests.Cluster.Creation
import DrbdTests.Lib.Issuer

/-!
# Device minors

Every host issues minors from its counter. A `Volume` takes the next one when it is made,
unless there is already a volume at its position of the disks of the node: then it takes the
minor of that one. All this is before the devices are created, so a minor can be given to a
position and then not be stored.

`World.minors` is the issuer that the hosts, and the positions of the disks of their nodes,
make up. What `Node.add_disk` gives is `Node.givenMinors`; all other calls at most drop what is
stored.
-/

namespace DrbdTests

open Stateful Runs Issuers

/-- The minor of the volume at a position of the disks of a node. -/
def World.minorAt (w : World) (n : NodeId) (position : Nat) : Option Nat :=
  (w.node n).disks[position]?.map Volume.minor

def World.minors (w : World) : Issuer HostId (NodeId × Nat) where
  counter h := (w.host h).minors
  owner slot := (w.node slot.1).host
  held slot := if slot.1 < w.nodeCount then w.minorAt slot.1 slot.2 else none

theorem minors_held {w : World} {n : NodeId} (hn : n < w.nodeCount) (position : Nat) :
    w.minors.held (n, position) = w.minorAt n position := if_pos hn

def keepingMinors : Frame World := Frame.fixing World.minors

/-- Minors are counted on and volumes are dropped. -/
def droppingMinors : Frame World where
  rel w w' := Drops w.minors w'.minors
  refl w := Drops.refl w.minors
  trans h h' := h.trans h'

theorem droppingMinors_of_keeping {α : Type} {m : Py α} (h : keepingMinors.Holds m) :
    droppingMinors.Holds m :=
  h.mono fun w w' hw => by
    change Drops w.minors w'.minors
    rw [show w'.minors = w.minors from hw]
    exact Drops.refl _

/-! ## Calls that keep the minors -/

theorem minors_setHost {w : World} {h : HostId} {f : Host → Host}
    (hf : ∀ host, (f host).minors = host.minors) : (w.setHost h f).minors = w.minors := by
  have hcounter : (fun k => ((w.setHost h f).host k).minors) = fun k => (w.host k).minors := by
    ext k
    rw [World.setHost_host]
    split
    · subst k
      exact hf _
    · rfl
  unfold World.minors
  rw [hcounter]
  rfl

theorem minors_setNode {w : World} {n : NodeId} {f : Node → Node}
    (hh : ∀ node, (f node).host = node.host)
    (hd : ∀ node, (f node).disks.map Volume.minor = node.disks.map Volume.minor) :
    (w.setNode n f).minors = w.minors := by
  have howner : ∀ m, ((w.setNode n f).node m).host = (w.node m).host := by
    intro m
    rw [World.setNode_node]
    split
    · subst m
      exact hh _
    · rfl
  have hminor : ∀ m position, (w.setNode n f).minorAt m position = w.minorAt m position := by
    intro m position
    unfold World.minorAt
    rw [World.setNode_node]
    split
    · subst m
      rw [← List.getElem?_map, hd, List.getElem?_map]
    · rfl
  unfold World.minors
  simp only [howner, hminor]
  rfl

theorem keepingMinors_objects : ObjectFrame keepingMinors where
  requests _ _ := rfl
  newObject _ := rfl
  setOptions _ _ _ := minors_setHost fun _ => rfl
  setPool _ _ _ := minors_setHost fun _ => rfl
  setFlag _ _ _ := minors_setNode (fun _ => rfl) fun _ => rfl
  setInfo _ _ _ := minors_setHost fun _ => rfl
  setResource _ _ _ _ := rfl
  setFencing _ _ _ := minors_setNode (fun _ => rfl) fun _ => rfl

theorem minors_touch (w : World) (nodes : List NodeId) : (w.touch nodes).minors = w.minors :=
  keepingMinors_objects.attributes.touch w nodes

/-! ## Disks are removed -/

theorem drops_clearDisks (w : World) (n : NodeId) : Drops w.minors (w.clearDisks n).minors where
  counter_le _ := Nat.le_refl _
  held slot m hm := by
    obtain ⟨k, position⟩ := slot
    change (if k < w.nodeCount then (w.clearDisks n).minorAt k position else none) = some m at hm
    unfold World.minorAt World.clearDisks at hm
    rw [World.setNode_node] at hm
    by_cases hk : k = n
    · simp [hk] at hm
    · rw [if_neg hk] at hm
      refine ⟨hm, ?_⟩
      change ((w.setNode n _).node k).host = (w.node k).host
      rw [World.setNode_node, if_neg hk]

theorem droppingMinors_removeDisks (n : NodeId) : droppingMinors.Holds (Node.removeDisks n) := by
  refine Frame.holds_bind Frame.holds_get fun w => ?_
  refine Frame.holds_bind (Frame.holds_forM _ fun volume _ => ?_) fun _ => ?_
  · apply droppingMinors_of_keeping
    exact keepingMinors_objects.devices.volumeRemoveDisks volume
  · exact Frame.holds_modify fun w => drops_clearDisks w n

/-! ## Nodes are made -/

/-- New nodes have no disks. -/
theorem Building.drops {w₀ w : World} (h : Building w₀ w) : Drops w₀.minors w.minors where
  counter_le k := Nat.le_of_eq (h.minors k).symm
  held slot m hm := by
    obtain ⟨n, position⟩ := slot
    have hn : n < w.nodeCount := by
      by_contra hn
      change (if n < w.nodeCount then _ else none) = some m at hm
      rw [if_neg hn] at hm
      cases hm
    rw [minors_held hn] at hm
    by_cases hold : n < w₀.nodeCount
    · have hnode := h.node n hold
      unfold World.minorAt at hm
      rw [hnode] at hm
      refine ⟨(minors_held hold position).trans hm, ?_⟩
      change (w.node n).host = (w₀.node n).host
      rw [hnode]
    · have hnew := h.newNode n (Nat.not_lt.mp hold) hn
      unfold World.minorAt at hm
      rw [hnew.disks] at hm
      cases hm

/-! ## A minor is given -/

/-- `Node.add_disk` up to the point where the `Volume` has been made. -/
def Node.makeVolume (n : NodeId) (volumeNumber : Nat) : Py Volume := do
  let w ← get
  let host := (w.node n).host
  when (w.host host).storagePool.isNone (Host.createStoragePool host false none)
  Volume.init n volumeNumber ((w.node n).disks[volumeNumber]?.map Volume.minor)

theorem newVolume_eq (n : NodeId) (volumeNumber : Nat) (size : Option String)
    (args : NodeDiskArgs) : Node.newVolume n volumeNumber size args =
      Node.makeVolume n volumeNumber >>= fun volume => Node.createDisks n volume size args := by
  simp only [Node.newVolume, Node.makeVolume, bind_assoc]

/-- The position where `add_disk` stores a volume. -/
def Node.diskPosition (w : World) (n : NodeId) (volumeNumber : Nat) : Nat :=
  min volumeNumber (w.node n).disks.length

/-- What a call of `Node.add_disk` gives, whether or not the disks can be created. -/
def Node.givenMinors (w : World) (n : NodeId) (volumeNumber : Nat) :
    List (Given HostId (NodeId × Nat)) :=
  match (exec (Node.makeVolume n volumeNumber) w).1 with
  | .ok volume => [⟨(w.node n).host, (n, Node.diskPosition w n volumeNumber), volume.minor⟩]
  | .error _ => []

theorem nextMinor_returns (h : HostId) (w : World) :
    ∃ w', Returns (Host.nextMinor h) w ((w.host h).minors + 1) w' ∧
      w'.minors = w.minors.count h ∧ w'.node = w.node ∧ w'.nodeCount = w.nodeCount := by
  refine ⟨w.setHost h fun host => { host with minors := host.minors + 1 }, ?_, ?_, rfl, rfl⟩
  · unfold Host.nextMinor
    have hminor : ((w.setHost h fun host => { host with minors := host.minors + 1 }).host h).minors =
        (w.host h).minors + 1 := by
      rw [World.setHost_host, if_pos rfl]
    rw [Returns, exec_bind_of_ok (exec_modify _ _), exec_get_bind, hminor]
    rfl
  · have hcounter : (fun k => ((w.setHost h fun host =>
          { host with minors := host.minors + 1 }).host k).minors) =
        Function.update (fun k => (w.host k).minors) h ((w.host h).minors + 1) := by
      ext k
      rw [World.setHost_host, Function.update_apply]
      split
      · rfl
      · rfl
    unfold World.minors Issuer.count
    rw [hcounter]
    rfl

theorem volumeInit_next (n : NodeId) (number : Nat) (w : World) :
    ∃ volume w', Returns (Volume.init n number none) w volume w' ∧
      volume.minor = (w.host (w.node n).host).minors + 1 ∧
      w'.minors = w.minors.count (w.node n).host := by
  obtain ⟨u, hnext, hminors, -, -⟩ := nextMinor_returns (w.node n).host w
  let volume : Volume := ⟨u.objectCount, number, (w.host (w.node n).host).minors + 1, none, none,
    none, none, none⟩
  refine ⟨volume, { u with objectCount := u.objectCount + 1 }, ?_, rfl, hminors⟩
  unfold Volume.init
  rw [returns_get_bind]
  exact Returns.bind hnext rfl

/-- The `Volume` either takes the minor of the one at its position, or the next minor of the
host. -/
theorem makeVolume_cases (n : NodeId) (volumeNumber : Nat) (w : World) :
    (∃ e u, exec (Node.makeVolume n volumeNumber) w = (.error e, u) ∧ u.minors = w.minors) ∨
    ∃ volume u, Returns (Node.makeVolume n volumeNumber) w volume u ∧
      (w.minorAt n volumeNumber = some volume.minor ∧ u.minors = w.minors ∨
        w.minorAt n volumeNumber = none ∧
          volume.minor = (w.host (w.node n).host).minors + 1 ∧
          u.minors = w.minors.count (w.node n).host) := by
  have hpool : keepingMinors.Holds (when (w.host (w.node n).host).storagePool.isNone
      (Host.createStoragePool (w.node n).host false none)) :=
    Frame.holds_when fun _ => keepingMinors_objects.pools.hostCreateStoragePool _ false none
  have hu := hpool w
  unfold Node.makeVolume
  simp only [Returns, exec_get_bind]
  rcases h : exec (when (w.host (w.node n).host).storagePool.isNone
      (Host.createStoragePool (w.node n).host false none)) w with ⟨e | ⟨⟩, u⟩
  · rw [h] at hu
    refine Or.inl ⟨e, u, ?_, hu⟩
    rw [exec_bind_of_error h]
  · rw [h] at hu
    change u.minors = w.minors at hu
    right
    have hhost : (u.node n).host = (w.node n).host :=
      congrFun (congrArg Issuer.owner hu) (n, volumeNumber)
    have hcounter : ∀ k, (u.host k).minors = (w.host k).minors :=
      congrFun (congrArg Issuer.counter hu)
    rcases hold : (w.node n).disks[volumeNumber]? with _ | old
    · obtain ⟨volume, u', hr, hminor, hu'⟩ := volumeInit_next n volumeNumber u
      refine ⟨volume, u', ?_, Or.inr ⟨?_, ?_, ?_⟩⟩
      · rw [exec_bind_of_ok h]
        exact hr
      · rw [World.minorAt, hold]
        rfl
      · rw [hminor, hhost, hcounter]
      · rw [hu', hu, hhost]
    · refine ⟨⟨u.objectCount, volumeNumber, old.minor, none, none, none, none, none⟩,
        { u with objectCount := u.objectCount + 1 }, ?_, Or.inl ⟨?_, hu⟩⟩
      · rw [exec_bind_of_ok h]
        rfl
      · rw [World.minorAt, hold]
        rfl

/-! ## A volume is stored -/

theorem minorAt_storeVolume (w : World) (n : NodeId) (volumeNumber : Nat) (volume : Volume)
    (m : NodeId) (position : Nat) :
    (w.storeVolume n volumeNumber volume).minorAt m position =
      if (m, position) = (n, Node.diskPosition w n volumeNumber) then some volume.minor
      else w.minorAt m position := by
  unfold World.minorAt Node.diskPosition World.storeVolume
  simp only [Prod.mk.injEq]
  rw [World.setNode_node]
  by_cases hm : m = n
  · subst m
    rw [if_pos rfl]
    dsimp only
    by_cases hlt : volumeNumber < (w.node n).disks.length
    · rw [if_pos hlt, Nat.min_eq_left (Nat.le_of_lt hlt), List.getElem?_set]
      by_cases hp : volumeNumber = position
      · subst position
        simp [hlt]
      · simp [hp, Ne.symm hp]
    · rw [if_neg hlt, Nat.min_eq_right (Nat.not_lt.mp hlt)]
      by_cases hp : position = (w.node n).disks.length
      · simp [hp]
      · rw [if_neg (by simp [hp]), List.getElem?_append]
        split
        · rfl
        · rename_i hge
          rw [List.getElem?_eq_none (by simp; omega), List.getElem?_eq_none (by omega)]
  · rw [if_neg hm, if_neg (by simp [hm])]

theorem minors_storeVolume {w : World} {n : NodeId} (hn : n < w.nodeCount) (volumeNumber : Nat)
    (volume : Volume) : (w.storeVolume n volumeNumber volume).minors =
      w.minors.store (n, Node.diskPosition w n volumeNumber) volume.minor := by
  have howner : (w.storeVolume n volumeNumber volume).minors.owner = w.minors.owner := by
    ext1 ⟨m, position⟩
    change ((w.storeVolume n volumeNumber volume).node m).host = (w.node m).host
    rw [World.storeVolume, World.setNode_node]
    split
    · subst m
      rfl
    · rfl
  have hheld : (w.storeVolume n volumeNumber volume).minors.held = Function.update w.minors.held
      (n, Node.diskPosition w n volumeNumber) (some volume.minor) := by
    ext1 ⟨m, position⟩
    change (if m < w.nodeCount then _ else none) = _
    rw [minorAt_storeVolume, Function.update_apply]
    by_cases hslot : (m, position) = (n, Node.diskPosition w n volumeNumber)
    · have hm : m = n := congrArg Prod.fst hslot
      rw [if_pos hslot, if_pos hslot, hm, if_pos hn]
    · rw [if_neg hslot, if_neg hslot]
      rfl
  unfold Issuer.store
  rw [← hheld, ← howner]
  rfl

/-! ## `Node.add_disk` -/

theorem keepingGraph_makeVolume (n : NodeId) (volumeNumber : Nat) :
    keepingGraph.Holds (Node.makeVolume n volumeNumber) := by
  refine Frame.holds_bind Frame.holds_get fun w => ?_
  refine Frame.holds_bind (Frame.holds_when fun _ => ?_) fun _ => ?_
  · exact keepingGraph_commands.pools.hostCreateStoragePool _ false none
  · exact keepingGraph_of_unchanging (unchanging_volumeInit n volumeNumber _)

theorem diskPosition_of_graph {w w' : World} (h : w'.graph = w.graph) (n : NodeId)
    (volumeNumber : Nat) : Node.diskPosition w' n volumeNumber = Node.diskPosition w n volumeNumber := by
  rw [Node.diskPosition, graph_disks h, Node.diskPosition]

/-- The minor of a volume is given to its position before its disks are created, and the
volume is stored after that. -/
theorem issued_addDisk {given : List (Given HostId (NodeId × Nat))} {w : World} {n : NodeId}
    (h : Issued given w.minors) (hn : n < w.nodeCount) (volumeNumber : Nat)
    (size : Option String) (args : NodeDiskArgs) :
    Issued (given ++ Node.givenMinors w n volumeNumber)
      (exec (Node.addDisk n volumeNumber size args) w).2.minors := by
  have hgraph := keepingGraph_makeVolume n volumeNumber w
  unfold Node.addDisk
  rw [newVolume_eq, bind_assoc]
  rcases makeVolume_cases n volumeNumber w with ⟨e, u, hexec, hu⟩ | ⟨volume, u, hr, hcase⟩
  · rw [exec_bind_of_error hexec, Node.givenMinors, hexec, List.append_nil, hu]
    exact h
  · have hexec : exec (Node.makeVolume n volumeNumber) w = (.ok volume, u) := hr
    rw [hexec] at hgraph
    rw [exec_bind_of_ok hexec, Node.givenMinors, hexec]
    let g : Given HostId (NodeId × Nat) :=
      ⟨(w.node n).host, (n, Node.diskPosition w n volumeNumber), volume.minor⟩
    have hgiven : Issued (given ++ [g]) u.minors := by
      rcases hcase with ⟨hold, hu⟩ | ⟨-, hminor, hu⟩
      · have hposition : Node.diskPosition w n volumeNumber = volumeNumber := by
          apply Nat.min_eq_left
          by_contra hlt
          rw [World.minorAt, List.getElem?_eq_none (by omega)] at hold
          cases hold
        rw [hu]
        refine h.giveAgain (x := (n, Node.diskPosition w n volumeNumber)) ?_
        rw [hposition, minors_held hn, hold]
      · have hg : g = ⟨(w.node n).host, (n, Node.diskPosition w n volumeNumber),
            w.minors.counter (w.node n).host + 1⟩ := congrArg (Given.mk _ _) hminor
        rw [hu, hg]
        exact h.giveNext _ _
    have hkeep : keepingMinors.Holds (Node.createDisks n volume size args) :=
      (keepingMinors_objects.node n).createDisks volume size args
    have hgraph' : keepingGraph.Holds (Node.createDisks n volume size args) :=
      (keepingGraph_commands.node n).createDisks volume size args
    have hu' := hkeep u
    have hg' := hgraph' u
    rcases hdisks : exec (Node.createDisks n volume size args) u with ⟨e | volume', u'⟩
    · rw [hdisks] at hu'
      rw [exec_bind_of_error hdisks, show u'.minors = u.minors from hu']
      exact hgiven
    · rw [hdisks] at hu' hg'
      rw [exec_bind_of_ok hdisks]
      have hgraph : u'.graph = w.graph := (show u'.graph = u.graph from hg').trans hgraph
      have hn' : n < u'.nodeCount := by
        rw [graph_nodeCount hgraph]
        exact hn
      change Issued _ (u'.storeVolume n volumeNumber volume').minors
      rw [minors_storeVolume hn', show u'.minors = u.minors from hu']
      apply hgiven.store
      have hminor : volume'.minor = volume.minor := (nodeCreateDisks_returns hdisks).2.1
      have howner : u.minors.owner (n, Node.diskPosition u' n volumeNumber) = (w.node n).host := by
        rw [← show u'.minors = u.minors from hu']
        exact graph_nodeHost hgraph n
      rw [howner, hminor, diskPosition_of_graph hgraph]
      exact List.mem_append_right _ (List.mem_singleton.mpr rfl)

/-- Whatever number a disk is added with, the positions that have a volume keep its minor. -/
theorem minorAt_addDisk {w : World} {n n' : NodeId} {position m : Nat}
    (h : w.minorAt n' position = some m) (volumeNumber : Nat) (size : Option String)
    (args : NodeDiskArgs) :
    (exec (Node.addDisk n volumeNumber size args) w).2.minorAt n' position = some m := by
  have hkeep : ∀ {w' : World}, w'.graph = w.graph → w'.minorAt n' position = some m := by
    intro w' hw'
    rw [World.minorAt, graph_disks hw']
    exact h
  rcases addDisk_cases n volumeNumber size args w with ⟨e, -, hw'⟩ | ⟨volume, u, hnew, hu, hr⟩
  · exact hkeep hw'
  · rw [show exec (Node.addDisk n volumeNumber size args) w = _ from hr]
    change (u.storeVolume n volumeNumber volume).minorAt n' position = some m
    rw [minorAt_storeVolume]
    split
    · rename_i hslot
      rw [diskPosition_of_graph hu, Prod.mk.injEq] at hslot
      obtain ⟨hn, hposition⟩ := hslot
      subst n'
      obtain ⟨old, hold, hminor⟩ := Option.map_eq_some_iff.mp h
      -- the position has a volume, so it is the one with the number
      have hlt : position < (w.node n).disks.length := (List.getElem?_eq_some_iff.mp hold).1
      have hnumber : volumeNumber = position := by
        unfold Node.diskPosition at hposition
        omega
      obtain ⟨-, -, hsame⟩ := newVolume_returns hnew
      rw [hsame old (by rw [hnumber]; exact hold), hminor]
    · exact hkeep hu

/-! ## `Resource.add_disk` -/

/-- What the first loop of `Resource.add_disk` gives: it ends with the first node on which
`Node.add_disk` raises. -/
def Resource.givenMinors (volumeNumber : Nat) (args : AddDiskArgs) :
    List (NodeId × Volume) → List NodeId → World → List (Given HostId (NodeId × Nat))
  | _, [], _ => []
  | diskfulVolumes, n :: nodes, w =>
    Node.givenMinors w n volumeNumber ++
      match exec (addDiskOn volumeNumber args diskfulVolumes n) w with
      | (.ok diskfulVolumes, w') => givenMinors volumeNumber args diskfulVolumes nodes w'
      | (.error _, _) => []

theorem nodeCount_addDiskOn (volumeNumber : Nat) (args : Resource.AddDiskArgs)
    (diskfulVolumes : List (NodeId × Volume)) (n : NodeId) (w : World) :
    (exec (Resource.addDiskOn volumeNumber args diskfulVolumes n) w).2.nodeCount =
      w.nodeCount := by
  have hmesh : keepingMesh.Holds (Resource.addDiskOn volumeNumber args diskfulVolumes n) := by
    refine Frame.holds_ite (fun _ => ?_) fun _ => ?_
    · exact Frame.holds_bind (keepingMesh_addDisk n _ _ _) fun _ => Frame.holds_pure _
    · exact Frame.holds_bind (keepingMesh_addDisk n _ _ _) fun _ => Frame.holds_pure _
  exact congrArg Layout.nodeCount (hmesh w)

variable {given : List (Given HostId (NodeId × Nat))} {w w' : World}

theorem issued_addDiskOn (h : Issued given w.minors) {n : NodeId} (hn : n < w.nodeCount)
    (volumeNumber : Nat) (args : Resource.AddDiskArgs) (diskfulVolumes : List (NodeId × Volume)) :
    Issued (given ++ Node.givenMinors w n volumeNumber)
      (exec (Resource.addDiskOn volumeNumber args diskfulVolumes n) w).2.minors := by
  unfold Resource.addDiskOn
  split
  · rw [exec_map_snd]
    exact issued_addDisk h hn volumeNumber _ _
  · rw [exec_map_snd]
    exact issued_addDisk h hn volumeNumber _ _

theorem issued_addDiskLoop (volumeNumber : Nat) (args : Resource.AddDiskArgs)
    (diskfulVolumes : List (NodeId × Volume)) (nodes : List NodeId) (h : Issued given w.minors)
    (hnodes : ∀ n ∈ nodes, n < w.nodeCount) :
    Issued (given ++ Resource.givenMinors volumeNumber args diskfulVolumes nodes w)
      (exec (nodes.foldlM (Resource.addDiskOn volumeNumber args) diskfulVolumes) w).2.minors := by
  induction nodes generalizing given diskfulVolumes w with
  | nil =>
    rw [Resource.givenMinors, List.append_nil]
    exact h
  | cons n nodes ih =>
    have hn := issued_addDiskOn h (hnodes n (by simp)) volumeNumber args diskfulVolumes
    have hcount := nodeCount_addDiskOn volumeNumber args diskfulVolumes n w
    rw [List.foldlM_cons, Resource.givenMinors, ← List.append_assoc]
    rcases hexec : exec (Resource.addDiskOn volumeNumber args diskfulVolumes n) w with
      ⟨e | volumes, u⟩
    · rw [hexec] at hn
      rw [exec_bind_of_error hexec, List.append_nil]
      exact hn
    · rw [hexec] at hn hcount
      rw [exec_bind_of_ok hexec]
      apply ih volumes hn
      intro m hm
      rw [show u.nodeCount = w.nodeCount from hcount]
      exact hnodes m (by simp [hm])

/-! ## Calls -/

/-- The minors that a call gives, in order. -/
def Op.givenMinors (op : Op) (w : World) : List (Given HostId (NodeId × Nat)) :=
  match op with
  | .nodeAddDisk n volumeNumber _ _ => Node.givenMinors w n volumeNumber
  | .addDisk r args =>
    let w' := (Stateful.exec (Resource.nextVolume r) w).2
    Resource.givenMinors (w.resource r).numVolumes args [] (w'.members r) w'
  | _ => []

theorem exec_nextVolume (r : ResourceId) (w : World) :
    exec (Resource.nextVolume r) w = (.ok (w.resource r).numVolumes,
      w.setResource r fun resource =>
        { resource with numVolumes := (w.resource r).numVolumes + 1 }) := rfl

theorem issued_addDiskOnMembers (r : ResourceId) (volumeNumber : Nat)
    (args : Resource.AddDiskArgs) (h : Issued given w.minors)
    (hmembers : ∀ n ∈ w.members r, n < w.nodeCount) :
    Issued (given ++ Resource.givenMinors volumeNumber args [] (w.members r) w)
      (exec (Resource.addDiskOnMembers r volumeNumber args) w).2.minors := by
  have hloop := issued_addDiskLoop volumeNumber args [] (w.members r) h hmembers
  unfold Resource.addDiskOnMembers
  rw [exec_get_bind]
  rcases hexec : exec ((w.members r).foldlM (Resource.addDiskOn volumeNumber args) []) w with
    ⟨e | volumes, u⟩
  · rw [hexec] at hloop
    rw [exec_bind_of_error hexec]
    exact hloop
  · rw [hexec] at hloop
    rw [exec_bind_of_ok hexec]
    have hkeep : keepingMinors.Holds (volumes.forM fun p : NodeId × Volume => p.2.createMd p.1
        args.maxPeers (args.bitmapBlockSizes.bind (List.lookup p.1)) args.md) :=
      Frame.holds_forM _ fun p _ => (keepingMinors_objects.node p.1).volumeCreateMd p.2 _ _ _
    rw [show (exec (volumes.forM _) u).2.minors = u.minors from hkeep u]
    exact hloop

theorem dropping_exec {op : Op} (hop : ∀ r args, op ≠ .addDisk r args)
    (hop' : ∀ n number size args, op ≠ .nodeAddDisk n number size args) :
    droppingMinors.Holds op.exec := by
  cases op with
  | addDisk r args => exact absurd rfl (hop r args)
  | nodeAddDisk n number size args => exact absurd rfl (hop' n number size args)
  | createResource name =>
    refine Frame.holds_bind (fun w => ?_) fun _ => Frame.holds_pure _
    rcases createResource_cases name w with ⟨e, w₁, hexec, hB⟩ | ⟨w₁, hB, -, hr⟩
    · rw [hexec]
      exact hB.drops
    · rw [show exec (Cluster.createResource name) w = _ from hr]
      exact hB.drops
  | removeDisks n => exact droppingMinors_removeDisks n
  | removeStoragePool r =>
    refine Frame.holds_bind Frame.holds_get fun w => ?_
    refine Frame.holds_bind (Frame.holds_forM _ fun n _ => droppingMinors_removeDisks n) fun _ => ?_
    apply droppingMinors_of_keeping
    refine Frame.holds_bind (Frame.holds_modify fun w => ?_) fun _ => ?_
    · exact keepingMinors_objects.setResource w r _ fun _ => rfl
    · exact Frame.holds_forM _ fun h _ => keepingMinors_objects.pools.hostRemoveStoragePool h
  | setTiebreaker n object value =>
    apply droppingMinors_of_keeping
    refine Frame.holds_bind (Frame.holds_modify fun w => ?_) fun _ => ?_
    · apply minors_setNode
      · exact fun _ => rfl
      · intro node
        rw [List.map_map]
        apply List.map_congr_left
        intro v _
        dsimp only [Function.comp_apply]
        split
        · rfl
        · rfl
    · exact Frame.holds_bind Frame.holds_get fun w => keepingMinors_objects.attributes.touchConfig _
  | addNode r n =>
    apply droppingMinors_of_keeping
    intro w
    rcases addNode_cases r n w with ⟨e, hexec⟩ | ⟨w₁, hw₁, hr⟩
    · rw [Op.exec, hexec]
      rfl
    · rw [Op.exec, show exec (Resource.addNode r n) w = _ from hr]
      change (w₁.touch _).minors = w.minors
      rw [minors_touch, hw₁]
      rfl
  | removeNode r n =>
    apply droppingMinors_of_keeping
    intro w
    rcases removeNode_cases r n w with ⟨e, hexec⟩ | ⟨w₁, hw₁, hr⟩
    · rw [Op.exec, hexec]
      rfl
    · rw [Op.exec, show exec (Resource.removeNode r n) w = _ from hr]
      change (w₁.touch _).minors = w.minors
      rw [minors_touch, hw₁]
      rfl
  | createStoragePool | nextVolume | setNetOptions | setDiskOptions | setResourceOptions
  | setHandlers | setFencingMode | rename | installDrbd | run =>
    exact droppingMinors_of_keeping (keepingMinors_objects.exec trivial)

/-- What a call gives has not been given to another position, whether the call returns or
raises. -/
theorem issued_attempt {op : Op} (hw : WellFormed w) (h : Issued given w.minors)
    (hop : op.Attempt w w') : Issued (given ++ op.givenMinors w) w'.minors := by
  obtain ⟨href, hw'⟩ := hop
  rw [hw']
  have hother : op.givenMinors w = [] → droppingMinors.Holds op.exec →
      Issued (given ++ op.givenMinors w) (exec op.exec w).2.minors := by
    intro hnil hdrop
    rw [hnil, List.append_nil]
    exact h.drops (hdrop w)
  cases op with
  | addDisk r args =>
    have hmembers : ∀ n ∈ (exec (Resource.nextVolume r) w).2.members r, n < w.nodeCount := by
      intro n hn
      apply hw.members_lt r href n
      rw [exec_nextVolume, World.members, World.setResource_resource, if_pos rfl] at hn
      exact hn
    rw [Op.exec, exec_map_snd, Resource.addDisk, exec_bind_of_ok (exec_nextVolume r w), exec_map_snd]
    exact issued_addDiskOnMembers r _ args h hmembers
  | nodeAddDisk n volumeNumber size args =>
    rw [Op.exec, exec_map_snd]
    exact issued_addDisk h href volumeNumber size args
  | _ => exact hother rfl (dropping_exec (by simp) (by simp))

/-! ## Runs -/

/-- A call, with the minors it gives added to those given before. -/
def Op.Gives (op : Op) (s s' : List (Given HostId (NodeId × Nat)) × World) : Prop :=
  op.Attempt s.2 s'.2 ∧ s'.1 = s.1 ++ op.givenMinors s.2

theorem issued_of_run {w₀ : World} {ops : List Op} (h₀ : w₀.Initial)
    (run : Run (fun s (op : Op) s' => op.Gives s s') ([], w₀) ops (given, w)) :
    WellFormed w ∧ Issued given w.minors := by
  refine run.invariant (I := fun s => WellFormed s.2 ∧ Issued s.1 s.2.minors) ?_ ?_
  · refine ⟨wellFormed_of_initial h₀, issued_nil fun slot => ?_⟩
    change (if slot.1 < w₀.nodeCount then _ else none) = none
    rw [h₀.nodeCount_zero]
    rfl
  · intro s op s' h hstep
    obtain ⟨hop, hgiven⟩ := hstep
    rw [hgiven]
    exact ⟨h.1.step (meshStep_of_attempt hop), issued_attempt h.1 h.2 hop⟩

/-- In every state of every run, whatever its calls raise, the minors of the volumes on a host
are pairwise distinct; `Node.add_disk` keeps the minors of the positions that have a volume; no
minor of a host was ever given to two positions, and what is stored was given. -/
theorem minors_distinct {w₀ : World} {ops : List Op} (h₀ : w₀.Initial)
    (run : Run (fun s (op : Op) s' => op.Gives s s') ([], w₀) ops (given, w)) :
    (∀ n < w.nodeCount, ∀ n' < w.nodeCount, (w.node n).host = (w.node n').host →
      ∀ position position' m, w.minorAt n position = some m → w.minorAt n' position' = some m →
        n = n' ∧ position = position') ∧
    (∀ n volumeNumber size args,
      (∀ n' position m, w.minorAt n' position = some m →
        (exec (Node.addDisk n volumeNumber size args) w).2.minorAt n' position = some m) ∧
      ∀ volume w' m, Returns (Node.addDisk n volumeNumber size args) w volume w' →
        w.minorAt n volumeNumber = some m → volume.minor = m) ∧
    (∀ g ∈ given, ∀ g' ∈ given, g.issuer = g'.issuer → g.number = g'.number →
      g.slot = g'.slot) ∧
    ∀ n < w.nodeCount, ∀ position m, w.minorAt n position = some m →
      ⟨(w.node n).host, (n, position), m⟩ ∈ given := by
  obtain ⟨-, h⟩ := issued_of_run h₀ run
  refine ⟨?_, ?_, ?_, ?_⟩
  · intro n hn n' hn' hhost position position' m hm hm'
    rw [← minors_held hn] at hm
    rw [← minors_held hn'] at hm'
    have hslot := h.distinct hm hm' hhost
    exact ⟨congrArg Prod.fst hslot, congrArg Prod.snd hslot⟩
  · intro n volumeNumber size args
    refine ⟨fun n' position m hm => minorAt_addDisk hm volumeNumber size args, ?_⟩
    intro volume w' m hr hm
    rcases addDisk_cases n volumeNumber size args w with ⟨e, he, -⟩ | ⟨volume', u, hnew, -, hr'⟩
    · rw [show exec (Node.addDisk n volumeNumber size args) w = _ from hr] at he
      cases he
    · obtain ⟨old, hold, hminor⟩ := Option.map_eq_some_iff.mp hm
      rw [(hr.unique hr').1, (newVolume_returns hnew).2.2 old hold, hminor]
  · intro g hg g' hg' hissuer hnumber
    exact congrArg Given.slot (h.unique g hg g' hg' hissuer hnumber)
  · intro n hn position m hm
    rw [← minors_held hn] at hm
    exact h.listed (n, position) m hm

/-- Whatever run is made, its minors can be listed. -/
theorem exists_given {w₀ : World} {ops : List Op}
    (run : Run (fun w (op : Op) w' => op.Attempt w w') w₀ ops w) :
    ∃ given, Run (fun s (op : Op) s' => op.Gives s s') ([], w₀) ops (given, w) := by
  induction run with
  | nil => exact ⟨[], .nil⟩
  | @snoc ops t u op run hop ih =>
    obtain ⟨given, hgiven⟩ := ih
    exact ⟨given ++ op.givenMinors t, .snoc hgiven ⟨hop, rfl⟩⟩

/-- Two resources on one host; a disk of the first one is replaced. -/
def replaceRun : List Op :=
  [.createResource none, .createResource none,
    .nodeAddDisk 0 0 none .default, .nodeAddDisk 1 0 none .default, .nodeAddDisk 0 0 none .default]

theorem minors_distinct_replaced :
    (∃ given, Run (fun s (op : Op) s' => op.Gives s s') ([], World.plain 1) replaceRun
      (given, Op.afterAll (World.plain 1) replaceRun) ∧
      ∀ g ∈ given, ∀ g' ∈ given, g.issuer = g'.issuer → g.number = g'.number →
        g.slot = g'.slot) ∧
    (Op.afterAll (World.plain 1) replaceRun).minorAt 0 0 = some 1 ∧
    (Op.afterAll (World.plain 1) replaceRun).minorAt 1 0 = some 2 := by
  refine ⟨?_, by decide +kernel, by decide +kernel⟩
  have hallowed : Op.Allowed (fun _ _ => True) (World.plain 1) replaceRun := by decide +kernel
  obtain ⟨given, run⟩ := exists_given (Op.run_of_allowed hallowed).of_guarded
  exact ⟨given, run, (minors_distinct (plain_initial 1) run).2.2.1⟩

end DrbdTests
