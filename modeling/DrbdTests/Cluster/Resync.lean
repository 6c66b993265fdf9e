import DrbdTests.Cluster.Selections

/-!
# Waiting for the initial resync

`Resource.initial_resync` waits until the nodes see the disks of their peers as `UpToDate`. It
makes a peer device for each wait: from a node to a peer, for a volume. The nodes are divided into
those with at least one disk and those without any, and the volumes are always those of the first
node with a disk.
-/

namespace DrbdTests

/-- `Nodes.get_diskful` -/
def Nodes.diskful (w : World) (nodes : List NodeId) : Except PyError (OrderedSet NodeId) :=
  Collection.init (fun n => (w.node n).resource) (nodes.filter fun n =>
    (w.node n).disks.any fun volume => volume.disk.isSome)

/-- `Nodes.get_diskless` -/
def Nodes.diskless (w : World) (nodes : List NodeId) : Except PyError (OrderedSet NodeId) :=
  Collection.init (fun n => (w.node n).resource) (nodes.filter fun n =>
    (w.node n).disks.all fun volume => volume.disk.isNone)

/-- `nodes[0].volumes` -/
def Nodes.firstVolumes (w : World) (nodes : OrderedSet NodeId) :
    Except PyError (List HeldVolume) :=
  match nodes.items with
  | [] => .error .indexError
  | first :: _ => .ok ((w.node first).disks.map (HeldVolume.mk first))

/-- `pds.add(PeerDevice(Connection(n1, n2), v))` -/
def PeerDevices.addNew (w : World) (pds : OrderedSet (Connection × HeldVolume)) (n1 n2 : NodeId)
    (v : HeldVolume) : Except PyError (OrderedSet (Connection × HeldVolume)) := do
  let c ← Connection.init w n1 n2
  Collection.add (fun pd => pd.1.resource w) pds (c, v)

/-- `PeerDevices.event` waits for one event of each peer device: of the node, for the peer and the
volume number. Without peer devices it returns at once. -/
def PeerDevices.waits (pds : OrderedSet (Connection × HeldVolume)) : List (NodeId × NodeId × Nat) :=
  pds.items.map fun pd => (pd.1.node1, pd.1.node2, pd.2.volume.volume)

/-- `Resource.initial_resync`: the peer disks for which it waits to be `UpToDate`. -/
def Resource.initialResync (w : World) (r : ResourceId) :
    Except PyError (List (NodeId × NodeId × Nat)) := do
  let diskfulNodes ← Nodes.diskful w (w.members r)
  let disklessNodes ← Nodes.diskless w (w.members r)
  let pds ← disklessNodes.items.foldlM (fun pds dln => do
    let volumes ← Nodes.firstVolumes w diskfulNodes
    volumes.foldlM (fun pds v =>
      diskfulNodes.items.foldlM (fun pds dfn => PeerDevices.addNew w pds dln dfn v) pds) pds)
    OrderedSet.empty
  let pds ← diskfulNodes.items.foldlM (fun pds n1 => do
    let volumes ← Nodes.firstVolumes w diskfulNodes
    volumes.foldlM (fun pds v =>
      diskfulNodes.items.foldlM (fun pds n2 =>
        if n1 ≠ n2 then PeerDevices.addNew w pds n1 n2 v else .ok pds) pds) pds)
    pds
  return PeerDevices.waits pds

open Collection

/-! ## Which peer disks are waited for -/

/-- The node has a disk for the volume number. -/
def World.HasDisk (w : World) (n : NodeId) (number : Nat) : Prop :=
  ∃ v ∈ (w.node n).disks, v.volume = number ∧ v.disk.isSome

instance (w : World) (n : NodeId) (number : Nat) : Decidable (w.HasDisk n number) :=
  inferInstanceAs (Decidable (∃ v ∈ (w.node n).disks, v.volume = number ∧ v.disk.isSome))

/-- The node has a disk for at least one of its volumes. -/
def World.IsDiskful (w : World) (n : NodeId) : Prop := ∃ v ∈ (w.node n).disks, v.disk.isSome

instance (w : World) (n : NodeId) : Decidable (w.IsDiskful n) :=
  inferInstanceAs (Decidable (∃ v ∈ (w.node n).disks, v.disk.isSome))

/-- All nodes of the resource have the same volume numbers. -/
def SameNumbers (w : World) (r : ResourceId) : Prop := ∀ n ∈ w.members r, ∀ m ∈ w.members r,
  ∀ v ∈ (w.node n).disks, ∃ v' ∈ (w.node m).disks, v'.volume = v.volume

/-- The call waits for the disks of all peers, and for nothing else. -/
def WaitsForDisks (w : World) (r : ResourceId) : Prop :=
  ∃ waits, Resource.initialResync w r = .ok waits ∧ ∀ n1 n2 number, (n1, n2, number) ∈ waits ↔
    n1 ∈ w.members r ∧ n2 ∈ w.members r ∧ n1 ≠ n2 ∧ w.HasDisk n2 number

/-- There is a node with a disk, if there is any node; and if there are several nodes, those with
a disk have one for each volume. -/
def DisksComplete (w : World) (r : ResourceId) : Prop :=
  w.members r = [] ∨ (∃ n ∈ w.members r, w.IsDiskful n) ∧ ((w.members r).length = 1 ∨
    ∀ n ∈ w.members r, w.IsDiskful n → ∀ v ∈ (w.node n).disks, w.HasDisk n v.volume)

variable {w : World} {r : ResourceId}

theorem diskful_ok (hmembers : ∀ n ∈ w.members r, (w.node n).resource = r) :
    ∃ s, Nodes.diskful w (w.members r) = .ok s ∧ ∀ n, n ∈ s ↔ n ∈ w.members r ∧ w.IsDiskful n := by
  refine ⟨_, init_ok fun n hn => hmembers n (List.mem_of_mem_filter hn), fun n => ?_⟩
  rw [OrderedSet.mem_ofList, List.mem_filter, List.any_eq_true]
  rfl

theorem diskless_ok (hmembers : ∀ n ∈ w.members r, (w.node n).resource = r) :
    ∃ s, Nodes.diskless w (w.members r) = .ok s ∧
      ∀ n, n ∈ s ↔ n ∈ w.members r ∧ ¬ w.IsDiskful n := by
  refine ⟨_, init_ok fun n hn => hmembers n (List.mem_of_mem_filter hn), fun n => ?_⟩
  rw [OrderedSet.mem_ofList, List.mem_filter, List.all_eq_true, World.IsDiskful]
  simp

theorem adds_addNew {n1 n2 : NodeId} {v : HeldVolume} (h1 : (w.node n1).resource = r)
    (h2 : (w.node n2).resource = r) :
    Adds (fun pd : Connection × HeldVolume => pd.1.resource w) r
      (fun pds => PeerDevices.addNew w pds n1 n2 v) fun pd => pd = (⟨n1, n2⟩, v) := by
  have hinit : Connection.init w n1 n2 = .ok ⟨n1, n2⟩ := if_pos (h1.trans h2.symm)
  unfold PeerDevices.addNew
  rw [hinit]
  exact adds_add h1

/-- The body of the two loops of `initial_resync`, for one node. -/
theorem adds_peers {n1 first : NodeId} {diskfulNodes : OrderedSet NodeId}
    (m : OrderedSet (Connection × HeldVolume) → NodeId → HeldVolume →
      Except PyError (OrderedSet (Connection × HeldVolume)))
    (hfirst : Nodes.firstVolumes w diskfulNodes = .ok ((w.node first).disks.map (HeldVolume.mk first)))
    (hm : ∀ n2 ∈ diskfulNodes, ∀ v, Adds (fun pd : Connection × HeldVolume => pd.1.resource w) r
      (fun pds => m pds n2 v) fun pd => n1 ≠ n2 ∧ pd = (⟨n1, n2⟩, v)) :
    Adds (fun pd : Connection × HeldVolume => pd.1.resource w) r (fun pds => do
      let volumes ← Nodes.firstVolumes w diskfulNodes
      volumes.foldlM (fun pds v => diskfulNodes.items.foldlM (fun pds n2 => m pds n2 v) pds) pds)
      fun pd => pd.1.node1 = n1 ∧ pd.1.node2 ∈ diskfulNodes ∧ n1 ≠ pd.1.node2 ∧
        pd.2.node = first ∧ pd.2.volume ∈ (w.node first).disks := by
  rw [hfirst]
  have hloop := adds_foldlM ((w.node first).disks.map (HeldVolume.mk first)) fun v _ =>
    adds_foldlM diskfulNodes.items fun n2 hn2 => hm n2 hn2 v
  refine hloop.congr fun pd => ?_
  obtain ⟨⟨c1, c2⟩, ⟨node, volume⟩⟩ := pd
  constructor
  · rintro ⟨v, hv, n2, hn2, hne, heq⟩
    obtain ⟨volume', hvolume', rfl⟩ := List.mem_map.mp hv
    cases heq
    exact ⟨rfl, hn2, hne, rfl, hvolume'⟩
  · rintro ⟨rfl, hn2, hne, rfl, hvolume⟩
    exact ⟨⟨node, volume⟩, List.mem_map.mpr ⟨volume, hvolume, rfl⟩, c2, hn2, hne, rfl⟩

/-- What is waited for when some node has a disk. -/
theorem initialResync_ok (hmembers : ∀ n ∈ w.members r, (w.node n).resource = r)
    (hdiskful : ∃ n ∈ w.members r, w.IsDiskful n) :
    ∃ first ∈ w.members r, ∃ waits, Resource.initialResync w r = .ok waits ∧
      ∀ n1 n2 number, (n1, n2, number) ∈ waits ↔ n1 ∈ w.members r ∧
        (n2 ∈ w.members r ∧ w.IsDiskful n2) ∧ n1 ≠ n2 ∧
        ∃ v ∈ (w.node first).disks, v.volume = number := by
  obtain ⟨diskfulNodes, hful, hmem⟩ := diskful_ok hmembers
  obtain ⟨disklessNodes, hless, hmem'⟩ := diskless_ok hmembers
  obtain ⟨n₀, hn₀, hdisk₀⟩ := hdiskful
  rcases hitems : diskfulNodes.items with _ | ⟨first, rest⟩
  · have hmem₀ := (hmem n₀).mpr ⟨hn₀, hdisk₀⟩
    rw [OrderedSet.mem_def, hitems] at hmem₀
    cases hmem₀
  have hfirst : Nodes.firstVolumes w diskfulNodes =
      .ok ((w.node first).disks.map (HeldVolume.mk first)) := by
    rw [Nodes.firstVolumes, hitems]
  have hmemFirst : first ∈ diskfulNodes := by
    rw [OrderedSet.mem_def, hitems]
    exact List.mem_cons_self
  have hadd : ∀ n1 ∈ w.members r, ∀ n2 ∈ diskfulNodes, ∀ v, Adds
      (fun pd : Connection × HeldVolume => pd.1.resource w) r
      (fun pds => PeerDevices.addNew w pds n1 n2 v) fun pd => pd = (⟨n1, n2⟩, v) :=
    fun n1 hn1 n2 hn2 v => adds_addNew (hmembers n1 hn1) (hmembers n2 ((hmem n2).mp hn2).1)
  have hfromLess : ∀ n1 ∈ disklessNodes.items, ∀ n2 ∈ diskfulNodes, ∀ v, Adds
      (fun pd : Connection × HeldVolume => pd.1.resource w) r
      (fun pds => PeerDevices.addNew w pds n1 n2 v) fun pd => n1 ≠ n2 ∧ pd = (⟨n1, n2⟩, v) := by
    intro n1 hn1 n2 hn2 v
    obtain ⟨hn1, hdisk⟩ := (hmem' n1).mp hn1
    have hne : n1 ≠ n2 := by
      rintro rfl
      exact hdisk ((hmem n1).mp hn2).2
    refine (hadd n1 hn1 n2 hn2 v).congr fun pd => ?_
    rw [and_iff_right hne]
  have hfromFul : ∀ n1 ∈ diskfulNodes.items, ∀ n2 ∈ diskfulNodes, ∀ v, Adds
      (fun pd : Connection × HeldVolume => pd.1.resource w) r
      (fun pds => if n1 ≠ n2 then PeerDevices.addNew w pds n1 n2 v else .ok pds)
      fun pd => n1 ≠ n2 ∧ pd = (⟨n1, n2⟩, v) := by
    intro n1 hn1 n2 hn2 v
    exact adds_ite fun _ => hadd n1 ((hmem n1).mp hn1).1 n2 hn2 v
  obtain ⟨pds, hpds, hown, hmemPds⟩ := adds_foldlM disklessNodes.items (fun n1 hn1 =>
    adds_peers (fun pds n2 v => PeerDevices.addNew w pds n1 n2 v) hfirst (hfromLess n1 hn1))
    OrderedSet.empty (by simp)
  obtain ⟨pds', hpds', -, hmemPds'⟩ := adds_foldlM diskfulNodes.items (fun n1 hn1 =>
    adds_peers (fun pds n2 v => if n1 ≠ n2 then PeerDevices.addNew w pds n1 n2 v else .ok pds)
      hfirst (hfromFul n1 hn1)) pds hown
  refine ⟨first, ((hmem first).mp hmemFirst).1, PeerDevices.waits pds', ?_, fun n1 n2 number => ?_⟩
  · dsimp only at hpds hpds'
    unfold Resource.initialResync
    rw [hful, hless]
    change Except.bind (disklessNodes.items.foldlM _ _) _ = _
    rw [hpds]
    change Except.bind (diskfulNodes.items.foldlM _ _) _ = _
    rw [hpds']
    rfl
  · rw [PeerDevices.waits, List.mem_map]
    constructor
    · rintro ⟨pd, hpd, heq⟩
      cases heq
      rcases (hmemPds' pd).mp hpd with hpd | ⟨n1, hn1, rfl, hn2, hne, -, hv⟩
      · rcases (hmemPds pd).mp hpd with hpd | ⟨n1, hn1, rfl, hn2, hne, -, hv⟩
        · exact absurd hpd (OrderedSet.not_mem_empty pd)
        · exact ⟨((hmem' _).mp hn1).1, (hmem _).mp hn2, hne, _, hv, rfl⟩
      · exact ⟨((hmem _).mp hn1).1, (hmem _).mp hn2, hne, _, hv, rfl⟩
    · rintro ⟨hn1, hn2, hne, v, hv, rfl⟩
      refine ⟨(⟨n1, n2⟩, ⟨first, v⟩), (hmemPds' _).mpr ?_, rfl⟩
      by_cases hdisk : w.IsDiskful n1
      · exact .inr ⟨n1, (hmem n1).mpr ⟨hn1, hdisk⟩, rfl, (hmem n2).mpr hn2, hne, rfl, hv⟩
      · refine .inl ((hmemPds _).mpr (.inr ?_))
        exact ⟨n1, (hmem' n1).mpr ⟨hn1, hdisk⟩, rfl, (hmem n2).mpr hn2, hne, rfl, hv⟩

/-- Without any disk there is no first node with a disk, so a node without one makes the call
raise. -/
theorem initialResync_diskless (hmembers : ∀ n ∈ w.members r, (w.node n).resource = r)
    (hdiskful : ¬ ∃ n ∈ w.members r, w.IsDiskful n) : Resource.initialResync w r =
      if w.members r = [] then .ok [] else .error .indexError := by
  obtain ⟨diskfulNodes, hful, hmem⟩ := diskful_ok hmembers
  obtain ⟨disklessNodes, hless, hmem'⟩ := diskless_ok hmembers
  have hnil : diskfulNodes.items = [] := by
    apply List.eq_nil_iff_forall_not_mem.mpr
    intro n hn
    exact hdiskful ⟨n, (hmem n).mp hn⟩
  have hfirst : Nodes.firstVolumes w diskfulNodes = .error .indexError := by
    rw [Nodes.firstVolumes, hnil]
  unfold Resource.initialResync
  rw [hful, hless]
  rcases hitems : disklessNodes.items with _ | ⟨dln, rest⟩
  · have hempty : w.members r = [] := by
      apply List.eq_nil_iff_forall_not_mem.mpr
      intro n hn
      have hdln := (hmem' n).mpr ⟨hn, fun h => hdiskful ⟨n, hn, h⟩⟩
      rw [OrderedSet.mem_def, hitems] at hdln
      cases hdln
    rw [if_pos hempty]
    change Except.bind (disklessNodes.items.foldlM _ _) _ = _
    rw [hitems]
    change Except.bind (diskfulNodes.items.foldlM _ _) _ = _
    rw [hnil]
    rfl
  · have hdln : dln ∈ disklessNodes := by
      rw [OrderedSet.mem_def, hitems]
      exact List.mem_cons_self
    rw [if_neg (List.ne_nil_of_mem ((hmem' dln).mp hdln).1)]
    change Except.bind (disklessNodes.items.foldlM _ _) _ = _
    rw [hitems, List.foldlM_cons, hfirst]
    rfl

theorem DisksComplete.waits (h : DisksComplete w r) (hnumbers : SameNumbers w r)
    (hmembers : ∀ n ∈ w.members r, (w.node n).resource = r) : WaitsForDisks w r := by
  rcases h with hempty | ⟨hdiskful, hcomplete⟩
  · refine ⟨[], ?_, fun n1 n2 number => ?_⟩
    · rw [initialResync_diskless hmembers (by simp [hempty]), if_pos hempty]
    · simp [hempty]
  · obtain ⟨first, hfirst, waits, hwaits, hmem⟩ := initialResync_ok hmembers hdiskful
    refine ⟨waits, hwaits, fun n1 n2 number => ?_⟩
    rw [hmem]
    constructor
    · rintro ⟨hn1, ⟨hn2, hdisk⟩, hne, v, hv, rfl⟩
      refine ⟨hn1, hn2, hne, ?_⟩
      rcases hcomplete with hone | hcomplete
      · -- a single node has no peer
        obtain ⟨n, hn⟩ := List.length_eq_one_iff.mp hone
        rw [hn, List.mem_singleton] at hn1 hn2
        exact absurd (hn1.trans hn2.symm) hne
      · obtain ⟨v', hv', hnumber⟩ := hnumbers first hfirst n2 hn2 v hv
        rw [← hnumber]
        exact hcomplete n2 hn2 hdisk v' hv'
    · rintro ⟨hn1, hn2, hne, hdisk⟩
      obtain ⟨v, hv, rfl, hd⟩ := hdisk
      obtain ⟨v', hv', hnumber⟩ := hnumbers n2 hn2 first hfirst v hv
      exact ⟨hn1, ⟨hn2, v, hv, hd⟩, hne, v', hv', hnumber⟩

theorem WaitsForDisks.complete (h : WaitsForDisks w r) (hnumbers : SameNumbers w r)
    (hmembers : ∀ n ∈ w.members r, (w.node n).resource = r) : DisksComplete w r := by
  obtain ⟨waits, hwaits, hmem⟩ := h
  by_cases hempty : w.members r = []
  · exact .inl hempty
  right
  by_cases hdiskful : ∃ n ∈ w.members r, w.IsDiskful n
  · refine ⟨hdiskful, ?_⟩
    obtain ⟨first, hfirst, waits', hwaits', hmem'⟩ := initialResync_ok hmembers hdiskful
    rw [hwaits] at hwaits'
    obtain rfl := Except.ok.inj hwaits'
    by_cases hone : (w.members r).length = 1
    · exact .inl hone
    right
    intro n2 hn2 hdisk v hv
    -- another node waits for this one
    obtain ⟨n1, hn1, hne⟩ : ∃ n1 ∈ w.members r, n1 ≠ n2 := by
      by_contra hall
      simp only [not_exists, not_and, not_not] at hall
      have hlength : w.members r = List.replicate (w.members r).length n2 :=
        List.eq_replicate_iff.mpr ⟨rfl, hall⟩
      have hnodup := (w.resource r).nodes.nodup
      rw [show (w.resource r).nodes.items = List.replicate (w.members r).length n2 from hlength,
        List.nodup_replicate] at hnodup
      have hpos := List.length_pos_iff.mpr hempty
      omega
    obtain ⟨v', hv', hnumber⟩ := hnumbers n2 hn2 first hfirst v hv
    exact ((hmem n1 n2 v.volume).mp ((hmem' n1 n2 v.volume).mpr
      ⟨hn1, ⟨hn2, hdisk⟩, hne, v', hv', hnumber⟩)).2.2.2
  · rw [initialResync_diskless hmembers hdiskful, if_neg hempty] at hwaits
    cases hwaits

/-- `initial_resync` waits for the right peer disks exactly when some node has a disk, and the nodes
that have one have one for every volume number. -/
theorem initial_resync_waits_iff (hmembers : ∀ n ∈ w.members r, (w.node n).resource = r)
    (hnumbers : SameNumbers w r) : WaitsForDisks w r ↔ DisksComplete w r :=
  ⟨fun h => h.complete hnumbers hmembers, fun h => h.waits hnumbers hmembers⟩

theorem initial_resync_waits_two :
    WaitsForDisks twoDisks 0 ↔ DisksComplete twoDisks 0 :=
  initial_resync_waits_iff (by decide +kernel) (by
    unfold SameNumbers
    decide +kernel)

/-- Two volumes, each with a disk on one of the two nodes. -/
def alternatingDisks : World := Op.afterAll (World.plain 2) [.createResource none,
  .addDisk 0 ⟨"1G", some [0], .default, none, none, ⟨none, false, false, false, false⟩⟩,
  .addDisk 0 ⟨"1G", some [1], .default, none, none, ⟨none, false, false, false, false⟩⟩]

/-- For such disks the call waits for peer disks that do not exist; without any disk it raises. -/
theorem initial_resync_waits_too_much :
    (∃ waits, Resource.initialResync alternatingDisks 0 = .ok waits ∧ (0, 1, 0) ∈ waits ∧
      ¬ alternatingDisks.HasDisk 1 0) ∧
    Resource.initialResync threeNodes 0 = .error .indexError := by
  refine ⟨⟨[(0, 1, 0), (0, 1, 1), (1, 0, 0), (1, 0, 1)], by decide +kernel, by decide,
    by decide +kernel⟩, by decide +kernel⟩

end DrbdTests
