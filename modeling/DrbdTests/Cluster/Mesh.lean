import DrbdTests.Cluster.Creation

/-!
# The connection mesh

`Resource.connections` and `Resource.peer_devices` collect what the members hold, while the
function `connections` builds its pairs from the members themselves. The connections of a
node are made once, in `create_resource`, and no call takes one away (`Meshed`). So the two
agree exactly when no node, or every node of the resource, is a member.
-/

namespace DrbdTests

open Stateful Runs

/-- `PeerDevice`. The source compares the two connections by identity; a node holds one
`Connection` object for each peer, so here its nodes stand for it. -/
structure PeerDevice where
  connection : Connection
  volume : Volume
  deriving DecidableEq, Repr

/-- `Connection.resource` -/
def Connection.resource (w : World) (c : Connection) : ResourceId := (w.node c.node1).resource

/-- `Connection.__init__` -/
def Connection.init (w : World) (node1 node2 : NodeId) : Except PyError Connection :=
  if (w.node node1).resource = (w.node node2).resource then .ok ⟨node1, node2⟩
  else .error .assertionError

/-- `Node.get_peer_devices` -/
def Node.peerDevices (w : World) (n : NodeId) : Except PyError (OrderedSet PeerDevice) :=
  ((w.node n).connections.items.product (w.node n).disks).foldlM
    (fun peerDevices p =>
      Collection.add (fun pd => pd.connection.resource w) peerDevices ⟨p.1, p.2⟩)
    OrderedSet.empty

/-- `Resource.connections` -/
def Resource.connections (w : World) (r : ResourceId) : Except PyError (OrderedSet Connection) :=
  Collection.property (Connection.resource w) (w.resource r).nodes fun n =>
    .ok (w.node n).connections

/-- `Resource.peer_devices` -/
def Resource.peerDevices (w : World) (r : ResourceId) : Except PyError (OrderedSet PeerDevice) :=
  Collection.property (fun pd => pd.connection.resource w) (w.resource r).nodes
    (Node.peerDevices w)

/-- The nodes of `nodes[0].resource`, for a missing argument of `connections`. -/
def nodesOfFirst (w : World) : List NodeId → List NodeId
  | first :: _ => w.members (w.node first).resource
  | [] => []

/-- The loops of `connections`. -/
def connectionPairs (w : World) (fromNodes toNodes : List NodeId) :
    Except PyError (OrderedSet Connection) :=
  (fromNodes.product toNodes).foldlM
    (fun cs p =>
      if p.1 ≠ p.2 then do
        let c ← Connection.init w p.1 p.2
        Collection.add (Connection.resource w) cs c
      else .ok cs)
    OrderedSet.empty

/-- An argument that is given as a single node or as nodes; a single node excludes a
non-empty collection. -/
def oneOrMany (message : String) (node : Option NodeId) (nodes : Option (List NodeId)) :
    Except PyError (Option (List NodeId)) :=
  match node with
  | some n => if nodes.getD [] ≠ [] then .error (.runtimeError message) else .ok (some [n])
  | none => .ok nodes

/-- The function `connections` -/
def connections (w : World) (fromNode toNode : Option NodeId)
    (fromNodes toNodes : Option (List NodeId)) (bidir : Bool) :
    Except PyError (OrderedSet Connection) := do
  let fromNodes ← oneOrMany "both from_node and from_nodes specified" fromNode fromNodes
  let toNodes ← oneOrMany "both to_node and to_nodes specified" toNode toNodes
  if fromNodes = none ∧ toNodes = none then .error (.runtimeError "neither from nor to specified")
  else do
    let fromNodes := fromNodes.getD (nodesOfFirst w (toNodes.getD []))
    let toNodes := toNodes.getD (nodesOfFirst w fromNodes)
    let cs ← connectionPairs w fromNodes toNodes
    if bidir then do
      let reversed ← cs.items.mapM fun c => Connection.init w c.node2 c.node1
      Collection.extend (Connection.resource w) cs reversed
    else return cs

/-! ## The invariant -/

/-- Members belong to their resource, and every node keeps a connection to every other node
that was created for its resource. -/
structure Meshed (w : World) : Prop extends WellFormed w where
  members_own : ∀ r ∈ w.resources, ∀ n ∈ w.members r, (w.node n).resource = r
  mem_connections : ∀ n, n < w.nodeCount → (w.node n).resource ∈ w.resources →
    ∀ c, c ∈ (w.node n).connections ↔ c.node1 = n ∧ c.node2 ≠ n ∧ c.node2 < w.nodeCount ∧
      (w.node c.node2).resource = (w.node n).resource

/-- `add_node` is only called with nodes of the resource. -/
def Op.AddsOwnNode (op : Op) (w : World) : Prop :=
  match op with
  | .addNode r n => (w.node n).resource = r
  | _ => True

instance (op : Op) (w : World) : Decidable (op.AddsOwnNode w) :=
  match op with
  | .addNode _ _ => inferInstanceAs (Decidable (_ = _))
  | .createResource _ | .createStoragePool _ _ | .addDisk _ _ | .nextVolume _
  | .nodeAddDisk _ _ _ _ | .removeDisks _ | .removeStoragePool _ | .setNetOptions _ _
  | .setDiskOptions _ _ | .setResourceOptions _ _ | .setHandlers _ _ | .setFencingMode _ _
  | .setTiebreaker _ _ _ | .removeNode _ _ | .rename _ _ | .installDrbd _ _ | .run _ _ _ _ =>
    isTrue trivial

variable {w₀ w w' : World}

theorem meshed_of_initial (h : w.Initial) : Meshed w where
  toWellFormed := wellFormed_of_initial h
  members_own := by simp [h.resources_nil]
  mem_connections := by simp [h.nodeCount_zero]

/-- Nodes of an older resource see no difference while a new one is created. -/
theorem Building.mem_connections_old (hB : Building w w') (h : Meshed w) {n : NodeId}
    (hn : n < w.nodeCount) (hr : (w.node n).resource ∈ w.resources) (c : Connection) :
    c ∈ (w'.node n).connections ↔ c.node1 = n ∧ c.node2 ≠ n ∧ c.node2 < w'.nodeCount ∧
      (w'.node c.node2).resource = (w'.node n).resource := by
  rw [hB.node n hn, h.mem_connections n hn hr]
  have hlt := h.resources_lt _ hr
  constructor
  · rintro ⟨h1, h2, h3, h4⟩
    exact ⟨h1, h2, Nat.lt_of_lt_of_le h3 hB.nodeCount_le, by rw [hB.node _ h3, h4]⟩
  · rintro ⟨h1, h2, h3, h4⟩
    by_cases hold : c.node2 < w.nodeCount
    · rw [hB.node _ hold] at h4
      exact ⟨h1, h2, hold, h4⟩
    · rw [(hB.newNode _ (Nat.not_lt.mp hold) h3).resource] at h4
      exact absurd h4 (Nat.ne_of_gt hlt)

theorem Building.members_own (hB : Building w w') (h : Meshed w) {r : ResourceId}
    (hr : r ∈ w.resources) {n : NodeId} (hn : n ∈ w'.members r) : (w'.node n).resource = r := by
  have hlt := h.resources_lt r hr
  rw [World.members, hB.resource r (Nat.ne_of_lt hlt)] at hn
  rw [hB.node n (h.members_lt r hr n hn)]
  exact h.members_own r hr n hn

theorem Meshed.step {op : Op} (h : Meshed w) (hown : op.AddsOwnNode w)
    (hstep : MeshStep w op w') : Meshed w' := by
  have hwf := h.toWellFormed.step hstep
  have hmesh : ∀ members, w'.layout.mesh = { w.layout.mesh with members := members } →
      (∀ r ∈ w.resources, ∀ n ∈ members r, (w.node n).resource = r) → Meshed w' := by
    intro members hw hm
    have hres : w'.resources = w.resources := congrArg Layout.resources hw
    have hcount : w'.nodeCount = w.nodeCount := congrArg Layout.nodeCount hw
    have hnr : ∀ n, (w'.node n).resource = (w.node n).resource :=
      congrFun (congrArg Layout.nodeResource hw)
    have hconn : ∀ n, (w'.node n).connections = (w.node n).connections :=
      congrFun (congrArg Layout.connections hw)
    refine { hwf with members_own := fun r hr n hn => ?_, mem_connections := fun n hn hr c => ?_ }
    · rw [hnr]
      exact hm r (hres ▸ hr) n ((mem_members_of_mesh hw r n).mp hn)
    · rw [hnr, hres] at hr
      rw [hconn, h.mem_connections n (hcount ▸ hn) hr, hcount, hnr, hnr]
  cases hstep with
  | same hw => exact hmesh _ hw h.members_own
  | creating hB =>
    refine { hwf with members_own := fun r hr n hn => ?_, mem_connections := fun n hn hr c => ?_ }
    · exact hB.members_own h (hB.resources ▸ hr) hn
    · rw [hB.resources] at hr
      by_cases hold : n < w.nodeCount
      · rw [hB.node n hold] at hr
        exact hB.mem_connections_old h hold hr c
      · -- a node of the new resource, which is not among the resources yet
        rw [(hB.newNode n (Nat.not_lt.mp hold) hn).resource] at hr
        exact absurd (h.resources_lt _ hr) (Nat.lt_irrefl _)
  | created w₁ hB hC hw =>
    subst hw
    refine { hwf with members_own := fun r hr n hn => ?_, mem_connections := fun n hn hr c => ?_ }
    · rw [hB.resources, List.mem_append, List.mem_singleton] at hr
      rcases hr with hr | rfl
      · exact hB.members_own h hr hn
      · obtain ⟨h₁, h₂⟩ := (hB.members n).mp hn
        exact (hB.newNode n h₁ h₂).resource
    · change n < w₁.nodeCount at hn
      by_cases hold : n < w.nodeCount
      · rw [hB.resources, hB.node n hold, List.mem_append, List.mem_singleton] at hr
        have hlt := h.nodeResource_lt n hold
        rcases hr with hr | hr
        · exact hB.mem_connections_old h hold hr c
        · exact absurd hr (Nat.ne_of_lt hlt)
      · have hold' := Nat.not_lt.mp hold
        change c ∈ (w₁.node n).connections ↔ _ ∧ _ ∧ c.node2 < w₁.nodeCount ∧
          (w₁.node c.node2).resource = (w₁.node n).resource
        rw [hC n c hold' hn, (hB.newNode n hold' hn).resource]
        constructor
        · rintro ⟨h1, h2, h3, h4⟩
          exact ⟨h1, h2, h4, (hB.newNode _ h3 h4).resource⟩
        · rintro ⟨h1, h2, h3, h4⟩
          refine ⟨h1, h2, ?_, h3⟩
          by_contra hlt
          have hlt := Nat.not_le.mp hlt
          rw [hB.node _ hlt] at h4
          exact absurd h4 (Nat.ne_of_lt (h.nodeResource_lt _ hlt))
  | addNode r n hop hr hn hw =>
    subst hop
    refine hmesh _ hw fun s hs m hm => ?_
    rw [Function.update_apply] at hm
    split at hm
    · rename_i hsr
      subst hsr
      rcases OrderedSet.mem_add.mp hm with hm | rfl
      · exact h.members_own s hs m hm
      · exact hown
    · exact h.members_own s hs m hm
  | removeNode r n hop hw =>
    refine hmesh _ hw fun s hs m hm => ?_
    rw [Function.update_apply] at hm
    split at hm
    · rename_i hsr
      subst hsr
      exact h.members_own s hs m (OrderedSet.mem_discard.mp hm).2
    · exact h.members_own s hs m hm

theorem meshed_of_run {ops : List Op} (h₀ : w₀.Initial)
    (run : Run (Guarded (fun w (op : Op) => op.AddsOwnNode w) fun w op w' => op.Attempt w w')
      w₀ ops w) : Meshed w :=
  run.invariant (meshed_of_initial h₀) fun _ _ _ h hstep =>
    h.step hstep.1 (meshStep_of_attempt hstep.2)

/-! ## What the members hold -/

/-- The pairs that the loops of `connections` add. -/
theorem connectionPairs_ok {r : ResourceId} {fromNodes toNodes : List NodeId}
    (hfrom : ∀ n ∈ fromNodes, (w.node n).resource = r) (hto : ∀ n ∈ toNodes, (w.node n).resource = r) :
    ∃ cs, connectionPairs w fromNodes toNodes = .ok cs ∧
      ∀ c : Connection, c ∈ cs ↔ c.node1 ∈ fromNodes ∧ c.node2 ∈ toNodes ∧ c.node1 ≠ c.node2 := by
  have hpair : ∀ p ∈ fromNodes.product toNodes, Collection.Adds (Connection.resource w) r
      (fun cs =>
        if p.1 ≠ p.2 then do
          let c ← Connection.init w p.1 p.2
          Collection.add (Connection.resource w) cs c
        else .ok cs)
      fun c => p.1 ≠ p.2 ∧ c = ⟨p.1, p.2⟩ := by
    intro p hp
    obtain ⟨hp1, hp2⟩ := List.pair_mem_product.mp hp
    have h1 := hfrom p.1 hp1
    have h2 := hto p.2 hp2
    have hinit : Connection.init w p.1 p.2 = .ok ⟨p.1, p.2⟩ := if_pos (h1.trans h2.symm)
    rw [hinit]
    exact Collection.adds_ite fun _ => Collection.adds_add h1
  obtain ⟨cs, hcs, -, hmem⟩ := Collection.adds_foldlM _ hpair OrderedSet.empty (by simp)
  refine ⟨cs, hcs, fun c => ?_⟩
  rw [hmem]
  constructor
  · rintro (hc | ⟨⟨p1, p2⟩, hp, hne, rfl⟩)
    · exact absurd hc (OrderedSet.not_mem_empty c)
    · obtain ⟨hp1, hp2⟩ := List.pair_mem_product.mp hp
      exact ⟨hp1, hp2, hne⟩
  · rintro ⟨h1, h2, hne⟩
    exact .inr ⟨(c.node1, c.node2), List.pair_mem_product.mpr ⟨h1, h2⟩, hne, rfl⟩

variable {r : ResourceId}

/-- `Resource.connections` is the union of what the members hold. -/
theorem Meshed.resourceConnections (h : Meshed w) (hr : r ∈ w.resources) :
    ∃ cs, Resource.connections w r = .ok cs ∧ ∀ c : Connection, c ∈ cs ↔
      c.node1 ∈ w.members r ∧ c.node2 ≠ c.node1 ∧ c.node2 < w.nodeCount ∧
        (w.node c.node2).resource = r := by
  have hheld : ∀ n ∈ w.members r, ∀ c : Connection, c ∈ (w.node n).connections ↔
      c.node1 = n ∧ c.node2 ≠ n ∧ c.node2 < w.nodeCount ∧ (w.node c.node2).resource = r := by
    intro n hn c
    have hown := h.members_own r hr n hn
    rw [h.mem_connections n (h.members_lt r hr n hn) (hown ▸ hr), hown]
  obtain ⟨cs, hcs, hmem⟩ := Collection.property_ok (Connection.resource w) (w.resource r).nodes
    (fun n => .ok (w.node n).connections) (fun n => (w.node n).connections) r (fun n hn => rfl)
    (by
      intro n hn c hc
      rw [Connection.resource, ((hheld n hn c).mp hc).1]
      exact h.members_own r hr n hn)
  refine ⟨cs, hcs, fun c => ?_⟩
  rw [hmem]
  constructor
  · rintro ⟨n, hn, hc⟩
    obtain ⟨rfl, h2, h3, h4⟩ := (hheld n hn c).mp hc
    exact ⟨hn, h2, h3, h4⟩
  · rintro ⟨hn, h2, h3, h4⟩
    exact ⟨c.node1, hn, (hheld c.node1 hn c).mpr ⟨rfl, h2, h3, h4⟩⟩

/-- The connections of the peer devices of a resource are connections of its members. -/
theorem Meshed.resourcePeerDevices (h : Meshed w) (hr : r ∈ w.resources) :
    ∃ pds, Resource.peerDevices w r = .ok pds ∧
      ∀ pd ∈ pds, ∃ n ∈ w.members r, pd.connection ∈ (w.node n).connections := by
  have hnode : ∀ n ∈ w.members r, ∃ pds, Node.peerDevices w n = .ok pds ∧
      ∀ pd ∈ pds, pd.connection ∈ (w.node n).connections := by
    intro n hn
    have hown := h.members_own r hr n hn
    have hconn := h.mem_connections n (h.members_lt r hr n hn) (hown ▸ hr)
    have hadd : ∀ p ∈ (w.node n).connections.items.product (w.node n).disks,
        Collection.Adds (fun pd : PeerDevice => pd.connection.resource w) r
          (fun pds => Collection.add (fun pd => pd.connection.resource w) pds ⟨p.1, p.2⟩)
          fun pd => pd = ⟨p.1, p.2⟩ := by
      intro p hp
      have hc := (hconn p.1).mp (List.pair_mem_product.mp hp).1
      refine Collection.adds_add ?_
      rw [Connection.resource, hc.1]
      exact hown
    obtain ⟨pds, hpds, -, hmem⟩ := Collection.adds_foldlM _ hadd OrderedSet.empty (by simp)
    refine ⟨pds, hpds, fun pd hpd => ?_⟩
    rcases (hmem pd).mp hpd with hpd | ⟨⟨c, v⟩, hp, rfl⟩
    · exact absurd hpd (OrderedSet.not_mem_empty pd)
    · exact (List.pair_mem_product.mp hp).1
  obtain ⟨pds, hpds, hmem⟩ := Collection.property_ok
    (fun pd : PeerDevice => pd.connection.resource w) (w.resource r).nodes (Node.peerDevices w)
    (fun n => (Node.peerDevices w n).toOption.getD OrderedSet.empty) r
    (by
      intro n hn
      obtain ⟨s, hs, _⟩ := hnode n hn
      rw [hs]
      rfl)
    (by
      intro n hn pd hpd
      obtain ⟨s, hs, hsub⟩ := hnode n hn
      rw [hs] at hpd
      have hown := h.members_own r hr n hn
      rw [Connection.resource, ((h.mem_connections n (h.members_lt r hr n hn) (hown ▸ hr) _).mp
        (hsub pd hpd)).1]
      exact hown)
  refine ⟨pds, hpds, fun pd hpd => ?_⟩
  obtain ⟨n, hn, hpd⟩ := (hmem pd).mp hpd
  obtain ⟨s, hs, hsub⟩ := hnode n hn
  rw [hs] at hpd
  exact ⟨n, hn, hsub pd hpd⟩

/-- `connections(from_nodes=resource.nodes)`, for members that belong to the resource. -/
theorem connections_members (hne : w.members r ≠ [])
    (hown : ∀ n ∈ w.members r, (w.node n).resource = r) :
    ∃ cs, connections w none none (some (w.members r)) none false = .ok cs ∧
      ∀ c : Connection, c ∈ cs ↔
        c.node1 ∈ w.members r ∧ c.node2 ∈ w.members r ∧ c.node1 ≠ c.node2 := by
  have hfirst : nodesOfFirst w (w.members r) = w.members r := by
    rcases hm : w.members r with _ | ⟨n, rest⟩
    · exact absurd hm hne
    · rw [nodesOfFirst, hown n (by simp [hm]), hm]
  obtain ⟨cs, hcs, hmem⟩ := connectionPairs_ok hown hown
  refine ⟨cs, ?_, hmem⟩
  change (connectionPairs w (w.members r) (nodesOfFirst w (w.members r)) >>= _) = _
  rw [hfirst, hcs]
  rfl

/-! ## The mesh and the members -/

/-- The connections and peer devices of a resource are those of its members. -/
structure FollowsMembership (w : World) (r : ResourceId) : Prop where
  connections : ∃ cs, Resource.connections w r = .ok cs ∧
    (∀ c : Connection, c ∈ cs ↔
      c.node1 ∈ w.members r ∧ c.node2 ∈ w.members r ∧ c.node1 ≠ c.node2) ∧
    (w.members r ≠ [] → ∃ cs', DrbdTests.connections w none none (some (w.members r)) none false
      = .ok cs' ∧ ∀ c, c ∈ cs ↔ c ∈ cs')
  peerDevices : ∃ pds, Resource.peerDevices w r = .ok pds ∧
    ∀ pd ∈ pds, pd.connection.node1 ∈ w.members r ∧ pd.connection.node2 ∈ w.members r

/-- No node is a member, or all nodes made for the resource are. -/
def AllOrNoneMember (w : World) (r : ResourceId) : Prop :=
  w.members r = [] ∨ ∀ n, n < w.nodeCount → (w.node n).resource = r → n ∈ w.members r

theorem Meshed.followsMembership_iff (h : Meshed w) (hr : r ∈ w.resources) :
    FollowsMembership w r ↔ AllOrNoneMember w r := by
  obtain ⟨cs, hcs, hmem⟩ := h.resourceConnections hr
  constructor
  · rintro ⟨⟨cs', hcs', hmem', _⟩, _⟩
    have hsame : cs = cs' := Except.ok.inj (hcs.symm.trans hcs')
    subst hsame
    by_contra hnot
    simp only [AllOrNoneMember, not_or, not_forall] at hnot
    obtain ⟨hne, m, hm, hmr, hout⟩ := hnot
    obtain ⟨n, hn⟩ := List.exists_mem_of_ne_nil _ hne
    -- a member still holds its connection to the node that is not one
    have hc := (hmem ⟨n, m⟩).mpr ⟨hn, fun (he : m = n) => hout (he.symm ▸ hn), hm, hmr⟩
    exact hout ((hmem' ⟨n, m⟩).mp hc).2.1
  · intro hall
    have hpeer : ∀ c : Connection, c.node1 ∈ w.members r → c.node2 < w.nodeCount →
        (w.node c.node2).resource = r → c.node2 ∈ w.members r := by
      intro c h1 h2 h3
      rcases hall with hnil | hall
      · simp [hnil] at h1
      · exact hall _ h2 h3
    have hexact : ∀ c : Connection, c ∈ cs ↔
        c.node1 ∈ w.members r ∧ c.node2 ∈ w.members r ∧ c.node1 ≠ c.node2 := by
      intro c
      rw [hmem]
      constructor
      · rintro ⟨h1, h2, h3, h4⟩
        exact ⟨h1, hpeer c h1 h3 h4, h2.symm⟩
      · rintro ⟨h1, h2, h3⟩
        exact ⟨h1, h3.symm, h.members_lt r hr _ h2, h.members_own r hr _ h2⟩
    refine ⟨⟨cs, hcs, hexact, fun hne => ?_⟩, ?_⟩
    · obtain ⟨cs', hcs', hmem'⟩ := connections_members hne (h.members_own r hr)
      exact ⟨cs', hcs', fun c => by rw [hexact, hmem']⟩
    · obtain ⟨pds, hpds, hheld⟩ := h.resourcePeerDevices hr
      refine ⟨pds, hpds, fun pd hpd => ?_⟩
      obtain ⟨n, hn, hc⟩ := hheld pd hpd
      have hown := h.members_own r hr n hn
      obtain ⟨h1, _, h3, h4⟩ :=
        (h.mem_connections n (h.members_lt r hr n hn) (hown ▸ hr) _).mp hc
      rw [hown] at h4
      rw [h1]
      exact ⟨hn, hpeer pd.connection (h1.symm ▸ hn) h3 h4⟩

/-- In every state of every run the mesh follows the membership of a resource exactly when
all or none of its nodes are members. -/
theorem connections_follow_membership_iff {ops : List Op} (h₀ : w₀.Initial)
    (run : Run (Guarded (fun w (op : Op) => op.AddsOwnNode w) fun w op w' => op.Attempt w w')
      w₀ ops w) (hr : r ∈ w.resources) : FollowsMembership w r ↔ AllOrNoneMember w r :=
  (meshed_of_run h₀ run).followsMembership_iff hr

/-- A run that removes a node and adds it again, in a cluster of three hosts. -/
def rejoinRun : List Op := [.createResource none, .removeNode 0 2, .addNode 0 2]

theorem connections_follow_membership_rejoin :
    FollowsMembership (Op.afterAll (World.plain 3) rejoinRun) 0 ↔
      AllOrNoneMember (Op.afterAll (World.plain 3) rejoinRun) 0 :=
  connections_follow_membership_iff (plain_initial 3) (Op.run_of_allowed (by decide +kernel))
    (by decide +kernel)

/-- The state in between, where the connections to the removed node are still there. -/
theorem stale_connections_after_remove_node :
    Run (Guarded (fun w (op : Op) => op.AddsOwnNode w) fun w op w' => op.Attempt w w')
      (World.plain 3) [.createResource none, .removeNode 0 2]
      (Op.afterAll (World.plain 3) [.createResource none, .removeNode 0 2]) ∧
    ¬ FollowsMembership (Op.afterAll (World.plain 3) [.createResource none, .removeNode 0 2]) 0 := by
  have run : Run (Guarded (fun w (op : Op) => op.AddsOwnNode w) fun w op w' => op.Attempt w w')
      (World.plain 3) [.createResource none, .removeNode 0 2] _ :=
    Op.run_of_allowed (by decide +kernel)
  refine ⟨run, fun h => ?_⟩
  have hall := ((meshed_of_run (plain_initial 3) run).followsMembership_iff (by decide +kernel)).mp h
  rcases hall with hnil | hall
  · exact absurd hnil (by decide +kernel)
  · exact absurd (hall 2 (by decide +kernel) (by decide +kernel)) (by decide +kernel)

end DrbdTests
