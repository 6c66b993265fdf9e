import DrbdTests.Cluster.Mesh

/-!
# Selecting connections and peer devices

A test selects the connections it waits for, or disturbs, with `connections`: it gives the
nodes they come from and the nodes they lead to, each side as a single node, as a collection, or
not at all. `Selection.Selects` says which connections a selection stands for.

`peer_devices` takes the same arguments. It looks the volumes up once, at the node that the first
of the connections comes from.
-/

namespace DrbdTests

/-- The arguments of `connections` and `peer_devices`. -/
structure Selection where
  fromNode : Option NodeId
  toNode : Option NodeId
  fromNodes : Option (List NodeId)
  toNodes : Option (List NodeId)
  bidir : Bool
  deriving DecidableEq, Repr

/-- `Volume`, with its attribute `node`. -/
structure HeldVolume where
  node : NodeId
  volume : Volume
  deriving DecidableEq, Repr

/-- `Collection.__init__` -/
def Collection.init {α ρ : Type} [DecidableEq ρ] [DecidableEq α] (resource : α → ρ)
    (members : List α) : Except PyError (OrderedSet α) :=
  if members = [] ∨ Collection.sameResource resource (OrderedSet.ofList members) members then
    .ok (OrderedSet.ofList members)
  else .error .assertionError

/-- `Resource.volumes` -/
def Resource.volumes (w : World) (r : ResourceId) : Except PyError (OrderedSet HeldVolume) :=
  Collection.property (fun v => (w.node v.node).resource) (w.resource r).nodes fun n =>
    Collection.init (fun v => (w.node v.node).resource) ((w.node n).disks.map (HeldVolume.mk n))

/-- `PeerDevices.from_connections`, without `volumes` -/
def PeerDevices.fromConnections (w : World) (connections : OrderedSet Connection) :
    Except PyError (OrderedSet (Connection × HeldVolume)) :=
  match connections.items with
  | [] => .error .indexError
  | first :: _ => do
    let clusterVolumes ← Resource.volumes w (first.resource w)
    let volumes := clusterVolumes.items.filter fun x => x.node = first.node1
    Collection.init (fun pd => pd.1.resource w)
      (connections.items.flatMap fun c => volumes.map fun v => (c, v))

namespace Selection

/-- `connections` -/
def connections (w : World) (s : Selection) : Except PyError (OrderedSet Connection) :=
  DrbdTests.connections w s.fromNode s.toNode s.fromNodes s.toNodes s.bidir

/-- `peer_devices` -/
def peerDevices (w : World) (s : Selection) :
    Except PyError (OrderedSet (Connection × HeldVolume)) := do
  let cs ← s.connections w
  PeerDevices.fromConnections w cs

/-! ## What a selection stands for -/

/-- A side is given as a single node and as a non-empty collection. -/
def Twice (node : Option NodeId) (nodes : Option (List NodeId)) : Prop :=
  node ≠ none ∧ nodes.getD [] ≠ []

instance (node : Option NodeId) (nodes : Option (List NodeId)) : Decidable (Twice node nodes) :=
  inferInstanceAs (Decidable (_ ∧ _))

/-- A side as it is given: a single node takes precedence over an empty collection. -/
def given (node : Option NodeId) (nodes : Option (List NodeId)) : Option (List NodeId) :=
  match node with
  | some n => some [n]
  | none => nodes

/-- The nodes of a side. An omitted side stands for all nodes of the resource, but for none if
the given side is empty. -/
def side (w : World) (r : ResourceId) (self other : Option (List NodeId)) : List NodeId :=
  self.getD (if other.getD [] = [] then [] else w.members r)

def fromSide (w : World) (r : ResourceId) (s : Selection) : List NodeId :=
  side w r (given s.fromNode s.fromNodes) (given s.toNode s.toNodes)

def toSide (w : World) (r : ResourceId) (s : Selection) : List NodeId :=
  side w r (given s.toNode s.toNodes) (given s.fromNode s.fromNodes)

/-- The pair that a connection is was asked for. -/
def Requests (w : World) (r : ResourceId) (s : Selection) (c : Connection) : Prop :=
  c.node1 ∈ s.fromSide w r ∧ c.node2 ∈ s.toSide w r ∧ c.node1 ≠ c.node2

instance (w : World) (r : ResourceId) (s : Selection) (c : Connection) :
    Decidable (s.Requests w r c) := inferInstanceAs (Decidable (_ ∧ _))

end Selection

/-- The connection in the other direction. -/
def Connection.reverse (c : Connection) : Connection := ⟨c.node2, c.node1⟩

namespace Selection

/-- The connection is one that was asked for, or with `bidir` the reverse of one. -/
def Selects (w : World) (r : ResourceId) (s : Selection) (c : Connection) : Prop :=
  s.Requests w r c ∨ s.bidir = true ∧ s.Requests w r c.reverse

instance (w : World) (r : ResourceId) (s : Selection) (c : Connection) :
    Decidable (s.Selects w r c) := inferInstanceAs (Decidable (_ ∨ _))

/-- Why a selection is refused. -/
def refusal (s : Selection) : Option String :=
  if Twice s.fromNode s.fromNodes then some "both from_node and from_nodes specified"
  else if Twice s.toNode s.toNodes then some "both to_node and to_nodes specified"
  else if given s.fromNode s.fromNodes = none ∧ given s.toNode s.toNodes = none then
    some "neither from nor to specified"
  else none

/-- The given nodes are nodes of the resource, and so are its members. -/
structure Of (w : World) (r : ResourceId) (s : Selection) : Prop where
  from_own : ∀ n ∈ (given s.fromNode s.fromNodes).getD [], (w.node n).resource = r
  to_own : ∀ n ∈ (given s.toNode s.toNodes).getD [], (w.node n).resource = r
  members_own : ∀ n ∈ w.members r, (w.node n).resource = r

variable {w : World} {r : ResourceId} {s : Selection}

theorem oneOrMany_eq (message : String) (node : Option NodeId) (nodes : Option (List NodeId)) :
    oneOrMany message node nodes =
      if Twice node nodes then .error (.runtimeError message) else .ok (given node nodes) := by
  cases node with
  | none => rfl
  | some n =>
    rw [oneOrMany]
    by_cases hnodes : nodes.getD [] = []
    · rw [if_neg (not_not_intro hnodes), if_neg fun h => h.2 hnodes]
      rfl
    · rw [if_pos hnodes, if_pos ⟨Option.some_ne_none n, hnodes⟩]

theorem nodesOfFirst_eq {nodes : List NodeId} (h : ∀ n ∈ nodes, (w.node n).resource = r) :
    nodesOfFirst w nodes = if nodes = [] then [] else w.members r := by
  cases nodes with
  | nil => rfl
  | cons n rest => rw [nodesOfFirst, h n List.mem_cons_self, if_neg (List.cons_ne_nil _ _)]

theorem Of.side_own {self other : Option (List NodeId)}
    (hself : ∀ n ∈ self.getD [], (w.node n).resource = r)
    (hmembers : ∀ n ∈ w.members r, (w.node n).resource = r) :
    ∀ n ∈ side w r self other, (w.node n).resource = r := by
  intro n hn
  cases self with
  | some nodes => exact hself n hn
  | none =>
    rw [side, Option.getD_none] at hn
    split at hn
    · cases hn
    · exact hmembers n hn

/-- The sides of an accepted selection, as `connections` completes them. -/
theorem Of.connections_eq (h : s.Of w r) (hs : s.refusal = none) :
    s.connections w = (do
      let cs ← connectionPairs w (s.fromSide w r) (s.toSide w r)
      if s.bidir then do
        let reversed ← cs.items.mapM fun c => Connection.init w c.node2 c.node1
        Collection.extend (Connection.resource w) cs reversed
      else return cs) := by
  unfold refusal at hs
  split at hs
  · cases hs
  rename_i hfrom
  split at hs
  · cases hs
  rename_i hto
  split at hs
  · cases hs
  rename_i hgiven
  unfold connections DrbdTests.connections
  rw [oneOrMany_eq, oneOrMany_eq, if_neg hfrom, if_neg hto]
  change (if given s.fromNode s.fromNodes = none ∧ given s.toNode s.toNodes = none then _ else _) = _
  rw [if_neg hgiven, fromSide, toSide]
  rcases hF : given s.fromNode s.fromNodes with _ | F
  · rcases hT : given s.toNode s.toNodes with _ | T
    · exact absurd ⟨hF, hT⟩ hgiven
    · have hown : ∀ n ∈ T, (w.node n).resource = r := by
        intro n hn
        exact h.to_own n (by rw [hT]; exact hn)
      simp only [Option.getD_none, Option.getD_some, side, nodesOfFirst_eq hown]
  · have hown : ∀ n ∈ F, (w.node n).resource = r := by
      intro n hn
      exact h.from_own n (by rw [hF]; exact hn)
    simp only [Option.getD_some, side, nodesOfFirst_eq hown]

theorem refusal_eq_error {message : String} (hs : s.refusal = some message) :
    s.connections w = .error (.runtimeError message) := by
  unfold refusal at hs
  unfold connections DrbdTests.connections
  rw [oneOrMany_eq, oneOrMany_eq]
  split at hs
  · rename_i hfrom
    rw [if_pos hfrom, ← Option.some.inj hs]
    rfl
  rename_i hfrom
  rw [if_neg hfrom]
  split at hs
  · rename_i hto
    rw [if_pos hto, ← Option.some.inj hs]
    rfl
  rename_i hto
  rw [if_neg hto]
  split at hs
  · rename_i hgiven
    rw [← Option.some.inj hs]
    exact if_pos hgiven
  · cases hs

/-- Every connection can be reversed. -/
theorem mapM_reverse {cs : List Connection} {resource : ResourceId}
    (h : ∀ c ∈ cs, (w.node c.node1).resource = resource ∧ (w.node c.node2).resource = resource) :
    (cs.mapM fun c => Connection.init w c.node2 c.node1) = .ok (cs.map Connection.reverse) := by
  induction cs with
  | nil => rfl
  | cons c cs ih =>
    obtain ⟨h1, h2⟩ := h c List.mem_cons_self
    have hinit : Connection.init w c.node2 c.node1 = .ok c.reverse := if_pos (h2.trans h1.symm)
    rw [List.mapM_cons, hinit, ih fun c hc => h c (List.mem_cons_of_mem _ hc)]
    rfl

/-- What `connections` gives for an accepted selection. -/
theorem Of.connections_ok (h : s.Of w r) (hs : s.refusal = none) :
    ∃ cs, s.connections w = .ok cs ∧ ∀ c, c ∈ cs ↔ s.Selects w r c := by
  have hfrom : ∀ n ∈ s.fromSide w r, (w.node n).resource = r := side_own h.from_own h.members_own
  have hto : ∀ n ∈ s.toSide w r, (w.node n).resource = r := side_own h.to_own h.members_own
  obtain ⟨cs, hcs, hmem⟩ := connectionPairs_ok hfrom hto
  rw [h.connections_eq hs, hcs]
  cases hbidir : s.bidir with
  | false =>
    refine ⟨cs, rfl, fun c => ?_⟩
    rw [hmem, Selects, hbidir]
    simp [Requests]
  | true =>
    have hown : ∀ c ∈ cs.items, (w.node c.node1).resource = r ∧ (w.node c.node2).resource = r := by
      intro c hc
      obtain ⟨h1, h2, -⟩ := (hmem c).mp hc
      exact ⟨hfrom _ h1, hto _ h2⟩
    have hextend : Collection.extend (Connection.resource w) cs (cs.items.map Connection.reverse) =
        .ok (cs.update (cs.items.map Connection.reverse)) := by
      refine Collection.extend_ok (r := r) (fun c hc => (hown c hc).1) fun c hc => ?_
      obtain ⟨c', hc', rfl⟩ := List.mem_map.mp hc
      exact (hown c' hc').2
    refine ⟨cs.update (cs.items.map Connection.reverse), ?_, fun c => ?_⟩
    · change ((cs.items.mapM fun c => Connection.init w c.node2 c.node1) >>= _) = _
      rw [mapM_reverse hown]
      exact hextend
    · have hreverse : c ∈ cs.items.map Connection.reverse ↔ s.Requests w r c.reverse := by
        rw [List.mem_map]
        constructor
        · rintro ⟨c', hc', rfl⟩
          exact (hmem c').mp hc'
        · intro hc
          exact ⟨c.reverse, (hmem c.reverse).mpr hc, rfl⟩
      rw [OrderedSet.mem_update, hmem, hreverse, Selects, hbidir]
      simp [Requests]

/-- A selection with `bidir` is closed under reversal. -/
theorem selects_reverse (hbidir : s.bidir = true) {c : Connection} (hc : s.Selects w r c) :
    s.Selects w r c.reverse := by
  rcases hc with hc | ⟨-, hc⟩
  · exact .inr ⟨hbidir, hc⟩
  · exact .inl hc

theorem Selects.ne {c : Connection} (hc : s.Selects w r c) : c.node1 ≠ c.node2 := by
  rcases hc with hc | ⟨-, hc⟩
  · exact hc.2.2
  · exact Ne.symm hc.2.2

end Selection

/-- `connections` builds exactly the pairs that were asked for, each once. -/
theorem connections_requested {w : World} {r : ResourceId} {s : Selection} (h : s.Of w r) :
    match s.refusal with
    | some message => s.connections w = .error (.runtimeError message)
    | none => ∃ cs, s.connections w = .ok cs ∧ cs.items.Nodup ∧ (∀ c, c ∈ cs ↔ s.Selects w r c) ∧
        (s.bidir = true → ∀ c ∈ cs, c.reverse ∈ cs) ∧ ∀ c ∈ cs, c.node1 ≠ c.node2 := by
  cases hs : s.refusal with
  | some message => exact Selection.refusal_eq_error hs
  | none =>
    obtain ⟨cs, hcs, hmem⟩ := h.connections_ok hs
    refine ⟨cs, hcs, cs.nodup, hmem, fun hbidir c hc => ?_, fun c hc => ?_⟩
    · exact (hmem _).mpr (Selection.selects_reverse hbidir ((hmem c).mp hc))
    · exact ((hmem c).mp hc).ne

/-- One of three nodes, given as a single node beside an empty collection. -/
def fromOneNode : Selection := ⟨some 1, none, some [], none, true⟩

def threeNodes : World := Op.afterAll (World.plain 3) [.createResource none]

theorem fromOneNode_of : fromOneNode.Of threeNodes 0 where
  from_own := by decide +kernel
  to_own := by decide +kernel
  members_own := by decide +kernel

theorem connections_requested_three : ∃ cs, fromOneNode.connections threeNodes = .ok cs ∧
    cs.items.Nodup ∧ (∀ c, c ∈ cs ↔ fromOneNode.Selects threeNodes 0 c) ∧
    (fromOneNode.bidir = true → ∀ c ∈ cs, c.reverse ∈ cs) ∧ ∀ c ∈ cs, c.node1 ≠ c.node2 :=
  connections_requested fromOneNode_of

/-! ## The volumes of peer devices -/

/-- `peer_devices` returns, for each connection, one peer device for each volume of the node that
the connection comes from. -/
def Selection.PeerDevicesAgree (w : World) (s : Selection) (cs : OrderedSet Connection) : Prop :=
  ∃ pds, s.peerDevices w = .ok pds ∧ pds.items.Nodup ∧ ∀ pd : Connection × HeldVolume,
    pd ∈ pds ↔ pd.1 ∈ cs ∧ pd.2.node = pd.1.node1 ∧ pd.2.volume ∈ (w.node pd.1.node1).disks

variable {w : World} {r : ResourceId} {s : Selection}

theorem Collection.init_ok {α ρ : Type} [DecidableEq ρ] [DecidableEq α] {resource : α → ρ} {a : ρ}
    {members : List α} (h : ∀ m ∈ members, resource m = a) :
    Collection.init resource members = .ok (OrderedSet.ofList members) := by
  apply if_pos
  right
  exact Collection.sameResource_of_forall (fun m hm => h m (OrderedSet.mem_ofList.mp hm)) h

/-- The volumes of a resource are those of its members. -/
theorem resource_volumes (hmembers : ∀ n ∈ w.members r, (w.node n).resource = r) :
    ∃ vs, Resource.volumes w r = .ok vs ∧ ∀ v : HeldVolume,
      v ∈ vs ↔ v.node ∈ w.members r ∧ v.volume ∈ (w.node v.node).disks := by
  have hheld : ∀ n ∈ w.members r, ∀ v ∈ (w.node n).disks.map (HeldVolume.mk n),
      (w.node v.node).resource = r := by
    intro n hn v hv
    obtain ⟨volume, -, rfl⟩ := List.mem_map.mp hv
    exact hmembers n hn
  obtain ⟨vs, hvs, hmem⟩ := Collection.property_ok (fun v : HeldVolume => (w.node v.node).resource)
    (w.resource r).nodes
    (fun n => Collection.init (fun v => (w.node v.node).resource)
      ((w.node n).disks.map (HeldVolume.mk n)))
    (fun n => OrderedSet.ofList ((w.node n).disks.map (HeldVolume.mk n))) r
    (fun n hn => Collection.init_ok (hheld n hn))
    (fun n hn v hv => hheld n hn v (OrderedSet.mem_ofList.mp hv))
  refine ⟨vs, hvs, fun v => ?_⟩
  rw [hmem]
  constructor
  · rintro ⟨n, hn, hv⟩
    obtain ⟨volume, hvolume, rfl⟩ := List.mem_map.mp (OrderedSet.mem_ofList.mp hv)
    exact ⟨hn, hvolume⟩
  · rintro ⟨hn, hv⟩
    exact ⟨v.node, hn, OrderedSet.mem_ofList.mpr (List.mem_map.mpr ⟨v.volume, hv, rfl⟩)⟩

/-- What `from_connections` gives: each connection with each volume of the first node, if that is
a member. -/
theorem fromConnections_ok (hmembers : ∀ n ∈ w.members r, (w.node n).resource = r)
    {cs : OrderedSet Connection} {first : Connection} {rest : List Connection}
    (hitems : cs.items = first :: rest) (hown : ∀ c ∈ cs, c.resource w = r) :
    ∃ pds, PeerDevices.fromConnections w cs = .ok pds ∧ ∀ pd : Connection × HeldVolume,
      pd ∈ pds ↔ pd.1 ∈ cs ∧ pd.2.node = first.node1 ∧ first.node1 ∈ w.members r ∧
        pd.2.volume ∈ (w.node first.node1).disks := by
  have hfirst : first.resource w = r := hown first (by rw [OrderedSet.mem_def, hitems]; exact List.mem_cons_self)
  obtain ⟨vs, hvs, hmem⟩ := resource_volumes hmembers
  let volumes := vs.items.filter fun x => x.node = first.node1
  have hinit : Collection.init (fun pd : Connection × HeldVolume => pd.1.resource w)
      (cs.items.flatMap fun c => volumes.map fun v => (c, v)) =
      .ok (OrderedSet.ofList (cs.items.flatMap fun c => volumes.map fun v => (c, v))) := by
    refine Collection.init_ok (a := r) fun pd hpd => ?_
    obtain ⟨c, hc, hpd⟩ := List.mem_flatMap.mp hpd
    obtain ⟨v, -, rfl⟩ := List.mem_map.mp hpd
    exact hown c hc
  refine ⟨OrderedSet.ofList (cs.items.flatMap fun c => volumes.map fun v => (c, v)), ?_, fun pd => ?_⟩
  · unfold PeerDevices.fromConnections
    rw [hitems]
    dsimp only
    rw [hfirst, hvs, ← hitems]
    exact hinit
  · have hvolume : ∀ v, v ∈ volumes ↔ v ∈ vs ∧ v.node = first.node1 := by
      intro v
      rw [List.mem_filter, decide_eq_true_eq]
      rfl
    rw [OrderedSet.mem_ofList, List.mem_flatMap]
    constructor
    · rintro ⟨c, hc, hpd⟩
      obtain ⟨v, hv, rfl⟩ := List.mem_map.mp hpd
      obtain ⟨hv, hnode⟩ := (hvolume v).mp hv
      obtain ⟨hmember, hdisks⟩ := (hmem v).mp hv
      rw [hnode] at hmember hdisks
      exact ⟨hc, hnode, hmember, hdisks⟩
    · rintro ⟨hc, hnode, hmember, hdisks⟩
      refine ⟨pd.1, hc, List.mem_map.mpr ⟨pd.2, (hvolume pd.2).mpr ⟨(hmem pd.2).mpr ?_, hnode⟩, rfl⟩⟩
      rw [hnode]
      exact ⟨hmember, hdisks⟩

/-- The selection yields a connection, and either no connection comes from a node with volumes, or
all of them come from one member. -/
def Selection.OneSource (w : World) (r : ResourceId) (s : Selection) : Prop :=
  (∃ c, s.Selects w r c) ∧ ((∀ c, s.Selects w r c → (w.node c.node1).disks = []) ∨
    ∃ f ∈ w.members r, ∀ c, s.Selects w r c → c.node1 = f)

theorem Selection.Of.mem_connections (h : s.Of w r) {cs : OrderedSet Connection}
    (hcs : s.connections w = .ok cs) (c : Connection) : c ∈ cs ↔ s.Selects w r c := by
  cases hs : s.refusal with
  | some message =>
    rw [Selection.refusal_eq_error hs] at hcs
    cases hcs
  | none =>
    obtain ⟨cs', hcs', hmem⟩ := h.connections_ok hs
    rw [hcs] at hcs'
    obtain rfl := Except.ok.inj hcs'
    exact hmem c

theorem Selection.Of.connection_own (h : s.Of w r) {c : Connection} (hc : s.Selects w r c) :
    c.resource w = r := by
  rcases hc with hc | ⟨-, hc⟩
  · exact Of.side_own h.from_own h.members_own _ hc.1
  · exact Of.side_own h.to_own h.members_own _ hc.2.1

theorem peerDevices_eq {cs : OrderedSet Connection} (hcs : s.connections w = .ok cs) :
    s.peerDevices w = PeerDevices.fromConnections w cs := by
  rw [Selection.peerDevices, hcs]
  rfl

/-- Where the results agree, all volumes were found at the node of the first connection. -/
theorem Selection.PeerDevicesAgree.oneSource (h : s.Of w r) {cs : OrderedSet Connection}
    (hcs : s.connections w = .ok cs) (hagree : s.PeerDevicesAgree w cs) : s.OneSource w r := by
  have hselects := h.mem_connections hcs
  obtain ⟨pds, hpds, -, hagree⟩ := hagree
  rw [peerDevices_eq hcs] at hpds
  rcases hitems : cs.items with _ | ⟨first, rest⟩
  · -- `connections[0]` raises
    rw [PeerDevices.fromConnections, hitems] at hpds
    cases hpds
  obtain ⟨pds', hpds', hmem⟩ := fromConnections_ok h.members_own hitems fun c hc =>
    h.connection_own ((hselects c).mp hc)
  rw [hpds] at hpds'
  obtain rfl := Except.ok.inj hpds'
  have hfirst : first ∈ cs := by
    rw [OrderedSet.mem_def, hitems]
    exact List.mem_cons_self
  refine ⟨⟨first, (hselects first).mp hfirst⟩, ?_⟩
  by_cases hempty : ∀ c, s.Selects w r c → (w.node c.node1).disks = []
  · exact .inl hempty
  right
  simp only [not_forall] at hempty
  obtain ⟨c, hc, hdisks⟩ := hempty
  obtain ⟨volume, hvolume⟩ := List.exists_mem_of_ne_nil _ hdisks
  -- a volume of this connection was found at the first node
  have hfound := (hmem (c, ⟨c.node1, volume⟩)).mp
    ((hagree (c, ⟨c.node1, volume⟩)).mpr ⟨(hselects c).mpr hc, rfl, hvolume⟩)
  refine ⟨first.node1, hfound.2.2.1, fun c' hc' => ?_⟩
  have hother := (hagree (c', ⟨first.node1, volume⟩)).mp
    ((hmem (c', ⟨first.node1, volume⟩)).mpr
      ⟨(hselects c').mpr hc', rfl, hfound.2.2.1, hfound.2.2.2⟩)
  exact hother.2.1.symm

theorem Selection.OneSource.agree (h : s.Of w r) {cs : OrderedSet Connection}
    (hcs : s.connections w = .ok cs) (hone : s.OneSource w r) : s.PeerDevicesAgree w cs := by
  have hselects := h.mem_connections hcs
  obtain ⟨⟨c₀, hc₀⟩, hone⟩ := hone
  rcases hitems : cs.items with _ | ⟨first, rest⟩
  · have hmem := (hselects c₀).mpr hc₀
    rw [OrderedSet.mem_def, hitems] at hmem
    cases hmem
  obtain ⟨pds, hpds, hmem⟩ := fromConnections_ok h.members_own hitems fun c hc =>
    h.connection_own ((hselects c).mp hc)
  have hfirst : s.Selects w r first := by
    apply (hselects first).mp
    rw [OrderedSet.mem_def, hitems]
    exact List.mem_cons_self
  refine ⟨pds, (peerDevices_eq hcs).trans hpds, pds.nodup, fun pd => ?_⟩
  rw [hmem]
  rcases hone with hempty | ⟨f, hf, hsource⟩
  · constructor
    · rintro ⟨-, -, -, hv⟩
      rw [hempty first hfirst] at hv
      cases hv
    · rintro ⟨hc, -, hv⟩
      rw [hempty pd.1 ((hselects pd.1).mp hc)] at hv
      cases hv
  · rw [hsource first hfirst]
    constructor
    · rintro ⟨hc, hnode, -, hv⟩
      rw [hsource pd.1 ((hselects pd.1).mp hc)]
      exact ⟨hc, hnode, hv⟩
    · rintro ⟨hc, hnode, hv⟩
      rw [hsource pd.1 ((hselects pd.1).mp hc)] at hnode hv
      exact ⟨hc, hnode, hf, hv⟩

/-- `peer_devices` agrees with `connections` exactly when there is a connection and the volumes of
its node are those of all connections. -/
theorem peer_devices_agree_iff (h : s.Of w r) {cs : OrderedSet Connection}
    (hcs : s.connections w = .ok cs) : s.PeerDevicesAgree w cs ↔ s.OneSource w r :=
  ⟨fun hagree => hagree.oneSource h hcs, fun hone => hone.agree h hcs⟩

/-- Two nodes with a volume each. -/
def twoDisks : World := Op.afterAll (World.plain 2) [.createResource none,
  .addDisk 0 ⟨"1G", none, .default, none, none, ⟨none, false, false, false, false⟩⟩]

/-- The connections between the two nodes, from the first one and in both directions. -/
def betweenTwo (bidir : Bool) : Selection := ⟨some 0, some 1, none, none, bidir⟩

theorem betweenTwo_of (bidir : Bool) : (betweenTwo bidir).Of twoDisks 0 where
  from_own := by
    change ∀ n ∈ [0], _
    decide +kernel
  to_own := by
    change ∀ n ∈ [1], _
    decide +kernel
  members_own := by decide +kernel

theorem peer_devices_agree_one_source : ∃ cs, (betweenTwo false).connections twoDisks = .ok cs ∧
    ((betweenTwo false).PeerDevicesAgree twoDisks cs ↔ (betweenTwo false).OneSource twoDisks 0) := by
  obtain ⟨cs, hcs, -⟩ := (betweenTwo_of false).connections_ok (by decide)
  exact ⟨cs, hcs, peer_devices_agree_iff (betweenTwo_of false) hcs⟩

/-- With `bidir`, the connection of the second node gets the volume of the first one. Without any
connection, the call raises. -/
theorem peer_devices_of_other_node :
    (∃ cs, (betweenTwo true).connections twoDisks = .ok cs ∧
      ¬ (betweenTwo true).PeerDevicesAgree twoDisks cs) ∧
    Selection.connections twoDisks ⟨none, none, some [], none, false⟩ = .ok OrderedSet.empty ∧
    Selection.peerDevices twoDisks ⟨none, none, some [], none, false⟩ = .error .indexError := by
  refine ⟨?_, rfl, rfl⟩
  obtain ⟨cs, hcs, -⟩ := (betweenTwo_of true).connections_ok (by decide)
  refine ⟨cs, hcs, fun h => ?_⟩
  obtain ⟨-, hempty | ⟨f, -, hone⟩⟩ := h.oneSource (betweenTwo_of true) hcs
  · exact absurd (hempty ⟨0, 1⟩ (by decide +kernel)) (by decide +kernel)
  · have h0 := hone ⟨0, 1⟩ (by decide +kernel)
    have h1 := hone ⟨1, 0⟩ (by decide +kernel)
    exact absurd (h0.trans h1.symm) (by decide)

end DrbdTests
