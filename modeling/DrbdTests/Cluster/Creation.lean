import DrbdTests.Cluster.Layout

/-!
# `create_resource`

`Building` describes the state while `create_resource` is running: whatever existed before
is untouched, and the nodes made so far are the members of the new resource. It holds
however the call ends; when the call returns, every new node also has a connection to every
other one.

`WellFormed` is the invariant that the members of every resource exist.
-/

namespace DrbdTests

open Stateful Runs

/-- A node as `Node.__init__` leaves it, in a new resource. -/
structure NewNode (w₀ w : World) (n : NodeId) : Prop where
  resource : (w.node n).resource = w₀.resourceCount
  host : (w.node n).host ∈ w₀.hosts
  disks : (w.node n).disks = []
  configChanged : (w.node n).configChanged = true
  connections : ∀ c ∈ (w.node n).connections,
    c.node1 = n ∧ c.node2 ≠ n ∧ w₀.nodeCount ≤ c.node2 ∧ c.node2 < w.nodeCount

/-- The state `w` of a call of `create_resource` that was made in `w₀`. -/
structure Building (w₀ w : World) : Prop where
  settings : w.settings = w₀.settings
  hosts : w.hosts = w₀.hosts
  hostInfo : ∀ h, (w.host h).info = (w₀.host h).info
  storagePool : ∀ h, (w.host h).storagePool = (w₀.host h).storagePool
  minors : ∀ h, (w.host h).minors = (w₀.host h).minors
  resources : w.resources = w₀.resources
  resourceCount : w.resourceCount = w₀.resourceCount + 1
  objectCount : w.objectCount = w₀.objectCount
  record : w.record = w₀.record
  nodeCount_le : w₀.nodeCount ≤ w.nodeCount
  resource : ∀ r, r ≠ w₀.resourceCount → w.resource r = w₀.resource r
  node : ∀ n, n < w₀.nodeCount → w.node n = w₀.node n
  members : ∀ n, n ∈ w.members w₀.resourceCount ↔ w₀.nodeCount ≤ n ∧ n < w.nodeCount
  newNode : ∀ n, w₀.nodeCount ≤ n → n < w.nodeCount → NewNode w₀ w n

variable {w₀ w w' : World}

theorem building_init (w₀ : World) (name : Option String) :
    ∃ w, Returns (Resource.init name) w₀ w₀.resourceCount w ∧ Building w₀ w := by
  refine ⟨_, rfl, ?_⟩
  have hnone : ∀ n, w₀.nodeCount ≤ n → n < w₀.nodeCount → False := by omega
  constructor
  case members =>
    intro n
    have hmembers : n ∉ (Function.update w₀.resource w₀.resourceCount
        { name := name.getD w₀.resourceName, netOptions := "", diskOptions := ""
          resourceOptions := "", handlers := "", nodes := OrderedSet.empty, numVolumes := 0
          transport := w₀.transport, tls := w₀.tls
          forbiddenPatterns := OrderedSet.ofList ["connection:Timeout",
            "connection:ProtocolError", "disk:Failed", "peer-disk:Failed"] }
        w₀.resourceCount).nodes.items := by
      rw [Function.update_self]
      exact OrderedSet.not_mem_empty n
    exact ⟨fun h => absurd h hmembers, fun h => absurd h.2 (Nat.not_lt.mpr h.1)⟩
  case newNode => exact fun n h₁ h₂ => (hnone n h₁ h₂).elim
  case resource => exact fun r hr => Function.update_of_ne hr _ _
  case nodeCount_le => exact Nat.le_refl _
  all_goals first | rfl | exact fun _ => rfl | exact fun _ _ => rfl

theorem Building.asking (h : Building w₀ w) (ha : asking.rel w w') : Building w₀ w' := by
  obtain ⟨hw, hr⟩ := ha
  have hrecord : w'.record = w₀.record := hr.trans h.record
  rw [hw] at hrecord ⊢
  exact { h with record := hrecord, newNode := fun n h₁ h₂ => { h.newNode n h₁ h₂ with } }

theorem Building.setHost (h : Building w₀ w) {k : HostId} {f : Host → Host}
    (hi : ∀ host, (f host).info = host.info)
    (hs : ∀ host, (f host).storagePool = host.storagePool)
    (hm : ∀ host, (f host).minors = host.minors) : Building w₀ (w.setHost k f) := by
  have hinfo : ∀ j, ((w.setHost k f).host j).info = (w.host j).info := by
    intro j
    rw [World.setHost_host]
    split
    · rw [hi, ‹j = k›]
    · rfl
  have hpool : ∀ j, ((w.setHost k f).host j).storagePool = (w.host j).storagePool := by
    intro j
    rw [World.setHost_host]
    split
    · rw [hs, ‹j = k›]
    · rfl
  have hminors : ∀ j, ((w.setHost k f).host j).minors = (w.host j).minors := by
    intro j
    rw [World.setHost_host]
    split
    · rw [hm, ‹j = k›]
    · rfl
  exact { h with
    hostInfo := fun j => (hinfo j).trans (h.hostInfo j)
    storagePool := fun j => (hpool j).trans (h.storagePool j)
    minors := fun j => (hminors j).trans (h.minors j)
    newNode := fun n h₁ h₂ => { h.newNode n h₁ h₂ with } }

/-- The node that `Node.__init__` makes. -/
def World.freshNode (w : World) (h : HostId) (r : ResourceId) (port : Port) : Node :=
  { fencingMode := "", host := h, resource := r, name := (w.host h).info.name, port := port
    disks := [], id := (w.resource r).nodes.length, configChanged := true
    connections := OrderedSet.empty }

/-- The state in which `Node.__init__` adds the node to its resource. -/
def World.withNode (w : World) (node : Node) : World :=
  { w with nodeCount := w.nodeCount + 1, node := Function.update w.node w.nodeCount node }

/-- The state after `Node.__init__` has added the node to its resource. -/
def World.addNewNode (w : World) (r : ResourceId) (node : Node) : World :=
  (w.withNode node).setResource r fun resource =>
    { resource with nodes := (w.resource r).nodes.add w.nodeCount }

/-- `init_node` of the platform helpers. -/
def initNode (h : HostId) (platform : Platform) (port : Port) : Py PUnit :=
  when (platform = .windows) (Host.act h
    ["netsh", "advfirewall", "firewall", "add", "rule", "name=DRBDTest" ++ toString port.val,
      "protocol=tcp", "dir=in", "localport=" ++ toString port.val, "action=allow"] none .none)

theorem asking_initNode (h : HostId) (platform : Platform) (port : Port) :
    asking.Holds (initNode h platform port) := Frame.holds_when fun _ => asking_act h _ none

theorem exec_nodeInit (h : HostId) (r : ResourceId) (port : Port) (w : World) :
    exec (Node.init h r port) w = exec (do
      let nodes ← Py.liftExcept (Collection.add
        (fun m => ((w.withNode (w.freshNode h r port)).node m).resource) (w.resource r).nodes
        w.nodeCount)
      modify fun w => w.setResource r fun resource => { resource with nodes := nodes }
      initNode h (w.host h).info.platform port
      return w.nodeCount) (w.withNode (w.freshNode h r port)) := rfl

/-- The assertion of `Collection.add` when `Node.__init__` adds the node. -/
def World.acceptsNew (w : World) (h : HostId) (r : ResourceId) (port : Port) : Bool :=
  Collection.sameResource (fun m => ((w.withNode (w.freshNode h r port)).node m).resource)
    (w.resource r).nodes [w.nodeCount]

/-- After the node has been added, `Node.__init__` only runs a command. -/
theorem nodeInit_accepted {h : HostId} {r : ResourceId} {port : Port} {w : World}
    (hadd : w.acceptsNew h r port = true) :
    asking.rel (w.addNewNode r (w.freshNode h r port)) (exec (Node.init h r port) w).2 := by
  have hasking : asking.Holds (do
      initNode h (w.host h).info.platform port
      return w.nodeCount) :=
    Frame.holds_bind (asking_initNode h _ port) fun _ => Frame.holds_pure _
  have hok : Collection.add (fun m => ((w.withNode (w.freshNode h r port)).node m).resource)
      (w.resource r).nodes w.nodeCount = .ok ((w.resource r).nodes.add w.nodeCount) := if_pos hadd
  rw [exec_nodeInit, hok]
  exact hasking (w.addNewNode r (w.freshNode h r port))

theorem nodeInit_rejected {h : HostId} {r : ResourceId} {port : Port} {w : World}
    (hadd : w.acceptsNew h r port = false) :
    (exec (Node.init h r port) w).2 = w.withNode (w.freshNode h r port) := by
  have herror : Collection.add (fun m => ((w.withNode (w.freshNode h r port)).node m).resource)
      (w.resource r).nodes w.nodeCount = .error .assertionError := by
    apply if_neg
    rw [Bool.not_eq_true]
    exact hadd
  rw [exec_nodeInit, herror]
  rfl

theorem Building.addNewNode (h : Building w₀ w) {node : Node}
    (hr : node.resource = w₀.resourceCount) (hh : node.host ∈ w₀.hosts) (hd : node.disks = [])
    (hf : node.configChanged = true) (hc : node.connections = OrderedSet.empty) :
    Building w₀ (w.addNewNode w₀.resourceCount node) := by
  have hle := h.nodeCount_le
  have hold : ∀ n, n < w.nodeCount → (w.addNewNode w₀.resourceCount node).node n = w.node n :=
    fun n hn => Function.update_of_ne (Nat.ne_of_lt hn) _ _
  have hnew : (w.addNewNode w₀.resourceCount node).node w.nodeCount = node :=
    Function.update_self _ _ _
  constructor
  case nodeCount_le =>
    change w₀.nodeCount ≤ w.nodeCount + 1
    omega
  case resource =>
    intro r hr
    rw [← h.resource r hr, World.addNewNode, World.setResource_resource, if_neg hr]
    rfl
  case node =>
    intro n hn
    rw [hold n (by omega), h.node n hn]
  case members =>
    intro n
    have hmem : n ∈ (w.addNewNode w₀.resourceCount node).members w₀.resourceCount ↔
        n ∈ w.members w₀.resourceCount ∨ n = w.nodeCount := by
      rw [World.members, World.addNewNode, World.setResource_resource, if_pos rfl]
      exact OrderedSet.mem_add
    rw [hmem, h.members]
    constructor
    · rintro (⟨h₁, h₂⟩ | rfl)
      · exact ⟨h₁, Nat.lt_succ_of_lt h₂⟩
      · exact ⟨hle, Nat.lt_succ_self _⟩
    · rintro ⟨h₁, h₂⟩
      rcases Nat.lt_succ_iff_lt_or_eq.mp h₂ with h₂ | h₂
      · exact Or.inl ⟨h₁, h₂⟩
      · exact Or.inr h₂
  case newNode =>
    intro n h₁ h₂
    change n < w.nodeCount + 1 at h₂
    by_cases hn : n = w.nodeCount
    · subst hn
      constructor <;> rw [hnew]
      · exact hr
      · exact hh
      · exact hd
      · exact hf
      · rw [hc]
        exact fun c hmem => absurd hmem (OrderedSet.not_mem_empty c)
    · have hlt : n < w.nodeCount := by omega
      have hn' := h.newNode n h₁ hlt
      constructor <;> rw [hold n hlt]
      · exact hn'.resource
      · exact hn'.host
      · exact hn'.disks
      · exact hn'.configChanged
      · intro c hmem
        obtain ⟨h1, h2, h3, h4⟩ := hn'.connections c hmem
        exact ⟨h1, h2, h3, Nat.lt_succ_of_lt h4⟩
  case settings => exact h.settings
  case hosts => exact h.hosts
  case hostInfo => exact h.hostInfo
  case storagePool => exact h.storagePool
  case minors => exact h.minors
  case resources => exact h.resources
  case resourceCount => exact h.resourceCount
  case objectCount => exact h.objectCount
  case record => exact h.record

/-- `Node.__init__` cannot fail in the assertion of `Collection.add`: the node is already
in the new resource, as the other members are. -/
theorem Building.acceptsNew (hB : Building w₀ w) (h : HostId) (port : Port) :
    w.acceptsNew h w₀.resourceCount port = true := by
  refine Collection.sameResource_of_forall (r := w₀.resourceCount) ?_ ?_
  · intro m hm
    obtain ⟨h₁, h₂⟩ := (hB.members m).mp hm
    rw [show (w.withNode _).node m = w.node m from Function.update_of_ne (Nat.ne_of_lt h₂) _ _]
    exact (hB.newNode m h₁ h₂).resource
  · intro m hm
    rw [List.mem_singleton.mp hm,
      show (w.withNode _).node w.nodeCount = _ from Function.update_self _ _ _]
    rfl

theorem keeping_nodeInit (h : HostId) (hh : h ∈ w₀.hosts) (port : Port) :
    (Frame.keeping (Building w₀)).Holds (Node.init h w₀.resourceCount port) := fun _ hB =>
  (hB.addNewNode rfl hh rfl rfl rfl).asking (nodeInit_accepted (hB.acceptsNew h port))

theorem keeping_nextPort (h : HostId) :
    (Frame.keeping (Building w₀)).Holds (Host.nextPort h) :=
  Frame.holds_bind Frame.holds_get fun _ =>
    Frame.holds_bind (Frame.holds_modify fun _ hB =>
        hB.setHost (fun _ => rfl) (fun _ => rfl) fun _ => rfl)
      fun _ => Frame.holds_pure _

/-! ## Connections -/

/-- Each pair of new nodes for which `add` returned has its connection. -/
theorem Building.addConnection (h : Building w₀ w) {node0 node1 : NodeId}
    (h0 : node0 ∈ w.members w₀.resourceCount) (h1 : node1 ∈ w.members w₀.resourceCount)
    (hne : node0 ≠ node1) :
    ∃ w', Returns (Node.addConnection node0 node1) w ⟨⟩ w' ∧ Building w₀ w' ∧
      w'.nodeCount = w.nodeCount ∧
      ∀ n c, c ∈ (w'.node n).connections ↔
        c ∈ (w.node n).connections ∨ n = node0 ∧ c = ⟨node0, node1⟩ := by
  obtain ⟨h0₁, h0₂⟩ := (h.members node0).mp h0
  obtain ⟨h1₁, h1₂⟩ := (h.members node1).mp h1
  have hr0 := (h.newNode node0 h0₁ h0₂).resource
  have hr1 := (h.newNode node1 h1₁ h1₂).resource
  have hadd : Collection.add (fun (c : Connection) => (w.node c.node1).resource)
      (w.node node0).connections ⟨node0, node1⟩
        = .ok ((w.node node0).connections.add ⟨node0, node1⟩) := by
    refine if_pos (Collection.sameResource_of_forall (r := w₀.resourceCount) ?_ ?_)
    · intro c hc
      rw [((h.newNode node0 h0₁ h0₂).connections c hc).1]
      exact hr0
    · intro c hc
      rw [List.mem_singleton.mp hc]
      exact hr0
  let w' := w.setNode node0 fun node =>
    { node with connections := (w.node node0).connections.add ⟨node0, node1⟩ }
  have hexec : Returns (Node.addConnection node0 node1) w ⟨⟩ w' := by
    unfold Node.addConnection
    rw [returns_get_bind, hr0, hr1, hadd]
    simp only [ne_eq, not_true_eq_false, decide_false, when_false]
    rfl
  have hconn : ∀ n c, c ∈ (w'.node n).connections ↔
      c ∈ (w.node n).connections ∨ n = node0 ∧ c = ⟨node0, node1⟩ := by
    intro n c
    rw [World.setNode_node]
    by_cases hn : n = node0
    · rw [if_pos hn, hn]
      simp
    · rw [if_neg hn]
      simp [hn]
  refine ⟨w', hexec, ?_, rfl, hconn⟩
  have hother : ∀ n, n ≠ node0 → w'.node n = w.node n := fun n hn => Function.update_of_ne hn _ _
  exact { h with
    node := fun n hn => by
      rw [hother n (by rintro rfl; exact absurd hn (Nat.not_lt.mpr h0₁)), h.node n hn]
    newNode := fun n h₁ h₂ => by
      have hn := h.newNode n h₁ h₂
      have hcs : ∀ c ∈ (w'.node n).connections,
          c.node1 = n ∧ c.node2 ≠ n ∧ w₀.nodeCount ≤ c.node2 ∧ c.node2 < w.nodeCount := by
        intro c hc
        rcases (hconn n c).mp hc with hc | ⟨rfl, rfl⟩
        · exact hn.connections c hc
        · exact ⟨rfl, hne.symm, h1₁, h1₂⟩
      by_cases hn0 : n = node0
      · subst hn0
        constructor
        case connections => exact hcs
        all_goals rw [World.setNode_node, if_pos rfl]
        · exact hn.resource
        · exact hn.host
        · exact hn.disks
        · exact hn.configChanged
      · constructor
        case connections => exact hcs
        all_goals rw [hother n hn0]
        · exact hn.resource
        · exact hn.host
        · exact hn.disks
        · exact hn.configChanged }

theorem Building.mem_members_congr (h : Building w₀ w) (h' : Building w₀ w')
    (hcount : w'.nodeCount = w.nodeCount) (n : NodeId) :
    n ∈ w'.members w₀.resourceCount ↔ n ∈ w.members w₀.resourceCount := by
  rw [h'.members, h.members, hcount]

/-- The inner loop of `create_resource`. -/
theorem Building.connectFrom (h : Building w₀ w) {node0 : NodeId}
    (h0 : node0 ∈ w.members w₀.resourceCount) (nodes : List NodeId)
    (hnodes : ∀ m ∈ nodes, m ∈ w.members w₀.resourceCount) :
    ∃ w', Returns (nodes.forM fun node1 =>
        when (node0 ≠ node1) (Node.addConnection node0 node1)) w ⟨⟩ w' ∧
      Building w₀ w' ∧ w'.nodeCount = w.nodeCount ∧
      ∀ n c, c ∈ (w'.node n).connections ↔
        c ∈ (w.node n).connections ∨ n = node0 ∧ ∃ m ∈ nodes, node0 ≠ m ∧ c = ⟨node0, m⟩ := by
  induction nodes generalizing w with
  | nil => exact ⟨w, returns_forM_nil.mpr rfl, h, rfl, by simp⟩
  | cons node1 nodes ih =>
    by_cases hne : node0 = node1
    · obtain ⟨w', hr, hB, hcount, hc⟩ := ih h h0 fun m hm => hnodes m (by simp [hm])
      refine ⟨w', ?_, hB, hcount, fun n c => ?_⟩
      · refine returns_forM_cons.mpr ⟨w, ?_, hr⟩
        simp [hne]
      · rw [hc]
        simp [hne]
    · obtain ⟨w₁, hr₁, hB₁, hcount₁, hc₁⟩ := h.addConnection h0 (hnodes node1 (by simp)) hne
      have hmem := h.mem_members_congr hB₁ hcount₁
      obtain ⟨w', hr, hB, hcount, hc⟩ := ih hB₁ ((hmem _).mpr h0) fun m hm =>
        (hmem m).mpr (hnodes m (by simp [hm]))
      refine ⟨w', ?_, hB, hcount.trans hcount₁, fun n c => ?_⟩
      · refine returns_forM_cons.mpr ⟨w₁, ?_, hr⟩
        simpa [hne] using hr₁
      · rw [hc, hc₁]
        simp only [List.mem_cons, exists_eq_or_imp]
        tauto

/-- The two loops of `create_resource` connect every node with every other one. -/
theorem Building.connectAll (h : Building w₀ w) (from_ nodes : List NodeId)
    (hfrom : ∀ m ∈ from_, m ∈ w.members w₀.resourceCount)
    (hnodes : ∀ m ∈ nodes, m ∈ w.members w₀.resourceCount) :
    ∃ w', Returns (from_.forM fun node0 => nodes.forM fun node1 =>
        when (node0 ≠ node1) (Node.addConnection node0 node1)) w ⟨⟩ w' ∧
      Building w₀ w' ∧ w'.nodeCount = w.nodeCount ∧
      ∀ n c, c ∈ (w'.node n).connections ↔
        c ∈ (w.node n).connections ∨ n ∈ from_ ∧ ∃ m ∈ nodes, n ≠ m ∧ c = ⟨n, m⟩ := by
  induction from_ generalizing w with
  | nil => exact ⟨w, returns_forM_nil.mpr rfl, h, rfl, by simp⟩
  | cons node0 rest ih =>
    obtain ⟨w₁, hr₁, hB₁, hcount₁, hc₁⟩ := h.connectFrom (hfrom node0 (by simp)) nodes hnodes
    have hmem := h.mem_members_congr hB₁ hcount₁
    obtain ⟨w', hr, hB, hcount, hc⟩ := ih hB₁ (fun m hm => (hmem m).mpr (hfrom m (by simp [hm])))
      fun m hm => (hmem m).mpr (hnodes m hm)
    refine ⟨w', returns_forM_cons.mpr ⟨w₁, hr₁, hr⟩, hB, hcount.trans hcount₁, fun n c => ?_⟩
    rw [hc, hc₁, List.mem_cons]
    constructor
    · rintro ((hc | ⟨rfl, hm⟩) | ⟨hn, hm⟩)
      · exact Or.inl hc
      · exact Or.inr ⟨Or.inl rfl, hm⟩
      · exact Or.inr ⟨Or.inr hn, hm⟩
    · rintro (hc | ⟨rfl | hn, hm⟩)
      · exact Or.inl (Or.inl hc)
      · exact Or.inl (Or.inr ⟨rfl, hm⟩)
      · exact Or.inr ⟨hn, hm⟩

/-- Every new node has a connection to every other one. -/
def Connected (w₀ w : World) : Prop :=
  ∀ n c, w₀.nodeCount ≤ n → n < w.nodeCount → (c ∈ (w.node n).connections ↔
    c.node1 = n ∧ c.node2 ≠ n ∧ w₀.nodeCount ≤ c.node2 ∧ c.node2 < w.nodeCount)

/-- What `create_resource` does: it raises while the resource is under construction, or
returns with the new nodes as members, each connected with every other one. -/
theorem createResource_cases (name : Option String) (w₀ : World) :
    (∃ e w, exec (Cluster.createResource name) w₀ = (.error e, w) ∧ Building w₀ w) ∨
    ∃ w, Building w₀ w ∧ Connected w₀ w ∧
      Returns (Cluster.createResource name) w₀ w₀.resourceCount
        { w with resources := w.resources ++ [w₀.resourceCount] } := by
  obtain ⟨w₁, hinit, hB₁⟩ := building_init w₀ name
  have hloop : (Frame.keeping (Building w₀)).Holds (w₁.hosts.forM fun h => do
      let port ← Host.nextPort h
      let _ ← Node.init h w₀.resourceCount port) := by
    refine Frame.holds_forM _ fun h hh => Frame.holds_bind (keeping_nextPort h) fun port => ?_
    rw [hB₁.hosts] at hh
    exact Frame.holds_bind (keeping_nodeInit h hh port) fun _ => Frame.holds_pure _
  unfold Cluster.createResource
  rw [exec_bind_of_ok hinit, exec_get_bind]
  have hB₂ := hloop w₁ hB₁
  rcases h₂ : exec (w₁.hosts.forM fun h => do
      let port ← Host.nextPort h
      let _ ← Node.init h w₀.resourceCount port) w₁ with ⟨e | ⟨⟩, w₂⟩
  · rw [h₂] at hB₂
    exact Or.inl ⟨e, w₂, by rw [exec_bind_of_error h₂], hB₂⟩
  · rw [h₂] at hB₂
    obtain ⟨w₃, hr₃, hB₃, hcount₃, hc₃⟩ := Building.connectAll (w := w₂) hB₂
      (w₂.members w₀.resourceCount) (w₂.members w₀.resourceCount) (fun _ h => h) fun _ h => h
    refine Or.inr ⟨w₃, hB₃, fun n c hn₁ hn₂ => ?_, ?_⟩
    · constructor
      · exact (hB₃.newNode n hn₁ hn₂).connections c
      · obtain ⟨node1, node2⟩ := c
        rintro ⟨rfl, hne, h2₁, h2₂⟩
        rw [hcount₃] at hn₂ h2₂
        exact (hc₃ _ _).mpr (Or.inr ⟨(hB₂.members _).mpr ⟨hn₁, hn₂⟩, node2,
          (hB₂.members _).mpr ⟨h2₁, h2₂⟩, hne.symm, rfl⟩)
    · rw [Returns, exec_bind_of_ok hinit, exec_get_bind, exec_bind_of_ok h₂, exec_get_bind,
        exec_bind_of_ok hr₃]
      rfl

theorem createResource_returns {name : Option String} {r : ResourceId}
    (h : Returns (Cluster.createResource name) w r w') : r = w.resourceCount ∧
      ∃ w₁, Building w w₁ ∧ Connected w w₁ ∧
        w' = { w₁ with resources := w₁.resources ++ [w.resourceCount] } := by
  rcases createResource_cases name w with ⟨e, w₁, hexec, -⟩ | ⟨w₁, hB, hC, hr⟩
  · rw [Returns, hexec] at h
    cases h
  · exact ⟨(h.unique hr).1, w₁, hB, hC, (h.unique hr).2⟩

/-! ## One call -/

/-- What one call can do to the layout without the disks. -/
inductive MeshStep (w : World) (op : Op) (w' : World) : Prop
  | same (h : w'.layout.mesh = w.layout.mesh)
  | creating (hB : Building w w')
  | created (w₁ : World) (hB : Building w w₁) (hC : Connected w w₁)
      (h : w' = { w₁ with resources := w₁.resources ++ [w.resourceCount] })
  | addNode (r : ResourceId) (n : NodeId) (hop : op = .addNode r n) (hr : r ∈ w.resources)
      (hn : n < w.nodeCount) (h : w'.layout.mesh = { w.layout.mesh with
        members := Function.update w.layout.members r ((w.resource r).nodes.add n) })
  | removeNode (r : ResourceId) (n : NodeId) (hop : op = .removeNode r n)
      (h : w'.layout.mesh = { w.layout.mesh with
        members := Function.update w.layout.members r ((w.resource r).nodes.discard n) })

theorem layout_setNodes (w : World) (r : ResourceId) (nodes : OrderedSet NodeId) :
    (w.setResource r fun resource => { resource with nodes := nodes }).layout.mesh =
      { w.layout.mesh with members := Function.update w.layout.members r nodes } := by
  unfold World.layout Layout.mesh
  congr 1
  funext s
  dsimp only
  rw [World.setResource_resource, Function.update_apply]
  split <;> rfl

theorem meshStep_of_attempt {op : Op} (h : op.Attempt w w') : MeshStep w op w' := by
  obtain ⟨href, rfl⟩ := h
  have hdisks : op.KeepsLayout ∨ op.ChangesDisks → MeshStep w op (exec op.exec w).2 := by
    rintro (hop | hop)
    · exact .same (keepingMesh_of_layout (keepingLayout_exec hop) w)
    · exact .same (keepingMesh_exec hop w)
  cases op with
  | createResource name =>
    rcases createResource_cases name w with ⟨e, w₁, hexec, hB⟩ | ⟨w₁, hB, hC, hr⟩
    · refine .creating ?_
      rw [Op.exec, exec_bind_of_error hexec]
      exact hB
    · refine .created w₁ hB hC ?_
      rw [Op.exec, exec_bind_of_ok hr]
      rfl
  | addNode r n =>
    rcases addNode_cases r n w with ⟨e, hexec⟩ | ⟨w₁, hw₁, hr⟩
    · refine .same ?_
      rw [Op.exec, hexec]
    · refine .addNode r n rfl href.1 href.2 ?_
      rw [Op.exec, show exec (Resource.addNode r n) w = _ from hr]
      rw [layout_touch, hw₁, layout_setNodes]
  | removeNode r n =>
    rcases removeNode_cases r n w with ⟨e, hexec⟩ | ⟨w₁, hw₁, hr⟩
    · refine .same ?_
      rw [Op.exec, hexec]
    · refine .removeNode r n rfl ?_
      rw [Op.exec, show exec (Resource.removeNode r n) w = _ from hr]
      rw [layout_touch, hw₁, layout_setNodes]
  | addDisk | nodeAddDisk | removeDisks | removeStoragePool | setTiebreaker =>
    exact hdisks (Or.inr trivial)
  | createStoragePool | nextVolume | setNetOptions | setDiskOptions | setResourceOptions
  | setHandlers | setFencingMode | rename | installDrbd | run => exact hdisks (Or.inl trivial)

/-! ## Members exist -/

structure WellFormed (w : World) : Prop where
  resources_lt : ∀ r ∈ w.resources, r < w.resourceCount
  nodeResource_lt : ∀ n, n < w.nodeCount → (w.node n).resource < w.resourceCount
  members_lt : ∀ r ∈ w.resources, ∀ n ∈ w.members r, n < w.nodeCount

theorem wellFormed_of_initial (h : w.Initial) : WellFormed w where
  resources_lt := by simp [h.resources_nil]
  nodeResource_lt := by simp [h.nodeCount_zero]
  members_lt := by simp [h.resources_nil]

/-- Members are looked up in the layout. -/
theorem mem_members_of_mesh {l : Layout} (h : w'.layout.mesh = l) (r : ResourceId) (n : NodeId) :
    n ∈ w'.members r ↔ n ∈ l.members r := by
  rw [← h]
  rfl

theorem members_of_mesh (h : w'.layout.mesh = w.layout.mesh) (r : ResourceId) :
    w'.members r = w.members r := by
  have hm := congrArg OrderedSet.items (congrFun (congrArg Layout.members h) r)
  exact hm

theorem Building.wellFormed (hB : Building w w') (h : WellFormed w) : WellFormed w' where
  resources_lt r hr := by
    rw [hB.resources] at hr
    rw [hB.resourceCount]
    exact Nat.lt_succ_of_lt (h.resources_lt r hr)
  nodeResource_lt n hn := by
    rw [hB.resourceCount]
    by_cases hold : n < w.nodeCount
    · rw [hB.node n hold]
      exact Nat.lt_succ_of_lt (h.nodeResource_lt n hold)
    · rw [(hB.newNode n (Nat.not_lt.mp hold) hn).resource]
      exact Nat.lt_succ_self _
  members_lt r hr n hn := by
    rw [hB.resources] at hr
    have hlt := h.resources_lt r hr
    rw [World.members, hB.resource r (Nat.ne_of_lt hlt)] at hn
    exact Nat.lt_of_lt_of_le (h.members_lt r hr n hn) hB.nodeCount_le

theorem WellFormed.step {op : Op} (h : WellFormed w) (hstep : MeshStep w op w') : WellFormed w' := by
  -- the counts and the resources of nodes can be read off the mesh
  have hmesh : ∀ members, w'.layout.mesh = { w.layout.mesh with members := members } →
      (∀ r ∈ w.resources, ∀ n ∈ members r, n < w.nodeCount) → WellFormed w' := by
    intro members hw hm
    have hres : w'.resources = w.resources := congrArg Layout.resources hw
    have hcount : w'.nodeCount = w.nodeCount := congrArg Layout.nodeCount hw
    have hrc : w'.resourceCount = w.resourceCount := congrArg Layout.resourceCount hw
    have hnr : ∀ n, (w'.node n).resource = (w.node n).resource :=
      congrFun (congrArg Layout.nodeResource hw)
    constructor
    · rw [hres, hrc]
      exact h.resources_lt
    · intro n hn
      rw [hnr, hrc]
      exact h.nodeResource_lt n (hcount ▸ hn)
    · intro r hr n hn
      rw [hcount]
      exact hm r (hres ▸ hr) n ((mem_members_of_mesh hw r n).mp hn)
  cases hstep with
  | same hw => exact hmesh _ hw h.members_lt
  | creating hB => exact hB.wellFormed h
  | created w₁ hB hC hw =>
    subst hw
    have h₁ := hB.wellFormed h
    have hr : ∀ r, r ∈ w₁.resources ++ [w.resourceCount] → r ∈ w₁.resources ∨ r = w.resourceCount := by
      simp
    constructor
    · intro r hmem
      rcases hr r hmem with hmem | rfl
      · exact h₁.resources_lt r hmem
      · change _ < w₁.resourceCount
        rw [hB.resourceCount]
        exact Nat.lt_succ_self _
    · exact h₁.nodeResource_lt
    · intro r hmem n hn
      rcases hr r hmem with hmem | rfl
      · exact h₁.members_lt r hmem n hn
      · exact ((hB.members n).mp hn).2
  | addNode r n hop hr hn hw =>
    refine hmesh _ hw fun s hs m hm => ?_
    rw [Function.update_apply] at hm
    split at hm
    · rcases OrderedSet.mem_add.mp hm with hm | rfl
      · exact h.members_lt r hr m hm
      · exact hn
    · exact h.members_lt s hs m hm
  | removeNode r n hop hw =>
    refine hmesh _ hw fun s hs m hm => ?_
    rw [Function.update_apply] at hm
    split at hm
    · rename_i hsr
      subst hsr
      exact h.members_lt s hs m (OrderedSet.mem_discard.mp hm).2
    · exact h.members_lt s hs m hm

/-- Members exist in every state of every run, whatever its calls raise. -/
theorem wellFormed_of_run {ops : List Op} (h₀ : w₀.Initial)
    (run : Run (fun w (op : Op) w' => op.Attempt w w') w₀ ops w) : WellFormed w :=
  run.invariant (wellFormed_of_initial h₀) fun _ _ _ h hstep => h.step (meshStep_of_attempt hstep)

end DrbdTests
