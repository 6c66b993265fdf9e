import DrbdTests.Cluster.Creation
import DrbdTests.Config.Statements

/-!
# Ports

Every host has a counter for ports, and `create_resource` takes one port from the counter of
each host. When the counters start at the same port, they stay level: the nodes of a resource
all get the port of the resource, and no other resource has it (`Ported`).

In the config of a node the connections are the last part. Of the node that generates them
they only depend on its port, which the proxy sections write for both ends; so all nodes of a
resource generate the same connections, and both ends have their own port.
-/

namespace DrbdTests

open Stateful Runs Config

/-- The ports that the hosts and the nodes have. -/
def World.ports (w : World) : (HostId → Port) × (NodeId → Port) × Nat :=
  (fun h => (w.host h).port, fun n => (w.node n).port, w.nodeCount)

def keepingPorts : Frame World := Frame.fixing World.ports

/-- The counters of all hosts are as far ahead of the first port as there are resources, and
each node has the port at which they were when its resource was created. -/
structure Ported (first : Nat) (w : World) : Prop where
  hosts_nodup : w.hosts.Nodup
  resources_lt : ∀ r ∈ w.resources, r < w.resourceCount
  host : ∀ h ∈ w.hosts, (w.host h).port.val = first + w.resourceCount
  node : ∀ n < w.nodeCount, (w.node n).port.val = first + (w.node n).resource
  member : ∀ r ∈ w.resources, ∀ n ∈ w.members r, n < w.nodeCount ∧ (w.node n).resource = r

variable {w₀ w w' : World}

/-! ## The loops of `create_resource` -/

theorem keepingPorts_resourceInit (name : Option String) :
    keepingPorts.Holds (Resource.init name) := by
  intro w
  rfl

theorem keepingPorts_addConnection (node0 node1 : NodeId) :
    keepingPorts.Holds (Node.addConnection node0 node1) := by
  refine Frame.holds_bind Frame.holds_get fun w => ?_
  refine Frame.holds_bind (Frame.holds_when fun _ => Frame.holds_throw _) fun _ => ?_
  refine Frame.holds_bind (holds_liftExcept _) fun connections => ?_
  refine Frame.holds_modify fun w => ?_
  have hport : (fun n => ((w.setNode node0 fun node =>
      { node with connections := connections }).node n).port) = fun n => (w.node n).port := by
    ext1 n
    rw [World.setNode_node]
    split
    · subst n
      rfl
    · rfl
  change World.ports _ = World.ports w
  unfold World.ports
  rw [hport]
  rfl

theorem nextPort_returns {h : HostId} {port : Port} (hr : Returns (Host.nextPort h) w port w') :
    port = (w.host h).port ∧ w' = w.setHost h fun host =>
      { host with port := ⟨(w.host h).port.val + 1, Nat.succ_pos _⟩ } := by
  unfold Host.nextPort at hr
  rw [returns_get_bind] at hr
  obtain ⟨_, u, hset, hr⟩ := returns_bind.mp hr
  rw [returns_modify] at hset
  obtain ⟨hport, hw⟩ := returns_pure.mp hr
  exact ⟨hport.symm, by rw [← hw, ← hset]⟩

/-- The state of the loop over the hosts when it has passed some of them. -/
structure PortLoop (w₀ : World) (port : Nat) (passed : List HostId) (w : World) : Prop where
  building : Building w₀ w
  host : ∀ h ∈ w₀.hosts, (w.host h).port.val = if h ∈ passed then port + 1 else port
  node : ∀ n, w₀.nodeCount ≤ n → n < w.nodeCount → (w.node n).port.val = port

theorem PortLoop.step {port : Nat} {passed : List HostId} {h : HostId}
    (hloop : PortLoop w₀ port passed w) (hh : h ∈ w₀.hosts) (hnew : h ∉ passed)
    (hr : Returns (do
      let p ← Host.nextPort h
      let _ ← Node.init h w₀.resourceCount p) w ⟨⟩ w') :
    PortLoop w₀ port (passed ++ [h]) w' := by
  obtain ⟨p, u, hnext, hr⟩ := returns_bind.mp hr
  obtain ⟨n, hinit⟩ := returns_drop.mp hr
  obtain ⟨hp, hu⟩ := nextPort_returns hnext
  have hport : p.val = port := by
    rw [hp, hloop.host h hh, if_neg hnew]
  have hbuilding : Building w₀ u := (keeping_nextPort h).rel_of_returns hnext hloop.building
  have hbuilding' : Building w₀ w' := (keeping_nodeInit h hh p).rel_of_returns hinit hbuilding
  have hgraph : w'.graph = (u.addNewNode w₀.resourceCount
      (u.freshNode h w₀.resourceCount p)).graph := by
    have hasking := nodeInit_accepted (hbuilding.acceptsNew h p)
    rw [show exec (Node.init h w₀.resourceCount p) u = _ from hinit] at hasking
    exact graph_of_asking hasking
  refine ⟨hbuilding', ?_, ?_⟩
  · intro k hk
    rw [graph_hostPort hgraph k]
    change (u.host k).port.val = _
    rw [hu, World.setHost_host]
    by_cases hkh : k = h
    · subst k
      rw [if_pos rfl, if_pos (by simp), ← hport, hp]
    · rw [if_neg hkh, hloop.host k hk]
      simp [hkh]
  · intro m hm₁ hm₂
    rw [graph_nodeCount hgraph] at hm₂
    change m < u.nodeCount + 1 at hm₂
    have hcount : u.nodeCount = w.nodeCount := by rw [hu]; rfl
    have hnode : u.node = w.node := by rw [hu]; rfl
    rw [graph_nodePort hgraph m]
    by_cases hmn : m = u.nodeCount
    · subst m
      rw [show (u.addNewNode _ _).node u.nodeCount = _ from Function.update_self _ _ _]
      exact hport
    · rw [show (u.addNewNode _ _).node m = u.node m from Function.update_of_ne hmn _ _, hnode]
      exact hloop.node m hm₁ (by omega)

/-- A resource whose creation returns has the port of the counters, which are then one ahead. -/
theorem createResource_ports {name : Option String} {r : ResourceId} {port : Nat}
    (hnodup : w.hosts.Nodup) (hport : ∀ h ∈ w.hosts, (w.host h).port.val = port)
    (hr : Returns (Cluster.createResource name) w r w') :
    (∀ h ∈ w.hosts, (w'.host h).port.val = port + 1) ∧
      ∀ n, w.nodeCount ≤ n → n < w'.nodeCount → (w'.node n).port.val = port := by
  unfold Cluster.createResource at hr
  obtain ⟨r₁, w₁, hinit, hr⟩ := returns_bind.mp hr
  rw [returns_get_bind] at hr
  obtain ⟨_, w₂, hhosts, hr⟩ := returns_bind.mp hr
  rw [returns_get_bind] at hr
  obtain ⟨_, w₃, hconnect, hr⟩ := returns_bind.mp hr
  obtain ⟨_, w₄, happend, hr⟩ := returns_bind.mp hr
  rw [returns_modify] at happend
  obtain ⟨-, hw'⟩ := returns_pure.mp hr
  obtain ⟨w₁', hinit', hbuilding⟩ := building_init w name
  obtain ⟨hr₁, hw₁⟩ := hinit.unique hinit'
  subst hr₁ hw₁
  have hports₁ : w₁.ports = w.ports := (keepingPorts_resourceInit name).rel_of_returns hinit
  have hloop₁ : PortLoop w port [] w₁ := by
    refine ⟨hbuilding, ?_, ?_⟩
    · intro h hh
      rw [if_neg (by simp), ← hport h hh]
      exact congrArg Subtype.val (congrFun (congrArg Prod.fst hports₁) h)
    · intro n hn₁ hn₂
      rw [show w₁.nodeCount = w.nodeCount from congrArg (fun p => p.2.2) hports₁] at hn₂
      omega
  have hloop₂ : PortLoop w port w₁.hosts w₂ := by
    refine Returns.forM_invariant (PortLoop w port) hhosts hloop₁ ?_
    intro pre h post s s' hxs hI hs
    rw [hbuilding.hosts] at hxs
    have hnew : h ∉ pre := by
      rw [hxs] at hnodup
      intro hmem
      exact (List.nodup_append.mp hnodup).2.2 h hmem h (by simp) rfl
    exact hI.step (by rw [hxs]; simp) hnew hs
  have hports₃ : w₃.ports = w₂.ports := by
    have hkeep : keepingPorts.Holds ((w₂.members w.resourceCount).forM fun node0 =>
        (w₂.members w.resourceCount).forM fun node1 =>
          when (node0 ≠ node1) (Node.addConnection node0 node1)) :=
      Frame.holds_forM _ fun node0 _ => Frame.holds_forM _ fun node1 _ =>
        Frame.holds_when fun _ => keepingPorts_addConnection node0 node1
    exact hkeep.rel_of_returns hconnect
  have hports' : w'.ports = w₂.ports := by
    rw [← hw', ← happend]
    exact hports₃
  have hhost' : ∀ h, (w'.host h).port = (w₂.host h).port := congrFun (congrArg Prod.fst hports')
  have hnode' : ∀ n, (w'.node n).port = (w₂.node n).port :=
    congrFun (congrArg (fun p => p.2.1) hports')
  have hcount' : w'.nodeCount = w₂.nodeCount := congrArg (fun p => p.2.2) hports'
  constructor
  · intro h hh
    rw [hhost', hloop₂.host h hh, if_pos (by rw [hbuilding.hosts]; exact hh)]
  · intro n hn₁ hn₂
    rw [hnode']
    exact hloop₂.node n hn₁ (by omega)

/-! ## Runs -/

theorem Ported.createResource {first : Nat} {name : Option String} {r : ResourceId}
    (h : Ported first w) (hr : Returns (Cluster.createResource name) w r w') : Ported first w' := by
  obtain ⟨hhosts, hnodes⟩ := createResource_ports h.hosts_nodup h.host hr
  obtain ⟨-, w₁, hB, -, hw'⟩ := createResource_returns hr
  subst hw'
  have hcount : w₁.resourceCount = w.resourceCount + 1 := hB.resourceCount
  constructor
  · change w₁.hosts.Nodup
    rw [hB.hosts]
    exact h.hosts_nodup
  · intro s hs
    change s < w₁.resourceCount
    rw [hcount]
    rcases List.mem_append.mp hs with hs | hs
    · rw [hB.resources] at hs
      exact Nat.lt_succ_of_lt (h.resources_lt s hs)
    · rw [List.mem_singleton.mp hs]
      exact Nat.lt_succ_self _
  · intro k hk
    change k ∈ w₁.hosts at hk
    rw [hB.hosts] at hk
    rw [hhosts k hk]
    change _ = first + w₁.resourceCount
    omega
  · intro n hn
    change (w₁.node n).port.val = first + (w₁.node n).resource
    by_cases hold : n < w.nodeCount
    · rw [hB.node n hold]
      exact h.node n hold
    · have hnew := (hB.newNode n (Nat.not_lt.mp hold) hn).resource
      rw [hnew]
      exact hnodes n (Nat.not_lt.mp hold) hn
  · intro s hs n hn
    change n < w₁.nodeCount ∧ (w₁.node n).resource = s
    change n ∈ w₁.members s at hn
    rcases List.mem_append.mp hs with hs | hs
    · rw [hB.resources] at hs
      rw [World.members, hB.resource s (Nat.ne_of_lt (h.resources_lt s hs))] at hn
      obtain ⟨hlt', hresource⟩ := h.member s hs n hn
      rw [hB.node n hlt']
      exact ⟨Nat.lt_of_lt_of_le hlt' hB.nodeCount_le, hresource⟩
    · rw [List.mem_singleton.mp hs] at hn ⊢
      obtain ⟨h₁, h₂⟩ := (hB.members n).mp hn
      exact ⟨h₂, (hB.newNode n h₁ h₂).resource⟩

/-- A call of `create_resource` that returns. -/
def Creates (w : World) (name : Option String) (w' : World) : Prop :=
  (Op.createResource name).Step w w'

theorem ported_of_run {first : Nat} {names : List (Option String)} (h₀ : w₀.Initial)
    (hfirst : ∀ h ∈ w₀.hosts, (w₀.host h).port.val = first) (run : Run Creates w₀ names w) :
    Ported first w := by
  refine run.invariant ?_ fun w name w' h hstep => ?_
  rotate_left
  · obtain ⟨r, hr⟩ := returns_drop.mp hstep.2
    exact h.createResource hr
  constructor
  · exact h₀.hosts_nodup
  · simp [h₀.resources_nil]
  · intro h hh
    rw [hfirst h hh, h₀.resourceCount_zero]
    rfl
  · simp [h₀.nodeCount_zero]
  · simp [h₀.resources_nil]

/-- The ends of a connection that runs through a proxy have their own ports. -/
theorem proxyHost_own {self node : NodeView} (h : self.port = node.port) {addr : Addr}
    {rest : List Addr} (haddrs : node.host.addrs = addr :: rest) :
    proxyHostStatements self node =
      .single ("host " ++ node.name ++ " address 127.0.0.1:" ++ toString node.port.val
          ++ " via proxy on " ++ node.name)
        (.lines ["inside 127.0.0.2:" ++ toString node.port.val ++ ";",
          "outside ipv4 " ++ addr.text ++ ":" ++ toString node.port.val ++ ";"]) := by
  rw [proxyHostStatements, haddrs, h]
  rfl

/-- After any number of calls of `create_resource` in a cluster whose hosts have the same first
port: nodes of one resource have the same port and nodes of different resources have
different ones; all nodes of a resource generate the same connections, and their configs end
with the same text for them; and both ends of a connection through a proxy have their own
port. -/
theorem ports_agree {first : Nat} {names : List (Option String)} (h₀ : w₀.Initial)
    (hfirst : ∀ h ∈ w₀.hosts, (w₀.host h).port.val = first) (run : Run Creates w₀ names w) :
    (∀ a b : NodeId, a < w.nodeCount → b < w.nodeCount →
      ((w.node a).resource = (w.node b).resource → (w.node a).port = (w.node b).port) ∧
      ((w.node a).resource ≠ (w.node b).resource → (w.node a).host = (w.node b).host →
        (w.node a).port ≠ (w.node b).port)) ∧
    ∀ r ∈ w.resources, ∀ a ∈ w.members r, ∀ b ∈ w.members r,
      conns9Statements w.settings (w.resourceView r) (w.nodeView a) =
        conns9Statements w.settings (w.resourceView r) (w.nodeView b) ∧
      (isVersion9 (w.nodeView a) → isVersion9 (w.nodeView b) → ∀ textA textB,
        Node.config w a = .ok textA → Node.config w b = .ok textB →
        ∃ frontA frontB connections,
          connections = connectionsText w.settings (w.resourceView r) (w.nodeView a) ∧
          textA = frontA ++ connections ++ "\x7d\n\n" ∧
          textB = frontB ++ connections ++ "\x7d\n\n") ∧
      ∀ addr rest, (w.nodeView b).host.addrs = addr :: rest →
        proxyHostStatements (w.nodeView a) (w.nodeView b) =
          .single ("host " ++ (w.node b).name ++ " address 127.0.0.1:" ++
              toString (w.node b).port.val ++ " via proxy on " ++ (w.node b).name)
            (.lines ["inside 127.0.0.2:" ++ toString (w.node b).port.val ++ ";",
              "outside ipv4 " ++ addr.text ++ ":" ++ toString (w.node b).port.val ++ ";"]) := by
  have h := ported_of_run h₀ hfirst run
  refine ⟨fun a b ha hb => ⟨fun hab => ?_, fun hab _ hport => ?_⟩, fun r hr a ha b hb => ?_⟩
  · apply Subtype.ext
    rw [h.node a ha, h.node b hb, hab]
  · have hval := congrArg Subtype.val hport
    rw [h.node a ha, h.node b hb] at hval
    exact hab (Nat.add_left_cancel hval)
  · obtain ⟨ha', hra⟩ := h.member r hr a ha
    obtain ⟨hb', hrb⟩ := h.member r hr b hb
    have hport : (w.nodeView a).port = (w.nodeView b).port := by
      apply Subtype.ext
      change (w.node a).port.val = (w.node b).port.val
      rw [h.node a ha', h.node b hb', hra, hrb]
    have hconns := conns9Statements_congr w.settings (w.resourceView r) hport
    refine ⟨hconns, ?_, fun addr rest haddrs => proxyHost_own hport haddrs⟩
    intro ha9 hb9 textA textB hA hB
    rw [Node.config, hra] at hA
    rw [Node.config, hrb] at hB
    obtain ⟨frontA, hfrontA⟩ := config_connections _ _ _ ha9 hA
    obtain ⟨frontB, hfrontB⟩ := config_connections _ _ _ hb9 hB
    refine ⟨frontA, frontB, _, rfl, hfrontA, ?_⟩
    rw [hfrontB, connectionsText, connectionsText, hconns]

/-- Calls that can be seen to return make up a run. -/
theorem run_creates {names : List (Option String)}
    (h : Op.Allowed Op.Succeeds w (names.map Op.createResource)) :
    Run Creates w names (Op.afterAll w (names.map Op.createResource)) := by
  induction names generalizing w with
  | nil => exact .nil
  | cons name names ih => exact .cons (Op.step_of_succeeds h.1 h.2.1) (ih h.2.2)

/-- Two resources in a cluster of two hosts. -/
def twoResources : World :=
  Op.afterAll (World.plain 2) [.createResource none, .createResource (some "other")]

theorem ports_agree_two_resources :
    (twoResources.node 0).port = (twoResources.node 1).port ∧
    (twoResources.node 0).port ≠ (twoResources.node 2).port := by
  have run : Run Creates (World.plain 2) [none, some "other"] twoResources :=
    run_creates (by decide +kernel)
  have hfirst : ∀ h ∈ (World.plain 2).hosts, ((World.plain 2).host h).port.val = 7789 := by
    intro h _
    rfl
  have h := (ports_agree (plain_initial 2) hfirst run).1
  exact ⟨(h 0 1 (by decide +kernel) (by decide +kernel)).1 (by decide +kernel),
    (h 0 2 (by decide +kernel) (by decide +kernel)).2 (by decide +kernel) (by decide +kernel)⟩

end DrbdTests
