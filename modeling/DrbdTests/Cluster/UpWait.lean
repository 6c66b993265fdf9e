import DrbdTests.Cluster.Events
import DrbdTests.Cluster.Patterns

/-!
# `Resource.up_wait`

A resource is brought up on all its nodes, and then every node has to see the disks of every other
node, for each volume of the first node. Only when all of this has been seen, further patterns are
forbidden. `up_wait_waits` says what is waited for and what an exception leaves behind.
-/

namespace DrbdTests

open Stateful Collection

/-- `Nodes.up` -/
def Nodes.up (nodes : List NodeId) (extraOptions : List String) : Py PUnit := do
  let w ← get
  let r ← Py.liftExcept (Nodes.resource w nodes)
  Nodes.drbdadm nodes (["up", (w.resource r).name] ++ extraOptions)
  when w.settings.proxyEnable do
    Nodes.drbdadm nodes (["proxy-up", (w.resource r).name] ++ extraOptions)

/-- The peer devices that `up_wait` makes. -/
def Resource.upWaitPeerDevices (w : World) (r : ResourceId) :
    Except PyError (OrderedSet (Connection × HeldVolume)) :=
  (w.members r).foldlM (fun pds n1 =>
    (w.members r).foldlM (fun pds n2 =>
      if n1 ≠ n2 then do
        let volumes ← Nodes.firstVolumes w (w.resource r).nodes
        volumes.foldlM (fun pds v => PeerDevices.addNew w pds n1 n2 v) pds
      else .ok pds) pds) OrderedSet.empty

/-- `PeerDevices.event`; `PeerDevices.filters` are the filters it waits with. -/
def PeerDevices.event (pds : OrderedSet (Connection × HeldVolume)) (pattern : String) : Py PUnit :=
  Nodes.event (pds.items.map fun pd => pd.1.node1) pattern

/-- `forbidden_patterns.add` -/
def Resource.addPattern (r : ResourceId) (pattern : String) : Py PUnit :=
  modify fun w => w.setResource r fun resource =>
    { resource with forbiddenPatterns := resource.forbiddenPatterns.add pattern }

/-- `Resource.up_wait`, up to the patterns it forbids at its end. -/
def Resource.upAndSee (r : ResourceId) (extraOptions expectedDiskStates : List String) : Py PUnit := do
  let w ← get
  Nodes.up (w.members r) extraOptions
  let w ← get
  let pds ← Py.liftExcept (Resource.upWaitPeerDevices w r)
  PeerDevices.event pds
    ("peer-device .* peer-disk:(" ++ "|".intercalate expectedDiskStates ++ ")")

/-- `Resource.up_wait` -/
def Resource.upWait (r : ResourceId) (extraOptions expectedDiskStates : List String) : Py PUnit := do
  Resource.upAndSee r extraOptions expectedDiskStates
  Resource.addPattern r "connection:BrokenPipe"
  Resource.addPattern r "connection:NetworkFailure"

variable {w w' : World} {r : ResourceId}

/-! ## The peer devices -/

theorem upWaitPeerDevices_ok (hmembers : ∀ n ∈ w.members r, (w.node n).resource = r) {first : NodeId}
    {rest : List NodeId} (hfirst : w.members r = first :: rest) :
    ∃ pds, Resource.upWaitPeerDevices w r = .ok pds ∧ ∀ pd, pd ∈ pds ↔
      pd.1.node1 ∈ w.members r ∧ pd.1.node2 ∈ w.members r ∧ pd.1.node1 ≠ pd.1.node2 ∧
      pd.2.node = first ∧ pd.2.volume ∈ (w.node first).disks := by
  have hvolumes : Nodes.firstVolumes w (w.resource r).nodes =
      .ok ((w.node first).disks.map (HeldVolume.mk first)) := by
    rw [Nodes.firstVolumes, show (w.resource r).nodes.items = first :: rest from hfirst]
  have hadds := adds_foldlM (w.members r) fun n1 hn1 => adds_foldlM (w.members r) fun n2 hn2 =>
    adds_ite (c := n1 ≠ n2) fun _ =>
      adds_foldlM ((w.node first).disks.map (HeldVolume.mk first)) fun v _ =>
        adds_addNew (v := v) (hmembers n1 hn1) (hmembers n2 hn2)
  obtain ⟨pds, hpds, -, hmem⟩ := hadds OrderedSet.empty (by simp)
  refine ⟨pds, ?_, fun pd => ?_⟩
  · unfold Resource.upWaitPeerDevices
    rw [hvolumes]
    exact hpds
  · rw [hmem]
    obtain ⟨⟨n1, n2⟩, ⟨node, volume⟩⟩ := pd
    constructor
    · rintro (hpd | ⟨m1, hm1, m2, hm2, hne, v, hv, heq⟩)
      · exact absurd hpd (OrderedSet.not_mem_empty _)
      · obtain ⟨volume', hvolume', rfl⟩ := List.mem_map.mp hv
        cases heq
        exact ⟨hm1, hm2, hne, rfl, hvolume'⟩
    · rintro ⟨hn1, hn2, hne, rfl, hvolume⟩
      exact .inr ⟨n1, hn1, n2, hn2, hne, _, List.mem_map_of_mem hvolume, rfl⟩

/-- With different volume numbers every wait is for another thing. -/
theorem waits_nodup {pds : OrderedSet (Connection × HeldVolume)} {first : NodeId}
    (hpds : ∀ pd ∈ pds, pd.2.node = first ∧ pd.2.volume ∈ (w.node first).disks)
    (hnumbers : ((w.node first).disks.map Volume.volume).Nodup) : (PeerDevices.waits pds).Nodup := by
  unfold PeerDevices.waits
  refine List.Nodup.map_on ?_ pds.nodup
  rintro ⟨⟨n1, n2⟩, ⟨node, volume⟩⟩ hpd ⟨⟨m1, m2⟩, ⟨node', volume'⟩⟩ hpd' heq
  obtain ⟨hnode, hvolume⟩ := hpds _ hpd
  obtain ⟨hnode', hvolume'⟩ := hpds _ hpd'
  obtain ⟨rfl, heq⟩ := Prod.mk.inj heq
  obtain ⟨rfl, heq⟩ := Prod.mk.inj heq
  obtain rfl := List.inj_on_of_nodup_map hnumbers hvolume hvolume' heq
  rw [show node = node' from hnode.trans hnode'.symm]

/-! ## The patterns -/

theorem keepingGraph_up (nodes : List NodeId) (extraOptions : List String) :
    keepingGraph.Holds (Nodes.up nodes extraOptions) := by
  refine Frame.holds_bind Frame.holds_get fun w => Frame.holds_bind (holds_liftExcept _) fun r => ?_
  refine Frame.holds_bind (holds_nodesDrbdadm (fun n => keepingGraph_commands.node n) _ _) fun _ => ?_
  exact Frame.holds_when fun _ => holds_nodesDrbdadm (fun n => keepingGraph_commands.node n) _ _

theorem keepingGraph_upAndSee (r : ResourceId) (extraOptions expectedDiskStates : List String) :
    keepingGraph.Holds (Resource.upAndSee r extraOptions expectedDiskStates) := by
  refine Frame.holds_bind Frame.holds_get fun w => ?_
  refine Frame.holds_bind (keepingGraph_up _ _) fun _ => Frame.holds_bind Frame.holds_get fun w' => ?_
  exact Frame.holds_bind (holds_liftExcept _) fun pds => keepingGraph_event _ _

theorem event_returns {nodes : List NodeId} {pattern : String} {u : PUnit}
    (h : Returns (Nodes.event nodes pattern) w u w') :
    nodes = [] ∨ w'.requests = (.events nodes pattern, true) :: w.requests := by
  unfold Nodes.event at h
  split at h
  · exact .inl ‹_›
  · obtain ⟨reply, w₁, hrequest, h⟩ := returns_bind.mp h
    rw [Returns, exec_request] at hrequest
    obtain ⟨hreply, rfl⟩ := Prod.mk.inj hrequest
    obtain rfl := Except.ok.inj hreply
    split at h
    · cases returns_throw.mp h
    · rename_i hcode
      obtain ⟨-, rfl⟩ := returns_pure.mp h
      rw [not_ne_iff] at hcode
      right
      change (_, decide _) :: _ = _
      rw [decide_eq_true hcode]

theorem upWaitPeerDevices_graph (h : w'.graph = w.graph) (r : ResourceId) :
    Resource.upWaitPeerDevices w' r = Resource.upWaitPeerDevices w r := by
  unfold Resource.upWaitPeerDevices Nodes.firstVolumes PeerDevices.addNew Connection.init
    Connection.resource
  simp only [graph_members h, graph_resource h, graph_disks h, graph_nodeResource h]

/-- When `up_wait` is through with waiting, the last that was asked for is the wait. -/
theorem upAndSee_returns {extraOptions expectedDiskStates : List String} {u : PUnit}
    {pds : OrderedSet (Connection × HeldVolume)} (hpds : Resource.upWaitPeerDevices w r = .ok pds)
    (h : Returns (Resource.upAndSee r extraOptions expectedDiskStates) w u w') :
    pds.items = [] ∨ ∃ before, w'.requests = (.events (pds.items.map fun pd => pd.1.node1)
      ("peer-device .* peer-disk:(" ++ "|".intercalate expectedDiskStates ++ ")"), true) :: before := by
  unfold Resource.upAndSee at h
  rw [returns_get_bind] at h
  obtain ⟨_, w₁, hup, h⟩ := returns_bind.mp h
  rw [returns_get_bind, upWaitPeerDevices_graph ((keepingGraph_up _ _).rel_of_returns hup), hpds] at h
  rcases event_returns h with hnil | hrequests
  · exact .inl (List.map_eq_nil_iff.mp hnil)
  · exact .inr ⟨w₁.requests, hrequests⟩

/-- What `up_wait` waits for: each node for each peer and each volume number of the first node, once.
After an exception the patterns are as they were; when it returns the wait was the last request, and
broken connections are forbidden. -/
theorem up_wait_waits (hw : Distinguished w) (hr : r ∈ w.resources)
    (hmembers : ∀ n ∈ w.members r, (w.node n).resource = r) {first : NodeId} {rest : List NodeId}
    (hfirst : w.members r = first :: rest)
    (hnumbers : ((w.node first).disks.map Volume.volume).Nodup)
    (extraOptions expectedDiskStates : List String) :
    ∃ pds, Resource.upWaitPeerDevices w r = .ok pds ∧
      (∀ n p number, (Watched.peerDevice n p number).Known w →
        (Resource.filters w r (PeerDevices.filters w pds.items)).times (w.node n).name
            ((Watched.peerDevice n p number).filterSet w) =
          if (w.node n).resource = r ∧ ∃ v ∈ (w.node first).disks, v.volume = number then 1 else 0) ∧
      ∀ result w', exec (Resource.upWait r extraOptions expectedDiskStates) w = (result, w') →
        match result with
        | .error _ => SamePatterns w w' r
        | .ok _ => (∀ pattern, pattern ∈ (w'.resource r).forbiddenPatterns ↔
              pattern ∈ (w.resource r).forbiddenPatterns ∨ pattern = "connection:BrokenPipe" ∨
                pattern = "connection:NetworkFailure") ∧
            (pds.items = [] ∨ ∃ before, w'.requests = (.events (pds.items.map fun pd => pd.1.node1)
              ("peer-device .* peer-disk:(" ++ "|".intercalate expectedDiskStates ++ ")"), true) ::
                before) := by
  obtain ⟨pds, hpds, hmem⟩ := upWaitPeerDevices_ok hmembers hfirst
  have hhas : ∀ n ∈ w.members r, w.Has n := fun n hn => by
    unfold World.Has
    rw [hmembers n hn]
    exact ⟨hr, hn⟩
  refine ⟨pds, hpds, ?_, ?_⟩
  · intro n p number hknown
    have hask := hw.askFor_peerDevices hr pds (fun pd hpd => ?_) (n, p, number) hknown
    · change (Resource.filters w r _).times (w.node n).name _ = _ at hask
      rw [hask]
      have hwaits : (PeerDevices.waits pds).Nodup :=
        waits_nodup (fun pd hpd => ((hmem pd).mp hpd).2.2.2) hnumbers
      have hlisted : (n, p, number) ∈ PeerDevices.waits pds ↔
          (w.node n).resource = r ∧ ∃ v ∈ (w.node first).disks, v.volume = number := by
        unfold PeerDevices.waits
        rw [List.mem_map]
        constructor
        · rintro ⟨pd, hpd, heq⟩
          obtain ⟨hn, -, -, -, hv⟩ := (hmem pd).mp hpd
          cases heq
          exact ⟨hmembers _ hn, _, hv, rfl⟩
        · rintro ⟨hown, v, hv, rfl⟩
          obtain ⟨hn, hp, hne, hsame⟩ := hknown
          have hn' : n ∈ w.members r := hown ▸ hn.2
          have hp' : p ∈ w.members r := by
            rw [← hown, ← hsame]
            exact hp.2
          exact ⟨(⟨n, p⟩, ⟨first, v⟩), (hmem _).mpr ⟨hn', hp', hne, rfl, hv⟩, rfl⟩
      by_cases hcase : (n, p, number) ∈ PeerDevices.waits pds
      · rw [if_pos (hlisted.mp hcase)]
        exact List.count_eq_one_of_mem hwaits hcase
      · rw [if_neg (mt hlisted.mpr hcase)]
        exact List.count_eq_zero.mpr hcase
    · obtain ⟨hn, hp, hne, -⟩ := (hmem pd).mp hpd
      refine ⟨⟨hhas _ hn, hhas _ hp, hne, ?_⟩, hmembers _ hn⟩
      rw [hmembers _ hn, hmembers _ hp]
  · intro result w' hexec
    have hgraph := keepingGraph_upAndSee r extraOptions expectedDiskStates w
    unfold Resource.upWait at hexec
    rcases hsee : exec (Resource.upAndSee r extraOptions expectedDiskStates) w with ⟨e | u, w₁⟩
    · rw [hsee] at hgraph
      rw [exec_bind_of_error hsee] at hexec
      obtain ⟨rfl, rfl⟩ := Prod.mk.inj hexec
      exact samePatterns_of_graph hgraph
    · rw [hsee] at hgraph
      rw [exec_bind_of_ok hsee] at hexec
      obtain ⟨rfl, rfl⟩ := Prod.mk.inj hexec
      have hlast := upAndSee_returns hpds hsee
      refine ⟨fun pattern => ?_, hlast⟩
      have hresource : w₁.resource = w.resource := graph_resource hgraph
      change pattern ∈ (((w₁.setResource r _).setResource r _).resource r).forbiddenPatterns ↔ _
      rw [World.setResource_resource, if_pos rfl, World.setResource_resource, if_pos rfl,
        OrderedSet.mem_add, OrderedSet.mem_add, hresource, or_assoc]

/-- A node of two waits for its peer. -/
theorem up_wait_waits_two : ∃ pds, Resource.upWaitPeerDevices namedDisks 0 = .ok pds ∧
    ∀ n p number, (Watched.peerDevice n p number).Known namedDisks →
      (Resource.filters namedDisks 0 (PeerDevices.filters namedDisks pds.items)).times
          (namedDisks.node n).name ((Watched.peerDevice n p number).filterSet namedDisks) =
        if (namedDisks.node n).resource = 0 ∧ ∃ v ∈ (namedDisks.node 0).disks, v.volume = number then 1
        else 0 := by
  have hmembers : namedDisks.members 0 = [0, 1] := by decide +kernel
  obtain ⟨pds, hpds, htimes, -⟩ := up_wait_waits namedDisks_distinguished (by decide +kernel)
    (by decide +kernel) hmembers (by decide +kernel) [] ["Inconsistent", "Diskless"]
  exact ⟨pds, hpds, htimes⟩

end DrbdTests
