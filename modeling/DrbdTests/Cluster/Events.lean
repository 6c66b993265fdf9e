import Mathlib.Data.List.Count
import DrbdTests.Cluster.Resync
import DrbdTests.Lib.Grouping

/-!
# Which events are waited for

The `event` methods of the collections hand `logscan` a dictionary: under the name of each node the
filter sets for the members that this node reports on. A filter set names the volume and the peer, and
the resource too as soon as the cluster has several resources.

Nothing in the dictionary refers to the objects themselves. Where the nodes of a resource can be told
apart by name and by id, and the resources by name (`Distinguished`), every object has a filter set of
its own, and the dictionary asks for each object as often as the collection has it
(`event_filters_exact`).
-/

namespace DrbdTests

/-- The filter sets under the name of each node. -/
abbrev Filters := Dict String (List (List String))

/-- `node.host.drbd_version_tuple >= (9, 0, 0)` -/
def World.hasPeerIds (w : World) (n : NodeId) : Bool :=
  (w.host (w.node n).host).info.drbdVersionTuple.ge (9, 0, 0)

/-- `Nodes.event`, up to the call of `logscan` -/
def Nodes.filters (w : World) (nodes : List NodeId) : Filters :=
  nodes.foldl (fun filters n => filters.set (w.node n).name [[]]) Dict.empty

/-- `Volumes.event`, up to the call of `logscan` -/
def Volumes.filters (w : World) (volumes : List HeldVolume) : Filters :=
  Dict.group (fun v => (w.node v.node).name) (fun v => ["volume:" ++ toString v.volume.volume]) volumes

/-- `Connections.event`, up to the call of `logscan` -/
def Connections.filters (w : World) (connections : List Connection) : Filters :=
  Dict.group (fun c => (w.node c.node1).name)
    (fun c => if w.hasPeerIds c.node1 then ["peer-node-id:" ++ toString (w.node c.node2).id] else [])
    connections

/-- `PeerDevices.event`, up to the call of `logscan` -/
def PeerDevices.filters (w : World) (pds : List (Connection × HeldVolume)) : Filters :=
  Dict.group (fun pd => (w.node pd.1.node1).name)
    (fun pd => ["volume:" ++ toString pd.2.volume.volume] ++
      if w.hasPeerIds pd.1.node1 then ["peer-node-id:" ++ toString (w.node pd.1.node2).id] else [])
    pds

/-- The filters that `Resource.logscan` passes on. -/
def Resource.filters (w : World) (r : ResourceId) (filters : Filters) : Filters :=
  if 1 < w.resources.length then
    filters.mapValues fun nodeFilters =>
      nodeFilters.map fun filterSet => ["name:" ++ (w.resource r).name] ++ filterSet
  else filters

/-- How often `logscan` is asked to wait on a node with a filter set. -/
def Filters.times (filters : Filters) (name : String) (filterSet : List String) : Nat :=
  ((filters.get? name).getD []).count filterSet

/-! ## What can be waited for -/

/-- What events are about: on a node, the resource itself, a volume, the connection to a peer, or the
peer's side of a volume. -/
inductive Watched
  | node (n : NodeId)
  | volume (n : NodeId) (number : Nat)
  | connection (n peer : NodeId)
  | peerDevice (n peer : NodeId) (number : Nat)
  deriving DecidableEq, Repr

namespace Watched

/-- The node that reports the events. -/
def on : Watched → NodeId
  | node n => n
  | volume n _ => n
  | connection n _ => n
  | peerDevice n _ _ => n

/-- The words that single the object out on its node, within its resource. -/
def words (w : World) : Watched → List String
  | node _ => []
  | volume _ number => ["volume:" ++ toString number]
  | connection n peer =>
    if w.hasPeerIds n then ["peer-node-id:" ++ toString (w.node peer).id] else []
  | peerDevice n peer number => ["volume:" ++ toString number] ++
    if w.hasPeerIds n then ["peer-node-id:" ++ toString (w.node peer).id] else []

def filterSet (w : World) (x : Watched) : List String :=
  if 1 < w.resources.length then
    ["name:" ++ (w.resource (w.node x.on).resource).name] ++ x.words w
  else x.words w

end Watched

/-- A member of one of the resources of the cluster. -/
def World.Has (w : World) (n : NodeId) : Prop :=
  (w.node n).resource ∈ w.resources ∧ n ∈ w.members (w.node n).resource

/-- The nodes of the object are members of the same resource. -/
def Watched.Known (w : World) : Watched → Prop
  | .node n => w.Has n
  | .volume n _ => w.Has n
  | .connection n peer | .peerDevice n peer _ =>
    w.Has n ∧ w.Has peer ∧ n ≠ peer ∧ (w.node peer).resource = (w.node n).resource

/-- Resources differ in their names, and the members of a resource in names and ids. DRBD 8 does not
report ids, but then there is only one peer. -/
structure Distinguished (w : World) : Prop where
  resources : ∀ r ∈ w.resources, ∀ s ∈ w.resources, (w.resource r).name = (w.resource s).name → r = s
  names : ∀ n m, w.Has n → w.Has m → (w.node n).resource = (w.node m).resource →
    (w.node n).name = (w.node m).name → n = m
  ids : ∀ n m, w.Has n → w.Has m → (w.node n).resource = (w.node m).resource →
    (w.node n).id = (w.node m).id → n = m
  twoNodes : ∀ n p q, w.Has n → w.Has p → w.Has q → w.hasPeerIds n = false →
    (w.node p).resource = (w.node n).resource → (w.node q).resource = (w.node n).resource →
    p ≠ n → q ≠ n → p = q

variable {w : World} {r : ResourceId}

/-! ## Objects have filter sets of their own -/

theorem append_toString_inj {label : String} {a b : Nat}
    (h : label ++ toString a = label ++ toString b) : a = b := by
  have hlist := congrArg String.toList h
  rw [String.toList_append, String.toList_append] at hlist
  have hdigits := congrArg Text.decimal (List.append_cancel_left hlist)
  rw [Text.decimal_toString, Text.decimal_toString] at hdigits
  exact Option.some.inj hdigits

/-- The resource is known, by its name or because there is no other one. -/
theorem Distinguished.resource_eq (hw : Distinguished w) {n m : NodeId} {ws vs : List String}
    (hn : w.Has n) (hm : w.Has m)
    (h : (if 1 < w.resources.length then
        ["name:" ++ (w.resource (w.node n).resource).name] ++ ws else ws) =
      if 1 < w.resources.length then
        ["name:" ++ (w.resource (w.node m).resource).name] ++ vs else vs) :
    (w.node n).resource = (w.node m).resource ∧ ws = vs := by
  by_cases hlen : 1 < w.resources.length
  · rw [if_pos hlen, if_pos hlen] at h
    obtain ⟨hname, hrest⟩ := List.cons.inj h
    refine ⟨hw.resources _ hn.1 _ hm.1 ?_, hrest⟩
    have hlist := congrArg String.toList hname
    rw [String.toList_append, String.toList_append] at hlist
    exact String.toList_inj.mp (List.append_cancel_left hlist)
  · rw [if_neg hlen, if_neg hlen] at h
    refine ⟨?_, h⟩
    obtain ⟨i, hi, hget⟩ := List.getElem_of_mem hn.1
    obtain ⟨j, hj, hget'⟩ := List.getElem_of_mem hm.1
    obtain rfl : i = 0 := by omega
    obtain rfl : j = 0 := by omega
    rw [← hget, ← hget']

theorem Distinguished.peer_eq (hw : Distinguished w) {n p q : NodeId} (hn : w.Has n) (hp : w.Has p)
    (hq : w.Has q) (hpn : (w.node p).resource = (w.node n).resource)
    (hqn : (w.node q).resource = (w.node n).resource) (hne : n ≠ p) (hne' : n ≠ q)
    (h : (if w.hasPeerIds n then ["peer-node-id:" ++ toString (w.node p).id] else []) =
      if w.hasPeerIds n then ["peer-node-id:" ++ toString (w.node q).id] else []) : p = q := by
  rcases hids : w.hasPeerIds n with _ | _
  · exact hw.twoNodes n p q hn hp hq hids hpn hqn (Ne.symm hne) (Ne.symm hne')
  · rw [hids, if_pos rfl, if_pos rfl] at h
    exact hw.ids p q hp hq (hpn.trans hqn.symm) (append_toString_inj (List.cons.inj h).1)

/-- Volumes with the same node name and filter set are the same. -/
theorem Distinguished.volume_eq (hw : Distinguished w) {n m : NodeId} {k l : Nat} (hn : w.Has n)
    (hm : w.Has m) (hname : (w.node n).name = (w.node m).name)
    (h : (Watched.volume n k).filterSet w = (Watched.volume m l).filterSet w) : (n, k) = (m, l) := by
  obtain ⟨hresource, hwords⟩ := hw.resource_eq hn hm h
  obtain rfl := hw.names n m hn hm hresource hname
  rw [append_toString_inj (List.cons.inj hwords).1]

theorem Distinguished.connection_eq (hw : Distinguished w) {n p m q : NodeId}
    (hc : (Watched.connection n p).Known w) (hc' : (Watched.connection m q).Known w)
    (hname : (w.node n).name = (w.node m).name)
    (h : (Watched.connection n p).filterSet w = (Watched.connection m q).filterSet w) :
    (n, p) = (m, q) := by
  obtain ⟨hn, hp, hne, hpn⟩ := hc
  obtain ⟨hm, hq, hne', hqm⟩ := hc'
  obtain ⟨hresource, hwords⟩ := hw.resource_eq hn hm h
  obtain rfl := hw.names n m hn hm hresource hname
  rw [hw.peer_eq hn hp hq hpn hqm hne hne' hwords]

theorem Distinguished.peerDevice_eq (hw : Distinguished w) {n p m q : NodeId} {k l : Nat}
    (hc : (Watched.peerDevice n p k).Known w) (hc' : (Watched.peerDevice m q l).Known w)
    (hname : (w.node n).name = (w.node m).name)
    (h : (Watched.peerDevice n p k).filterSet w = (Watched.peerDevice m q l).filterSet w) :
    (n, p, k) = (m, q, l) := by
  obtain ⟨hn, hp, hne, hpn⟩ := hc
  obtain ⟨hm, hq, hne', hqm⟩ := hc'
  obtain ⟨hresource, hwords⟩ := hw.resource_eq hn hm h
  obtain rfl := hw.names n m hn hm hresource hname
  obtain ⟨hnumber, hpeer⟩ := List.cons.inj hwords
  rw [hw.peer_eq hn hp hq hpn hqm hne hne' hpeer, append_toString_inj hnumber]

/-! ## What `logscan` is asked for -/

/-- The filters ask for each known object as often as the list has it. -/
def Filters.AskFor {ι : Type} [BEq ι] (filters : Filters) (w : World) (of : ι → Watched)
    (xs : List ι) : Prop :=
  ∀ x, (of x).Known w → filters.times (w.node (of x).on).name ((of x).filterSet w) = xs.count x

/-- The resource name is put before all words or before none. -/
theorem times_filters {filters : Filters} {name : String} {ws : List String} :
    (Resource.filters w r filters).times name
        (if 1 < w.resources.length then ["name:" ++ (w.resource r).name] ++ ws else ws) =
      filters.times name ws := by
  unfold Resource.filters Filters.times
  by_cases hlen : 1 < w.resources.length
  · rw [if_pos hlen, if_pos hlen, Dict.get?_mapValues]
    have hinjective : Function.Injective fun filterSet : List String =>
        ["name:" ++ (w.resource r).name] ++ filterSet := fun _ _ h => List.append_cancel_left h
    rcases filters.get? name with _ | nodeFilters
    · rfl
    · exact List.count_map_of_injective nodeFilters _ hinjective ws
  · rw [if_neg hlen, if_neg hlen]

/-- With another resource name no filter set is found. -/
theorem times_filters_other {filters : Filters} {name other : String} {ws : List String}
    (hlen : 1 < w.resources.length) (hother : other ≠ (w.resource r).name) :
    (Resource.filters w r filters).times name (["name:" ++ other] ++ ws) = 0 := by
  unfold Resource.filters Filters.times
  rw [if_pos hlen, Dict.get?_mapValues, List.count_eq_zero]
  rcases filters.get? name with _ | nodeFilters
  · simp
  · intro hmem
    obtain ⟨filterSet, -, heq⟩ := List.mem_map.mp hmem
    have hlist := congrArg String.toList (List.cons.inj heq).1
    rw [String.toList_append, String.toList_append] at hlist
    exact hother (String.toList_inj.mp (List.append_cancel_left hlist)).symm

/-- Whatever a member of another resource is asked for with, it is not found. -/
theorem Distinguished.times_other (hw : Distinguished w) (hr : r ∈ w.resources) {filters : Filters}
    {x : Watched} (hx : w.Has x.on) (hother : (w.node x.on).resource ≠ r) :
    (Resource.filters w r filters).times (w.node x.on).name (x.filterSet w) = 0 := by
  have hlen : 1 < w.resources.length := by
    by_contra hlen
    obtain ⟨i, hi, hget⟩ := List.getElem_of_mem hx.1
    obtain ⟨j, hj, hget'⟩ := List.getElem_of_mem hr
    obtain rfl : i = 0 := by omega
    obtain rfl : j = 0 := by omega
    exact hother (hget.symm.trans hget')
  unfold Watched.filterSet
  rw [if_pos hlen]
  exact times_filters_other hlen fun hname => hother (hw.resources _ hx.1 r hr hname)

/-- A collection whose members are grouped by the node that reports on them. -/
theorem Distinguished.askFor_group (hw : Distinguished w) (hr : r ∈ w.resources) {ι κ : Type}
    [BEq κ] [LawfulBEq κ] (of : κ → Watched) (what : ι → κ) (xs : List ι)
    (hxs : ∀ x ∈ xs, (of (what x)).Known w ∧ (w.node (of (what x)).on).resource = r)
    (hinj : ∀ a b, (of a).Known w → (of b).Known w → (w.node (of a).on).name = (w.node (of b).on).name →
      (of a).filterSet w = (of b).filterSet w → a = b)
    (hhas : ∀ a, (of a).Known w → w.Has (of a).on) :
    (Resource.filters w r (Dict.group (fun x => (w.node (of (what x)).on).name)
      (fun x => (of (what x)).words w) xs)).AskFor w of (xs.map what) := by
  intro y hy
  by_cases hresource : (w.node (of y).on).resource = r
  · have hset : (of y).filterSet w = if 1 < w.resources.length then
        ["name:" ++ (w.resource r).name] ++ (of y).words w else (of y).words w := by
      rw [← hresource]
      rfl
    rw [hset, times_filters]
    unfold Filters.times
    rw [Dict.get?_group, List.count, List.countP_map, List.countP_filter, List.count, List.countP_map]
    apply List.countP_congr
    intro x hx
    obtain ⟨hknown, hown⟩ := hxs x hx
    simp only [Function.comp_apply, beq_iff_eq, Bool.and_eq_true, decide_eq_true_eq]
    constructor
    · rintro ⟨hwords, hname⟩
      apply hinj _ _ hknown hy hname
      unfold Watched.filterSet
      rw [hwords, hown, hresource]
    · intro heq
      rw [heq]
      exact ⟨rfl, rfl⟩
  · rw [hw.times_other hr (hhas y hy) hresource, eq_comm, List.count_eq_zero]
    intro hmem
    obtain ⟨x, hx, rfl⟩ := List.mem_map.mp hmem
    exact hresource (hxs x hx).2

/-- The filters of a collection of nodes have one empty filter set for each. -/
theorem get?_nodesFilters (nodes : List NodeId) (name : String) :
    (Nodes.filters w nodes).get? name =
      if name ∈ nodes.map fun n => (w.node n).name then some [[]] else none := by
  unfold Nodes.filters
  induction nodes using List.reverseRecOn with
  | nil => rfl
  | append_singleton nodes n ih =>
    rw [List.foldl_append, List.foldl_cons, List.foldl_nil, Dict.get?_set, ih, List.map_append]
    by_cases hname : name = (w.node n).name
    · simp [hname]
    · simp [hname]

theorem Distinguished.askFor_nodes (hw : Distinguished w) (hr : r ∈ w.resources)
    (nodes : OrderedSet NodeId) (hnodes : ∀ n ∈ nodes, w.Has n ∧ (w.node n).resource = r) :
    (Resource.filters w r (Nodes.filters w nodes.items)).AskFor w Watched.node nodes.items := by
  intro n hn
  by_cases hresource : (w.node n).resource = r
  · have hset : (Watched.node n).filterSet w = if 1 < w.resources.length then
        ["name:" ++ (w.resource r).name] ++ [] else [] := by
      rw [← hresource]
      rfl
    rw [hset, times_filters]
    unfold Filters.times
    change List.count [] (((Nodes.filters w nodes.items).get? (w.node n).name).getD []) = _
    rw [get?_nodesFilters]
    have hlisted : (w.node n).name ∈ (nodes.items.map fun n => (w.node n).name) ↔ n ∈ nodes.items := by
      constructor
      · intro hmem
        obtain ⟨m, hm, hname⟩ := List.mem_map.mp hmem
        obtain ⟨hhas, hown⟩ := hnodes m hm
        rw [← hw.names m n hhas hn (hown.trans hresource.symm) hname]
        exact hm
      · exact fun hmem => List.mem_map_of_mem hmem
    by_cases hmem : n ∈ nodes.items
    · rw [if_pos (hlisted.mpr hmem), List.count_eq_one_of_mem nodes.nodup hmem]
      rfl
    · rw [if_neg (mt hlisted.mp hmem), List.count_eq_zero.mpr hmem]
      rfl
  · rw [hw.times_other hr (x := .node n) hn hresource, eq_comm, List.count_eq_zero]
    exact fun hmem => hresource (hnodes n hmem).2

theorem Distinguished.askFor_volumes (hw : Distinguished w) (hr : r ∈ w.resources)
    (volumes : OrderedSet HeldVolume)
    (hvolumes : ∀ v ∈ volumes, w.Has v.node ∧ (w.node v.node).resource = r) :
    (Resource.filters w r (Volumes.filters w volumes.items)).AskFor w
      (fun x : NodeId × Nat => Watched.volume x.1 x.2)
      (volumes.items.map fun v => (v.node, v.volume.volume)) :=
  hw.askFor_group hr (fun x : NodeId × Nat => Watched.volume x.1 x.2)
    (fun v : HeldVolume => (v.node, v.volume.volume)) volumes.items hvolumes
    (fun _ _ ha hb hname hset => hw.volume_eq ha hb hname hset) fun _ ha => ha

theorem Distinguished.askFor_connections (hw : Distinguished w) (hr : r ∈ w.resources)
    (cs : OrderedSet Connection) (hcs : ∀ c ∈ cs, (Watched.connection c.node1 c.node2).Known w ∧
      (w.node c.node1).resource = r) :
    (Resource.filters w r (Connections.filters w cs.items)).AskFor w
      (fun x : NodeId × NodeId => Watched.connection x.1 x.2)
      (cs.items.map fun c => (c.node1, c.node2)) :=
  hw.askFor_group hr (fun x : NodeId × NodeId => Watched.connection x.1 x.2)
    (fun c : Connection => (c.node1, c.node2)) cs.items hcs
    (fun _ _ ha hb hname hset => hw.connection_eq ha hb hname hset) fun _ ha => ha.1

theorem Distinguished.askFor_peerDevices (hw : Distinguished w) (hr : r ∈ w.resources)
    (pds : OrderedSet (Connection × HeldVolume))
    (hpds : ∀ pd ∈ pds, (Watched.connection pd.1.node1 pd.1.node2).Known w ∧
      (w.node pd.1.node1).resource = r) :
    (Resource.filters w r (PeerDevices.filters w pds.items)).AskFor w
      (fun x : NodeId × NodeId × Nat => Watched.peerDevice x.1 x.2.1 x.2.2)
      (PeerDevices.waits pds) :=
  hw.askFor_group hr (fun x : NodeId × NodeId × Nat => Watched.peerDevice x.1 x.2.1 x.2.2)
    (fun pd : Connection × HeldVolume => (pd.1.node1, pd.1.node2, pd.2.volume.volume)) pds.items hpds
    (fun _ _ ha hb hname hset => hw.peerDevice_eq ha hb hname hset) fun _ ha => ha.1

/-- Each `event` method asks for every member of the collection once, and for no other object of the
cluster. (Peer devices are asked for once for each volume object.) -/
theorem event_filters_exact (hw : Distinguished w) (hr : r ∈ w.resources) :
    (∀ nodes : OrderedSet NodeId, (∀ n ∈ nodes, w.Has n ∧ (w.node n).resource = r) →
      (Resource.filters w r (Nodes.filters w nodes.items)).AskFor w Watched.node nodes.items) ∧
    (∀ volumes : OrderedSet HeldVolume, (∀ v ∈ volumes, w.Has v.node ∧ (w.node v.node).resource = r) →
      (Resource.filters w r (Volumes.filters w volumes.items)).AskFor w
        (fun x : NodeId × Nat => Watched.volume x.1 x.2)
        (volumes.items.map fun v => (v.node, v.volume.volume))) ∧
    (∀ cs : OrderedSet Connection, (∀ c ∈ cs, (Watched.connection c.node1 c.node2).Known w ∧
        (w.node c.node1).resource = r) →
      (Resource.filters w r (Connections.filters w cs.items)).AskFor w
        (fun x : NodeId × NodeId => Watched.connection x.1 x.2)
        (cs.items.map fun c => (c.node1, c.node2))) ∧
    (∀ pds : OrderedSet (Connection × HeldVolume),
      (∀ pd ∈ pds, (Watched.connection pd.1.node1 pd.1.node2).Known w ∧
        (w.node pd.1.node1).resource = r) →
      (Resource.filters w r (PeerDevices.filters w pds.items)).AskFor w
        (fun x : NodeId × NodeId × Nat => Watched.peerDevice x.1 x.2.1 x.2.2)
        (PeerDevices.waits pds)) :=
  ⟨hw.askFor_nodes hr, hw.askFor_volumes hr, hw.askFor_connections hr, hw.askFor_peerDevices hr⟩

/-- Two nodes, with a disk each, and a name each. -/
def namedDisks : World := twoDisks.setNode 1 fun node => { node with name := "b" }

theorem namedDisks_has {n : NodeId} (hn : namedDisks.Has n) : n = 0 ∨ n = 1 := by
  obtain ⟨hr, hmem⟩ := hn
  have hresources : namedDisks.resources = [0] := by decide +kernel
  rw [hresources, List.mem_singleton] at hr
  rw [hr, show namedDisks.members 0 = [0, 1] by decide +kernel] at hmem
  simpa using hmem

theorem namedDisks_distinguished : Distinguished namedDisks where
  resources r hr s hs _ := by
    have hresources : namedDisks.resources = [0] := by decide +kernel
    rw [hresources, List.mem_singleton] at hr hs
    rw [hr, hs]
  names n m hn hm _ hname := by
    have hne : (namedDisks.node 0).name ≠ (namedDisks.node 1).name := by decide +kernel
    rcases namedDisks_has hn with rfl | rfl <;> rcases namedDisks_has hm with rfl | rfl
    · rfl
    · exact absurd hname hne
    · exact absurd hname.symm hne
    · rfl
  ids n m hn hm _ hid := by
    have hne : (namedDisks.node 0).id ≠ (namedDisks.node 1).id := by decide +kernel
    rcases namedDisks_has hn with rfl | rfl <;> rcases namedDisks_has hm with rfl | rfl
    · rfl
    · exact absurd hid hne
    · exact absurd hid.symm hne
    · rfl
  twoNodes n p q hn hp hq _ _ _ hpn hqn := by
    rcases namedDisks_has hp with rfl | rfl <;> rcases namedDisks_has hq with rfl | rfl
    · rfl
    · rcases namedDisks_has hn with rfl | rfl
      · exact absurd rfl hpn
      · exact absurd rfl hqn
    · rcases namedDisks_has hn with rfl | rfl
      · exact absurd rfl hqn
      · exact absurd rfl hpn
    · rfl

def namedVolumes : OrderedSet HeldVolume :=
  OrderedSet.ofList ((namedDisks.members 0).flatMap fun n => (namedDisks.node n).disks.map (HeldVolume.mk n))

def namedConnections : OrderedSet Connection := OrderedSet.ofList [⟨0, 1⟩, ⟨1, 0⟩]

def namedPeerDevices : OrderedSet (Connection × HeldVolume) :=
  OrderedSet.ofList (namedConnections.items.flatMap fun c =>
    (namedDisks.node c.node1).disks.map fun v => (c, ⟨c.node1, v⟩))

theorem event_filters_exact_two :
    (Resource.filters namedDisks 0 (Nodes.filters namedDisks (namedDisks.members 0))).AskFor namedDisks
      Watched.node (namedDisks.members 0) ∧
    (Resource.filters namedDisks 0 (Volumes.filters namedDisks namedVolumes.items)).AskFor namedDisks
      (fun x : NodeId × Nat => Watched.volume x.1 x.2)
      (namedVolumes.items.map fun v => (v.node, v.volume.volume)) ∧
    (Resource.filters namedDisks 0 (Connections.filters namedDisks namedConnections.items)).AskFor namedDisks
      (fun x : NodeId × NodeId => Watched.connection x.1 x.2)
      (namedConnections.items.map fun c => (c.node1, c.node2)) ∧
    (Resource.filters namedDisks 0 (PeerDevices.filters namedDisks namedPeerDevices.items)).AskFor namedDisks
      (fun x : NodeId × NodeId × Nat => Watched.peerDevice x.1 x.2.1 x.2.2)
      (PeerDevices.waits namedPeerDevices) := by
  obtain ⟨hnodes, hvolumes, hconnections, hpds⟩ :=
    event_filters_exact namedDisks_distinguished (by decide +kernel : 0 ∈ namedDisks.resources)
  refine ⟨hnodes (namedDisks.resource 0).nodes ?_, hvolumes namedVolumes ?_,
    hconnections namedConnections ?_, hpds namedPeerDevices ?_⟩
  all_goals
    simp only [Watched.Known, World.Has]
    decide +kernel

end DrbdTests
