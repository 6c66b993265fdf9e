import DrbdTests.Cluster.Creation

/-!
# Node ids

`Node.__init__` takes the number of members of the resource as the id of the new node. As long
as nodes are only added, this counts. After `remove_node` the number of members can be the id
of a node that is still there; and a node that comes back by `add_node` still has its id, which
another one may have got in the meantime.

`GivesNewId` is the condition on a call under which the ids of the members stay distinct.
-/

namespace DrbdTests

open Stateful Runs

/-- The calls that change which nodes a resource has. -/
inductive MemberOp
  | construct (host : HostId) (port : Port)
  | removeNode (n : NodeId)
  | addNode (n : NodeId)

namespace MemberOp

def exec (r : ResourceId) : MemberOp → Py PUnit
  | construct host port => do let _ ← Node.init host r port
  | removeNode n => Resource.removeNode r n
  | addNode n => Resource.addNode r n

/-- The node a call is made with exists. -/
def Refers (op : MemberOp) (w : World) : Prop :=
  match op with
  | construct _ _ => True
  | removeNode n | addNode n => n < w.nodeCount

/-- A call, whether it returns or raises. -/
def Attempt (r : ResourceId) (w : World) (op : MemberOp) (w' : World) : Prop :=
  op.Refers w ∧ w' = (Stateful.exec (op.exec r) w).2

/-- No member has the id of the node that the call adds. A call that fails in its assertion,
and one with a node that is a member already, adds none. -/
def GivesNewId (r : ResourceId) (w : World) (op : MemberOp) : Prop :=
  match op with
  | construct host port => w.acceptsNew host r port = true →
      ∀ m ∈ w.members r, (w.node m).id ≠ (w.members r).length
  | addNode n =>
      Collection.sameResource (fun m => (w.node m).resource) (w.resource r).nodes [n] = true →
      n ∉ w.members r → ∀ m ∈ w.members r, (w.node m).id ≠ (w.node n).id
  | removeNode _ => True

end MemberOp

def World.memberIds (w : World) (r : ResourceId) : List Nat :=
  (w.members r).map fun n => (w.node n).id

/-- The ids of the members of a resource are pairwise distinct. -/
def UniqueIds (r : ResourceId) (w : World) : Prop := (w.memberIds r).Nodup

def MembersExist (r : ResourceId) (w : World) : Prop := ∀ m ∈ w.members r, m < w.nodeCount

variable {r : ResourceId} {w w' : World}

/-! ## What a call does to the members -/

theorem memberIds_of_graph (h : w'.graph = w.graph) : w'.memberIds r = w.memberIds r := by
  rw [World.memberIds, graph_members h, World.memberIds]
  simp only [graph_nodeId h]

/-- A member is added last. -/
theorem uniqueIds_append {members : List NodeId} {id : NodeId → Nat} {n : NodeId}
    (h : (members.map id).Nodup) :
    ((members ++ [n]).map id).Nodup ↔ ∀ m ∈ members, id m ≠ id n := by
  rw [List.map_append, List.nodup_append]
  constructor
  · intro hn m hm
    exact hn.2.2 (id m) (List.mem_map_of_mem hm) (id n) (by simp)
  · intro hn
    refine ⟨h, by simp, fun i hi j hj => ?_⟩
    obtain ⟨m, hm, hid⟩ := List.mem_map.mp hi
    rw [← hid, show j = id n by simpa using hj]
    exact hn m hm

theorem memberIds_withNode (hw : MembersExist r w) (node : Node) :
    (w.withNode node).memberIds r = w.memberIds r := by
  apply List.map_congr_left
  intro m hm
  have hlt : m < w.nodeCount := hw m hm
  rw [show (w.withNode node).node m = w.node m from Function.update_of_ne (Nat.ne_of_lt hlt) _ _]

theorem members_addNewNode (hw : MembersExist r w) (node : Node) :
    (w.addNewNode r node).members r = w.members r ++ [w.nodeCount] := by
  have hnew : w.nodeCount ∉ (w.resource r).nodes := fun h => absurd (hw _ h) (Nat.lt_irrefl _)
  rw [World.members, World.addNewNode, World.setResource_resource, if_pos rfl]
  change ((w.resource r).nodes.add w.nodeCount).items = _
  rw [OrderedSet.items_add, if_neg hnew]
  rfl

theorem uniqueIds_construct (hw : MembersExist r w) (hu : UniqueIds r w) (host : HostId)
    (port : Port) : UniqueIds r (exec (Node.init host r port) w).2 ↔
      (w.acceptsNew host r port = true →
        ∀ m ∈ w.members r, (w.node m).id ≠ (w.members r).length) := by
  by_cases hadd : w.acceptsNew host r port = true
  · have hasking := nodeInit_accepted hadd
    have hids : (exec (Node.init host r port) w).2.memberIds r =
        (w.addNewNode r (w.freshNode host r port)).memberIds r :=
      memberIds_of_graph (graph_of_asking hasking)
    have hold : ∀ m ∈ w.members r,
        ((w.addNewNode r (w.freshNode host r port)).node m).id = (w.node m).id := by
      intro m hm
      rw [show (w.addNewNode r _).node m = w.node m from
        Function.update_of_ne (Nat.ne_of_lt (hw m hm)) _ _]
    have hnew : ((w.addNewNode r (w.freshNode host r port)).node w.nodeCount).id =
        (w.members r).length := by
      rw [show (w.addNewNode r _).node w.nodeCount = _ from Function.update_self _ _ _]
      rfl
    have hu' : ((w.members r).map fun m =>
        ((w.addNewNode r (w.freshNode host r port)).node m).id).Nodup := by
      rw [List.map_congr_left hold]
      exact hu
    rw [UniqueIds, hids, World.memberIds, members_addNewNode hw, uniqueIds_append hu', hnew]
    constructor
    · intro h _ m hm
      rw [← hold m hm]
      exact h m hm
    · intro h m hm
      rw [hold m hm]
      exact h hadd m hm
  · rw [Bool.not_eq_true] at hadd
    rw [UniqueIds, nodeInit_rejected hadd, memberIds_withNode hw]
    constructor
    · intro _ h
      rw [hadd] at h
      cases h
    · exact fun _ => hu

theorem uniqueIds_removeNode (hu : UniqueIds r w) (n : NodeId) :
    UniqueIds r (exec (Resource.removeNode r n) w).2 := by
  rcases removeNode_cases r n w with ⟨e, hexec⟩ | ⟨w₁, hw₁, hr⟩
  · rw [hexec]
    exact hu
  · rw [show exec (Resource.removeNode r n) w = _ from hr]
    change ((w₁.touch _).memberIds r).Nodup
    rw [memberIds_of_graph (graph_touch w₁ _), hw₁]
    have hmembers : (w.setResource r fun resource =>
        { resource with nodes := (w.resource r).nodes.discard n }).members r =
          (w.members r).erase n := by
      rw [World.members, World.setResource_resource, if_pos rfl]
      exact OrderedSet.items_discard _ _
    rw [World.memberIds, hmembers]
    exact hu.sublist (List.erase_sublist.map _)

theorem addNode_accepted {n : NodeId} (hadd : Collection.sameResource
      (fun m => (w.node m).resource) (w.resource r).nodes [n] = true) :
    ∃ w₁ : World, (exec (Resource.addNode r n) w).2.graph = w₁.graph ∧ w₁.node = w.node ∧
      w₁.members r =
        if n ∈ (w.resource r).nodes then w.members r else w.members r ++ [n] := by
  have hok : Collection.add (fun m => (w.node m).resource) (w.resource r).nodes n =
      .ok ((w.resource r).nodes.add n) := if_pos hadd
  let w₁ := w.setResource r fun resource =>
    { resource with nodes := (w.resource r).nodes.add n }
  refine ⟨w₁, ?_, rfl, ?_⟩
  · simp only [Resource.addNode, exec_get_bind, hok]
    exact graph_touch w₁ _
  · rw [World.members, World.setResource_resource, if_pos rfl]
    exact OrderedSet.items_add (w.resource r).nodes n

theorem uniqueIds_addNode (hu : UniqueIds r w) (n : NodeId) :
    UniqueIds r (exec (Resource.addNode r n) w).2 ↔
      (Collection.sameResource (fun m => (w.node m).resource) (w.resource r).nodes [n] = true →
        n ∉ w.members r → ∀ m ∈ w.members r, (w.node m).id ≠ (w.node n).id) := by
  by_cases hadd : Collection.sameResource (fun m => (w.node m).resource) (w.resource r).nodes [n]
      = true
  · obtain ⟨w₁, hgraph, hnode, hmembers⟩ := addNode_accepted hadd
    rw [UniqueIds, memberIds_of_graph hgraph, World.memberIds, hmembers, hnode]
    by_cases hmem : n ∈ (w.resource r).nodes
    · rw [if_pos hmem]
      constructor
      · exact fun _ _ hn => absurd hmem hn
      · exact fun _ => hu
    · rw [if_neg hmem, uniqueIds_append hu]
      constructor
      · exact fun h _ _ => h
      · exact fun h => h hadd hmem
  · have herror : Collection.add (fun m => (w.node m).resource) (w.resource r).nodes n =
        .error .assertionError := if_neg hadd
    have hexec : (exec (Resource.addNode r n) w).2 = w := by
      simp only [Resource.addNode, exec_get_bind, herror]
      rfl
    rw [hexec]
    constructor
    · exact fun _ h => absurd h hadd
    · exact fun _ => hu

/-! ## Runs -/

/-- A call keeps the ids distinct exactly when it gives a new one. -/
theorem uniqueIds_step {op : MemberOp} (hw : MembersExist r w) (hu : UniqueIds r w)
    (hop : op.Attempt r w w') : UniqueIds r w' ↔ op.GivesNewId r w := by
  obtain ⟨-, hw'⟩ := hop
  rw [hw']
  cases op with
  | construct host port =>
    rw [MemberOp.exec, exec_map_snd]
    exact uniqueIds_construct hw hu host port
  | removeNode n => exact ⟨fun _ => trivial, fun _ => uniqueIds_removeNode hu n⟩
  | addNode n => exact uniqueIds_addNode hu n

theorem membersExist_step {op : MemberOp} (hw : MembersExist r w) (hop : op.Attempt r w w') :
    MembersExist r w' := by
  obtain ⟨href, hw'⟩ := hop
  rw [hw']
  have hgraph : ∀ {u u' : World}, u'.graph = u.graph → MembersExist r u → MembersExist r u' := by
    intro u u' hu h m hm
    rw [graph_members hu] at hm
    rw [graph_nodeCount hu]
    exact h m hm
  cases op with
  | construct host port =>
    rw [MemberOp.exec, exec_map_snd]
    by_cases hadd : w.acceptsNew host r port = true
    · refine hgraph (graph_of_asking (nodeInit_accepted hadd)) fun m hm => ?_
      rw [members_addNewNode hw] at hm
      change m < w.nodeCount + 1
      rcases List.mem_append.mp hm with hm | hm
      · exact Nat.lt_succ_of_lt (hw m hm)
      · rw [List.mem_singleton.mp hm]
        exact Nat.lt_succ_self _
    · rw [Bool.not_eq_true] at hadd
      rw [nodeInit_rejected hadd]
      exact fun m hm => Nat.lt_succ_of_lt (hw m hm)
  | removeNode n =>
    rcases removeNode_cases r n w with ⟨e, hexec⟩ | ⟨w₁, hw₁, hr⟩
    · rw [MemberOp.exec, hexec]
      exact hw
    · rw [MemberOp.exec, show exec (Resource.removeNode r n) w = _ from hr]
      refine hgraph (graph_touch w₁ _) fun m hm => ?_
      rw [hw₁, World.members, World.setResource_resource, if_pos rfl] at hm
      rw [hw₁]
      exact hw m (List.mem_of_mem_erase hm)
  | addNode n =>
    rcases addNode_cases r n w with ⟨e, hexec⟩ | ⟨w₁, hw₁, hr⟩
    · rw [MemberOp.exec, hexec]
      exact hw
    · rw [MemberOp.exec, show exec (Resource.addNode r n) w = _ from hr]
      refine hgraph (graph_touch w₁ _) fun m hm => ?_
      rw [hw₁, World.members, World.setResource_resource, if_pos rfl] at hm
      rw [hw₁]
      rcases OrderedSet.mem_add.mp hm with hm | hm
      · exact hw m hm
      · rw [hm]
        exact href

/-- For a resource that starts without nodes, the ids of its members are distinct in all states
of a sequence of calls exactly when each of the calls gives a new id. -/
theorem node_ids_unique_iff (r : ResourceId) (w₀ : World) (h₀ : w₀.members r = [])
    (ops : List MemberOp) :
    EveryState (MemberOp.Attempt r) (UniqueIds r) w₀ ops ↔
      EveryStep (MemberOp.Attempt r) (fun w op => op.GivesNewId r w) w₀ ops := by
  have hexist : MembersExist r w₀ := by
    intro m hm
    rw [h₀] at hm
    cases hm
  have hunique : UniqueIds r w₀ := by
    rw [UniqueIds, World.memberIds, h₀]
    exact List.nodup_nil
  exact everyState_iff_everyStep hexist hunique (fun _ _ _ => membersExist_step)
    fun _ _ _ hw hu => uniqueIds_step hw hu

/-- The state in which a cluster of one host has just made a resource. -/
def freshResource : World := (exec (Resource.init none) (World.plain 1)).2

instance (r : ResourceId) (w : World) (op : MemberOp) : Decidable (op.GivesNewId r w) := by
  cases op with
  | construct host port => exact inferInstanceAs (Decidable (_ → _))
  | addNode n => exact inferInstanceAs (Decidable (_ → _))
  | removeNode n => exact .isTrue trivial

/-- Two nodes are made, the last one is removed, another one takes its id, and the first one is
removed and comes back. -/
def renewedIdRun : List MemberOp :=
  [.construct 0 ⟨1, Nat.one_pos⟩, .construct 0 ⟨2, by decide⟩, .removeNode 1,
    .construct 0 ⟨3, by decide⟩, .removeNode 0, .addNode 0]

theorem node_ids_unique_renewed :
    EveryState (MemberOp.Attempt 0) (UniqueIds 0) freshResource renewedIdRun := by
  have hpermitted : Permitted (fun w op => op.GivesNewId 0 w)
      (fun w op => (Stateful.exec (op.exec 0) w).2) freshResource renewedIdRun := by decide +kernel
  exact (node_ids_unique_iff 0 freshResource rfl _).mpr
    (everyStep_of_permitted (fun _ _ _ hstep => hstep.2) hpermitted)

/-- Two nodes are made, the first one is removed, and a third one is made. -/
def reusedIdRun : List MemberOp :=
  [.construct 0 ⟨1, Nat.one_pos⟩, .construct 0 ⟨2, by decide⟩, .removeNode 0,
    .construct 0 ⟨3, by decide⟩]

/-- The state after several calls. -/
def MemberOp.afterAll (r : ResourceId) (w : World) (ops : List MemberOp) : World :=
  ops.foldl (fun w op => (Stateful.exec (op.exec r) w).2) w

theorem node_id_reused :
    Run (MemberOp.Attempt 0) freshResource reusedIdRun
      (MemberOp.afterAll 0 freshResource reusedIdRun) ∧
    (MemberOp.afterAll 0 freshResource reusedIdRun).memberIds 0 = [1, 1] ∧
    ¬ UniqueIds 0 (MemberOp.afterAll 0 freshResource reusedIdRun) := by
  have hexists : 0 < (MemberOp.afterAll 0 freshResource (reusedIdRun.take 2)).nodeCount := by
    decide +kernel
  have hids : (MemberOp.afterAll 0 freshResource reusedIdRun).memberIds 0 = [1, 1] := by
    decide +kernel
  refine ⟨?_, hids, ?_⟩
  · exact .cons ⟨trivial, rfl⟩ (.cons ⟨trivial, rfl⟩ (.cons ⟨hexists, rfl⟩ (.single ⟨trivial, rfl⟩)))
  · rw [UniqueIds, hids]
    decide

end DrbdTests
