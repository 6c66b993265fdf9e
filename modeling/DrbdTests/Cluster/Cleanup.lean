import DrbdTests.Cluster.Accounting

/-!
# The exit handlers

A device is reached from `resource.nodes` over `node.disks`. `Node.add_disk` drops the volume
that it replaces, and the handler of a resource only visits the members that are left, so
what they held before is not removed. `cleanup_complete`: a run in which no call replaces a
volume that has devices (`Op.DropsNoDisk`), and at the end of which every node with disks is
a member, leaves a clean ledger after the exit handlers.
-/

namespace DrbdTests

open Stateful Runs Ledger

/-- No call removes the storage pools before the end. -/
def Op.KeepsPools : Op → Prop
  | .removeStoragePool _ => False
  | _ => True

instance (op : Op) : Decidable op.KeepsPools :=
  match op with
  | .removeStoragePool _ => isFalse id
  | .createResource _ | .createStoragePool _ _ | .addDisk _ _ | .nextVolume _
  | .nodeAddDisk _ _ _ _ | .removeDisks _ | .setNetOptions _ _ | .setDiskOptions _ _
  | .setResourceOptions _ _ | .setHandlers _ _ | .setFencingMode _ _ | .setTiebreaker _ _ _
  | .addNode _ _ | .removeNode _ _ | .rename _ _ | .installDrbd _ _ | .run _ _ _ _ =>
    isTrue trivial

/-- No volume that has devices is replaced. -/
def Op.DropsNoDisk (op : Op) (w : World) : Prop :=
  match op with
  | .nodeAddDisk n number _ _ => ReplacesNoDisk w n number
  | .addDisk r _ => ∀ n ∈ w.members r, ReplacesNoDisk w n (w.resource r).numVolumes
  | _ => True

instance (op : Op) (w : World) : Decidable (op.DropsNoDisk w) :=
  match op with
  | .nodeAddDisk n number _ _ => inferInstanceAs (Decidable (ReplacesNoDisk w n number))
  | .addDisk r _ => inferInstanceAs (Decidable (∀ n ∈ w.members r, ReplacesNoDisk w n _))
  | .createResource _ | .createStoragePool _ _ | .nextVolume _ | .removeDisks _
  | .removeStoragePool _ | .setNetOptions _ _ | .setDiskOptions _ _
  | .setResourceOptions _ _ | .setHandlers _ _ | .setFencingMode _ _ | .setTiebreaker _ _ _
  | .addNode _ _ | .removeNode _ _ | .rename _ _ | .installDrbd _ _ | .run _ _ _ _ =>
    isTrue trivial

variable {w₀ w w' : World} {r : ResourceId} {n : NodeId}

/-! ## One call -/

/-- All devices that exist belong to nodes, and all resources are in the list. -/
structure Tidy (w : World) : Prop extends WellFormed w where
  balanced : Balanced w w.stacks
  listed : ∀ r, r < w.resourceCount → r ∈ w.resources

theorem quiet_exec {op : Op} (h : op.KeepsLayout) : quiet.Holds op.exec := by
  have htouch : ∀ r, quiet.Holds (Resource.touchConfig r) := fun r =>
    Frame.holds_modify fun w => quiet_touch w _
  have hoption : ∀ r f, quiet.Holds (Resource.setOption r f) := fun r f =>
    Frame.holds_bind (Frame.holds_modify fun w => quiet_setResource) fun _ => htouch r
  cases op with
  | createStoragePool thin discardGranularity =>
    refine Frame.holds_bind Frame.holds_get fun w => Frame.holds_forM _ fun k _ => ?_
    exact quiet_hostCreateStoragePool k thin _
  | nextVolume r =>
    refine Frame.holds_bind ?_ fun _ => Frame.holds_pure _
    refine Frame.holds_bind Frame.holds_get fun w => ?_
    exact Frame.holds_bind (Frame.holds_modify fun w => quiet_setResource) fun _ => Frame.holds_pure _
  | setNetOptions r value => exact hoption r _
  | setDiskOptions r value => exact hoption r _
  | setResourceOptions r value => exact hoption r _
  | setHandlers r value => exact hoption r _
  | setFencingMode r mode =>
    refine Frame.holds_bind Frame.holds_get fun w => Frame.holds_forM _ fun m _ => ?_
    exact Frame.holds_modify fun w => quiet_setNode
  | rename r newName =>
    refine Frame.holds_bind Frame.holds_get fun w => ?_
    refine Frame.holds_bind (Frame.holds_forM _ fun m _ => ?_) fun _ => ?_
    · exact Frame.holds_bind (quiet_nodeRunWith true false m _) fun _ => Frame.holds_pure _
    · refine Frame.holds_bind (quiet_of_asking (asking_event _ _)) fun _ => ?_
      exact hoption r _
  | installDrbd k version =>
    refine Frame.holds_bind (quiet_of_asking (asking_rmmod k)) fun _ => ?_
    refine Frame.holds_bind (quiet_of_asking (asking_runHelper k _ _)) fun _ => ?_
    refine Frame.holds_bind (holds_readDrbdVersion k ?_ fun f => ?_) fun _ => ?_
    · exact fun cmd => quiet_of_asking (asking_run k cmd)
    · exact Frame.holds_modify fun w => quiet_setHost
    · exact Frame.holds_bind Frame.holds_get fun w => Frame.holds_forM _ fun r _ => htouch r
  | run m updateConfig catching cmd =>
    exact Frame.holds_bind (quiet_nodeRunWith updateConfig catching m cmd) fun _ =>
      Frame.holds_pure _
  | createResource | addDisk | nodeAddDisk | removeDisks | removeStoragePool | setTiebreaker
  | addNode | removeNode => cases h

theorem stacks_setTiebreaker {object : ObjectId} {value : Option Bool} :
    (w.setNode n fun node => { node with
      disks := node.disks.map fun v =>
        if v.object = object then { v with tiebreaker := value } else v }).stacks = w.stacks := by
  refine stacks_congr rfl fun m _ => ?_
  unfold World.nodeStacks
  rw [World.setNode_node]
  split
  · rename_i hmn
    subst hmn
    rw [List.map_map]
    congr 1
    refine List.map_congr_left fun v _ => ?_
    rw [Function.comp_apply]
    split <;> rfl
  · rfl

theorem Building.stacks (hB : Building w w') : w'.stacks = w.stacks := by
  unfold World.stacks
  have hold : ∑ n ∈ Finset.range w.nodeCount, w'.nodeStacks n =
      ∑ n ∈ Finset.range w.nodeCount, w.nodeStacks n := by
    refine Finset.sum_congr rfl fun n hn => ?_
    rw [World.nodeStacks, hB.node n (Finset.mem_range.mp hn), World.nodeStacks]
  rw [← hold]
  symm
  refine Finset.sum_subset (fun n hn => ?_) fun n hn hout => ?_
  · exact Finset.mem_range.mpr (Nat.lt_of_lt_of_le (Finset.mem_range.mp hn) hB.nodeCount_le)
  · have hnew := hB.newNode n (Nat.not_lt.mp fun hlt => hout (Finset.mem_range.mpr hlt))
      (Finset.mem_range.mp hn)
    rw [World.nodeStacks, hnew.disks]
    rfl

theorem Building.quiet (hB : Building w w') : quiet.rel w w' := by
  refine Prod.ext ?_ hB.objectCount
  change w'.ledger = w.ledger
  rw [World.ledger, hB.record, World.ledger]

/-- `Resource.add_disk`: the volume of each member is new when the loop comes to it. -/
theorem balanced_addDiskOnMembers {number : Nat} {args : Resource.AddDiskArgs} {u : PUnit}
    (hb : Balanced w w.stacks) (hlt : ∀ n ∈ w.members r, n < w.nodeCount)
    (h : ∀ n ∈ w.members r, ReplacesNoDisk w n number)
    (hr : Returns (Resource.addDiskOnMembers r number args) w u w') : Balanced w' w'.stacks := by
  unfold Resource.addDiskOnMembers at hr
  rw [returns_get_bind] at hr
  obtain ⟨volumes, w₁, hloop, hr⟩ := returns_bind.mp hr
  have hloop' : Balanced w₁ w₁.stacks ∧ w₁.nodeCount = w.nodeCount := by
    have hI := Returns.foldlM_invariant (fun done _ (w₁ : World) => Balanced w₁ w₁.stacks ∧
      w₁.nodeCount = w.nodeCount ∧ ∀ n, n ∉ done → (w₁.node n).disks = (w.node n).disks)
      hloop ⟨hb, rfl, fun _ _ => rfl⟩ ?_
    · exact ⟨hI.1, hI.2.1⟩
    · rintro pre n post volumes w₂ volumes' w₃ hsplit ⟨hb₂, hcount, hdisks⟩ hstep
      have hn : n ∈ w.members r := by
        rw [hsplit]
        simp
      have hout : n ∉ pre := by
        have hnodup := (w.resource r).nodes.nodup
        rw [World.members] at hsplit
        rw [hsplit] at hnodup
        exact fun hmem => (List.disjoint_of_nodup_append hnodup) hmem List.mem_cons_self
      have hreplaces : ReplacesNoDisk w₂ n number := by
        unfold ReplacesNoDisk
        rw [hdisks n hout]
        exact h n hn
      have hadd : ∀ {size args volume} {w₃ : World},
          Returns (Node.addDisk n number size args) w₂ volume w₃ →
          Balanced w₃ w₃.stacks ∧ w₃.nodeCount = w.nodeCount ∧
            ∀ m, m ∉ pre ++ [n] → (w₃.node m).disks = (w.node m).disks := by
        intro size args volume w₃ hadd
        refine ⟨hb₂.addDisk (hcount.symm ▸ hlt n hn) hreplaces hadd, ?_, fun m hm => ?_⟩
        · have hmesh := (keepingMesh_addDisk n number size args).rel_of_returns hadd
          exact (congrArg Layout.nodeCount hmesh).trans hcount
        · rcases addDisk_cases n number size args w₂ with ⟨e, he, -⟩ | ⟨v, w₄, -, hg, hret⟩
          · rw [show exec (Node.addDisk n number size args) w₂ = _ from hadd] at he
            cases he
          · obtain ⟨-, rfl⟩ := hadd.unique hret
            simp only [List.mem_append, List.mem_singleton, not_or] at hm
            rw [World.storeVolume, World.setNode_node, if_neg hm.2, graph_disks hg]
            exact hdisks m hm.1
      unfold Resource.addDiskOn at hstep
      split at hstep
      · obtain ⟨v, w₄, hret, hstep⟩ := returns_bind.mp hstep
        obtain ⟨-, rfl⟩ := returns_pure.mp hstep
        exact hadd hret
      · obtain ⟨v, w₄, hret, hstep⟩ := returns_bind.mp hstep
        obtain ⟨-, rfl⟩ := returns_pure.mp hstep
        exact hadd hret
  have hquiet := (Frame.holds_forM _ fun (p : NodeId × Volume) _ =>
    quiet_createMd p.1 p.2 args.maxPeers (args.bitmapBlockSizes.bind (List.lookup p.1))
      args.md).rel_of_returns hr
  have hlayout := (Frame.holds_forM _ fun (p : NodeId × Volume) _ => (keepingGraph_commands.node p.1).volumeCreateMd
    p.2 args.maxPeers (args.bitmapBlockSizes.bind (List.lookup p.1)) args.md).rel_of_returns hr
  rw [stacks_of_layout (layout_of_graph hlayout)]
  exact hloop'.1.quietly hquiet

/-- A call that returns adds at most its new resource to the list. -/
theorem listed_of_step {op : Op} (h : op.Step w w') :
    (w'.resources = w.resources ∧ w'.resourceCount = w.resourceCount) ∨
      (w'.resources = w.resources ++ [w.resourceCount] ∧ w'.resourceCount = w.resourceCount + 1) := by
  have hmesh : keepingMesh.Holds op.exec → (w'.resources = w.resources ∧
      w'.resourceCount = w.resourceCount) := fun hm => by
    have hl := hm.rel_of_returns h.2
    exact ⟨congrArg Layout.resources hl, congrArg Layout.resourceCount hl⟩
  cases op with
  | createResource name =>
    obtain ⟨r, hret⟩ := returns_drop.mp h.2
    obtain ⟨-, w₁, hB, -, rfl⟩ := createResource_returns hret
    refine Or.inr ⟨?_, hB.resourceCount⟩
    rw [← hB.resources]
  | addNode r n =>
    obtain ⟨w₁, rfl, rfl⟩ := addNode_returns h.2
    have hl := layout_touch (w.setResource r fun resource =>
      { resource with nodes := (w.resource r).nodes.add n })
    exact Or.inl ⟨congrArg Layout.resources (hl _), congrArg Layout.resourceCount (hl _)⟩
  | removeNode r n =>
    obtain ⟨w₁, rfl, rfl⟩ := removeNode_returns h.2
    have hl := layout_touch (w.setResource r fun resource =>
      { resource with nodes := (w.resource r).nodes.discard n })
    exact Or.inl ⟨congrArg Layout.resources (hl _), congrArg Layout.resourceCount (hl _)⟩
  | addDisk | nodeAddDisk | removeDisks | removeStoragePool | setTiebreaker =>
    exact Or.inl (hmesh (keepingMesh_exec trivial))
  | createStoragePool | nextVolume | setNetOptions | setDiskOptions | setResourceOptions
  | setHandlers | setFencingMode | rename | installDrbd | run =>
    exact Or.inl (hmesh (keepingMesh_of_layout (keepingLayout_exec trivial)))

theorem Tidy.balanced_step {op : Op} (h : Tidy w) (hpools : op.KeepsPools) (hdrop : op.DropsNoDisk w)
    (hstep : op.Step w w') : Balanced w' w'.stacks := by
  obtain ⟨href, hret⟩ := hstep
  have hlayout : op.KeepsLayout → Balanced w' w'.stacks := by
    intro hop
    rw [stacks_of_layout ((keepingLayout_exec hop).rel_of_returns hret)]
    exact h.balanced.of_quiet (quiet_exec hop) hret
  cases op with
  | createResource name =>
    obtain ⟨r, hcreate⟩ := returns_drop.mp hret
    obtain ⟨-, w₁, hB, -, rfl⟩ := createResource_returns hcreate
    have hb := h.balanced.quietly hB.quiet
    rw [← hB.stacks] at hb
    exact hb
  | addDisk r args =>
    obtain ⟨number, hret⟩ := returns_drop.mp hret
    obtain ⟨number, w₂, hnext, hret⟩ := returns_bind.mp hret
    obtain ⟨_, w₃, hadd, hret⟩ := returns_bind.mp hret
    obtain ⟨-, rfl⟩ := returns_pure.mp hret
    obtain ⟨rfl, rfl⟩ := nextVolume_returns hnext
    have hl := layout_setResource (w := w) (r := r)
      (f := fun resource => { resource with numVolumes := (w.resource r).numVolumes + 1 })
      fun _ => rfl
    have hmem : ∀ n, n ∈ (w.setResource r fun resource =>
        { resource with numVolumes := (w.resource r).numVolumes + 1 }).members r ↔
        n ∈ w.members r := mem_members_of_mesh (congrArg Layout.mesh hl) r
    refine balanced_addDiskOnMembers ?_ (fun n hn => ?_) (fun n hn => ?_) hadd
    · rw [stacks_of_layout hl]
      exact h.balanced.quietly quiet_setResource
    · exact h.members_lt r href n ((hmem n).mp hn)
    · exact hdrop n ((hmem n).mp hn)
  | nodeAddDisk n number size args =>
    obtain ⟨v, hadd⟩ := returns_drop.mp hret
    exact h.balanced.addDisk href hdrop hadd
  | removeDisks n => exact h.balanced.removeDisks href hret
  | removeStoragePool r => cases hpools
  | setTiebreaker n object value =>
    obtain ⟨_, w₁, hset, hret⟩ := returns_bind.mp hret
    rw [returns_modify] at hset
    subst hset
    rw [returns_get_bind, Resource.touchConfig, returns_modify] at hret
    subst hret
    rw [stacks_of_layout (layout_touch _ _), stacks_setTiebreaker]
    exact h.balanced.quietly (quiet.trans quiet_setNode (quiet_touch _ _))
  | addNode r n =>
    obtain ⟨w₁, rfl, rfl⟩ := addNode_returns hret
    rw [stacks_of_layout (layout_touch _ _)]
    exact h.balanced.quietly (quiet.trans quiet_setResource (quiet_touch _ _))
  | removeNode r n =>
    obtain ⟨w₁, rfl, rfl⟩ := removeNode_returns hret
    rw [stacks_of_layout (layout_touch _ _)]
    exact h.balanced.quietly (quiet.trans quiet_setResource (quiet_touch _ _))
  | createStoragePool | nextVolume | setNetOptions | setDiskOptions | setResourceOptions
  | setHandlers | setFencingMode | rename | installDrbd | run => exact hlayout trivial

theorem Tidy.step {op : Op} (h : Tidy w) (hpools : op.KeepsPools) (hdrop : op.DropsNoDisk w)
    (hstep : op.Step w w') : Tidy w' where
  toWellFormed := h.toWellFormed.step (meshStep_of_attempt hstep.attempt)
  balanced := h.balanced_step hpools hdrop hstep
  listed r hr := by
    rcases listed_of_step hstep with ⟨hres, hcount⟩ | ⟨hres, hcount⟩
    · rw [hres]
      exact h.listed r (hcount ▸ hr)
    · rw [hres, List.mem_append, List.mem_singleton]
      rw [hcount] at hr
      rcases Nat.lt_succ_iff_lt_or_eq.mp hr with hr | hr
      · exact Or.inl (h.listed r hr)
      · exact Or.inr hr

theorem tidy_of_initial (h : w.Initial) : Tidy w where
  toWellFormed := wellFormed_of_initial h
  balanced := by
    have hledger : w.ledger = [] := by
      rw [World.ledger, World.record, h.requests_nil]
      rfl
    have hstacks : w.stacks = 0 := by
      rw [World.stacks, h.nodeCount_zero]
      rfl
    rw [Balanced, hledger, hstacks]
    exact ⟨accounts_nil, fun o _ => rfl⟩
  listed r hr := absurd (h.resourceCount_zero ▸ hr) (Nat.not_lt_zero r)

/-! ## The handlers -/

/-- The state after the disks of some nodes have been removed. -/
structure Emptied (w₀ : World) (done : List NodeId) (w : World) : Prop where
  settings : w.settings = w₀.settings
  mesh : w.layout.mesh = w₀.layout.mesh
  balanced : Balanced w w.stacks
  empty : ∀ n ∈ done, (w.node n).disks = []
  disks : ∀ n, (w.node n).disks = [] ∨ (w.node n).disks = (w₀.node n).disks

theorem keepingGraph_nodeRun (n : NodeId) (updateConfig : Bool) (cmd : List String) {out : String}
    (hr : Returns (Node.runWith updateConfig false n cmd) w out w') : w'.graph = w.graph :=
  ((keepingGraph_commands.node n).runWith updateConfig false cmd).rel_of_returns hr

/-- `Node.cleanup` -/
theorem Emptied.cleanup {done : List NodeId} {u : PUnit} (h : Emptied w₀ done w)
    (hn : n < w₀.nodeCount) (hr : Returns (Node.cleanup n) w u w') :
    Emptied w₀ (done ++ [n]) w' := by
  unfold Node.cleanup at hr
  rw [returns_get_bind] at hr
  obtain ⟨out, w₁, hrun, hr⟩ := returns_bind.mp hr
  have hg₁ := keepingGraph_nodeRun n false _ hrun
  have hb₁ : Balanced w₁ w₁.stacks := by
    rw [stacks_of_layout (layout_of_graph hg₁)]
    exact h.balanced.of_quiet (quiet_nodeRunWith false false n _) hrun
  have hcount : w₁.nodeCount = w₀.nodeCount :=
    (graph_nodeCount hg₁).trans (congrArg Layout.nodeCount h.mesh)
  have hb := hb₁.removeDisks (hcount.symm ▸ hn) hr
  have hmesh := (keepingMesh_removeDisks n).rel_of_returns hr
  unfold Node.removeDisks at hr
  rw [returns_get_bind] at hr
  obtain ⟨_, w₂, hloop, hr⟩ := returns_bind.mp hr
  rw [returns_modify] at hr
  subst hr
  have hg₂ := (Frame.holds_forM _ fun v _ => keepingGraph_commands.devices.volumeRemoveDisks v).rel_of_returns hloop
  have hg : w₂.graph = w.graph := Eq.trans hg₂ hg₁
  have hdisks : ∀ m, ((w₂.clearDisks n).node m).disks = if m = n then [] else (w.node m).disks := by
    intro m
    rw [World.clearDisks, World.setNode_node]
    split
    · rfl
    · exact graph_disks hg m
  refine ⟨?_, ?_, hb, fun m hm => ?_, fun m => ?_⟩
  · exact (graph_settings hg).trans h.settings
  · have hmesh₁ := congrArg Layout.mesh (layout_of_graph hg₁)
    exact Eq.trans hmesh (hmesh₁.trans h.mesh)
  · rw [hdisks]
    split
    · rfl
    · rename_i hmn
      rcases List.mem_append.mp hm with hm | hm
      · exact h.empty m hm
      · exact absurd (List.mem_singleton.mp hm) hmn
  · rw [hdisks]
    split
    · exact Or.inl rfl
    · exact h.disks m

/-- `Resource.cleanup` -/
theorem Emptied.resourceCleanup {done : List NodeId} {u : PUnit} (h : Emptied w₀ done w)
    (hskip : w₀.settings.skipCleanup = false) (hlt : ∀ n ∈ w₀.members r, n < w₀.nodeCount)
    (hr : Returns (Resource.cleanup r) w u w') : Emptied w₀ (done ++ w₀.members r) w' := by
  unfold Resource.cleanup at hr
  rw [returns_get_bind, h.settings, hskip, members_of_mesh h.mesh] at hr
  refine Returns.forM_invariant (fun passed (w' : World) => Emptied w₀ (done ++ passed) w') hr
    (by simpa using h) ?_
  intro pre n post w₁ w₂ hsplit hI hstep
  have hn : n ∈ w₀.members r := by
    rw [hsplit]
    simp
  rw [← List.append_assoc]
  exact hI.cleanup (hlt n hn) hstep

theorem Emptied.mono {done done' : List NodeId} (h : Emptied w₀ done w)
    (hsub : ∀ n ∈ done', n ∈ done) : Emptied w₀ done' w :=
  { h with empty := fun n hn => h.empty n (hsub n hn) }

/-- After the handlers of all resources, the members have no disks. -/
theorem emptied_of_cleanups {u : PUnit} (h : Tidy w) (hskip : w.settings.skipCleanup = false)
    (hr : Returns ((List.range w.resourceCount).reverse.forM Resource.cleanup) w u w') :
    Emptied w ((List.range w.resourceCount).reverse.flatMap w.members) w' := by
  have hstart : Emptied w [] w := ⟨rfl, rfl, h.balanced, by simp, fun _ => Or.inr rfl⟩
  refine Returns.forM_invariant (fun done (w' : World) => Emptied w (done.flatMap w.members) w') hr
    hstart ?_
  intro pre r post w₁ w₂ hsplit hI hstep
  have hrlt : r < w.resourceCount := by
    have hmem : r ∈ (List.range w.resourceCount).reverse := by
      rw [hsplit]
      simp
    simpa using hmem
  have hlt := h.members_lt r (h.listed r hrlt)
  refine (hI.resourceCleanup hskip hlt hstep).mono fun n hn => ?_
  simpa using hn

/-- Only storage pools are removed. -/
def closing : Frame World where
  rel w w' := ∃ events : List (Event ObjectId), (∀ e ∈ events, e = .closed) ∧
    w'.ledger = w.ledger ++ events
  refl w := ⟨[], by simp, by simp⟩
  trans := by
    rintro a b c ⟨l, hl, hab⟩ ⟨l', hl', hbc⟩
    refine ⟨l ++ l', fun e he => ?_, by rw [hbc, hab, List.append_assoc]⟩
    rcases List.mem_append.mp he with he | he
    · exact hl e he
    · exact hl' e he

theorem closing_of_quiet {α : Type} {m : Py α} (h : quiet.Holds m) : closing.Holds m :=
  h.mono fun w w' hq => by
    have hl : w'.ledger = w.ledger := congrArg Prod.fst hq
    exact ⟨[], by simp, by simpa using hl⟩

theorem closing_actRemovePool (h : HostId) (cmd : List String) :
    closing.Holds (Host.act h cmd none .removePool) := by
  refine Frame.holds_bind (holds_runWith fun w ok => ?_) fun _ => Frame.holds_pure _
  refine ⟨if ok then [.closed] else [], fun e he => ?_, ?_⟩
  · cases ok <;> simp_all
  · rw [ledger_request]
    rfl

theorem closing_clusterCleanup : closing.Holds Cluster.cleanup := by
  refine Frame.holds_bind Frame.holds_get fun w => ?_
  refine Frame.holds_bind (Frame.holds_when fun _ => Frame.holds_forM _ fun k _ => ?_) fun _ =>
    Frame.holds_forM _ fun k _ => ?_
  · refine Frame.holds_bind Frame.holds_get fun w => Frame.holds_when fun _ => ?_
    refine Frame.holds_bind Frame.holds_get fun w => ?_
    split
    · exact Frame.holds_throw _
    · refine Frame.holds_bind (Frame.holds_bind Frame.holds_get fun _ => ?_) fun _ => ?_
      · split
        · exact closing_actRemovePool k _
        · exact closing_actRemovePool k _
        · exact closing_actRemovePool k _
        · exact Frame.holds_pure _
      · exact closing_of_quiet (Frame.holds_modify fun w => quiet_setHost)
  · refine Frame.holds_bind Frame.holds_get fun w => Frame.holds_when fun _ => ?_
    refine closing_of_quiet (quiet_of_asking ?_)
    exact Frame.holds_bind (asking_run k _) fun _ => Frame.holds_bind (asking_run k _) fun _ =>
      Frame.holds_pure _

/-- Every node that has devices is a member of some resource. -/
def DisksOfMembers (w : World) : Prop :=
  ∀ n, n < w.nodeCount → w.nodeStacks n ≠ 0 → ∃ r ∈ w.resources, n ∈ w.members r

/-- The exit handlers of a tidy state clean up, if they reach all devices. -/
theorem Tidy.clean {u : PUnit} (h : Tidy w) (hmembers : DisksOfMembers w)
    (hskip : w.settings.skipCleanup = false) (hr : Returns exitHandlers w u w') :
    Clean w'.ledger := by
  unfold exitHandlers at hr
  rw [returns_get_bind] at hr
  obtain ⟨_, w₁, hresources, hcluster⟩ := returns_bind.mp hr
  have hempty := emptied_of_cleanups h hskip hresources
  have hcount : w₁.nodeCount = w.nodeCount := congrArg Layout.nodeCount hempty.mesh
  have hzero : w₁.stacks = 0 := by
    refine Finset.sum_eq_zero fun n hn => ?_
    rw [hcount] at hn
    have hlt := Finset.mem_range.mp hn
    by_cases hs : w.nodeStacks n = 0
    · rcases hempty.disks n with hd | hd
      · rw [World.nodeStacks, hd]
        rfl
      · rw [World.nodeStacks, hd]
        exact hs
    · obtain ⟨r, hr, hmem⟩ := hmembers n hlt hs
      have hd := hempty.empty n (List.mem_flatMap.mpr
        ⟨r, by simpa using h.resources_lt r hr, hmem⟩)
      rw [World.nodeStacks, hd]
      rfl
  have hb := hempty.balanced.1
  rw [hzero] at hb
  obtain ⟨events, hclosed, hledger⟩ := closing_clusterCleanup.rel_of_returns hcluster
  rw [hledger]
  exact hb.clean hclosed

/-- The calls before the exit handlers drop no device. -/
def Op.KeepsDevices (w : World) (op : Op) : Prop := op.KeepsPools ∧ op.DropsNoDisk w

/-- After a run that drops no device, at the end of which all nodes with devices are members,
the exit handlers remove each device once, from the top, and before the storage pools. -/
theorem cleanup_complete {ops : List Op} (h₀ : w₀.Initial)
    (run : Run (Guarded Op.KeepsDevices fun w (op : Op) w' => op.Step w w') w₀ ops w)
    (hmembers : DisksOfMembers w) (hskip : w.settings.skipCleanup = false)
    (hexit : Returns exitHandlers w ⟨⟩ w') : Clean w'.ledger := by
  have htidy : Tidy w := run.invariant (tidy_of_initial h₀) fun _ _ _ h hstep =>
    h.step hstep.1.1 hstep.1.2 hstep.2
  exact htidy.clean hmembers hskip hexit

instance (w : World) (op : Op) : Decidable (op.KeepsDevices w) :=
  inferInstanceAs (Decidable (_ ∧ _))

instance (w : World) : Decidable (DisksOfMembers w) :=
  inferInstanceAs (Decidable (∀ n, n < w.nodeCount → _))

/-- A disk with a delay layer, a layer for the block size, and separate metadata. -/
def layeredDisk : NodeDiskArgs := ⟨some "1M", ⟨none, some 10, some 4096⟩, false⟩

/-- Disks are added on two nodes, one of which leaves the resource without its disks, gets a
new one, and rejoins. -/
def tidyRun : List Op :=
  [.createStoragePool false none, .createResource none,
    .addDisk 0 ⟨"1G", none, layeredDisk, none, none, ⟨none, false, false, false, false⟩⟩,
    .removeDisks 1, .removeNode 0 1, .nodeAddDisk 1 0 (some "1G") layeredDisk, .addNode 0 1]

theorem cleanup_complete_rejoining :
    Clean (exec exitHandlers (Op.afterAll (World.plain 2) tidyRun)).2.ledger := by
  have hrun : Op.Allowed (fun w op => op.KeepsDevices w ∧ op.Succeeds w) (World.plain 2) tidyRun ∧
      DisksOfMembers (Op.afterAll (World.plain 2) tidyRun) ∧
      (Op.afterAll (World.plain 2) tidyRun).settings.skipCleanup = false ∧
      (exec exitHandlers (Op.afterAll (World.plain 2) tidyRun)).1.toBool = true := by
    decide +kernel
  obtain ⟨hallowed, hmembers, hskip, hexit⟩ := hrun
  exact cleanup_complete (plain_initial 2) (Op.run_of_succeeds hallowed) hmembers hskip
    (returns_of_toBool hexit)

/-- A diskless volume replaces the disk under the number `0`, which is not removed. -/
def leakingRun : List Op :=
  [.createResource none, .nodeAddDisk 0 0 (some "1G") .default, .nodeAddDisk 0 0 none .default]

theorem device_left_after_add_disk :
    Run (fun w (op : Op) w' => op.Step w w') (World.plain 1) leakingRun
      (Op.afterAll (World.plain 1) leakingRun) ∧
    Returns exitHandlers (Op.afterAll (World.plain 1) leakingRun) ⟨⟩
      (exec exitHandlers (Op.afterAll (World.plain 1) leakingRun)).2 ∧
    ¬ Clean (exec exitHandlers (Op.afterAll (World.plain 1) leakingRun)).2.ledger := by
  have hrun : Op.Allowed (fun w op => True ∧ op.Succeeds w) (World.plain 1) leakingRun ∧
      (exec exitHandlers (Op.afterAll (World.plain 1) leakingRun)).1.toBool = true ∧
      ∃ o ∈ List.range 4, Event.made o none ∈
          (exec exitHandlers (Op.afterAll (World.plain 1) leakingRun)).2.ledger ∧
        (exec exitHandlers (Op.afterAll (World.plain 1) leakingRun)).2.ledger.count (.gone o) ≠ 1 := by
    decide +kernel
  obtain ⟨hallowed, hexit, hleft⟩ := hrun
  have run := Op.run_of_succeeds hallowed
  refine ⟨run.of_guarded, returns_of_toBool hexit, ?_⟩
  intro h
  obtain ⟨o, -, hm, hcount⟩ := hleft
  exact hcount (h.gone_once o none hm)

end DrbdTests
