import DrbdTests.Cluster.Cleanup

/-!
# How a test ends

With `--cleanup=never`, and with `--cleanup=success` after an exception which nobody has caught, what
the test has set up is left for a closer look; otherwise it is removed. The exit handlers run one after
the other, and an exception in one of them is printed and does not keep the others from running.

`exit_phase` says what this comes to: either nothing is removed at all, or the nodes of every resource
lose their disks whose own handler returns, whatever happens in the handlers of the other resources.
-/

namespace DrbdTests

open Stateful Ledger

/-- `--cleanup` -/
inductive CleanupMode
  | success
  | always
  | never
  deriving DecidableEq, Repr

/-- The end of the test script; `sys.exit` is an exception that `sys.excepthook` is not called for. -/
inductive Ending
  | done
  | exit (code : Nat)
  | uncaught
  deriving DecidableEq, Repr

def World.setSkipCleanup (w : World) : World :=
  { w with settings := { w.settings with skipCleanup := true } }

namespace Cleanup

/-- `Cleanup.__init__` -/
def init (cleanup : CleanupMode) : Py PUnit :=
  when (cleanup = .never) (modify World.setSkipCleanup)

/-- `Cleanup.hook`, without what it prints -/
def hook (cleanup : CleanupMode) : Py PUnit :=
  when (cleanup = .success) (modify World.setSkipCleanup)

end Cleanup

/-- `sys.excepthook` -/
def excepthook (cleanup : CleanupMode) : Ending → Py PUnit
  | .uncaught => Cleanup.hook cleanup
  | _ => pure ⟨⟩

/-- A function that was registered with `atexit`: an exception in it is printed. -/
def runHandler (w : World) (handler : Py PUnit) : World := (exec handler w).2

/-- The world when the handlers of some resources have run. -/
def runCleanups (w : World) (rs : List ResourceId) : World :=
  rs.foldl (fun w r => runHandler w (Resource.cleanup r)) w

/-- The handlers, the last registered first. -/
def atExit (w : World) : World :=
  runHandler (runCleanups w (List.range w.resourceCount).reverse) Cluster.cleanup

/-- The end of a test script. -/
def endScript (cleanup : CleanupMode) (ending : Ending) (w : World) : World :=
  atExit (runHandler w (excepthook cleanup ending))

/-- Nothing is to be removed. -/
def KeepsAll (cleanup : CleanupMode) (ending : Ending) : Prop :=
  cleanup = .never ∨ (cleanup = .success ∧ ending = .uncaught)

instance (cleanup : CleanupMode) (ending : Ending) : Decidable (KeepsAll cleanup ending) :=
  inferInstanceAs (Decidable (_ ∨ _))

variable {w w' : World} {r : ResourceId} {n : NodeId} {cleanup : CleanupMode} {ending : Ending}

/-! ## Whether anything is removed -/

theorem skipCleanup_excepthook (h : w.settings.skipCleanup = decide (cleanup = .never)) :
    (runHandler w (excepthook cleanup ending)).settings.skipCleanup =
      decide (KeepsAll cleanup ending) := by
  unfold runHandler
  cases ending with
  | uncaught =>
    cases cleanup with
    | success => rfl
    | always => exact h
    | never => exact h
  | done => simp [excepthook, KeepsAll, h]
  | exit => simp [excepthook, KeepsAll, h]

/-- The hook only changes the setting. -/
theorem runHandler_excepthook (cleanup : CleanupMode) (ending : Ending) (w : World) :
    runHandler w (excepthook cleanup ending) = w ∨
      runHandler w (excepthook cleanup ending) = w.setSkipCleanup := by
  cases ending with
  | uncaught =>
    cases cleanup with
    | success => exact Or.inr rfl
    | always => exact Or.inl rfl
    | never => exact Or.inl rfl
  | done => exact Or.inl rfl
  | exit => exact Or.inl rfl

theorem runCleanups_of_skip (h : w.settings.skipCleanup = true) (rs : List ResourceId) :
    runCleanups w rs = w := by
  have hone : ∀ r, runHandler w (Resource.cleanup r) = w := by
    intro r
    rw [runHandler, Resource.cleanup, exec_get_bind, h]
    rfl
  unfold runCleanups
  induction rs with
  | nil => rfl
  | cons r rs ih =>
    rw [List.foldl_cons, hone]
    exact ih

theorem asking_hostCleanupFramework (k : HostId) : asking.Holds (Host.cleanupFramework k) := by
  refine Frame.holds_bind Frame.holds_get fun w => Frame.holds_when fun _ => ?_
  exact Frame.holds_bind (asking_run k _) fun _ => Frame.holds_bind (asking_run k _) fun _ =>
    Frame.holds_pure _

theorem asking_atExit (h : w.settings.skipCleanup = true) : asking.rel w (atExit w) := by
  rw [atExit, runCleanups_of_skip h, runHandler, Cluster.cleanup, exec_get_bind, h]
  exact Frame.holds_forM w.hosts (fun k _ => asking_hostCleanupFramework k) w

/-! ## The handlers of the resources -/

/-- Nodes keep their disks or lose them all. -/
def emptying : Frame World where
  rel w w' := w'.settings = w.settings ∧ (∀ r, w'.members r = w.members r) ∧
    ∀ n, (w'.node n).disks = [] ∨ (w'.node n).disks = (w.node n).disks
  refl w := ⟨rfl, fun _ => rfl, fun _ => Or.inr rfl⟩
  trans := by
    intro a b c hab hbc
    refine ⟨hbc.1.trans hab.1, fun r => (hbc.2.1 r).trans (hab.2.1 r), fun n => ?_⟩
    rcases hbc.2.2 n with hnil | heq
    · exact Or.inl hnil
    · rw [heq]
      exact hab.2.2 n

theorem emptying_of_graph {α : Type} {m : Py α} (h : keepingGraph.Holds m) : emptying.Holds m :=
  h.mono fun _ _ hg => ⟨graph_settings hg, graph_members hg, fun n => Or.inr (graph_disks hg n)⟩

theorem emptying_nodeCleanup (n : NodeId) : emptying.Holds (Node.cleanup n) := by
  refine Frame.holds_bind Frame.holds_get fun w => ?_
  refine Frame.holds_bind (emptying_of_graph
    ((keepingGraph_commands.node n).runWith false false _)) fun _ => ?_
  refine Frame.holds_bind Frame.holds_get fun w => ?_
  refine Frame.holds_bind (emptying_of_graph (Frame.holds_forM _ fun v _ =>
    keepingGraph_commands.devices.volumeRemoveDisks v)) fun _ => ?_
  refine Frame.holds_modify fun w => ⟨rfl, fun _ => rfl, fun m => ?_⟩
  rw [World.clearDisks, World.setNode_node]
  split
  · exact Or.inl rfl
  · exact Or.inr rfl

theorem emptying_resourceCleanup (r : ResourceId) : emptying.Holds (Resource.cleanup r) := by
  refine Frame.holds_bind Frame.holds_get fun w => Frame.holds_when fun _ => ?_
  exact Frame.holds_forM _ fun n _ => emptying_nodeCleanup n

theorem emptying_clusterCleanup : emptying.Holds Cluster.cleanup := by
  refine Frame.holds_bind Frame.holds_get fun w => ?_
  refine Frame.holds_bind (Frame.holds_when fun _ => Frame.holds_forM _ fun k _ => ?_) fun _ =>
    Frame.holds_forM _ fun k _ => ?_
  · refine emptying_of_graph (Frame.holds_bind Frame.holds_get fun w => Frame.holds_when fun _ => ?_)
    exact keepingGraph_commands.pools.hostRemoveStoragePool k
  · exact emptying_of_graph (keepingGraph_commands.of_asking (asking_hostCleanupFramework k))

theorem emptying_runCleanups (w : World) (rs : List ResourceId) :
    emptying.rel w (runCleanups w rs) := by
  unfold runCleanups
  induction rs generalizing w with
  | nil => exact emptying.refl w
  | cons r rs ih => exact emptying.trans (emptying_resourceCleanup r w) (ih _)

/-- `Node.remove_disks` is the last statement of `Node.cleanup`. -/
theorem nodeCleanup_empty {u : PUnit} (hr : Returns (Node.cleanup n) w u w') :
    (w'.node n).disks = [] := by
  unfold Node.cleanup at hr
  rw [returns_get_bind] at hr
  obtain ⟨out, w₁, -, hr⟩ := returns_bind.mp hr
  unfold Node.removeDisks at hr
  rw [returns_get_bind] at hr
  obtain ⟨_, w₂, -, hr⟩ := returns_bind.mp hr
  rw [returns_modify] at hr
  rw [← hr, World.clearDisks, World.setNode_node, if_pos rfl]

/-- When the handler of a resource returns, its nodes have no disks. -/
theorem resourceCleanup_empty {u : PUnit} (hskip : w.settings.skipCleanup = false)
    (hr : Returns (Resource.cleanup r) w u w') : ∀ n ∈ w.members r, (w'.node n).disks = [] := by
  unfold Resource.cleanup at hr
  rw [returns_get_bind, hskip] at hr
  refine hr.forM_invariant (fun passed w' => ∀ n ∈ passed, (w'.node n).disks = []) (by simp) ?_
  intro pre n post w₁ w₂ _ hI hstep m hm
  by_cases hmn : m = n
  · rw [hmn]
    exact nodeCleanup_empty hstep
  · have hpre : m ∈ pre := by simpa [hmn] using hm
    rcases ((emptying_nodeCleanup n).rel_of_returns hstep).2.2 m with hnil | heq
    · exact hnil
    · rw [heq]
      exact hI m hpre

/-- The resources that were created after a resource. -/
def createdAfter (w : World) (r : ResourceId) : List ResourceId :=
  ((List.range w.resourceCount).drop (r + 1)).reverse

theorem handlers_split (hr : r < w.resourceCount) : ∃ before : List ResourceId,
    (List.range w.resourceCount).reverse = createdAfter w r ++ r :: before := by
  have hsplit : List.range w.resourceCount =
      (List.range w.resourceCount).take r ++ r :: (List.range w.resourceCount).drop (r + 1) := by
    conv_lhs => rw [← List.take_append_drop r (List.range w.resourceCount)]
    rw [List.drop_eq_getElem_cons (by simpa using hr), List.getElem_range]
  refine ⟨((List.range w.resourceCount).take r).reverse, ?_⟩
  conv_lhs => rw [hsplit]
  simp [createdAfter]

theorem atExit_empty (hskip : w.settings.skipCleanup = false) (hr : r < w.resourceCount)
    (hreturns : Returns (Resource.cleanup r) (runCleanups w (createdAfter w r)) ⟨⟩ w')
    (hn : n ∈ w.members r) : ((atExit w).node n).disks = [] := by
  have hbefore := emptying_runCleanups w (createdAfter w r)
  have hempty : (w'.node n).disks = [] := by
    refine resourceCleanup_empty ?_ hreturns n ?_
    · rw [hbefore.1]
      exact hskip
    · rw [hbefore.2.1]
      exact hn
  obtain ⟨before, hsplit⟩ := handlers_split hr
  have hafter : atExit w = runHandler (runCleanups w' before) Cluster.cleanup := by
    rw [atExit, hsplit, runCleanups, List.foldl_append, List.foldl_cons]
    have hrun : runHandler (runCleanups w (createdAfter w r)) (Resource.cleanup r) = w' := by
      rw [runHandler, show exec (Resource.cleanup r) _ = _ from hreturns]
    exact congrArg (fun w => runHandler (runCleanups w before) Cluster.cleanup) hrun
  rw [hafter]
  have hlater := emptying.trans (emptying_runCleanups w' before) (emptying_clusterCleanup _)
  rcases hlater.2.2 n with hnil | heq
  · exact hnil
  · exact heq.trans hempty

/-- The end of a script. If everything is to be kept, no device and no storage pool is removed, and the
nodes keep their disks. Otherwise the members of each resource have no disks, if its handler returns. -/
theorem exit_phase (cleanup : CleanupMode) (ending : Ending) (w : World)
    (hmode : w.settings.skipCleanup = decide (cleanup = .never)) :
    (KeepsAll cleanup ending → (endScript cleanup ending w).ledger = w.ledger ∧
      ∀ n, ((endScript cleanup ending w).node n).disks = (w.node n).disks) ∧
    (¬ KeepsAll cleanup ending → ∀ r w', r < w.resourceCount →
      Returns (Resource.cleanup r) (runCleanups w (createdAfter w r)) ⟨⟩ w' →
      ∀ n ∈ w.members r, ((endScript cleanup ending w).node n).disks = []) := by
  have hskip : (runHandler w (excepthook cleanup ending)).settings.skipCleanup =
      decide (KeepsAll cleanup ending) := skipCleanup_excepthook hmode
  constructor
  · intro hkeep
    rw [decide_eq_true hkeep] at hskip
    have hask := asking_atExit hskip
    have hledger : (endScript cleanup ending w).ledger =
        (runHandler w (excepthook cleanup ending)).ledger := by
      rw [World.ledger, World.ledger]
      exact congrArg (fun record => record.reverse.filterMap fun r => r.effect.event) hask.2
    have hdisks : ∀ n, ((endScript cleanup ending w).node n).disks =
        ((runHandler w (excepthook cleanup ending)).node n).disks := graph_disks (graph_of_asking hask)
    rcases runHandler_excepthook cleanup ending w with heq | heq
    · rw [heq] at hledger hdisks
      exact ⟨hledger, hdisks⟩
    · rw [heq] at hledger hdisks
      exact ⟨hledger, hdisks⟩
  · intro hremove r w' hr hreturns n hn
    rw [decide_eq_false hremove] at hskip
    have hsame : runHandler w (excepthook cleanup ending) = w := by
      rcases runHandler_excepthook cleanup ending w with heq | heq
      · exact heq
      · rw [heq] at hskip
        cases hskip
    rw [endScript, hsame]
    rw [hsame] at hskip
    exact atExit_empty hskip hr hreturns hn

/-- Two resources, one of them with disks. -/
def exitWorld : World :=
  Op.afterAll (World.plain 2) [.createResource none, .createResource none,
    .addDisk 0 ⟨"1G", none, .default, none, none, ⟨none, false, false, false, false⟩⟩]

theorem exit_phase_two :
    (KeepsAll .success .done → (endScript .success .done exitWorld).ledger = exitWorld.ledger ∧
      ∀ n, ((endScript .success .done exitWorld).node n).disks = (exitWorld.node n).disks) ∧
    (¬ KeepsAll .success .done → ∀ r w', r < exitWorld.resourceCount →
      Returns (Resource.cleanup r) (runCleanups exitWorld (createdAfter exitWorld r)) ⟨⟩ w' →
      ∀ n ∈ exitWorld.members r, ((endScript .success .done exitWorld).node n).disks = []) :=
  exit_phase .success .done exitWorld (by decide +kernel)

end DrbdTests
