import Mathlib.Algebra.GroupWithZero.Nat
import DrbdTests.Cluster.Mesh
import DrbdTests.Lib.Dict
import DrbdTests.Lib.Executor

/-!
# The randomized test

The main loop of `tests_special/random`, with the commands that it submits to the executor. The main
thread keeps one future for each node. A step is only chosen for nodes without a future, and only
`check_for_completion` clears one; so no node runs two commands at a time, and no future is lost
(`one_command_per_node`).

`run` is a call of `Node.run`, and counts as one command of its node until it returns. No config is
changed during the loop.
-/

namespace DrbdTests.Random

open Executors Runs

/-! ## Commands -/

inductive Command
  | run (node : NodeId) (cmd : List String) (catching : Bool)
  | fioFile (node : NodeId) (volume : Nat) (size : String)
  /-- A wait for events, which runs nothing on a node. -/
  | event (cs : List Connection) (pattern : String)
  deriving DecidableEq, Repr

def Command.place : Command → Option NodeId
  | run node _ _ => some node
  | fioFile node _ _ => some node
  | event _ _ => none

inductive Failure
  | exception (message : String)
  | error (e : PyError)
  deriving DecidableEq, Repr

/-- `Node.drbdadm` -/
def drbdadm (w : World) (n : NodeId) (cmd : List String) (catching : Bool) : Command :=
  .run n (["drbdadm", "-c", Host.drbdGlobalConfigFilePath w (w.node n).host, "-v"] ++ cmd) catching

/-- `Connections.run_drbdadm`, with the wait for the events. -/
def runDrbdadm (w : World) (cmd stateStr : String) (options : List String)
    (cs : OrderedSet Connection) : Script Command String Failure :=
  Script.commands (
    (cs.items.map fun c =>
      let resource := (w.resource (w.node c.node1).resource).name
      let context :=
        if (w.host (w.node c.node1).host).info.drbdVersionTuple.ge (9, 0, 0) then
          resource ++ ":" ++ (w.host (w.node c.node2).host).info.hostname
        else resource
      drbdadm w c.node1 ([cmd] ++ options ++ [context]) false) ++
    if cs.items = [] then [] else [.event cs.items ("connection .* connection:" ++ stateStr)])

/-- What is submitted to the executor; nodes are given by their index. -/
inductive Task
  | primary (i : Nat)
  | secondary (i : Nat)
  | disconnect (i j : Nat)
  | connect (i j : Nat)
  deriving DecidableEq, Repr

/-! ## The main thread -/

structure RandomNode where
  role : String
  diskState : String
  connections : Dict Nat String
  future : Option Future

abbrev Memory := Nat → RandomNode

abbrev Main := Prog Command String Task Failure Memory

/-- What `drbdsetup status --json` prints about a resource. -/
structure Report where
  role : String
  diskStates : List String
  connections : List (Nat × String)
  deriving DecidableEq, Repr

/-- The functions that a step can be, with their arguments. -/
inductive StepFunction
  | concurrentPrimary
  | primary (i : Nat)
  | secondary (i : Nat)
  | disconnect (i j : Nat)
  | connect (i j : Nat)
  | waitConnect (i j : Nat)
  deriving DecidableEq, Repr

/-- The test: the cluster, its resource, and what `json.loads` makes of a status. -/
structure Test where
  world : World
  resource : ResourceId
  loads : String → Except PyError (List Report)

def setNode (s : Memory) (i : Nat) (f : RandomNode → RandomNode) : Memory :=
  Function.update s i (f (s i))

namespace Test

variable (t : Test)

def nodeCount : Nat := (t.world.members t.resource).length

/-- `resource.nodes[i]` -/
def node (i : Nat) : NodeId := (t.world.members t.resource).getD i 0

def resourceName : String := (t.world.resource t.resource).name

def home : Task → NodeId
  | .primary i => t.node i
  | .secondary i => t.node i
  | .disconnect i _ => t.node i
  | .connect i _ => t.node i

def primary (i : Nat) : Script Command String Failure :=
  Script.commands [drbdadm t.world (t.node i) ["primary", t.resourceName, "-v"] true]

def secondary (i : Nat) : Script Command String Failure :=
  Script.commands [drbdadm t.world (t.node i) ["secondary", t.resourceName] false]

def disconnect (i j : Nat) : Script Command String Failure :=
  match connections t.world (some (t.node i)) (some (t.node j)) none none false with
  | .error e => .finished (.error (.error e))
  | .ok cs => .choose 2 fun force =>
    runDrbdadm t.world "disconnect" "StandAlone" (if force = 1 then ["--force"] else []) cs

def connect (i j : Nat) : Script Command String Failure :=
  match connections t.world (some (t.node i)) (some (t.node j)) none none false with
  | .error e => .finished (.error (.error e))
  | .ok cs => runDrbdadm t.world "connect" "Connecting" [] cs

def body : Task → Script Command String Failure
  | .primary i => t.primary i
  | .secondary i => t.secondary i
  | .disconnect i j => t.disconnect i j
  | .connect i j => t.connect i j

def raiseError (e : PyError) : Main PUnit := .raise (.error e)

/-- `for i, random_node in random_nodes.items()` -/
def forNodes (body : Nat → Main PUnit) : Main PUnit := (List.range t.nodeCount).forM body

def checkForCompletion : Main PUnit :=
  t.forNodes fun i => do
    let s ← Prog.get
    match (s i).future with
    | none => pure ⟨⟩
    | some f =>
      .done f fun done =>
        if done then
          .exception f fun
            | some e => .raise e
            | none => Prog.modify fun s => setNode s i fun n => { n with future := none }
        else pure ⟨⟩

/-- What `collect_state` does with the status of one node. -/
def storeStatus (i : Nat) (status : Report) : Main PUnit := do
  Prog.modify fun s => setNode s i fun n => { n with role := status.role }
  match status.diskStates with
  | [] => raiseError .indexError
  | diskState :: _ =>
    Prog.modify fun s => setNode s i fun n => { n with diskState := diskState }
    status.connections.forM fun (toIndex, connectionState) => do
      let s ← Prog.get
      match (s i).connections.get? toIndex with
      | none => raiseError .keyError
      | some _ => Prog.modify fun s => setNode s i fun n =>
        { n with connections := n.connections.set toIndex connectionState }

def collectState : Main PUnit :=
  t.forNodes fun i => do
    let s ← Prog.get
    match (s i).future with
    | some _ => pure ⟨⟩
    | none =>
      let result ← Prog.execute (.run (t.node i) ["drbdsetup", "status", "--json"] false)
      match t.loads result with
      | .error e => raiseError e
      | .ok [] => raiseError .indexError
      | .ok (status :: _) => storeStatus i status

def findRunning (s : Memory) : List Future :=
  (List.range t.nodeCount).filterMap fun i => (s i).future

/-- `random_node.future = executor.submit(task)` -/
def submit (i : Nat) (task : Task) : Main PUnit :=
  .submit task fun f => Prog.modify fun s => setNode s i fun n => { n with future := some f }

/-- `concurrent.futures.wait(find_running())`, and what follows it every time. -/
def settle : Main PUnit := do
  let s ← Prog.get
  .wait (t.findRunning s) true do
    t.checkForCompletion
    t.collectState

def stepPrimary (i : Nat) : Main PUnit := submit i (.primary i)

def stepSecondary (i : Nat) : Main PUnit := submit i (.secondary i)

def stepDisconnect (i j : Nat) : Main PUnit := submit i (.disconnect i j)

def stepConnect (i j : Nat) : Main PUnit := submit i (.connect i j)

/-- All nodes that are primary become secondary. -/
def demote : Main PUnit :=
  t.forNodes fun i => do
    let s ← Prog.get
    if (s i).role = "Primary" then submit i (.secondary i) else pure ⟨⟩

/-- `resource.nodes[i].write(size='16M')` -/
def writeVolumes (i : Nat) : Main PUnit :=
  (List.range (t.world.node (t.node i)).disks.length).forM fun volume => do
    let _ ← Prog.execute (.fioFile (t.node i) volume "16M")

def stepConcurrentPrimary : Main PUnit := do
  t.settle
  t.demote
  t.settle
  t.forNodes fun i => submit i (.primary i)
  t.settle
  let primaryCount ← (List.range t.nodeCount).foldlM (fun count i => do
    let s ← Prog.get
    if (s i).role = "Primary" then do
      t.writeVolumes i
      return count + 1
    else return count) 0
  if primaryCount = 0 then
    .raise (.exception "have no primary nodes, expected at least 1")
  else t.demote

def connectionState (s : Memory) (i j : Nat) : String := ((s i).connections.get? j).getD ""

/-- The rest of `step_wait_connect`, by the number of polls that are left. -/
def stepWaitConnect (i j : Nat) : Nat → Main PUnit
  | 0 => .raise (.exception ("timeout waiting for connection " ++ toString i ++ "<->" ++ toString j))
  | polls + 1 => do
    t.collectState
    let s ← Prog.get
    if connectionState s i j = "Connected" ∧ connectionState s j i = "Connected" then pure ⟨⟩
    else if connectionState s i j = "StandAlone" ∨ connectionState s j i = "StandAlone" then pure ⟨⟩
    else stepWaitConnect i j polls

def execute : StepFunction → Main PUnit
  | .concurrentPrimary => t.stepConcurrentPrimary
  | .primary i => stepPrimary i
  | .secondary i => stepSecondary i
  | .disconnect i j => stepDisconnect i j
  | .connect i j => stepConnect i j
  | .waitConnect i j => t.stepWaitConnect i j 10

/-! ## Choosing a step -/

def connectedCount (n : RandomNode) : Nat :=
  n.connections.entries.countP fun entry => entry.2 = "Connected"

def clusterConnectedCount (s : Memory) : Nat :=
  ((List.range t.nodeCount).map fun i => connectedCount (s i)).sum

/-- The steps that `list_steps` lists for one node. -/
def nodeSteps (s : Memory) (clusterConnected i : Nat) : List (Nat × StepFunction) :=
  (if (s i).role = "Secondary" then [(50 + 100 * connectedCount (s i), .primary i)]
    else if (s i).role = "Primary" then [(100, .secondary i)] else []) ++
  (s i).connections.entries.flatMap fun (j, state) =>
    (if state = "Connecting" ∨ state = "Connected" then [(10 * clusterConnected, .disconnect i j)]
      else if state = "StandAlone" then [(100, .connect i j)] else []) ++
    if state ≠ "Connected" ∧ state ≠ "StandAlone" ∧ (s j).future = none ∧
        connectionState s j i ≠ "StandAlone" then [(700, .waitConnect i j)]
    else []

def listSteps (s : Memory) : List (Nat × StepFunction) :=
  (if 0 < t.clusterConnectedCount s then [(500, .concurrentPrimary)] else []) ++
  ((List.range t.nodeCount).filter fun i => (s i).future = none).flatMap
    (nodeSteps s (t.clusterConnectedCount s))

/-- The step at which the running sum of the weights exceeds the chosen number. -/
def pickStep (chosen : Nat) : Nat → List (Nat × StepFunction) → Option StepFunction
  | _, [] => none
  | sum, (weight, step) :: steps =>
    if chosen < sum + weight then some step else pickStep chosen (sum + weight) steps

/-- The rest of the main loop, by the number of steps that are left. -/
def mainLoop : Nat → Main PUnit
  | 0 => pure ⟨⟩
  | stepsLeft + 1 => do
    t.checkForCompletion
    t.collectState
    let s ← Prog.get
    let steps := t.listSteps s
    if steps = [] then
      if t.findRunning s = [] then pure ⟨⟩
      else .wait (t.findRunning s) false (mainLoop stepsLeft)
    else if (steps.map Prod.fst).sum = 0 then raiseError .valueError
    else
      .choose (steps.map Prod.fst).sum fun chosen => do
        match pickStep chosen 0 steps with
        | some step => t.execute step
        | none => pure ⟨⟩
        mainLoop stepsLeft

/-- `random_nodes` at the start. -/
def randomNodes (i : Nat) : RandomNode :=
  ⟨"", "", (List.range t.nodeCount).foldl
    (fun d j => if i ≠ j then d.set j "" else d) Dict.empty, none⟩

/-- The start of the main loop. -/
def start : State Command String Task Failure Memory := State.start (t.mainLoop 100) t.randomNodes

end Test

/-! ## What the main thread knows -/

/-- A future that is stored stays, or it has finished and is cleared. -/
def keepsFutures (known : Known NodeId) (s s' : Memory) : Prop :=
  ∀ i f, (s i).future = some f →
    (s' i).future = some f ∨ (s' i).future = none ∧ known f = .finished

def Test.rules (t : Test) : Rules Command Task Memory NodeId where
  place := Command.place
  home := t.home
  allows := keepsFutures

/-- Every task that may not have finished is stored as the future of the node it is at home at. -/
def Kept (t : Test) (s : Memory) (known : Known NodeId) : Prop :=
  ∀ f m, known f = .pending m → ∃ i < t.nodeCount, t.node i = m ∧ (s i).future = some f

/-- No node has a future. -/
def Idle (t : Test) (s : Memory) : Prop := ∀ i < t.nodeCount, (s i).future = none

variable {t : Test} {s s' : Memory} {known : Known NodeId} {i j : Nat}

theorem node_injective (hi : i < t.nodeCount) (hj : j < t.nodeCount) (h : t.node i = t.node j) :
    i = j := by
  have hnodup : (t.world.members t.resource).Nodup := (t.world.resource t.resource).nodes.nodup
  unfold Test.node at h
  rw [List.getD_eq_getElem?_getD, List.getD_eq_getElem?_getD, List.getElem?_eq_getElem hi,
    List.getElem?_eq_getElem hj, Option.getD_some, Option.getD_some] at h
  exact (List.Nodup.getElem_inj_iff hnodup).mp h

/-- A node without a future is free. -/
theorem Kept.free (h : Kept t s known) (hi : i < t.nodeCount) (hfuture : (s i).future = none) :
    known.Free (t.node i) := by
  intro f hf
  obtain ⟨j, hj, hnode, hstored⟩ := h f _ hf
  obtain rfl := node_injective hj hi hnode
  rw [hfuture] at hstored
  cases hstored

theorem setNode_self (f : RandomNode → RandomNode) : setNode s i f i = f (s i) :=
  Function.update_self i _ s

theorem setNode_of_ne (f : RandomNode → RandomNode) (h : j ≠ i) : setNode s i f j = s j :=
  Function.update_of_ne h _ s

/-- A change that leaves the future of the node alone leaves all futures alone. -/
theorem setNode_future {f : RandomNode → RandomNode} (hf : ∀ n, (f n).future = n.future) (j : Nat) :
    (setNode s i f j).future = (s j).future := by
  by_cases hji : j = i
  · rw [hji, setNode_self, hf]
  · rw [setNode_of_ne f hji]

/-- Clearing the future of one node. -/
theorem clear_future : (setNode s i (fun n => { n with future := none }) j).future =
    if j = i then none else (s j).future := by
  split
  · rename_i hji
    rw [hji, setNode_self]
  · rename_i hji
    rw [setNode_of_ne _ hji]

theorem keepsFutures_of_eq (h : ∀ j, (s' j).future = (s j).future) : keepsFutures known s s' := by
  intro j f hf
  rw [h j]
  exact .inl hf

theorem Kept.of_eq (hk : Kept t s known) (h : ∀ j, (s' j).future = (s j).future) : Kept t s' known := by
  intro f m hf
  obtain ⟨j, hj, hnode, hstored⟩ := hk f m hf
  exact ⟨j, hj, hnode, (h j).trans hstored⟩

/-! ## The functions -/

/-- A task is submitted for a node without a future, and its future is stored there. -/
theorem safe_submit {task : Task} (hk : Kept t s known) (hi : i < t.nodeCount)
    (hfuture : (s i).future = none) (hhome : t.home task = t.node i) :
    Safe t.rules (Test.submit i task) s known fun _ s' known' =>
      Kept t s' known' ∧ ∀ j, j ≠ i → (s' j).future = (s j).future := by
  refine ⟨?_, fun f hf => ?_⟩
  · change known.Free (t.home task)
    rw [hhome]
    exact hk.free hi hfuture
  · refine safe_modify ?_ ⟨?_, fun j hj => congrArg RandomNode.future (setNode_of_ne _ hj)⟩
    · intro j g hg
      by_cases hji : j = i
      · rw [hji, hfuture] at hg
        cases hg
      · rw [setNode_of_ne _ hji]
        exact .inl hg
    · intro g m hg
      by_cases hgf : g = f
      · rw [hgf, Function.update_self] at hg
        refine ⟨i, hi, ?_, ?_⟩
        · rw [← hhome]
          exact Status.pending.inj hg
        · rw [setNode_self, hgf]
      · rw [Function.update_of_ne hgf] at hg
        obtain ⟨j, hj, hnode, hstored⟩ := hk g m hg
        refine ⟨j, hj, hnode, ?_⟩
        have hji : j ≠ i := by
          intro hji
          rw [hji, hfuture] at hstored
          cases hstored
        rw [setNode_of_ne _ hji]
        exact hstored

/-- What is known to have finished. -/
def AllFinished (t : Test) (s : Memory) (known : Known NodeId) : Prop :=
  ∀ i < t.nodeCount, ∀ f, (s i).future = some f → known f = .finished

theorem Kept.clear {f : Future} (hk : Kept t s known) (hf : (s i).future = some f) :
    Kept t (setNode s i fun n => { n with future := none }) (known.finish [f]) := by
  intro g m hg
  have hgf : g ≠ f := by
    intro hgf
    rw [hgf, Known.finish, if_pos (List.mem_singleton_self f)] at hg
    cases hg
  obtain ⟨j, hj, hnode, hstored⟩ := hk g m (finish_eq_pending hg)
  refine ⟨j, hj, hnode, ?_⟩
  have hji : j ≠ i := by
    intro hji
    rw [hji, hf] at hstored
    exact hgf (Option.some.inj hstored).symm
  rw [clear_future, if_neg hji]
  exact hstored

theorem finish_of_finished {f g : Future} (h : known g = .finished) :
    known.finish [f] g = .finished := by
  unfold Known.finish
  split
  · rfl
  · exact h

/-- No future appears, and none is left of those that are known to have finished. -/
theorem safe_checkForCompletion (hk : Kept t s known) :
    Safe t.rules t.checkForCompletion s known fun _ s' known' => Kept t s' known' ∧
      (∀ i, (s i).future = none → (s' i).future = none) ∧ (AllFinished t s known → Idle t s') := by
  refine (safe_forM (fun pre s' known' => Kept t s' known' ∧
    (∀ i, (s i).future = none → (s' i).future = none) ∧
    (AllFinished t s known → AllFinished t s' known' ∧ ∀ i ∈ pre, (s' i).future = none)) ?_ ?_).mono ?_
  · exact ⟨hk, fun _ h => h, fun h => ⟨h, by simp⟩⟩
  · rintro pre i post s₁ known₁ hrange ⟨hk₁, hnone₁, hfinished₁⟩
    have hi : i < t.nodeCount := by
      rw [← List.mem_range, hrange]
      exact List.mem_append_right pre List.mem_cons_self
    refine safe_get_bind ?_
    rcases hfuture : (s₁ i).future with _ | f
    · refine safe_pure ⟨hk₁, hnone₁, fun h => ⟨(hfinished₁ h).1, fun j hj => ?_⟩⟩
      rcases List.mem_append.mp hj with hj | hj
      · exact (hfinished₁ h).2 j hj
      · rw [List.mem_singleton.mp hj]
        exact hfuture
    · refine ⟨?_, fun hnot => ?_⟩
      · -- it is done
        intro e
        rw [finish_finish]
        cases e with
        | some e => exact trivial
        | none =>
          have hfinish : known₁.finish [f] f = .finished := if_pos (List.mem_singleton_self f)
          refine safe_modify ?_ ⟨hk₁.clear hfuture, ?_, ?_⟩
          · intro j g hg
            rw [clear_future]
            split
            · rename_i hji
              rw [hji, hfuture] at hg
              rw [← Option.some.inj hg]
              exact .inr ⟨rfl, hfinish⟩
            · exact .inl hg
          · intro j hj
            rw [clear_future, hnone₁ j hj, ite_self]
          · intro h
            refine ⟨fun j hj g hg => ?_, fun j hj => ?_⟩
            · rw [clear_future] at hg
              split at hg
              · cases hg
              · exact finish_of_finished ((hfinished₁ h).1 j hj g hg)
            · rw [clear_future]
              split
              · rfl
              · rename_i hji
                rcases List.mem_append.mp hj with hj | hj
                · exact (hfinished₁ h).2 j hj
                · exact absurd (List.mem_singleton.mp hj) hji
      · refine safe_pure ⟨hk₁, hnone₁, fun h => ?_⟩
        exact absurd ((hfinished₁ h).1 i hi f hfuture) hnot
  · rintro - s' known' ⟨hk', hnone', hfinished'⟩
    refine ⟨hk', hnone', fun h i hi => (hfinished' h).2 i (List.mem_range.mpr hi)⟩

/-- The loop over the nodes, for a body that sees the nodes it has not passed yet. -/
theorem safe_forNodes {body : Nat → Main PUnit} (I : List Nat → Memory → Known NodeId → Prop)
    (h : I [] s known)
    (hstep : ∀ pre i s known, i < t.nodeCount → i ∉ pre → I pre s known →
      Safe t.rules (body i) s known fun _ => I (pre ++ [i])) :
    Safe t.rules (t.forNodes body) s known fun _ => I (List.range t.nodeCount) := by
  refine safe_forM I h ?_
  intro pre i post s known hrange hI
  have hi : i < t.nodeCount := by
    rw [← List.mem_range, hrange]
    exact List.mem_append_right pre List.mem_cons_self
  have hpre : i ∉ pre := by
    have hnodup : (List.range t.nodeCount).Nodup := List.nodup_range
    rw [hrange] at hnodup
    intro hmem
    exact (List.nodup_append.mp hnodup).2.2 i hmem i List.mem_cons_self rfl
  exact hstep pre i s known hi hpre hI

/-- The futures are as before. -/
def SameFutures (s : Memory) (known : Known NodeId) (s' : Memory) (known' : Known NodeId) : Prop :=
  known' = known ∧ ∀ j, (s' j).future = (s j).future

theorem safe_setNode {s₀ : Memory} {known₀ : Known NodeId} {f : RandomNode → RandomNode}
    (h : SameFutures s₀ known₀ s known) (hf : ∀ n, (f n).future = n.future) :
    Safe t.rules (Prog.modify fun s => setNode s i f : Main PUnit) s known fun _ =>
      SameFutures s₀ known₀ :=
  safe_modify (keepsFutures_of_eq (setNode_future hf))
    ⟨h.1, fun j => (setNode_future hf j).trans (h.2 j)⟩

/-- A status changes no future. -/
theorem safe_storeStatus (status : Report) :
    Safe t.rules (Test.storeStatus i status) s known fun _ => SameFutures s known := by
  have hsame : SameFutures s known s known := ⟨rfl, fun _ => rfl⟩
  refine Safe.seq (Q := fun _ => SameFutures s known) ?_ fun _ s₁ known₁ h₁ => ?_
  · exact safe_setNode hsame fun _ => rfl
  rcases status.diskStates with _ | ⟨diskState, rest⟩
  · exact trivial
  · refine Safe.seq (Q := fun _ => SameFutures s known) ?_ fun _ s₂ known₂ h₂ => ?_
    · exact safe_setNode h₁ fun _ => rfl
    refine safe_forM (fun _ => SameFutures s known) h₂ ?_
    intro pre connection post s₃ known₃ _ h₃
    refine safe_get_bind ?_
    rcases (s₃ i).connections.get? connection.1 with _ | _
    · exact trivial
    · exact safe_setNode h₃ fun _ => rfl

theorem safe_collectState (hk : Kept t s known) :
    Safe t.rules t.collectState s known fun _ s' known' =>
      Kept t s' known' ∧ ∀ j, (s' j).future = (s j).future := by
  refine safe_forNodes (fun _ s' known' => Kept t s' known' ∧ ∀ j, (s' j).future = (s j).future)
    ⟨hk, fun _ => rfl⟩ ?_
  intro pre i s₁ known₁ hi _ hI
  obtain ⟨hk₁, hsame₁⟩ := hI
  refine safe_get_bind ?_
  rcases hfuture : (s₁ i).future with _ | f
  · refine Safe.bind (safe_execute ?_ fun result => ?_)
    · intro m hm
      obtain rfl := Option.some.inj hm
      exact hk₁.free hi hfuture
    · rcases t.loads result with e | _ | ⟨status, rest⟩
      · exact trivial
      · exact trivial
      · refine (safe_storeStatus status).mono ?_
        rintro - s' known' ⟨rfl, hsame⟩
        exact ⟨hk₁.of_eq hsame, fun j => (hsame j).trans (hsame₁ j)⟩
  · exact safe_pure ⟨hk₁, hsame₁⟩

theorem Kept.finish (hk : Kept t s known) (fs : List Future) : Kept t s (known.finish fs) :=
  fun f m hf => hk f m (finish_eq_pending hf)

/-- When all futures have been waited for, none is left. -/
theorem safe_settle (hk : Kept t s known) :
    Safe t.rules t.settle s known fun _ s' known' => Kept t s' known' ∧ Idle t s' := by
  refine safe_get_bind ?_
  change Safe t.rules (do t.checkForCompletion; t.collectState) s (known.finish (t.findRunning s)) _
  have hfinished : AllFinished t s (known.finish (t.findRunning s)) := by
    intro i hi f hf
    apply if_pos
    exact List.mem_filterMap.mpr ⟨i, List.mem_range.mpr hi, hf⟩
  refine (safe_checkForCompletion (hk.finish _)).seq fun _ s₁ known₁ h₁ => ?_
  obtain ⟨hk₁, -, hidle⟩ := h₁
  refine (safe_collectState hk₁).mono fun _ s₂ known₂ h₂ => ⟨h₂.1, fun i hi => ?_⟩
  rw [h₂.2 i]
  exact hidle hfinished i hi

/-- A loop that gives each node at most one task. -/
theorem safe_forIdle {body : Nat → Main PUnit} (hk : Kept t s known) (hidle : Idle t s)
    (hbody : ∀ i s known, i < t.nodeCount → Kept t s known → (s i).future = none →
      Safe t.rules (body i) s known fun _ s' known' =>
        Kept t s' known' ∧ ∀ j, j ≠ i → (s' j).future = (s j).future) :
    Safe t.rules (t.forNodes body) s known fun _ => Kept t := by
  refine (safe_forNodes (fun pre s known => Kept t s known ∧
    ∀ i < t.nodeCount, i ∉ pre → (s i).future = none) ⟨hk, fun i hi _ => hidle i hi⟩ ?_).mono
    fun _ s' known' h => h.1
  intro pre i s₁ known₁ hi hpre hI
  refine (hbody i s₁ known₁ hi hI.1 (hI.2 i hi hpre)).mono fun _ s₂ known₂ h₂ => ⟨h₂.1, ?_⟩
  intro j hj hnot
  have hji : j ≠ i := fun hji => hnot (List.mem_append_right pre (List.mem_singleton.mpr hji))
  rw [h₂.2 j hji]
  exact hI.2 j hj fun hmem => hnot (List.mem_append_left [i] hmem)

theorem safe_demote (hk : Kept t s known) (hidle : Idle t s) :
    Safe t.rules t.demote s known fun _ => Kept t := by
  refine safe_forIdle hk hidle fun i s₁ known₁ hi hk₁ hfuture => ?_
  refine safe_get_bind ?_
  split
  · exact safe_submit hk₁ hi hfuture rfl
  · exact safe_pure ⟨hk₁, fun _ _ => rfl⟩

theorem safe_writeVolumes (hfree : known.Free (t.node i)) :
    Safe t.rules (t.writeVolumes i) s known fun _ s' known' => s' = s ∧ known' = known := by
  refine safe_forM (fun _ s' known' => s' = s ∧ known' = known) ⟨rfl, rfl⟩ ?_
  intro pre volume post s' known' _ hI
  obtain ⟨rfl, rfl⟩ := hI
  refine Safe.bind (safe_execute ?_ fun _ => safe_pure ⟨rfl, rfl⟩)
  intro m hm
  obtain rfl := Option.some.inj hm
  exact hfree

theorem safe_stepConcurrentPrimary (hk : Kept t s known) :
    Safe t.rules t.stepConcurrentPrimary s known fun _ => Kept t := by
  refine (safe_settle hk).seq fun _ s₁ known₁ h₁ => ?_
  refine (safe_demote h₁.1 h₁.2).seq fun _ s₂ known₂ hk₂ => ?_
  refine (safe_settle hk₂).seq fun _ s₃ known₃ h₃ => ?_
  refine (safe_forIdle h₃.1 h₃.2 fun i s known hi hk hfuture =>
    safe_submit hk hi hfuture rfl).seq fun _ s₄ known₄ hk₄ => ?_
  refine (safe_settle hk₄).seq fun _ s₅ known₅ h₅ => ?_
  refine Safe.seq (Q := fun _ s known => Kept t s known ∧ Idle t s) ?_ fun count s₆ known₆ h₆ => ?_
  · refine safe_foldlM (fun _ _ s known => Kept t s known ∧ Idle t s) h₅ ?_
    intro pre i post count s known hrange h
    have hi : i < t.nodeCount := by
      rw [← List.mem_range, hrange]
      exact List.mem_append_right pre List.mem_cons_self
    refine safe_get_bind ?_
    split
    · refine (safe_writeVolumes (h.1.free hi (h.2 i hi))).seq fun _ s' known' hsame => ?_
      obtain ⟨rfl, rfl⟩ := hsame
      exact safe_pure h
    · exact safe_pure h
  · split
    · exact trivial
    · exact safe_demote h₆.1 h₆.2

theorem safe_stepWaitConnect (polls : Nat) (hk : Kept t s known) :
    Safe t.rules (t.stepWaitConnect i j polls) s known fun _ => Kept t := by
  induction polls generalizing s known with
  | zero => exact trivial
  | succ polls ih =>
    refine (safe_collectState hk).seq fun _ s₁ known₁ h₁ => ?_
    refine safe_get_bind ?_
    split
    · exact safe_pure h₁.1
    · split
      · exact safe_pure h₁.1
      · exact ih h₁.1

/-! ## The main loop -/

/-- The node of a step has no future. -/
def Ready (t : Test) (s : Memory) : StepFunction → Prop
  | .concurrentPrimary => True
  | .primary i => i < t.nodeCount ∧ (s i).future = none
  | .secondary i => i < t.nodeCount ∧ (s i).future = none
  | .disconnect i _ => i < t.nodeCount ∧ (s i).future = none
  | .connect i _ => i < t.nodeCount ∧ (s i).future = none
  | .waitConnect _ _ => True

theorem nodeSteps_ready {clusterConnected weight : Nat} {step : StepFunction}
    (hi : i < t.nodeCount) (hfuture : (s i).future = none)
    (hstep : (weight, step) ∈ Test.nodeSteps s clusterConnected i) : Ready t s step := by
  rcases List.mem_append.mp hstep with hstep | hstep
  · split at hstep
    · obtain ⟨-, rfl⟩ := Prod.mk.inj (List.mem_singleton.mp hstep)
      exact ⟨hi, hfuture⟩
    · split at hstep
      · obtain ⟨-, rfl⟩ := Prod.mk.inj (List.mem_singleton.mp hstep)
        exact ⟨hi, hfuture⟩
      · cases hstep
  · obtain ⟨⟨j, state⟩, -, hstep⟩ := List.mem_flatMap.mp hstep
    rcases List.mem_append.mp hstep with hstep | hstep
    · split at hstep
      · obtain ⟨-, rfl⟩ := Prod.mk.inj (List.mem_singleton.mp hstep)
        exact ⟨hi, hfuture⟩
      · split at hstep
        · obtain ⟨-, rfl⟩ := Prod.mk.inj (List.mem_singleton.mp hstep)
          exact ⟨hi, hfuture⟩
        · cases hstep
    · split at hstep
      · obtain ⟨-, rfl⟩ := Prod.mk.inj (List.mem_singleton.mp hstep)
        exact trivial
      · cases hstep

theorem listSteps_ready {weight : Nat} {step : StepFunction}
    (hstep : (weight, step) ∈ t.listSteps s) : Ready t s step := by
  rcases List.mem_append.mp hstep with hstep | hstep
  · split at hstep
    · obtain ⟨-, rfl⟩ := Prod.mk.inj (List.mem_singleton.mp hstep)
      exact trivial
    · cases hstep
  · obtain ⟨i, hi, hstep⟩ := List.mem_flatMap.mp hstep
    obtain ⟨hi, hfuture⟩ := List.mem_filter.mp hi
    exact nodeSteps_ready (List.mem_range.mp hi) (of_decide_eq_true hfuture) hstep

theorem mem_of_pickStep {chosen sum : Nat} {steps : List (Nat × StepFunction)} {step : StepFunction}
    (h : Test.pickStep chosen sum steps = some step) : ∃ weight, (weight, step) ∈ steps := by
  induction steps generalizing sum with
  | nil => cases h
  | cons first steps ih =>
    unfold Test.pickStep at h
    split at h
    · rw [← Option.some.inj h]
      exact ⟨first.1, List.mem_cons_self⟩
    · obtain ⟨weight, hmem⟩ := ih h
      exact ⟨weight, List.mem_cons_of_mem first hmem⟩

theorem safe_execute_step {step : StepFunction} (hk : Kept t s known) (hready : Ready t s step) :
    Safe t.rules (t.execute step) s known fun _ => Kept t := by
  cases step with
  | concurrentPrimary => exact safe_stepConcurrentPrimary hk
  | primary i => exact (safe_submit hk hready.1 hready.2 rfl).mono fun _ _ _ h => h.1
  | secondary i => exact (safe_submit hk hready.1 hready.2 rfl).mono fun _ _ _ h => h.1
  | disconnect i j => exact (safe_submit hk hready.1 hready.2 rfl).mono fun _ _ _ h => h.1
  | connect i j => exact (safe_submit hk hready.1 hready.2 rfl).mono fun _ _ _ h => h.1
  | waitConnect i j => exact safe_stepWaitConnect 10 hk

theorem safe_mainLoop (stepsLeft : Nat) (hk : Kept t s known) :
    Safe t.rules (t.mainLoop stepsLeft) s known fun _ => Kept t := by
  induction stepsLeft generalizing s known with
  | zero => exact safe_pure hk
  | succ stepsLeft ih =>
    refine (safe_checkForCompletion hk).seq fun _ s₁ known₁ h₁ => ?_
    refine (safe_collectState h₁.1).seq fun _ s₂ known₂ h₂ => ?_
    refine safe_get_bind ?_
    dsimp only
    split
    · split
      · exact safe_pure h₂.1
      · exact ih h₂.1
    · split
      · exact trivial
      · intro chosen _
        dsimp only
        rcases hstep : Test.pickStep chosen 0 (t.listSteps s₂) with _ | step
        · exact ih h₂.1
        · obtain ⟨weight, hmem⟩ := mem_of_pickStep hstep
          exact (safe_execute_step h₂.1 (listSteps_ready hmem)).seq fun _ s₃ known₃ hk₃ => ih hk₃

/-! ## The tasks -/

/-- The connections between two single nodes start at the first one. -/
theorem connections_node1 {w : World} {a b : NodeId} {cs : OrderedSet Connection}
    (h : connections w (some a) (some b) none none false = .ok cs) :
    ∀ c ∈ cs.items, c.node1 = a := by
  have hpairs : connectionPairs w [a] [b] = .ok cs := by
    change (connectionPairs w [a] [b] >>= fun cs => pure cs) = .ok cs at h
    rwa [bind_pure] at h
  intro c hc
  change (List.foldlM _ OrderedSet.empty [(a, b)]) = _ at hpairs
  rw [List.foldlM_cons] at hpairs
  by_cases hab : a = b
  · rw [if_neg (by simpa using hab)] at hpairs
    rw [← Except.ok.inj hpairs] at hc
    cases hc
  · rw [if_pos hab] at hpairs
    unfold Connection.init at hpairs
    split at hpairs
    · change (Collection.add (Connection.resource w) OrderedSet.empty ⟨a, b⟩ >>= fun cs => pure cs) =
        .ok cs at hpairs
      rw [bind_pure] at hpairs
      rw [Collection.add_eq_ok hpairs] at hc
      rcases OrderedSet.mem_add.mp hc with hc | rfl
      · cases hc
      · rfl
    · cases hpairs

theorem confined_runDrbdadm {w : World} {n : NodeId} {cmd stateStr : String} {options : List String}
    {cs : OrderedSet Connection} (h : ∀ c ∈ cs.items, c.node1 = n) :
    (runDrbdadm w cmd stateStr options cs).Confined Command.place n := by
  apply confined_commands
  intro c hc m hm
  rcases List.mem_append.mp hc with hc | hc
  · obtain ⟨connection, hconnection, rfl⟩ := List.mem_map.mp hc
    rw [← Option.some.inj hm]
    exact h connection hconnection
  · split at hc
    · cases hc
    · rw [List.mem_singleton.mp hc] at hm
      cases hm

/-- A task runs its commands on the node that it is submitted for. -/
theorem confined_body (task : Task) : (t.body task).Confined Command.place (t.home task) := by
  have hdrbdadm : ∀ (n : NodeId) (cmd : List String) (catching : Bool),
      (Script.commands [drbdadm t.world n cmd catching] : Script Command String Failure).Confined
        Command.place n := by
    intro n cmd catching
    apply confined_commands
    intro c hc m hm
    rw [List.mem_singleton.mp hc] at hm
    exact (Option.some.inj hm).symm
  cases task with
  | primary i => exact hdrbdadm _ _ _
  | secondary i => exact hdrbdadm _ _ _
  | disconnect i j =>
    change (t.disconnect i j).Confined _ (t.node i)
    unfold Test.disconnect
    split
    · exact trivial
    · rename_i cs hcs
      intro force _
      exact confined_runDrbdadm (connections_node1 hcs)
  | connect i j =>
    change (t.connect i j).Confined _ (t.node i)
    unfold Test.connect
    split
    · exact trivial
    · rename_i cs hcs
      exact confined_runDrbdadm (connections_node1 hcs)

/-! ## The run -/

theorem kept_start (t : Test) : Kept t t.randomNodes fun _ => .unsubmitted := by
  intro f m hf
  cases hf

/-- Whatever the nodes report, whatever is chosen and in whatever order the commands end: in every
state one thread at most runs something on each node, and a future that is stored is only ever
replaced by none, after its command has finished. -/
theorem one_command_per_node {S : State Command String Task Failure Memory}
    {moves : List (Move String Failure)} (run : Run (Step t.body) t.start moves S) :
    (∀ n, (S.running Command.place t.home n).length ≤ 1) ∧
    ∀ m S', Step t.body S m S' → ∀ i f, (S.mem i).future = some f →
      (S'.mem i).future = some f ∨ (S'.mem i).future = none ∧ S.isFinished f = true := by
  have hsafe := (safe_mainLoop 100 (kept_start t)).mono fun _ _ _ _ => trivial
  obtain ⟨known, hsound⟩ := sound_of_run hsafe confined_body run
  refine ⟨hsound.running_le_one, fun m S' hstep i f hf => ?_⟩
  rcases (hsound.step confined_body hstep).2 with hmem | hallows
  · rw [hmem]
    exact .inl hf
  · rcases hallows i f hf with hstays | ⟨hcleared, hfinished⟩
    · exact .inl hstays
    · exact .inr ⟨hcleared, hsound.finished f hfinished⟩

/-- Two nodes that are connected and secondary. -/
def twoConnected : Test where
  world := Op.afterAll (World.plain 2) [.createResource none]
  resource := 0
  loads text := .ok [⟨"Secondary", ["UpToDate"], if text = "0" then [(1, "Connected")] else
    [(0, "Connected")]⟩]

/-- The first step of the main loop: both nodes report their state, and node 0 becomes primary. -/
def firstStep : List (Move String Failure) :=
  let main := Move.mk none
  List.replicate 2 (main .go) ++
  main .go :: main (.reply (.ok "0")) :: List.replicate 7 (main .go) ++
  main .go :: main (.reply (.ok "1")) :: List.replicate 7 (main .go) ++
  main .go :: main (.number 500) :: List.replicate 3 (main .go)

theorem one_command_first_step : ∃ S, Run (Step twoConnected.body) twoConnected.start firstStep S ∧
    (∀ n, (S.running Command.place twoConnected.home n).length ≤ 1) ∧
    ∀ m S', Step twoConnected.body S m S' → ∀ i f, (S.mem i).future = some f →
      (S'.mem i).future = some f ∨ (S'.mem i).future = none ∧ S.isFinished f = true := by
  have hmoves : (firstStep.foldlM (fun S m => State.next S twoConnected.body m)
      twoConnected.start).any (fun S => S.tasks.length = 1) = true := by decide +kernel
  obtain ⟨S, hS, -⟩ := (Option.any_eq_true _ _).mp hmoves
  have run := run_of_foldlM hS
  exact ⟨S, run, one_command_per_node run⟩

end DrbdTests.Random
