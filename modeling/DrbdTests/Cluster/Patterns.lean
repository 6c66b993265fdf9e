import DrbdTests.Cluster.Selections
import DrbdTests.Cluster.Uploads
import DrbdTests.Cluster.Replies

/-!
# Forbidden patterns around `down` and `detach`

While a resource goes down, or volumes are detached, some of the log lines that
`Resource.forbidden_patterns` is about are expected. `Nodes.down` and `Volumes.detach` take these
patterns out of the set, run their commands, wait for the events, and put the patterns back.
An exception in between skips the last step.

`CallsSucceed` says from the state before which sequences of `drbdadm` calls return
(`drbdadm_calls`). With it, `forbidden_patterns_restored_iff` says when the patterns are put back.
-/

namespace DrbdTests

open Stateful

/-- `min_drbd_version_tuple` -/
def Nodes.minDrbdVersionTuple (w : World) (nodes : List NodeId) : Except PyError Version :=
  match nodes.map fun n => (w.host (w.node n).host).info.drbdVersionTuple with
  | [] => .error .valueError
  | version :: rest => .ok (rest.foldl (fun a b => if b.ge a then a else b) version)

/-- `resource` of a collection of nodes. -/
def Nodes.resource (w : World) (nodes : List NodeId) : Except PyError ResourceId :=
  match nodes with
  | [] => .error .stopIteration
  | first :: _ => .ok (w.node first).resource

/-- `drbdadm` of a collection of nodes. -/
def Nodes.drbdadm (nodes : List NodeId) (cmd : List String) : Py PUnit :=
  nodes.forM fun n => do
    let _ ← Node.drbdadm n cmd

/-- `forbidden_patterns.difference_update` -/
def Resource.discardPatterns (r : ResourceId) (patterns : List String) : Py PUnit :=
  modify fun w => w.setResource r fun resource =>
    { resource with forbiddenPatterns := resource.forbiddenPatterns.differenceUpdate patterns }

/-- `forbidden_patterns.update` -/
def Resource.updatePatterns (r : ResourceId) (patterns : List String) : Py PUnit :=
  modify fun w => w.setResource r fun resource =>
    { resource with forbiddenPatterns := resource.forbiddenPatterns.update patterns }

/-- `disk:Failed` is expected from the nodes of a version before 9. -/
def World.diskFailedPatterns (w : World) (r : ResourceId) (nodes : List NodeId) :
    Except PyError (List String) :=
  if "disk:Failed" ∈ (w.resource r).forbiddenPatterns then do
    let version ← Nodes.minDrbdVersionTuple w nodes
    return if version.ge (9, 0, 0) then [] else ["disk:Failed"]
  else .ok []

/-- `remove_patterns` in `Nodes.down`. -/
def World.downPatterns (w : World) (r : ResourceId) (nodes : List NodeId) :
    Except PyError (List String) := do
  let expected := ["connection:BrokenPipe", "connection:NetworkFailure"].filter fun pattern =>
    pattern ∈ (w.resource r).forbiddenPatterns
  return expected ++ (← w.diskFailedPatterns r nodes)

/-- `Nodes.down`, after the proxies. -/
def Nodes.downBehindProxy (nodes : List NodeId) : Py PUnit := do
  let w ← get
  let r ← Py.liftExcept (Nodes.resource w nodes)
  let removePatterns ← Py.liftExcept (w.downPatterns r nodes)
  Resource.discardPatterns r removePatterns
  Nodes.drbdadm nodes ["down", (w.resource r).name]
  Nodes.event nodes "destroy resource"
  Resource.updatePatterns r removePatterns

/-- `Nodes.down` -/
def Nodes.down (nodes : List NodeId) : Py PUnit := do
  let w ← get
  when w.settings.proxyEnable do
    let r ← Py.liftExcept (Nodes.resource w nodes)
    Nodes.drbdadm nodes ["proxy-down", (w.resource r).name]
  Nodes.downBehindProxy nodes

/-- `Volumes.event`, without the filters for volume numbers. -/
def Volumes.event (volumes : List HeldVolume) (pattern : String) : Py PUnit :=
  Nodes.event (volumes.map HeldVolume.node) pattern

/-- The `drbdadm` arguments of `detach`. -/
def detachArgs (w : World) (force : Bool) (v : HeldVolume) : List String :=
  ["detach"] ++ (if force then ["--force"] else []) ++
    [(w.resource (w.node v.node).resource).name ++ "/" ++ toString v.volume.volume]

/-- `Volumes.detach` -/
def Volumes.detach (volumes : List HeldVolume) (force : Bool) : Py PUnit :=
  match volumes with
  | [] => pure ⟨⟩
  | first :: _ => do
    let w ← get
    let r := (w.node first.node).resource
    let removePatterns ← Py.liftExcept (w.diskFailedPatterns r (w.members r))
    Resource.discardPatterns r removePatterns
    volumes.forM fun v => do
      let w ← get
      let _ ← Node.drbdadm v.node (detachArgs w force v)
    Volumes.event volumes "device .* disk:(Failed|Detaching)"
    Volumes.event volumes "device .* disk:Diskless"
    Resource.updatePatterns r removePatterns

/-! ## Which calls succeed -/

/-- How many requests `drbdadm` calls for these nodes make: a command each, and an upload for each
node whose flag is set. -/
def requestCount (flag : NodeId → Bool) : List NodeId → Nat
  | [] => 0
  | n :: nodes =>
    (if flag n then 2 else 1) + requestCount (fun m => flag m && m ≠ n) nodes

/-- `drbdadm` calls for these nodes, one after the other, succeed: the configs that have to be
uploaded can be generated, and all replies are good. -/
def World.CallsSucceed (w : World) (nodes : List NodeId) : Prop :=
  (∀ n ∈ nodes, (w.node n).configChanged → (Node.config w n).toBool) ∧
    w.RepliesGood (requestCount (fun n => (w.node n).configChanged) nodes)

/-- The patterns of the resource are the same. -/
def SamePatterns (w w' : World) (r : ResourceId) : Prop :=
  ∀ p, p ∈ (w'.resource r).forbiddenPatterns ↔ p ∈ (w.resource r).forbiddenPatterns

/-- What `Nodes.down` asks for succeeds: with a proxy, two commands on each node, and the wait. -/
def World.DownSucceeds (w : World) (nodes : List NodeId) : Prop :=
  w.CallsSucceed nodes ∧ w.RepliesGood (requestCount (fun n => (w.node n).configChanged) nodes +
    ((if w.settings.proxyEnable then nodes.length else 0) + 1))

/-- Nothing is taken out of the set, or the proxies cannot be taken down before, or nothing
fails. -/
def World.DownRestores (w : World) (r : ResourceId) (nodes : List NodeId) : Prop :=
  w.downPatterns r nodes = .ok [] ∨ (w.settings.proxyEnable ∧ ¬ w.CallsSucceed nodes) ∨
    w.DownSucceeds nodes

/-- Nothing is taken out of the set, or nothing fails: the commands and two waits. -/
def World.DetachRestores (w : World) (r : ResourceId) (volumes : List HeldVolume) : Prop :=
  (∀ ps, w.diskFailedPatterns r (w.members r) = .ok ps → ps = []) ∨
    (w.CallsSucceed (volumes.map HeldVolume.node) ∧ w.RepliesGood
      (requestCount (fun n => (w.node n).configChanged) (volumes.map HeldVolume.node) + 2))

/-! ## Sequences of `drbdadm` calls -/

/-- The calls for these nodes have been made. -/
structure Called (w w' : World) (nodes : List NodeId) : Prop where
  graph : w'.graph = w.graph
  flag : ∀ m, (w'.node m).configChanged = ((w.node m).configChanged && decide (m ∉ nodes))
  length : w'.requests.length =
    w.requests.length + requestCount (fun n => (w.node n).configChanged) nodes

theorem requestCount_append (flag : NodeId → Bool) (as bs : List NodeId) :
    requestCount flag (as ++ bs) =
      requestCount flag as + requestCount (fun m => flag m && decide (m ∉ as)) bs := by
  induction as generalizing flag with
  | nil => simp [requestCount]
  | cons a as ih =>
    rw [List.cons_append, requestCount, ih, requestCount, Nat.add_assoc]
    congr 3
    funext m
    simp [not_or, Bool.and_assoc]

theorem requestCount_clear {flag : NodeId → Bool} {nodes : List NodeId}
    (h : ∀ n ∈ nodes, flag n = false) : requestCount flag nodes = nodes.length := by
  induction nodes generalizing flag with
  | nil => rfl
  | cons n nodes ih =>
    have hrest : ∀ m ∈ nodes, (flag m && decide (m ≠ n)) = false := by
      intro m hm
      rw [h m (List.mem_cons_of_mem _ hm)]
      rfl
    rw [requestCount, h n List.mem_cons_self, ih hrest, List.length_cons]
    exact Nat.add_comm _ _

section Calls

variable {w w' : World} {as bs : List NodeId}

theorem callsSucceed_left (h : w.CallsSucceed (as ++ bs)) : w.CallsSucceed as := by
  obtain ⟨hconfig, hgood⟩ := h
  refine ⟨fun n hn => hconfig n (List.mem_append_left _ hn), fun k hk => hgood k ?_⟩
  rw [requestCount_append]
  omega

theorem Called.callsSucceed_append (h : Called w w' as) (ha : w.CallsSucceed as) :
    w.CallsSucceed (as ++ bs) ↔ w'.CallsSucceed bs := by
  have hflags : (fun n => (w'.node n).configChanged) =
      fun n => (w.node n).configChanged && decide (n ∉ as) := funext h.flag
  unfold World.CallsSucceed
  rw [requestCount_append, repliesGood_add (graph_env h.graph) h.length, and_iff_right ha.2, hflags]
  refine and_congr_left fun _ => ?_
  constructor
  · intro hconfig n hn hflag
    rw [h.flag, Bool.and_eq_true] at hflag
    rw [graph_config h.graph]
    exact hconfig n (List.mem_append_right _ hn) hflag.1
  · intro hconfig n hn hflag
    by_cases hna : n ∈ as
    · exact ha.1 n hna hflag
    · rw [← graph_config h.graph]
      apply hconfig n ((List.mem_append.mp hn).resolve_left hna)
      rw [h.flag, hflag]
      simpa using hna

theorem Called.append {w'' : World} (h : Called w w' as) (h' : Called w' w'' bs) :
    Called w w'' (as ++ bs) where
  graph := h'.graph.trans h.graph
  flag m := by
    rw [h'.flag, h.flag]
    simp [not_or, Bool.and_assoc]
  length := by
    have hflags : (fun n => (w'.node n).configChanged) =
        fun n => (w.node n).configChanged && decide (n ∉ as) := funext h.flag
    rw [h'.length, h.length, requestCount_append, hflags, Nat.add_assoc]

/-- The computation makes the `drbdadm` calls for these nodes. -/
structure Calls {α : Type} (m : Py α) (w : World) (nodes : List NodeId) : Prop where
  returns_iff : (exec m w).1.toBool = true ↔ w.CallsSucceed nodes
  called : (exec m w).1.toBool = true → Called w (exec m w).2 nodes

theorem setFlag_self {n : NodeId} (h : (w.node n).configChanged = false) :
    w.setFlag n false = w := by
  have hnode : ({ w.node n with configChanged := false } : Node) = w.node n := by rw [← h]
  have hupdate : Function.update w.node n { w.node n with configChanged := false } = w.node := by
    rw [hnode, Function.update_eq_self]
  exact congrArg (fun node => { w with node := node }) hupdate

/-- A successful call leaves its requests, and clears the flag. -/
theorem drbdadm_returns {n : NodeId} {cmd : List String} {out : String}
    (h : Returns (Node.drbdadm n cmd) w out w') :
    ∃ requests, w' = { w.setFlag n false with requests := requests } := by
  obtain ⟨_, w₁, hupdate, hrun⟩ := returns_bind.mp (returns_get_bind.mp h)
  obtain ⟨requests, rfl⟩ : ∃ requests, w₁ = { w.setFlag n false with requests := requests } := by
    have hstate : w₁ = (exec (Node.updateConfig n) w).2 := (congrArg Prod.snd hupdate).symm
    rcases updateConfig_cases n w with ⟨hflag, hexec⟩ | ⟨-, e, hexec⟩ | ⟨-, config, ok, -, hexec⟩
    · exact ⟨w.requests, by rw [hstate, hexec, setFlag_self hflag]⟩
    · exact ⟨w.requests, by rw [hstate, hexec]; rfl⟩
    · exact ⟨_, by rw [hstate, hexec]⟩
  obtain ⟨ok, hexec⟩ := exec_runWith false ((w.setFlag n false).node n).host
    (["drbdadm", "-c", Host.drbdGlobalConfigFilePath w (w.node n).host, "-v"] ++ cmd) none .none
    { w.setFlag n false with requests := requests }
  exact ⟨_, (congrArg Prod.snd (returns_get_bind.mp hrun)).symm.trans hexec⟩

theorem calls_drbdadm (n : NodeId) (cmd : List String) (w : World) :
    Calls (do let _ ← Node.drbdadm n cmd) w [n] := by
  have hasks := (asks_drbdadm n cmd w).drop
  have hcount : (if (w.node n).configChanged then 1 else 0) + 1 =
      requestCount (fun m => (w.node m).configChanged) [n] := by
    simp only [requestCount]
    split
    · rfl
    · rfl
  constructor
  · rw [hasks.returns_iff, hcount, World.CallsSucceed]
    simp
  · intro hreturns
    obtain ⟨out, hdrbdadm⟩ := returns_drop.mp (returns_of_toBool hreturns)
    have hlength := hasks.length hreturns
    obtain ⟨requests, hw'⟩ := drbdadm_returns hdrbdadm
    refine ⟨?_, fun m => ?_, by rw [hlength, hcount]⟩
    · rw [hw']
      exact graph_setFlag w n false
    · rw [hw']
      change ((w.setFlag n false).node m).configChanged = _
      rw [World.setFlag, World.setNode_node]
      by_cases hm : m = n
      · simp [hm]
      · simp [hm]

theorem calls_get_bind {α : Type} {f : World → Py α} (h : Calls (f w) w as) :
    Calls (get >>= f) w as := by
  constructor
  · rw [exec_get_bind]
    exact h.returns_iff
  · rw [exec_get_bind]
    exact h.called

/-- A loop of `drbdadm` calls. -/
theorem calls_forM {β : Type} {f : β → Py PUnit} (node : β → NodeId) (xs : List β)
    (h : ∀ x ∈ xs, ∀ w, Calls (f x) w [node x]) (w : World) :
    Calls (xs.forM f) w (xs.map node) := by
  induction xs generalizing w with
  | nil =>
    refine ⟨?_, fun _ => ⟨rfl, fun m => ?_, rfl⟩⟩
    · change true = true ↔ _
      simp [World.CallsSucceed, World.RepliesGood, requestCount]
    · change (w.node m).configChanged = _
      simp
  | cons x xs ih =>
    have hx := h x List.mem_cons_self w
    have hxs := ih (fun y hy => h y (List.mem_cons_of_mem _ hy))
    change Calls (f x >>= fun _ => xs.forM f) w ([node x] ++ xs.map node)
    rcases hexec : exec (f x) w with ⟨e | u, w₁⟩
    · have hfails : ¬ w.CallsSucceed [node x] := by
        rw [← hx.returns_iff, hexec]
        simp [Except.toBool]
      have hfalse : (exec (f x >>= fun _ => xs.forM f) w).1.toBool = false := by
        rw [exec_bind_of_error hexec]
        rfl
      constructor
      · rw [hfalse]
        constructor
        · intro h
          cases h
        · exact fun h => absurd (callsSucceed_left h) hfails
      · exact fun hreturns => absurd (hfalse.symm.trans hreturns) Bool.false_ne_true
    · have hreturns : (exec (f x) w).1.toBool = true := by rw [hexec]; rfl
      have hcalled := hx.called hreturns
      rw [hexec] at hcalled
      constructor
      · rw [exec_bind_of_ok hexec, (hxs w₁).returns_iff,
          hcalled.callsSucceed_append (hx.returns_iff.mp hreturns)]
      · rw [exec_bind_of_ok hexec]
        exact fun hrest => hcalled.append ((hxs w₁).called hrest)

theorem Called.repliesGood (h : Called w w' as) (ha : w.CallsSucceed as) (count : Nat) :
    w.RepliesGood (requestCount (fun n => (w.node n).configChanged) as + count) ↔
      w'.RepliesGood count := by
  rw [repliesGood_add (graph_env h.graph) h.length, and_iff_right ha.2]

/-- Calls, and then waits. -/
theorem Calls.asks {α : Type} {m : Py α} (h : Calls m w as) :
    Asks m w (requestCount (fun n => (w.node n).configChanged) as)
      (∀ n ∈ as, (w.node n).configChanged → (Node.config w n).toBool) where
  returns_iff := h.returns_iff
  env hreturns := graph_env (h.called hreturns).graph
  length hreturns := (h.called hreturns).length

theorem callsSucceed_more (count : Nat) : (w.CallsSucceed as ∧
      w.RepliesGood (requestCount (fun n => (w.node n).configChanged) as + count)) ↔
    (∀ n ∈ as, (w.node n).configChanged → (Node.config w n).toBool) ∧
      w.RepliesGood (requestCount (fun n => (w.node n).configChanged) as + count) := by
  constructor
  · rintro ⟨⟨hconfig, -⟩, hgood⟩
    exact ⟨hconfig, hgood⟩
  · rintro ⟨hconfig, hgood⟩
    exact ⟨⟨hconfig, fun k hk => hgood k (by omega)⟩, hgood⟩

end Calls

/-! ## The patterns -/

/-- The state without the patterns. -/
def World.withoutPatterns (w : World) (r : ResourceId) (patterns : List String) : World :=
  w.setResource r fun resource =>
    { resource with forbiddenPatterns := resource.forbiddenPatterns.differenceUpdate patterns }

section Patterns

variable {w w' : World} {r : ResourceId} {nodes : List NodeId}

theorem samePatterns_of_graph (h : w'.graph = w.graph) : SamePatterns w w' r := by
  intro p
  rw [graph_resource h]

theorem holds_nodesDrbdadm {F : Frame World} (hF : ∀ n, NodeFrame F n) (nodes : List NodeId)
    (cmd : List String) : F.Holds (Nodes.drbdadm nodes cmd) :=
  Frame.holds_forM nodes fun n _ =>
    Frame.holds_bind ((hF n).drbdadm cmd) fun _ => Frame.holds_pure _

theorem keepingGraph_event (nodes : List NodeId) (pattern : String) :
    keepingGraph.Holds (Nodes.event nodes pattern) :=
  keepingGraph_commands.of_asking (asking_event nodes pattern)

/-- The patterns are put back when the commands in between return. -/
theorem samePatterns_iff {ps : List String} {body : Py PUnit}
    (hps : ∀ p ∈ ps, p ∈ (w.resource r).forbiddenPatterns) (hbody : keepingGraph.Holds body) :
    SamePatterns w (exec (do
      Resource.discardPatterns r ps
      body
      Resource.updatePatterns r ps) w).2 r ↔
    ps = [] ∨ (exec body (w.withoutPatterns r ps)).1.toBool = true := by
  have hstart : exec (do
      Resource.discardPatterns r ps
      body
      Resource.updatePatterns r ps) w = exec (do
      body
      Resource.updatePatterns r ps) (w.withoutPatterns r ps) := rfl
  have hless : ∀ p, p ∈ ((w.withoutPatterns r ps).resource r).forbiddenPatterns ↔
      p ∈ (w.resource r).forbiddenPatterns ∧ p ∉ ps := by
    intro p
    rw [World.withoutPatterns, World.setResource_resource, if_pos rfl, OrderedSet.mem_differenceUpdate]
  have hgraph := hbody (w.withoutPatterns r ps)
  rw [hstart]
  rcases hexec : exec body (w.withoutPatterns r ps) with ⟨e | u, w'⟩
  · rw [hexec] at hgraph
    rw [exec_bind_of_error hexec]
    have hresource : w'.resource = (w.withoutPatterns r ps).resource := graph_resource hgraph
    constructor
    · intro hsame
      left
      apply List.eq_nil_iff_forall_not_mem.mpr
      intro p hp
      have hmem := (hsame p).mpr (hps p hp)
      rw [hresource, hless] at hmem
      exact hmem.2 hp
    · rintro (rfl | hreturns)
      · intro p
        rw [hresource, hless]
        simp
      · cases hreturns
  · rw [hexec] at hgraph
    rw [exec_bind_of_ok hexec]
    have hresource : w'.resource = (w.withoutPatterns r ps).resource := graph_resource hgraph
    constructor
    · exact fun _ => .inr rfl
    · intro _ p
      have hend : exec (Resource.updatePatterns r ps) w' = (.ok ⟨⟩, w'.setResource r fun resource =>
          { resource with forbiddenPatterns := resource.forbiddenPatterns.update ps }) := rfl
      rw [hend, World.setResource_resource, if_pos rfl, OrderedSet.mem_update, hresource, hless]
      constructor
      · rintro (⟨hp, -⟩ | hp)
        · exact hp
        · exact hps p hp
      · intro hp
        by_cases hmem : p ∈ ps
        · exact .inr hmem
        · exact .inl ⟨hp, hmem⟩

/-- No config depends on the patterns. -/
theorem config_withoutPatterns (w : World) (r : ResourceId) (ps : List String) (n : NodeId) :
    Node.config (w.withoutPatterns r ps) n = Node.config w n := by
  refine Node.config_congr rfl ?_ rfl
  have hview : ∀ s, (w.withoutPatterns r ps).resourceView s = w.resourceView s := by
    intro s
    unfold World.resourceView World.members World.withoutPatterns
    rw [World.setResource_resource]
    split
    · subst s
      rfl
    · rfl
  exact hview _

theorem callsSucceed_withoutPatterns (ps : List String) :
    (w.withoutPatterns r ps).CallsSucceed nodes ↔ w.CallsSucceed nodes := by
  unfold World.CallsSucceed
  simp only [config_withoutPatterns]
  rfl

theorem diskFailedPatterns_mem {ps : List String} (h : w.diskFailedPatterns r nodes = .ok ps) :
    ∀ p ∈ ps, p ∈ (w.resource r).forbiddenPatterns := by
  unfold World.diskFailedPatterns at h
  split at h
  · rename_i hfailed
    rcases hversion : Nodes.minDrbdVersionTuple w nodes with e | version
    · rw [hversion] at h
      cases h
    · rw [hversion] at h
      obtain rfl := Except.ok.inj h
      split
      · simp
      · intro p hp
        rw [List.mem_singleton.mp hp]
        exact hfailed
  · obtain rfl := Except.ok.inj h
    simp

theorem downPatterns_mem {ps : List String} (h : w.downPatterns r nodes = .ok ps) :
    ∀ p ∈ ps, p ∈ (w.resource r).forbiddenPatterns := by
  unfold World.downPatterns at h
  rcases hfailed : w.diskFailedPatterns r nodes with e | failed
  · rw [hfailed] at h
    cases h
  · rw [hfailed] at h
    obtain rfl := Except.ok.inj h
    intro p hp
    rcases List.mem_append.mp hp with hp | hp
    · simpa using (List.mem_filter.mp hp).2
    · exact diskFailedPatterns_mem hfailed p hp

theorem downPatterns_ok (hne : nodes ≠ []) : ∃ ps, w.downPatterns r nodes = .ok ps := by
  obtain ⟨n, rest, rfl⟩ := List.exists_cons_of_ne_nil hne
  unfold World.downPatterns World.diskFailedPatterns
  split
  · exact ⟨_, rfl⟩
  · exact ⟨_, rfl⟩

theorem downPatterns_graph (h : w'.graph = w.graph) :
    w'.downPatterns r nodes = w.downPatterns r nodes := by
  have hversions : Nodes.minDrbdVersionTuple w' nodes = Nodes.minDrbdVersionTuple w nodes := by
    unfold Nodes.minDrbdVersionTuple
    simp only [graph_nodeHost h, graph_hostInfo h]
  unfold World.downPatterns World.diskFailedPatterns
  rw [graph_resource h, hversions]

/-! ## `down` -/

theorem calls_nodesDrbdadm (nodes : List NodeId) (cmd : List String) (w : World) :
    Calls (Nodes.drbdadm nodes cmd) w nodes := by
  have h := calls_forM id nodes (fun n _ w => calls_drbdadm n cmd w) w
  rw [List.map_id] at h
  exact h

theorem downBehindProxy_restores {n : NodeId} {rest : List NodeId} (hr : (w.node n).resource = r) :
    SamePatterns w (exec (Nodes.downBehindProxy (n :: rest)) w).2 r ↔
      w.downPatterns r (n :: rest) = .ok [] ∨ (w.CallsSucceed (n :: rest) ∧ w.RepliesGood
        (requestCount (fun n => (w.node n).configChanged) (n :: rest) + 1)) := by
  subst hr
  have hne : n :: rest ≠ [] := List.cons_ne_nil n rest
  obtain ⟨ps, hps⟩ : ∃ ps, w.downPatterns (w.node n).resource (n :: rest) = .ok ps :=
    downPatterns_ok hne
  let body : Py PUnit := do
    Nodes.drbdadm (n :: rest) ["down", (w.resource (w.node n).resource).name]
    Nodes.event (n :: rest) "destroy resource"
  have hkeep : keepingGraph.Holds body :=
    Frame.holds_bind (holds_nodesDrbdadm keepingGraph_commands.node _ _) fun _ =>
      keepingGraph_event _ _
  have hexec : exec (Nodes.downBehindProxy (n :: rest)) w = exec (do
      Resource.discardPatterns (w.node n).resource ps
      body
      Resource.updatePatterns (w.node n).resource ps) w := by
    unfold Nodes.downBehindProxy
    rw [exec_get_bind]
    simp only [Nodes.resource, Py.liftExcept, pure_bind, hps, body, bind_assoc]
  have hasks : Asks body (w.withoutPatterns (w.node n).resource ps) _ _ :=
    (calls_nodesDrbdadm (n :: rest) _ _).asks.bind fun _ w' _ =>
      asks_event hne "destroy resource" w'
  rw [hexec, samePatterns_iff (downPatterns_mem hps) hkeep, hasks.returns_iff, hps,
    Except.ok.injEq, and_iff_left trivial, ← callsSucceed_more, callsSucceed_withoutPatterns]
  rfl

/-- When `down` puts the patterns back. -/
theorem down_restores (hne : nodes ≠ []) (hr : Nodes.resource w nodes = .ok r) :
    SamePatterns w (exec (Nodes.down nodes) w).2 r ↔ w.DownRestores r nodes := by
  obtain ⟨n, rest, rfl⟩ := List.exists_cons_of_ne_nil hne
  have hr : (w.node n).resource = r := Except.ok.inj hr
  unfold World.DownRestores World.DownSucceeds
  by_cases hproxy : w.settings.proxyEnable = true
  · have hcalls := calls_nodesDrbdadm (n :: rest) ["proxy-down", (w.resource r).name] w
    have hkeep := holds_nodesDrbdadm keepingGraph_commands.node (n :: rest)
      ["proxy-down", (w.resource r).name] w
    have hexec : exec (Nodes.down (n :: rest)) w = exec (do
        Nodes.drbdadm (n :: rest) ["proxy-down", (w.resource r).name]
        Nodes.downBehindProxy (n :: rest)) w := by
      unfold Nodes.down
      rw [exec_get_bind, hproxy]
      simp only [when_true, Nodes.resource, Py.liftExcept, pure_bind, hr]
    rw [hexec, hproxy, and_iff_right rfl, if_pos rfl]
    rcases hproxies : exec (Nodes.drbdadm (n :: rest) ["proxy-down", (w.resource r).name]) w with
      ⟨e | u, w'⟩
    · -- the proxies cannot be taken down
      rw [hproxies] at hkeep
      rw [exec_bind_of_error hproxies]
      have hfails : ¬ w.CallsSucceed (n :: rest) := by
        rw [← hcalls.returns_iff, hproxies]
        simp [Except.toBool]
      exact iff_of_true (samePatterns_of_graph hkeep) (.inr (.inl hfails))
    · have hreturns : (exec (Nodes.drbdadm (n :: rest) ["proxy-down", (w.resource r).name])
          w).1.toBool = true := by
        rw [hproxies]
        rfl
      have hsucceeds := hcalls.returns_iff.mp hreturns
      have hcalled := hcalls.called hreturns
      rw [hproxies] at hkeep hcalled
      have hgraph : w'.graph = w.graph := hkeep
      rw [exec_bind_of_ok hproxies]
      have hsame : SamePatterns w (exec (Nodes.downBehindProxy (n :: rest)) w').2 r ↔
          SamePatterns w' (exec (Nodes.downBehindProxy (n :: rest)) w').2 r := by
        unfold SamePatterns
        rw [graph_resource hgraph]
      rw [hsame, downBehindProxy_restores ((graph_nodeResource hgraph n).trans hr),
        downPatterns_graph hgraph]
      -- all flags of the nodes are clear, so no more configs are uploaded
      have hclear : ∀ m ∈ n :: rest, (w'.node m).configChanged = false := by
        intro m hm
        rw [hcalled.flag]
        simp [hm]
      have hcount := requestCount_clear hclear
      have hlater : w'.CallsSucceed (n :: rest) ∧ w'.RepliesGood
          (requestCount (fun n => (w'.node n).configChanged) (n :: rest) + 1) ↔
          w'.RepliesGood ((n :: rest).length + 1) := by
        rw [callsSucceed_more, hcount]
        apply and_iff_right
        intro m hm hflag
        rw [hclear m hm] at hflag
        cases hflag
      rw [hlater, ← hcalled.repliesGood hsucceeds, and_iff_right hsucceeds]
      simp [hsucceeds]
  · have hfalse : w.settings.proxyEnable = false := by simpa using hproxy
    have hexec : exec (Nodes.down (n :: rest)) w = exec (Nodes.downBehindProxy (n :: rest)) w := by
      unfold Nodes.down
      rw [exec_get_bind, hfalse]
      simp only [when_false, pure_bind]
    rw [hexec, hfalse, downBehindProxy_restores hr]
    simp

/-! ## `detach` -/

theorem keepingGraph_detachLoop (volumes : List HeldVolume) (force : Bool) :
    keepingGraph.Holds (volumes.forM fun v => do
      let w ← get
      let _ ← Node.drbdadm v.node (detachArgs w force v)) := by
  refine Frame.holds_forM volumes fun v _ => Frame.holds_bind Frame.holds_get fun w => ?_
  exact Frame.holds_bind ((keepingGraph_commands.node v.node).drbdadm _) fun _ => Frame.holds_pure _

theorem calls_detachLoop (volumes : List HeldVolume) (force : Bool) (w : World) :
    Calls (volumes.forM fun v => do
      let w ← get
      let _ ← Node.drbdadm v.node (detachArgs w force v)) w (volumes.map HeldVolume.node) :=
  calls_forM HeldVolume.node volumes
    (fun v _ w => calls_get_bind (calls_drbdadm v.node (detachArgs w force v) w)) w

/-- When `detach` puts the patterns back. -/
theorem detach_restores {v : HeldVolume} {rest : List HeldVolume} (force : Bool)
    (hr : (w.node v.node).resource = r) :
    SamePatterns w (exec (Volumes.detach (v :: rest) force) w).2 r ↔
      w.DetachRestores r (v :: rest) := by
  subst hr
  have hne : (v :: rest).map HeldVolume.node ≠ [] := List.cons_ne_nil _ _
  let body : Py PUnit := do
    (v :: rest).forM fun v => do
      let w ← get
      let _ ← Node.drbdadm v.node (detachArgs w force v)
    Volumes.event (v :: rest) "device .* disk:(Failed|Detaching)"
    Volumes.event (v :: rest) "device .* disk:Diskless"
  have hkeep : keepingGraph.Holds body :=
    Frame.holds_bind (keepingGraph_detachLoop _ _) fun _ =>
      Frame.holds_bind (keepingGraph_event _ _) fun _ => keepingGraph_event _ _
  unfold World.DetachRestores
  rcases hps : w.diskFailedPatterns (w.node v.node).resource (w.members (w.node v.node).resource) with
    e | ps
  · -- the resource has no nodes
    have hexec : exec (Volumes.detach (v :: rest) force) w = (.error e, w) := by
      unfold Volumes.detach
      rw [exec_get_bind]
      simp only [hps, Py.liftExcept]
      rfl
    rw [hexec]
    exact iff_of_true (fun _ => Iff.rfl) (.inl fun ps hok => by cases hok)
  · have hexec : exec (Volumes.detach (v :: rest) force) w = exec (do
        Resource.discardPatterns (w.node v.node).resource ps
        body
        Resource.updatePatterns (w.node v.node).resource ps) w := by
      unfold Volumes.detach
      rw [exec_get_bind]
      simp only [hps, Py.liftExcept, pure_bind, body, bind_assoc]
    have hasks : Asks body (w.withoutPatterns (w.node v.node).resource ps) _ _ :=
      (calls_detachLoop (v :: rest) force _).asks.bind fun _ _ _ =>
        (asks_event hne "device .* disk:(Failed|Detaching)" _).bind fun _ w' _ =>
          asks_event hne "device .* disk:Diskless" w'
    rw [hexec, samePatterns_iff (diskFailedPatterns_mem hps) hkeep, hasks.returns_iff,
      and_iff_left (⟨trivial, trivial⟩ : True ∧ True), ← callsSucceed_more,
      callsSucceed_withoutPatterns]
    have hnil : (∀ ps', (Except.ok ps : Except PyError (List String)) = .ok ps' → ps' = []) ↔
        ps = [] := by
      constructor
      · exact fun h => h ps rfl
      · rintro rfl ps' heq
        exact (Except.ok.inj heq).symm
    rw [hnil]
    rfl

end Patterns

/-- `down` and `detach` restore the forbidden patterns exactly when nothing was taken out, or
nothing failed in between. -/
theorem forbidden_patterns_restored_iff (w : World) (r : ResourceId) :
    (∀ nodes, nodes ≠ [] → (∀ n ∈ nodes, (w.node n).resource = r) →
      (SamePatterns w (exec (Nodes.down nodes) w).2 r ↔ w.DownRestores r nodes)) ∧
    ∀ volumes force, volumes ≠ [] →
      (∀ v : HeldVolume, v ∈ volumes → (w.node v.node).resource = r) →
      (SamePatterns w (exec (Volumes.detach volumes force) w).2 r ↔ w.DetachRestores r volumes) := by
  constructor
  · intro nodes hne hown
    obtain ⟨n, rest, rfl⟩ := List.exists_cons_of_ne_nil hne
    exact down_restores hne (congrArg Except.ok (hown n List.mem_cons_self))
  · intro volumes force hne hown
    obtain ⟨v, rest, rfl⟩ := List.exists_cons_of_ne_nil hne
    exact detach_restores force (hown v List.mem_cons_self)

/-- A connected resource with one node, as `up_wait` leaves its patterns. -/
def connected (returncode : Nat) : World :=
  (oneNode returncode).setResource 0 fun resource => { resource with
    forbiddenPatterns := resource.forbiddenPatterns.update
      ["connection:BrokenPipe", "connection:NetworkFailure"] }

theorem forbidden_patterns_restored_connected :
    SamePatterns (connected 0) (exec (Nodes.down [0]) (connected 0)).2 0 ↔
      (connected 0).DownRestores 0 [0] :=
  (forbidden_patterns_restored_iff (connected 0) 0).1 [0] (by simp) (by decide +kernel)

/-- When `down` fails, the broken connections are no longer forbidden. -/
theorem patterns_lost_by_down :
    let w := connected 1
    (exec (Nodes.down [0]) w).1 = .error (.calledProcessError 1) ∧
      "connection:BrokenPipe" ∈ (w.resource 0).forbiddenPatterns ∧
      "connection:BrokenPipe" ∉ ((exec (Nodes.down [0]) w).2.resource 0).forbiddenPatterns := by
  decide +kernel

end DrbdTests
