import DrbdTests.Lib.Dict
import DrbdTests.Network.Iptables
import DrbdTests.Network.Qdisc

/-!
# `TrafficControl`

`TrafficControl` gives every device that leads to other nodes a `prio` qdisc with as many bands as
there are nodes, and sends the packets for the node with number `id` to class `id + 1`. That number is
written in decimal and read in hexadecimal.

What `tc` has done on a host is a function of the requests that succeeded (`World.devices`).
`init_returns` says what the constructor leaves there when it returns.
-/

namespace DrbdTests

open Stateful Network Digits

/-! ## Routes -/

/-- `fields[2]` of what `ip route get` prints. -/
def routeDevice (lines : String) : Option String :=
  ((lines.toList.splitOn ' ')[2]?).map String.ofList

/-- `Host.net_device_to_peer` -/
def Host.netDeviceToPeer (host peerHost : HostId) (netNum : Nat) : Py String := do
  let w ← get
  let addr ← Py.liftExcept (addrAt (w.host peerHost).info.addrs netNum)
  let lines ← Host.run host ["ip", "-o", "route", "get", addr.text]
  match routeDevice lines with
  | some dev => return dev
  | none => throw .indexError

/-- Every route that has been looked up names the device that is used for the address. -/
def World.RoutesNamed (w : World) (h : HostId) (device : String → String) : Prop :=
  ∀ later earlier addr, w.requests =
      later ++ (.command h ["ip", "-o", "route", "get", addr] none .none, true) :: earlier →
    routeDevice (String.ofList (Text.strip (w.env.replies earlier.length).stdout.toList)) =
      some (device addr)

/-! ## `TrafficControl` -/

structure TrafficControl where
  sourceNode : NodeId
  nodes : List NodeId

def World.addrs (w : World) (n : NodeId) : List Addr := (w.host (w.node n).host).info.addrs

namespace TrafficControl

def nodeToClass (id : Nat) : String := "1:" ++ toString (id + 1)

def nodeToHandle (id : Nat) : String := toString (id + 100) ++ ":"

variable (self : TrafficControl)

/-- The body of the loops of `_get_nodes_by_dev`. -/
def addToDev (netNum : Nat) (nodesByDev : Dict String (Nat × List NodeId)) (node : NodeId) :
    Py (Dict String (Nat × List NodeId)) :=
  if node = self.sourceNode then pure nodesByDev
  else do
    let w ← get
    let dev ← Host.netDeviceToPeer (w.node self.sourceNode).host (w.node node).host netNum
    let (devNetNum, nodes) := (nodesByDev.get? dev).getD (netNum, [])
    if devNetNum ≠ netNum then
      throw (.runtimeError ((w.resource (w.node node).resource).name ++ ":" ++ (w.node node).name ++
        ": network " ++ toString netNum ++ " and " ++ toString devNetNum ++ " use same device " ++ dev))
    else return nodesByDev.set dev (devNetNum, nodes ++ [node])

/-- `_get_nodes_by_dev` -/
def getNodesByDev : Py (Dict String (Nat × List NodeId)) := do
  let w ← get
  (List.range (w.addrs self.sourceNode).length).foldlM
    (fun nodesByDev netNum => self.nodes.foldlM (self.addToDev netNum) nodesByDev) Dict.empty

/-- The filter of `__init__` for one node. -/
def addFilter (dev : String) (netNum : Nat) (node : NodeId) : Py PUnit := do
  let w ← get
  let ip ← Py.liftExcept (addrAt (w.addrs node) netNum)
  let _ ← Node.run self.sourceNode ["tc", "filter", "add", "dev", dev, "parent", "1:", "protocol", "ip",
    "prio", "1", "u32", "match", "ip", "dst", ip.text, "flowid", nodeToClass (w.node node).id]

/-- The body of the loop of `__init__`. -/
def prepareDevice (dev : String) (netNum : Nat) (nodes : List NodeId) : Py PUnit := do
  tryCatch (do let _ ← Node.run self.sourceNode ["tc", "qdisc", "del", "dev", dev, "root"]) fun
    | .calledProcessError _ => pure ⟨⟩
    | e => throw e
  let w ← get
  let _ ← Node.run self.sourceNode (["tc", "qdisc", "replace", "dev", dev, "root", "handle", "1:",
    "prio", "bands", toString self.nodes.length, "priomap"] ++
    List.replicate 16 (toString (w.node self.sourceNode).id))
  nodes.forM (self.addFilter dev netNum)

/-- `__init__` -/
def init : Py PUnit := do
  let nodesByDev ← self.getNodesByDev
  nodesByDev.entries.forM fun (dev, netNum, nodes) => self.prepareDevice dev netNum nodes

/-- The body of the loops of `slow_down` and `remove_slow_down`, with the command for a node and a
device. -/
def onNetwork (command : Nat → String → List String) (toNode : NodeId) (netNum : Nat) : Py PUnit := do
  let w ← get
  let dev ← Host.netDeviceToPeer (w.node self.sourceNode).host (w.node toNode).host netNum
  let _ ← Node.run self.sourceNode (command (w.node toNode).id dev)

def onNetworks (command : Nat → String → List String) (toNode : NodeId) : Py PUnit := do
  let w ← get
  (List.range (w.addrs self.sourceNode).length).forM (self.onNetwork command toNode)

def netemArgs (speed delay : String) : List String :=
  (if delay ≠ "" then ["delay", delay] else []) ++ if speed ≠ "" then ["rate", speed] else []

def slowDownCommand (speed delay : String) (id : Nat) (dev : String) : List String :=
  ["tc", "qdisc", "replace", "dev", dev, "parent", nodeToClass id, "handle", nodeToHandle id, "netem"] ++
    netemArgs speed delay

def removeSlowDownCommand (id : Nat) (dev : String) : List String :=
  ["tc", "qdisc", "del", "dev", dev, "parent", nodeToClass id, "handle", nodeToHandle id]

def slowDown (toNode : NodeId) (speed delay : String) : Py PUnit :=
  self.onNetworks (slowDownCommand speed delay) toNode

def removeSlowDown (toNode : NodeId) : Py PUnit := self.onNetworks removeSlowDownCommand toNode

end TrafficControl

/-! ## The qdiscs of a host -/

/-- What one request does on the host. -/
def tcOn (h : HostId) : Request × Bool → Devices → Devices
  | (.command host cmd _ _, true), s => if host = h then tc cmd s else s
  | _, s => s

/-- The qdiscs of a host after all requests. -/
def World.devices (w : World) (start : Devices) (h : HostId) : Devices :=
  w.requests.foldr (tcOn h) start

/-- The objects stay as they are, and requests are only added. -/
def onward : Frame World where
  rel w w' := w'.graph = w.graph ∧ w.requests <:+ w'.requests
  refl _ := ⟨rfl, List.suffix_refl _⟩
  trans := fun ⟨hg, hr⟩ ⟨hg', hr'⟩ => ⟨hg'.trans hg, hr.trans hr'⟩

theorem onward_request (w : World) (r : Request) (ok : Bool) :
    onward.rel w { w with requests := (r, ok) :: w.requests } := ⟨rfl, List.suffix_cons _ _⟩

theorem onward_node (n : NodeId) : NodeFrame onward n where
  request w r ok _ := onward_request w r ok
  newObject _ := ⟨rfl, List.suffix_refl _⟩
  setOptions _ _ _ := ⟨graph_setHost fun _ => rfl, List.suffix_refl _⟩
  setPool _ _ _ := ⟨graph_setHost fun _ => rfl, List.suffix_refl _⟩
  updateConfig := by
    unfold Node.updateConfig
    refine Frame.holds_bind Frame.holds_get fun w => Frame.holds_when fun _ => ?_
    refine Frame.holds_bind (Frame.holds_modify fun w =>
      ⟨graph_setFlag w n false, List.suffix_refl _⟩) fun _ => ?_
    refine Frame.holds_bind (holds_liftExcept _) fun config => ?_
    exact Frame.holds_bind (holds_runWith fun w ok => onward_request w _ ok) fun _ =>
      Frame.holds_pure _

theorem onward_run (n : NodeId) (cmd : List String) : onward.Holds (Node.run n cmd) :=
  (onward_node n).runWith true false cmd

section Devices

variable {w w' : World} {h : HostId} {start : Devices} {device : String → String}

theorem World.RoutesNamed.of_onward (hnamed : w'.RoutesNamed h device) (hw : onward.rel w w') :
    w.RoutesNamed h device := by
  obtain ⟨hgraph, more, hmore⟩ := hw
  intro later earlier addr hrequests
  have hfound := hnamed (more ++ later) earlier addr (by rw [← hmore, hrequests, List.append_assoc])
  rwa [graph_env hgraph] at hfound

theorem onward_addrs (hw : onward.rel w w') (n : NodeId) : w'.addrs n = w.addrs n := by
  unfold World.addrs
  rw [graph_nodeHost hw.1 n, graph_hostInfo hw.1]

theorem tc_upload (path : String) (s : Devices) : tc ["bash", "-c", path] s = s := rfl

theorem tc_lookup (addr : String) (s : Devices) : tc ["ip", "-o", "route", "get", addr] s = s := rfl

/-- A request for a command that is not `tc`. -/
theorem devices_request {cmd : List String} {stdin : Option String} {effect : Effect} {k : HostId}
    (ok : Bool) (hcmd : ∀ s, tc cmd s = s) :
    World.devices { w with requests := (.command k cmd stdin effect, ok) :: w.requests } start h =
      w.devices start h := by
  unfold World.devices
  rw [List.foldr_cons]
  cases ok
  · rfl
  · change (if k = h then tc cmd _ else _) = _
    rw [hcmd, ite_self]

/-- Whether a command returns or not, `tc` is run exactly when it returns. -/
theorem devices_run (start : Devices) {n : NodeId} (hn : (w.node n).host = h) (cmd : List String) :
    (exec (Node.run n cmd) w).2.devices start h =
      if (exec (Node.run n cmd) w).1.toBool then tc cmd (w.devices start h)
      else w.devices start h := by
  have hupdate : (exec (Node.updateConfig n) w).2.devices start h = w.devices start h := by
    rcases updateConfig_cases n w with ⟨-, hexec⟩ | ⟨-, e, hexec⟩ | ⟨-, config, ok, -, hexec⟩
    · rw [hexec]
    · rw [hexec]
      rfl
    · rw [hexec]
      exact devices_request ok (tc_upload _)
  have hhost : ((exec (Node.updateConfig n) w).2.node n).host = h :=
    (graph_nodeHost (keepingGraph_commands.updateConfig n w) n).trans hn
  rcases hexec : exec (Node.updateConfig n) w with ⟨e | u, w₁⟩
  · have hrun : exec (Node.run n cmd) w = (.error e, w₁) := exec_bind_of_error hexec
    rw [hexec] at hupdate
    rw [hrun]
    exact hupdate
  · rw [hexec] at hupdate hhost
    have hhost : (w₁.node n).host = h := hhost
    have hrun : exec (Node.run n cmd) w = exec (Host.runWith false h cmd none .none) w₁ := by
      rw [← hhost]
      exact exec_bind_of_ok hexec
    rw [hrun, ← hupdate]
    by_cases hcode : (w₁.env.replies w₁.requests.length).returncode = 0
    · rw [exec_runWith_of_ok hcode]
      change (if h = h then tc cmd _ else _) = _
      rw [if_pos rfl]
      rfl
    · rw [exec_runWith_of_failed hcode]
      rfl

end Devices

/-! ## What the commands do -/

namespace TrafficControl

/-- The class that is read for a node. -/
def classId (id : Nat) : TcId := ⟨1, reread 16 (id + 1)⟩

def handleId (id : Nat) : TcId := ⟨reread 16 (id + 100), 0⟩

theorem classId_injective {id id' : Nat} (h : classId id = classId id') : id = id' :=
  Nat.succ.inj (reread_injective (by omega) (congrArg TcId.minor h))

theorem handleId_injective {id id' : Nat} (h : handleId id = handleId id') : id = id' :=
  Nat.add_right_cancel (reread_injective (by omega) (congrArg TcId.major h))

theorem handleId_ne_root (id : Nat) : handleId id ≠ ⟨1, 0⟩ := by
  intro h
  have hle := le_reread (b := 16) (by omega) (id + 100)
  have hmajor : reread 16 (id + 100) = 1 := congrArg TcId.major h
  omega

section Commands

variable {s : Devices} {dev : String}

theorem tc_delRoot : tc ["tc", "qdisc", "del", "dev", dev, "root"] s = Function.update s dev none := rfl

theorem tc_replaceRoot (bands band : Nat) :
    tc (["tc", "qdisc", "replace", "dev", dev, "root", "handle", "1:", "prio", "bands", toString bands,
      "priomap"] ++ List.replicate 16 (toString band)) s =
      Function.update s dev (some ⟨⟨1, 0⟩, bands, List.replicate 16 band, [], []⟩) := by
  have hhandle : TcId.read "1:" = some ⟨1, 0⟩ := by decide
  have hpriomap : ((List.replicate 16 (toString band)).mapM fun text : String =>
      Text.decimal text.toList) = some (List.replicate 16 band) :=
    mapM_replicate (Text.decimal_toString band) 16
  have hread : TcCommand.read (["tc", "qdisc", "replace", "dev", dev, "root", "handle", "1:", "prio",
      "bands", toString bands, "priomap"] ++ List.replicate 16 (toString band)) =
      some (.replaceRoot dev ⟨1, 0⟩ bands (List.replicate 16 band)) := by
    change (do
      return TcCommand.replaceRoot dev (← TcId.read "1:") (← Text.decimal (toString bands).toList)
        (← (List.replicate 16 (toString band)).mapM fun text : String => Text.decimal text.toList)) = _
    rw [hhandle, Text.decimal_toString, hpriomap]
    rfl
  rw [tc, hread]
  rfl

theorem tc_addFilter (dst : String) (id : Nat) :
    tc ["tc", "filter", "add", "dev", dev, "parent", "1:", "protocol", "ip", "prio", "1", "u32", "match",
      "ip", "dst", dst, "flowid", nodeToClass id] s =
      TcCommand.change s dev fun q => q.addFilter ⟨1, 0⟩ ⟨dst, classId id⟩ := by
  have hhandle : TcId.read "1:" = some ⟨1, 0⟩ := by decide
  have hread : TcCommand.read ["tc", "filter", "add", "dev", dev, "parent", "1:", "protocol", "ip",
      "prio", "1", "u32", "match", "ip", "dst", dst, "flowid", nodeToClass id] =
      some (.addFilter dev ⟨1, 0⟩ ⟨dst, classId id⟩) := by
    change (do
      return TcCommand.addFilter dev (← TcId.read "1:") ⟨dst, ← TcId.read (nodeToClass id)⟩) = _
    unfold nodeToClass
    rw [hhandle, read_class]
    rfl
  rw [tc, hread]
  rfl

theorem tc_slowDown (speed delay : String) (id : Nat) :
    tc (slowDownCommand speed delay id dev) s = TcCommand.change s dev fun q =>
      q.setLeaf ⟨classId id, handleId id, netemArgs speed delay⟩ := by
  have hread : TcCommand.read (slowDownCommand speed delay id dev) =
      some (.replaceLeaf dev ⟨classId id, handleId id, netemArgs speed delay⟩) := by
    change (do
      return TcCommand.replaceLeaf dev
        ⟨← TcId.read (nodeToClass id), ← TcId.read (nodeToHandle id), netemArgs speed delay⟩) = _
    unfold nodeToClass nodeToHandle
    rw [read_class, read_handle]
    rfl
  rw [tc, hread]
  rfl

theorem tc_removeSlowDown (id : Nat) :
    tc (removeSlowDownCommand id dev) s = TcCommand.change s dev fun q =>
      q.removeLeaf (classId id) (handleId id) := by
  have hread : TcCommand.read (removeSlowDownCommand id dev) =
      some (.delLeaf dev (classId id) (handleId id)) := by
    change (do
      return TcCommand.delLeaf dev (← TcId.read (nodeToClass id)) (← TcId.read (nodeToHandle id))) = _
    unfold nodeToClass nodeToHandle
    rw [read_class, read_handle]
    rfl
  rw [tc, hread]
  rfl

end Commands

/-! ## Preparing a device -/

section Prepare

variable {self : TrafficControl} {w w' : World} {start : Devices} {dev : String} {netNum : Nat} {u : PUnit}

theorem addrAt_ok {addrs : List Addr} {i : Nat} {addr : Addr} (h : addrAt addrs i = .ok addr) :
    addrs[i]? = some addr := by
  unfold addrAt at h
  rw [if_neg (by omega), Int.toNat_natCast] at h
  rcases hget : addrs[i]? with _ | found
  · rw [hget] at h
    cases h
  · rw [hget] at h
    dsimp only at h
    rw [if_neg (by omega)] at h
    rw [Except.ok.inj h]

/-- The qdisc of a device that leads to the nodes of the entries, before any of them is slowed
down. -/
def root (self : TrafficControl) (w : World) (entries : List (NodeId × Addr)) : Qdisc where
  handle := ⟨1, 0⟩
  bands := self.nodes.length
  priomap := List.replicate 16 (w.node self.sourceNode).id
  filters := entries.map fun (n, addr) => ⟨addr.text, classId (w.node n).id⟩
  leaves := []

theorem root_onward (h : onward.rel w w') (entries : List (NodeId × Addr)) :
    self.root w' entries = self.root w entries := by
  unfold root
  simp only [graph_nodeId h.1]

theorem root_addFilter (entries : List (NodeId × Addr)) (node : NodeId) (addr : Addr) :
    (self.root w entries).addFilter ⟨1, 0⟩ ⟨addr.text, classId (w.node node).id⟩ =
      self.root w (entries ++ [(node, addr)]) := by
  have happend : self.root w (entries ++ [(node, addr)]) = { self.root w entries with
      filters := (self.root w entries).filters ++ [⟨addr.text, classId (w.node node).id⟩] } := by
    unfold root
    rw [List.map_append]
    rfl
  rw [happend]
  exact if_pos rfl

theorem devices_run_returns (start : Devices) {out : String} {cmd : List String} {n : NodeId} {h : HostId}
    (hn : (w.node n).host = h) (hr : Returns (Node.run n cmd) w out w') :
    w'.devices start h = tc cmd (w.devices start h) := by
  have hdevices := devices_run start hn cmd
  rw [show exec (Node.run n cmd) w = (.ok out, w') from hr] at hdevices
  exact hdevices

theorem addFilter_returns (start : Devices) {node : NodeId} {h : HostId} (hh : (w.node self.sourceNode).host = h)
    (hr : Returns (self.addFilter dev netNum node) w u w') :
    onward.rel w w' ∧ ∃ addr, (w.addrs node)[netNum]? = some addr ∧
      w'.devices start h = TcCommand.change (w.devices start h) dev fun q =>
        q.addFilter ⟨1, 0⟩ ⟨addr.text, classId (w.node node).id⟩ := by
  unfold addFilter at hr
  rw [returns_get_bind] at hr
  obtain ⟨addr, w₁, haddr, hr⟩ := returns_bind.mp hr
  rw [Returns, exec_liftExcept] at haddr
  obtain ⟨hget, rfl⟩ := Prod.mk.inj haddr
  obtain ⟨out, hr⟩ := returns_drop.mp hr
  refine ⟨(onward_run _ _).rel_of_returns hr, addr, addrAt_ok hget, ?_⟩
  rw [devices_run_returns start hh hr, tc_addFilter]

/-- The filters of a device, in the order of the nodes. -/
theorem forM_addFilter_returns {nodes : List NodeId} {s : Devices} {h : HostId}
    (hh : (w.node self.sourceNode).host = h)
    (hs : w.devices start h = Function.update s dev (some (self.root w [])))
    (hr : Returns (nodes.forM (self.addFilter dev netNum)) w u w') :
    onward.rel w w' ∧ ∃ entries : List (NodeId × Addr), entries.map Prod.fst = nodes ∧
      (∀ e ∈ entries, (w.addrs e.1)[netNum]? = some e.2) ∧
      w'.devices start h = Function.update s dev (some (self.root w entries)) := by
  refine hr.forM_invariant (fun pre w' => onward.rel w w' ∧
    ∃ entries : List (NodeId × Addr), entries.map Prod.fst = pre ∧
      (∀ e ∈ entries, (w.addrs e.1)[netNum]? = some e.2) ∧
      w'.devices start h = Function.update s dev (some (self.root w entries))) ?_ ?_
  · exact ⟨onward.refl w, [], rfl, by simp, hs⟩
  · rintro pre node post w₁ w₂ - ⟨hon, entries, hnodes, haddrs, hdevices⟩ hnode
    have hh₁ : (w₁.node self.sourceNode).host = h := (graph_nodeHost hon.1 _).trans hh
    obtain ⟨hon', addr, haddr, hchange⟩ := addFilter_returns start hh₁ hnode
    rw [onward_addrs hon] at haddr
    refine ⟨onward.trans hon hon', entries ++ [(node, addr)], by simp [hnodes], ?_, ?_⟩
    · intro e he
      rcases List.mem_append.mp he with he | he
      · exact haddrs e he
      · rw [List.mem_singleton.mp he]
        exact haddr
    · rw [hchange, hdevices, TcCommand.change, Function.update_self, Function.update_idem,
        graph_nodeId hon.1]
      rw [Option.map_some, root_addFilter]

/-- A command that may fail. -/
theorem tryRun_returns {n : NodeId} {cmd : List String}
    (hr : Returns (tryCatch (do let _ ← Node.run n cmd) fun
      | .calledProcessError _ => pure ⟨⟩
      | e => throw e) w u w') : w' = (exec (Node.run n cmd) w).2 := by
  rw [Returns, exec_tryCatch, exec_bind] at hr
  rcases hexec : exec (Node.run n cmd) w with ⟨e | out, w₁⟩
  · rw [hexec] at hr
    cases e with
    | calledProcessError code => exact (congrArg Prod.snd hr).symm
    | _ => cases hr
  · rw [hexec] at hr
    exact (congrArg Prod.snd hr).symm

theorem prepareDevice_returns (start : Devices) {nodes : List NodeId} {h : HostId}
    (hh : (w.node self.sourceNode).host = h)
    (hr : Returns (self.prepareDevice dev netNum nodes) w u w') :
    onward.rel w w' ∧ ∃ entries : List (NodeId × Addr), entries.map Prod.fst = nodes ∧
      (∀ e ∈ entries, (w.addrs e.1)[netNum]? = some e.2) ∧
      w'.devices start h = Function.update (w.devices start h) dev (some (self.root w entries)) := by
  obtain ⟨_, w₁, hdel, hr⟩ := returns_bind.mp hr
  have hw₁ := tryRun_returns hdel
  have hon : onward.rel w w₁ := by
    rw [hw₁]
    exact onward_run _ _ w
  -- whether there was something to delete or not
  have hclear : Function.update (w₁.devices start h) dev (some (self.root w [])) =
      Function.update (w.devices start h) dev (some (self.root w [])) := by
    rw [hw₁, devices_run start hh]
    split
    · rw [tc_delRoot, Function.update_idem]
    · rfl
  rw [returns_get_bind] at hr
  obtain ⟨out, w₂, hreplace, hr⟩ := returns_bind.mp hr
  have hh₁ : (w₁.node self.sourceNode).host = h := (graph_nodeHost hon.1 _).trans hh
  have hon' := (onward_run _ _).rel_of_returns hreplace
  have hh₂ : (w₂.node self.sourceNode).host = h := (graph_nodeHost hon'.1 _).trans hh₁
  have hs : w₂.devices start h = Function.update (w.devices start h) dev (some (self.root w [])) := by
    rw [devices_run_returns start hh₁ hreplace, tc_replaceRoot, ← hclear, graph_nodeId hon.1]
    rfl
  have hon₂ := onward.trans hon hon'
  obtain ⟨hon₃, entries, hnodes, haddrs, hdevices⟩ := forM_addFilter_returns hh₂ (by rw [hs, root_onward hon₂]) hr
  refine ⟨onward.trans hon₂ hon₃, entries, hnodes, ?_, ?_⟩
  · intro e he
    rw [← onward_addrs hon₂]
    exact haddrs e he
  · rw [hdevices, root_onward hon₂]

end Prepare

/-! ## The nodes behind each device -/

section Grouping

variable {self : TrafficControl} {w w' : World} {h peer : HostId} {dev : String} {netNum : Nat}
  {device : String → String} {start : Devices}

/-- A route that was looked up. -/
theorem netDeviceToPeer_returns (hr : Returns (Host.netDeviceToPeer h peer netNum) w dev w') :
    onward.rel w w' ∧ ∃ addr, (w.host peer).info.addrs[netNum]? = some addr ∧
      ∀ device, w'.RoutesNamed h device → dev = device addr.text := by
  unfold Host.netDeviceToPeer at hr
  rw [returns_get_bind] at hr
  obtain ⟨addr, w₁, haddr, hr⟩ := returns_bind.mp hr
  rw [Returns, exec_liftExcept] at haddr
  obtain ⟨hget, rfl⟩ := Prod.mk.inj haddr
  obtain ⟨lines, w₂, hrun, hr⟩ := returns_bind.mp hr
  obtain ⟨-, rfl, rfl⟩ := runWith_returns.mp hrun
  rcases hroute : routeDevice (String.ofList (Text.strip
      (w.env.replies w.requests.length).stdout.toList)) with _ | found
  · rw [hroute] at hr
    cases returns_throw.mp hr
  · rw [hroute] at hr
    obtain ⟨rfl, rfl⟩ := returns_pure.mp hr
    refine ⟨onward_request w _ true, addr, addrAt_ok hget, fun device hnamed => ?_⟩
    have hnamed := hnamed [] w.requests addr.text rfl
    exact Option.some.inj (hroute.symm.trans hnamed)

/-- No lookup changes the qdiscs, whether it returns or not. -/
theorem devices_netDeviceToPeer (h k peer : HostId) (netNum : Nat) (start : Devices) :
    (Frame.fixing fun w : World => w.devices start k).Holds (Host.netDeviceToPeer h peer netNum) := by
  refine Frame.holds_bind Frame.holds_get fun w => ?_
  refine Frame.holds_bind (holds_liftExcept _) fun addr => ?_
  refine Frame.holds_bind (holds_runWith fun w ok => devices_request ok (tc_lookup addr.text))
    fun lines => ?_
  cases routeDevice lines with
  | none => exact Frame.holds_throw _
  | some dev => exact Frame.holds_pure _

theorem onward_netDeviceToPeer (h peer : HostId) (netNum : Nat) :
    onward.Holds (Host.netDeviceToPeer h peer netNum) := by
  refine Frame.holds_bind Frame.holds_get fun w => ?_
  refine Frame.holds_bind (holds_liftExcept _) fun addr => ?_
  refine Frame.holds_bind (holds_runWith fun w ok => onward_request w _ ok) fun lines => ?_
  cases routeDevice lines with
  | none => exact Frame.holds_throw _
  | some dev => exact Frame.holds_pure _

/-- The address of another node on a network. -/
def Peer (self : TrafficControl) (w : World) (p : NodeId) (netNum : Nat) (addr : Addr) : Prop :=
  p ∈ self.nodes ∧ p ≠ self.sourceNode ∧ netNum < (w.addrs self.sourceNode).length ∧
    (w.addrs p)[netNum]? = some addr

/-- The dictionary has the nodes that are done under the devices they are reached through. -/
structure Grouped (w : World) (device : String → String) (done : NodeId → Nat → Prop)
    (nodesByDev : Dict String (Nat × List NodeId)) : Prop where
  listed : ∀ p netNum, done p netNum → ∃ addr nodes, (w.addrs p)[netNum]? = some addr ∧
    nodesByDev.get? (device addr.text) = some (netNum, nodes) ∧ p ∈ nodes
  only : ∀ dev netNum nodes, nodesByDev.get? dev = some (netNum, nodes) → ∀ p ∈ nodes,
    done p netNum ∧ ∀ addr, (w.addrs p)[netNum]? = some addr → device addr.text = dev

theorem Grouped.congr {done done' : NodeId → Nat → Prop} {d : Dict String (Nat × List NodeId)}
    (hd : Grouped w device done d) (hdone : ∀ p i, done p i ↔ done' p i) :
    Grouped w device done' d where
  listed p i hp := hd.listed p i ((hdone p i).mpr hp)
  only dev i nodes hget p hp := by
    obtain ⟨hp, haddr⟩ := hd.only dev i nodes hget p hp
    exact ⟨(hdone p i).mp hp, haddr⟩

theorem Grouped.add {done : NodeId → Nat → Prop} {d : Dict String (Nat × List NodeId)}
    (hd : Grouped w device done d) {node : NodeId} {addr : Addr} {nodes : List NodeId}
    (haddr : (w.addrs node)[netNum]? = some addr)
    (hnodes : (d.get? (device addr.text)).getD (netNum, []) = (netNum, nodes)) :
    Grouped w device (fun p i => done p i ∨ p = node ∧ i = netNum)
      (d.set (device addr.text) (netNum, nodes ++ [node])) := by
  constructor
  · intro p i hp
    rcases hp with hp | ⟨rfl, rfl⟩
    · obtain ⟨addr', nodes', haddr', hget, hmem⟩ := hd.listed p i hp
      by_cases hdev : device addr'.text = device addr.text
      · rw [← hdev, hget, Option.getD_some] at hnodes
        obtain ⟨rfl, rfl⟩ := Prod.mk.inj hnodes
        refine ⟨addr', nodes' ++ [node], haddr', ?_, List.mem_append_left _ hmem⟩
        rw [Dict.get?_set, if_pos hdev]
      · refine ⟨addr', nodes', haddr', ?_, hmem⟩
        rw [Dict.get?_set, if_neg hdev]
        exact hget
    · refine ⟨addr, nodes ++ [p], haddr, ?_, by simp⟩
      rw [Dict.get?_set, if_pos rfl]
  · intro dev i found hget p hp
    rw [Dict.get?_set] at hget
    by_cases hdev : dev = device addr.text
    · rw [if_pos hdev] at hget
      obtain ⟨rfl, rfl⟩ := Prod.mk.inj (Option.some.inj hget)
      rcases List.mem_append.mp hp with hp | hp
      · -- a node that was listed before
        have hold : d.get? dev = some (netNum, nodes) := by
          rw [← hdev] at hnodes
          rcases hget' : d.get? dev with _ | entry
          · rw [hget', Option.getD_none] at hnodes
            rw [← (Prod.mk.inj hnodes).2] at hp
            cases hp
          · rw [hget', Option.getD_some] at hnodes
            rw [hnodes]
        obtain ⟨hdone, haddrs⟩ := hd.only dev netNum nodes hold p hp
        exact ⟨.inl hdone, haddrs⟩
      · obtain rfl := List.mem_singleton.mp hp
        refine ⟨.inr ⟨rfl, rfl⟩, fun addr' haddr' => ?_⟩
        rw [haddr] at haddr'
        rw [← Option.some.inj haddr', hdev]
    · rw [if_neg hdev] at hget
      obtain ⟨hdone, haddrs⟩ := hd.only dev i found hget p hp
      exact ⟨.inl hdone, haddrs⟩

theorem addToDev_returns {done : NodeId → Nat → Prop} {d d' : Dict String (Nat × List NodeId)}
    {w₀ : World} {node : NodeId} (hon : onward.rel w₀ w) (hh : (w₀.node self.sourceNode).host = h)
    (hr : Returns (self.addToDev netNum d node) w d' w') :
    onward.rel w w' ∧ (w'.RoutesNamed h device → Grouped w₀ device done d →
      Grouped w₀ device (fun p i => done p i ∨ p = node ∧ p ≠ self.sourceNode ∧ i = netNum) d') := by
  unfold addToDev at hr
  split at hr
  · rename_i hnode
    obtain ⟨rfl, rfl⟩ := returns_pure.mp hr
    refine ⟨onward.refl w, fun _ hd => hd.congr fun p i => ?_⟩
    constructor
    · exact .inl
    · rintro (hp | ⟨rfl, hne, -⟩)
      · exact hp
      · exact absurd hnode hne
  · rename_i hnode
    rw [returns_get_bind] at hr
    obtain ⟨dev, w₁, hdev, hr⟩ := returns_bind.mp hr
    obtain ⟨hon', addr, haddr, hroute⟩ := netDeviceToPeer_returns hdev
    dsimp only at hr
    split at hr
    · cases returns_throw.mp hr
    · rename_i hnet
      obtain ⟨rfl, rfl⟩ := returns_pure.mp hr
      refine ⟨hon', fun hnamed hd => ?_⟩
      rw [graph_nodeHost hon.1, hh] at hroute
      obtain rfl := hroute device hnamed
      have haddr : (w₀.addrs node)[netNum]? = some addr := by
        rw [← onward_addrs hon]
        exact haddr
      have hnodes : (d.get? (device addr.text)).getD (netNum, []) =
          (netNum, ((d.get? (device addr.text)).getD (netNum, [])).2) :=
        Prod.ext (not_ne_iff.mp hnet) rfl
      have hadded := hd.add haddr hnodes
      rw [not_ne_iff.mp hnet]
      refine hadded.congr fun p i => ?_
      constructor
      · rintro (hp | ⟨rfl, hi⟩)
        · exact .inl hp
        · exact .inr ⟨rfl, hnode, hi⟩
      · rintro (hp | ⟨rfl, -, hi⟩)
        · exact .inl hp
        · exact .inr ⟨rfl, hi⟩

theorem foldlM_addToDev_returns {done : NodeId → Nat → Prop} {nodes : List NodeId}
    {d d' : Dict String (Nat × List NodeId)} {w₀ : World} (hon : onward.rel w₀ w)
    (hh : (w₀.node self.sourceNode).host = h)
    (hr : Returns (nodes.foldlM (self.addToDev netNum) d) w d' w') :
    onward.rel w w' ∧ (w'.RoutesNamed h device → Grouped w₀ device done d →
      Grouped w₀ device (fun p i => done p i ∨ p ∈ nodes ∧ p ≠ self.sourceNode ∧ i = netNum) d') := by
  refine hr.foldlM_invariant (fun pre d' w' => onward.rel w w' ∧
    (w'.RoutesNamed h device → Grouped w₀ device done d →
      Grouped w₀ device (fun p i => done p i ∨ p ∈ pre ∧ p ≠ self.sourceNode ∧ i = netNum) d')) ?_ ?_
  · exact ⟨onward.refl w, fun _ hd => hd.congr fun p i => by simp⟩
  · rintro pre node post d₁ w₁ d₂ w₂ - ⟨hon₁, hd₁⟩ hnode
    obtain ⟨hon₂, hd₂⟩ := addToDev_returns (onward.trans hon hon₁) hh hnode
    refine ⟨onward.trans hon₁ hon₂, fun hnamed hd => ?_⟩
    refine (hd₂ hnamed (hd₁ (hnamed.of_onward hon₂) hd)).congr fun p i => ?_
    rw [List.mem_append, List.mem_singleton]
    tauto

theorem getNodesByDev_returns (device : String → String) {d : Dict String (Nat × List NodeId)}
    (hh : (w.node self.sourceNode).host = h) (hr : Returns self.getNodesByDev w d w') :
    onward.rel w w' ∧ (w'.RoutesNamed h device → Grouped w device (fun p i => p ∈ self.nodes ∧
      p ≠ self.sourceNode ∧ i < (w.addrs self.sourceNode).length) d) := by
  unfold getNodesByDev at hr
  rw [returns_get_bind] at hr
  have hloop := hr.foldlM_invariant (fun pre d w' => onward.rel w w' ∧ (w'.RoutesNamed h device →
    Grouped w device (fun p i => p ∈ self.nodes ∧ p ≠ self.sourceNode ∧ i ∈ pre) d)) ?_ ?_
  · refine ⟨hloop.1, fun hnamed => (hloop.2 hnamed).congr fun p i => ?_⟩
    rw [List.mem_range]
  · refine ⟨onward.refl w, fun _ => ⟨?_, ?_⟩⟩
    · rintro p i ⟨-, -, hi⟩
      cases hi
    · intro dev i nodes hget
      cases hget
  · rintro pre i post d₁ w₁ d₂ w₂ - ⟨hon₁, hd₁⟩ hnet
    obtain ⟨hon₂, hd₂⟩ := foldlM_addToDev_returns hon₁ hh hnet
    refine ⟨onward.trans hon₁ hon₂, fun hnamed => ?_⟩
    refine (hd₂ hnamed (hd₁ (hnamed.of_onward hon₂))).congr fun p j => ?_
    rw [List.mem_append, List.mem_singleton]
    tauto

theorem onward_prepareDevice (self : TrafficControl) (dev : String) (netNum : Nat)
    (nodes : List NodeId) : onward.Holds (self.prepareDevice dev netNum nodes) := by
  refine Frame.holds_bind (Frame.holds_tryCatch ?_ fun e => ?_) fun _ => ?_
  · exact Frame.holds_bind (onward_run _ _) fun _ => Frame.holds_pure _
  · cases e <;> first | exact Frame.holds_throw _ | exact Frame.holds_pure _
  · refine Frame.holds_bind Frame.holds_get fun w => Frame.holds_bind (onward_run _ _) fun _ => ?_
    refine Frame.holds_forM nodes fun node _ => Frame.holds_bind Frame.holds_get fun w => ?_
    refine Frame.holds_bind (holds_liftExcept _) fun ip => ?_
    exact Frame.holds_bind (onward_run _ _) fun _ => Frame.holds_pure _

/-- The constructor only makes requests. -/
theorem onward_init (self : TrafficControl) : onward.Holds self.init := by
  refine Frame.holds_bind (Frame.holds_bind Frame.holds_get fun w => ?_) fun d => ?_
  · refine Frame.holds_foldlM _ _ fun d netNum _ => Frame.holds_foldlM _ _ fun d node _ => ?_
    refine Frame.holds_ite (fun _ => Frame.holds_pure _) fun _ => ?_
    refine Frame.holds_bind Frame.holds_get fun w => ?_
    refine Frame.holds_bind (onward_netDeviceToPeer _ _ _) fun dev => ?_
    exact Frame.holds_ite (fun _ => Frame.holds_throw _) fun _ => Frame.holds_pure _
  · exact Frame.holds_forM _ fun e _ => onward_prepareDevice self e.1 e.2.1 e.2.2

/-- Different networks use different devices. -/
def Layout (self : TrafficControl) (w : World) (device : String → String) : Prop :=
  ∀ p i addr q j addr', self.Peer w p i addr → self.Peer w q j addr' →
    device addr.text = device addr'.text → i = j

/-- The device of each other node has the qdisc of the constructor, and below it only leaves of the
nodes; that of a node on a network is as it has been set. -/
def Shaped (self : TrafficControl) (w : World) (device : String → String)
    (setting : NodeId → Nat → Option (List String)) (s : Devices) : Prop :=
  ∀ p i addr, self.Peer w p i addr → ∃ entries q, s (device addr.text) = some q ∧
    { q with leaves := [] } = self.root w entries ∧ (p, addr) ∈ entries ∧
    (∀ e ∈ entries, self.Peer w e.1 i e.2) ∧
    (∀ leaf ∈ q.leaves, ∃ n ∈ self.nodes, leaf.parent = classId (w.node n).id ∧
      leaf.handle = handleId (w.node n).id) ∧
    q.leaf (classId (w.node p).id) = setting p i

theorem Grouped.layout {d : Dict String (Nat × List NodeId)} (hd : Grouped w device (fun p i =>
    p ∈ self.nodes ∧ p ≠ self.sourceNode ∧ i < (w.addrs self.sourceNode).length) d) :
    self.Layout w device := by
  intro p i addr q j addr' hp hq hdev
  obtain ⟨found, nodes, hfound, hget, -⟩ := hd.listed p i ⟨hp.1, hp.2.1, hp.2.2.1⟩
  obtain ⟨found', nodes', hfound', hget', -⟩ := hd.listed q j ⟨hq.1, hq.2.1, hq.2.2.1⟩
  rw [hp.2.2.2] at hfound
  rw [hq.2.2.2] at hfound'
  obtain rfl := Option.some.inj hfound
  obtain rfl := Option.some.inj hfound'
  rw [hdev, hget'] at hget
  exact (Prod.mk.inj (Option.some.inj hget)).1.symm

/-- Where each device has the filters for its nodes and no leaves. -/
theorem Grouped.shaped {d : Dict String (Nat × List NodeId)} {s : Devices}
    (hd : Grouped w device (fun p i =>
      p ∈ self.nodes ∧ p ≠ self.sourceNode ∧ i < (w.addrs self.sourceNode).length) d)
    (hdevices : ∀ e ∈ d.entries, ∃ entries : List (NodeId × Addr), entries.map Prod.fst = e.2.2 ∧
      (∀ x ∈ entries, (w.addrs x.1)[e.2.1]? = some x.2) ∧ s e.1 = some (self.root w entries)) :
    self.Shaped w device (fun _ _ => none) s := by
  intro p i addr hp
  obtain ⟨found, nodes, hfound, hget, hmem⟩ := hd.listed p i ⟨hp.1, hp.2.1, hp.2.2.1⟩
  rw [hp.2.2.2] at hfound
  obtain rfl := Option.some.inj hfound
  obtain ⟨entries, hnodes, haddrs, hdevice⟩ := hdevices _ (Dict.get?_eq_some_iff.mp hget)
  dsimp only at hnodes haddrs hdevice
  refine ⟨entries, _, hdevice, rfl, ?_, ?_, ?_, rfl⟩
  · rw [← hnodes] at hmem
    obtain ⟨⟨p', addr'⟩, he, rfl⟩ := List.mem_map.mp hmem
    have haddr := haddrs _ he
    rw [hp.2.2.2] at haddr
    rw [Option.some.inj haddr]
    exact he
  · intro e he
    have hlisted : e.1 ∈ nodes := by
      rw [← hnodes]
      exact List.mem_map_of_mem he
    obtain ⟨⟨hnode, hother, hnet⟩, -⟩ := hd.only _ i nodes hget e.1 hlisted
    exact ⟨hnode, hother, hnet, haddrs e he⟩
  · intro leaf hleaf
    cases hleaf

theorem init_returns (start : Devices) {u : PUnit} (hh : (w.node self.sourceNode).host = h)
    (hr : Returns self.init w u w') (hnamed : w'.RoutesNamed h device) :
    onward.rel w w' ∧ self.Layout w device ∧
      self.Shaped w device (fun _ _ => none) (w'.devices start h) := by
  obtain ⟨d, w₁, hgroup, hr⟩ := returns_bind.mp hr
  obtain ⟨hon, hgrouped⟩ := getNodesByDev_returns device hh hgroup
  have hloop := hr.forM_invariant (fun pre w' => onward.rel w₁ w' ∧ ∀ e ∈ pre,
    ∃ entries : List (NodeId × Addr), entries.map Prod.fst = e.2.2 ∧
      (∀ x ∈ entries, (w.addrs x.1)[e.2.1]? = some x.2) ∧
      w'.devices start h e.1 = some (self.root w entries)) ?_ ?_
  · obtain ⟨hon', hdevices⟩ := hloop
    have hd := hgrouped (hnamed.of_onward hon')
    exact ⟨onward.trans hon hon', hd.layout, hd.shaped hdevices⟩
  · exact ⟨onward.refl w₁, by simp⟩
  · rintro pre ⟨dev, netNum, nodes⟩ post w₂ w₃ hentries ⟨hon₁, hpre⟩ hprepare
    have hon₂ := onward.trans hon hon₁
    have hh₂ : (w₂.node self.sourceNode).host = h := (graph_nodeHost hon₂.1 _).trans hh
    obtain ⟨hon₃, entries, hnodes, haddrs, hdevices⟩ := prepareDevice_returns start hh₂ hprepare
    refine ⟨onward.trans hon₁ hon₃, fun e he => ?_⟩
    rcases List.mem_append.mp he with he | he
    · have hne : e.1 ≠ dev := by
        have hnodup := d.nodup
        rw [hentries, List.map_append, List.map_cons] at hnodup
        intro heq
        exact (List.nodup_append.mp hnodup).2.2 _ (List.mem_map_of_mem he) _ (by simp) heq
      obtain ⟨entries', hnodes', haddrs', hdevice⟩ := hpre e he
      refine ⟨entries', hnodes', haddrs', ?_⟩
      rw [hdevices, Function.update_of_ne hne]
      exact hdevice
    · rw [List.mem_singleton.mp he]
      refine ⟨entries, hnodes, fun x hx => ?_, ?_⟩
      · rw [← onward_addrs hon₂]
        exact haddrs x hx
      · rw [hdevices, Function.update_self, root_onward hon₂]

end Grouping

end TrafficControl

end DrbdTests
