import DrbdTests.Config.Node
import DrbdTests.Lib.Text

/-!
# Commands

`Host.run`, `Node.run` and what they are built on. A command that fails raises an
exception, unless the caller asks to `catch` it. `Node.run` first brings the config file of
the node up to date.

Three frames say what commands leave unchanged, each larger than the one before. A command
without an effect only adds to the list of requests (`asking`). One that acts on devices may
also come with new objects, but changes no flag and uploads nothing (`unchanging`). `Node.run`
may clear one `config_changed` flag and upload a config, but does not touch the objects
themselves, `World.graph` (`keepingGraph`).
-/

namespace DrbdTests

open Stateful

def Py.liftExcept {α : Type} (r : Except PyError α) : Py α :=
  match r with
  | .ok a => pure a
  | .error e => throw e

/-- Ask the environment. -/
def request (r : Request) : Py Reply := do
  let w ← get
  let reply := w.env.replies w.requests.length
  set { w with requests := (r, reply.returncode = 0) :: w.requests }
  return reply

/-- `Host.run`; the output is what it returns for `return_stdout=True`. -/
def Host.runWith (catching : Bool) (host : HostId) (cmd : List String) (stdin : Option String)
    (effect : Effect) : Py String := do
  let reply ← request (.command host cmd stdin effect)
  if reply.returncode ≠ 0 ∧ ¬ catching then
    throw (.calledProcessError reply.returncode)
  else
    return String.ofList (Text.strip reply.stdout.toList)

def Host.run (host : HostId) (cmd : List String) : Py String :=
  Host.runWith false host cmd none .none

/-- A command that acts on a device. -/
def Host.act (host : HostId) (cmd : List String) (stdin : Option String) (effect : Effect) :
    Py PUnit := do
  let _ ← Host.runWith false host cmd stdin effect

/-- `run_helper`, with `install_helper` -/
def Host.runHelper (host : HostId) (helperName : String) (args : List String) : Py String := do
  let helper := (← get).env.files ("target/" ++ helperName)
  let targetPath := "/tmp/" ++ helperName
  let _ ← Host.runWith false host
    ["bash", "-c", "cat > " ++ targetPath ++ " && chmod +x " ++ targetPath] (some helper) .none
  Host.run host (targetPath :: args)

/-- `drbd_config_file_path` -/
def Node.drbdConfigFilePath (w : World) (n : NodeId) : String :=
  (w.host (w.node n).host).drbdConfigDir ++ "/" ++ w.job ++ "-"
    ++ (w.resource (w.node n).resource).name ++ ".res"

/-- `drbd_global_config_file_path` -/
def Host.drbdGlobalConfigFilePath (w : World) (h : HostId) : String :=
  (w.host h).drbdConfigDir ++ "/" ++ w.job ++ ".conf"

/-- `config_changed = value` -/
def World.setFlag (w : World) (n : NodeId) (value : Bool) : World :=
  w.setNode n fun node => { node with configChanged := value }

/-- `update_config`: the flag is cleared before the config is generated and stored. -/
def Node.updateConfig (n : NodeId) : Py PUnit := do
  let w ← get
  when (w.node n).configChanged do
    modify fun w => w.setFlag n false
    let config ← Py.liftExcept (Node.config w n)
    Host.act (w.node n).host ["bash", "-c", "cat > " ++ Node.drbdConfigFilePath w n] (some config)
      (.upload n)

/-- `Node.run`, with `update_config` and `catch` -/
def Node.runWith (updateConfig catching : Bool) (n : NodeId) (cmd : List String) : Py String := do
  when updateConfig (Node.updateConfig n)
  let w ← get
  Host.runWith catching (w.node n).host cmd none .none

def Node.run (n : NodeId) (cmd : List String) : Py String := Node.runWith true false n cmd

def Node.drbdadm (n : NodeId) (cmd : List String) : Py String := do
  let w ← get
  Node.run n (["drbdadm", "-c", Host.drbdGlobalConfigFilePath w (w.node n).host, "-v"] ++ cmd)

/-- `Nodes.event`: a collection without members does not wait. -/
def Nodes.event (nodes : List NodeId) (pattern : String) : Py PUnit :=
  if nodes = [] then pure ⟨⟩
  else do
    let reply ← request (.events nodes pattern)
    if reply.returncode ≠ 0 then throw (.runtimeError "timeout") else pure ⟨⟩

/-! ## What commands leave unchanged -/

/-- All objects, without what commands and bookkeeping change. -/
def World.graph (w : World) : World :=
  { w with
    requests := []
    objectCount := 0
    host := fun h => { w.host h with minors := 0, storagePool := none, drbdmetaUuidOptions := none }
    node := fun n => { w.node n with configChanged := false } }

/-- All objects with their flags, without the bookkeeping of devices. -/
def World.still (w : World) : World :=
  { w with
    requests := []
    objectCount := 0
    host := fun h => { w.host h with minors := 0, drbdmetaUuidOptions := none } }

/-- Commands do not touch the objects. -/
def keepingGraph : Frame World := Frame.fixing World.graph

/-- Commands for devices change no flag and upload no config. -/
def unchanging : Frame World := Frame.fixing fun w => (w.still, w.uploaded)

/-- A command without an effect changes nothing but the list of requests. -/
def asking : Frame World where
  rel w w' := w' = { w with requests := w'.requests } ∧ w'.record = w.record
  refl _ := ⟨rfl, rfl⟩
  trans := by
    rintro a b c ⟨hab, hrab⟩ ⟨hbc, hrbc⟩
    refine ⟨?_, hrbc.trans hrab⟩
    rw [hbc, hab]

section Graph

variable {w w' : World} (h : w'.graph = w.graph)

include h

theorem graph_node (n : NodeId) :
    { w'.node n with configChanged := false } = { w.node n with configChanged := false } :=
  congrFun (congrArg World.node h) n

theorem graph_resource : w'.resource = w.resource := by
  have h := congrArg World.resource h
  exact h

theorem graph_settings : w'.settings = w.settings := by
  have h := congrArg World.settings h
  exact h

theorem graph_resources : w'.resources = w.resources := by
  have h := congrArg World.resources h
  exact h

theorem graph_nodeCount : w'.nodeCount = w.nodeCount := by
  have h := congrArg World.nodeCount h
  exact h

theorem graph_resourceCount : w'.resourceCount = w.resourceCount := by
  have h := congrArg World.resourceCount h
  exact h

theorem graph_env : w'.env = w.env := by
  have h := congrArg World.env h
  exact h

theorem graph_hostInfo (k : HostId) : (w'.host k).info = (w.host k).info := by
  have h := congrArg Host.info (congrFun (congrArg World.host h) k)
  exact h

theorem graph_hostPort (k : HostId) : (w'.host k).port = (w.host k).port := by
  have h := congrArg Host.port (congrFun (congrArg World.host h) k)
  exact h

theorem graph_disks (n : NodeId) : (w'.node n).disks = (w.node n).disks := by
  have h := congrArg Node.disks (graph_node h n)
  exact h

theorem graph_nodeResource (n : NodeId) : (w'.node n).resource = (w.node n).resource := by
  have h := congrArg Node.resource (graph_node h n)
  exact h

theorem graph_nodeHost (n : NodeId) : (w'.node n).host = (w.node n).host := by
  have h := congrArg Node.host (graph_node h n)
  exact h

theorem graph_nodeId (n : NodeId) : (w'.node n).id = (w.node n).id := by
  have h := congrArg Node.id (graph_node h n)
  exact h

theorem graph_nodePort (n : NodeId) : (w'.node n).port = (w.node n).port := by
  have h := congrArg Node.port (graph_node h n)
  exact h

theorem graph_members (r : ResourceId) : w'.members r = w.members r := by
  rw [World.members, graph_resource h, World.members]

theorem graph_nodeView (n : NodeId) : w'.nodeView n = w.nodeView n := by
  have hn := graph_node h n
  have hi := graph_hostInfo h (w.node n).host
  simp only [Node.mk.injEq] at hn
  obtain ⟨hf, hh, hr, hname, hp, hd, hid, -, hc⟩ := hn
  simp only [World.nodeView, hf, hh, hname, hp, hd, hid, hi]

theorem graph_config (n : NodeId) : Node.config w' n = Node.config w n := by
  refine Node.config_congr (graph_settings h) ?_ (graph_nodeView h n)
  rw [graph_nodeResource h]
  have hv : w'.nodeView = w.nodeView := funext (graph_nodeView h)
  simp only [World.resourceView, graph_members h, hv, graph_resource h]

end Graph

theorem graph_of_asking {w w' : World} (h : asking.rel w w') : w'.graph = w.graph := by
  have hg := congrArg World.graph h.1
  exact hg

theorem graph_setFlag (w : World) (n : NodeId) (value : Bool) : (w.setFlag n value).graph = w.graph := by
  unfold World.graph World.setFlag
  congr 1
  funext m
  rw [World.setNode_node]
  split
  · subst m
    rfl
  · rfl

theorem holds_liftExcept {α : Type} {F : Frame World} (r : Except PyError α) :
    F.Holds (Py.liftExcept r) := by
  cases r with
  | ok a => exact Frame.holds_pure a
  | error e => exact Frame.holds_throw e

theorem exec_liftExcept {α : Type} (r : Except PyError α) (w : World) :
    exec (Py.liftExcept r) w = (r, w) := by
  cases r with
  | ok a => rfl
  | error e => rfl

theorem exec_request (r : Request) (w : World) :
    exec (request r) w =
      (.ok (w.env.replies w.requests.length),
        { w with
          requests := (r, ((w.env.replies w.requests.length).returncode = 0 : Bool)) :: w.requests }) :=
  rfl

section Command

variable {w w' : World} {catching : Bool} {host : HostId} {cmd : List String}
variable {stdin : Option String} {effect : Effect}

/-- A command that succeeds returns what it has printed. -/
theorem exec_runWith_of_ok (h : (w.env.replies w.requests.length).returncode = 0) :
    exec (Host.runWith catching host cmd stdin effect) w =
      (.ok (String.ofList (Text.strip (w.env.replies w.requests.length).stdout.toList)),
        { w with requests := (.command host cmd stdin effect, true) :: w.requests }) := by
  unfold Host.runWith
  rw [exec_bind_of_ok (exec_request _ w), if_neg (by simp [h]), decide_eq_true h]
  rfl

theorem exec_runWith_of_failed (h : (w.env.replies w.requests.length).returncode ≠ 0) :
    exec (Host.runWith false host cmd stdin effect) w =
      (.error (.calledProcessError (w.env.replies w.requests.length).returncode),
        { w with requests := (.command host cmd stdin effect, false) :: w.requests }) := by
  unfold Host.runWith
  rw [exec_bind_of_ok (exec_request _ w), if_pos ⟨h, by simp⟩, decide_eq_false h]
  rfl

theorem runWith_returns {out : String} :
    Returns (Host.runWith false host cmd stdin effect) w out w' ↔
      (w.env.replies w.requests.length).returncode = 0 ∧
      out = String.ofList (Text.strip (w.env.replies w.requests.length).stdout.toList) ∧
      w' = { w with requests := (.command host cmd stdin effect, true) :: w.requests } := by
  by_cases hcode : (w.env.replies w.requests.length).returncode = 0
  · rw [Returns, exec_runWith_of_ok hcode, Prod.mk.injEq, Except.ok.injEq, eq_comm (b := out),
      eq_comm (b := w')]
    exact (and_iff_right hcode).symm
  · rw [Returns, exec_runWith_of_failed hcode]
    exact iff_of_false (by simp) (fun h => hcode h.1)

/-- A command that returned had succeeded. -/
theorem act_returns {u : PUnit} (h : Returns (Host.act host cmd stdin effect) w u w') :
    w' = { w with requests := (.command host cmd stdin effect, true) :: w.requests } := by
  obtain ⟨out, w₁, hrun, hpure⟩ := returns_bind.mp h
  obtain ⟨-, rfl⟩ := returns_pure.mp hpure
  exact (runWith_returns.mp hrun).2.2

end Command

/-- A command leaves its request, whether it raises or not. -/
theorem exec_runWith (catching : Bool) (host : HostId) (cmd : List String)
    (stdin : Option String) (effect : Effect) (w : World) :
    ∃ ok, (exec (Host.runWith catching host cmd stdin effect) w).2 =
      { w with requests := (.command host cmd stdin effect, ok) :: w.requests } := by
  refine ⟨((w.env.replies w.requests.length).returncode = 0 : Bool), ?_⟩
  unfold Host.runWith
  rw [exec_bind_of_ok (exec_request _ w)]
  split
  · rfl
  · rfl

theorem exec_act (host : HostId) (cmd : List String) (stdin : Option String) (effect : Effect)
    (w : World) :
    ∃ ok, (exec (Host.act host cmd stdin effect) w).1.toBool = ok ∧
      (exec (Host.act host cmd stdin effect) w).2 =
        { w with requests := (.command host cmd stdin effect, ok) :: w.requests } := by
  unfold Host.act
  by_cases hcode : (w.env.replies w.requests.length).returncode = 0
  · rw [exec_bind_of_ok (exec_runWith_of_ok hcode)]
    exact ⟨true, rfl, rfl⟩
  · rw [exec_bind_of_error (exec_runWith_of_failed hcode)]
    exact ⟨false, rfl, rfl⟩

/-- `update_config` does nothing, raises before it stores anything, or runs the command that
stores the config. -/
theorem updateConfig_cases (n : NodeId) (w : World) :
    (w.node n).configChanged = false ∧ exec (Node.updateConfig n) w = (.ok ⟨⟩, w) ∨
    (w.node n).configChanged = true ∧ (∃ e,
      exec (Node.updateConfig n) w = (.error e, w.setFlag n false)) ∨
    (w.node n).configChanged = true ∧ ∃ config ok,
      (exec (Node.updateConfig n) w).1.toBool = ok ∧
      (exec (Node.updateConfig n) w).2 = { w.setFlag n false with
        requests := (.command (w.node n).host
          ["bash", "-c", "cat > " ++ Node.drbdConfigFilePath w n] (some config) (.upload n), ok) ::
          w.requests } := by
  unfold Node.updateConfig
  rw [exec_get_bind]
  rcases (w.node n).configChanged with _ | _
  · exact .inl ⟨rfl, rfl⟩
  refine .inr ?_
  have hexec : exec (when true do
      modify fun w => w.setFlag n false
      let config ← Py.liftExcept (Node.config w n)
      Host.act (w.node n).host ["bash", "-c", "cat > " ++ Node.drbdConfigFilePath w n] (some config)
        (.upload n)) w = exec (do
      let config ← Py.liftExcept (Node.config w n)
      Host.act (w.node n).host ["bash", "-c", "cat > " ++ Node.drbdConfigFilePath w n] (some config)
        (.upload n)) (w.setFlag n false) := exec_bind_of_ok (exec_modify _ w)
  rw [hexec]
  rcases Node.config w n with e | config
  · exact .inl ⟨rfl, e, rfl⟩
  · refine .inr ⟨rfl, config, ?_⟩
    change ∃ ok, (exec (Host.act _ _ _ _) _).1.toBool = ok ∧ (exec (Host.act _ _ _ _) _).2 = _
    exact exec_act _ _ _ _ _

/-- A frame that allows a request allows the command it is made for. -/
theorem holds_runWith {F : Frame World} {catching : Bool} {host : HostId} {cmd : List String}
    {stdin : Option String} {effect : Effect}
    (hF : ∀ w ok, F.rel w { w with requests := (.command host cmd stdin effect, ok) :: w.requests }) :
    F.Holds (Host.runWith catching host cmd stdin effect) := by
  intro w
  obtain ⟨ok, hexec⟩ := exec_runWith catching host cmd stdin effect w
  rw [hexec]
  exact hF w ok

/-- What commands for devices do stays within the frame: commands that upload nothing, new
objects, and the answer that a host keeps. -/
structure DeviceFrame (F : Frame World) : Prop where
  request : ∀ w r ok, (∀ n, r.effect ≠ .upload n) →
    F.rel w { w with requests := (r, ok) :: w.requests }
  newObject : ∀ w, F.rel w { w with objectCount := w.objectCount + 1 }
  setOptions : ∀ w h answer,
    F.rel w (w.setHost h fun host => { host with drbdmetaUuidOptions := some answer })

/-- What is done for a pool stays within the frame. -/
structure PoolFrame (F : Frame World) : Prop extends DeviceFrame F where
  setPool : ∀ w h pool, F.rel w (w.setHost h fun host => { host with storagePool := pool })

/-- The commands of one node stay within the frame. -/
structure NodeFrame (F : Frame World) (n : NodeId) : Prop extends PoolFrame F where
  updateConfig : F.Holds (Node.updateConfig n)

/-- All commands stay within the frame, with the flags of nodes and the pools of hosts. -/
structure CommandFrame (F : Frame World) : Prop where
  requests : ∀ w requests, F.rel w { w with requests := requests }
  newObject : ∀ w, F.rel w { w with objectCount := w.objectCount + 1 }
  setOptions : ∀ w h answer,
    F.rel w (w.setHost h fun host => { host with drbdmetaUuidOptions := some answer })
  setPool : ∀ w h pool, F.rel w (w.setHost h fun host => { host with storagePool := pool })
  setFlag : ∀ w n value, F.rel w (w.setFlag n value)

theorem CommandFrame.devices {F : Frame World} (hF : CommandFrame F) : DeviceFrame F where
  request w _ _ _ := hF.requests w _
  newObject := hF.newObject
  setOptions := hF.setOptions

namespace DeviceFrame

variable {F : Frame World} (hF : DeviceFrame F)

include hF

theorem runWith (catching : Bool) (host : HostId) (cmd : List String) (stdin : Option String)
    {effect : Effect} (h : ∀ n, effect ≠ .upload n) :
    F.Holds (Host.runWith catching host cmd stdin effect) :=
  holds_runWith fun w ok => hF.request w (.command host cmd stdin effect) ok h

theorem act (host : HostId) (cmd : List String) (stdin : Option String) {effect : Effect}
    (h : ∀ n, effect ≠ .upload n) : F.Holds (Host.act host cmd stdin effect) :=
  Frame.holds_bind (hF.runWith false host cmd stdin h) fun _ => Frame.holds_pure _

theorem run (host : HostId) (cmd : List String) : F.Holds (Host.run host cmd) :=
  hF.runWith false host cmd none (by simp)

end DeviceFrame

namespace NodeFrame

variable {F : Frame World} {n : NodeId} (hF : NodeFrame F n)

include hF

theorem runWith (updateConfig catching : Bool) (cmd : List String) :
    F.Holds (Node.runWith updateConfig catching n cmd) := by
  unfold Node.runWith
  refine Frame.holds_bind (Frame.holds_when fun _ => hF.updateConfig) fun _ => ?_
  exact Frame.holds_bind Frame.holds_get fun w => hF.toDeviceFrame.runWith catching _ cmd none (by simp)

theorem drbdadm (cmd : List String) : F.Holds (Node.drbdadm n cmd) :=
  Frame.holds_bind Frame.holds_get fun _ => hF.runWith true false _

end NodeFrame

namespace CommandFrame

variable {F : Frame World} (hF : CommandFrame F)

include hF

theorem of_asking {α : Type} {m : Py α} (h : asking.Holds m) : F.Holds m :=
  h.mono fun w w' hw => by
    rw [hw.1]
    exact hF.requests w w'.requests

theorem runWith (catching : Bool) (host : HostId) (cmd : List String) (stdin : Option String)
    (effect : Effect) : F.Holds (Host.runWith catching host cmd stdin effect) :=
  holds_runWith fun w _ => hF.requests w _

theorem updateConfig (n : NodeId) : F.Holds (Node.updateConfig n) := by
  unfold Node.updateConfig
  refine Frame.holds_bind Frame.holds_get fun w => Frame.holds_when fun _ => ?_
  refine Frame.holds_bind (Frame.holds_modify fun w => hF.setFlag w n false) fun _ => ?_
  refine Frame.holds_bind (holds_liftExcept _) fun config => ?_
  exact Frame.holds_bind (hF.runWith _ _ _ _ _) fun _ => Frame.holds_pure _

theorem pools : PoolFrame F where
  toDeviceFrame := hF.devices
  setPool := hF.setPool

theorem node (n : NodeId) : NodeFrame F n where
  toPoolFrame := hF.pools
  updateConfig := hF.updateConfig n

end CommandFrame

theorem keepingGraph_of_unchanging {α : Type} {m : Py α} (h : unchanging.Holds m) :
    keepingGraph.Holds m :=
  h.mono fun _ _ hw => by
    have hg := congrArg (fun p => World.graph p.1) hw
    exact hg

theorem uploaded_request (w : World) (r : Request) (ok : Bool) (h : ∀ n, r.effect ≠ .upload n) :
    World.uploaded { w with requests := (r, ok) :: w.requests } = w.uploaded := by
  funext n
  unfold World.uploaded World.record
  by_cases hr : ok ∧ r.effect ≠ .none
  · rw [List.filter_cons_of_pos (by simpa using hr), List.map_cons, List.findSome?_cons]
    cases r with
    | events nodes pattern => rfl
    | command host argv stdin effect =>
      cases effect with
      | upload m => exact absurd rfl (h m)
      | none | createPool | removePool | create | remove => rfl
  · rw [List.filter_cons_of_neg (by simpa using hr)]

theorem graph_setHost {w : World} {h : HostId} {f : Host → Host}
    (hf : ∀ host, { f host with minors := 0, storagePool := none, drbdmetaUuidOptions := none } =
      { host with minors := 0, storagePool := none, drbdmetaUuidOptions := none }) :
    (w.setHost h f).graph = w.graph := by
  unfold World.graph
  congr 1
  funext k
  rw [World.setHost_host]
  split
  · subst k
    exact hf _
  · rfl

theorem unchanging_setHost {w : World} {h : HostId} {f : Host → Host}
    (hf : ∀ host, { f host with minors := 0, drbdmetaUuidOptions := none } =
      { host with minors := 0, drbdmetaUuidOptions := none }) :
    unchanging.rel w (w.setHost h f) := by
  refine Prod.ext ?_ rfl
  change World.still _ = World.still w
  unfold World.still
  congr 1
  funext k
  rw [World.setHost_host]
  split
  · subst k
    exact hf _
  · rfl

theorem unchanging_devices : DeviceFrame unchanging where
  request w r ok h := Prod.ext rfl (uploaded_request w r ok h)
  newObject _ := rfl
  setOptions _ _ _ := unchanging_setHost fun _ => rfl

theorem keepingGraph_commands : CommandFrame keepingGraph where
  requests _ _ := rfl
  newObject _ := rfl
  setOptions _ _ _ := graph_setHost fun _ => rfl
  setPool _ _ _ := graph_setHost fun _ => rfl
  setFlag := graph_setFlag

/-! ## Commands without an effect -/

theorem unchanging_of_asking {α : Type} {m : Py α} (h : asking.Holds m) : unchanging.Holds m :=
  h.mono fun w w' hw => by
    have hstill := congrArg World.still hw.1
    have hup : w'.uploaded = w.uploaded := by
      funext n
      rw [World.uploaded, hw.2, World.uploaded]
    exact Prod.ext hstill hup

theorem asking_request {r : Request} (h : r.effect = .none) : asking.Holds (request r) := by
  intro w
  rw [exec_request]
  exact ⟨rfl, by simp [World.record, h]⟩

theorem asking_runWith (catching : Bool) (host : HostId) (cmd : List String)
    (stdin : Option String) : asking.Holds (Host.runWith catching host cmd stdin .none) := by
  refine Frame.holds_bind (asking_request rfl) fun reply => ?_
  exact Frame.holds_ite (fun _ => Frame.holds_throw _) fun _ => Frame.holds_pure _

theorem asking_run (host : HostId) (cmd : List String) : asking.Holds (Host.run host cmd) :=
  asking_runWith false host cmd none

theorem asking_act (host : HostId) (cmd : List String) (stdin : Option String) :
    asking.Holds (Host.act host cmd stdin .none) :=
  Frame.holds_bind (asking_runWith false host cmd stdin) fun _ => Frame.holds_pure _

theorem asking_runHelper (host : HostId) (helperName : String) (args : List String) :
    asking.Holds (Host.runHelper host helperName args) :=
  Frame.holds_bind Frame.holds_get fun _ =>
    Frame.holds_bind (asking_runWith false host _ _) fun _ => asking_run host _

theorem asking_event (nodes : List NodeId) (pattern : String) :
    asking.Holds (Nodes.event nodes pattern) := by
  unfold Nodes.event
  refine Frame.holds_ite (fun _ => Frame.holds_pure _) fun _ => ?_
  refine Frame.holds_bind (asking_request rfl) fun reply => ?_
  exact Frame.holds_ite (fun _ => Frame.holds_throw _) fun _ => Frame.holds_pure _

end DrbdTests
