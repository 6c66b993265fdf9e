import DrbdTests.Cluster.Mesh

/-!
# The config files that are included

The global config of a host includes every file of the config directory whose name begins
with the name of the job. `update_config` writes such a file, and the name of the resource is
part of the name of the file. Nothing removes a file.

`writer` is the node whose config a file holds, and `FilesNamed` says that an included file is
where that node would store its config now. Only `rename` moves the place of a node. It first
runs a command on the members, which writes the configs that have changed, under the old
name; `Op.MovesNoFile` is the condition under which no file is left behind.
-/

namespace DrbdTests

open Stateful Runs

/-! ## Files -/

/-- A file on a host. -/
abbrev HostFile := HostId × String

/-- The file that a request of `update_config` writes, and the node whose config it is. -/
def Request.configFile : Request → Option (HostFile × NodeId)
  | .command host ["bash", "-c", text] _ (.upload n) =>
    (Text.afterPrefix "cat > ".toList text.toList).map fun path => ((host, String.ofList path), n)
  | _ => none

namespace World

/-- The files written by `update_config`, the latest first. -/
def configFiles (w : World) : List (HostFile × NodeId) := w.record.filterMap Request.configFile

/-- The node whose config is in a file. -/
def writer (w : World) (file : HostFile) : Option NodeId := w.configFiles.lookup file

/-- `include "<drbd_config_dir>/<job>*"` matches the file. -/
def includes (w : World) (file : HostFile) : Bool :=
  (Text.afterPrefix ((w.host file.1).drbdConfigDir ++ "/" ++ w.job).toList file.2.toList).any
    fun rest => '/' ∉ rest

/-- Where `update_config` stores the config of a node. -/
def place (w : World) (n : NodeId) : HostFile := ((w.node n).host, Node.drbdConfigFilePath w n)

end World

/-- Each included file that `update_config` wrote is the config file of a resource under its
current name. -/
def FilesNamed (w : World) : Prop :=
  ∀ file n, w.writer file = some n → w.includes file = true → file = w.place n

/-- No host includes two files with configs of one resource. -/
def DescribedOnce (w : World) : Prop :=
  ∀ host path path' n n', w.writer (host, path) = some n → w.writer (host, path') = some n' →
    w.includes (host, path) = true → w.includes (host, path') = true →
    (w.node n).resource = (w.node n').resource → path = path'

variable {w₀ w w' : World} {n m : NodeId} {r : ResourceId} {S : NodeId → Prop}

/-- The path of a config file is decided by the host and the resource. -/
theorem place_congr (hhost : (w.node n).host = (w.node m).host)
    (hresource : (w.node n).resource = (w.node m).resource) : w.place n = w.place m := by
  simp only [World.place, Node.drbdConfigFilePath, hhost, hresource]

theorem FilesNamed.describedOnce (h : FilesNamed w) : DescribedOnce w := by
  intro host path path' n n' hn hn' hinc hinc' hresource
  have hfile := h (host, path) n hn hinc
  have hfile' := h (host, path') n' hn' hinc'
  have hhost : (w.node n).host = (w.node n').host := by
    rw [show (w.node n).host = host from (congrArg Prod.fst hfile).symm]
    exact congrArg Prod.fst hfile'
  have hplace := place_congr hhost hresource
  rw [← hfile, ← hfile'] at hplace
  exact congrArg Prod.snd hplace

/-! ## Requests -/

theorem configFile_of_effect {request : Request} (h : ∀ n, request.effect ≠ .upload n) :
    request.configFile = none := by
  unfold Request.configFile
  split
  · exact absurd rfl (h _)
  · rfl

theorem configFile_upload (host : HostId) (path : String) (stdin : Option String) (n : NodeId) :
    (Request.command host ["bash", "-c", "cat > " ++ path] stdin (.upload n)).configFile =
      some ((host, path), n) := by
  simp only [Request.configFile, String.toList_append, Text.afterPrefix_append, Option.map_some,
    String.ofList_toList]

theorem configFiles_request (w : World) {request : Request} (ok : Bool)
    (h : ∀ n, request.effect ≠ .upload n) :
    World.configFiles { w with requests := (request, ok) :: w.requests } = w.configFiles := by
  unfold World.configFiles World.record
  rw [List.filter_cons]
  split
  · rw [List.map_cons, List.filterMap_cons_none (configFile_of_effect h)]
  · rfl

/-- A command that failed has written nothing. -/
theorem configFiles_upload (w : World) (host : HostId) (path : String) (stdin : Option String)
    (n : NodeId) (ok : Bool) :
    World.configFiles { w with
      requests := (.command host ["bash", "-c", "cat > " ++ path] stdin (.upload n), ok) :: w.requests } =
      if ok then ((host, path), n) :: w.configFiles else w.configFiles := by
  unfold World.configFiles World.record
  cases ok with
  | false => rfl
  | true =>
    rw [List.filter_cons_of_pos (by simp [Request.effect]), List.map_cons,
      List.filterMap_cons_some (configFile_upload host path stdin n)]
    rfl

/-! ## What the place of a file depends on -/

structure Naming where
  job : String
  configDir : HostId → String
  host : NodeId → HostId
  resource : NodeId → ResourceId
  name : ResourceId → String

def World.naming (w : World) : Naming where
  job := w.job
  configDir h := (w.host h).drbdConfigDir
  host n := (w.node n).host
  resource n := (w.node n).resource
  name r := (w.resource r).name

section Naming

variable (h : w'.naming = w.naming)

include h

theorem naming_configDir (k : HostId) : (w'.host k).drbdConfigDir = (w.host k).drbdConfigDir :=
  congrFun (congrArg Naming.configDir h) k

theorem naming_host (n : NodeId) : (w'.node n).host = (w.node n).host :=
  congrFun (congrArg Naming.host h) n

theorem naming_resource (n : NodeId) : (w'.node n).resource = (w.node n).resource :=
  congrFun (congrArg Naming.resource h) n

theorem naming_name (r : ResourceId) : (w'.resource r).name = (w.resource r).name :=
  congrFun (congrArg Naming.name h) r

theorem naming_job : w'.job = w.job := congrArg Naming.job h

theorem place_of_naming (n : NodeId) : w'.place n = w.place n := by
  simp only [World.place, Node.drbdConfigFilePath, naming_configDir h, naming_host h,
    naming_resource h, naming_name h, naming_job h]

theorem includes_of_naming (file : HostFile) : w'.includes file = w.includes file := by
  simp only [World.includes, naming_configDir h, naming_job h]

end Naming

theorem naming_of_graph (h : w'.graph = w.graph) : w'.naming = w.naming := by
  have hjob : w'.job = w.job := by
    have hg := congrArg World.job h
    exact hg
  have hdir : ∀ k, (w'.host k).drbdConfigDir = (w.host k).drbdConfigDir := by
    intro k
    have hg := congrArg Host.drbdConfigDir (congrFun (congrArg World.host h) k)
    exact hg
  simp only [World.naming, hjob, hdir, graph_nodeHost h, graph_nodeResource h, graph_resource h]

theorem naming_setNode {f : Node → Node} (hhost : ∀ node, (f node).host = node.host)
    (hresource : ∀ node, (f node).resource = node.resource) :
    (w.setNode n f).naming = w.naming := by
  unfold World.naming
  congr 1 <;> funext m <;> rw [World.setNode_node] <;> split <;> simp [*]

theorem naming_setHost {h : HostId} {f : Host → Host}
    (hdir : ∀ host, (f host).drbdConfigDir = host.drbdConfigDir) :
    (w.setHost h f).naming = w.naming := by
  unfold World.naming
  congr 1
  funext k
  rw [World.setHost_host]
  split
  · rw [hdir, ‹k = h›]
  · rfl

theorem naming_setResource {f : Resource → Resource}
    (hname : ∀ resource, (f resource).name = resource.name) :
    (w.setResource r f).naming = w.naming := by
  unfold World.naming
  congr 1
  funext s
  rw [World.setResource_resource]
  split
  · rw [hname, ‹s = r›]
  · rfl

/-! ## Commands -/

/-- Commands on the nodes of a set: a node whose flag was set may have stored its config. -/
def updating (S : NodeId → Prop) : Frame World where
  rel w w' := w'.graph = w.graph ∧
    (∀ n, (w'.node n).configChanged = true → (w.node n).configChanged = true) ∧
    ∃ written, w'.configFiles = written ++ w.configFiles ∧
      ∀ e ∈ written, S e.2 ∧ (w.node e.2).configChanged = true ∧ e.1 = w.place e.2
  refl w := ⟨rfl, fun _ h => h, [], rfl, by simp⟩
  trans := by
    rintro a b c ⟨hg, hflag, written, hfiles, hwritten⟩ ⟨hg', hflag', written', hfiles', hwritten'⟩
    refine ⟨hg'.trans hg, fun n h => hflag n (hflag' n h), written' ++ written, ?_, ?_⟩
    · rw [hfiles', hfiles, List.append_assoc]
    · intro e he
      rcases List.mem_append.mp he with he | he
      · obtain ⟨hS, hchanged, hplace⟩ := hwritten' e he
        exact ⟨hS, hflag _ hchanged, hplace.trans (place_of_naming (naming_of_graph hg) _)⟩
      · exact hwritten e he

/-- Any calls that do not move files: the configs of some nodes may have been stored. -/
def storing (S : NodeId → Prop) : Frame World where
  rel w w' := w'.naming = w.naming ∧ ∃ written, w'.configFiles = written ++ w.configFiles ∧
    ∀ e ∈ written, S e.2 ∧ e.1 = w.place e.2
  refl w := ⟨rfl, [], rfl, by simp⟩
  trans := by
    rintro a b c ⟨hnaming, written, hfiles, hwritten⟩ ⟨hnaming', written', hfiles', hwritten'⟩
    refine ⟨hnaming'.trans hnaming, written' ++ written, ?_, ?_⟩
    · rw [hfiles', hfiles, List.append_assoc]
    · intro e he
      rcases List.mem_append.mp he with he | he
      · obtain ⟨hS, hplace⟩ := hwritten' e he
        exact ⟨hS, hplace.trans (place_of_naming hnaming _)⟩
      · exact hwritten e he

theorem storing_of_updating (h : (updating S).rel w w') : (storing S).rel w w' := by
  obtain ⟨hg, -, written, hfiles, hwritten⟩ := h
  exact ⟨naming_of_graph hg, written, hfiles, fun e he => ⟨(hwritten e he).1, (hwritten e he).2.2⟩⟩

/-- Changes that touch neither files nor flags. -/
theorem updating_of_files (hg : w'.graph = w.graph) (hnode : w'.node = w.node)
    (hfiles : w'.configFiles = w.configFiles) : (updating S).rel w w' :=
  ⟨hg, fun n h => hnode ▸ h, [], hfiles, by simp⟩

theorem storing_of_files (hnaming : w'.naming = w.naming)
    (hfiles : w'.configFiles = w.configFiles) : (storing S).rel w w' :=
  ⟨hnaming, [], hfiles, by simp⟩

theorem updating_pools : PoolFrame (updating S) where
  request w _ ok h := updating_of_files rfl rfl (configFiles_request w ok h)
  newObject _ := updating_of_files rfl rfl rfl
  setOptions _ _ _ := updating_of_files (graph_setHost fun _ => rfl) rfl rfl
  setPool _ _ _ := updating_of_files (graph_setHost fun _ => rfl) rfl rfl

theorem updating_setFlag (w : World) (n : NodeId) : (updating S).rel w (w.setFlag n false) := by
  refine ⟨graph_setFlag w n false, fun m hm => ?_, [], rfl, by simp⟩
  rw [World.setFlag, World.setNode_node] at hm
  split at hm
  · cases hm
  · exact hm

/-- The config is stored where the node stores its config. -/
theorem updating_updateConfig (hn : S n) : (updating S).Holds (Node.updateConfig n) := by
  intro w
  rcases updateConfig_cases n w with ⟨-, hexec⟩ | ⟨-, e, hexec⟩ | ⟨hflag, config, ok, -, hexec⟩
  · rw [hexec]
    exact (updating S).refl w
  · rw [hexec]
    exact updating_setFlag w n
  · rw [hexec]
    obtain ⟨hg, hflags, -⟩ := updating_setFlag (S := S) w n
    refine ⟨hg, hflags, if ok then [(w.place n, n)] else [], ?_, ?_⟩
    · refine (configFiles_upload (w.setFlag n false) _ _ _ n ok).trans ?_
      cases ok with
      | false => rfl
      | true => rfl
    · intro e he
      cases ok with
      | false => cases he
      | true =>
        obtain rfl := List.mem_singleton.mp he
        exact ⟨hn, hflag, rfl⟩

theorem updating_node (hn : S n) : NodeFrame (updating S) n where
  toPoolFrame := updating_pools
  updateConfig := updating_updateConfig hn

theorem configFiles_of_record (h : w'.record = w.record) : w'.configFiles = w.configFiles := by
  rw [World.configFiles, h, World.configFiles]

theorem updating_of_asking (h : asking.rel w w') : (updating S).rel w w' := by
  have hnode : w'.node = w.node := by
    rw [h.1]
  exact updating_of_files (graph_of_asking h) hnode (configFiles_of_record h.2)

/-! ## Calls that move no file -/

theorem storing_pools : PoolFrame (storing S) where
  request w _ ok h := storing_of_updating (updating_pools.request w _ ok h)
  newObject w := storing_of_updating (updating_pools.newObject w)
  setOptions w h answer := storing_of_updating (updating_pools.setOptions w h answer)
  setPool w h pool := storing_of_updating (updating_pools.setPool w h pool)

theorem storing_attributes : AttributeFrame (storing S) where
  toPoolFrame := storing_pools
  asking _ _ h := storing_of_updating (updating_of_asking h)
  setFlag w n value := storing_of_files (naming_of_graph (graph_setFlag w n value)) rfl
  setInfo _ _ _ := storing_of_files (naming_setHost fun _ => rfl) rfl
  setResource _ _ _ _ hname := storing_of_files (naming_setResource hname) rfl
  setFencing _ _ _ := storing_of_files (naming_setNode (fun _ => rfl) fun _ => rfl) rfl

theorem storing_disks : DiskFrame (storing S) S where
  toAttributeFrame := storing_attributes
  node n hn :=
    { toPoolFrame := storing_pools
      updateConfig := (updating_updateConfig hn).mono fun _ _ => storing_of_updating }
  nextMinor h := by
    refine Frame.holds_bind (Frame.holds_modify fun w => ?_) fun _ => ?_
    · exact storing_of_files (naming_setHost fun _ => rfl) rfl
    · exact Frame.holds_bind Frame.holds_get fun w => Frame.holds_pure _
  setDisks w n f hf := by
    refine storing_of_files (naming_setNode (fun node => ?_) fun node => ?_) rfl
    · have hhost := congrArg Node.host (hf node)
      exact hhost
    · have hresource := congrArg Node.resource (hf node)
      exact hresource

/-- The calls that neither make nor rename a resource. -/
def Op.KeepsNames : Op → Prop
  | .createResource _ | .rename _ _ => False
  | _ => True

theorem storing_touched {nodes : OrderedSet NodeId} (touched : List NodeId) : (storing S).rel w
    ((w.setResource r fun resource => { resource with nodes := nodes }).touch touched) := by
  refine (storing S).trans ?_ (storing_attributes.touch _ touched)
  exact storing_of_files (naming_setResource fun _ => rfl) rfl

theorem storing_attempt {op : Op} (h : op.KeepsNames) (hstep : op.Attempt w w') :
    (storing (· ∈ op.runsOn w)).rel w w' := by
  rw [hstep.2]
  have hattributes : op.SetsAttributes → (storing (· ∈ op.runsOn w)).rel w (exec op.exec w).2 :=
    fun hop => storing_attributes.exec hop w
  cases op with
  | addDisk | nodeAddDisk | removeDisks | removeStoragePool | setTiebreaker =>
    exact storing_disks.exec trivial fun _ hn => hn
  | createStoragePool | nextVolume | setNetOptions | setDiskOptions | setResourceOptions
  | setHandlers | setFencingMode | installDrbd => exact hattributes trivial
  | run n updateConfig catching cmd =>
    have hrun := (storing_disks.node n (List.mem_singleton_self n)).runWith updateConfig catching cmd
    exact Frame.holds_bind hrun (fun _ => Frame.holds_pure _) w
  | addNode r n =>
    rcases addNode_cases r n w with ⟨e, hexec⟩ | ⟨w₁, rfl, hr⟩
    · rw [Op.exec, hexec]
      exact (storing _).refl w
    · rw [Op.exec, show exec (Resource.addNode r n) w = _ from hr]
      exact storing_touched _
  | removeNode r n =>
    rcases removeNode_cases r n w with ⟨e, hexec⟩ | ⟨w₁, rfl, hr⟩
    · rw [Op.exec, hexec]
      exact (storing _).refl w
    · rw [Op.exec, show exec (Resource.removeNode r n) w = _ from hr]
      exact storing_touched _
  | createResource | rename => cases h

/-! ## Files keep their places -/

/-- A file holds what it held before, or the config of one of the nodes. -/
theorem writer_cases (h : (storing S).rel w w') (file : HostFile) :
    w'.writer file = w.writer file ∨ ∃ n, S n ∧ w'.writer file = some n ∧ file = w.place n := by
  obtain ⟨-, written, hfiles, hwritten⟩ := h
  rw [World.writer, World.writer, hfiles, List.lookup_append]
  rcases hlookup : written.lookup file with _ | n
  · exact .inl rfl
  · obtain ⟨before, after, hsplit, -⟩ := List.lookup_eq_some_iff.mp hlookup
    obtain ⟨hS, hplace⟩ := hwritten (file, n) (by simp [hsplit])
    exact .inr ⟨n, hS, rfl, hplace⟩

theorem FilesNamed.storing (h : FilesNamed w) (hs : (storing S).rel w w') : FilesNamed w' := by
  intro file n hwriter hincludes
  rw [place_of_naming hs.1]
  rw [includes_of_naming hs.1] at hincludes
  rcases writer_cases hs file with hsame | ⟨m, -, hm, hplace⟩
  · exact h file n (hsame ▸ hwriter) hincludes
  · rw [hm] at hwriter
    rw [← Option.some.inj hwriter]
    exact hplace

/-! ## `create_resource` -/

/-- The names of directories. -/
def keepingDirs : Frame World := Frame.fixing fun w => (w.job, fun h => (w.host h).drbdConfigDir)

theorem keepingDirs_of_naming (h : w'.naming = w.naming) : keepingDirs.rel w w' :=
  Prod.ext (naming_job h) (funext (naming_configDir h))

theorem keepingDirs_nodeInit (h : HostId) (r : ResourceId) (port : Port) :
    keepingDirs.Holds (Node.init h r port) := by
  intro w
  cases hadd : w.acceptsNew h r port with
  | false =>
    rw [nodeInit_rejected hadd]
    rfl
  | true =>
    have hnew : keepingDirs.rel w (w.addNewNode r (w.freshNode h r port)) := rfl
    refine keepingDirs.trans hnew (keepingDirs_of_naming ?_)
    exact naming_of_graph (graph_of_asking (nodeInit_accepted hadd))

theorem keepingDirs_nextPort (h : HostId) : keepingDirs.Holds (Host.nextPort h) := by
  refine Frame.holds_bind Frame.holds_get fun w => ?_
  refine Frame.holds_bind (Frame.holds_modify fun w => ?_) fun _ => Frame.holds_pure _
  exact keepingDirs_of_naming (naming_setHost fun _ => rfl)

theorem keepingDirs_addConnection (node0 node1 : NodeId) :
    keepingDirs.Holds (Node.addConnection node0 node1) := by
  refine Frame.holds_bind Frame.holds_get fun w => ?_
  refine Frame.holds_bind (Frame.holds_when fun _ => Frame.holds_throw _) fun _ => ?_
  refine Frame.holds_bind (holds_liftExcept _) fun connections => ?_
  exact Frame.holds_modify fun w => rfl

theorem keepingDirs_createResource (name : Option String) :
    keepingDirs.Holds (Cluster.createResource name) := by
  have hinit : keepingDirs.Holds (Resource.init name) := fun w => rfl
  refine Frame.holds_bind hinit fun r => Frame.holds_bind Frame.holds_get fun w => ?_
  refine Frame.holds_bind (Frame.holds_forM _ fun h _ => ?_) fun _ => ?_
  · refine Frame.holds_bind (keepingDirs_nextPort h) fun port => ?_
    exact Frame.holds_bind (keepingDirs_nodeInit h r port) fun _ => Frame.holds_pure _
  · refine Frame.holds_bind Frame.holds_get fun w => ?_
    refine Frame.holds_bind (Frame.holds_forM _ fun node0 _ => Frame.holds_forM _ fun node1 _ => ?_) ?_
    · exact Frame.holds_when fun _ => keepingDirs_addConnection node0 node1
    · intro _
      exact Frame.holds_bind (Frame.holds_modify fun w => rfl) fun _ => Frame.holds_pure _

/-- The nodes whose configs are in files exist. -/
def WritersExist (w : World) : Prop := ∀ file n, w.writer file = some n → n < w.nodeCount

/-- A new resource has nothing in a file, and the nodes of the others stay where they are. -/
theorem Building.place (hB : Building w w') (hdirs : keepingDirs.rel w w') (hw : WellFormed w)
    (hn : n < w.nodeCount) : w'.place n = w.place n := by
  have hdir : ∀ k, (w'.host k).drbdConfigDir = (w.host k).drbdConfigDir :=
    congrFun (congrArg Prod.snd hdirs)
  have hresource := hB.resource _ (Nat.ne_of_lt (hw.nodeResource_lt n hn))
  simp only [World.place, Node.drbdConfigFilePath, hB.node n hn, hdir, hresource,
    show w'.job = w.job from congrArg Prod.fst hdirs]

theorem includes_of_dirs (h : keepingDirs.rel w w') (file : HostFile) :
    w'.includes file = w.includes file := by
  have hdir : ∀ k, (w'.host k).drbdConfigDir = (w.host k).drbdConfigDir :=
    congrFun (congrArg Prod.snd h)
  simp only [World.includes, hdir, show w'.job = w.job from congrArg Prod.fst h]

theorem writer_of_record (h : w'.record = w.record) (file : HostFile) :
    w'.writer file = w.writer file := by
  rw [World.writer, configFiles_of_record h, World.writer]

theorem FilesNamed.building (h : FilesNamed w) (hB : Building w w')
    (hdirs : keepingDirs.rel w w') (hw : WellFormed w) (hexist : WritersExist w) :
    FilesNamed w' := by
  intro file n hwriter hincludes
  rw [writer_of_record hB.record] at hwriter
  rw [includes_of_dirs hdirs] at hincludes
  rw [hB.place hdirs hw (hexist file n hwriter)]
  exact h file n hwriter hincludes

theorem WritersExist.building (h : WritersExist w) (hB : Building w w') : WritersExist w' := by
  intro file n hwriter
  rw [writer_of_record hB.record] at hwriter
  exact Nat.lt_of_lt_of_le (h file n hwriter) hB.nodeCount_le

/-! ## `rename` -/

/-- The name of a resource is changed. -/
def World.setName (w : World) (r : ResourceId) (newName : String) : World :=
  w.setResource r fun resource => { resource with name := newName }

/-- `rename` either raises before it changes the name, or the members have run the command
and the name is changed. -/
theorem rename_cases (r : ResourceId) (newName : String) (w : World) :
    (∃ e w₁, exec (Resource.rename r newName) w = (.error e, w₁) ∧
      (updating (· ∈ w.members r)).rel w w₁) ∨
    ∃ w₁ w₂, Returns ((w.members r).forM fun n => do
        let _ ← Node.run n ["drbdsetup", "rename-resource", (w.resource r).name, newName]) w ⟨⟩ w₁ ∧
      asking.rel w₁ w₂ ∧ (updating (· ∈ w.members r)).rel w w₂ ∧
      Returns (Resource.rename r newName) w ⟨⟩
        ((w₂.setName r newName).touch ((w₂.setName r newName).members r)) := by
  have hruns : (updating (· ∈ w.members r)).Holds ((w.members r).forM fun n => do
      let _ ← Node.run n ["drbdsetup", "rename-resource", (w.resource r).name, newName]) :=
    Frame.holds_forM _ fun n hn =>
      Frame.holds_bind ((updating_node hn).runWith true false _) fun _ => Frame.holds_pure _
  have hloop := hruns w
  unfold Resource.rename
  rw [exec_get_bind]
  rcases h₁ : exec ((w.members r).forM fun n => do
      let _ ← Node.run n ["drbdsetup", "rename-resource", (w.resource r).name, newName]) w
    with ⟨e | ⟨⟩, w₁⟩
  · rw [h₁] at hloop
    exact .inl ⟨e, w₁, exec_bind_of_error h₁, hloop⟩
  rw [h₁] at hloop
  have hevent := asking_event (w.members r)
    ("rename resource name:" ++ (w.resource r).name ++ " new_name:" ++ newName) w₁
  rw [exec_bind_of_ok h₁]
  rcases h₂ : exec (Nodes.event (w.members r)
      ("rename resource name:" ++ (w.resource r).name ++ " new_name:" ++ newName)) w₁
    with ⟨e | ⟨⟩, w₂⟩
  · rw [h₂] at hevent
    refine .inl ⟨e, w₂, exec_bind_of_error h₂, (updating _).trans hloop ?_⟩
    exact updating_of_asking hevent
  · rw [h₂] at hevent
    refine .inr ⟨w₁, w₂, h₁, hevent, (updating _).trans hloop (updating_of_asking hevent), ?_⟩
    rw [Returns, exec_get_bind, exec_bind_of_ok h₁, exec_bind_of_ok h₂]
    rfl

theorem configFiles_touch (w : World) (nodes : List NodeId) :
    (w.touch nodes).configFiles = w.configFiles := by
  unfold World.touch
  induction nodes generalizing w with
  | nil => rfl
  | cons n nodes ih =>
    rw [List.foldl_cons, ih]
    rfl

theorem writer_touch (w : World) (nodes : List NodeId) (file : HostFile) :
    (w.touch nodes).writer file = w.writer file := by
  rw [World.writer, configFiles_touch, World.writer]

theorem place_setName (w : World) (r : ResourceId) (newName : String) (n : NodeId) :
    (w.setName r newName).place n =
      if (w.node n).resource = r then
        ((w.node n).host, (w.host (w.node n).host).drbdConfigDir ++ "/" ++ w.job ++ "-" ++ newName
          ++ ".res")
      else w.place n := by
  unfold World.place Node.drbdConfigFilePath World.setName
  rw [World.setResource_node, World.setResource_host, World.setResource_resource]
  split
  · rfl
  · rfl

theorem path_inj {dir name name' : String} (h : dir ++ name ++ ".res" = dir ++ name' ++ ".res") :
    name = name' := by
  have hlist := congrArg String.toList h
  simp only [String.toList_append, List.append_assoc, List.append_cancel_left_eq,
    List.append_cancel_right_eq] at hlist
  exact String.toList_inj.mp hlist

/-- A new name leaves the files of the resource behind. -/
theorem filesNamed_setName (h : FilesNamed w) {newName : String} :
    FilesNamed (w.setName r newName) ↔ newName = (w.resource r).name ∨
      ∀ file n, w.writer file = some n → w.includes file = true → (w.node n).resource ≠ r := by
  constructor
  · intro hnew
    by_contra hneither
    push Not at hneither
    obtain ⟨hname, file, n, hwriter, hincludes, hresource⟩ := hneither
    have hold := h file n hwriter hincludes
    have hmoved := hnew file n hwriter hincludes
    rw [place_setName, if_pos hresource] at hmoved
    rw [hold, World.place, Node.drbdConfigFilePath, hresource] at hmoved
    exact hname (path_inj (congrArg Prod.snd hmoved)).symm
  · rintro (hname | hnone) file n hwriter hincludes
    · rw [place_setName]
      split
      · rename_i hresource
        rw [hname, ← hresource]
        exact h file n hwriter hincludes
      · exact h file n hwriter hincludes
    · rw [place_setName, if_neg (hnone file n hwriter hincludes)]
      exact h file n hwriter hincludes

/-- A new name is the old one, or there is no included file for the resource, and no member
will store one. -/
def Op.MovesNoFile (w : World) : Op → Prop
  | .rename r newName => newName = (w.resource r).name ∨
      (∀ file n, w.writer file = some n → w.includes file = true → (w.node n).resource ≠ r) ∧
        ∀ n ∈ w.members r, (w.node n).configChanged = true → w.includes (w.place n) = false
  | _ => True

theorem filesNamed_touch (nodes : List NodeId) : FilesNamed (w.touch nodes) ↔ FilesNamed w := by
  have hnaming := naming_of_graph (graph_touch w nodes)
  unfold FilesNamed
  simp only [writer_touch, includes_of_naming hnaming, place_of_naming hnaming]

/-- What the members store while `rename` runs the command is under the condition not
included. -/
theorem not_written (hu : (updating (· ∈ w.members r)).rel w w')
    (hfiles : ∀ file n, w.writer file = some n → w.includes file = true → (w.node n).resource ≠ r)
    (hmembers : ∀ n ∈ w.members r, (w.node n).configChanged = true →
      w.includes (w.place n) = false) :
    ∀ file n, w'.writer file = some n → w'.includes file = true → (w'.node n).resource ≠ r := by
  obtain ⟨hg, -, written, hconfigs, hwritten⟩ := hu
  intro file n hwriter hincludes
  rw [includes_of_naming (naming_of_graph hg)] at hincludes
  rw [graph_nodeResource hg]
  rw [World.writer, hconfigs, List.lookup_append] at hwriter
  rcases hlookup : written.lookup file with _ | m
  · rw [hlookup] at hwriter
    exact hfiles file n hwriter hincludes
  · obtain ⟨before, after, hsplit, -⟩ := List.lookup_eq_some_iff.mp hlookup
    obtain ⟨hmem, hchanged, hplace⟩ := hwritten (file, m) (by simp [hsplit])
    rw [show file = w.place m from hplace, hmembers m hmem hchanged] at hincludes
    cases hincludes

/-! ## Runs -/

theorem runsOn_lt {op : Op} (href : op.Refers w) (hw : WellFormed w) :
    ∀ n ∈ op.runsOn w, n < w.nodeCount := by
  intro n hn
  cases op with
  | addDisk r args => exact hw.members_lt r href n hn
  | rename r newName => exact hw.members_lt r href n hn
  | nodeAddDisk m number size args => exact List.mem_singleton.mp hn ▸ href
  | run m updateConfig catching cmd => exact List.mem_singleton.mp hn ▸ href
  | createResource | createStoragePool | nextVolume | removeDisks | removeStoragePool
  | setNetOptions | setDiskOptions | setResourceOptions | setHandlers | setFencingMode
  | setTiebreaker | addNode | removeNode | installDrbd => exact absurd hn List.not_mem_nil

/-- `create_resource` makes a resource without files, whether it returns or raises. -/
theorem createResource_building {name : Option String}
    (hstep : (Op.createResource name).Attempt w w') : ∃ w₁ resources, Building w w₁ ∧
      keepingDirs.rel w w₁ ∧ w' = { w₁ with resources := resources } := by
  have hdirs : keepingDirs.rel w w' := by
    rw [hstep.2]
    exact Frame.holds_bind (keepingDirs_createResource name) (fun _ => Frame.holds_pure _) w
  rcases createResource_cases name w with ⟨e, w₁, hexec, hB⟩ | ⟨w₁, hB, -, hr⟩
  · have hw' : w' = w₁ := by
      rw [hstep.2, Op.exec, exec_bind_of_error hexec]
    subst hw'
    exact ⟨w', w'.resources, hB, hdirs, rfl⟩
  · have hw' : w' = { w₁ with resources := w₁.resources ++ [w.resourceCount] } := by
      rw [hstep.2, Op.exec, exec_bind_of_ok hr]
      rfl
    subst hw'
    exact ⟨w₁, _, hB, hdirs, rfl⟩

/-- One call that meets the condition. -/
theorem FilesNamed.attempt {op : Op} (h : FilesNamed w) (hw : WellFormed w)
    (hexist : WritersExist w) (hmoves : op.MovesNoFile w) (hstep : op.Attempt w w') :
    FilesNamed w' := by
  have hkeeps : op.KeepsNames → FilesNamed w' := fun hop => h.storing (storing_attempt hop hstep)
  cases op with
  | createResource name =>
    obtain ⟨w₁, resources, hB, hdirs, rfl⟩ := createResource_building hstep
    have h₁ : FilesNamed w₁ := h.building hB hdirs hw hexist
    exact h₁
  | rename r newName =>
    rcases rename_cases r newName w with ⟨e, w₁, hexec, hu⟩ | ⟨w₁, w₂, -, -, hu, hr⟩
    · rw [hstep.2, Op.exec, hexec]
      exact h.storing (storing_of_updating hu)
    · rw [hstep.2, Op.exec, show exec (Resource.rename r newName) w = _ from hr]
      refine (filesNamed_touch _).mpr ((filesNamed_setName ?_).mpr ?_)
      · exact h.storing (storing_of_updating hu)
      · rcases hmoves with hname | ⟨hfiles, hmembers⟩
        · rw [graph_resource hu.1]
          exact .inl hname
        · exact .inr (not_written hu hfiles hmembers)
  | addDisk | nodeAddDisk | removeDisks | removeStoragePool | setTiebreaker | createStoragePool
  | nextVolume | setNetOptions | setDiskOptions | setResourceOptions | setHandlers
  | setFencingMode | installDrbd | run | addNode | removeNode => exact hkeeps trivial

theorem nodeCount_le_of_meshStep {op : Op} (h : MeshStep w op w') : w.nodeCount ≤ w'.nodeCount := by
  cases h with
  | same hmesh => exact Nat.le_of_eq (congrArg Layout.nodeCount hmesh).symm
  | creating hB => exact hB.nodeCount_le
  | created w₁ hB hC hw₁ =>
    subst hw₁
    exact hB.nodeCount_le
  | addNode r n hop hr hn hmesh | removeNode r n hop hmesh =>
    have hcount := congrArg Layout.nodeCount hmesh
    exact Nat.le_of_eq hcount.symm

theorem WritersExist.storing (h : WritersExist w) (hs : (storing S).rel w w')
    (hS : ∀ n, S n → n < w.nodeCount) (file : HostFile) (hwriter : w'.writer file = some n) :
    n < w.nodeCount := by
  rcases writer_cases hs file with hsame | ⟨m, hm, hwritten, -⟩
  · exact h file n (hsame ▸ hwriter)
  · rw [hwritten] at hwriter
    exact Option.some.inj hwriter ▸ hS m hm

/-- One call, whether it returns or raises. -/
theorem WritersExist.attempt {op : Op} (h : WritersExist w) (hw : WellFormed w)
    (hstep : op.Attempt w w') : WritersExist w' := by
  have hS := runsOn_lt hstep.1 hw
  intro file n hwriter
  refine Nat.lt_of_lt_of_le ?_ (nodeCount_le_of_meshStep (meshStep_of_attempt hstep))
  have hkeeps : op.KeepsNames → n < w.nodeCount := fun hop =>
    h.storing (storing_attempt hop hstep) hS file hwriter
  cases op with
  | createResource name =>
    obtain ⟨w₁, resources, hB, -, rfl⟩ := createResource_building hstep
    have hwriter₁ : w₁.writer file = some n := hwriter
    rw [writer_of_record hB.record] at hwriter₁
    exact h file n hwriter₁
  | rename r newName =>
    rcases rename_cases r newName w with ⟨e, w₁, hexec, hu⟩ | ⟨w₁, w₂, -, -, hu, hr⟩
    · rw [hstep.2, Op.exec, hexec] at hwriter
      exact h.storing (storing_of_updating hu) hS file hwriter
    · rw [hstep.2, Op.exec, show exec (Resource.rename r newName) w = _ from hr, writer_touch]
        at hwriter
      exact h.storing (storing_of_updating hu) hS file hwriter
  | addDisk | nodeAddDisk | removeDisks | removeStoragePool | setTiebreaker | createStoragePool
  | nextVolume | setNetOptions | setDiskOptions | setResourceOptions | setHandlers
  | setFencingMode | installDrbd | run | addNode | removeNode => exact hkeeps trivial

theorem configFiles_of_initial (h : w.Initial) : w.configFiles = [] := by
  rw [World.configFiles, World.record, h.requests_nil]
  rfl

theorem filesNamed_of_initial (h : w.Initial) : FilesNamed w := by
  intro file n hwriter
  rw [World.writer, configFiles_of_initial h] at hwriter
  cases hwriter

theorem writersExist_of_initial (h : w.Initial) : WritersExist w := by
  intro file n hwriter
  rw [World.writer, configFiles_of_initial h] at hwriter
  cases hwriter

/-! ## The condition is exact -/

/-- `update_config` that returns has stored the config if the flag was set. -/
theorem updateConfig_returns {u : PUnit} (h : Returns (Node.updateConfig n) w u w') :
    (w.node n).configChanged = false ∧ w' = w ∨
      w'.node = (w.setFlag n false).node ∧ w'.configFiles = (w.place n, n) :: w.configFiles := by
  rcases updateConfig_cases n w with ⟨hflag, hexec⟩ | ⟨-, e, hexec⟩ | ⟨-, config, ok, hok, hexec⟩
  · rw [Returns, hexec] at h
    cases h
    exact .inl ⟨hflag, rfl⟩
  · rw [Returns, hexec] at h
    cases h
  · rw [show exec (Node.updateConfig n) w = (.ok u, w') from h] at hok hexec
    obtain rfl : ok = true := hok.symm
    subst hexec
    refine .inr ⟨rfl, ?_⟩
    exact configFiles_upload (w.setFlag n false) _ _ _ n true

/-- Where the config of a node whose flag was set, and is no longer set, has been stored, there
is now the config of one of the nodes of the set. -/
def Stored (S : NodeId → Prop) (w w' : World) : Prop :=
  ∀ m, (w.node m).configChanged = true →
    (w'.node m).configChanged = true ∨ ∃ k, S k ∧ w'.writer (w.place m) = some k

theorem run_stores {catching : Bool} {cmd : List String} {out : String} (hn : S n)
    (hr : Returns (Node.runWith true catching n cmd) w out w') :
    (w'.node n).configChanged = false ∧ Stored S w w' := by
  obtain ⟨_, w₁, hupdate, hr⟩ := returns_bind.mp hr
  have hasking := (asking_runWith catching (w₁.node n).host cmd none).rel_of_returns hr
  have hnode : w'.node = w₁.node := by
    rw [hasking.1]
  have hwriter := writer_of_record hasking.2
  rw [hnode]
  rcases updateConfig_returns hupdate with ⟨hflag, rfl⟩ | ⟨hnode₁, hfiles⟩
  · refine ⟨hflag, fun m hm => .inl ?_⟩
    rw [hnode]
    exact hm
  · rw [hnode₁, World.setFlag, World.setNode_node, if_pos rfl]
    refine ⟨rfl, fun m hm => ?_⟩
    by_cases hmn : m = n
    · subst hmn
      refine .inr ⟨m, hn, ?_⟩
      rw [hwriter, World.writer, hfiles, List.lookup_cons_self]
    · refine .inl ?_
      rw [hnode, hnode₁, World.setFlag, World.setNode_node, if_neg hmn]
      exact hm

theorem Stored.trans {a b c : World} (h : Stored S a b) (h' : Stored S b c)
    (hab : (storing S).rel a b) (hbc : (storing S).rel b c) : Stored S a c := by
  intro m hm
  rcases h m hm with hflag | ⟨k, hk, hwriter⟩
  · rw [← place_of_naming hab.1]
    exact h' m hflag
  · rcases writer_cases hbc (a.place m) with hsame | ⟨j, hj, hwriter', -⟩
    · exact .inr ⟨k, hk, hsame.trans hwriter⟩
    · exact .inr ⟨j, hj, hwriter'⟩

/-- When the members have run the command, the changed configs have been stored. -/
theorem members_stored {cmd : List String} {u : PUnit} {nodes : List NodeId}
    (hr : Returns (nodes.forM fun n => do let _ ← Node.run n cmd) w u w') :
    ∀ n ∈ nodes, (w.node n).configChanged = true →
      ∃ k ∈ nodes, w'.writer (w.place n) = some k := by
  have hI : (updating (· ∈ nodes)).rel w w' ∧ Stored (· ∈ nodes) w w' ∧
      ∀ n ∈ nodes, (w'.node n).configChanged = false := by
    refine Returns.forM_invariant (fun done (w' : World) => (updating (· ∈ nodes)).rel w w' ∧
      Stored (· ∈ nodes) w w' ∧ ∀ n ∈ done, (w'.node n).configChanged = false) hr
      ⟨(updating _).refl w, fun _ h => .inl h, by simp⟩ ?_
    rintro pre n post w₁ w₂ hsplit ⟨hu, hstored, hdone⟩ hstep
    obtain ⟨out, hstep⟩ := returns_drop.mp hstep
    have hn : n ∈ nodes := by
      rw [hsplit]
      simp
    have hu₂ : (updating (· ∈ nodes)).rel w₁ w₂ :=
      ((updating_node hn).runWith true false cmd).rel_of_returns hstep
    obtain ⟨hcleared, hstored₂⟩ := run_stores (S := (· ∈ nodes)) hn hstep
    refine ⟨(updating _).trans hu hu₂, ?_, fun m hm => ?_⟩
    · exact hstored.trans hstored₂ (storing_of_updating hu) (storing_of_updating hu₂)
    · rcases List.mem_append.mp hm with hm | hm
      · rw [← Bool.not_eq_true]
        intro hflag
        have hbefore := hu₂.2.1 m hflag
        rw [hdone m hm] at hbefore
        cases hbefore
      · rw [List.mem_singleton.mp hm]
        exact hcleared
  intro n hn hflag
  rcases hI.2.1 n hflag with hstill | hwritten
  · rw [hI.2.2 n hn] at hstill
    cases hstill
  · exact hwritten

/-- A call of `rename` that returns, on a resource whose members are its own nodes. -/
theorem rename_filesNamed_iff {newName : String} {u : PUnit} (h : FilesNamed w)
    (hown : ∀ n ∈ w.members r, (w.node n).resource = r)
    (hr : Returns (Resource.rename r newName) w u w') :
    FilesNamed w' ↔ (Op.rename r newName).MovesNoFile w := by
  rcases rename_cases r newName w with ⟨e, w₁, hexec, -⟩ | ⟨w₁, w₂, hloop, hevent, hu, hr'⟩
  · rw [Returns, hexec] at hr
    cases hr
  obtain rfl := (hr.unique hr').2
  have hs := storing_of_updating hu
  rw [filesNamed_touch, filesNamed_setName (h.storing hs), graph_resource hu.1]
  refine or_congr_right ⟨fun hnone => ?_, fun hmoves => not_written hu hmoves.1 hmoves.2⟩
  have hnone' : ∀ file n, w₂.writer file = some n → w.includes file = true →
      (w.node n).resource ≠ r := by
    intro file n hwriter hincludes
    rw [← naming_resource hs.1]
    refine hnone file n hwriter ?_
    rw [includes_of_naming hs.1]
    exact hincludes
  constructor
  · intro file n hwriter hincludes
    rcases writer_cases hs file with hsame | ⟨m, hm, hwritten, -⟩
    · exact hnone' file n (hsame.trans hwriter) hincludes
    · exact absurd (hown m hm) (hnone' file m hwritten hincludes)
  · intro n hn hflag
    obtain ⟨k, hk, hwriter⟩ := members_stored hloop n hn hflag
    rw [← writer_of_record hevent.2] at hwriter
    rw [← Bool.not_eq_true]
    intro hincludes
    exact hnone' (w.place n) k hwriter hincludes (hown k hk)

instance (op : Op) (w : World) : Decidable (op.MovesNoFile w) :=
  match op with
  | .rename r newName => by
    refine decidable_of_iff (newName = (w.resource r).name ∨
      (∀ e ∈ w.configFiles, w.writer e.1 = some e.2 → w.includes e.1 = true →
        (w.node e.2).resource ≠ r) ∧ ∀ n ∈ w.members r, (w.node n).configChanged = true →
          w.includes (w.place n) = false) ?_
    refine or_congr_right (and_congr_left' ⟨fun h file n hwriter => ?_, fun h e _ => h e.1 e.2⟩)
    obtain ⟨before, after, hsplit, -⟩ := List.lookup_eq_some_iff.mp hwriter
    exact h (file, n) (by simp [hsplit]) hwriter
  | .createResource _ | .createStoragePool _ _ | .addDisk _ _ | .nextVolume _
  | .nodeAddDisk _ _ _ _ | .removeDisks _ | .removeStoragePool _ | .setNetOptions _ _
  | .setDiskOptions _ _ | .setResourceOptions _ _ | .setHandlers _ _ | .setFencingMode _ _
  | .setTiebreaker _ _ _ | .addNode _ _ | .removeNode _ _ | .installDrbd _ _ | .run _ _ _ _ =>
    isTrue trivial

/-- In a run in which `rename` moves no file, whether the calls return or raise, every included
file has the current name of its resource. In runs of calls that return, it is so exactly when
`rename` moves no file. -/
theorem included_files_named_iff {ops : List Op} (h₀ : w₀.Initial) :
    (∀ w, Run (Guarded (fun w (op : Op) => op.MovesNoFile w) fun w op w' => op.Attempt w w')
      w₀ ops w → FilesNamed w ∧ DescribedOnce w) ∧
    (EveryState (fun w (op : Op) w' => op.AddsOwnNode w ∧ op.Step w w') FilesNamed w₀ ops ↔
      EveryStep (fun w (op : Op) w' => op.AddsOwnNode w ∧ op.Step w w')
        (fun w op => op.MovesNoFile w) w₀ ops) := by
  constructor
  · intro w run
    have hI : FilesNamed w ∧ WellFormed w ∧ WritersExist w := by
      refine Run.invariant (I := fun w => FilesNamed w ∧ WellFormed w ∧ WritersExist w) run
        ⟨filesNamed_of_initial h₀, wellFormed_of_initial h₀, writersExist_of_initial h₀⟩ ?_
      rintro w op w' ⟨h, hw, hexist⟩ ⟨hmoves, hstep⟩
      refine ⟨h.attempt hw hexist hmoves hstep, ?_, hexist.attempt hw hstep⟩
      exact hw.step (meshStep_of_attempt hstep)
    exact ⟨hI.1, hI.1.describedOnce⟩
  · refine everyState_iff_everyStep (I := fun w => Meshed w ∧ WritersExist w)
      ⟨meshed_of_initial h₀, writersExist_of_initial h₀⟩ (filesNamed_of_initial h₀) ?_ ?_
    · rintro w op w' ⟨hmeshed, hexist⟩ ⟨hown, hstep⟩
      refine ⟨hmeshed.step hown (meshStep_of_attempt hstep.attempt), ?_⟩
      exact hexist.attempt hmeshed.toWellFormed hstep.attempt
    · rintro w op w' ⟨hmeshed, hexist⟩ h ⟨hown, hstep⟩
      refine ⟨fun h' => ?_, fun hmoves => ?_⟩
      · cases op with
        | rename r newName =>
          exact (rename_filesNamed_iff h (hmeshed.members_own r hstep.1) hstep.2).mp h'
        | createResource | addDisk | nodeAddDisk | removeDisks | removeStoragePool | setTiebreaker
        | createStoragePool | nextVolume | setNetOptions | setDiskOptions | setResourceOptions
        | setHandlers | setFencingMode | installDrbd | run | addNode | removeNode => exact trivial
      · exact h.attempt hmeshed.toWellFormed hexist hmoves hstep.attempt

/-- The resource is renamed before a command has run on its node. -/
def renamedEarlyRun : List Op :=
  [.createResource none, .removeNode 0 0, .rename 0 "xyz", .addNode 0 0,
    .run 0 true false ["drbdadm", "up"]]

theorem included_files_named_early :
    FilesNamed (Op.afterAll (World.plain 1) renamedEarlyRun) ∧
    (Op.afterAll (World.plain 1) renamedEarlyRun).configFiles = [((0, "dir/job-xyz.res"), 0)] := by
  have run : Run (Guarded (fun w (op : Op) => op.MovesNoFile w) fun w op w' => op.Attempt w w')
      (World.plain 1) renamedEarlyRun _ := Op.run_of_allowed (by decide +kernel)
  exact ⟨((included_files_named_iff (plain_initial 1)).1 _ run).1, by decide +kernel⟩

/-- The steps of the test for `rename`. -/
def renamedRun : List Op :=
  [.createResource none, .run 0 true false ["drbdadm", "up"], .rename 0 "xyz",
    .run 0 true false ["drbdadm", "status"]]

/-- The file with the old name is still there. -/
theorem renamed_resource_described_twice :
    Run (fun w (op : Op) w' => op.Step w w') (World.plain 1) renamedRun
      (Op.afterAll (World.plain 1) renamedRun) ∧
    ¬ FilesNamed (Op.afterAll (World.plain 1) renamedRun) ∧
    ¬ DescribedOnce (Op.afterAll (World.plain 1) renamedRun) := by
  have run : Run (Guarded (fun _ _ => True) fun w (op : Op) w' => op.Step w w') (World.plain 1)
      renamedRun _ := Op.run_of_succeeds (by decide +kernel)
  have hold : (Op.afterAll (World.plain 1) renamedRun).writer (0, "dir/job-res.res") = some 0 := by
    decide +kernel
  have hnew : (Op.afterAll (World.plain 1) renamedRun).writer (0, "dir/job-xyz.res") = some 0 := by
    decide +kernel
  have hincludes : (Op.afterAll (World.plain 1) renamedRun).includes (0, "dir/job-res.res") = true ∧
      (Op.afterAll (World.plain 1) renamedRun).includes (0, "dir/job-xyz.res") = true := by
    decide +kernel
  have htwice : ¬ DescribedOnce (Op.afterAll (World.plain 1) renamedRun) := by
    intro h
    have hpath := h 0 _ _ 0 0 hold hnew hincludes.1 hincludes.2 rfl
    exact absurd hpath (by decide)
  exact ⟨run.of_guarded, fun h => htwice h.describedOnce, htwice⟩

end DrbdTests
