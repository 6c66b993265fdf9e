import DrbdTests.Cluster.Creation

/-!
# Volume numbers

The list `disks` of a node is "by volume": `config_host` writes the index of a volume as its
number, and `set_gi` and `get_disk_current_uuid` look volumes up by position. `add_disk`
stores a volume under its number only when the list has that many entries already; a number
beyond the end of the list is appended all the same. `Op.FitsDisks` excludes that case, and
then every volume of every node is at the position of its number.
-/

namespace DrbdTests

open Stateful Runs

/-- Every volume is at the index of its number. -/
def Positioned (disks : List Volume) : Prop :=
  ∀ (i : Nat) (v : Volume), disks[i]? = some v → v.volume = i

/-- The disks of a node after a volume was stored under a number. -/
def storeDisk (disks : List Volume) (number : Nat) (volume : Volume) : List Volume :=
  if number < disks.length then disks.set number volume else disks ++ [volume]

theorem length_storeDisk (disks : List Volume) (number : Nat) (volume : Volume) :
    disks.length ≤ (storeDisk disks number volume).length := by
  unfold storeDisk
  split
  · simp
  · simp

theorem positioned_nil : Positioned [] := by
  intro i v h
  simp at h

theorem Positioned.append_iff {disks : List Volume} (h : Positioned disks) (volume : Volume) :
    Positioned (disks ++ [volume]) ↔ volume.volume = disks.length := by
  constructor
  · intro happ
    exact happ disks.length volume (by simp)
  · intro hv i v hi
    rcases Nat.lt_trichotomy i disks.length with hlt | rfl | hgt
    · rw [List.getElem?_append_left hlt] at hi
      exact h i v hi
    · simp only [List.getElem?_concat_length, Option.some.injEq] at hi
      subst hi
      exact hv
    · have hlen : (disks ++ [volume]).length ≤ i := by
        simp only [List.length_append, List.length_singleton]
        omega
      rw [List.getElem?_eq_none hlen] at hi
      cases hi

theorem Positioned.set {disks : List Volume} (h : Positioned disks) {number : Nat}
    {volume : Volume} (hv : volume.volume = number) : Positioned (disks.set number volume) := by
  intro i v hi
  rw [List.getElem?_set] at hi
  split at hi
  · rename_i heq
    subst heq
    split at hi
    · obtain rfl := Option.some.inj hi
      exact hv
    · cases hi
  · exact h i v hi

/-- Storing a volume keeps the others in place, and puts the new one at its number unless
the number is beyond the end of the list. -/
theorem Positioned.storeDisk_iff {disks : List Volume} (h : Positioned disks) {number : Nat}
    {volume : Volume} (hv : volume.volume = number) :
    Positioned (storeDisk disks number volume) ↔ number ≤ disks.length := by
  unfold storeDisk
  split
  · rename_i hlt
    exact ⟨fun _ => Nat.le_of_lt hlt, fun _ => h.set hv⟩
  · rename_i hge
    rw [h.append_iff, hv]
    omega

theorem Positioned.map {disks : List Volume} (h : Positioned disks) {f : Volume → Volume}
    (hf : ∀ v, (f v).volume = v.volume) : Positioned (disks.map f) := by
  intro i v hi
  rw [List.getElem?_map, Option.map_eq_some_iff] at hi
  obtain ⟨u, hu, rfl⟩ := hi
  rw [hf]
  exact h i u hu

/-! ## One call -/

/-- All nodes have their volumes in place. -/
def Numbered (w : World) : Prop := ∀ n, n < w.nodeCount → Positioned (w.node n).disks

/-- A volume is only added at the end of the list of a node, or in place of another one. -/
def Op.FitsDisks (op : Op) (w : World) : Prop :=
  match op with
  | .nodeAddDisk n number _ _ => number ≤ (w.node n).disks.length
  | .addDisk r _ => ∀ n ∈ w.members r, (w.resource r).numVolumes ≤ (w.node n).disks.length
  | _ => True

instance (op : Op) (w : World) : Decidable (op.FitsDisks w) :=
  match op with
  | .nodeAddDisk _ _ _ _ => inferInstanceAs (Decidable (_ ≤ _))
  | .addDisk r _ => inferInstanceAs (Decidable (∀ n ∈ w.members r, _ ≤ _))
  | .createResource _ | .createStoragePool _ _ | .nextVolume _ | .removeDisks _
  | .removeStoragePool _ | .setNetOptions _ _ | .setDiskOptions _ _
  | .setResourceOptions _ _ | .setHandlers _ _ | .setFencingMode _ _ | .setTiebreaker _ _ _
  | .addNode _ _ | .removeNode _ _ | .rename _ _ | .installDrbd _ _ | .run _ _ _ _ =>
    isTrue trivial

variable {w₀ w w' : World}

theorem numbered_of_initial (h : w.Initial) : Numbered w := by
  intro n hn
  rw [h.nodeCount_zero] at hn
  exact absurd hn (Nat.not_lt_zero n)

theorem Numbered.congr (h : Numbered w) (hl : w'.layout = w.layout) : Numbered w' := by
  have hcount : w'.nodeCount = w.nodeCount := congrArg Layout.nodeCount hl
  have hdisks := congrFun (congrArg Layout.disks hl)
  intro n hn i v hv
  change (w'.layout.disks n)[i]? = some v at hv
  rw [hdisks] at hv
  exact h n (hcount ▸ hn) i v hv

theorem Numbered.setNode (h : Numbered w) {n : NodeId} {f : Node → Node}
    (hf : n < w.nodeCount → Positioned (f (w.node n)).disks) : Numbered (w.setNode n f) := by
  intro m hm
  rw [World.setNode_node]
  split
  · rename_i hmn
    subst hmn
    exact hf hm
  · exact h m hm

theorem Numbered.storeVolume (h : Numbered w) {n : NodeId} {number : Nat} {volume : Volume}
    (hv : volume.volume = number) (hfit : number ≤ (w.node n).disks.length) :
    Numbered (w.storeVolume n number volume) :=
  h.setNode fun hn => ((h n hn).storeDisk_iff hv).mpr hfit

theorem Building.numbered (hB : Building w w') (h : Numbered w) : Numbered w' := by
  intro n hn
  by_cases hold : n < w.nodeCount
  · rw [hB.node n hold]
    exact h n hold
  · rw [(hB.newNode n (Nat.not_lt.mp hold) hn).disks]
    exact positioned_nil

theorem keeping_numbered {α : Type} {m : Py α} (h : keepingLayout.Holds m) :
    (Frame.keeping Numbered).Holds m := h.mono fun _ _ hl hn => hn.congr hl

theorem keeping_removeDisks (n : NodeId) : (Frame.keeping Numbered).Holds (Node.removeDisks n) := by
  refine Frame.holds_bind Frame.holds_get fun w => ?_
  refine Frame.holds_bind (Frame.holds_forM _ fun volume _ => ?_) fun _ => ?_
  · exact keeping_numbered (keepingLayout_of_graph (keepingGraph_commands.devices.volumeRemoveDisks volume))
  · exact Frame.holds_modify fun w h => h.setNode fun _ => positioned_nil

/-- Volumes are numbered, and the lists of these nodes reach up to this number. -/
def NumberedUpTo (nodes : List NodeId) (number : Nat) (w : World) : Prop :=
  Numbered w ∧ ∀ n ∈ nodes, number ≤ (w.node n).disks.length

theorem NumberedUpTo.congr {nodes : List NodeId} {number : Nat} (h : NumberedUpTo nodes number w)
    (hl : w'.layout = w.layout) : NumberedUpTo nodes number w' := by
  refine ⟨h.1.congr hl, fun n hn => ?_⟩
  have hdisks : (w'.node n).disks = (w.node n).disks := congrFun (congrArg Layout.disks hl) n
  rw [hdisks]
  exact h.2 n hn

/-- Adding a volume to one of the nodes leaves no list shorter than it was. -/
theorem keeping_addDisk {nodes : List NodeId} {n : NodeId} {number : Nat} (hn : n ∈ nodes)
    (size : Option String) (args : NodeDiskArgs) :
    (Frame.keeping (NumberedUpTo nodes number)).Holds (Node.addDisk n number size args) := by
  intro w h
  rcases addDisk_cases n number size args w with ⟨e, _, hgraph⟩ | ⟨volume, u, hnew, hgraph, hr⟩
  · exact h.congr (layout_of_graph hgraph)
  · rw [show exec (Node.addDisk n number size args) w = _ from hr]
    obtain ⟨hnum, hlen⟩ := h.congr (layout_of_graph hgraph)
    refine ⟨hnum.storeVolume (newVolume_returns hnew).1 (hlen n hn), fun m hm => ?_⟩
    have hm' := hlen m hm
    rw [World.storeVolume, World.setNode_node]
    split
    · rename_i hmn
      subst hmn
      exact Nat.le_trans hm' (length_storeDisk _ _ _)
    · exact hm'

theorem Numbered.attempt {op : Op} (h : Numbered w) (hfit : op.FitsDisks w)
    (hstep : op.Attempt w w') : Numbered w' := by
  have hlayout : op.KeepsLayout → Numbered w' := fun hop =>
    h.congr (by rw [hstep.2]; exact keepingLayout_exec hop w)
  cases op with
  | addDisk r args =>
    rw [hstep.2]
    -- `next_volume` hands out the number that the condition is about
    have hstart : NumberedUpTo (w.members r) (w.resource r).numVolumes (w.countVolume r) :=
      NumberedUpTo.congr ⟨h, hfit⟩ (layout_setResource fun _ => rfl)
    have hloop : (Frame.keeping (NumberedUpTo (w.members r) (w.resource r).numVolumes)).rel
        (w.countVolume r)
        (exec (Resource.addDiskOnMembers r (w.resource r).numVolumes args) (w.countVolume r)).2 := by
      refine holds_addDiskOnMembers r _ args _ (fun n hn => ?_) ?_
      · exact keeping_addDisk (members_countVolume w r r ▸ hn)
      · intro n _ volume maxPeers bitmapBlockSize md
        have hmd := (keepingGraph_commands.node n).volumeCreateMd volume maxPeers bitmapBlockSize md
        exact (keepingLayout_of_graph hmd).mono fun _ _ hl hn => hn.congr hl
    rw [exec_addDisk]
    exact (hloop hstart).1
  | nodeAddDisk n number size args =>
    rw [hstep.2]
    have hstart : NumberedUpTo [n] number w := ⟨h, by simpa using show number ≤ _ from hfit⟩
    exact (Frame.holds_bind (keeping_addDisk (by simp) size args)
      (fun _ => Frame.holds_pure PUnit.unit) w hstart).1
  | removeDisks n =>
    rw [hstep.2]
    exact keeping_removeDisks n w h
  | removeStoragePool r =>
    rw [hstep.2]
    refine Frame.holds_bind (F := Frame.keeping Numbered) Frame.holds_get (fun w => ?_) w h
    refine Frame.holds_bind (Frame.holds_forM _ fun n _ => keeping_removeDisks n) fun _ => ?_
    refine Frame.holds_bind (Frame.holds_modify fun w h => ?_) fun _ => Frame.holds_forM _ fun k _ => ?_
    · exact h.congr (layout_setResource fun _ => rfl)
    · exact keeping_numbered (keepingLayout_of_graph (keepingGraph_commands.pools.hostRemoveStoragePool k))
  | setTiebreaker n volume value =>
    rw [hstep.2]
    refine Frame.holds_bind (F := Frame.keeping Numbered) (Frame.holds_modify fun w h => ?_)
      (fun _ => ?_) w h
    · refine h.setNode fun hn => (h n hn).map fun v => ?_
      split <;> rfl
    · refine Frame.holds_bind Frame.holds_get fun w => ?_
      exact keeping_numbered (keepingLayout_of_graph (keepingGraph_touchConfig _))
  | createResource name =>
    rw [hstep.2, Op.exec]
    rcases createResource_cases name w with ⟨e, w₁, hexec, hB⟩ | ⟨w₁, hB, _, hr⟩
    · rw [exec_bind_of_error hexec]
      exact hB.numbered h
    · rw [exec_bind_of_ok hr]
      exact hB.numbered h
  | addNode r n =>
    rw [hstep.2, Op.exec]
    rcases addNode_cases r n w with ⟨e, hexec⟩ | ⟨w₁, hw₁, hr⟩
    · rw [hexec]
      exact h
    · rw [show exec (Resource.addNode r n) w = _ from hr]
      have h₁ : Numbered w₁ := hw₁ ▸ h
      exact h₁.congr (layout_touch _ _)
  | removeNode r n =>
    rw [hstep.2, Op.exec]
    rcases removeNode_cases r n w with ⟨e, hexec⟩ | ⟨w₁, hw₁, hr⟩
    · rw [hexec]
      exact h
    · rw [show exec (Resource.removeNode r n) w = _ from hr]
      have h₁ : Numbered w₁ := hw₁ ▸ h
      exact h₁.congr (layout_touch _ _)
  | createStoragePool | nextVolume | setNetOptions | setDiskOptions | setResourceOptions
  | setHandlers | setFencingMode | rename | installDrbd | run => exact hlayout trivial

/-! ## Runs -/

/-- The number in the config, the position in the list and the number of the volume agree:
`config_host` writes block `i` for the volume at index `i`, and looking up the number of a
volume of the list, as `set_gi` and `get_disk_current_uuid` do, finds this volume. -/
structure NumbersMatch (disks : List Volume) : Prop where
  positioned : Positioned disks
  config : ∀ p ∈ disks.zipIdx, p.2 = p.1.volume
  lookup : ∀ v ∈ disks, disks[v.volume]? = some v

theorem Positioned.numbersMatch {disks : List Volume} (h : Positioned disks) :
    NumbersMatch disks where
  positioned := h
  config p hp := by
    obtain ⟨v, i⟩ := p
    exact (h i v (List.mem_zipIdx_iff_getElem?.mp hp)).symm
  lookup v hv := by
    obtain ⟨i, hi⟩ := List.mem_iff_getElem?.mp hv
    rw [h i v hi]
    exact hi

theorem numbered_of_run {ops : List Op} (h₀ : w₀.Initial)
    (run : Run (Guarded (fun w (op : Op) => op.FitsDisks w) fun w op w' => op.Attempt w w')
      w₀ ops w) : Numbered w :=
  run.invariant (numbered_of_initial h₀) fun _ _ _ h hstep => h.attempt hstep.1 hstep.2

/-- In a run that never adds a volume beyond the end of a list, numbers and positions agree
on every member of every resource. -/
theorem volumes_numbered {ops : List Op} (h₀ : w₀.Initial)
    (run : Run (Guarded (fun w (op : Op) => op.FitsDisks w) fun w op w' => op.Attempt w w')
      w₀ ops w) {r : ResourceId} (hr : r ∈ w.resources) {n : NodeId} (hn : n ∈ w.members r) :
    NumbersMatch (w.node n).disks := by
  have hlt : n < w.nodeCount := (wellFormed_of_run h₀ run.of_guarded).members_lt r hr n hn
  exact (numbered_of_run h₀ run n hlt).numbersMatch

/-- A diskful volume on every node. -/
def plainDisk : Resource.AddDiskArgs :=
  ⟨"16M", none, .default, none, none, ⟨none, false, false, false, false⟩⟩

/-- Two volumes, of which the second replaces its disk on one node. -/
def replacingRun : List Op :=
  [.createResource none, .addDisk 0 plainDisk, .addDisk 0 plainDisk,
    .nodeAddDisk 1 1 (some "32M") .default, .removeNode 0 1, .addNode 0 1]

theorem volumes_numbered_replacing :
    NumbersMatch ((Op.afterAll (World.plain 2) replacingRun).node 1).disks := by
  have hrun : Op.Allowed (fun w op => op.FitsDisks w) (World.plain 2) replacingRun ∧
      0 ∈ (Op.afterAll (World.plain 2) replacingRun).resources ∧
      1 ∈ (Op.afterAll (World.plain 2) replacingRun).members 0 := by
    decide +kernel
  obtain ⟨hallowed, hresource, hmember⟩ := hrun
  exact volumes_numbered (plain_initial 2) (Op.run_of_allowed hallowed) hresource hmember

/-- `remove_disks` empties the list of a node but leaves the counter of the resource, so the
next volume gets number 1 at position 0. -/
def removingRun : List Op :=
  [.createResource none, .addDisk 0 plainDisk, .removeDisks 0, .removeDisks 1,
    .addDisk 0 plainDisk]

theorem volume_misplaced_after_remove_disks :
    Run (Guarded (fun _ _ => True) fun w (op : Op) w' => op.Attempt w w') (World.plain 2)
      removingRun (Op.afterAll (World.plain 2) removingRun) ∧
    0 ∈ (Op.afterAll (World.plain 2) removingRun).members 0 ∧
    ¬ NumbersMatch ((Op.afterAll (World.plain 2) removingRun).node 0).disks := by
  have hrun : Op.Allowed (fun _ _ => True) (World.plain 2) removingRun ∧
      0 ∈ (Op.afterAll (World.plain 2) removingRun).members 0 ∧
      ((Op.afterAll (World.plain 2) removingRun).node 0).disks[0]?.map Volume.volume = some 1 := by
    decide +kernel
  obtain ⟨hallowed, hmember, hnumber⟩ := hrun
  refine ⟨Op.run_of_allowed hallowed, hmember, ?_⟩
  intro h
  obtain ⟨v, hv, hone⟩ := Option.map_eq_some_iff.mp hnumber
  have hzero := h.positioned 0 v hv
  omega

end DrbdTests
