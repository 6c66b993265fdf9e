import DrbdTests.Network.TrafficControl

/-!
# Which packets are throttled

After `TrafficControl(source, nodes)` the packets for another node go to a class of their own exactly
when the number that is read for it is one of the classes, is not that of the source node, and no
other node has the same address. Then every node's packets are shaped as it was last set
(`throttles_iff`). With ids from 0 to 8 without gaps all this is so; with a gap in the ids, or with
more than nine nodes, it is not.
-/

namespace DrbdTests.TrafficControl

open Stateful Network Digits

/-! ## Calls -/

inductive Call
  | slowDown (toNode : NodeId) (speed delay : String)
  | removeSlowDown (toNode : NodeId)

namespace Call

def toNode : Call → NodeId
  | slowDown toNode _ _ => toNode
  | removeSlowDown toNode => toNode

def exec (self : TrafficControl) : Call → Py PUnit
  | slowDown toNode speed delay => self.slowDown toNode speed delay
  | removeSlowDown toNode => self.removeSlowDown toNode

/-- The arguments of `netem` that a call asks for. -/
def setting : Call → Option (List String)
  | slowDown _ speed delay => some (netemArgs speed delay)
  | removeSlowDown _ => none

end Call

/-- Calls one after another, each with whether it returned. A caller may go on after an exception. -/
inductive Calls (self : TrafficControl) : World → List (Call × Bool) → World → Prop
  | nil (w : World) : Calls self w [] w
  | snoc {w w' : World} {cs : List (Call × Bool)} (c : Call) (h : Calls self w cs w') :
    Calls self w (cs ++ [(c, (Stateful.exec (c.exec self) w').1.toBool)])
      (Stateful.exec (c.exec self) w').2

/-- The last setting for a node, if the last call for it returned. -/
def lastSetting (p : NodeId) (cs : List (Call × Bool)) : Option (Option (List String)) :=
  cs.foldl (fun setting c =>
    if c.1.toNode = p then if c.2 then some c.1.setting else none else setting) (some none)

theorem lastSetting_append (p : NodeId) (cs : List (Call × Bool)) (c : Call × Bool) :
    lastSetting p (cs ++ [c]) =
      if c.1.toNode = p then if c.2 then some c.1.setting else none else lastSetting p cs := by
  unfold lastSetting
  rw [List.foldl_append]
  rfl

/-! ## What is meant by throttling -/

/-- The packets for each other node go to a class that exists and that no other packets go to. -/
structure Separates (control : TrafficControl) (w : World) (device : String → String) (s : Devices) :
    Prop where
  exists_class : ∀ p i addr, control.Peer w p i addr → ∃ q c, s (device addr.text) = some q ∧
    q.flow addr.text = some c ∧ q.HasClass c
  classes_differ : ∀ p i addr p' i' addr', control.Peer w p i addr → control.Peer w p' i' addr' → p ≠ p' →
    ∀ q q', s (device addr.text) = some q → s (device addr'.text) = some q' →
      q.flow addr.text ≠ q'.flow addr'.text
  default_apart : ∀ p i addr, control.Peer w p i addr → ∀ q, s (device addr.text) = some q →
    ∀ priority, q.flow addr.text ≠ some (q.defaultClass priority)
  others_default : ∀ p i addr, control.Peer w p i addr → ∀ q, s (device addr.text) = some q →
    ∀ dst, (∀ p' i' addr', control.Peer w p' i' addr' → addr'.text ≠ dst) → q.flow dst = none

/-- The packets for each other node are kept apart, and shaped as was last set for it, after any calls
for the nodes. -/
def Throttles (self : TrafficControl) (start : Devices) (device : String → String) (w : World) :
    Prop :=
  self.Separates w device (w.devices start (w.node self.sourceNode).host) ∧
  ∀ cs w', self.Calls w cs w' → w'.RoutesNamed (w.node self.sourceNode).host device →
    (∀ c ∈ cs, c.1.toNode ∈ self.nodes) →
    ∀ p i addr setting, self.Peer w p i addr → lastSetting p cs = some setting →
      ∀ priority, ∃ q, w'.devices start (w.node self.sourceNode).host (device addr.text) = some q ∧
        q.shaping addr.text priority = setting

/-- The numbers of the nodes fit the classes: what is read for another node is at most the number of
nodes and not the class of the source node, and no two nodes share an address. -/
def Aligned (self : TrafficControl) (w : World) : Prop :=
  ∀ p i addr, self.Peer w p i addr →
    reread 16 ((w.node p).id + 1) ≤ self.nodes.length ∧
    reread 16 ((w.node p).id + 1) ≠ (w.node self.sourceNode).id + 1 ∧
    ∀ p' addr', self.Peer w p' i addr' → addr'.text = addr.text → p' = p

/-- The nodes have different ids. -/
def IdsDiffer (self : TrafficControl) (w : World) : Prop :=
  ∀ p ∈ self.nodes, ∀ q ∈ self.nodes, (w.node p).id = (w.node q).id → p = q

variable {self : TrafficControl} {w w' : World} {device : String → String} {s : Devices}

/-! ## Classes -/

section Classes

variable {setting : NodeId → Nat → Option (List String)} {entries : List (NodeId × Addr)} {q : Qdisc}
  {p : NodeId} {i : Nat} {addr : Addr}

/-- Everything but the leaves is as in the qdisc of the constructor. -/
theorem hasClass_iff (hq : { q with leaves := [] } = self.root w entries) (id : Nat) :
    q.HasClass (classId id) ↔ reread 16 (id + 1) ≤ self.nodes.length := by
  have hclass : q.HasClass (classId id) ↔ (self.root w entries).HasClass (classId id) := by
    rw [← hq]
    exact Iff.rfl
  have hpos := le_reread (b := 16) (by omega) (id + 1)
  rw [hclass]
  unfold Qdisc.HasClass classId root
  dsimp only
  omega

theorem defaultClass_eq (hq : { q with leaves := [] } = self.root w entries) (priority : Nat) :
    q.defaultClass priority = ⟨1, (w.node self.sourceNode).id + 1⟩ := by
  have hdefault : q.defaultClass priority = (self.root w entries).defaultClass priority := by
    rw [← hq]
    rfl
  have hlt : priority % 16 < 16 := Nat.mod_lt _ (by omega)
  rw [hdefault]
  unfold Qdisc.defaultClass root
  rw [List.getD_eq_getElem?_getD, List.getElem?_replicate, if_pos hlt, Option.getD_some]

/-- The first entry with the destination decides. -/
theorem flow_eq (hq : { q with leaves := [] } = self.root w entries) (dst : String) :
    q.flow dst = (entries.find? fun e => e.2.text = dst).map fun e => classId (w.node e.1).id := by
  have hflow : q.flow dst = (self.root w entries).flow dst := by
    rw [← hq]
    rfl
  rw [hflow]
  unfold Qdisc.flow root
  rw [List.find?_map, Option.map_map]
  rfl

theorem flow_peer (hq : { q with leaves := [] } = self.root w entries) (hmem : (p, addr) ∈ entries)
    (hpeers : ∀ e ∈ entries, self.Peer w e.1 i e.2) :
    ∃ p' addr', self.Peer w p' i addr' ∧ addr'.text = addr.text ∧
      q.flow addr.text = some (classId (w.node p').id) := by
  rw [flow_eq hq]
  rcases hfind : entries.find? fun e => e.2.text = addr.text with _ | e
  · have hnone := List.find?_eq_none.mp hfind _ hmem
    exact absurd (decide_eq_true rfl) hnone
  · have htext := List.find?_some hfind
    refine ⟨e.1, e.2, hpeers e (List.mem_of_find?_eq_some hfind), of_decide_eq_true htext, ?_⟩
    rw [hfind]
    rfl

theorem flow_self (haligned : self.Aligned w) (hp : self.Peer w p i addr)
    (hq : { q with leaves := [] } = self.root w entries) (hmem : (p, addr) ∈ entries)
    (hpeers : ∀ e ∈ entries, self.Peer w e.1 i e.2) :
    q.flow addr.text = some (classId (w.node p).id) := by
  obtain ⟨p', addr', hp', htext, hflow⟩ := flow_peer hq hmem hpeers
  rw [hflow, (haligned p i addr hp).2.2 p' addr' hp' htext]

theorem separates_of_aligned (hids : self.IdsDiffer w) (haligned : self.Aligned w)
    (hs : self.Shaped w device setting s) : self.Separates w device s where
  exists_class p i addr hp := by
    obtain ⟨entries, q, hget, hq, hmem, hpeers, -, -⟩ := hs p i addr hp
    exact ⟨q, _, hget, flow_self haligned hp hq hmem hpeers,
      (hasClass_iff hq _).mpr (haligned p i addr hp).1⟩
  classes_differ p i addr p' i' addr' hp hp' hne q₁ q₁' hget₁ hget₁' := by
    obtain ⟨entries, q, hget, hq, hmem, hpeers, -, -⟩ := hs p i addr hp
    obtain ⟨entries', q', hget', hq', hmem', hpeers', -, -⟩ := hs p' i' addr' hp'
    obtain rfl := Option.some.inj (hget.symm.trans hget₁)
    obtain rfl := Option.some.inj (hget'.symm.trans hget₁')
    rw [flow_self haligned hp hq hmem hpeers, flow_self haligned hp' hq' hmem' hpeers']
    intro heq
    exact hne (hids p hp.1 p' hp'.1 (classId_injective (Option.some.inj heq)))
  default_apart p i addr hp q₁ hget₁ priority := by
    obtain ⟨entries, q, hget, hq, hmem, hpeers, -, -⟩ := hs p i addr hp
    obtain rfl := Option.some.inj (hget.symm.trans hget₁)
    rw [flow_self haligned hp hq hmem hpeers, defaultClass_eq hq]
    intro heq
    exact (haligned p i addr hp).2.1 (congrArg TcId.minor (Option.some.inj heq))
  others_default p i addr hp q₁ hget₁ dst hdst := by
    obtain ⟨entries, q, hget, hq, hmem, hpeers, -, -⟩ := hs p i addr hp
    obtain rfl := Option.some.inj (hget.symm.trans hget₁)
    rw [flow_eq hq, Option.map_eq_none_iff, List.find?_eq_none]
    intro e he heq
    exact hdst e.1 i e.2 (hpeers e he) (by simpa using heq)

theorem aligned_of_separates (hs : self.Shaped w device setting s)
    (hsep : self.Separates w device s) : self.Aligned w := by
  intro p i addr hp
  obtain ⟨entries, q, hget, hq, hmem, hpeers, -, -⟩ := hs p i addr hp
  have hunique : ∀ p' addr', self.Peer w p' i addr' → addr'.text = addr.text → p' = p := by
    intro p' addr' hp' htext
    by_contra hne
    have hget' : s (device addr'.text) = some q := by rw [htext, hget]
    exact hsep.classes_differ p' i addr' p i addr hp' hp hne q q hget' hget (by rw [htext])
  obtain ⟨p', addr', hp', htext, hflow⟩ := flow_peer hq hmem hpeers
  obtain rfl := hunique p' addr' hp' htext
  obtain ⟨q₁, c, hget₁, hflow₁, hclass⟩ := hsep.exists_class p' i addr hp
  obtain rfl := Option.some.inj (hget.symm.trans hget₁)
  obtain rfl := Option.some.inj (hflow.symm.trans hflow₁)
  refine ⟨(hasClass_iff hq _).mp hclass, ?_, hunique⟩
  intro heq
  apply hsep.default_apart p' i addr hp q hget 0
  rw [hflow, defaultClass_eq hq, classId, heq]

end Classes

/-! ## Setting a leaf -/

/-- A change of a qdisc that sets the leaf of a node and touches no other leaf. -/
structure SetsLeaf (id : Nat) (new : Option (List String)) (f : Qdisc → Qdisc) : Prop where
  root : ∀ q, { f q with leaves := [] } = { q with leaves := [] }
  leaves : ∀ q, ∀ leaf ∈ (f q).leaves,
    leaf ∈ q.leaves ∨ leaf.parent = classId id ∧ leaf.handle = handleId id
  other : ∀ q c, c ≠ classId id → (f q).leaf c = q.leaf c
  own : ∀ q, q.HasClass (classId id) → handleId id ≠ q.handle →
    (∀ leaf ∈ q.leaves, leaf.handle = handleId id ↔ leaf.parent = classId id) →
    (f q).leaf (classId id) = new

theorem setsLeaf_setLeaf (id : Nat) (netem : List String) :
    SetsLeaf id (some netem) fun q => q.setLeaf ⟨classId id, handleId id, netem⟩ where
  root q := q.setLeaf_root _
  leaves _ _ hleaf := by
    rcases Qdisc.mem_leaves_setLeaf hleaf with rfl | hleaf
    · exact .inr ⟨rfl, rfl⟩
    · exact .inl hleaf
  other _ _ hc := Qdisc.leaf_setLeaf_other hc
  own _ hclass hroot hunused :=
    Qdisc.leaf_setLeaf_self hclass hroot fun leaf hleaf => (hunused leaf hleaf).mp

theorem setsLeaf_removeLeaf (id : Nat) :
    SetsLeaf id none fun q => q.removeLeaf (classId id) (handleId id) where
  root q := q.removeLeaf_root _ _
  leaves _ _ hleaf := .inl (Qdisc.mem_leaves_removeLeaf hleaf)
  other _ _ hc := Qdisc.leaf_removeLeaf_other hc
  own _ _ _ hunused := Qdisc.leaf_removeLeaf_self fun leaf hleaf => (hunused leaf hleaf).mpr

section Settings

variable {setting : NodeId → Nat → Option (List String)} {new : Option (List String)}
  {f : Qdisc → Qdisc} {t : NodeId} {netNum : Nat} {addr : Addr}

/-- The setting of one node on one network. -/
def setOn (setting : NodeId → Nat → Option (List String)) (t : NodeId) (netNum : Nat)
    (new : Option (List String)) (p : NodeId) (i : Nat) : Option (List String) :=
  if p = t ∧ i = netNum then new else setting p i

theorem shaped_change (hids : self.IdsDiffer w) (haligned : self.Aligned w)
    (hlayout : self.Layout w device) (ht : t ∈ self.nodes)
    (hnet : netNum < (w.addrs self.sourceNode).length) (haddr : (w.addrs t)[netNum]? = some addr)
    (hf : SetsLeaf (w.node t).id new f) (hs : self.Shaped w device setting s) :
    self.Shaped w device (setOn setting t netNum new)
      (TcCommand.change s (device addr.text) f) := by
  intro p i addr' hp
  obtain ⟨entries, q, hget, hq, hmem, hpeers, hleaves, hleaf⟩ := hs p i addr' hp
  by_cases hdev : device addr'.text = device addr.text
  · refine ⟨entries, f q, ?_, (hf.root q).trans hq, hmem, hpeers, ?_, ?_⟩
    · rw [hdev, TcCommand.change_self, ← hdev, hget]
      rfl
    · intro leaf hleaf
      rcases hf.leaves q leaf hleaf with hleaf | hown
      · exact hleaves leaf hleaf
      · exact ⟨t, ht, hown⟩
    · by_cases hpt : p = t
      · subst hpt
        -- another network would use another device
        obtain rfl := hlayout p i addr' p netNum addr hp ⟨hp.1, hp.2.1, hnet, haddr⟩ hdev
        have hclass := (hasClass_iff hq _).mpr (haligned p i addr' hp).1
        have hroot : handleId (w.node p).id ≠ q.handle := by
          rw [show q.handle = ⟨1, 0⟩ from congrArg Qdisc.handle hq]
          exact handleId_ne_root _
        rw [setOn, if_pos ⟨rfl, rfl⟩]
        apply hf.own q hclass hroot
        intro leaf hleaf
        obtain ⟨n, -, hparent, hhandle⟩ := hleaves leaf hleaf
        rw [hparent, hhandle]
        constructor
        · intro heq
          rw [handleId_injective heq]
        · intro heq
          rw [classId_injective heq]
      · have hne : classId (w.node p).id ≠ classId (w.node t).id := fun heq =>
          hpt (hids p hp.1 t ht (classId_injective heq))
        rw [hf.other q _ hne, hleaf, setOn, if_neg fun h => hpt h.1]
  · refine ⟨entries, q, ?_, hq, hmem, hpeers, hleaves, ?_⟩
    · rw [TcCommand.change, Function.update_of_ne hdev]
      exact hget
    · rw [hleaf, setOn, if_neg]
      rintro ⟨rfl, rfl⟩
      rw [hp.2.2.2] at haddr
      exact hdev (by rw [Option.some.inj haddr])

/-! ## One call -/

variable {w₀ : World} {start : Devices} {h : HostId} {command : Nat → String → List String}

theorem onward_onNetwork (self : TrafficControl) (command : Nat → String → List String) (t : NodeId) (netNum : Nat) :
    onward.Holds (self.onNetwork command t netNum) := by
  refine Frame.holds_bind Frame.holds_get fun w => ?_
  refine Frame.holds_bind (onward_netDeviceToPeer _ _ _) fun dev => ?_
  exact Frame.holds_bind (onward_run _ _) fun _ => Frame.holds_pure _

theorem onward_onNetworks (self : TrafficControl) (command : Nat → String → List String) (t : NodeId) :
    onward.Holds (self.onNetworks command t) :=
  Frame.holds_bind Frame.holds_get fun _ =>
    Frame.holds_forM _ fun netNum _ => onward_onNetwork self command t netNum

/-- A command sets the leaf of the node it is made for. -/
def SetsLeaves (command : Nat → String → List String) (new : Option (List String)) : Prop :=
  ∀ id, ∃ f, SetsLeaf id new f ∧ ∀ dev s, tc (command id dev) s = TcCommand.change s dev f

theorem setsLeaves_setting (self : TrafficControl) (c : Call) :
    ∃ command, c.exec self = self.onNetworks command c.toNode ∧ SetsLeaves command c.setting := by
  cases c with
  | slowDown toNode speed delay =>
    exact ⟨_, rfl, fun id => ⟨_, setsLeaf_setLeaf id _, fun dev s => tc_slowDown speed delay id⟩⟩
  | removeSlowDown toNode =>
    exact ⟨_, rfl, fun id => ⟨_, setsLeaf_removeLeaf id, fun dev s => tc_removeSlowDown id⟩⟩

/-- One network: the leaf is set when the command returns, and nothing changes when it raises. -/
theorem onNetwork_outcome (hids : self.IdsDiffer w₀) (haligned : self.Aligned w₀)
    (hlayout : self.Layout w₀ device) (hh : (w₀.node self.sourceNode).host = h) (ht : t ∈ self.nodes)
    (hnet : netNum < (w₀.addrs self.sourceNode).length) (hcommand : SetsLeaves command new)
    (hon : onward.rel w₀ w)
    (hnamed : (exec (self.onNetwork command t netNum) w).2.RoutesNamed h device)
    (hs : self.Shaped w₀ device setting (w.devices start h)) :
    ∃ setting', self.Shaped w₀ device setting'
        ((exec (self.onNetwork command t netNum) w).2.devices start h) ∧
      (∀ p i, p ≠ t ∨ i ≠ netNum → setting' p i = setting p i) ∧
      ((exec (self.onNetwork command t netNum) w).1.toBool = true → setting' t netNum = new) := by
  unfold onNetwork at hnamed ⊢
  rw [exec_get_bind] at hnamed ⊢
  have hkept := devices_netDeviceToPeer (w.node self.sourceNode).host h (w.node t).host netNum start w
  rcases hdev : exec (Host.netDeviceToPeer (w.node self.sourceNode).host (w.node t).host netNum) w
    with ⟨e | dev, w₁⟩
  · rw [hdev] at hkept
    rw [exec_bind_of_error hdev]
    refine ⟨setting, ?_, fun _ _ _ => rfl, fun hfalse => by cases hfalse⟩
    rw [show w₁.devices start h = w.devices start h from hkept]
    exact hs
  · rw [hdev] at hkept
    obtain ⟨hon₁, addr, haddr, hroute⟩ := netDeviceToPeer_returns hdev
    have hhost : (w.node self.sourceNode).host = h := (graph_nodeHost hon.1 _).trans hh
    have hhost₁ : (w₁.node self.sourceNode).host = h := (graph_nodeHost hon₁.1 _).trans hhost
    have haddr : (w₀.addrs t)[netNum]? = some addr := by
      rw [← onward_addrs hon]
      exact haddr
    rw [exec_bind_of_ok hdev] at hnamed ⊢
    obtain ⟨f, hf, htc⟩ := hcommand (w.node t).id
    have hrun := devices_run start hhost₁ (command (w.node t).id dev)
    have hon₂ := onward_run self.sourceNode (command (w.node t).id dev) w₁
    rcases hexec : exec (Node.run self.sourceNode (command (w.node t).id dev)) w₁ with ⟨e | out, w₂⟩
    · rw [hexec] at hrun
      rw [exec_bind_of_error hexec]
      refine ⟨setting, ?_, fun _ _ _ => rfl, fun hfalse => by cases hfalse⟩
      rw [show w₂.devices start h = w₁.devices start h from hrun,
        show w₁.devices start h = w.devices start h from hkept]
      exact hs
    · rw [hexec] at hrun hon₂
      rw [exec_bind_of_ok hexec] at hnamed ⊢
      rw [hhost] at hroute
      obtain rfl := hroute device (World.RoutesNamed.of_onward hnamed hon₂)
      rw [graph_nodeId hon.1] at hf
      refine ⟨setOn setting t netNum new, ?_, ?_, fun _ => if_pos ⟨rfl, rfl⟩⟩
      · have hdevices : w₂.devices start h =
            TcCommand.change (w.devices start h) (device addr.text) f := by
          rw [← htc, ← show w₁.devices start h = w.devices start h from hkept]
          exact hrun
        have hchanged := shaped_change hids haligned hlayout ht hnet haddr hf hs
        rw [← hdevices] at hchanged
        exact hchanged
      · intro p i hne
        apply if_neg
        rintro ⟨rfl, rfl⟩
        rcases hne with hne | hne <;> exact hne rfl

/-- All networks: the settings of the other nodes stay, and that of the node is made on every network
when the loop returns. -/
theorem forM_onNetwork_outcome (hids : self.IdsDiffer w₀) (haligned : self.Aligned w₀)
    (hlayout : self.Layout w₀ device) (hh : (w₀.node self.sourceNode).host = h) (ht : t ∈ self.nodes)
    (hcommand : SetsLeaves command new) (nets : List Nat)
    (hnets : ∀ i ∈ nets, i < (w₀.addrs self.sourceNode).length) (hon : onward.rel w₀ w)
    (hnamed : (exec (nets.forM (self.onNetwork command t)) w).2.RoutesNamed h device)
    (hs : self.Shaped w₀ device setting (w.devices start h)) :
    ∃ setting', self.Shaped w₀ device setting'
        ((exec (nets.forM (self.onNetwork command t)) w).2.devices start h) ∧
      (∀ p i, p ≠ t ∨ i ∉ nets → setting' p i = setting p i) ∧
      ((exec (nets.forM (self.onNetwork command t)) w).1.toBool = true →
        ∀ i ∈ nets, setting' t i = new) := by
  induction nets generalizing w setting with
  | nil => exact ⟨setting, hs, fun _ _ _ => rfl, by simp⟩
  | cons i nets ih =>
    have hcons : (i :: nets).forM (self.onNetwork command t) =
        self.onNetwork command t i >>= fun _ => nets.forM (self.onNetwork command t) := rfl
    rw [hcons] at hnamed ⊢
    have hfirst := fun hnamed => onNetwork_outcome hids haligned hlayout hh ht
      (hnets i List.mem_cons_self) hcommand hon hnamed hs
    have hon₁ := onward_onNetwork self command t i w
    rcases hexec : exec (self.onNetwork command t i) w with ⟨e | u, w₁⟩
    · rw [hexec] at hfirst
      rw [exec_bind_of_error hexec] at hnamed ⊢
      obtain ⟨setting', hs', hother, -⟩ := hfirst hnamed
      refine ⟨setting', hs', fun p j hne => hother p j ?_, fun hfalse => by cases hfalse⟩
      rcases hne with hne | hne
      · exact .inl hne
      · exact .inr fun heq => hne (heq ▸ List.mem_cons_self)
    · rw [hexec] at hfirst hon₁
      rw [exec_bind_of_ok hexec] at hnamed ⊢
      have hon₂ := Frame.holds_forM nets (fun j _ => onward_onNetwork self command t j) w₁
      obtain ⟨setting₁, hs₁, hother₁, hown₁⟩ := hfirst (hnamed.of_onward hon₂)
      obtain ⟨setting', hs', hother, hown⟩ := ih (fun j hj => hnets j (List.mem_cons_of_mem i hj))
        (onward.trans hon hon₁) hnamed hs₁
      refine ⟨setting', hs', ?_, ?_⟩
      · intro p j hne
        rw [hother p j (hne.imp_right fun hj => fun hmem => hj (List.mem_cons_of_mem i hmem)),
          hother₁ p j (hne.imp_right fun hj => fun heq => hj (heq ▸ List.mem_cons_self))]
      · intro hok j hj
        by_cases hmem : j ∈ nets
        · exact hown hok j hmem
        · rw [hother t j (.inr hmem)]
          rcases List.mem_cons.mp hj with rfl | hj
          · exact hown₁ rfl
          · exact absurd hj hmem

/-! ## All calls -/

theorem calls_onward {cs : List (Call × Bool)} (hc : self.Calls w₀ cs w) : onward.rel w₀ w := by
  induction hc with
  | nil => exact onward.refl _
  | snoc c _ ih =>
    obtain ⟨command, hexec, -⟩ := setsLeaves_setting self c
    rw [hexec]
    exact onward.trans ih (onward_onNetworks self command c.toNode _)

theorem calls_shaped (hids : self.IdsDiffer w₀) (haligned : self.Aligned w₀)
    (hlayout : self.Layout w₀ device) (hh : (w₀.node self.sourceNode).host = h)
    {cs : List (Call × Bool)} (hc : self.Calls w₀ cs w) (hnamed : w.RoutesNamed h device)
    (hnodes : ∀ c ∈ cs, c.1.toNode ∈ self.nodes)
    (hs : self.Shaped w₀ device (fun _ _ => none) (w₀.devices start h)) :
    ∃ setting, self.Shaped w₀ device setting (w.devices start h) ∧
      ∀ p last, lastSetting p cs = some last →
        ∀ i < (w₀.addrs self.sourceNode).length, setting p i = last := by
  induction hc with
  | nil =>
    refine ⟨_, hs, fun p last hlast i _ => ?_⟩
    exact Option.some.inj hlast
  | @snoc w₁ cs c hc ih =>
    obtain ⟨command, hexec, hcommand⟩ := setsLeaves_setting self c
    have hon := calls_onward hc
    rw [hexec] at hnamed ⊢
    have hon₁ := onward_onNetworks self command c.toNode w₁
    obtain ⟨setting, hs₁, hlast₁⟩ := ih (hnamed.of_onward hon₁)
      (fun c' hc' => hnodes c' (List.mem_append_left _ hc')) 
    have ht : c.toNode ∈ self.nodes := hnodes _ (List.mem_append_right cs (List.mem_singleton_self _))
    have hrange : exec (self.onNetworks command c.toNode) w₁ =
        exec ((List.range (w₀.addrs self.sourceNode).length).forM
          (self.onNetwork command c.toNode)) w₁ := by
      rw [← onward_addrs hon]
      rfl
    rw [hrange] at hnamed ⊢
    obtain ⟨setting', hs', hother, hown⟩ := forM_onNetwork_outcome hids haligned hlayout hh ht hcommand
      _ (fun i hi => List.mem_range.mp hi) hon hnamed hs₁
    refine ⟨setting', hs', fun p last hlast i hi => ?_⟩
    rw [lastSetting_append] at hlast
    dsimp only at hlast
    by_cases hp : c.toNode = p
    · subst hp
      rw [if_pos rfl] at hlast
      split at hlast
      · rename_i hok
        rw [hown hok i (List.mem_range.mpr hi)]
        exact Option.some.inj hlast
      · cases hlast
    · rw [if_neg hp] at hlast
      rw [hother p i (.inl (Ne.symm hp))]
      exact hlast₁ p last hlast i hi

end Settings

/-! ## The constructor -/

section Congr

variable (hon : onward.rel w w')

include hon

theorem peer_iff {p : NodeId} {i : Nat} {addr : Addr} :
    self.Peer w' p i addr ↔ self.Peer w p i addr := by
  unfold Peer
  rw [onward_addrs hon, onward_addrs hon]

theorem aligned_iff : self.Aligned w' ↔ self.Aligned w := by
  unfold Aligned
  simp only [peer_iff hon, graph_nodeId hon.1]

theorem idsDiffer_iff : self.IdsDiffer w' ↔ self.IdsDiffer w := by
  unfold IdsDiffer
  simp only [graph_nodeId hon.1]

theorem layout_iff : self.Layout w' device ↔ self.Layout w device := by
  unfold Layout
  simp only [peer_iff hon]

theorem shaped_iff {setting : NodeId → Nat → Option (List String)} :
    self.Shaped w' device setting s ↔ self.Shaped w device setting s := by
  unfold Shaped root
  simp only [peer_iff hon, graph_nodeId hon.1]

end Congr

/-- A constructor that returns throttles the right packets exactly when the numbers fit. -/
theorem throttles_iff {u : PUnit} (start : Devices) (hids : self.IdsDiffer w)
    (hr : Returns self.init w u w')
    (hnamed : w'.RoutesNamed (w.node self.sourceNode).host device) :
    self.Throttles start device w' ↔ self.Aligned w := by
  obtain ⟨hon, hlayout, hs⟩ := init_returns start rfl hr hnamed
  have hhost : (w'.node self.sourceNode).host = (w.node self.sourceNode).host :=
    graph_nodeHost hon.1 _
  rw [← aligned_iff hon]
  rw [← idsDiffer_iff hon] at hids
  rw [← layout_iff hon] at hlayout
  rw [← shaped_iff hon, ← hhost] at hs
  constructor
  · intro hthrottles
    exact aligned_of_separates hs hthrottles.1
  · intro haligned
    refine ⟨separates_of_aligned hids haligned hs, ?_⟩
    intro cs w'' hc hnamed hnodes p i addr setting hp hlast priority
    obtain ⟨settings, hs', hsettings⟩ :=
      calls_shaped hids haligned hlayout rfl hc hnamed hnodes hs
    obtain ⟨entries, q, hget, hq, hmem, hpeers, -, hleaf⟩ := hs' p i addr hp
    refine ⟨q, hget, ?_⟩
    have hclass := (hasClass_iff hq _).mpr (haligned p i addr hp).1
    unfold Qdisc.shaping Qdisc.classOf
    rw [flow_self haligned hp hq hmem hpeers]
    dsimp only
    rw [if_pos hclass, hleaf]
    exact hsettings p setting hlast i hp.2.2.1

/-! ## Two runs -/

/-- Three nodes on three hosts in one network. -/
def oneNetwork : World :=
  let w := World.plain 3
  { w with
    host := fun h => { w.host h with
      info := { (w.host h).info with
        addrs := match h with
          | 0 => (w.host h).info.addrs
          | 1 => [⟨"2", by decide, by decide⟩]
          | _ => [⟨"3", by decide, by decide⟩] } }
    node := fun n => { w.node n with id := n, host := n }
    env := { w.env with replies := fun _ => ⟨0, "1 dev eth0"⟩ } }

theorem oneNetwork_named (henv : w.env = oneNetwork.env) (h : HostId) :
    w.RoutesNamed h fun _ => "eth0" := by
  intro later earlier addr _
  rw [henv]
  change routeDevice (String.ofList (Text.strip "1 dev eth0".toList)) = some "eth0"
  decide

theorem oneNetwork_returns (self : TrafficControl) (hok : (exec self.init oneNetwork).1.toBool = true) :
    ∃ w', Returns self.init oneNetwork ⟨⟩ w' ∧ w'.RoutesNamed 0 fun _ => "eth0" := by
  have hr := returns_of_toBool hok
  have hon := (onward_init self).rel_of_returns hr
  exact ⟨_, hr, oneNetwork_named (graph_env hon.1) 0⟩

/-- Two nodes with the ids 0 and 1. -/
theorem throttles_two :
    ∃ w', Returns (TrafficControl.mk 0 [0, 1]).init oneNetwork ⟨⟩ w' ∧
      ((TrafficControl.mk 0 [0, 1]).Throttles (fun _ => none) (fun _ => "eth0") w' ↔
        (TrafficControl.mk 0 [0, 1]).Aligned oneNetwork) := by
  obtain ⟨w', hr, hnamed⟩ := oneNetwork_returns (TrafficControl.mk 0 [0, 1]) (by decide +kernel)
  exact ⟨w', hr, throttles_iff _ (fun _ _ _ _ hid => hid) hr hnamed⟩

/-- The nodes with the ids 0 and 2: there are two bands, and the packets for the second node are sent
to a third one. -/
theorem third_class_missing :
    ∃ w', Returns (TrafficControl.mk 0 [0, 2]).init oneNetwork ⟨⟩ w' ∧
      w'.RoutesNamed 0 (fun _ => "eth0") ∧
      ¬ (TrafficControl.mk 0 [0, 2]).Throttles (fun _ => none) (fun _ => "eth0") w' := by
  obtain ⟨w', hr, hnamed⟩ := oneNetwork_returns (TrafficControl.mk 0 [0, 2]) (by decide +kernel)
  refine ⟨w', hr, hnamed, ?_⟩
  intro hthrottles
  obtain ⟨hon, -, hs⟩ := init_returns (fun _ => none) rfl hr hnamed
  have hsep := hthrottles.1
  rw [graph_nodeHost hon.1] at hsep
  have haligned := (aligned_iff hon).mp (aligned_of_separates ((shaped_iff hon).mpr hs) hsep)
  have hpeer : (TrafficControl.mk 0 [0, 2]).Peer oneNetwork 2 0 ⟨"3", by decide, by decide⟩ := by
    refine ⟨by decide, by decide, by decide, rfl⟩
  have hle := (haligned 2 0 _ hpeer).1
  revert hle
  decide

end DrbdTests.TrafficControl
