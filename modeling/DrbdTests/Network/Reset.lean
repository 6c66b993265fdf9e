import DrbdTests.Network.Throttling

/-!
# `TrafficControl.reset`

Several `TrafficControl` objects can be used at a time, one for each source node, and their calls can
come in any order and can raise. `reset_restores` is about all of that: after a `reset` that returns,
the devices the object leads its packets through have no qdisc, and a device that no object uses is as
it was before, whatever happened in between.
-/

namespace DrbdTests.TrafficControl

open Stateful Network

variable (self : TrafficControl)

/-- The body of the loop of `reset`. -/
def clearDevice (dev : String) : Py PUnit := do
  let _ ← Node.run self.sourceNode ["tc", "qdisc", "del", "dev", dev, "root"]

/-- `reset` -/
def reset : Py PUnit := do
  let nodesByDev ← self.getNodesByDev
  nodesByDev.entries.forM fun (dev, _) => self.clearDevice dev

/-! ## What is done with the objects -/

inductive Action
  | init
  | call (c : Call)
  | reset

def Action.exec (self : TrafficControl) : Action → Py PUnit
  | init => self.init
  | call c => c.exec self
  | reset => self.reset

/-- Calls are for the other nodes. -/
def Action.Valid (self : TrafficControl) : Action → Prop
  | call c => c.toNode ∈ self.nodes ∧ c.toNode ≠ self.sourceNode
  | _ => True

/-- The world after actions with some objects; a caller may go on after an exception. -/
def afterAll (w : World) (as : List (TrafficControl × Action)) : World :=
  as.foldl (fun w a => (Stateful.exec (a.2.exec a.1) w).2) w

/-- The device is the one for another node on one of the networks. -/
def Uses (w : World) (device : HostId → String → String) (dev : String) : Prop :=
  ∃ p i addr, self.Peer w p i addr ∧ device (w.node self.sourceNode).host addr.text = dev

/-- On every host the routes that have been looked up are those of `device`. -/
def RoutesAgree (w : World) (device : HostId → String → String) : Prop :=
  ∀ h, w.RoutesNamed h (device h)

variable {w₀ w w' : World} {start : HostId → Devices} {device : HostId → String → String}
  {touched : HostId → String → Prop} {self : TrafficControl} {n : NodeId} {cmd : List String}

theorem RoutesAgree.of_onward (hnamed : RoutesAgree w' device) (hw : onward.rel w w') :
    RoutesAgree w device := fun h => World.RoutesNamed.of_onward (hnamed h) hw

/-! ## Only touched devices change -/

/-- Requests are added, and with the routes that are looked up only the qdiscs of touched devices
change. -/
def within (start : HostId → Devices) (w₀ : World) (device : HostId → String → String)
    (touched : HostId → String → Prop) : Frame World where
  rel w w' := onward.rel w w' ∧ (onward.rel w₀ w → RoutesAgree w' device →
    ∀ k dev, ¬ touched k dev → w'.devices (start k) k dev = w.devices (start k) k dev)
  refl w := ⟨onward.refl w, fun _ _ _ _ _ => rfl⟩
  trans := by
    intro a b c hab hbc
    refine ⟨onward.trans hab.1 hbc.1, fun hon hnamed k dev hdev => ?_⟩
    rw [hbc.2 (onward.trans hon hab.1) hnamed k dev hdev]
    exact hab.2 hon (hnamed.of_onward hbc.1) k dev hdev

theorem devices_otherHost {h k : HostId} {stdin : Option String} {effect : Effect} (ok : Bool)
    (s : Devices) (hk : k ≠ h) :
    World.devices { w with requests := (.command k cmd stdin effect, ok) :: w.requests } s h =
      w.devices s h := by
  unfold World.devices
  rw [List.foldr_cons]
  cases ok
  · rfl
  · exact if_neg hk

/-- A node runs its commands on its own host. -/
theorem devices_run_otherHost {h : HostId} (s : Devices) (hn : (w.node n).host ≠ h)
    (cmd : List String) : (exec (Node.run n cmd) w).2.devices s h = w.devices s h := by
  have hhost : ((exec (Node.updateConfig n) w).2.node n).host = (w.node n).host :=
    graph_nodeHost (keepingGraph_commands.updateConfig n w) n
  have hupdate : (exec (Node.updateConfig n) w).2.devices s h = w.devices s h := by
    rcases updateConfig_cases n w with ⟨-, hexec⟩ | ⟨-, e, hexec⟩ | ⟨-, config, ok, -, hexec⟩
    · rw [hexec]
    · rw [hexec]
      rfl
    · rw [hexec]
      exact devices_otherHost ok s hn
  rcases hexec : exec (Node.updateConfig n) w with ⟨e | u, w₁⟩
  · rw [hexec] at hupdate
    have hrun : exec (Node.run n cmd) w = (.error e, w₁) := exec_bind_of_error hexec
    rw [hrun]
    exact hupdate
  · rw [hexec] at hupdate hhost
    have hrun : exec (Node.run n cmd) w =
        exec (Host.runWith false (w₁.node n).host cmd none .none) w₁ := exec_bind_of_ok hexec
    obtain ⟨ok, hcommand⟩ := exec_runWith false (w₁.node n).host cmd none .none w₁
    have hother : (w₁.node n).host ≠ h := fun heq => hn (hhost.symm.trans heq)
    rw [hrun, hcommand, devices_otherHost ok s hother]
    exact hupdate

theorem within_run (hcmd : ∀ s dev, ¬ touched (w₀.node n).host dev → tc cmd s dev = s dev) :
    (within start w₀ device touched).Holds (Node.run n cmd) := by
  intro w
  refine ⟨onward_run n cmd w, fun hon _ k dev hdev => ?_⟩
  by_cases hk : (w.node n).host = k
  · rw [devices_run (start k) hk cmd]
    split
    · apply hcmd
      rw [← graph_nodeHost hon.1 n, hk]
      exact hdev
    · rfl
  · rw [devices_run_otherHost (start k) hk]

theorem within_netDeviceToPeer (h peer : HostId) (netNum : Nat) :
    (within start w₀ device touched).Holds (Host.netDeviceToPeer h peer netNum) := by
  intro w
  refine ⟨onward_netDeviceToPeer h peer netNum w, fun _ _ k dev _ => ?_⟩
  exact congrFun (devices_netDeviceToPeer h k peer netNum (start k) w) dev

theorem within_getNodesByDev (self : TrafficControl) :
    (within start w₀ device touched).Holds self.getNodesByDev := by
  refine Frame.holds_bind Frame.holds_get fun w => ?_
  refine Frame.holds_foldlM _ _ fun d netNum _ => Frame.holds_foldlM _ _ fun d node _ => ?_
  refine Frame.holds_ite (fun _ => Frame.holds_pure _) fun _ => ?_
  refine Frame.holds_bind Frame.holds_get fun w => ?_
  refine Frame.holds_bind (within_netDeviceToPeer _ _ _) fun dev => ?_
  exact Frame.holds_ite (fun _ => Frame.holds_throw _) fun _ => Frame.holds_pure _

/-- A command that changes the qdisc of one device. -/
theorem within_change {dev : String} {f : Devices → Option Qdisc}
    (hdev : touched (w₀.node n).host dev) (hcmd : ∀ s, tc cmd s = Function.update s dev (f s)) :
    (within start w₀ device touched).Holds (Node.run n cmd) := by
  refine within_run fun s other hother => ?_
  rw [hcmd, Function.update_of_ne]
  intro heq
  rw [heq] at hother
  exact hother hdev

theorem within_clearDevice {dev : String} (hdev : touched (w₀.node self.sourceNode).host dev) :
    (within start w₀ device touched).Holds (self.clearDevice dev) :=
  Frame.holds_bind (within_change hdev fun _ => tc_delRoot) fun _ => Frame.holds_pure _

theorem within_prepareDevice {dev : String} {netNum : Nat} {nodes : List NodeId}
    (hdev : touched (w₀.node self.sourceNode).host dev) :
    (within start w₀ device touched).Holds (self.prepareDevice dev netNum nodes) := by
  refine Frame.holds_bind (Frame.holds_tryCatch (within_clearDevice hdev) fun e => ?_) fun _ => ?_
  · cases e <;> first | exact Frame.holds_throw _ | exact Frame.holds_pure _
  · refine Frame.holds_bind Frame.holds_get fun w => ?_
    refine Frame.holds_bind (within_change hdev fun _ => tc_replaceRoot _ _) fun _ => ?_
    refine Frame.holds_forM nodes fun node _ => Frame.holds_bind Frame.holds_get fun w => ?_
    refine Frame.holds_bind (holds_liftExcept _) fun ip => ?_
    exact Frame.holds_bind (within_change hdev fun _ => tc_addFilter _ _) fun _ => Frame.holds_pure _

/-! ## The devices of an object -/

theorem uses_iff (hon : onward.rel w w') {dev : String} :
    self.Uses w' device dev ↔ self.Uses w device dev := by
  unfold Uses
  simp only [peer_iff hon, graph_nodeHost hon.1]

/-- A device is only listed for a node. -/
theorem getNodesByDev_listed {d : Dict String (Nat × List NodeId)}
    (hr : Returns self.getNodesByDev w d w') : ∀ dev v, d.get? dev = some v → v.2 ≠ [] := by
  unfold getNodesByDev at hr
  rw [returns_get_bind] at hr
  refine hr.foldlM_invariant (fun _ d _ => ∀ dev v, d.get? dev = some v → v.2 ≠ []) ?_ ?_
  · intro dev v hget
    cases hget
  · intro _ netNum _ d₁ w₁ d₂ w₂ _ hd₁ hnet
    refine hnet.foldlM_invariant (fun _ d _ => ∀ dev v, d.get? dev = some v → v.2 ≠ []) hd₁ ?_
    intro _ node _ d₃ w₃ d₄ w₄ _ hd₃ hnode
    unfold addToDev at hnode
    split at hnode
    · obtain ⟨rfl, rfl⟩ := returns_pure.mp hnode
      exact hd₃
    · rw [returns_get_bind] at hnode
      obtain ⟨dev, w₅, -, hnode⟩ := returns_bind.mp hnode
      dsimp only at hnode
      split at hnode
      · cases returns_throw.mp hnode
      · obtain ⟨rfl, rfl⟩ := returns_pure.mp hnode
        intro dev' v hget
        rw [Dict.get?_set] at hget
        split at hget
        · rw [← Option.some.inj hget]
          simp
        · exact hd₃ dev' v hget

theorem getNodesByDev_uses {d : Dict String (Nat × List NodeId)} (hr : Returns self.getNodesByDev w d w')
    (hnamed : RoutesAgree w' device) (dev : String) :
    (∃ v, (dev, v) ∈ d.entries) ↔ self.Uses w device dev := by
  obtain ⟨-, hgrouped⟩ := getNodesByDev_returns (device (w.node self.sourceNode).host) rfl hr
  have hd := hgrouped (hnamed _)
  constructor
  · rintro ⟨⟨netNum, nodes⟩, hmem⟩
    have hget := Dict.get?_eq_some_iff.mpr hmem
    obtain ⟨p, hp⟩ := List.exists_mem_of_ne_nil nodes (getNodesByDev_listed hr dev _ hget)
    obtain ⟨hdone, haddr⟩ := hd.only dev netNum nodes hget p hp
    obtain ⟨addr, _, hfound, -, -⟩ := hd.listed p netNum hdone
    exact ⟨p, netNum, addr, ⟨hdone.1, hdone.2.1, hdone.2.2, hfound⟩, haddr addr hfound⟩
  · rintro ⟨p, i, addr, hp, rfl⟩
    obtain ⟨found, nodes, hfound, hget, -⟩ := hd.listed p i ⟨hp.1, hp.2.1, hp.2.2.1⟩
    rw [hp.2.2.2] at hfound
    rw [Option.some.inj hfound]
    exact ⟨_, Dict.get?_eq_some_iff.mp hget⟩

/-- A loop over the devices of the object, as `__init__` and `reset` have one. -/
theorem within_devices {f : String × Nat × List NodeId → Py PUnit}
    (htouched : ∀ dev, self.Uses w₀ device dev → touched (w₀.node self.sourceNode).host dev)
    (hf : ∀ touched e, touched (w₀.node self.sourceNode).host e.1 →
      (within start w₀ device touched).Holds (f e)) :
    (within start w₀ device touched).Holds (self.getNodesByDev >>= fun d => d.entries.forM f) := by
  intro w
  have hlookup : (within start w₀ device touched).rel w (exec self.getNodesByDev w).2 :=
    within_getNodesByDev self w
  rcases hexec : exec self.getNodesByDev w with ⟨e | d, w₁⟩
  · rw [hexec] at hlookup
    rw [exec_bind_of_error hexec]
    exact hlookup
  · rw [hexec] at hlookup
    rw [exec_bind_of_ok hexec]
    -- the loop changes what is listed, and what is listed is used
    have hloop := Frame.holds_forM (F := within start w₀ device fun k dev =>
      k = (w₀.node self.sourceNode).host ∧ ∃ v, (dev, v) ∈ d.entries) d.entries
      (fun e he => hf _ e ⟨rfl, e.2, he⟩) w₁
    refine ⟨onward.trans hlookup.1 hloop.1, fun hon hnamed k dev hdev => ?_⟩
    have hnamed₁ := hnamed.of_onward hloop.1
    rw [hloop.2 (onward.trans hon hlookup.1) hnamed k dev, hlookup.2 hon hnamed₁ k dev hdev]
    rintro ⟨rfl, hlisted⟩
    apply hdev
    apply htouched
    rw [← uses_iff hon]
    exact (getNodesByDev_uses hexec hnamed₁ dev).mp hlisted

theorem within_onNetwork {command : Nat → String → List String} {t : NodeId} {netNum : Nat}
    {new : Option (List String)} (hcommand : SetsLeaves command new) (ht : t ∈ self.nodes)
    (hother : t ≠ self.sourceNode) (hnet : netNum < (w₀.addrs self.sourceNode).length)
    (htouched : ∀ dev, self.Uses w₀ device dev → touched (w₀.node self.sourceNode).host dev) :
    (within start w₀ device touched).Holds (self.onNetwork command t netNum) := by
  refine Frame.holds_get_bind fun w => ?_
  have hlookup : (within start w₀ device touched).rel w
      (exec (Host.netDeviceToPeer (w.node self.sourceNode).host (w.node t).host netNum) w).2 :=
    within_netDeviceToPeer _ _ netNum w
  rcases hexec : exec (Host.netDeviceToPeer (w.node self.sourceNode).host (w.node t).host netNum) w
    with ⟨e | dev, w₁⟩
  · rw [hexec] at hlookup
    rw [exec_bind_of_error hexec]
    exact hlookup
  · rw [hexec] at hlookup
    rw [exec_bind_of_ok hexec]
    obtain ⟨-, addr, haddr, hroute⟩ := netDeviceToPeer_returns hexec
    obtain ⟨f, -, htc⟩ := hcommand (w.node t).id
    have hrun := (Frame.holds_bind (F := within start w₀ device fun k other =>
      k = (w₀.node self.sourceNode).host ∧ other = dev) (within_change ⟨rfl, rfl⟩ fun s => htc dev s)
      fun _ => Frame.holds_pure PUnit.unit) w₁
    refine ⟨onward.trans hlookup.1 hrun.1, fun hon hnamed k other hdev => ?_⟩
    have hnamed₁ := hnamed.of_onward hrun.1
    rw [hrun.2 (onward.trans hon hlookup.1) hnamed k other, hlookup.2 hon hnamed₁ k other hdev]
    rintro ⟨rfl, rfl⟩
    apply hdev
    apply htouched
    refine ⟨t, netNum, addr, ⟨ht, hother, hnet, ?_⟩, ?_⟩
    · rw [← onward_addrs hon]
      exact haddr
    · rw [← graph_nodeHost hon.1]
      exact (hroute _ (hnamed₁ _)).symm

/-- An action changes no device that the object does not use. -/
theorem within_action {a : Action} (hvalid : a.Valid self)
    (htouched : ∀ dev, self.Uses w₀ device dev → touched (w₀.node self.sourceNode).host dev) :
    (within start w₀ device touched).Holds (a.exec self) := by
  cases a with
  | init => exact within_devices htouched fun _ _ hdev => within_prepareDevice hdev
  | reset => exact within_devices htouched fun _ _ hdev => within_clearDevice hdev
  | call c =>
    obtain ⟨command, hexec, hcommand⟩ := setsLeaves_setting self c
    change (within start w₀ device touched).Holds (c.exec self)
    rw [hexec]
    intro w
    refine ⟨onward_onNetworks self command c.toNode w, fun hon => ?_⟩
    have hnets : (within start w₀ device touched).rel w
        (exec (self.onNetworks command c.toNode) w).2 := by
      refine Frame.holds_forM _ (fun netNum hnet => ?_) w
      apply within_onNetwork hcommand hvalid.1 hvalid.2 ?_ htouched
      rw [← onward_addrs hon]
      exact List.mem_range.mp hnet
    exact hnets.2 hon

/-! ## All actions -/

theorem afterAll_append (w : World) (as bs : List (TrafficControl × Action)) :
    afterAll w (as ++ bs) = afterAll (afterAll w as) bs := List.foldl_append

/-- Actions change no device that none of their objects uses. -/
theorem within_afterAll {as : List (TrafficControl × Action)} (hvalid : ∀ a ∈ as, a.2.Valid a.1)
    (htouched : ∀ a ∈ as, ∀ dev, a.1.Uses w₀ device dev →
      touched (w₀.node a.1.sourceNode).host dev) :
    (within start w₀ device touched).rel w (afterAll w as) := by
  induction as generalizing w with
  | nil => exact (within start w₀ device touched).refl w
  | cons a as ih =>
    have hfirst : (within start w₀ device touched).rel w (exec (a.2.exec a.1) w).2 :=
      within_action (hvalid a List.mem_cons_self) (htouched a List.mem_cons_self) w
    have hrest := ih (w := (exec (a.2.exec a.1) w).2)
      (fun b hb => hvalid b (List.mem_cons_of_mem a hb))
      (fun b hb => htouched b (List.mem_cons_of_mem a hb))
    exact (within start w₀ device touched).trans hfirst hrest

theorem onward_reset (self : TrafficControl) : onward.Holds self.reset := by
  intro w
  have hvalid : Action.reset.Valid self := trivial
  have h : (within (fun _ _ => none) w (fun _ dev => dev) fun _ _ => True).rel w
      (exec (Action.reset.exec self) w).2 := within_action hvalid (fun _ _ => trivial) w
  exact h.1

theorem onward_afterAll {as : List (TrafficControl × Action)} (hvalid : ∀ a ∈ as, a.2.Valid a.1)
    (w : World) : onward.rel w (afterAll w as) := by
  have h : (within (fun _ _ => none) w (fun _ dev => dev) fun _ _ => True).rel w (afterAll w as) :=
    within_afterAll hvalid fun _ _ _ _ => trivial
  exact h.1

/-- A `reset` that returns has deleted the qdiscs of all devices of the object. -/
theorem reset_returns {u : PUnit} {dev : String} (s : Devices) (hr : Returns self.reset w u w')
    (hnamed : RoutesAgree w' device) (hdev : self.Uses w device dev) :
    w'.devices s (w.node self.sourceNode).host dev = none := by
  obtain ⟨d, w₁, hgroup, hr⟩ := returns_bind.mp hr
  have hon := (getNodesByDev_returns (device (w.node self.sourceNode).host) rfl hgroup).1
  have hloop := hr.forM_invariant (fun pre w' => onward.rel w₁ w' ∧ ∀ e ∈ pre,
    w'.devices s (w.node self.sourceNode).host e.1 = none) ?_ ?_
  · obtain ⟨v, hlisted⟩ := (getNodesByDev_uses hgroup (hnamed.of_onward hloop.1) dev).mpr hdev
    exact hloop.2 _ hlisted
  · exact ⟨onward.refl w₁, by simp⟩
  · rintro pre e post w₂ w₃ - ⟨hon₁, hpre⟩ hclear
    obtain ⟨out, hrun⟩ := returns_drop.mp hclear
    have hhost : (w₂.node self.sourceNode).host = (w.node self.sourceNode).host :=
      (graph_nodeHost hon₁.1 _).trans (graph_nodeHost hon.1 _)
    refine ⟨onward.trans hon₁ ((onward_run _ _).rel_of_returns hrun), fun e' he' => ?_⟩
    rw [devices_run_returns s hhost hrun, tc_delRoot]
    by_cases hkey : e'.1 = e.1
    · rw [hkey, Function.update_self]
    · rw [Function.update_of_ne hkey]
      rcases List.mem_append.mp he' with he' | he'
      · exact hpre e' he'
      · rw [List.mem_singleton.mp he'] at hkey
        exact absurd rfl hkey

/-- Whatever was done with the objects before, and with those of other hosts after. -/
theorem reset_restores {before after : List (TrafficControl × Action)} {u : PUnit}
    (start : HostId → Devices) (hbefore : ∀ a ∈ before, a.2.Valid a.1)
    (hreset : Returns self.reset (afterAll w₀ before) u w)
    (hafter : ∀ a ∈ after, a.2.Valid a.1 ∧
      (w₀.node a.1.sourceNode).host ≠ (w₀.node self.sourceNode).host)
    (hnamed : RoutesAgree (afterAll w after) device) :
    (∀ dev, self.Uses w₀ device dev → (afterAll w after).devices
      (start (w₀.node self.sourceNode).host) (w₀.node self.sourceNode).host dev = none) ∧
    ∀ k dev, (∀ a ∈ before ++ (self, .reset) :: after, (w₀.node a.1.sourceNode).host = k →
        ¬ a.1.Uses w₀ device dev) →
      (afterAll w after).devices (start k) k dev = w₀.devices (start k) k dev := by
  have hall : afterAll w₀ (before ++ (self, .reset) :: after) = afterAll w after := by
    rw [afterAll_append]
    change afterAll (exec self.reset (afterAll w₀ before)).2 after = afterAll w after
    rw [show exec self.reset (afterAll w₀ before) = (.ok u, w) from hreset]
  have hstart := onward_afterAll hbefore w₀
  constructor
  · intro dev hdev
    have hreset' := (onward_reset self).rel_of_returns hreset
    have hrest : (within start w₀ device fun k _ => k ≠ (w₀.node self.sourceNode).host).rel w
        (afterAll w after) :=
      within_afterAll (fun a ha => (hafter a ha).1) fun a ha _ _ => (hafter a ha).2
    rw [hrest.2 (onward.trans hstart hreset') hnamed _ dev (by simp)]
    have hcleared := reset_returns (start (w₀.node self.sourceNode).host) hreset
      (hnamed.of_onward hrest.1) ((uses_iff hstart).mpr hdev)
    rw [graph_nodeHost hstart.1] at hcleared
    exact hcleared
  · intro k dev hunused
    have hwithin : (within start w₀ device fun k dev => ∃ a ∈ before ++ (self, .reset) :: after,
        (w₀.node a.1.sourceNode).host = k ∧ a.1.Uses w₀ device dev).rel w₀
        (afterAll w₀ (before ++ (self, .reset) :: after)) := by
      apply within_afterAll
      · intro a ha
        rcases List.mem_append.mp ha with ha | ha
        · exact hbefore a ha
        · rcases List.mem_cons.mp ha with rfl | ha
          · trivial
          · exact (hafter a ha).1
      · intro a ha dev huses
        exact ⟨a, ha, rfl, huses⟩
    rw [hall] at hwithin
    apply hwithin.2 (onward.refl w₀) hnamed k dev
    rintro ⟨a, ha, hhost, huses⟩
    exact hunused a ha hhost huses

/-- One object: a node is slowed down, and then everything is reset. -/
theorem reset_two :
    ∃ w, Returns (TrafficControl.mk 0 [0, 1]).reset
        (afterAll oneNetwork [(⟨0, [0, 1]⟩, .init), (⟨0, [0, 1]⟩, .call (.slowDown 1 "1mbit" ""))]) ⟨⟩ w ∧
      w.devices (fun _ => none) 0 "eth0" = none := by
  have hr := returns_of_toBool (m := (TrafficControl.mk 0 [0, 1]).reset)
    (s := afterAll oneNetwork
      [(⟨0, [0, 1]⟩, .init), (⟨0, [0, 1]⟩, .call (.slowDown 1 "1mbit" ""))]) (by decide +kernel)
  have hvalid : ∀ a ∈ [(TrafficControl.mk 0 [0, 1], Action.init),
      (TrafficControl.mk 0 [0, 1], Action.call (.slowDown 1 "1mbit" ""))], a.2.Valid a.1 := by
    intro a ha
    rcases List.mem_cons.mp ha with rfl | ha
    · trivial
    · obtain rfl := List.mem_singleton.mp ha
      exact ⟨by decide, by decide⟩
  refine ⟨_, hr, ?_⟩
  have hon := onward_afterAll hvalid oneNetwork
  have hon' := (onward_reset _).rel_of_returns hr
  have hafter : ∀ a ∈ ([] : List (TrafficControl × Action)), a.2.Valid a.1 ∧
      (oneNetwork.node a.1.sourceNode).host ≠ (oneNetwork.node 0).host := by simp
  have hnamed : RoutesAgree (afterAll _ []) fun _ _ => "eth0" := fun h =>
    oneNetwork_named (graph_env (onward.trans hon hon').1) h
  refine (reset_restores (fun _ _ => none) hvalid hr hafter hnamed).1 "eth0" ?_
  exact ⟨1, 0, ⟨"2", by decide, by decide⟩, ⟨by decide, by decide, by decide, rfl⟩, rfl⟩

end DrbdTests.TrafficControl
