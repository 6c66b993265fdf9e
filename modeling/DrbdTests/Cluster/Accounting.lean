import DrbdTests.Cluster.Creation
import DrbdTests.Lib.Ledger
import Mathlib.Algebra.BigOperators.Group.Finset.Basic

/-!
# Accounts of devices

The commands that made and removed devices are the events of a `Ledger`. A `DiskVolume` is a
stack of objects, its layers above the backing volume. `Balanced w held` says that the
stacks in `held` are what has been made and not removed. Most calls are `quiet`: they add no
event. `create_disk` adds a stack to what is held, and `remove` takes one away.
-/

namespace DrbdTests

open Stateful Runs Ledger

/-- The event that a command with this effect is. -/
def Effect.event : Effect → Option (Event ObjectId)
  | create object on => some (.made object on)
  | remove object => some (.gone object)
  | removePool => some .closed
  | none | createPool | upload _ => Option.none

/-- The events so far, the first one first. -/
def World.ledger (w : World) : List (Event ObjectId) :=
  w.record.reverse.filterMap fun r => r.effect.event

/-- The objects of a volume, from the topmost layer down. -/
def DiskVolume.stack : DiskVolume → List ObjectId
  | backing object _ _ => [object]
  | deviceMapperTarget object _ _ _ backingVolume => object :: backingVolume.stack

/-- The devices of a volume. -/
def Volume.stacks (v : Volume) : Multiset (List ObjectId) :=
  ((v.diskVolume.toList ++ v.metaVolume.toList).map DiskVolume.stack : List (List ObjectId))

/-- What is held has been made and not been removed, and unused numbers have not been made. -/
def Balanced (w : World) (held : Multiset (List ObjectId)) : Prop :=
  Accounts w.ledger held ∧ ∀ o, w.objectCount ≤ o → made o w.ledger = 0

/-- Neither an event nor a new object. -/
def quiet : Frame World := Frame.fixing fun w => (w.ledger, w.objectCount)

variable {w w' : World} {held : Multiset (List ObjectId)} {n : NodeId}

theorem Balanced.quietly (h : Balanced w held) (hq : quiet.rel w w') : Balanced w' held := by
  have hl : w'.ledger = w.ledger := congrArg Prod.fst hq
  have hc : w'.objectCount = w.objectCount := congrArg Prod.snd hq
  rw [Balanced, hl, hc]
  exact h

/-! ## Calls without events -/

theorem ledger_request (w : World) (r : Request) (ok : Bool) :
    World.ledger { w with requests := (r, ok) :: w.requests } =
      w.ledger ++ (if ok then r.effect.event.toList else []) := by
  unfold World.ledger World.record
  by_cases h : ok ∧ r.effect ≠ .none
  · rw [List.filter_cons_of_pos (by simpa using h)]
    rcases he : r.effect.event with _ | e <;> simp [h.1, he]
  · rw [List.filter_cons_of_neg (by simpa using h)]
    by_cases hok : ok = true
    · have hnone : r.effect = .none := by
        by_contra hne
        exact h ⟨hok, hne⟩
      simp [hnone, Effect.event]
    · simp [hok]

theorem quiet_request {r : Request} (h : r.effect.event = none) (ok : Bool) :
    quiet.rel w { w with requests := (r, ok) :: w.requests } := by
  have hl := ledger_request w r ok
  rw [h] at hl
  exact Prod.ext (by simpa using hl) rfl

theorem quiet_of_asking {α : Type} {m : Py α} (h : asking.Holds m) : quiet.Holds m :=
  h.mono fun w w' hw => by
    have hcount := congrArg World.objectCount hw.1
    refine Prod.ext ?_ hcount
    change w'.ledger = w.ledger
    rw [World.ledger, hw.2, World.ledger]

theorem quiet_setNode {f : Node → Node} : quiet.rel w (w.setNode n f) := rfl

theorem quiet_setResource {r : ResourceId} {f : Resource → Resource} :
    quiet.rel w (w.setResource r f) := rfl

theorem quiet_setHost {h : HostId} {f : Host → Host} : quiet.rel w (w.setHost h f) := rfl

theorem quiet_touch (w : World) (nodes : List NodeId) : quiet.rel w (w.touch nodes) := by
  unfold World.touch
  induction nodes generalizing w with
  | nil => rfl
  | cons n nodes ih => exact quiet.trans quiet_setNode (ih _)

theorem quiet_act (host : HostId) (cmd : List String) (stdin : Option String) {effect : Effect}
    (h : effect.event = none) : quiet.Holds (Host.act host cmd stdin effect) :=
  Frame.holds_bind (holds_runWith fun _ ok => quiet_request (r := .command host cmd stdin effect) h ok)
    fun _ => Frame.holds_pure _

theorem quiet_updateConfig (n : NodeId) : quiet.Holds (Node.updateConfig n) := by
  refine Frame.holds_bind Frame.holds_get fun w => Frame.holds_when fun _ => ?_
  refine Frame.holds_bind (Frame.holds_modify fun w => quiet_setNode) fun _ => ?_
  refine Frame.holds_bind (holds_liftExcept _) fun config => ?_
  exact quiet_act _ _ _ rfl

theorem quiet_nodeRunWith (updateConfig catching : Bool) (n : NodeId) (cmd : List String) :
    quiet.Holds (Node.runWith updateConfig catching n cmd) := by
  refine Frame.holds_bind (Frame.holds_when fun _ => quiet_updateConfig n) fun _ => ?_
  exact Frame.holds_bind Frame.holds_get fun w =>
    quiet_of_asking (asking_runWith catching _ cmd none)

theorem quiet_createMd (n : NodeId) (volume : Volume) (maxPeers bitmapBlockSize : Option Nat)
    (md : MdArgs) : quiet.Holds (volume.createMd n maxPeers bitmapBlockSize md) := by
  refine Frame.holds_bind Frame.holds_get fun _ => Frame.holds_bind Frame.holds_get fun w => ?_
  refine Frame.holds_bind (Frame.holds_when fun _ => Frame.holds_throw _) fun _ => ?_
  refine Frame.holds_bind (Frame.holds_when fun _ => ?_) fun _ => ?_
  · refine Frame.holds_bind ?_ fun _ => Frame.holds_when fun _ => Frame.holds_throw _
    refine Frame.holds_bind Frame.holds_get fun w => ?_
    split
    · exact Frame.holds_pure _
    · refine Frame.holds_bind (quiet_of_asking (asking_run _ _)) fun out => ?_
      exact Frame.holds_bind (Frame.holds_modify fun w => quiet_setHost) fun _ => Frame.holds_pure _
  · refine Frame.holds_bind ?_ fun _ => Frame.holds_pure _
    exact Frame.holds_bind Frame.holds_get fun _ => quiet_nodeRunWith true false n _

theorem quiet_hostCreateStoragePool (h : HostId) (thin : Bool) (discardGranularity : Option Nat) :
    quiet.Holds (Host.createStoragePool h thin discardGranularity) := by
  refine Frame.holds_bind Frame.holds_get fun w => ?_
  refine Frame.holds_bind (Frame.holds_when fun _ => Frame.holds_throw _) fun _ => ?_
  refine Frame.holds_bind ?_ fun pool => Frame.holds_modify fun w => quiet_setHost
  unfold createStoragePool
  split
  · refine Frame.holds_bind Frame.holds_get fun _ => ?_
    refine Frame.holds_bind (quiet_act _ _ _ rfl) fun _ => ?_
    exact Frame.holds_bind (Frame.holds_when fun _ => quiet_act _ _ _ rfl) fun _ =>
      Frame.holds_pure _
  · exact Frame.holds_ite (fun _ => Frame.holds_throw _) fun _ => Frame.holds_pure _
  · refine Frame.holds_bind Frame.holds_get fun _ => ?_
    exact Frame.holds_bind (quiet_act _ _ _ rfl) fun _ => Frame.holds_pure _
  · exact Frame.holds_pure _

/-! ## Devices are made -/

/-- The number belongs to an object that has no device yet. -/
def NotMade (w : World) (object : ObjectId) : Prop :=
  made object w.ledger = 0 ∧ object < w.objectCount

theorem NotMade.quietly {object : ObjectId} (h : NotMade w object) (hq : quiet.rel w w') :
    NotMade w' object := by
  have hl : w'.ledger = w.ledger := congrArg Prod.fst hq
  have hc : w'.objectCount = w.objectCount := congrArg Prod.snd hq
  rw [NotMade, hl, hc]
  exact h

theorem Balanced.newObject {object : ObjectId} (h : Balanced w held)
    (hr : Returns newObject w object w') : Balanced w' held ∧ NotMade w' object := by
  cases hr
  refine ⟨⟨h.1, fun o ho => h.2 o (Nat.le_of_succ_le ho)⟩, h.2 _ (Nat.le_refl _), ?_⟩
  exact Nat.lt_succ_self _

/-- A command that is an event adds it to the ledger. -/
theorem act_event {host : HostId} {cmd : List String} {stdin : Option String} {effect : Effect}
    {e : Event ObjectId} {u : PUnit} (he : effect.event = some e)
    (hr : Returns (Host.act host cmd stdin effect) w u w') :
    w'.ledger = w.ledger ++ [e] ∧ w'.objectCount = w.objectCount := by
  rw [act_returns hr, ledger_request]
  simp [Request.effect, he]

theorem Balanced.actCreate {host : HostId} {cmd : List String} {stdin : Option String}
    {object : ObjectId} {u : PUnit} (h : Balanced w held) (hnew : NotMade w object)
    (hr : Returns (Host.act host cmd stdin (.create object none)) w u w') :
    Balanced w' ([object] ::ₘ held) := by
  obtain ⟨hl, hc⟩ := act_event rfl hr
  rw [Balanced, hl, hc]
  refine ⟨h.1.base hnew.1, fun o ho => ?_⟩
  have hne : object ≠ o := Nat.ne_of_lt (Nat.lt_of_lt_of_le hnew.2 ho)
  rw [made_append, h.2 o ho, made_singleton_made, if_neg hne]

theorem Balanced.actCreateOn {host : HostId} {cmd : List String} {stdin : Option String}
    {object on : ObjectId} {rest : List ObjectId} {u : PUnit}
    (h : Balanced w ((on :: rest) ::ₘ held)) (hnew : NotMade w object)
    (hr : Returns (Host.act host cmd stdin (.create object (some on))) w u w') :
    Balanced w' ((object :: on :: rest) ::ₘ held) := by
  obtain ⟨hl, hc⟩ := act_event rfl hr
  rw [Balanced, hl, hc]
  refine ⟨h.1.layer hnew.1, fun o ho => ?_⟩
  have hne : object ≠ o := Nat.ne_of_lt (Nat.lt_of_lt_of_le hnew.2 ho)
  rw [made_append, h.2 o ho, made_singleton_made, if_neg hne]

theorem Balanced.actRemove {host : HostId} {cmd : List String} {stdin : Option String}
    {object : ObjectId} {rest : List ObjectId} {u : PUnit}
    (h : Balanced w ((object :: rest) ::ₘ held))
    (hr : Returns (Host.act host cmd stdin (.remove object)) w u w') :
    Balanced w' (rest ::ₘ held) := by
  obtain ⟨hl, hc⟩ := act_event rfl hr
  rw [Balanced, hl, hc]
  refine ⟨h.1.gone, fun o ho => ?_⟩
  rw [made_append, h.2 o ho, made_singleton_gone]

theorem Balanced.of_quiet {α : Type} {m : Py α} {a : α} (h : Balanced w held) (hq : quiet.Holds m)
    (hr : Returns m w a w') : Balanced w' held := h.quietly (hq.rel_of_returns hr)

/-- `create_disk` of a pool makes a device that stands on nothing. -/
theorem Balanced.poolCreateDisk {h : HostId} {pool : StoragePool} {name size : String}
    {maxSize : Option String} {d : DiskVolume} (hb : Balanced w held)
    (hr : Returns (pool.createDisk h name size maxSize) w d w') :
    Balanced w' (d.stack ::ₘ held) := by
  unfold StoragePool.createDisk at hr
  obtain ⟨backend, backingDevice, thin, discardGranularity⟩ := pool
  cases backend with
  | lvm =>
    obtain ⟨object, w₁, hobj, hr⟩ := returns_bind.mp hr
    obtain ⟨hb₁, hnew⟩ := hb.newObject hobj
    rw [returns_get_bind] at hr
    obtain ⟨_, w₂, hact, hr⟩ := returns_bind.mp hr
    obtain ⟨rfl, rfl⟩ := returns_pure.mp hr
    exact hb₁.actCreate hnew hact
  | raw =>
    obtain ⟨object, w₁, hobj, hr⟩ := returns_bind.mp hr
    obtain ⟨hb₁, hnew⟩ := hb.newObject hobj
    rw [returns_get_bind] at hr
    obtain ⟨_, w₂, hact, hr⟩ := returns_bind.mp hr
    obtain ⟨_, w₃, hpartx, hr⟩ := returns_bind.mp hr
    obtain ⟨_, w₄, htrigger, hr⟩ := returns_bind.mp hr
    obtain ⟨_, w₅, hsettle, hr⟩ := returns_bind.mp hr
    obtain ⟨_, w₆, hnr, hr⟩ := returns_bind.mp hr
    obtain ⟨rfl, rfl⟩ := returns_pure.mp hr
    have h₂ := hb₁.actCreate hnew hact
    have h₃ := h₂.of_quiet (quiet_act _ _ _ rfl) hpartx
    have h₄ := h₃.of_quiet (quiet_act _ _ _ rfl) htrigger
    have h₅ := h₄.of_quiet (quiet_act _ _ _ rfl) hsettle
    exact h₅.of_quiet (quiet_of_asking (asking_run _ _)) hnr
  | zfs =>
    obtain ⟨object, w₁, hobj, hr⟩ := returns_bind.mp hr
    obtain ⟨hb₁, hnew⟩ := hb.newObject hobj
    rw [returns_get_bind] at hr
    obtain ⟨_, w₂, hact, hr⟩ := returns_bind.mp hr
    obtain ⟨_, w₃, htrigger, hr⟩ := returns_bind.mp hr
    obtain ⟨_, w₄, hsettle, hr⟩ := returns_bind.mp hr
    obtain ⟨rfl, rfl⟩ := returns_pure.mp hr
    have h₂ := hb₁.actCreate hnew hact
    have h₃ := h₂.of_quiet (quiet_act _ _ _ rfl) htrigger
    exact h₃.of_quiet (quiet_act _ _ _ rfl) hsettle
  | storageSpaces =>
    obtain ⟨object, w₁, hobj, hr⟩ := returns_bind.mp hr
    obtain ⟨hb₁, hnew⟩ := hb.newObject hobj
    obtain ⟨bytes, w₂, hbytes, hr⟩ := returns_bind.mp hr
    have hq : quiet.rel w₁ w₂ := (holds_liftExcept _).rel_of_returns hbytes
    obtain ⟨_, w₃, hact, hr⟩ := returns_bind.mp hr
    obtain ⟨line, w₄, hlist, hr⟩ := returns_bind.mp hr
    have h₃ := (hb₁.quietly hq).actCreate (hnew.quietly hq) hact
    split at hr
    · obtain ⟨rfl, rfl⟩ := returns_pure.mp hr
      exact h₃.of_quiet (quiet_of_asking (asking_run _ _)) hlist
    · exact absurd hr (by simp)

theorem DiskVolume.stack_eq (d : DiskVolume) : ∃ rest, d.stack = d.object :: rest := by
  cases d with
  | backing object host volume => exact ⟨[], rfl⟩
  | deviceMapperTarget object host dmType deviceName backingVolume =>
    exact ⟨backingVolume.stack, rfl⟩

/-- A layer comes on top of its volume. -/
theorem Balanced.addLayer {h : HostId} {name : String} {dmType : DmType} {parameter : Option Nat}
    {d d' : DiskVolume} (hb : Balanced w (d.stack ::ₘ held))
    (hr : Returns (DrbdTests.addLayer h name dmType parameter d) w d' w') :
    Balanced w' (d'.stack ::ₘ held) := by
  cases parameter with
  | none =>
    obtain ⟨rfl, rfl⟩ := returns_pure.mp hr
    exact hb
  | some k =>
    obtain ⟨object, w₁, hobj, hr⟩ := returns_bind.mp hr
    obtain ⟨hb₁, hnew⟩ := hb.newObject hobj
    obtain ⟨sectors, w₂, hsectors, hr⟩ := returns_bind.mp hr
    have hq := (quiet_of_asking (asking_run _ _)).rel_of_returns hsectors
    obtain ⟨_, w₃, hact, hr⟩ := returns_bind.mp hr
    obtain ⟨rfl, rfl⟩ := returns_pure.mp hr
    obtain ⟨rest, hstack⟩ := d.stack_eq
    have hb₂ := hb₁.quietly hq
    rw [hstack] at hb₂
    rw [DiskVolume.stack, hstack]
    exact hb₂.actCreateOn (hnew.quietly hq) hact

theorem Balanced.createDisk {h : HostId} {name size : String} {args : DiskArgs} {d : DiskVolume}
    (hb : Balanced w held) (hr : Returns (DrbdTests.createDisk h name size args) w d w') :
    Balanced w' (d.stack ::ₘ held) := by
  unfold DrbdTests.createDisk at hr
  rw [returns_get_bind] at hr
  split at hr
  · exact absurd hr (by simp)
  · obtain ⟨d₁, w₁, hpool, hr⟩ := returns_bind.mp hr
    obtain ⟨d₂, w₂, hdelay, hr⟩ := returns_bind.mp hr
    exact ((hb.poolCreateDisk hpool).addLayer hdelay).addLayer hr

/-! ## Devices are removed -/

/-- `remove` takes the layers away from the top, and then the backing volume. -/
theorem Balanced.remove {d : DiskVolume} {u : PUnit} (hb : Balanced w (d.stack ::ₘ held))
    (hr : Returns d.remove w u w') : Balanced w' held := by
  induction d generalizing w with
  | backing object host volume =>
    have h := hb.actRemove hr
    exact ⟨h.1.of_empty, h.2⟩
  | deviceMapperTarget object host dmType deviceName backingVolume ih =>
    obtain ⟨_, w₁, hact, hr⟩ := returns_bind.mp hr
    exact ih (hb.actRemove hact) hr

/-- The devices of an optional volume. -/
def stackOf (d : Option DiskVolume) : Multiset (List ObjectId) :=
  (d.toList.map DiskVolume.stack : List (List ObjectId))

theorem stacks_eq (v : Volume) : v.stacks = stackOf v.diskVolume + stackOf v.metaVolume := by
  simp [Volume.stacks, stackOf]

theorem Balanced.removeIfPresent {d : Option DiskVolume} {u : PUnit}
    (hb : Balanced w (stackOf d + held)) (hr : Returns (DrbdTests.removeIfPresent d) w u w') :
    Balanced w' held := by
  cases d with
  | none =>
    obtain ⟨-, rfl⟩ := returns_pure.mp hr
    simpa [stackOf] using hb
  | some d =>
    refine Balanced.remove (d := d) ?_ hr
    simpa [stackOf] using hb

theorem Balanced.removeVolumes {disks : List Volume} {u : PUnit}
    (hb : Balanced w ((disks.map Volume.stacks).sum + held))
    (hr : Returns (disks.forM Volume.removeDisks) w u w') : Balanced w' held := by
  induction disks generalizing w with
  | nil =>
    rw [returns_forM_nil] at hr
    subst hr
    simpa using hb
  | cons v disks ih =>
    obtain ⟨w₁, hv, hr⟩ := returns_forM_cons.mp hr
    obtain ⟨_, w₂, hdisk, hmeta⟩ := returns_bind.mp hv
    rw [List.map_cons, List.sum_cons, stacks_eq, add_assoc, add_assoc] at hb
    exact ih ((hb.removeIfPresent hdisk).removeIfPresent hmeta) hr

/-! ## The devices of nodes -/

/-- The devices of a node. -/
def World.nodeStacks (w : World) (n : NodeId) : Multiset (List ObjectId) :=
  ((w.node n).disks.map Volume.stacks).sum

/-- The devices of all nodes. -/
def World.stacks (w : World) : Multiset (List ObjectId) :=
  ∑ n ∈ Finset.range w.nodeCount, w.nodeStacks n

/-- The devices of all nodes but one. -/
def World.otherStacks (w : World) (n : NodeId) : Multiset (List ObjectId) :=
  ∑ m ∈ (Finset.range w.nodeCount).erase n, w.nodeStacks m

theorem stacks_eq_add (hn : n < w.nodeCount) : w.stacks = w.nodeStacks n + w.otherStacks n :=
  (Finset.add_sum_erase _ _ (Finset.mem_range.mpr hn)).symm

theorem stacks_congr (hcount : w'.nodeCount = w.nodeCount)
    (hs : ∀ n, n < w.nodeCount → w'.nodeStacks n = w.nodeStacks n) : w'.stacks = w.stacks := by
  unfold World.stacks
  rw [hcount]
  exact Finset.sum_congr rfl fun n hn => hs n (Finset.mem_range.mp hn)

theorem otherStacks_setNode {f : Node → Node} : (w.setNode n f).otherStacks n = w.otherStacks n := by
  refine Finset.sum_congr rfl fun m hm => ?_
  unfold World.nodeStacks
  rw [World.setNode_node, if_neg (Finset.ne_of_mem_erase hm)]

theorem stacks_of_layout (h : w'.layout = w.layout) : w'.stacks = w.stacks := by
  refine stacks_congr (congrArg Layout.nodeCount h) fun n _ => ?_
  have hdisks : (w'.node n).disks = (w.node n).disks := congrFun (congrArg Layout.disks h) n
  rw [World.nodeStacks, hdisks, World.nodeStacks]

/-- The volume that is stored under a number, if any, has no devices. -/
def ReplacesNoDisk (w : World) (n : NodeId) (number : Nat) : Prop :=
  ∀ old ∈ (w.node n).disks[number]?, old.diskVolume = none ∧ old.metaVolume = none

instance (w : World) (n : NodeId) (number : Nat) : Decidable (ReplacesNoDisk w n number) :=
  inferInstanceAs (Decidable (∀ old ∈ (w.node n).disks[number]?, _))

theorem sum_stacks_set {disks : List Volume} {number : Nat} {old v : Volume}
    (h : disks[number]? = some old) (hd : old.diskVolume = none) (hm : old.metaVolume = none) :
    ((disks.set number v).map Volume.stacks).sum = v.stacks + (disks.map Volume.stacks).sum := by
  induction disks generalizing number with
  | nil => simp at h
  | cons d disks ih =>
    cases number with
    | zero =>
      obtain rfl : d = old := by simpa using h
      have hzero : d.stacks = 0 := by simp [Volume.stacks, hd, hm]
      simp [hzero]
    | succ number =>
      rw [List.set_cons_succ, List.map_cons, List.sum_cons, ih (by simpa using h), List.map_cons,
        List.sum_cons]
      exact add_left_comm _ _ _

theorem stacks_storeVolume {number : Nat} {v : Volume} (hn : n < w.nodeCount)
    (h : ReplacesNoDisk w n number) :
    (w.storeVolume n number v).stacks = v.stacks + w.stacks := by
  have hstacks : (w.storeVolume n number v).nodeStacks n = v.stacks + w.nodeStacks n := by
    rw [World.nodeStacks, World.storeVolume, World.setNode_node, if_pos rfl]
    split
    · rename_i hlt
      have hold := List.getElem?_eq_getElem hlt
      obtain ⟨hd, hm⟩ := h _ hold
      exact sum_stacks_set hold hd hm
    · rw [List.map_append, List.sum_append, add_comm]
      simp [World.nodeStacks]
  have hn' : n < (w.storeVolume n number v).nodeCount := hn
  rw [stacks_eq_add hn', stacks_eq_add hn, hstacks, World.storeVolume, otherStacks_setNode, add_assoc]

theorem Balanced.newVolume {number : Nat} {size : Option String} {args : NodeDiskArgs} {v : Volume}
    (hb : Balanced w held) (hr : Returns (Node.newVolume n number size args) w v w') :
    Balanced w' (v.stacks + held) := by
  unfold Node.newVolume at hr
  rw [returns_get_bind] at hr
  obtain ⟨_, w₁, hpool, hr⟩ := returns_bind.mp hr
  have h₁ := hb.of_quiet (Frame.holds_when fun _ => quiet_hostCreateStoragePool _ _ _) hpool
  obtain ⟨v₀, w₂, hinit, hr⟩ := returns_bind.mp hr
  obtain ⟨-, -, hnodisk, hnometa, -⟩ := volumeInit_returns hinit
  have h₂ : Balanced w₂ held := by
    unfold Volume.init at hinit
    rw [returns_get_bind] at hinit
    have hobject : ∀ (m : Nat) {w₁ : World}, Balanced w₁ held → Returns (do
        let object ← DrbdTests.newObject
        return (⟨object, number, m, none, none, none, none, none⟩ : Volume)) w₁ v₀ w₂ →
        Balanced w₂ held := by
      intro m w₁ h₁ hret
      obtain ⟨object, w₃, hobj, hret⟩ := returns_bind.mp hret
      obtain ⟨-, rfl⟩ := returns_pure.mp hret
      exact (h₁.newObject hobj).1
    split at hinit
    · exact hobject _ h₁ hinit
    · obtain ⟨minor, w₃, hminor, hinit⟩ := returns_bind.mp hinit
      refine hobject _ (h₁.of_quiet ?_ hminor) hinit
      refine Frame.holds_bind (Frame.holds_modify fun w => quiet_setHost) fun _ => ?_
      exact Frame.holds_bind Frame.holds_get fun _ => Frame.holds_pure _
  cases size with
  | none =>
    obtain ⟨rfl, rfl⟩ := returns_pure.mp hr
    simpa [Volume.stacks, hnodisk, hnometa] using h₂
  | some size =>
    obtain ⟨v', w₃, hcreate, hr⟩ := returns_bind.mp hr
    obtain ⟨_, w₄, hzero, hr⟩ := returns_bind.mp hr
    obtain ⟨rfl, rfl⟩ := returns_pure.mp hr
    suffices h₃ : Balanced w₃ (v'.stacks + held) by
      refine h₃.of_quiet (Frame.holds_when fun _ => ?_) hzero
      exact Frame.holds_bind (quiet_nodeRunWith true false n _) fun _ => Frame.holds_pure _
    unfold Volume.createDisks at hcreate
    rw [returns_get_bind] at hcreate
    obtain ⟨d, w₅, hdisk, hcreate⟩ := returns_bind.mp hcreate
    have h₄ := h₂.createDisk hdisk
    split at hcreate
    · split at hcreate
      · obtain ⟨rfl, rfl⟩ := returns_pure.mp hcreate
        simpa [Volume.stacks, hnometa] using h₄
      · obtain ⟨m, w₆, hmeta, hcreate⟩ := returns_bind.mp hcreate
        obtain ⟨rfl, rfl⟩ := returns_pure.mp hcreate
        have h₅ := h₄.createDisk hmeta
        rw [Multiset.cons_swap] at h₅
        simpa [Volume.stacks, ← Multiset.cons_coe] using h₅
    · obtain ⟨rfl, rfl⟩ := returns_pure.mp hcreate
      simpa [Volume.stacks, hnometa] using h₄

/-- `Node.add_disk`, when it replaces nothing that has devices. -/
theorem Balanced.addDisk {number : Nat} {size : Option String} {args : NodeDiskArgs} {v : Volume}
    (hb : Balanced w w.stacks) (hn : n < w.nodeCount) (h : ReplacesNoDisk w n number)
    (hr : Returns (Node.addDisk n number size args) w v w') : Balanced w' w'.stacks := by
  obtain ⟨v', w₁, hnew, hr⟩ := returns_bind.mp hr
  obtain ⟨_, w₂, hstore, hr⟩ := returns_bind.mp hr
  rw [returns_modify] at hstore
  obtain ⟨rfl, rfl⟩ := returns_pure.mp hr
  subst hstore
  have hg := (keepingGraph_newVolume n number size args).rel_of_returns hnew
  have hl := layout_of_graph hg
  have h₁ : ReplacesNoDisk w₁ n number := by
    unfold ReplacesNoDisk
    rw [graph_disks hg]
    exact h
  rw [stacks_storeVolume ((graph_nodeCount hg).symm ▸ hn) h₁, stacks_of_layout hl]
  exact (hb.newVolume hnew).quietly quiet_setNode

/-- `Node.remove_disks` -/
theorem Balanced.removeDisks {u : PUnit} (hb : Balanced w w.stacks) (hn : n < w.nodeCount)
    (hr : Returns (Node.removeDisks n) w u w') : Balanced w' w'.stacks := by
  unfold Node.removeDisks at hr
  rw [returns_get_bind] at hr
  obtain ⟨_, w₁, hloop, hr⟩ := returns_bind.mp hr
  rw [returns_modify] at hr
  subst hr
  have hg := (Frame.holds_forM _ fun v _ => keepingGraph_commands.devices.volumeRemoveDisks v).rel_of_returns hloop
  have hcount : w₁.nodeCount = w.nodeCount := graph_nodeCount hg
  have hothers : w₁.otherStacks n = w.otherStacks n := by
    unfold World.otherStacks
    rw [hcount]
    exact Finset.sum_congr rfl fun m _ => by
      rw [World.nodeStacks, graph_disks hg, World.nodeStacks]
  have hstacks : (w₁.clearDisks n).stacks = w.otherStacks n := by
    have hn' : n < (w₁.clearDisks n).nodeCount := hcount.symm ▸ hn
    rw [stacks_eq_add hn', World.clearDisks, otherStacks_setNode, hothers, World.nodeStacks,
      World.setNode_node, if_pos rfl]
    simp
  rw [hstacks]
  rw [stacks_eq_add hn] at hb
  exact (hb.removeVolumes hloop).quietly quiet_setNode

end DrbdTests
