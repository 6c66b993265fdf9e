import Mathlib.Data.Set.Function
import DrbdTests.Cluster.Objects
import DrbdTests.Collections.Insertion

/-!
# Peer devices

A `PeerDevice` is hashed by the nodes of its `Connection` and by its `Volume`, but compared
by the identity of the two objects. `Connection` objects are made wherever they are needed,
so several of them can have the same two nodes. Then peer devices that denote the same thing
are different members.

`nodes` gives the two nodes of every `Connection` object. Among `Connection` objects of which
no two have the same nodes, the members of a collection are identified by what they denote
(`Identified`), and not otherwise.
-/

namespace DrbdTests.Hashed

open Stateful InsertionOrder Runs

/-- A `PeerDevice`, by the identity of its connection and its volume. -/
structure PeerDevice (nodes : ObjectId → NodeId × NodeId) where
  connection : ObjectId
  volume : ObjectId
  deriving Repr

namespace PeerDevice

variable {nodes : ObjectId → NodeId × NodeId}

/-- `__eq__` -/
instance : BEq (PeerDevice nodes) where
  beq self other := self.connection == other.connection && self.volume == other.volume

/-- `__hash__`: the hash of a `Connection` is that of its nodes. -/
instance : Hashable (PeerDevice nodes) where
  hash self := hash (hash (nodes self.connection), self.volume)

theorem beq_iff {pd other : PeerDevice nodes} :
    pd == other ↔ pd.connection = other.connection ∧ pd.volume = other.volume := by
  change (pd.connection == other.connection && pd.volume == other.volume) = true ↔ _
  simp

instance : EquivBEq (PeerDevice nodes) where
  rfl := beq_iff.mpr ⟨rfl, rfl⟩
  symm h := by
    rw [beq_iff] at h ⊢
    exact ⟨h.1.symm, h.2.symm⟩
  trans h h' := by
    rw [beq_iff] at h h' ⊢
    exact ⟨h.1.trans h'.1, h.2.trans h'.2⟩

instance : LawfulHashable (PeerDevice nodes) where
  hash_eq pd other h := by
    obtain ⟨hc, hv⟩ := beq_iff.mp h
    change hash (hash (nodes pd.connection), pd.volume) = _
    rw [hc, hv]
    rfl

/-- The same source node, target node and volume. -/
def Same (pd other : PeerDevice nodes) : Prop :=
  nodes pd.connection = nodes other.connection ∧ pd.volume = other.volume

theorem Same.symm {pd other : PeerDevice nodes} (h : pd.Same other) : other.Same pd :=
  ⟨h.1.symm, h.2.symm⟩

end PeerDevice

variable {nodes : ObjectId → NodeId × NodeId} {created : Set ObjectId}

/-- The class `PeerDevices`; `PeerDevice.resource` is the resource of the source node. -/
def peerDevices (nodes : ObjectId → NodeId × NodeId) (resource : NodeId → ResourceId) :
    MemberClass (PeerDevice nodes) ResourceId :=
  ⟨fun _ => true, fun pd => some (resource (nodes pd.connection).1)⟩

/-- The members of a collection are identified by what they denote, whichever of the created
`Connection` objects is used to ask for them. -/
structure Identified (resource : NodeId → ResourceId) (created : Set ObjectId)
    (s : OrderedSet (PeerDevice nodes)) : Prop where
  distinct : s.items.Pairwise fun pd other => ¬ pd.Same other
  remove : ∀ pd s', pd.connection ∈ created →
    Returns (Collection.remove (peerDevices nodes resource) pd) s ⟨⟩ s' →
    ∀ m ∈ s'.items, ¬ m.Same pd
  difference : ∀ pds d s', (∀ pd ∈ pds, pd.connection ∈ created) →
    Returns (Collection.difference (peerDevices nodes resource) pds) s d s' →
    ∀ m ∈ d.items, ∀ pd ∈ pds, ¬ m.Same pd
  contains : ∀ pd other, pd.connection ∈ created → other.connection ∈ created →
    pd.Same other → s.contains pd = s.contains other

/-- The peer devices passed to a call are built from the created `Connection` objects. -/
def Op.Over (created : Set ObjectId) (op : Op (PeerDevice nodes)) : Prop :=
  ∀ pd ∈ op.passed, pd.connection ∈ created

variable {resource : NodeId → ResourceId} {s : OrderedSet (PeerDevice nodes)}

/-- Among these objects, the same device means an equal one. -/
theorem beq_of_same (hinj : Set.InjOn nodes created) {pd other : PeerDevice nodes}
    (hpd : pd.connection ∈ created) (hother : other.connection ∈ created) (h : pd.Same other) :
    pd == other :=
  PeerDevice.beq_iff.mpr ⟨hinj hpd hother h.1, h.2⟩

theorem identified_of_injOn (hinj : Set.InjOn nodes created) {k : Kept (PeerDevice nodes)}
    (hk : k.Sound (peerDevices nodes resource))
    (hmem : ∀ pd ∈ k.members.items, pd.connection ∈ created) :
    Identified resource created k.members where
  distinct := by
    apply hk.distinct.imp_of_mem
    intro pd other hpd hother hne hsame
    rw [beq_of_same hinj (hmem pd hpd) (hmem other hother) hsame] at hne
    cases hne
  remove := by
    intro pd s' hpd hret m hm hsame
    obtain ⟨rfl, -⟩ := (Collection.returns_remove hk.oneResource).mp hret
    have hm' : m ∈ k.members.items.filter fun b => !(b == pd) :=
      erase_eq_filter hk.distinct pd ▸ hm
    obtain ⟨hm', hne⟩ := List.mem_filter.mp hm'
    rw [beq_of_same hinj (hmem m hm') hpd hsame] at hne
    cases hne
  difference := by
    intro pds d s' hpds hret m hm pd hpd hsame
    rw [Kept.items_of_difference hret, OrderedSet.items_difference] at hm
    obtain ⟨hm', hne⟩ := List.mem_filter.mp hm
    have hany : pds.any (m == ·) = true :=
      List.any_eq_true.mpr ⟨pd, hpd, beq_of_same hinj (hmem m hm') (hpds pd hpd) hsame⟩
    rw [hany] at hne
    cases hne
  contains := by
    intro pd other hpd hother hsame
    exact OrderedSet.contains_congr _ (beq_of_same hinj hpd hother hsame)

/-- The members of every collection of peer devices are identified by what they denote exactly
when no two of the created `Connection` objects have the same nodes. -/
theorem peer_devices_identified_iff (nodes : ObjectId → NodeId × NodeId)
    (resource : NodeId → ResourceId) (created : Set ObjectId) :
    (∀ ops heap,
      Run (Guarded (fun _ op => op.Over created) (Step (peerDevices nodes resource))) [] ops heap →
      ∀ k ∈ heap, Identified resource created k.members) ↔
    Set.InjOn nodes created := by
  constructor
  · intro h c hc c' hc' hnodes
    by_contra hne
    -- one peer device for each of the two objects, of the same volume
    let pds : List (PeerDevice nodes) := [⟨c, 0⟩, ⟨c', 0⟩]
    have hone : (peerDevices nodes resource).OneResource pds := by
      refine Or.inr ⟨resource (nodes c).1, ?_⟩
      simp [pds, peerDevices, hnodes]
    have hstep : Step (peerDevices nodes resource) [] (.construct (.list pds))
        [⟨.ofList pds, inserts [] pds⟩] :=
      .construct rfl (Collection.init_eq_ok.mpr ⟨rfl, fun _ _ => rfl, hone⟩)
    have hover : Op.Over created (.construct (.list pds)) := by
      intro pd hpd
      rcases List.mem_cons.mp hpd with rfl | hpd
      · exact hc
      · rw [List.mem_singleton.mp hpd]
        exact hc'
    have hid := (h _ _ (Run.single ⟨hover, hstep⟩) _ (List.mem_singleton.mpr rfl)).distinct
    have hdistinct : Distinct pds := by
      apply List.pairwise_pair.mpr
      rw [← Bool.not_eq_true, PeerDevice.beq_iff]
      exact fun heq => hne heq.1
    rw [OrderedSet.items_ofList hdistinct] at hid
    exact List.pairwise_pair.mp hid ⟨hnodes, rfl⟩
  · intro hinj ops heap run
    have hinv : (∀ k ∈ heap, k.Sound (peerDevices nodes resource)) ∧
        ∀ k ∈ heap, ∀ pd ∈ k.members.items, pd.connection ∈ created := by
      refine run.invariant (I := fun heap => (∀ k ∈ heap, k.Sound (peerDevices nodes resource)) ∧
        ∀ k ∈ heap, ∀ pd ∈ k.members.items, pd.connection ∈ created) (by simp) ?_
      intro heap op heap' hI hstep
      exact ⟨sound_step hI.1 hstep.2, mem_step hI.1 hI.2 hstep.1 hstep.2⟩
    intro k hk
    exact identified_of_injOn hinj (hinv.1 k hk) (hinv.2 k hk)

/-- Two connections from node 1 to node 2, and a peer device for each of them, of volume 7:
the collection holds both, and one of them is left when the other is removed. -/
theorem peer_device_held_twice :
    ∃ heap, Run (Step (peerDevices (fun _ => (1, 2)) fun _ => 0)) []
        [.construct (.list [⟨3, 7⟩, ⟨4, 7⟩])] heap ∧
      heap.map (fun k => k.members.items) = [[⟨3, 7⟩, ⟨4, 7⟩]] ∧
      (⟨3, 7⟩ : PeerDevice fun _ => (1, 2)).Same ⟨4, 7⟩ ∧
      ∃ k ∈ heap, ∃ s', Returns (Collection.remove (peerDevices (fun _ => (1, 2)) fun _ => 0) ⟨3, 7⟩)
        k.members ⟨⟩ s' ∧ s'.items = [⟨4, 7⟩] := by
  have hone : ∀ xs, (peerDevices (fun _ => (1, 2)) fun _ => 0).OneResource xs :=
    fun xs => Or.inr ⟨0, fun _ _ => rfl⟩
  have hstep : Step (peerDevices (fun _ => (1, 2)) fun _ => 0) []
      (.construct (.list [⟨3, 7⟩, ⟨4, 7⟩])) [⟨.ofList [⟨3, 7⟩, ⟨4, 7⟩], inserts [] [⟨3, 7⟩, ⟨4, 7⟩]⟩] :=
    .construct rfl (Collection.init_eq_ok.mpr ⟨rfl, fun _ _ => rfl, hone _⟩)
  have hitems : (OrderedSet.ofList [(⟨3, 7⟩ : PeerDevice fun _ => (1, 2)), ⟨4, 7⟩]).items =
      [⟨3, 7⟩, ⟨4, 7⟩] := OrderedSet.items_ofList (List.pairwise_pair.mpr rfl)
  refine ⟨_, Run.single hstep, ?_, ⟨rfl, rfl⟩, _, List.mem_singleton.mpr rfl, _,
    (Collection.returns_remove (hone _)).mpr ⟨rfl, rfl, hone _⟩, ?_⟩
  · exact congrArg (fun items => [items]) hitems
  · change List.erase _ _ = _
    rw [hitems]
    rfl

end DrbdTests.Hashed
