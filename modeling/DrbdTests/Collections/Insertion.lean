import DrbdTests.Collections.Hashed

/-!
# Collections keep the order of insertion

Every collection that is made and changed by successful calls lists its members in the order
of their last insertion, without equal ones, and all members are of its class and belong to
one resource (`Kept.Sound`). `Behaves` is what each method does to such a collection.
-/

namespace DrbdTests.Hashed

open Stateful InsertionOrder Runs

/-- A collection object, with the insertions and removals it has seen, the latest first. -/
structure Kept (α : Type) [BEq α] where
  members : OrderedSet α
  history : List (Event α)

abbrev Heap (α : Type) [BEq α] := List (Kept α)

/-- The argument of a method: a list of objects, or a collection, which may be the one whose
method is called. -/
inductive Arg (α : Type) where
  | list (xs : List α)
  | collection (c : Nat)
  deriving DecidableEq, Repr

/-- What a loop over the argument sees. -/
def Arg.Yields {α : Type} [BEq α] (heap : Heap α) : Arg α → List α → Prop
  | .list xs, ys => ys = xs
  | .collection c, ys => ∃ k, heap[c]? = some k ∧ ys = k.members.items

/-- The calls. Collections are numbered in the order in which they were made. -/
inductive Op (α : Type) where
  | construct (members : Arg α)
  | add (c : Nat) (member : α)
  | extend (c : Nat) (members : Arg α)
  | remove (c : Nat) (member : α)
  | difference (c : Nat) (members : Arg α)
  | slice (c : Nat) (start stop : Option Int)
  | pop (c : Nat)
  deriving DecidableEq, Repr

/-- The objects that are passed to a call one by one or in a list. -/
def Op.passed {α : Type} : Op α → List α
  | construct (.list xs) | extend _ (.list xs) | difference _ (.list xs) => xs
  | add _ member | remove _ member => [member]
  | _ => []

/-- Insertion order, members that are all different, their class and their resource. -/
structure Kept.Sound {α ρ : Type} [BEq α] (cls : MemberClass α ρ) (k : Kept α) : Prop where
  order : InOrder k.history k.members.items
  distinct : Distinct k.members.items
  instances : ∀ a ∈ k.members.items, cls.isInstance a = true
  oneResource : cls.OneResource k.members.items

/-- The members after a change come from those before it and from the arguments. -/
theorem Kept.Sound.of_subset {α ρ : Type} [BEq α] {cls : MemberClass α ρ} {k : Kept α}
    {s : OrderedSet α} {xs : List α} (h : k.Sound cls) {history : List (Event α)}
    (horder : InOrder history s.items) (hsub : ∀ a ∈ s.items, a ∈ k.members.items ++ xs)
    (hi : ∀ a ∈ xs, cls.isInstance a = true) (hr : cls.OneResource (k.members.items ++ xs)) :
    (Kept.mk s history).Sound cls where
  order := horder
  distinct := s.distinct
  instances a ha := by
    rcases List.mem_append.mp (hsub a ha) with ha | ha
    · exact h.instances a ha
    · exact hi a ha
  oneResource := hr.subset hsub

variable {α ρ : Type} [BEq α] [Hashable α] [LawfulHashable α]

theorem Kept.Sound.discard [EquivBEq α] {cls : MemberClass α ρ} {k : Kept α} (h : k.Sound cls) (member : α) :
    (Kept.mk (k.members.discard member) (.erase member :: k.history)).Sound cls := by
  have hr : cls.OneResource (k.members.items ++ []) := by simpa using h.oneResource
  apply h.of_subset (h.order.erase member) ?_ (by simp) hr
  intro a ha
  simpa using List.mem_of_mem_erase ha

variable [DecidableEq ρ]

/-- A call that returns. -/
inductive Step (cls : MemberClass α ρ) (heap : Heap α) : Op α → Heap α → Prop
  | construct {arg : Arg α} {xs : List α} {s : OrderedSet α} (hxs : arg.Yields heap xs)
      (h : Collection.init cls xs = .ok s) :
      Step cls heap (.construct arg) (heap ++ [⟨s, inserts [] xs⟩])
  | add {c : Nat} {k : Kept α} {member : α} {s : OrderedSet α} (hk : heap[c]? = some k)
      (h : Returns (Collection.add cls member) k.members ⟨⟩ s) :
      Step cls heap (.add c member) (heap.set c ⟨s, .insert member :: k.history⟩)
  | extend {c : Nat} {k : Kept α} {arg : Arg α} {xs : List α} {s : OrderedSet α}
      (hk : heap[c]? = some k) (hxs : arg.Yields heap xs)
      (h : Returns (Collection.extend cls xs) k.members ⟨⟩ s) :
      Step cls heap (.extend c arg) (heap.set c ⟨s, inserts k.history xs⟩)
  | remove {c : Nat} {k : Kept α} {member : α} {s : OrderedSet α} (hk : heap[c]? = some k)
      (h : Returns (Collection.remove cls member) k.members ⟨⟩ s) :
      Step cls heap (.remove c member) (heap.set c ⟨s, .erase member :: k.history⟩)
  | difference {c : Nat} {k : Kept α} {arg : Arg α} {xs : List α} {s d : OrderedSet α}
      (hk : heap[c]? = some k) (hxs : arg.Yields heap xs)
      (h : Returns (Collection.difference cls xs) k.members d s) :
      -- the new collection has seen the members of the old one come and `xs` go
      Step cls heap (.difference c arg)
        (heap.set c ⟨s, k.history⟩ ++ [⟨d, erases (inserts [] k.members.items) xs⟩])
  | slice {c : Nat} {k : Kept α} {start stop : Option Int} {s d : OrderedSet α}
      (hk : heap[c]? = some k)
      (h : Returns (Collection.getSlice cls start stop) k.members d s) :
      Step cls heap (.slice c start stop) (heap.set c ⟨s, k.history⟩ ++
        [⟨d, inserts [] (Collection.slice k.members.items start stop)⟩])
  | pop {c : Nat} {k : Kept α} {member : α} {s : OrderedSet α} (hk : heap[c]? = some k)
      (h : Returns (Collection.pop cls) k.members member s) :
      Step cls heap (.pop c) (heap.set c ⟨s, .erase member :: k.history⟩)

/-- What the methods do to a collection. -/
structure Behaves (cls : MemberClass α ρ) (s : OrderedSet α) : Prop where
  contains_iff : ∀ a, s.contains a = true ↔ ∃ b ∈ s.items, b == a
  add_present : ∀ a s', s.contains a = true → Returns (Collection.add cls a) s ⟨⟩ s' → s' = s
  extend_present : ∀ xs s', (∀ a ∈ xs, s.contains a = true) →
    Returns (Collection.extend cls xs) s ⟨⟩ s' → s' = s
  remove_absent : ∀ a s', s.contains a = false →
    Returns (Collection.remove cls a) s ⟨⟩ s' → s' = s
  difference : ∀ xs d s', Returns (Collection.difference cls xs) s d s' →
    s' = s ∧ d.items = s.items.filter fun a => !xs.any (a == ·)
  slice : ∀ start stop, ∃ d, Returns (Collection.getSlice cls start stop) s d s ∧
    d.items = Collection.slice s.items start stop
  pop : ∀ a rest, s.items = a :: rest →
    ∃ s', Returns (Collection.pop cls) s a s' ∧ s'.items = rest
  add_fails : ∀ a e s', exec (Collection.add cls a) s = (.error e, s') → s' = s
  extend_fails : ∀ xs e s', exec (Collection.extend cls xs) s = (.error e, s') → s' = s
  remove_fails : ∀ a e s', exec (Collection.remove cls a) s = (.error e, s') → s' = s
  difference_fails : ∀ xs e s', exec (Collection.difference cls xs) s = (.error e, s') → s' = s

namespace Kept

variable {cls : MemberClass α ρ} {k : Kept α} {member : α} {xs : List α} {s d : OrderedSet α}

/-- The class and the resource of the members are right, so a new collection can be made. -/
theorem Sound.init_ok (h : k.Sound cls) (hxs : ∀ a ∈ xs, a ∈ k.members.items) :
    Collection.init cls xs = .ok (OrderedSet.ofList xs) :=
  Collection.init_eq_ok.mpr ⟨rfl, fun a ha => h.instances a (hxs a ha), h.oneResource.subset hxs⟩

theorem items_of_difference (hret : Returns (Collection.difference cls xs) k.members d s) :
    d.items = (k.members.difference xs).items := by
  obtain ⟨-, hinit⟩ := Collection.returns_difference hret
  obtain ⟨rfl, -⟩ := Collection.init_eq_ok.mp hinit
  exact OrderedSet.items_ofList (k.members.difference xs).distinct

/-- `pop` removes the first member. -/
theorem Sound.returns_pop (h : k.Sound cls) : Returns (Collection.pop cls) k.members member s ↔
    ∃ rest, k.members.items = member :: rest ∧ s = k.members.discard member := by
  unfold Collection.pop
  rw [returns_get_bind]
  rcases hitems : k.members.items with _ | ⟨first, rest⟩
  · simp
  · have hfirst : first ∈ k.members.items := by simp [hitems]
    have hr : cls.OneResource (k.members.items ++ [first]) := by
      apply h.oneResource.subset
      intro a ha
      rcases List.mem_append.mp ha with ha | ha
      · exact ha
      · rw [List.mem_singleton.mp ha]
        exact hfirst
    simp only [returns_bind, returns_pure, Collection.returns_remove h.oneResource]
    constructor
    · intro hret
      obtain ⟨_, t, ⟨rfl, -⟩, rfl, rfl⟩ := hret
      exact ⟨rest, rfl, rfl⟩
    · intro hret
      obtain ⟨rest', hcons, rfl⟩ := hret
      cases hcons
      exact ⟨⟨⟩, _, ⟨rfl, h.instances _ hfirst, hr⟩, rfl, rfl⟩

variable [EquivBEq α]

theorem Sound.add (h : k.Sound cls)
    (hret : Returns (Collection.add cls member) k.members ⟨⟩ s) :
    (Kept.mk s (.insert member :: k.history)).Sound cls := by
  obtain ⟨rfl, hi, hr⟩ := (Collection.returns_add h.oneResource).mp hret
  apply h.of_subset (OrderedSet.inOrder_add h.order member) ?_ (by simpa using hi) hr
  intro a ha
  simpa using OrderedSet.mem_add ha

theorem Sound.extend (h : k.Sound cls)
    (hret : Returns (Collection.extend cls xs) k.members ⟨⟩ s) :
    (Kept.mk s (inserts k.history xs)).Sound cls := by
  obtain ⟨rfl, hi, hr⟩ := (Collection.returns_extend h.oneResource).mp hret
  apply h.of_subset (OrderedSet.inOrder_update h.order xs) ?_ hi hr
  intro a ha
  exact List.mem_append.mpr (OrderedSet.mem_update ha)

theorem Sound.remove (h : k.Sound cls)
    (hret : Returns (Collection.remove cls member) k.members ⟨⟩ s) :
    (Kept.mk s (.erase member :: k.history)).Sound cls := by
  obtain ⟨rfl, -⟩ := (Collection.returns_remove h.oneResource).mp hret
  exact h.discard member

theorem Sound.pop (h : k.Sound cls) (hret : Returns (Collection.pop cls) k.members member s) :
    (Kept.mk s (.erase member :: k.history)).Sound cls := by
  obtain ⟨rest, -, rfl⟩ := h.returns_pop.mp hret
  exact h.discard member

/-- A new collection. -/
theorem sound_init (hinit : Collection.init cls xs = .ok s) :
    (Kept.mk s (inserts [] xs)).Sound cls := by
  obtain ⟨rfl, hi, hr⟩ := Collection.init_eq_ok.mp hinit
  have hsub : ∀ a ∈ (OrderedSet.ofList xs).items, a ∈ xs := by
    intro a ha
    rcases OrderedSet.mem_update ha with ha | ha
    · cases ha
    · exact ha
  exact ⟨OrderedSet.inOrder_ofList xs, (OrderedSet.ofList xs).distinct,
    fun a ha => hi a (hsub a ha), hr.subset hsub⟩

theorem sound_difference (hret : Returns (Collection.difference cls xs) k.members d s) :
    (Kept.mk d (erases (inserts [] k.members.items) xs)).Sound cls := by
  obtain ⟨-, hinit⟩ := Collection.returns_difference hret
  have hnew := sound_init hinit
  refine ⟨?_, hnew.distinct, hnew.instances, hnew.oneResource⟩
  change InOrder _ d.items
  rw [items_of_difference hret]
  exact OrderedSet.inOrder_difference k.members xs

theorem Sound.behaves (h : k.Sound cls) : Behaves cls k.members where
  contains_iff _ := OrderedSet.contains_iff
  add_present a s' ha hret := by
    obtain ⟨rfl, -⟩ := (Collection.returns_add h.oneResource).mp hret
    exact OrderedSet.add_of_contains ha
  extend_present xs s' hxs hret := by
    obtain ⟨rfl, -⟩ := (Collection.returns_extend h.oneResource).mp hret
    exact OrderedSet.update_of_contains hxs
  remove_absent a s' ha hret := by
    obtain ⟨rfl, -⟩ := (Collection.returns_remove h.oneResource).mp hret
    exact OrderedSet.discard_of_not_contains ha
  difference xs d s' hret := by
    refine ⟨Collection.readsOnly_difference.eq_of_returns hret, ?_⟩
    rw [items_of_difference hret, OrderedSet.items_difference]
  slice start stop := by
    have hinit : Collection.init cls (Collection.slice k.members.items start stop) = .ok _ :=
      h.init_ok fun a ha => Collection.mem_slice ha
    have hdistinct : Distinct (Collection.slice k.members.items start stop) :=
      h.distinct.sublist ((List.drop_sublist _ _).trans (List.take_sublist _ _))
    exact ⟨_, Collection.returns_getSlice.mpr ⟨rfl, hinit⟩, OrderedSet.items_ofList hdistinct⟩
  pop a rest hitems := by
    refine ⟨_, h.returns_pop.mpr ⟨rest, hitems, rfl⟩, ?_⟩
    change k.members.items.erase a = rest
    rw [hitems, List.erase_cons, if_pos BEq.rfl]
  add_fails a e s' he := Collection.failsUnchanged_add _ e s' he
  extend_fails xs e s' he := Collection.failsUnchanged_extend _ e s' he
  remove_fails a e s' he := Collection.failsUnchanged_remove _ e s' he
  difference_fails xs e s' he := Collection.readsOnly_difference.failsUnchanged _ e s' he

end Kept

variable [EquivBEq α]

theorem sound_step {cls : MemberClass α ρ} {heap heap' : Heap α} {op : Op α}
    (h : ∀ k ∈ heap, k.Sound cls) (hstep : Step cls heap op heap') :
    ∀ k ∈ heap', k.Sound cls := by
  have hset : ∀ (c : Nat) (k' : Kept α), k'.Sound cls → ∀ k ∈ heap.set c k', k.Sound cls := by
    intro c k' hk' k hk
    rcases List.mem_or_eq_of_mem_set hk with hk | rfl
    · exact h k hk
    · exact hk'
  have hnew : ∀ (heap : Heap α) (k' : Kept α), (∀ k ∈ heap, k.Sound cls) → k'.Sound cls →
      ∀ k ∈ heap ++ [k'], k.Sound cls := by
    intro heap k' hheap hk' k hk
    rcases List.mem_append.mp hk with hk | hk
    · exact hheap k hk
    · rw [List.mem_singleton.mp hk]
      exact hk'
  cases hstep with
  | construct hxs hinit => exact hnew heap _ h (Kept.sound_init hinit)
  | add hk hret => exact hset _ _ ((h _ (List.mem_of_getElem? hk)).add hret)
  | extend hk hxs hret => exact hset _ _ ((h _ (List.mem_of_getElem? hk)).extend hret)
  | remove hk hret => exact hset _ _ ((h _ (List.mem_of_getElem? hk)).remove hret)
  | difference hk hxs hret =>
    have hold := h _ (List.mem_of_getElem? hk)
    obtain rfl := (Collection.returns_difference hret).1
    exact hnew _ _ (hset _ _ hold) (Kept.sound_difference hret)
  | slice hk hret =>
    have hold := h _ (List.mem_of_getElem? hk)
    obtain ⟨rfl, hinit⟩ := Collection.returns_getSlice.mp hret
    exact hnew _ _ (hset _ _ hold) (Kept.sound_init hinit)
  | pop hk hret => exact hset _ _ ((h _ (List.mem_of_getElem? hk)).pop hret)

/-- A member of a collection was passed to the call, or was a member of a collection before. -/
theorem mem_step {cls : MemberClass α ρ} {heap heap' : Heap α} {op : Op α} {P : α → Prop}
    (h : ∀ k ∈ heap, k.Sound cls) (hold : ∀ k ∈ heap, ∀ a ∈ k.members.items, P a)
    (hpassed : ∀ a ∈ op.passed, P a) (hstep : Step cls heap op heap') :
    ∀ k ∈ heap', ∀ a ∈ k.members.items, P a := by
  have hset : ∀ (c : Nat) (k' : Kept α), (∀ a ∈ k'.members.items, P a) →
      ∀ k ∈ heap.set c k', ∀ a ∈ k.members.items, P a := by
    intro c k' hk' k hk
    rcases List.mem_or_eq_of_mem_set hk with hk | rfl
    · exact hold k hk
    · exact hk'
  have hnew : ∀ (heap : Heap α) (k' : Kept α), (∀ k ∈ heap, ∀ a ∈ k.members.items, P a) →
      (∀ a ∈ k'.members.items, P a) → ∀ k ∈ heap ++ [k'], ∀ a ∈ k.members.items, P a := by
    intro heap k' hheap hk' k hk
    rcases List.mem_append.mp hk with hk | hk
    · exact hheap k hk
    · rw [List.mem_singleton.mp hk]
      exact hk'
  have hyields : ∀ (arg : Arg α) xs, (∀ ys, arg = .list ys → ∀ a ∈ ys, P a) →
      arg.Yields heap xs → ∀ a ∈ xs, P a := by
    intro arg xs hlist hxs
    cases arg with
    | list ys => exact hxs ▸ hlist ys rfl
    | collection c =>
      obtain ⟨k, hk, rfl⟩ := hxs
      exact hold k (List.mem_of_getElem? hk)
  have hofList : ∀ xs, (∀ a ∈ xs, P a) → ∀ a ∈ (OrderedSet.ofList xs).items, P a := by
    intro xs hxs a ha
    rcases OrderedSet.mem_update ha with ha | ha
    · cases ha
    · exact hxs a ha
  cases hstep with
  | @construct arg xs s hxs hinit =>
    obtain ⟨rfl, -⟩ := Collection.init_eq_ok.mp hinit
    have hlist : ∀ ys, arg = .list ys → ∀ a ∈ ys, P a := by
      intro ys harg
      subst harg
      exact hpassed
    exact hnew heap _ hold (hofList xs (hyields arg xs hlist hxs))
  | @add c k member s hk hret =>
    obtain ⟨rfl, -⟩ := (Collection.returns_add (h k (List.mem_of_getElem? hk)).oneResource).mp hret
    apply hset
    intro a ha
    rcases OrderedSet.mem_add ha with ha | rfl
    · exact hold k (List.mem_of_getElem? hk) a ha
    · exact hpassed a (List.mem_singleton.mpr rfl)
  | @extend c k arg xs s hk hxs hret =>
    obtain ⟨rfl, -⟩ :=
      (Collection.returns_extend (h k (List.mem_of_getElem? hk)).oneResource).mp hret
    apply hset
    intro a ha
    rcases OrderedSet.mem_update ha with ha | ha
    · exact hold k (List.mem_of_getElem? hk) a ha
    · refine hyields arg xs ?_ hxs a ha
      intro ys harg
      subst harg
      exact hpassed
  | @remove c k member s hk hret =>
    obtain ⟨rfl, -⟩ :=
      (Collection.returns_remove (h k (List.mem_of_getElem? hk)).oneResource).mp hret
    exact hset _ _ fun a ha => hold k (List.mem_of_getElem? hk) a (List.mem_of_mem_erase ha)
  | @difference c k arg xs s d hk hxs hret =>
    have hmem := hold k (List.mem_of_getElem? hk)
    obtain rfl := (Collection.returns_difference hret).1
    apply hnew _ _ (hset _ _ hmem)
    intro a ha
    rw [Kept.items_of_difference hret, OrderedSet.items_difference] at ha
    exact hmem a (List.mem_of_mem_filter ha)
  | @slice c k start stop s d hk hret =>
    have hmem := hold k (List.mem_of_getElem? hk)
    obtain ⟨rfl, hinit⟩ := Collection.returns_getSlice.mp hret
    obtain ⟨rfl, -⟩ := Collection.init_eq_ok.mp hinit
    exact hnew _ _ (hset _ _ hmem) (hofList _ fun a ha => hmem a (Collection.mem_slice ha))
  | @pop c k member s hk hret =>
    have hsound := h k (List.mem_of_getElem? hk)
    obtain ⟨rest, -, rfl⟩ := hsound.returns_pop.mp hret
    exact hset _ _ fun a ha => hold k (List.mem_of_getElem? hk) a (List.mem_of_mem_erase ha)

/-- After any sequence of successful calls, every collection is in insertion order, and the
methods do to it what they do to an insertion-ordered set. -/
theorem collections_insertion_ordered (cls : MemberClass α ρ) {ops : List (Op α)} {heap : Heap α}
    (run : Run (Step cls) [] ops heap) : ∀ k ∈ heap, k.Sound cls ∧ Behaves cls k.members := by
  have hsound : ∀ k ∈ heap, k.Sound cls :=
    run.invariant (I := fun heap => ∀ k ∈ heap, k.Sound cls) (by simp) fun _ _ _ => sound_step
  intro k hk
  exact ⟨hsound k hk, (hsound k hk).behaves⟩

/-- The collection `Nodes` of one resource; a node is equal to itself only. -/
def nodesOfOne : MemberClass Nat Nat := ⟨fun _ => true, fun _ => some 0⟩

/-- A collection of two nodes; the first is removed, and added again. -/
theorem collections_insertion_ordered_readded :
    ∃ heap, Run (Step nodesOfOne) []
      [.construct (.list [5, 7]), .remove 0 5, .add 0 5] heap ∧
      (∀ k ∈ heap, k.Sound nodesOfOne ∧ Behaves nodesOfOne k.members) ∧
      heap.map (fun k => k.members.items) = [[7, 5]] := by
  let s₁ := OrderedSet.ofList [5, 7]
  let s₂ := s₁.discard 5
  have hone : ∀ xs, nodesOfOne.OneResource xs := fun xs => Or.inr ⟨0, fun _ _ => rfl⟩
  have h₁ : Step nodesOfOne [] (.construct (.list [5, 7])) [⟨s₁, inserts [] [5, 7]⟩] :=
    .construct rfl (Collection.init_eq_ok.mpr ⟨rfl, fun _ _ => rfl, hone _⟩)
  have h₂ : Step nodesOfOne [⟨s₁, inserts [] [5, 7]⟩] (.remove 0 5)
      [⟨s₂, .erase 5 :: inserts [] [5, 7]⟩] :=
    Step.remove (c := 0) (k := ⟨s₁, inserts [] [5, 7]⟩) rfl
      ((Collection.returns_remove (hone _)).mpr ⟨rfl, rfl, hone _⟩)
  have h₃ : Step nodesOfOne [⟨s₂, .erase 5 :: inserts [] [5, 7]⟩] (.add 0 5)
      [⟨s₂.add 5, .insert 5 :: .erase 5 :: inserts [] [5, 7]⟩] :=
    Step.add (c := 0) (k := ⟨s₂, .erase 5 :: inserts [] [5, 7]⟩) rfl
      ((Collection.returns_add (hone _)).mpr ⟨rfl, rfl, hone _⟩)
  have run := Run.cons h₁ (Run.cons h₂ (Run.single h₃))
  exact ⟨_, run, collections_insertion_ordered nodesOfOne run, by decide +kernel⟩

end DrbdTests.Hashed
