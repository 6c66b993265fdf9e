import DrbdTests.Collections.Collection
import DrbdTests.Lib.InsertionOrder
import DrbdTests.Lib.Runs
import DrbdTests.Lib.Stateful

/-!
# Collections of objects with `__eq__` and `__hash__`

`OrderedSet` and `Collection` for members that define their own equality: `==` is an
equivalence, and equal members have equal hashes. The dict of an `OrderedSet` finds a key by
its hash and then by `==`; the list is searched with `==` only.

The methods of a `Collection` change its one attribute `members`, and raise. `Step` puts
several collections side by side: `difference` and slices make new ones, and a collection can
be the argument of a method of another one, or of its own. With every collection, the state
keeps the insertions and removals it has seen.

Where `==` is identity, these are the sets and collections of the modules
`Collections.OrderedSet` and `Collections.Collection`.
-/

namespace DrbdTests.Hashed

open Stateful InsertionOrder Runs

/-! ## `OrderedSet` -/

/-- The keys of the dict are the items of the list, and no two of them are equal. -/
structure OrderedSet (α : Type) [BEq α] where
  items : List α
  map : List (α × Nat)
  keys_eq : map.map Prod.fst = items
  distinct : Distinct items

section

variable {α : Type} [BEq α] [Hashable α]

/-- A dict finds an entry by the hash of its key, and then compares the key. -/
def isKey (key : α) (entry : α × Nat) : Bool := hash entry.1 == hash key && entry.1 == key

/-- `__contains__` -/
def OrderedSet.contains (s : OrderedSet α) (key : α) : Bool := s.map.any (isKey key)

theorem keys_nil (α : Type) : ([] : List (α × Nat)).map Prod.fst = [] := rfl

def OrderedSet.empty : OrderedSet α := ⟨[], [], keys_nil α, .nil⟩

variable [LawfulHashable α]

theorem isKey_eq (key : α) (entry : α × Nat) : isKey key entry = (entry.1 == key) := by
  unfold isKey
  rcases h : entry.1 == key with _ | _
  · rw [Bool.and_false]
  · rw [hash_eq h, beq_self_eq_true, Bool.and_true]

theorem any_isKey (map : List (α × Nat)) (key : α) :
    map.any (isKey key) = (map.map Prod.fst).any (· == key) := by
  rw [List.any_map]
  congr 1
  funext entry
  exact isKey_eq key entry

theorem map_eraseP_isKey (map : List (α × Nat)) (key : α) :
    (map.eraseP (isKey key)).map Prod.fst = (map.map Prod.fst).erase key := by
  induction map with
  | nil => rfl
  | cons entry map ih =>
    rw [List.map_cons, List.eraseP_cons, List.erase_cons, isKey_eq]
    rcases h : entry.1 == key with _ | _
    · rw [if_neg Bool.false_ne_true, cond_false, List.map_cons, ih]
    · rw [if_pos rfl, cond_true]

namespace OrderedSet

/-- The dict and the list agree on what is a member. -/
theorem contains_iff {s : OrderedSet α} {key : α} : s.contains key ↔ ∃ a ∈ s.items, a == key := by
  rw [contains, any_isKey, s.keys_eq, List.any_eq_true]

theorem not_contains_iff {s : OrderedSet α} {key : α} :
    s.contains key = false ↔ ∀ a ∈ s.items, (a == key) = false := by
  rw [← Bool.not_eq_true, contains_iff]
  simp

/-- `add` -/
def add (s : OrderedSet α) (key : α) : OrderedSet α :=
  if h : s.contains key = true then s
  else
    { items := s.items ++ [key]
      map := s.map ++ [(key, s.items.length)]
      keys_eq := by rw [List.map_append, s.keys_eq, List.map_singleton]
      distinct := s.distinct.append_singleton
        (not_contains_iff.mp (Bool.eq_false_iff.mpr h)) }

theorem add_of_contains {s : OrderedSet α} {key : α} (h : s.contains key = true) :
    s.add key = s := dif_pos h

theorem items_add {s : OrderedSet α} {key : α} (h : s.contains key = false) :
    (s.add key).items = s.items ++ [key] := by
  rw [add, dif_neg (by simp [h])]

/-- `update` -/
def update (s : OrderedSet α) (data : List α) : OrderedSet α := data.foldl add s

/-- `__init__` -/
def ofList (iterable : List α) : OrderedSet α := empty.update iterable

/-- `discard`: the entry of the dict goes, and the first equal item of the list. -/
def discard (s : OrderedSet α) (key : α) : OrderedSet α where
  items := s.items.erase key
  map := s.map.eraseP (isKey key)
  keys_eq := by rw [map_eraseP_isKey, s.keys_eq]
  distinct := s.distinct.erase key

/-- `MutableSet.remove` -/
def remove (s : OrderedSet α) (key : α) : Except PyError (OrderedSet α) :=
  if s.contains key then .ok (s.discard key) else .error .keyError

/-- `copy` -/
def copy (s : OrderedSet α) : OrderedSet α := ofList s.items

/-- `difference` -/
def difference (s : OrderedSet α) (delta : List α) : OrderedSet α := delta.foldl discard s.copy

theorem discard_of_not_contains {s : OrderedSet α} {key : α} (h : s.contains key = false) :
    s.discard key = s := by
  obtain ⟨items, map, rfl, distinct⟩ := s
  have hmap : map.eraseP (isKey key) = map := by
    apply List.eraseP_of_forall_not
    intro entry hentry
    have hany : map.any (isKey key) = false := h
    exact List.any_eq_false.mp hany entry hentry
  simp only [discard, mk.injEq]
  exact ⟨erase_of_forall (not_contains_iff.mp h), hmap⟩

theorem update_of_contains {s : OrderedSet α} {data : List α}
    (h : ∀ a ∈ data, s.contains a = true) : s.update data = s := by
  unfold update
  induction data with
  | nil => rfl
  | cons d data ih =>
    rw [List.foldl_cons, add_of_contains (h d (by simp))]
    exact ih fun a ha => h a (by simp [ha])

theorem mem_add {s : OrderedSet α} {key a : α} (h : a ∈ (s.add key).items) :
    a ∈ s.items ∨ a = key := by
  rcases hc : s.contains key with _ | _
  · rw [items_add hc] at h
    simpa using h
  · rw [add_of_contains hc] at h
    exact Or.inl h

theorem mem_update {s : OrderedSet α} {data : List α} {a : α} (h : a ∈ (s.update data).items) :
    a ∈ s.items ∨ a ∈ data := by
  unfold update at h
  induction data generalizing s with
  | nil => exact Or.inl h
  | cons d data ih =>
    rcases ih h with h | h
    · rcases mem_add h with h | h
      · exact Or.inl h
      · exact Or.inr (by simp [h])
    · exact Or.inr (by simp [h])

/-- Adding elements of a list without equal ones appends them. -/
theorem items_update {s : OrderedSet α} {data : List α} (h : Distinct (s.items ++ data)) :
    (s.update data).items = s.items ++ data := by
  unfold update
  induction data generalizing s with
  | nil => simp
  | cons d data ih =>
    have hd : s.contains d = false := by
      apply not_contains_iff.mpr
      intro a ha
      exact (List.pairwise_append.mp h).2.2 a ha d (by simp)
    rw [List.foldl_cons, ih, items_add hd, List.append_assoc, List.singleton_append]
    rw [items_add hd, List.append_assoc, List.singleton_append]
    exact h

theorem prefix_update (s : OrderedSet α) (data : List α) : s.items <+: (s.update data).items := by
  unfold update
  induction data generalizing s with
  | nil => exact List.prefix_rfl
  | cons d data ih =>
    apply List.IsPrefix.trans ?_ (ih (s.add d))
    rcases hd : s.contains d with _ | _
    · rw [items_add hd]
      exact List.prefix_append _ _
    · simp only [add_of_contains hd, List.prefix_rfl]

theorem items_ofList_cons (x : α) (xs : List α) : ∃ rest, (ofList (x :: xs)).items = x :: rest := by
  obtain ⟨rest, hrest⟩ := prefix_update (empty.add x) xs
  exact ⟨rest, hrest.symm⟩

theorem items_ofList {xs : List α} (h : Distinct xs) : (ofList xs).items = xs := items_update h

variable [EquivBEq α]

theorem contains_congr (s : OrderedSet α) {a b : α} (h : a == b) : s.contains a = s.contains b := by
  rw [Bool.eq_iff_iff, contains_iff, contains_iff]
  simp only [BEq.congr_right h]

/-- `difference` keeps the order of what it keeps. -/
theorem items_difference (s : OrderedSet α) (delta : List α) :
    (s.difference delta).items = s.items.filter fun a => !delta.any (a == ·) := by
  have hcopy : s.copy.items = s.items := items_ofList s.distinct
  unfold difference
  rw [← hcopy]
  generalize s.copy = t
  induction delta generalizing t with
  | nil => simp
  | cons d delta ih =>
    have hdiscard : (t.discard d).items = t.items.filter fun a => !(a == d) :=
      erase_eq_filter t.distinct d
    rw [List.foldl_cons, ih, hdiscard, List.filter_filter]
    apply List.filter_congr
    intro a _
    rw [List.any_cons, Bool.not_or, Bool.and_comm]

/-- The list keeps the order of insertion through an `add`. -/
theorem inOrder_add {s : OrderedSet α} {history : List (Event α)} (h : InOrder history s.items)
    (key : α) : InOrder (.insert key :: history) (s.add key).items := by
  rcases hc : s.contains key with _ | _
  · rw [items_add hc]
    exact h.insert_absent (not_contains_iff.mp hc)
  · rw [add_of_contains hc]
    exact h.insert_present (contains_iff.mp hc)

end OrderedSet

end

/-! ## Histories -/

/-- The history after these elements were inserted, one after the other. -/
def inserts {α : Type} (history : List (Event α)) (xs : List α) : List (Event α) :=
  xs.foldl (fun history a => .insert a :: history) history

/-- The history after these elements were removed, one after the other. -/
def erases {α : Type} (history : List (Event α)) (xs : List α) : List (Event α) :=
  xs.foldl (fun history a => .erase a :: history) history

section

variable {α : Type} [BEq α] [Hashable α] [EquivBEq α] [LawfulHashable α]
variable {history : List (Event α)}

theorem OrderedSet.inOrder_update {s : OrderedSet α} (h : InOrder history s.items)
    (data : List α) : InOrder (inserts history data) (s.update data).items := by
  unfold OrderedSet.update inserts
  induction data generalizing s history with
  | nil => exact h
  | cons d data ih => exact ih (inOrder_add h d)

theorem OrderedSet.inOrder_ofList (xs : List α) : InOrder (inserts [] xs) (ofList xs).items :=
  inOrder_update InOrder.nil xs

theorem OrderedSet.inOrder_difference (s : OrderedSet α) (delta : List α) :
    InOrder (erases (inserts [] s.items) delta) (s.difference delta).items := by
  have hcopy : InOrder (inserts [] s.items) s.copy.items := inOrder_ofList s.items
  unfold difference erases
  generalize s.copy = t at hcopy ⊢
  generalize inserts [] s.items = history at hcopy ⊢
  induction delta generalizing t history with
  | nil => exact hcopy
  | cons d delta ih => exact ih (t.discard d) (.erase d :: history) (hcopy.erase d)

end

/-! ## `Collection` -/

/-- What a collection class asks of an object: `issubclass(member.__class__, cls)`, and its
attribute `resource`, if it has one. -/
structure MemberClass (α ρ : Type) where
  isInstance : α → Bool
  resource : α → Option ρ

namespace MemberClass

variable {α ρ : Type} {cls : MemberClass α ρ} {members xs : List α} {a : α} {r : ρ}

/-- The members have one and the same resource. -/
def OneResource (cls : MemberClass α ρ) (xs : List α) : Prop :=
  xs = [] ∨ ∃ resource, ∀ a ∈ xs, cls.resource a = some resource

/-- `member.resource` -/
def resourceOf (cls : MemberClass α ρ) (member : α) : Except PyError ρ :=
  match cls.resource member with
  | some resource => .ok resource
  | none => .error .attributeError

theorem OneResource.subset (h : cls.OneResource members) (hxs : ∀ a ∈ xs, a ∈ members) :
    cls.OneResource xs := by
  rcases h with rfl | ⟨resource, h⟩
  · exact Or.inl (List.eq_nil_iff_forall_not_mem.mpr fun a ha => by simpa using hxs a ha)
  · exact Or.inr ⟨resource, fun a ha => h a (hxs a ha)⟩

theorem resourceOf_of_some (h : cls.resource a = some r) : cls.resourceOf a = .ok r := by
  rw [resourceOf, h]

theorem resourceOf_of_none (h : cls.resource a = none) :
    cls.resourceOf a = .error .attributeError := by
  rw [resourceOf, h]

variable [DecidableEq ρ]

/-- `all(member.resource is resource for member in members)` -/
def allOf (cls : MemberClass α ρ) (resource : ρ) : List α → Except PyError Bool
  | [] => .ok true
  | member :: rest => do
    let other ← cls.resourceOf member
    if other = resource then cls.allOf resource rest else .ok false

/-- All members have the resource of the first of them. -/
def allOfFirst (cls : MemberClass α ρ) (first : α) (rest : List α) : Except PyError Bool := do
  cls.allOf (← cls.resourceOf first) rest

theorem allOf_eq_true : cls.allOf r xs = .ok true ↔ ∀ a ∈ xs, cls.resource a = some r := by
  induction xs with
  | nil => simp [allOf]
  | cons x xs ih =>
    rw [allOf, List.forall_mem_cons]
    rcases hx : cls.resource x with _ | other
    · rw [resourceOf_of_none hx]
      constructor
      · intro h
        cases h
      · intro h
        cases h.1
    · rw [resourceOf_of_some hx]
      change (if other = r then cls.allOf r xs else .ok false) = _ ↔ _
      split
      · rename_i hr
        rw [ih, hr]
        simp
      · rename_i hr
        simp [hr]

theorem allOfFirst_eq_true :
    cls.allOfFirst a xs = .ok true ↔ cls.OneResource (a :: xs) := by
  unfold allOfFirst
  rcases ha : cls.resource a with _ | r
  · rw [resourceOf_of_none ha]
    constructor
    · intro h
      cases h
    · intro h
      rcases h with h | ⟨r, h⟩
      · cases h
      · rw [h a (by simp)] at ha
        cases ha
  · rw [resourceOf_of_some ha]
    change cls.allOf r xs = _ ↔ _
    rw [allOf_eq_true]
    constructor
    · intro h
      exact Or.inr ⟨r, by simpa [ha] using h⟩
    · intro h
      rcases h with h | ⟨r', h⟩
      · cases h
      · have hr : some r' = some r := (h a (by simp)).symm.trans ha
        cases hr
        intro b hb
        exact h b (by simp [hb])

end MemberClass

namespace Collection

/-- A bound of a slice of a list. -/
def sliceBound (length missing : Nat) : Option Int → Nat
  | none => missing
  | some i => if i < 0 then (length + i).toNat else min i.toNat length

/-- `xs[start:stop]` -/
def slice {α : Type} (xs : List α) (start stop : Option Int) : List α :=
  (xs.take (sliceBound xs.length xs.length stop)).drop (sliceBound xs.length 0 start)

theorem mem_slice {α : Type} {xs : List α} {start stop : Option Int} {a : α} (h : a ∈ slice xs start stop) : a ∈ xs :=
  List.mem_of_mem_take (List.mem_of_mem_drop h)

variable {α ρ : Type} [BEq α] [DecidableEq ρ]

/-- A method of a collection. -/
abbrev Method (α β : Type) [BEq α] := Comp (OrderedSet α) PyError β

/-- `same_resource` -/
def sameResource (cls : MemberClass α ρ) (self : OrderedSet α) (members : List α) :
    Except PyError Bool :=
  match self.items with
  | first :: _ => cls.allOfFirst first members
  | [] =>
    match members with
    | first :: rest => cls.allOfFirst first rest
    | [] => .ok true

/-- The two assertions about one of the members that are passed. -/
def check (cls : MemberClass α ρ) (members : List α) (member : α) : Method α PUnit := do
  if ¬ cls.isInstance member then throw .assertionError
  match sameResource cls (← get) members with
  | .ok true => pure ⟨⟩
  | .ok false => throw .assertionError
  | .error e => throw e

section

variable {cls : MemberClass α ρ} {s s' : OrderedSet α} {members xs : List α} {a member : α}
variable {u : PUnit}

/-- The assertion covers the members together with those that are passed. -/
theorem sameResource_eq_true (hs : cls.OneResource s.items) :
    sameResource cls s members = .ok true ↔ cls.OneResource (s.items ++ members) := by
  unfold sameResource
  rcases hitems : s.items with _ | ⟨first, rest⟩
  · rcases members with _ | ⟨first, rest⟩
    · simp [MemberClass.OneResource]
    · exact MemberClass.allOfFirst_eq_true
  · rw [hitems] at hs
    simp only [MemberClass.allOfFirst_eq_true]
    rcases hs with hs | ⟨r, hs⟩
    · cases hs
    · constructor
      · intro h
        rcases h with h | ⟨r', h⟩
        · cases h
        · have hr : some r' = some r := (h first (by simp)).symm.trans (hs first (by simp))
          cases hr
          refine Or.inr ⟨r, fun a ha => ?_⟩
          rcases List.mem_append.mp ha with ha | ha
          · exact hs a ha
          · exact h a (by simp [ha])
      · intro h
        apply h.subset
        intro a ha
        rcases List.mem_cons.mp ha with rfl | ha
        · simp
        · simp [ha]

theorem readsOnly_check (cls : MemberClass α ρ) (members : List α) (member : α) :
    ReadsOnly (check cls members member) := by
  intro s
  unfold check
  rcases hi : cls.isInstance member with _ | _
  · rfl
  · rcases hsame : sameResource cls s members with e | _ | _ <;>
      simp [exec_bind, hsame]

theorem returns_check : Returns (check cls members member) s u s' ↔
    s = s' ∧ cls.isInstance member = true ∧ sameResource cls s members = .ok true := by
  unfold check
  rcases hi : cls.isInstance member with _ | _
  · simp
  · rcases hsame : sameResource cls s members with e | _ | _ <;>
      simp [returns_bind, hsame]

theorem returns_forM_check_iff :
    Returns (xs.forM (check cls members)) s u s' ↔
      s = s' ∧ ∀ m ∈ xs, cls.isInstance m = true ∧ sameResource cls s members = .ok true := by
  induction xs with
  | nil => simp
  | cons x xs ih =>
    rw [returns_forM_cons, List.forall_mem_cons]
    constructor
    · intro h
      obtain ⟨t, hcheck, hloop⟩ := h
      obtain ⟨rfl, hx⟩ := returns_check.mp hcheck
      obtain ⟨rfl, hrest⟩ := ih.mp hloop
      exact ⟨rfl, hx, hrest⟩
    · intro h
      obtain ⟨rfl, hx, hrest⟩ := h
      exact ⟨s, returns_check.mpr ⟨rfl, hx⟩, ih.mpr ⟨rfl, hrest⟩⟩

/-- The assertions of `extend`, `difference` and the constructor. -/
theorem returns_forM_check (hs : cls.OneResource s.items) :
    Returns (members.forM (check cls members)) s u s' ↔
      s = s' ∧ (∀ m ∈ members, cls.isInstance m = true) ∧
        cls.OneResource (s.items ++ members) := by
  rw [returns_forM_check_iff, ← sameResource_eq_true hs]
  constructor
  · intro h
    obtain ⟨hs', h⟩ := h
    refine ⟨hs', fun m hm => (h m hm).1, ?_⟩
    rcases members with _ | ⟨m, rest⟩
    · rw [sameResource_eq_true hs, List.append_nil]
      exact hs
    · exact (h m (by simp)).2
  · intro h
    exact ⟨h.1, fun m hm => ⟨h.2.1 m hm, h.2.2⟩⟩

end

variable [Hashable α] [LawfulHashable α] (cls : MemberClass α ρ)

/-- `__init__`; a new object is only seen when the assertions hold. -/
def init (members : List α) : Except PyError (OrderedSet α) :=
  match exec (members.forM (check cls members)) (OrderedSet.ofList members) with
  | (.ok _, self) => .ok self
  | (.error e, _) => .error e

/-- An expression `self.__class__(members)` in a method. -/
def construct (members : List α) : Method α (OrderedSet α) :=
  match init cls members with
  | .ok collection => pure collection
  | .error e => throw e

/-- `add` -/
def add (member : α) : Method α PUnit := do
  check cls [member] member
  modify fun members => members.add member

/-- `remove` -/
def remove (member : α) : Method α PUnit := do
  check cls [member] member
  let members ← get
  if members.contains member then
    match members.remove member with
    | .ok rest => set rest
    | .error e => throw e

/-- `extend` -/
def extend (members : List α) : Method α PUnit := do
  members.forM (check cls members)
  modify fun self => self.update members

/-- `difference` -/
def difference (members : List α) : Method α (OrderedSet α) := do
  members.forM (check cls members)
  construct cls ((← get).difference members).items

/-- `__getitem__`, for a slice. -/
def getSlice (start stop : Option Int) : Method α (OrderedSet α) := do
  construct cls (slice (← get).items start stop)

/-- `pop` -/
def pop : Method α α := do
  match (← get).items with
  | [] => throw (.runtimeError "Can't pop if empty")
  | member :: _ =>
    remove cls member
    return member

/-! ### What the methods do -/

variable {cls} {s s' : OrderedSet α} {members xs : List α} {member : α} {u : PUnit}

/-- A new collection has its members in order, without those that are equal to an earlier
one. -/
theorem init_eq_ok : init cls members = .ok s ↔
    s = OrderedSet.ofList members ∧ (∀ m ∈ members, cls.isInstance m = true) ∧
      cls.OneResource members := by
  have hloop : ∀ t, Returns (members.forM (check cls members)) (OrderedSet.ofList members) ⟨⟩ t ↔
      OrderedSet.ofList members = t ∧ (∀ m ∈ members, cls.isInstance m = true) ∧
        cls.OneResource members := by
    intro t
    rw [returns_forM_check_iff]
    rcases members with _ | ⟨m, rest⟩
    · simp [MemberClass.OneResource]
    · obtain ⟨others, hitems⟩ := OrderedSet.items_ofList_cons m rest
      have hsame : sameResource cls (OrderedSet.ofList (m :: rest)) (m :: rest) = .ok true ↔
          cls.OneResource (m :: rest) := by
        rw [sameResource, hitems]
        simp only [MemberClass.allOfFirst_eq_true]
        constructor
        · intro h
          exact h.subset fun a ha => List.mem_cons_of_mem _ ha
        · intro h
          exact h.subset fun a ha => by simpa using ha
      rw [hsame]
      constructor
      · intro h
        exact ⟨h.1, fun a ha => (h.2 a ha).1, (h.2 m (by simp)).2⟩
      · intro h
        exact ⟨h.1, fun a ha => ⟨h.2.1 a ha, h.2.2⟩⟩
  unfold init
  rcases hexec : exec (members.forM (check cls members)) (OrderedSet.ofList members)
    with ⟨e | u, t⟩
  · simp only [reduceCtorEq, false_iff]
    intro h
    have hret := (hloop _).mpr ⟨rfl, h.2⟩
    rw [Returns, hexec] at hret
    cases hret
  · have hret := (hloop t).mp hexec
    simp only [Except.ok.injEq]
    constructor
    · intro h
      exact ⟨(hret.1.trans h).symm, hret.2⟩
    · intro h
      exact (h.1.trans hret.1).symm

theorem returns_construct {d : OrderedSet α} :
    Returns (construct cls members) s d s' ↔ s = s' ∧ init cls members = .ok d := by
  unfold construct
  rcases init cls members with e | c
  · simp
  · simp [and_comm]

theorem returns_add (hs : cls.OneResource s.items) : Returns (add cls member) s u s' ↔
    s' = s.add member ∧ cls.isInstance member = true ∧ cls.OneResource (s.items ++ [member]) := by
  unfold add
  rw [returns_bind]
  constructor
  · intro h
    obtain ⟨_, t, hcheck, h⟩ := h
    obtain ⟨rfl, hi, hsame⟩ := returns_check.mp hcheck
    exact ⟨(returns_modify.mp h).symm, hi, (sameResource_eq_true hs).mp hsame⟩
  · intro h
    obtain ⟨rfl, hi, hr⟩ := h
    exact ⟨⟨⟩, s, returns_check.mpr ⟨rfl, hi, (sameResource_eq_true hs).mpr hr⟩, rfl⟩

theorem returns_extend (hs : cls.OneResource s.items) : Returns (extend cls members) s u s' ↔
    s' = s.update members ∧ (∀ m ∈ members, cls.isInstance m = true) ∧
      cls.OneResource (s.items ++ members) := by
  unfold extend
  rw [returns_bind]
  constructor
  · intro h
    obtain ⟨_, t, hcheck, h⟩ := h
    obtain ⟨rfl, hi, hr⟩ := (returns_forM_check hs).mp hcheck
    exact ⟨(returns_modify.mp h).symm, hi, hr⟩
  · intro h
    obtain ⟨rfl, hi, hr⟩ := h
    exact ⟨⟨⟩, s, (returns_forM_check hs).mpr ⟨rfl, hi, hr⟩, rfl⟩

theorem returns_remove (hs : cls.OneResource s.items) : Returns (remove cls member) s u s' ↔
    s' = s.discard member ∧ cls.isInstance member = true ∧
      cls.OneResource (s.items ++ [member]) := by
  have hrest : ∀ t, Returns (do
      let members ← get
      if members.contains member then
        match members.remove member with
        | .ok rest => set rest
        | .error e => throw e : Method α PUnit) t u s' ↔ s' = t.discard member := by
    intro t
    rw [returns_get_bind]
    rcases hc : t.contains member with _ | _
    · simp [OrderedSet.discard_of_not_contains hc, eq_comm]
    · simp [OrderedSet.remove, hc, eq_comm]
  unfold remove
  rw [returns_bind]
  constructor
  · intro h
    obtain ⟨_, t, hcheck, h⟩ := h
    obtain ⟨rfl, hi, hsame⟩ := returns_check.mp hcheck
    exact ⟨(hrest s).mp h, hi, (sameResource_eq_true hs).mp hsame⟩
  · intro h
    obtain ⟨rfl, hi, hr⟩ := h
    refine ⟨⟨⟩, s, returns_check.mpr ⟨rfl, hi, (sameResource_eq_true hs).mpr hr⟩, ?_⟩
    exact (hrest s).mpr rfl

theorem readsOnly_construct : ReadsOnly (construct cls members) := by
  unfold construct
  rcases init cls members with e | c
  · exact readsOnly_throw e
  · exact readsOnly_pure c

theorem readsOnly_difference : ReadsOnly (difference cls members) :=
  (ReadsOnly.forM (readsOnly_check cls members) members).bind fun _ =>
    readsOnly_get.bind fun _ => readsOnly_construct

/-- The result is built from what the set `difference` keeps. -/
theorem returns_difference {d : OrderedSet α}
    (h : Returns (difference cls members) s d s') :
    s' = s ∧ init cls (s.difference members).items = .ok d := by
  refine ⟨readsOnly_difference.eq_of_returns h, ?_⟩
  obtain ⟨_, t, hcheck, h⟩ := returns_bind.mp h
  obtain ⟨rfl, -⟩ := returns_forM_check_iff.mp hcheck
  exact (returns_construct.mp (returns_get_bind.mp h)).2

theorem returns_getSlice {d : OrderedSet α} {start stop : Option Int} :
    Returns (getSlice cls start stop) s d s' ↔
      s = s' ∧ init cls (slice s.items start stop) = .ok d :=
  returns_get_bind.trans returns_construct

theorem failsUnchanged_add : FailsUnchanged (add cls member) :=
  (readsOnly_check cls [member] member).bind_failsUnchanged fun _ => failsUnchanged_modify _

theorem failsUnchanged_extend : FailsUnchanged (extend cls members) :=
  (ReadsOnly.forM (readsOnly_check cls members) members).bind_failsUnchanged fun _ =>
    failsUnchanged_modify _

theorem failsUnchanged_remove : FailsUnchanged (remove cls member) := by
  refine (readsOnly_check cls [member] member).bind_failsUnchanged fun _ => ?_
  refine readsOnly_get.bind_failsUnchanged fun s => ?_
  split
  · split
    · exact failsUnchanged_set _
    · exact (readsOnly_throw _).failsUnchanged
  · exact (readsOnly_pure _).failsUnchanged

end Collection

/-! ## Members that are equal only to themselves -/

section

variable {α ρ : Type} [DecidableEq α] [DecidableEq ρ]
variable (s : DrbdTests.OrderedSet α) (resource : α → ρ) (members : List α) (key : α)

/-- The set, seen as one of members that bring their own equality. -/
def OrderedSet.ofPlain (s : DrbdTests.OrderedSet α) : OrderedSet α where
  items := s.items
  map := s.map
  keys_eq := s.keys_eq
  distinct := s.nodup.imp beq_false_of_ne

/-- The class of all objects of the type. -/
def MemberClass.ofPlain (resource : α → ρ) : MemberClass α ρ :=
  ⟨fun _ => true, fun a => some (resource a)⟩

theorem sameResource_ofPlain :
    Collection.sameResource (.ofPlain resource) (.ofPlain s) members =
      .ok (DrbdTests.Collection.sameResource resource s members) := by
  have hall : ∀ (r : ρ) (xs : List α), (MemberClass.ofPlain resource).allOf r xs =
      .ok (xs.all fun member => resource member = r) := by
    intro r xs
    induction xs with
    | nil => rfl
    | cons x xs ih =>
      change (if resource x = r then (MemberClass.ofPlain resource).allOf r xs else .ok false) = _
      rw [ih, List.all_cons]
      by_cases hx : resource x = r
      · rw [if_pos hx, decide_eq_true hx, Bool.true_and]
      · rw [if_neg hx, decide_eq_false hx, Bool.false_and]
  unfold Collection.sameResource DrbdTests.Collection.sameResource
  change (match s.items with
    | first :: _ => MemberClass.allOfFirst (.ofPlain resource) first members
    | [] => _) = _
  rcases s.items with _ | ⟨first, rest⟩
  · rcases members with _ | ⟨first, rest⟩
    · rfl
    · exact hall _ _
  · exact hall _ _

/-- How a method ends that only returns the changed set. -/
def outcome (r : Except PyError (DrbdTests.OrderedSet α)) : Except PyError PUnit × OrderedSet α :=
  match r with
  | .ok t => (.ok ⟨⟩, .ofPlain t)
  | .error e => (.error e, .ofPlain s)

theorem exec_check_ofPlain (b : Bool)
    (hb : DrbdTests.Collection.sameResource resource s members = b) :
    exec (Collection.check (.ofPlain resource) members key) (.ofPlain s) =
      (if b then .ok ⟨⟩ else .error .assertionError, .ofPlain s) := by
  have hsame := sameResource_ofPlain s resource members
  rw [hb] at hsame
  unfold Collection.check
  cases b <;> simp [MemberClass.ofPlain, exec_bind] <;> simp [MemberClass.ofPlain] at hsame <;>
    simp [hsame]

variable [Hashable α]

theorem contains_ofPlain : (OrderedSet.ofPlain s).contains key = decide (key ∈ s) := by
  rw [Bool.eq_iff_iff, OrderedSet.contains_iff, decide_eq_true_iff, DrbdTests.OrderedSet.mem_def]
  simp [OrderedSet.ofPlain]

theorem add_ofPlain : (OrderedSet.ofPlain s).add key = .ofPlain (s.add key) := by
  have hc := contains_ofPlain s key
  unfold OrderedSet.add DrbdTests.OrderedSet.add
  by_cases h : key ∈ s
  · rw [dif_pos (by simp [hc, h]), dif_pos h]
  · rw [dif_neg (by simp [hc, h]), dif_neg h]
    rfl

theorem update_ofPlain : (OrderedSet.ofPlain s).update members = .ofPlain (s.update members) := by
  unfold OrderedSet.update DrbdTests.OrderedSet.update
  induction members generalizing s with
  | nil => rfl
  | cons m members ih => rw [List.foldl_cons, List.foldl_cons, add_ofPlain, ih]

theorem discard_ofPlain : (OrderedSet.ofPlain s).discard key = .ofPlain (s.discard key) := by
  have hmap : s.map.eraseP (isKey key) = s.map.filter fun p => p.1 ≠ key := by
    have hnodup : (s.map.map Prod.fst).Nodup := s.keys_eq ▸ s.nodup
    generalize s.map = map at hnodup
    induction map with
    | nil => rfl
    | cons entry map ih =>
      obtain ⟨hentry, hmap⟩ := List.nodup_cons.mp hnodup
      rw [List.eraseP_cons, List.filter_cons, isKey_eq]
      by_cases hkey : entry.1 = key
      · rw [hkey, BEq.rfl, cond_true, if_neg (by simp)]
        symm
        apply List.filter_eq_self.mpr
        intro other hother
        have hne : other.1 ≠ key := fun h => hentry (hkey ▸ h ▸ List.mem_map_of_mem hother)
        simpa using hne
      · rw [beq_false_of_ne hkey, cond_false, if_pos (by simpa using hkey), ih hmap]
  simp only [OrderedSet.discard, OrderedSet.ofPlain, DrbdTests.OrderedSet.discard, hmap]

/-- `add` does the same to both. -/
theorem exec_add_ofPlain : exec (Collection.add (.ofPlain resource) key) (.ofPlain s) =
    outcome s (DrbdTests.Collection.add resource s key) := by
  unfold Collection.add DrbdTests.Collection.add
  rcases h : DrbdTests.Collection.sameResource resource s [key] with _ | _
  · rw [exec_bind_of_error (exec_check_ofPlain s resource [key] key false h)]
    rfl
  · rw [exec_bind_of_ok (exec_check_ofPlain s resource [key] key true h), exec_modify, add_ofPlain]
    rfl

/-- `extend` does the same to both. -/
theorem exec_extend_ofPlain : exec (Collection.extend (.ofPlain resource) members) (.ofPlain s) =
    outcome s (DrbdTests.Collection.extend resource s members) := by
  unfold Collection.extend DrbdTests.Collection.extend
  rcases h : DrbdTests.Collection.sameResource resource s members with _ | _
  · rcases members with _ | ⟨m, rest⟩
    · rfl
    · have hcheck := exec_check_ofPlain s resource (m :: rest) m false h
      have hloop : exec ((m :: rest).forM (Collection.check (.ofPlain resource) (m :: rest)))
          (.ofPlain s) = (.error .assertionError, .ofPlain s) := exec_bind_of_error hcheck
      rw [exec_bind_of_error hloop]
      simp [outcome]
  · have hloop : ∀ xs : List α, exec (xs.forM (Collection.check (.ofPlain resource) members))
        (.ofPlain s) = (.ok ⟨⟩, .ofPlain s) := by
      intro xs
      induction xs with
      | nil => rfl
      | cons x xs ih => exact (exec_bind_of_ok (exec_check_ofPlain s resource members x true h)).trans ih
    rw [exec_bind_of_ok (hloop members), exec_modify, update_ofPlain]
    simp [outcome]

/-- `remove` does the same to both. -/
theorem exec_remove_ofPlain : exec (Collection.remove (.ofPlain resource) key) (.ofPlain s) =
    outcome s (DrbdTests.Collection.remove resource s key) := by
  unfold Collection.remove DrbdTests.Collection.remove
  rcases h : DrbdTests.Collection.sameResource resource s [key] with _ | _
  · rw [exec_bind_of_error (exec_check_ofPlain s resource [key] key false h)]
    rfl
  · rw [exec_bind_of_ok (exec_check_ofPlain s resource [key] key true h), exec_get_bind]
    have hc := contains_ofPlain s key
    by_cases hkey : key ∈ s
    · simp [hc, hkey, OrderedSet.remove, DrbdTests.OrderedSet.remove, outcome, discard_ofPlain]
    · simp [hc, hkey, outcome]

end

end DrbdTests.Hashed
