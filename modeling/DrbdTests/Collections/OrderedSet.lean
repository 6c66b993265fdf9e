import Mathlib.Data.List.Basic
import Mathlib.Data.List.Nodup
import DrbdTests.Error

/-!
# `OrderedSet`

`python/ordered_set.py`: a list `items` and a dict `map` from every item to the index it
was given. The dict keeps its keys in insertion order, as a Python dict does.

That the two agree is part of the type: the keys of `map` are `items`, in the same order
and without repetition. The *values* of `map` are not constrained, since `discard` leaves
the index of every later item as it was.
-/

namespace DrbdTests

structure OrderedSet (α : Type) where
  items : List α
  map : List (α × Nat)
  keys_eq : map.map Prod.fst = items
  nodup : items.Nodup

namespace OrderedSet

variable {α : Type}

instance : Membership α (OrderedSet α) := ⟨fun s a => a ∈ s.items⟩

theorem mem_def {s : OrderedSet α} {a : α} : a ∈ s ↔ a ∈ s.items := Iff.rfl

def empty : OrderedSet α := ⟨[], [], rfl, .nil⟩

@[simp] theorem items_empty : (empty : OrderedSet α).items = [] := rfl

@[simp] theorem not_mem_empty (a : α) : a ∉ (empty : OrderedSet α) := by simp [mem_def]

def length (s : OrderedSet α) : Nat := s.items.length

variable [DecidableEq α]

/-- `__contains__` looks in the dict. -/
def contains (s : OrderedSet α) (key : α) : Bool := (s.map.lookup key).isSome

theorem lookup_isSome_iff (m : List (α × Nat)) (key : α) :
    (m.lookup key).isSome ↔ key ∈ m.map Prod.fst := by
  induction m with
  | nil => simp
  | cons p m ih =>
    obtain ⟨k, i⟩ := p
    rw [List.lookup_cons, List.map_cons, List.mem_cons, ← ih]
    by_cases h : key = k
    · simp [h]
    · simp [h, beq_false_of_ne h]

theorem contains_iff {s : OrderedSet α} {key : α} : s.contains key ↔ key ∈ s := by
  rw [contains, lookup_isSome_iff, s.keys_eq, mem_def]

instance (s : OrderedSet α) (a : α) : Decidable (a ∈ s) :=
  decidable_of_iff _ contains_iff

/-- `add`: a new key is appended with the current length as its index. -/
def add (s : OrderedSet α) (key : α) : OrderedSet α :=
  if h : key ∈ s then s
  else
    { items := s.items ++ [key]
      map := s.map ++ [(key, s.items.length)]
      keys_eq := by simp [s.keys_eq]
      nodup := s.nodup.append (List.nodup_singleton key) (by simpa [mem_def] using h) }

theorem items_add (s : OrderedSet α) (key : α) :
    (s.add key).items = if key ∈ s then s.items else s.items ++ [key] := by
  unfold add
  split <;> rfl

@[simp] theorem mem_add {s : OrderedSet α} {key a : α} : a ∈ s.add key ↔ a ∈ s ∨ a = key := by
  rw [mem_def, items_add]
  split
  · constructor
    · exact Or.inl
    · rintro (h | rfl)
      · exact h
      · assumption
  · simp [mem_def]

/-- `update` -/
def update (s : OrderedSet α) (data : List α) : OrderedSet α := data.foldl add s

@[simp] theorem mem_update {s : OrderedSet α} {data : List α} {a : α} :
    a ∈ s.update data ↔ a ∈ s ∨ a ∈ data := by
  unfold update
  induction data generalizing s with
  | nil => simp
  | cons d data ih => rw [List.foldl_cons, ih, mem_add, List.mem_cons, or_assoc]

/-- Adding new elements without repetition appends them. -/
theorem items_update_of_nodup {s : OrderedSet α} {data : List α} (hd : data.Nodup)
    (hs : ∀ a ∈ data, a ∉ s) : (s.update data).items = s.items ++ data := by
  unfold update
  induction data generalizing s with
  | nil => simp
  | cons d data ih =>
    have hd' := List.nodup_cons.mp hd
    rw [List.foldl_cons, ih hd'.2, items_add, if_neg (hs d (by simp))]
    · simp
    · intro a ha
      rw [mem_add, not_or]
      exact ⟨hs a (by simp [ha]), fun h => hd'.1 (h ▸ ha)⟩

/-- The constructor adds the elements of the iterable one by one. -/
def ofList (iterable : List α) : OrderedSet α := empty.update iterable

@[simp] theorem mem_ofList {iterable : List α} {a : α} : a ∈ ofList iterable ↔ a ∈ iterable := by
  simp [ofList]

theorem items_ofList {iterable : List α} (h : iterable.Nodup) :
    (ofList iterable).items = iterable := by
  rw [ofList, items_update_of_nodup h (by simp), items_empty, List.nil_append]

/-- `discard`: the dict entry and the first equal list item go; the other indices stay. -/
def discard (s : OrderedSet α) (key : α) : OrderedSet α where
  items := s.items.erase key
  map := s.map.filter (fun p => p.1 ≠ key)
  keys_eq := by
    rw [s.nodup.erase_eq_filter, ← s.keys_eq, List.filter_map]
    congr 1
    apply List.filter_congr
    intro p _
    simp [bne, Function.comp, beq_eq_decide]
  nodup := s.nodup.erase key

@[simp] theorem items_discard (s : OrderedSet α) (key : α) :
    (s.discard key).items = s.items.erase key := rfl

@[simp] theorem mem_discard {s : OrderedSet α} {key a : α} :
    a ∈ s.discard key ↔ a ≠ key ∧ a ∈ s := s.nodup.mem_erase_iff

theorem discard_of_not_mem {s : OrderedSet α} {key : α} (h : key ∉ s) : s.discard key = s := by
  obtain ⟨items, map, rfl, nodup⟩ := s
  simp only [discard, mk.injEq]
  refine ⟨List.erase_of_not_mem h, List.filter_eq_self.mpr ?_⟩
  intro p hp
  simp only [ne_eq, decide_not, Bool.not_eq_true', decide_eq_false_iff_not]
  exact fun he => h (he ▸ List.mem_map_of_mem hp)

/-- `MutableSet.remove`: `discard` of a present element. -/
def remove (s : OrderedSet α) (key : α) : Except PyError (OrderedSet α) :=
  if key ∈ s then .ok (s.discard key) else .error .keyError

/-- `difference_update` -/
def differenceUpdate (s : OrderedSet α) (delta : List α) : OrderedSet α := delta.foldl discard s

@[simp] theorem mem_differenceUpdate {s : OrderedSet α} {delta : List α} {a : α} :
    a ∈ s.differenceUpdate delta ↔ a ∈ s ∧ a ∉ delta := by
  unfold differenceUpdate
  induction delta generalizing s with
  | nil => simp
  | cons d delta ih => rw [List.foldl_cons, ih, mem_discard, List.mem_cons]; tauto

/-- `copy` builds a new set from the items, so its indices are positions again. -/
def copy (s : OrderedSet α) : OrderedSet α := ofList s.items

/-- `difference` -/
def difference (s : OrderedSet α) (delta : List α) : OrderedSet α :=
  s.copy.differenceUpdate delta

@[simp] theorem mem_difference {s : OrderedSet α} {delta : List α} {a : α} :
    a ∈ s.difference delta ↔ a ∈ s ∧ a ∉ delta := by
  rw [difference, mem_differenceUpdate, copy, mem_ofList, mem_def]

end OrderedSet

end DrbdTests
