import DrbdTests.Collections.Hashed

/-!
# The index of an `OrderedSet`

`add` stores the position of a new item in the dict, and `index` returns what is stored.
`discard` takes an item out of the list and its entry out of the dict. The items behind it
move up by one, and their entries keep the old positions.

The indexes of a set are right (`Indexed`) when the stored numbers are `0, 1, 2, …`
(`Numbered`) and no item is an iterable. From such a set `update` adds right indexes, unless
it adds an iterable, and a removal leaves right indexes exactly when it removes a tail of the
list (`TailRemoved`).

`Sets` are all sets of a run, numbered in the order in which they were made: `difference`
makes a new one, and a set can be the argument of a method of another one, or of its own.
-/

namespace DrbdTests.Hashed

open InsertionOrder Runs

/-- What `index` returns: a list for an iterable. -/
inductive Index where
  | position (i : Nat)
  | list (indices : List Index)

section

variable {α : Type} [BEq α] [Hashable α]

namespace OrderedSet

/-- `self.map[key]` -/
def lookup (s : OrderedSet α) (key : α) : Except PyError Nat :=
  match s.map.find? (isKey key) with
  | some entry => .ok entry.2
  | none => .error .keyError

/-- `index`. `subkeys` gives what is in a key that is an iterable and no string; `depth` is
how deep the calls may be nested. -/
def index (subkeys : α → Option (List α)) (s : OrderedSet α) (depth : Nat) (key : α) :
    Except PyError Index :=
  match subkeys key, depth with
  | none, _ => Index.position <$> s.lookup key
  | some _, 0 => .error (.runtimeError "maximum recursion depth exceeded")
  | some keys, depth + 1 => Index.list <$> keys.mapM (s.index subkeys depth)

variable [LawfulHashable α]

/-- What `add` returns. -/
def addIndex (s : OrderedSet α) (key : α) : Except PyError Nat := (s.add key).lookup key

/-- What `update` returns. -/
def updateIndices (s : OrderedSet α) : List α → Except PyError (List Nat)
  | [] => .ok []
  | e :: data => do
    let i ← s.addIndex e
    let indices ← (s.add e).updateIndices data
    return i :: indices

/-- `difference_update` -/
def differenceUpdate (s : OrderedSet α) (delta : List α) : OrderedSet α := delta.foldl discard s

/-- `difference_update` with the set itself: the loop goes on at this position of the list it
takes items out of. -/
def discardFrom (s : OrderedSet α) (i : Nat) : OrderedSet α :=
  if h : i < s.items.length then (s.discard s.items[i]).discardFrom (i + 1) else s
termination_by s.items.length - i
decreasing_by
  have hle : (s.discard s.items[i]).items.length ≤ s.items.length := List.erase_sublist.length_le
  omega

end OrderedSet

end

/-! ## Numbers in a list -/

section

variable {α : Type}

/-- The numbers are `n`, `n + 1` and so on. -/
def Numbered (n : Nat) (map : List (α × Nat)) : Prop :=
  map.map Prod.snd = List.range' n map.length

variable {n : Nat} {key : α} {entry : α × Nat} {map : List (α × Nat)}

theorem numbered_nil (n : Nat) : Numbered n ([] : List (α × Nat)) := rfl

theorem numbered_cons : Numbered n (entry :: map) ↔ entry.2 = n ∧ Numbered (n + 1) map := by
  unfold Numbered
  rw [List.map_cons, List.length_cons, List.range'_succ, List.cons_eq_cons]

theorem numbered_iff_getElem? :
    Numbered n map ↔ ∀ i key j, map[i]? = some (key, j) → j = n + i := by
  induction map generalizing n with
  | nil => simp [numbered_nil]
  | cons entry map ih =>
    rw [numbered_cons, ih]
    constructor
    · intro h i key j hi
      cases i with
      | zero =>
        cases hi
        exact h.1
      | succ i =>
        have hj := h.2 i key j hi
        omega
    · intro h
      refine ⟨h 0 entry.1 entry.2 rfl, ?_⟩
      intro i key j hi
      have hj := h (i + 1) key j hi
      omega

theorem Numbered.append_singleton (h : Numbered n map) (key : α) :
    Numbered n (map ++ [(key, n + map.length)]) := by
  unfold Numbered at h ⊢
  rw [List.map_append, h, List.length_append]
  exact List.range'_1_concat.symm

/-- Some of the entries behind the first one cannot be numbered as if they began there. -/
theorem Numbered.eq_nil_of_sublist {rest : List (α × Nat)} (h : Numbered (n + 1) map)
    (hrest : rest.Sublist map) (hn : Numbered n rest) : rest = [] := by
  rcases rest with _ | ⟨first, rest⟩
  · rfl
  · have hfirst : first.2 ∈ map.map Prod.snd :=
      List.mem_map_of_mem (hrest.subset List.mem_cons_self)
    rw [h] at hfirst
    have hle := (List.mem_range'_1.mp hfirst).1
    have heq := (numbered_cons.mp hn).1
    omega

/-- What is left is numbered when what goes is a tail. -/
theorem numbered_filter_iff {keep : α × Nat → Bool} (h : Numbered n map) :
    Numbered n (map.filter keep) ↔
      map.Pairwise fun a b => keep a = false → keep b = false := by
  induction map generalizing n with
  | nil => simp [numbered_nil]
  | cons entry map ih =>
    obtain ⟨hentry, hmap⟩ := numbered_cons.mp h
    rw [List.filter_cons, List.pairwise_cons]
    rcases hkeep : keep entry with _ | _
    · rw [if_neg Bool.false_ne_true]
      constructor
      · intro hfilter
        have hnil := hmap.eq_nil_of_sublist List.filter_sublist hfilter
        have hgone : ∀ b ∈ map, keep b = false := by
          intro b hb
          simpa using List.filter_eq_nil_iff.mp hnil b hb
        refine ⟨fun b hb _ => hgone b hb, ?_⟩
        apply List.pairwise_of_forall_mem_list
        intro a _ b hb _
        exact hgone b hb
      · intro hpairs
        have hnil : map.filter keep = [] := by
          apply List.filter_eq_nil_iff.mpr
          intro b hb
          simp [hpairs.1 b hb rfl]
        rw [hnil]
        exact numbered_nil n
    · rw [if_pos rfl, numbered_cons, ih hmap]
      constructor
      · intro hrest
        refine ⟨?_, hrest.2⟩
        intro b _ hfalse
        cases hfalse
      · intro hpairs
        exact ⟨hentry, hpairs.2⟩

/-- Every second element, from the first on. -/
def everySecond : List α → List α
  | [] => []
  | [a] => [a]
  | a :: _ :: rest => a :: everySecond rest

theorem mem_of_mem_everySecond {xs : List α} {a : α} (h : a ∈ everySecond xs) : a ∈ xs := by
  induction xs using everySecond.induct with
  | case1 => exact h
  | case2 b => exact h
  | case3 b c rest ih =>
    rcases List.mem_cons.mp h with rfl | h
    · exact List.mem_cons_self
    · exact List.mem_cons_of_mem b (List.mem_cons_of_mem c (ih h))

end

/-! ## Right indexes -/

namespace OrderedSet

section

variable {α : Type} [BEq α] {s : OrderedSet α} {subkeys : α → Option (List α)} {key item : α}
variable {i : Nat}

theorem getElem?_items (s : OrderedSet α) (i : Nat) : s.items[i]? = s.map[i]?.map Prod.fst := by
  rw [← s.keys_eq, List.getElem?_map]

theorem length_map (s : OrderedSet α) : s.map.length = s.items.length := by
  rw [← s.keys_eq, List.length_map]

/-- With an item, every later item is removed. -/
def TailRemoved (s : OrderedSet α) (delta : List α) : Prop :=
  s.items.Pairwise fun a b => delta.any (a == ·) = true → delta.any (b == ·) = true

/-- Where every second item goes, the second item stays behind the first one. -/
theorem tailRemoved_everySecond_iff [EquivBEq α] :
    s.TailRemoved (everySecond s.items) ↔ s.items.length ≤ 1 := by
  have hdistinct := s.distinct
  unfold TailRemoved
  generalize s.items = items at hdistinct
  match items with
  | [] => simp
  | [a] => simp
  | a :: b :: rest =>
    obtain ⟨ha, hrest⟩ := List.pairwise_cons.mp hdistinct
    obtain ⟨hb, -⟩ := List.pairwise_cons.mp hrest
    constructor
    · intro h
      have hremoved := (List.pairwise_cons.mp h).1 b List.mem_cons_self (by simp [everySecond])
      obtain ⟨c, hc, hbc⟩ := List.any_eq_true.mp hremoved
      rcases List.mem_cons.mp hc with rfl | hc
      · rw [BEq.comm, ha b List.mem_cons_self] at hbc
        cases hbc
      · rw [hb c (mem_of_mem_everySecond hc)] at hbc
        cases hbc
    · intro h
      simp at h

variable [Hashable α]

theorem index_of_none (h : subkeys key = none) (depth : Nat) :
    s.index subkeys depth key = Index.position <$> s.lookup key := by
  unfold index
  rw [h]

theorem index_zero_of_some {keys : List α} (h : subkeys key = some keys) :
    s.index subkeys 0 key = .error (.runtimeError "maximum recursion depth exceeded") := by
  unfold index
  rw [h]

variable [LawfulHashable α]

/-- `index` of every item is its position, and also of an equal key that is no iterable. So is
what `add` returns for an equal key. -/
structure Indexed (subkeys : α → Option (List α)) (s : OrderedSet α) : Prop where
  index : ∀ i key depth, s.items[i]? = some key → s.index subkeys depth key = .ok (.position i)
  equal : ∀ i item key depth, s.items[i]? = some item → item == key → subkeys key = none →
    s.index subkeys depth key = .ok (.position i)
  add : ∀ i item key, s.items[i]? = some item → item == key → s.addIndex key = .ok i

/-- No iterable is new: neither in the set nor equal to an earlier element of the data. -/
def NewAtomic (subkeys : α → Option (List α)) (s : OrderedSet α) (data : List α) : Prop :=
  ∀ i key, data[i]? = some key → s.contains key = false →
    (∀ b ∈ data.take i, (b == key) = false) → subkeys key = none

theorem contains_of_getElem? (hi : s.items[i]? = some item) (hkey : item == key) :
    s.contains key = true :=
  contains_iff.mpr ⟨item, List.mem_of_getElem? hi, hkey⟩

theorem addIndex_of_contains (h : s.contains key = true) : s.addIndex key = s.lookup key := by
  rw [addIndex, add_of_contains h]

theorem numbered_add (h : Numbered 0 s.map) (key : α) : Numbered 0 (s.add key).map := by
  rcases hc : s.contains key with _ | _
  · have hmap : (s.add key).map = s.map ++ [(key, 0 + s.map.length)] := by
      rw [add, dif_neg (by simp [hc]), Nat.zero_add, length_map]
    rw [hmap]
    exact h.append_singleton key
  · rw [add_of_contains hc]
    exact h

theorem numbered_update (h : Numbered 0 s.map) (data : List α) :
    Numbered 0 (s.update data).map := by
  unfold update
  induction data generalizing s with
  | nil => exact h
  | cons d data ih => exact ih (numbered_add h d)

theorem discardFrom_of_le (h : s.items.length ≤ i) : s.discardFrom i = s := by
  rw [discardFrom, dif_neg (by omega)]

theorem discardFrom_append {before rest : List α} {a : α} (h : s.items = before ++ a :: rest) :
    s.discardFrom before.length = (s.discard a).discardFrom (before.length + 1) := by
  have hlt : before.length < s.items.length := by simp [h]
  have hget : s.items[before.length] = a := by simp [h]
  rw [discardFrom, dif_pos hlt, hget]

variable [EquivBEq α]

/-- The dict finds the entry of an item with any equal key. -/
theorem lookup_eq {j : Nat} (hi : s.map[i]? = some (item, j)) (hkey : item == key) :
    s.lookup key = .ok j := by
  have hdistinct : Distinct (s.map.map Prod.fst) := s.keys_eq ▸ s.distinct
  have hfind : s.map.find? (isKey key) = some (item, j) := by
    generalize s.map = map at hi hdistinct
    induction map generalizing i with
    | nil => cases hi
    | cons entry map ih =>
      rw [List.find?_cons, isKey_eq]
      obtain ⟨hentry, hmap⟩ := List.pairwise_cons.mp hdistinct
      cases i with
      | zero =>
        cases hi
        rw [hkey]
      | succ i =>
        rw [List.getElem?_cons_succ] at hi
        have hmem : item ∈ map.map Prod.fst := List.mem_map_of_mem (List.mem_of_getElem? hi)
        have hne : (entry.1 == key) = false := by
          rw [← BEq.congr_right hkey]
          exact hentry item hmem
        rw [hne]
        exact ih hi hmap
  rw [lookup, hfind]

theorem lookup_of_numbered (h : Numbered 0 s.map) (hi : s.items[i]? = some item)
    (hkey : item == key) : s.lookup key = .ok i := by
  rw [getElem?_items] at hi
  obtain ⟨entry, hentry, rfl⟩ := Option.map_eq_some_iff.mp hi
  rw [lookup_eq hentry hkey, numbered_iff_getElem?.mp h i entry.1 entry.2 hentry, Nat.zero_add]

theorem indexed_iff :
    s.Indexed subkeys ↔ Numbered 0 s.map ∧ ∀ a ∈ s.items, subkeys a = none := by
  constructor
  · intro h
    have hatomic : ∀ (i : Nat) (key : α), s.items[i]? = some key → subkeys key = none := by
      intro i key hi
      rcases hkeys : subkeys key with _ | keys
      · rfl
      · have hindex := h.index i key 0 hi
        rw [index_zero_of_some hkeys] at hindex
        cases hindex
    constructor
    · apply numbered_iff_getElem?.mpr
      intro i key j hi
      have hitem : s.items[i]? = some key := by rw [getElem?_items, hi, Option.map_some]
      have hindex := h.index i key 0 hitem
      rw [index_of_none (hatomic i key hitem), lookup_eq hi BEq.rfl] at hindex
      cases hindex
      omega
    · intro a ha
      obtain ⟨i, hi⟩ := List.mem_iff_getElem?.mp ha
      exact hatomic i a hi
  · intro h
    obtain ⟨hnumbered, hatomic⟩ := h
    have hequal : ∀ (i : Nat) (item key : α) (depth : Nat), s.items[i]? = some item →
        item == key → subkeys key = none → s.index subkeys depth key = .ok (.position i) := by
      intro i item key depth hi hkey hnone
      rw [index_of_none hnone, lookup_of_numbered hnumbered hi hkey]
      rfl
    constructor
    · intro i key depth hi
      exact hequal i key key depth hi BEq.rfl (hatomic key (List.mem_of_getElem? hi))
    · exact hequal
    · intro i item key hi hkey
      rw [addIndex_of_contains (contains_of_getElem? hi hkey)]
      exact lookup_of_numbered hnumbered hi hkey

/-! ### Insertions -/

theorem contains_add (s : OrderedSet α) (d key : α) :
    (s.add d).contains key = (s.contains key || d == key) := by
  rcases hc : s.contains d with _ | _
  · rw [Bool.eq_iff_iff, Bool.or_eq_true, contains_iff, contains_iff, items_add hc]
    simp [or_and_right, exists_or]
  · rw [add_of_contains hc]
    rcases hkey : d == key with _ | _
    · rw [Bool.or_false]
    · rw [Bool.or_true, ← contains_congr s hkey, hc]

/-- The data after an element that is now in the set. -/
theorem newAtomic_cons {d : α} {data : List α} :
    s.NewAtomic subkeys (d :: data) ↔
      (s.contains d = false → subkeys d = none) ∧ (s.add d).NewAtomic subkeys data := by
  constructor
  · intro h
    refine ⟨fun hd => h 0 d rfl hd (by simp), ?_⟩
    intro i key hi hkey hearlier
    rw [contains_add, Bool.or_eq_false_iff] at hkey
    apply h (i + 1) key hi hkey.1
    rw [List.take_succ_cons, List.forall_mem_cons]
    exact ⟨hkey.2, hearlier⟩
  · intro h i key hi hkey hearlier
    cases i with
    | zero =>
      cases hi
      exact h.1 hkey
    | succ i =>
      rw [List.take_succ_cons, List.forall_mem_cons] at hearlier
      apply h.2 i key hi ?_ hearlier.2
      rw [contains_add, hkey, hearlier.1, Bool.or_false]

theorem atomic_update_iff {data : List α} :
    (∀ a ∈ (s.update data).items, subkeys a = none) ↔
      (∀ a ∈ s.items, subkeys a = none) ∧ s.NewAtomic subkeys data := by
  induction data generalizing s with
  | nil => simp [update, NewAtomic]
  | cons d data ih =>
    have hadd : (∀ a ∈ (s.add d).items, subkeys a = none) ↔
        (∀ a ∈ s.items, subkeys a = none) ∧ (s.contains d = false → subkeys d = none) := by
      rcases hc : s.contains d with _ | _
      · rw [items_add hc, List.forall_mem_append, List.forall_mem_singleton]
        simp
      · simp [add_of_contains hc]
    rw [update, List.foldl_cons, ← update, ih, hadd, newAtomic_cons, and_assoc]

/-- `update` leaves right indexes when it adds no iterable. -/
theorem Indexed.update_iff (h : s.Indexed subkeys) (data : List α) :
    (s.update data).Indexed subkeys ↔ s.NewAtomic subkeys data := by
  obtain ⟨hnumbered, hatomic⟩ := indexed_iff.mp h
  rw [indexed_iff, atomic_update_iff]
  constructor
  · intro hupdate
    exact hupdate.2.2
  · intro hnew
    exact ⟨numbered_update hnumbered data, hatomic, hnew⟩

/-- Where the stored numbers are right, `add` returns the position of the key. -/
theorem addIndex_of_numbered (h : Numbered 0 s.map) (key : α) :
    ∃ i item, s.addIndex key = .ok i ∧ (s.add key).items[i]? = some item ∧ item == key := by
  have hcontains : (s.add key).contains key = true := by
    rw [contains_add, BEq.rfl, Bool.or_true]
  obtain ⟨item, hitem, hkey⟩ := contains_iff.mp hcontains
  obtain ⟨i, hi⟩ := List.mem_iff_getElem?.mp hitem
  exact ⟨i, item, lookup_of_numbered (numbered_add h key) hi hkey, hi, hkey⟩

/-- `update` returns the positions of the data, in the set it leaves. -/
theorem updateIndices_of_numbered (h : Numbered 0 s.map) (data : List α) :
    ∃ indices, s.updateIndices data = .ok indices ∧
      List.Forall₂ (fun key i => ∃ item, (s.update data).items[i]? = some item ∧ item == key)
        data indices := by
  induction data generalizing s with
  | nil => exact ⟨[], rfl, .nil⟩
  | cons d data ih =>
    obtain ⟨i, item, hadd, hi, hkey⟩ := addIndex_of_numbered h d
    obtain ⟨indices, hindices, hrest⟩ := ih (numbered_add h d)
    refine ⟨i :: indices, ?_, .cons ⟨item, ?_, hkey⟩ hrest⟩
    · rw [updateIndices, hadd, hindices]
      rfl
    · obtain ⟨rest, hrest⟩ := prefix_update (s.add d) data
      have hlt : i < (s.add d).items.length := (List.getElem?_eq_some_iff.mp hi).1
      change ((s.add d).update data).items[i]? = some item
      rw [← hrest, List.getElem?_append_left hlt, hi]

/-! ### Removals -/

theorem map_discard (s : OrderedSet α) (key : α) :
    (s.discard key).map = s.map.filter fun entry => !(entry.1 == key) := by
  have hdistinct : Distinct (s.map.map Prod.fst) := s.keys_eq ▸ s.distinct
  have hkey : isKey key = fun entry : α × Nat => entry.1 == key := funext (isKey_eq key)
  change s.map.eraseP (isKey key) = _
  rw [hkey]
  generalize s.map = map at hdistinct
  induction map with
  | nil => rfl
  | cons entry map ih =>
    obtain ⟨hentry, hmap⟩ := List.pairwise_cons.mp hdistinct
    rw [List.eraseP_cons, List.filter_cons]
    rcases hk : entry.1 == key with _ | _
    · rw [cond_false, Bool.not_false, if_pos rfl, ih hmap]
    · rw [cond_true, Bool.not_true, if_neg Bool.false_ne_true]
      symm
      apply List.filter_eq_self.mpr
      intro other hother
      have hne := hentry other.1 (List.mem_map_of_mem hother)
      rw [BEq.congr_left hk, BEq.comm] at hne
      simp [hne]

theorem map_differenceUpdate (s : OrderedSet α) (delta : List α) :
    (s.differenceUpdate delta).map = s.map.filter fun entry => !delta.any (entry.1 == ·) := by
  unfold differenceUpdate
  induction delta generalizing s with
  | nil => simp
  | cons d delta ih =>
    rw [List.foldl_cons, ih, map_discard, List.filter_filter]
    apply List.filter_congr
    intro entry _
    rw [List.any_cons, Bool.not_or, Bool.and_comm]

theorem items_differenceUpdate (s : OrderedSet α) (delta : List α) :
    (s.differenceUpdate delta).items = s.items.filter fun a => !delta.any (a == ·) := by
  rw [← (s.differenceUpdate delta).keys_eq, map_differenceUpdate, ← s.keys_eq, List.filter_map]
  rfl

/-- A removal leaves right indexes when it removes a tail of the list. -/
theorem Indexed.differenceUpdate_iff (h : s.Indexed subkeys) (delta : List α) :
    (s.differenceUpdate delta).Indexed subkeys ↔ s.TailRemoved delta := by
  obtain ⟨hnumbered, hatomic⟩ := indexed_iff.mp h
  have hkept : ∀ a ∈ (s.differenceUpdate delta).items, subkeys a = none := by
    intro a ha
    rw [items_differenceUpdate] at ha
    exact hatomic a (List.mem_of_mem_filter ha)
  rw [indexed_iff, and_iff_left hkept, map_differenceUpdate, numbered_filter_iff hnumbered,
    TailRemoved, ← s.keys_eq, List.pairwise_map]
  simp only [Bool.not_eq_false']

theorem Indexed.copy (h : s.Indexed subkeys) : s.copy.Indexed subkeys := by
  apply indexed_iff.mpr
  constructor
  · exact numbered_update (numbered_nil 0) s.items
  · rw [OrderedSet.copy, items_ofList s.distinct]
    exact (indexed_iff.mp h).2

theorem Indexed.difference_iff (h : s.Indexed subkeys) {delta : List α} :
    (s.difference delta).Indexed subkeys ↔ s.TailRemoved delta := by
  have hitems : s.copy.items = s.items := items_ofList s.distinct
  change (s.copy.differenceUpdate delta).Indexed subkeys ↔ _
  rw [h.copy.differenceUpdate_iff, TailRemoved, hitems, TailRemoved]

/-! ### Removals of a set from itself -/

theorem items_discard_append {before rest : List α} {a : α} (h : s.items = before ++ a :: rest) :
    (s.discard a).items = before ++ rest := by
  have hdistinct : Distinct (before ++ a :: rest) := h ▸ s.distinct
  have hbefore : ∀ b ∈ before, ¬(b == a) = true := by
    intro b hb
    rw [(List.pairwise_append.mp hdistinct).2.2 b hb a List.mem_cons_self]
    exact Bool.false_ne_true
  change s.items.erase a = _
  rw [h, List.erase_eq_eraseP', List.eraseP_append_right _ hbefore]
  rw [List.eraseP_cons_of_pos (by simp)]

/-- The loop passes over the item behind each one that it takes out. -/
theorem discardFrom_eq {before rest : List α} (h : s.items = before ++ rest) :
    s.discardFrom before.length = s.differenceUpdate (everySecond rest) := by
  induction rest using everySecond.induct generalizing s before with
  | case1 =>
    rw [List.append_nil] at h
    exact discardFrom_of_le (Nat.le_of_eq (congrArg List.length h))
  | case2 a =>
    have hitems := items_discard_append h
    rw [List.append_nil] at hitems
    rw [discardFrom_append h]
    exact discardFrom_of_le (by rw [hitems]; omega)
  | case3 a b rest ih =>
    have hitems : (s.discard a).items = (before ++ [b]) ++ rest := by
      rw [items_discard_append h, List.append_assoc, List.singleton_append]
    have hrest := ih hitems
    rw [List.length_append, List.length_singleton] at hrest
    rw [discardFrom_append h, hrest]
    rfl

theorem Indexed.discardFrom_iff (h : s.Indexed subkeys) :
    (s.discardFrom 0).Indexed subkeys ↔ s.items.length ≤ 1 := by
  have hloop : s.discardFrom 0 = s.differenceUpdate (everySecond s.items) :=
    discardFrom_eq (List.nil_append s.items).symm
  rw [hloop, h.differenceUpdate_iff, tailRemoved_everySecond_iff]

end

/-! ## Runs -/

/-- The argument of a method: a list, or a set, which may be the one whose method is called. -/
inductive Iterable (α : Type) where
  | list (xs : List α)
  | set (c : Nat)
  deriving DecidableEq, Repr

/-- The calls; `c` is the set whose method is called. -/
inductive Call (α : Type) where
  | add (c : Nat) (key : α)
  | update (c : Nat) (data : Iterable α)
  | discard (c : Nat) (key : α)
  | differenceUpdate (c : Nat) (delta : Iterable α)
  | difference (c : Nat) (delta : Iterable α)
  deriving DecidableEq, Repr

/-- All sets of a run. -/
abbrev Sets (α : Type) [BEq α] := List (OrderedSet α)

section

variable {α : Type} [BEq α]

/-- What a loop over the argument sees, unless its body changes the argument. -/
def Iterable.elements (sets : Sets α) : Iterable α → Option (List α)
  | list xs => some xs
  | set c => sets[c]?.map OrderedSet.items

variable [Hashable α] [LawfulHashable α]

/-- A call. `update` of a set with itself is no special case: nothing is added to the list
while the loop goes over it. -/
inductive Step (sets : Sets α) : Call α → Sets α → Prop
  | add {c : Nat} {key : α} {s : OrderedSet α} (hs : sets[c]? = some s) :
      Step sets (.add c key) (sets.set c (s.add key))
  | update {c : Nat} {data : Iterable α} {xs : List α} {s : OrderedSet α}
      (hs : sets[c]? = some s) (hxs : data.elements sets = some xs) :
      Step sets (.update c data) (sets.set c (s.update xs))
  | discard {c : Nat} {key : α} {s : OrderedSet α} (hs : sets[c]? = some s) :
      Step sets (.discard c key) (sets.set c (s.discard key))
  | differenceUpdate {c : Nat} {delta : Iterable α} {xs : List α} {s : OrderedSet α}
      (hs : sets[c]? = some s) (hother : delta ≠ .set c)
      (hxs : delta.elements sets = some xs) :
      Step sets (.differenceUpdate c delta) (sets.set c (s.differenceUpdate xs))
  | differenceUpdateSelf {c : Nat} {s : OrderedSet α} (hs : sets[c]? = some s) :
      Step sets (.differenceUpdate c (.set c)) (sets.set c (s.discardFrom 0))
  | difference {c : Nat} {delta : Iterable α} {xs : List α} {s : OrderedSet α}
      (hs : sets[c]? = some s) (hxs : delta.elements sets = some xs) :
      Step sets (.difference c delta) (sets ++ [s.difference xs])

/-- The call adds no new iterable to its set, and removes a tail of the list. -/
def Call.Ok (subkeys : α → Option (List α)) (sets : Sets α) : Call α → Prop
  | add c key => ∀ s ∈ sets[c]?, s.NewAtomic subkeys [key]
  | update c data => ∀ s ∈ sets[c]?, ∀ xs ∈ data.elements sets, s.NewAtomic subkeys xs
  | discard c key => ∀ s ∈ sets[c]?, s.TailRemoved [key]
  | differenceUpdate c delta => ∀ s ∈ sets[c]?,
      (delta = .set c → s.items.length ≤ 1) ∧
        (delta ≠ .set c → ∀ xs ∈ delta.elements sets, s.TailRemoved xs)
  | difference c delta => ∀ s ∈ sets[c]?, ∀ xs ∈ delta.elements sets, s.TailRemoved xs

theorem forall_mem_set_iff {β : Type} {P : β → Prop} {xs : List β} {x y : β} {i : Nat}
    (h : ∀ a ∈ xs, P a) (hx : xs[i]? = some x) : (∀ a ∈ xs.set i y, P a) ↔ P y := by
  constructor
  · intro hset
    have hlt : i < xs.length := (List.getElem?_eq_some_iff.mp hx).1
    exact hset y (List.mem_set hlt y)
  · intro hy a ha
    rcases List.mem_or_eq_of_mem_set ha with ha | rfl
    · exact h a ha
    · exact hy

variable {subkeys : α → Option (List α)} {sets sets' : Sets α} {call : Call α}

/-- From sets with right indexes, a call leads to such sets exactly when it is `Ok`. -/
theorem Step.indexed_iff [EquivBEq α] (h : ∀ s ∈ sets, s.Indexed subkeys)
    (hstep : Step sets call sets') :
    (∀ s ∈ sets', s.Indexed subkeys) ↔ call.Ok subkeys sets := by
  have hmem : ∀ {c : Nat} {s : OrderedSet α}, sets[c]? = some s → s.Indexed subkeys :=
    fun hs => h _ (List.mem_of_getElem? hs)
  cases hstep with
  | @add c key s hs =>
    have hadd : (s.add key).Indexed subkeys ↔ _ := (hmem hs).update_iff [key]
    rw [forall_mem_set_iff h hs, hadd]
    simp [Call.Ok, hs]
  | @update c data xs s hs hxs =>
    rw [forall_mem_set_iff h hs, (hmem hs).update_iff]
    simp [Call.Ok, hs, hxs]
  | @discard c key s hs =>
    have hdiscard : (s.discard key).Indexed subkeys ↔ _ := (hmem hs).differenceUpdate_iff [key]
    rw [forall_mem_set_iff h hs, hdiscard]
    simp [Call.Ok, hs]
  | @differenceUpdate c delta xs s hs hother hxs =>
    rw [forall_mem_set_iff h hs, (hmem hs).differenceUpdate_iff]
    simp [Call.Ok, hs, hxs, hother]
  | @differenceUpdateSelf c s hs =>
    rw [forall_mem_set_iff h hs, (hmem hs).discardFrom_iff]
    simp [Call.Ok, hs]
  | @difference c delta xs s hs hxs =>
    rw [List.forall_mem_append, List.forall_mem_singleton, (hmem hs).difference_iff]
    simp only [Call.Ok, hs, hxs, Option.mem_def, Option.some.injEq, forall_eq']
    exact and_iff_right h

/-- In every run from an empty set, the keys of every dict are the items of its list, without
equal ones; and all indexes are right all the time exactly when every call is `Ok`. -/
theorem indexes_right_iff [EquivBEq α] (subkeys : α → Option (List α)) (calls : List (Call α)) :
    (∀ sets, Run Step [.empty] calls sets →
      ∀ s ∈ sets, s.map.map Prod.fst = s.items ∧ Distinct s.items) ∧
    (EveryState Step (fun sets => ∀ s ∈ sets, s.Indexed subkeys) [.empty] calls ↔
      EveryStep Step (Call.Ok subkeys) [.empty] calls) := by
  constructor
  · intro sets _ s _
    exact ⟨s.keys_eq, s.distinct⟩
  · have hempty : ∀ s ∈ [OrderedSet.empty (α := α)], s.Indexed subkeys := by
      intro s hs
      rw [List.mem_singleton.mp hs]
      exact OrderedSet.indexed_iff.mpr ⟨numbered_nil 0, by simp [OrderedSet.empty]⟩
    apply everyState_iff_everyStep (I := fun _ => True) trivial hempty
    · intro _ _ _ _ _
      trivial
    · intro sets call sets' _ h hstep
      exact hstep.indexed_iff h

/-- A set is filled, all its items are removed from a copy, and two are added again. -/
theorem indexes_right_filled : ∃ sets : Sets Nat,
    Run Step [.empty] [.update 0 (.list [7, 3, 5]), .difference 0 (.set 0), .add 1 5, .add 0 3]
      sets ∧
    ∀ s ∈ sets, s.Indexed fun _ => none := by
  let calls : List (Call Nat) :=
    [.update 0 (.list [7, 3, 5]), .difference 0 (.set 0), .add 1 5, .add 0 3]
  have hok : EveryStep Step (Call.Ok fun _ : Nat => none) [.empty] calls := by
    intro before call hbefore sets sets' _ _
    have hcall : call ∈ calls := hbefore.subset (by simp)
    simp only [calls, List.mem_cons, List.not_mem_nil, or_false] at hcall
    rcases hcall with rfl | rfl | rfl | rfl
    · intro s _ xs _ i key _ _ _
      rfl
    · intro s hs xs hxs
      rw [Option.mem_def] at hs hxs
      rw [Iterable.elements, hs] at hxs
      cases hxs
      apply List.pairwise_of_forall_mem_list
      intro a _ b hb _
      exact List.any_eq_true.mpr ⟨b, hb, BEq.rfl⟩
    · intro s _ i key _ _ _
      rfl
    · intro s _ i key _ _ _
      rfl
  have hrun : Run Step [.empty] calls _ :=
    .cons (.update rfl rfl) (.cons (.difference rfl rfl) (.cons (.add rfl) (.cons (.add rfl) .nil)))
  exact ⟨_, hrun, (indexes_right_iff _ calls).2.mpr hok calls List.prefix_rfl _ hrun⟩

/-- The first of two items is removed. The second one is now at 0, and its index is still 1. -/
theorem removed_before_item : ∃ sets : Sets Nat,
    Run Step [.empty] [.add 0 7, .add 0 3, .discard 0 7] sets ∧
    ∃ s ∈ sets, s.items = [3] ∧ s.index (fun _ => none) 0 3 = .ok (.position 1) ∧
      s.addIndex 3 = .ok 1 ∧ ¬ s.Indexed fun _ => none := by
  have hrun : Run Step [.empty] [.add 0 7, .add 0 3, .discard 0 7]
      [((OrderedSet.empty.add 7).add 3).discard 7] :=
    .cons (.add rfl) (.cons (.add rfl) (.single (.discard rfl)))
  have hadd : (((OrderedSet.empty.add 7).add 3).discard 7).addIndex 3 = .ok 1 := by decide
  refine ⟨_, hrun, _, List.mem_cons_self, rfl, rfl, hadd, ?_⟩
  intro h
  have hposition := h.add 0 3 3 rfl BEq.rfl
  rw [hadd] at hposition
  cases hposition

end

end OrderedSet

end DrbdTests.Hashed
