import Mathlib.Data.List.Basic

/-!
# Insertion order

Elements are compared by an equivalence `==`, so different elements can count as the same
one. A history lists insertions and removals, the latest first. An insertion takes effect
when no equal element is present, and a removal removes the equal element.

`lastInsertion` finds the last insertion that took effect and was not undone: its time, and
the element that was inserted. `InOrder` says that a list holds the elements present after a
history, in the order of these times. It is preserved by appending a new element
(`InOrder.insert`) and by erasing one (`InOrder.erase`).
-/

namespace InsertionOrder

inductive Event (α : Type) where
  | insert (a : α)
  | erase (a : α)
  deriving DecidableEq, Repr

variable {α : Type} [BEq α]

/-- The time and the element of the last insertion of `b`, if `b` is present. -/
def lastInsertion : List (Event α) → α → Option (Nat × α)
  | [], _ => none
  | .insert a :: earlier, b =>
    if a == b then some ((lastInsertion earlier b).getD (earlier.length, a))
    else lastInsertion earlier b
  | .erase a :: earlier, b => if a == b then none else lastInsertion earlier b

/-- Both are present, and the first was inserted before the second. -/
def Before (history : List (Event α)) (a b : α) : Prop :=
  ∃ p ∈ lastInsertion history a, ∃ q ∈ lastInsertion history b, p.1 < q.1

/-- The list holds the elements that are present, in the order of their last insertion. -/
structure InOrder (history : List (Event α)) (xs : List α) : Prop where
  exists_mem : ∀ a, (lastInsertion history a).isSome → ∃ b ∈ xs, b == a
  inserted : ∀ a ∈ xs, ∃ time, lastInsertion history a = some (time, a)
  sorted : xs.Pairwise (Before history)

/-- No two elements of the list are equal. -/
def Distinct (xs : List α) : Prop := xs.Pairwise fun a b => (a == b) = false

variable {history : List (Event α)} {xs : List α} {a b : α} {p : Nat × α}

theorem lastInsertion_lt (h : lastInsertion history b = some p) : p.1 < history.length := by
  induction history generalizing p with
  | nil => cases h
  | cons event earlier ih =>
    rw [List.length_cons]
    cases event with
    | insert a =>
      rw [lastInsertion] at h
      split at h
      · rcases hb : lastInsertion earlier b with _ | q
        · rw [hb] at h
          cases h
          exact Nat.lt_succ_self _
        · rw [hb] at h
          cases h
          exact Nat.lt_succ_of_lt (ih hb)
      · exact Nat.lt_succ_of_lt (ih h)
    | erase a =>
      rw [lastInsertion] at h
      split at h
      · cases h
      · exact Nat.lt_succ_of_lt (ih h)

theorem InOrder.nil : InOrder ([] : List (Event α)) [] where
  exists_mem a h := by simp [lastInsertion] at h
  inserted := by simp
  sorted := .nil

/-! ## Lists without equal elements -/

theorem erase_of_forall (h : ∀ b ∈ xs, (b == a) = false) : xs.erase a = xs := by
  induction xs with
  | nil => rfl
  | cons x xs ih =>
    rw [List.erase_cons, if_neg (by simp [h x (by simp)]), ih fun b hb => h b (by simp [hb])]

theorem Distinct.append_singleton (h : Distinct xs) (ha : ∀ b ∈ xs, (b == a) = false) :
    Distinct (xs ++ [a]) := by
  apply List.pairwise_append.mpr
  refine ⟨h, List.pairwise_singleton _ _, ?_⟩
  intro b hb c hc
  rw [List.mem_singleton.mp hc]
  exact ha b hb

theorem Distinct.erase (h : Distinct xs) (a : α) : Distinct (xs.erase a) :=
  h.sublist List.erase_sublist

variable [EquivBEq α]

/-- Equal elements have the same last insertion. -/
theorem lastInsertion_congr (h : a == b) : lastInsertion history a = lastInsertion history b := by
  induction history with
  | nil => rfl
  | cons event earlier ih =>
    cases event with
    | insert c => rw [lastInsertion, lastInsertion, BEq.congr_right h, ih]
    | erase c => rw [lastInsertion, lastInsertion, BEq.congr_right h, ih]

theorem erase_eq_filter (h : Distinct xs) (a : α) : xs.erase a = xs.filter fun b => !(b == a) := by
  induction xs with
  | nil => rfl
  | cons x xs ih =>
    obtain ⟨hx, hxs⟩ := List.pairwise_cons.mp h
    rw [List.erase_cons, List.filter_cons]
    by_cases hxa : x == a
    · rw [if_pos hxa, if_neg (by simp [hxa])]
      symm
      rw [List.filter_eq_self]
      intro b hb
      have hxb := hx b hb
      rw [BEq.congr_left hxa, BEq.comm] at hxb
      simp [hxb]
    · rw [if_neg hxa, if_pos (by simpa using hxa), ih hxs]

/-! ## The list of the elements that are present -/

theorem InOrder.isSome_iff (h : InOrder history xs) (a : α) :
    (lastInsertion history a).isSome ↔ ∃ b ∈ xs, b == a := by
  constructor
  · exact h.exists_mem a
  · intro hmem
    obtain ⟨b, hb, hba⟩ := hmem
    obtain ⟨time, hb⟩ := h.inserted b hb
    rw [← lastInsertion_congr hba, hb]
    rfl

theorem InOrder.lastInsertion_eq_none (h : InOrder history xs)
    (ha : ∀ b ∈ xs, (b == a) = false) : lastInsertion history a = none := by
  rw [← Option.not_isSome_iff_eq_none, h.isSome_iff]
  intro hmem
  obtain ⟨b, hb, hba⟩ := hmem
  rw [ha b hb] at hba
  cases hba

theorem InOrder.distinct (h : InOrder history xs) : Distinct xs := by
  apply h.sorted.imp
  intro a b hab
  obtain ⟨p, hp, q, hq, hlt⟩ := hab
  by_contra hne
  rw [Bool.not_eq_false] at hne
  rw [lastInsertion_congr hne] at hp
  have hpq : p = q := Option.mem_unique hp hq
  rw [hpq] at hlt
  omega

/-- Inserting an element that is present changes nothing. -/
theorem InOrder.insert_present (h : InOrder history xs) (ha : ∃ b ∈ xs, b == a) :
    InOrder (.insert a :: history) xs := by
  have hlast : ∀ b, lastInsertion (.insert a :: history) b = lastInsertion history b := by
    intro b
    rw [lastInsertion]
    split
    · rename_i hab
      have hsome : (lastInsertion history b).isSome := by
        rw [← lastInsertion_congr hab]
        exact (h.isSome_iff a).mpr ha
      obtain ⟨p, hp⟩ := Option.isSome_iff_exists.mp hsome
      rw [hp, Option.getD_some]
    · rfl
  constructor
  · intro b hb
    rw [hlast] at hb
    exact h.exists_mem b hb
  · intro b hb
    rw [hlast]
    exact h.inserted b hb
  · apply h.sorted.imp
    intro b c hbc
    unfold Before
    rw [hlast, hlast]
    exact hbc

/-- Another element is appended. -/
theorem InOrder.insert_absent (h : InOrder history xs) (ha : ∀ b ∈ xs, (b == a) = false) :
    InOrder (.insert a :: history) (xs ++ [a]) := by
  have hnone := h.lastInsertion_eq_none ha
  have hself : lastInsertion (.insert a :: history) a = some (history.length, a) := by
    rw [lastInsertion, if_pos BEq.rfl, hnone, Option.getD_none]
  have hother : ∀ b ∈ xs, lastInsertion (.insert a :: history) b = lastInsertion history b := by
    intro b hb
    rw [lastInsertion, if_neg]
    rw [BEq.comm, ha b hb]
    exact Bool.false_ne_true
  constructor
  · intro b hb
    rw [lastInsertion] at hb
    split at hb
    · exact ⟨a, by simp, ‹_›⟩
    · obtain ⟨c, hc, hcb⟩ := h.exists_mem b hb
      exact ⟨c, by simp [hc], hcb⟩
  · intro b hb
    rcases List.mem_append.mp hb with hb | hb
    · rw [hother b hb]
      exact h.inserted b hb
    · rw [List.mem_singleton.mp hb]
      exact ⟨_, hself⟩
  · apply List.pairwise_append.mpr
    refine ⟨?_, List.pairwise_singleton _ _, ?_⟩
    · apply h.sorted.imp_of_mem
      intro b c hb hc hbc
      unfold Before
      rw [hother b hb, hother c hc]
      exact hbc
    · intro b hb c hc
      rw [List.mem_singleton.mp hc]
      obtain ⟨time, htime⟩ := h.inserted b hb
      refine ⟨_, (hother b hb).trans htime, _, hself, ?_⟩
      exact lastInsertion_lt htime

/-- An equal element, if there is one, goes. -/
theorem InOrder.erase (h : InOrder history xs) (a : α) :
    InOrder (.erase a :: history) (xs.erase a) := by
  rw [erase_eq_filter h.distinct]
  have hother : ∀ b, (b == a) = false →
      lastInsertion (.erase a :: history) b = lastInsertion history b := by
    intro b hb
    rw [lastInsertion, if_neg]
    rw [BEq.comm, hb]
    exact Bool.false_ne_true
  have hfilter : ∀ b ∈ xs.filter fun b => !(b == a), b ∈ xs ∧ (b == a) = false := by
    intro b hb
    simpa using List.mem_filter.mp hb
  constructor
  · intro b hb
    rw [lastInsertion] at hb
    split at hb
    · cases hb
    · rename_i hab
      obtain ⟨c, hc, hcb⟩ := h.exists_mem b hb
      refine ⟨c, List.mem_filter.mpr ⟨hc, ?_⟩, hcb⟩
      rw [BEq.congr_left hcb, BEq.comm]
      simpa using hab
  · intro b hb
    obtain ⟨hb, hba⟩ := hfilter b hb
    rw [hother b hba]
    exact h.inserted b hb
  · apply (h.sorted.filter _).imp_of_mem
    intro b c hb hc hbc
    unfold Before
    rw [hother b (hfilter b hb).2, hother c (hfilter c hc).2]
    exact hbc

end InsertionOrder
