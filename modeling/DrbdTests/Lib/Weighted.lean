import Mathlib.Algebra.BigOperators.Group.List.Basic
import Mathlib.Algebra.GroupWithZero.Nat
import Mathlib.Order.Interval.Finset.Nat

/-!
# Choice by weight

A number below the sum of some weights chooses the first position at which the running sum exceeds
it. The numbers that choose a position are an interval (`position_eq_some_iff`), and there are as
many of them as its weight says (`card_position`).
-/

namespace Weighted

/-- The first position at which the running sum, which is `sum` at the start, exceeds `r`. -/
def position (r : Nat) : Nat → List Nat → Option Nat
  | _, [] => none
  | sum, weight :: weights =>
    if r < sum + weight then some 0 else (position r (sum + weight) weights).map (· + 1)

variable {r sum k : Nat} {weights : List Nat}

theorem position_eq_some_iff (hsum : sum ≤ r) : position r sum weights = some k ↔
    k < weights.length ∧ sum + (weights.take k).sum ≤ r ∧ r < sum + (weights.take (k + 1)).sum := by
  induction weights generalizing sum k with
  | nil => simp [position]
  | cons weight weights ih =>
    rw [position, List.take_succ_cons, List.sum_cons, List.length_cons]
    split
    · rename_i hlt
      constructor
      · intro h
        obtain rfl := Option.some.inj h
        exact ⟨Nat.succ_pos _, hsum, by omega⟩
      · rintro ⟨-, hle, -⟩
        cases k with
        | zero => rfl
        | succ k =>
          rw [List.take_succ_cons, List.sum_cons] at hle
          omega
    · rename_i hle
      rw [Option.map_eq_some_iff]
      constructor
      · rintro ⟨k, hk, rfl⟩
        obtain ⟨hlength, hfrom, hto⟩ := (ih (Nat.le_of_not_lt hle)).mp hk
        rw [List.take_succ_cons, List.sum_cons]
        exact ⟨Nat.succ_lt_succ hlength, by omega, by omega⟩
      · rintro ⟨hlength, hfrom, hto⟩
        cases k with
        | zero =>
          rw [List.take_zero, List.sum_nil] at hto
          omega
        | succ k =>
          rw [List.take_succ_cons, List.sum_cons] at hfrom
          refine ⟨k, (ih (Nat.le_of_not_lt hle)).mpr ⟨Nat.lt_of_succ_lt_succ hlength, ?_, ?_⟩, rfl⟩
          · omega
          · omega

/-- A number below the sum of the weights chooses a position. -/
theorem exists_position (h : r < sum + weights.sum) (hsum : sum ≤ r) :
    ∃ k, position r sum weights = some k := by
  induction weights generalizing sum with
  | nil =>
    rw [List.sum_nil] at h
    omega
  | cons weight weights ih =>
    rw [List.sum_cons] at h
    rw [position]
    split
    · exact ⟨0, rfl⟩
    · rename_i hle
      obtain ⟨k, hk⟩ := ih (by omega) (Nat.le_of_not_lt hle)
      exact ⟨k + 1, by rw [hk, Option.map_some]⟩

theorem sum_take_le_sum (weights : List Nat) (k : Nat) : (weights.take k).sum ≤ weights.sum := by
  rw [← List.sum_take_add_sum_drop weights k]
  exact Nat.le_add_right _ _

/-- As many numbers choose a position as its weight says. -/
theorem card_position {weight : Nat} (hweight : weights[k]? = some weight) :
    ((Finset.range weights.sum).filter fun r => position r 0 weights = some k).card = weight := by
  obtain ⟨hk, rfl⟩ := List.getElem?_eq_some_iff.mp hweight
  have hnext : (weights.take (k + 1)).sum = (weights.take k).sum + weights[k] :=
    List.sum_take_succ weights k hk
  have hinterval : (Finset.range weights.sum).filter (fun r => position r 0 weights = some k) =
      Finset.Ico (weights.take k).sum (weights.take (k + 1)).sum := by
    ext r
    have hsum := sum_take_le_sum weights (k + 1)
    rw [Finset.mem_filter, Finset.mem_range, Finset.mem_Ico, position_eq_some_iff (Nat.zero_le r),
      Nat.zero_add, Nat.zero_add]
    constructor
    · exact fun h => h.2.2
    · exact fun h => ⟨h.2.trans_le hsum, hk, h⟩
  rw [hinterval, Nat.card_Ico, hnext, Nat.add_sub_cancel_left]

end Weighted
