import Mathlib.Data.List.Basic

/-!
# The content of a device

The cells of a device that can be resized. A device that grows shows cells of which nothing is known; a
file that grows reads as zeros there. `fill_resize` says that a device becomes a file when the new cells are
filled with zeros.
-/

namespace Content

variable {α : Type} {zero : α} {n start length : Nat} {fresh : Nat → α} {cells : List α} {i : Nat}

/-- What a file of this content is after `truncate`. -/
def truncate (zero : α) (n : Nat) (cells : List α) : List α :=
  cells.take n ++ List.replicate (n - cells.length) zero

/-- A device of another size. -/
def resize (n : Nat) (fresh : Nat → α) (cells : List α) : List α :=
  cells.take n ++ (List.range' cells.length (n - cells.length)).map fresh

/-- Some cells are set to zero. -/
def fill (zero : α) (start length : Nat) (cells : List α) : List α :=
  cells.mapIdx fun i b => if start ≤ i ∧ i < start + length then zero else b

/-- Some cells are written; there is nothing behind the end. -/
def write (offset : Nat) (data : List α) (cells : List α) : List α :=
  cells.mapIdx fun i b => if offset ≤ i then data.getD (i - offset) b else b

@[simp] theorem length_truncate : (truncate zero n cells).length = n := by
  rw [truncate, List.length_append, List.length_take, List.length_replicate]
  omega

@[simp] theorem length_resize : (resize n fresh cells).length = n := by
  rw [resize, List.length_append, List.length_take, List.length_map, List.length_range']
  omega

theorem getElem?_truncate : (truncate zero n cells)[i]? =
    if i < n then (if i < cells.length then cells[i]? else some zero) else none := by
  unfold truncate
  by_cases hi : i < (cells.take n).length
  · rw [List.length_take] at hi
    have hn : i < n := by omega
    have hc : i < cells.length := by omega
    rw [List.getElem?_append_left (by rw [List.length_take]; exact hi), List.getElem?_take_of_lt hn,
      if_pos hn, if_pos hc]
  · rw [List.getElem?_append_right (Nat.le_of_not_lt hi), List.getElem?_replicate]
    rw [List.length_take] at hi ⊢
    by_cases hn : i < n
    · have hgrown : i - min n cells.length < n - cells.length := by omega
      have hc : ¬ i < cells.length := by omega
      rw [if_pos hgrown, if_pos hn, if_neg hc]
    · have hgrown : ¬ i - min n cells.length < n - cells.length := by omega
      rw [if_neg hgrown, if_neg hn]

theorem getElem?_resize : (resize n fresh cells)[i]? =
    if i < n then (if i < cells.length then cells[i]? else some (fresh i)) else none := by
  unfold resize
  by_cases hi : i < (cells.take n).length
  · rw [List.length_take] at hi
    have hn : i < n := by omega
    have hc : i < cells.length := by omega
    rw [List.getElem?_append_left (by rw [List.length_take]; exact hi), List.getElem?_take_of_lt hn,
      if_pos hn, if_pos hc]
  · rw [List.getElem?_append_right (Nat.le_of_not_lt hi), List.getElem?_map]
    rw [List.length_take] at hi ⊢
    by_cases hn : i < n
    · have hc : ¬ i < cells.length := by omega
      rw [if_pos hn, if_neg hc, List.getElem?_range' (by omega), Option.map_some]
      congr 2
      omega
    · rw [if_neg hn, List.getElem?_eq_none (by rw [List.length_range']; omega)]
      rfl

theorem getElem?_fill : (fill zero start length cells)[i]? =
    if start ≤ i ∧ i < start + length ∧ i < cells.length then some zero else cells[i]? := by
  unfold fill
  rw [List.getElem?_mapIdx]
  by_cases hc : i < cells.length
  · rw [List.getElem?_eq_getElem hc, Option.map_some]
    by_cases hrange : start ≤ i ∧ i < start + length
    · rw [if_pos hrange, if_pos ⟨hrange.1, hrange.2, hc⟩]
    · rw [if_neg hrange, if_neg fun h => hrange ⟨h.1, h.2.1⟩]
  · rw [List.getElem?_eq_none (Nat.le_of_not_lt hc), if_neg fun h => hc h.2.2]
    rfl

theorem fill_nothing : fill zero start 0 cells = cells := by
  apply List.ext_getElem?
  intro i
  rw [getElem?_fill, if_neg (by omega)]

/-- A device that is filled is a file that was empty. -/
theorem fill_all : fill zero 0 cells.length cells = truncate zero cells.length [] := by
  apply List.ext_getElem?
  intro i
  rw [getElem?_fill, getElem?_truncate]
  by_cases hc : i < cells.length
  · rw [if_pos (by omega), if_pos hc, List.length_nil, if_neg (Nat.not_lt_zero i)]
  · rw [if_neg (by omega), if_neg hc, List.getElem?_eq_none (Nat.le_of_not_lt hc)]

/-- A device of another size is a file when the new cells are filled with zeros. -/
theorem fill_resize :
    fill zero cells.length (n - cells.length) (resize n fresh cells) = truncate zero n cells := by
  apply List.ext_getElem?
  intro i
  rw [getElem?_fill, length_resize, getElem?_resize, getElem?_truncate]
  by_cases hn : i < n
  · by_cases hc : i < cells.length
    · rw [if_neg (by omega), if_pos hn, if_pos hn, if_pos hc, if_pos hc]
    · rw [if_pos (by omega), if_pos hn, if_neg hc]
  · rw [if_neg (by omega), if_neg hn, if_neg hn]

end Content
