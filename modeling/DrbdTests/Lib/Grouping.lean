import Mathlib.Data.List.Induction
import DrbdTests.Lib.Dict

/-!
# Grouping

`Dict.group` collects the values of the elements of a list under their keys: the list for a key is
made when the key is first met, and values are appended to it in order. `get?_group` says what is
found under each key, so that nothing is lost and nothing is found under another key.
-/

namespace Dict

variable {ι κ α β : Type} [DecidableEq κ]

/-- `d[key].append(value)`, where a missing list is made first. -/
def append (d : Dict κ (List α)) (key : κ) (value : α) : Dict κ (List α) :=
  d.set key ((d.get? key).getD [] ++ [value])

def group (key : ι → κ) (value : ι → α) (xs : List ι) : Dict κ (List α) :=
  xs.foldl (fun d x => d.append (key x) (value x)) empty

omit [DecidableEq κ] in
/-- `{key: f(value) for key, value in d.items()}` -/
def mapValues (f : α → β) (d : Dict κ α) : Dict κ β where
  entries := d.entries.map fun (key, value) => (key, f value)
  nodup := by
    rw [List.map_map]
    exact d.nodup

variable {key : ι → κ} {value : ι → α}

theorem group_append (key : ι → κ) (value : ι → α) (xs : List ι) (x : ι) :
    group key value (xs ++ [x]) = (group key value xs).append (key x) (value x) := List.foldl_append

theorem get?_append (d : Dict κ (List α)) (k : κ) (v : α) (k' : κ) :
    ((d.append k v).get? k').getD [] = (d.get? k').getD [] ++ if k' = k then [v] else [] := by
  unfold append
  rw [get?_set]
  by_cases hk : k' = k
  · rw [if_pos hk, if_pos hk, hk]
    rfl
  · rw [if_neg hk, if_neg hk, List.append_nil]

/-- The values of the elements with a key, in order. -/
theorem get?_group (xs : List ι) (k : κ) :
    ((group key value xs).get? k).getD [] = (xs.filter fun x => key x = k).map value := by
  induction xs using List.reverseRecOn with
  | nil => rfl
  | append_singleton xs x ih =>
    rw [group_append, get?_append, ih, List.filter_append, List.map_append]
    by_cases hk : key x = k
    · rw [if_pos hk.symm, List.filter_singleton, decide_eq_true hk]
      rfl
    · rw [if_neg (Ne.symm hk), List.filter_singleton, decide_eq_false hk]
      rfl

theorem get?_mapValues (f : α → β) (d : Dict κ α) (k : κ) :
    (d.mapValues f).get? k = (d.get? k).map f := by
  unfold get? mapValues
  rw [List.find?_map, Option.map_map, Option.map_map]
  rfl

end Dict
