import Mathlib.Data.List.Nodup

/-!
# Dictionaries

A dictionary lists its entries in the order in which the keys were first set: setting a
present key changes its value in place. `Dict.get?_updateAll` is the rule for a loop over
the entries of one dictionary that updates the entries of another.
-/

structure Dict (κ α : Type) where
  entries : List (κ × α)
  nodup : (entries.map Prod.fst).Nodup

namespace Dict

variable {κ α β : Type} [DecidableEq κ]

omit [DecidableEq κ] in
@[ext] theorem ext {d d' : Dict κ α} (h : d.entries = d'.entries) : d = d' := by
  cases d
  cases d'
  cases h
  rfl

def empty : Dict κ α := ⟨[], List.nodup_nil⟩

def keys (d : Dict κ α) : List κ := d.entries.map Prod.fst

/-- `d.get(key)` -/
def get? (d : Dict κ α) (key : κ) : Option α :=
  (d.entries.find? fun entry => entry.1 = key).map Prod.snd

/-- `d[key] = value` on the entries. -/
def setEntries (key : κ) (value : α) : List (κ × α) → List (κ × α)
  | [] => [(key, value)]
  | entry :: entries =>
    if entry.1 = key then (key, value) :: entries else entry :: setEntries key value entries

theorem map_setEntries (key : κ) (value : α) (entries : List (κ × α)) :
    (setEntries key value entries).map Prod.fst =
      if key ∈ entries.map Prod.fst then entries.map Prod.fst else entries.map Prod.fst ++ [key] := by
  induction entries with
  | nil => rfl
  | cons entry entries ih =>
    unfold setEntries
    by_cases hkey : entry.1 = key
    · rw [if_pos hkey, if_pos (by simp [hkey]), List.map_cons, List.map_cons, hkey]
    · rw [if_neg hkey, List.map_cons, ih, List.map_cons]
      have hmem : key ∈ entry.1 :: entries.map Prod.fst ↔ key ∈ entries.map Prod.fst := by
        simp [Ne.symm hkey]
      by_cases hin : key ∈ entries.map Prod.fst
      · rw [if_pos hin, if_pos (hmem.mpr hin)]
      · rw [if_neg hin, if_neg (mt hmem.mp hin), List.cons_append]

theorem nodup_setEntries (key : κ) (value : α) {entries : List (κ × α)}
    (h : (entries.map Prod.fst).Nodup) : ((setEntries key value entries).map Prod.fst).Nodup := by
  rw [map_setEntries]
  by_cases hkey : key ∈ entries.map Prod.fst
  · rw [if_pos hkey]
    exact h
  · rw [if_neg hkey]
    apply h.append (List.nodup_singleton key)
    intro k hk hk'
    rw [List.mem_singleton.mp hk'] at hk
    exact hkey hk

/-- `d[key] = value` -/
def set (d : Dict κ α) (key : κ) (value : α) : Dict κ α :=
  ⟨setEntries key value d.entries, nodup_setEntries key value d.nodup⟩

variable {d : Dict κ α} {key key' : κ} {value : α}

@[simp] theorem get?_empty : (empty : Dict κ α).get? key = none := rfl

theorem get?_eq_some_iff : d.get? key = some value ↔ (key, value) ∈ d.entries := by
  obtain ⟨entries, hnodup⟩ := d
  change (entries.find? _).map Prod.snd = some value ↔ (key, value) ∈ entries
  induction entries with
  | nil => simp
  | cons entry entries ih =>
    obtain ⟨hnot, hrest⟩ := List.nodup_cons.mp hnodup
    obtain ⟨k, v⟩ := entry
    by_cases hkey : k = key
    · subst hkey
      have habsent : (k, value) ∉ entries := fun hmem => hnot (List.mem_map.mpr ⟨_, hmem, rfl⟩)
      simp [habsent, eq_comm]
    · have hne : ¬ (key, value) = (k, v) := fun he => hkey (congrArg Prod.fst he).symm
      rw [List.find?_cons_of_neg (by simpa using hkey), ih hrest, List.mem_cons]
      simp only [hne, false_or]

theorem get?_set (d : Dict κ α) (key : κ) (value : α) (key' : κ) :
    (d.set key value).get? key' = if key' = key then some value else d.get? key' := by
  obtain ⟨entries, hnodup⟩ := d
  change ((setEntries key value entries).find? _).map Prod.snd =
    if key' = key then some value else (entries.find? _).map Prod.snd
  clear hnodup
  induction entries with
  | nil =>
    by_cases hkey : key = key'
    · simp [setEntries, hkey]
    · simp [setEntries, hkey, Ne.symm hkey]
  | cons entry entries ih =>
    unfold setEntries
    by_cases hentry : entry.1 = key
    · rw [if_pos hentry]
      by_cases hkey : key = key'
      · simp [hkey]
      · have hne : entry.1 ≠ key' := fun he => hkey (hentry.symm.trans he)
        simp [hkey, Ne.symm hkey, hne]
    · rw [if_neg hentry]
      by_cases hkey : entry.1 = key'
      · have hne : key' ≠ key := fun he => hentry (hkey.trans he)
        simp [hkey, hne]
      · rw [List.find?_cons_of_neg (by simpa using hkey), ih,
          List.find?_cons_of_neg (by simpa using hkey)]

theorem keys_set (d : Dict κ α) (key : κ) (value : α) :
    (d.set key value).keys = if key ∈ d.keys then d.keys else d.keys ++ [key] :=
  map_setEntries key value d.entries

theorem setEntries_of_not_mem {entries : List (κ × α)} (h : key ∉ entries.map Prod.fst) :
    setEntries key value entries = entries ++ [(key, value)] := by
  induction entries with
  | nil => rfl
  | cons entry entries ih =>
    rw [List.map_cons, List.mem_cons, not_or] at h
    rw [setEntries, if_neg (Ne.symm h.1), ih h.2, List.cons_append]

/-- `d[key] = value` for each pair. -/
def setAll (d : Dict κ α) (pairs : List (κ × α)) : Dict κ α :=
  pairs.foldl (fun d pair => d.set pair.1 pair.2) d

/-- New keys are appended in order. -/
theorem entries_setAll {pairs : List (κ × α)} (h : (d.keys ++ pairs.map Prod.fst).Nodup) :
    (d.setAll pairs).entries = d.entries ++ pairs := by
  induction pairs generalizing d with
  | nil => exact (List.append_nil _).symm
  | cons pair pairs ih =>
    have hnew : pair.1 ∉ d.keys := by
      intro hmem
      exact (List.nodup_append.mp h).2.2 _ hmem _ List.mem_cons_self rfl
    have hset : (d.set pair.1 pair.2).entries = d.entries ++ [pair] := setEntries_of_not_mem hnew
    have hkeys : (d.set pair.1 pair.2).keys = d.keys ++ [pair.1] := by
      rw [keys_set, if_neg hnew]
    have hrest := @ih (d.set pair.1 pair.2) (by
      rw [hkeys, List.append_assoc]
      exact h)
    change ((d.set pair.1 pair.2).setAll pairs).entries = _
    rw [hrest, hset, List.append_assoc]
    rfl

theorem mem_of_mem_setAll {pairs : List (κ × α)} (h : (key, value) ∈ (d.setAll pairs).entries) :
    (key, value) ∈ pairs ∨ (key, value) ∈ d.entries := by
  induction pairs generalizing d with
  | nil => exact .inr h
  | cons pair pairs ih =>
    rcases ih (d := d.set pair.1 pair.2) h with hmem | hmem
    · exact .inl (List.mem_cons_of_mem _ hmem)
    · rw [← get?_eq_some_iff, get?_set] at hmem
      split at hmem
      · rename_i hkey
        obtain rfl := Option.some.inj hmem
        subst hkey
        exact .inl List.mem_cons_self
      · exact .inr (get?_eq_some_iff.mp hmem)

theorem isSome_get?_setAll {pairs : List (κ × α)}
    (h : (d.get? key).isSome ∨ key ∈ pairs.map Prod.fst) : ((d.setAll pairs).get? key).isSome := by
  induction pairs generalizing d with
  | nil =>
    rcases h with h | h
    · exact h
    · cases h
  | cons pair pairs ih =>
    apply ih (d := d.set pair.1 pair.2)
    rw [get?_set]
    split
    · exact .inl rfl
    · rename_i hkey
      rcases h with h | h
      · exact .inl h
      · exact .inr ((List.mem_cons.mp h).resolve_left hkey)

/-- The dictionary without a key. -/
def erase (d : Dict κ α) (key : κ) : Dict κ α :=
  ⟨d.entries.filter fun entry => entry.1 ≠ key, d.nodup.sublist (List.filter_sublist.map _)⟩

theorem get?_erase (d : Dict κ α) (key key' : κ) :
    (d.erase key).get? key' = if key' = key then none else d.get? key' := by
  change ((d.entries.filter _).find? _).map Prod.snd = if key' = key then none else
    (d.entries.find? _).map Prod.snd
  rw [List.find?_filter]
  split
  · rename_i hkey
    have hnone : d.entries.find? (fun entry => entry.1 ≠ key ∧ entry.1 = key') = none := by
      rw [List.find?_eq_none]
      intro entry _ h
      obtain ⟨hne, heq⟩ := of_decide_eq_true h
      exact hne (heq.trans hkey)
    simpa using congrArg (Option.map Prod.snd) hnone
  · rename_i hkey
    congr 2
    funext entry
    by_cases hentry : entry.1 = key'
    · simp [hentry, hkey]
    · simp [hentry]

theorem mem_keys_iff : key ∈ d.keys ↔ (d.get? key).isSome := by
  rw [Option.isSome_iff_exists, keys, List.mem_map]
  constructor
  · rintro ⟨⟨k, value⟩, hmem, rfl⟩
    exact ⟨value, get?_eq_some_iff.mpr hmem⟩
  · rintro ⟨value, h⟩
    exact ⟨_, get?_eq_some_iff.mp h, rfl⟩

/-- `dictionary[key] = ...` for each entry: what was there is updated with the entry. -/
def updateAll (f : α → Option β → β) (d : Dict κ α) (start : Dict κ β) : Dict κ β :=
  d.entries.foldl (fun target entry => target.set entry.1 (f entry.2 (target.get? entry.1))) start

/-- Each key of the one dictionary is updated once, since its keys are distinct. -/
theorem get?_updateAll (f : α → Option β → β) (d : Dict κ α) (start : Dict κ β) (key : κ) :
    (d.updateAll f start).get? key =
      match d.get? key with
      | some value => some (f value (start.get? key))
      | none => start.get? key := by
  obtain ⟨entries, hnodup⟩ := d
  change (entries.foldl _ start).get? key = match (entries.find? _).map Prod.snd with
    | some value => some (f value (start.get? key))
    | none => start.get? key
  induction entries generalizing start with
  | nil => rfl
  | cons entry entries ih =>
    obtain ⟨hnot, hrest⟩ := List.nodup_cons.mp hnodup
    rw [List.foldl_cons, ih _ hrest]
    by_cases hkey : entry.1 = key
    · have habsent : entries.find? (fun entry => entry.1 = key) = none := by
        rw [List.find?_eq_none]
        intro entry' hmem he
        have heq : entry'.1 = entry.1 := (of_decide_eq_true he).trans hkey.symm
        exact hnot (heq ▸ List.mem_map_of_mem hmem)
      rw [habsent, List.find?_cons_of_pos (by simpa using hkey), get?_set, hkey]
      simp
    · rw [List.find?_cons_of_neg (by simpa using hkey), get?_set, if_neg (Ne.symm hkey)]

/-- A loop that updates without exceptions. -/
theorem foldlM_set {ε : Type} {f : α → Option β → Except ε β} {g : α → Option β → β}
    (d : Dict κ α) (start : Dict κ β)
    (h : ∀ entry ∈ d.entries, ∀ b, f entry.2 b = .ok (g entry.2 b)) :
    d.entries.foldlM (fun target entry =>
        (f entry.2 (target.get? entry.1)).map (target.set entry.1)) start =
      .ok (d.updateAll g start) := by
  obtain ⟨entries, hnodup⟩ := d
  change entries.foldlM _ start = Except.ok (entries.foldl _ start)
  replace h : ∀ entry ∈ entries, ∀ b, f entry.2 b = .ok (g entry.2 b) := h
  clear hnodup
  induction entries generalizing start with
  | nil => rfl
  | cons entry entries ih =>
    rw [List.foldlM_cons, h entry List.mem_cons_self]
    exact ih _ fun entry' hmem => h entry' (List.mem_cons_of_mem _ hmem)

end Dict
