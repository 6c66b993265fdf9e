import Mathlib.Algebra.BigOperators.Group.Multiset.Basic
import Mathlib.Data.List.Count
import Mathlib.Data.List.Infix
import Mathlib.Tactic.Ring

/-!
# Accounts of objects that are made and taken away

A log of events: an object is made, possibly on top of another one, or is gone, or the place
where all of them live is closed. What has been made and is not gone is held in stacks,
each with the object made last in front (`Accounts`). The rules follow the events: a new
stack (`Accounts.base`), one more object on a stack (`Accounts.layer`), the front of a stack
taken away (`Accounts.gone`).

When nothing is held any more the log is `Clean`: each object is gone exactly once, before
the object below it, and before the place is closed.
-/

namespace Ledger

inductive Event (ι : Type)
  | made (object : ι) (on : Option ι)
  | gone (object : ι)
  | closed
  deriving DecidableEq, Repr

/-! ## Order in a log -/

/-- Before each `b` of the log there is an `a`. -/
def Before {α : Type} (log : List α) (a b : α) : Prop :=
  ∀ pre post, log = pre ++ b :: post → a ∈ pre

section Before

variable {α : Type} {log later : List α} {a b : α}

theorem before_of_not_mem (h : b ∉ log) : Before log a b := by
  rintro pre post rfl
  exact absurd (List.mem_append_right pre List.mem_cons_self) h

/-- Once `a` is in the log, nothing that follows can come before it. -/
theorem Before.append (h : Before log a b) (ha : a ∈ log) (later : List α) :
    Before (log ++ later) a b := by
  intro pre post he
  rcases List.append_eq_append_iff.mp he with ⟨l, rfl, -⟩ | ⟨l, hlog, hl⟩
  · exact List.mem_append_left l ha
  · cases l with
    | nil =>
      rw [List.append_nil] at hlog
      exact hlog ▸ ha
    | cons c l =>
      obtain ⟨rfl, -⟩ := List.cons.inj hl
      exact h pre l hlog

end Before

/-! ## Accounts -/

variable {ι : Type} [DecidableEq ι]

/-- How often the object was made. -/
def made (o : ι) (log : List (Event ι)) : Nat :=
  log.countP fun
    | .made o' _ => o' = o
    | _ => false

/-- How often the object is held. -/
def mass (o : ι) (held : Multiset (List ι)) : Nat := (held.map fun s => s.count o).sum

/-- Each object was made at most once, and is held or gone; it is on top of the object it was
made on, or went before that one. Nothing is closed yet. -/
structure Accounts (log : List (Event ι)) (held : Multiset (List ι)) : Prop where
  balance : ∀ o, made o log = mass o held + log.count (.gone o)
  made_le : ∀ o, made o log ≤ 1
  order : ∀ o b, .made o (some b) ∈ log →
    (∃ s ∈ held, [o, b] <:+: s) ∨ (.gone o ∈ log ∧ Before log (.gone o) (.gone b))
  not_closed : .closed ∉ log

variable {log : List (Event ι)} {held : Multiset (List ι)} {o b : ι} {s : List ι}

@[simp] theorem mass_zero (o : ι) : mass o (0 : Multiset (List ι)) = 0 := rfl

@[simp] theorem mass_cons (o : ι) (s : List ι) (held : Multiset (List ι)) :
    mass o (s ::ₘ held) = s.count o + mass o held := by
  simp [mass]

theorem made_append (o : ι) (log later : List (Event ι)) :
    made o (log ++ later) = made o log + made o later := List.countP_append

theorem made_singleton_made (o o' : ι) (on : Option ι) :
    made o [.made o' on] = if o' = o then 1 else 0 := by
  by_cases h : o' = o <;> simp [made, h]

theorem made_singleton_gone (o o' : ι) : made o [.gone o'] = 0 := by simp [made]

theorem made_pos {on : Option ι} (h : .made o on ∈ log) : 0 < made o log :=
  List.countP_pos_iff.mpr ⟨_, h, by simp⟩

theorem accounts_nil : Accounts ([] : List (Event ι)) 0 where
  balance o := by simp [made]
  made_le o := by simp [made]
  order o b h := by simp at h
  not_closed := by simp

namespace Accounts

/-- The order of earlier events survives further ones. -/
theorem order_append (h : Accounts log held) (later : List (Event ι)) {o b : ι}
    (hm : .made o (some b) ∈ log) :
    (∃ s ∈ held, [o, b] <:+: s) ∨
      (.gone o ∈ log ++ later ∧ Before (log ++ later) (.gone o) (.gone b)) := by
  rcases h.order o b hm with hs | ⟨hgone, hbefore⟩
  · exact Or.inl hs
  · exact Or.inr ⟨List.mem_append_left _ hgone, hbefore.append hgone later⟩

/-- A new object on its own. -/
theorem base (h : Accounts log held) (hnew : made o log = 0) :
    Accounts (log ++ [.made o none]) ([o] ::ₘ held) where
  balance o' := by
    have hb := h.balance o'
    rw [made_append, made_singleton_made, mass_cons, List.count_append, hb]
    have hcount : [o].count o' = if o = o' then 1 else 0 := by
      by_cases ho : o = o' <;> simp [ho]
    rw [hcount]
    simp
    omega
  made_le o' := by
    have hle := h.made_le o'
    rw [made_append, made_singleton_made]
    by_cases ho : o = o'
    · subst ho
      rw [hnew]
      simp
    · simpa [ho] using hle
  order o' b hm := by
    have hm' : .made o' (some b) ∈ log := by simpa using hm
    rcases h.order_append [.made o none] hm' with ⟨s, hs, hin⟩ | hgone
    · exact Or.inl ⟨s, Multiset.mem_cons_of_mem hs, hin⟩
    · exact Or.inr hgone
  not_closed hc := h.not_closed (by simpa using hc)

/-- A new object on top of one that is held. -/
theorem layer (h : Accounts log ((b :: s) ::ₘ held)) (hnew : made o log = 0) :
    Accounts (log ++ [.made o (some b)]) ((o :: b :: s) ::ₘ held) where
  balance o' := by
    have hb := h.balance o'
    rw [mass_cons] at hb
    rw [made_append, made_singleton_made, mass_cons, List.count_append, hb]
    have hcount : (o :: b :: s).count o' = (if o = o' then 1 else 0) + (b :: s).count o' := by
      by_cases ho : o = o'
      · simp [ho, Nat.add_comm]
      · simp [ho]
    rw [hcount]
    simp only [List.count_singleton, reduceCtorEq, beq_iff_eq, if_false]
    omega
  made_le o' := by
    have hle := h.made_le o'
    rw [made_append, made_singleton_made]
    by_cases ho : o = o'
    · subst ho
      rw [hnew]
      simp
    · simpa [ho] using hle
  order o' b' hm := by
    rcases List.mem_append.mp hm with hm | hm
    · rcases h.order_append [.made o (some b)] hm with ⟨t, ht, hin⟩ | hgone
      · rcases Multiset.mem_cons.mp ht with rfl | ht
        · exact Or.inl ⟨_, Multiset.mem_cons_self _ _, hin.trans (List.suffix_cons _ _).isInfix⟩
        · exact Or.inl ⟨t, Multiset.mem_cons_of_mem ht, hin⟩
      · exact Or.inr hgone
    · obtain ⟨rfl, rfl⟩ : o' = o ∧ b' = b := by simpa using hm
      exact Or.inl ⟨_, Multiset.mem_cons_self _ _, ⟨[], s, rfl⟩⟩
  not_closed hc := h.not_closed (by simpa using hc)

/-- The object in front of a stack goes: what is below it has not gone before. -/
theorem gone (h : Accounts log ((o :: s) ::ₘ held)) :
    Accounts (log ++ [.gone o]) (s ::ₘ held) where
  balance o' := by
    have hb := h.balance o'
    rw [mass_cons, List.count_cons] at hb
    rw [made_append, made_singleton_gone, mass_cons, List.count_append, List.count_singleton, hb]
    by_cases ho : o = o'
    · simp [ho]
      omega
    · simp [ho]
  made_le o' := by
    rw [made_append, made_singleton_gone]
    exact h.made_le o'
  order o' b' hm := by
    have hm' : .made o' (some b') ∈ log := by simpa using hm
    rcases h.order o' b' hm' with ⟨t, ht, hin⟩ | ⟨hgone, hbefore⟩
    · rcases Multiset.mem_cons.mp ht with rfl | ht
      · by_cases ho : o' = o
        · -- the pair is in front: the lower object is still held, so it has not gone
          subst ho
          have hne : b' ≠ o' := by
            rintro rfl
            have htwo : 2 ≤ (b' :: s).count b' := by
              have hsub := hin.sublist.count_le b'
              simpa using hsub
            have hb := h.balance b'
            have hle := h.made_le b'
            rw [mass_cons] at hb
            omega
          have hmem : b' ∈ s := by
            have hb' : b' ∈ o' :: s := hin.subset (by simp)
            exact (List.mem_cons.mp hb').resolve_left hne
          have hcount : 0 < (o' :: s).count b' :=
            List.count_pos_iff.mpr (List.mem_cons_of_mem _ hmem)
          have hb := h.balance b'
          have hle := h.made_le b'
          rw [mass_cons] at hb
          have hzero : log.count (.gone b') = 0 := by omega
          refine Or.inr ⟨by simp, before_of_not_mem ?_⟩
          have hnot := List.count_eq_zero.mp hzero
          simp [hnot, hne]
        · -- the pair is further down
          refine Or.inl ⟨s, Multiset.mem_cons_self _ _, ?_⟩
          rcases List.infix_cons_iff.mp hin with hpre | hin
          · obtain ⟨rest, he⟩ := hpre
            exact absurd (List.cons.inj he).1 ho
          · exact hin
      · exact Or.inl ⟨t, Multiset.mem_cons_of_mem ht, hin⟩
    · exact Or.inr ⟨List.mem_append_left _ hgone, hbefore.append hgone _⟩
  not_closed hc := h.not_closed (by simpa using hc)

/-- A stack from which all has gone. -/
theorem of_empty (h : Accounts log ([] ::ₘ held)) : Accounts log held where
  balance o := by simpa using h.balance o
  made_le := h.made_le
  order o b hm := by
    rcases h.order o b hm with ⟨s, hs, hin⟩ | hgone
    · rcases Multiset.mem_cons.mp hs with rfl | hs
      · simp at hin
      · exact Or.inl ⟨s, hs, hin⟩
    · exact Or.inr hgone
  not_closed := h.not_closed

end Accounts

/-- Each object is gone exactly once, before what is below it, and before the end. -/
structure Clean (log : List (Event ι)) : Prop where
  gone_once : ∀ o on, .made o on ∈ log → log.count (.gone o) = 1
  layers : ∀ o b, .made o (some b) ∈ log → Before log (.gone o) (.gone b)
  closed_last : ∀ o on, .made o on ∈ log → Before log (.gone o) .closed

/-- When nothing is held any more, closing leaves the log clean. -/
theorem Accounts.clean (h : Accounts log 0) {closing : List (Event ι)}
    (hc : ∀ e ∈ closing, e = .closed) : Clean (log ++ closing) := by
  have hmade : ∀ {o on}, .made o on ∈ log ++ closing → .made o on ∈ log := by
    intro o on hm
    rcases List.mem_append.mp hm with hm | hm
    · exact hm
    · exact absurd (hc _ hm) (by simp)
  have hgone : ∀ {o on}, .made o on ∈ log → log.count (.gone o) = 1 := by
    intro o on hm
    have hb := h.balance o
    have hle := h.made_le o
    have hpos := made_pos hm
    rw [mass_zero] at hb
    omega
  have hin : ∀ {o on}, .made o on ∈ log → .gone o ∈ log := fun hm =>
    List.count_pos_iff.mp (by rw [hgone hm]; exact Nat.one_pos)
  constructor
  · intro o on hm
    have hnone : closing.count (.gone o) = 0 :=
      List.count_eq_zero.mpr fun hmem => absurd (hc _ hmem) (by simp)
    rw [List.count_append, hgone (hmade hm), hnone]
  · intro o b hm
    rcases h.order o b (hmade hm) with ⟨s, hs, -⟩ | ⟨hgone, hbefore⟩
    · simp at hs
    · exact hbefore.append hgone closing
  · intro o on hm
    exact (before_of_not_mem h.not_closed).append (hin (hmade hm)) closing

end Ledger
