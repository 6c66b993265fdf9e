import Mathlib.Algebra.BigOperators.Group.Multiset.Basic
import Mathlib.Algebra.Order.BigOperators.Group.Multiset
import Mathlib.Data.List.Count

/-!
# Scripts that put and take

A bag holds copies of keys. Scripts put copies into it and take copies out of it, one act
at a time and interleaved in any order. A script is `Covered` when what is left of it never
puts more copies of a key than it takes: it has put in before all that it takes out.

`InBalance start count pending`: the bag started with `start`, now holds `count`, and
`pending` is what is left of the scripts. Then a copy that is to be taken next is there
(`InBalance.one_le`), and after all scripts the bag is as it was (`InBalance.done`).
-/

namespace Scripts

variable {κ : Type} [DecidableEq κ]

inductive Act (κ : Type)
  | put (k : κ)
  | take (k : κ)
  deriving DecidableEq, Repr

/-- The copies of a key that a script takes, less those that it puts. -/
def net (k : κ) : List (Act κ) → Int
  | [] => 0
  | .put k' :: s => net k s - if k' = k then 1 else 0
  | .take k' :: s => net k s + if k' = k then 1 else 0

/-- Nothing that is left of the script puts more than it takes. -/
def Covered : List (Act κ) → Prop
  | [] => True
  | a :: s => (∀ k, 0 ≤ net k (a :: s)) ∧ Covered s

variable {s s' : List (Act κ)} {k : κ}

theorem net_append (k : κ) (s s' : List (Act κ)) : net k (s ++ s') = net k s + net k s' := by
  induction s with
  | nil => simp [net]
  | cons a s ih =>
    cases a with
    | put k' =>
      simp only [List.cons_append, net, ih]
      omega
    | take k' =>
      simp only [List.cons_append, net, ih]
      omega

theorem net_puts (k : κ) (keys : List κ) : net k (keys.map Act.put) = -(keys.count k : Int) := by
  induction keys with
  | nil => rfl
  | cons k' keys ih =>
    simp only [List.map_cons, net, ih, List.count_cons, beq_iff_eq]
    split
    · omega
    · omega

theorem net_takes (k : κ) (keys : List κ) : net k (keys.map Act.take) = keys.count k := by
  induction keys with
  | nil => rfl
  | cons k' keys ih =>
    simp only [List.map_cons, net, ih, List.count_cons, beq_iff_eq]
    split
    · omega
    · omega

namespace Covered

theorem net_nonneg (h : Covered s) (k : κ) : 0 ≤ net k s := by
  cases s with
  | nil => exact le_rfl
  | cons a s => exact h.1 k

theorem append (h : Covered s) (h' : Covered s') : Covered (s ++ s') := by
  induction s with
  | nil => exact h'
  | cons a s ih =>
    refine ⟨fun k => ?_, ih h.2⟩
    change 0 ≤ net k ((a :: s) ++ s')
    rw [net_append]
    have hs := h.1 k
    have hs' := h'.net_nonneg k
    omega

theorem of_append (h : Covered (s ++ s')) : Covered s' := by
  induction s with
  | nil => exact h
  | cons a s ih => exact ih h.2

end Covered

theorem covered_takes (keys : List κ) : Covered (keys.map Act.take) := by
  induction keys with
  | nil => trivial
  | cons k' keys ih =>
    refine ⟨fun k => ?_, ih⟩
    rw [← List.map_cons, net_takes]
    exact Int.natCast_nonneg _

/-- A script that takes what it has put. -/
theorem covered_puts_takes {puts takes : List κ} (h : ∀ k, puts.count k ≤ takes.count k) :
    Covered (puts.map Act.put ++ takes.map Act.take) := by
  induction puts with
  | nil => exact covered_takes takes
  | cons k' puts ih =>
    refine ⟨fun k => ?_, ih fun k => ?_⟩
    · have hk := h k
      change 0 ≤ net k ((k' :: puts).map Act.put ++ takes.map Act.take)
      rw [net_append, net_puts, net_takes]
      omega
    · exact Nat.le_trans List.count_le_count_cons (h k)

theorem net_puts_takes (k : κ) (keys : List κ) :
    net k (keys.map Act.put ++ keys.map Act.take) = 0 := by
  rw [net_append, net_puts, net_takes]
  omega

/-! ## Balance -/

/-- What the bag holds is what it started with and what is still to be taken out. -/
structure InBalance (start count : κ → Nat) (pending : Multiset (List (Act κ))) : Prop where
  covered : ∀ s ∈ pending, Covered s
  count_eq : ∀ k, (count k : Int) = start k + (pending.map (net k)).sum

namespace InBalance

variable {start count count' : κ → Nat} {pending : Multiset (List (Act κ))}

theorem empty : InBalance start start 0 := ⟨by simp, by simp⟩

theorem sum_nonneg (h : ∀ s ∈ pending, Covered s) (k : κ) : 0 ≤ (pending.map (net k)).sum := by
  apply Multiset.sum_nonneg
  intro n hn
  obtain ⟨s, hs, rfl⟩ := Multiset.mem_map.mp hn
  exact (h s hs).net_nonneg k

/-- Another script starts. -/
theorem add (h : InBalance start count pending) (hs : Covered s) (hnet : ∀ k, net k s = 0) :
    InBalance start count (s ::ₘ pending) := by
  refine ⟨fun t ht => ?_, fun k => ?_⟩
  · rcases Multiset.mem_cons.mp ht with rfl | ht
    · exact hs
    · exact h.covered t ht
  · rw [h.count_eq, Multiset.map_cons, Multiset.sum_cons, hnet]
    omega

/-- A script goes on in another way. -/
theorem replace (h : InBalance start count (s ::ₘ pending)) (hs : Covered s')
    (hnet : ∀ k, net k s' = net k s) : InBalance start count (s' ::ₘ pending) := by
  refine ⟨fun t ht => ?_, fun k => ?_⟩
  · rcases Multiset.mem_cons.mp ht with rfl | ht
    · exact hs
    · exact h.covered t (Multiset.mem_cons_of_mem ht)
  · rw [h.count_eq, Multiset.map_cons, Multiset.sum_cons, Multiset.map_cons, Multiset.sum_cons,
      hnet]

/-- The first part of a script goes on by itself. -/
theorem fork (h : InBalance start count ((s ++ s') ::ₘ pending)) (hs : Covered s) :
    InBalance start count (s ::ₘ s' ::ₘ pending) := by
  refine ⟨fun t ht => ?_, fun k => ?_⟩
  · rcases Multiset.mem_cons.mp ht with rfl | ht
    · exact hs
    · rcases Multiset.mem_cons.mp ht with rfl | ht
      · exact (h.covered _ (Multiset.mem_cons_self _ _)).of_append
      · exact h.covered t (Multiset.mem_cons_of_mem ht)
  · rw [h.count_eq, Multiset.map_cons, Multiset.sum_cons, Multiset.map_cons, Multiset.sum_cons,
      Multiset.map_cons, Multiset.sum_cons, net_append]
    omega

theorem put (h : InBalance start count ((.put k :: s) ::ₘ pending))
    (hcount : ∀ k', count' k' = count k' + if k = k' then 1 else 0) :
    InBalance start count' (s ::ₘ pending) := by
  refine ⟨fun t ht => ?_, fun k' => ?_⟩
  · rcases Multiset.mem_cons.mp ht with rfl | ht
    · exact (h.covered _ (Multiset.mem_cons_self _ _)).2
    · exact h.covered t (Multiset.mem_cons_of_mem ht)
  · have hk := h.count_eq k'
    have hk' := hcount k'
    rw [Multiset.map_cons, Multiset.sum_cons] at hk ⊢
    simp only [net] at hk
    split at hk
    · rw [if_pos ‹_›] at hk'
      omega
    · rw [if_neg ‹_›] at hk'
      omega

/-- What is taken next is there. -/
theorem one_le (h : InBalance start count ((.take k :: s) ::ₘ pending)) : 1 ≤ count k := by
  have hk := h.count_eq k
  rw [Multiset.map_cons, Multiset.sum_cons] at hk
  have hs := (h.covered _ (Multiset.mem_cons_self _ _)).2.net_nonneg k
  have hpending := sum_nonneg (fun t ht => h.covered t (Multiset.mem_cons_of_mem ht)) k
  simp only [net, if_true] at hk
  omega

theorem take (h : InBalance start count ((.take k :: s) ::ₘ pending))
    (hcount : ∀ k', count k' = count' k' + if k = k' then 1 else 0) :
    InBalance start count' (s ::ₘ pending) := by
  refine ⟨fun t ht => ?_, fun k' => ?_⟩
  · rcases Multiset.mem_cons.mp ht with rfl | ht
    · exact (h.covered _ (Multiset.mem_cons_self _ _)).2
    · exact h.covered t (Multiset.mem_cons_of_mem ht)
  · have hk := h.count_eq k'
    have hk' := hcount k'
    rw [Multiset.map_cons, Multiset.sum_cons] at hk ⊢
    simp only [net] at hk
    split at hk
    · rw [if_pos ‹_›] at hk'
      omega
    · rw [if_neg ‹_›] at hk'
      omega

/-- After all scripts the bag is as it was. -/
theorem done (h : InBalance start count pending) (hdone : ∀ s ∈ pending, s = []) (k : κ) :
    count k = start k := by
  have hk := h.count_eq k
  have hzero : (pending.map (net k)).sum = 0 := by
    apply Multiset.sum_eq_zero
    intro n hn
    obtain ⟨s, hs, rfl⟩ := Multiset.mem_map.mp hn
    rw [hdone s hs]
    rfl
  omega

end InBalance

end Scripts
