import Mathlib.Logic.Function.Basic
import Mathlib.Data.List.Basic

/-!
# Numbers issued from counters

Each issuer `κ` counts the numbers it has issued; a slot `σ` of one issuer can hold a number.
The next number goes to a slot that may or may not come to hold it, and a slot may drop its
number, but no number is issued twice.

`Issued given s` is the invariant that relates the state to the list of all numbers that were
ever given to a slot: what a slot holds was given to it, nothing beyond the counters was
given, and no number of an issuer was given to two slots.
-/

namespace Issuers

variable {κ σ : Type}

/-- The counter of each issuer, and the issuer and the number of each slot. -/
structure Issuer (κ σ : Type) where
  counter : κ → Nat
  owner : σ → κ
  held : σ → Option Nat

/-- A number that was given to a slot. -/
structure Given (κ σ : Type) where
  issuer : κ
  slot : σ
  number : Nat
  deriving DecidableEq, Repr

/-- Counters only grow, and slots only drop what they hold. -/
structure Drops (s s' : Issuer κ σ) : Prop where
  counter_le : ∀ k, s.counter k ≤ s'.counter k
  held : ∀ x m, s'.held x = some m → s.held x = some m ∧ s'.owner x = s.owner x

theorem Drops.refl (s : Issuer κ σ) : Drops s s :=
  ⟨fun _ => Nat.le_refl _, fun _ _ h => ⟨h, rfl⟩⟩

theorem Drops.trans {s t u : Issuer κ σ} (h : Drops s t) (h' : Drops t u) : Drops s u where
  counter_le k := Nat.le_trans (h.counter_le k) (h'.counter_le k)
  held x m hx := by
    obtain ⟨ht, ho⟩ := h'.held x m hx
    obtain ⟨hs, ho'⟩ := h.held x m ht
    exact ⟨hs, ho.trans ho'⟩

structure Issued (given : List (Given κ σ)) (s : Issuer κ σ) : Prop where
  listed : ∀ x m, s.held x = some m → ⟨s.owner x, x, m⟩ ∈ given
  counted : ∀ g ∈ given, g.number ≤ s.counter g.issuer
  unique : ∀ g ∈ given, ∀ g' ∈ given, g.issuer = g'.issuer → g.number = g'.number → g = g'

variable {given : List (Given κ σ)} {s s' : Issuer κ σ}

theorem issued_nil (h : ∀ x, s.held x = none) : Issued [] s where
  listed x m hx := by
    rw [h x] at hx
    cases hx
  counted := by simp
  unique := by simp

theorem Issued.drops (h : Issued given s) (hd : Drops s s') : Issued given s' where
  listed x m hx := by
    obtain ⟨hs, ho⟩ := hd.held x m hx
    rw [ho]
    exact h.listed x m hs
  counted g hg := Nat.le_trans (h.counted g hg) (hd.counter_le _)
  unique := h.unique

/-- Two slots of one issuer hold different numbers. -/
theorem Issued.distinct (h : Issued given s) {x y : σ} {m : Nat} (hx : s.held x = some m)
    (hy : s.held y = some m) (ho : s.owner x = s.owner y) : x = y := by
  have heq := h.unique _ (h.listed x m hx) _ (h.listed y m hy) ho rfl
  exact congrArg Given.slot heq

/-- A slot is given the number that it holds. -/
theorem Issued.giveAgain (h : Issued given s) {x : σ} {m : Nat} (hx : s.held x = some m) :
    Issued (given ++ [⟨s.owner x, x, m⟩]) s := by
  have hmem : ∀ g, g ∈ given ++ [⟨s.owner x, x, m⟩] ↔ g ∈ given := by
    intro g
    rw [List.mem_append, List.mem_singleton]
    constructor
    · intro hg
      rcases hg with hg | hg
      · exact hg
      · rw [hg]
        exact h.listed x m hx
    · exact Or.inl
  constructor
  · intro y k hy
    exact (hmem _).mpr (h.listed y k hy)
  · intro g hg
    exact h.counted g ((hmem g).mp hg)
  · intro g hg g' hg'
    exact h.unique g ((hmem g).mp hg) g' ((hmem g').mp hg')

section Store

variable [DecidableEq σ]

def Issuer.store (s : Issuer κ σ) (x : σ) (m : Nat) : Issuer κ σ :=
  { s with held := Function.update s.held x (some m) }

/-- A slot comes to hold a number that it was given. -/
theorem Issued.store (h : Issued given s) {x : σ} {m : Nat} (hg : ⟨s.owner x, x, m⟩ ∈ given) :
    Issued given (s.store x m) where
  listed y k hy := by
    change Function.update s.held x (some m) y = some k at hy
    rw [Function.update_apply] at hy
    split at hy
    · subst y
      cases hy
      exact hg
    · exact h.listed y k hy
  counted := h.counted
  unique := h.unique

end Store

variable [DecidableEq κ]

/-- The issuer counts one further. -/
def Issuer.count (s : Issuer κ σ) (k : κ) : Issuer κ σ :=
  { s with counter := Function.update s.counter k (s.counter k + 1) }

theorem drops_count (s : Issuer κ σ) (k : κ) : Drops s (s.count k) where
  counter_le j := by
    change s.counter j ≤ Function.update s.counter k (s.counter k + 1) j
    rw [Function.update_apply]
    split
    · subst j
      omega
    · omega
  held _ _ h := ⟨h, rfl⟩

/-- The next number has not been given before. -/
theorem Issued.giveNext (h : Issued given s) (k : κ) (x : σ) :
    Issued (given ++ [⟨k, x, s.counter k + 1⟩]) (s.count k) := by
  have hdrops := drops_count s k
  have hnew : ∀ g ∈ given, g.issuer = k → g.number ≠ s.counter k + 1 := by
    intro g hg hk
    have hle := h.counted g hg
    rw [hk] at hle
    omega
  constructor
  · intro y m hy
    exact List.mem_append_left _ (h.listed y m hy)
  · intro g hg
    rcases List.mem_append.mp hg with hg | hg
    · exact Nat.le_trans (h.counted g hg) (hdrops.counter_le _)
    · rw [List.mem_singleton.mp hg]
      change s.counter k + 1 ≤ Function.update s.counter k (s.counter k + 1) k
      exact Nat.le_of_eq (Function.update_self k (s.counter k + 1) s.counter).symm
  · intro g hg g' hg' hk hm
    rcases List.mem_append.mp hg with hg | hg
    · rcases List.mem_append.mp hg' with hg' | hg'
      · exact h.unique g hg g' hg' hk hm
      · rw [List.mem_singleton.mp hg'] at hk hm
        exact absurd hm (hnew g hg hk)
    · rw [List.mem_singleton.mp hg] at hk hm ⊢
      rcases List.mem_append.mp hg' with hg' | hg'
      · exact absurd hm.symm (hnew g' hg' hk.symm)
      · exact (List.mem_singleton.mp hg').symm

end Issuers
