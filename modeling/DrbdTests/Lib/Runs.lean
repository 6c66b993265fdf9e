import Mathlib.Data.List.Basic

/-!
# Runs of a transition system

`Run step s inputs s'`: from `s` the system takes one step for each input, in order, and
reaches `s'`. A state is reached by a run when some run ends in it; since a prefix of a
run is a run, a statement about the last state of every run is a statement about every
state of every run.

`Run.invariant` is the induction: what holds at the start and is preserved by every step
holds in every state reached.
-/

namespace Runs

variable {σ ι : Type}

/-- From the first state, one step for each input leads to the last state. -/
inductive Run (step : σ → ι → σ → Prop) (s : σ) : List ι → σ → Prop
  | nil : Run step s [] s
  | snoc {inputs : List ι} {t u : σ} {i : ι} :
      Run step s inputs t → step t i u → Run step s (inputs ++ [i]) u

/-- The steps of `step` at which a condition on the input and the state before holds. -/
def Guarded (ok : σ → ι → Prop) (step : σ → ι → σ → Prop) : σ → ι → σ → Prop :=
  fun s i s' => ok s i ∧ step s i s'

variable {step : σ → ι → σ → Prop} {s t u : σ} {inputs : List ι}

theorem Run.mono {step' : σ → ι → σ → Prop} (h : ∀ s i s', step s i s' → step' s i s')
    (run : Run step s inputs t) : Run step' s inputs t := by
  induction run with
  | nil => exact .nil
  | snoc _ hi ih => exact .snoc ih (h _ _ _ hi)

theorem Run.of_guarded {ok : σ → ι → Prop} (run : Run (Guarded ok step) s inputs t) :
    Run step s inputs t :=
  run.mono fun _ _ _ h => h.2

/-- What holds at the start and is preserved by every step holds wherever a run ends. -/
theorem Run.invariant {I : σ → Prop} (run : Run step s inputs t) (h0 : I s)
    (hstep : ∀ s i s', I s → step s i s' → I s') : I t := by
  induction run with
  | nil => exact h0
  | snoc _ hi ih => exact hstep _ _ _ ih hi

theorem Run.single {i : ι} (h : step s i t) : Run step s [i] t := .snoc .nil h

theorem Run.trans {later : List ι} (run : Run step s inputs t) (rest : Run step t later u) :
    Run step s (inputs ++ later) u := by
  induction rest with
  | nil => simpa using run
  | snoc _ hi ih =>
    rw [← List.append_assoc]
    exact .snoc ih hi

theorem Run.cons {i : ι} (h : step s i t) (rest : Run step t inputs u) :
    Run step s (i :: inputs) u :=
  (Run.single h).trans rest

/-! ## Deterministic systems -/

/-- One step after the other can be taken, each in a state that is `ok` for it. -/
def Permitted (ok : σ → ι → Prop) (f : σ → ι → σ) : σ → List ι → Prop
  | _, [] => True
  | s, i :: inputs => ok s i ∧ Permitted ok f (f s i) inputs

instance decidablePermitted (ok : σ → ι → Prop) [∀ s i, Decidable (ok s i)] (f : σ → ι → σ) :
    (s : σ) → (inputs : List ι) → Decidable (Permitted ok f s inputs)
  | _, [] => isTrue trivial
  | s, i :: inputs =>
    have := decidablePermitted ok f (f s i) inputs
    inferInstanceAs (Decidable (_ ∧ _))

theorem run_of_permitted {ok : σ → ι → Prop} {f : σ → ι → σ} {s : σ} {inputs : List ι}
    (h : Permitted ok f s inputs) :
    Run (Guarded ok fun s i s' => s' = f s i) s inputs (inputs.foldl f s) := by
  induction inputs generalizing s with
  | nil => exact .nil
  | cons i inputs ih => exact .cons ⟨h.1, rfl⟩ (ih h.2)

theorem run_foldl (f : σ → ι → σ) (s : σ) (inputs : List ι) :
    Run (fun s i s' => s' = f s i) s inputs (inputs.foldl f s) := by
  induction inputs generalizing s with
  | nil => exact .nil
  | cons i inputs ih => exact .cons rfl (ih (f s i))

/-! ## Exact conditions -/

variable (step) in
/-- The property holds in every state on the way. -/
def EveryState (P : σ → Prop) (s : σ) (inputs : List ι) : Prop :=
  ∀ before, before <+: inputs → ∀ t, Run step s before t → P t

variable (step) in
/-- The condition holds at every step on the way. -/
def EveryStep (ok : σ → ι → Prop) (s : σ) (inputs : List ι) : Prop :=
  ∀ before i, before ++ [i] <+: inputs → ∀ t t', Run step s before t → step t i t' → ok t i

/-- Where a step keeps a property exactly under a condition, the property holds in all states
of the runs over some inputs exactly when the condition holds at all of their steps. -/
theorem everyState_iff_everyStep {I P : σ → Prop} {ok : σ → ι → Prop} (hI : I s) (hP : P s)
    (hkeep : ∀ s i s', I s → step s i s' → I s')
    (hstep : ∀ s i s', I s → P s → step s i s' → (P s' ↔ ok s i)) :
    EveryState step P s inputs ↔ EveryStep step ok s inputs := by
  constructor
  · intro h before i hbefore t t' run hi
    have ht : P t := h before ((List.prefix_append before [i]).trans hbefore) t run
    have ht' : P t' := h (before ++ [i]) hbefore t' (run.snoc hi)
    exact (hstep t i t' (run.invariant hI hkeep) ht hi).mp ht'
  · intro h before hbefore t run
    induction run with
    | nil => exact hP
    | @snoc before t t' i run hi ih =>
      have ht := ih ((List.prefix_append before [i]).trans hbefore)
      exact (hstep t i t' (run.invariant hI hkeep) ht hi).mpr (h before i hbefore t t' run hi)

theorem Permitted.last {ok : σ → ι → Prop} {f : σ → ι → σ} {s : σ} {before : List ι} {i : ι}
    {after : List ι} (h : Permitted ok f s (before ++ i :: after)) : ok (before.foldl f s) i := by
  induction before generalizing s with
  | nil => exact h.1
  | cons j before ih => exact ih h.2

theorem Run.eq_foldl {f : σ → ι → σ} (hf : ∀ s i s', step s i s' → s' = f s i)
    (run : Run step s inputs t) : t = inputs.foldl f s := by
  induction run with
  | nil => rfl
  | snoc _ hi ih => rw [hf _ _ _ hi, ih, List.foldl_append, List.foldl_cons, List.foldl_nil]

theorem everyStep_of_permitted {ok : σ → ι → Prop} {f : σ → ι → σ}
    (hf : ∀ s i s', step s i s' → s' = f s i) (h : Permitted ok f s inputs) :
    EveryStep step ok s inputs := by
  rintro before i ⟨after, hinputs⟩ t t' run -
  rw [← hinputs, List.append_assoc] at h
  rw [run.eq_foldl hf]
  exact h.last

end Runs
