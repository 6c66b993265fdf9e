import DrbdTests.Lib.Weighted
import DrbdTests.Special.Random
import Mathlib.Algebra.Order.BigOperators.Group.List
import Mathlib.Algebra.Order.Group.Nat

/-!
# Which step is chosen

A disconnect has weight zero as long as no node is connected, but it is listed together with a
change of the role of its node, which has a positive weight. So when `list_steps` lists a step at
all, there is a number that `random.randrange` can return; and every step is chosen by as many
numbers as its weight says (`random_step`).
-/

namespace DrbdTests.Random

variable {t : Test} {s : Memory}

/-- Every idle node has reported a role. -/
def RolesReported (t : Test) (s : Memory) : Prop :=
  ∀ i < t.nodeCount, (s i).future = none → (s i).role = "Primary" ∨ (s i).role = "Secondary"

/-- The step of an idle node that changes its role has a positive weight. -/
theorem exists_role_step {i : Nat} (clusterConnected : Nat)
    (hrole : (s i).role = "Primary" ∨ (s i).role = "Secondary") :
    ∃ step ∈ Test.nodeSteps s clusterConnected i, 0 < step.1 := by
  unfold Test.nodeSteps
  rcases hrole with hrole | hrole
  · have hne : (s i).role ≠ "Secondary" := by rw [hrole]; decide
    rw [if_neg hne, if_pos hrole]
    exact ⟨_, List.mem_append_left _ (List.mem_singleton_self _), Nat.succ_pos 99⟩
  · rw [if_pos hrole]
    exact ⟨_, List.mem_append_left _ (List.mem_singleton_self _), Nat.add_pos_left (by decide) _⟩

/-- Some step that is listed has a positive weight. -/
theorem exists_weighty_step (hroles : RolesReported t s) (hsteps : t.listSteps s ≠ []) :
    ∃ step ∈ t.listSteps s, 0 < step.1 := by
  unfold Test.listSteps at hsteps ⊢
  by_cases hconnected : 0 < t.clusterConnectedCount s
  · rw [if_pos hconnected]
    exact ⟨(500, .concurrentPrimary), List.mem_append_left _ (List.mem_singleton_self _), by decide⟩
  · rw [if_neg hconnected, List.nil_append] at hsteps ⊢
    -- so some node is idle
    obtain ⟨listed, hlisted⟩ := List.exists_mem_of_ne_nil _ hsteps
    obtain ⟨i, hi, -⟩ := List.mem_flatMap.mp hlisted
    have hidle := List.mem_filter.mp hi
    have hrole := hroles i (List.mem_range.mp hidle.1) (of_decide_eq_true hidle.2)
    obtain ⟨step, hstep, hpos⟩ := exists_role_step (t.clusterConnectedCount s) hrole
    exact ⟨step, List.mem_flatMap.mpr ⟨i, hi, hstep⟩, hpos⟩

/-- The loop executes the step at the position that the weights choose. -/
theorem pickStep_eq (chosen sum : Nat) (steps : List (Nat × StepFunction)) :
    Test.pickStep chosen sum steps =
      (Weighted.position chosen sum (steps.map Prod.fst)).bind fun k => steps[k]?.map Prod.snd := by
  induction steps generalizing sum with
  | nil => rfl
  | cons step steps ih =>
    rw [Test.pickStep, List.map_cons, Weighted.position]
    split
    · rfl
    · rw [ih, Option.bind_map]
      rfl

/-- A step is chosen whenever one is listed, it has a positive weight, and as many numbers choose
it as its weight says. -/
theorem random_step :
    (∀ (t : Test) (s : Memory), RolesReported t s → t.listSteps s ≠ [] →
      0 < ((t.listSteps s).map Prod.fst).sum) ∧
    ∀ steps : List (Nat × StepFunction),
      (∀ chosen < (steps.map Prod.fst).sum, ∃ k weight step, steps[k]? = some (weight, step) ∧
        Weighted.position chosen 0 (steps.map Prod.fst) = some k ∧
        Test.pickStep chosen 0 steps = some step ∧ 0 < weight) ∧
      ∀ k weight step, steps[k]? = some (weight, step) →
        ((Finset.range (steps.map Prod.fst).sum).filter fun chosen =>
          Weighted.position chosen 0 (steps.map Prod.fst) = some k).card = weight := by
  refine ⟨fun t s hroles hsteps => ?_, fun steps => ⟨fun chosen hchosen => ?_,
    fun k weight step hstep => ?_⟩⟩
  · obtain ⟨step, hstep, hpos⟩ := exists_weighty_step hroles hsteps
    exact hpos.trans_le (List.single_le_sum (fun _ _ => Nat.zero_le _) _ (List.mem_map_of_mem hstep))
  · have hbelow : chosen < 0 + (steps.map Prod.fst).sum := by rwa [Nat.zero_add]
    obtain ⟨k, hk⟩ := Weighted.exists_position hbelow (Nat.zero_le chosen)
    obtain ⟨hlength, hfrom, hto⟩ := (Weighted.position_eq_some_iff (Nat.zero_le chosen)).mp hk
    rw [List.length_map] at hlength
    have hstep : steps[k]? = some steps[k] := List.getElem?_eq_getElem hlength
    refine ⟨k, steps[k].1, steps[k].2, hstep, hk, ?_, ?_⟩
    · rw [pickStep_eq, hk, Option.bind_some, hstep]
      rfl
    · have hnext := List.sum_take_succ (steps.map Prod.fst) k (by rwa [List.length_map])
      rw [List.getElem_map] at hnext
      omega
  · exact Weighted.card_position (by rw [List.getElem?_map, hstep]; rfl)

/-- Two nodes of which the first has reported that it is connected. -/
def oneReported (i : Nat) : RandomNode :=
  ⟨"Secondary", "UpToDate", if i = 0 then Dict.empty.set 1 "Connected" else Dict.empty.set 0 "", none⟩

theorem random_step_reported :
    0 < ((twoConnected.listSteps oneReported).map Prod.fst).sum ∧
    ((Finset.range ((twoConnected.listSteps oneReported).map Prod.fst).sum).filter fun chosen =>
      Weighted.position chosen 0 ((twoConnected.listSteps oneReported).map Prod.fst) = some 1).card =
        150 := by
  have hlisted : (twoConnected.listSteps oneReported)[0]? = some (500, .concurrentPrimary) ∧
      (twoConnected.listSteps oneReported)[1]? = some (150, .primary 0) := by decide +kernel
  refine ⟨random_step.1 twoConnected oneReported (fun _ _ _ => .inr rfl) fun h => ?_,
    (random_step.2 _).2 1 150 _ hlisted.2⟩
  rw [h] at hlisted
  cases hlisted.1

end DrbdTests.Random
