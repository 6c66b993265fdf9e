import DrbdTests.Runner.Run
import DrbdTests.Runner.Statistics

/-!
# What `run_tests` executes

The tests that the sets list, less the excluded ones and those of sets that need more VMs than
there are, and less the skipped ones, are run in order, up to and including the first one that
does not succeed, or all of them with `--keep-going` (`runTests_executes`).

The results are kept by the name of the test, so that each run has an entry in them, and is
counted by `find_statistics` later, exactly when no test is run twice (`results_complete_iff`).
-/

namespace DrbdTests.Runner

open Stateful

/-! ## Which tests are run -/

/-- A test, and the VMs for it. -/
abbrev Planned := String × List String

/-- The tests that may be run, each on the first VMs its set asks for. -/
def plan (args : Args) (sets : List TestSet) : List Planned :=
  (sets.filter fun s => s.vms ≤ (args.vmName.length : Int)).flatMap fun s =>
    (s.tests.filter (· ∉ args.exclude)).map fun test => (test, sliceTo args.vmName s.vms)

/-- The list up to and including the first element without the property. -/
def takeThrough {α : Type} (p : α → Bool) : List α → List α
  | [] => []
  | a :: l => a :: if p a then takeThrough p l else []

/-- The runs of the given tests, of which the first is run number `first`. -/
def started (o : Outside) (first : Nat) (planned : List Planned) : List Execution :=
  (planned.zipIdx first).map fun p => ⟨p.1.1, p.1.2, o.outcome p.2⟩

/-- Whether another test follows. -/
def goesOn (args : Args) (x : Execution) : Bool := args.keepGoing || decide x.outcome.Succeeded

/-- What is run for the test sets. -/
def runs (o : Outside) (args : Args) (first : Nat) (sets : List TestSet) : List Execution :=
  takeThrough (goesOn args) (started o first ((plan args sets).drop args.numSkip.toNat))

def successful (executions : List Execution) : List Execution :=
  executions.filter fun x => decide x.outcome.Succeeded

section TakeThrough

variable {α : Type} {p : α → Bool} {l : List α}

theorem takeThrough_cons (a : α) :
    takeThrough p (a :: l) = a :: if p a then takeThrough p l else [] := rfl

theorem takeThrough_of_all (h : ∀ a ∈ takeThrough p l, p a = true) : takeThrough p l = l := by
  induction l with
  | nil => rfl
  | cons a l ih =>
    have ha : p a = true := h a List.mem_cons_self
    rw [takeThrough_cons, if_pos ha] at h
    rw [takeThrough_cons, if_pos ha, ih fun b hb => h b (List.mem_cons_of_mem _ hb)]

theorem takeThrough_append (h : ∀ a ∈ takeThrough p l, p a = true) (l' : List α) :
    takeThrough p (l ++ l') = takeThrough p l ++ takeThrough p l' := by
  induction l with
  | nil => rfl
  | cons a l ih =>
    have ha : p a = true := h a List.mem_cons_self
    rw [takeThrough_cons, if_pos ha] at h
    rw [List.cons_append, takeThrough_cons, takeThrough_cons, if_pos ha, if_pos ha,
      ih fun b hb => h b (List.mem_cons_of_mem _ hb), List.cons_append]

theorem takeThrough_stop (h : ∃ a ∈ takeThrough p l, p a = false) (l' : List α) :
    takeThrough p (l ++ l') = takeThrough p l := by
  induction l with
  | nil =>
    obtain ⟨a, ha, -⟩ := h
    cases ha
  | cons a l ih =>
    obtain ⟨b, hb, hfalse⟩ := h
    rw [List.cons_append, takeThrough_cons, takeThrough_cons]
    rw [takeThrough_cons] at hb
    by_cases ha : p a = true
    · rw [if_pos ha] at hb
      rw [if_pos ha, if_pos ha]
      rcases List.mem_cons.mp hb with rfl | hmem
      · rw [ha] at hfalse
        cases hfalse
      · rw [ih ⟨b, hmem, hfalse⟩]
    · rw [if_neg ha, if_neg ha]

end TakeThrough

variable {o : Outside} {args : Args} {s s' t : State} {first : Nat}

theorem started_append (planned planned' : List Planned) :
    started o first (planned ++ planned') =
      started o first planned ++ started o (first + planned.length) planned' := by
  rw [started, List.zipIdx_append, List.map_append]
  rfl

theorem length_started (planned : List Planned) :
    (started o first planned).length = planned.length := by
  rw [started, List.length_map, List.length_zipIdx]

theorem plan_append (sets sets' : List TestSet) :
    plan args (sets ++ sets') = plan args sets ++ plan args sets' := by
  rw [plan, List.filter_append, List.flatMap_append]
  rfl

theorem successful_append (xs xs' : List Execution) :
    successful (xs ++ xs') = successful xs ++ successful xs' := List.filter_append xs xs'

/-! ## The loops -/

def Flow.counters : Flow → Counters
  | .next c => c
  | .returned _ c => c

/-- What has been run for the first tests of the plan. -/
def ranSoFar (o : Outside) (args : Args) (first : Nat) (pre : List Planned) : List Execution :=
  takeThrough (goesOn args) (started o first (pre.drop args.numSkip.toNat))

/-- The loops of `run_tests`, after the tests `pre` of the plan. -/
structure Progress (o : Outside) (args : Args) (before : List Execution) (pre : List Planned)
    (flow : Flow) (s : State) : Prop where
  executed : s.executed = before ++ ranSoFar o args before.length pre
  numTotal : flow.counters.numTotal = (ranSoFar o args before.length pre).length
  numSuccessful : flow.counters.numSuccessful =
    (successful (ranSoFar o args before.length pre)).length
  next : ∀ c, flow = .next c → c.numTotal + c.numSkipped = pre.length ∧
    (∀ x ∈ ranSoFar o args before.length pre, goesOn args x = true) ∧
    (c.globalExitCode = 0 ↔ ∀ x ∈ ranSoFar o args before.length pre, x.outcome.Succeeded)
  returned : ∀ code c, flow = .returned code c →
    ∃ x ∈ ranSoFar o args before.length pre, goesOn args x = false ∧ code = x.outcome.exitCode

variable {before : List Execution} {pre : List Planned} {flow flow' : Flow} {c : Counters}
  {planned : Planned}

theorem ranSoFar_skip (h : pre.length < args.numSkip.toNat) :
    ranSoFar o args first (pre ++ [planned]) = ranSoFar o args first pre := by
  unfold ranSoFar
  rw [List.drop_eq_nil_of_le (by simp; omega), List.drop_eq_nil_of_le (by omega)]

theorem ranSoFar_run (h : args.numSkip.toNat ≤ pre.length)
    (hall : ∀ x ∈ ranSoFar o args first pre, goesOn args x = true) :
    ranSoFar o args first (pre ++ [planned]) = ranSoFar o args first pre ++
      [⟨planned.1, planned.2, o.outcome (first + (ranSoFar o args first pre).length)⟩] := by
  have hlength : (ranSoFar o args first pre).length = (pre.drop args.numSkip.toNat).length := by
    rw [ranSoFar, takeThrough_of_all hall, length_started]
  rw [hlength]
  unfold ranSoFar
  rw [List.drop_append_of_le_length h, started_append, takeThrough_append hall]
  congr 1
  change _ :: (if _ then _ else _) = _
  simp [takeThrough]

theorem ranSoFar_stop (h : ∃ x ∈ ranSoFar o args first pre, goesOn args x = false)
    (rest : List Planned) : ranSoFar o args first (pre ++ rest) = ranSoFar o args first pre := by
  unfold ranSoFar
  rw [List.drop_append, started_append]
  exact takeThrough_stop h _

theorem Progress.of_commands (h : Progress o args before pre flow s)
    (hs : s'.executed = s.executed) : Progress o args before pre flow s' :=
  ⟨hs.trans h.executed, h.numTotal, h.numSuccessful, h.next, h.returned⟩

/-- What comes after a `return` is not run. -/
theorem Progress.pass {code : Int} (h : Progress o args before pre (.returned code c) s)
    (rest : List Planned) : Progress o args before (pre ++ rest) (.returned code c) s := by
  obtain ⟨x, hx, hstop, hcode⟩ := h.returned code c rfl
  have hran := ranSoFar_stop ⟨x, hx, hstop⟩ rest
  refine ⟨?_, ?_, ?_, ?_, ?_⟩
  · rw [hran]
    exact h.executed
  · rw [hran]
    exact h.numTotal
  · rw [hran]
    exact h.numSuccessful
  · intro c' hc'
    cases hc'
  · rw [hran]
    exact h.returned

theorem Progress.skip (h : Progress o args before pre (.next c) s)
    (hskip : pre.length < args.numSkip.toNat) :
    Progress o args before (pre ++ [planned]) (.next { c with numSkipped := c.numSkipped + 1 }) s := by
  obtain ⟨hcount, hall, hcode⟩ := h.next c rfl
  have hran : ranSoFar o args before.length (pre ++ [planned]) = ranSoFar o args before.length pre :=
    ranSoFar_skip hskip
  refine ⟨?_, ?_, ?_, ?_, ?_⟩
  · rw [hran]
    exact h.executed
  · rw [hran]
    exact h.numTotal
  · rw [hran]
    exact h.numSuccessful
  · intro c' hc'
    cases hc'
    rw [hran, List.length_append]
    refine ⟨?_, hall, hcode⟩
    change c.numTotal + (c.numSkipped + 1) = pre.length + 1
    omega
  · intro code c' hc'
    cases hc'

/-- What is done after a test that did not succeed. -/
theorem notSucceeded_returns {originalLvs : String → List String} {code : Int}
    (h : Returns (notSucceeded o args originalLvs code c) s flow s') :
    s'.executed = s.executed ∧ flow = if args.keepGoing then .next { c with globalExitCode := 1 }
      else .returned code c := by
  obtain ⟨⟨⟩, t, hclean, hflow⟩ := returns_bind.mp h
  have hexec : t.executed = s.executed :=
    (executing_cleanup originalLvs args.vmName).rel_of_returns hclean
  by_cases hkeep : args.keepGoing = true
  · rw [if_pos hkeep] at hflow ⊢
    obtain ⟨rfl, rfl⟩ := returns_pure.mp hflow
    exact ⟨hexec, rfl⟩
  · rw [if_neg hkeep] at hflow ⊢
    obtain ⟨rfl, rfl⟩ := returns_pure.mp hflow
    exact ⟨hexec, rfl⟩

/-- The three ways on after a test. -/
theorem judge_returns {originalLvs : String → List String} {result : Outcome}
    (h : Returns (judge o args originalLvs c result) s flow s') :
    s'.executed = s.executed ∧ flow =
      if result.Succeeded then .next { c with numSuccessful := c.numSuccessful + 1 }
      else if args.keepGoing then .next { c with globalExitCode := 1 }
      else .returned result.exitCode c := by
  unfold judge at h
  by_cases htime : result.timeout = true
  · rw [if_pos htime] at h
    have hnot : ¬ result.Succeeded := fun hs => absurd (hs.1.symm.trans htime) Bool.false_ne_true
    rw [if_neg hnot]
    exact notSucceeded_returns h
  rw [if_neg htime] at h
  by_cases hzero : result.exitCode = 0
  · rw [if_pos hzero] at h
    obtain ⟨rfl, rfl⟩ := returns_pure.mp h
    have hsucceeded : result.Succeeded := ⟨Bool.eq_false_iff.mpr htime, hzero⟩
    rw [if_pos hsucceeded]
    exact ⟨rfl, rfl⟩
  · rw [if_neg hzero] at h
    have hnot : ¬ result.Succeeded := fun hs => hzero hs.2
    rw [if_neg hnot]
    exact notSucceeded_returns h

/-- A test that is run. -/
theorem Progress.run {originalLvs : String → List String} {result : Outcome}
    (h : Progress o args before pre (.next c) s) (hskip : args.numSkip.toNat ≤ pre.length)
    (hrun : Returns (runWithProgress o planned.1 planned.2) s result t)
    (hjudge : Returns (judge o args originalLvs { c with numTotal := c.numTotal + 1 } result)
      t flow s') :
    Progress o args before (pre ++ [planned]) flow s' := by
  obtain ⟨hcount, hall, hcode⟩ := h.next c rfl
  obtain ⟨hresult, ht⟩ := runWithProgress_returns.mp hrun
  obtain ⟨hexec, hflow⟩ := judge_returns hjudge
  let ran := ranSoFar o args before.length pre
  let x : Execution := ⟨planned.1, planned.2, result⟩
  have hlength : s.executed.length = before.length + ran.length := by
    rw [h.executed, List.length_append]
  have hran : ranSoFar o args before.length (pre ++ [planned]) = ran ++ [x] := by
    rw [ranSoFar_run hskip hall, ← hlength, hresult]
  have hexecuted : s'.executed = before ++ (ran ++ [x]) := by
    rw [hexec, ← ht, hresult]
    change s.executed ++ [x] = _
    rw [h.executed, List.append_assoc]
  have hmem : ∀ {P : Execution → Prop}, (∀ y ∈ ran ++ [x], P y) ↔ (∀ y ∈ ran, P y) ∧ P x := by
    intro P
    simp [or_imp, forall_and]
  have htotal : c.numTotal + 1 = (ran ++ [x]).length := by
    rw [List.length_append, ← h.numTotal]
    rfl
  have hnumbers : c.numTotal + 1 + c.numSkipped = (pre ++ [planned]).length := by
    rw [List.length_append, List.length_singleton]
    omega
  by_cases hsucceeded : result.Succeeded
  · rw [if_pos hsucceeded] at hflow
    subst hflow
    have hx : successful [x] = [x] := by simp [successful, x, hsucceeded]
    refine ⟨?_, ?_, ?_, ?_, ?_⟩
    · rw [hran]
      exact hexecuted
    · rw [hran]
      exact htotal
    · rw [hran, successful_append, hx, List.length_append, ← h.numSuccessful]
      rfl
    · intro c' hc'
      cases hc'
      rw [hran, hmem, hmem]
      refine ⟨hnumbers, ⟨hall, ?_⟩, ?_⟩
      · simp [goesOn, x, hsucceeded]
      · rw [and_iff_left (show x.outcome.Succeeded from hsucceeded)]
        exact hcode
    · intro code c' hc'
      cases hc'
  rw [if_neg hsucceeded] at hflow
  have hx : successful [x] = [] := by simp [successful, x, hsucceeded]
  by_cases hkeep : args.keepGoing = true
  · rw [if_pos hkeep] at hflow
    subst hflow
    refine ⟨?_, ?_, ?_, ?_, ?_⟩
    · rw [hran]
      exact hexecuted
    · rw [hran]
      exact htotal
    · rw [hran, successful_append, hx, List.append_nil]
      exact h.numSuccessful
    · intro c' hc'
      cases hc'
      rw [hran, hmem, hmem]
      refine ⟨hnumbers, ⟨hall, ?_⟩, ?_⟩
      · simp [goesOn, hkeep]
      · apply iff_of_false
        · exact one_ne_zero
        · exact fun hboth => hsucceeded hboth.2
    · intro code c' hc'
      cases hc'
  · rw [if_neg hkeep] at hflow
    subst hflow
    refine ⟨?_, ?_, ?_, ?_, ?_⟩
    · rw [hran]
      exact hexecuted
    · rw [hran]
      exact htotal
    · rw [hran, successful_append, hx, List.append_nil]
      exact h.numSuccessful
    · intro c' hc'
      cases hc'
    · intro code c' hc'
      cases hc'
      rw [hran]
      refine ⟨x, List.mem_append_right ran List.mem_cons_self, ?_, rfl⟩
      simp [goesOn, hkeep, x, hsucceeded]

theorem Progress.testOne {originalLvs : String → List String} {test : String} {vmNames : List String}
    (h : Progress o args before pre flow s)
    (hstep : Returns (flow.andThen (runTest o args originalLvs vmNames test)) s flow' s') :
    Progress o args before (pre ++ if test ∉ args.exclude then [(test, vmNames)] else []) flow' s' := by
  cases flow with
  | returned code c =>
    obtain ⟨rfl, rfl⟩ := returns_pure.mp hstep
    exact h.pass _
  | next c =>
    change Returns (runTest o args originalLvs vmNames test c) s flow' s' at hstep
    have hcount := (h.next c rfl).1
    unfold runTest at hstep
    by_cases hexc : test ∈ args.exclude
    · rw [if_pos hexc] at hstep
      obtain ⟨rfl, rfl⟩ := returns_pure.mp hstep
      rw [if_neg (not_not_intro hexc), List.append_nil]
      exact h
    rw [if_neg hexc] at hstep
    rw [if_pos hexc]
    by_cases hskip : ((c.numTotal + c.numSkipped : Nat) : Int) < args.numSkip
    · rw [if_pos hskip] at hstep
      obtain ⟨rfl, rfl⟩ := returns_pure.mp hstep
      apply h.skip
      omega
    · rw [if_neg hskip] at hstep
      obtain ⟨⟨⟩, t, hprepare, hrest⟩ := returns_bind.mp hstep
      obtain ⟨result, t', hrun, hjudge⟩ := returns_bind.mp hrest
      have hframe : executing.Holds (cleanupAndPrepareVms o vmNames) :=
        Frame.holds_forM vmNames fun vm _ => executing_cleanupAndPrepareVm vm
      have ht := h.of_commands (hframe.rel_of_returns hprepare)
      exact ht.run (by omega) hrun hjudge

theorem Progress.testSet {originalLvs : String → List String} {testSet : TestSet}
    (h : Progress o args before pre flow s)
    (hstep : Returns (flow.andThen (runTestSet o args originalLvs testSet)) s flow' s') :
    Progress o args before (pre ++ plan args [testSet]) flow' s' := by
  cases flow with
  | returned code c =>
    obtain ⟨rfl, rfl⟩ := returns_pure.mp hstep
    exact h.pass _
  | next c =>
    change Returns (runTestSet o args originalLvs testSet c) s flow' s' at hstep
    unfold runTestSet at hstep
    by_cases hvms : (args.vmName.length : Int) < testSet.vms
    · rw [if_pos hvms] at hstep
      obtain ⟨rfl, rfl⟩ := returns_pure.mp hstep
      have hnone : plan args [testSet] = [] := by simp [plan, Int.not_le.mpr hvms]
      rw [hnone, List.append_nil]
      exact h
    · rw [if_neg hvms] at hstep
      let planTests (tests : List String) : List Planned :=
        (tests.filter (· ∉ args.exclude)).map fun test => (test, sliceTo args.vmName testSet.vms)
      have hplan : plan args [testSet] = planTests testSet.tests := by
        simp [plan, planTests, Int.not_lt.mp hvms]
      rw [hplan]
      have hstart : Progress o args before (pre ++ planTests []) (.next c) s := by
        rw [show planTests [] = [] from rfl, List.append_nil]
        exact h
      refine Returns.foldlM_invariant (fun tests flow s =>
        Progress o args before (pre ++ planTests tests) flow s) hstep hstart ?_
      intro tests test rest flow₁ s₁ flow₂ s₂ _ hinv hone
      have hnext := hinv.testOne hone
      have hone : planTests (tests ++ [test]) = planTests tests ++
          if test ∉ args.exclude then [(test, sliceTo args.vmName testSet.vms)] else [] := by
        by_cases hexc : test ∈ args.exclude
        · simp [planTests, hexc]
        · simp [planTests, hexc]
      rw [hone, ← List.append_assoc]
      exact hnext

/-! ## `run_tests` -/

/-- The result of `run_tests`, which runs the tests as planned. -/
structure Executes (o : Outside) (args : Args) (sets : List TestSet) (s : State) (code : Int)
    (c : Counters) (s' : State) : Prop where
  executed : s'.executed = s.executed ++ runs o args s.executed.length sets
  numTotal : c.numTotal = (runs o args s.executed.length sets).length
  numSuccessful : c.numSuccessful = (successful (runs o args s.executed.length sets)).length
  exitCode : code = 0 ↔ ∀ x ∈ runs o args s.executed.length sets, x.outcome.Succeeded

theorem outcome_of_mem_started {planned : List Planned} {x : Execution}
    (h : x ∈ started o first planned) : ∃ k, x.outcome = o.outcome k := by
  obtain ⟨p, -, rfl⟩ := List.mem_map.mp h
  exact ⟨p.2, rfl⟩

theorem mem_of_mem_takeThrough {α : Type} {p : α → Bool} {l : List α} {a : α}
    (h : a ∈ takeThrough p l) : a ∈ l := by
  induction l with
  | nil => cases h
  | cons b l ih =>
    rw [takeThrough_cons] at h
    rcases List.mem_cons.mp h with rfl | h
    · exact List.mem_cons_self
    · split_ifs at h with hb
      · exact List.mem_cons_of_mem _ (ih h)
      · cases h

/-- The loops at the end of a run, and what is returned. -/
theorem progress_of_returns {stream : TestSetStream} {code : Int}
    (hrun : Returns (runTests o args stream) s (code, c) s') :
    ∃ flow, Progress o args s.executed (plan args stream.sets) flow s' ∧
      (flow = .next c ∧ code = c.globalExitCode ∨ flow = .returned code c) := by
  obtain ⟨originalLvs, s₁, hlvs, hrest⟩ := returns_bind.mp hrun
  obtain ⟨flow, s₂, hloop, hfinish⟩ := returns_bind.mp hrest
  have hframe : executing.Holds (args.vmName.foldlM (recordLVs o) fun _ => []) :=
    Frame.holds_foldlM args.vmName _ fun originalLvs vm _ => executing_recordLVs originalLvs vm
  have hexec : s₁.executed = s.executed := hframe.rel_of_returns hlvs
  have hplan : plan args [] = [] := rfl
  have hnil : ranSoFar o args s.executed.length [] = [] := by simp [ranSoFar, started, takeThrough]
  have hstart : Progress o args s.executed (plan args []) (.next ⟨0, 0, 0, 0⟩) s₁ := by
    rw [hplan]
    refine ⟨?_, ?_, ?_, ?_, ?_⟩
    · rw [hnil, List.append_nil]
      exact hexec
    · rw [hnil]
      rfl
    · rw [hnil]
      rfl
    · intro c' hc'
      cases hc'
      rw [hnil]
      exact ⟨rfl, by simp, by simp⟩
    · intro code c' hc'
      cases hc'
  have hend : Progress o args s.executed (plan args stream.sets) flow s₂ := by
    refine Returns.foldlM_invariant (fun pre flow s₃ =>
      Progress o args s.executed (plan args pre) flow s₃) hloop hstart ?_
    intro pre testSet post flow₁ t₁ flow₂ t₂ _ hinv hone
    rw [plan_append]
    exact hinv.testSet hone
  cases flow with
  | next c' =>
    rcases herr : stream.error with _ | e
    · rw [herr] at hfinish
      obtain ⟨hc, rfl⟩ := returns_pure.mp hfinish
      cases hc
      exact ⟨.next c, hend, .inl ⟨rfl, rfl⟩⟩
    · rw [herr] at hfinish
      exact absurd hfinish (by simp [finish])
  | returned code' c' =>
    obtain ⟨hc, rfl⟩ := returns_pure.mp hfinish
    cases hc
    exact ⟨.returned code c, hend, .inr rfl⟩

theorem executes_of_returns {stream : TestSetStream} {code : Int}
    (hkilled : ∀ k, (o.outcome k).timeout = true → (o.outcome k).exitCode ≠ 0)
    (hrun : Returns (runTests o args stream) s (code, c) s') :
    Executes o args stream.sets s code c s' := by
  obtain ⟨flow, hend, hflow⟩ := progress_of_returns hrun
  rcases hflow with ⟨rfl, rfl⟩ | rfl
  · exact ⟨hend.executed, hend.numTotal, hend.numSuccessful, (hend.next c rfl).2.2⟩
  · refine ⟨hend.executed, hend.numTotal, hend.numSuccessful, ?_⟩
    obtain ⟨x, hx, hstop, hcode⟩ := hend.returned code c rfl
    have hnot : ¬ x.outcome.Succeeded := by
      intro hs
      rw [goesOn, decide_eq_true hs, Bool.or_true] at hstop
      cases hstop
    apply iff_of_false
    · intro hzero
      obtain ⟨k, hk⟩ := outcome_of_mem_started (mem_of_mem_takeThrough hx)
      have hexit : x.outcome.exitCode = 0 := hcode.symm.trans hzero
      by_cases htime : x.outcome.timeout = true
      · rw [hk] at htime hexit
        exact hkilled k htime hexit
      · exact hnot ⟨Bool.eq_false_iff.mpr htime, hexit⟩
    · intro hall
      exact hnot (hall x hx)

/-! ## `run_tests` returns -/

theorem total_command (h : ∀ k, ∃ lines, o.answer k = .ok lines) (cmd : Command) :
    Total (command o cmd) := by
  apply total_get_bind
  intro s
  obtain ⟨lines, hlines⟩ := h s.commands.length
  refine ⟨lines, { s with commands := s.commands ++ [cmd] }, ?_⟩
  apply returns_bind.mpr
  refine ⟨⟨⟩, _, returns_set.mpr rfl, ?_⟩
  rw [hlines]
  exact returns_pure.mpr ⟨rfl, rfl⟩

theorem total_cleanupAndPrepareVm (h : ∀ k, ∃ lines, o.answer k = .ok lines) (vm : String) :
    Total (cleanupAndPrepareVm o vm) := (total_command h _).bind fun _ => total_pure _

theorem total_cleanup (h : ∀ k, ∃ lines, o.answer k = .ok lines)
    (originalLvs : String → List String) (vms : List String) : Total (cleanup o originalLvs vms) := by
  apply total_forM
  intro vm
  apply (total_command h _).bind
  intro lvs
  apply total_forM
  intro lv
  apply total_ite (total_pure _)
  apply (total_cleanupAndPrepareVm h vm).bind
  intro _
  exact (total_command h _).bind fun _ => total_pure _

theorem total_notSucceeded (h : ∀ k, ∃ lines, o.answer k = .ok lines)
    (originalLvs : String → List String) (code : Int) (c : Counters) :
    Total (notSucceeded o args originalLvs code c) :=
  (total_cleanup h originalLvs args.vmName).bind fun _ => total_ite (total_pure _) (total_pure _)

theorem total_runTest (h : ∀ k, ∃ lines, o.answer k = .ok lines)
    (originalLvs : String → List String) (vmNames : List String) (test : String) (c : Counters) :
    Total (runTest o args originalLvs vmNames test c) := by
  apply total_ite (total_pure _)
  apply total_ite (total_pure _)
  apply (total_forM vmNames (total_cleanupAndPrepareVm h)).bind
  intro _
  have hrun : Total (runWithProgress o test vmNames) := fun s =>
    ⟨_, _, runWithProgress_returns.mpr ⟨rfl, rfl⟩⟩
  apply hrun.bind
  intro result
  apply total_ite (total_notSucceeded h _ _ _)
  exact total_ite (total_pure _) (total_notSucceeded h _ _ _)

theorem total_andThen {f : Counters → Script Flow} (hf : ∀ c, Total (f c)) (flow : Flow) :
    Total (flow.andThen f) := by
  cases flow with
  | next c => exact hf c
  | returned code c => exact total_pure _

/-- Without exceptions from outside, `run_tests` returns. -/
theorem total_runTests {stream : TestSetStream} (h : ∀ k, ∃ lines, o.answer k = .ok lines)
    (herror : stream.error = none) : Total (runTests o args stream) := by
  apply (total_foldlM args.vmName _ fun _ vm => (total_command h (.lvs vm)).bind fun _ =>
    total_pure _).bind
  intro originalLvs
  have hset : ∀ testSet c, Total (runTestSet o args originalLvs testSet c) := by
    intro testSet c
    apply total_ite (total_pure _)
    exact total_foldlM _ _ fun flow test => total_andThen (total_runTest h originalLvs _ test) flow
  apply (total_foldlM stream.sets _ fun flow testSet => total_andThen (hset testSet) flow).bind
  intro flow
  rw [herror]
  cases flow with
  | next c => exact total_pure _
  | returned code c => exact total_pure _

/-- `run_tests` runs the tests as planned, and returns when no command fails. -/
theorem runTests_executes (o : Outside) (args : Args) (stream : TestSetStream) (s : State)
    (hkilled : ∀ k, (o.outcome k).timeout = true → (o.outcome k).exitCode ≠ 0) :
    (∀ code c s', Returns (runTests o args stream) s (code, c) s' →
      Executes o args stream.sets s code c s') ∧
    ((∀ k, ∃ lines, o.answer k = .ok lines) → stream.error = none →
      ∃ code c s', Returns (runTests o args stream) s (code, c) s') := by
  refine ⟨fun code c s' => executes_of_returns hkilled, ?_⟩
  intro hanswers herror
  obtain ⟨⟨code, c⟩, s', hrun⟩ := total_runTests hanswers herror s
  exact ⟨code, c, s', hrun⟩

/-- The first run succeeds, the second one fails, and the third one is killed. -/
def mixed : Outside where
  outcome k := if k = 1 then ⟨1, false⟩ else if k = 2 then ⟨-9, true⟩ else ⟨0, false⟩
  answer _ := .ok []
  file _ := ⟨[], none⟩
  report _ _ := .error .valueError

/-- Two VMs; `rename` is excluded, and one test is skipped. -/
def twoVmsKeepGoing : Args := ⟨["vm1", "vm2"], ["rename"], [], true, false, 1, 1⟩

def severalSets : List TestSet :=
  [⟨1, ["resync", "rename", "verify"]⟩, ⟨2, ["resync", "fencing"]⟩, ⟨3, ["mesh"]⟩, ⟨2, ["quorum"]⟩]

theorem runTests_executes_mixed : Executes mixed twoVmsKeepGoing severalSets State.start 1 ⟨1, 2, 4, 1⟩
    (exec (runTests mixed twoVmsKeepGoing ⟨severalSets, none⟩) State.start).2 := by
  have hkilled : ∀ k, (mixed.outcome k).timeout = true → (mixed.outcome k).exitCode ≠ 0 := by
    intro k htime
    unfold mixed at htime ⊢
    dsimp only at htime ⊢
    split at htime
    · cases htime
    · rename_i hone
      rw [if_neg hone]
      split at htime
      · rename_i htwo
        rw [if_pos htwo]
        decide
      · cases htime
  exact (runTests_executes mixed twoVmsKeepGoing ⟨severalSets, none⟩ State.start hkilled).1 1
    ⟨1, 2, 4, 1⟩ _ (returns_of_toOption (by decide +kernel))

/-! ## The results -/

/-- `result`, with the number of nodes. -/
def resultOf (runTime : ℚ) (x : Execution) : TestResult :=
  ⟨some x.outcome.exitCode, runTime, x.outcome.timeout, x.vmNames.length⟩

/-- What each run assigns to `results[test]`; run number `k` takes the time `runTime k`. -/
def assignments (runTime : Nat → ℚ) (first : Nat) (executions : List Execution) :
    List (String × TestResult) :=
  (executions.zipIdx first).map fun p => (p.1.test, resultOf (runTime p.2) p.1)

/-- All that `run_tests` returns. The assignment to `results` follows each run. -/
def runTestsResults (o : Outside) (runTime : Nat → ℚ) (args : Args) (stream : TestSetStream) :
    Script (Int × Results × Nat × Nat) := do
  let before ← get
  let (exitCode, c) ← runTests o args stream
  let after ← get
  let results := Dict.empty.setAll (assignments runTime before.executed.length
    (after.executed.drop before.executed.length))
  return (exitCode, results, c.numSuccessful, c.numTotal)

/-- The number of results of a test, according to the statistics. -/
def countIn (statistics : Dict String Statistic) (name : String) : Nat :=
  ((statistics.get? name).bind Statistic.count).getD 0

/-- The number of its successes. -/
def successCountIn (statistics : Dict String Statistic) (name : String) : ℚ :=
  ((statistics.get? name).bind Statistic.successRate).getD 0 * countIn statistics name

def runsOf (name : String) (executions : List Execution) : List Execution :=
  executions.filter (·.test = name)

/-- The results have an entry for each run, and when they have been appended to a database, the
runs are counted. -/
structure Complete (runTime : Nat → ℚ) (first : Nat) (executions : List Execution)
    (results : Results) : Prop where
  entries : results.entries = assignments runTime first executions
  counted : ∀ resultDb, ∃ before after, findStatistics resultDb .empty = .ok before ∧
    findStatistics (resultDb ++ [results]) .empty = .ok after ∧
    ∀ name, countIn after name = countIn before name + (runsOf name executions).length ∧
      successCountIn after name =
        successCountIn before name + (successful (runsOf name executions)).length

variable {runTime : Nat → ℚ} {executions : List Execution} {results : Results}

theorem countIn_eq {resultDb : List Results} {statistics : Dict String Statistic} {name : String}
    (h : statistics.get? name = if resultsOf name (recorded resultDb) = [] then none else
      some (statisticOf (resultsOf name (recorded resultDb)))) :
    countIn statistics name = (resultsOf name (recorded resultDb)).length ∧
      successCountIn statistics name = (successesOf (resultsOf name (recorded resultDb))).length := by
  unfold successCountIn countIn
  rw [h]
  by_cases hnil : resultsOf name (recorded resultDb) = []
  · rw [if_pos hnil, hnil]
    simp [successesOf]
  · have hlength : ((resultsOf name (recorded resultDb)).length : ℚ) ≠ 0 :=
      Nat.cast_ne_zero.mpr (mt List.length_eq_zero_iff.mp hnil)
    rw [if_neg hnil]
    exact ⟨rfl, div_mul_cancel₀ _ hlength⟩

theorem recorded_append (resultDb : List Results) (results : Results) :
    recorded (resultDb ++ [results]) = recorded resultDb ++ results.entries := by
  simp [recorded]

theorem runsOf_cons_self {x : Execution} {name : String} (h : x.test = name) :
    runsOf name (x :: executions) = x :: runsOf name executions :=
  List.filter_cons_of_pos (decide_eq_true h)

theorem runsOf_cons_other {x : Execution} {name : String} (h : x.test ≠ name) :
    runsOf name (x :: executions) = runsOf name executions :=
  List.filter_cons_of_neg fun he => h (of_decide_eq_true he)

theorem length_resultsOf_assignments (name : String) :
    (resultsOf name (assignments runTime first executions)).length =
      (runsOf name executions).length := by
  induction executions generalizing first with
  | nil => rfl
  | cons x executions ih =>
    have hcons : assignments runTime first (x :: executions) =
        [(x.test, resultOf (runTime first) x)] ++ assignments runTime (first + 1) executions := rfl
    rw [hcons, resultsOf_append, List.length_append, ih]
    by_cases hname : x.test = name
    · rw [hname, resultsOf_self, runsOf_cons_self hname]
      exact Nat.add_comm _ _
    · rw [resultsOf_other (Ne.symm hname), runsOf_cons_other hname]
      exact Nat.zero_add _

/-- The runs that count as successes in the database. -/
def exitedZero (executions : List Execution) : List Execution :=
  executions.filter fun x => x.outcome.exitCode = 0

theorem exitedZero_cons_zero {x : Execution} (h : x.outcome.exitCode = 0) :
    exitedZero (x :: executions) = x :: exitedZero executions :=
  List.filter_cons_of_pos (decide_eq_true h)

theorem exitedZero_cons_other {x : Execution} (h : x.outcome.exitCode ≠ 0) :
    exitedZero (x :: executions) = exitedZero executions :=
  List.filter_cons_of_neg fun he => h (of_decide_eq_true he)

theorem length_successesOf_assignments (name : String) :
    (successesOf (resultsOf name (assignments runTime first executions))).length =
      (exitedZero (runsOf name executions)).length := by
  induction executions generalizing first with
  | nil => rfl
  | cons x executions ih =>
    have hcons : assignments runTime first (x :: executions) =
        [(x.test, resultOf (runTime first) x)] ++ assignments runTime (first + 1) executions := rfl
    rw [hcons, resultsOf_append, successesOf_append, List.length_append, ih]
    by_cases hname : x.test = name
    · rw [hname, resultsOf_self, runsOf_cons_self hname]
      by_cases hzero : x.outcome.exitCode = 0
      · have hsuccess : (resultOf (runTime first) x).exitCode = some 0 := congrArg some hzero
        rw [successesOf_success hsuccess, exitedZero_cons_zero hzero]
        exact Nat.add_comm _ _
      · have hfailure : (resultOf (runTime first) x).exitCode ≠ some 0 :=
          fun he => hzero (Option.some.inj he)
        rw [successesOf_failure hfailure, exitedZero_cons_other hzero]
        exact Nat.zero_add _
    · rw [resultsOf_other (Ne.symm hname), runsOf_cons_other hname]
      exact Nat.zero_add _

/-- The statistics before and after the results are appended. -/
theorem counted_append (resultDb : List Results)
    (hentries : results.entries = assignments runTime first executions) :
    ∃ before after, findStatistics resultDb .empty = .ok before ∧
      findStatistics (resultDb ++ [results]) .empty = .ok after ∧
      ∀ name, countIn after name = countIn before name + (runsOf name executions).length ∧
        successCountIn after name =
          successCountIn before name + (exitedZero (runsOf name executions)).length := by
  obtain ⟨before, hbefore, hget⟩ := findStatistics_ok resultDb
  obtain ⟨after, hafter, hget'⟩ := findStatistics_ok (resultDb ++ [results])
  refine ⟨before, after, hbefore, hafter, ?_⟩
  intro name
  obtain ⟨hcount, hsuccess⟩ := countIn_eq (hget name)
  obtain ⟨hcount', hsuccess'⟩ := countIn_eq (hget' name)
  rw [hcount, hcount', hsuccess, hsuccess', recorded_append, hentries, resultsOf_append,
    successesOf_append, List.length_append, List.length_append, length_resultsOf_assignments,
    length_successesOf_assignments, Nat.cast_add]
  exact ⟨rfl, rfl⟩

theorem map_assignments : (assignments runTime first executions).map Prod.fst =
    executions.map Execution.test := by
  induction executions generalizing first with
  | nil => rfl
  | cons x executions ih =>
    change x.test :: (assignments runTime (first + 1) executions).map Prod.fst = _
    rw [ih]
    rfl

/-- No run that timed out reports success. -/
def KilledFails (executions : List Execution) : Prop :=
  ∀ x ∈ executions, x.outcome.timeout = true → x.outcome.exitCode ≠ 0

instance (executions : List Execution) : Decidable (KilledFails executions) :=
  inferInstanceAs (Decidable (∀ _ ∈ _, _ → _))

theorem exitedZero_eq (h : KilledFails executions) (name : String) :
    exitedZero (runsOf name executions) = successful (runsOf name executions) := by
  unfold exitedZero successful
  apply List.filter_congr
  intro x hx
  have hmem : x ∈ executions := (List.mem_filter.mp hx).1
  apply decide_eq_decide.mpr
  constructor
  · intro hzero
    refine ⟨?_, hzero⟩
    by_contra htime
    exact h x hmem (Bool.not_eq_false _ ▸ htime) hzero
  · exact fun hs => hs.2

theorem complete_setAll_iff :
    Complete runTime first executions (Dict.empty.setAll (assignments runTime first executions)) ↔
      (executions.map Execution.test).Nodup ∧ KilledFails executions := by
  constructor
  · intro h
    have hnodup : (executions.map Execution.test).Nodup := by
      rw [← map_assignments, ← h.entries]
      exact (Dict.empty.setAll (assignments runTime first executions)).nodup
    refine ⟨hnodup, ?_⟩
    intro x hx htime hzero
    obtain ⟨before, after, hbefore, hafter, hcounts⟩ := h.counted []
    obtain ⟨before', after', hbefore', hafter', hcounts'⟩ := counted_append [] h.entries
    cases Except.ok.inj (hbefore.symm.trans hbefore')
    cases Except.ok.inj (hafter.symm.trans hafter')
    -- the run exited with 0 without being successful, so that the two counts differ
    have hcount := (hcounts x.test).2.symm.trans (hcounts' x.test).2
    have hlength : (successful (runsOf x.test executions)).length =
        (exitedZero (runsOf x.test executions)).length := Nat.cast_injective (add_left_cancel hcount)
    have hfilter : (exitedZero (runsOf x.test executions)).filter
        (fun x => decide x.outcome.Succeeded) = successful (runsOf x.test executions) := by
      rw [exitedZero, List.filter_filter]
      apply List.filter_congr
      intro y hy
      rw [Bool.and_eq_left_iff_imp]
      exact fun hs => decide_eq_true (of_decide_eq_true hs).2
    rw [← hfilter] at hlength
    have hmem : x ∈ exitedZero (runsOf x.test executions) :=
      List.mem_filter.mpr ⟨List.mem_filter.mpr ⟨hx, decide_eq_true rfl⟩, decide_eq_true hzero⟩
    have hsucceeded := of_decide_eq_true (List.length_filter_eq_length_iff.mp hlength x hmem)
    rw [hsucceeded.1] at htime
    cases htime
  · rintro ⟨hnodup, hkilled⟩
    have hentries : (Dict.empty.setAll (assignments runTime first executions)).entries =
        assignments runTime first executions := by
      apply Dict.entries_setAll
      rw [map_assignments]
      exact hnodup
    refine ⟨hentries, ?_⟩
    intro resultDb
    obtain ⟨before, after, hbefore, hafter, hcounts⟩ := counted_append resultDb hentries
    refine ⟨before, after, hbefore, hafter, ?_⟩
    intro name
    rw [← exitedZero_eq hkilled]
    exact hcounts name

/-- The results of `run_tests` are complete exactly when the tests that are run have different
names, and none of them is killed and exits with 0. -/
theorem results_complete_iff (o : Outside) (runTime : Nat → ℚ) (args : Args)
    (stream : TestSetStream) (s s' : State) (code : Int) (results : Results)
    (numSuccessful numTotal : Nat)
    (h : Returns (runTestsResults o runTime args stream) s
      (code, results, numSuccessful, numTotal) s') :
    Complete runTime s.executed.length (runs o args s.executed.length stream.sets) results ↔
      ((runs o args s.executed.length stream.sets).map Execution.test).Nodup ∧
        KilledFails (runs o args s.executed.length stream.sets) := by
  obtain ⟨⟨code', c⟩, t, hrun, hrest⟩ := returns_bind.mp (returns_get_bind.mp h)
  dsimp only at hrest
  rw [returns_get_bind] at hrest
  obtain ⟨hreturned, rfl⟩ := returns_pure.mp hrest
  obtain ⟨flow, hend, -⟩ := progress_of_returns hrun
  have hexecuted : t.executed.drop s.executed.length = runs o args s.executed.length stream.sets := by
    rw [hend.executed, List.drop_left]
    rfl
  have hresults : Dict.empty.setAll (assignments runTime s.executed.length
      (runs o args s.executed.length stream.sets)) = results := by
    rw [← hexecuted]
    exact congrArg (fun r => r.2.1) hreturned
  rw [← hresults]
  exact complete_setAll_iff

/-- Three tests, each with the number of its VMs, two of which do not succeed. -/
theorem results_complete_mixed :
    Complete (fun _ => 60) 0 (runs mixed twoVmsKeepGoing 0 [⟨1, ["resync", "verify"]⟩,
        ⟨2, ["fencing", "quorum"]⟩])
      (Dict.empty.setAll [("verify", ⟨some 0, 60, false, 1⟩), ("fencing", ⟨some 1, 60, false, 2⟩),
        ("quorum", ⟨some (-9), 60, true, 2⟩)]) :=
  (results_complete_iff mixed (fun _ => 60) twoVmsKeepGoing
    ⟨[⟨1, ["resync", "verify"]⟩, ⟨2, ["fencing", "quorum"]⟩], none⟩ State.start _ 1
    (Dict.empty.setAll [("verify", ⟨some 0, 60, false, 1⟩), ("fencing", ⟨some 1, 60, false, 2⟩),
      ("quorum", ⟨some (-9), 60, true, 2⟩)]) 1 3
    rfl).mpr ⟨by decide +kernel, by decide +kernel⟩

def twoVms : Args := ⟨["vm1", "vm2"], [], [], false, false, 1, 0⟩

/-- A test that is run with one VM and with two. -/
theorem results_incomplete :
    Returns (runTestsResults (oneTest fun _ => ⟨0, false⟩) (fun _ => 60) twoVms
        ⟨[⟨1, ["resync"]⟩, ⟨2, ["resync"]⟩], none⟩) State.start
      (0, Dict.empty.setAll [("resync", ⟨some 0, 60, false, 2⟩)], 2, 2)
      (exec (runTestsResults (oneTest fun _ => ⟨0, false⟩) (fun _ => 60) twoVms
        ⟨[⟨1, ["resync"]⟩, ⟨2, ["resync"]⟩], none⟩) State.start).2 ∧
    ¬ Complete (fun _ => 60) 0
      (runs (oneTest fun _ => ⟨0, false⟩) twoVms 0 [⟨1, ["resync"]⟩, ⟨2, ["resync"]⟩])
      (Dict.empty.setAll [("resync", ⟨some 0, 60, false, 2⟩)]) := by
  refine ⟨rfl, ?_⟩
  intro h
  have hlength := congrArg List.length h.entries
  revert hlength
  decide +kernel

end DrbdTests.Runner
