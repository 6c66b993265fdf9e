import Mathlib.Algebra.GroupWithZero.Nat
import DrbdTests.Lib.Stateful
import DrbdTests.Runner.TestSets

/-!
# The test runner

`run.py` runs the selected tests on VMs, possibly several times. `run_tests` returns an
exit code for its iteration, and `main` returns the one of the last iteration; the script
calls `main()` and drops what it returns, so that it ends with status 0 whenever `main`
returns: `exitStatus_script_iff`.

What happens outside of the script is a parameter `Outside`: how each test run ends, what
each command answers, and what the test set file and the reports of the tests say.
-/

namespace DrbdTests.Runner

open Stateful

/-! ## The world of the script -/

/-- What `run_with_progress` returns: the code is negative for a killed process. -/
structure Outcome where
  exitCode : Int
  timeout : Bool
  deriving DecidableEq, Repr

/-- The test printed `OKAY`. -/
def Outcome.Succeeded (result : Outcome) : Prop := result.timeout = false ∧ result.exitCode = 0

instance (result : Outcome) : Decidable result.Succeeded :=
  inferInstanceAs (Decidable (_ ∧ _))

/-- The test sets a generator yields, and the exception with which it may end. -/
structure TestSetStream where
  sets : List TestSet
  error : Option PyError
  deriving Repr

/-- The commands that are run besides the tests. -/
inductive Command
  | uname (vm : String)
  | loadResults
  | saveResults
  | lvs (vm : String)
  | lvremove (vm lv : String)
  /-- `drbdsetup down all`, and reloading the modules -/
  | prepare (vm : String)
  deriving DecidableEq, Repr

structure Outside where
  /-- how the `k`-th test run ends -/
  outcome : Nat → Outcome
  /-- the lines that the `k`-th command prints, or the exception that follows from it -/
  answer : Nat → Except PyError (List String)
  /-- the test set file, as iteration `i` reads it -/
  file : Nat → TestSetStream
  /-- `--report-and-quit`, in iteration `i` -/
  report : Nat → String → Except PyError String

/-- The arguments on the command line; `--test-set-file` is in `Outside`. -/
structure Args where
  vmName : List String
  exclude : List String
  run : List String
  keepGoing : Bool
  analyze : Bool
  iterations : Int
  numSkip : Int
  deriving Repr

structure Execution where
  test : String
  vmNames : List String
  outcome : Outcome
  deriving Repr

/-- What was done so far. -/
structure State where
  executed : List Execution
  commands : List Command
  deriving Repr

def State.start : State := ⟨[], []⟩

abbrev Script := Comp State PyError

/-! ## Commands -/

def answer : Except PyError (List String) → Script (List String)
  | .ok lines => pure lines
  | .error e => throw e

def command (o : Outside) (c : Command) : Script (List String) := do
  let s ← get
  set { s with commands := s.commands ++ [c] }
  answer (o.answer s.commands.length)

def cleanupAndPrepareVm (o : Outside) (vm : String) : Script PUnit := do
  let _ ← command o (.prepare vm)
  return ⟨⟩

/-- One VM after the other. (The source starts the preparation on all of them before it waits for any.) -/
def cleanupAndPrepareVms (o : Outside) (vmNames : List String) : Script PUnit :=
  vmNames.forM (cleanupAndPrepareVm o)

def listLVs (o : Outside) (vm : String) : Script (List String) := command o (.lvs vm)

def removeExcessLV (o : Outside) (origLvs : List String) (vm lv : String) : Script PUnit :=
  if lv ∈ origLvs then pure PUnit.unit
  else do
    cleanupAndPrepareVm o vm
    let _ ← command o (.lvremove vm lv)
    return ⟨⟩

def removeExcessLVs (o : Outside) (origLvs : List String) (vm : String) : Script PUnit := do
  let lvs ← listLVs o vm
  lvs.forM (removeExcessLV o origLvs vm)

def cleanup (o : Outside) (originalLvs : String → List String) (allVmNames : List String) :
    Script PUnit :=
  allVmNames.forM fun vm => removeExcessLVs o (originalLvs vm) vm

/-- A test run; the timer kills it after five minutes. -/
def runWithProgress (o : Outside) (test : String) (vmNames : List String) : Script Outcome := do
  let s ← get
  let result := o.outcome s.executed.length
  set { s with executed := s.executed ++ [Execution.mk test vmNames result] }
  return result

/-! ## `run_tests` -/

/-- The counters of `run_tests`. -/
structure Counters where
  globalExitCode : Int
  numSuccessful : Nat
  numTotal : Nat
  numSkipped : Nat
  deriving DecidableEq, Repr

/-- The loops go on, or `return` was executed in them. -/
inductive Flow
  | next (c : Counters)
  | returned (exitCode : Int) (c : Counters)
  deriving DecidableEq, Repr

/-- An iteration of a loop in which there may have been a `return`. -/
def Flow.andThen (f : Counters → Script Flow) : Flow → Script Flow
  | .next c => f c
  | .returned exitCode c => return .returned exitCode c

/-- The end of both branches for a test that did not succeed. -/
def notSucceeded (o : Outside) (args : Args) (originalLvs : String → List String)
    (exitCode : Int) (c : Counters) : Script Flow := do
  cleanup o originalLvs args.vmName
  if args.keepGoing then return .next { c with globalExitCode := 1 }
  else return .returned exitCode c

/-- What follows the run of a test. -/
def judge (o : Outside) (args : Args) (originalLvs : String → List String) (c : Counters)
    (result : Outcome) : Script Flow :=
  if result.timeout then notSucceeded o args originalLvs result.exitCode c
  else if result.exitCode = 0 then
    return .next { c with numSuccessful := c.numSuccessful + 1 }
  else notSucceeded o args originalLvs result.exitCode c

def runTest (o : Outside) (args : Args) (originalLvs : String → List String)
    (vmNames : List String) (test : String) (c : Counters) : Script Flow :=
  if test ∈ args.exclude then return .next c
  else if ((c.numTotal + c.numSkipped : Nat) : Int) < args.numSkip then
    return .next { c with numSkipped := c.numSkipped + 1 }
  else do
    cleanupAndPrepareVms o vmNames
    let result ← runWithProgress o test vmNames
    judge o args originalLvs { c with numTotal := c.numTotal + 1 } result

/-- `names[:n]` -/
def sliceTo (names : List String) (n : Int) : List String :=
  if 0 ≤ n then names.take n.toNat else names.take (names.length + n).toNat

def runTestSet (o : Outside) (args : Args) (originalLvs : String → List String)
    (testSet : TestSet) (c : Counters) : Script Flow :=
  if (args.vmName.length : Int) < testSet.vms then return .next c
  else
    let vmNames := sliceTo args.vmName testSet.vms
    testSet.tests.foldlM
      (fun flow test => flow.andThen (runTest o args originalLvs vmNames test)) (.next c)

/-- `original_lvs[vm] = list_LVs(vm)` -/
def recordLVs (o : Outside) (originalLvs : String → List String) (vm : String) :
    Script (String → List String) := do
  let lvs ← listLVs o vm
  return fun vm' => if vm' = vm then lvs else originalLvs vm'

/-- The end of the loop over the test sets: a `return` ends it before the generator does. -/
def finish (error : Option PyError) : Flow → Script (Int × Counters)
  | .returned exitCode c => return (exitCode, c)
  | .next c =>
    match error with
    | some e => throw e
    | none => return (c.globalExitCode, c)

def runTests (o : Outside) (args : Args) (stream : TestSetStream) : Script (Int × Counters) := do
  let originalLvs ← args.vmName.foldlM (recordLVs o) fun _ => []
  let flow ← stream.sets.foldlM
    (fun flow testSet => flow.andThen (runTestSet o args originalLvs testSet)) (.next ⟨0, 0, 0, 0⟩)
  finish stream.error flow

/-! ## `main` -/

/-- `test_set_iter` of an iteration. Both are generators, which start when the loop over
the test sets does. -/
def testSetIter (o : Outside) (args : Args) (i : Nat) : TestSetStream :=
  if args.run ≠ [] then
    match generateTestSet (o.report i) args.run args.vmName.length with
    | .ok schedule => ⟨schedule.sets, none⟩
    | .error e => ⟨[], some e⟩
  else o.file i

/-- The value of `exit_code` after an iteration. -/
def iteration (o : Outside) (args : Args) (_ : Option Int) (i : Nat) : Script (Option Int) := do
  let (exitCode, _) ← runTests o args (testSetIter o args i)
  return some exitCode

/-- `return exit_code`: without an iteration there is no such variable. -/
def returnExitCode : Option Int → Script (Option Int)
  | none => throw .unboundLocalError
  | some exitCode => return some exitCode

def main (o : Outside) (args : Args) : Script (Option Int) :=
  if args.analyze then return none
  else
    match args.vmName with
    | [] => throw (.systemExit 1)
    | vm :: _ => do
      cleanupAndPrepareVm o vm
      let _ ← command o (.uname vm)
      let _ ← command o .loadResults
      let exitCode ← (List.range args.iterations.toNat).foldlM (iteration o args) none
      let _ ← command o .saveResults
      returnExitCode exitCode

/-- `if __name__ == "__main__": main()` -/
def script (o : Outside) (args : Args) : Script PUnit := do
  let _ ← main o args
  return ⟨⟩

/-- The exit status of the interpreter. -/
def exitStatus : Except PyError PUnit → Nat
  | .ok _ => 0
  | .error (.systemExit code) => code
  | .error _ => 1

/-! ## The selected tests -/

/-- The tests that an iteration can reach. -/
def candidates (args : Args) (sets : List TestSet) : List String :=
  (sets.filter fun s => s.vms ≤ (args.vmName.length : Int)).flatMap fun s =>
    s.tests.filter (· ∉ args.exclude)

/-- The tests that an iteration selects: all but the skipped ones. -/
def selected (o : Outside) (args : Args) (i : Nat) : List String :=
  (candidates args (testSetIter o args i).sets).drop args.numSkip.toNat

def selectedCount (o : Outside) (args : Args) : Nat :=
  if args.analyze then 0
  else ((List.range args.iterations.toNat).map fun i => (selected o args i).length).sum

variable {o : Outside} {args : Args} {s s' : State}

/-! ## What is executed -/

/-- The frame of everything but the commands. -/
def executing : Frame State := Frame.fixing State.executed

theorem executing_command (c : Command) : executing.Holds (command o c) := by
  apply Frame.holds_get_bind
  intro s
  rw [exec_bind_of_ok (exec_set _ s)]
  rcases o.answer s.commands.length with e | lines
  · rfl
  · rfl

theorem executing_cleanupAndPrepareVm (vm : String) :
    executing.Holds (cleanupAndPrepareVm o vm) :=
  Frame.holds_bind (executing_command _) fun _ => Frame.holds_pure _

theorem executing_removeExcessLVs (origLvs : List String) (vm : String) :
    executing.Holds (removeExcessLVs o origLvs vm) := by
  apply Frame.holds_bind (executing_command _)
  intro lvs
  apply Frame.holds_forM
  intro lv hlv
  apply Frame.holds_ite
  · intro hmem
    exact Frame.holds_pure _
  · intro hmem
    apply Frame.holds_bind (executing_cleanupAndPrepareVm vm)
    intro _
    exact Frame.holds_bind (executing_command _) fun _ => Frame.holds_pure _

theorem executing_cleanup (originalLvs : String → List String) (vms : List String) :
    executing.Holds (cleanup o originalLvs vms) :=
  Frame.holds_forM vms fun vm _ => executing_removeExcessLVs (originalLvs vm) vm

/-- Up to `N` test runs were selected so far. Each one that was executed ended as the
outside says, and if one was not executed, another one did not succeed. -/
structure Tracks (o : Outside) (N : Nat) (s : State) : Prop where
  outcome : ∀ k (h : k < s.executed.length), s.executed[k].outcome = o.outcome k
  le : s.executed.length ≤ N
  complete : s.executed.length = N ∨ ∃ k < s.executed.length, ¬ (o.outcome k).Succeeded

theorem Tracks.of_commands {N : Nat} (h : Tracks o N s) (hs : s'.executed = s.executed) :
    Tracks o N s' := by
  rcases s with ⟨executed, commands⟩
  rcases s' with ⟨executed', commands'⟩
  obtain rfl : executed' = executed := hs
  exact ⟨h.outcome, h.le, h.complete⟩

theorem Tracks.start : Tracks o 0 State.start :=
  ⟨fun k h => absurd h (Nat.not_lt_zero k), Nat.le_refl 0, Or.inl rfl⟩

/-- After a test that did not succeed, no more tests need to be executed. -/
theorem Tracks.stop {N M : Nat} (h : Tracks o N s) (hNM : N ≤ M)
    (hfail : ∃ k < s.executed.length, ¬ (o.outcome k).Succeeded) : Tracks o M s :=
  ⟨h.outcome, Nat.le_trans h.le hNM, Or.inr hfail⟩

theorem runWithProgress_returns {test : String} {vmNames : List String} {result : Outcome} :
    Returns (runWithProgress o test vmNames) s result s' ↔
      o.outcome s.executed.length = result ∧
      { s with executed := s.executed ++ [⟨test, vmNames, o.outcome s.executed.length⟩] } = s' := by
  rw [runWithProgress, returns_get_bind, returns_bind]
  constructor
  · rintro ⟨_, t, hset, hpure⟩
    obtain ⟨hr, rfl⟩ := returns_pure.mp hpure
    exact ⟨hr, returns_set.mp hset⟩
  · rintro ⟨hr, hs⟩
    exact ⟨⟨⟩, s', returns_set.mpr hs, returns_pure.mpr ⟨hr, rfl⟩⟩

theorem Tracks.execute {N : Nat} {test : String} {vmNames : List String} (h : Tracks o N s)
    (hs : s'.executed = s.executed ++ [⟨test, vmNames, o.outcome s.executed.length⟩]) :
    Tracks o (N + 1) s' := by
  have hlen : s'.executed.length = s.executed.length + 1 := by simp [hs]
  refine ⟨fun k hk => ?_, ?_, ?_⟩
  · simp only [hs]
    by_cases hold : k < s.executed.length
    · rw [List.getElem_append_left hold]
      exact h.outcome k hold
    · obtain rfl : k = s.executed.length := by omega
      simp
  · have hle := h.le
    omega
  · rcases h.complete with heq | ⟨k, hk, hfail⟩
    · left
      omega
    · exact Or.inr ⟨k, by omega, hfail⟩

/-! ## One iteration -/

/-- The test runs from number `first` on succeeded. -/
def AllSucceeded (o : Outside) (first : Nat) (s : State) : Prop :=
  ∀ k, first ≤ k → k < s.executed.length → (o.outcome k).Succeeded

/-- The state of the loops of `run_tests`, `passed` candidates after it was started with
`first` executed tests and `N` selected ones. -/
structure Loops (o : Outside) (args : Args) (first N passed : Nat) (flow : Flow) (s : State) :
    Prop where
  tracks : Tracks o (N + (passed - args.numSkip.toNat)) s
  first_le : first ≤ s.executed.length
  next : ∀ c, flow = .next c → c.numTotal + c.numSkipped = passed ∧
    (c.globalExitCode = 0 ↔ AllSucceeded o first s)
  returned : ∀ exitCode c, flow = .returned exitCode c →
    ∃ k, first ≤ k ∧ k < s.executed.length ∧ ¬ (o.outcome k).Succeeded ∧
      exitCode = (o.outcome k).exitCode

variable {first N passed : Nat} {flow flow' : Flow} {c : Counters} {test : String}

/-- A failed test, just executed. -/
theorem loops_notSucceeded {originalLvs : String → List String} {code : Int}
    (hcount : c.numTotal + c.numSkipped = passed)
    (htracks : Tracks o (N + (passed - args.numSkip.toNat)) s)
    (hlast : ∃ k, first ≤ k ∧ k < s.executed.length ∧ ¬ (o.outcome k).Succeeded ∧
      code = (o.outcome k).exitCode)
    (h : Returns (notSucceeded o args originalLvs code c) s flow s') :
    Loops o args first N passed flow s' := by
  obtain ⟨⟨⟩, t, hclean, hflow⟩ := returns_bind.mp h
  have hexec : t.executed = s.executed := (executing_cleanup originalLvs args.vmName).rel_of_returns hclean
  obtain ⟨k, hk, hlt, hfail, hcode⟩ := hlast
  have htracks' : Tracks o (N + (passed - args.numSkip.toNat)) t := htracks.of_commands hexec
  have hlt' : k < t.executed.length := by
    rw [hexec]
    exact hlt
  rcases hkeep : args.keepGoing with _ | _
  · rw [hkeep] at hflow
    obtain ⟨rfl, rfl⟩ := returns_pure.mp hflow
    refine ⟨htracks', by omega, ?_, ?_⟩
    · intro c' hc'
      cases hc'
    · intro code' c' hc'
      cases hc'
      exact ⟨k, hk, hlt', hfail, hcode⟩
  · rw [hkeep] at hflow
    obtain ⟨rfl, rfl⟩ := returns_pure.mp hflow
    refine ⟨htracks', by omega, ?_, ?_⟩
    · intro c' hc'
      cases hc'
      refine ⟨hcount, ?_⟩
      constructor
      · intro hone
        cases hone
      · intro hall
        exact absurd (hall k hk hlt') hfail
    · intro code' c' hc'
      cases hc'

/-- A test that is executed. -/
theorem loops_judge {originalLvs : String → List String} {vmNames : List String}
    {result : Outcome} {t : State} (h : Loops o args first N passed (.next c) s)
    (hskip : args.numSkip.toNat ≤ passed) (hrun : Returns (runWithProgress o test vmNames) s result t)
    (hjudge : Returns (judge o args originalLvs { c with numTotal := c.numTotal + 1 } result)
      t flow s') :
    Loops o args first N (passed + 1) flow s' := by
  obtain ⟨rfl, ht⟩ := runWithProgress_returns.mp hrun
  have hexec : t.executed = s.executed ++ [⟨test, vmNames, o.outcome s.executed.length⟩] := by
    rw [← ht]
  have hlen : t.executed.length = s.executed.length + 1 := by simp [hexec]
  have hfirst := h.first_le
  obtain ⟨hcount, hcode⟩ := h.next c rfl
  have hcount' : c.numTotal + 1 + c.numSkipped = passed + 1 := by omega
  have htracks : Tracks o (N + (passed + 1 - args.numSkip.toNat)) t := by
    have hN : N + (passed + 1 - args.numSkip.toNat) = N + (passed - args.numSkip.toNat) + 1 := by
      omega
    rw [hN]
    exact h.tracks.execute hexec
  by_cases hsucc : (o.outcome s.executed.length).Succeeded
  · obtain ⟨htime, hzero⟩ := hsucc
    simp only [judge, htime, hzero, if_true, Bool.false_eq_true, if_false] at hjudge
    obtain ⟨rfl, rfl⟩ := returns_pure.mp hjudge
    refine ⟨htracks, by omega, ?_, ?_⟩
    · intro c' hc'
      cases hc'
      refine ⟨hcount', hcode.trans ?_⟩
      constructor
      · intro hall k hk hlt
        by_cases hold : k < s.executed.length
        · exact hall k hk hold
        · obtain rfl : k = s.executed.length := by omega
          exact ⟨htime, hzero⟩
      · intro hall k hk hlt
        exact hall k hk (by omega)
    · intro code c' hc'
      cases hc'
  · -- both branches that are left end alike
    have hnot : Returns (notSucceeded o args originalLvs (o.outcome s.executed.length).exitCode
        { c with numTotal := c.numTotal + 1 }) t flow s' := by
      unfold judge at hjudge
      split at hjudge
      · exact hjudge
      · rename_i htime
        rw [if_neg fun hzero => hsucc ⟨by simpa using htime, hzero⟩] at hjudge
        exact hjudge
    apply loops_notSucceeded hcount' htracks _ hnot
    exact ⟨s.executed.length, hfirst, by omega, hsucc, rfl⟩

/-- The loops did not come further when a candidate was skipped. -/
theorem Loops.skip (h : Loops o args first N passed (.next c) s)
    (hskip : passed < args.numSkip.toNat) :
    Loops o args first N (passed + 1) (.next { c with numSkipped := c.numSkipped + 1 }) s := by
  obtain ⟨hcount, hcode⟩ := h.next c rfl
  refine ⟨?_, h.first_le, ?_, ?_⟩
  · have hN : passed + 1 - args.numSkip.toNat = passed - args.numSkip.toNat := by omega
    rw [hN]
    exact h.tracks
  · intro c' hc'
    cases hc'
    refine ⟨?_, hcode⟩
    change c.numTotal + (c.numSkipped + 1) = passed + 1
    omega
  · intro code c' hc'
    cases hc'

theorem Loops.of_commands (h : Loops o args first N passed flow s)
    (hs : s'.executed = s.executed) : Loops o args first N passed flow s' := by
  rcases s with ⟨executed, commands⟩
  rcases s' with ⟨executed', commands'⟩
  obtain rfl : executed' = executed := hs
  exact ⟨h.tracks.of_commands rfl, h.first_le, h.next, h.returned⟩

/-- What comes after a `return` is passed without being executed. -/
theorem Loops.pass {code : Int} (h : Loops o args first N passed (.returned code c) s) (n : Nat) :
    Loops o args first N (passed + n) (.returned code c) s := by
  obtain ⟨k, hk, hlt, hfail, hcode⟩ := h.returned code c rfl
  refine ⟨h.tracks.stop (by omega) ⟨k, hlt, hfail⟩, h.first_le, ?_, h.returned⟩
  intro c' hc'
  cases hc'

/-- One test. -/
theorem Loops.testOne {originalLvs : String → List String} {vmNames : List String}
    (h : Loops o args first N passed flow s)
    (hstep : Returns (flow.andThen (runTest o args originalLvs vmNames test)) s flow' s') :
    Loops o args first N (passed + if test ∉ args.exclude then 1 else 0) flow' s' := by
  rcases flow with c | ⟨code, c⟩
  · change Returns (runTest o args originalLvs vmNames test c) s flow' s' at hstep
    have hcount := (h.next c rfl).1
    unfold runTest at hstep
    by_cases hexc : test ∈ args.exclude
    · rw [if_pos hexc] at hstep
      obtain ⟨rfl, rfl⟩ := returns_pure.mp hstep
      simpa [hexc] using h
    · rw [if_neg hexc] at hstep
      simp only [hexc, not_false_eq_true, if_true]
      by_cases hskip : ((c.numTotal + c.numSkipped : Nat) : Int) < args.numSkip
      · rw [if_pos hskip] at hstep
        obtain ⟨rfl, rfl⟩ := returns_pure.mp hstep
        apply h.skip
        omega
      · rw [if_neg hskip] at hstep
        obtain ⟨⟨⟩, t, hprepare, hrest⟩ := returns_bind.mp hstep
        obtain ⟨result, t', hrun, hjudge⟩ := returns_bind.mp hrest
        have hframe : executing.Holds (cleanupAndPrepareVms o vmNames) :=
          Frame.holds_forM vmNames fun vm _ => executing_cleanupAndPrepareVm vm
        have ht := h.of_commands (hframe.rel_of_returns hprepare)
        exact loops_judge ht (by omega) hrun hjudge
  · obtain ⟨rfl, rfl⟩ := returns_pure.mp hstep
    exact h.pass _

/-- One test set. -/
theorem Loops.testSet {originalLvs : String → List String} {testSet : TestSet}
    (h : Loops o args first N passed flow s)
    (hstep : Returns (flow.andThen (runTestSet o args originalLvs testSet)) s flow' s') :
    Loops o args first N (passed + (candidates args [testSet]).length) flow' s' := by
  rcases flow with c | ⟨code, c⟩
  · change Returns (runTestSet o args originalLvs testSet c) s flow' s' at hstep
    unfold runTestSet at hstep
    by_cases hvms : (args.vmName.length : Int) < testSet.vms
    · rw [if_pos hvms] at hstep
      obtain ⟨rfl, rfl⟩ := returns_pure.mp hstep
      have hnone : candidates args [testSet] = [] := by
        simp [candidates, Int.not_le.mpr hvms]
      rw [hnone]
      exact h
    · rw [if_neg hvms] at hstep
      have hall : candidates args [testSet] = testSet.tests.filter (· ∉ args.exclude) := by
        simp [candidates, Int.not_lt.mp hvms]
      rw [hall]
      refine Returns.foldlM_invariant (fun pre flow s =>
        Loops o args first N (passed + (pre.filter (· ∉ args.exclude)).length) flow s) hstep h ?_
      intro pre test post flow₁ s₁ flow₂ s₂ _ hinv hone
      have hnext := hinv.testOne hone
      have hlen : ((pre ++ [test]).filter (· ∉ args.exclude)).length =
          (pre.filter (· ∉ args.exclude)).length + if test ∉ args.exclude then 1 else 0 := by
        rw [List.filter_append, List.length_append]
        by_cases hexc : test ∈ args.exclude
        · simp [hexc]
        · simp [hexc]
      rw [hlen, ← Nat.add_assoc]
      exact hnext
  · obtain ⟨rfl, rfl⟩ := returns_pure.mp hstep
    exact h.pass _

theorem candidates_append (sets sets' : List TestSet) :
    candidates args (sets ++ sets') = candidates args sets ++ candidates args sets' := by
  simp [candidates]

theorem executing_recordLVs (originalLvs : String → List String) (vm : String) :
    executing.Holds (recordLVs o originalLvs vm) :=
  Frame.holds_bind (executing_command _) fun _ => Frame.holds_pure _

/-- How an iteration ends: `code` says whether all its tests succeeded, provided that a
process killed on timeout has a non-zero code. -/
theorem runTests_returns {stream : TestSetStream} {code : Int} (h : Tracks o N s)
    (hrun : Returns (runTests o args stream) s (code, c) s') :
    Tracks o (N + ((candidates args stream.sets).drop args.numSkip.toNat).length) s' ∧
    ((∀ k, (o.outcome k).timeout = true → (o.outcome k).exitCode ≠ 0) →
      (code = 0 ↔ AllSucceeded o s.executed.length s')) := by
  obtain ⟨originalLvs, s₁, hlvs, hrest⟩ := returns_bind.mp hrun
  obtain ⟨flow, s₂, hloop, hfinish⟩ := returns_bind.mp hrest
  have hframe : executing.Holds (args.vmName.foldlM (recordLVs o) fun _ => []) :=
    Frame.holds_foldlM args.vmName _ fun originalLvs vm _ => executing_recordLVs originalLvs vm
  have hexec : s₁.executed = s.executed := hframe.rel_of_returns hlvs
  have hstart : Loops o args s.executed.length N 0 (.next ⟨0, 0, 0, 0⟩) s₁ := by
    refine ⟨by simpa using h.of_commands hexec, by rw [hexec], ?_, ?_⟩
    · intro c' hc'
      cases hc'
      refine ⟨rfl, iff_of_true rfl ?_⟩
      intro k hk hlt
      rw [hexec] at hlt
      omega
    · intro code c' hc'
      cases hc'
  have hend : Loops o args s.executed.length N (candidates args stream.sets).length flow s₂ := by
    refine Returns.foldlM_invariant (fun pre flow s₃ =>
      Loops o args s.executed.length N (candidates args pre).length flow s₃) hloop hstart ?_
    intro pre testSet post flow₁ t₁ flow₂ t₂ _ hinv hone
    rw [candidates_append, List.length_append]
    exact hinv.testSet hone
  rw [List.length_drop]
  rcases flow with c' | ⟨code', c'⟩
  · rcases herr : stream.error with _ | e
    · rw [herr] at hfinish
      obtain ⟨hc, rfl⟩ := returns_pure.mp hfinish
      cases hc
      exact ⟨hend.tracks, fun _ => (hend.next c rfl).2⟩
    · rw [herr] at hfinish
      exact absurd hfinish (by simp [finish])
  · obtain ⟨hc, rfl⟩ := returns_pure.mp hfinish
    cases hc
    refine ⟨hend.tracks, fun hkilled => ?_⟩
    obtain ⟨k, hk, hlt, hfail, hcode⟩ := hend.returned code c rfl
    apply iff_of_false
    · intro hzero
      have hexit : (o.outcome k).exitCode = 0 := hcode.symm.trans hzero
      rcases htime : (o.outcome k).timeout with _ | _
      · exact hfail ⟨htime, hexit⟩
      · exact hkilled k htime hexit
    · intro hall
      exact hfail (hall k hk hlt)

/-! ## The verdict -/

theorem main_tracks {value : Option Int} (h : Returns (main o args) State.start value s) :
    Tracks o (selectedCount o args) s := by
  unfold main at h
  unfold selectedCount
  rcases hana : args.analyze with _ | _
  · rw [hana] at h
    simp only [Bool.false_eq_true, if_false] at h ⊢
    rcases hvm : args.vmName with _ | ⟨vm, vms⟩
    · rw [hvm] at h
      exact absurd h (by simp)
    rw [hvm] at h
    obtain ⟨⟨⟩, s₁, h₁, h⟩ := returns_bind.mp h
    obtain ⟨_, s₂, h₂, h⟩ := returns_bind.mp h
    obtain ⟨_, s₃, h₃, h⟩ := returns_bind.mp h
    obtain ⟨exitCode, s₄, hloop, h⟩ := returns_bind.mp h
    obtain ⟨_, s₅, h₅, h⟩ := returns_bind.mp h
    have hexec : s₃.executed = State.start.executed :=
      ((executing_command _).rel_of_returns h₃).trans
        (((executing_command _).rel_of_returns h₂).trans
          ((executing_cleanupAndPrepareVm vm).rel_of_returns h₁))
    have htracks : Tracks o
        ((List.range args.iterations.toNat).map fun i => (selected o args i).length).sum s₄ := by
      refine Returns.foldlM_invariant (fun pre _ t =>
        Tracks o (pre.map fun i => (selected o args i).length).sum t) hloop
        (Tracks.start.of_commands hexec) ?_
      intro pre i post code t code' t' _ hinv hone
      obtain ⟨⟨code'', c⟩, t'', hrun, hpure⟩ := returns_bind.mp hone
      obtain ⟨-, rfl⟩ := returns_pure.mp hpure
      rw [List.map_append, List.sum_append, List.map_singleton, List.sum_singleton]
      exact (runTests_returns hinv hrun).1
    have hsave : s₅.executed = s₄.executed := (executing_command _).rel_of_returns h₅
    have hlast : s = s₅ := by
      rcases exitCode with _ | exitCode
      · exact absurd h (by simp [returnExitCode])
      · exact (returns_pure.mp h).2.symm
    rw [hlast]
    exact htracks.of_commands hsave
  · rw [hana] at h
    obtain ⟨-, rfl⟩ := returns_pure.mp h
    exact Tracks.start

/-- When `main` returns, the script ends with status 0, whatever `main` returns. -/
theorem exitStatus_script {value : Option Int} (h : Returns (main o args) State.start value s) :
    exitStatus (exec (script o args) State.start).1 = 0 := by
  have hscript : Returns (script o args) State.start ⟨⟩ s := returns_drop.mpr ⟨value, h⟩
  rw [show exec (script o args) State.start = _ from hscript]
  rfl

theorem Tracks.allSucceeded_iff {N : Nat} (h : Tracks o N s) :
    (∀ x ∈ s.executed, x.outcome.Succeeded) ↔ ∀ k < N, (o.outcome k).Succeeded := by
  constructor
  · intro hall
    have hexecuted : ∀ k < s.executed.length, (o.outcome k).Succeeded := by
      intro k hk
      rw [← h.outcome k hk]
      exact hall _ (List.getElem_mem hk)
    rcases h.complete with heq | ⟨k, hk, hfail⟩
    · rw [← heq]
      exact hexecuted
    · exact absurd (hexecuted k hk) hfail
  · intro hall x hx
    obtain ⟨k, hk, rfl⟩ := List.mem_iff_getElem.mp hx
    rw [h.outcome k hk]
    exact hall k (Nat.lt_of_lt_of_le hk h.le)

/-- When `main` returns, the exit status tells whether all executed tests succeeded exactly
when every test that was selected succeeds. -/
theorem exitStatus_script_iff (o : Outside) (args : Args) (value : Option Int) (s : State)
    (h : Returns (main o args) State.start value s) :
    (exitStatus (exec (script o args) State.start).1 = 0 ↔
        ∀ x ∈ s.executed, x.outcome.Succeeded) ↔
      ∀ k < selectedCount o args, (o.outcome k).Succeeded := by
  rw [← (main_tracks h).allSucceeded_iff, exitStatus_script h]
  simp

/-- One VM, a file with one test set, and commands that succeed. -/
def oneTest (outcome : Nat → Outcome) : Outside where
  outcome := outcome
  answer _ := .ok []
  file _ := ⟨[⟨1, ["resync"]⟩], none⟩
  report _ _ := .error .valueError

def oneVm (iterations : Int) : Args := ⟨["vm"], [], [], false, false, iterations, 0⟩

theorem exitStatus_script_iff_twice :
    (exitStatus (exec (script (oneTest fun _ => ⟨0, false⟩) (oneVm 2)) State.start).1 = 0 ↔
        ∀ x ∈ (exec (main (oneTest fun _ => ⟨0, false⟩) (oneVm 2)) State.start).2.executed,
          x.outcome.Succeeded) ↔
      ∀ k < selectedCount (oneTest fun _ => ⟨0, false⟩) (oneVm 2),
        ((oneTest fun _ => ⟨0, false⟩).outcome k).Succeeded :=
  exitStatus_script_iff (oneTest fun _ => ⟨0, false⟩) (oneVm 2) (some 0) _ rfl

/-- A test fails, `main` returns 1, and the script ends with status 0. -/
theorem exitStatus_script_failed :
    Returns (main (oneTest fun _ => ⟨1, false⟩) (oneVm 1)) State.start (some 1)
      (exec (main (oneTest fun _ => ⟨1, false⟩) (oneVm 1)) State.start).2 ∧
    ¬ (exitStatus (exec (script (oneTest fun _ => ⟨1, false⟩) (oneVm 1)) State.start).1 = 0 ↔
      ∀ x ∈ (exec (main (oneTest fun _ => ⟨1, false⟩) (oneVm 1)) State.start).2.executed,
        x.outcome.Succeeded) :=
  ⟨rfl, by decide +kernel⟩

end DrbdTests.Runner
