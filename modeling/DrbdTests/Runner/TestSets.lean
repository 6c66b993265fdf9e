import DrbdTests.Error
import DrbdTests.Lib.Text
import Mathlib.Data.List.Nodup

/-!
# Test sets

A test names the numbers of nodes it can run with in its call of `setup`. With
`--report-and-quit` it prints them, and `generate_test_set` of `run.py` reads them and
decides on how many VMs the test runs. Started with host names, `setup` compares their
number with the same bounds, and skips the test if it does not fit (`checkHosts`).

The report has a line for the maximum only when there is one, while `generate_test_set`
always expects two lines: `schedule_agrees_iff`.
-/

namespace DrbdTests

/-! ## `setup` -/

/-- The arguments of `setup` that are about the number of nodes. -/
structure NodeArgs where
  nodes : Option Int
  minNodes : Option Int
  maxNodes : Option Int
  deriving DecidableEq, Repr

namespace NodeArgs

/-- The defaults of the arguments. -/
def default : NodeArgs := ⟨none, some 2, none⟩

/-- `min_nodes`, after `if nodes is not None: min_nodes = max_nodes = nodes` -/
def minimum (a : NodeArgs) : Option Int :=
  match a.nodes with
  | some nodes => some nodes
  | none => a.minNodes

/-- `max_nodes`, after the same statement. -/
def maximum (a : NodeArgs) : Option Int :=
  match a.nodes with
  | some nodes => some nodes
  | none => a.maxNodes

end NodeArgs

/-- What `setup` prints for `--report-and-quit`. -/
def reportAndQuit (a : NodeArgs) : Except PyError String :=
  match a.minimum with
  | none => .error .typeError
  | some minNodes =>
    .ok ("min_nodes=" ++ toString minNodes ++ "\n" ++
      match a.maximum with
      | some maxNodes => if maxNodes ≠ 0 then "max_nodes=" ++ toString maxNodes ++ "\n" else ""
      | none => "")

/-- What `setup` decides from the number of host names: `skip_test` ends the test. -/
inductive Admission
  | run
  | skip (text : String)
  deriving DecidableEq, Repr

/-- `str` of an argument. -/
def strOption : Option Int → String
  | some n => toString n
  | none => "None"

/-- The checks of `setup`. -/
def checkHosts (a : NodeArgs) (hosts : Nat) (overrideMax : Bool) : Except PyError Admission :=
  if a.maximum.isSome ∧ a.minimum = a.maximum ∧ a.minimum ≠ some (hosts : Int) then
    .ok (.skip ("Test case requires " ++ strOption a.minimum ++ " nodes"))
  else
    match a.minimum with
    | none => .error .typeError
    | some minNodes =>
      if (hosts : Int) < minNodes then
        .ok (.skip ("Test case requires " ++ toString minNodes ++ " or more nodes"))
      else
        match a.maximum with
        | some maxNodes =>
          if maxNodes < (hosts : Int) ∧ ¬ overrideMax then
            .ok (.skip ("Test case requires " ++ toString maxNodes
              ++ " or fewer nodes; user --override-max if really meant."))
          else .ok .run
        | none => .ok .run

/-! ## `generate_test_set` -/

/-- A dictionary with the keys `vms` and `tests`. -/
structure TestSet where
  vms : Int
  tests : List String
  deriving DecidableEq, Repr

/-- The test sets, in the order in which they were made, and the lines printed. -/
structure Schedule where
  sets : List TestSet
  printed : List String
  deriving DecidableEq, Repr

/-- The text in front of `findall(...)[0]`. -/
def firstInt (word : String) (line : List Char) : Except PyError Nat :=
  match Text.findInt word.toList line with
  | some n => .ok n
  | none => .error .indexError

/-- What `generate_test_set` reads in the output of a test. -/
def decodeReport (stdout : String) : Except PyError (Nat × Nat) :=
  match Text.splitlines stdout.toList with
  | [minNodesStr, maxNodesStr] => do
    let minNodes ← firstInt "min_nodes=" minNodesStr
    let maxNodes ← firstInt "max_nodes=" maxNodesStr
    return (minNodes, maxNodes)
  | _ => .error .valueError

/-- `test_sets[use_vms]` gets one more test. -/
def addTest (useVms : Int) (test : String) : List TestSet → List TestSet
  | [] => [⟨useVms, [test]⟩]
  | s :: sets =>
    if s.vms = useVms then ⟨s.vms, s.tests ++ [test]⟩ :: sets else s :: addTest useVms test sets

def WHITE : String := "\x1b[97m"

def NORMAL : String := "\x1b[0m"

def canNotRun (test : String) (nVms minNodes : Nat) : String :=
  "Can not run " ++ WHITE ++ test ++ NORMAL ++ " with " ++ toString nVms ++ " VMs, need "
    ++ toString minNodes ++ " at minimum"

/-- The body of the loop over the tests; `report` runs a test with `--report-and-quit`. -/
def scheduleTest (report : String → Except PyError String) (nVms : Nat) (schedule : Schedule)
    (test : String) : Except PyError Schedule := do
  let stdout ← report test
  let (minNodes, maxNodes) ← decodeReport stdout
  if minNodes ≤ nVms then
    return { schedule with sets := addTest (min nVms maxNodes : Nat) test schedule.sets }
  else
    return { schedule with printed := schedule.printed ++ [canNotRun test nVms minNodes] }

def generateTestSet (report : String → Except PyError String) (tests : List String) (nVms : Nat) :
    Except PyError Schedule :=
  tests.foldlM (scheduleTest report nVms) ⟨[], []⟩

/-- `subprocess.run` with `check=True`: a test that ends in an exception has exit code 1. -/
def runReport (args : String → NodeArgs) (test : String) : Except PyError String :=
  match reportAndQuit (args test) with
  | .ok stdout => .ok stdout
  | .error _ => .error (.calledProcessError 1)

/-! ## Decoding -/

/-- The bounds that a report can carry: both are there, and the maximum is not zero. -/
def NodeArgs.Reportable (a : NodeArgs) : Prop :=
  (∃ minNodes ∈ a.minimum, 0 ≤ minNodes) ∧ ∃ maxNodes ∈ a.maximum, 0 < maxNodes

instance (a : NodeArgs) : Decidable a.Reportable := by
  unfold NodeArgs.Reportable
  infer_instance

/-- `min_nodes` is not above `max_nodes` when both are given. -/
def NodeArgs.Ordered (a : NodeArgs) : Prop :=
  ∀ minNodes ∈ a.minNodes, ∀ maxNodes ∈ a.maxNodes, minNodes ≤ maxNodes

instance (a : NodeArgs) : Decidable a.Ordered := by
  unfold NodeArgs.Ordered
  infer_instance

variable {a : NodeArgs}

theorem NodeArgs.Ordered.le (h : a.Ordered) {minNodes maxNodes : Int}
    (hmin : a.minimum = some minNodes) (hmax : a.maximum = some maxNodes) : minNodes ≤ maxNodes := by
  unfold NodeArgs.minimum at hmin
  unfold NodeArgs.maximum at hmax
  rcases hn : a.nodes with _ | nodes
  · rw [hn] at hmin hmax
    exact h minNodes hmin maxNodes hmax
  · rw [hn] at hmin hmax
    cases hmin
    cases hmax
    exact Int.le_refl _

theorem isLineBoundary_digit {c : Char} (h : c.isDigit) : Text.isLineBoundary c = false := by
  have hle : 48 ≤ c.toNat ∧ c.toNat ≤ 57 := by
    simpa [Char.isDigit, UInt32.le_iff_toNat_le] using h
  simp [Text.isLineBoundary]
  omega

theorem mem_toList_toString {n : Nat} {c : Char} (h : c ∈ (toString n).toList) : c.isDigit := by
  rw [Nat.toString_eq_ofList_toDigits, String.toList_ofList] at h
  exact Nat.isDigit_of_mem_toDigits (by omega) (by omega) h

/-- A line of the report, with the number it ends with. -/
theorem firstInt_line {word : String} (hw : word ≠ "") (n : Nat) :
    firstInt word (word ++ toString n).toList = .ok n := by
  have hne : word.toList ≠ [] := fun h => hw (String.toList_inj.mp (by simpa using h))
  rw [firstInt, String.toList_append, Nat.toString_eq_ofList_toDigits, String.toList_ofList,
    Text.findInt_toDigits _ hne]

theorem splitlines_line (word : String)
    (hw : (word.toList.all fun c => !Text.isLineBoundary c) = true)
    {number : String} (hn : ∀ c ∈ number.toList, Text.isLineBoundary c = false) (rest : String) :
    Text.splitlines (word ++ number ++ "\n" ++ rest).toList =
      (word ++ number).toList :: Text.splitlines rest.toList := by
  have happend : (word ++ number ++ "\n" ++ rest).toList =
      (word ++ number).toList ++ '\n' :: rest.toList := by simp
  rw [happend, Text.splitlines_append]
  intro c hc
  rw [String.toList_append, List.mem_append] at hc
  rcases hc with hc | hc
  · simpa using List.all_eq_true.mp hw c hc
  · exact hn c hc

theorem toString_int_line (n : Int) : ∀ c ∈ (toString n).toList, Text.isLineBoundary c = false := by
  intro c hc
  rcases n with n | n
  · exact isLineBoundary_digit (mem_toList_toString (n := n) hc)
  · have hcons : (toString (Int.negSucc n)).toList = '-' :: (toString (n + 1)).toList := by
      change ("-" ++ toString (n + 1)).toList = _
      simp
    rw [hcons] at hc
    rcases List.mem_cons.mp hc with rfl | hc
    · decide
    · exact isLineBoundary_digit (mem_toList_toString hc)

/-- A report with both bounds is decoded into them. -/
theorem decodeReport_of_bounds {minNodes maxNodes : Nat} (hmin : a.minimum = some (minNodes : Int))
    (hmax : a.maximum = some (maxNodes : Int)) (hpos : 0 < maxNodes) :
    ∃ stdout, reportAndQuit a = .ok stdout ∧ decodeReport stdout = .ok (minNodes, maxNodes) := by
  have hne : (maxNodes : Int) ≠ 0 := by omega
  refine ⟨"min_nodes=" ++ toString (minNodes : Int) ++ "\n" ++
    ("max_nodes=" ++ toString (maxNodes : Int) ++ "\n"), ?_, ?_⟩
  · simp only [reportAndQuit, hmin, hmax, if_pos hne]
  · have hlast := splitlines_line "max_nodes=" (by decide) (toString_int_line maxNodes) ""
    rw [String.append_empty] at hlast
    have hlines := splitlines_line "min_nodes=" (by decide) (toString_int_line minNodes)
      ("max_nodes=" ++ toString (maxNodes : Int) ++ "\n")
    rw [hlast] at hlines
    have hfirst : firstInt "min_nodes=" ("min_nodes=" ++ toString (minNodes : Int)).toList
        = .ok minNodes := firstInt_line (by decide) minNodes
    have hsecond : firstInt "max_nodes=" ("max_nodes=" ++ toString (maxNodes : Int)).toList
        = .ok maxNodes := firstInt_line (by decide) maxNodes
    rw [decodeReport, hlines]
    change (firstInt _ _ >>= fun minNodes => firstInt _ _ >>= fun maxNodes => _) = _
    rw [hfirst]
    change (firstInt _ _ >>= fun maxNodes => _) = _
    rw [hsecond]
    rfl

theorem NodeArgs.Reportable.bounds (h : a.Reportable) : ∃ minNodes maxNodes : Nat,
    a.minimum = some (minNodes : Int) ∧ a.maximum = some (maxNodes : Int) ∧ 0 < maxNodes := by
  obtain ⟨⟨minNodes, hmin, hnonneg⟩, maxNodes, hmax, hpos⟩ := h
  obtain ⟨m, rfl⟩ := Int.eq_ofNat_of_zero_le hnonneg
  obtain ⟨k, rfl⟩ := Int.eq_ofNat_of_zero_le (Int.le_of_lt hpos)
  exact ⟨m, k, hmin, hmax, by omega⟩

/-- A negative number is not matched. -/
theorem firstInt_negative (n : Nat) :
    firstInt "min_nodes=" ("min_nodes=" ++ toString (Int.negSucc n)).toList = .error .indexError := by
  have htext : ("min_nodes=" ++ toString (Int.negSucc n)).toList =
      ('m' :: "in_nodes=".toList) ++ '-' :: (toString (n + 1)).toList := by
    change ("min_nodes=" ++ ("-" ++ toString (n + 1))).toList = _
    simp
  have hnot : 'm' ∉ "in_nodes=".toList ++ '-' :: (toString (n + 1)).toList := by
    rw [List.mem_append, List.mem_cons]
    rintro (h | h | h)
    · revert h
      decide
    · revert h
      decide
    · exact absurd (mem_toList_toString h) (by decide)
  have hnone : Text.findInt "min_nodes=".toList ("min_nodes=" ++ toString (Int.negSucc n)).toList
      = none := by
    rw [htext]
    exact Text.findInt_of_no_digit (by decide) hnot
  rw [firstInt, hnone]

/-- Only a report with both bounds can be decoded. -/
theorem reportable_of_decode {stdout : String} {bounds : Nat × Nat} (h : a.Ordered)
    (hreport : reportAndQuit a = .ok stdout) (hdecode : decodeReport stdout = .ok bounds) :
    a.Reportable := by
  rcases hmin : a.minimum with _ | minNodes
  · simp [reportAndQuit, hmin] at hreport
  have hline := splitlines_line "min_nodes=" (by decide) (toString_int_line minNodes)
  -- without a second line the output cannot be unpacked
  have hshort : stdout ≠ "min_nodes=" ++ toString minNodes ++ "\n" ++ "" := by
    rintro rfl
    rw [decodeReport, hline] at hdecode
    cases hdecode
  rcases hmax : a.maximum with _ | maxNodes
  · simp only [reportAndQuit, hmin, hmax] at hreport
    exact absurd (Except.ok.inj hreport).symm hshort
  by_cases hzero : maxNodes = 0
  · simp only [reportAndQuit, hmin, hmax, hzero, ne_eq, not_true_eq_false, if_false] at hreport
    exact absurd (Except.ok.inj hreport).symm hshort
  · have hle := h.le hmin hmax
    have hnonneg : 0 ≤ minNodes := by
      by_contra hneg
      obtain ⟨n, rfl⟩ := Int.eq_negSucc_of_lt_zero (Int.not_le.mp hneg)
      simp only [reportAndQuit, hmin, hmax, if_pos hzero] at hreport
      have hlast := splitlines_line "max_nodes=" (by decide) (toString_int_line maxNodes) ""
      rw [String.append_empty] at hlast
      rw [← Except.ok.inj hreport, decodeReport, hline, hlast] at hdecode
      change (firstInt _ _ >>= fun minNodes => _) = _ at hdecode
      rw [firstInt_negative] at hdecode
      cases hdecode
    exact ⟨⟨minNodes, hmin, hnonneg⟩, maxNodes, hmax, by omega⟩

/-! ## The test sets -/

/-- There is a test set for this number of VMs with the test. -/
def Has (sets : List TestSet) (vms : Int) (test : String) : Prop :=
  ∃ s ∈ sets, s.vms = vms ∧ test ∈ s.tests

theorem has_addTest {sets : List TestSet} {useVms vms : Int} {test test' : String} :
    Has (addTest useVms test sets) vms test' ↔ Has sets vms test' ∨ vms = useVms ∧ test' = test := by
  induction sets with
  | nil => simp [addTest, Has, eq_comm]
  | cons s sets ih =>
    unfold addTest
    split
    · rename_i hs
      simp only [Has, List.mem_cons, exists_eq_or_imp, List.mem_append,
        List.not_mem_nil, or_false]
      subst hs
      constructor
      · rintro (⟨hv, hm | rfl⟩ | h)
        · exact Or.inl (Or.inl ⟨hv, hm⟩)
        · exact Or.inr ⟨hv.symm, rfl⟩
        · exact Or.inl (Or.inr h)
      · rintro ((⟨hv, hm⟩ | h) | ⟨rfl, rfl⟩)
        · exact Or.inl ⟨hv, Or.inl hm⟩
        · exact Or.inr h
        · exact Or.inl ⟨rfl, Or.inr rfl⟩
    · have hcons : ∀ l : List TestSet, Has (s :: l) vms test' ↔
          (s.vms = vms ∧ test' ∈ s.tests) ∨ Has l vms test' := fun l => by simp [Has]
      rw [hcons, hcons, ih, or_assoc]

theorem mem_vms_addTest {sets : List TestSet} {useVms vms : Int} {test : String} :
    vms ∈ (addTest useVms test sets).map TestSet.vms ↔
      vms ∈ sets.map TestSet.vms ∨ vms = useVms := by
  induction sets with
  | nil => simp [addTest]
  | cons s sets ih =>
    unfold addTest
    split
    · rename_i hs
      simp only [List.map_cons, List.mem_cons, hs]
      tauto
    · rw [List.map_cons, List.mem_cons, ih, List.map_cons, List.mem_cons, or_assoc]

theorem nodup_addTest {sets : List TestSet} {useVms : Int} {test : String}
    (h : (sets.map TestSet.vms).Nodup) : ((addTest useVms test sets).map TestSet.vms).Nodup := by
  induction sets with
  | nil => simp [addTest]
  | cons s sets ih =>
    rw [List.map_cons, List.nodup_cons] at h
    unfold addTest
    split
    · rw [List.map_cons, List.nodup_cons]
      exact h
    · rename_i hs
      rw [List.map_cons, List.nodup_cons, mem_vms_addTest, not_or]
      exact ⟨⟨h.1, hs⟩, ih h.2⟩

/-- The schedule after the loop has passed some tests, all of which can be decoded. -/
structure Schedules (args : String → NodeArgs) (nVms : Nat) (done : List String)
    (schedule : Schedule) : Prop where
  nodup : (schedule.sets.map TestSet.vms).Nodup
  has : ∀ vms test, Has schedule.sets vms test ↔ test ∈ done ∧
    ∃ minNodes maxNodes : Nat, (args test).minimum = some (minNodes : Int) ∧
      (args test).maximum = some (maxNodes : Int) ∧ minNodes ≤ nVms ∧
      vms = (min nVms maxNodes : Nat)
  printed : ∀ test ∈ done, ∀ minNodes : Nat, (args test).minimum = some (minNodes : Int) →
    nVms < minNodes → canNotRun test nVms minNodes ∈ schedule.printed

variable {args : String → NodeArgs} {nVms : Nat} {done : List String} {schedule : Schedule}
  {test : String}

/-- One iteration. -/
theorem Schedules.next (h : Schedules args nVms done schedule) (hr : (args test).Reportable) :
    ∃ schedule', scheduleTest (runReport args) nVms schedule test = .ok schedule' ∧
      Schedules args nVms (done ++ [test]) schedule' := by
  obtain ⟨minNodes, maxNodes, hmin, hmax, hpos⟩ := hr.bounds
  obtain ⟨stdout, hreport, hdecode⟩ := decodeReport_of_bounds hmin hmax hpos
  have hrun : runReport args test = .ok stdout := by rw [runReport, hreport]
  have hstep : scheduleTest (runReport args) nVms schedule test =
      if minNodes ≤ nVms then
        .ok { schedule with sets := addTest (min nVms maxNodes : Nat) test schedule.sets }
      else .ok { schedule with printed := schedule.printed ++ [canNotRun test nVms minNodes] } := by
    rw [scheduleTest, hrun]
    change (decodeReport stdout >>= _) = _
    rw [hdecode]
    rfl
  have hbounds : ∀ {k l : Nat}, (args test).minimum = some (k : Int) →
      (args test).maximum = some (l : Int) → k = minNodes ∧ l = maxNodes := by
    intro k l hk hl
    rw [hmin] at hk
    rw [hmax] at hl
    have hk' := Option.some.inj hk
    have hl' := Option.some.inj hl
    omega
  rw [hstep]
  by_cases hle : minNodes ≤ nVms
  · rw [if_pos hle]
    refine ⟨_, rfl, nodup_addTest h.nodup, fun vms test' => ?_, fun test' ht k hk hlt => ?_⟩
    · rw [has_addTest, h.has, List.mem_append, List.mem_singleton]
      constructor
      · rintro (⟨hd, hex⟩ | ⟨rfl, rfl⟩)
        · exact ⟨Or.inl hd, hex⟩
        · exact ⟨Or.inr rfl, minNodes, maxNodes, hmin, hmax, hle, rfl⟩
      · rintro ⟨hd | rfl, hex⟩
        · exact Or.inl ⟨hd, hex⟩
        · obtain ⟨k, l, hk, hl, -, rfl⟩ := hex
          obtain ⟨-, rfl⟩ := hbounds hk hl
          exact Or.inr ⟨rfl, rfl⟩
    · rcases List.mem_append.mp ht with ht | ht
      · exact h.printed test' ht k hk hlt
      · obtain rfl := List.mem_singleton.mp ht
        obtain ⟨rfl, -⟩ := hbounds hk hmax
        omega
  · rw [if_neg hle]
    refine ⟨_, rfl, h.nodup, fun vms test' => ?_, fun test' ht k hk hlt => ?_⟩
    · rw [h.has, List.mem_append, List.mem_singleton]
      constructor
      · rintro ⟨hd, hex⟩
        exact ⟨Or.inl hd, hex⟩
      · rintro ⟨hd | rfl, hex⟩
        · exact ⟨hd, hex⟩
        · obtain ⟨k, l, hk, hl, hkn, -⟩ := hex
          obtain ⟨rfl, -⟩ := hbounds hk hl
          exact absurd hkn hle
    · rcases List.mem_append.mp ht with ht | ht
      · exact List.mem_append_left _ (h.printed test' ht k hk hlt)
      · obtain rfl := List.mem_singleton.mp ht
        obtain ⟨rfl, -⟩ := hbounds hk hmax
        exact List.mem_append_right _ (List.mem_singleton.mpr rfl)

theorem Schedules.tests (h : Schedules args nVms done schedule) {tests : List String}
    (hr : ∀ test ∈ tests, (args test).Reportable) :
    ∃ schedule', tests.foldlM (scheduleTest (runReport args) nVms) schedule = .ok schedule' ∧
      Schedules args nVms (done ++ tests) schedule' := by
  induction tests generalizing done schedule with
  | nil => exact ⟨schedule, rfl, by simpa using h⟩
  | cons test tests ih =>
    obtain ⟨schedule₁, hstep, h₁⟩ := h.next (hr test (by simp))
    obtain ⟨schedule₂, hrest, h₂⟩ := ih h₁ fun test' ht => hr test' (by simp [ht])
    refine ⟨schedule₂, ?_, by simpa using h₂⟩
    rw [List.foldlM_cons, hstep]
    exact hrest

/-- All reports were decoded when the loop did not raise. -/
theorem decoded_of_foldlM {tests : List String} {schedule' : Schedule}
    (h : tests.foldlM (scheduleTest (runReport args) nVms) schedule = .ok schedule') :
    ∀ test ∈ tests, ∃ stdout bounds, reportAndQuit (args test) = .ok stdout ∧
      decodeReport stdout = .ok bounds := by
  induction tests generalizing schedule with
  | nil => simp
  | cons test tests ih =>
    rw [List.foldlM_cons] at h
    rcases hstep : scheduleTest (runReport args) nVms schedule test with e | schedule₁
    · rw [hstep] at h
      cases h
    rw [hstep] at h
    rintro test' (_ | ⟨_, ht⟩)
    · rcases hreport : reportAndQuit (args test) with e | stdout
      · simp only [scheduleTest, runReport, hreport] at hstep
        cases hstep
      · refine ⟨stdout, ?_⟩
        rcases hdecode : decodeReport stdout with e | bounds
        · have hrun : runReport args test = .ok stdout := by rw [runReport, hreport]
          rw [scheduleTest, hrun] at hstep
          change (decodeReport stdout >>= _) = _ at hstep
          rw [hdecode] at hstep
          cases hstep
        · exact ⟨bounds, rfl, rfl⟩
    · exact ih h test' ht

/-! ## Agreement -/

/-- The number of VMs is one that `setup` accepts. -/
theorem checkHosts_min {minNodes maxNodes : Nat} (hmin : a.minimum = some (minNodes : Int))
    (hmax : a.maximum = some (maxNodes : Int)) (hle : minNodes ≤ nVms) (hmm : minNodes ≤ maxNodes) :
    checkHosts a (min nVms maxNodes) false = .ok .run := by
  have hlow : ¬ ((min nVms maxNodes : Nat) : Int) < minNodes := by omega
  have hhigh : ¬ ((maxNodes : Int) < (min nVms maxNodes : Nat)) := by omega
  have hexact : ¬ ((some (maxNodes : Int)).isSome ∧ some (minNodes : Int) = some (maxNodes : Int) ∧
      some (minNodes : Int) ≠ some ((min nVms maxNodes : Nat) : Int)) := by
    rintro ⟨-, he, hne⟩
    have he' := Option.some.inj he
    refine hne (congrArg some ?_)
    omega
  simp only [checkHosts, hmin, hmax]
  rw [if_neg hexact, if_neg hlow, if_neg fun h => hhigh h.1]

/-- `generate_test_set` and `setup` agree about one test. -/
def Agrees (a : NodeArgs) (nVms : Nat) (test : String) (schedule : Schedule) : Prop :=
  ∃ (stdout : String) (minNodes maxNodes : Nat), reportAndQuit a = .ok stdout ∧
    decodeReport stdout = .ok (minNodes, maxNodes) ∧
    a.minimum = some (minNodes : Int) ∧ a.maximum = some (maxNodes : Int) ∧
    ((nVms < minNodes ∧ canNotRun test nVms minNodes ∈ schedule.printed ∧
        ∀ s ∈ schedule.sets, test ∉ s.tests) ∨
      ∃ s ∈ schedule.sets, test ∈ s.tests ∧ (∀ s' ∈ schedule.sets, test ∈ s'.tests → s' = s) ∧
        ∃ u : Nat, s.vms = u ∧ u ≤ nVms ∧ checkHosts a u false = .ok .run)

theorem Schedules.agrees (h : Schedules args nVms done schedule) (ht : test ∈ done)
    (hr : (args test).Reportable) (ho : (args test).Ordered) :
    Agrees (args test) nVms test schedule := by
  obtain ⟨minNodes, maxNodes, hmin, hmax, hpos⟩ := hr.bounds
  obtain ⟨stdout, hreport, hdecode⟩ := decodeReport_of_bounds hmin hmax hpos
  have hmm : minNodes ≤ maxNodes := by
    have hle := ho.le hmin hmax
    omega
  refine ⟨stdout, minNodes, maxNodes, hreport, hdecode, hmin, hmax, ?_⟩
  have hwhere : ∀ s ∈ schedule.sets, test ∈ s.tests →
      minNodes ≤ nVms ∧ s.vms = (min nVms maxNodes : Nat) := by
    intro s hs hts
    obtain ⟨-, k, l, hk, hl, hkn, hv⟩ := (h.has s.vms test).mp ⟨s, hs, rfl, hts⟩
    rw [hmin] at hk
    rw [hmax] at hl
    have hk' := Option.some.inj hk
    have hl' := Option.some.inj hl
    obtain rfl : k = minNodes := by omega
    obtain rfl : l = maxNodes := by omega
    exact ⟨hkn, hv⟩
  by_cases hle : minNodes ≤ nVms
  · obtain ⟨s, hs, hv, hts⟩ := (h.has (min nVms maxNodes : Nat) test).mpr
      ⟨ht, minNodes, maxNodes, hmin, hmax, hle, rfl⟩
    refine Or.inr ⟨s, hs, hts, fun s' hs' hts' => ?_, min nVms maxNodes, hv, Nat.min_le_left _ _,
      checkHosts_min hmin hmax hle hmm⟩
    exact List.inj_on_of_nodup_map h.nodup hs' hs ((hwhere s' hs' hts').2.trans hv.symm)
  · have hlt : nVms < minNodes := by omega
    exact Or.inl ⟨hlt, h.printed test ht minNodes hmin hlt, fun s hs hts => hle (hwhere s hs hts).1⟩

/-- `generate_test_set` schedules all tests as `setup` accepts them exactly when both bounds
of each are set, the minimum is not negative, and the maximum is not zero. -/
theorem schedule_agrees_iff (args : String → NodeArgs) (tests : List String) (nVms : Nat)
    (h : ∀ test ∈ tests, (args test).Ordered) :
    (∃ schedule, generateTestSet (runReport args) tests nVms = .ok schedule ∧
      ∀ test ∈ tests, Agrees (args test) nVms test schedule) ↔
    ∀ test ∈ tests, (args test).Reportable := by
  constructor
  · rintro ⟨schedule, hgen, -⟩ test ht
    obtain ⟨stdout, bounds, hreport, hdecode⟩ := decoded_of_foldlM hgen test ht
    exact reportable_of_decode (h test ht) hreport hdecode
  · intro hr
    have hstart : Schedules args nVms [] ⟨[], []⟩ := ⟨by simp, by simp [Has], by simp⟩
    obtain ⟨schedule, hgen, hs⟩ := hstart.tests hr
    refine ⟨schedule, hgen, fun test ht => ?_⟩
    exact hs.agrees (by simpa using ht) (hr test ht) (h test ht)

/-- Tests with an exact number of nodes, with bounds, and with bounds that are too high. -/
def someArgs (test : String) : NodeArgs :=
  if test = "exact" then ⟨some 3, some 2, none⟩
  else if test = "range" then ⟨none, some 2, some 5⟩
  else ⟨none, some 6, some 8⟩

theorem schedule_agrees_iff_some :
    (∃ schedule, generateTestSet (runReport someArgs) ["exact", "range", "large"] 4 = .ok schedule ∧
      ∀ test ∈ ["exact", "range", "large"], Agrees (someArgs test) 4 test schedule) ↔
    ∀ test ∈ ["exact", "range", "large"], (someArgs test).Reportable :=
  schedule_agrees_iff someArgs ["exact", "range", "large"] 4 (by decide)

/-- A test that calls `setup` with its defaults has no maximum. -/
theorem no_schedule_without_maximum :
    NodeArgs.default.Ordered ∧
    ¬ ∃ schedule, generateTestSet (runReport fun _ => NodeArgs.default) ["test"] 4 = .ok schedule ∧
      ∀ test ∈ ["test"], Agrees NodeArgs.default 4 test schedule := by
  refine ⟨by decide, ?_⟩
  rintro ⟨schedule, hgen, -⟩
  have hraise : generateTestSet (runReport fun _ => NodeArgs.default) ["test"] 4
      = .error .valueError := by decide
  rw [hraise] at hgen
  cases hgen

end DrbdTests
