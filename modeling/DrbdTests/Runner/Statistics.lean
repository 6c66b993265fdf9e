import Mathlib.Algebra.Order.Field.Rat
import Mathlib.Data.Prod.Lex
import Mathlib.Order.WithBot
import DrbdTests.Error
import DrbdTests.Lib.Dict

/-!
# The statistics of the test runner

`find_statistics` tallies the results of a database: for each test, how many there are, how
many are successes, and the run time of these (`tallied_totals`). From the totals it computes
a success rate, and an average run time for the tests that succeeded at least once. A test
without the one has the success rate 0, and so `analyze` can compare the statistics of any two
tests (`statistics_correct`). Times are rational numbers.
-/

namespace DrbdTests.Runner

/-- What is recorded about a run. -/
structure TestResult where
  exitCode : Option Int
  runTime : ℚ
  timeout : Bool
  nodes : Nat
  deriving DecidableEq

/-- The `results` of an iteration. -/
abbrev Results := Dict String TestResult

structure Times where
  time : ℚ
  count : Nat

structure Successes where
  successes : Nat
  count : Nat

/-- The totals of `find_statistics`. -/
structure Totals where
  totalTimes : Dict String Times
  totalSuccesses : Dict String Successes

def Totals.start : Totals := ⟨.empty, .empty⟩

/-- The body of the inner loop. -/
def Totals.tally (t : Totals) (entry : String × TestResult) : Totals :=
  let (name, params) := entry
  let v := (t.totalSuccesses.get? name).getD ⟨0, 0⟩
  if params.exitCode = some 0 then
    let time := (t.totalTimes.get? name).getD ⟨0, 0⟩
    { totalTimes := t.totalTimes.set name ⟨time.time + params.runTime, time.count + 1⟩
      totalSuccesses := t.totalSuccesses.set name ⟨v.successes + 1, v.count + 1⟩ }
  else { t with totalSuccesses := t.totalSuccesses.set name ⟨v.successes, v.count + 1⟩ }

def totals (resultDb : List Results) : Totals :=
  resultDb.foldl (fun t result => result.entries.foldl Totals.tally t) Totals.start

/-- `a / n` -/
def divide (a : ℚ) (n : Nat) : Except PyError ℚ :=
  if n = 0 then .error .zeroDivisionError else .ok (a / n)

/-- The statistics of a test: a dictionary in which each key may be absent. -/
structure Statistic where
  averageRuntime : Option ℚ
  successRate : Option ℚ
  count : Option Nat
  deriving DecidableEq

def Statistic.empty : Statistic := ⟨none, none, none⟩

/-- The body of the loop over `total_times`. -/
def setAverage (v : Times) (statistic : Option Statistic) : Except PyError Statistic := do
  let av ← divide v.time v.count
  return { statistic.getD .empty with averageRuntime := some av }

/-- The body of the loop over `total_successes`. -/
def setRate (v : Successes) (statistic : Option Statistic) : Except PyError Statistic := do
  let av ← divide v.successes v.count
  return { statistic.getD .empty with successRate := some av, count := some v.count }

def findStatistics (resultDb : List Results) (statistics : Dict String Statistic) :
    Except PyError (Dict String Statistic) := do
  let t := totals resultDb
  let statistics ← t.totalTimes.entries.foldlM (fun statistics entry =>
    (setAverage entry.2 (statistics.get? entry.1)).map (statistics.set entry.1)) statistics
  t.totalSuccesses.entries.foldlM (fun statistics entry =>
    (setRate entry.2 (statistics.get? entry.1)).map (statistics.set entry.1)) statistics

/-! ## `analyze` -/

abbrev SortKey := ℚ × Option ℚ

/-- `(x[1]['success_rate'], x[1].get('average_runtime'))` -/
def sortKey (x : String × Statistic) : Except PyError SortKey :=
  match x.2.successRate with
  | some rate => .ok (rate, x.2.averageRuntime)
  | none => .error .keyError

/-- The comparison of two tuples: by the first elements that differ. -/
def SortKey.lt (a b : SortKey) : Except PyError Bool :=
  if a.1 ≠ b.1 then .ok (a.1 < b.1)
  else if a.2 = b.2 then .ok false
  else
    match a.2, b.2 with
    | some x, some y => .ok (x < y)
    | _, _ => .error .typeError

/-- A list in descending order with one more element, in front of equal ones. -/
def insertDescending {α : Type} (x : SortKey × α) :
    List (SortKey × α) → Except PyError (List (SortKey × α))
  | [] => .ok [x]
  | y :: ys => do
    if ← x.1.lt y.1 then return y :: (← insertDescending x ys)
    else return x :: y :: ys

/-- `sorted(..., reverse=True)`, which is stable. Which pairs are compared is up to the
algorithm; here it is insertion. -/
def sortDescending {α : Type} : List (SortKey × α) → Except PyError (List (SortKey × α))
  | [] => .ok []
  | x :: xs => do insertDescending x (← sortDescending xs)

/-- The keys are computed before any two of them are compared. -/
def withKeys : List (String × Statistic) → Except PyError (List (SortKey × (String × Statistic)))
  | [] => .ok []
  | x :: xs => do return (← sortKey x, x) :: (← withKeys xs)

/-- `sorted_stats` -/
def analyze (resultDb : List Results) : Except PyError (List (String × Statistic)) := do
  let statistics ← findStatistics resultDb .empty
  let sorted ← sortDescending (← withKeys statistics.entries)
  return sorted.map Prod.snd

/-! ## The totals -/

/-- The results of a test. -/
def resultsOf (name : String) (all : List (String × TestResult)) : List TestResult :=
  (all.filter (·.1 = name)).map Prod.snd

def successesOf (results : List TestResult) : List TestResult :=
  results.filter (·.exitCode = some 0)

/-- The sum of the run times. -/
def timeOf (results : List TestResult) : ℚ := (results.map TestResult.runTime).sum

/-- The totals of the given results: a test is there with its first result, and its times with
its first success. -/
structure Tallied (all : List (String × TestResult)) (t : Totals) : Prop where
  successes : ∀ name, t.totalSuccesses.get? name = if resultsOf name all = [] then none else
    some ⟨(successesOf (resultsOf name all)).length, (resultsOf name all).length⟩
  times : ∀ name, t.totalTimes.get? name = if successesOf (resultsOf name all) = [] then none else
    some ⟨timeOf (successesOf (resultsOf name all)), (successesOf (resultsOf name all)).length⟩

variable {all : List (String × TestResult)} {t : Totals} {name : String} {params : TestResult}

theorem resultsOf_append (all' : List (String × TestResult)) :
    resultsOf name (all ++ all') = resultsOf name all ++ resultsOf name all' := by
  rw [resultsOf, List.filter_append, List.map_append]
  rfl

theorem resultsOf_self : resultsOf name [(name, params)] = [params] := by
  simp [resultsOf]

theorem resultsOf_other {name' : String} (h : name' ≠ name) :
    resultsOf name' [(name, params)] = [] := by
  simp [resultsOf, Ne.symm h]

theorem successesOf_append (results results' : List TestResult) :
    successesOf (results ++ results') = successesOf results ++ successesOf results' :=
  List.filter_append results results'

theorem successesOf_success (h : params.exitCode = some 0) : successesOf [params] = [params] := by
  simp [successesOf, h]

theorem successesOf_failure (h : params.exitCode ≠ some 0) : successesOf [params] = [] := by
  simp [successesOf, h]

theorem timeOf_append (results results' : List TestResult) :
    timeOf (results ++ results') = timeOf results + timeOf results' := by
  rw [timeOf, List.map_append, List.sum_append]
  rfl

theorem tallied_start : Tallied [] Totals.start := ⟨fun _ => rfl, fun _ => rfl⟩

/-- The counters of a test so far, also before its first result. -/
theorem Tallied.successes_getD (h : Tallied all t) (name : String) :
    (t.totalSuccesses.get? name).getD ⟨0, 0⟩ =
      ⟨(successesOf (resultsOf name all)).length, (resultsOf name all).length⟩ := by
  rw [h.successes name]
  by_cases hnil : resultsOf name all = []
  · rw [if_pos hnil, hnil]
    rfl
  · rw [if_neg hnil]
    rfl

theorem Tallied.times_getD (h : Tallied all t) (name : String) :
    (t.totalTimes.get? name).getD ⟨0, 0⟩ = ⟨timeOf (successesOf (resultsOf name all)),
      (successesOf (resultsOf name all)).length⟩ := by
  rw [h.times name]
  by_cases hnil : successesOf (resultsOf name all) = []
  · rw [if_pos hnil, hnil]
    rfl
  · rw [if_neg hnil]
    rfl

theorem Tallied.tally (h : Tallied all t) (name : String) (params : TestResult) :
    Tallied (all ++ [(name, params)]) (t.tally (name, params)) := by
  have hone : ∀ results : List TestResult, results ++ [params] ≠ [] := fun _ => by simp
  by_cases hzero : params.exitCode = some 0
  · have htally : t.tally (name, params) =
        ⟨t.totalTimes.set name ⟨timeOf (successesOf (resultsOf name all)) + params.runTime,
            (successesOf (resultsOf name all)).length + 1⟩,
          t.totalSuccesses.set name ⟨(successesOf (resultsOf name all)).length + 1,
            (resultsOf name all).length + 1⟩⟩ := by
      unfold Totals.tally
      dsimp only
      rw [if_pos hzero, h.successes_getD, h.times_getD]
    rw [htally]
    constructor
    · intro name'
      rw [Dict.get?_set, resultsOf_append]
      by_cases hname : name' = name
      · subst hname
        rw [if_pos rfl, resultsOf_self, if_neg (hone _), successesOf_append,
          successesOf_success hzero, List.length_append, List.length_append]
        rfl
      · rw [if_neg hname, resultsOf_other hname, List.append_nil]
        exact h.successes name'
    · intro name'
      rw [Dict.get?_set, resultsOf_append]
      by_cases hname : name' = name
      · subst hname
        rw [if_pos rfl, resultsOf_self, successesOf_append, successesOf_success hzero,
          if_neg (hone _), timeOf_append, List.length_append]
        simp [timeOf]
      · rw [if_neg hname, resultsOf_other hname, List.append_nil]
        exact h.times name'
  · have htally : t.tally (name, params) =
        ⟨t.totalTimes, t.totalSuccesses.set name ⟨(successesOf (resultsOf name all)).length,
            (resultsOf name all).length + 1⟩⟩ := by
      unfold Totals.tally
      dsimp only
      rw [if_neg hzero, h.successes_getD]
    rw [htally]
    constructor
    · intro name'
      rw [Dict.get?_set, resultsOf_append]
      by_cases hname : name' = name
      · subst hname
        rw [if_pos rfl, resultsOf_self, if_neg (hone _), successesOf_append,
          successesOf_failure hzero, List.append_nil, List.length_append]
        rfl
      · rw [if_neg hname, resultsOf_other hname, List.append_nil]
        exact h.successes name'
    · intro name'
      rw [resultsOf_append]
      by_cases hname : name' = name
      · subst hname
        rw [resultsOf_self, successesOf_append, successesOf_failure hzero, List.append_nil]
        exact h.times name'
      · rw [resultsOf_other hname, List.append_nil]
        exact h.times name'

theorem Tallied.foldl (h : Tallied all t) (entries : List (String × TestResult)) :
    Tallied (all ++ entries) (entries.foldl Totals.tally t) := by
  induction entries generalizing all t with
  | nil =>
    rw [List.append_nil]
    exact h
  | cons entry entries ih =>
    have hstep := ih (h.tally entry.1 entry.2)
    rw [List.append_assoc] at hstep
    exact hstep

/-- The results of a database, in order. -/
def recorded (resultDb : List Results) : List (String × TestResult) :=
  resultDb.flatMap Dict.entries

theorem tallied_totals (resultDb : List Results) : Tallied (recorded resultDb) (totals resultDb) := by
  have hall : ∀ (db : List Results) all t, Tallied all t →
      Tallied (all ++ recorded db) (db.foldl (fun t result => result.entries.foldl Totals.tally t) t) := by
    intro db
    induction db with
    | nil =>
      intro all t h
      rw [recorded, List.flatMap_nil, List.append_nil]
      exact h
    | cons result db ih =>
      intro all t h
      have hstep := ih _ _ (h.foldl result.entries)
      rw [List.append_assoc] at hstep
      exact hstep
  exact hall resultDb [] Totals.start tallied_start

/-! ## The statistics of a test -/

/-- The statistics of a test with the given results. -/
def statisticOf (results : List TestResult) : Statistic where
  averageRuntime := if successesOf results = [] then none else
    some (timeOf (successesOf results) / (successesOf results).length)
  successRate := some ((successesOf results).length / results.length)
  count := some results.length

theorem divide_ok {n : Nat} (h : n ≠ 0) (a : ℚ) : divide a n = .ok (a / n) := if_neg h

theorem findStatistics_ok (resultDb : List Results) :
    ∃ statistics, findStatistics resultDb .empty = .ok statistics ∧
      ∀ name, statistics.get? name = if resultsOf name (recorded resultDb) = [] then none else
        some (statisticOf (resultsOf name (recorded resultDb))) := by
  have h := tallied_totals resultDb
  let average (v : Times) (b : Option Statistic) : Statistic :=
    { b.getD .empty with averageRuntime := some (v.time / v.count) }
  let rate (v : Successes) (b : Option Statistic) : Statistic :=
    { b.getD .empty with successRate := some (v.successes / v.count), count := some v.count }
  have haverage : ∀ entry ∈ (totals resultDb).totalTimes.entries, ∀ b,
      setAverage entry.2 b = .ok (average entry.2 b) := by
    intro entry hmem b
    have hget := h.times entry.1
    rw [Dict.get?_eq_some_iff.mpr hmem] at hget
    split_ifs at hget with hnil
    have hcount : entry.2.count ≠ 0 := by
      rw [Option.some.inj hget]
      exact mt List.length_eq_zero_iff.mp hnil
    rw [setAverage, divide_ok hcount]
    rfl
  have hrate : ∀ entry ∈ (totals resultDb).totalSuccesses.entries, ∀ b,
      setRate entry.2 b = .ok (rate entry.2 b) := by
    intro entry hmem b
    have hget := h.successes entry.1
    rw [Dict.get?_eq_some_iff.mpr hmem] at hget
    split_ifs at hget with hnil
    have hcount : entry.2.count ≠ 0 := by
      rw [Option.some.inj hget]
      exact mt List.length_eq_zero_iff.mp hnil
    rw [setRate, divide_ok hcount]
    rfl
  refine ⟨(totals resultDb).totalSuccesses.updateAll rate
    ((totals resultDb).totalTimes.updateAll average .empty), ?_, ?_⟩
  · unfold findStatistics
    dsimp only
    rw [Dict.foldlM_set _ _ haverage]
    exact Dict.foldlM_set _ _ hrate
  · intro name
    rw [Dict.get?_updateAll, Dict.get?_updateAll, h.successes, h.times]
    by_cases hnil : resultsOf name (recorded resultDb) = []
    · have hnone : successesOf (resultsOf name (recorded resultDb)) = [] := by
        rw [hnil]
        rfl
      rw [if_pos hnil, if_pos hnil, if_pos hnone]
      rfl
    · rw [if_neg hnil, if_neg hnil]
      by_cases hnone : successesOf (resultsOf name (recorded resultDb)) = []
      · rw [if_pos hnone]
        simp only [statisticOf, if_pos hnone]
        rfl
      · rw [if_neg hnone]
        simp only [statisticOf, if_neg hnone]
        rfl

/-! ## Keys that can be compared -/

/-- A missing time is below the others. -/
def timeRank : Option ℚ → WithBot ℚ
  | none => ⊥
  | some time => time

def SortKey.rank (a : SortKey) : ℚ ×ₗ WithBot ℚ := toLex (a.1, timeRank a.2)

/-- Keys with the same rate have both a time, or both none. -/
def SortKey.Comparable (a b : SortKey) : Prop := a.1 = b.1 → (a.2 = none ↔ b.2 = none)

variable {a b : SortKey}

theorem SortKey.lt_eq (h : a.Comparable b) : a.lt b = .ok (decide (a.rank < b.rank)) := by
  obtain ⟨rate, time⟩ := a
  obtain ⟨rate', time'⟩ := b
  have hrank : SortKey.rank (rate, time) < SortKey.rank (rate', time') ↔
      rate < rate' ∨ rate = rate' ∧ timeRank time < timeRank time' := Prod.Lex.lt_iff
  unfold SortKey.lt
  dsimp only
  rw [decide_eq_decide.mpr hrank]
  by_cases hrate : rate = rate'
  · rw [if_neg (not_not_intro hrate)]
    by_cases htime : time = time'
    · subst hrate
      subst htime
      have hnot : ¬ (rate < rate ∨ rate = rate ∧ timeRank time < timeRank time) := by
        simp only [lt_irrefl, and_false, or_self, not_false_eq_true]
      rw [if_pos rfl, decide_eq_false hnot]
    · rw [if_neg htime]
      have hboth : time = none ↔ time' = none := h hrate
      cases time with
      | none => exact absurd (hboth.mp rfl).symm htime
      | some x =>
        cases time' with
        | none => exact absurd (hboth.mpr rfl) htime
        | some y =>
          have hlt : rate < rate' ∨ rate = rate' ∧ timeRank (some x) < timeRank (some y) ↔
              x < y := by
            subst hrate
            simp only [lt_irrefl, true_and, false_or]
            exact WithBot.coe_lt_coe
          rw [decide_eq_decide.mpr hlt]
  · rw [if_pos hrate]
    have hlt : rate < rate' ∨ rate = rate' ∧ timeRank time < timeRank time' ↔
        rate < rate' := by
      simp only [hrate, false_and, or_false]
    rw [decide_eq_decide.mpr hlt]

section Sorting

variable {α : Type} {x : SortKey × α} {xs ys : List (SortKey × α)}

/-- The order of the sorted list. -/
def Descending (xs : List (SortKey × α)) : Prop := xs.Pairwise fun x y => y.1.rank ≤ x.1.rank

theorem insertDescending_ok (hys : ∀ y ∈ ys, x.1.Comparable y.1) (hsorted : Descending ys) :
    ∃ zs, insertDescending x ys = .ok zs ∧ zs.Perm (x :: ys) ∧ Descending zs := by
  induction ys with
  | nil => exact ⟨[x], rfl, .refl _, List.pairwise_singleton _ _⟩
  | cons y ys ih =>
    obtain ⟨hy, hrest⟩ := List.pairwise_cons.mp hsorted
    unfold insertDescending
    rw [SortKey.lt_eq (hys y List.mem_cons_self)]
    by_cases hlt : x.1.rank < y.1.rank
    · obtain ⟨zs, hzs, hperm, hdescending⟩ :=
        ih (fun z hz => hys z (List.mem_cons_of_mem _ hz)) hrest
      refine ⟨y :: zs, ?_, ?_, ?_⟩
      · rw [decide_eq_true hlt, hzs]
        rfl
      · exact (hperm.cons y).trans (List.Perm.swap x y ys)
      · apply List.pairwise_cons.mpr
        refine ⟨?_, hdescending⟩
        intro z hz
        rcases List.mem_cons.mp (hperm.mem_iff.mp hz) with rfl | hz
        · exact hlt.le
        · exact hy z hz
    · refine ⟨x :: y :: ys, ?_, .refl _, ?_⟩
      · rw [decide_eq_false hlt]
        rfl
      · apply List.pairwise_cons.mpr
        refine ⟨?_, hsorted⟩
        intro z hz
        rcases List.mem_cons.mp hz with rfl | hz
        · exact not_lt.mp hlt
        · exact (hy z hz).trans (not_lt.mp hlt)

theorem sortDescending_ok (h : ∀ x ∈ xs, ∀ y ∈ xs, x.1.Comparable y.1) :
    ∃ zs, sortDescending xs = .ok zs ∧ zs.Perm xs ∧ Descending zs := by
  induction xs with
  | nil => exact ⟨[], rfl, .refl _, List.Pairwise.nil⟩
  | cons x xs ih =>
    obtain ⟨ys, hys, hperm, hsorted⟩ :=
      ih fun y hy z hz => h y (List.mem_cons_of_mem _ hy) z (List.mem_cons_of_mem _ hz)
    have hcomparable : ∀ y ∈ ys, x.1.Comparable y.1 := by
      intro y hy
      exact h x List.mem_cons_self y (List.mem_cons_of_mem _ (hperm.mem_iff.mp hy))
    obtain ⟨zs, hzs, hperm', hsorted'⟩ := insertDescending_ok hcomparable hsorted
    refine ⟨zs, ?_, hperm'.trans (hperm.cons x), hsorted'⟩
    rw [sortDescending, hys]
    exact hzs

end Sorting

/-- The key of a test with the given results. -/
def keyOf (results : List TestResult) : SortKey :=
  ((successesOf results).length / results.length,
    if successesOf results = [] then none else
      some (timeOf (successesOf results) / (successesOf results).length))

/-- Without a success, and only then, the rate is 0 and there is no time. -/
theorem keyOf_comparable {results results' : List TestResult} (h : results ≠ [])
    (h' : results' ≠ []) : (keyOf results).Comparable (keyOf results') := by
  have hzero : ∀ results : List TestResult, results ≠ [] →
      ((keyOf results).2 = none ↔ (keyOf results).1 = 0) := by
    intro results hne
    have hlength : (results.length : ℚ) ≠ 0 :=
      Nat.cast_ne_zero.mpr (mt List.length_eq_zero_iff.mp hne)
    unfold keyOf
    dsimp only
    rw [div_eq_zero_iff, Nat.cast_eq_zero, List.length_eq_zero_iff, or_iff_left hlength]
    by_cases hnone : successesOf results = []
    · simp [hnone]
    · simp [hnone]
  intro hrate
  rw [hzero results h, hzero results' h', hrate]

/-- The statistics are those of the recorded results, and all of them can be compared: `analyze`
sorts them. -/
theorem statistics_correct (resultDb : List Results) :
    ∃ statistics sorted, findStatistics resultDb .empty = .ok statistics ∧
      analyze resultDb = .ok sorted ∧
      (∀ name, statistics.get? name = if resultsOf name (recorded resultDb) = [] then none else
        some (statisticOf (resultsOf name (recorded resultDb)))) ∧
      (∀ x ∈ statistics.entries, ∀ y ∈ statistics.entries, ∃ a b less,
        sortKey x = .ok a ∧ sortKey y = .ok b ∧ a.lt b = .ok less) ∧
      sorted.Perm statistics.entries ∧
      sorted.Pairwise fun x y => ∃ a b, sortKey x = .ok a ∧ sortKey y = .ok b ∧
        a.lt b = .ok false := by
  obtain ⟨statistics, hstatistics, hget⟩ := findStatistics_ok resultDb
  let key (x : String × Statistic) : SortKey := keyOf (resultsOf x.1 (recorded resultDb))
  have hentry : ∀ x ∈ statistics.entries, resultsOf x.1 (recorded resultDb) ≠ [] ∧
      sortKey x = .ok (key x) := by
    intro x hx
    have hx' := hget x.1
    rw [Dict.get?_eq_some_iff.mpr hx] at hx'
    split_ifs at hx' with hnil
    refine ⟨hnil, ?_⟩
    rw [sortKey, Option.some.inj hx']
    rfl
  have hcomparable : ∀ x ∈ statistics.entries, ∀ y ∈ statistics.entries,
      (key x).Comparable (key y) := by
    intro x hx y hy
    exact keyOf_comparable (hentry x hx).1 (hentry y hy).1
  have hwith : ∀ entries : List (String × Statistic), (∀ x ∈ entries, sortKey x = .ok (key x)) →
      withKeys entries = .ok (entries.map fun x => (key x, x)) := by
    intro entries hentries
    induction entries with
    | nil => rfl
    | cons x entries ih =>
      rw [withKeys, hentries x List.mem_cons_self,
        ih fun y hy => hentries y (List.mem_cons_of_mem _ hy)]
      rfl
  have hkeyed : ∀ p ∈ statistics.entries.map (fun x => (key x, x)),
      ∀ q ∈ statistics.entries.map (fun x => (key x, x)), p.1.Comparable q.1 := by
    intro p hp q hq
    obtain ⟨x, hx, rfl⟩ := List.mem_map.mp hp
    obtain ⟨y, hy, rfl⟩ := List.mem_map.mp hq
    exact hcomparable x hx y hy
  obtain ⟨zs, hzs, hperm, hsorted⟩ := sortDescending_ok hkeyed
  refine ⟨statistics, zs.map Prod.snd, hstatistics, ?_, hget, ?_, ?_, ?_⟩
  · rw [analyze, hstatistics]
    change (do
      let sorted ← sortDescending (← withKeys statistics.entries)
      return sorted.map Prod.snd) = _
    rw [hwith _ fun x hx => (hentry x hx).2]
    change (do
      let sorted ← sortDescending (statistics.entries.map fun x => (key x, x))
      return sorted.map Prod.snd) = _
    rw [hzs]
    rfl
  · intro x hx y hy
    exact ⟨key x, key y, _, (hentry x hx).2, (hentry y hy).2, SortKey.lt_eq (hcomparable x hx y hy)⟩
  · have hmap := hperm.map Prod.snd
    rw [List.map_map] at hmap
    rwa [show Prod.snd ∘ (fun x => (key x, x)) = id from rfl, List.map_id] at hmap
  · rw [List.pairwise_map]
    apply hsorted.imp_of_mem
    intro p q hp hq hle
    obtain ⟨x, hx, rfl⟩ := List.mem_map.mp (hperm.mem_iff.mp hp)
    obtain ⟨y, hy, rfl⟩ := List.mem_map.mp (hperm.mem_iff.mp hq)
    refine ⟨key x, key y, (hentry x hx).2, (hentry y hy).2, ?_⟩
    rw [SortKey.lt_eq (hcomparable x hx y hy), decide_eq_false (not_lt.mpr hle)]

end DrbdTests.Runner
