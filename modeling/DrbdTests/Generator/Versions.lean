import DrbdTests.Error
import DrbdTests.Lib.Text
import Mathlib.Data.List.Lex
import Mathlib.Data.String.Basic
import Mathlib.Order.WithBot

/-!
# Versions

The version lists of `vmshed_tests_generator.py`, and their comparison. `is_lower` is the
lexicographic order of the keys of the lists: in a key, `*` is above everything else, and
what follows it is left out (`isLower_eq`). Hence it is a weak order, and of two versions
the lower one can stand for both (`lowerVersion_eq`).
-/

namespace DrbdTests.Generator

/-- An element of a version: an integer, `float('inf')`, or a string. -/
inductive Element
  | number (n : Nat)
  | infinity
  | text (s : String)
  deriving DecidableEq, Repr

abbrev Version := List Element

/-! ## `parse_version` -/

/-- `int(element) if element.isdecimal() else element`; that CPython refuses to read more than 4300 digits
is left out. -/
def parseElement (element : List Char) : Element :=
  match Text.decimal element with
  | some n => .number n
  | none => .text (String.ofList element)

def isCommitSha : Element → Bool
  | .text s => (s.toList.length = 40 || s.toList.length = 64) &&
      s.toList.all fun c => c ∈ "0123456789abcdef".toList
  | _ => false

def parseVersion (versionStr : String) : Version :=
  let elements := (versionStr.toList.splitOn '.').map parseElement
  match elements with
  | major :: minor :: .number 0 :: marker :: _ =>
    if marker = .text "latest" ∨ isCommitSha marker then [major, minor, .infinity] else elements
  | _ => elements

/-! ## `is_lower` -/

/-- `a < b` -/
def Element.lt : Element → Element → Except PyError Bool
  | .number m, .number n => .ok (m < n)
  | .number _, .infinity => .ok true
  | .infinity, .number _ => .ok false
  | .infinity, .infinity => .ok false
  | .text s, .text t => .ok (s < t)
  | _, _ => .error .typeError

def isLower : Version → Version → Except PyError Bool
  -- the loop has taken equally many elements off both lists
  | version, [] => .ok (version.length < ([] : Version).length)
  | [], _ :: _ => .ok true
  | a :: version, b :: minVersion =>
    if a = .text "*" then .ok false
    else if b = .text "*" then .ok true
    else do
      if ← a.lt b then return true
      else if ← b.lt a then return false
      else isLower version minVersion

/-- The comparison of lists with `<`. -/
def listLt : Version → Version → Except PyError Bool
  | [], [] => .ok false
  | [], _ :: _ => .ok true
  | _ :: _, [] => .ok false
  | a :: version, b :: other => if a = b then listLt version other else a.lt b

/-- The choice of `drbd_version_lower`. -/
def lowerVersion (drbdVersion drbdVersionOther : Option Version) :
    Except PyError (Option Version) :=
  match drbdVersion, drbdVersionOther with
  | _, none => .ok drbdVersion
  | none, some other => .ok (some other)
  | some version, some other => do
    if ← isLower version other then return some version
    else return some other

/-! ## Keys -/

/-- The elements that can be compared with each other. -/
def Element.Comparable : Element → Prop
  | .number _ => True
  | .infinity => True
  | .text s => s = "*"

instance (e : Element) : Decidable e.Comparable := by
  unfold Element.Comparable
  cases e <;> infer_instance

/-- A version in use: its first element is a number. -/
structure Comparable (v : Version) : Prop where
  head : ∃ n rest, v = .number n :: rest
  elements : ∀ e ∈ v, e.Comparable

theorem comparable_cons {n : Nat} {rest : Version} (h : ∀ e ∈ rest, e.Comparable) :
    Comparable (.number n :: rest) := by
  refine ⟨⟨n, rest, rfl⟩, ?_⟩
  rintro e (_ | ⟨_, he⟩)
  · exact trivial
  · exact h e he

/-- The numbers, above them infinity, and `*` above all. -/
abbrev Rank := WithTop (WithTop Nat)

def Element.rank : Element → Rank
  | .number n => WithTop.some (WithTop.some n)
  | .infinity => WithTop.some ⊤
  | .text _ => ⊤

/-- Everything after the first `*` is ignored. -/
def key : Version → List Rank
  | [] => []
  | e :: v => if e = .text "*" then [⊤] else e.rank :: key v

variable {v w m : Version} {a b : Element}

@[simp] theorem key_star (v : Version) : key (.text "*" :: v) = [⊤] := if_pos rfl

theorem key_cons (h : a ≠ .text "*") : key (a :: v) = a.rank :: key v := if_neg h

theorem Element.rank_lt_top (ha : a.Comparable) (h : a ≠ .text "*") : a.rank < ⊤ := by
  cases a with
  | number n => exact WithTop.coe_lt_top _
  | infinity => exact WithTop.coe_lt_top _
  | text s =>
    obtain rfl : s = "*" := ha
    exact absurd rfl h

/-- Elements other than `*` are compared by their ranks. -/
theorem Element.lt_eq (ha : a.Comparable) (hb : b.Comparable) (ha' : a ≠ .text "*")
    (hb' : b ≠ .text "*") : a.lt b = .ok (decide (a.rank < b.rank)) := by
  cases a with
  | text s =>
    obtain rfl : s = "*" := ha
    exact absurd rfl ha'
  | number n =>
    cases b with
    | text t =>
      obtain rfl : t = "*" := hb
      exact absurd rfl hb'
    | number k => simp [Element.lt, Element.rank]
    | infinity =>
      have hlt : Element.rank (.number n) < Element.rank .infinity :=
        WithTop.coe_lt_coe.mpr (WithTop.coe_lt_top n)
      rw [decide_eq_true hlt]
      rfl
  | infinity =>
    cases b with
    | text t =>
      obtain rfl : t = "*" := hb
      exact absurd rfl hb'
    | number k => simp [Element.lt, Element.rank]
    | infinity => simp [Element.lt, Element.rank]

/-- `is_lower` compares the keys. -/
theorem isLower_eq (hv : ∀ e ∈ v, e.Comparable) (hm : ∀ e ∈ m, e.Comparable) :
    isLower v m = .ok (decide (key v < key m)) := by
  induction m generalizing v with
  | nil =>
    have hnot : ¬ key v < key [] := List.not_lt_nil _
    simp [isLower, hnot]
  | cons b m ih =>
    cases v with
    | nil =>
      have hlt : key [] < key (b :: m) := by
        by_cases hb : b = .text "*"
        · rw [hb, key_star]
          exact List.nil_lt_cons _ _
        · rw [key_cons hb]
          exact List.nil_lt_cons _ _
      rw [decide_eq_true hlt]
      rfl
    | cons a v =>
      have ha := hv a List.mem_cons_self
      have hb := hm b List.mem_cons_self
      have hrest := ih (fun e he => hv e (List.mem_cons_of_mem _ he))
        fun e he => hm e (List.mem_cons_of_mem _ he)
      unfold isLower
      by_cases ha' : a = .text "*"
      · -- nothing is above `*`, and two lists that end in it are equal
        have hnot : ¬ key (a :: v) < key (b :: m) := by
          rw [ha', key_star]
          by_cases hb' : b = .text "*"
          · simp [hb']
          · rw [key_cons hb', List.cons_lt_cons_iff, not_or]
            refine ⟨not_top_lt, fun h => ?_⟩
            exact (Element.rank_lt_top hb hb').ne h.1.symm
        rw [if_pos ha', decide_eq_false hnot]
      rw [if_neg ha', key_cons ha']
      by_cases hb' : b = .text "*"
      · have hlt : a.rank :: key v < key (b :: m) := by
          rw [hb', key_star, List.cons_lt_cons_iff]
          exact Or.inl (Element.rank_lt_top ha ha')
        rw [if_pos hb', decide_eq_true hlt]
      rw [if_neg hb', key_cons hb', Element.lt_eq ha hb ha' hb', Element.lt_eq hb ha hb' ha', hrest]
      rcases lt_trichotomy a.rank b.rank with hlt | heq | hgt
      · have hcons : a.rank :: key v < b.rank :: key m := List.cons_lt_cons_iff.mpr (Or.inl hlt)
        rw [decide_eq_true hlt, decide_eq_true hcons]
        rfl
      · have hcons : a.rank :: key v < b.rank :: key m ↔ key v < key m := by simp [heq]
        rw [decide_eq_false heq.not_lt, decide_eq_false heq.not_gt, decide_eq_decide.mpr hcons]
        rfl
      · have hcons : ¬ a.rank :: key v < b.rank :: key m := by
          rw [List.cons_lt_cons_iff, not_or]
          exact ⟨hgt.not_gt, fun h => hgt.ne h.1.symm⟩
        rw [decide_eq_false hgt.not_gt, decide_eq_true hgt, decide_eq_false hcons]
        rfl

/-- A version is below `[9]` when its first number is. -/
theorem key_lt_nine {n : Nat} : key (.number n :: v) < key [.number 9] ↔ n < 9 := by
  rw [key_cons (by simp), key_cons (by simp), List.cons_lt_cons_iff]
  simp [Element.rank, key]

theorem listLt_nine (hv : Comparable v) :
    listLt v [.number 9] = .ok (decide (key v < key [.number 9])) := by
  obtain ⟨n, rest, rfl⟩ := hv.head
  rw [decide_eq_decide.mpr key_lt_nine]
  by_cases hn : n = 9
  · subst hn
    cases rest with
    | nil => rfl
    | cons e rest => rfl
  · have hne : Element.number n ≠ .number 9 := fun h => hn (Element.number.inj h)
    rw [listLt, if_neg hne]
    rfl

/-! ## The lower version -/

/-- The versions that are given on the command line. -/
def given (drbdVersion drbdVersionOther : Option Version) : List Version :=
  drbdVersion.toList ++ drbdVersionOther.toList

/-- The choice is one of the given versions with the lowest key. -/
structure Lowest (versions : List Version) (lower : Option Version) : Prop where
  none_iff : lower = none ↔ versions = []
  mem : ∀ l, lower = some l → l ∈ versions
  le : ∀ l, lower = some l → ∀ v ∈ versions, key l ≤ key v

theorem lowerVersion_eq {drbdVersion drbdVersionOther : Option Version}
    (h : ∀ v ∈ given drbdVersion drbdVersionOther, Comparable v) :
    ∃ lower, lowerVersion drbdVersion drbdVersionOther = .ok lower ∧
      Lowest (given drbdVersion drbdVersionOther) lower := by
  cases drbdVersionOther with
  | none =>
    refine ⟨drbdVersion, by cases drbdVersion <;> rfl, ?_, ?_, ?_⟩
    · cases drbdVersion <;> simp [given]
    · rintro l rfl
      simp [given]
    · rintro l rfl v hv
      simp [given] at hv
      rw [hv]
  | some other =>
    cases drbdVersion with
    | none =>
      refine ⟨some other, rfl, by simp [given], ?_, ?_⟩
      · rintro l ⟨⟩
        simp [given]
      · rintro l ⟨⟩ v hv
        simp [given] at hv
        rw [hv]
    | some version =>
      have hversion := h version (by simp [given])
      have hother := h other (by simp [given])
      have heq := isLower_eq hversion.elements hother.elements
      by_cases hlt : key version < key other
      · refine ⟨some version, ?_, by simp [given], ?_, ?_⟩
        · rw [lowerVersion, heq, decide_eq_true hlt]
          rfl
        · rintro l ⟨⟩
          simp [given]
        · rintro l ⟨⟩ v hv
          rcases (by simpa [given] using hv : v = version ∨ v = other) with rfl | rfl
          · exact le_rfl
          · exact hlt.le
      · refine ⟨some other, ?_, by simp [given], ?_, ?_⟩
        · rw [lowerVersion, heq, decide_eq_false hlt]
          rfl
        · rintro l ⟨⟩
          simp [given]
        · rintro l ⟨⟩ v hv
          rcases (by simpa [given] using hv : v = version ∨ v = other) with rfl | rfl
          · exact not_lt.mp hlt
          · exact le_rfl

namespace Lowest

variable {versions : List Version} {lower : Option Version}

/-- Testing the lowest version is testing all of them. -/
theorem lt_iff (h : Lowest versions lower) (k : List Rank) :
    (∃ l, lower = some l ∧ key l < k) ↔ ∃ v ∈ versions, key v < k := by
  constructor
  · rintro ⟨l, hl, hlt⟩
    exact ⟨l, h.mem l hl, hlt⟩
  · rintro ⟨v, hv, hlt⟩
    cases lower with
    | none =>
      rw [h.none_iff.mp rfl] at hv
      cases hv
    | some l => exact ⟨l, rfl, lt_of_le_of_lt (h.le l rfl v hv) hlt⟩

theorem isLower_iff (h : Lowest versions lower) (hversions : ∀ v ∈ versions, Comparable v)
    (hm : ∀ e ∈ m, e.Comparable) :
    (∃ l, lower = some l ∧ isLower l m = .ok true) ↔ ∃ v ∈ versions, isLower v m = .ok true := by
  have hkey : ∀ v ∈ versions, (isLower v m = .ok true ↔ key v < key m) := by
    intro v hv
    rw [isLower_eq (hversions v hv).elements hm]
    simp
  rw [exists_congr fun l => and_congr_right fun hl => hkey l (h.mem l hl),
    exists_congr fun v => and_congr_right fun hv => hkey v hv]
  exact h.lt_iff (key m)

end Lowest

/-- The first element of a version is below 9. -/
def BeforeNine : Version → Prop
  | .number n :: _ => n < 9
  | _ => False

instance (v : Version) : Decidable (BeforeNine v) := by
  unfold BeforeNine
  split <;> infer_instance

theorem beforeNine_iff (hv : Comparable v) : BeforeNine v ↔ key v < key [.number 9] := by
  obtain ⟨n, rest, rfl⟩ := hv.head
  exact key_lt_nine.symm

end DrbdTests.Generator
