import Mathlib.Data.List.Basic

/-!
# Shell patterns

`fnmatch.fnmatchcase`: a name matches a pattern, in which `*` stands for any text, `?` for any
character, `[seq]` for a character in `seq` and `[!seq]` for one that is not. In `seq` a `]` may
come first and `a-z` is a range; a range that is the wrong way around is empty. A `[` that is not
closed stands for itself.

`fnmatchcase_plain`: a pattern without such characters is matched by itself only.
-/

namespace Fnmatch

inductive Piece
  | star
  | any
  | char (c : Char)
  | set (negated : Bool) (ranges : List (Char × Char))
  deriving DecidableEq, Repr

/-- The ranges of a `seq`. -/
def ranges : List Char → List (Char × Char)
  | x :: '-' :: y :: rest => (x, y) :: ranges rest
  | x :: rest => (x, x) :: ranges rest
  | [] => []

/-- What follows a `[`: whether the set is negated, its `seq`, and what comes after the `]`. -/
def takeSet (pattern : List Char) : Option (Bool × List Char × List Char) :=
  let (negated, text) :=
    match pattern with
    | '!' :: rest => (true, rest)
    | _ => (false, pattern)
  -- a `]` at the beginning does not close the set
  let (first, text) :=
    match text with
    | ']' :: rest => ([']'], rest)
    | _ => ([], text)
  match text.dropWhile (· ≠ ']') with
  | _ :: rest => some (negated, first ++ text.takeWhile (· ≠ ']'), rest)
  | [] => none

/-- The pieces of a pattern. Every piece takes at least one character, so its length is enough
fuel. -/
def pieces : Nat → List Char → List Piece
  | 0, _ | _, [] => []
  | fuel + 1, c :: rest =>
    if c = '*' then .star :: pieces fuel rest
    else if c = '?' then .any :: pieces fuel rest
    else if c = '[' then
      match takeSet rest with
      | some (negated, seq, after) => .set negated (ranges seq) :: pieces fuel after
      | none => .char c :: pieces fuel rest
    else .char c :: pieces fuel rest

/-- Whether a piece other than `*` stands for the character. -/
def Piece.accepts (c : Char) : Piece → Bool
  | star => false
  | any => true
  | char d => c = d
  | set negated ranges => (ranges.any fun r => r.1 ≤ c ∧ c ≤ r.2) != negated

def isMatch : List Piece → List Char → Bool
  | [], name => name.isEmpty
  | .star :: rest, name => name.tails.any fun after => isMatch rest after
  | _ :: _, [] => false
  | piece :: rest, c :: name => piece.accepts c && isMatch rest name

/-- `fnmatch.fnmatchcase` -/
def fnmatchcase (name pattern : String) : Bool :=
  isMatch (pieces pattern.toList.length pattern.toList) name.toList

/-- A character that stands for itself. -/
def IsPlain (c : Char) : Prop := c ≠ '*' ∧ c ≠ '?' ∧ c ≠ '['

theorem pieces_plain {pattern : List Char} {fuel : Nat} (h : ∀ c ∈ pattern, IsPlain c)
    (hfuel : pattern.length ≤ fuel) : pieces fuel pattern = pattern.map .char := by
  induction pattern generalizing fuel with
  | nil => cases fuel <;> rfl
  | cons c rest ih =>
    obtain ⟨fuel, rfl⟩ : ∃ k, fuel = k + 1 := Nat.exists_eq_succ_of_ne_zero (by
      rintro rfl
      exact absurd hfuel (Nat.not_succ_le_zero _))
    obtain ⟨hstar, hany, hset⟩ := h c List.mem_cons_self
    rw [pieces, if_neg hstar, if_neg hany, if_neg hset, List.map_cons,
      ih (fun d hd => h d (List.mem_cons_of_mem _ hd)) (Nat.le_of_succ_le_succ hfuel)]

theorem isMatch_chars (pattern name : List Char) :
    isMatch (pattern.map .char) name = true ↔ name = pattern := by
  induction pattern generalizing name with
  | nil => simp [isMatch]
  | cons c rest ih =>
    cases name with
    | nil => simp [isMatch]
    | cons d name => simp [isMatch, Piece.accepts, ih]

/-- Without wildcards only equal texts match. -/
theorem fnmatchcase_plain {name pattern : String} (h : ∀ c ∈ pattern.toList, IsPlain c) :
    fnmatchcase name pattern = true ↔ name = pattern := by
  rw [fnmatchcase, pieces_plain h (Nat.le_refl _), isMatch_chars]
  exact String.toList_inj

example : fnmatchcase "9.2.11" "9.[!0-1].*" = true ∧ fnmatchcase "9.1.11" "9.[!0-1].*" = false := by
  decide

end Fnmatch
