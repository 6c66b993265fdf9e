import DrbdTests.Lib.Text
import Mathlib.Data.List.Infix

/-!
# Regular expressions

Regular expressions that are sequences of characters and repetitions: `a`, `[ab]`, `\d`, and one of
these with `*` or `+` behind it, with or without a group around it. A repetition takes as much as it
can and gives back one character after the other, as long as the rest of the expression does not
match.

A match is a division of the text into the parts that the pieces have taken
(`match_run_eq_some`). Conversely, in a text in which each repetition is followed by a character
that it does not accept, these are the parts that are taken (`match_run_append`).
-/

namespace Regex

/-- A character of a class, or a repetition of at least `least` characters of a class. -/
inductive Piece
  | char (accepts : Char → Bool)
  | run (accepts : Char → Bool) (least : Nat) (captured : Bool)

/-- The characters of a text, one after the other. -/
def lit (text : String) : List Piece := text.toList.map fun c => .char (· = c)

/-- `\d` -/
def isDecimal (c : Char) : Bool := (Text.decimalValue c).isSome

/-- `.` -/
def isAny (c : Char) : Bool := c ≠ '\n'

/-- What a repetition can take, and what it leaves; the longest comes first. -/
def splits (accepts : Char → Bool) : List Char → List (List Char × List Char)
  | [] => [([], [])]
  | c :: rest =>
    if accepts c then (splits accepts rest).map (fun (taken, left) => (c :: taken, left)) ++ [([], c :: rest)]
    else [([], c :: rest)]

/-- `re.match`: the groups, when the expression matches at the beginning of the text. -/
def matchHere : List Piece → List Char → Option (List (List Char))
  | [], _ => some []
  | .char _ :: _, [] => none
  | .char accepts :: pieces, c :: rest => if accepts c then matchHere pieces rest else none
  | .run accepts least captured :: pieces, text =>
    (splits accepts text).findSome? fun (taken, left) =>
      if least ≤ taken.length then
        (matchHere pieces left).map fun groups => if captured then taken :: groups else groups
      else none

/-- `re.search`: the groups of the first match. -/
def search (pieces : List Piece) (text : List Char) : Option (List (List Char)) :=
  text.tails.findSome? (matchHere pieces)

variable {accepts : Char → Bool} {least : Nat} {captured : Bool} {pieces : List Piece}
  {text left : List Char}

/-! ## Literal text -/

theorem match_lit (word : String) (pieces : List Piece) (text : List Char) :
    matchHere (lit word ++ pieces) (word.toList ++ text) = matchHere pieces text := by
  unfold lit
  induction word.toList with
  | nil => rfl
  | cons c word ih =>
    rw [List.map_cons, List.cons_append, List.cons_append, matchHere, if_pos (decide_eq_true rfl)]
    exact ih

theorem match_lit_eq_some {word : String} {groups : List (List Char)}
    (h : matchHere (lit word ++ pieces) text = some groups) :
    ∃ left, text = word.toList ++ left ∧ matchHere pieces left = some groups := by
  unfold lit at h
  generalize word.toList = chars at h ⊢
  induction chars generalizing text with
  | nil => exact ⟨text, rfl, h⟩
  | cons c word ih =>
    rw [List.map_cons, List.cons_append] at h
    cases text with
    | nil => cases h
    | cons d text =>
      rw [matchHere] at h
      split at h
      · rename_i hd
        obtain ⟨left, rfl, hleft⟩ := ih h
        exact ⟨left, by rw [of_decide_eq_true hd, List.cons_append], hleft⟩
      · cases h

/-! ## Repetitions -/

theorem mem_splits {taken : List Char} : (taken, left) ∈ splits accepts text ↔
    text = taken ++ left ∧ ∀ c ∈ taken, accepts c = true := by
  induction text generalizing taken with
  | nil =>
    rw [splits, List.mem_singleton, Prod.mk.injEq]
    constructor
    · rintro ⟨rfl, rfl⟩
      exact ⟨rfl, by simp⟩
    · rintro ⟨h, -⟩
      exact List.append_eq_nil_iff.mp h.symm
  | cons c rest ih =>
    rw [splits]
    split
    · rename_i hc
      rw [List.mem_append, List.mem_map, List.mem_singleton, Prod.mk.injEq]
      constructor
      · rintro (⟨⟨taken', left'⟩, hmem, heq⟩ | ⟨rfl, rfl⟩)
        · obtain ⟨rfl, rfl⟩ := Prod.mk.inj heq
          obtain ⟨rfl, htaken⟩ := ih.mp hmem
          exact ⟨rfl, List.forall_mem_cons.mpr ⟨hc, htaken⟩⟩
        · exact ⟨rfl, by simp⟩
      · rintro ⟨heq, htaken⟩
        cases taken with
        | nil => exact .inr ⟨rfl, heq.symm⟩
        | cons d taken =>
          obtain ⟨rfl, rfl⟩ := List.cons.inj heq
          exact .inl ⟨(taken, left), ih.mpr ⟨rfl, (List.forall_mem_cons.mp htaken).2⟩, rfl⟩
    · rename_i hc
      rw [List.mem_singleton, Prod.mk.injEq]
      constructor
      · rintro ⟨rfl, rfl⟩
        exact ⟨rfl, by simp⟩
      · rintro ⟨heq, htaken⟩
        cases taken with
        | nil => exact ⟨rfl, heq.symm⟩
        | cons d taken =>
          obtain ⟨rfl, -⟩ := List.cons.inj heq
          exact absurd (htaken c List.mem_cons_self) hc

/-- The longest repetition comes first. -/
theorem splits_eq_cons (accepts : Char → Bool) (text : List Char) : ∃ shorter,
    splits accepts text = (text.takeWhile accepts, text.dropWhile accepts) :: shorter := by
  induction text with
  | nil => exact ⟨[], rfl⟩
  | cons c rest ih =>
    obtain ⟨shorter, hsplits⟩ := ih
    rw [splits, List.takeWhile_cons, List.dropWhile_cons]
    split
    · rw [hsplits]
      exact ⟨_, rfl⟩
    · exact ⟨[], rfl⟩

/-- When the rest of the expression matches behind the longest repetition, this is the match. -/
theorem match_run_longest {groups : List (List Char)} (captured : Bool)
    (hleast : least ≤ (text.takeWhile accepts).length)
    (h : matchHere pieces (text.dropWhile accepts) = some groups) :
    matchHere (.run accepts least captured :: pieces) text =
      some (if captured then text.takeWhile accepts :: groups else groups) := by
  obtain ⟨shorter, hsplits⟩ := splits_eq_cons accepts text
  rw [matchHere, hsplits, List.findSome?_cons]
  dsimp only
  rw [if_pos hleast, h]
  rfl

/-- A repetition takes a text up to a character that it does not accept. -/
theorem match_run_append {taken : List Char} {groups : List (List Char)} (captured : Bool)
    (htaken : ∀ c ∈ taken, accepts c = true) (hleast : least ≤ taken.length)
    (hleft : ∀ c, left.head? = some c → accepts c = false)
    (h : matchHere pieces left = some groups) :
    matchHere (.run accepts least captured :: pieces) (taken ++ left) =
      some (if captured then taken :: groups else groups) := by
  have hstop : left.takeWhile accepts = [] ∧ left.dropWhile accepts = left := by
    cases left with
    | nil => exact ⟨rfl, rfl⟩
    | cons c left => simp [hleft c rfl]
  have htake : (taken ++ left).takeWhile accepts = taken := by
    rw [List.takeWhile_append_of_pos htaken, hstop.1, List.append_nil]
  have hdrop : (taken ++ left).dropWhile accepts = left := by
    rw [List.dropWhile_append_of_pos htaken, hstop.2]
  rw [match_run_longest captured (by rwa [htake]) (by rwa [hdrop]), htake]

/-- What a repetition has taken, and the match of the rest. -/
theorem match_run_eq_some {groups : List (List Char)}
    (h : matchHere (.run accepts least captured :: pieces) text = some groups) :
    ∃ taken left groups', text = taken ++ left ∧ (∀ c ∈ taken, accepts c = true) ∧
      least ≤ taken.length ∧ matchHere pieces left = some groups' ∧
      groups = if captured then taken :: groups' else groups' := by
  rw [matchHere] at h
  obtain ⟨⟨taken, left⟩, hsplit, h⟩ := List.exists_of_findSome?_eq_some h
  obtain ⟨htext, htaken⟩ := mem_splits.mp hsplit
  dsimp only at h
  split at h
  · rename_i hleast
    obtain ⟨groups', hgroups', rfl⟩ := Option.map_eq_some_iff.mp h
    exact ⟨taken, left, groups', htext, htaken, hleast, hgroups', rfl⟩
  · cases h

/-- At the end of the expression a repetition takes all it can. -/
theorem match_last_eq_some {groups : List (List Char)}
    (h : matchHere [.run accepts least true] text = some groups) :
    least ≤ (text.takeWhile accepts).length ∧ groups = [text.takeWhile accepts] := by
  obtain ⟨taken, left, -, htext, htaken, hleast, -, -⟩ := match_run_eq_some h
  have hlonger : least ≤ (text.takeWhile accepts).length := by
    rw [htext, List.takeWhile_append_of_pos htaken, List.length_append]
    exact Nat.le_add_right_of_le hleast
  rw [match_run_longest true hlonger rfl] at h
  exact ⟨hlonger, (Option.some.inj h).symm⟩

end Regex
