import DrbdTests.Error
import Mathlib.Data.List.Basic

/-!
# `data % ()`

`ConfigBlock.write` formats its text with the `%` operator and an empty argument tuple, so
every `%` in the text begins a conversion specifier: `%%` stands for one `%`, and every other
conversion asks for an argument that is not there. This is the formatter of CPython 3.11, in
which `%%` with flags, a width, a precision or a length modifier between the two asks for an
argument as well, though it is documented to convert none.
-/

namespace DrbdTests.Config

/-- Where in a conversion specifier the formatter is. -/
inductive PercentState
  | text
  /-- right behind the `%` -/
  | start
  | flags
  | width
  | precision
  | conversion
  deriving DecidableEq, Repr

open PercentState in
/-- The next state inside a conversion specifier, or `none` at its last character. -/
def PercentState.next (state : PercentState) (c : Char) : Option PercentState :=
  if (state = start ∨ state = flags) ∧ c ∈ ['-', '+', ' ', '#', '0'] then some flags
  else if (state = start ∨ state = flags ∨ state = width) ∧ c.isDigit then some width
  else if (state = start ∨ state = flags ∨ state = width) ∧ c = '.' then some precision
  else if state = precision ∧ c.isDigit then some precision
  else if state ≠ conversion ∧ c ∈ ['h', 'l', 'L'] then some conversion
  else none

/-- `data % ()`, from the given state of the formatter. -/
def percentFormatFrom : PercentState → List Char → Except PyError (List Char)
  | .text, [] => .ok []
  | _, [] => .error .valueError
  | .text, c :: rest =>
    if c = '%' then percentFormatFrom .start rest
    else do return c :: (← percentFormatFrom .text rest)
  | state, c :: rest =>
    match state.next c with
    | some state' => percentFormatFrom state' rest
    | none =>
      if state = .start ∧ c = '%' then do return '%' :: (← percentFormatFrom .text rest)
      else .error .typeError

/-- `data % ()` -/
def percentFormat (data : String) : Except PyError String := do
  return String.ofList (← percentFormatFrom .text data.toList)

theorem percentFormatFrom_plain {data : List Char} (h : '%' ∉ data) :
    percentFormatFrom .text data = .ok data := by
  induction data with
  | nil => rfl
  | cons c rest ih =>
    have hc : c ≠ '%' := fun he => h (he ▸ List.mem_cons_self)
    rw [percentFormatFrom, if_neg hc, ih fun hm => h (List.mem_cons_of_mem _ hm)]
    rfl

/-- Text without `%` is its own formatted form. -/
theorem percentFormat_plain {data : String} (h : '%' ∉ data.toList) :
    percentFormat data = .ok data := by
  rw [percentFormat, percentFormatFrom_plain h]
  simp [bind, Except.bind, pure, Except.pure]

example : percentFormat "outdated %%r" = .ok "outdated %r" := by decide

example : percentFormat "fence %s" = .error .typeError := by decide

end DrbdTests.Config
