import Mathlib.Data.Nat.Digits.Lemmas

/-!
# Numbers read in another base

A number that is written in decimal and read in another base: `reread b n`. From base 10 on different
numbers stay different and none gets smaller, but from 10 on the number that is read is another one.
-/

namespace Digits

/-- The number that the decimal digits of `n` mean in base `b`. -/
def reread (b n : Nat) : Nat := Nat.ofDigits b (Nat.digits 10 n)

variable {b n m : Nat}

theorem reread_of_lt (h : n < 10) : reread b n = n := by
  unfold reread
  by_cases hn : n = 0
  · rw [hn, Nat.digits_zero, Nat.ofDigits_nil]
  · rw [Nat.digits_of_lt 10 n hn h, Nat.ofDigits_singleton]

theorem reread_eq (h : 10 ≤ n) : reread b n = n % 10 + b * reread b (n / 10) := by
  unfold reread
  rw [Nat.digits_def' (by omega) (by omega), Nat.ofDigits_cons]

theorem digit_lt_base (hb : 10 ≤ b) {d : Nat} (hd : d ∈ Nat.digits 10 n) : d < b := by
  have hlt : d < 10 := Nat.digits_lt_base (by omega) hd
  omega

theorem digits_reread (hb : 10 ≤ b) (n : Nat) : Nat.digits b (reread b n) = Nat.digits 10 n := by
  apply Nat.digits_ofDigits b (by omega)
  · intro d hd
    exact digit_lt_base hb hd
  · intro hne
    exact Nat.getLast_digit_ne_zero 10 (Nat.digits_ne_nil_iff_ne_zero.mp hne)

theorem reread_injective (hb : 10 ≤ b) (h : reread b n = reread b m) : n = m := by
  have hdigits : Nat.digits 10 n = Nat.digits 10 m := by
    rw [← digits_reread hb n, h, digits_reread hb m]
  exact Nat.digits_inj_iff.mp hdigits

theorem le_reread (hb : 10 ≤ b) (n : Nat) : n ≤ reread b n := by
  have hmono := Nat.ofDigits_monotone (Nat.digits 10 n) hb
  rwa [Nat.ofDigits_digits] at hmono

/-! ## Hexadecimal digits -/

def hexValue (c : Char) : Option Nat :=
  if '0' ≤ c ∧ c ≤ '9' then some (c.toNat - '0'.toNat)
  else if 'a' ≤ c ∧ c ≤ 'f' then some (c.toNat - 'a'.toNat + 10)
  else if 'A' ≤ c ∧ c ≤ 'F' then some (c.toNat - 'A'.toNat + 10)
  else none

/-- The next digit of a number that has been read up to here. -/
def hexStep (value : Option Nat) (c : Char) : Option Nat := do
  let n ← value
  let d ← hexValue c
  return 16 * n + d

/-- A number in hexadecimal, zero if there is no digit at all. -/
def readHex (text : List Char) : Option Nat := text.foldl hexStep (some 0)

theorem hexValue_digitChar (h : n < 10) : hexValue n.digitChar = some n := by
  revert h n
  decide

theorem readHex_append_digit (text : List Char) (h : n < 10) :
    readHex (text ++ [n.digitChar]) = (readHex text).map fun value => 16 * value + n := by
  unfold readHex
  rw [List.foldl_append, List.foldl_cons, List.foldl_nil, hexStep, hexValue_digitChar h]
  cases List.foldl hexStep (some 0) text <;> rfl

/-- Decimal digits read as hexadecimal ones. -/
theorem readHex_toDigits (n : Nat) : readHex (Nat.toDigits 10 n) = some (reread 16 n) := by
  induction n using Nat.strong_induction_on with
  | _ n ih =>
    by_cases h : n < 10
    · have hdigit := readHex_append_digit [] h
      rw [Nat.toDigits_of_lt_base h, reread_of_lt h]
      simpa [readHex] using hdigit
    · have hmod : n % 10 < 10 := Nat.mod_lt n (by omega)
      rw [Nat.toDigits_of_base_le (by omega) (by omega), readHex_append_digit _ hmod,
        ih (n / 10) (by omega), reread_eq (Nat.le_of_not_lt h), Option.map_some, Nat.add_comm]

end Digits
