import Mathlib.Data.List.Basic
import Mathlib.Data.List.TakeWhile

/-!
# Text operations

The string methods of Python that the modelled code uses, on lists of characters:
`strip`, `splitlines`, decimal numbers, and taking a literal prefix off a text.
-/

namespace Text

/-- What holds of the characters of a text is decided on the text, not on all characters. -/
instance (priority := 2000) decidableForallMem {p : Char → Prop} [DecidablePred p]
    (text : List Char) : Decidable (∀ c ∈ text, p c) :=
  List.decidableBAll p text

instance (priority := 2000) decidableExistsMem {p : Char → Prop} [DecidablePred p]
    (text : List Char) : Decidable (∃ c ∈ text, p c) :=
  List.decidableBEx p text

/-- `str.isspace` for one character. -/
def isSpace (c : Char) : Bool :=
  let n := c.toNat
  (9 ≤ n && n ≤ 13) || (28 ≤ n && n ≤ 32) || n = 0x85 || n = 0xa0 || n = 0x1680 ||
    (0x2000 ≤ n && n ≤ 0x200a) || n = 0x2028 || n = 0x2029 || n = 0x202f || n = 0x205f ||
    n = 0x3000

/-- `str.strip` without arguments. -/
def strip (text : List Char) : List Char :=
  ((text.dropWhile isSpace).reverse.dropWhile isSpace).reverse

/-- `str.rstrip` without arguments. -/
def rstrip (text : List Char) : List Char := (text.reverse.dropWhile isSpace).reverse

/-- A character at which `str.splitlines` ends a line. -/
def isLineBoundary (c : Char) : Bool :=
  let n := c.toNat
  (10 ≤ n && n ≤ 13) || (28 ≤ n && n ≤ 30) || n = 0x85 || n = 0x2028 || n = 0x2029

/-- `str.splitlines`: `"\r\n"` is one boundary, and a boundary at the end of the text does
not start another line. -/
def splitlines : List Char → List (List Char)
  | [] => []
  | '\r' :: '\n' :: rest => [] :: splitlines rest
  | c :: rest =>
    if isLineBoundary c then [] :: splitlines rest
    else
      match splitlines rest with
      | [] => [[c]]
      | line :: lines => (c :: line) :: lines

/-- What follows `word` at the start of the text. -/
def afterPrefix : List Char → List Char → Option (List Char)
  | [], text => some text
  | c :: word, d :: text => if c = d then afterPrefix word text else none
  | _ :: _, [] => none

theorem afterPrefix_append (word text : List Char) : afterPrefix word (word ++ text) = some text := by
  induction word with
  | nil => cases text <;> rfl
  | cons c word ih => simp [afterPrefix, ih]

theorem afterPrefix_eq_some {word text rest : List Char} (h : afterPrefix word text = some rest) :
    text = word ++ rest := by
  induction word generalizing text with
  | nil =>
    cases text <;> simp [afterPrefix] at h <;> simp [h]
  | cons c word ih =>
    cases text with
    | nil => cases h
    | cons d text =>
      unfold afterPrefix at h
      split_ifs at h with hc
      rw [hc, ih h, List.cons_append]

/-! ## Decimal numbers -/

/-- The zeros of the decimal digits of Unicode; each starts a run of ten. -/
def decimalZeros : List Nat :=
  [0x30, 0x660, 0x6f0, 0x7c0, 0x966, 0x9e6, 0xa66, 0xae6, 0xb66, 0xbe6, 0xc66, 0xce6, 0xd66,
    0xde6, 0xe50, 0xed0, 0xf20, 0x1040, 0x1090, 0x17e0, 0x1810, 0x1946, 0x19d0, 0x1a80, 0x1a90,
    0x1b50, 0x1bb0, 0x1c40, 0x1c50, 0xa620, 0xa8d0, 0xa900, 0xa9d0, 0xa9f0, 0xaa50, 0xabf0,
    0xff10, 0x104a0, 0x10d30, 0x11066, 0x110f0, 0x11136, 0x111d0, 0x112f0, 0x11450, 0x114d0,
    0x11650, 0x116c0, 0x11730, 0x118e0, 0x11950, 0x11c50, 0x11d50, 0x11da0, 0x16a60, 0x16ac0,
    0x16b50, 0x1d7ce, 0x1d7d8, 0x1d7e2, 0x1d7ec, 0x1d7f6, 0x1e140, 0x1e2f0, 0x1e950, 0x1fbf0]

/-- The value of a decimal digit (`str.isdecimal`). -/
def decimalValue (c : Char) : Option Nat :=
  (decimalZeros.find? fun z => z ≤ c.toNat && c.toNat < z + 10).map (c.toNat - ·)

/-- The digits of a number after its first ones, which may be grouped by `_`. -/
def readDigits (value : Nat) : List Char → Option Nat
  | [] => some value
  | '_' :: c :: rest =>
    match decimalValue c with
    | some d => readDigits (10 * value + d) rest
    | none => none
  | c :: rest =>
    match decimalValue c with
    | some d => readDigits (10 * value + d) rest
    | none => none

def readNat : List Char → Option Nat
  | [] => none
  | c :: rest =>
    match decimalValue c with
    | some d => readDigits d rest
    | none => none

/-- `int` of a string. -/
def parseInt (text : List Char) : Option Int :=
  match strip text with
  | '-' :: digits => (readNat digits).map fun n => -(n : Int)
  | '+' :: digits => (readNat digits).map fun n => (n : Int)
  | digits => (readNat digits).map fun n => (n : Int)

/-- `int` of a string for which `str.isdecimal` is true. -/
def decimal (text : List Char) : Option Nat :=
  if text ≠ [] ∧ text.all fun c => (decimalValue c).isSome then
    some (text.foldl (fun n d => 10 * n + (decimalValue d).getD 0) 0)
  else none

/-- `[0-9]` -/
def isDigit (c : Char) : Bool := '0' ≤ c && c ≤ '9'

/-- `[0-9]+` at the start of a text: its value, and the rest of the text. -/
def takeInt (text : List Char) : Option (Nat × List Char) :=
  match text.span isDigit with
  | ([], _) => none
  | (digits, rest) => some (digits.foldl (fun n c => 10 * n + (c.toNat - '0'.toNat)) 0, rest)

/-- `int(re.findall(word + r'(\d+)', text)[0])`: the number at the first match. -/
def findInt (word : List Char) : List Char → Option Nat
  | [] => none
  | c :: text =>
    match (afterPrefix word (c :: text)).map (List.takeWhile fun d => (decimalValue d).isSome) with
    | some (d :: digits) =>
      some ((d :: digits).foldl (fun n d => 10 * n + (decimalValue d).getD 0) 0)
    | _ => findInt word text

/-! ## Texts that are read back -/

/-- A line that ends with a newline is the first line. -/
theorem splitlines_append {line rest : List Char} (h : ∀ c ∈ line, isLineBoundary c = false) :
    splitlines (line ++ '\n' :: rest) = line :: splitlines rest := by
  induction line with
  | nil =>
    have hn : isLineBoundary '\n' = true := by decide
    rw [List.nil_append, splitlines, if_pos hn]
    rintro _ ⟨⟩
  | cons c line ih =>
    have hc := h c (by simp)
    have hrest := ih fun d hd => h d (by simp [hd])
    rw [List.cons_append, splitlines, if_neg (by simp [hc]), hrest]
    rintro rest rfl
    exact absurd hc (by decide)

theorem decimalValue_digit {c : Char} (h : c.isDigit) :
    decimalValue c = some (c.toNat - '0'.toNat) := by
  have hle : 48 ≤ c.toNat ∧ c.toNat ≤ 57 := by
    simpa [Char.isDigit, UInt32.le_iff_toNat_le] using h
  have hfirst : (0x30 ≤ c.toNat && c.toNat < 0x30 + 10 : Bool) = true := by
    simp
    omega
  have hfind : (decimalZeros.find? fun z => z ≤ c.toNat && c.toNat < z + 10) = some 0x30 := by
    rw [decimalZeros]
    exact List.find?_cons_of_pos hfirst
  rw [decimalValue, hfind]
  rfl

theorem isSpace_digit {c : Char} (h : c.isDigit) : isSpace c = false := by
  have hrange : 48 ≤ c.toNat ∧ c.toNat ≤ 57 := by
    simpa [Char.isDigit, UInt32.le_iff_toNat_le] using h
  simp [isSpace]
  omega

/-- Stripping takes the blanks behind a word off. -/
theorem strip_word {word blanks : List Char} (hword : ∀ c ∈ word, isSpace c = false)
    (hblanks : ∀ c ∈ blanks, isSpace c = true) : strip (word ++ blanks) = word := by
  have hkeep : ∀ text : List Char, (∀ c ∈ text, isSpace c = false) →
      text.dropWhile isSpace = text := by
    intro text htext
    cases text with
    | nil => rfl
    | cons c text => exact List.dropWhile_cons_of_neg (by simp [htext c List.mem_cons_self])
  have hfront : (word ++ blanks).dropWhile isSpace = word ++ blanks ∨ word = [] := by
    cases word with
    | nil => exact .inr rfl
    | cons c word =>
      exact .inl (List.dropWhile_cons_of_neg (by simp [hword c List.mem_cons_self]))
  rcases hfront with hfront | rfl
  · rw [strip, hfront, List.reverse_append, List.dropWhile_append_of_pos (by simpa using hblanks),
      hkeep _ (by simpa using hword), List.reverse_reverse]
  · rw [strip, List.nil_append, List.dropWhile_eq_nil_iff.mpr hblanks]
    rfl

/-- A printed number is read back, up to the first character that is no digit. -/
theorem foldl_decimalValue_toDigits (n : Nat) :
    (Nat.toDigits 10 n).foldl (fun m d => 10 * m + (decimalValue d).getD 0) 0 = n := by
  have hfold : ∀ (l : List Char) (m : Nat), (∀ d ∈ l, d.isDigit) →
      l.foldl (fun m d => 10 * m + (decimalValue d).getD 0) m = Nat.ofDigitChars 10 l m := by
    intro l
    induction l with
    | nil => exact fun m _ => rfl
    | cons d l ih =>
      intro m hl
      rw [List.foldl_cons, ih _ fun e he => hl e (by simp [he]), Nat.ofDigitChars_cons,
        decimalValue_digit (hl d (by simp))]
      rfl
  rw [hfold _ _ fun d hd => Nat.isDigit_of_mem_toDigits (by omega) (by omega) hd]
  exact Nat.ofDigitChars_ten_toDigits

theorem decimal_toString (n : Nat) : decimal (toString n).toList = some n := by
  rw [Nat.toString_eq_ofList_toDigits, String.toList_ofList, decimal,
    foldl_decimalValue_toDigits, if_pos]
  refine ⟨Nat.toDigits_ne_nil, ?_⟩
  rw [List.all_eq_true]
  intro c hc
  rw [decimalValue_digit (Nat.isDigit_of_mem_toDigits (by omega) (by omega) hc)]
  rfl

theorem readDigits_eq {digits : List Char} (h : ∀ d ∈ digits, d.isDigit) (value : Nat) :
    readDigits value digits =
      some (digits.foldl (fun n d => 10 * n + (decimalValue d).getD 0) value) := by
  induction digits generalizing value with
  | nil => rfl
  | cons d digits ih =>
    have hd := h d List.mem_cons_self
    have hne : d ≠ '_' := by
      rintro rfl
      exact absurd hd (by decide)
    rw [readDigits, List.foldl_cons, decimalValue_digit hd]
    · exact ih (fun e he => h e (List.mem_cons_of_mem _ he)) _
    · rintro c rest rfl
      exact absurd rfl hne

theorem strip_toString (n : Nat) {blanks : List Char} (h : ∀ c ∈ blanks, isSpace c = true) :
    strip ((toString n).toList ++ blanks) = (toString n).toList := by
  rw [Nat.toString_eq_ofList_toDigits, String.toList_ofList]
  exact strip_word (fun d hd =>
    isSpace_digit (Nat.isDigit_of_mem_toDigits (by omega) (by omega) hd)) h

/-- `int(str(n))` -/
theorem parseInt_toString (n : Nat) : parseInt (toString n).toList = some (n : Int) := by
  have hstrip := strip_toString n (List.forall_mem_nil _)
  rw [List.append_nil] at hstrip
  rw [parseInt, hstrip, Nat.toString_eq_ofList_toDigits, String.toList_ofList]
  have hdigits : ∀ d ∈ Nat.toDigits 10 n, d.isDigit := fun d hd =>
    Nat.isDigit_of_mem_toDigits (by omega) (by omega) hd
  have hvalue := foldl_decimalValue_toDigits n
  obtain ⟨d, digits, hn⟩ := List.exists_cons_of_ne_nil (Nat.toDigits_ne_nil (n := n) (b := 10))
  rw [hn] at hdigits hvalue ⊢
  have hread : readNat (d :: digits) = some n := by
    rw [readNat, decimalValue_digit (hdigits d List.mem_cons_self)]
    refine (readDigits_eq (fun e he => hdigits e (List.mem_cons_of_mem _ he)) _).trans ?_
    rw [← hvalue, List.foldl_cons, decimalValue_digit (hdigits d List.mem_cons_self), Nat.mul_zero,
      Nat.zero_add]
    rfl
  split
  · rename_i heq
    obtain rfl := (List.cons.inj heq).1
    exact absurd (hdigits _ List.mem_cons_self) (by decide)
  · rename_i heq
    obtain rfl := (List.cons.inj heq).1
    exact absurd (hdigits _ List.mem_cons_self) (by decide)
  · rw [hread]
    rfl

theorem findInt_toDigits (word : List Char) (hw : word ≠ []) (n : Nat) :
    findInt word (word ++ Nat.toDigits 10 n) = some n := by
  obtain ⟨c, word', rfl⟩ := List.exists_cons_of_ne_nil hw
  have hdigits : (Nat.toDigits 10 n).takeWhile (fun d => (decimalValue d).isSome) =
      Nat.toDigits 10 n := by
    rw [List.takeWhile_eq_self_iff]
    intro d hd
    rw [decimalValue_digit (Nat.isDigit_of_mem_toDigits (by omega) (by omega) hd)]
    rfl
  obtain ⟨d, digits, hn⟩ := List.exists_cons_of_ne_nil (Nat.toDigits_ne_nil (n := n) (b := 10))
  have hmatch : (afterPrefix (c :: word') (c :: (word' ++ Nat.toDigits 10 n))).map
      (List.takeWhile fun d => (decimalValue d).isSome) = some (d :: digits) := by
    rw [← List.cons_append, afterPrefix_append, Option.map_some, hdigits, hn]
  rw [List.cons_append, findInt, hmatch]
  simp only
  rw [← hn, foldl_decimalValue_toDigits]

/-- A word whose first character does not occur has no match. -/
theorem findInt_of_not_mem {c : Char} {word text : List Char} (h : c ∉ text) :
    findInt (c :: word) text = none := by
  induction text with
  | nil => rfl
  | cons d text ih =>
    have hne : c ≠ d := fun he => h (he ▸ List.mem_cons_self)
    have hprefix : afterPrefix (c :: word) (d :: text) = none := by simp [afterPrefix, hne]
    rw [findInt, hprefix]
    exact ih fun hm => h (List.mem_cons_of_mem _ hm)

/-- There is no match when the word is not followed by a digit, and does not start again. -/
theorem findInt_of_no_digit {c d : Char} {word text : List Char} (hd : decimalValue d = none)
    (h : c ∉ word ++ d :: text) : findInt (c :: word) ((c :: word) ++ d :: text) = none := by
  have hmatch : (afterPrefix (c :: word) ((c :: word) ++ d :: text)).map
      (List.takeWhile fun d => (decimalValue d).isSome) = some [] := by
    rw [afterPrefix_append, Option.map_some, List.takeWhile_cons_of_neg (by simp [hd])]
  rw [List.cons_append] at hmatch ⊢
  rw [findInt, hmatch]
  exact findInt_of_not_mem h

end Text
