import Mathlib.Algebra.GroupWithZero.Nat
import Mathlib.Data.List.Infix

/-!
# Files in text mode

A file is a text in UTF-8 that is read with universal newlines: `\r\n`, `\r` and `\n` are all
read as `\n`. What is left to read is a part of the text as it is in the file. Reading counts
the characters that are read, and seeking counts the bytes of the file; where each character is
one byte, and there is no `\r\n`, the two agree (`OneByte.length_newlines`).
-/

namespace TextFile

/-- What is read of a text. A `\n` after `\r` belongs to it. -/
def newlinesFrom : Bool → List Char → List Char
  | _, [] => []
  | afterCr, c :: text =>
    if afterCr = true ∧ c = '\n' then newlinesFrom false text
    else if c = '\r' then '\n' :: newlinesFrom true text
    else c :: newlinesFrom false text

def newlines (text : List Char) : List Char := newlinesFrom false text

/-- `f.read(n)`: what is read, and what is left. -/
def readFrom : Bool → Nat → List Char → List Char × List Char
  | _, _, [] => ([], [])
  | afterCr, n, c :: text =>
    if afterCr = true ∧ c = '\n' then readFrom false n text
    else
      match n with
      | 0 => ([], c :: text)
      | n + 1 =>
        if c = '\r' then ('\n' :: (readFrom true n text).1, (readFrom true n text).2)
        else (c :: (readFrom false n text).1, (readFrom false n text).2)

def read (n : Nat) (text : List Char) : List Char × List Char := readFrom false n text

/-- `f.seek(n)`, with what is left after it; `none` is a position inside of a character. -/
def seek : Nat → List Char → Option (List Char)
  | 0, text => some text
  | _ + 1, [] => some []
  | n + 1, c :: text => if c.utf8Size ≤ n + 1 then seek (n + 1 - c.utf8Size) text else none

def byteLength (text : List Char) : Nat := (text.map Char.utf8Size).sum

/-- Each character is one byte, and is read as one character. -/
structure OneByte (text : List Char) : Prop where
  one : ∀ c ∈ text, c.utf8Size = 1
  crlf : ¬ ['\r', '\n'] <:+: text

variable {text rest a b : List Char} {afterCr : Bool}

/-! ## Newlines -/

@[simp] theorem newlinesFrom_nil : newlinesFrom afterCr [] = [] := rfl

theorem newlinesFrom_cr : newlinesFrom true ('\n' :: text) = newlinesFrom false text :=
  if_pos ⟨rfl, rfl⟩

theorem newlinesFrom_of_head (h : text.head? ≠ some '\n') :
    newlinesFrom afterCr text = newlines text := by
  cases text with
  | nil => rfl
  | cons c text =>
    have hc : c ≠ '\n' := fun he => h (congrArg some he)
    unfold newlines newlinesFrom
    simp only [hc, and_false, if_false]

theorem newlines_cons {c : Char} (h : c ≠ '\r') : newlines (c :: text) = c :: newlines text := by
  unfold newlines
  rw [newlinesFrom, if_neg (by simp), if_neg h]

/-- Whether the next character follows a `\r`. -/
theorem newlinesFrom_append (a b : List Char) : newlinesFrom afterCr (a ++ b) =
    newlinesFrom afterCr a ++ newlinesFrom (if a = [] then afterCr else a.getLast? = some '\r') b := by
  induction a generalizing afterCr with
  | nil => rfl
  | cons c a ih =>
    have hlast : ∀ flag : Bool, a = [] → decide ((c :: a).getLast? = some '\r') = decide (c = '\r') := by
      rintro - rfl
      simp
    have hlast' : a ≠ [] → (c :: a).getLast? = a.getLast? := by
      intro hne
      obtain ⟨d, a', rfl⟩ := List.exists_cons_of_ne_nil hne
      rfl
    rw [if_neg (List.cons_ne_nil c a), List.cons_append, newlinesFrom, newlinesFrom]
    by_cases hcrlf : afterCr = true ∧ c = '\n'
    · rw [if_pos hcrlf, if_pos hcrlf, ih]
      by_cases hnil : a = []
      · rw [if_pos hnil, hlast false hnil, hcrlf.2]
        rfl
      · rw [if_neg hnil, hlast' hnil]
    rw [if_neg hcrlf, if_neg hcrlf]
    by_cases hcr : c = '\r'
    · rw [if_pos hcr, if_pos hcr, ih, List.cons_append]
      by_cases hnil : a = []
      · rw [if_pos hnil, hlast true hnil, hcr]
        rfl
      · rw [if_neg hnil, hlast' hnil]
    · rw [if_neg hcr, if_neg hcr, ih, List.cons_append]
      by_cases hnil : a = []
      · rw [if_pos hnil, hlast false hnil, decide_eq_false hcr]
      · rw [if_neg hnil, hlast' hnil]

/-- Two texts that do not meet in `\r\n` are read one after the other. -/
theorem newlines_append (h : a.getLast? ≠ some '\r' ∨ b.head? ≠ some '\n') :
    newlines (a ++ b) = newlines a ++ newlines b := by
  have happend := @newlinesFrom_append false a b
  unfold newlines
  rw [happend]
  rcases h with hlast | hhead
  · by_cases hnil : a = []
    · rw [if_pos hnil]
    · rw [if_neg hnil, decide_eq_false hlast]
  · rw [newlinesFrom_of_head hhead]
    rfl

theorem length_newlinesFrom_le (afterCr : Bool) (text : List Char) :
    (newlinesFrom afterCr text).length ≤ byteLength text := by
  induction text generalizing afterCr with
  | nil => exact Nat.le_refl 0
  | cons c text ih =>
    have hsize := c.utf8Size_pos
    have hlength : byteLength (c :: text) = c.utf8Size + byteLength text := rfl
    have hfalse := ih false
    have htrue := ih true
    rw [newlinesFrom]
    split_ifs
    · omega
    · rw [List.length_cons]
      omega
    · rw [List.length_cons]
      omega

theorem length_newlines_le (text : List Char) : (newlines text).length ≤ byteLength text :=
  length_newlinesFrom_le false text

theorem OneByte.of_append (h : OneByte (a ++ b)) : OneByte a := by
  refine ⟨fun c hc => h.one c (List.mem_append_left b hc), ?_⟩
  intro hcrlf
  exact h.crlf (hcrlf.trans (List.prefix_append a b).isInfix)

theorem OneByte.length_newlinesFrom (h : OneByte text)
    (hhead : afterCr = true → text.head? ≠ some '\n') :
    (newlinesFrom afterCr text).length = byteLength text := by
  induction text generalizing afterCr with
  | nil => rfl
  | cons c text ih =>
    have hrest : OneByte text := by
      refine ⟨fun d hd => h.one d (List.mem_cons_of_mem c hd), ?_⟩
      intro hcrlf
      exact h.crlf (hcrlf.trans (List.suffix_cons c text).isInfix)
    have hsize : byteLength (c :: text) = 1 + byteLength text := by
      rw [← h.one c List.mem_cons_self]
      rfl
    rw [newlinesFrom, if_neg, hsize]
    · by_cases hcr : c = '\r'
      · have hnext : text.head? ≠ some '\n' := by
          intro hnl
          obtain ⟨text', rfl⟩ := List.head?_eq_some_iff.mp hnl
          exact h.crlf ⟨[], text', by rw [hcr]; rfl⟩
        rw [if_pos hcr, List.length_cons, ih hrest fun _ => hnext]
        omega
      · rw [if_neg hcr, List.length_cons, ih hrest (fun hf => by cases hf)]
        omega
    · rintro ⟨hafter, hnl⟩
      exact hhead hafter (congrArg some hnl)

/-- As many characters are read as there are bytes. -/
theorem OneByte.length_newlines (h : OneByte text) : (newlines text).length = byteLength text :=
  h.length_newlinesFrom fun hf => by cases hf

/-! ## Reading and seeking -/

theorem readFrom_cr (n : Nat) : readFrom true n ('\n' :: text) = readFrom false n text := by
  conv_lhs => unfold readFrom
  rw [if_pos (And.intro rfl rfl)]

theorem readFrom_zero (h : text.head? ≠ some '\n') : readFrom afterCr 0 text = ([], text) := by
  cases text with
  | nil => rfl
  | cons c text =>
    have hc : c ≠ '\n' := fun he => h (congrArg some he)
    unfold readFrom
    rw [if_neg fun hboth => hc hboth.2]

theorem readFrom_succ {c : Char} (h : ¬ (afterCr = true ∧ c = '\n')) (n : Nat) :
    readFrom afterCr (n + 1) (c :: text) =
      if c = '\r' then ('\n' :: (readFrom true n text).1, (readFrom true n text).2)
      else (c :: (readFrom false n text).1, (readFrom false n text).2) := by
  conv_lhs => unfold readFrom
  rw [if_neg h]

theorem readFrom_fst (afterCr : Bool) (n : Nat) (text : List Char) :
    (readFrom afterCr n text).1 = (newlinesFrom afterCr text).take n := by
  induction text generalizing afterCr n with
  | nil => simp [readFrom]
  | cons c text ih =>
    rw [newlinesFrom]
    by_cases hcrlf : afterCr = true ∧ c = '\n'
    · rw [if_pos hcrlf, hcrlf.1, hcrlf.2, readFrom_cr]
      exact ih false n
    rw [if_neg hcrlf]
    cases n with
    | zero =>
      have hhead : (readFrom afterCr 0 (c :: text)).1 = [] := by
        unfold readFrom
        rw [if_neg hcrlf]
      rw [hhead, List.take_zero]
    | succ n =>
      rw [readFrom_succ hcrlf]
      by_cases hcr : c = '\r'
      · simp only [hcr, if_true, List.take_succ_cons, ih]
      · simp only [hcr, if_false, List.take_succ_cons, ih]

theorem read_fst (n : Nat) (text : List Char) : (read n text).1 = (newlines text).take n :=
  readFrom_fst false n text

theorem readFrom_append (h : b.head? ≠ some '\n') :
    readFrom afterCr (newlinesFrom afterCr a).length (a ++ b) = (newlinesFrom afterCr a, b) := by
  induction a generalizing afterCr with
  | nil => exact readFrom_zero h
  | cons c a ih =>
    rw [newlinesFrom, List.cons_append]
    by_cases hcrlf : afterCr = true ∧ c = '\n'
    · rw [if_pos hcrlf, hcrlf.1, hcrlf.2, readFrom_cr]
      exact ih
    rw [if_neg hcrlf]
    by_cases hcr : c = '\r'
    · rw [if_pos hcr, List.length_cons, readFrom_succ hcrlf, if_pos hcr, ih]
    · rw [if_neg hcr, List.length_cons, readFrom_succ hcrlf, if_neg hcr, ih]

/-- Reading as many characters as a text has reads this text. -/
theorem read_append (h : b.head? ≠ some '\n') :
    read (newlines a).length (a ++ b) = (newlines a, b) := readFrom_append h

/-- Seeking to a number of bytes skips the text with this number. -/
theorem seek_append (a b : List Char) : seek (byteLength a) (a ++ b) = some b := by
  induction a with
  | nil =>
    cases b with
    | nil => rfl
    | cons c b => rfl
  | cons c a ih =>
    have hsize := c.utf8Size_pos
    have hlength : byteLength (c :: a) = c.utf8Size + byteLength a := rfl
    obtain ⟨n, hn⟩ : ∃ n, byteLength (c :: a) = n + 1 :=
      Nat.exists_eq_succ_of_ne_zero (by omega)
    have hle : c.utf8Size ≤ n + 1 := by omega
    have hdiff : n + 1 - c.utf8Size = byteLength a := by omega
    rw [hn, List.cons_append, seek, if_pos hle, hdiff]
    exact ih

end TextFile
