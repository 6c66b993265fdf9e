import DrbdTests.Lib.Text
import Mathlib.Data.List.Infix

/-!
# Reading TOML

A document in TOML 1.0 is a sequence of lines: headers of tables, headers of elements of arrays
of tables, and assignments. The keys are read here, and those values that are strings of one
line, decimal integers, booleans or arrays. `other` reads the values that are written otherwise:
strings of several lines, numbers of other forms, dates, and inline tables. Integers have no
bound.
-/

namespace Toml

abbrev Key := List Char

inductive Value
  | string (s : List Char)
  | integer (n : Int)
  | boolean (b : Bool)
  | array (elements : List Value)
  /-- A value of another type, as it is written. -/
  | other (text : List Char)

inductive Statement
  /-- `[a.b]` -/
  | table (keys : List Key)
  /-- `[[a.b]]` -/
  | tables (keys : List Key)
  /-- `a.b = v` -/
  | assign (keys : List Key) (value : Value)

def Statement.keys : Statement → List Key
  | .table keys => keys
  | .tables keys => keys
  | .assign keys _ => keys

/-! ## Characters -/

/-- A character of a bare key. -/
def isBare (c : Char) : Bool := c.isAlphanum || c = '_' || c = '-'

def isBlank (c : Char) : Bool := c = ' ' || c = '\t'

/-- A character that may stand in a string or a comment. -/
def isText (c : Char) : Bool := c = '\t' || (0x20 ≤ c.toNat && c.toNat ≠ 0x7f)

/-- A character of a number, a boolean or a date. -/
def isScalar (c : Char) : Bool :=
  c.isAlphanum || c = '_' || c = '-' || c = '+' || c = '.' || c = ':'

def hexValue (c : Char) : Option Nat :=
  if '0' ≤ c ∧ c ≤ '9' then some (c.toNat - '0'.toNat)
  else if 'a' ≤ c ∧ c ≤ 'f' then some (c.toNat - 'a'.toNat + 10)
  else if 'A' ≤ c ∧ c ≤ 'F' then some (c.toNat - 'A'.toNat + 10)
  else none

/-- The character of an escape of two characters. -/
def shortEscape (c : Char) : Option Char :=
  if c = '"' ∨ c = '\\' then some c
  else if c = 'b' then some '\x08'
  else if c = 't' then some '\t'
  else if c = 'n' then some '\n'
  else if c = 'f' then some '\x0c'
  else if c = 'r' then some '\r'
  else none

/-! ## Strings and keys -/

/-- Where a character is in a basic string. -/
inductive Position
  | plain
  /-- After a backslash. -/
  | escape
  /-- The number of the hexadecimal digits to come, less one, and the value of those before. -/
  | hex (left value : Nat)
  deriving DecidableEq, Repr

/-- A basic string after its first quote: its characters, and what follows it. -/
def readBasic : Position → List Char → Option (List Char × List Char)
  | _, [] => none
  | .plain, c :: text =>
    if c = '"' then some ([], text)
    else if c = '\\' then readBasic .escape text
    else if isText c then (readBasic .plain text).map fun p => (c :: p.1, p.2)
    else none
  | .escape, c :: text =>
    if c = 'u' then readBasic (.hex 3 0) text
    else if c = 'U' then readBasic (.hex 7 0) text
    else
      match shortEscape c with
      | some d => (readBasic .plain text).map fun p => (d :: p.1, p.2)
      | none => none
  | .hex left value, c :: text =>
    match hexValue c, left with
    | none, _ => none
    | some d, left + 1 => readBasic (.hex left (16 * value + d)) text
    | some d, 0 =>
      if (16 * value + d).isValidChar then
        (readBasic .plain text).map fun p => (Char.ofNat (16 * value + d) :: p.1, p.2)
      else none

/-- A literal string after its first quote. -/
def readLiteral : List Char → Option (List Char × List Char)
  | [] => none
  | c :: text =>
    if c = '\'' then some ([], text)
    else if isText c then (readLiteral text).map fun p => (c :: p.1, p.2)
    else none

def readBare (text : List Char) : Option (Key × List Char) :=
  if text.takeWhile isBare = [] then none
  else some (text.takeWhile isBare, text.dropWhile isBare)

/-- A part of a dotted key. -/
def readPart : List Char → Option (Key × List Char)
  | [] => none
  | c :: text =>
    if c = '"' then readBasic .plain text
    else if c = '\'' then readLiteral text
    else readBare (c :: text)

/-- A dotted key of at most `n` parts, with the blanks after it. -/
def readKeys : Nat → List Char → Option (List Key × List Char)
  | 0, _ => none
  | n + 1, text =>
    match readPart text with
    | none => none
    | some (key, rest) =>
      match rest.dropWhile isBlank with
      | '.' :: rest => (readKeys n (rest.dropWhile isBlank)).map fun p => (key :: p.1, p.2)
      | rest => some ([key], rest)

/-! ## Values -/

/-- Blanks, newlines and comments, which may stand between the elements of an array. -/
def skipFrom : Bool → List Char → List Char
  | _, [] => []
  | comment, c :: text =>
    if c = '\n' ∨ c = '\r' ∧ text.head? = some '\n' then skipFrom false text
    else if comment then if isText c then skipFrom true text else c :: text
    else if isBlank c then skipFrom false text
    else if c = '#' then skipFrom true text
    else c :: text

def skip (text : List Char) : List Char := skipFrom false text

/-- The elements of an array after its bracket; there may be a comma after the last one. -/
def readElements (read : List Char → Option (Value × List Char)) :
    Nat → List Char → Option (List Value × List Char)
  | 0, _ => none
  | n + 1, text =>
    if (skip text).head? = some ']' then some ([], (skip text).tail)
    else
      match read (skip text) with
      | none => none
      | some (value, rest) =>
        match skip rest with
        | ',' :: rest => (readElements read n rest).map fun p => (value :: p.1, p.2)
        | ']' :: rest => some ([value], rest)
        | _ => none

/-- A decimal integer. -/
def readDecimal (token : List Char) : Option Int :=
  let value : Option Int :=
    match token with
    | '-' :: digits => (Text.decimal digits).map fun n : Nat => -(n : Int)
    | digits => (Text.decimal digits).map fun n : Nat => (n : Int)
  -- no zeros in front
  value.filter fun n => (toString n).toList = token

section

variable (other : List Char → Option (Value × List Char))

def readScalar (text : List Char) : Option (Value × List Char) :=
  let token := text.takeWhile isScalar
  if token = "true".toList then some (.boolean true, text.dropWhile isScalar)
  else if token = "false".toList then some (.boolean false, text.dropWhile isScalar)
  else
    match readDecimal token with
    | some n => some (.integer n, text.dropWhile isScalar)
    | none => other text

/-- A value in which arrays are nested less than `n` deep. -/
def readValue : Nat → List Char → Option (Value × List Char)
  | 0, _ => none
  | _ + 1, [] => none
  | n + 1, c :: text =>
    if c = '"' then
      if text.take 2 = ['"', '"'] then other (c :: text)
      else (readBasic .plain text).map fun p => (.string p.1, p.2)
    else if c = '\'' then
      if text.take 2 = ['\'', '\''] then other (c :: text)
      else (readLiteral text).map fun p => (.string p.1, p.2)
    else if c = '[' then
      (readElements (readValue n) text.length text).map fun p => (.array p.1, p.2)
    else readScalar other (c :: text)

/-! ## Lines -/

/-- A header after its brackets, which end with `close`. -/
def readHeader (close text : List Char) : Option (List Key × List Char) :=
  match readKeys text.length (text.dropWhile isBlank) with
  | none => none
  | some (keys, rest) => (Text.afterPrefix close rest).map fun rest => (keys, rest)

def readAssign (text : List Char) : Option (Statement × List Char) :=
  match readKeys text.length text with
  | some (keys, '=' :: rest) =>
    (readValue other rest.length (rest.dropWhile isBlank)).map fun p => (.assign keys p.1, p.2)
  | _ => none

/-- The statement of a line, if it has one, and what follows it. -/
def readStatement (text : List Char) : Option (Option Statement × List Char) :=
  match text.dropWhile isBlank with
  | [] => some (none, [])
  | '[' :: '[' :: rest => (readHeader [']', ']'] rest).map fun p => (some (.tables p.1), p.2)
  | '[' :: rest => (readHeader [']'] rest).map fun p => (some (.table p.1), p.2)
  | c :: rest =>
    if c = '#' ∨ c = '\n' ∨ c = '\r' then some (none, c :: rest)
    else (readAssign other (c :: rest)).map fun p => (some p.1, p.2)

/-- What follows the end of a line, which may be in a comment. -/
def endLine (text : List Char) : Option (List Char) :=
  let text := text.dropWhile isBlank
  match if text.head? = some '#' then text.dropWhile isText else text with
  | [] => some []
  | '\n' :: rest => some rest
  | '\r' :: '\n' :: rest => some rest
  | _ => none

/-- The statements of at most `n` lines. -/
def readStatements : Nat → List Char → Option (List Statement)
  | _, [] => some []
  | 0, _ :: _ => none
  | n + 1, c :: text =>
    match readStatement other (c :: text) with
    | none => none
    | some (statement, rest) =>
      match endLine rest with
      | none => none
      | some rest => (readStatements n rest).map (statement.toList ++ ·)

end

variable {other : List Char → Option (Value × List Char)} {text rest raw : List Char}

/-! ## What is read of strings -/

theorem readBasic_plain {c : Char} (hquote : c ≠ '"') (hslash : c ≠ '\\') (htext : isText c = true) :
    readBasic .plain (c :: text) = (readBasic .plain text).map fun p => (c :: p.1, p.2) := by
  rw [readBasic, if_neg hquote, if_neg hslash, if_pos htext]

theorem readBasic_short {c d : Char} (h : shortEscape c = some d) :
    readBasic .plain ('\\' :: c :: text) =
      (readBasic .plain text).map fun p => (d :: p.1, p.2) := by
  have hu : c ≠ 'u' := by
    rintro rfl
    cases h
  have hU : c ≠ 'U' := by
    rintro rfl
    cases h
  rw [readBasic, if_neg (by decide), if_pos rfl, readBasic, if_neg hu, if_neg hU, h]

theorem readBasic_hex_succ {c : Char} {d : Nat} (hc : hexValue c = some d) (left value : Nat) :
    readBasic (.hex (left + 1) value) (c :: text) = readBasic (.hex left (16 * value + d)) text := by
  simp only [readBasic, hc]

theorem readBasic_hex_zero {c : Char} {d value : Nat} (hc : hexValue c = some d)
    (hvalid : (16 * value + d).isValidChar) : readBasic (.hex 0 value) (c :: text) =
      (readBasic .plain text).map fun p => (Char.ofNat (16 * value + d) :: p.1, p.2) := by
  simp only [readBasic, hc, hvalid, if_true]

/-- Digits that are followed by the rest of the string. -/
theorem readBasic_hex {digits : List Char} {values : List Nat}
    (hdigits : digits.map hexValue = values.map some) {left value : Nat}
    (hlength : digits.length = left + 1)
    (hvalid : (values.foldl (fun n d => 16 * n + d) value).isValidChar) :
    readBasic (.hex left value) (digits ++ text) = (readBasic .plain text).map fun p =>
      (Char.ofNat (values.foldl (fun n d => 16 * n + d) value) :: p.1, p.2) := by
  induction digits generalizing values left value with
  | nil => cases hlength
  | cons c digits ih =>
    cases values with
    | nil => cases hdigits
    | cons d values =>
      rw [List.map_cons, List.map_cons] at hdigits
      obtain ⟨hc, hrest⟩ := List.cons.inj hdigits
      rw [List.foldl_cons] at hvalid ⊢
      rw [List.cons_append]
      cases left with
      | zero =>
        have hnil : digits = [] := by simpa using hlength
        subst hnil
        have hvalues : values = [] := by simpa using hrest.symm
        subst hvalues
        exact readBasic_hex_zero hc hvalid
      | succ left =>
        rw [readBasic_hex_succ hc]
        exact ih hrest (by simpa using hlength) hvalid

/-- What follows a basic string is not looked at. -/
theorem readBasic_append {position : Position} {s : List Char}
    (h : readBasic position text = some (s, rest)) (more : List Char) :
    readBasic position (text ++ more) = some (s, rest ++ more) := by
  induction text generalizing position s with
  | nil => cases position <;> cases h
  | cons c text ih =>
    have hmap : ∀ {d : Char}, (readBasic .plain text).map (fun p => (d :: p.1, p.2)) =
        some (s, rest) → (readBasic .plain (text ++ more)).map (fun p => (d :: p.1, p.2)) =
        some (s, rest ++ more) := by
      intro d hmap
      obtain ⟨⟨s', rest'⟩, hread, heq⟩ := Option.map_eq_some_iff.mp hmap
      cases heq
      rw [ih hread]
      rfl
    rw [List.cons_append]
    cases position with
    | plain =>
      rw [readBasic] at h ⊢
      split_ifs at h ⊢
      · cases h
        rfl
      · exact ih h
      · exact hmap h
    | escape =>
      rw [readBasic] at h ⊢
      split_ifs at h ⊢
      · exact ih h
      · exact ih h
      · rcases hshort : shortEscape c with _ | d
        · rw [hshort] at h
          cases h
        · rw [hshort] at h
          exact hmap h
    | hex left value =>
      rcases hdigit : hexValue c with _ | d
      · simp only [readBasic, hdigit] at h
        cases h
      · cases left with
        | succ left =>
          rw [readBasic_hex_succ hdigit] at h ⊢
          exact ih h
        | zero =>
          simp only [readBasic, hdigit] at h ⊢
          split_ifs at h ⊢
          exact hmap h

/-- A literal string is what stands in front of its quote. -/
theorem readLiteral_append (hquote : '\'' ∉ raw) (htext : ∀ c ∈ raw, isText c = true) :
    readLiteral (raw ++ '\'' :: rest) = some (raw, rest) := by
  induction raw with
  | nil => exact if_pos rfl
  | cons c raw ih =>
    have hc : c ≠ '\'' := fun h => hquote (h ▸ List.mem_cons_self)
    have hrest := ih (fun h => hquote (List.mem_cons_of_mem _ h))
      fun d hd => htext d (List.mem_cons_of_mem _ hd)
    rw [List.cons_append, readLiteral, if_neg hc, if_pos (htext c List.mem_cons_self), hrest]
    rfl

theorem readLiteral_eq_some {s : List Char} (h : readLiteral text = some (s, rest)) :
    text = s ++ '\'' :: rest ∧ '\'' ∉ s ∧ ∀ c ∈ s, isText c = true := by
  induction text generalizing s with
  | nil => cases h
  | cons c text ih =>
    rw [readLiteral] at h
    split_ifs at h with hquote htext
    · cases h
      exact ⟨by rw [hquote]; rfl, List.not_mem_nil, fun _ h => absurd h List.not_mem_nil⟩
    · obtain ⟨⟨s', rest'⟩, hread, heq⟩ := Option.map_eq_some_iff.mp h
      cases heq
      obtain ⟨htail, hnot, hall⟩ := ih hread
      refine ⟨congrArg (c :: ·) htail, ?_, ?_⟩
      · rw [List.mem_cons]
        rintro (heq | hmem)
        · exact hquote heq.symm
        · exact hnot hmem
      · intro d hd
        rcases List.mem_cons.mp hd with rfl | hd
        · exact htext
        · exact hall d hd

/-! ## Keys that are read -/

theorem isBare_ne {c d : Char} (hc : isBare c = true) (hd : isBare d = false) : c ≠ d := by
  rintro rfl
  rw [hc] at hd
  cases hd

/-- A key of characters that need no quotes. -/
structure Bare (key : Key) : Prop where
  ne_nil : key ≠ []
  bare : ∀ c ∈ key, isBare c = true

theorem readBare_append {key : Key} (hkey : Bare key) (hrest : ∀ c ∈ rest.head?, isBare c = false) :
    readBare (key ++ rest) = some (key, rest) := by
  have hnone : rest.takeWhile isBare = [] ∧ rest.dropWhile isBare = rest := by
    cases rest with
    | nil => exact ⟨rfl, rfl⟩
    | cons c rest =>
      have hc := hrest c rfl
      rw [List.takeWhile_cons_of_neg (by simp [hc]), List.dropWhile_cons_of_neg (by simp [hc])]
      exact ⟨rfl, rfl⟩
  have htake : (key ++ rest).takeWhile isBare = key := by
    rw [List.takeWhile_append_of_pos hkey.bare, hnone.1, List.append_nil]
  have hdrop : (key ++ rest).dropWhile isBare = rest := by
    rw [List.dropWhile_append_of_pos hkey.bare, hnone.2]
  rw [readBare, htake, hdrop, if_neg hkey.ne_nil]

theorem readPart_append {key : Key} (hkey : Bare key) (hrest : ∀ c ∈ rest.head?, isBare c = false) :
    readPart (key ++ rest) = some (key, rest) := by
  obtain ⟨c, key', rfl⟩ := List.exists_cons_of_ne_nil hkey.ne_nil
  have hc := hkey.bare c List.mem_cons_self
  rw [List.cons_append, readPart, if_neg (isBare_ne hc (by decide)),
    if_neg (isBare_ne hc (by decide)), ← List.cons_append, readBare_append hkey hrest]

/-- The last part of a key. -/
theorem readKeys_last {key : Key} (hkey : Bare key) (hrest : ∀ c ∈ rest.head?, isBare c = false)
    (hdot : (rest.dropWhile isBlank).head? ≠ some '.') (n : Nat) :
    readKeys (n + 1) (key ++ rest) = some ([key], rest.dropWhile isBlank) := by
  rw [readKeys, readPart_append hkey hrest]
  dsimp only
  split
  · next h =>
    rw [h] at hdot
    exact absurd rfl hdot
  · rfl

/-- A part of a key that is not the last one. -/
theorem readKeys_dot {key : Key} (hkey : Bare key) (hrest : ∀ c ∈ rest.head?, isBlank c = false)
    (n : Nat) : readKeys (n + 1) (key ++ '.' :: rest) =
      (readKeys n rest).map fun p => (key :: p.1, p.2) := by
  have hblank : rest.dropWhile isBlank = rest := by
    cases rest with
    | nil => rfl
    | cons c rest => exact List.dropWhile_cons_of_neg (by simp [hrest c rfl])
  rw [readKeys, readPart_append hkey (by rintro c ⟨⟩; decide)]
  change (readKeys n (rest.dropWhile isBlank)).map _ = _
  rw [hblank]

/-- Keys without quotes, with dots between them. -/
theorem readKeys_intercalate {keys : List Key} (hkeys : ∀ key ∈ keys, Bare key) (hne : keys ≠ [])
    (hrest : ∀ c ∈ rest.head?, isBare c = false ∧ isBlank c = false ∧ c ≠ '.') {n : Nat}
    (hn : keys.length ≤ n) : readKeys n (['.'].intercalate keys ++ rest) = some (keys, rest) := by
  induction keys generalizing n with
  | nil => exact absurd rfl hne
  | cons key keys ih =>
    obtain ⟨n, rfl⟩ : ∃ m, n = m + 1 := ⟨n - 1, by rw [List.length_cons] at hn; omega⟩
    have hkey := hkeys key List.mem_cons_self
    cases keys with
    | nil =>
      have hblank : rest.dropWhile isBlank = rest := by
        cases rest with
        | nil => rfl
        | cons c rest => exact List.dropWhile_cons_of_neg (by simp [(hrest c rfl).2.1])
      rw [List.intercalate_singleton, readKeys_last hkey (fun c hc => (hrest c hc).1) _ n, hblank]
      rw [hblank]
      intro hdot
      exact (hrest '.' hdot).2.2 rfl
    | cons key' keys =>
      have hall : ∀ k ∈ key' :: keys, Bare k := fun k hk => hkeys k (List.mem_cons_of_mem _ hk)
      have hjoin : ['.'].intercalate (key :: key' :: keys) ++ rest =
          key ++ '.' :: (['.'].intercalate (key' :: keys) ++ rest) := by
        simp [List.intercalate, List.intersperse]
      have hhead : ∀ c ∈ (['.'].intercalate (key' :: keys) ++ rest).head?, isBlank c = false := by
        have hkey' := hall key' List.mem_cons_self
        obtain ⟨d, tail, rfl⟩ := List.exists_cons_of_ne_nil hkey'.ne_nil
        have hcons : ∃ more, ['.'].intercalate ((d :: tail) :: keys) ++ rest = d :: more := by
          cases keys with
          | nil => exact ⟨tail ++ rest, by rw [List.intercalate_singleton]; rfl⟩
          | cons k keys => exact ⟨_, by simp [List.intercalate, List.intersperse]; rfl⟩
        obtain ⟨more, hmore⟩ := hcons
        rw [hmore]
        rintro c ⟨⟩
        have hd := hkey'.bare d List.mem_cons_self
        have hspace : d ≠ ' ' := isBare_ne hd (by decide)
        have htab : d ≠ '\t' := isBare_ne hd (by decide)
        simp [isBlank, hspace, htab]
      rw [hjoin, readKeys_dot hkey hhead,
        ih hall (List.cons_ne_nil _ _) (Nat.le_of_succ_le_succ hn)]
      rfl

/-! ## Values that are read -/

/-- A number ends in front of such a text, and so does a string. -/
def Ends (rest : List Char) : Prop :=
  ∀ c ∈ rest.head?, isScalar c = false ∧ c ≠ '"' ∧ c ≠ '\''

/-- A character that starts an element of an array. -/
def Starts (c : Char) : Prop := c ∉ [' ', '\t', '\n', '\r', '#', ']']

theorem skip_cons {c : Char} (h : Starts c) : skip (c :: text) = c :: text := by
  have hc : c ≠ ' ' ∧ c ≠ '\t' ∧ c ≠ '\n' ∧ c ≠ '\r' ∧ c ≠ '#' ∧ c ≠ ']' := by
    simpa [Starts] using h
  rw [skip, skipFrom, if_neg (by simp [hc]), if_neg (by simp), if_neg (by simp [isBlank, hc]),
    if_neg hc.2.2.2.2.1]

/-- A text that is read as an element of an array. -/
structure Element (read : List Char → Option (Value × List Char)) (text : List Char)
    (value : Value) : Prop where
  starts : ∃ c tail, text = c :: tail ∧ Starts c
  read : ∀ rest, Ends rest → read (text ++ rest) = some (value, rest)

variable {read : List Char → Option (Value × List Char)} {value : Value}

theorem Element.skip (h : Element read text value) (rest : List Char) :
    skip (text ++ rest) = text ++ rest := by
  obtain ⟨c, tail, rfl, hc⟩ := h.starts
  exact skip_cons hc

theorem Element.head (h : Element read text value) (rest : List Char) :
    (text ++ rest).head? ≠ some ']' := by
  obtain ⟨c, tail, rfl, hc⟩ := h.starts
  rintro ⟨⟩
  exact hc (by simp)

theorem ends_cons {c : Char} (h : isScalar c = false ∧ c ≠ '"' ∧ c ≠ '\'') (rest : List Char) :
    Ends (c :: rest) := by
  rintro d ⟨⟩
  exact h

theorem readElements_comma (h : Element read text value) (n : Nat) (rest : List Char) :
    readElements read (n + 1) (text ++ ',' :: rest) =
      (readElements read n rest).map fun p => (value :: p.1, p.2) := by
  have hends : Ends (',' :: rest) := ends_cons (by decide) rest
  have hskip : Toml.skip (',' :: rest) = ',' :: rest := rfl
  rw [readElements, h.skip, if_neg (h.head _), h.read _ hends]
  simp only [hskip]

theorem readElements_last (h : Element read text value) (n : Nat) (rest : List Char) :
    readElements read (n + 1) (text ++ ']' :: rest) = some ([value], rest) := by
  have hends : Ends (']' :: rest) := ends_cons (by decide) rest
  have hskip : Toml.skip (']' :: rest) = ']' :: rest := rfl
  rw [readElements, h.skip, if_neg (h.head _), h.read _ hends]
  simp only [hskip]

theorem readElements_blank (n : Nat) (text : List Char) :
    readElements read n (' ' :: text) = readElements read n text := by
  have hskip : Toml.skip (' ' :: text) = Toml.skip text := rfl
  cases n with
  | zero => rfl
  | succ n => rw [readElements, readElements, hskip]

/-- The elements in front of a text are read first. -/
theorem readElements_flatMap {α : Type} {texts : α → List Char} {values : α → Value} {l : List α}
    (h : ∀ a ∈ l, Element read (texts a) (values a)) (n : Nat) (rest : List Char) :
    readElements read (l.length + n) (l.flatMap (texts · ++ [',', ' ']) ++ rest) =
      (readElements read n rest).map fun p => (l.map values ++ p.1, p.2) := by
  induction l with
  | nil => simp
  | cons a l ih =>
    have hcons : (a :: l).flatMap (texts · ++ [',', ' ']) ++ rest =
        texts a ++ ',' :: (' ' :: (l.flatMap (texts · ++ [',', ' ']) ++ rest)) := by
      simp [List.flatMap_cons, List.append_assoc]
    have hfuel : (a :: l).length + n = l.length + n + 1 := by
      rw [List.length_cons]
      omega
    rw [hcons, hfuel, readElements_comma (h a List.mem_cons_self), readElements_blank,
      ih fun b hb => h b (List.mem_cons_of_mem _ hb), Option.map_map]
    rfl

theorem length_le_intercalate (separator : List Char) {texts : List (List Char)}
    (h : ∀ text ∈ texts, text ≠ []) : texts.length ≤ (separator.intercalate texts).length := by
  induction texts with
  | nil => exact Nat.zero_le _
  | cons text texts ih =>
    have htext := List.length_pos_iff.mpr (h text List.mem_cons_self)
    have hrest := ih fun other hother => h other (List.mem_cons_of_mem _ hother)
    cases texts with
    | nil =>
      rw [List.intercalate_singleton]
      exact htext
    | cons next texts =>
      have hjoin : separator.intercalate (text :: next :: texts) =
          text ++ (separator ++ separator.intercalate (next :: texts)) := by
        simp [List.intercalate, List.intersperse]
      simp only [hjoin, List.length_append, List.length_cons] at hrest ⊢
      omega

theorem not_mem_intercalate {c : Char} {separator : List Char} (hseparator : c ∉ separator)
    {texts : List (List Char)} (h : ∀ text ∈ texts, c ∉ text) :
    c ∉ separator.intercalate texts := by
  induction texts with
  | nil => exact List.not_mem_nil
  | cons text texts ih =>
    have htext := h text List.mem_cons_self
    have hrest := ih fun other hother => h other (List.mem_cons_of_mem _ hother)
    cases texts with
    | nil =>
      rw [List.intercalate_singleton]
      exact htext
    | cons next texts =>
      have hjoin : separator.intercalate (text :: next :: texts) =
          text ++ (separator ++ separator.intercalate (next :: texts)) := by
        simp [List.intercalate, List.intersperse]
      rw [hjoin, List.mem_append, List.mem_append]
      rintro (hmem | hmem | hmem)
      · exact htext hmem
      · exact hseparator hmem
      · exact hrest hmem

theorem intercalate_append (separator next : List Char) (front back : List (List Char)) :
    separator.intercalate (front ++ next :: back) =
      front.flatMap (· ++ separator) ++ separator.intercalate (next :: back) := by
  induction front with
  | nil => rfl
  | cons text front ih =>
    obtain ⟨first, more, hfirst⟩ := List.exists_cons_of_ne_nil
      (show front ++ next :: back ≠ [] by simp)
    have hstep : separator.intercalate (text :: (front ++ next :: back)) =
        text ++ separator ++ separator.intercalate (front ++ next :: back) := by
      rw [hfirst]
      simp [List.intercalate, List.intersperse]
    rw [List.cons_append, hstep, ih, List.flatMap_cons]
    simp only [List.append_assoc]

/-- An array whose elements are separated by commas and blanks. -/
theorem readElements_intercalate {α : Type} {texts : α → List Char} {values : α → Value}
    {l : List α} (h : ∀ a ∈ l, Element read (texts a) (values a)) {n : Nat} (hn : l.length < n)
    (rest : List Char) : readElements read n ([',', ' '].intercalate (l.map texts) ++ ']' :: rest) =
      some (l.map values, rest) := by
  rcases List.eq_nil_or_concat l with rfl | ⟨front, last, rfl⟩
  · obtain ⟨n, rfl⟩ : ∃ m, n = m + 1 := ⟨n - 1, by rw [List.length_nil] at hn; omega⟩
    rfl
  · obtain ⟨n, rfl⟩ : ∃ m, n = front.length + (m + 1) :=
      ⟨n - front.length - 1, by rw [List.length_concat] at hn; omega⟩
    rw [List.concat_eq_append] at h ⊢
    have hjoin : [',', ' '].intercalate ((front ++ [last]).map texts) =
        front.flatMap (texts · ++ [',', ' ']) ++ texts last := by
      rw [List.map_append, List.map_singleton, intercalate_append, List.intercalate_singleton,
        List.flatMap_map]
    rw [hjoin, List.append_assoc,
      readElements_flatMap fun a ha => h a (List.mem_append_left _ ha),
      readElements_last (h last (by simp))]
    simp

/-- The first element is what is read at the start of a text. -/
theorem readElements_head {c : Char} (hc : Starts c) {n : Nat} {values : List Value}
    (h : readElements read n (c :: text) = some (values, rest)) :
    ∃ value more rest', read (c :: text) = some (value, rest') ∧ values = value :: more := by
  cases n with
  | zero => cases h
  | succ n =>
    have hclose : (c :: text).head? ≠ some ']' := by
      rintro ⟨⟩
      exact hc (by simp)
    rw [readElements, skip_cons hc, if_neg hclose] at h
    rcases hread : read (c :: text) with _ | ⟨value, rest'⟩
    · rw [hread] at h
      cases h
    · rw [hread] at h
      dsimp only at h
      split at h
      · obtain ⟨p, _, hp⟩ := Option.map_eq_some_iff.mp h
        cases hp
        exact ⟨value, p.1, rest', rfl, rfl⟩
      · cases h
        exact ⟨value, [], rest', rfl, rfl⟩
      · cases h

theorem readValue_array (n : Nat) (text : List Char) : readValue other (n + 1) ('[' :: text) =
    (readElements (readValue other n) text.length text).map fun p => (.array p.1, p.2) := rfl

theorem Element.ne_nil (h : Element read text value) : text ≠ [] := by
  obtain ⟨c, tail, rfl, _⟩ := h.starts
  exact List.cons_ne_nil _ _

/-- An array of elements that are read. -/
theorem readValue_elements {α : Type} {texts : α → List Char} {values : α → Value} {l : List α}
    {n : Nat} (h : ∀ a ∈ l, Element (readValue other n) (texts a) (values a)) (rest : List Char) :
    readValue other (n + 1) ('[' :: ([',', ' '].intercalate (l.map texts) ++ ']' :: rest)) =
      some (.array (l.map values), rest) := by
  have hle : (l.map texts).length ≤ ([',', ' '].intercalate (l.map texts)).length := by
    apply length_le_intercalate
    intro text htext
    obtain ⟨a, ha, rfl⟩ := List.mem_map.mp htext
    exact (h a ha).ne_nil
  have hfuel : l.length < ([',', ' '].intercalate (l.map texts) ++ ']' :: rest).length := by
    rw [List.length_map] at hle
    rw [List.length_append, List.length_cons]
    omega
  rw [readValue_array, readElements_intercalate h hfuel]
  rfl

theorem length_le_flatMap {α : Type} (texts : α → List Char) (l : List α) :
    l.length ≤ (l.flatMap (texts · ++ [',', ' '])).length := by
  induction l with
  | nil => exact Nat.zero_le _
  | cons a l ih =>
    simp only [List.flatMap_cons, List.length_append, List.length_cons] at ih ⊢
    omega

theorem exists_ends (next : List Char) (back : List (List Char)) (rest : List Char) :
    ∃ after, Ends after ∧
      [',', ' '].intercalate (next :: back) ++ ']' :: rest = next ++ after := by
  cases back with
  | nil => exact ⟨']' :: rest, ends_cons (by decide) _, by rw [List.intercalate_singleton]⟩
  | cons text back =>
    refine ⟨',' :: ' ' :: ([',', ' '].intercalate (text :: back) ++ ']' :: rest),
      ends_cons (by decide) _, ?_⟩
    simp [List.intercalate, List.intersperse]

/-- After elements that are read, the next one is what is read at its start. -/
theorem readValue_elements_next {α : Type} {texts : α → List Char} {values : α → Value}
    {front : List α} {n : Nat} (h : ∀ a ∈ front, Element (readValue other n) (texts a) (values a))
    {next : List Char} (hnext : ∃ c tail, next = c :: tail ∧ Starts c) {back : List (List Char)}
    (hread : readValue other (n + 1)
      ('[' :: ([',', ' '].intercalate (front.map texts ++ next :: back) ++ ']' :: rest)) =
        some (value, raw)) :
    ∃ element more after rest', Ends after ∧
      readValue other n (next ++ after) = some (element, rest') ∧
      value = .array (front.map values ++ element :: more) := by
  obtain ⟨after, hends, hafter⟩ := exists_ends next back rest
  have htext : [',', ' '].intercalate (front.map texts ++ next :: back) ++ ']' :: rest =
      front.flatMap (texts · ++ [',', ' ']) ++ (next ++ after) := by
    rw [intercalate_append, List.append_assoc, hafter, List.flatMap_map]
  have hfuel : ∃ m, (front.flatMap (texts · ++ [',', ' ']) ++ (next ++ after)).length =
      front.length + m := by
    apply Nat.exists_eq_add_of_le
    rw [List.length_append]
    exact Nat.le_add_right_of_le (length_le_flatMap texts front)
  obtain ⟨m, hm⟩ := hfuel
  rw [htext, readValue_array, hm, readElements_flatMap h, Option.map_map] at hread
  obtain ⟨⟨elements, rest'⟩, helements, heq⟩ := Option.map_eq_some_iff.mp hread
  cases heq
  obtain ⟨c, tail, rfl, hc⟩ := hnext
  obtain ⟨element, more, rest'', hfirst, rfl⟩ := readElements_head hc helements
  exact ⟨element, more, after, rest'', hends, hfirst, rfl⟩

theorem readValue_basic (n : Nat) (h : text.take 2 ≠ ['"', '"']) :
    readValue other (n + 1) ('"' :: text) =
      (readBasic .plain text).map fun p => (.string p.1, p.2) := by
  rw [readValue, if_pos rfl, if_neg h]

theorem readValue_literal (n : Nat) (h : text.take 2 ≠ ['\'', '\'']) :
    readValue other (n + 1) ('\'' :: text) =
      (readLiteral text).map fun p => (.string p.1, p.2) := by
  rw [readValue, if_neg (by decide), if_pos rfl, if_neg h]

theorem isScalar_digit {c : Char} (h : c.isDigit) : isScalar c = true := by
  simp [isScalar, Char.isAlphanum, h]

theorem toList_toString_int (i : Int) : ∃ c tail, (toString i).toList = c :: tail ∧
    (c = '-' ∨ c.isDigit) ∧ ∀ d ∈ tail, d.isDigit := by
  have hnat : ∀ n : Nat, ∀ d ∈ (toString n).toList, d.isDigit := by
    intro n d hd
    rw [Nat.toString_eq_ofList_toDigits, String.toList_ofList] at hd
    exact Nat.isDigit_of_mem_toDigits (by omega) (by omega) hd
  rcases i with n | n
  · have hne : (toString n).toList ≠ [] := by
      rw [Nat.toString_eq_ofList_toDigits, String.toList_ofList]
      exact Nat.toDigits_ne_nil
    obtain ⟨c, tail, hcons⟩ := List.exists_cons_of_ne_nil hne
    have hall := hnat n
    rw [hcons] at hall
    exact ⟨c, tail, hcons, Or.inr (hall c List.mem_cons_self),
      fun d hd => hall d (List.mem_cons_of_mem _ hd)⟩
  · refine ⟨'-', (toString (n + 1)).toList, ?_, Or.inl rfl, hnat (n + 1)⟩
    change ("-" ++ toString (n + 1)).toList = _
    rw [String.toList_append]
    rfl

theorem readDecimal_toString (i : Int) : readDecimal (toString i).toList = some i := by
  have hvalue : (match (toString i).toList with
      | '-' :: digits => (Text.decimal digits).map fun n : Nat => -(n : Int)
      | digits => (Text.decimal digits).map fun n : Nat => (n : Int)) = some i := by
    rcases i with n | n
    · have hdecimal : Text.decimal (toString (Int.ofNat n)).toList = some n := Text.decimal_toString n
      split
      · next digits heq =>
        rw [heq] at hdecimal
        cases hdecimal
      · rw [hdecimal]
        rfl
    · have hneg : (toString (Int.negSucc n)).toList = '-' :: (toString (n + 1)).toList := by
        change ("-" ++ toString (n + 1)).toList = _
        rw [String.toList_append]
        rfl
      rw [hneg]
      change (Text.decimal (toString (n + 1)).toList).map _ = _
      rw [Text.decimal_toString]
      rfl
  unfold readDecimal
  rw [hvalue, Option.filter_some, if_pos (by simp)]

/-- An integer is read from its decimal digits. -/
theorem readValue_toString (i : Int) (n : Nat) (hrest : Ends rest) :
    readValue other (n + 1) ((toString i).toList ++ rest) = some (.integer i, rest) := by
  obtain ⟨c, tail, hcons, hc, htail⟩ := toList_toString_int i
  have hscalar : ∀ d ∈ (toString i).toList, isScalar d = true := by
    rw [hcons]
    intro d hd
    rcases List.mem_cons.mp hd with rfl | hd
    · rcases hc with rfl | hc
      · decide
      · exact isScalar_digit hc
    · exact isScalar_digit (htail d hd)
  have hnone : rest.takeWhile isScalar = [] ∧ rest.dropWhile isScalar = rest := by
    cases rest with
    | nil => exact ⟨rfl, rfl⟩
    | cons d rest =>
      have hd := (hrest d rfl).1
      rw [List.takeWhile_cons_of_neg (by simp [hd]), List.dropWhile_cons_of_neg (by simp [hd])]
      exact ⟨rfl, rfl⟩
  have htake : ((toString i).toList ++ rest).takeWhile isScalar = (toString i).toList := by
    rw [List.takeWhile_append_of_pos hscalar, hnone.1, List.append_nil]
  have hdrop : ((toString i).toList ++ rest).dropWhile isScalar = rest := by
    rw [List.dropWhile_append_of_pos hscalar, hnone.2]
  have hne : ∀ d : Char, d ≠ '-' → d.isDigit = false → c ≠ d := by
    rintro d hd hdigit rfl
    rcases hc with rfl | hc
    · exact hd rfl
    · rw [hc] at hdigit
      cases hdigit
  have hword : ∀ (word : String) (d : Char), word.toList.head? = some d → d ≠ '-' →
      d.isDigit = false → (toString i).toList ≠ word.toList := by
    intro word d hhead hd hdigit heq
    rw [← heq, hcons] at hhead
    exact hne d hd hdigit (Option.some.inj hhead)
  have hread : readScalar other ((toString i).toList ++ rest) = some (.integer i, rest) := by
    rw [readScalar, htake, hdrop, if_neg (hword "true" 't' rfl (by decide) (by decide)),
      if_neg (hword "false" 'f' rfl (by decide) (by decide)), readDecimal_toString]
  rw [hcons, List.cons_append] at hread ⊢
  rw [readValue, if_neg (hne '"' (by decide) (by decide)),
    if_neg (hne '\'' (by decide) (by decide)), if_neg (hne '[' (by decide) (by decide)), hread]

/-! ## Lines that are read -/

theorem Bare.head_ne {key : Key} (h : Bare key) {c : Char} (hc : isBare c = false)
    (rest : List Char) : (key ++ rest).head? ≠ some c := by
  obtain ⟨d, tail, rfl⟩ := List.exists_cons_of_ne_nil h.ne_nil
  rw [List.cons_append, List.head?_cons, Ne, Option.some_inj]
  exact isBare_ne (h.bare d List.mem_cons_self) hc

theorem dropWhile_isBlank (h : ∀ c ∈ text.head?, isBlank c = false) :
    text.dropWhile isBlank = text := by
  cases text with
  | nil => rfl
  | cons c text => exact List.dropWhile_cons_of_neg (by simp [h c rfl])

theorem isBlank_of_isBare {c : Char} (h : isBare c = true) : isBlank c = false := by
  have hspace : c ≠ ' ' := isBare_ne h (by decide)
  have htab : c ≠ '\t' := isBare_ne h (by decide)
  simp [isBlank, hspace, htab]

theorem exists_intercalate {key : Key} (keys : List Key) (hkey : Bare key) :
    ∃ c more, ['.'].intercalate (key :: keys) = c :: more ∧ isBare c = true := by
  obtain ⟨c, tail, rfl⟩ := List.exists_cons_of_ne_nil hkey.ne_nil
  have hc := hkey.bare c List.mem_cons_self
  cases keys with
  | nil => exact ⟨c, tail, List.intercalate_singleton, hc⟩
  | cons key' keys => exact ⟨c, _, by simp [List.intercalate, List.intersperse]; rfl, hc⟩

/-- A header of keys without quotes. -/
theorem readHeader_intercalate {keys : List Key} (hkeys : ∀ key ∈ keys, Bare key) (hne : keys ≠ [])
    (close rest : List Char) :
    readHeader (']' :: close) (['.'].intercalate keys ++ (']' :: close ++ rest)) =
      some (keys, rest) := by
  have hclose : ∀ c ∈ (']' :: close ++ rest).head?, isBare c = false ∧ isBlank c = false ∧ c ≠ '.' := by
    rintro c ⟨⟩
    decide
  have hfuel : keys.length ≤ (['.'].intercalate keys ++ (']' :: close ++ rest)).length := by
    rw [List.length_append]
    exact Nat.le_add_right_of_le (length_le_intercalate _ fun key hkey => (hkeys key hkey).ne_nil)
  have hblank : (['.'].intercalate keys ++ (']' :: close ++ rest)).dropWhile isBlank =
      ['.'].intercalate keys ++ (']' :: close ++ rest) := by
    obtain ⟨key, keys, rfl⟩ := List.exists_cons_of_ne_nil hne
    obtain ⟨c, more, hcons, hc⟩ := exists_intercalate keys (hkeys key List.mem_cons_self)
    apply dropWhile_isBlank
    rw [hcons]
    rintro d ⟨⟩
    exact isBlank_of_isBare hc
  rw [readHeader, hblank, readKeys_intercalate hkeys hne hclose hfuel]
  change (Text.afterPrefix (']' :: close) (']' :: close ++ rest)).map _ = _
  rw [Text.afterPrefix_append]
  rfl

theorem readStatement_table {keys : List Key} (hkeys : ∀ key ∈ keys, Bare key) (hne : keys ≠ [])
    (rest : List Char) :
    readStatement other ('[' :: (['.'].intercalate keys ++ ']' :: rest)) =
      some (some (.table keys), rest) := by
  have hread := readHeader_intercalate hkeys hne [] rest
  obtain ⟨key, keys, rfl⟩ := List.exists_cons_of_ne_nil hne
  obtain ⟨c, more, hcons, hc⟩ := exists_intercalate keys (hkeys key List.mem_cons_self)
  have hopen : c ≠ '[' := isBare_ne hc (by decide)
  rw [hcons] at hread ⊢
  rw [readStatement, dropWhile_isBlank (by rintro d ⟨⟩; decide), List.cons_append]
  split
  · next heq => cases heq
  · next heq =>
    rw [List.cons.injEq, List.cons.injEq] at heq
    exact absurd heq.2.1 hopen
  · next heq =>
    cases heq
    change (readHeader [']'] (c :: (more ++ ']' :: rest))).map _ = _
    change readHeader [']'] (c :: (more ++ ']' :: rest)) = _ at hread
    rw [hread]
    rfl
  · next hnot heq =>
    cases heq
    exact (hnot rfl).elim

theorem readStatement_tables {keys : List Key} (hkeys : ∀ key ∈ keys, Bare key) (hne : keys ≠ [])
    (rest : List Char) :
    readStatement other ('[' :: '[' :: (['.'].intercalate keys ++ ']' :: ']' :: rest)) =
      some (some (.tables keys), rest) := by
  have hread := readHeader_intercalate hkeys hne [']'] rest
  change (readHeader [']', ']'] (['.'].intercalate keys ++ ']' :: ']' :: rest)).map _ = _
  rw [List.cons_append, List.cons_append, List.nil_append] at hread
  rw [hread]
  rfl

/-- An assignment to a key without quotes: what is read is decided by its value. -/
theorem readStatement_assign {key : Key} (hkey : Bare key)
    (htext : ∀ c ∈ text.head?, isBlank c = false) :
    readStatement other (key ++ ' ' :: '=' :: ' ' :: text) =
      (readValue other (text.length + 1) text).map fun p => (some (.assign [key] p.1), p.2) := by
  have hblank : (' ' :: text).dropWhile isBlank = text := by
    rw [List.dropWhile_cons_of_pos (by decide), dropWhile_isBlank htext]
  have hkeys : readKeys (key ++ ' ' :: '=' :: ' ' :: text).length (key ++ ' ' :: '=' :: ' ' :: text) =
      some ([key], '=' :: ' ' :: text) := by
    have hfuel : (key ++ ' ' :: '=' :: ' ' :: text).length =
        (key ++ '=' :: ' ' :: text).length + 1 := by
      simp only [List.length_append, List.length_cons]
      omega
    have hspace : (' ' :: '=' :: ' ' :: text).dropWhile isBlank = '=' :: ' ' :: text := rfl
    have hlast : ∀ n, readKeys (n + 1) (key ++ ' ' :: '=' :: ' ' :: text) =
        some ([key], (' ' :: '=' :: ' ' :: text).dropWhile isBlank) :=
      readKeys_last hkey (by rintro c ⟨⟩; decide) (by rw [hspace]; simp)
    rw [hfuel, hlast, hspace]
  have hassign : readAssign other (key ++ ' ' :: '=' :: ' ' :: text) =
      (readValue other (text.length + 1) text).map fun p => (.assign [key] p.1, p.2) := by
    rw [readAssign, hkeys]
    change (readValue other (' ' :: text).length ((' ' :: text).dropWhile isBlank)).map _ = _
    rw [hblank]
    rfl
  obtain ⟨c, tail, rfl⟩ := List.exists_cons_of_ne_nil hkey.ne_nil
  have hc := hkey.bare c List.mem_cons_self
  rw [List.cons_append] at hassign ⊢
  rw [readStatement, dropWhile_isBlank (by rintro d ⟨⟩; exact isBlank_of_isBare hc)]
  split
  · next heq => cases heq
  · next heq =>
    rw [(List.cons.inj heq).1] at hc
    exact absurd hc (by decide)
  · next heq =>
    rw [(List.cons.inj heq).1] at hc
    exact absurd hc (by decide)
  · next heq =>
    cases heq
    have hplain : ¬ (c = '#' ∨ c = '\n' ∨ c = '\r') := by
      rintro (rfl | rfl | rfl) <;> exact absurd hc (by decide)
    rw [if_neg hplain, hassign, Option.map_map]
    rfl

/-- A line of the text, with what is read from it. -/
def Line (other : List Char → Option (Value × List Char)) (line : List Char)
    (statement : Option Statement) : Prop :=
  ∀ rest, readStatement other (line ++ '\n' :: rest) = some (statement, '\n' :: rest)

theorem line_nil : Line other [] none := fun _ => rfl

theorem line_table {keys : List Key} (hkeys : ∀ key ∈ keys, Bare key) (hne : keys ≠ []) :
    Line other ('[' :: (['.'].intercalate keys ++ [']'])) (some (.table keys)) := by
  intro rest
  rw [List.cons_append, List.append_assoc]
  exact readStatement_table hkeys hne ('\n' :: rest)

theorem line_tables {keys : List Key} (hkeys : ∀ key ∈ keys, Bare key) (hne : keys ≠ []) :
    Line other ('[' :: '[' :: (['.'].intercalate keys ++ [']', ']'])) (some (.tables keys)) := by
  intro rest
  rw [List.cons_append, List.cons_append, List.append_assoc]
  exact readStatement_tables hkeys hne ('\n' :: rest)

/-- An assignment of a value that is read up to the end of its line. -/
theorem line_assign {key : Key} (hkey : Bare key) (htext : text ≠ [])
    (hblank : ∀ c ∈ text.head?, isBlank c = false)
    (hvalue : ∀ n rest, readValue other (n + 2) (text ++ '\n' :: rest) = some (value, '\n' :: rest)) :
    Line other (key ++ ' ' :: '=' :: ' ' :: text) (some (.assign [key] value)) := by
  intro rest
  obtain ⟨c, tail, rfl⟩ := List.exists_cons_of_ne_nil htext
  have hfuel : (c :: tail ++ '\n' :: rest).length + 1 = (tail ++ '\n' :: rest).length + 2 := rfl
  rw [List.append_assoc]
  change readStatement other (key ++ ' ' :: '=' :: ' ' :: (c :: tail ++ '\n' :: rest)) = _
  rw [readStatement_assign hkey (by rintro d ⟨⟩; exact hblank c rfl), hfuel, hvalue]
  rfl

theorem readValue_boolean (b : Bool) (n : Nat) (rest : List Char) :
    readValue other (n + 1) ((if b then "true" else "false").toList ++ '\n' :: rest) =
      some (.boolean b, '\n' :: rest) := by
  cases b <;> rfl

/-- A basic string whose characters end where its text ends. -/
theorem readValue_quoted {s : List Char} (h : readBasic .plain (text ++ ['"']) = some (s, []))
    (n : Nat) (rest : List Char) :
    readValue other (n + 1) ('"' :: text ++ ['"'] ++ '\n' :: rest) =
      some (.string s, '\n' :: rest) := by
  have htake : (text ++ ['"'] ++ '\n' :: rest).take 2 ≠ ['"', '"'] := by
    cases text with
    | nil => simp
    | cons c text =>
      intro htake
      have hc : c = '"' := (List.cons.inj htake).1
      rw [hc, List.cons_append, readBasic, if_pos rfl] at h
      simp at h
  have hread := readBasic_append h ('\n' :: rest)
  rw [List.cons_append, List.cons_append, readValue_basic n htake, hread]
  rfl

/-- The lines in front of a text are read first. -/
theorem readStatements_lines {lines : List (List Char × Option Statement)}
    (h : ∀ line ∈ lines, Line other line.1 line.2) (n : Nat) (rest : List Char) :
    readStatements other (lines.length + n) (lines.flatMap (·.1 ++ ['\n']) ++ rest) =
      (readStatements other n rest).map (lines.filterMap (·.2) ++ ·) := by
  induction lines with
  | nil => simp
  | cons line lines ih =>
    obtain ⟨line, statement⟩ := line
    have hline := h _ List.mem_cons_self
      (lines.flatMap (·.1 ++ ['\n']) ++ rest)
    have hcons : ((line, statement) :: lines).flatMap (·.1 ++ ['\n']) ++ rest =
        line ++ '\n' :: (lines.flatMap (·.1 ++ ['\n']) ++ rest) := by
      simp [List.flatMap_cons, List.append_assoc]
    have hfuel : ((line, statement) :: lines).length + n = lines.length + n + 1 := by
      rw [List.length_cons]
      omega
    have hstep : ∀ text, readStatement other text =
        some (statement, '\n' :: (lines.flatMap (·.1 ++ ['\n']) ++ rest)) → text ≠ [] →
        readStatements other (lines.length + n + 1) text =
          (readStatements other (lines.length + n) (lines.flatMap (·.1 ++ ['\n']) ++ rest)).map
            (statement.toList ++ ·) := by
      intro text hread hne
      obtain ⟨c, text, rfl⟩ := List.exists_cons_of_ne_nil hne
      rw [readStatements, hread]
      rfl
    rw [hcons, hfuel, hstep _ hline (by simp),
      ih fun l hl => h l (List.mem_cons_of_mem _ hl), Option.map_map]
    cases statement with
    | none => rfl
    | some statement => rfl

/-- A line that starts with an assignment: the first statement has the value that is read. -/
theorem readStatements_assign {key : Key} (hkey : Bare key) (htext : text ≠ [])
    (hblank : ∀ c ∈ text.head?, isBlank c = false) {n : Nat} {statements : List Statement}
    (h : readStatements other n (key ++ ' ' :: '=' :: ' ' :: text) = some statements) :
    ∃ m value rest more, readValue other (m + 2) text = some (value, rest) ∧
      statements = .assign [key] value :: more := by
  obtain ⟨c, tail, rfl⟩ := List.exists_cons_of_ne_nil hkey.ne_nil
  cases n with
  | zero => cases h
  | succ n =>
    obtain ⟨d, more, rfl⟩ := List.exists_cons_of_ne_nil htext
    rw [List.cons_append, readStatements, ← List.cons_append, readStatement_assign hkey hblank] at h
    rcases hvalue : readValue other ((d :: more).length + 1) (d :: more) with _ | ⟨value, rest⟩
    · rw [hvalue] at h
      cases h
    rw [hvalue] at h
    change (match endLine rest with
      | none => none
      | some rest => _) = _ at h
    rcases hend : endLine rest with _ | after
    · rw [hend] at h
      cases h
    rw [hend] at h
    obtain ⟨statements', _, heq⟩ := Option.map_eq_some_iff.mp h
    cases heq
    exact ⟨more.length, value, rest, statements', hvalue, rfl⟩

end Toml
