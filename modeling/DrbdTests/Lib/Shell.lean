import Mathlib.Data.List.Basic
import Mathlib.Data.List.Forall2

/-!
# Shell command lines

A part of the command language of `bash`: words between blanks, quoted with `'` or `"`, in
commands between semicolons. A line with any other character that is special to the shell is
not read.

`quote` is `shlex.quote`. A line of quoted words is read as these words (`reads_quote`), and
so are words that need no quotes (`reads_safe`).
-/

namespace Shell

/-! ## Quoting -/

/-- A character that `shlex.quote` leaves alone. -/
def isSafe (c : Char) : Bool :=
  c.isAlphanum || c ∈ ['_', '@', '%', '+', '=', ':', ',', '.', '/', '-']

/-- A word that needs no quotes. -/
def Safe (word : List Char) : Prop := word ≠ [] ∧ ∀ c ∈ word, isSafe c = true

instance (word : List Char) : Decidable (Safe word) :=
  decidable_of_iff (word ≠ [] ∧ word.all isSafe = true) (by simp [Safe])

/-- `s.replace("'", "'\"'\"'")` -/
def escape (word : List Char) : List Char :=
  word.flatMap fun c => if c = '\'' then ['\'', '"', '\'', '"', '\''] else [c]

/-- `shlex.quote` -/
def quote (word : List Char) : List Char :=
  if word = [] then ['\'', '\'']
  else if word.all isSafe then word
  else '\'' :: escape word ++ ['\'']

/-- `' '.join(words)` -/
def join (words : List (List Char)) : List Char := [' '].intercalate words

/-! ## Reading -/

inductive Token
  | word (text : List Char)
  | semicolon
  deriving DecidableEq, Repr

inductive Mode
  | plain
  | single
  | double
  deriving DecidableEq, Repr

/-- The end of the current word, if there is one. -/
def flush : Option (List Char) → List Token
  | none => []
  | some text => [.word text]

def lex : Mode → Option (List Char) → List Char → Option (List Token)
  | .plain, current, [] => some (flush current)
  | .single, _, [] => none
  | .double, _, [] => none
  | .plain, current, c :: rest =>
    if c = ' ' then (lex .plain none rest).map (flush current ++ ·)
    else if c = ';' then (lex .plain none rest).map (flush current ++ .semicolon :: ·)
    else if c = '\'' then lex .single (some (current.getD [])) rest
    else if c = '"' then lex .double (some (current.getD [])) rest
    else if isSafe c then lex .plain (some (current.getD [] ++ [c])) rest
    else none
  | .single, current, c :: rest =>
    if c = '\'' then lex .plain current rest
    else lex .single (some (current.getD [] ++ [c])) rest
  | .double, current, c :: rest =>
    if c = '"' then lex .plain current rest
    else if c ∈ ['$', '`', '\\', '!'] then none
    else lex .double (some (current.getD [] ++ [c])) rest

/-- The commands between the semicolons. -/
def splitCommands : List Token → List (List (List Char))
  | [] => [[]]
  | .semicolon :: tokens => [] :: splitCommands tokens
  | .word text :: tokens =>
    match splitCommands tokens with
    | [] => [[text]]
    | command :: commands => (text :: command) :: commands

/-- The commands of a line. -/
def commands (line : List Char) : Option (List (List (List Char))) :=
  (lex .plain none line).map splitCommands

/-! ## Words -/

/-- The text is read as the word. -/
def Spells (text word : List Char) : Prop :=
  ∀ rest, lex .plain none (text ++ rest) = lex .plain (some word) rest

theorem isSafe_special {c : Char} (h : isSafe c = true) :
    c ≠ ' ' ∧ c ≠ ';' ∧ c ≠ '\'' ∧ c ≠ '"' := by
  refine ⟨?_, ?_, ?_, ?_⟩
  · rintro rfl
    exact absurd h (by decide)
  · rintro rfl
    exact absurd h (by decide)
  · rintro rfl
    exact absurd h (by decide)
  · rintro rfl
    exact absurd h (by decide)

theorem lex_isSafe {c : Char} (h : isSafe c = true) (current : Option (List Char))
    (rest : List Char) :
    lex .plain current (c :: rest) = lex .plain (some (current.getD [] ++ [c])) rest := by
  obtain ⟨hblank, hsemi, hsingle, hdouble⟩ := isSafe_special h
  rw [lex, if_neg hblank, if_neg hsemi, if_neg hsingle, if_neg hdouble, if_pos h]

theorem lex_safe {word : List Char} (h : ∀ c ∈ word, isSafe c = true) (current rest : List Char) :
    lex .plain (some current) (word ++ rest) = lex .plain (some (current ++ word)) rest := by
  induction word generalizing current with
  | nil => rw [List.nil_append, List.append_nil]
  | cons c word ih =>
    rw [List.cons_append, lex_isSafe (h c (by simp)), ih fun d hd => h d (by simp [hd])]
    simp

theorem spells_safe {word : List Char} (h : Safe word) : Spells word word := by
  obtain ⟨hne, hsafe⟩ := h
  obtain ⟨c, word', rfl⟩ := List.exists_cons_of_ne_nil hne
  intro rest
  rw [List.cons_append, lex_isSafe (hsafe c (by simp)), Option.getD_none, List.nil_append,
    lex_safe fun d hd => hsafe d (by simp [hd])]
  rfl

/-- The text between the quotes. -/
theorem lex_escape (word current rest : List Char) :
    lex .single (some current) (escape word ++ '\'' :: rest) =
      lex .plain (some (current ++ word)) rest := by
  induction word generalizing current with
  | nil =>
    rw [List.append_nil]
    rfl
  | cons c word ih =>
    by_cases hc : c = '\''
    · -- the quote is closed, and opened again after a quoted `'`
      subst hc
      have hescape : escape ('\'' :: word) = ['\'', '"', '\'', '"', '\''] ++ escape word := rfl
      rw [hescape, List.append_assoc]
      change lex .single (some (current ++ ['\''])) (escape word ++ '\'' :: rest) = _
      rw [ih, List.append_assoc]
      rfl
    · have hescape : escape (c :: word) = c :: escape word := by
        rw [escape, List.flatMap_cons, if_neg hc]
        rfl
      rw [hescape, List.cons_append, lex, if_neg hc, Option.getD_some, ih, List.append_assoc]
      rfl

theorem spells_quote (word : List Char) : Spells (quote word) word := by
  unfold quote
  split
  · rename_i h
    subst h
    exact fun rest => rfl
  · rename_i hne
    split
    · rename_i hall
      exact spells_safe ⟨hne, List.all_eq_true.mp hall⟩
    · intro rest
      rw [List.cons_append, List.cons_append, List.append_assoc]
      exact lex_escape word [] rest

/-! ## Commands -/

/-- A word ends here. -/
def Stops (rest : List Char) : Prop :=
  ∀ word, lex .plain (some word) rest = (lex .plain none rest).map (Token.word word :: ·)

theorem stops_nil : Stops [] := fun _ => rfl

theorem stops_blank (rest : List Char) : Stops (' ' :: rest) := by
  intro word
  rw [lex, if_pos rfl, lex, if_pos rfl, Option.map_map]
  rfl

theorem stops_semicolon (rest : List Char) : Stops (';' :: rest) := by
  intro word
  rw [lex, if_neg (by decide), if_pos rfl, lex, if_neg (by decide), if_pos rfl, Option.map_map]
  rfl

/-- The text is read as these words. -/
def Reads (text : List Char) (words : List (List Char)) : Prop :=
  ∀ rest, Stops rest →
    lex .plain none (text ++ rest) = (lex .plain none rest).map (words.map Token.word ++ ·)

theorem Spells.reads {text word : List Char} (h : Spells text word) : Reads text [word] := by
  intro rest hrest
  rw [h, hrest]
  rfl

theorem Reads.blank {text : List Char} {words : List (List Char)} (h : Reads text words) :
    Reads (' ' :: text) words := by
  intro rest hrest
  rw [List.cons_append, lex, if_pos rfl, h rest hrest, Option.map_map]
  rfl

theorem Reads.append {text text' : List Char} {words words' : List (List Char)}
    (h : Reads text words) (h' : Reads text' words') :
    Reads (text ++ ' ' :: text') (words ++ words') := by
  intro rest hrest
  rw [List.append_assoc, List.cons_append, h _ (stops_blank _), lex, if_pos rfl, h' rest hrest,
    Option.map_map, Option.map_map]
  simp [Function.comp_def, flush]

theorem reads_join {texts words : List (List Char)} (h : List.Forall₂ Spells texts words)
    (hne : words ≠ []) : Reads (join texts) words := by
  induction h with
  | nil => exact absurd rfl hne
  | @cons text word texts words hword hrest ih =>
    cases hrest with
    | nil =>
      have hjoin : join [text] = text := by simp [join]
      rw [hjoin]
      exact hword.reads
    | @cons text' word' texts words hword' hrest =>
      have hjoin : join (text :: text' :: texts) = text ++ ' ' :: join (text' :: texts) := by
        simp [join, List.intercalate, List.intersperse]
      rw [hjoin]
      exact hword.reads.append (ih (List.cons_ne_nil _ _))

theorem join_concat {texts : List (List Char)} (hne : texts ≠ []) (text : List Char) :
    join (texts ++ [text]) = join texts ++ ' ' :: text := by
  induction texts with
  | nil => exact absurd rfl hne
  | cons first texts ih =>
    cases texts with
    | nil => simp [join, List.intercalate, List.intersperse]
    | cons second texts =>
      have hjoin : ∀ rest, join (first :: second :: rest) = first ++ ' ' :: join (second :: rest) := by
        simp [join, List.intercalate, List.intersperse]
      rw [List.cons_append, List.cons_append, hjoin, ← List.cons_append, ih (List.cons_ne_nil _ _), hjoin,
        List.append_assoc, List.cons_append]

/-- Words that are quoted. -/
theorem reads_quote {words : List (List Char)} (hne : words ≠ []) :
    Reads (join (words.map quote)) words := by
  refine reads_join ?_ hne
  rw [List.forall₂_map_left_iff]
  exact List.forall₂_same.mpr fun word _ => spells_quote word

/-- Words that need no quotes. -/
theorem reads_safe {words : List (List Char)} (hne : words ≠ []) (h : ∀ word ∈ words, Safe word) :
    Reads (join words) words :=
  reads_join (List.forall₂_same.mpr fun word hword => spells_safe (h word hword)) hne

theorem splitCommands_words (words : List (List Char)) :
    splitCommands (words.map Token.word) = [words] := by
  induction words with
  | nil => rfl
  | cons word words ih => rw [List.map_cons, splitCommands, ih]

theorem splitCommands_append (words : List (List Char)) (tokens : List Token) :
    splitCommands (words.map Token.word ++ .semicolon :: tokens) = words :: splitCommands tokens := by
  induction words with
  | nil => rfl
  | cons word words ih => rw [List.map_cons, List.cons_append, splitCommands, ih]

/-- The last command of a line. -/
theorem Reads.commands {text : List Char} {words : List (List Char)} (h : Reads text words) :
    commands text = some [words] := by
  have hlex := h [] stops_nil
  rw [List.append_nil] at hlex
  rw [Shell.commands, hlex, Option.map_map]
  change some (splitCommands (words.map Token.word ++ [])) = _
  rw [List.append_nil, splitCommands_words]

/-- The first command of a line. -/
theorem Reads.commands_append {text : List Char} {words : List (List Char)} (h : Reads text words)
    (rest : List Char) :
    Shell.commands (text ++ ';' :: ' ' :: rest) = (Shell.commands rest).map (words :: ·) := by
  rw [Shell.commands, h _ (stops_semicolon _), lex, if_neg (by decide), if_pos rfl, lex, if_pos rfl,
    Shell.commands]
  simp only [Option.map_map]
  congr 1
  funext tokens
  exact splitCommands_append words tokens

/-- Commands in front of a text that ends the last one of them. -/
theorem commands_intercalate_of {tail : List Char} {rest : Option (List (List (List Char)))}
    (hlast : ∀ text words, Reads text words →
      Shell.commands (text ++ tail) = rest.map (words :: ·))
    {texts : List (List Char)} {lines : List (List (List Char))}
    (h : List.Forall₂ Reads texts lines) (hne : lines ≠ []) :
    Shell.commands ([';', ' '].intercalate texts ++ tail) = rest.map (lines ++ ·) := by
  induction h with
  | nil => exact absurd rfl hne
  | @cons text words texts lines hwords hrest ih =>
    cases hrest with
    | nil =>
      have hjoin : [';', ' '].intercalate [text] = text := by simp
      rw [hjoin]
      exact hlast text words hwords
    | @cons text' words' texts lines hwords' hrest =>
      have hjoin : [';', ' '].intercalate (text :: text' :: texts) ++ tail =
          text ++ ';' :: ' ' :: ([';', ' '].intercalate (text' :: texts) ++ tail) := by
        simp [List.intercalate, List.intersperse]
      rw [hjoin, hwords.commands_append, ih (List.cons_ne_nil _ _), Option.map_map]
      rfl

/-- The first commands of a line. -/
theorem commands_intercalate_append {texts : List (List Char)} {lines : List (List (List Char))}
    (h : List.Forall₂ Reads texts lines) (hne : lines ≠ []) (rest : List Char) :
    Shell.commands ([';', ' '].intercalate texts ++ ';' :: ' ' :: rest) =
      (Shell.commands rest).map (lines ++ ·) :=
  commands_intercalate_of (fun _ _ hwords => hwords.commands_append rest) h hne

/-- A line of commands. -/
theorem commands_intercalate {texts : List (List Char)} {lines : List (List (List Char))}
    (h : List.Forall₂ Reads texts lines) (hne : lines ≠ []) :
    Shell.commands ([';', ' '].intercalate texts) = some lines := by
  have hlast : ∀ text words, Reads text words →
      Shell.commands (text ++ []) = (some []).map (words :: ·) := by
    intro text words hwords
    rw [List.append_nil]
    exact hwords.commands
  have hcommands := commands_intercalate_of hlast h hne
  rw [List.append_nil] at hcommands
  rw [hcommands, Option.map_some, List.append_nil]

/-! ## Open quotes -/

/-- The quotes that are open behind a text; before it there may be a backslash. -/
def scan : Mode → Bool → List Char → Mode
  | mode, _, [] => mode
  | .single, _, c :: rest => if c = '\'' then scan .plain false rest else scan .single false rest
  | mode, true, _ :: rest => scan mode false rest
  | .plain, false, c :: rest =>
    if c = '\'' then scan .single false rest
    else if c = '"' then scan .double false rest
    else scan .plain (c = '\\') rest
  | .double, false, c :: rest =>
    if c = '"' then scan .plain false rest else scan .double (c = '\\') rest

/-- The line ends between quotes. -/
def Open (line : List Char) : Prop := scan .plain false line ≠ .plain

instance (line : List Char) : Decidable (Open line) := inferInstanceAs (Decidable (_ ≠ _))

theorem scan_single {text : List Char} (h : '\'' ∉ text) : scan .single false text = .single := by
  induction text with
  | nil => rfl
  | cons c text ih =>
    have hc : c ≠ '\'' := fun heq => h (heq ▸ List.mem_cons_self)
    rw [scan, if_neg hc]
    exact ih fun hmem => h (List.mem_cons_of_mem _ hmem)

theorem scan_double {text : List Char} (h : '"' ∉ text) (escaped : Bool) :
    scan .double escaped text = .double := by
  induction text generalizing escaped with
  | nil => cases escaped <;> rfl
  | cons c text ih =>
    have hrest : '"' ∉ text := fun hmem => h (List.mem_cons_of_mem _ hmem)
    cases escaped with
    | true => exact ih hrest false
    | false =>
      have hc : c ≠ '"' := fun heq => h (heq ▸ List.mem_cons_self)
      rw [scan, if_neg hc]
      exact ih hrest _

end Shell
