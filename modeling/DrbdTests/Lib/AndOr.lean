import DrbdTests.Lib.Shell

/-!
# Scripts under `bash -e`

Lines with commands that are joined by `&&` and `||`. A command is run or skipped by the status of the
one that was run before it. Under `-e` the shell exits when the last command of a line is run and fails;
a command that fails earlier in its line does not end the script.

* `readScript` reads scripts all of whose words need no quotes.
* `runScript_cons_of_ok`: a line that does not end the script is followed by the rest.
-/

namespace Shell

inductive Joint
  | and
  | or
  deriving DecidableEq, Repr

/-- The words of commands that are joined by `&&` and `||`. -/
structure AndOr where
  first : List String
  rest : List (Joint × List String)
  deriving DecidableEq, Repr

/-! ## Reading -/

def joint? (word : List Char) : Option Joint :=
  if word = ['&', '&'] then some .and else if word = ['|', '|'] then some .or else none

/-- The commands between the joints. -/
def splitJoints : List (List Char) → List (List Char) × List (Joint × List (List Char))
  | [] => ([], [])
  | word :: words =>
    let (first, rest) := splitJoints words
    match joint? word with
    | some joint => ([], (joint, first) :: rest)
    | none => (word :: first, rest)

def reservedWords : List String :=
  ["if", "then", "elif", "else", "fi", "time", "for", "in", "until", "while", "do", "done", "case",
    "esac", "coproc", "select", "function"]

/-- The words of a simple command without quotes and assignments. -/
def IsSimple (words : List (List Char)) : Prop :=
  (∀ word ∈ words, Safe word) ∧
    match words with
    | [] => False
    | name :: _ => '=' ∉ name ∧ String.ofList name ∉ reservedWords

instance (words : List (List Char)) : Decidable (IsSimple words) := by
  unfold IsSimple
  cases words with
  | nil => exact inferInstance
  | cons name words => exact inferInstance

def readLine (line : List Char) : Option AndOr :=
  let (first, rest) := splitJoints ((line.splitOn ' ').filter (· ≠ []))
  if IsSimple first ∧ ∀ command ∈ rest, IsSimple command.2 then
    some ⟨first.map String.ofList, rest.map fun command => (command.1, command.2.map String.ofList)⟩
  else none

/-- The lines of a script. -/
def readScript (script : String) : Option (List AndOr) := (script.toList.splitOn '\n').mapM readLine

/-! ## Running -/

/-- The state after a line, the status of the last command that was run, and whether that is the last
one of the line. -/
structure Ended (σ : Type) where
  state : σ
  ok : Bool
  final : Bool

variable {σ : Type} (command : List String → σ → σ × Bool)

def runRest : List (Joint × List String) → Ended σ → Ended σ
  | [], e => e
  | (joint, words) :: rest, e =>
    if joint = .and ↔ e.ok then
      let (s, ok) := command words e.state
      runRest rest ⟨s, ok, true⟩
    else runRest rest { e with final := false }

def AndOr.run (l : AndOr) (s : σ) : Ended σ :=
  let (s, ok) := command l.first s
  runRest command l.rest ⟨s, ok, true⟩

/-- The line makes the shell exit. -/
def Ended.exits (e : Ended σ) : Bool := !e.ok && e.final

/-- The state after a script, and whether its status is zero. -/
def runScript : List AndOr → σ → σ × Bool
  | [], s => (s, true)
  | [l], s => ((l.run command s).state, (l.run command s).ok)
  | l :: l' :: ls, s =>
    if (l.run command s).exits then ((l.run command s).state, false)
    else runScript (l' :: ls) (l.run command s).state

/-! ## Lines that are run to their end -/

variable {command} {l : AndOr} {ls : List AndOr} {s : σ}

theorem runScript_cons_of_ok {l' : AndOr} (h : (l.run command s).ok = true) :
    runScript command (l :: l' :: ls) s = runScript command (l' :: ls) (l.run command s).state := by
  rw [runScript, Ended.exits, h]
  rfl

theorem run_single (a : List String) (s : σ) : (⟨a, []⟩ : AndOr).run command s =
    ⟨(command a s).1, (command a s).2, true⟩ := rfl

/-- `a || b` -/
theorem run_orElse (command : List String → σ → σ × Bool) (a b : List String) (s : σ) :
    ((⟨a, [(.or, b)]⟩ : AndOr).run command s).state =
      (if (command a s).2 then (command a s).1 else (command b (command a s).1).1) ∧
    ((⟨a, [(.or, b)]⟩ : AndOr).run command s).ok =
      ((command a s).2 || (command b (command a s).1).2) := by
  unfold AndOr.run runRest
  rcases command a s with ⟨s', _ | _⟩
  · exact ⟨rfl, rfl⟩
  · exact ⟨rfl, rfl⟩

/-- `a && b || c`, where `c` succeeds and changes nothing -/
theorem run_tolerant (command : List String → σ → σ × Bool) (a b c : List String)
    (hc : ∀ s, command c s = (s, true)) (s : σ) :
    ((⟨a, [(.and, b), (.or, c)]⟩ : AndOr).run command s).state =
      (if (command a s).2 then (command b (command a s).1).1 else (command a s).1) ∧
    ((⟨a, [(.and, b), (.or, c)]⟩ : AndOr).run command s).ok = true := by
  unfold AndOr.run
  rcases command a s with ⟨s', _ | _⟩
  · simp only [runRest, hc s']
    exact ⟨rfl, rfl⟩
  · simp only [runRest]
    rcases command b s' with ⟨s'', _ | _⟩
    · simp only [hc s'']
      exact ⟨rfl, rfl⟩
    · exact ⟨rfl, rfl⟩

end Shell
