import DrbdTests.Lib.Stateful
import DrbdTests.Lib.Text
import Mathlib.Data.List.Basic
import Mathlib.Logic.Function.Basic

/-!
# The outputs of `fio`

`Host.fio_file` runs `fio` and waits for it; a `BusyWrite` keeps one running on the host of its volume
and collects the output later. All of them count in `fio_count` of the host, which is in the names of
their files.

`wait_collects`: when a `BusyWrite` that was started is waited for, or stopped, the log directory has
the output of the very process that was started, and has it until the end, whatever the other objects do
in between and afterwards. What this needs is that hosts have different names, and that no `fio` runs
after a command that was to start it has failed.
-/

namespace DrbdTests.Fio

open Stateful

/-! ## The world -/

/-- The hosts by number, and the host of the volume that a `BusyWrite` is for. -/
structure Setup where
  name : Nat → String
  host : Nat → Nat

/-- What a process writes into a file. -/
inductive Source
  | out (job : Nat)
  | err (job : Nat)
  deriving DecidableEq, Repr

structure Outside where
  /-- the `k`-th command on a host returns -/
  returns : Nat → Bool
  /-- `fio` runs though the `k`-th command, which was to start it, has failed -/
  runs : Nat → Bool
  /-- what a process has written when it has ended -/
  text : Source → List Char
  /-- what the `k`-th command prints, if it is `fio` itself, or reads a file that is still written -/
  printed : Nat → List Char
  /-- `json.loads` and the fields that are logged -/
  parses : List Char → Bool

/-- A `BusyWrite`; the process is named by its number. -/
structure Writer where
  fioPid : Option Nat
  outputFilename : Option String
  stderrFilename : Option String
  fioOutStr : Option (List Char)
  deriving Repr

structure State where
  commands : Nat
  /-- the number of processes in the background so far -/
  jobs : Nat
  ended : Nat → Bool
  fioCount : Nat → Nat
  writers : Nat → Writer
  /-- the processes that were started to write into a file under `/tmp` -/
  tmp : Nat → String → List Source
  logdir : String → Option (List Char)

def State.start : State where
  commands := 0
  jobs := 0
  ended _ := false
  fioCount _ := 0
  writers _ := ⟨none, none, none, none⟩
  tmp _ _ := []
  logdir _ := none

inductive FioError
  | calledProcessError
  | attributeError
  | runtimeError
  | valueError
  deriving DecidableEq, Repr

abbrev Script := Comp State FioError

variable (u : Setup) (o : Outside)

/-- A command on a host; it gives the number of the command. -/
def run : Script Nat := do
  let s ← get
  set { s with commands := s.commands + 1 }
  if o.returns s.commands then return s.commands else throw .calledProcessError

def State.setWriter (s : State) (w : Nat) (f : Writer → Writer) : State :=
  { s with writers := Function.update s.writers w (f (s.writers w)) }

/-! ## `Host.fio_file` -/

def outputFile (name : String) (count : Nat) : String :=
  "fio-" ++ name ++ "-" ++ toString count ++ ".json"

def fioFile (h : Nat) : Script PUnit := do
  let k ← run o
  let result := o.printed k
  modify fun s => { s with
    logdir := Function.update s.logdir (outputFile (u.name h) (s.fioCount h)) (some result) }
  if o.parses result then
    modify fun s => { s with fioCount := Function.update s.fioCount h (s.fioCount h + 1) }
  else throw .valueError

/-! ## `BusyWrite` -/

def asyncFile (name : String) (count : Nat) : String :=
  "fio-" ++ name ++ "-" ++ toString count ++ "-async.json"

def asyncStderr (name : String) (count : Nat) : String :=
  "fio-" ++ name ++ "-" ++ toString count ++ "-async-stderr"

/-- The shell opens the two files, and starts `fio` in the background. -/
def State.launch (s : State) (h : Nat) (output stderr : String) : State :=
  { s with
    jobs := s.jobs + 1
    tmp := Function.update s.tmp h fun file =>
      if file = output then s.tmp h file ++ [.out s.jobs]
      else if file = stderr then s.tmp h file ++ [.err s.jobs]
      else s.tmp h file }

def start (w : Nat) : Script PUnit := do
  let s ← get
  let h := u.host w
  let output := asyncFile (u.name h) (s.fioCount h)
  let stderr := asyncStderr (u.name h) (s.fioCount h)
  modify fun s => s.setWriter w fun x =>
    { x with outputFilename := some output, stderrFilename := some stderr }
  when (o.returns s.commands || o.runs s.commands) (modify fun s => s.launch h output stderr)
  let _ ← run o
  modify fun s' => s'.setWriter w fun x => { x with fioPid := some s.jobs }
  modify fun s => { s with fioCount := Function.update s.fioCount h (s.fioCount h + 1) }

def isRunning (w : Nat) : Script Bool := do
  let s ← get
  if (s.writers w).fioPid.isNone then return false
  else
    let k ← run o
    if o.printed k = "true".toList then return true
    else if o.printed k = "false".toList then return false
    else throw .runtimeError

/-- `cat /tmp/{}`: a process that has ended has written all of its output, if the file is its own. -/
def cat (h : Nat) (file : String) : Script (List Char) := do
  let k ← run o
  let s ← get
  match s.tmp h file with
  | [] => throw .calledProcessError
  | [.out j] => return if s.ended j then o.text (.out j) else o.printed k
  | [.err j] => return if s.ended j then o.text (.err j) else o.printed k
  | _ => return o.printed k

/-- `s[s.find('\x7b'):]`; without a brace, this is the last character. -/
def fromBrace (s : List Char) : List Char :=
  if '\x7b' ∈ s then s.dropWhile (· ≠ '\x7b') else s.drop (s.length - 1)

def getAttr {α : Type} : Option α → Script α
  | none => throw .attributeError
  | some a => return a

/-- `tail --pid`, which refuses `None`. -/
def tail : Option Nat → Script PUnit
  | none => do
    modify fun s => { s with commands := s.commands + 1 }
    throw .calledProcessError
  | some j => do
    let _ ← run o
    modify fun s => { s with ended := Function.update s.ended j true }

def writeLog (file : String) (text : List Char) : Script PUnit :=
  modify fun s => { s with logdir := Function.update s.logdir file (some text) }

def wait (w : Nat) : Script PUnit := do
  let s ← get
  tail o (s.writers w).fioPid
  modify fun s => s.setWriter w fun x => { x with fioPid := none }
  let output ← getAttr (s.writers w).outputFilename
  let text ← cat o (u.host w) output
  modify fun s => s.setWriter w fun x => { x with fioOutStr := some (fromBrace text) }
  writeLog output (fromBrace text)
  let stderr ← getAttr (s.writers w).stderrFilename
  let text ← cat o (u.host w) stderr
  writeLog stderr text

def killJobs (w : Nat) : Script PUnit := do
  let s ← get
  when (s.writers w).fioPid.isNone (throw .runtimeError)
  let _ ← run o

def stop (w : Nat) : Script PUnit := do
  let s ← get
  when (s.writers w).fioPid.isNone (throw .runtimeError)
  let _ ← run o
  wait u o w

/-! ## Calls -/

inductive Action
  | fioFile (h : Nat)
  | start (w : Nat)
  | isRunning (w : Nat)
  | wait (w : Nat)
  | killJobs (w : Nat)
  | stop (w : Nat)
  deriving DecidableEq, Repr

def Action.exec : Action → Script PUnit
  | fioFile h => Fio.fioFile u o h
  | start w => Fio.start u o w
  | isRunning w => do let _ ← Fio.isRunning o w
  | wait w => Fio.wait u o w
  | killJobs w => Fio.killJobs o w
  | stop w => Fio.stop u o w

/-- Calls one after the other, whether they return or raise. -/
def afterAll (s : State) (actions : List Action) : State :=
  actions.foldl (fun s a => (Stateful.exec (a.exec u o) s).2) s

variable {u : Setup} {o : Outside} {s s' : State} {h w w' c j k : Nat} {file : String}
  {text : List Char}

/-! ## Names of files -/

theorem dash_not_mem_toString (n : Nat) : '-' ∉ (toString n).toList := by
  rw [Nat.toString_eq_ofList_toDigits, String.toList_ofList]
  intro hmem
  exact absurd (Nat.isDigit_of_mem_toDigits (by omega) (by omega) hmem) (by decide)

/-- A number behind a name can be read back, since the last `-` is the one in front of it. -/
theorem numbered_inj {n n' d d' : List Char} (hd : '-' ∉ d) (hd' : '-' ∉ d')
    (h : n ++ '-' :: d = n' ++ '-' :: d') : n = n' ∧ d = d' := by
  rcases List.append_eq_append_iff.mp h with ⟨more, rfl, heq⟩ | ⟨more, rfl, heq⟩
  · rcases more with _ | ⟨e, more⟩
    · exact ⟨(List.append_nil n).symm, (List.cons.inj heq).2⟩
    · rw [(List.cons.inj heq).2] at hd
      simp at hd
  · rcases more with _ | ⟨e, more⟩
    · exact ⟨List.append_nil n', (List.cons.inj heq).2.symm⟩
    · rw [(List.cons.inj heq).2] at hd'
      simp at hd'

theorem numbered_suffix_inj {n n' pre suffix : String} {a b : Nat}
    (h : pre ++ n ++ "-" ++ toString a ++ suffix = pre ++ n' ++ "-" ++ toString b ++ suffix) :
    n = n' ∧ a = b := by
  have hlist := congrArg String.toList h
  simp only [String.toList_append, List.append_assoc] at hlist
  have hcancel := List.append_cancel_left hlist
  simp only [← List.append_assoc] at hcancel
  have hname := List.append_cancel_right hcancel
  simp only [List.append_assoc] at hname
  obtain ⟨hn, hdigits⟩ := numbered_inj (dash_not_mem_toString a) (dash_not_mem_toString b) hname
  refine ⟨String.toList_inj.mp hn, ?_⟩
  have hdecimal := congrArg Text.decimal hdigits
  rw [Text.decimal_toString, Text.decimal_toString] at hdecimal
  exact Option.some.inj hdecimal

theorem asyncFile_inj {n n' : String} {a b : Nat} (h : asyncFile n a = asyncFile n' b) :
    n = n' ∧ a = b :=
  numbered_suffix_inj h

theorem asyncStderr_inj {n n' : String} {a b : Nat} (h : asyncStderr n a = asyncStderr n' b) :
    n = n' ∧ a = b :=
  numbered_suffix_inj h

theorem ne_of_getLast? {f g : String} (h : f.toList.getLast? ≠ g.toList.getLast?) : f ≠ g :=
  fun heq => h (congrArg (fun f : String => f.toList.getLast?) heq)

theorem getLast?_asyncFile (n : String) (a : Nat) : (asyncFile n a).toList.getLast? = some 'n' := by
  rw [asyncFile, String.toList_append, List.getLast?_append]
  rfl

theorem getLast?_asyncStderr (n : String) (a : Nat) :
    (asyncStderr n a).toList.getLast? = some 'r' := by
  rw [asyncStderr, String.toList_append, List.getLast?_append]
  rfl

theorem getLast?_outputFile (n : String) (a : Nat) : (outputFile n a).toList.getLast? = some 'n' := by
  rw [outputFile, String.toList_append, List.getLast?_append]
  rfl

theorem asyncFile_ne_asyncStderr {n n' : String} {a b : Nat} : asyncFile n a ≠ asyncStderr n' b := by
  apply ne_of_getLast?
  rw [getLast?_asyncFile, getLast?_asyncStderr]
  decide

theorem outputFile_ne_asyncStderr {n n' : String} {a b : Nat} :
    outputFile n a ≠ asyncStderr n' b := by
  apply ne_of_getLast?
  rw [getLast?_outputFile, getLast?_asyncStderr]
  decide

/-- A number is not `async`. -/
theorem outputFile_ne_asyncFile {n n' : String} {a b : Nat} : outputFile n a ≠ asyncFile n' b := by
  intro h
  have hlist := congrArg String.toList h
  simp only [outputFile, asyncFile, String.toList_append] at hlist
  have hsuffix : "-async.json".toList = "-async".toList ++ ".json".toList := rfl
  rw [hsuffix, ← List.append_assoc] at hlist
  have hlast := congrArg List.getLast? (List.append_cancel_right hlist)
  have hc : (("fio-".toList ++ n'.toList ++ "-".toList ++ (toString b).toList ++
      "-async".toList)).getLast? = some 'c' := by
    rw [List.getLast?_append]
    rfl
  have hdigits : (toString a).toList = Nat.toDigits 10 a := by
    rw [Nat.toString_eq_ofList_toDigits, String.toList_ofList]
  rw [hc, hdigits, List.getLast?_append] at hlast
  obtain ⟨d, hd⟩ : ∃ d, (Nat.toDigits 10 a).getLast? = some d :=
    Option.isSome_iff_exists.mp (by simp [Nat.toDigits_ne_nil])
  rw [hd, Option.some_or] at hlast
  have hdigit := Nat.isDigit_of_mem_toDigits (by omega) (by omega) (List.mem_of_getLast? hd)
  rw [Option.some.inj hlast] at hdigit
  exact absurd hdigit (by decide)

/-! ## Single commands -/

theorem exec_run (s : State) : exec (run o) s =
    (if o.returns s.commands then .ok s.commands else .error .calledProcessError,
      { s with commands := s.commands + 1 }) := by
  have hrun : exec (run o) s = exec (if o.returns s.commands = true then pure s.commands
      else throw .calledProcessError) { s with commands := s.commands + 1 } := rfl
  rw [hrun]
  split_ifs <;> rfl

theorem run_returns (hr : Returns (run o) s k s') : s' = { s with commands := s.commands + 1 } := by
  rw [Returns, exec_run] at hr
  exact (Prod.mk.inj hr).2.symm

theorem returns_modify_eq {f : State → State} {x : PUnit} (hr : Returns (modify f : Script PUnit) s x s') :
    s' = f s :=
  (returns_modify.mp hr).symm

/-- What is read, if one process was started to write into the file. -/
theorem cat_returns {source : Source} (hr : Returns (cat o h file) s text s')
    (htmp : s.tmp h file = [source]) (hended : ∀ j, source = .out j ∨ source = .err j → s.ended j) :
    s' = { s with commands := s.commands + 1 } ∧ text = o.text source := by
  obtain ⟨k, t, hrun, hr⟩ := returns_bind.mp hr
  obtain rfl := run_returns hrun
  rw [returns_get_bind] at hr
  dsimp only at hr
  rw [htmp] at hr
  cases source with
  | out j =>
    obtain ⟨htext, rfl⟩ := returns_pure.mp hr
    rw [if_pos (hended j (Or.inl rfl))] at htext
    exact ⟨rfl, htext.symm⟩
  | err j =>
    obtain ⟨htext, rfl⟩ := returns_pure.mp hr
    rw [if_pos (hended j (Or.inr rfl))] at htext
    exact ⟨rfl, htext.symm⟩

/-! ## Frames -/

/-- No process is started. Numbers are only counted up, and a `BusyWrite` keeps the names of its files;
it may lose its process. -/
def quiet : Frame State where
  rel s s' := s'.tmp = s.tmp ∧ (∀ h, s.fioCount h ≤ s'.fioCount h) ∧
    (∀ j, s.ended j = true → s'.ended j = true) ∧
    ∀ w, (s'.writers w).outputFilename = (s.writers w).outputFilename ∧
      (s'.writers w).stderrFilename = (s.writers w).stderrFilename ∧
      ((s'.writers w).fioPid = (s.writers w).fioPid ∨ (s'.writers w).fioPid = none)
  refl s := ⟨rfl, fun _ => le_rfl, fun _ h => h, fun _ => ⟨rfl, rfl, Or.inl rfl⟩⟩
  trans := by
    rintro a b c ⟨htmp, hcount, hended, hw⟩ ⟨htmp', hcount', hended', hw'⟩
    refine ⟨htmp'.trans htmp, fun h => (hcount h).trans (hcount' h), fun j hj => hended' j (hended j hj),
      fun w => ⟨(hw' w).1.trans (hw w).1, (hw' w).2.1.trans (hw w).2.1, ?_⟩⟩
    rcases (hw' w).2.2 with heq | hnone
    · rw [heq]
      exact (hw w).2.2
    · exact Or.inr hnone

/-- Nor is anything logged. -/
def silent : Frame State where
  rel s s' := quiet.rel s s' ∧ s'.logdir = s.logdir
  refl s := ⟨quiet.refl s, rfl⟩
  trans hab hbc := ⟨quiet.trans hab.1 hbc.1, hbc.2.trans hab.2⟩

theorem silent_run : silent.Holds (run o) := by
  intro s
  rw [exec_run]
  exact ⟨quiet.refl s, rfl⟩

/-- A change of a `BusyWrite` that leaves its files alone. -/
theorem silent_setWriter {f : Writer → Writer} (hout : ∀ x, (f x).outputFilename = x.outputFilename)
    (herr : ∀ x, (f x).stderrFilename = x.stderrFilename)
    (hpid : ∀ x, (f x).fioPid = x.fioPid ∨ (f x).fioPid = none) :
    silent.Holds (modify fun s => s.setWriter w f : Script PUnit) := by
  refine Frame.holds_modify fun s => ⟨⟨rfl, fun _ => le_rfl, fun _ h => h, fun w' => ?_⟩, rfl⟩
  by_cases hw : w' = w
  · subst hw
    simp only [State.setWriter, Function.update_self]
    exact ⟨hout _, herr _, hpid _⟩
  · have hother : (s.setWriter w f).writers w' = s.writers w' := Function.update_of_ne hw _ _
    rw [hother]
    exact ⟨rfl, rfl, Or.inl rfl⟩

theorem silent_dropPid :
    silent.Holds (modify fun s => s.setWriter w fun x => { x with fioPid := none } : Script PUnit) :=
  silent_setWriter (fun _ => rfl) (fun _ => rfl) fun _ => Or.inr rfl

theorem silent_setOutStr : silent.Holds
    (modify fun s => s.setWriter w fun x => { x with fioOutStr := some text } : Script PUnit) :=
  silent_setWriter (fun _ => rfl) (fun _ => rfl) fun _ => Or.inl rfl

theorem silent_cat : silent.Holds (cat o h file) := by
  refine Frame.holds_bind silent_run fun k => Frame.holds_get_bind fun s => ?_
  split
  · exact silent.refl s
  · exact silent.refl s
  · exact silent.refl s
  · exact silent.refl s

theorem silent_tail {pid : Option Nat} : silent.Holds (tail o pid) := by
  cases pid with
  | none => exact Frame.holds_bind (Frame.holds_modify fun s => ⟨quiet.refl s, rfl⟩) fun _ =>
      Frame.holds_throw _
  | some j =>
    refine Frame.holds_bind silent_run fun _ => Frame.holds_modify fun s => ?_
    refine ⟨⟨rfl, fun _ => le_rfl, fun i hi => ?_, fun _ => ⟨rfl, rfl, Or.inl rfl⟩⟩, rfl⟩
    by_cases hij : i = j
    · subst hij
      exact Function.update_self ..
    · exact (Function.update_of_ne hij _ _).trans hi

theorem silent_isRunning : silent.Holds (isRunning o w) := by
  refine Frame.holds_get_bind fun s => ?_
  refine Frame.holds_ite (fun _ => Frame.holds_pure _) (fun _ => ?_) s
  refine Frame.holds_bind silent_run fun k => ?_
  refine Frame.holds_ite (fun _ => Frame.holds_pure _) fun _ => ?_
  exact Frame.holds_ite (fun _ => Frame.holds_pure _) fun _ => Frame.holds_throw _

theorem silent_killJobs : silent.Holds (killJobs o w) := by
  refine Frame.holds_get_bind fun s => ?_
  refine Frame.holds_bind (Frame.holds_when fun _ => Frame.holds_throw _) (fun _ => ?_) s
  exact Frame.holds_bind silent_run fun _ => Frame.holds_pure _

theorem holds_getAttr {α : Type} {F : Frame State} (a : Option α) : F.Holds (getAttr a) := by
  cases a with
  | none => exact Frame.holds_throw _
  | some a => exact Frame.holds_pure a

theorem quiet_writeLog : quiet.Holds (writeLog file text) :=
  Frame.holds_modify fun s => quiet.refl s

theorem quiet_of_silent {α : Type} {m : Script α} (hm : silent.Holds m) : quiet.Holds m :=
  hm.mono fun _ _ h => h.1

theorem quiet_wait : quiet.Holds (wait u o w) := by
  refine Frame.holds_bind Frame.holds_get fun s => ?_
  refine Frame.holds_bind (quiet_of_silent silent_tail) fun _ => ?_
  refine Frame.holds_bind (quiet_of_silent silent_dropPid) fun _ => ?_
  refine Frame.holds_bind (holds_getAttr _) fun output => ?_
  refine Frame.holds_bind (quiet_of_silent silent_cat) fun text => ?_
  refine Frame.holds_bind (quiet_of_silent silent_setOutStr) fun _ => ?_
  refine Frame.holds_bind quiet_writeLog fun _ => ?_
  refine Frame.holds_bind (holds_getAttr _) fun stderr => ?_
  exact Frame.holds_bind (quiet_of_silent silent_cat) fun text => quiet_writeLog

theorem quiet_count (s : State) : quiet.rel s
    { s with fioCount := Function.update s.fioCount h (s.fioCount h + 1) } := by
  refine ⟨rfl, fun h' => ?_, fun _ hj => hj, fun _ => ⟨rfl, rfl, Or.inl rfl⟩⟩
  by_cases hh : h' = h
  · subst hh
    simp
  · simp [Function.update_of_ne hh]

theorem quiet_fioFile : quiet.Holds (fioFile u o h) := by
  refine Frame.holds_bind (quiet_of_silent silent_run) fun k => ?_
  refine Frame.holds_bind (Frame.holds_modify fun s => quiet.refl s) fun _ => ?_
  exact Frame.holds_ite (fun _ => Frame.holds_modify fun s => quiet_count s) fun _ =>
    Frame.holds_throw _

/-! ## `start` -/

/-- Nothing runs after a command that has failed. -/
def NoneLeft (o : Outside) : Prop := ∀ k, o.returns k = false → o.runs k = false

/-- The `BusyWrite` has the names of its next files. -/
def State.renamed (s : State) (u : Setup) (w : Nat) : State :=
  s.setWriter w fun x => { x with
    outputFilename := some (asyncFile (u.name (u.host w)) (s.fioCount (u.host w)))
    stderrFilename := some (asyncStderr (u.name (u.host w)) (s.fioCount (u.host w))) }

/-- What follows when the process was started. -/
def State.counted (s : State) (u : Setup) (w job : Nat) : State :=
  { s.setWriter w fun x => { x with fioPid := some job } with
    fioCount := Function.update s.fioCount (u.host w) (s.fioCount (u.host w) + 1) }

/-- The state after a `start` that returns. -/
def State.started (s : State) (u : Setup) (w : Nat) : State :=
  State.counted { (s.renamed u w).launch (u.host w)
      (asyncFile (u.name (u.host w)) (s.fioCount (u.host w)))
      (asyncStderr (u.name (u.host w)) (s.fioCount (u.host w))) with
    commands := s.commands + 1 } u w s.jobs

theorem exec_start_of_returns (h : o.returns s.commands = true) :
    exec (start u o w) s = (.ok ⟨⟩, s.started u w) := by
  have hrun : exec (run o) ((s.renamed u w).launch (u.host w)
      (asyncFile (u.name (u.host w)) (s.fioCount (u.host w)))
      (asyncStderr (u.name (u.host w)) (s.fioCount (u.host w)))) =
      (.ok s.commands, { (s.renamed u w).launch (u.host w)
        (asyncFile (u.name (u.host w)) (s.fioCount (u.host w)))
        (asyncStderr (u.name (u.host w)) (s.fioCount (u.host w))) with commands := s.commands + 1 }) := by
    rw [exec_run]
    exact congrArg (·, _) (if_pos h)
  rw [start, exec_get_bind]
  dsimp only
  rw [h, Bool.true_or, when_true, exec_bind_of_ok (exec_modify _ s), exec_bind_of_ok (exec_modify _ _)]
  refine (exec_bind_of_ok hrun).trans ?_
  rfl

theorem exec_start_of_fails (hleft : NoneLeft o) (h : o.returns s.commands = false) :
    exec (start u o w) s =
      (.error .calledProcessError, { s.renamed u w with commands := s.commands + 1 }) := by
  have hrun : exec (run o) (s.renamed u w) =
      (.error .calledProcessError, { s.renamed u w with commands := s.commands + 1 }) := by
    rw [exec_run]
    have hfails : ¬ o.returns s.commands = true := by simp [h]
    exact congrArg (·, _) (if_neg hfails)
  rw [start, exec_get_bind]
  dsimp only
  rw [h, hleft _ h, Bool.false_or, when_false, exec_bind_of_ok (exec_modify _ s),
    exec_bind_of_ok (exec_pure _ _)]
  exact exec_bind_of_error hrun

/-! ## Files that nobody else writes -/

/-- The names of files are those of the host, and the next ones are not used yet. -/
structure Named (u : Setup) (s : State) : Prop where
  output : ∀ w f, (s.writers w).outputFilename = some f → ∃ c, f = asyncFile (u.name (u.host w)) c
  stderr : ∀ w f, (s.writers w).stderrFilename = some f → ∃ c, f = asyncStderr (u.name (u.host w)) c
  unused : ∀ h c, s.fioCount h ≤ c → s.tmp h (asyncFile (u.name h) c) = [] ∧
    s.tmp h (asyncStderr (u.name h) c) = []

/-- The files with the number `c` on the host `h` are those of one process. -/
structure Owned (u : Setup) (h c j : Nat) (s : State) : Prop extends Named u s where
  counted : c < s.fioCount h
  out : s.tmp h (asyncFile (u.name h) c) = [.out j]
  err : s.tmp h (asyncStderr (u.name h) c) = [.err j]

theorem named_start : Named u State.start := by
  refine ⟨?_, ?_, fun h c _ => ⟨rfl, rfl⟩⟩
  · intro w f hf
    cases hf
  · intro w f hf
    cases hf

theorem Named.of_quiet (hn : Named u s) (hq : quiet.rel s s') : Named u s' := by
  obtain ⟨htmp, hcount, -, hw⟩ := hq
  refine ⟨fun w f hf => hn.output w f ((hw w).1 ▸ hf), fun w f hf => hn.stderr w f ((hw w).2.1 ▸ hf),
    fun h c hc => ?_⟩
  rw [htmp]
  exact hn.unused h c ((hcount h).trans hc)

theorem Owned.of_quiet (ho : Owned u h c j s) (hq : quiet.rel s s') : Owned u h c j s' := by
  refine ⟨ho.toNamed.of_quiet hq, ho.counted.trans_le (hq.2.1 h), ?_, ?_⟩
  · rw [hq.1]
    exact ho.out
  · rw [hq.1]
    exact ho.err

theorem Named.renamed (hn : Named u s) (w : Nat) :
    Named u { s.renamed u w with commands := s.commands + 1 } := by
  refine ⟨fun w' f hf => ?_, fun w' f hf => ?_, hn.unused⟩
  · by_cases hw : w' = w
    · subst hw
      simp only [State.renamed, State.setWriter, Function.update_self, Option.some.injEq] at hf
      exact ⟨_, hf.symm⟩
    · simp only [State.renamed, State.setWriter, Function.update_of_ne hw] at hf
      exact hn.output w' f hf
  · by_cases hw : w' = w
    · subst hw
      simp only [State.renamed, State.setWriter, Function.update_self, Option.some.injEq] at hf
      exact ⟨_, hf.symm⟩
    · simp only [State.renamed, State.setWriter, Function.update_of_ne hw] at hf
      exact hn.stderr w' f hf

/-- The writer's own names, and those of the others. -/
theorem started_writers (s : State) (w w' : Nat) : (s.started u w).writers w' =
    if w' = w then { s.writers w with
      fioPid := some s.jobs
      outputFilename := some (asyncFile (u.name (u.host w)) (s.fioCount (u.host w)))
      stderrFilename := some (asyncStderr (u.name (u.host w)) (s.fioCount (u.host w))) }
    else s.writers w' := by
  split
  · rename_i hw
    simp [State.started, State.counted, State.launch, State.renamed, State.setWriter, hw]
  · rename_i hw
    simp [State.started, State.counted, State.launch, State.renamed, State.setWriter,
      Function.update_of_ne hw]

theorem started_fioCount (s : State) (w h : Nat) : (s.started u w).fioCount h =
    if h = u.host w then s.fioCount h + 1 else s.fioCount h := by
  split
  · rename_i hh
    simp [State.started, State.counted, State.launch, State.renamed, State.setWriter, hh]
  · rename_i hh
    simp [State.started, State.counted, State.launch, State.renamed, State.setWriter,
      Function.update_of_ne hh]

theorem started_tmp (s : State) (w h : Nat) (file : String) : (s.started u w).tmp h file =
    if h = u.host w ∧ file = asyncFile (u.name h) (s.fioCount h) then s.tmp h file ++ [.out s.jobs]
    else if h = u.host w ∧ file = asyncStderr (u.name h) (s.fioCount h) then
      s.tmp h file ++ [.err s.jobs]
    else s.tmp h file := by
  by_cases hh : h = u.host w
  · subst hh
    simp [State.started, State.counted, State.launch, State.renamed, State.setWriter]
  · simp [State.started, State.counted, State.launch, State.renamed, State.setWriter, hh]

theorem Named.started (hn : Named u s) (w : Nat) : Named u (s.started u w) := by
  refine ⟨fun w' f hf => ?_, fun w' f hf => ?_, fun h c hc => ?_⟩
  · rw [started_writers] at hf
    split at hf
    · rename_i hw
      rw [hw]
      exact ⟨_, (Option.some.inj hf).symm⟩
    · exact hn.output w' f hf
  · rw [started_writers] at hf
    split at hf
    · rename_i hw
      rw [hw]
      exact ⟨_, (Option.some.inj hf).symm⟩
    · exact hn.stderr w' f hf
  · rw [started_fioCount] at hc
    rw [started_tmp, started_tmp]
    by_cases hh : h = u.host w
    · rw [if_pos hh] at hc
      have hout : asyncFile (u.name h) c ≠ asyncFile (u.name h) (s.fioCount h) := by
        intro heq
        have := (asyncFile_inj heq).2
        omega
      have herr : asyncStderr (u.name h) c ≠ asyncStderr (u.name h) (s.fioCount h) := by
        intro heq
        have := (asyncStderr_inj heq).2
        omega
      simp only [hout, herr, and_false, if_false, asyncFile_ne_asyncStderr,
        asyncFile_ne_asyncStderr.symm]
      exact hn.unused h c (by omega)
    · rw [if_neg hh] at hc
      simp only [hh, false_and, if_false]
      exact hn.unused h c hc

/-- What was started owns its files. -/
theorem Named.owned_started (hn : Named u s) (w : Nat) :
    Owned u (u.host w) (s.fioCount (u.host w)) s.jobs (s.started u w) := by
  obtain ⟨hout, herr⟩ := hn.unused (u.host w) (s.fioCount (u.host w)) le_rfl
  refine ⟨hn.started w, ?_, ?_, ?_⟩
  · rw [started_fioCount, if_pos rfl]
    omega
  · rw [started_tmp, if_pos ⟨rfl, rfl⟩, hout]
    rfl
  · rw [started_tmp, if_neg fun heq => asyncFile_ne_asyncStderr heq.2.symm, if_pos ⟨rfl, rfl⟩, herr]
    rfl

/-- A file in use is not written by another process. -/
theorem Owned.started (ho : Owned u h c j s) (w : Nat) : Owned u h c j (s.started u w) := by
  have hout : asyncFile (u.name h) c ≠ asyncFile (u.name h) (s.fioCount h) := fun heq =>
    ho.counted.ne (asyncFile_inj heq).2
  have herr : asyncStderr (u.name h) c ≠ asyncStderr (u.name h) (s.fioCount h) := fun heq =>
    ho.counted.ne (asyncStderr_inj heq).2
  refine ⟨ho.toNamed.started w, ?_, ?_, ?_⟩
  · rw [started_fioCount]
    have := ho.counted
    split <;> omega
  · rw [started_tmp]
    simp only [hout, and_false, if_false, asyncFile_ne_asyncStderr]
    exact ho.out
  · rw [started_tmp]
    simp only [herr, and_false, if_false, asyncFile_ne_asyncStderr.symm]
    exact ho.err

/-! ## Runs -/

/-- All calls but `start`. -/
theorem quiet_exec {a : Action} (ha : ∀ w, a ≠ .start w) : quiet.Holds (a.exec u o) := by
  cases a with
  | fioFile h => exact quiet_fioFile
  | start w => exact absurd rfl (ha w)
  | isRunning w =>
    exact Frame.holds_bind (quiet_of_silent silent_isRunning) fun _ => Frame.holds_pure _
  | wait w => exact quiet_wait
  | killJobs w => exact quiet_of_silent silent_killJobs
  | stop w =>
    refine Frame.holds_bind Frame.holds_get fun s => ?_
    refine Frame.holds_bind (Frame.holds_when fun _ => Frame.holds_throw _) fun _ => ?_
    exact Frame.holds_bind (quiet_of_silent silent_run) fun _ => quiet_wait

/-- What calls do: a `start` goes well or fails, and the others are quiet. -/
theorem exec_cases (hleft : NoneLeft o) (a : Action) (s : State) :
    (∃ w, a = .start w ∧ (Stateful.exec (a.exec u o) s).2 = s.started u w) ∨
    (∃ w, a = .start w ∧ (Stateful.exec (a.exec u o) s).2 =
      { s.renamed u w with commands := s.commands + 1 }) ∨
    ((∀ w, a ≠ .start w) ∧ quiet.rel s (Stateful.exec (a.exec u o) s).2) := by
  by_cases ha : ∃ w, a = .start w
  · obtain ⟨w, rfl⟩ := ha
    rcases hreturns : o.returns s.commands with _ | _
    · exact Or.inr (Or.inl ⟨w, rfl, congrArg Prod.snd (exec_start_of_fails hleft hreturns)⟩)
    · exact Or.inl ⟨w, rfl, congrArg Prod.snd (exec_start_of_returns hreturns)⟩
  · have hne : ∀ w, a ≠ .start w := fun w heq => ha ⟨w, heq⟩
    exact Or.inr (Or.inr ⟨hne, quiet_exec hne s⟩)

theorem Named.exec (hn : Named u s) (hleft : NoneLeft o) (a : Action) :
    Named u (Stateful.exec (a.exec u o) s).2 := by
  rcases exec_cases hleft a s with ⟨w, rfl, heq⟩ | ⟨w, rfl, heq⟩ | ⟨-, hq⟩
  · rw [heq]
    exact hn.started w
  · rw [heq]
    exact hn.renamed w
  · exact hn.of_quiet hq

theorem Owned.exec (ho : Owned u h c j s) (hleft : NoneLeft o) (a : Action) :
    Owned u h c j (Stateful.exec (a.exec u o) s).2 := by
  rcases exec_cases hleft a s with ⟨w, rfl, heq⟩ | ⟨w, rfl, heq⟩ | ⟨-, hq⟩
  · rw [heq]
    exact ho.started w
  · rw [heq]
    exact ⟨ho.toNamed.renamed w, ho.counted, ho.out, ho.err⟩
  · exact ho.of_quiet hq

/-- The process `j` that was started last for the `BusyWrite` was not collected yet, or lost. -/
structure Pending (u : Setup) (w c j : Nat) (s : State) : Prop extends Owned u (u.host w) c j s where
  writer : (s.writers w).fioPid = none ∨ ((s.writers w).fioPid = some j ∧
    (s.writers w).outputFilename = some (asyncFile (u.name (u.host w)) c) ∧
    (s.writers w).stderrFilename = some (asyncStderr (u.name (u.host w)) c))

theorem Pending.of_quiet (hp : Pending u w c j s) (hq : quiet.rel s s') : Pending u w c j s' := by
  refine ⟨hp.toOwned.of_quiet hq, ?_⟩
  obtain ⟨hout, herr, hpid⟩ := hq.2.2.2 w
  rw [hout, herr]
  rcases hpid with heq | hnone
  · rw [heq]
    exact hp.writer
  · exact Or.inl hnone

theorem Named.pending_started (hn : Named u s) (w : Nat) :
    Pending u w (s.fioCount (u.host w)) s.jobs (s.started u w) := by
  refine ⟨hn.owned_started w, Or.inr ?_⟩
  rw [started_writers, if_pos rfl]
  exact ⟨rfl, rfl, rfl⟩

theorem Pending.exec (hp : Pending u w c j s) (hleft : NoneLeft o) {a : Action}
    (ha : a ≠ .start w) : Pending u w c j (Stateful.exec (a.exec u o) s).2 := by
  refine ⟨hp.toOwned.exec hleft a, ?_⟩
  rcases exec_cases hleft a s with ⟨w', rfl, heq⟩ | ⟨w', rfl, heq⟩ | ⟨-, hq⟩
  · have hw : w ≠ w' := fun hw => ha (hw ▸ rfl)
    rw [heq, started_writers, if_neg hw]
    exact hp.writer
  · have hw : w ≠ w' := fun hw => ha (hw ▸ rfl)
    rw [heq]
    simp only [State.renamed, State.setWriter, Function.update_of_ne hw]
    exact hp.writer
  · exact (hp.of_quiet hq).writer

/-- The output of the process `j` is in the log directory. -/
structure Collected (u : Setup) (o : Outside) (h c j : Nat) (s : State) : Prop
    extends Owned u h c j s where
  ended : s.ended j = true
  loggedOut : s.logdir (asyncFile (u.name h) c) = some (fromBrace (o.text (.out j)))
  loggedErr : s.logdir (asyncStderr (u.name h) c) = some (o.text (.err j))

theorem tail_returns {pid : Option Nat} (hr : Returns (tail o pid) s ⟨⟩ s') :
    ∃ j, pid = some j ∧ s' = { s with
      commands := s.commands + 1
      ended := Function.update s.ended j true } := by
  cases pid with
  | none =>
    obtain ⟨_, t, -, hthrow⟩ := returns_bind.mp hr
    cases returns_throw.mp hthrow
  | some j =>
    obtain ⟨k, t, hrun, hr⟩ := returns_bind.mp hr
    obtain rfl := run_returns hrun
    exact ⟨j, rfl, returns_modify_eq hr⟩

theorem getAttr_returns {α : Type} {a : Option α} {b : α} (hr : Returns (getAttr a) s b s') :
    a = some b ∧ s' = s := by
  cases a with
  | none => cases returns_throw.mp hr
  | some a =>
    obtain ⟨rfl, rfl⟩ := returns_pure.mp hr
    exact ⟨rfl, rfl⟩

/-- When a `BusyWrite` was waited for, its output is collected. -/
theorem Pending.wait (hp : Pending u w c j s) (hr : Returns (wait u o w) s ⟨⟩ s') :
    Collected u o (u.host w) c j s' ∧
      (s'.writers w).fioOutStr = some (fromBrace (o.text (.out j))) := by
  have howned := hp.toOwned.of_quiet (quiet_wait.rel_of_returns hr)
  unfold Fio.wait at hr
  rw [returns_get_bind] at hr
  obtain ⟨⟨⟩, t₁, htail, hr⟩ := returns_bind.mp hr
  obtain ⟨j', hpid, rfl⟩ := tail_returns htail
  obtain ⟨hsome, hout, herr⟩ : (s.writers w).fioPid = some j ∧ _ ∧ _ :=
    hp.writer.resolve_left fun hnone => by cases hnone.symm.trans hpid
  obtain rfl : j = j' := Option.some.inj (hsome.symm.trans hpid)
  obtain ⟨⟨⟩, t₂, hmodify, hr⟩ := returns_bind.mp hr
  obtain rfl := returns_modify_eq hmodify
  obtain ⟨output, t₃, hattr, hr⟩ := returns_bind.mp hr
  obtain ⟨houtput, rfl⟩ := getAttr_returns hattr
  obtain rfl := Option.some.inj (hout.symm.trans houtput)
  obtain ⟨text, t₄, hcat, hr⟩ := returns_bind.mp hr
  have hended : Function.update s.ended j true j = true := Function.update_self ..
  obtain ⟨rfl, rfl⟩ := cat_returns hcat hp.out fun i hi => by
    rcases hi with hi | hi <;> cases hi
    exact hended
  obtain ⟨⟨⟩, t₅, hmodify', hr⟩ := returns_bind.mp hr
  obtain rfl := returns_modify_eq hmodify'
  obtain ⟨⟨⟩, t₆, hlog, hr⟩ := returns_bind.mp hr
  obtain rfl := returns_modify_eq hlog
  obtain ⟨stderr, t₇, hattr', hr⟩ := returns_bind.mp hr
  obtain ⟨hstderr, rfl⟩ := getAttr_returns hattr'
  obtain rfl := Option.some.inj (herr.symm.trans hstderr)
  obtain ⟨text', t₈, hcat', hr⟩ := returns_bind.mp hr
  obtain ⟨rfl, rfl⟩ := cat_returns hcat' hp.err fun i hi => by
    rcases hi with hi | hi <;> cases hi
    exact hended
  obtain rfl := returns_modify_eq hr
  refine ⟨⟨howned, hended, ?_, ?_⟩, ?_⟩
  · simp [Function.update_of_ne asyncFile_ne_asyncStderr, State.setWriter]
  · simp
  · simp [State.setWriter]

/-- Nothing is logged, and no process is started. -/
theorem Collected.of_silent (hc : Collected u o h c j s) (hs : silent.rel s s') :
    Collected u o h c j s' := by
  refine ⟨hc.toOwned.of_quiet hs.1, hs.1.2.2.1 j hc.ended, ?_, ?_⟩
  · rw [hs.2]
    exact hc.loggedOut
  · rw [hs.2]
    exact hc.loggedErr

/-- What is collected may be logged again. -/
theorem Collected.writeLog (hc : Collected u o h c j s)
    (hout : file = asyncFile (u.name h) c → text = fromBrace (o.text (.out j)))
    (herr : file = asyncStderr (u.name h) c → text = o.text (.err j)) :
    Collected u o h c j (Stateful.exec (writeLog file text) s).2 := by
  refine ⟨hc.toOwned.of_quiet (quiet_writeLog s), hc.ended, ?_, ?_⟩
  · change Function.update s.logdir file (some text) _ = _
    by_cases hf : asyncFile (u.name h) c = file
    · rw [hf, Function.update_self, hout hf.symm]
    · rw [Function.update_of_ne hf]
      exact hc.loggedOut
  · change Function.update s.logdir file (some text) _ = _
    by_cases hf : asyncStderr (u.name h) c = file
    · rw [hf, Function.update_self, herr hf.symm]
    · rw [Function.update_of_ne hf]
      exact hc.loggedErr

theorem keeps_silent {α : Type} {m : Script α} (hm : silent.Holds m) :
    (Frame.keeping (Collected u o h c j)).Holds m :=
  hm.mono fun _ _ hs hc => hc.of_silent hs

/-- Whoever reads the output of the process reads what it has written. -/
theorem Collected.cat_out (hc : Collected u o h c j s) (hname : ∀ a b, u.name a = u.name b → a = b)
    {h' c' : Nat} (hr : Returns (cat o h' (asyncFile (u.name h') c')) s text s')
    (hf : asyncFile (u.name h') c' = asyncFile (u.name h) c) : text = o.text (.out j) := by
  obtain ⟨hn, rfl⟩ := asyncFile_inj hf
  obtain rfl := hname _ _ hn
  refine (cat_returns hr hc.out fun i hi => ?_).2
  rcases hi with hi | hi <;> cases hi
  exact hc.ended

theorem Collected.cat_err (hc : Collected u o h c j s) (hname : ∀ a b, u.name a = u.name b → a = b)
    {h' c' : Nat} (hr : Returns (cat o h' (asyncStderr (u.name h') c')) s text s')
    (hf : asyncStderr (u.name h') c' = asyncStderr (u.name h) c) : text = o.text (.err j) := by
  obtain ⟨hn, rfl⟩ := asyncStderr_inj hf
  obtain rfl := hname _ _ hn
  refine (cat_returns hr hc.err fun i hi => ?_).2
  rcases hi with hi | hi <;> cases hi
  exact hc.ended

theorem Collected.wait (hc : Collected u o h c j s)
    (hname : ∀ a b, u.name a = u.name b → a = b) (w : Nat) :
    Collected u o h c j (Stateful.exec (wait u o w) s).2 := by
  rw [Fio.wait, exec_get_bind]
  refine Frame.keeping_bind (keeps_silent silent_tail) (fun _ _ s₁ _ _ hc₁ => ?_) s hc
  refine Frame.keeping_bind (keeps_silent silent_dropPid) (fun _ _ s₂ _ _ hc₂ => ?_) s₁ hc₁
  refine Frame.keeping_bind (holds_getAttr _) (fun output _ s₃ _ houtput hc₃ => ?_) s₂ hc₂
  obtain ⟨c', rfl⟩ := hc.output w output (getAttr_returns houtput).1
  refine Frame.keeping_bind (keeps_silent silent_cat) (fun text s₃ s₄ hc₃ hcat hc₄ => ?_) s₃ hc₃
  refine Frame.keeping_bind (keeps_silent silent_setOutStr) (fun _ _ s₅ _ _ hc₅ => ?_) s₄ hc₄
  have hlog : (Frame.keeping (Collected u o h c j)).Holds
      (Fio.writeLog (asyncFile (u.name (u.host w)) c') (fromBrace text)) := fun t ht =>
    ht.writeLog (fun hf => by rw [hc₃.cat_out hname hcat hf]) fun hf =>
      absurd hf asyncFile_ne_asyncStderr
  refine Frame.keeping_bind hlog (fun _ _ s₆ _ _ hc₆ => ?_) s₅ hc₅
  refine Frame.keeping_bind (holds_getAttr _) (fun stderr _ s₇ _ hstderr hc₇ => ?_) s₆ hc₆
  obtain ⟨c'', rfl⟩ := hc.stderr w stderr (getAttr_returns hstderr).1
  refine Frame.keeping_bind (keeps_silent silent_cat) (fun text' s₇ s₈ hc₇ hcat' hc₈ => ?_) s₇ hc₇
  refine hc₈.writeLog (fun hf => ?_) fun hf => ?_
  · exact absurd hf.symm asyncFile_ne_asyncStderr
  · exact hc₇.cat_err hname hcat' hf

theorem Collected.exec (hc : Collected u o h c j s) (hleft : NoneLeft o)
    (hname : ∀ a b, u.name a = u.name b → a = b) (a : Action) :
    Collected u o h c j (Stateful.exec (a.exec u o) s).2 := by
  have howned := hc.toOwned.exec hleft a
  cases a with
  | fioFile h' =>
    rw [Action.exec, Fio.fioFile]
    refine Frame.keeping_bind (keeps_silent silent_run) (fun k _ s₁ _ _ hc₁ => ?_) s hc
    refine Frame.keeping_bind (fun t ht => ?_) (fun _ _ s₂ _ _ hc₂ => ?_) s₁ hc₁
    · exact ht.writeLog (fun hf => absurd hf outputFile_ne_asyncFile) fun hf =>
        absurd hf outputFile_ne_asyncStderr
    · split
      · exact ⟨hc₂.toOwned.of_quiet (quiet_count s₂), hc₂.ended, hc₂.loggedOut, hc₂.loggedErr⟩
      · exact hc₂
  | start w =>
    rcases exec_cases hleft (.start w) s with ⟨w', -, heq⟩ | ⟨w', -, heq⟩ | ⟨hne, -⟩
    · rw [heq] at howned ⊢
      exact ⟨howned, hc.ended, hc.loggedOut, hc.loggedErr⟩
    · rw [heq] at howned ⊢
      exact ⟨howned, hc.ended, hc.loggedOut, hc.loggedErr⟩
    · exact absurd rfl (hne w)
  | isRunning w =>
    exact keeps_silent (Frame.holds_bind silent_isRunning fun _ => Frame.holds_pure _) s hc
  | wait w => exact hc.wait hname w
  | killJobs w => exact keeps_silent silent_killJobs s hc
  | stop w =>
    rw [Action.exec, Fio.stop, exec_get_bind]
    refine Frame.keeping_bind (keeps_silent (Frame.holds_when fun _ => Frame.holds_throw _))
      (fun _ _ s₁ _ _ hc₁ => ?_) s hc
    exact Frame.keeping_bind (keeps_silent silent_run) (fun _ _ s₂ _ _ hc₂ => hc₂.wait hname w) s₁ hc₁

theorem Named.afterAll (hn : Named u s) (hleft : NoneLeft o) (actions : List Action) :
    Named u (afterAll u o s actions) := by
  induction actions generalizing s with
  | nil => exact hn
  | cons a actions ih => exact ih (hn.exec hleft a)

theorem Pending.afterAll (hp : Pending u w c j s) (hleft : NoneLeft o) {actions : List Action}
    (h : .start w ∉ actions) : Pending u w c j (afterAll u o s actions) := by
  induction actions generalizing s with
  | nil => exact hp
  | cons a actions ih =>
    exact ih (hp.exec hleft fun heq => h (heq ▸ List.mem_cons_self))
      fun hmem => h (List.mem_cons_of_mem _ hmem)

theorem Collected.afterAll (hc : Collected u o h c j s) (hleft : NoneLeft o)
    (hname : ∀ a b, u.name a = u.name b → a = b) (actions : List Action) :
    Collected u o h c j (afterAll u o s actions) := by
  induction actions generalizing s with
  | nil => exact hc
  | cons a actions ih => exact ih (hc.exec hleft hname a)

/-- A process is started for a `BusyWrite`. Whatever is called then, but another `start` of it, when a
`wait` or a `stop` returns, the output of this process is collected, and whatever is called afterwards,
it is in the log directory, in the files with the number at the start. -/
theorem wait_collects (u : Setup) (o : Outside) (before between after : List Action) (w : Nat)
    (a : Action) (s : State) (hname : ∀ a b, u.name a = u.name b → a = b) (hleft : NoneLeft o)
    (ha : a = .wait w ∨ a = .stop w) (hbetween : .start w ∉ between)
    (hstart : o.returns (afterAll u o .start before).commands = true)
    (hr : Returns (a.exec u o) (afterAll u o .start (before ++ .start w :: between)) ⟨⟩ s) :
    let t := afterAll u o .start before
    let output := fromBrace (o.text (.out t.jobs))
    (s.writers w).fioOutStr = some output ∧
      (afterAll u o s after).logdir (asyncFile (u.name (u.host w)) (t.fioCount (u.host w))) =
        some output ∧
      (afterAll u o s after).logdir (asyncStderr (u.name (u.host w)) (t.fioCount (u.host w))) =
        some (o.text (.err t.jobs)) := by
  have hn : Named u (Fio.afterAll u o .start before) := named_start.afterAll hleft before
  have hsplit : Fio.afterAll u o .start (before ++ .start w :: between) =
      Fio.afterAll u o ((Fio.afterAll u o .start before).started u w) between := by
    unfold Fio.afterAll
    rw [List.foldl_append, List.foldl_cons]
    exact congrArg (fun s => List.foldl _ s between)
      (congrArg Prod.snd (exec_start_of_returns hstart))
  rw [hsplit] at hr
  have hp := (hn.pending_started w).afterAll hleft hbetween
  obtain ⟨t, ht, hwait⟩ : ∃ t, Pending u w _ _ t ∧ Returns (Fio.wait u o w) t ⟨⟩ s := by
    rcases ha with rfl | rfl
    · exact ⟨_, hp, hr⟩
    · change Returns (Fio.stop u o w) _ _ _ at hr
      unfold Fio.stop at hr
      rw [returns_get_bind] at hr
      obtain ⟨⟨⟩, t₁, hwhen, hr⟩ := returns_bind.mp hr
      obtain ⟨k, t₂, hrun, hr⟩ := returns_bind.mp hr
      have hquiet := quiet.trans
        ((Frame.holds_when fun _ => Frame.holds_throw _).rel_of_returns hwhen)
        ((quiet_of_silent silent_run).rel_of_returns hrun)
      exact ⟨t₂, hp.of_quiet hquiet, hr⟩
  obtain ⟨hc, hstr⟩ := ht.wait hwait
  have hafter := hc.afterAll hleft hname after
  exact ⟨hstr, hafter.loggedOut, hafter.loggedErr⟩

/-- Two hosts, and writers on each of them. -/
def twoHosts : Setup where
  name h := toString h
  host w := w % 2

/-- All commands succeed. -/
def working : Outside where
  returns _ := true
  runs _ := false
  text _ := "note ".toList ++ ['\x7b', '\x7d']
  printed _ := "true".toList
  parses _ := true

/-- Two processes on one host, one of them stopped while the other one runs. -/
theorem wait_collects_two :
    let t := afterAll twoHosts working .start [.fioFile 0, .start 1]
    let s := (exec (Action.exec twoHosts working (.stop 0))
      (afterAll twoHosts working .start
        ([.fioFile 0, .start 1] ++ .start 0 :: [.fioFile 0, .start 2, .wait 1]))).2
    let output := fromBrace (working.text (.out t.jobs))
    (s.writers 0).fioOutStr = some output ∧
      (afterAll twoHosts working s [.start 0, .wait 2]).logdir
        (asyncFile (twoHosts.name (twoHosts.host 0)) (t.fioCount (twoHosts.host 0))) = some output ∧
      (afterAll twoHosts working s [.start 0, .wait 2]).logdir
        (asyncStderr (twoHosts.name (twoHosts.host 0)) (t.fioCount (twoHosts.host 0))) =
        some (working.text (.err t.jobs)) := by
  refine wait_collects twoHosts working [.fioFile 0, .start 1] [.fioFile 0, .start 2, .wait 1]
    [.start 0, .wait 2] 0 (.stop 0) _ (fun a b h => ?_) (fun k hk => rfl) (Or.inr rfl) (by decide)
    rfl (returns_of_toBool (by decide +kernel))
  have hdecimal := congrArg (fun name : String => Text.decimal name.toList) h
  change Text.decimal (toString a).toList = Text.decimal (toString b).toList at hdecimal
  rw [Text.decimal_toString, Text.decimal_toString] at hdecimal
  exact Option.some.inj hdecimal

end DrbdTests.Fio
