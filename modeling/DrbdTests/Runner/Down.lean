import DrbdTests.Lib.Stateful
import DrbdTests.Lib.Shell
import DrbdTests.Lib.Regex

/-!
# `drbdsetup down all`

Before a test, `try_down_all` takes down the resources which the last one has left on a VM. When a
process holds a device open, `drbdsetup` says so on its standard error, and `handle_down_error` kills
the process, or unmounts the device if the process is `mount`.

The standard error is a `bytes` object, and the expression is searched in its `str`, which starts with
`b'` or `b"`. So does the name of the device in `umount`, and unless there are quotes of both kinds
in the message, the shell finds no end of these. Such a device is never unmounted, and what is left of the
function is `tryDownAll_returns_iff`.
-/

namespace DrbdTests.Down

open Stateful

/-! ## The commands -/

/-- A command that is run on a VM with `ssh`. -/
structure Ssh where
  vm : String
  cmd : List Char
  deriving DecidableEq, Repr

/-- A process that has ended. -/
structure Finished where
  returncode : Int
  stderr : List UInt8
  deriving DecidableEq, Repr

structure Outside where
  /-- how a command ends, if it is the `k`-th -/
  finished : Nat → Ssh → Finished
  /-- the `k`-th command is `drbdsetup down all`, and takes more than 30 seconds -/
  timesOut : Nat → Bool

inductive DownError
  | calledProcessError (e : Finished)
  | timeoutExpired
  | attributeError
  | exception
  deriving DecidableEq, Repr

/-- The state: the commands so far. -/
abbrev Script := Comp (List Ssh) DownError

def ssh (o : Outside) (vm : String) (cmd : List Char) : Script Finished := do
  let commands ← get
  set (commands ++ [Ssh.mk vm cmd])
  return o.finished commands.length ⟨vm, cmd⟩

def downAll : List Char := "drbdsetup down all".toList

def drbdsetupDown (o : Outside) (vm : String) : Script PUnit := do
  let commands ← get
  let p ← ssh o vm downAll
  if o.timesOut commands.length then throw .timeoutExpired
  else if p.returncode ≠ 0 then throw (.calledProcessError p)
  else return ⟨⟩

def unmountDev (o : Outside) (vm : String) (dev : List Char) : Script PUnit := do
  let p ← ssh o vm ("umount ".toList ++ dev)
  if p.returncode ≠ 0 then throw .exception else return ⟨⟩

def testProc (pid : List Char) : List Char := "test -d /proc/".toList ++ pid

def isProcessRunning (o : Outside) (vm : String) (pid : List Char) : Script Bool := do
  let p ← ssh o vm (testProc pid)
  return p.returncode = 0

def kill (pid : List Char) : List Char := "kill -9 ".toList ++ pid

/-- The loop of `kill_process`, with the attempts that are left. -/
def killAttempts (o : Outside) (vm : String) (pid : List Char) : Nat → Script PUnit
  | 0 => throw .exception
  | attempts + 1 => do
    let _ ← ssh o vm (kill pid)
    let running ← isProcessRunning o vm pid
    if running then killAttempts o vm pid attempts else return ⟨⟩

def killProcess (o : Outside) (vm : String) (pid : List Char) : Script PUnit :=
  killAttempts o vm pid 3

/-! ## What is read off the error -/

/-- A byte in the `str` of a `bytes` object. -/
def byteChars (quote : Char) (b : UInt8) : List Char :=
  let c := Char.ofNat b.toNat
  if c = quote ∨ c = '\\' then ['\\', c]
  else if c = '\t' then ['\\', 't']
  else if c = '\n' then ['\\', 'n']
  else if c = '\r' then ['\\', 'r']
  else if b.toNat < 0x20 ∨ 0x7f ≤ b.toNat then
    ['\\', 'x', Nat.digitChar (b.toNat / 16), Nat.digitChar (b.toNat % 16)]
  else [c]

def single : UInt8 := 0x27

def double : UInt8 := 0x22

/-- The quotes that are put around the bytes. -/
def quoteOf (bytes : List UInt8) : Char :=
  if single ∈ bytes ∧ double ∉ bytes then '"' else '\''

/-- `str(bytes)` -/
def strBytes (bytes : List UInt8) : List Char :=
  'b' :: quoteOf bytes :: (bytes.flatMap (byteChars (quoteOf bytes)) ++ [quoteOf bytes])

/-- `regexPid`, behind `^`; the text has no newline, so that `.*` goes on to its end. -/
def regexPid : List Regex.Piece :=
  .run Regex.isAny 0 true :: (Regex.lit " opened by " ++
    .run Regex.isAny 0 true :: (Regex.lit " (pid " ++
      .run Regex.isDecimal 0 true :: (Regex.lit ") at " ++ [.run Regex.isAny 0 false])))

/-- The groups of the match: `dev`, `procname` and `pid`. -/
def opener (stderr : List UInt8) : Option (List Char × List Char × List Char) :=
  match Regex.matchHere regexPid (strBytes stderr) with
  | some [dev, procname, pid] => some (dev, procname, pid)
  | _ => none

/-- The part of `handle_down_error` before the second `drbdsetup_down`. -/
def freeDevice (o : Outside) (vm : String) (e : Finished) : Script PUnit :=
  if e.returncode = 11 then
    match opener e.stderr with
    | none => throw .attributeError
    | some (dev, procname, pid) =>
      if procname = "mount".toList then unmountDev o vm dev else killProcess o vm pid
  else throw .exception

def handleDownError (o : Outside) (vm : String) (e : Finished) : Script PUnit := do
  freeDevice o vm e
  drbdsetupDown o vm

def tryDownAll (o : Outside) (vm : String) : Script PUnit :=
  tryCatch (drbdsetupDown o vm) fun
    | .calledProcessError e => handleDownError o vm e
    | e => throw e

example : opener "/dev/drbd0 opened by mount (pid 7) at now".toUTF8.toList =
    some ("b'/dev/drbd0".toList, "mount".toList, ['7']) := by decide +kernel

variable {o : Outside} {vm : String} {pid : List Char} {s s' : List Ssh} {bytes : List UInt8}

/-! ## `umount` -/

theorem single_of_mem {b : UInt8} (h : '\'' ∈ byteChars '\'' b) : b = single := by
  have hall : ∀ n < 256, '\'' ∈ byteChars '\'' (UInt8.ofNat n) → n = 0x27 := by decide +kernel
  rw [← UInt8.ofNat_toNat (x := b)] at h ⊢
  rw [hall _ b.toNat_lt h]
  rfl

theorem double_of_mem {b : UInt8} (h : '"' ∈ byteChars '"' b) : b = double := by
  have hall : ∀ n < 256, '"' ∈ byteChars '"' (UInt8.ofNat n) → n = 0x22 := by decide +kernel
  rw [← UInt8.ofNat_toNat (x := b)] at h ⊢
  rw [hall _ b.toNat_lt h]
  rfl

/-- Without both kinds of quotes among the bytes, those around them are the only ones. -/
theorem quoteOf_not_mem (h : ¬ (single ∈ bytes ∧ double ∈ bytes)) :
    quoteOf bytes ∉ bytes.flatMap (byteChars (quoteOf bytes)) := by
  intro hmem
  obtain ⟨b, hb, hmem⟩ := List.mem_flatMap.mp hmem
  unfold quoteOf at hmem
  split at hmem
  · rename_i hquotes
    exact hquotes.2 (double_of_mem hmem ▸ hb)
  · rename_i hquotes
    have hsingle : single ∈ bytes := single_of_mem hmem ▸ hb
    exact hquotes ⟨hsingle, fun hdouble => h ⟨hsingle, hdouble⟩⟩

theorem quoteOf_cases (bytes : List UInt8) : quoteOf bytes = '"' ∨ quoteOf bytes = '\'' := by
  unfold quoteOf
  split
  · exact Or.inl rfl
  · exact Or.inr rfl

/-- The device starts with a quote that is not closed in it. -/
theorem opener_dev {dev procname : List Char} (h : opener bytes = some (dev, procname, pid)) :
    ∃ text, dev = 'b' :: quoteOf bytes :: text ∧
      text <+: bytes.flatMap (byteChars (quoteOf bytes)) := by
  unfold opener at h
  split at h
  · rename_i groups dev' procname' pid' hmatch
    obtain ⟨rfl, -⟩ := Prod.mk.inj (Option.some.inj h)
    obtain ⟨taken, left, groups', htext, -, -, hrest, hgroups⟩ := Regex.match_run_eq_some hmatch
    obtain ⟨rfl, -⟩ := List.cons.inj hgroups
    obtain ⟨left', rfl, -⟩ := Regex.match_lit_eq_some hrest
    have hquote : quoteOf bytes ≠ ' ' := by
      rcases quoteOf_cases bytes with h | h <;> rw [h] <;> decide
    -- it has at least two characters, since the third group starts with a blank
    rcases dev' with _ | ⟨c, _ | ⟨d, text⟩⟩
    · cases (List.cons.inj htext).1
    · exact absurd (List.cons.inj (List.cons.inj htext).2).1 hquote
    · obtain ⟨hb, htext⟩ := List.cons.inj htext
      obtain ⟨hd, htext⟩ := List.cons.inj htext
      change _ = text ++ (" opened by ".toList ++ left') at htext
      rw [← hb, ← hd]
      refine ⟨text, rfl, ?_⟩
      have hlen := congrArg List.length htext
      simp only [List.length_append, List.length_singleton] at hlen
      have hlit : " opened by ".toList.length = 11 := rfl
      have hprefix : text <+: bytes.flatMap (byteChars (quoteOf bytes)) ++ [quoteOf bytes] := by
        rw [htext]
        exact List.prefix_append _ _
      exact List.prefix_of_prefix_length_le hprefix (List.prefix_append _ _) (by omega)
  · cases h

theorem open_umount {dev procname : List Char} (h : opener bytes = some (dev, procname, pid))
    (hquotes : ¬ (single ∈ bytes ∧ double ∈ bytes)) : Shell.Open ("umount ".toList ++ dev) := by
  obtain ⟨text, rfl, htext⟩ := opener_dev h
  have hnot : quoteOf bytes ∉ text := fun hmem => quoteOf_not_mem hquotes (htext.subset hmem)
  rcases quoteOf_cases bytes with hquote | hquote
  · rw [hquote] at hnot ⊢
    change Shell.scan .double false text ≠ .plain
    rw [Shell.scan_double hnot]
    exact nofun
  · rw [hquote] at hnot ⊢
    change Shell.scan .single false text ≠ .plain
    rw [Shell.scan_single hnot]
    exact nofun

/-! ## `kill_process` -/

/-- The check that is the `k`-th command finds the process. -/
def Running (o : Outside) (vm : String) (pid : List Char) (k : Nat) : Prop :=
  (o.finished k ⟨vm, testProc pid⟩).returncode = 0

instance (k : Nat) : Decidable (Running o vm pid k) := inferInstanceAs (Decidable (_ = _))

/-- The commands of one attempt, some times. -/
def attemptsOf (vm : String) (pid : List Char) (n : Nat) : List Ssh :=
  (List.replicate n [⟨vm, kill pid⟩, ⟨vm, testProc pid⟩]).flatten

theorem attemptsOf_succ (n : Nat) : attemptsOf vm pid (n + 1) =
    [⟨vm, kill pid⟩, ⟨vm, testProc pid⟩] ++ attemptsOf vm pid n := by
  rw [attemptsOf, List.replicate_succ, List.flatten_cons]
  rfl

theorem length_attemptsOf (n : Nat) : (attemptsOf vm pid n).length = 2 * n := by
  induction n with
  | zero => rfl
  | succ n ih =>
    rw [attemptsOf_succ, List.length_append, ih]
    simp only [List.length_cons, List.length_nil]
    omega

theorem exec_killAttempts (attempts : Nat) (s : List Ssh) :
    exec (killAttempts o vm pid (attempts + 1)) s =
      if Running o vm pid (s.length + 1) then
        exec (killAttempts o vm pid attempts) (s ++ attemptsOf vm pid 1)
      else (.ok ⟨⟩, s ++ attemptsOf vm pid 1) := by
  have hcommands : s ++ [⟨vm, kill pid⟩] ++ [⟨vm, testProc pid⟩] = s ++ attemptsOf vm pid 1 := by
    simp [attemptsOf]
  have hchecked : exec (killAttempts o vm pid (attempts + 1)) s =
      exec (if decide (Running o vm pid (s ++ [Ssh.mk vm (kill pid)]).length) = true then
        killAttempts o vm pid attempts else pure PUnit.unit)
        (s ++ [⟨vm, kill pid⟩] ++ [⟨vm, testProc pid⟩]) := rfl
  rw [hchecked, hcommands, List.length_append, List.length_singleton]
  by_cases hrunning : Running o vm pid (s.length + 1)
  · rw [if_pos hrunning, if_pos (decide_eq_true hrunning)]
  · rw [if_neg hrunning, if_neg (by simpa using hrunning)]
    rfl

/-- `kill_process` returns as soon as a check does not find the process, after three attempts at
most. -/
theorem killAttempts_returns {attempts : Nat} : Returns (killAttempts o vm pid attempts) s ⟨⟩ s' ↔
    ∃ n < attempts, (∀ i < n, Running o vm pid (s.length + 2 * i + 1)) ∧
      ¬ Running o vm pid (s.length + 2 * n + 1) ∧ s' = s ++ attemptsOf vm pid (n + 1) := by
  induction attempts generalizing s with
  | zero =>
    rw [killAttempts, returns_throw]
    exact ⟨False.elim, fun ⟨n, hn, _⟩ => absurd hn (Nat.not_lt_zero n)⟩
  | succ attempts ih =>
    rw [Returns, exec_killAttempts]
    by_cases hrunning : Running o vm pid (s.length + 1)
    · rw [if_pos hrunning, ← Returns, ih, List.length_append, length_attemptsOf]
      constructor
      · rintro ⟨n, hn, hbefore, hlast, rfl⟩
        refine ⟨n + 1, by omega, fun i hi => ?_, ?_, ?_⟩
        · rcases i with _ | i
          · exact hrunning
          · have hi' := hbefore i (by omega)
            rwa [show s.length + 2 * (i + 1) + 1 = s.length + 2 * 1 + 2 * i + 1 by omega]
        · rwa [show s.length + 2 * (n + 1) + 1 = s.length + 2 * 1 + 2 * n + 1 by omega]
        · rw [attemptsOf_succ (n + 1), List.append_assoc]
          rfl
      · rintro ⟨n, hn, hbefore, hlast, rfl⟩
        rcases n with _ | n
        · exact absurd hrunning hlast
        · refine ⟨n, by omega, fun i hi => ?_, ?_, ?_⟩
          · have hi' := hbefore (i + 1) (by omega)
            rwa [show s.length + 2 * 1 + 2 * i + 1 = s.length + 2 * (i + 1) + 1 by omega]
          · rwa [show s.length + 2 * 1 + 2 * n + 1 = s.length + 2 * (n + 1) + 1 by omega]
          · rw [attemptsOf_succ (n + 1), List.append_assoc]
            rfl
    · rw [if_neg hrunning, Prod.mk.injEq]
      constructor
      · rintro ⟨-, rfl⟩
        exact ⟨0, by omega, fun i hi => absurd hi (Nat.not_lt_zero i), hrunning, rfl⟩
      · rintro ⟨n, hn, hbefore, hlast, rfl⟩
        rcases n with _ | n
        · exact ⟨rfl, rfl⟩
        · exact absurd (hbefore 0 (by omega)) hrunning

/-! ## `try_down_all` -/

/-- `drbdsetup down all` succeeds as the `k`-th command. -/
def DownOk (o : Outside) (vm : String) (k : Nat) : Prop :=
  o.timesOut k = false ∧ (o.finished k ⟨vm, downAll⟩).returncode = 0

/-- The `k`-th command is a `drbdsetup down all` that finds a device held open. -/
def HeldOpen (o : Outside) (vm : String) (k : Nat) (procname pid : List Char) : Prop :=
  o.timesOut k = false ∧ (o.finished k ⟨vm, downAll⟩).returncode = 11 ∧
    ∃ dev, opener (o.finished k ⟨vm, downAll⟩).stderr = some (dev, procname, pid)

/-- What `try_down_all` runs after `k` commands when it returns. -/
inductive Downs (o : Outside) (vm : String) (k : Nat) : List Ssh → Prop
  | atOnce : DownOk o vm k → Downs o vm k [⟨vm, downAll⟩]
  | killed {procname pid : List Char} {n : Nat} :
      HeldOpen o vm k procname pid → procname ≠ "mount".toList → n < 3 →
      (∀ i < n, Running o vm pid (k + 2 * i + 2)) → ¬ Running o vm pid (k + 2 * n + 2) →
      DownOk o vm (k + 2 * n + 3) →
      Downs o vm k (⟨vm, downAll⟩ :: attemptsOf vm pid (n + 1) ++ [⟨vm, downAll⟩])

theorem exec_drbdsetupDown (s : List Ssh) : exec (drbdsetupDown o vm) s =
    (if o.timesOut s.length then .error .timeoutExpired
      else if (o.finished s.length ⟨vm, downAll⟩).returncode ≠ 0 then
        .error (.calledProcessError (o.finished s.length ⟨vm, downAll⟩))
      else .ok ⟨⟩, s ++ [⟨vm, downAll⟩]) := by
  have hrun : exec (drbdsetupDown o vm) s =
      exec (if o.timesOut s.length = true then throw .timeoutExpired
        else if (o.finished s.length ⟨vm, downAll⟩).returncode ≠ 0 then
          throw (.calledProcessError (o.finished s.length ⟨vm, downAll⟩))
        else pure PUnit.unit) (s ++ [⟨vm, downAll⟩]) := rfl
  rw [hrun]
  split_ifs <;> rfl

theorem drbdsetupDown_returns : Returns (drbdsetupDown o vm) s ⟨⟩ s' ↔
    DownOk o vm s.length ∧ s' = s ++ [⟨vm, downAll⟩] := by
  rw [Returns, exec_drbdsetupDown, Prod.mk.injEq, DownOk]
  split_ifs with htime hcode
  · simp [htime]
  · simp [hcode]
  · simp [htime, not_not.mp hcode, eq_comm]

theorem unmountDev_raises {dev : List Char} (h : (o.finished s.length
    ⟨vm, "umount ".toList ++ dev⟩).returncode ≠ 0) : ¬ Returns (unmountDev o vm dev) s ⟨⟩ s' := by
  have hrun : exec (unmountDev o vm dev) s =
      exec (if (o.finished s.length ⟨vm, "umount ".toList ++ dev⟩).returncode ≠ 0 then
        throw .exception else pure PUnit.unit) (s ++ [⟨vm, "umount ".toList ++ dev⟩]) := rfl
  rw [Returns, hrun, if_pos h]
  intro hreturns
  cases hreturns

/-- The handler runs when `drbdsetup` fails in time. -/
theorem tryDownAll_of_error (htime : o.timesOut s.length = false)
    (hcode : (o.finished s.length ⟨vm, downAll⟩).returncode ≠ 0) : exec (tryDownAll o vm) s =
      exec (handleDownError o vm (o.finished s.length ⟨vm, downAll⟩)) (s ++ [⟨vm, downAll⟩]) := by
  rw [tryDownAll, exec_tryCatch, exec_drbdsetupDown, htime, if_neg Bool.false_ne_true, if_pos hcode]

/-- A device is freed by killing the process that holds it open. -/
theorem freeDevice_returns {e : Finished} (hquotes : ¬ (single ∈ e.stderr ∧ double ∈ e.stderr))
    (hshell : ∀ k c, Shell.Open c.cmd → (o.finished k c).returncode ≠ 0) :
    Returns (freeDevice o vm e) s ⟨⟩ s' ↔ e.returncode = 11 ∧ ∃ dev procname pid,
      opener e.stderr = some (dev, procname, pid) ∧ procname ≠ "mount".toList ∧
      Returns (killProcess o vm pid) s ⟨⟩ s' := by
  unfold freeDevice
  by_cases hcode : e.returncode = 11
  · rw [if_pos hcode]
    rcases hopener : opener e.stderr with _ | ⟨dev, procname, pid⟩
    · simp
    · by_cases hmount : procname = "mount".toList
      · have hraises : ¬ Returns (unmountDev o vm dev) s ⟨⟩ s' :=
          unmountDev_raises (hshell _ _ (open_umount hopener hquotes))
        dsimp only
        rw [if_pos hmount]
        refine iff_of_false hraises ?_
        rintro ⟨-, dev', procname', pid', heq, hne, -⟩
        cases heq
        exact hne hmount
      · dsimp only
        rw [if_neg hmount]
        constructor
        · exact fun h => ⟨hcode, dev, procname, pid, rfl, hmount, h⟩
        · rintro ⟨-, dev', procname', pid', heq, -, h⟩
          cases heq
          exact h
  · simp [hcode]

/-- A shell refuses a line that ends between quotes. When `drbdsetup` has not both kinds of quotes on
its standard error, `try_down_all` returns exactly if it has taken down everything at once, or if it
was a process that held a device open, it was not `mount`, it was gone after three signals at most, and
everything could be taken down then. -/
theorem tryDownAll_returns_iff (o : Outside) (vm : String) (s s' : List Ssh)
    (hshell : ∀ k c, Shell.Open c.cmd → (o.finished k c).returncode ≠ 0)
    (hquotes : ¬ (single ∈ (o.finished s.length ⟨vm, downAll⟩).stderr ∧
      double ∈ (o.finished s.length ⟨vm, downAll⟩).stderr)) :
    Returns (tryDownAll o vm) s ⟨⟩ s' ↔ ∃ added, Downs o vm s.length added ∧ s' = s ++ added := by
  rcases htime : o.timesOut s.length with _ | _
  · by_cases hcode : (o.finished s.length ⟨vm, downAll⟩).returncode = 0
    · have hreturns : Returns (tryDownAll o vm) s ⟨⟩ (s ++ [⟨vm, downAll⟩]) :=
        returns_tryCatch_of_returns (drbdsetupDown_returns.mpr ⟨⟨htime, hcode⟩, rfl⟩)
      constructor
      · intro h
        exact ⟨_, .atOnce ⟨htime, hcode⟩, (h.unique hreturns).2⟩
      · rintro ⟨added, hdowns, rfl⟩
        cases hdowns with
        | atOnce => exact hreturns
        | killed hheld =>
          rw [hheld.2.1] at hcode
          cases hcode
    · rw [Returns, tryDownAll_of_error htime hcode, ← Returns, handleDownError, returns_bind]
      constructor
      · rintro ⟨⟨⟩, t, hfree, hdown⟩
        obtain ⟨heleven, dev, procname, pid, hopener, hmount, hkill⟩ :=
          (freeDevice_returns hquotes hshell).mp hfree
        obtain ⟨n, hn, hbefore, hgone, rfl⟩ := killAttempts_returns.mp hkill
        obtain ⟨hok, rfl⟩ := drbdsetupDown_returns.mp hdown
        simp only [List.length_append, List.length_singleton, length_attemptsOf] at hbefore hgone hok
        refine ⟨_, .killed ⟨htime, heleven, dev, hopener⟩ hmount hn (fun i hi => ?_) ?_ ?_, by simp⟩
        · have hrunning := hbefore i hi
          rwa [show s.length + 2 * i + 2 = s.length + 1 + 2 * i + 1 by omega]
        · rwa [show s.length + 2 * n + 2 = s.length + 1 + 2 * n + 1 by omega]
        · rwa [show s.length + 2 * n + 3 = s.length + 1 + 2 * (n + 1) by omega]
      · rintro ⟨added, hdowns, rfl⟩
        cases hdowns with
        | atOnce hok => exact absurd hok.2 hcode
        | @killed procname pid n hheld hmount hn hbefore hgone hok =>
          obtain ⟨-, heleven, dev, hopener⟩ := hheld
          refine ⟨⟨⟩, s ++ [⟨vm, downAll⟩] ++ attemptsOf vm pid (n + 1), ?_, ?_⟩
          · rw [freeDevice_returns hquotes hshell]
            refine ⟨heleven, dev, procname, pid, hopener, hmount, killAttempts_returns.mpr
              ⟨n, hn, fun i hi => ?_, ?_, rfl⟩⟩
            · have hrunning := hbefore i hi
              rw [List.length_append, List.length_singleton]
              rwa [show s.length + 1 + 2 * i + 1 = s.length + 2 * i + 2 by omega]
            · rw [List.length_append, List.length_singleton]
              rwa [show s.length + 1 + 2 * n + 1 = s.length + 2 * n + 2 by omega]
          · rw [drbdsetupDown_returns]
            simp only [List.length_append, List.length_singleton, length_attemptsOf]
            rw [show s.length + 1 + 2 * (n + 1) = s.length + 2 * n + 3 by omega]
            exact ⟨hok, by simp⟩
  · have hraises : exec (tryDownAll o vm) s =
        (.error .timeoutExpired, s ++ [⟨vm, downAll⟩]) := by
      rw [tryDownAll, exec_tryCatch, exec_drbdsetupDown, htime, if_pos rfl]
      rfl
    rw [Returns, hraises]
    refine iff_of_false (fun h => by cases h) ?_
    rintro ⟨added, hdowns, -⟩
    cases hdowns with
    | atOnce hok => exact absurd (htime.symm.trans hok.1) Bool.noConfusion
    | killed hheld => exact absurd (htime.symm.trans hheld.1) Bool.noConfusion

/-- A process that holds a device open, and that survives one signal. -/
def stubborn : Outside where
  finished k c :=
    if k = 0 then ⟨11, "/dev/drbd0 opened by fio (pid 7) at now".toUTF8.toList⟩
    else if Shell.Open c.cmd then ⟨2, []⟩
    else if k = 4 then ⟨1, []⟩ else ⟨0, []⟩
  timesOut _ := false

theorem tryDownAll_returns_iff_stubborn :
    Returns (tryDownAll stubborn "vm") [] ⟨⟩
      (⟨"vm", downAll⟩ :: attemptsOf "vm" ['7'] 2 ++ [⟨"vm", downAll⟩]) ↔
    ∃ added, Downs stubborn "vm" 0 added ∧
      ⟨"vm", downAll⟩ :: attemptsOf "vm" ['7'] 2 ++ [⟨"vm", downAll⟩] = [] ++ added := by
  refine tryDownAll_returns_iff stubborn "vm" [] _ (fun k c hopen => ?_) (by decide +kernel)
  by_cases hk : k = 0
  · simp [stubborn, hk]
  · simp [stubborn, hk, hopen]

end DrbdTests.Down
