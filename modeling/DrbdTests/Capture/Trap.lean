import DrbdTests.Cluster.Operations

/-!
# The kernel log of a host

The remote command prints its process id on a line of its own, and then the kernel log. The
first write goes to the `FirstWriteTrap`, and all further ones to `dmesg_out_stream`. So where
the stream is cut into writes decides what is taken for the process id and what for the log.
-/

namespace DrbdTests

open Stateful

/-- `FirstWriteTrap`; the target is what has been written to `dmesg_out_stream`. -/
structure FirstWriteTrap where
  firstMessage : Option String
  target : String
  deriving DecidableEq, Repr

namespace FirstWriteTrap

def init : FirstWriteTrap := ⟨none, ""⟩

def write (trap : FirstWriteTrap) (message : String) : FirstWriteTrap :=
  match trap.firstMessage with
  | none => { trap with firstMessage := some message }
  | some _ => { trap with target := trap.target ++ message }

/-- The trap after some writes. -/
def writes (messages : List String) : FirstWriteTrap := messages.foldl write init

theorem foldl_write (first target : String) (messages : List String) :
    messages.foldl write ⟨some first, target⟩ = ⟨some first, target ++ String.join messages⟩ := by
  induction messages generalizing target with
  | nil =>
    rw [String.join_nil, String.append_empty]
    rfl
  | cons message messages ih =>
    rw [List.foldl_cons, String.join_cons, ← String.append_assoc]
    exact ih (target ++ message)

theorem writes_cons (message : String) (messages : List String) :
    writes (message :: messages) = ⟨some message, String.join messages⟩ := by
  change messages.foldl write ⟨some message, ""⟩ = _
  rw [foldl_write, String.empty_append]

end FirstWriteTrap

/-- What `start_dmesg_with_cmd` leaves in the attributes of the host. -/
structure DmesgCapture where
  process : Bool
  pidTrap : FirstWriteTrap
  deriving DecidableEq, Repr

/-- The command that kills the remote session. -/
def killSession (pid : String) : List String :=
  ["bash", "-c", "kill $(ps -s " ++ pid ++ " -o pid=)"]

/-- `stop_dmesg` -/
def Host.stopDmesg (host : HostId) (dmesg : DmesgCapture) : Py DmesgCapture :=
  if dmesg.process then
    match dmesg.pidTrap.firstMessage with
    | none => throw .attributeError
    | some message => do
      let _ ← Host.run host (killSession (String.ofList (Text.strip message.toList)))
      return { dmesg with process := false }
  else return dmesg

/-- The alternatives of the pattern in `teardown`. -/
def bugWords : List String := ["BUG:", "INFO:", "ASSERTION", "general protection fault"]

/-- `pattern.search(line)` -/
def matchesBug (line : List Char) : Bool := bugWords.any fun word => word.toList <:+: line

/-- `Host.teardown` -/
def Host.teardown (host : HostId) (dmesg : DmesgCapture) (validateDmesg : Bool) : Py Bool := do
  let dmesg ← Host.stopDmesg host dmesg
  if validateDmesg then
    return (dmesg.pidTrap.target.toList.splitOn '\n').foldl
      (fun ok line => if matchesBug line then false else ok) true
  else return true

/-! ## Stopping the capture -/

/-- The loop over the lines. -/
theorem foldl_matchesBug (lines : List (List Char)) (ok : Bool) :
    lines.foldl (fun ok line => if matchesBug line then false else ok) ok = true ↔
      ok = true ∧ ∀ line ∈ lines, matchesBug line = false := by
  induction lines generalizing ok with
  | nil => simp
  | cons line lines ih =>
    rw [List.foldl_cons, ih]
    cases hline : matchesBug line with
    | true => simp [hline]
    | false => simp [hline]

variable {host : HostId} {dmesg : DmesgCapture} {message : String}

theorem stopDmesg_running (hprocess : dmesg.process = true)
    (hmessage : dmesg.pidTrap.firstMessage = some message) :
    Host.stopDmesg host dmesg = do
      let _ ← Host.run host (killSession (String.ofList (Text.strip message.toList)))
      return { dmesg with process := false } := by
  rw [Host.stopDmesg, if_pos hprocess, hmessage]

theorem returns_teardown (hprocess : dmesg.process = true)
    (hmessage : dmesg.pidTrap.firstMessage = some message) {w w' : World} {ok : Bool} :
    Returns (Host.teardown host dmesg true) w ok w' ↔
      (∃ out, Returns (Host.run host (killSession (String.ofList (Text.strip message.toList))))
        w out w') ∧
      (ok = false ↔ ∃ line ∈ dmesg.pidTrap.target.toList.splitOn '\n', matchesBug line = true) := by
  have hok : ok = (dmesg.pidTrap.target.toList.splitOn '\n').foldl
      (fun ok line => if matchesBug line then false else ok) true ↔
      (ok = false ↔ ∃ line ∈ dmesg.pidTrap.target.toList.splitOn '\n', matchesBug line = true) := by
    have hloop := foldl_matchesBug (dmesg.pidTrap.target.toList.splitOn '\n') true
    have hnone : (∀ line ∈ dmesg.pidTrap.target.toList.splitOn '\n', matchesBug line = false) ↔
        ¬ ∃ line ∈ dmesg.pidTrap.target.toList.splitOn '\n', matchesBug line = true := by
      simp
    rw [hnone] at hloop
    cases ok with
    | true => grind
    | false => grind
  rw [Host.teardown, stopDmesg_running hprocess hmessage, bind_assoc, returns_bind, ← hok]
  simp only [pure_bind, if_true, returns_pure]
  constructor
  · rintro ⟨out, w₁, hrun, rfl, rfl⟩
    exact ⟨⟨out, hrun⟩, rfl⟩
  · rintro ⟨⟨out, hrun⟩, rfl⟩
    exact ⟨out, w', hrun, rfl, rfl⟩

/-! ## Where the stream is cut -/

/-- The capture after the stream has come in, in some chunks. -/
def DmesgCapture.of (chunks : List String) : DmesgCapture := ⟨true, .writes chunks⟩

/-- A capture of all of the stream that consists of a process id and a log. -/
structure DmesgCapture.Complete (dmesg : DmesgCapture) (pid : Nat) (log : String) : Prop where
  text : dmesg.pidTrap.target = log
  stops : ∀ host, Host.stopDmesg host dmesg = do
    let _ ← Host.run host (killSession (toString pid))
    return { dmesg with process := false }
  validates : ∀ host w w' out, Returns (Host.run host (killSession (toString pid))) w out w' →
    ∃ ok, Returns (Host.teardown host dmesg true) w ok w' ∧
      (ok = false ↔ ∃ line ∈ log.toList.splitOn '\n', matchesBug line = true)

/-- The capture is complete exactly when the first chunk is the line with the process id. -/
theorem capture_complete_iff (pid : Nat) (log : String) {chunks : List String}
    (hne : ∀ chunk ∈ chunks, chunk ≠ "")
    (hstream : String.join chunks = toString pid ++ "\n" ++ log) :
    (DmesgCapture.of chunks).Complete pid log ↔ chunks.head? = some (toString pid ++ "\n") := by
  rcases chunks with - | ⟨chunk, chunks⟩
  · have hempty := congrArg String.length hstream
    rw [String.join_nil, String.length_append, String.length_append] at hempty
    have hnewline : "\n".length = 1 := rfl
    have hzero : "".length = 0 := rfl
    omega
  rw [String.join_cons] at hstream
  have htrap : (DmesgCapture.of (chunk :: chunks)).pidTrap = ⟨some chunk, String.join chunks⟩ :=
    FirstWriteTrap.writes_cons chunk chunks
  rw [List.head?_cons, Option.some.injEq]
  constructor
  · intro h
    have htext : String.join chunks = log := by
      rw [← h.text, htrap]
    rw [htext] at hstream
    exact (String.append_left_inj log).mp hstream
  · intro hchunk
    have htext : String.join chunks = log := by
      rw [hchunk] at hstream
      exact (String.append_right_inj _).mp hstream
    have hmessage : (DmesgCapture.of (chunk :: chunks)).pidTrap.firstMessage = some chunk := by
      rw [htrap]
    have hpid : String.ofList (Text.strip chunk.toList) = toString pid := by
      have hdigits : ∀ c ∈ Nat.toDigits 10 pid, Text.isSpace c = false := fun c hc =>
        Text.isSpace_digit (Nat.isDigit_of_mem_toDigits (by omega) (by omega) hc)
      have hline : chunk.toList = Nat.toDigits 10 pid ++ ['\n'] := by
        rw [hchunk, String.toList_append, Nat.toString_eq_ofList_toDigits, String.toList_ofList]
        rfl
      rw [hline, Text.strip_word hdigits (by decide), Nat.toString_eq_ofList_toDigits]
    have htarget : (DmesgCapture.of (chunk :: chunks)).pidTrap.target = log := by
      rw [htrap, ← htext]
    refine ⟨htarget, ?_, ?_⟩
    · intro host
      rw [stopDmesg_running rfl hmessage, hpid]
    · intro host w w' out hrun
      by_cases hbug : ∃ line ∈ log.toList.splitOn '\n', matchesBug line = true
      · refine ⟨false, (returns_teardown rfl hmessage).mpr ⟨?_, ?_⟩, by simp [hbug]⟩
        · rw [hpid]
          exact ⟨out, hrun⟩
        · rw [htarget]
          simp only [hbug]
      · refine ⟨true, (returns_teardown rfl hmessage).mpr ⟨?_, ?_⟩, by simpa using hbug⟩
        · rw [hpid]
          exact ⟨out, hrun⟩
        · rw [htarget]
          simpa using hbug

theorem capture_complete_two_chunks :
    (DmesgCapture.of ["41\n", "usb 1-1: new device\nBUG: bad page\n"]).Complete 41
      "usb 1-1: new device\nBUG: bad page\n" :=
  (capture_complete_iff 41 _ (by decide) (by decide +kernel)).mpr (by decide +kernel)

/-- A `BUG:` line that comes in the same chunk as the process id is lost. -/
theorem capture_incomplete :
    (∀ chunk ∈ ["41\nBUG: bad page\n"], chunk ≠ "") ∧
    String.join ["41\nBUG: bad page\n"] = toString 41 ++ "\n" ++ "BUG: bad page\n" ∧
    ¬ (DmesgCapture.of ["41\nBUG: bad page\n"]).Complete 41 "BUG: bad page\n" ∧
    ∃ w, Returns (Host.teardown 0 (.of ["41\nBUG: bad page\n"]) true) (World.plain 1) true w := by
  refine ⟨by decide, by decide +kernel, fun h => ?_, ?_⟩
  · have htext := h.text
    revert htext
    decide +kernel
  · refine ⟨_, (returns_teardown rfl rfl).mpr ⟨⟨"", rfl⟩, ?_⟩⟩
    decide +kernel

end DrbdTests
