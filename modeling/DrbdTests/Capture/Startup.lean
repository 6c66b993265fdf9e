import DrbdTests.Capture.Trap
import DrbdTests.Lib.Monitor
import DrbdTests.Lib.Runs

/-!
# Waiting for the process id

`start_dmesg_with_cmd` starts the thread that pipes the output of the remote command into the
`FirstWriteTrap`, and then waits on the condition that the first write notifies. Nothing is
tested before the wait: when the first write comes before the main thread waits, its
notification has no effect, and no other one follows.

`Startup.step` is one step of either thread, the accesses to the condition being steps of the
monitor.
-/

namespace DrbdTests

open Monitors Runs

inductive Party
  | main
  | pipe
  deriving DecidableEq, Repr

/-- Where the main thread is in `start_dmesg_with_cmd`. -/
inductive MainAt
  | starting
  | acquiring
  | entered
  | waiting
  | woken
  | done
  deriving DecidableEq, Repr

/-- Where the pipe thread is: between two writes, or in `FirstWriteTrap.write`. -/
inductive PipeAt
  | unstarted
  | reading
  | acquiring (message : String)
  | entered (message : String)
  | stored
  | notified
  | passing (message : String)
  deriving DecidableEq, Repr

structure Startup where
  monitor : Monitor Party
  trap : FirstWriteTrap
  main : MainAt
  pipe : PipeAt
  deriving DecidableEq

/-- A thread takes its next step, or the pipe thread calls `write`. -/
inductive StartupEvent
  | main
  | pipe
  | write (message : String)
  deriving DecidableEq, Repr

namespace Startup

def start : Startup := ⟨.free, .init, .starting, .unstarted⟩

def stepMain (s : Startup) : Option Startup :=
  match s.main with
  | .starting => some { s with main := .acquiring, pipe := .reading }
  | .acquiring => (s.monitor.acquire .main).map fun m => { s with monitor := m, main := .entered }
  | .entered => (s.monitor.wait .main).map fun m => { s with monitor := m, main := .waiting }
  | .waiting => (s.monitor.resume .main).map fun m => { s with monitor := m, main := .woken }
  | .woken => (s.monitor.release .main).map fun m => { s with monitor := m, main := .done }
  | .done => none

def stepPipe (s : Startup) : Option Startup :=
  match s.pipe with
  | .unstarted | .reading => none
  | .acquiring message =>
    (s.monitor.acquire .pipe).map fun m => { s with monitor := m, pipe := .entered message }
  | .entered message =>
    some { s with trap := { s.trap with firstMessage := some message }, pipe := .stored }
  | .stored => (s.monitor.notify .pipe).map fun m => { s with monitor := m, pipe := .notified }
  | .notified => (s.monitor.release .pipe).map fun m => { s with monitor := m, pipe := .reading }
  | .passing message =>
    some { s with trap := { s.trap with target := s.trap.target ++ message }, pipe := .reading }

/-- The test at the start of `write`. -/
def callWrite (s : Startup) (message : String) : Option Startup :=
  if s.pipe = .reading then
    match s.trap.firstMessage with
    | none => some { s with pipe := .acquiring message }
    | some _ => some { s with pipe := .passing message }
  else none

def step (s : Startup) : StartupEvent → Option Startup
  | .main => s.stepMain
  | .pipe => s.stepPipe
  | .write message => s.callWrite message

/-- The step of the event is possible, and leads to `s'`. -/
def Step (s : Startup) (event : StartupEvent) (s' : Startup) : Prop := s.step event = some s'

section Steps

variable {s s' : Startup} {message : String}

theorem stepMain_starting (h : s.main = .starting) : s.stepMain = some s' ↔
    { s with main := .acquiring, pipe := .reading } = s' := by
  rw [stepMain, h, Option.some.injEq]

theorem stepMain_acquiring (h : s.main = .acquiring) : s.stepMain = some s' ↔
    s.monitor.holder = none ∧
      { s with monitor := { s.monitor with holder := some .main }, main := .entered } = s' := by
  rw [stepMain, h]
  exact map_iff fun _ => Monitor.acquire_iff

theorem stepMain_entered (h : s.main = .entered) : s.stepMain = some s' ↔
    s.monitor.holder = some .main ∧ { s with
      monitor := { s.monitor with holder := none, waiting := s.monitor.waiting ++ [.main] }
      main := .waiting } = s' := by
  rw [stepMain, h]
  exact map_iff fun _ => Monitor.wait_iff

theorem stepMain_waiting (h : s.main = .waiting) : s.stepMain = some s' ↔
    (s.monitor.holder = none ∧ Party.main ∈ s.monitor.notified) ∧ { s with
      monitor := { s.monitor with
        holder := some .main, notified := s.monitor.notified.erase .main }
      main := .woken } = s' := by
  rw [stepMain, h]
  exact map_iff fun _ => Monitor.resume_iff

theorem stepMain_woken (h : s.main = .woken) : s.stepMain = some s' ↔
    s.monitor.holder = some .main ∧
      { s with monitor := { s.monitor with holder := none }, main := .done } = s' := by
  rw [stepMain, h]
  exact map_iff fun _ => Monitor.release_iff

theorem stepPipe_acquiring (h : s.pipe = .acquiring message) : s.stepPipe = some s' ↔
    s.monitor.holder = none ∧ { s with
      monitor := { s.monitor with holder := some .pipe }
      pipe := .entered message } = s' := by
  rw [stepPipe, h]
  exact map_iff fun _ => Monitor.acquire_iff

theorem stepPipe_entered (h : s.pipe = .entered message) : s.stepPipe = some s' ↔
    { s with trap := { s.trap with firstMessage := some message }, pipe := .stored } = s' := by
  rw [stepPipe, h, Option.some.injEq]

theorem stepPipe_stored (h : s.pipe = .stored) : s.stepPipe = some s' ↔
    s.monitor.holder = some .pipe ∧ { s with
      monitor := { s.monitor with
        waiting := s.monitor.waiting.tail
        notified := s.monitor.notified ++ s.monitor.waiting.head?.toList }
      pipe := .notified } = s' := by
  rw [stepPipe, h]
  exact map_iff fun _ => Monitor.notify_iff

theorem stepPipe_notified (h : s.pipe = .notified) : s.stepPipe = some s' ↔
    s.monitor.holder = some .pipe ∧
      { s with monitor := { s.monitor with holder := none }, pipe := .reading } = s' := by
  rw [stepPipe, h]
  exact map_iff fun _ => Monitor.release_iff

theorem stepPipe_passing (h : s.pipe = .passing message) : s.stepPipe = some s' ↔
    { s with
      trap := { s.trap with target := s.trap.target ++ message }
      pipe := .reading } = s' := by
  rw [stepPipe, h, Option.some.injEq]

theorem callWrite_first (h : s.pipe = .reading) (hfirst : s.trap.firstMessage = none) :
    s.callWrite message = some s' ↔ { s with pipe := .acquiring message } = s' := by
  rw [callWrite, if_pos h, hfirst, Option.some.injEq]

theorem callWrite_further {first : String} (h : s.pipe = .reading)
    (hfirst : s.trap.firstMessage = some first) :
    s.callWrite message = some s' ↔ { s with pipe := .passing message } = s' := by
  rw [callWrite, if_pos h, hfirst, Option.some.injEq]

theorem reading_of_callWrite (h : s.callWrite message = some s') : s.pipe = .reading := by
  by_contra hpipe
  rw [callWrite, if_neg hpipe] at h
  cases h

end Steps

end Startup

/-! ## The writes one after the other -/

namespace Startup

/-- The trap once the write that is going on has ended. -/
def settled (s : Startup) : FirstWriteTrap :=
  match s.pipe with
  | .acquiring message | .entered message | .passing message => s.trap.write message
  | _ => s.trap

/-- The test at the start of the write that is going on still holds. -/
structure Tested (s : Startup) : Prop where
  starting : s.main = .starting → s.pipe = .unstarted
  acquiring : ∀ message, s.pipe = .acquiring message → s.trap.firstMessage = none
  entered : ∀ message, s.pipe = .entered message → s.trap.firstMessage = none
  passing : ∀ message, s.pipe = .passing message → s.trap.firstMessage ≠ none

variable {s s' : Startup}

theorem stepMain_keeps (h : s.Tested) (hs : s.stepMain = some s') :
    s'.Tested ∧ s'.settled = s.settled := by
  obtain ⟨monitor, trap, main, pipe⟩ := s
  cases main with
  | starting =>
    obtain rfl := h.starting rfl
    obtain rfl := (stepMain_starting rfl).mp hs
    exact ⟨⟨nofun, nofun, nofun, nofun⟩, rfl⟩
  | acquiring =>
    obtain ⟨-, rfl⟩ := (stepMain_acquiring rfl).mp hs
    exact ⟨⟨nofun, h.acquiring, h.entered, h.passing⟩, rfl⟩
  | entered =>
    obtain ⟨-, rfl⟩ := (stepMain_entered rfl).mp hs
    exact ⟨⟨nofun, h.acquiring, h.entered, h.passing⟩, rfl⟩
  | waiting =>
    obtain ⟨-, rfl⟩ := (stepMain_waiting rfl).mp hs
    exact ⟨⟨nofun, h.acquiring, h.entered, h.passing⟩, rfl⟩
  | woken =>
    obtain ⟨-, rfl⟩ := (stepMain_woken rfl).mp hs
    exact ⟨⟨nofun, h.acquiring, h.entered, h.passing⟩, rfl⟩
  | done => cases hs

theorem stepPipe_keeps (h : s.Tested) (hs : s.stepPipe = some s') :
    s'.Tested ∧ s'.settled = s.settled := by
  have hmain : s.main ≠ .starting := by
    intro hmain
    rw [stepPipe, h.starting hmain] at hs
    cases hs
  obtain ⟨monitor, trap, main, pipe⟩ := s
  cases pipe with
  | unstarted => cases hs
  | reading => cases hs
  | acquiring message =>
    obtain ⟨-, rfl⟩ := (stepPipe_acquiring rfl).mp hs
    exact ⟨⟨fun hm => absurd hm hmain, nofun, fun _ _ => h.acquiring message rfl, nofun⟩, rfl⟩
  | entered message =>
    have hfirst : trap.firstMessage = none := h.entered message rfl
    obtain rfl := (stepPipe_entered rfl).mp hs
    refine ⟨⟨fun hm => absurd hm hmain, nofun, nofun, nofun⟩, ?_⟩
    simp only [settled, FirstWriteTrap.write, hfirst]
  | stored =>
    obtain ⟨-, rfl⟩ := (stepPipe_stored rfl).mp hs
    exact ⟨⟨fun hm => absurd hm hmain, nofun, nofun, nofun⟩, rfl⟩
  | notified =>
    obtain ⟨-, rfl⟩ := (stepPipe_notified rfl).mp hs
    exact ⟨⟨fun hm => absurd hm hmain, nofun, nofun, nofun⟩, rfl⟩
  | passing message =>
    obtain ⟨first, hfirst⟩ := Option.ne_none_iff_exists'.mp (h.passing message rfl)
    obtain rfl := (stepPipe_passing rfl).mp hs
    refine ⟨⟨fun hm => absurd hm hmain, nofun, nofun, nofun⟩, ?_⟩
    simp only at hfirst
    simp only [settled, FirstWriteTrap.write, hfirst]

theorem callWrite_keeps {message : String} (h : s.Tested) (hs : s.callWrite message = some s') :
    s'.Tested ∧ s'.settled = s.settled.write message := by
  have hreading := reading_of_callWrite hs
  have hmain : s.main ≠ .starting := by
    intro hmain
    rw [h.starting hmain] at hreading
    cases hreading
  have hsettled : s.settled = s.trap := by rw [settled, hreading]
  rw [hsettled]
  rcases hfirst : s.trap.firstMessage with _ | first
  · obtain rfl := (callWrite_first hreading hfirst).mp hs
    exact ⟨⟨fun hm => absurd hm hmain, fun _ _ => hfirst, nofun, nofun⟩, rfl⟩
  · obtain rfl := (callWrite_further hreading hfirst).mp hs
    refine ⟨⟨fun hm => absurd hm hmain, nofun, nofun, fun _ _ => ?_⟩, rfl⟩
    rw [hfirst]
    exact Option.some_ne_none first

end Startup

/-- The argument of a write. -/
def StartupEvent.message? : StartupEvent → Option String
  | write message => some message
  | _ => none

/-- In every order of the steps, the trap comes to what the writes make of it alone. -/
theorem settled_of_run {events : List StartupEvent} {s : Startup}
    (run : Run Startup.Step .start events s) :
    s.settled = .writes (events.filterMap StartupEvent.message?) := by
  suffices h : s.Tested ∧ s.settled = .writes (events.filterMap StartupEvent.message?) from h.2
  induction run with
  | nil => exact ⟨⟨fun _ => rfl, nofun, nofun, nofun⟩, rfl⟩
  | @snoc events s₁ s₂ event run hs ih =>
    obtain ⟨htested, hsettled⟩ := ih
    rw [List.filterMap_append]
    cases event with
    | main =>
      obtain ⟨htested', hkeep⟩ := Startup.stepMain_keeps htested hs
      rw [List.filterMap_cons_none rfl, List.filterMap_nil, List.append_nil]
      exact ⟨htested', hkeep.trans hsettled⟩
    | pipe =>
      obtain ⟨htested', hkeep⟩ := Startup.stepPipe_keeps htested hs
      rw [List.filterMap_cons_none rfl, List.filterMap_nil, List.append_nil]
      exact ⟨htested', hkeep.trans hsettled⟩
    | write message =>
      obtain ⟨htested', hkeep⟩ := Startup.callWrite_keeps htested hs
      refine ⟨htested', ?_⟩
      rw [hkeep, hsettled, FirstWriteTrap.writes, FirstWriteTrap.writes, List.foldl_append]
      rfl

/-! ## Wake-ups -/

/-- Not in the branch of `write` that notifies. -/
def PipeAt.outside : PipeAt → Bool
  | reading | passing _ => true
  | _ => false

/-- The first write has not taken the lock. -/
def PipeAt.early : PipeAt → Bool
  | reading | acquiring _ => true
  | _ => false

/-- About to take the lock in the first write. -/
def PipeAt.acquires : PipeAt → Bool
  | acquiring _ => true
  | _ => false

/-- The main thread is in `wait` and has not been notified, although the first message is
there and the pipe thread has left the branch that notifies. -/
structure LostWakeup (s : Startup) : Prop where
  blocked : s.main = .waiting ∧ Party.main ∉ s.monitor.notified
  captured : s.trap.firstMessage.isSome = true
  left : s.pipe.outside = true

/-- The first write takes the lock only while the main thread waits. -/
def WritesLate (s : Startup) (event : StartupEvent) : Prop :=
  event = .pipe → s.pipe.acquires = true → s.main = .waiting

instance (s : Startup) (event : StartupEvent) : Decidable (WritesLate s event) :=
  inferInstanceAs (Decidable (_ → _))

/-- The states of a start-up in which the wake-up is not lost, in their order. -/
inductive Orderly : Startup → Prop
  | starting : Orderly ⟨.free, .init, .starting, .unstarted⟩
  | acquiring (pipe : PipeAt) : pipe.early = true → Orderly ⟨.free, .init, .acquiring, pipe⟩
  | entered (pipe : PipeAt) : pipe.early = true →
      Orderly ⟨⟨some .main, [], []⟩, .init, .entered, pipe⟩
  | waiting (pipe : PipeAt) : pipe.early = true →
      Orderly ⟨⟨none, [.main], []⟩, .init, .waiting, pipe⟩
  | writing (message : String) :
      Orderly ⟨⟨some .pipe, [.main], []⟩, .init, .waiting, .entered message⟩
  | stored (message : String) :
      Orderly ⟨⟨some .pipe, [.main], []⟩, ⟨some message, ""⟩, .waiting, .stored⟩
  | notified (message : String) :
      Orderly ⟨⟨some .pipe, [], [.main]⟩, ⟨some message, ""⟩, .waiting, .notified⟩
  | resuming (message target : String) (pipe : PipeAt) : pipe.outside = true →
      Orderly ⟨⟨none, [], [.main]⟩, ⟨some message, target⟩, .waiting, pipe⟩
  | woken (message target : String) (pipe : PipeAt) : pipe.outside = true →
      Orderly ⟨⟨some .main, [], []⟩, ⟨some message, target⟩, .woken, pipe⟩
  | done (message target : String) (pipe : PipeAt) : pipe.outside = true →
      Orderly ⟨.free, ⟨some message, target⟩, .done, pipe⟩

namespace Orderly

variable {s s' : Startup}

theorem stepMain (h : Orderly s) (hs : s.stepMain = some s') : Orderly s' := by
  cases h with
  | starting =>
    obtain rfl := (Startup.stepMain_starting rfl).mp hs
    exact .acquiring _ rfl
  | acquiring pipe hpipe =>
    obtain ⟨-, rfl⟩ := (Startup.stepMain_acquiring rfl).mp hs
    exact .entered pipe hpipe
  | entered pipe hpipe =>
    obtain ⟨-, rfl⟩ := (Startup.stepMain_entered rfl).mp hs
    exact .waiting pipe hpipe
  | waiting pipe hpipe =>
    obtain ⟨⟨-, hnotified⟩, -⟩ := (Startup.stepMain_waiting rfl).mp hs
    exact absurd hnotified List.not_mem_nil
  | writing message =>
    obtain ⟨⟨-, hnotified⟩, -⟩ := (Startup.stepMain_waiting rfl).mp hs
    exact absurd hnotified List.not_mem_nil
  | stored message =>
    obtain ⟨⟨-, hnotified⟩, -⟩ := (Startup.stepMain_waiting rfl).mp hs
    exact absurd hnotified List.not_mem_nil
  | notified message =>
    -- The pipe thread still holds the lock.
    obtain ⟨⟨hholder, -⟩, -⟩ := (Startup.stepMain_waiting rfl).mp hs
    cases hholder
  | resuming message target pipe hpipe =>
    obtain ⟨-, rfl⟩ := (Startup.stepMain_waiting rfl).mp hs
    exact .woken message target pipe hpipe
  | woken message target pipe hpipe =>
    obtain ⟨-, rfl⟩ := (Startup.stepMain_woken rfl).mp hs
    exact .done message target pipe hpipe
  | done message target pipe hpipe => cases hs

/-- Outside of the branch, the pipe thread goes on with the writes. -/
theorem outside_stepPipe (hpipe : s.pipe.outside = true) (hs : s.stepPipe = some s') :
    ∃ target, s' = { s with trap := { s.trap with target }, pipe := .reading } := by
  rcases hat : s.pipe with _ | _ | _ | _ | _ | _ | message
  case reading =>
    rw [Startup.stepPipe, hat] at hs
    cases hs
  case passing => exact ⟨_, ((Startup.stepPipe_passing hat).mp hs).symm⟩
  all_goals
    rw [hat] at hpipe
    cases hpipe

theorem stepPipe (h : Orderly s) (hlate : WritesLate s .pipe) (hs : s.stepPipe = some s') :
    Orderly s' := by
  cases h with
  | starting => cases hs
  | acquiring pipe hpipe =>
    cases pipe with
    | reading => cases hs
    | acquiring message => cases hlate rfl rfl
    | _ => cases hpipe
  | entered pipe hpipe =>
    cases pipe with
    | reading => cases hs
    | acquiring message => cases hlate rfl rfl
    | _ => cases hpipe
  | waiting pipe hpipe =>
    cases pipe with
    | reading => cases hs
    | acquiring message =>
      obtain ⟨-, rfl⟩ := (Startup.stepPipe_acquiring rfl).mp hs
      exact .writing message
    | _ => cases hpipe
  | writing message =>
    obtain rfl := (Startup.stepPipe_entered rfl).mp hs
    exact .stored message
  | stored message =>
    obtain ⟨-, rfl⟩ := (Startup.stepPipe_stored rfl).mp hs
    exact .notified message
  | notified message =>
    obtain ⟨-, rfl⟩ := (Startup.stepPipe_notified rfl).mp hs
    exact .resuming message "" .reading rfl
  | resuming message target pipe hpipe =>
    obtain ⟨target', rfl⟩ := outside_stepPipe hpipe hs
    exact .resuming message target' .reading rfl
  | woken message target pipe hpipe =>
    obtain ⟨target', rfl⟩ := outside_stepPipe hpipe hs
    exact .woken message target' .reading rfl
  | done message target pipe hpipe =>
    obtain ⟨target', rfl⟩ := outside_stepPipe hpipe hs
    exact .done message target' .reading rfl

theorem callWrite {message : String} (h : Orderly s) (hs : s.callWrite message = some s') :
    Orderly s' := by
  have hreading := Startup.reading_of_callWrite hs
  cases h with
  | acquiring pipe hpipe =>
    obtain rfl := (Startup.callWrite_first hreading rfl).mp hs
    exact .acquiring _ rfl
  | entered pipe hpipe =>
    obtain rfl := (Startup.callWrite_first hreading rfl).mp hs
    exact .entered _ rfl
  | waiting pipe hpipe =>
    obtain rfl := (Startup.callWrite_first hreading rfl).mp hs
    exact .waiting _ rfl
  | resuming first target pipe hpipe =>
    obtain rfl := (Startup.callWrite_further hreading rfl).mp hs
    exact .resuming first target _ rfl
  | woken first target pipe hpipe =>
    obtain rfl := (Startup.callWrite_further hreading rfl).mp hs
    exact .woken first target _ rfl
  | done first target pipe hpipe =>
    obtain rfl := (Startup.callWrite_further hreading rfl).mp hs
    exact .done first target _ rfl
  | _ => cases hreading

theorem step {event : StartupEvent} (h : Orderly s) (hlate : WritesLate s event)
    (hs : s.Step event s') : Orderly s' := by
  cases event with
  | main => exact h.stepMain hs
  | pipe => exact h.stepPipe hlate hs
  | write message => exact h.callWrite hs

theorem not_lost (h : Orderly s) : ¬ LostWakeup s := by
  rintro ⟨⟨hmain, hnotified⟩, hcaptured, houtside⟩
  cases h with
  | waiting pipe hpipe => cases hcaptured
  | writing message => cases houtside
  | stored message => cases houtside
  | notified message => cases houtside
  | resuming message target pipe hpipe => exact hnotified List.mem_cons_self
  | _ => cases hmain

end Orderly

/-- No wake-up is lost as long as the first write takes the lock while the main thread
waits. -/
theorem no_lost_wakeup {events : List StartupEvent} {s : Startup}
    (run : Run (Guarded WritesLate Startup.Step) .start events s) : ¬ LostWakeup s := by
  have h : Orderly s := by
    apply run.invariant .starting
    intro s₁ event s₂ h hstep
    exact h.step hstep.1 hstep.2
  exact h.not_lost

theorem no_lost_wakeup_late_write :
    ∃ s, Run (Guarded WritesLate Startup.Step) .start
        [.main, .main, .write "41\n", .main, .pipe, .pipe, .pipe, .pipe, .write "BUG:", .main]
        s ∧ s.main = .woken ∧ ¬ LostWakeup s := by
  have hrun : Run (Guarded WritesLate Startup.Step) .start
      [.main, .main, .write "41\n", .main, .pipe, .pipe, .pipe, .pipe, .write "BUG:", .main]
      ⟨⟨some .main, [], []⟩, ⟨some "41\n", ""⟩, .woken, .passing "BUG:"⟩ := by
    repeat refine .cons ⟨by decide, rfl⟩ ?_
    exact .nil
  exact ⟨_, hrun, rfl, no_lost_wakeup hrun⟩

/-! ## A lost wake-up -/

namespace LostWakeup

variable {s s' : Startup} {event : StartupEvent} {events : List StartupEvent}

/-- No step wakes the main thread. -/
theorem step (h : LostWakeup s) (hs : s.Step event s') : LostWakeup s' := by
  obtain ⟨⟨hmain, hnotified⟩, hcaptured, houtside⟩ := h
  cases event with
  | main => exact absurd ((Startup.stepMain_waiting hmain).mp hs).1.2 hnotified
  | pipe =>
    obtain ⟨target, rfl⟩ := Orderly.outside_stepPipe houtside hs
    exact ⟨⟨hmain, hnotified⟩, hcaptured, rfl⟩
  | write message =>
    obtain ⟨first, hfirst⟩ := Option.isSome_iff_exists.mp hcaptured
    obtain rfl := (Startup.callWrite_further (Startup.reading_of_callWrite hs) hfirst).mp hs
    exact ⟨⟨hmain, hnotified⟩, hcaptured, rfl⟩

theorem run (h : LostWakeup s) (run : Run Startup.Step s events s') : LostWakeup s' :=
  run.invariant h fun _ _ _ h hs => h.step hs

end LostWakeup

/-- After a first write that does not come late, the main thread can still run into the wait. -/
theorem Orderly.early_write {s s' : Startup} (h : Orderly s) (hs : s.Step .pipe s')
    (hearly : ¬ WritesLate s .pipe) :
    ∃ events t, Run Startup.Step s' events t ∧ LostWakeup t := by
  have hpipe : s.pipe.acquires = true := by
    by_contra hpipe
    exact hearly fun _ h => absurd h hpipe
  have hmain : s.main ≠ .waiting := fun hmain => hearly fun _ _ => hmain
  obtain ⟨message, hpipe⟩ : ∃ message, s.pipe = .acquiring message := by
    rcases hat : s.pipe with _ | _ | message | _ | _ | _ | _
    case acquiring => exact ⟨message, rfl⟩
    all_goals
      rw [hat] at hpipe
      cases hpipe
  obtain ⟨hfree, rfl⟩ := (Startup.stepPipe_acquiring hpipe).mp hs
  cases h with
  | acquiring pipe _ =>
    refine ⟨[.pipe, .pipe, .pipe, .main, .main],
      ⟨⟨none, [.main], []⟩, ⟨some message, ""⟩, .waiting, .reading⟩, ?_,
      ⟨⟨rfl, List.not_mem_nil⟩, rfl, rfl⟩⟩
    exact .cons rfl (.cons rfl (.cons rfl (.cons rfl (.single rfl))))
  | entered pipe _ => cases hfree
  | waiting pipe _ => exact absurd rfl hmain
  | starting => cases hpipe
  | _ => simp_all [PipeAt.outside]

/-- The first message comes in before the main thread takes the lock. -/
theorem lost_wakeup :
    ∃ events s, Run Startup.Step .start events s ∧ LostWakeup s :=
  ⟨[.main, .write "41\n", .pipe, .pipe, .pipe, .pipe, .main, .main],
    ⟨⟨none, [.main], []⟩, ⟨some "41\n", ""⟩, .waiting, .reading⟩,
    .cons rfl (.cons rfl (.cons rfl (.cons rfl (.cons rfl (.cons rfl (.cons rfl (.single rfl))))))),
    ⟨rfl, List.not_mem_nil⟩, rfl, rfl⟩

end DrbdTests
