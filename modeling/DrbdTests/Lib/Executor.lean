import DrbdTests.Lib.Runs
import Mathlib.Data.List.Nodup
import Mathlib.Data.List.Range
import Mathlib.Logic.Function.Basic

/-!
# A main thread and the tasks it submits

A main thread has a memory of its own. It runs commands itself, and it submits tasks, which an
executor runs in other threads; the future of a task is its number. A task runs commands, one
after the other. Which thread takes the next step is arbitrary, and so is every reply.

A command runs at a place, from the moment at which it is the next thing that its thread does
until the reply. Each task has a place as well, its home, and counts as running there from the
moment at which it is submitted, even before a worker of the executor has picked it up, until it
has finished.

`Safe R p s known Q` is a precondition: the main thread has `p` to do and the memory `s`, and
`known` is what it knows of the tasks. A command of the main thread must be at a place where no
pending task is at home, and so must a task that is submitted. Then in every state that is
reached one thread at most runs something at each place (`Sound.running_le_one`), and the memory
only changes as `R` allows.
-/

namespace Executors

open Runs

abbrev Future := Nat

/-- What a task does. -/
inductive Script (κ ρ ε : Type)
  | finished (result : Except ε PUnit)
  | command (c : κ) (k : Except ε ρ → Script κ ρ ε)
  | choose (n : Nat) (k : Nat → Script κ ρ ε)

/-- What the main thread does. `done`, `exception` and `wait` are what it can ask of futures;
`wait` is for all of them, or for one. -/
inductive Prog (κ ρ τ ε σ α : Type)
  | ret (a : α)
  | raise (e : ε)
  | load (k : σ → Prog κ ρ τ ε σ α)
  | store (s : σ) (k : Prog κ ρ τ ε σ α)
  | command (c : κ) (k : Except ε ρ → Prog κ ρ τ ε σ α)
  | choose (n : Nat) (k : Nat → Prog κ ρ τ ε σ α)
  | submit (t : τ) (k : Future → Prog κ ρ τ ε σ α)
  | done (f : Future) (k : Bool → Prog κ ρ τ ε σ α)
  | exception (f : Future) (k : Option ε → Prog κ ρ τ ε σ α)
  | wait (fs : List Future) (all : Bool) (k : Prog κ ρ τ ε σ α)

variable {κ ρ τ ε σ ν α β : Type}

namespace Prog

def bind : Prog κ ρ τ ε σ α → (α → Prog κ ρ τ ε σ β) → Prog κ ρ τ ε σ β
  | ret a, g => g a
  | raise e, _ => raise e
  | load k, g => load fun s => (k s).bind g
  | store s k, g => store s (k.bind g)
  | command c k, g => command c fun r => (k r).bind g
  | choose n k, g => choose n fun i => (k i).bind g
  | submit t k, g => submit t fun f => (k f).bind g
  | done f k, g => done f fun b => (k b).bind g
  | exception f k, g => exception f fun e => (k e).bind g
  | wait fs all k, g => wait fs all (k.bind g)

instance : Monad (Prog κ ρ τ ε σ) where
  pure := ret
  bind := bind

def get : Prog κ ρ τ ε σ σ := load ret

def modify (f : σ → σ) : Prog κ ρ τ ε σ PUnit := load fun s => store (f s) (ret ⟨⟩)

/-- Run a command; an exception that it raises is not caught. -/
def execute (c : κ) : Prog κ ρ τ ε σ ρ :=
  command c fun
    | .ok r => ret r
    | .error e => raise e

end Prog

/-- Run the commands in order, up to the first that raises an exception. -/
def Script.commands : List κ → Script κ ρ ε
  | [] => .finished (.ok ⟨⟩)
  | c :: cs => .command c fun
    | .ok _ => commands cs
    | .error e => .finished (.error e)

/-! ## Threads -/

/-- What the main thread has still to do, its memory, and the tasks by their futures: what was
submitted, and what is left to do of it. -/
structure State (κ ρ τ ε σ : Type) where
  main : Prog κ ρ τ ε σ PUnit
  mem : σ
  tasks : List (τ × Script κ ρ ε)

/-- What a thread learns in a step. -/
inductive Answer (ρ ε : Type)
  | go
  | reply (r : Except ε ρ)
  | number (n : Nat)

/-- The thread that takes the next step: the main thread, or that of a task. -/
structure Move (ρ ε : Type) where
  thread : Option Future
  answer : Answer ρ ε

def Script.result : Script κ ρ ε → Option (Except ε PUnit)
  | .finished result => some result
  | _ => none

namespace State

variable (S : State κ ρ τ ε σ)

/-- The result of a task, if it has finished. -/
def result (f : Future) : Option (Except ε PUnit) := S.tasks[f]?.bind fun p => p.2.result

def isFinished (f : Future) : Bool := (S.result f).isSome

/-- One step of the main thread. It waits where there is no step. -/
def mainNext (body : τ → Script κ ρ ε) (answer : Answer ρ ε) : Option (State κ ρ τ ε σ) :=
  match S.main, answer with
  | .load k, .go => some { S with main := k S.mem }
  | .store s k, .go => some { S with main := k, mem := s }
  | .command _ k, .reply r => some { S with main := k r }
  | .choose n k, .number i => if i < n then some { S with main := k i } else none
  | .submit t k, .go => some { S with main := k S.tasks.length, tasks := S.tasks ++ [(t, body t)] }
  | .done f k, .go =>
    if f < S.tasks.length then some { S with main := k (S.isFinished f) } else none
  | .exception f k, .go =>
    match S.result f with
    | some (.error e) => some { S with main := k (some e) }
    | some (.ok _) => some { S with main := k none }
    | none => none
  | .wait fs all k, .go =>
    if fs.all S.isFinished || (!all && fs.any S.isFinished) then some { S with main := k } else none
  | _, _ => none

/-- One step of a task. -/
def taskNext (f : Future) (answer : Answer ρ ε) : Option (State κ ρ τ ε σ) :=
  match S.tasks[f]?, answer with
  | some (t, .command _ k), .reply r => some { S with tasks := S.tasks.set f (t, k r) }
  | some (t, .choose n k), .number i =>
    if i < n then some { S with tasks := S.tasks.set f (t, k i) } else none
  | _, _ => none

def next (body : τ → Script κ ρ ε) (m : Move ρ ε) : Option (State κ ρ τ ε σ) :=
  match m.thread with
  | none => S.mainNext body m.answer
  | some f => S.taskNext f m.answer

end State

/-- A step of the thread of the move. -/
def Step (body : τ → Script κ ρ ε) (S : State κ ρ τ ε σ) (m : Move ρ ε) (S' : State κ ρ τ ε σ) :
    Prop := S.next body m = some S'

/-! ## Running commands -/

/-- The place of the command that the main thread runs. -/
def Prog.runsAt (place : κ → Option ν) : Prog κ ρ τ ε σ α → Option ν
  | .command c _ => place c
  | _ => none

/-- The place of the command that a task runs. -/
def Script.runsAt (place : κ → Option ν) : Script κ ρ ε → Option ν
  | .command c _ => place c
  | _ => none

namespace State

/-- Whether a thread runs something at a place: the main thread a command, any other thread a
command, or its task as long as that has not finished. -/
def runsAt [DecidableEq ν] (place : κ → Option ν) (home : τ → ν) (S : State κ ρ τ ε σ) (i : ν) :
    Option Future → Bool
  | none => S.main.runsAt place = some i
  | some f =>
    match S.tasks[f]? with
    | some (t, script) => script.runsAt place = some i ∨ (script.result.isNone ∧ home t = i)
    | none => false

def threads (S : State κ ρ τ ε σ) : List (Option Future) :=
  none :: (List.range S.tasks.length).map some

/-- The threads that run something at a place. -/
def running [DecidableEq ν] (place : κ → Option ν) (home : τ → ν) (S : State κ ρ τ ε σ) (i : ν) :
    List (Option Future) := S.threads.filter (S.runsAt place home i)

theorem nodup_threads (S : State κ ρ τ ε σ) : S.threads.Nodup := by
  refine List.nodup_cons.mpr ⟨by simp, ?_⟩
  exact List.nodup_range.map fun f g h => Option.some.inj h

end State

/-- What is left of a script runs its commands at one place. -/
def Script.Confined (place : κ → Option ν) (i : ν) : Script κ ρ ε → Prop
  | .finished _ => True
  | .command c k => (∀ j, place c = some j → j = i) ∧ ∀ r, (k r).Confined place i
  | .choose n k => ∀ x < n, (k x).Confined place i

theorem confined_commands {place : κ → Option ν} {i : ν} {cs : List κ}
    (h : ∀ c ∈ cs, ∀ j, place c = some j → j = i) :
    (Script.commands cs : Script κ ρ ε).Confined place i := by
  induction cs with
  | nil => exact trivial
  | cons c cs ih =>
    obtain ⟨hc, hcs⟩ := List.forall_mem_cons.mp h
    refine ⟨hc, fun r => ?_⟩
    cases r with
    | ok a => exact ih hcs
    | error e => exact trivial

/-! ## The precondition -/

/-- What the main thread knows of a task. -/
inductive Status (ν : Type)
  | unsubmitted
  /-- It has been submitted, at home at this place, and has perhaps not finished. -/
  | pending (i : ν)
  | finished

/-- What the main thread knows of all tasks. -/
abbrev Known (ν : Type) := Future → Status ν

/-- No pending task is at home at the place. -/
def Known.Free (known : Known ν) (i : ν) : Prop := ∀ f, known f ≠ .pending i

def Known.finish (known : Known ν) (fs : List Future) : Known ν := fun f =>
  if f ∈ fs then .finished else known f

theorem finish_finish (known : Known ν) (fs : List Future) :
    (known.finish fs).finish fs = known.finish fs := by
  funext f
  unfold Known.finish
  split <;> rfl

/-- The place of each command and of each task, and how the memory may change while tasks are
pending. -/
structure Rules (κ τ σ ν : Type) where
  place : κ → Option ν
  home : τ → ν
  allows : Known ν → σ → σ → Prop

def Safe (R : Rules κ τ σ ν) : Prog κ ρ τ ε σ α → σ → Known ν → (α → σ → Known ν → Prop) → Prop
  | .ret a, s, known, Q => Q a s known
  | .raise _, _, _, _ => True
  | .load k, s, known, Q => Safe R (k s) s known Q
  | .store s' k, s, known, Q => R.allows known s s' ∧ Safe R k s' known Q
  | .command c k, s, known, Q =>
    (∀ i, R.place c = some i → known.Free i) ∧ ∀ r, Safe R (k r) s known Q
  | .choose n k, s, known, Q => ∀ i < n, Safe R (k i) s known Q
  | .submit t k, s, known, Q => known.Free (R.home t) ∧ ∀ f, known f = .unsubmitted →
    Safe R (k f) s (Function.update known f (.pending (R.home t))) Q
  | .done f k, s, known, Q => Safe R (k true) s (known.finish [f]) Q ∧
    (known f ≠ .finished → Safe R (k false) s known Q)
  | .exception f k, s, known, Q => ∀ e, Safe R (k e) s (known.finish [f]) Q
  | .wait fs all k, s, known, Q => Safe R k s (if all then known.finish fs else known) Q

variable {R : Rules κ τ σ ν} {p : Prog κ ρ τ ε σ α} {s : σ} {known : Known ν}
  {Q Q' : α → σ → Known ν → Prop}

theorem Safe.mono (h : Safe R p s known Q) (hQ : ∀ a s known, Q a s known → Q' a s known) :
    Safe R p s known Q' := by
  induction p generalizing s known with
  | ret a => exact hQ a s known h
  | raise e => exact trivial
  | load k ih => exact ih s h
  | store s' k ih => exact ⟨h.1, ih h.2⟩
  | command c k ih => exact ⟨h.1, fun r => ih r (h.2 r)⟩
  | choose n k ih => exact fun i hi => ih i (h i hi)
  | submit t k ih => exact ⟨h.1, fun f hf => ih f (h.2 f hf)⟩
  | done f k ih => exact ⟨ih true h.1, fun hf => ih false (h.2 hf)⟩
  | exception f k ih => exact fun e => ih e (h e)
  | wait fs all k ih => exact ih h

theorem Safe.bind {g : α → Prog κ ρ τ ε σ β} {Q : β → σ → Known ν → Prop}
    (h : Safe R p s known fun a s known => Safe R (g a) s known Q) :
    Safe R (p >>= g) s known Q := by
  change Safe R (p.bind g) s known Q
  induction p generalizing s known with
  | ret a => exact h
  | raise e => exact trivial
  | load k ih => exact ih s h
  | store s' k ih => exact ⟨h.1, ih h.2⟩
  | command c k ih => exact ⟨h.1, fun r => ih r (h.2 r)⟩
  | choose n k ih => exact fun i hi => ih i (h i hi)
  | submit t k ih => exact ⟨h.1, fun f hf => ih f (h.2 f hf)⟩
  | done f k ih => exact ⟨ih true h.1, fun hf => ih false (h.2 hf)⟩
  | exception f k ih => exact fun e => ih e (h e)
  | wait fs all k ih => exact ih h

/-- First one program, then another for which its postcondition is enough. -/
theorem Safe.seq {g : α → Prog κ ρ τ ε σ β} {Q' : β → σ → Known ν → Prop}
    (h : Safe R p s known Q) (hg : ∀ a s known, Q a s known → Safe R (g a) s known Q') :
    Safe R (p >>= g) s known Q' := (h.mono hg).bind

theorem safe_pure {a : α} (h : Q a s known) : Safe R (pure a : Prog κ ρ τ ε σ α) s known Q := h

theorem safe_get_bind {g : σ → Prog κ ρ τ ε σ β} {Q : β → σ → Known ν → Prop}
    (h : Safe R (g s) s known Q) : Safe R (Prog.get >>= g) s known Q := h

theorem safe_modify {f : σ → σ} {Q : PUnit → σ → Known ν → Prop} (hf : R.allows known s (f s))
    (h : Q ⟨⟩ (f s) known) : Safe R (Prog.modify f : Prog κ ρ τ ε σ PUnit) s known Q := ⟨hf, h⟩

theorem safe_execute {c : κ} {Q : ρ → σ → Known ν → Prop}
    (hc : ∀ i, R.place c = some i → known.Free i) (h : ∀ a, Q a s known) :
    Safe R (Prog.execute c : Prog κ ρ τ ε σ ρ) s known Q := by
  refine ⟨hc, fun r => ?_⟩
  cases r with
  | ok a => exact h a
  | error e => exact trivial

/-- The loop rule: the invariant sees the elements that the loop has passed. -/
theorem safe_foldlM {xs : List α} {b : β} {body : β → α → Prog κ ρ τ ε σ β}
    (I : List α → β → σ → Known ν → Prop) (h : I [] b s known)
    (hstep : ∀ pre x post b s known, xs = pre ++ x :: post → I pre b s known →
      Safe R (body b x) s known (I (pre ++ [x]))) :
    Safe R (xs.foldlM body b) s known (I xs) := by
  suffices hgen : ∀ (post pre : List α) b s known, xs = pre ++ post → I pre b s known →
      Safe R (post.foldlM body b) s known (I xs) from hgen xs [] b s known rfl h
  intro post
  induction post with
  | nil =>
    intro pre b s known hxs hI
    rw [List.append_nil] at hxs
    exact safe_pure (hxs ▸ hI)
  | cons x post ih =>
    intro pre b s known hxs hI
    rw [List.foldlM_cons]
    refine (hstep pre x post b s known hxs hI).seq fun b s known hI => ?_
    refine ih (pre ++ [x]) b s known ?_ hI
    rw [hxs, List.append_assoc]
    rfl

/-- The loop rule for a loop without an accumulator. -/
theorem safe_forM {xs : List α} {body : α → Prog κ ρ τ ε σ PUnit}
    (I : List α → σ → Known ν → Prop) (h : I [] s known)
    (hstep : ∀ pre x post s known, xs = pre ++ x :: post → I pre s known →
      Safe R (body x) s known fun _ => I (pre ++ [x])) :
    Safe R (xs.forM body) s known fun _ => I xs := by
  suffices hgen : ∀ (post pre : List α) s known, xs = pre ++ post → I pre s known →
      Safe R (post.forM body) s known fun _ => I xs from hgen xs [] s known rfl h
  intro post
  induction post with
  | nil =>
    intro pre s known hxs hI
    rw [List.append_nil] at hxs
    exact safe_pure (hxs ▸ hI)
  | cons x post ih =>
    intro pre s known hxs hI
    refine (hstep pre x post s known hxs hI).seq fun _ s known hI => ?_
    refine ih (pre ++ [x]) s known ?_ hI
    rw [hxs, List.append_assoc]
    rfl

/-! ## One command at each place -/

/-- The precondition holds of what the main thread has still to do, and each task that has not
finished is pending, alone at its place. -/
structure Sound (R : Rules κ τ σ ν) (S : State κ ρ τ ε σ) (known : Known ν) : Prop where
  safe : Safe R S.main S.mem known fun _ _ _ => True
  unfinished : ∀ f p, S.tasks[f]? = some p → p.2.result = none → known f = .pending (R.home p.1)
  finished : ∀ f, known f = .finished → S.isFinished f = true
  alone : ∀ f g i, known f = .pending i → known g = .pending i → f = g
  confined : ∀ p ∈ S.tasks, p.2.Confined R.place (R.home p.1)
  unsubmitted : ∀ f, S.tasks.length ≤ f → known f = .unsubmitted

variable {S S' : State κ ρ τ ε σ} {f : Future}

/-- The command that a task runs is at home, as is the task itself. -/
theorem Sound.runsAt_task [DecidableEq ν] (h : Sound R S known) {i : ν}
    (hf : S.runsAt R.place R.home i (some f) = true) : known f = .pending i := by
  rw [State.runsAt] at hf
  rcases htask : S.tasks[f]? with _ | ⟨t, script⟩
  · rw [htask] at hf
    cases hf
  rw [htask] at hf
  have hconfined := h.confined _ (List.mem_of_getElem? htask)
  rcases of_decide_eq_true hf with hplace | ⟨hresult, hhome⟩
  · cases script with
    | command c k => rw [h.unfinished f _ htask rfl, hconfined.1 i hplace]
    | finished | choose => cases hplace
  · rw [h.unfinished f _ htask (Option.isNone_iff_eq_none.mp hresult), hhome]

/-- The main thread runs no command where a pending task is at home. -/
theorem Sound.runsAt_main [DecidableEq ν] (h : Sound R S known) {i : ν}
    (hmain : S.runsAt R.place R.home i none = true) : known.Free i := by
  have hplace : S.main.runsAt R.place = some i := of_decide_eq_true hmain
  have hsafe := h.safe
  rcases S with ⟨main, mem, tasks⟩
  cases main with
  | command c k => exact hsafe.1 i hplace
  | ret | raise | load | store | choose | submit | done | exception | wait => cases hplace

/-- At most one thread runs something at a place. -/
theorem Sound.running_le_one [DecidableEq ν] (h : Sound R S known) (i : ν) :
    (S.running R.place R.home i).length ≤ 1 := by
  have hnodup : (S.running R.place R.home i).Nodup := S.nodup_threads.filter _
  have hsame : ∀ t ∈ S.running R.place R.home i, ∀ u ∈ S.running R.place R.home i, t = u := by
    intro t ht u hu
    have ht := (List.mem_filter.mp ht).2
    have hu := (List.mem_filter.mp hu).2
    cases t with
    | none =>
      cases u with
      | none => rfl
      | some g => exact absurd (h.runsAt_task hu) (h.runsAt_main ht g)
    | some f =>
      cases u with
      | none => exact absurd (h.runsAt_task ht) (h.runsAt_main hu f)
      | some g => rw [h.alone f g i (h.runsAt_task ht) (h.runsAt_task hu)]
  rcases hlist : S.running R.place R.home i with _ | ⟨t, _ | ⟨u, rest⟩⟩
  · exact Nat.zero_le 1
  · exact Nat.le_refl 1
  · rw [hlist] at hnodup hsame
    have htu : t = u := hsame t (by simp) u (by simp)
    simp [htu] at hnodup

/-- The main thread goes on, and knows as much as before. -/
theorem Sound.goOn (h : Sound R S known) {main : Prog κ ρ τ ε σ PUnit} {mem : σ}
    (hsafe : Safe R main mem known fun _ _ _ => True) :
    Sound R { S with main := main, mem := mem } known where
  safe := hsafe
  unfinished := h.unfinished
  finished := h.finished
  alone := h.alone
  confined := h.confined
  unsubmitted := h.unsubmitted

theorem finish_eq_pending {fs : List Future} {i : ν} (h : known.finish fs f = .pending i) :
    known f = .pending i := by
  rw [Known.finish] at h
  split at h
  · cases h
  · exact h

/-- It learns that some tasks have finished. -/
theorem Sound.learn (h : Sound R S known) {fs : List Future}
    (hfs : ∀ f ∈ fs, S.isFinished f = true) {main : Prog κ ρ τ ε σ PUnit}
    (hsafe : Safe R main S.mem (known.finish fs) fun _ _ _ => True) :
    Sound R { S with main := main } (known.finish fs) where
  safe := hsafe
  unfinished f p hp hresult := by
    rw [Known.finish, if_neg, h.unfinished f p hp hresult]
    intro hf
    have hfinished := hfs f hf
    rw [State.isFinished, State.result, hp, Option.bind_some, hresult] at hfinished
    cases hfinished
  finished f hf := by
    rw [Known.finish] at hf
    split at hf
    · rename_i hmem
      exact hfs f hmem
    · exact h.finished f hf
  alone f g i hf hg := h.alone f g i (finish_eq_pending hf) (finish_eq_pending hg)
  confined := h.confined
  unsubmitted f hf := by
    rw [Known.finish, if_neg, h.unsubmitted f hf]
    intro hmem
    have hfinished := hfs f hmem
    rw [State.isFinished, State.result, List.getElem?_eq_none hf] at hfinished
    cases hfinished

/-- It submits a task. -/
theorem Sound.submit (h : Sound R S known) {t : τ} {script : Script κ ρ ε}
    (hscript : script.Confined R.place (R.home t)) (hfree : known.Free (R.home t))
    {main : Prog κ ρ τ ε σ PUnit}
    (hsafe : Safe R main S.mem (Function.update known S.tasks.length (.pending (R.home t)))
      fun _ _ _ => True) :
    Sound R { S with main := main, tasks := S.tasks ++ [(t, script)] }
      (Function.update known S.tasks.length (.pending (R.home t))) where
  safe := hsafe
  unfinished f p hp hresult := by
    rw [Function.update_apply]
    split
    · subst f
      rw [List.getElem?_append_right (Nat.le_refl _), Nat.sub_self, List.getElem?_cons_zero] at hp
      rw [← Option.some.inj hp]
    · rename_i hf
      have hlt : f < S.tasks.length := by
        have hlt := (List.getElem?_eq_some_iff.mp hp).1
        rw [List.length_append, List.length_singleton] at hlt
        exact Nat.lt_of_le_of_ne (Nat.le_of_lt_succ hlt) hf
      rw [List.getElem?_append_left hlt] at hp
      exact h.unfinished f p hp hresult
  finished f hf := by
    rw [Function.update_apply] at hf
    split at hf
    · cases hf
    · have hfinished := h.finished f hf
      have hlt : f < S.tasks.length := by
        by_contra hlt
        rw [h.unsubmitted f (Nat.le_of_not_lt hlt)] at hf
        cases hf
      rw [State.isFinished, State.result] at hfinished ⊢
      rw [List.getElem?_append_left hlt]
      exact hfinished
  alone f g i hf hg := by
    rw [Function.update_apply] at hf hg
    split at hf
    · split at hg
      · rename_i hf' hg'
        rw [hf', hg']
      · exact absurd (hf ▸ hg) (hfree g)
    · split at hg
      · exact absurd (hg ▸ hf) (hfree f)
      · exact h.alone f g i hf hg
  confined p hp := by
    rcases List.mem_append.mp hp with hp | hp
    · exact h.confined p hp
    · rw [List.mem_singleton.mp hp]
      exact hscript
  unsubmitted f hf := by
    rw [List.length_append, List.length_singleton] at hf
    rw [Function.update_of_ne (Nat.ne_of_gt hf)]
    exact h.unsubmitted f (Nat.le_of_succ_le hf)

/-- A task goes on. -/
theorem Sound.task (h : Sound R S known) {t : τ} {script script' : Script κ ρ ε}
    (hf : S.tasks[f]? = some (t, script)) (hscript : script.result = none)
    (hscript' : script'.Confined R.place (R.home t)) :
    Sound R { S with tasks := S.tasks.set f (t, script') } known where
  safe := h.safe
  unfinished g p hp hresult := by
    rw [List.getElem?_set] at hp
    split at hp
    · rename_i hfg
      subst hfg
      split at hp
      · rw [← Option.some.inj hp]
        exact h.unfinished f (t, script) hf hscript
      · cases hp
    · exact h.unfinished g p hp hresult
  finished g hg := by
    have hne : f ≠ g := by
      rintro rfl
      rw [h.unfinished f _ hf hscript] at hg
      cases hg
    rw [State.isFinished, State.result, List.getElem?_set_ne hne]
    exact h.finished g hg
  alone := h.alone
  confined p hp := by
    rcases List.mem_or_eq_of_mem_set hp with hp | rfl
    · exact h.confined p hp
    · exact hscript'
  unsubmitted g hg := by
    rw [List.length_set] at hg
    exact h.unsubmitted g hg

/-- One step of the main thread. -/
theorem Sound.mainStep {body : τ → Script κ ρ ε} (h : Sound R S known)
    (hbody : ∀ t, (body t).Confined R.place (R.home t)) {answer : Answer ρ ε}
    (hnext : S.mainNext body answer = some S') :
    (∃ known', Sound R S' known') ∧ (S'.mem = S.mem ∨ R.allows known S.mem S'.mem) := by
  have hsafe := h.safe
  unfold State.mainNext at hnext
  cases hmain : S.main with
  | ret a =>
    rw [hmain] at hnext
    cases hnext
  | raise e =>
    rw [hmain] at hnext
    cases hnext
  | load k =>
    rw [hmain] at hnext hsafe
    cases answer with
    | go =>
      obtain rfl := Option.some.inj hnext
      exact ⟨⟨known, h.goOn hsafe⟩, .inl rfl⟩
    | reply | number => cases hnext
  | store s k =>
    rw [hmain] at hnext hsafe
    cases answer with
    | go =>
      obtain rfl := Option.some.inj hnext
      exact ⟨⟨known, h.goOn hsafe.2⟩, .inr hsafe.1⟩
    | reply | number => cases hnext
  | command c k =>
    rw [hmain] at hnext hsafe
    cases answer with
    | reply r =>
      obtain rfl := Option.some.inj hnext
      exact ⟨⟨known, h.goOn (hsafe.2 r)⟩, .inl rfl⟩
    | go | number => cases hnext
  | choose n k =>
    rw [hmain] at hnext hsafe
    cases answer with
    | number i =>
      obtain ⟨hi, hnext⟩ := Option.ite_none_right_eq_some.mp hnext
      obtain rfl := Option.some.inj hnext
      exact ⟨⟨known, h.goOn (hsafe i hi)⟩, .inl rfl⟩
    | go | reply => cases hnext
  | submit t k =>
    rw [hmain] at hnext hsafe
    cases answer with
    | go =>
      obtain rfl := Option.some.inj hnext
      have hnew := hsafe.2 _ (h.unsubmitted _ (Nat.le_refl _))
      exact ⟨⟨_, h.submit (hbody t) hsafe.1 hnew⟩, .inl rfl⟩
    | reply | number => cases hnext
  | done f k =>
    rw [hmain] at hnext hsafe
    cases answer with
    | go =>
      obtain ⟨-, hnext⟩ := Option.ite_none_right_eq_some.mp hnext
      obtain rfl := Option.some.inj hnext
      rcases hfinished : S.isFinished f with _ | _
      · refine ⟨⟨known, h.goOn (hsafe.2 fun hf => ?_)⟩, .inl rfl⟩
        rw [h.finished f hf] at hfinished
        cases hfinished
      · refine ⟨⟨_, h.learn (fun g hg => ?_) hsafe.1⟩, .inl rfl⟩
        rw [List.mem_singleton.mp hg]
        exact hfinished
    | reply | number => cases hnext
  | exception f k =>
    rw [hmain] at hnext hsafe
    cases answer with
    | go =>
      have hlearn : ∀ r, S.result f = some r → ∀ g ∈ [f], S.isFinished g = true := by
        intro r hr g hg
        rw [List.mem_singleton.mp hg, State.isFinished, hr]
        rfl
      rcases hresult : S.result f with _ | e | _
      · simp only [hresult] at hnext
        cases hnext
      · simp only [hresult] at hnext
        obtain rfl := Option.some.inj hnext
        exact ⟨⟨_, h.learn (hlearn _ hresult) (hsafe (some e))⟩, .inl rfl⟩
      · simp only [hresult] at hnext
        obtain rfl := Option.some.inj hnext
        exact ⟨⟨_, h.learn (hlearn _ hresult) (hsafe none)⟩, .inl rfl⟩
    | reply | number => cases hnext
  | wait fs all k =>
    rw [hmain] at hnext hsafe
    cases answer with
    | go =>
      obtain ⟨hready, hnext⟩ := Option.ite_none_right_eq_some.mp hnext
      obtain rfl := Option.some.inj hnext
      cases all with
      | true =>
        rw [Bool.not_true, Bool.false_and, Bool.or_false, List.all_eq_true] at hready
        exact ⟨⟨_, h.learn hready hsafe⟩, .inl rfl⟩
      | false => exact ⟨⟨_, h.goOn hsafe⟩, .inl rfl⟩
    | reply | number => cases hnext

/-- One step of a task. -/
theorem Sound.taskStep (h : Sound R S known) {answer : Answer ρ ε}
    (hnext : S.taskNext f answer = some S') : Sound R S' known ∧ S'.mem = S.mem := by
  unfold State.taskNext at hnext
  rcases htask : S.tasks[f]? with _ | ⟨t, script⟩
  · rw [htask] at hnext
    cases hnext
  rw [htask] at hnext
  have hconfined := h.confined _ (List.mem_of_getElem? htask)
  cases script with
  | finished result => cases hnext
  | command c k =>
    cases answer with
    | reply r =>
      obtain rfl := Option.some.inj hnext
      exact ⟨h.task htask rfl (hconfined.2 r), rfl⟩
    | go | number => cases hnext
  | choose n k =>
    cases answer with
    | number i =>
      obtain ⟨hi, hnext⟩ := Option.ite_none_right_eq_some.mp hnext
      obtain rfl := Option.some.inj hnext
      exact ⟨h.task htask rfl (hconfined i hi), rfl⟩
    | go | reply => cases hnext

/-- One step of any thread. -/
theorem Sound.step {body : τ → Script κ ρ ε} (h : Sound R S known)
    (hbody : ∀ t, (body t).Confined R.place (R.home t)) {m : Move ρ ε}
    (hstep : Step body S m S') :
    (∃ known', Sound R S' known') ∧ (S'.mem = S.mem ∨ R.allows known S.mem S'.mem) := by
  obtain ⟨thread, answer⟩ := m
  cases thread with
  | none => exact h.mainStep hbody hstep
  | some f =>
    obtain ⟨hsound, hmem⟩ := h.taskStep hstep
    exact ⟨⟨known, hsound⟩, .inl hmem⟩

/-- The state in which the main thread starts. -/
def State.start (main : Prog κ ρ τ ε σ PUnit) (mem : σ) : State κ ρ τ ε σ := ⟨main, mem, []⟩

theorem sound_start {main : Prog κ ρ τ ε σ PUnit} {mem : σ}
    (h : Safe R main mem (fun _ => .unsubmitted) fun _ _ _ => True) :
    Sound R (State.start main mem : State κ ρ τ ε σ) fun _ => .unsubmitted where
  safe := h
  unfinished f p hp := by
    rw [State.start, List.getElem?_nil] at hp
    cases hp
  finished f hf := by cases hf
  alone f g i hf := by cases hf
  confined p hp := absurd hp List.not_mem_nil
  unsubmitted f _ := rfl

/-- In every state that is reached, the precondition holds, whatever the tasks do. -/
theorem sound_of_run {body : τ → Script κ ρ ε} {main : Prog κ ρ τ ε σ PUnit} {mem : σ}
    (h : Safe R main mem (fun _ => .unsubmitted) fun _ _ _ => True)
    (hbody : ∀ t, (body t).Confined R.place (R.home t)) {moves : List (Move ρ ε)}
    (run : Run (Step body) (State.start main mem) moves S) : ∃ known, Sound R S known := by
  refine Run.invariant (I := fun S => ∃ known, Sound R S known) run ⟨_, sound_start h⟩ ?_
  rintro S m S' ⟨known, hsound⟩ hstep
  exact (hsound.step hbody hstep).1

/-- Moves that can be made one after the other are a run. -/
theorem run_of_foldlM {body : τ → Script κ ρ ε} {moves : List (Move ρ ε)}
    (h : moves.foldlM (fun S m => S.next body m) S = some S') : Run (Step body) S moves S' := by
  suffices hgen : ∀ (rest pre : List (Move ρ ε)) T, Run (Step body) S pre T →
      rest.foldlM (fun S m => S.next body m) T = some S' → Run (Step body) S (pre ++ rest) S' from
    hgen moves [] S .nil h
  intro rest
  induction rest with
  | nil =>
    intro pre T run hT
    rw [List.append_nil, ← Option.some.inj hT]
    exact run
  | cons m rest ih =>
    intro pre T run hT
    rw [List.foldlM_cons] at hT
    obtain ⟨U, hU, hrest⟩ := Option.bind_eq_some_iff.mp hT
    have hrun := ih (pre ++ [m]) U (run.snoc hU) hrest
    rwa [List.append_assoc] at hrun

end Executors
