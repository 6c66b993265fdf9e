import Mathlib.Data.List.Basic

/-!
# Condition variables

A lock and the threads that wait on its condition variable. `wait` gives the lock up and
`notify` wakes one thread that waits at that moment, the longest one; the woken thread takes
the lock again before its `wait` returns (`resume`). A notification is not remembered: with
no thread waiting, `notify` has no effect.

Each operation is partial. Taking the lock is possible only while nobody holds it, and the
other operations are for the thread that holds it.
-/

namespace Monitors

/-- The state of the lock. The lists are the threads in `wait`, the longest first. -/
structure Monitor (θ : Type) where
  holder : Option θ
  waiting : List θ
  notified : List θ
  deriving DecidableEq, Repr

/-- What is done with the result of a partial operation. -/
theorem map_iff {α β : Type} {f : α → β} {o : Option α} {p : Prop} {a : α} {b : β}
    (h : ∀ a', o = some a' ↔ p ∧ a = a') : o.map f = some b ↔ p ∧ f a = b := by
  simp [Option.map_eq_some_iff, h]

namespace Monitor

variable {θ : Type} {t : θ} {m m' : Monitor θ}

def free : Monitor θ := ⟨none, [], []⟩

def acquire (t : θ) (m : Monitor θ) : Option (Monitor θ) :=
  if m.holder = none then some { m with holder := some t } else none

theorem acquire_iff :
    m.acquire t = some m' ↔ m.holder = none ∧ { m with holder := some t } = m' := by
  simp [acquire]

variable [DecidableEq θ]

def release (t : θ) (m : Monitor θ) : Option (Monitor θ) :=
  if m.holder = some t then some { m with holder := none } else none

def wait (t : θ) (m : Monitor θ) : Option (Monitor θ) :=
  if m.holder = some t then some { m with holder := none, waiting := m.waiting ++ [t] } else none

def notify (t : θ) (m : Monitor θ) : Option (Monitor θ) :=
  if m.holder = some t then
    some { m with waiting := m.waiting.tail, notified := m.notified ++ m.waiting.head?.toList }
  else none

def resume (t : θ) (m : Monitor θ) : Option (Monitor θ) :=
  if m.holder = none ∧ t ∈ m.notified then
    some { m with holder := some t, notified := m.notified.erase t }
  else none

theorem release_iff :
    m.release t = some m' ↔ m.holder = some t ∧ { m with holder := none } = m' := by
  simp [release]

theorem wait_iff : m.wait t = some m' ↔
    m.holder = some t ∧ { m with holder := none, waiting := m.waiting ++ [t] } = m' := by
  simp [wait]

theorem notify_iff : m.notify t = some m' ↔ m.holder = some t ∧
    { m with waiting := m.waiting.tail, notified := m.notified ++ m.waiting.head?.toList } = m' := by
  simp [notify]

theorem resume_iff : m.resume t = some m' ↔ (m.holder = none ∧ t ∈ m.notified) ∧
    { m with holder := some t, notified := m.notified.erase t } = m' := by
  simp [resume]

end Monitor

end Monitors
