import DrbdTests.Error
import DrbdTests.Lib.Runs
import Mathlib.Data.Finset.Basic
import Mathlib.Data.List.Enum

/-!
# Streams that are added and removed

`Tee.write` goes through the set of streams that it finds at its start, in any order. `add` and
`remove` replace the set by a copy, so a `write` in another thread is not disturbed by them, and a
stream receives each message whose `write` lies between its `add` and its `remove` exactly once and
in order. But a `write` that has started before a `remove` goes on to write to the removed stream:
it is left alone only when it is not removed before its turn has come (`tee_streams`).
-/

namespace DrbdTests

open Runs

/-- The thread that calls `write`. -/
inductive Writing (α : Type)
  | idle
  | called (message : String)
  /-- In the loop, with the streams to which the message has not been written yet. -/
  | iterating (message : String) (left : Finset α)

/-- What one thread does in `write`, and another one in `add` and `remove`. -/
inductive TeeEvent (α : Type)
  | call (message : String)
  | iterate
  | put (stream : α)
  | finish
  | add (stream : α)
  | remove (stream : α)
  | assign
  deriving DecidableEq

/-- `Tee`, with the two threads. The calls of `write` are numbered; what has been written to a
stream stands with the numbers of the calls. -/
structure Tee (α : Type) where
  streams : Finset α
  /-- The local variable `streams` of `add` and `remove`, after the change. -/
  copy : Option (Finset α)
  writing : Writing α
  /-- The messages of the calls of `write` that have returned. -/
  finished : List String
  written : α → List (String × Nat)

namespace Tee

variable {α : Type}

def init : Tee α := ⟨∅, none, .idle, [], fun _ => []⟩

variable [DecidableEq α]

/-- One step of either thread. -/
inductive Step (s : Tee α) : TeeEvent α → Tee α → Prop
  | call {message : String} (h : s.writing = .idle) :
    Step s (.call message) { s with writing := .called message }
  | iterate {message : String} (h : s.writing = .called message) :
    Step s .iterate { s with writing := .iterating message s.streams }
  | put {message : String} {left : Finset α} {stream : α} (h : s.writing = .iterating message left)
      (hleft : stream ∈ left) :
    Step s (.put stream) { s with
      writing := .iterating message (left.erase stream)
      written := Function.update s.written stream
        (s.written stream ++ [(message, s.finished.length)]) }
  | finish {message : String} (h : s.writing = .iterating message ∅) :
    Step s .finish { s with writing := .idle, finished := s.finished ++ [message] }
  | add {stream : α} (h : s.copy = none) :
    Step s (.add stream) { s with copy := some (insert stream s.streams) }
  | remove {stream : α} (h : s.copy = none) (hmem : stream ∈ s.streams) :
    Step s (.remove stream) { s with copy := some (s.streams.erase stream) }
  /-- `KeyError` -/
  | removeAbsent {stream : α} (h : s.copy = none) (hmem : stream ∉ s.streams) :
    Step s (.remove stream) s
  | assign {copy : Finset α} (h : s.copy = some copy) :
    Step s .assign { s with streams := copy, copy := none }

/-! ## What is received -/

/-- The number of calls of `write`. -/
def started (s : Tee α) : Nat :=
  match s.writing with
  | .idle => s.finished.length
  | _ => s.finished.length + 1

/-- The stream is in the set, and no `remove` of it has begun. -/
structure Held (s : Tee α) (stream : α) : Prop where
  mem : stream ∈ s.streams
  mem_copy : ∀ copy, s.copy = some copy → stream ∈ copy

/-- What the call in progress has written to the stream, if it began after `first` other ones. -/
def underway (s : Tee α) (stream : α) (first : Nat) : List (String × Nat) :=
  match s.writing with
  | .iterating message left =>
    if stream ∉ left ∧ first ≤ s.finished.length then [(message, s.finished.length)] else []
  | _ => []

theorem underway_iterating {s : Tee α} {message : String} {left : Finset α} {stream : α} {first : Nat}
    (h : s.writing = .iterating message left) : s.underway stream first =
      if stream ∉ left ∧ first ≤ s.finished.length then [(message, s.finished.length)] else [] := by
  rw [underway, h]

/-- The stream has received all messages from the call with number `first` on. -/
structure Follows (stream : α) (first : Nat) (s : Tee α) : Prop where
  held : s.Held stream
  first_le : first ≤ s.started
  received : (s.written stream).filter (fun p => first ≤ p.2) =
    s.finished.zipIdx.drop first ++ s.underway stream first

theorem zipIdx_snoc_drop (finished : List String) (message : String) (first : Nat) :
    (finished ++ [message]).zipIdx.drop first = finished.zipIdx.drop first ++
      if first ≤ finished.length then [(message, finished.length)] else [] := by
  rw [List.zipIdx_append, List.drop_append, List.length_zipIdx, List.zipIdx_singleton, Nat.zero_add]
  congr 1
  split
  · rename_i hle
    rw [Nat.sub_eq_zero_of_le hle, List.drop_zero]
  · rename_i hlt
    apply List.drop_eq_nil_of_le
    rw [List.length_singleton]
    omega

section Steps

variable {s s' : Tee α} {stream : α} {event : TeeEvent α} {first : Nat}

theorem number_lt_started (hs : Step s event s')
    (h : ∀ p ∈ s.written stream, p.2 < s.started) : ∀ p ∈ s'.written stream, p.2 < s'.started := by
  cases hs with
  | call hidle =>
    intro p hp
    have hlt := h p hp
    rw [started, hidle] at hlt
    exact Nat.lt_succ_of_lt hlt
  | iterate hcalled =>
    rw [started, hcalled] at h
    exact h
  | @put message left other hiter hleft =>
    rw [started, hiter] at h
    intro p hp
    by_cases heq : stream = other
    · subst heq
      simp only [Function.update_self] at hp
      rcases List.mem_append.mp hp with hp | hp
      · exact h p hp
      · rw [List.mem_singleton.mp hp]
        exact Nat.lt_succ_self _
    · simp only [Function.update_of_ne heq] at hp
      exact h p hp
  | finish hiter =>
    rw [started, hiter] at h
    intro p hp
    rw [started, List.length_append]
    exact h p hp
  | add => exact h
  | remove => exact h
  | removeAbsent => exact h
  | assign => exact h

/-- The stream stays in the set as long as its `remove` does not begin. -/
theorem held_step (hs : Step s event s') (h : s.Held stream) (hevent : event ≠ .remove stream) :
    s'.Held stream := by
  obtain ⟨hmem, hcopy⟩ := h
  cases hs with
  | call => exact ⟨hmem, hcopy⟩
  | iterate => exact ⟨hmem, hcopy⟩
  | put => exact ⟨hmem, hcopy⟩
  | finish => exact ⟨hmem, hcopy⟩
  | add =>
    refine ⟨hmem, fun copy h => ?_⟩
    obtain rfl := Option.some.inj h
    exact Finset.mem_insert_of_mem hmem
  | @remove other =>
    refine ⟨hmem, fun copy h => ?_⟩
    obtain rfl := Option.some.inj h
    apply Finset.mem_erase_of_ne_of_mem _ hmem
    rintro rfl
    exact hevent rfl
  | removeAbsent => exact ⟨hmem, hcopy⟩
  | assign hassigned => exact ⟨hcopy _ hassigned, nofun⟩

theorem follows_step (hs : Step s event s') (h : Follows stream first s)
    (hevent : event ≠ .remove stream) : Follows stream first s' := by
  obtain ⟨hheld, hfirst, hreceived⟩ := h
  have hheld' := held_step hs hheld hevent
  cases hs with
  | call hidle =>
    rw [started, hidle] at hfirst
    rw [underway, hidle] at hreceived
    exact ⟨hheld', Nat.le_succ_of_le hfirst, hreceived⟩
  | iterate hcalled =>
    rw [started, hcalled] at hfirst
    rw [underway, hcalled] at hreceived
    refine ⟨hheld', hfirst, ?_⟩
    rw [underway_iterating rfl, if_neg fun h => h.1 hheld.mem]
    exact hreceived
  | @put message left other hiter hleft =>
    rw [started, hiter] at hfirst
    rw [underway_iterating hiter] at hreceived
    refine ⟨hheld', hfirst, ?_⟩
    rw [underway_iterating rfl]
    by_cases heq : stream = other
    · subst heq
      simp only [Function.update_self]
      rw [List.filter_append, hreceived, if_neg fun h => h.1 hleft, List.append_nil]
      congr 1
      by_cases hle : first ≤ s.finished.length
      · rw [if_pos ⟨Finset.notMem_erase stream left, hle⟩]
        exact List.filter_cons_of_pos (by simpa using hle)
      · rw [if_neg fun h => hle h.2]
        exact List.filter_cons_of_neg (by simpa using hle)
    · simp only [Function.update_of_ne heq, Finset.mem_erase, ne_eq, heq, not_false_eq_true, true_and]
      exact hreceived
  | @finish message hiter =>
    rw [started, hiter] at hfirst
    rw [underway_iterating hiter] at hreceived
    refine ⟨hheld', by rw [started, List.length_append]; exact hfirst, ?_⟩
    have hnone : underway { s with writing := .idle, finished := s.finished ++ [message] } stream
        first = [] := rfl
    rw [hnone, List.append_nil, zipIdx_snoc_drop, hreceived]
    simp
  | add => exact ⟨hheld', hfirst, hreceived⟩
  | remove => exact ⟨hheld', hfirst, hreceived⟩
  | removeAbsent => exact ⟨hheld', hfirst, hreceived⟩
  | assign => exact ⟨hheld', hfirst, hreceived⟩

end Steps

/-- Of the calls that lie in a part of a run, the stream receives each message once, in order. -/
theorem received_of_run {before events : List (TeeEvent α)} {s t : Tee α} {stream : α}
    (hbefore : Run Step init before s) (run : Run Step s events t) (hheld : s.Held stream)
    (hevents : .remove stream ∉ events) :
    (t.written stream).filter (fun p => s.started ≤ p.2 ∧ p.2 < t.finished.length) =
      t.finished.zipIdx.drop s.started := by
  have hnumbers : ∀ p ∈ s.written stream, p.2 < s.started :=
    hbefore.invariant (I := fun s => ∀ p ∈ s.written stream, p.2 < s.started) (by simp [init])
      fun _ _ _ h hs => number_lt_started hs h
  have hstart : Follows stream s.started s := by
    refine ⟨hheld, le_rfl, ?_⟩
    have hnone : (s.written stream).filter (fun p => s.started ≤ p.2) = [] := by
      apply List.filter_eq_nil_iff.mpr
      intro p hp
      simpa using hnumbers p hp
    rw [hnone, underway, started]
    rcases s.writing with _ | message | ⟨message, left⟩
    · simp
    · simp
    · simp
  have hfollows : Follows stream s.started t := by
    induction run with
    | nil => exact hstart
    | snoc _ hstep ih =>
      rw [List.mem_append, not_or] at hevents
      exact follows_step hstep (ih hevents.1) fun h => hevents.2 (by rw [h]; exact List.mem_singleton_self _)
  have hsplit : (t.written stream).filter (fun p => s.started ≤ p.2 ∧ p.2 < t.finished.length) =
      ((t.written stream).filter fun p => s.started ≤ p.2).filter fun p => p.2 < t.finished.length := by
    rw [List.filter_filter]
    congr 1
    funext p
    rw [Bool.decide_and, Bool.and_comm]
  have hreturned : (t.finished.zipIdx.drop s.started).filter (fun p => p.2 < t.finished.length) =
      t.finished.zipIdx.drop s.started := by
    apply List.filter_eq_self.mpr
    intro p hp
    exact decide_eq_true (List.snd_lt_of_mem_zipIdx (List.mem_of_mem_drop hp))
  have hunderway : (t.underway stream s.started).filter (fun p => p.2 < t.finished.length) = [] := by
    apply List.filter_eq_nil_iff.mpr
    intro p hp
    rw [underway] at hp
    split at hp
    · split at hp
      · rw [List.mem_singleton.mp hp]
        simp
      · cases hp
    · cases hp
  rw [hsplit, hfollows.received, List.filter_append, hreturned, hunderway, List.append_nil]

/-! ## Removed streams -/

/-- The streams to which the call in progress has still to write. -/
def pending (s : Tee α) : Finset α :=
  match s.writing with
  | .iterating _ left => left
  | _ => ∅

omit [DecidableEq α] in
theorem pending_iterating {s : Tee α} {message : String} {left : Finset α}
    (h : s.writing = .iterating message left) : s.pending = left := by
  rw [pending, h]

/-- A message is written to a stream that has not been removed. -/
def OnTime (s : Tee α) (event : TeeEvent α) : Prop :=
  ∀ stream, event = .put stream → stream ∈ s.streams

/-- A `remove` returns after a `write` in progress has written to the stream. -/
def Awaited (s : Tee α) (event : TeeEvent α) : Prop :=
  event = .assign → ∀ copy, s.copy = some copy → s.pending ⊆ copy

theorem pending_step {s s' : Tee α} {event : TeeEvent α} (hs : Step s event s')
    (hawaited : s.Awaited event) (h : s.pending ⊆ s.streams) : s'.pending ⊆ s'.streams := by
  cases hs with
  | call => exact Finset.empty_subset _
  | iterate => exact subset_rfl
  | put hiter =>
    rw [pending_iterating hiter] at h
    exact (Finset.erase_subset _ _).trans h
  | finish => exact Finset.empty_subset _
  | add => exact h
  | remove => exact h
  | removeAbsent => exact h
  | assign hcopy => exact hawaited rfl _ hcopy

theorem onTime_of_pending {s s' : Tee α} {event : TeeEvent α} (hs : Step s event s')
    (h : s.pending ⊆ s.streams) : s.OnTime event := by
  rintro stream rfl
  cases hs with
  | put hiter hleft => exact h (by rw [pending_iterating hiter]; exact hleft)

/-- A `remove` that does not wait for the write can be followed by the write. -/
theorem late_of_not_awaited {s s' : Tee α} {event : TeeEvent α} (hs : Step s event s')
    (h : ¬ s.Awaited event) : ∃ stream s'', Step s' (.put stream) s'' ∧ ¬ s'.OnTime (.put stream) := by
  unfold Awaited at h
  push Not at h
  obtain ⟨rfl, copy, hcopy, hsub⟩ := h
  obtain ⟨stream, hpending, hremoved⟩ := Finset.not_subset.mp hsub
  cases hs with
  | assign hcopy' =>
    obtain rfl := Option.some.inj (hcopy.symm.trans hcopy')
    rcases hwriting : s.writing with _ | message | ⟨message, left⟩
    · rw [pending, hwriting] at hpending
      cases hpending
    · rw [pending, hwriting] at hpending
      cases hpending
    · rw [pending_iterating hwriting] at hpending
      exact ⟨stream, _, .put rfl hpending, fun h => hremoved (h stream rfl)⟩

/-- A stream receives the messages of all calls between its `add` and its `remove`, once each and
in order. If all calls of `remove` return after the write in progress, nothing is written to a
removed stream; if one does not, something can be. -/
theorem tee_streams :
    (∀ (before events : List (TeeEvent α)) (s t : Tee α) (stream : α), Run Step init before s →
      Run Step s events t → s.Held stream → .remove stream ∉ events →
      (t.written stream).filter (fun p => s.started ≤ p.2 ∧ p.2 < t.finished.length) =
        t.finished.zipIdx.drop s.started) ∧
    (∀ inputs, EveryStep Step Awaited (init : Tee α) inputs → EveryStep Step OnTime init inputs) ∧
    (∀ (before : List (TeeEvent α)) (s s' : Tee α) (event : TeeEvent α), Run Step init before s →
      Step s event s' → ¬ s.Awaited event →
      ∃ stream s'', Step s' (.put stream) s'' ∧ ¬ s'.OnTime (.put stream)) := by
  refine ⟨fun _ _ _ _ _ hbefore run hheld hevents => received_of_run hbefore run hheld hevents,
    fun inputs h => ?_, fun _ _ _ _ _ hs hnot => late_of_not_awaited hs hnot⟩
  have hpending : EveryState Step (fun s => s.pending ⊆ s.streams) (init : Tee α) inputs := by
    intro before hbefore t run
    induction run with
    | nil => exact Finset.empty_subset _
    | @snoc before s s' event run hs ih =>
      have hs_pending := ih ((List.prefix_append before [event]).trans hbefore)
      exact pending_step hs (h before event hbefore s s' run hs) hs_pending
  intro before event hbefore t t' run hs
  exact onTime_of_pending hs (hpending before ((List.prefix_append before [event]).trans hbefore) t run)

/-- The state after a step. -/
def next (s : Tee α) : TeeEvent α → Tee α
  | .call message => { s with writing := .called message }
  | .iterate =>
    match s.writing with
    | .called message => { s with writing := .iterating message s.streams }
    | _ => s
  | .put stream =>
    match s.writing with
    | .iterating message left =>
      { s with
        writing := .iterating message (left.erase stream)
        written := Function.update s.written stream
          (s.written stream ++ [(message, s.finished.length)]) }
    | _ => s
  | .finish =>
    match s.writing with
    | .iterating message _ => { s with writing := .idle, finished := s.finished ++ [message] }
    | _ => s
  | .add stream => { s with copy := some (insert stream s.streams) }
  | .remove stream => if stream ∈ s.streams then { s with copy := some (s.streams.erase stream) } else s
  | .assign =>
    match s.copy with
    | some copy => { s with streams := copy, copy := none }
    | none => s

theorem eq_next_of_step {s s' : Tee α} {event : TeeEvent α} (hs : Step s event s') :
    s' = s.next event := by
  cases hs with
  | call => rfl
  | iterate hcalled => rw [next, hcalled]
  | put hiter => rw [next, hiter]
  | finish hiter => rw [next, hiter]
  | add => rfl
  | remove _ hmem => rw [next, if_pos hmem]
  | removeAbsent _ hmem => rw [next, if_neg hmem]
  | assign hcopy => rw [next, hcopy]

instance (s : Tee α) (event : TeeEvent α) : Decidable (s.Awaited event) :=
  inferInstanceAs (Decidable (event = .assign → ∀ copy ∈ s.copy, s.pending ⊆ copy))

/-- A log file `0` and a capture `1`, and a message to both of them. -/
def captureBegun : List (TeeEvent Nat) :=
  [.add 0, .assign, .add 1, .assign, .call "first", .iterate, .put 1, .put 0, .finish]

/-- During the next message the capture is removed, after its turn; one more follows. -/
def captureEnded : List (TeeEvent Nat) :=
  [.call "second", .iterate, .put 1, .remove 1, .assign, .put 0, .finish, .call "third", .iterate, .put 0,
    .finish]

/-- The log file receives all messages, and nothing is written to the capture once it is removed. -/
theorem tee_streams_capture : ∃ s t : Tee Nat, Run Step init captureBegun s ∧
    Run Step s captureEnded t ∧ t.finished = ["first", "second", "third"] ∧
    (t.written 0).filter (fun p => s.started ≤ p.2 ∧ p.2 < t.finished.length) =
      [("second", 1), ("third", 2)] ∧
    EveryStep Step OnTime (init : Tee Nat) (captureBegun ++ captureEnded) := by
  obtain ⟨s, t, hbefore, run, hheld, hstarted, hfinished⟩ : ∃ s t : Tee Nat,
      Run Step init captureBegun s ∧ Run Step s captureEnded t ∧ s.Held 0 ∧ s.started = 1 ∧
      t.finished = ["first", "second", "third"] := by
    refine ⟨_, _, .cons (.add rfl) <| .cons (.assign rfl) <| .cons (.add rfl) <| .cons (.assign rfl) <|
      .cons (.call rfl) <| .cons (.iterate rfl) <| .cons (.put rfl ?_) <| .cons (.put rfl ?_) <|
      .cons (.finish rfl) .nil,
      .cons (.call rfl) <| .cons (.iterate rfl) <| .cons (.put rfl ?_) <| .cons (.remove rfl ?_) <|
      .cons (.assign rfl) <| .cons (.put rfl ?_) <| .cons (.finish rfl) <| .cons (.call rfl) <|
      .cons (.iterate rfl) <| .cons (.put rfl ?_) <| .cons (.finish rfl) .nil,
      ⟨?_, fun _ h => by cases h⟩, rfl, rfl⟩
    all_goals decide
  have hreceived := tee_streams.1 _ _ s t 0 hbefore run hheld (by decide)
  rw [hstarted, hfinished] at hreceived
  have hawaited : EveryStep Step Awaited (init : Tee Nat) (captureBegun ++ captureEnded) :=
    everyStep_of_permitted (fun _ _ _ hs => eq_next_of_step hs) (by decide)
  refine ⟨s, t, hbefore, run, hfinished, ?_, tee_streams.2.1 _ hawaited⟩
  rw [hstarted, hfinished]
  exact hreceived

/-- The capture `1` is removed while a message is being written to the log file `0`. -/
theorem removed_capture_written : ¬ EveryStep Step OnTime (init : Tee Nat) [.add 0, .assign, .add 1,
    .assign, .call "message", .iterate, .put 0, .remove 1, .assign, .put 1] := by
  intro h
  obtain ⟨t, t', run, hs, hremoved⟩ : ∃ t t' : Tee Nat, Run Step init [.add 0, .assign, .add 1,
      .assign, .call "message", .iterate, .put 0, .remove 1, .assign] t ∧ Step t (.put 1) t' ∧
      1 ∉ t.streams := by
    refine ⟨_, _, .cons (.add rfl) <| .cons (.assign rfl) <| .cons (.add rfl) <|
      .cons (.assign rfl) <| .cons (.call rfl) <| .cons (.iterate rfl) <| .cons (.put rfl ?_) <|
      .cons (.remove rfl ?_) <| .cons (.assign rfl) .nil, .put rfl ?_, ?_⟩
    · decide
    · decide
    · decide
    · decide
  exact hremoved (h _ _ (List.prefix_refl _) t t' run hs 1 rfl)

end Tee

end DrbdTests
