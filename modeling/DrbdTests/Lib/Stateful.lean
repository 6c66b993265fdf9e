import Mathlib.Logic.Function.Basic
import Mathlib.Data.List.Basic

/-!
# Computations that return or raise

`Comp σ ε α` is the shape of an imperative method with exceptions: it reads and writes
a state of type `σ`, and ends by returning a value of type `α` or by raising an
exception of type `ε`. The state survives an exception.

* `Returns m s a s'`: started in `s`, the computation `m` returns `a` and ends in `s'`.
  The lemmas `returns_*` take a successful run apart, one statement at a time.
* `ReadsOnly` and `FailsUnchanged`: the state is left as it was, or is when an exception is
  raised.
* `Frame`: a reflexive and transitive relation between a state and a later one. A
  computation stays within a frame (`Frame.Holds`) when the states before and after it
  are related, whether it returns or raises. `Frame.keeping I` is the frame of an
  invariant `I`.
-/

namespace Stateful

/-- A computation with state `σ` that returns an `α` or raises an `ε`. -/
abbrev Comp (σ ε α : Type) := ExceptT ε (StateM σ) α

variable {σ ε α β : Type}

/-- Run a computation: how it ended, and the state it left. -/
def exec (m : Comp σ ε α) (s : σ) : Except ε α × σ := m.run.run s

@[simp] theorem exec_pure (a : α) (s : σ) : exec (pure a : Comp σ ε α) s = (.ok a, s) := rfl

@[simp] theorem exec_throw (e : ε) (s : σ) :
    exec (throw e : Comp σ ε α) s = (.error e, s) := rfl

@[simp] theorem exec_get (s : σ) : exec (get : Comp σ ε σ) s = (.ok s, s) := rfl

@[simp] theorem exec_set (t s : σ) : exec (set t : Comp σ ε PUnit) s = (.ok ⟨⟩, t) := rfl

@[simp] theorem exec_modify (f : σ → σ) (s : σ) :
    exec (modify f : Comp σ ε PUnit) s = (.ok ⟨⟩, f s) := rfl

theorem exec_bind (m : Comp σ ε α) (f : α → Comp σ ε β) (s : σ) :
    exec (m >>= f) s =
      match exec m s with
      | (.ok a, s') => exec (f a) s'
      | (.error e, s') => (.error e, s') := by
  simp only [exec, ExceptT.run_bind, StateT.run_bind]
  rcases m.run.run s with ⟨r | r, s'⟩ <;> rfl

theorem exec_bind_of_ok {m : Comp σ ε α} {f : α → Comp σ ε β} {s s' : σ} {a : α}
    (h : exec m s = (.ok a, s')) : exec (m >>= f) s = exec (f a) s' := by
  rw [exec_bind, h]

theorem exec_bind_of_error {m : Comp σ ε α} {f : α → Comp σ ε β} {s s' : σ} {e : ε}
    (h : exec m s = (.error e, s')) : exec (m >>= f) s = (.error e, s') := by
  rw [exec_bind, h]

/-- What is made of the result does not matter for the state. -/
theorem exec_map_snd (m : Comp σ ε α) (f : α → β) (s : σ) :
    (exec (m >>= fun a => pure (f a)) s).2 = (exec m s).2 := by
  rw [exec_bind]
  rcases exec m s with ⟨e | a, s'⟩ <;> rfl

theorem exec_get_bind (f : σ → Comp σ ε β) (s : σ) : exec (get >>= f) s = exec (f s) s := rfl

theorem exec_tryCatch (m : Comp σ ε α) (f : ε → Comp σ ε α) (s : σ) :
    exec (tryCatch m f) s =
      match exec m s with
      | (.ok a, s') => (.ok a, s')
      | (.error e, s') => exec (f e) s' := by
  have hm : exec m s = StateT.run (m : StateM σ (Except ε α)) s := rfl
  rw [hm]
  change StateT.run (ExceptT.run (tryCatch m f)) s = _
  simp only [tryCatch, tryCatchThe, MonadExceptOf.tryCatch, ExceptT.tryCatch, ExceptT.run_mk,
    StateT.run_bind]
  rcases StateT.run (m : StateM σ (Except ε α)) s with ⟨e | a, s'⟩ <;> rfl

/-- A conditional statement that is not the last one. -/
def when (p : Bool) (m : Comp σ ε PUnit) : Comp σ ε PUnit := if p then m else pure ⟨⟩

@[simp] theorem when_true (m : Comp σ ε PUnit) : when true m = m := rfl

@[simp] theorem when_false (m : Comp σ ε PUnit) : when false m = pure ⟨⟩ := rfl

/-! ## Successful runs -/

/-- Started in `s`, the computation returns `a` and ends in `s'`. -/
def Returns (m : Comp σ ε α) (s : σ) (a : α) (s' : σ) : Prop := exec m s = (.ok a, s')

@[simp] theorem returns_pure {a b : α} {s s' : σ} :
    Returns (pure a : Comp σ ε α) s b s' ↔ a = b ∧ s = s' := by
  simp [Returns]

@[simp] theorem returns_throw {e : ε} {a : α} {s s' : σ} :
    Returns (throw e : Comp σ ε α) s a s' ↔ False := by
  simp [Returns]

@[simp] theorem returns_get {s t s' : σ} :
    Returns (get : Comp σ ε σ) s t s' ↔ s = t ∧ s = s' := by
  simp [Returns]

@[simp] theorem returns_set {t s s' : σ} {u : PUnit} :
    Returns (set t : Comp σ ε PUnit) s u s' ↔ t = s' := by
  simp [Returns]

@[simp] theorem returns_modify {f : σ → σ} {s s' : σ} {u : PUnit} :
    Returns (modify f : Comp σ ε PUnit) s u s' ↔ f s = s' := by
  simp [Returns]

theorem returns_bind {m : Comp σ ε α} {f : α → Comp σ ε β} {s s'' : σ} {b : β} :
    Returns (m >>= f) s b s'' ↔ ∃ a s', Returns m s a s' ∧ Returns (f a) s' b s'' := by
  unfold Returns
  rcases h : exec m s with ⟨e | a, s'⟩
  · rw [exec_bind_of_error h]
    simp
  · rw [exec_bind_of_ok h]
    constructor
    · exact fun hf => ⟨a, s', rfl, hf⟩
    · rintro ⟨a', t, hm, hf⟩
      cases hm
      exact hf

theorem returns_get_bind {f : σ → Comp σ ε β} {s s' : σ} {b : β} :
    Returns (get >>= f) s b s' ↔ Returns (f s) s b s' := Iff.rfl

theorem returns_when {p : Bool} {m : Comp σ ε PUnit} {s s' : σ} {u : PUnit} :
    Returns (when p m) s u s' ↔ if p then Returns m s ⟨⟩ s' else s = s' := by
  cases p <;> simp [when]

theorem Returns.bind {m : Comp σ ε α} {f : α → Comp σ ε β} {s s' s'' : σ} {a : α} {b : β}
    (hm : Returns m s a s') (hf : Returns (f a) s' b s'') : Returns (m >>= f) s b s'' :=
  returns_bind.mpr ⟨a, s', hm, hf⟩

/-- A statement whose result is dropped. -/
theorem returns_drop {m : Comp σ ε α} {s s' : σ} {u : PUnit} :
    Returns (m >>= fun _ => pure ⟨⟩) s u s' ↔ ∃ a, Returns m s a s' := by
  rw [returns_bind]
  constructor
  · rintro ⟨a, t, hm, hp⟩
    obtain ⟨-, rfl⟩ := returns_pure.mp hp
    exact ⟨a, hm⟩
  · rintro ⟨a, hm⟩
    exact ⟨a, s', hm, rfl⟩

/-- A computation that can be run can be seen to return. -/
theorem returns_of_toBool {m : Comp σ ε PUnit} {s : σ} (h : (exec m s).1.toBool = true) :
    Returns m s ⟨⟩ (exec m s).2 := by
  unfold Returns
  rcases hexec : exec m s with ⟨e | ⟨⟩, s'⟩
  · rw [hexec] at h
    cases h
  · rfl

theorem returns_of_toOption {m : Comp σ ε α} {s : σ} {a : α}
    (h : (exec m s).1.toOption = some a) : Returns m s a (exec m s).2 := by
  unfold Returns
  rcases hexec : exec m s with ⟨e | b, s'⟩
  · rw [hexec] at h
    cases h
  · rw [hexec] at h
    obtain rfl := Option.some.inj h
    rfl

/-- A successful run ends in one value and one state. -/
theorem Returns.unique {m : Comp σ ε α} {s s₁ s₂ : σ} {a₁ a₂ : α}
    (h₁ : Returns m s a₁ s₁) (h₂ : Returns m s a₂ s₂) : a₁ = a₂ ∧ s₁ = s₂ := by
  have h : (Except.ok a₁, s₁) = ((Except.ok a₂ : Except ε α), s₂) := h₁.symm.trans h₂
  simpa using h

/-- An exception handler does not run when nothing is raised. -/
theorem returns_tryCatch_of_returns {m : Comp σ ε α} {f : ε → Comp σ ε α} {s s' : σ} {a : α}
    (h : Returns m s a s') : Returns (tryCatch m f) s a s' := by
  rw [Returns, exec_tryCatch, show exec m s = (.ok a, s') from h]

theorem returns_foldlM_cons {f : β → α → Comp σ ε β} {b c : β} {x : α} {xs : List α} {s s' : σ} :
    Returns ((x :: xs).foldlM f b) s c s' ↔
      ∃ b' t, Returns (f b x) s b' t ∧ Returns (xs.foldlM f b') t c s' := by
  rw [List.foldlM_cons, returns_bind]

/-- What every iteration of a successful loop preserves holds at its end. The
invariant sees the elements the loop has passed. -/
theorem Returns.foldlM_invariant {f : β → α → Comp σ ε β} {xs : List α} {b c : β} {s s' : σ}
    (I : List α → β → σ → Prop) (h : Returns (xs.foldlM f b) s c s') (h0 : I [] b s)
    (hstep : ∀ pre x post b s b' s', xs = pre ++ x :: post → I pre b s →
      Returns (f b x) s b' s' → I (pre ++ [x]) b' s') : I xs c s' := by
  suffices hgen : ∀ (post pre : List α) (b : β) (s : σ), xs = pre ++ post → I pre b s →
      Returns (post.foldlM f b) s c s' → I xs c s' from hgen xs [] b s rfl h0 h
  intro post
  induction post with
  | nil =>
    intro pre b s hxs hI hr
    rw [List.foldlM_nil, returns_pure] at hr
    obtain ⟨rfl, rfl⟩ := hr
    simpa [hxs] using hI
  | cons x post ih =>
    intro pre b s hxs hI hr
    obtain ⟨b', t, hx, hrest⟩ := returns_foldlM_cons.mp hr
    exact ih (pre ++ [x]) b' t (by simp [hxs]) (hstep pre x post b s b' t hxs hI hx) hrest

theorem returns_forM_cons {f : α → Comp σ ε PUnit} {x : α} {xs : List α} {s s' : σ} {u : PUnit} :
    Returns ((x :: xs).forM f) s u s' ↔
      ∃ t, Returns (f x) s ⟨⟩ t ∧ Returns (xs.forM f) t ⟨⟩ s' := by
  change Returns (f x >>= fun _ => xs.forM f) s u s' ↔ _
  rw [returns_bind]
  exact ⟨fun ⟨_, t, h⟩ => ⟨t, h⟩, fun ⟨t, h⟩ => ⟨⟨⟩, t, h⟩⟩

@[simp] theorem returns_forM_nil {f : α → Comp σ ε PUnit} {s s' : σ} {u : PUnit} :
    Returns (([] : List α).forM f) s u s' ↔ s = s' := by
  change Returns (pure ⟨⟩) s u s' ↔ _
  simp

/-- The loop rule for a loop without an accumulator. -/
theorem Returns.forM_invariant {f : α → Comp σ ε PUnit} {xs : List α} {s s' : σ} {u : PUnit}
    (I : List α → σ → Prop) (h : Returns (xs.forM f) s u s') (h0 : I [] s)
    (hstep : ∀ pre x post s s', xs = pre ++ x :: post → I pre s →
      Returns (f x) s ⟨⟩ s' → I (pre ++ [x]) s') : I xs s' := by
  suffices hgen : ∀ (post pre : List α) (s : σ), xs = pre ++ post → I pre s →
      Returns (post.forM f) s ⟨⟩ s' → I xs s' from hgen xs [] s rfl h0 h
  intro post
  induction post with
  | nil =>
    intro pre s hxs hI hr
    rw [returns_forM_nil] at hr
    subst hr
    simpa [hxs] using hI
  | cons x post ih =>
    intro pre s hxs hI hr
    obtain ⟨t, hx, hrest⟩ := returns_forM_cons.mp hr
    exact ih (pre ++ [x]) t (by simp [hxs]) (hstep pre x post s t hxs hI hx) hrest

/-! ## Frames -/

/-- A reflexive and transitive relation between a state and a later one. -/
structure Frame (σ : Type) where
  rel : σ → σ → Prop
  refl : ∀ s, rel s s
  trans : ∀ {a b c}, rel a b → rel b c → rel a c

namespace Frame

/-- The computation stays within the frame, however it ends. -/
def Holds (F : Frame σ) (m : Comp σ ε α) : Prop := ∀ s, F.rel s (exec m s).2

/-- The frame of an invariant: if it holds before, it holds after. -/
def keeping (I : σ → Prop) : Frame σ where
  rel s s' := I s → I s'
  refl _ h := h
  trans hab hbc h := hbc (hab h)

/-- The frame of a quantity that never changes. -/
def fixing {γ : Type} (f : σ → γ) : Frame σ where
  rel s s' := f s' = f s
  refl _ := rfl
  trans hab hbc := hbc.trans hab

variable {F : Frame σ}

/-- A computation that stays within a frame stays within every larger one. -/
theorem Holds.mono {G : Frame σ} {m : Comp σ ε α} (h : F.Holds m)
    (hFG : ∀ s s', F.rel s s' → G.rel s s') : G.Holds m := fun s => hFG _ _ (h s)

theorem holds_pure (a : α) : F.Holds (pure a : Comp σ ε α) := fun s => F.refl s

theorem holds_throw (e : ε) : F.Holds (throw e : Comp σ ε α) := fun s => F.refl s

theorem holds_get : F.Holds (get : Comp σ ε σ) := fun s => F.refl s

theorem holds_modify {f : σ → σ} (h : ∀ s, F.rel s (f s)) :
    F.Holds (modify f : Comp σ ε PUnit) := h

theorem holds_bind {m : Comp σ ε α} {f : α → Comp σ ε β} (hm : F.Holds m)
    (hf : ∀ a, F.Holds (f a)) : F.Holds (m >>= f) := by
  intro s
  have hms := hm s
  rcases h : exec m s with ⟨e | a, s'⟩ <;> rw [h] at hms
  · rw [exec_bind_of_error h]
    exact hms
  · rw [exec_bind_of_ok h]
    exact F.trans hms (hf a s')

theorem holds_get_bind {f : σ → Comp σ ε β} (hf : ∀ s, F.rel s (exec (f s) s).2) :
    F.Holds (get >>= f) := hf

theorem holds_foldlM {f : β → α → Comp σ ε β} (xs : List α) (b : β)
    (hf : ∀ b, ∀ x ∈ xs, F.Holds (f b x)) : F.Holds (xs.foldlM f b) := by
  induction xs generalizing b with
  | nil => exact holds_pure b
  | cons x xs ih =>
    rw [List.foldlM_cons]
    exact holds_bind (hf b x (by simp)) fun b' => ih b' fun b y hy => hf b y (by simp [hy])

theorem holds_forM {f : α → Comp σ ε PUnit} (xs : List α) (hf : ∀ x ∈ xs, F.Holds (f x)) :
    F.Holds (xs.forM f) := by
  induction xs with
  | nil => exact holds_pure PUnit.unit
  | cons x xs ih =>
    exact holds_bind (hf x (by simp)) fun _ => ih fun y hy => hf y (by simp [hy])

theorem holds_ite {p : Prop} [Decidable p] {m₁ m₂ : Comp σ ε α} (h₁ : p → F.Holds m₁)
    (h₂ : ¬ p → F.Holds m₂) : F.Holds (if p then m₁ else m₂) := by
  split
  · exact h₁ ‹_›
  · exact h₂ ‹_›

theorem Holds.rel_of_returns {m : Comp σ ε α} (h : F.Holds m) {s s' : σ} {a : α}
    (hr : Returns m s a s') : F.rel s s' := by
  have hs := h s
  rw [show exec m s = _ from hr] at hs
  exact hs

theorem holds_when {p : Bool} {m : Comp σ ε PUnit} (h : p = true → F.Holds m) :
    F.Holds (when p m) := by
  cases p with
  | false => exact holds_pure _
  | true => exact h rfl

theorem holds_tryCatch {m : Comp σ ε α} {f : ε → Comp σ ε α} (hm : F.Holds m)
    (hf : ∀ e, F.Holds (f e)) : F.Holds (tryCatch m f) := by
  intro s
  have hms := hm s
  rw [exec_tryCatch]
  rcases h : exec m s with ⟨e | a, s'⟩ <;> rw [h] at hms
  · exact F.trans hms (hf e s')
  · exact hms

/-- What the first part of a computation returns, started in a state of the invariant, can be used for
the second part. -/
theorem keeping_bind {I : σ → Prop} {m : Comp σ ε α} {f : α → Comp σ ε β}
    (hm : (keeping I).Holds m)
    (hf : ∀ a s s', I s → Returns m s a s' → I s' → I (exec (f a) s').2) :
    (keeping I).Holds (m >>= f) := by
  intro s hs
  have hms := hm s hs
  rcases h : exec m s with ⟨e | a, s'⟩ <;> rw [h] at hms
  · rw [exec_bind_of_error h]
    exact hms
  · rw [exec_bind_of_ok h]
    exact hf a s s' hs h hms

/-- Started in a state of `P`, the computation returns in one of `Q` or raises in one of `E`. -/
def Ends (P : σ → Prop) (m : Comp σ ε α) (Q E : σ → Prop) : Prop :=
  ∀ s, P s → (∀ a s', exec m s = (.ok a, s') → Q s') ∧ ∀ e s', exec m s = (.error e, s') → E s'

theorem Ends.bind {P Q R E : σ → Prop} {m : Comp σ ε α} {f : α → Comp σ ε β} (hm : Ends P m Q E)
    (hf : ∀ a, Ends Q (f a) R E) : Ends P (m >>= f) R E := by
  intro s hs
  obtain ⟨hok, herror⟩ := hm s hs
  rcases h : exec m s with ⟨e | a, s'⟩
  · rw [exec_bind_of_error h]
    refine ⟨fun b s'' hb => (by cases hb), fun e' s'' he => ?_⟩
    cases he
    exact herror e s' h
  · rw [exec_bind_of_ok h]
    exact hf a s' (hok a s' h)

/-- However it ends, it ends in `Q`. -/
theorem Ends.of_exec {P Q E : σ → Prop} {m : Comp σ ε α} (h : ∀ s, P s → Q (exec m s).2)
    (hE : ∀ s, Q s → E s) : Ends P m Q E := by
  intro s hs
  have hends := h s hs
  refine ⟨fun a s' ha => ?_, fun e s' he => hE s' ?_⟩
  · rw [ha] at hends
    exact hends
  · rw [he] at hends
    exact hends

theorem Ends.of_keeping {P E : σ → Prop} {m : Comp σ ε α} (h : (keeping P).Holds m)
    (hE : ∀ s, P s → E s) : Ends P m P E := .of_exec h hE

/-! ### Computations that return -/

/-- The computation stays within the frame when it returns. -/
def OnReturn (F : Frame σ) (m : Comp σ ε α) : Prop := ∀ s a s', Returns m s a s' → F.rel s s'

theorem Holds.onReturn {m : Comp σ ε α} (h : F.Holds m) : F.OnReturn m := fun _ _ _ hr =>
  h.rel_of_returns hr

theorem OnReturn.bind {m : Comp σ ε α} {f : α → Comp σ ε β} (hm : F.OnReturn m)
    (hf : ∀ a, F.OnReturn (f a)) : F.OnReturn (m >>= f) := by
  intro s b s'' h
  obtain ⟨a, s', ha, hb⟩ := returns_bind.mp h
  exact F.trans (hm s a s' ha) (hf a s' b s'' hb)

theorem onReturn_pure (a : α) : F.OnReturn (pure a : Comp σ ε α) := (holds_pure a).onReturn

theorem onReturn_throw (e : ε) : F.OnReturn (throw e : Comp σ ε α) := (holds_throw e).onReturn

theorem onReturn_get : F.OnReturn (get : Comp σ ε σ) := holds_get.onReturn

theorem onReturn_modify {f : σ → σ} (h : ∀ s, F.rel s (f s)) :
    F.OnReturn (modify f : Comp σ ε PUnit) := (holds_modify h).onReturn

theorem onReturn_when {p : Bool} {m : Comp σ ε PUnit} (h : p = true → F.OnReturn m) :
    F.OnReturn (when p m) := by
  cases p with
  | false => exact onReturn_pure _
  | true => exact h rfl

theorem onReturn_forM {f : α → Comp σ ε PUnit} (xs : List α) (hf : ∀ x ∈ xs, F.OnReturn (f x)) :
    F.OnReturn (xs.forM f) := by
  induction xs with
  | nil => exact onReturn_pure PUnit.unit
  | cons x xs ih =>
    exact OnReturn.bind (hf x (by simp)) fun _ => ih fun y hy => hf y (by simp [hy])

end Frame

/-! ## Computations that raise before they change anything -/

/-- An exception leaves the state as it was. -/
def FailsUnchanged (m : Comp σ ε α) : Prop := ∀ s e s', exec m s = (.error e, s') → s' = s

/-- The computation only reads the state. -/
def ReadsOnly (m : Comp σ ε α) : Prop := ∀ s, (exec m s).2 = s

theorem readsOnly_pure (a : α) : ReadsOnly (pure a : Comp σ ε α) := fun _ => rfl

theorem readsOnly_throw (e : ε) : ReadsOnly (throw e : Comp σ ε α) := fun _ => rfl

theorem readsOnly_get : ReadsOnly (get : Comp σ ε σ) := fun _ => rfl

/-- A handler that changes nothing leaves the state of the computation. -/
theorem exec_tryCatch_snd {m : Comp σ ε α} {f : ε → Comp σ ε α} (hf : ∀ e, ReadsOnly (f e)) (s : σ) :
    (exec (tryCatch m f) s).2 = (exec m s).2 := by
  rw [exec_tryCatch]
  rcases exec m s with ⟨e | a, s'⟩
  · exact hf e s'
  · rfl

theorem ReadsOnly.bind {m : Comp σ ε α} {f : α → Comp σ ε β} (hm : ReadsOnly m)
    (hf : ∀ a, ReadsOnly (f a)) : ReadsOnly (m >>= f) := by
  intro s
  have hms := hm s
  rcases h : exec m s with ⟨e | a, t⟩ <;> rw [h] at hms <;> subst hms
  · rw [exec_bind_of_error h]
  · rw [exec_bind_of_ok h]
    exact hf a t

theorem ReadsOnly.forM {f : α → Comp σ ε PUnit} (hf : ∀ x, ReadsOnly (f x)) (xs : List α) :
    ReadsOnly (xs.forM f) := by
  induction xs with
  | nil => exact readsOnly_pure _
  | cons x xs ih => exact ReadsOnly.bind (hf x) fun _ => ih

theorem ReadsOnly.eq_of_returns {m : Comp σ ε α} (h : ReadsOnly m) {s s' : σ} {a : α}
    (hr : Returns m s a s') : s' = s := by
  have hs := h s
  rw [show exec m s = _ from hr] at hs
  exact hs

theorem ReadsOnly.failsUnchanged {m : Comp σ ε α} (h : ReadsOnly m) : FailsUnchanged m := by
  intro s e s' he
  have hs := h s
  rw [he] at hs
  exact hs

theorem failsUnchanged_modify (f : σ → σ) : FailsUnchanged (modify f : Comp σ ε PUnit) := by
  intro s e s' h
  cases h

theorem failsUnchanged_set (t : σ) : FailsUnchanged (set t : Comp σ ε PUnit) := by
  intro s e s' h
  cases h

/-- Checks come before changes. -/
theorem ReadsOnly.bind_failsUnchanged {m : Comp σ ε α} {f : α → Comp σ ε β} (hm : ReadsOnly m)
    (hf : ∀ a, FailsUnchanged (f a)) : FailsUnchanged (m >>= f) := by
  intro s e s' h
  have hms := hm s
  rcases hexec : exec m s with ⟨e' | a, t⟩ <;> rw [hexec] at hms <;> subst hms
  · rw [exec_bind_of_error hexec] at h
    cases h
    rfl
  · rw [exec_bind_of_ok hexec] at h
    exact hf a t e s' h

/-! ## Computations that always return -/

/-- The computation raises in no state. -/
def Total (m : Comp σ ε α) : Prop := ∀ s, ∃ a s', Returns m s a s'

theorem total_pure (a : α) : Total (pure a : Comp σ ε α) := fun s => ⟨a, s, rfl⟩

theorem Total.bind {m : Comp σ ε α} {f : α → Comp σ ε β} (hm : Total m) (hf : ∀ a, Total (f a)) :
    Total (m >>= f) := by
  intro s
  obtain ⟨a, s', hr⟩ := hm s
  obtain ⟨b, s'', hr'⟩ := hf a s'
  exact ⟨b, s'', hr.bind hr'⟩

theorem total_get_bind {f : σ → Comp σ ε β} (hf : ∀ s, ∃ b s', Returns (f s) s b s') :
    Total (get >>= f) := by
  intro s
  obtain ⟨b, s', hr⟩ := hf s
  exact ⟨b, s', returns_get_bind.mpr hr⟩

theorem total_ite {p : Prop} [Decidable p] {m m' : Comp σ ε α} (h : Total m) (h' : Total m') :
    Total (if p then m else m') := by
  by_cases hp : p
  · rw [if_pos hp]
    exact h
  · rw [if_neg hp]
    exact h'

theorem total_forM {f : α → Comp σ ε PUnit} (xs : List α) (hf : ∀ x, Total (f x)) :
    Total (xs.forM f) := by
  induction xs with
  | nil => exact total_pure _
  | cons x xs ih => exact (hf x).bind fun _ => ih

theorem total_foldlM {f : β → α → Comp σ ε β} (xs : List α) (b : β) (hf : ∀ b x, Total (f b x)) :
    Total (xs.foldlM f b) := by
  induction xs generalizing b with
  | nil => exact total_pure _
  | cons x xs ih =>
    rw [List.foldlM_cons]
    exact (hf b x).bind ih

end Stateful
