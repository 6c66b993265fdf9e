import Mathlib.Data.List.Basic

/-!
# Bracketed text

A text over an alphabet with one opening and one closing symbol. Its bracket structure is
a `Body`: groups, each with the text in front of its opening symbol (its header) and the
body between its symbols, and a last piece of text.

* `parse` reads the structure of a text, or fails when the brackets do not balance. It
  reads from the right, so it is a `foldr` over a stack of bodies under construction.
* `unparse` writes a body out; `unparse_of_parse`: reading loses nothing, so the structure
  of a text determines the text.
* `Scans t f` says what reading a piece of text does to the body on top of the stack. The
  pieces of a larger text compose (`Scans.append`), and `Scans.parse` reads the result off.
-/

namespace Braces

variable {α : Type}

/-- Either only text is left, or the next group and what follows it. -/
inductive Body (α : Type)
  | done (text : List α)
  | group (header : List α) (inner rest : Body α)
  deriving DecidableEq, Repr

namespace Body

/-- Put text in front of a body. -/
def prepend (t : List α) : Body α → Body α
  | done text => done (t ++ text)
  | group header inner rest => group (t ++ header) inner rest

@[simp] theorem prepend_nil (b : Body α) : b.prepend [] = b := by cases b <;> rfl

theorem prepend_prepend (s t : List α) (b : Body α) :
    (b.prepend t).prepend s = b.prepend (s ++ t) := by
  cases b <;> simp [prepend]

/-- The groups of a body, each with its header and its own body. -/
def groups : Body α → List (List α × Body α)
  | done _ => []
  | group header inner rest => (header, inner) :: rest.groups

/-- The body made of a first text, groups with the text `gap` after each of them, and a
last text. -/
def ofGroups (lead gap : List α) : List (List α × Body α) → List α → Body α
  | [], tail => done (lead ++ tail)
  | (header, inner) :: rest, tail => group (lead ++ header) inner (ofGroups gap gap rest tail)

theorem prepend_ofGroups (s lead gap : List α) (l : List (List α × Body α)) (tail : List α) :
    (ofGroups lead gap l tail).prepend s = ofGroups (s ++ lead) gap l tail := by
  cases l with
  | nil => simp [ofGroups, prepend]
  | cons p l => simp [ofGroups, prepend]

end Body

open Body

variable (op cl : α)

/-- Write a body out. -/
def unparse : Body α → List α
  | done text => text
  | group header inner rest => header ++ op :: (unparse inner ++ cl :: unparse rest)

theorem unparse_prepend (t : List α) (b : Body α) :
    unparse op cl (b.prepend t) = t ++ unparse op cl b := by
  cases b <;> simp [prepend, unparse]

/-- What a stack of open bodies stands for: every body but the last was opened by a
closing symbol. -/
def unparseStack : List (Body α) → List α
  | [] => []
  | [b] => unparse op cl b
  | b :: b' :: stack => unparse op cl b ++ cl :: unparseStack (b' :: stack)

theorem unparseStack_cons (b : Body α) (stack : List (Body α)) :
    unparseStack op cl (b :: stack) =
      unparse op cl b ++ (match stack with | [] => [] | _ => cl :: unparseStack op cl stack) := by
  cases stack <;> simp [unparseStack]

variable [DecidableEq α]

/-- Read one symbol, from the right: the stack holds the bodies that are still open. -/
def step (c : α) : Option (List (Body α)) → Option (List (Body α))
  | some (b :: stack) =>
    if c = cl then some (done [] :: b :: stack)
    else if c = op then
      match stack with
      | rest :: stack => some (group [] b rest :: stack)
      | [] => none
    else some (b.prepend [c] :: stack)
  | _ => none

/-- The bracket structure of a text, if its brackets balance. -/
def parse (text : List α) : Option (Body α) :=
  match text.foldr (step op cl) (some [done []]) with
  | some [b] => some b
  | _ => none

theorem unparseStack_of_foldr {text : List α} {stack : List (Body α)}
    (h : text.foldr (step op cl) (some [done []]) = some stack) :
    unparseStack op cl stack = text := by
  induction text generalizing stack with
  | nil =>
    cases h
    rfl
  | cons c text ih =>
    rw [List.foldr_cons] at h
    generalize text.foldr (step op cl) (some [done []]) = state at h ih
    match state with
    | none => cases h
    | some [] => cases h
    | some (b :: rest) =>
      have hrest := ih rfl
      unfold step at h
      split_ifs at h with hcl hop
      · -- a closing symbol starts a new body
        cases h
        subst hcl
        simpa [unparseStack, unparse] using hrest
      · -- an opening symbol completes the group on top of the stack
        subst hop
        cases rest with
        | nil => cases h
        | cons b' rest =>
          cases h
          rw [unparseStack_cons] at hrest ⊢
          rw [← hrest]
          cases rest <;> simp [unparse, unparseStack]
      · cases h
        rw [unparseStack_cons, unparse_prepend, List.append_assoc, ← unparseStack_cons, hrest]
        rfl

/-- The structure of a text determines the text. -/
theorem unparse_of_parse {text : List α} {b : Body α} (h : parse op cl text = some b) :
    unparse op cl b = text := by
  unfold parse at h
  split at h
  · rename_i b' hb
    cases h
    exact unparseStack_of_foldr op cl hb
  · cases h

/-- What reading the text `t` does to the body on top of the stack. -/
def Scans (t : List α) (f : Body α → Body α) : Prop :=
  ∀ b stack, t.foldr (step op cl) (some (b :: stack)) = some (f b :: stack)

variable {op cl}

theorem Scans.parse {t : List α} {f : Body α → Body α} (h : Scans op cl t f) :
    parse op cl t = some (f (done [])) := by
  rw [Braces.parse, h]

theorem scans_nil : Scans op cl [] fun b => b := fun _ _ => rfl

theorem Scans.append {s t : List α} {f g : Body α → Body α} (hs : Scans op cl s f)
    (ht : Scans op cl t g) : Scans op cl (s ++ t) fun b => f (g b) := by
  intro b stack
  rw [List.foldr_append, ht, hs]

/-- Text without brackets goes in front of the body. -/
theorem scans_text {t : List α} (h : ∀ c ∈ t, c ≠ op ∧ c ≠ cl) :
    Scans op cl t fun b => b.prepend t := by
  intro b stack
  induction t with
  | nil => simp
  | cons c t ih =>
    have hc := h c (by simp)
    rw [List.foldr_cons, ih fun d hd => h d (by simp [hd])]
    simp [step, hc.1, hc.2, prepend_prepend]

/-- A text between brackets becomes a group in front of the body. -/
theorem scans_group {t : List α} {f : Body α → Body α} (hne : op ≠ cl) (h : Scans op cl t f) :
    Scans op cl (op :: (t ++ [cl])) fun b => group [] (f (done [])) b := by
  intro b stack
  have hcl : step op cl cl (some (b :: stack)) = some (done [] :: b :: stack) := by simp [step]
  rw [List.foldr_cons, List.foldr_append, List.foldr_cons, List.foldr_nil, hcl, h]
  simp [step, hne]

end Braces
