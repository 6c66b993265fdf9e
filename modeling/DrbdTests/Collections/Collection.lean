import DrbdTests.Collections.OrderedSet

/-!
# `Collection`

`drbdtest.Collection` and its subclasses hold members of one resource in an `OrderedSet`.
The class of the members is their Lean type; `resource` reads the resource of a member.
The operations that grow a collection first assert that all members belong to the
resource of the members already present.
-/

namespace DrbdTests.Collection

section

variable {α ρ : Type} [DecidableEq ρ] (resource : α → ρ)

/-- `same_resource` -/
def sameResource (self : OrderedSet α) (members : List α) : Bool :=
  match self.items with
  | first :: _ => members.all fun member => resource member = resource first
  | [] =>
    match members with
    | [] => true
    | member :: rest => rest.all fun other => resource other = resource member

theorem sameResource_of_forall {resource : α → ρ} {self : OrderedSet α} {members : List α} {r : ρ}
    (hself : ∀ a ∈ self, resource a = r) (hmembers : ∀ a ∈ members, resource a = r) :
    sameResource resource self members := by
  unfold sameResource
  split
  · rename_i first rest h
    have hfirst : resource first = r := hself first (by simp [OrderedSet.mem_def, h])
    simpa [hfirst] using hmembers
  · split
    · rfl
    · rename_i member rest
      simp only [List.all_eq_true, decide_eq_true_eq]
      intro other hother
      rw [hmembers other (by simp [hother]), hmembers member (by simp)]

variable [DecidableEq α]

/-- `add` -/
def add (self : OrderedSet α) (member : α) : Except PyError (OrderedSet α) :=
  if sameResource resource self [member] then .ok (self.add member) else .error .assertionError

/-- `remove`: removing an absent member does nothing. -/
def remove (self : OrderedSet α) (member : α) : Except PyError (OrderedSet α) :=
  if sameResource resource self [member] then
    if member ∈ self then self.remove member else .ok self
  else .error .assertionError

/-- `extend`: the assertion is made once for each new member. -/
def extend (self : OrderedSet α) (members : List α) : Except PyError (OrderedSet α) :=
  if members = [] ∨ sameResource resource self members then .ok (self.update members)
  else .error .assertionError

/-- `Collection.property`: the union of the values of all members. -/
def property {β : Type} (self : OrderedSet β) (values : β → Except PyError (OrderedSet α)) :
    Except PyError (OrderedSet α) :=
  self.items.foldlM (fun result member => do extend resource result (← values member).items)
    OrderedSet.empty

variable {resource}

theorem add_eq_ok {self s : OrderedSet α} {member : α} (h : add resource self member = .ok s) :
    s = self.add member := by
  unfold add at h
  split at h
  · exact (Except.ok.inj h).symm
  · cases h

theorem remove_eq_ok {self s : OrderedSet α} {member : α}
    (h : remove resource self member = .ok s) : s = self.discard member := by
  unfold remove OrderedSet.remove at h
  split at h
  · split at h
    · exact (Except.ok.inj h).symm
    · rename_i hmem
      rw [OrderedSet.discard_of_not_mem hmem]
      exact (Except.ok.inj h).symm
  · cases h

theorem extend_ok {self : OrderedSet α} {members : List α} {r : ρ}
    (hself : ∀ a ∈ self, resource a = r) (hmembers : ∀ a ∈ members, resource a = r) :
    extend resource self members = .ok (self.update members) :=
  if_pos (Or.inr (sameResource_of_forall hself hmembers))

end

/-! ## Loops that add to a collection -/

section

variable {α β ρ : Type} {resource : α → ρ} {a : ρ}

/-- To a collection of members of one resource, the statement adds exactly the members with a
property. -/
def Adds (resource : α → ρ) (a : ρ) (m : OrderedSet α → Except PyError (OrderedSet α))
    (P : α → Prop) : Prop :=
  ∀ acc : OrderedSet α, (∀ x ∈ acc, resource x = a) → ∃ s, m acc = .ok s ∧
    (∀ x ∈ s, resource x = a) ∧ ∀ x, x ∈ s ↔ x ∈ acc ∨ P x

theorem adds_nothing : Adds resource a .ok fun _ => False := by
  intro acc hacc
  exact ⟨acc, rfl, hacc, by simp⟩

theorem adds_add [DecidableEq α] [DecidableEq ρ] {member : α} (h : resource member = a) :
    Adds resource a (fun acc => Collection.add resource acc member) fun x => x = member := by
  intro acc hacc
  refine ⟨acc.add member, if_pos (sameResource_of_forall hacc (by simpa using h)), ?_, ?_⟩
  · intro x hx
    rcases OrderedSet.mem_add.mp hx with hx | rfl
    · exact hacc x hx
    · exact h
  · exact fun x => OrderedSet.mem_add

theorem adds_extend [DecidableEq α] [DecidableEq ρ] {members : List α}
    (h : ∀ x ∈ members, resource x = a) :
    Adds resource a (fun acc => extend resource acc members) fun x => x ∈ members := by
  intro acc hacc
  refine ⟨acc.update members, extend_ok hacc h, ?_, fun x => OrderedSet.mem_update⟩
  intro x hx
  rcases OrderedSet.mem_update.mp hx with hx | hx
  · exact hacc x hx
  · exact h x hx

theorem adds_foldlM {m : OrderedSet α → β → Except PyError (OrderedSet α)} {P : β → α → Prop}
    (xs : List β) (h : ∀ x ∈ xs, Adds resource a (fun acc => m acc x) (P x)) :
    Adds resource a (fun acc => xs.foldlM m acc) fun y => ∃ x ∈ xs, P x y := by
  induction xs with
  | nil =>
    intro acc hacc
    exact ⟨acc, rfl, hacc, by simp⟩
  | cons x xs ih =>
    intro acc hacc
    obtain ⟨s, hs, hown, hmem⟩ := h x List.mem_cons_self acc hacc
    obtain ⟨s', hs', hown', hmem'⟩ := ih (fun y hy => h y (List.mem_cons_of_mem _ hy)) s hown
    refine ⟨s', ?_, hown', fun y => ?_⟩
    · change (x :: xs).foldlM m acc = _
      rw [List.foldlM_cons, show m acc x = .ok s from hs]
      exact hs'
    · rw [hmem', hmem, or_assoc]
      simp

theorem Adds.congr {m : OrderedSet α → Except PyError (OrderedSet α)} {P Q : α → Prop}
    (h : Adds resource a m P) (hPQ : ∀ x, P x ↔ Q x) : Adds resource a m Q := by
  intro acc hacc
  obtain ⟨s, hs, hown, hmem⟩ := h acc hacc
  exact ⟨s, hs, hown, fun x => by rw [hmem, hPQ]⟩

theorem adds_ite {c : Prop} [Decidable c] {m : OrderedSet α → Except PyError (OrderedSet α)}
    {P : α → Prop} (h : c → Adds resource a m P) :
    Adds resource a (fun acc => if c then m acc else .ok acc) fun x => c ∧ P x := by
  by_cases hc : c
  · simp only [if_pos hc]
    exact (h hc).congr fun x => (and_iff_right hc).symm
  · simp only [if_neg hc]
    exact adds_nothing.congr fun x => by simp [hc]

/-- When all values belong to one resource, the property is their union. -/
theorem property_ok [DecidableEq α] [DecidableEq ρ] (resource : α → ρ) (self : OrderedSet β)
    (values : β → Except PyError (OrderedSet α)) (value : β → OrderedSet α) (r : ρ)
    (hvalues : ∀ b ∈ self, values b = .ok (value b))
    (hr : ∀ b ∈ self, ∀ a ∈ value b, resource a = r) :
    ∃ s, property resource self values = .ok s ∧ ∀ a, a ∈ s ↔ ∃ b ∈ self, a ∈ value b := by
  have hvalue : ∀ b ∈ self, Adds resource r
      (fun result => do extend resource result (← values b).items) fun a => a ∈ value b := by
    intro b hb
    rw [hvalues b hb]
    exact adds_extend (hr b hb)
  obtain ⟨s, hs, -, hmem⟩ := adds_foldlM self.items hvalue OrderedSet.empty (by simp)
  refine ⟨s, hs, fun a => ?_⟩
  rw [hmem]
  simp [OrderedSet.mem_def]

end

end DrbdTests.Collection
