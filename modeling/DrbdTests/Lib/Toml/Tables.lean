import DrbdTests.Lib.Toml.Reader
import Mathlib.Data.List.Basic
import Mathlib.Logic.Function.Basic

/-!
# The tables of a TOML document

A document gives an item to each path of keys, and of positions in arrays of tables. Its
statements are executed in order. What a path is defined to be stays (`execute_kept`): no key is
assigned twice, and no table is defined twice.
-/

namespace Toml

inductive Step
  | key (key : Key)
  | element (i : Nat)
  deriving DecidableEq

abbrev Path := List Step

inductive Item
  | value (value : Value)
  /-- A table that has its own header. -/
  | table
  /-- A table that is named in front of another one in a header. -/
  | super
  /-- A table that is defined by a dotted key. -/
  | dotted
  /-- An array of tables. -/
  | tables (n : Nat)

def Item.IsTable : Item → Prop
  | .table | .super | .dotted => True
  | .value _ | .tables _ => False

abbrev Items := Path → Option Item

structure State where
  items : Items
  /-- The table of the last header. -/
  current : Path

/-- The table in front of the last key of a header. -/
def descend : List Key → Items → Path → Option (Items × Path)
  | [], items, path => some (items, path)
  | key :: keys, items, path =>
    let next := path ++ [Step.key key]
    match items next with
    | none => descend keys (Function.update items next (some .super)) next
    | some (.value _) => none
    | some (.tables n) => descend keys items (next ++ [Step.element (n - 1)])
    | some _ => descend keys items next

/-- The table in front of the last key of an assignment. A table that has its own header cannot
be extended. -/
def descendDotted : List Key → Items → Path → Option (Items × Path)
  | [], items, path => some (items, path)
  | key :: keys, items, path =>
    let next := path ++ [Step.key key]
    match items next with
    | none | some .super => descendDotted keys (Function.update items next (some .dotted)) next
    | some .dotted => descendDotted keys items next
    | some _ => none

def addTable (items : Items) (next : Path) : Option State :=
  match items next with
  | none | some .super => some ⟨Function.update items next (some .table), next⟩
  | some _ => none

def addElement (items : Items) (next : Path) (n : Nat) : State :=
  ⟨Function.update (Function.update items next (some (.tables (n + 1))))
    (next ++ [Step.element n]) (some .table), next ++ [Step.element n]⟩

def addTables (items : Items) (next : Path) : Option State :=
  match items next with
  | none => some (addElement items next 0)
  | some (.tables n) => some (addElement items next n)
  | some _ => none

def addValue (items : Items) (next : Path) (value : Value) : Option Items :=
  match items next with
  | none => some (Function.update items next (some (.value value)))
  | some _ => none

def step (state : State) (statement : Statement) : Option State := do
  let key ← statement.keys.getLast?
  let keys := statement.keys.dropLast
  match statement with
  | .table _ =>
    let (items, path) ← descend keys state.items []
    addTable items (path ++ [Step.key key])
  | .tables _ =>
    let (items, path) ← descend keys state.items []
    addTables items (path ++ [Step.key key])
  | .assign _ value =>
    let (items, path) ← descendDotted keys state.items state.current
    let items ← addValue items (path ++ [Step.key key]) value
    return ⟨items, state.current⟩

def execute (statements : List Statement) (state : State) : Option State :=
  statements.foldlM step state

def State.start : State := ⟨fun _ => none, []⟩

/-- The items of a document. -/
def document (other : List Char → Option (Value × List Char)) (text : List Char) :
    Option Items := do
  let statements ← readStatements other text.length text
  let state ← execute statements .start
  return state.items

variable {items items' : Items} {path path' p : Path} {keys : List Key} {state state' : State}
  {statement : Statement}

theorem document_eq_some {other : List Char → Option (Value × List Char)} {text : List Char} :
    document other text = some items ↔ ∃ statements state,
      readStatements other text.length text = some statements ∧
        execute statements .start = some state ∧ state.items = items := by
  unfold document
  constructor
  · intro h
    obtain ⟨statements, hread, h⟩ := Option.bind_eq_some_iff.mp h
    obtain ⟨state, hexecute, h⟩ := Option.bind_eq_some_iff.mp h
    exact ⟨statements, state, hread, hexecute, Option.some.inj h⟩
  · rintro ⟨statements, state, hread, hexecute, rfl⟩
    rw [hread]
    change (execute statements .start).bind _ = _
    rw [hexecute]
    rfl

/-! ## What stays -/

/-- An item that no statement changes. -/
def Item.Fixed : Item → Prop
  | .value _ | .table | .dotted => True
  | .super | .tables _ => False

/-- What a key is defined to be in `items` stays in `items'`. -/
def Kept (items items' : Items) : Prop :=
  ∀ p key item, Item.Fixed item → items (p ++ [Step.key key]) = some item →
    items' (p ++ [Step.key key]) = some item

theorem Kept.refl (items : Items) : Kept items items := fun _ _ _ _ h => h

theorem Kept.trans {items₁ items₂ items₃ : Items} (h₁ : Kept items₁ items₂)
    (h₂ : Kept items₂ items₃) : Kept items₁ items₃ :=
  fun p key item hfixed h => h₂ p key item hfixed (h₁ p key item hfixed h)

theorem kept_update {item : Item} (h : ∀ old, items path = some old → ¬ old.Fixed) :
    Kept items (Function.update items path (some item)) := by
  intro p key old hfixed hold
  have hne : p ++ [Step.key key] ≠ path := by
    rintro rfl
    exact h old hold hfixed
  rw [Function.update_of_ne hne, hold]

theorem kept_descend (h : descend keys items path = some (items', path')) : Kept items items' := by
  induction keys generalizing items path with
  | nil =>
    cases h
    exact Kept.refl _
  | cons key keys ih =>
    rw [descend] at h
    split at h
    · next hnone =>
      refine (kept_update ?_).trans (ih h)
      intro old hold
      rw [hnone] at hold
      cases hold
    · cases h
    · exact ih h
    · exact ih h

theorem kept_descendDotted (h : descendDotted keys items path = some (items', path')) :
    Kept items items' := by
  induction keys generalizing items path with
  | nil =>
    cases h
    exact Kept.refl _
  | cons key keys ih =>
    rw [descendDotted] at h
    split at h
    · next hnone =>
      refine (kept_update ?_).trans (ih h)
      intro old hold
      rw [hnone] at hold
      cases hold
    · next hsuper =>
      refine (kept_update ?_).trans (ih h)
      intro old hold
      rw [hsuper] at hold
      cases hold
      exact id
    · exact ih h
    · cases h

theorem kept_addTable (h : addTable items path = some state) : Kept items state.items := by
  unfold addTable at h
  split at h
  · next hnone =>
    cases h
    apply kept_update
    intro old hold
    rw [hnone] at hold
    cases hold
  · next hsuper =>
    cases h
    apply kept_update
    intro old hold
    rw [hsuper] at hold
    cases hold
    exact id
  · cases h

theorem kept_addValue {value : Value} (h : addValue items path value = some items') :
    Kept items items' := by
  unfold addValue at h
  split at h
  · next hnone =>
    cases h
    apply kept_update
    intro old hold
    rw [hnone] at hold
    cases hold
  · cases h

theorem append_element_ne (path p : Path) (n : Nat) (key : Key) :
    p ++ [Step.key key] ≠ path ++ [Step.element n] := by
  intro h
  have hlast := congrArg List.getLast? h
  rw [List.getLast?_concat, List.getLast?_concat] at hlast
  cases hlast

theorem kept_addElement {n : Nat} (h : ∀ old, items path = some old → ¬ old.Fixed) :
    Kept items (addElement items path n).items := by
  have hnext : Kept items (Function.update items path (some (.tables (n + 1)))) := kept_update h
  refine hnext.trans ?_
  intro p key old _ hold
  change Function.update _ _ _ _ = _
  rw [Function.update_of_ne (append_element_ne path p n key), hold]

theorem kept_addTables (h : addTables items path = some state) : Kept items state.items := by
  unfold addTables at h
  split at h
  · next hnone =>
    cases h
    apply kept_addElement
    intro old hold
    rw [hnone] at hold
    cases hold
  · next hsome =>
    cases h
    apply kept_addElement
    intro old hold
    rw [hsome] at hold
    cases hold
    exact id
  · cases h

/-! ## Steps -/

/-- What a step does. -/
theorem step_cases (h : step state statement = some state') :
    ∃ front last, statement.keys = front ++ [last] ∧
      ((∃ keys items path, statement = .table keys ∧
        descend front state.items [] = some (items, path) ∧
        addTable items (path ++ [Step.key last]) = some state') ∨
      (∃ keys items path, statement = .tables keys ∧
        descend front state.items [] = some (items, path) ∧
        addTables items (path ++ [Step.key last]) = some state') ∨
      (∃ keys value items path items', statement = .assign keys value ∧
        descendDotted front state.items state.current = some (items, path) ∧
        addValue items (path ++ [Step.key last]) value = some items' ∧
        state' = ⟨items', state.current⟩)) := by
  unfold step at h
  obtain ⟨last, hlast, h⟩ := Option.bind_eq_some_iff.mp h
  refine ⟨statement.keys.dropLast, last, ?_, ?_⟩
  · exact (List.dropLast_append_getLast? _ hlast).symm
  cases statement with
  | table keys =>
    obtain ⟨⟨items, path⟩, hdescend, h⟩ := Option.bind_eq_some_iff.mp h
    exact Or.inl ⟨keys, items, path, rfl, hdescend, h⟩
  | tables keys =>
    obtain ⟨⟨items, path⟩, hdescend, h⟩ := Option.bind_eq_some_iff.mp h
    exact Or.inr (Or.inl ⟨keys, items, path, rfl, hdescend, h⟩)
  | assign keys value =>
    obtain ⟨⟨items, path⟩, hdescend, h⟩ := Option.bind_eq_some_iff.mp h
    obtain ⟨items', hadd, h⟩ := Option.bind_eq_some_iff.mp h
    cases h
    exact Or.inr (Or.inr ⟨keys, value, items, path, items', rfl, hdescend, hadd, rfl⟩)

theorem kept_step (h : step state statement = some state') : Kept state.items state'.items := by
  obtain ⟨front, last, _, hkind⟩ := step_cases h
  rcases hkind with ⟨keys, items, path, _, hdescend, hadd⟩ |
    ⟨keys, items, path, _, hdescend, hadd⟩ |
    ⟨keys, value, items, path, items', _, hdescend, hadd, rfl⟩
  · exact (kept_descend hdescend).trans (kept_addTable hadd)
  · exact (kept_descend hdescend).trans (kept_addTables hadd)
  · exact (kept_descendDotted hdescend).trans (kept_addValue hadd)

theorem execute_cons {statements : List Statement} :
    execute (statement :: statements) state =
      (step state statement).bind (execute statements) := by
  rw [execute, List.foldlM_cons]
  rfl

theorem execute_append (front back : List Statement) (state : State) :
    execute (front ++ back) state = (execute front state).bind (execute back) := by
  rw [execute, List.foldlM_append]
  rfl

theorem kept_execute {statements : List Statement} (h : execute statements state = some state') :
    Kept state.items state'.items := by
  induction statements generalizing state with
  | nil =>
    cases h
    exact Kept.refl _
  | cons statement statements ih =>
    rw [execute_cons] at h
    obtain ⟨next, hstep, hrest⟩ := Option.bind_eq_some_iff.mp h
    exact (kept_step hstep).trans (ih hrest)

/-! ## Where keys come from -/

/-- The keys of a statement that name something inside of a table. -/
def Statement.subkeys : Statement → List Key
  | .table keys => keys.tail
  | .tables keys => keys.tail
  | .assign keys _ => keys

variable {key : Key}

theorem update_new {item : Item}
    (h : Function.update items path (some item) (p ++ [Step.key key]) ≠
      items (p ++ [Step.key key])) : p ++ [Step.key key] = path := by
  by_contra hne
  rw [Function.update_of_ne hne] at h
  exact h rfl

theorem descend_new (h : descend keys items path = some (items', path')) (hp : p ≠ [])
    (hnew : items' (p ++ [Step.key key]) ≠ items (p ++ [Step.key key])) :
    key ∈ keys ∧ (path = [] → key ∈ keys.tail) := by
  induction keys generalizing items path with
  | nil =>
    cases h
    exact absurd rfl hnew
  | cons first keys ih =>
    have hnext : path ++ [Step.key first] ≠ [] := by simp
    rw [descend] at h
    split at h
    · by_cases hsame : items' (p ++ [Step.key key]) =
          Function.update items (path ++ [Step.key first]) (some .super) (p ++ [Step.key key])
      · rw [hsame] at hnew
        obtain ⟨hpath, hkey⟩ := List.append_inj' (update_new hnew) rfl
        cases hkey
        exact ⟨List.mem_cons_self, fun hnil => absurd (hpath.trans hnil) hp⟩
      · have hmem := (ih h hsame).1
        exact ⟨List.mem_cons_of_mem _ hmem, fun _ => hmem⟩
    · cases h
    · have hmem := (ih h hnew).1
      exact ⟨List.mem_cons_of_mem _ hmem, fun _ => hmem⟩
    · have hmem := (ih h hnew).1
      exact ⟨List.mem_cons_of_mem _ hmem, fun _ => hmem⟩

theorem descendDotted_new (h : descendDotted keys items path = some (items', path'))
    (hnew : items' (p ++ [Step.key key]) ≠ items (p ++ [Step.key key])) : key ∈ keys := by
  induction keys generalizing items path with
  | nil =>
    cases h
    exact absurd rfl hnew
  | cons first keys ih =>
    have hupdate : descendDotted keys
        (Function.update items (path ++ [Step.key first]) (some .dotted))
        (path ++ [Step.key first]) = some (items', path') → key ∈ first :: keys := by
      intro h
      by_cases hsame : items' (p ++ [Step.key key]) =
          Function.update items (path ++ [Step.key first]) (some .dotted) (p ++ [Step.key key])
      · rw [hsame] at hnew
        cases (List.append_inj' (update_new hnew) rfl).2
        exact List.mem_cons_self
      · exact List.mem_cons_of_mem _ (ih h hsame)
    rw [descendDotted] at h
    split at h
    · exact hupdate h
    · exact hupdate h
    · exact List.mem_cons_of_mem _ (ih h hnew)
    · cases h

theorem addTable_new (h : addTable items path = some state)
    (hnew : state.items (p ++ [Step.key key]) ≠ items (p ++ [Step.key key])) :
    p ++ [Step.key key] = path := by
  unfold addTable at h
  split at h
  · cases h
    exact update_new hnew
  · cases h
    exact update_new hnew
  · cases h

theorem addElement_new {n : Nat} (hnew : (addElement items path n).items (p ++ [Step.key key]) ≠
    items (p ++ [Step.key key])) : p ++ [Step.key key] = path := by
  change Function.update _ _ _ _ ≠ _ at hnew
  rw [Function.update_of_ne (append_element_ne path p n key)] at hnew
  exact update_new hnew

theorem addTables_new (h : addTables items path = some state)
    (hnew : state.items (p ++ [Step.key key]) ≠ items (p ++ [Step.key key])) :
    p ++ [Step.key key] = path := by
  unfold addTables at h
  split at h
  · cases h
    exact addElement_new hnew
  · cases h
    exact addElement_new hnew
  · cases h

theorem addValue_new {value : Value} (h : addValue items path value = some items')
    (hnew : items' (p ++ [Step.key key]) ≠ items (p ++ [Step.key key])) :
    p ++ [Step.key key] = path := by
  unfold addValue at h
  split at h
  · cases h
    exact update_new hnew
  · cases h

/-- The last key of a header, whose table is not at the top. -/
theorem descend_last {front : List Key} {last : Key}
    (h : descend front items [] = some (items', path)) (hp : p ≠ [])
    (heq : p ++ [Step.key key] = path ++ [Step.key last]) : key ∈ (front ++ [last]).tail := by
  obtain ⟨hpath, hkey⟩ := List.append_inj' heq rfl
  cases hkey
  cases front with
  | nil =>
    cases h
    exact absurd hpath hp
  | cons first front =>
    change key ∈ front ++ [key]
    exact List.mem_append_right _ List.mem_cons_self

/-- What is new inside of a table is named by the statement. -/
theorem step_new (h : step state statement = some state') (hp : p ≠ [])
    (hnew : state'.items (p ++ [Step.key key]) ≠ state.items (p ++ [Step.key key])) :
    key ∈ statement.subkeys := by
  obtain ⟨front, last, hkeys, hkind⟩ := step_cases h
  have htail : ∀ {items : Items} {path : Path},
      descend front state.items [] = some (items, path) →
      items (p ++ [Step.key key]) ≠ state.items (p ++ [Step.key key]) →
      key ∈ (front ++ [last]).tail := by
    intro items path hdescend hitems
    have hmem := (descend_new hdescend hp hitems).2 rfl
    cases front with
    | nil => cases hmem
    | cons first front => exact List.mem_append_left _ hmem
  rcases hkind with ⟨keys, items, path, rfl, hdescend, hadd⟩ |
    ⟨keys, items, path, rfl, hdescend, hadd⟩ |
    ⟨keys, value, items, path, items', rfl, hdescend, hadd, rfl⟩
  · cases hkeys
    by_cases hsame : state'.items (p ++ [Step.key key]) = items (p ++ [Step.key key])
    · exact htail hdescend (hsame ▸ hnew)
    · exact descend_last hdescend hp (addTable_new hadd hsame)
  · cases hkeys
    by_cases hsame : state'.items (p ++ [Step.key key]) = items (p ++ [Step.key key])
    · exact htail hdescend (hsame ▸ hnew)
    · exact descend_last hdescend hp (addTables_new hadd hsame)
  · cases hkeys
    change items' (p ++ [Step.key key]) ≠ _ at hnew
    by_cases hsame : items' (p ++ [Step.key key]) = items (p ++ [Step.key key])
    · exact List.mem_append_left _ (descendDotted_new hdescend (hsame ▸ hnew))
    · cases (List.append_inj' (addValue_new hadd hsame) rfl).2
      exact List.mem_append_right _ List.mem_cons_self

theorem execute_new {statements : List Statement} (h : execute statements state = some state')
    (hp : p ≠ [])
    (hnew : state'.items (p ++ [Step.key key]) ≠ state.items (p ++ [Step.key key])) :
    ∃ statement ∈ statements, key ∈ statement.subkeys := by
  induction statements generalizing state with
  | nil =>
    cases h
    exact absurd rfl hnew
  | cons statement statements ih =>
    rw [execute_cons] at h
    obtain ⟨next, hstep, hrest⟩ := Option.bind_eq_some_iff.mp h
    by_cases hsame : state'.items (p ++ [Step.key key]) = next.items (p ++ [Step.key key])
    · exact ⟨statement, List.mem_cons_self, step_new hstep hp (hsame ▸ hnew)⟩
    · obtain ⟨other, hmem, hkey⟩ := ih hrest hsame
      exact ⟨other, List.mem_cons_of_mem _ hmem, hkey⟩

/-! ## What is defined -/

theorem descend_tables (h : ∀ front, front <+: keys → front ≠ [] →
    items (path ++ front.map .key) = some .table) :
    descend keys items path = some (items, path ++ keys.map .key) := by
  induction keys generalizing path with
  | nil => rw [descend, List.map_nil, List.append_nil]
  | cons key keys ih =>
    have hfirst : items (path ++ [Step.key key]) = some .table :=
      h [key] ⟨keys, rfl⟩ (List.cons_ne_nil _ _)
    have hmore : ∀ front, front <+: keys → front ≠ [] →
        items (path ++ [Step.key key] ++ front.map .key) = some .table := by
      intro front hfront _
      rw [List.append_assoc]
      exact h (key :: front) (List.cons_prefix_cons.mpr ⟨rfl, hfront⟩) (List.cons_ne_nil _ _)
    rw [descend]
    simp only [hfirst]
    rw [ih hmore, List.append_assoc]
    rfl

theorem step_table {front : List Key} {last : Key} (hfront : ∀ keys, keys <+: front → keys ≠ [] →
      state.items (keys.map .key) = some .table)
    (hnew : state.items (front.map .key ++ [Step.key last]) = none) :
    step state (.table (front ++ [last])) =
      some ⟨Function.update state.items (front.map .key ++ [Step.key last]) (some .table),
        front.map .key ++ [Step.key last]⟩ := by
  have hdescend : descend front state.items [] = some (state.items, front.map .key) :=
    descend_tables hfront
  unfold step
  simp only [Statement.keys, List.getLast?_concat, List.dropLast_concat]
  change (descend front state.items []).bind _ = _
  rw [hdescend]
  change addTable state.items (front.map .key ++ [Step.key last]) = _
  rw [addTable, hnew]

/-- The next element of an array of tables. -/
theorem step_tables {front : List Key} {last : Key} {n : Nat}
    (hfront : ∀ keys, keys <+: front → keys ≠ [] → state.items (keys.map .key) = some .table)
    (hnew : state.items (front.map .key ++ [Step.key last]) =
      if n = 0 then none else some (.tables n)) :
    step state (.tables (front ++ [last])) =
      some (addElement state.items (front.map .key ++ [Step.key last]) n) := by
  have hdescend : descend front state.items [] = some (state.items, front.map .key) :=
    descend_tables hfront
  unfold step
  simp only [Statement.keys, List.getLast?_concat, List.dropLast_concat]
  change (descend front state.items []).bind _ = _
  rw [hdescend]
  change addTables state.items (front.map .key ++ [Step.key last]) = _
  rw [addTables, hnew]
  split_ifs with hzero
  · rw [hzero]
  · rfl

theorem step_assign {value : Value} (hnew : state.items (state.current ++ [Step.key key]) = none) :
    step state (.assign [key] value) =
      some ⟨Function.update state.items (state.current ++ [Step.key key]) (some (.value value)),
        state.current⟩ := by
  unfold step
  simp only [Statement.keys, List.getLast?_singleton, List.dropLast_singleton]
  change (addValue state.items (state.current ++ [Step.key key]) value).bind _ = _
  rw [addValue, hnew]
  rfl

/-- Assignments to different keys of a table. -/
theorem execute_assigns {assigns : List (Key × Value)} (hnodup : (assigns.map Prod.fst).Nodup)
    (hnew : ∀ a ∈ assigns, state.items (state.current ++ [Step.key a.1]) = none) :
    ∃ state', execute (assigns.map fun a => .assign [a.1] a.2) state = some state' ∧
      state'.current = state.current ∧
      (∀ a ∈ assigns, state'.items (state.current ++ [Step.key a.1]) = some (.value a.2)) ∧
      ∀ p, (∀ a ∈ assigns, p ≠ state.current ++ [Step.key a.1]) →
        state'.items p = state.items p := by
  induction assigns generalizing state with
  | nil => exact ⟨state, rfl, rfl, by simp, fun _ _ => rfl⟩
  | cons a assigns ih =>
    obtain ⟨key, value⟩ := a
    rw [List.map_cons, List.nodup_cons] at hnodup
    have hstep : step state (.assign [key] value) = _ := step_assign (hnew _ List.mem_cons_self)
    have hother : ∀ b ∈ assigns,
        state.current ++ [Step.key b.1] ≠ state.current ++ [Step.key key] := by
      intro b hb heq
      have hkey : b.1 = key := by simpa using (List.append_inj' heq rfl).2
      have hmem : b.1 ∈ assigns.map Prod.fst := List.mem_map_of_mem hb
      rw [hkey] at hmem
      exact hnodup.1 hmem
    have hrest : ∀ b ∈ assigns, Function.update state.items (state.current ++ [Step.key key])
        (some (.value value)) (state.current ++ [Step.key b.1]) = none := by
      intro b hb
      rw [Function.update_of_ne (hother b hb)]
      exact hnew b (List.mem_cons_of_mem _ hb)
    obtain ⟨state', hexecute, hcurrent, hvalues, hframe⟩ := @ih
      ⟨Function.update state.items (state.current ++ [Step.key key]) (some (.value value)),
        state.current⟩ hnodup.2 hrest
    refine ⟨state', ?_, hcurrent, ?_, ?_⟩
    · rw [List.map_cons, execute_cons, hstep]
      exact hexecute
    · intro b hb
      rcases List.mem_cons.mp hb with rfl | hb
      · rw [hframe _ fun b hb heq => hother b hb heq.symm]
        exact Function.update_self _ _ _
      · exact hvalues b hb
    · intro p hp
      rw [hframe p fun b hb => hp b (List.mem_cons_of_mem _ hb)]
      exact Function.update_of_ne (hp _ List.mem_cons_self) _ _

/-- A path that does not go through another one. -/
theorem ne_append (h : ¬ path <+: p) (more : Path) : p ≠ path ++ more := by
  rintro rfl
  exact h (List.prefix_append _ _)

theorem addElement_self {n : Nat} : (addElement items path n).items path = some (.tables (n + 1)) := by
  change Function.update _ _ _ _ = _
  rw [Function.update_of_ne (by simp), Function.update_self]

theorem addElement_of_ne {n : Nat} (hp : p ≠ path) (helement : p ≠ path ++ [Step.element n]) :
    (addElement items path n).items p = items p := by
  change Function.update _ _ _ _ = _
  rw [Function.update_of_ne helement, Function.update_of_ne hp]

/-- Elements of an array of tables, with assignments in each. -/
theorem execute_elements {α : Type} {front : List Key} {last : Key} {elements : List α}
    {assigns : α → List (Key × Value)} (hnodup : ∀ a ∈ elements, ((assigns a).map Prod.fst).Nodup)
    {n : Nat}
    (hfront : ∀ keys, keys <+: front → keys ≠ [] → state.items (keys.map .key) = some .table)
    (hlast : state.items (front.map .key ++ [Step.key last]) =
      if n = 0 then none else some (.tables n))
    (hnew : ∀ i, n ≤ i → ∀ p, state.items (front.map .key ++ [Step.key last] ++
      Step.element i :: p) = none) :
    ∃ state', execute (elements.flatMap fun a =>
        .tables (front ++ [last]) :: (assigns a).map fun b => .assign [b.1] b.2) state =
          some state' ∧
      ∀ p, ¬ front.map .key ++ [Step.key last] <+: p → state'.items p = state.items p := by
  induction elements generalizing state n with
  | nil => exact ⟨state, rfl, fun _ _ => rfl⟩
  | cons a elements ih =>
    have hstep := step_tables hfront hlast
    generalize hpath : front.map Step.key ++ [Step.key last] = path at hstep hlast hnew ih ⊢
    have hfields : ∀ b ∈ assigns a, (addElement state.items path n).items
        ((addElement state.items path n).current ++ [Step.key b.1]) = none := by
      intro b _
      change (addElement state.items path n).items (path ++ [Step.element n] ++ [Step.key b.1]) = none
      rw [addElement_of_ne (by simp) (by simp), List.append_assoc]
      exact hnew n le_rfl _
    obtain ⟨filled, hfill, _, _, hframe⟩ := execute_assigns (hnodup a List.mem_cons_self) hfields
    have hkeep : ∀ p, ¬ path ++ [Step.element n] <+: p → filled.items p =
        (addElement state.items path n).items p := by
      intro p hp
      exact hframe p fun b _ => ne_append hp _
    have hself : filled.items path = some (.tables (n + 1)) := by
      rw [hkeep path, addElement_self]
      intro h
      have hlength := h.length_le
      rw [List.length_append, List.length_singleton] at hlength
      omega
    have hoff : ∀ p, ¬ path <+: p → filled.items p = state.items p := by
      intro p hp
      have hne : p ≠ path := by
        rintro rfl
        exact hp List.prefix_rfl
      rw [hkeep p fun h => hp ((List.prefix_append _ _).trans h),
        addElement_of_ne hne (ne_append hp _)]
    have hfront' : ∀ keys, keys <+: front → keys ≠ [] →
        filled.items (keys.map .key) = some .table := by
      intro keys hkeys hne
      rw [hoff, hfront keys hkeys hne]
      rw [← hpath]
      intro h
      have hlength := h.length_le
      have hle := hkeys.length_le
      simp only [List.length_append, List.length_map, List.length_singleton] at hlength
      omega
    have hlast' : filled.items path = if n + 1 = 0 then none else some (.tables (n + 1)) := by
      rw [hself, if_neg (Nat.succ_ne_zero n)]
    have hnew' : ∀ i, n + 1 ≤ i → ∀ p, filled.items (path ++ Step.element i :: p) = none := by
      intro i hi p
      rw [hkeep, addElement_of_ne (by simp), hnew i (by omega)]
      · intro heq
        cases List.append_cancel_left heq
        omega
      · intro hprefix
        have hcons := (List.prefix_append_right_inj path).mp hprefix
        cases (List.cons_prefix_cons.mp hcons).1
        omega
    obtain ⟨state', hexecute, hrest⟩ :=
      ih (fun b hb => hnodup b (List.mem_cons_of_mem _ hb)) hfront' hlast' hnew'
    refine ⟨state', ?_, fun p hp => (hrest p hp).trans (hoff p hp)⟩
    rw [List.flatMap_cons, List.cons_append, execute_cons, hstep, Option.bind_some,
      execute_append, hfill]
    exact hexecute

end Toml
