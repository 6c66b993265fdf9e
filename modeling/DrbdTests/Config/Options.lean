import DrbdTests.Config.Statements

/-!
# The options of a resource

The four texts that a test assigns to a resource are written as they are, each as the last
line of its section, exactly when there is no `%` in them (`options_verbatim_iff`): formatting
with no arguments halves the number of `%` in what it does not reject (`count_percentFormat`).
-/

namespace DrbdTests.Config

open Statements

/-! ## What formatting does -/

theorem PercentState.next_ne {state state' : PercentState} {c : Char}
    (h : state.next c = some state') : c ≠ '%' := by
  rintro rfl
  simp [PercentState.next] at h

theorem PercentState.next_ne_text {state state' : PercentState} {c : Char}
    (h : state.next c = some state') : state' ≠ .text := by
  rintro rfl
  unfold PercentState.next at h
  split_ifs at h
  all_goals cases h

theorem map_eq_ok {ε α β : Type} {f : α → β} {x : Except ε α} {b : β} (h : x.map f = .ok b) :
    ∃ a, x = .ok a ∧ f a = b := by
  cases x with
  | error e => cases h
  | ok a => exact ⟨a, rfl, Except.ok.inj h⟩

/-- A step inside of a conversion. -/
theorem percentFormatFrom_inside {state : PercentState} (hstate : state ≠ .text) (c : Char)
    (data : List Char) : percentFormatFrom state (c :: data) = match state.next c with
      | some state' => percentFormatFrom state' data
      | none => if state = .start ∧ c = '%' then (percentFormatFrom .text data).map ('%' :: ·)
        else .error .typeError := by
  cases state with
  | text => exact absurd rfl hstate
  | _ => rfl

theorem percentFormatFrom_text (c : Char) (data : List Char) :
    percentFormatFrom .text (c :: data) = if c = '%' then percentFormatFrom .start data
      else (percentFormatFrom .text data).map (c :: ·) := rfl

/-- Each conversion takes two `%` and leaves one; inside of one, the first has been taken. -/
theorem count_percentFormatFrom {state : PercentState} {data text : List Char}
    (h : percentFormatFrom state data = .ok text) :
    data.count '%' + (if state = .text then 0 else 1) = 2 * text.count '%' := by
  induction data generalizing state text with
  | nil =>
    cases state with
    | text =>
      cases h
      rfl
    | _ => cases h
  | cons c data ih =>
    by_cases hstate : state = .text
    · subst hstate
      rw [percentFormatFrom_text] at h
      split_ifs at h with hc
      · have hcount := ih h
        rw [if_neg (by decide)] at hcount
        rw [hc, List.count_cons_self, if_pos rfl]
        exact hcount
      · obtain ⟨rest, hrest, rfl⟩ := map_eq_ok h
        have hcount := ih hrest
        rw [if_pos rfl] at hcount
        rw [List.count_cons_of_ne hc, List.count_cons_of_ne hc, if_pos rfl]
        exact hcount
    · rw [percentFormatFrom_inside hstate] at h
      rw [if_neg hstate]
      cases hnext : state.next c with
      | some state' =>
        rw [hnext] at h
        have hcount := ih h
        rw [if_neg (PercentState.next_ne_text hnext)] at hcount
        rw [List.count_cons_of_ne (PercentState.next_ne hnext)]
        exact hcount
      | none =>
        rw [hnext] at h
        dsimp only at h
        split_ifs at h with hc
        obtain ⟨rest, hrest, rfl⟩ := map_eq_ok h
        have hcount := ih hrest
        rw [if_pos rfl] at hcount
        rw [hc.2, List.count_cons_self, List.count_cons_self]
        omega

/-- The number of `%` in a text. -/
def percents (s : String) : Nat := s.toList.count '%'

theorem percents_append (s t : String) : percents (s ++ t) = percents s + percents t := by
  rw [percents, String.toList_append, List.count_append]
  rfl

theorem percents_eq_zero {s : String} : percents s = 0 ↔ '%' ∉ s.toList := List.count_eq_zero

theorem percents_percentFormat {data text : String} (h : percentFormat data = .ok text) :
    percents data = 2 * percents text := by
  obtain ⟨formatted, hformat, rfl⟩ := map_eq_ok (f := String.ofList) h
  rw [percents, percents, String.toList_ofList]
  exact count_percentFormatFrom hformat

theorem percents_line (units : Nat) (s : String) : percents (line units s) = percents s := by
  have hindent : percents (indentation units ++ INDENT ++ s) = percents s := by
    have hblank : ∀ n, percents (indentation n) = 0 := fun n =>
      percents_eq_zero.mpr fun hmem => (plain_indentation n _ hmem).1 rfl
    rw [percents_append, percents_append, hblank]
    have hone : percents INDENT = 0 := by decide
    omega
  unfold line
  dsimp only
  split
  · exact hindent
  · rw [percents_append, hindent]
    rfl

/-! ## When statements return -/

/-- All lines can be formatted, and no exception is raised. -/
def Statements.Returns : Statements → Prop
  | .done => True
  | .write data rest => (∃ text, percentFormat data = .ok text) ∧ rest.Returns
  | .raise _ => False
  | .block _ body rest => body.Returns ∧ rest.Returns

theorem outcome_ok_iff {depth : Nat} {s : Statements} :
    (s.outcome depth).1 = .ok () ↔ s.Returns := by
  induction s generalizing depth with
  | done => exact iff_of_true rfl trivial
  | write data rest ih =>
    cases h : percentFormat data with
    | error e =>
      rw [outcome_write_error h, Statements.Returns, h]
      simp
    | ok text =>
      rw [outcome_write_ok h, Statements.Returns, h, ih]
      simp
  | raise e => simp [outcome, Statements.Returns]
  | block name body rest ihbody ihrest =>
    rw [Statements.Returns]
    cases h : (body.outcome (depth + 1)).1 with
    | error e =>
      rw [outcome_block_error h, ← @ihbody (depth + 1), h]
      simp
    | ok u =>
      rw [outcome_block_ok h, ← @ihbody (depth + 1), h, ihrest]
      simp

instance (s : Statements) : Decidable s.Returns :=
  decidable_of_iff ((s.outcome 0).1 = .ok ()) outcome_ok_iff

theorem returns_append {s after : Statements} :
    (s.append after).Returns ↔ s.Returns ∧ after.Returns := by
  induction s with
  | done => simp [Statements.append, Statements.Returns]
  | write data rest ih => simp [Statements.append, Statements.Returns, ih, and_assoc]
  | raise e => simp [Statements.append, Statements.Returns]
  | block name body rest _ ih => simp [Statements.append, Statements.Returns, ih, and_assoc]

theorem append_assoc (s t u : Statements) : (s.append t).append u = s.append (t.append u) := by
  induction s with
  | done => rfl
  | write data rest ih => rw [Statements.append, Statements.append, Statements.append, ih]
  | raise e => rfl
  | block name body rest _ ih => rw [Statements.append, Statements.append, Statements.append, ih]

theorem lines_append (l l' : List String) : lines (l ++ l') = (lines l).append (lines l') := by
  induction l with
  | nil => rfl
  | cons data l ih =>
    change Statements.write data (lines (l ++ l')) = _
    rw [ih]
    rfl

/-! ## The sections with options -/

variable (settings : Settings) (resource : ResourceView) (self : NodeView)

/-- The lines of the `disk` section in front of the options. -/
def diskFront : List String :=
  "disk-flushes no;" :: "md-flushes no;" ::
    ((if ¬ "c-min-rate".toList <:+: resource.diskOptions.toList ∧ self.host.osId = "ubuntu" ∧
        self.host.osVersionId = "18.04" then ["c-min-rate 0;"] else []) ++
      if self.fencingMode ≠ "" ∧ ¬ isVersion9 self then ["fencing " ++ self.fencingMode ++ ";"]
        else [])

/-- The lines of the `net` section in front of the options. -/
def netFront : List String :=
  (if truthy resource.transport then ["transport \"" ++ resource.transport.getD "" ++ "\";"]
    else []) ++
    ((if resource.tls = "yes" then ["tls " ++ resource.tls ++ ";"] else []) ++
      if self.fencingMode ≠ "" ∧ isVersion9 self then ["fencing " ++ self.fencingMode ++ ";"]
        else [])

/-- The statements after the sections with options. -/
def restStatements : Statements :=
  (proxyStatements settings).append ((sequence (resource.nodes.map (hostStatements self))).append
    (if isVersion9 self then conns9Statements settings resource self else .done))

/-- A section that ends with a line of options. -/
def optionStatements (name : String) (front : List String) (options : String) : Statements :=
  single name (lines (front ++ [options]))

theorem configStatements_eq : configStatements settings resource self =
    (optionStatements "handlers" [] resource.handlers).append
      ((optionStatements "options" [] resource.resourceOptions).append
        ((optionStatements "disk" (diskFront resource self) resource.diskOptions).append
          ((optionStatements "net" (netFront resource self) resource.netOptions).append
            (restStatements settings resource self)))) := by
  have hdisk : diskStatements resource self = diskFront resource self ++ [resource.diskOptions] := by
    unfold diskStatements diskFront
    rw [List.cons_append, List.cons_append, List.append_assoc]
  have hnet : netStatements resource self = netFront resource self ++ [resource.netOptions] := by
    unfold netStatements netFront
    rw [List.append_assoc, List.append_assoc]
  unfold configStatements frontStatements
  rw [hdisk, hnet]
  change (Statements.append _ (Statements.append _ (Statements.append _ (Statements.append _
    (Statements.append _ (sequence (resource.nodes.map (hostStatements self)))))))).append _ = _
  rw [append_assoc, append_assoc, append_assoc, append_assoc, append_assoc]
  rfl

/-- The text of a section in which the options stand as they are, after the lines in front. -/
def verbatimSection (name : String) (front : List String) (options : String) : String :=
  blockText (unitsAt 1) name (((lines front).outcome 1).2 ++ line (unitsAt 1) options)

/-- The text of a config in which all options stand as they are, each in its section. -/
def verbatimConfig : String :=
  blockText 0 ("resource " ++ resource.name)
    (verbatimSection "handlers" [] resource.handlers ++
      verbatimSection "options" [] resource.resourceOptions ++
      verbatimSection "disk" (diskFront resource self) resource.diskOptions ++
      verbatimSection "net" (netFront resource self) resource.netOptions ++
      ((restStatements settings resource self).outcome 0).2)

variable {settings resource self} {name options formatted : String} {front : List String}
  {after : Statements}

/-- Whatever else is written for the node can be written. -/
structure OthersReturn (settings : Settings) (resource : ResourceView) (node : NodeView) : Prop where
  disk : (lines (diskFront resource node)).Returns
  net : (lines (netFront resource node)).Returns
  rest : (restStatements settings resource node).Returns

theorem optionStatements_returns : (optionStatements name front options).Returns ↔
    (lines front).Returns ∧ ∃ text, percentFormat options = .ok text := by
  unfold optionStatements
  rw [lines_append]
  change (Statements.append _ _).Returns ∧ True ↔ _
  rw [returns_append, and_true]
  change _ ∧ (_ ∧ True) ↔ _
  rw [and_true]

theorem optionStatements_text (hfront : (lines front).Returns)
    (h : percentFormat options = .ok formatted) :
    ((optionStatements name front options).outcome 0).2 = verbatimSection name front formatted := by
  have hlines : (((lines front).append (lines [options])).outcome 1).1 = .ok () := by
    refine outcome_ok_iff.mpr (returns_append.mpr ⟨hfront, ?_⟩)
    exact ⟨⟨formatted, h⟩, trivial⟩
  have hlast : ((lines [options]).outcome 1).2 = line (unitsAt 1) formatted := by
    change ((Statements.write options .done).outcome 1).2 = _
    rw [outcome_write_ok h]
    exact String.append_empty
  have htext := outcome_append_ok hlines
  rw [hlast] at htext
  unfold optionStatements
  rw [lines_append, single, outcome_block_ok hlines, htext]
  exact String.append_empty

theorem percents_verbatimSection (name : String) (front : List String) (options : String) :
    percents (verbatimSection name front options) =
    percents (verbatimSection name front "") + percents options := by
  have hempty : percents "" = 0 := rfl
  unfold verbatimSection blockText
  simp only [percents_append, percents_line]
  omega

theorem percents_blockText (units : Nat) (name inner : String) :
    percents (blockText units name inner) = percents (blockText units name "") + percents inner := by
  have hempty : percents "" = 0 := rfl
  unfold blockText
  simp only [percents_append]
  omega

theorem render_ok_iff {text : String} : render (configBlocks settings resource self) = .ok text ↔
    (configStatements settings resource self).Returns ∧
      blockText 0 ("resource " ++ resource.name)
        ((configStatements settings resource self).outcome 0).2 = text := by
  rw [render_configBlocks, ← @outcome_ok_iff 0]
  cases ((configStatements settings resource self).outcome 0).1 with
  | error e => simp [Except.map]
  | ok u => simp [Except.map]

theorem configStatements_returns : (configStatements settings resource self).Returns ↔
    OthersReturn settings resource self ∧ (∃ text, percentFormat resource.handlers = .ok text) ∧
      (∃ text, percentFormat resource.resourceOptions = .ok text) ∧
      (∃ text, percentFormat resource.diskOptions = .ok text) ∧
      ∃ text, percentFormat resource.netOptions = .ok text := by
  have hnil : (lines []).Returns := trivial
  rw [configStatements_eq, returns_append, returns_append, returns_append, returns_append,
    optionStatements_returns, optionStatements_returns, optionStatements_returns,
    optionStatements_returns]
  constructor
  · rintro ⟨⟨-, hhandlers⟩, ⟨-, hresource⟩, ⟨hdisk, hdiskOptions⟩, ⟨hnet, hnetOptions⟩, hrest⟩
    exact ⟨⟨hdisk, hnet, hrest⟩, hhandlers, hresource, hdiskOptions, hnetOptions⟩
  · rintro ⟨⟨hdisk, hnet, hrest⟩, hhandlers, hresource, hdiskOptions, hnetOptions⟩
    exact ⟨⟨hnil, hhandlers⟩, ⟨hnil, hresource⟩, ⟨hdisk, hdiskOptions⟩, ⟨hnet, hnetOptions⟩, hrest⟩

/-- What a config is when nothing raises. -/
theorem configStatements_text {handlers resourceOptions diskOptions netOptions : String}
    (hothers : OthersReturn settings resource self)
    (hhandlers : percentFormat resource.handlers = .ok handlers)
    (hresource : percentFormat resource.resourceOptions = .ok resourceOptions)
    (hdisk : percentFormat resource.diskOptions = .ok diskOptions)
    (hnet : percentFormat resource.netOptions = .ok netOptions) :
    ((configStatements settings resource self).outcome 0).2 =
      verbatimSection "handlers" [] handlers ++ (verbatimSection "options" [] resourceOptions ++
        (verbatimSection "disk" (diskFront resource self) diskOptions ++
          (verbatimSection "net" (netFront resource self) netOptions ++
            ((restStatements settings resource self).outcome 0).2))) := by
  have hnil : (lines []).Returns := trivial
  have hdiskFront := hothers.disk
  have hnetFront := hothers.net
  have hreturns : (configStatements settings resource self).Returns :=
    configStatements_returns.mpr
      ⟨hothers, ⟨_, hhandlers⟩, ⟨_, hresource⟩, ⟨_, hdisk⟩, ⟨_, hnet⟩⟩
  rw [configStatements_eq] at hreturns ⊢
  have hfirst := (returns_append.mp hreturns).2
  have hsecond := (returns_append.mp hfirst).2
  have hthird := (returns_append.mp hsecond).2
  rw [outcome_append_ok (outcome_ok_iff.mpr hreturns), outcome_append_ok (outcome_ok_iff.mpr hfirst),
    outcome_append_ok (outcome_ok_iff.mpr hsecond), outcome_append_ok (outcome_ok_iff.mpr hthird),
    optionStatements_text hnil hhandlers, optionStatements_text hnil hresource,
    optionStatements_text hdiskFront hdisk, optionStatements_text hnetFront hnet]

/-- The options are written as they are exactly when there is no `%` in them. -/
theorem render_verbatim_iff :
    render (configBlocks settings resource self) = .ok (verbatimConfig settings resource self) ↔
      OthersReturn settings resource self ∧ '%' ∉ resource.handlers.toList ∧
        '%' ∉ resource.resourceOptions.toList ∧ '%' ∉ resource.diskOptions.toList ∧
        '%' ∉ resource.netOptions.toList := by
  rw [render_ok_iff]
  constructor
  · rintro ⟨hreturns, htext⟩
    obtain ⟨hothers, ⟨handlers, hhandlers⟩, ⟨resourceOptions, hresource⟩, ⟨diskOptions, hdisk⟩,
      ⟨netOptions, hnet⟩⟩ := configStatements_returns.mp hreturns
    -- the two texts have the same number of `%`
    have hcount := congrArg percents htext
    rw [configStatements_text hothers hhandlers hresource hdisk hnet, verbatimConfig,
      percents_blockText, percents_blockText _ _ (_ ++ _)] at hcount
    simp only [percents_append, percents_verbatimSection _ _ handlers,
      percents_verbatimSection _ _ resourceOptions,
      percents_verbatimSection _ _ diskOptions,
      percents_verbatimSection _ _ netOptions,
      percents_verbatimSection _ _ resource.handlers,
      percents_verbatimSection _ _ resource.resourceOptions,
      percents_verbatimSection _ _ resource.diskOptions,
      percents_verbatimSection _ _ resource.netOptions] at hcount
    have h₁ := percents_percentFormat hhandlers
    have h₂ := percents_percentFormat hresource
    have h₃ := percents_percentFormat hdisk
    have h₄ := percents_percentFormat hnet
    refine ⟨hothers, ?_, ?_, ?_, ?_⟩
    · exact percents_eq_zero.mp (by omega)
    · exact percents_eq_zero.mp (by omega)
    · exact percents_eq_zero.mp (by omega)
    · exact percents_eq_zero.mp (by omega)
  · rintro ⟨hothers, hhandlers, hresource, hdisk, hnet⟩
    have h₁ := percentFormat_plain hhandlers
    have h₂ := percentFormat_plain hresource
    have h₃ := percentFormat_plain hdisk
    have h₄ := percentFormat_plain hnet
    refine ⟨configStatements_returns.mpr ⟨hothers, ⟨_, h₁⟩, ⟨_, h₂⟩, ⟨_, h₃⟩, ⟨_, h₄⟩⟩, ?_⟩
    rw [configStatements_text hothers h₁ h₂ h₃ h₄, verbatimConfig]
    simp only [String.append_assoc]

/-- The options of the resource of a node are in its config as they are, each in its own
section, exactly when there is no `%` in them, and nothing else that is written raises. -/
theorem config_verbatim_iff (w : World) (n : NodeId) :
    Node.config w n =
        .ok (verbatimConfig w.settings (w.resourceView (w.node n).resource) (w.nodeView n)) ↔
      OthersReturn w.settings (w.resourceView (w.node n).resource) (w.nodeView n) ∧
        '%' ∉ (w.resource (w.node n).resource).handlers.toList ∧
        '%' ∉ (w.resource (w.node n).resource).resourceOptions.toList ∧
        '%' ∉ (w.resource (w.node n).resource).diskOptions.toList ∧
        '%' ∉ (w.resource (w.node n).resource).netOptions.toList := render_verbatim_iff

/-- A handler that a test gives to `printf`. -/
def percentHandlers : World :=
  Op.afterAll (World.plain 2) [.createResource none,
    .setHandlers 0 "fence-peer \"printf '%s' fence >> /tmp/handlers\";"]

theorem config_percent :
    OthersReturn percentHandlers.settings (percentHandlers.resourceView 0)
      (percentHandlers.nodeView 0) ∧
    Node.config percentHandlers 0 = .error .typeError := by
  refine ⟨⟨?_, ?_, ?_⟩, ?_⟩
  · decide +kernel
  · decide +kernel
  · decide +kernel
  · decide +kernel

end DrbdTests.Config
