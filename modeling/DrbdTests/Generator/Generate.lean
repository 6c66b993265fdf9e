import DrbdTests.Generator.Versions
import Mathlib.Data.List.Dedup
import Mathlib.Data.List.Sort

/-!
# The test suite file

`main` of `vmshed_tests_generator.py` reads the `### vmshed:` line of each test, and
prints a TOML file with a section for each test that is selected. A test is dropped when
the selection has no VMs for it, or when a given version of DRBD is too old for it:
`tests_selected`.
-/

namespace DrbdTests.Generator

/-! ## Test configurations -/

/-- An element of `networks`. -/
structure Network where
  forward : Option String
  domain : Option String
  dhcp : Bool
  deriving DecidableEq, Repr

/-- An element of `variants_add`. -/
inductive VariantItem
  | name (variant : String)
  | since (variant drbdVersionMin : String)
  deriving DecidableEq, Repr

/-- The JSON object of a test. -/
structure VmshedConfig where
  vmsAll : Option (List Int)
  vmsCi : Option (List Int)
  vmsRdmaCi : Option (List Int)
  drbdVersionMin : Option String
  vmTags : List String
  variantsAdd : List VariantItem
  samevms : Bool
  networks : List Network
  deriving DecidableEq, Repr

inductive Selection
  | all
  | ci
  | rdmaCi
  deriving DecidableEq, Repr

/-- `vmshed_config.get('vms_{}'.format(args.selection))` -/
def VmshedConfig.vms (config : VmshedConfig) : Selection → Option (List Int)
  | .all => config.vmsAll
  | .ci => config.vmsCi
  | .rdmaCi => config.vmsRdmaCi

structure Args where
  testsDir : String
  selection : Selection
  drbdVersion : Option String
  drbdVersionOther : Option String
  defaultVariants : List String
  testTimeout : String
  deriving Repr

/-- An entry of the tests directory. -/
structure Entry where
  name : String
  isFile : Bool
  lines : List String
  deriving DecidableEq, Repr

/-- The files that are read, and the libraries that are used. -/
structure Outside where
  tests : List Entry
  variantsToml : String
  /-- `json.loads` -/
  loads : String → Except PyError VmshedConfig
  /-- `str.isprintable` of a character that is not ASCII -/
  isPrintable : Char → Bool

def vmshedPrefix : String := "### vmshed: "

def readVmshedJson (o : Outside) : List String → Except PyError (Option VmshedConfig)
  | [] => .ok none
  | line :: lines =>
    match Text.afterPrefix vmshedPrefix.toList line.toList with
    | some json => (o.loads (String.ofList json)).map some
    | none => readVmshedJson o lines

/-- The body of the loop over the test files. -/
def readTest (o : Outside) (args : Args) (testConfigs : List (String × VmshedConfig))
    (entry : Entry) : Except PyError (List (String × VmshedConfig)) :=
  if entry.isFile = false then .ok testConfigs
  else do
    let filepath := args.testsDir ++ "/" ++ entry.name
    match ← readVmshedJson o entry.lines with
    | none =>
      throw (.runtimeError
        ("no \"" ++ vmshedPrefix ++ "\" line found in \"" ++ filepath ++ "\""))
    | some config =>
      match config.vmsAll with
      | none | some [] =>
        throw (.runtimeError ("no \"vms_all\" configured for \"" ++ filepath ++ "\""))
      | some (_ :: _) => return testConfigs ++ [(entry.name, config)]

/-! ## Printing -/

def hexDigit (n : Nat) : Char := Nat.digitChar n

/-- The `width` last hexadecimal digits of a number. -/
def hex : Nat → Nat → List Char
  | 0, _ => []
  | width + 1, n => hex width (n / 16) ++ [hexDigit (n % 16)]

/-- A character in the `repr` of a string. -/
def reprChar (o : Outside) (quote c : Char) : List Char :=
  if c = quote ∨ c = '\\' then ['\\', c]
  else if c = '\t' then ['\\', 't']
  else if c = '\n' then ['\\', 'n']
  else if c = '\r' then ['\\', 'r']
  else if c.toNat < 0x20 ∨ c.toNat = 0x7f then '\\' :: 'x' :: hex 2 c.toNat
  else if c.toNat < 0x7f ∨ o.isPrintable c then [c]
  else if c.toNat < 0x100 then '\\' :: 'x' :: hex 2 c.toNat
  else if c.toNat < 0x10000 then '\\' :: 'u' :: hex 4 c.toNat
  else '\\' :: 'U' :: hex 8 c.toNat

/-- `repr` of a string. -/
def reprStr (o : Outside) (s : String) : String :=
  let quote := if '\'' ∈ s.toList ∧ '"' ∉ s.toList then '"' else '\''
  String.ofList (quote :: s.toList.flatMap (reprChar o quote) ++ [quote])

/-- `str` of a list, given the `repr` of its elements. -/
def strList (reprs : List String) : String := "[" ++ ", ".intercalate reprs ++ "]"

/-- `sorted(set(l))` -/
def sortedSet (l : List String) : List String := l.dedup.insertionSort (· ≤ ·)

def parseVariantItem (drbdVersionLower : Option Version) (variants : List String) :
    VariantItem → Except PyError (List String)
  | .name variant => .ok (variants ++ [variant])
  | .since variant drbdVersionMin =>
    match drbdVersionLower with
    | none => .ok (variants ++ [variant])
    | some lower => do
      if ← isLower (parseVersion drbdVersionMin) lower then return variants ++ [variant]
      else return variants

/-- The set of variants, in the order in which they are added. -/
def parseVariantsAdd (variantsList : List VariantItem) (drbdVersionLower : Option Version) :
    Except PyError (List String) :=
  variantsList.foldlM (parseVariantItem drbdVersionLower) []

def testHeader (name : String) : String := "[tests." ++ name ++ "]"

def printNetwork (name : String) (network : Network) : List String :=
  ["[[tests." ++ name ++ ".networks]]",
    "forward = \"" ++ network.forward.getD "" ++ "\"",
    "domain = \"" ++ network.domain.getD "" ++ "\"",
    "dhcp = " ++ if network.dhcp then "true" else "false"]

/-- The lines of a section. -/
def printSection (o : Outside) (args : Args) (name : String) (config : VmshedConfig)
    (vms : List Int) (variantsAdd : List String) : List String :=
  [testHeader name, "vms = " ++ strList (vms.map toString)] ++
  (if config.vmTags ≠ [] then ["vm_tags = " ++ strList (config.vmTags.map (reprStr o))] else []) ++
  ["variants = " ++ strList ((sortedSet (args.defaultVariants ++ variantsAdd)).map (reprStr o))] ++
  (if config.samevms then ["samevms = true"] else []) ++
  config.networks.flatMap (printNetwork name) ++ [""]

/-! ## `main` -/

/-- `if drbd_version_lower is not None and drbd_version_lower < [9]` -/
def dropLarge (drbdVersionLower : Option Version) (vms : List Int) : Except PyError (List Int) :=
  match drbdVersionLower with
  | none => .ok vms
  | some lower => do
    if ← listLt lower [.number 9] then return vms.filter (· ≤ 2)
    else return vms

/-- `is_lower(drbd_version_lower, drbd_version_min)`, when both are given. -/
def tooOld (drbdVersionLower : Option Version) (drbdVersionMin : Option String) :
    Except PyError Bool :=
  match drbdVersionLower, drbdVersionMin with
  | some lower, some minimum => isLower lower (parseVersion minimum)
  | _, _ => .ok false

/-- The body of the loop that writes the tests. -/
def writeTest (o : Outside) (args : Args) (drbdVersionLower : Option Version)
    (test : String × VmshedConfig) : Except PyError (List String) :=
  match test.2.vms args.selection with
  | none => .ok []
  | some vms => do
    let vms ← dropLarge drbdVersionLower vms
    if vms = [] then return []
    else if ← tooOld drbdVersionLower test.2.drbdVersionMin then return []
    else
      let variantsAdd ← parseVariantsAdd test.2.variantsAdd drbdVersionLower
      return printSection o args test.1 test.2 vms variantsAdd

/-- `parse_version(s) if s else None` -/
def parseArgument : Option String → Option Version
  | none => none
  | some s => if s = "" then none else some (parseVersion s)

/-- What is printed in front of the tests. -/
def header (o : Outside) (args : Args) : List String :=
  ["test_suite_file = \"run.toml\"", "test_timeout = \"" ++ args.testTimeout ++ "\"",
    "artifacts = [\"/gcov.tar.gz\"]", "", String.ofList (Text.rstrip o.variantsToml.toList), "",
    "[tests]"]

/-- The arguments of the calls of `print`. -/
def main (o : Outside) (args : Args) : Except PyError (List String) := do
  let drbdVersionLower ←
    lowerVersion (parseArgument args.drbdVersion) (parseArgument args.drbdVersionOther)
  let testConfigs ← o.tests.foldlM (readTest o args) []
  let tests ← (testConfigs.insertionSort (·.1 ≤ ·.1)).mapM (writeTest o args drbdVersionLower)
  return header o args ++ tests.flatten

/-! ## What is selected -/

/-- The versions on the command line. -/
def Args.versions (args : Args) : List Version :=
  given (parseArgument args.drbdVersion) (parseArgument args.drbdVersionOther)

/-- The configuration of a test file. -/
def Outside.config (o : Outside) (entry : Entry) : Option VmshedConfig :=
  if entry.isFile then
    match readVmshedJson o entry.lines with
    | .ok config => config
    | .error _ => none
  else none

/-- The numbers of VMs that are kept: versions before 9 have one connection only. -/
def keptVms (versions : List Version) (vms : List Int) : List Int :=
  if ∃ v ∈ versions, BeforeNine v then vms.filter (· ≤ 2) else vms

/-- There are VMs for the test, and no version is too old for it. -/
structure Selected (versions : List Version) (selection : Selection) (config : VmshedConfig) :
    Prop where
  vms : ∃ vms, config.vms selection = some vms ∧ keptVms versions vms ≠ []
  supported : ∀ minimum, config.drbdVersionMin = some minimum →
    ∀ v ∈ versions, isLower v (parseVersion minimum) = .ok false

/-- A configuration with VMs, whose minimum versions can be compared. -/
structure WellFormed (config : VmshedConfig) : Prop where
  vmsAll : ∃ n vms, config.vmsAll = some (n :: vms)
  drbdVersionMin : ∀ minimum, config.drbdVersionMin = some minimum →
    Comparable (parseVersion minimum)
  variantsAdd : ∀ variant minimum, .since variant minimum ∈ config.variantsAdd →
    Comparable (parseVersion minimum)

variable {o : Outside} {args : Args} {versions : List Version} {lower : Option Version}
  {config : VmshedConfig} {name : String}

/-- The files are read in the order of the directory. -/
theorem foldlM_readTest {entries : List Entry} {testConfigs : List (String × VmshedConfig)}
    (h : ∀ e ∈ entries, e.isFile = true → ∃ config, o.config e = some config ∧ WellFormed config) :
    entries.foldlM (readTest o args) testConfigs =
      .ok (testConfigs ++ entries.filterMap fun e => (o.config e).map (e.name, ·)) := by
  induction entries generalizing testConfigs with
  | nil => simp [pure, Except.pure]
  | cons e entries ih =>
    have hrest : ∀ testConfigs, entries.foldlM (readTest o args) testConfigs =
        .ok (testConfigs ++ entries.filterMap fun e => (o.config e).map (e.name, ·)) :=
      fun testConfigs => ih fun e' he' => h e' (List.mem_cons_of_mem _ he')
    rw [List.foldlM_cons]
    rcases hfile : e.isFile with _ | _
    · have hnone : o.config e = none := by simp [Outside.config, hfile]
      have hstep : readTest o args testConfigs e = .ok testConfigs := if_pos hfile
      rw [hstep, List.filterMap_cons_none (by rw [hnone]; rfl)]
      exact hrest testConfigs
    · obtain ⟨config, hconfig, hwf⟩ := h e List.mem_cons_self hfile
      obtain ⟨n, vms, hvms⟩ := hwf.vmsAll
      have hread : readVmshedJson o e.lines = .ok (some config) := by
        unfold Outside.config at hconfig
        rw [if_pos hfile] at hconfig
        rcases hr : readVmshedJson o e.lines with error | config'
        · rw [hr] at hconfig
          cases hconfig
        · rw [hr] at hconfig
          exact congrArg Except.ok hconfig
      have hstep : readTest o args testConfigs e = .ok (testConfigs ++ [(e.name, config)]) := by
        unfold readTest
        rw [if_neg (by simp [hfile]), hread]
        change (match config.vmsAll with
          | none | some [] => _
          | some (_ :: _) => _) = _
        rw [hvms]
        rfl
      rw [hstep, List.filterMap_cons_some (by rw [hconfig]; rfl)]
      have happend := hrest (testConfigs ++ [(e.name, config)])
      rw [List.append_assoc] at happend
      exact happend

/-! ## One test -/

theorem dropLarge_eq (h : Lowest versions lower) (hversions : ∀ v ∈ versions, Comparable v)
    (vms : List Int) : dropLarge lower vms = .ok (keptVms versions vms) := by
  have hnine : (∃ v ∈ versions, BeforeNine v) ↔ ∃ v ∈ versions, key v < key [.number 9] :=
    exists_congr fun v => and_congr_right fun hv => beforeNine_iff (hversions v hv)
  have hlower := (h.lt_iff (key [.number 9])).trans hnine.symm
  unfold dropLarge keptVms
  cases lower with
  | none =>
    have hnot : ¬ ∃ v ∈ versions, BeforeNine v := by
      rw [h.none_iff.mp rfl]
      simp
    rw [if_neg hnot]
  | some l =>
    have hlt : key l < key [.number 9] ↔ ∃ v ∈ versions, BeforeNine v := by
      rw [← hlower]
      simp
    simp only [listLt_nine (hversions l (h.mem l rfl))]
    by_cases hold : key l < key [.number 9]
    · rw [decide_eq_true hold, if_pos (hlt.mp hold)]
      rfl
    · rw [decide_eq_false hold, if_neg fun hold' => hold (hlt.mpr hold')]
      rfl

theorem tooOld_eq (h : Lowest versions lower) (hversions : ∀ v ∈ versions, Comparable v)
    (hwf : WellFormed config) :
    ∃ old, tooOld lower config.drbdVersionMin = .ok old ∧
      (old = false ↔ ∀ minimum, config.drbdVersionMin = some minimum →
        ∀ v ∈ versions, isLower v (parseVersion minimum) = .ok false) := by
  rcases hmin : config.drbdVersionMin with _ | minimum
  · exact ⟨false, by cases lower <;> rfl, by simp⟩
  have hm := hwf.drbdVersionMin minimum hmin
  cases lower with
  | none =>
    refine ⟨false, rfl, iff_of_true rfl ?_⟩
    intro minimum' _ v hv
    rw [h.none_iff.mp rfl] at hv
    cases hv
  | some l =>
    have hl := hversions l (h.mem l rfl)
    refine ⟨_, isLower_eq hl.elements hm.elements, ?_⟩
    have hlt : key l < key (parseVersion minimum) ↔
        ∃ v ∈ versions, key v < key (parseVersion minimum) := by
      rw [← h.lt_iff]
      simp
    rw [decide_eq_false_iff_not, hlt]
    constructor
    · rintro hnone _ ⟨⟩ v hv
      rw [isLower_eq (hversions v hv).elements hm.elements,
        decide_eq_false fun hlt => hnone ⟨v, hv, hlt⟩]
    · rintro hall ⟨v, hv, hlt⟩
      have hfalse := hall minimum rfl v hv
      rw [isLower_eq (hversions v hv).elements hm.elements, decide_eq_true hlt] at hfalse
      cases hfalse

theorem parseVariantsAdd_ok (hlower : ∀ l, lower = some l → Comparable l) {items : List VariantItem}
    (hitems : ∀ variant minimum, .since variant minimum ∈ items → Comparable (parseVersion minimum)) :
    ∃ variants, parseVariantsAdd items lower = .ok variants := by
  unfold parseVariantsAdd
  generalize ([] : List String) = variants
  induction items generalizing variants with
  | nil => exact ⟨variants, rfl⟩
  | cons item items ih =>
    have hrest := ih fun variant minimum hmem => hitems variant minimum (List.mem_cons_of_mem _ hmem)
    have hstep : ∃ variants', parseVariantItem lower variants item = .ok variants' := by
      cases item with
      | name variant => exact ⟨_, rfl⟩
      | since variant minimum =>
        cases lower with
        | none => exact ⟨_, rfl⟩
        | some l =>
          have hm := hitems variant minimum List.mem_cons_self
          unfold parseVariantItem
          simp only [isLower_eq hm.elements (hlower l rfl).elements]
          by_cases hlt : key (parseVersion minimum) < key l
          · exact ⟨variants ++ [variant], by rw [decide_eq_true hlt]; rfl⟩
          · exact ⟨variants, by rw [decide_eq_false hlt]; rfl⟩
    obtain ⟨variants', hstep⟩ := hstep
    rw [List.foldlM_cons, hstep]
    exact hrest variants'

/-- The first line of a section. -/
def isTestHeader (text : String) : Bool := (Text.afterPrefix "[tests.".toList text.toList).isSome

theorem isTestHeader_testHeader (name : String) : isTestHeader (testHeader name) = true := by
  unfold isTestHeader testHeader
  rw [String.toList_append, String.toList_append, List.append_assoc, Text.afterPrefix_append]
  rfl

theorem isTestHeader_append {word : String} {c : Char} {rest : List Char}
    (hword : word.toList = c :: rest) (hc : c ≠ '[') (text : String) :
    isTestHeader (word ++ text) = false := by
  unfold isTestHeader
  rw [String.toList_append, hword, List.cons_append]
  change (if '[' = c then _ else none : Option (List Char)).isSome = false
  rw [if_neg fun h => hc h.symm]
  rfl

theorem isTestHeader_network {text : String} {network : Network}
    (h : text ∈ printNetwork name network) : isTestHeader text = false := by
  have hnetworks : isTestHeader ("[[tests." ++ name ++ ".networks]]") = false := by
    rw [isTestHeader, String.toList_append, String.toList_append, List.append_assoc]
    rfl
  unfold printNetwork at h
  simp only [List.mem_cons, List.not_mem_nil, or_false] at h
  rcases h with rfl | rfl | rfl | rfl
  · exact hnetworks
  · rw [String.append_assoc]
    exact isTestHeader_append rfl (by decide) _
  · rw [String.append_assoc]
    exact isTestHeader_append rfl (by decide) _
  · exact isTestHeader_append rfl (by decide) _

/-- A section has one header. -/
theorem filter_printSection (name : String) (config : VmshedConfig) (vms : List Int)
    (variantsAdd : List String) :
    (printSection o args name config vms variantsAdd).filter isTestHeader = [testHeader name] := by
  have hvms : ∀ rest, isTestHeader ("vms = " ++ rest) = false :=
    isTestHeader_append rfl (by decide)
  have htags : ∀ rest, isTestHeader ("vm_tags = " ++ rest) = false :=
    isTestHeader_append rfl (by decide)
  have hvariants : ∀ rest, isTestHeader ("variants = " ++ rest) = false :=
    isTestHeader_append rfl (by decide)
  have hsamevms : isTestHeader "samevms = true" = false := by decide
  have hempty : isTestHeader "" = false := by decide
  have hnetworks : (config.networks.flatMap (printNetwork name)).filter isTestHeader = [] := by
    rw [List.filter_eq_nil_iff]
    intro text htext
    obtain ⟨network, _, htext⟩ := List.mem_flatMap.mp htext
    simp [isTestHeader_network htext]
  unfold printSection
  simp only [List.filter_append, hnetworks, List.append_nil]
  by_cases htag : config.vmTags ≠ []
  · by_cases hsame : config.samevms
    · simp [htag, hsame, hvms, htags, hvariants, hsamevms, hempty, isTestHeader_testHeader]
    · simp [htag, hsame, hvms, htags, hvariants, hempty, isTestHeader_testHeader]
  · by_cases hsame : config.samevms
    · simp [htag, hsame, hvms, hvariants, hsamevms, hempty, isTestHeader_testHeader]
    · simp [htag, hsame, hvms, hvariants, hempty, isTestHeader_testHeader]

open Classical in
/-- What is written for one test. -/
theorem writeTest_eq (h : Lowest versions lower) (hversions : ∀ v ∈ versions, Comparable v)
    (hwf : WellFormed config) (name : String) :
    ∃ lines, writeTest o args lower (name, config) = .ok lines ∧
      lines.filter isTestHeader =
        if Selected versions args.selection config then [testHeader name] else [] := by
  unfold writeTest
  rcases hvms : config.vms args.selection with _ | vms
  · refine ⟨[], rfl, ?_⟩
    rw [if_neg]
    · rfl
    · rintro ⟨⟨vms, hsome, _⟩, _⟩
      rw [hvms] at hsome
      cases hsome
  simp only [dropLarge_eq h hversions]
  by_cases hkept : keptVms versions vms = []
  · refine ⟨[], if_pos hkept, ?_⟩
    rw [if_neg]
    · rfl
    · rintro ⟨⟨vms', hsome, hne⟩, _⟩
      rw [hvms] at hsome
      cases hsome
      exact hne hkept
  obtain ⟨old, htooOld, hold⟩ := tooOld_eq h hversions hwf
  obtain ⟨variantsAdd, hadd⟩ := parseVariantsAdd_ok
    (fun l hl => hversions l (h.mem l hl)) hwf.variantsAdd
  cases old with
  | true =>
    refine ⟨[], ?_, ?_⟩
    · change (if keptVms versions vms = [] then _ else _) = _
      rw [if_neg hkept, htooOld]
      rfl
    · rw [if_neg]
      · rfl
      · intro hselected
        exact absurd (hold.mpr hselected.supported) (by decide)
  | false =>
    refine ⟨printSection o args name config (keptVms versions vms) variantsAdd, ?_, ?_⟩
    · change (if keptVms versions vms = [] then _ else _) = _
      rw [if_neg hkept, htooOld]
      change (parseVariantsAdd config.variantsAdd lower >>= fun _ => _) = _
      rw [hadd]
      rfl
    · rw [filter_printSection, if_pos]
      exact ⟨⟨vms, hvms, hkept⟩, hold.mp rfl⟩

/-- A loop that writes lines, filtered. -/
theorem mapM_filter {α β : Type} {f : α → Except PyError (List β)} {p : β → Bool} {q : α → Prop}
    [DecidablePred q] {g : α → β} {l : List α}
    (h : ∀ a ∈ l, ∃ lines, f a = .ok lines ∧ lines.filter p = if q a then [g a] else []) :
    ∃ blocks, l.mapM f = .ok blocks ∧ blocks.flatten.filter p = (l.filter q).map g := by
  induction l with
  | nil => exact ⟨[], rfl, rfl⟩
  | cons a l ih =>
    obtain ⟨lines, hlines, hfilter⟩ := h a List.mem_cons_self
    obtain ⟨blocks, hblocks, hrest⟩ := ih fun b hb => h b (List.mem_cons_of_mem _ hb)
    refine ⟨lines :: blocks, ?_, ?_⟩
    · rw [List.mapM_cons, hlines, hblocks]
      rfl
    · rw [List.flatten_cons, List.filter_append, hfilter, hrest]
      by_cases hq : q a
      · rw [if_pos hq, List.filter_cons_of_pos (by simpa using hq), List.map_cons]
        rfl
      · rw [if_neg hq, List.filter_cons_of_neg (by simpa using hq), List.nil_append]

/-! ## The selection -/

/-- The tests directory: the names are distinct, and every file has a configuration. -/
structure TestsDir (o : Outside) : Prop where
  names : (o.tests.map Entry.name).Nodup
  configured : ∀ e ∈ o.tests, e.isFile = true → ∃ config, o.config e = some config ∧
    WellFormed config

/-- The configurations that are read, in the order of the directory. -/
def Outside.testConfigs (o : Outside) : List (String × VmshedConfig) :=
  o.tests.filterMap fun e => (o.config e).map (e.name, ·)

theorem mem_testConfigs {test : String × VmshedConfig} :
    test ∈ o.testConfigs ↔ ∃ e ∈ o.tests, e.name = test.1 ∧ o.config e = some test.2 := by
  obtain ⟨name, config⟩ := test
  simp only [Outside.testConfigs, List.mem_filterMap, Option.map_eq_some_iff, Prod.mk.injEq]
  constructor
  · rintro ⟨e, he, config', hconfig, hname, rfl⟩
    exact ⟨e, he, hname, hconfig⟩
  · rintro ⟨e, he, hname, hconfig⟩
    exact ⟨e, he, config, hconfig, hname, rfl⟩

theorem nodup_testConfigs (h : (o.tests.map Entry.name).Nodup) :
    (o.testConfigs.map Prod.fst).Nodup := by
  have hmap : o.testConfigs.map Prod.fst =
      o.tests.filterMap fun e => (o.config e).map fun _ => e.name := by
    simp [Outside.testConfigs, List.map_filterMap, Option.map_map, Function.comp_def]
  have hsub : (o.tests.filterMap fun e => (o.config e).map fun _ => e.name).Sublist
      (o.tests.map Entry.name) := by
    generalize o.tests = entries
    induction entries with
    | nil => exact List.Sublist.slnil
    | cons e entries ih =>
      rcases hconfig : o.config e with _ | config
      · rw [List.filterMap_cons_none (by rw [hconfig]; rfl), List.map_cons]
        exact ih.cons _
      · rw [List.filterMap_cons_some (by rw [hconfig]; rfl), List.map_cons]
        exact ih.cons_cons _
  rw [hmap]
  exact hsub.nodup h

/-- Sorting by names that are distinct. -/
theorem pairwise_insertionSort_fst {l : List (String × VmshedConfig)}
    (h : (l.map Prod.fst).Nodup) :
    ((l.insertionSort (·.1 ≤ ·.1)).map Prod.fst).Pairwise (· < ·) := by
  have htotal : Std.Total fun a b : String × VmshedConfig => a.1 ≤ b.1 :=
    ⟨fun a b => le_total a.1 b.1⟩
  have htrans : IsTrans (String × VmshedConfig) fun a b => a.1 ≤ b.1 :=
    ⟨fun a b c => le_trans⟩
  have hle := List.pairwise_insertionSort (fun a b : String × VmshedConfig => a.1 ≤ b.1) l
  have hperm := (List.perm_insertionSort (fun a b : String × VmshedConfig => a.1 ≤ b.1) l).map
    Prod.fst
  have hnodup := hperm.nodup_iff.mpr h
  rw [List.pairwise_map]
  rw [List.Nodup, List.pairwise_map] at hnodup
  exact hle.imp₂ (fun a b hab hne => lt_of_le_of_ne hab hne) hnodup

/-- The sections that are printed are those of the selected tests, once each and in the
order of their names; and of the given versions only the lowest one needs to be tested. -/
theorem tests_selected (o : Outside) (args : Args) (hdir : TestsDir o)
    (hversions : ∀ v ∈ args.versions, Comparable v) :
    ∃ tests names : List String, main o args = .ok (header o args ++ tests) ∧
      tests.filter isTestHeader = names.map testHeader ∧
      names.Pairwise (· < ·) ∧
      (∀ name, name ∈ names ↔ ∃ e ∈ o.tests, e.name = name ∧ ∃ config, o.config e = some config ∧
        Selected args.versions args.selection config) ∧
      ∃ lower, lowerVersion (parseArgument args.drbdVersion) (parseArgument args.drbdVersionOther) =
          .ok lower ∧
        (∀ m, Comparable m → ((∃ l, lower = some l ∧ isLower l m = .ok true) ↔
          ∃ v ∈ args.versions, isLower v m = .ok true)) ∧
        ((∃ l, lower = some l ∧ BeforeNine l) ↔ ∃ v ∈ args.versions, BeforeNine v) := by
  classical
  obtain ⟨lower, hpick, hlowest⟩ := lowerVersion_eq hversions
  have hlowest : Lowest args.versions lower := hlowest
  have hread : o.tests.foldlM (readTest o args) [] = .ok o.testConfigs :=
    foldlM_readTest hdir.configured
  have hwf : ∀ test ∈ o.testConfigs, WellFormed test.2 := by
    intro test htest
    obtain ⟨e, he, _, hconfig⟩ := mem_testConfigs.mp htest
    have hfile : e.isFile = true := by
      by_contra hnot
      simp [Outside.config, hnot] at hconfig
    obtain ⟨config, hconfig', hwf⟩ := hdir.configured e he hfile
    rw [hconfig'] at hconfig
    cases hconfig
    exact hwf
  obtain ⟨blocks, hblocks, hfilter⟩ := mapM_filter (f := writeTest o args lower)
    (p := isTestHeader) (q := fun test => Selected args.versions args.selection test.2)
    (g := fun test => testHeader test.1) (l := o.testConfigs.insertionSort (·.1 ≤ ·.1))
    fun test htest => writeTest_eq hlowest hversions (hwf test ((List.mem_insertionSort _).mp htest))
      test.1
  refine ⟨blocks.flatten, ((o.testConfigs.insertionSort (·.1 ≤ ·.1)).filter fun test =>
    Selected args.versions args.selection test.2).map Prod.fst, ?_, ?_, ?_, ?_, lower, hpick, ?_, ?_⟩
  · change (lowerVersion _ _ >>= fun lower => _) = _
    rw [hpick]
    change (o.tests.foldlM (readTest o args) [] >>= fun testConfigs => _) = _
    rw [hread]
    change (List.mapM (writeTest o args lower) _ >>= fun tests => _) = _
    rw [hblocks]
    rfl
  · rw [hfilter, List.map_map]
    rfl
  · have hsub : (((o.testConfigs.insertionSort (·.1 ≤ ·.1)).filter fun test =>
        Selected args.versions args.selection test.2).map Prod.fst).Sublist
        ((o.testConfigs.insertionSort (·.1 ≤ ·.1)).map Prod.fst) := List.filter_sublist.map _
    exact (pairwise_insertionSort_fst (nodup_testConfigs hdir.names)).sublist hsub
  · intro name
    simp only [List.mem_map, List.mem_filter, List.mem_insertionSort, decide_eq_true_eq,
      mem_testConfigs]
    constructor
    · rintro ⟨test, ⟨⟨e, he, hname, hconfig⟩, hselected⟩, rfl⟩
      exact ⟨e, he, hname, test.2, hconfig, hselected⟩
    · rintro ⟨e, he, hname, config, hconfig, hselected⟩
      exact ⟨(name, config), ⟨⟨e, he, hname, hconfig⟩, hselected⟩, rfl⟩
  · intro m hm
    exact hlowest.isLower_iff hversions hm.elements
  · have hnine : (∃ v ∈ args.versions, BeforeNine v) ↔
        ∃ v ∈ args.versions, key v < key [.number 9] :=
      exists_congr fun v => and_congr_right fun hv => beforeNine_iff (hversions v hv)
    rw [hnine, ← hlowest.lt_iff]
    exact exists_congr fun l => and_congr_right fun hl =>
      beforeNine_iff (hversions l (hlowest.mem l hl))

/-- Two tests, with the versions 9.3 and 8.4. -/
def twoTests : Outside where
  tests := [⟨"sync", true, ["#!/usr/bin/env python3", "### vmshed: 9"]⟩,
    ⟨"__pycache__", false, []⟩, ⟨"add", true, ["### vmshed: 8"]⟩]
  variantsToml := "[[variants]]"
  loads json :=
    if json = "9" then .ok ⟨some [2, 3], none, none, some "9.0", [], [], false, []⟩
    else .ok ⟨some [2], some [2], none, some "8.4", [], [.since "tls" "9.2"], false, []⟩
  isPrintable _ := true

def twoVersions : Args := ⟨"tests", .all, some "9.3.0.latest", some "8.4", ["tcp"], "15m"⟩

theorem twoVersions_comparable : ∀ v ∈ twoVersions.versions, Comparable v := by
  have heq : twoVersions.versions = [[.number 9, .number 3, .infinity], [.number 8, .number 4]] := by
    decide +kernel
  rw [heq]
  simp only [List.mem_cons, List.not_mem_nil, or_false]
  rintro v (rfl | rfl)
  · exact comparable_cons (by decide)
  · exact comparable_cons (by decide)

theorem twoTests_dir : TestsDir twoTests := by
  have hmin : ∀ s ∈ ["9.0", "8.4", "9.2"], Comparable (parseVersion s) := by
    have hnine : parseVersion "9.0" = [.number 9, .number 0] := by decide +kernel
    have height : parseVersion "8.4" = [.number 8, .number 4] := by decide +kernel
    have htls : parseVersion "9.2" = [.number 9, .number 2] := by decide +kernel
    simp only [List.mem_cons, List.not_mem_nil, or_false]
    rintro s (rfl | rfl | rfl)
    · exact hnine ▸ comparable_cons (by decide)
    · exact height ▸ comparable_cons (by decide)
    · exact htls ▸ comparable_cons (by decide)
  refine ⟨by decide, ?_⟩
  simp only [twoTests, List.mem_cons, List.not_mem_nil, or_false]
  rintro e (rfl | rfl | rfl) hfile
  · refine ⟨⟨some [2, 3], none, none, some "9.0", [], [], false, []⟩, by decide +kernel, ?_⟩
    refine ⟨⟨2, [3], rfl⟩, ?_, by simp⟩
    rintro _ ⟨⟩
    exact hmin "9.0" (by simp)
  · cases hfile
  · refine ⟨⟨some [2], some [2], none, some "8.4", [], [.since "tls" "9.2"], false, []⟩,
      by decide +kernel, ?_⟩
    refine ⟨⟨2, [], rfl⟩, ?_, ?_⟩
    · rintro _ ⟨⟩
      exact hmin "8.4" (by simp)
    · intro variant minimum hmem
      obtain ⟨rfl, rfl⟩ : variant = "tls" ∧ minimum = "9.2" := by simpa using hmem
      exact hmin "9.2" (by simp)

theorem tests_selected_two :
    ∃ tests names : List String, main twoTests twoVersions = .ok (header twoTests twoVersions ++ tests) ∧
      tests.filter isTestHeader = names.map testHeader ∧
      names.Pairwise (· < ·) ∧
      (∀ name, name ∈ names ↔ ∃ e ∈ twoTests.tests, e.name = name ∧
        ∃ config, twoTests.config e = some config ∧
          Selected twoVersions.versions twoVersions.selection config) ∧
      ∃ lower, lowerVersion (parseArgument twoVersions.drbdVersion)
          (parseArgument twoVersions.drbdVersionOther) = .ok lower ∧
        (∀ m, Comparable m → ((∃ l, lower = some l ∧ isLower l m = .ok true) ↔
          ∃ v ∈ twoVersions.versions, isLower v m = .ok true)) ∧
        ((∃ l, lower = some l ∧ BeforeNine l) ↔ ∃ v ∈ twoVersions.versions, BeforeNine v) :=
  tests_selected twoTests twoVersions twoTests_dir twoVersions_comparable

end DrbdTests.Generator
