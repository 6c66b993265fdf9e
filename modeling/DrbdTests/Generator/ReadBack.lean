import DrbdTests.Generator.Repr
import DrbdTests.Lib.Toml.Origin
import DrbdTests.Lib.Toml.Tables
import Mathlib.Algebra.Order.BigOperators.Group.List

/-!
# Reading the test suite file

The names of the tests, and the fields of a network, are printed with no quoting at all. The
tests are read back as TOML exactly when the names are bare keys, and the lists of strings
consist of readable strings: `tests_read_back_iff`.
-/

namespace DrbdTests.Generator

open Toml (Key Value Item Items Path State Statement Step Bare Forward)

/-! ## What is printed -/

/-- A test that is written, with the values that are computed for it. -/
structure Section where
  name : String
  config : VmshedConfig
  vms : List Int
  variantsAdd : List String

def Section.lines (o : Outside) (args : Args) (s : Section) : List String :=
  printSection o args s.name s.config s.vms s.variantsAdd

def Section.variants (args : Args) (s : Section) : List String :=
  sortedSet (args.defaultVariants ++ s.variantsAdd)

/-- The test is selected, and the values are those that `main` computes. -/
structure Written (args : Args) (lower : Option Version) (s : Section) : Prop where
  selected : ∃ vms, s.config.vms args.selection = some vms ∧ dropLarge lower vms = .ok s.vms
  vms : s.vms ≠ []
  supported : tooOld lower s.config.drbdVersionMin = .ok false
  variantsAdd : parseVariantsAdd s.config.variantsAdd lower = .ok s.variantsAdd

/-- The section of a test of the directory. -/
def Computed (o : Outside) (args : Args) (s : Section) : Prop :=
  ∃ lower, lowerVersion (parseArgument args.drbdVersion) (parseArgument args.drbdVersionOther) =
    .ok lower ∧ (s.name, s.config) ∈ o.testConfigs ∧ Written args lower s

variable {o : Outside} {args : Args} {lower : Option Version}

theorem Written.unique {s t : Section} (hs : Written args lower s) (ht : Written args lower t)
    (hname : s.name = t.name) (hconfig : s.config = t.config) : s = t := by
  obtain ⟨vms, hvms, hkept⟩ := hs.selected
  obtain ⟨vms', hvms', hkept'⟩ := ht.selected
  have hadd := hs.variantsAdd
  rw [hconfig] at hvms hadd
  rw [hvms] at hvms'
  cases hvms'
  rw [hkept] at hkept'
  rw [ht.variantsAdd] at hadd
  obtain ⟨name, config, vms, variantsAdd⟩ := s
  obtain ⟨name', config', vms', variantsAdd'⟩ := t
  cases hname
  cases hconfig
  cases hkept'
  cases hadd
  rfl

theorem bind_ok {α β : Type} {x : Except PyError α} {f : α → Except PyError β} {b : β}
    (h : (x >>= f) = .ok b) : ∃ a, x = .ok a ∧ f a = .ok b := by
  cases x with
  | error e => cases h
  | ok a => exact ⟨a, rfl, h⟩

/-- The body of the loop prints the section of a test that is selected. -/
theorem writeTest_ok {test : String × VmshedConfig} {block : List String}
    (h : writeTest o args lower test = .ok block) :
    (block = [] ∧ ∀ s : Section, (s.name, s.config) = test → ¬ Written args lower s) ∨
      ∃ s : Section, (s.name, s.config) = test ∧ Written args lower s ∧ block = s.lines o args := by
  obtain ⟨name, config⟩ := test
  unfold writeTest at h
  rcases hvms : config.vms args.selection with _ | vms
  · rw [hvms] at h
    cases h
    refine Or.inl ⟨rfl, ?_⟩
    rintro s ⟨⟩ ⟨⟨vms, hsome, _⟩, _⟩
    rw [hvms] at hsome
    cases hsome
  rw [hvms] at h
  obtain ⟨kept, hkept, h⟩ := bind_ok h
  have hunique : ∀ s : Section, (s.name, s.config) = (name, config) → Written args lower s →
      s.vms = kept := by
    rintro s ⟨⟩ ⟨⟨vms', hsome, hkept'⟩, _⟩
    rw [hvms] at hsome
    cases hsome
    rw [hkept] at hkept'
    cases hkept'
    rfl
  split_ifs at h with hnil
  · cases h
    refine Or.inl ⟨rfl, fun s hs hwritten => hwritten.vms ?_⟩
    rw [hunique s hs hwritten, hnil]
  obtain ⟨old, hold, h⟩ := bind_ok h
  cases old with
  | true =>
    cases h
    refine Or.inl ⟨rfl, ?_⟩
    rintro s ⟨⟩ hwritten
    have hsupported := hwritten.supported
    rw [hold] at hsupported
    cases hsupported
  | false =>
    obtain ⟨variantsAdd, hadd, h⟩ := bind_ok h
    cases h
    exact Or.inr ⟨⟨name, config, kept, variantsAdd⟩, rfl, ⟨⟨vms, hvms, hkept⟩, hnil, hold, hadd⟩, rfl⟩

theorem mapM_writeTest {tests : List (String × VmshedConfig)} {blocks : List (List String)}
    (h : tests.mapM (writeTest o args lower) = .ok blocks) :
    ∃ sections : List Section, blocks.flatten = sections.flatMap (·.lines o args) ∧
      (∀ s, s ∈ sections ↔ (s.name, s.config) ∈ tests ∧ Written args lower s) ∧
      (sections.map Section.name).Sublist (tests.map Prod.fst) := by
  induction tests generalizing blocks with
  | nil =>
    cases h
    exact ⟨[], rfl, by simp, List.Sublist.slnil⟩
  | cons test tests ih =>
    rw [List.mapM_cons] at h
    obtain ⟨block, hblock, h⟩ := bind_ok h
    obtain ⟨rest, hrest, h⟩ := bind_ok h
    cases h
    obtain ⟨sections, hflat, hmem, hsub⟩ := ih hrest
    rcases writeTest_ok hblock with ⟨rfl, hnot⟩ | ⟨s, hs, hwritten, rfl⟩
    · refine ⟨sections, ?_, ?_, hsub.cons _⟩
      · rw [List.flatten_cons, List.nil_append, hflat]
      · intro t
        rw [hmem, List.mem_cons]
        constructor
        · rintro ⟨hin, ht⟩
          exact ⟨Or.inr hin, ht⟩
        · rintro ⟨heq | hin, ht⟩
          · exact absurd ht (hnot t heq)
          · exact ⟨hin, ht⟩
    · refine ⟨s :: sections, ?_, ?_, ?_⟩
      · rw [List.flatten_cons, List.flatMap_cons, hflat]
      · intro t
        rw [List.mem_cons, hmem, List.mem_cons]
        constructor
        · rintro (rfl | ⟨hin, ht⟩)
          · exact ⟨Or.inl hs, hwritten⟩
          · exact ⟨Or.inr hin, ht⟩
        · rintro ⟨heq | hin, ht⟩
          · rw [← hs] at heq
            exact Or.inl (ht.unique hwritten (Prod.mk.inj heq).1 (Prod.mk.inj heq).2)
          · exact Or.inr ⟨hin, ht⟩
      · rw [List.map_cons, List.map_cons, ← hs]
        exact hsub.cons_cons _

theorem readTest_ok {entry : Entry} {before after : List (String × VmshedConfig)}
    (h : readTest o args before entry = .ok after) :
    after = before ++ ((o.config entry).map (entry.name, ·)).toList := by
  unfold readTest at h
  split_ifs at h with hfile
  · cases h
    simp [Outside.config, hfile]
  · obtain ⟨found, hfound, h⟩ := bind_ok h
    have hconfig : o.config entry = found := by
      rw [Outside.config, if_pos (by simpa using hfile), hfound]
    cases found with
    | none => cases h
    | some config =>
      rw [hconfig]
      dsimp only at h
      split at h
      · cases h
      · cases h
      · cases h
        rfl

theorem foldlM_readTest_ok {entries : List Entry} {before after : List (String × VmshedConfig)}
    (h : entries.foldlM (readTest o args) before = .ok after) :
    after = before ++ entries.filterMap fun e => (o.config e).map (e.name, ·) := by
  induction entries generalizing before with
  | nil =>
    cases h
    rw [List.filterMap_nil, List.append_nil]
  | cons entry entries ih =>
    rw [List.foldlM_cons] at h
    obtain ⟨next, hnext, h⟩ := bind_ok h
    rw [ih h, readTest_ok hnext, List.append_assoc, List.filterMap_cons]
    cases o.config entry <;> rfl

/-- `main` prints the sections of the tests that are selected. -/
theorem main_ok {lines : List String} (hnames : (o.tests.map Entry.name).Nodup)
    (h : main o args = .ok (header o args ++ lines)) :
    ∃ sections : List Section, lines = sections.flatMap (·.lines o args) ∧
      (∀ s, s ∈ sections ↔ Computed o args s) ∧ (sections.map Section.name).Nodup := by
  obtain ⟨lower, hlower, hreading⟩ := bind_ok h
  obtain ⟨testConfigs, hread, hwriting⟩ := bind_ok hreading
  obtain ⟨blocks, hblocks, hprinted⟩ := bind_ok hwriting
  have hconfigs : testConfigs = o.testConfigs := foldlM_readTest_ok hread
  subst hconfigs
  obtain ⟨sections, hflat, hmem, hsub⟩ := mapM_writeTest hblocks
  have hlines : lines = blocks.flatten := by
    change Except.ok (header o args ++ blocks.flatten) = _ at hprinted
    exact (List.append_cancel_left (Except.ok.inj hprinted)).symm
  refine ⟨sections, by rw [hlines, hflat], ?_, ?_⟩
  · intro s
    rw [hmem, List.mem_insertionSort]
    constructor
    · rintro ⟨hin, hs⟩
      exact ⟨lower, hlower, hin, hs⟩
    · rintro ⟨lower', hlower', hin, hs⟩
      rw [hlower] at hlower'
      cases hlower'
      exact ⟨hin, hs⟩
  · refine hsub.nodup ?_
    have hperm := (List.perm_insertionSort (fun a b : String × VmshedConfig => a.1 ≤ b.1)
      o.testConfigs).map Prod.fst
    exact hperm.nodup_iff.mpr (nodup_testConfigs hnames)

/-! ## The statements of a section -/

/-- In double quotes, the text is one string of TOML. -/
def Quotable (s : String) : Prop :=
  ∃ value, Toml.readBasic .plain (s.toList ++ ['"']) = some (value, [])

/-- The string of TOML. -/
def unquoted (s : String) : List Char :=
  ((Toml.readBasic .plain (s.toList ++ ['"'])).map (·.1)).getD []

def testKeys (name : String) : List Key := ["tests".toList, name.toList]

/-- A printed line, with what it says. -/
structure Printed where
  text : String
  statement : Option Statement

/-- The line `word = text`. -/
def assignLine (word text : String) (value : Value) : Printed :=
  ⟨word ++ " = " ++ text, some (.assign [word.toList] value)⟩

def Section.assigns (o : Outside) (args : Args) (s : Section) : List Printed :=
  [assignLine "vms" (strList (s.vms.map toString)) (intArray s.vms)] ++
  (if s.config.vmTags ≠ [] then
    [assignLine "vm_tags" (strList (s.config.vmTags.map (reprStr o))) (stringArray s.config.vmTags)]
  else []) ++
  [assignLine "variants" (strList ((s.variants args).map (reprStr o)))
    (stringArray (s.variants args))] ++
  (if s.config.samevms then [assignLine "samevms" "true" (.boolean true)] else [])

def networkAssigns (network : Network) : List Printed :=
  [assignLine "forward" ("\"" ++ network.forward.getD "" ++ "\"")
      (.string (unquoted (network.forward.getD ""))),
    assignLine "domain" ("\"" ++ network.domain.getD "" ++ "\"")
      (.string (unquoted (network.domain.getD ""))),
    assignLine "dhcp" (if network.dhcp then "true" else "false") (.boolean network.dhcp)]

def networkPrinted (name : String) (network : Network) : List Printed :=
  ⟨"[[tests." ++ name ++ ".networks]]", some (.tables (testKeys name ++ ["networks".toList]))⟩ ::
    networkAssigns network

def Section.printed (o : Outside) (args : Args) (s : Section) : List Printed :=
  ⟨testHeader s.name, some (.table (testKeys s.name))⟩ :: s.assigns o args ++
    s.config.networks.flatMap (networkPrinted s.name) ++ [⟨"", none⟩]

theorem networkPrinted_text (name : String) (network : Network) :
    (networkPrinted name network).map Printed.text = printNetwork name network := by
  have hforward : "forward = \"" = "forward" ++ " = " ++ "\"" := by decide
  have hdomain : "domain = \"" = "domain" ++ " = " ++ "\"" := by decide
  have hdhcp : "dhcp = " = "dhcp" ++ " = " := by decide
  rw [printNetwork, hforward, hdomain, hdhcp]
  simp only [networkPrinted, networkAssigns, assignLine, List.map_cons, List.map_nil,
    String.append_assoc]

/-- The lines of a section are printed. -/
theorem printed_text (s : Section) : (s.printed o args).map Printed.text = s.lines o args := by
  have hvms : "vms = " = "vms" ++ " = " := by decide
  have htags : "vm_tags = " = "vm_tags" ++ " = " := by decide
  have hvariants : "variants = " = "variants" ++ " = " := by decide
  have hsamevms : "samevms = true" = "samevms" ++ " = " ++ "true" := by decide
  have hnetworks : (s.config.networks.flatMap (networkPrinted s.name)).map Printed.text =
      s.config.networks.flatMap (printNetwork s.name) := by
    rw [List.map_flatMap]
    exact congrArg (List.flatMap · _) (funext fun network => networkPrinted_text s.name network)
  rw [Section.lines, printSection, hvms, htags, hvariants, hsamevms, Section.printed]
  simp only [List.cons_append, List.map_cons, List.map_append, hnetworks, Section.assigns]
  split_ifs <;> simp [assignLine, Section.variants]

/-- The strings of a section are read back, and its name needs no quotes. -/
structure Representable (o : Outside) (args : Args) (s : Section) : Prop where
  name : Bare s.name.toList
  vmTags : ∀ tag ∈ s.config.vmTags, Readable o tag
  variants : ∀ variant ∈ args.defaultVariants ++ s.variantsAdd, Readable o variant

/-- The fields of the networks of a section can be printed with no quoting. -/
def QuotableNetworks (s : Section) : Prop :=
  ∀ network ∈ s.config.networks,
    Quotable (network.forward.getD "") ∧ Quotable (network.domain.getD "")

variable {other : List Char → Option (Value × List Char)} {s : Section}

/-- What is read of a printed line is what it says. -/
def Printed.Reads (other : List Char → Option (Value × List Char)) (line : Printed) : Prop :=
  Toml.Line other line.text.toList line.statement

theorem mem_sortedSet {l : List String} {a : String} : a ∈ sortedSet l ↔ a ∈ l := by
  rw [sortedSet, List.mem_insertionSort, List.mem_dedup]

theorem toList_assignLine (word text : String) (value : Value) :
    (assignLine word text value).text.toList = word.toList ++ ' ' :: '=' :: ' ' :: text.toList := by
  change (word ++ " = " ++ text).toList = _
  rw [String.toList_append, String.toList_append, List.append_assoc]
  rfl

theorem reads_assignLine {word text : String} {value : Value} (hword : Bare word.toList)
    (htext : text.toList ≠ []) (hblank : ∀ c ∈ text.toList.head?, Toml.isBlank c = false)
    (hvalue : ∀ n rest, Toml.readValue other (n + 2) (text.toList ++ '\n' :: rest) =
      some (value, '\n' :: rest)) : (assignLine word text value).Reads other := by
  unfold Printed.Reads
  rw [toList_assignLine]
  exact Toml.line_assign hword htext hblank hvalue

theorem bare_of_all {word : String} (hne : word.toList ≠ [])
    (h : word.toList.all Toml.isBare = true) : Bare word.toList :=
  ⟨hne, List.all_eq_true.mp h⟩

theorem bare_tests : Bare "tests".toList := bare_of_all (by decide) (by decide)

theorem bare_vmTags : Bare "vm_tags".toList := bare_of_all (by decide) (by decide)

theorem bare_variants : Bare "variants".toList := bare_of_all (by decide) (by decide)

theorem reads_strList {word : String} (hword : Bare word.toList) {reprs : List String} {value : Value}
    (hvalue : ∀ n rest, Toml.readValue other (n + 2) ((strList reprs).toList ++ rest) =
      some (value, rest)) : (assignLine word (strList reprs) value).Reads other := by
  refine reads_assignLine hword ?_ ?_ fun n rest => hvalue n ('\n' :: rest)
  · rw [toList_strList]
    exact List.cons_ne_nil _ _
  · rw [toList_strList]
    rintro c ⟨⟩
    decide

theorem head_boolean (b : Bool) :
    ∀ c ∈ (if b then "true" else "false").toList.head?, Toml.isBlank c = false := by
  intro c hc
  cases b with
  | false =>
    have hf : some 'f' = some c := hc
    rw [← Option.some.inj hf]
    rfl
  | true =>
    have ht : some 't' = some c := hc
    rw [← Option.some.inj ht]
    rfl

theorem reads_boolean {word : String} (hword : Bare word.toList) (b : Bool) :
    (assignLine word (if b then "true" else "false") (.boolean b)).Reads other := by
  refine reads_assignLine hword ?_ (head_boolean b) fun n rest =>
    Toml.readValue_boolean b (n + 1) rest
  cases b <;> decide

theorem reads_quoted {word text : String} (hword : Bare word.toList) (htext : Quotable text) :
    (assignLine word ("\"" ++ text ++ "\"") (.string (unquoted text))).Reads other := by
  have htoList : ("\"" ++ text ++ "\"").toList = '"' :: text.toList ++ ['"'] := by
    rw [String.toList_append, String.toList_append]
    rfl
  obtain ⟨value, hvalue⟩ := htext
  have hunquoted : unquoted text = value := by
    rw [unquoted, hvalue]
    rfl
  refine reads_assignLine hword ?_ ?_ fun n rest => ?_
  · rw [htoList]
    exact List.cons_ne_nil _ _
  · rw [htoList]
    rintro c ⟨⟩
    decide
  · rw [htoList, hunquoted]
    exact Toml.readValue_quoted hvalue (n + 1) rest

theorem reads_header {name : String} (hname : Bare name.toList) :
    Printed.Reads other ⟨testHeader name, some (.table (testKeys name))⟩ := by
  have htoList : (testHeader name).toList = '[' :: (['.'].intercalate (testKeys name) ++ [']']) := by
    rw [testHeader, String.toList_append, String.toList_append]
    simp [testKeys, List.intercalate, List.intersperse]
  change Toml.Line other (testHeader name).toList _
  rw [htoList]
  refine Toml.line_table ?_ (List.cons_ne_nil _ _)
  intro key hkey
  rcases List.mem_cons.mp hkey with rfl | hkey
  · exact bare_tests
  · rw [List.mem_singleton.mp hkey]
    exact hname

theorem reads_network {name : String} (hname : Bare name.toList) {network : Network}
    (hforward : Quotable (network.forward.getD "")) (hdomain : Quotable (network.domain.getD "")) :
    ∀ line ∈ networkPrinted name network, line.Reads other := by
  have hkeys : ∀ key ∈ testKeys name ++ ["networks".toList], Bare key := by
    intro key hkey
    simp only [testKeys, List.cons_append, List.nil_append, List.mem_cons, List.not_mem_nil,
      or_false] at hkey
    rcases hkey with rfl | rfl | rfl
    · exact bare_tests
    · exact hname
    · exact bare_of_all (by decide) (by decide)
  have htoList : ("[[tests." ++ name ++ ".networks]]").toList =
      '[' :: '[' :: (['.'].intercalate (testKeys name ++ ["networks".toList]) ++ [']', ']']) := by
    rw [String.toList_append, String.toList_append]
    simp [testKeys, List.intercalate, List.intersperse]
  have hheader : Printed.Reads other ⟨"[[tests." ++ name ++ ".networks]]",
      some (.tables (testKeys name ++ ["networks".toList]))⟩ := by
    change Toml.Line other ("[[tests." ++ name ++ ".networks]]").toList _
    rw [htoList]
    exact Toml.line_tables hkeys (by simp)
  intro line hline
  simp only [networkPrinted, networkAssigns, List.mem_cons, List.not_mem_nil, or_false] at hline
  rcases hline with rfl | rfl | rfl | rfl
  · exact hheader
  · exact reads_quoted (bare_of_all (by decide) (by decide)) hforward
  · exact reads_quoted (bare_of_all (by decide) (by decide)) hdomain
  · exact reads_boolean (bare_of_all (by decide) (by decide)) network.dhcp

theorem reads_vms (s : Section) :
    (assignLine "vms" (strList (s.vms.map toString)) (intArray s.vms)).Reads other :=
  reads_strList (bare_of_all (by decide) (by decide)) fun n rest => readValue_ints s.vms n rest

theorem reads_strings {word : String} (hword : Bare word.toList) {l : List String}
    (hl : ∀ a ∈ l, Readable o a) :
    (assignLine word (strList (l.map (reprStr o))) (stringArray l)).Reads other :=
  reads_strList hword fun n rest => readValue_strings hl n rest

theorem reads_assigns (hs : Representable o args s) :
    ∀ line ∈ s.assigns o args, line.Reads other := by
  have hvariants : ∀ variant ∈ s.variants args, Readable o variant :=
    fun variant hmem => hs.variants variant (mem_sortedSet.mp hmem)
  intro line hline
  unfold Section.assigns at hline
  simp only [List.mem_append, List.mem_singleton] at hline
  rcases hline with ((rfl | hline) | rfl) | hline
  · exact reads_vms s
  · split_ifs at hline with htags
    · rw [List.mem_singleton.mp hline]
      exact reads_strings bare_vmTags hs.vmTags
    · cases hline
  · exact reads_strings bare_variants hvariants
  · split_ifs at hline with hsame
    · rw [List.mem_singleton.mp hline]
      exact reads_boolean (bare_of_all (by decide) (by decide)) true
    · cases hline

/-- The lines of a section whose strings are readable. -/
theorem reads_printed (hs : Representable o args s) (hnetworks : QuotableNetworks s) :
    ∀ line ∈ s.printed o args, line.Reads other := by
  intro line hline
  unfold Section.printed at hline
  rw [List.mem_append, List.cons_append, List.mem_cons, List.mem_append, List.mem_singleton] at hline
  rcases hline with (rfl | hline | hline) | rfl
  · exact reads_header hs.name
  · exact reads_assigns hs line hline
  · obtain ⟨network, hnetwork, hmem⟩ := List.mem_flatMap.mp hline
    obtain ⟨hforward, hdomain⟩ := hnetworks network hnetwork
    exact reads_network hs.name hforward hdomain line hmem
  · exact Toml.line_nil

/-! ## What the statements define -/

def testPath (name : String) : Path := (testKeys name).map .key

/-- The table of a test has the values of its section. -/
structure SectionRead (args : Args) (items : Items) (s : Section) : Prop where
  table : ∃ item, items (testPath s.name) = some item ∧ item.IsTable
  vms : items (testPath s.name ++ [Step.key "vms".toList]) = some (.value (intArray s.vms))
  vmTags : items (testPath s.name ++ [Step.key "vm_tags".toList]) =
    if s.config.vmTags = [] then none else some (.value (stringArray s.config.vmTags))
  variants : items (testPath s.name ++ [Step.key "variants".toList]) =
    some (.value (stringArray (s.variants args)))

/-- The keys in the table of a test, with their values. -/
def Section.pairs (args : Args) (s : Section) : List (Key × Value) :=
  [("vms".toList, intArray s.vms)] ++
  (if s.config.vmTags ≠ [] then [("vm_tags".toList, stringArray s.config.vmTags)] else []) ++
  [("variants".toList, stringArray (s.variants args))] ++
  (if s.config.samevms then [("samevms".toList, .boolean true)] else [])

def networkPairs (network : Network) : List (Key × Value) :=
  [("forward".toList, .string (unquoted (network.forward.getD ""))),
    ("domain".toList, .string (unquoted (network.domain.getD ""))),
    ("dhcp".toList, .boolean network.dhcp)]

def Section.statements (args : Args) (s : Section) : List Statement :=
  .table (testKeys s.name) :: (s.pairs args).map (fun a => .assign [a.1] a.2) ++
    s.config.networks.flatMap fun network =>
      .tables (testKeys s.name ++ ["networks".toList]) ::
        (networkPairs network).map fun a => .assign [a.1] a.2

theorem assigns_statements (s : Section) : (s.assigns o args).filterMap Printed.statement =
    (s.pairs args).map fun a => .assign [a.1] a.2 := by
  unfold Section.assigns Section.pairs
  simp only [List.filterMap_append, List.map_append]
  split_ifs <;> rfl

theorem printed_statements (s : Section) :
    (s.printed o args).filterMap Printed.statement = s.statements args := by
  have hnetworks : (s.config.networks.flatMap (networkPrinted s.name)).filterMap
      Printed.statement = s.config.networks.flatMap fun network =>
        .tables (testKeys s.name ++ ["networks".toList]) ::
          (networkPairs network).map fun a => .assign [a.1] a.2 := by
    rw [List.filterMap_flatMap]
    rfl
  have hheader : ∀ lines : List Printed,
      (⟨testHeader s.name, some (.table (testKeys s.name))⟩ :: lines).filterMap Printed.statement =
        .table (testKeys s.name) :: lines.filterMap Printed.statement := fun lines => rfl
  have hend : [(⟨"", none⟩ : Printed)].filterMap Printed.statement = [] := rfl
  rw [Section.printed, Section.statements, List.filterMap_append, List.cons_append, hheader,
    List.filterMap_append, assigns_statements, hnetworks, hend, List.append_nil]
  rfl

theorem nodup_pairs (s : Section) : ((s.pairs args).map Prod.fst).Nodup := by
  unfold Section.pairs
  simp only [List.map_append]
  split_ifs <;> simp

theorem nodup_networkPairs (network : Network) :
    ((networkPairs network).map Prod.fst).Nodup := by
  simp only [networkPairs, List.map_cons, List.map_nil]
  decide

theorem networks_not_mem (s : Section) : "networks".toList ∉ (s.pairs args).map Prod.fst := by
  unfold Section.pairs
  simp only [List.map_append]
  split_ifs <;> simp

theorem vmTags_not_mem (h : s.config.vmTags = []) :
    "vm_tags".toList ∉ (s.pairs args).map Prod.fst := by
  unfold Section.pairs
  simp only [List.map_append, h, ne_eq, not_true_eq_false, if_false]
  split_ifs <;> simp

theorem vms_mem (s : Section) : ("vms".toList, intArray s.vms) ∈ s.pairs args := by
  unfold Section.pairs
  rw [List.append_assoc, List.append_assoc]
  exact List.mem_append_left _ (List.mem_singleton_self _)

theorem vmTags_mem (h : s.config.vmTags ≠ []) :
    ("vm_tags".toList, stringArray s.config.vmTags) ∈ s.pairs args := by
  unfold Section.pairs
  rw [if_pos h, List.append_assoc]
  exact List.mem_append_left _ (List.mem_append_right _ (List.mem_singleton_self _))

theorem variants_mem (s : Section) :
    ("variants".toList, stringArray (s.variants args)) ∈ s.pairs args := by
  unfold Section.pairs
  exact List.mem_append_left _ (List.mem_append_right _ (List.mem_singleton_self _))

/-- The header and the assignments of a section. -/
theorem execute_pairs {state : State} (htests : state.items [Step.key "tests".toList] = some .table)
    (hnew : ∀ p, state.items (testPath s.name ++ p) = none) {pairs : List (Key × Value)}
    (hnodup : (pairs.map Prod.fst).Nodup) :
    ∃ state', Toml.execute (.table (testKeys s.name) :: pairs.map fun a => .assign [a.1] a.2) state =
        some state' ∧ state'.current = testPath s.name ∧
      state'.items (testPath s.name) = some .table ∧
      (∀ a ∈ pairs, state'.items (testPath s.name ++ [Step.key a.1]) = some (.value a.2)) ∧
      ∀ p, p ≠ testPath s.name → (∀ a ∈ pairs, p ≠ testPath s.name ++ [Step.key a.1]) →
        state'.items p = state.items p := by
  have hfront : ∀ keys, keys <+: ["tests".toList] → keys ≠ [] →
      state.items (keys.map .key) = some .table := by
    intro keys hkeys hne
    rcases keys with _ | ⟨key, keys⟩
    · exact absurd rfl hne
    · obtain ⟨rfl, hnil⟩ := List.cons_prefix_cons.mp hkeys
      rw [List.prefix_nil.mp hnil]
      exact htests
  have hself : state.items (testPath s.name) = none := by
    have h := hnew []
    rwa [List.append_nil] at h
  have hstep : Toml.step state (.table (testKeys s.name)) = _ := Toml.step_table hfront hself
  have hpairs : ∀ a ∈ pairs, Function.update state.items (testPath s.name) (some .table)
      (testPath s.name ++ [Step.key a.1]) = none := by
    intro a _
    rw [Function.update_of_ne (by simp), hnew]
  obtain ⟨state', hexecute, hcurrent, hvalues, hframe⟩ :=
    @Toml.execute_assigns ⟨Function.update state.items (testPath s.name) (some .table),
      testPath s.name⟩ pairs hnodup hpairs
  refine ⟨state', ?_, hcurrent, ?_, hvalues, ?_⟩
  · rw [Toml.execute_cons, hstep]
    exact hexecute
  · rw [hframe _ fun a _ => by simp]
    exact Function.update_self _ _ _
  · intro p hp hother
    rw [hframe p hother]
    exact Function.update_of_ne hp _ _

/-- A section defines its table, and nothing else. -/
theorem execute_section (args : Args) {state : State}
    (htests : state.items [Step.key "tests".toList] = some .table)
    (hnew : ∀ p, state.items (testPath s.name ++ p) = none) :
    ∃ state', Toml.execute (s.statements args) state = some state' ∧
      (∀ p, ¬ testPath s.name <+: p → state'.items p = state.items p) ∧
      SectionRead args state'.items s := by
  obtain ⟨filled, hfill, _, htable, hvalues, hframe⟩ := execute_pairs htests hnew (nodup_pairs s)
  have hother : ∀ key, key ∉ (s.pairs args).map Prod.fst →
      filled.items (testPath s.name ++ [Step.key key]) = none := by
    intro key hkey
    rw [hframe _ (by simp), hnew]
    intro a ha heq
    have hsame : key = a.1 := by simpa using List.append_cancel_left heq
    exact hkey (hsame ▸ List.mem_map_of_mem ha)
  have hoff : ∀ p, ¬ testPath s.name <+: p → filled.items p = state.items p := by
    intro p hp
    refine hframe p ?_ fun a _ => Toml.ne_append hp _
    rintro rfl
    exact hp List.prefix_rfl
  have hfront : ∀ keys, keys <+: testKeys s.name → keys ≠ [] →
      filled.items (keys.map .key) = some .table := by
    intro keys hkeys hne
    have htests' : filled.items [Step.key "tests".toList] = some .table := by
      rw [hoff _ fun h => absurd h.length_le (by simp [testPath, testKeys]), htests]
    rcases keys with _ | ⟨key, keys⟩
    · exact absurd rfl hne
    obtain ⟨rfl, hrest⟩ := List.cons_prefix_cons.mp hkeys
    rcases keys with _ | ⟨key, keys⟩
    · exact htests'
    · obtain ⟨rfl, hnil⟩ := List.cons_prefix_cons.mp hrest
      rw [List.prefix_nil.mp hnil]
      exact htable
  have hlast : filled.items ((testKeys s.name).map .key ++ [Step.key "networks".toList]) =
      if 0 = 0 then none else some (.tables 0) := hother _ (networks_not_mem s)
  have helements : ∀ i, 0 ≤ i → ∀ p, filled.items ((testKeys s.name).map .key ++
      [Step.key "networks".toList] ++ Step.element i :: p) = none := by
    intro i _ p
    change filled.items (testPath s.name ++ [Step.key "networks".toList] ++ Step.element i :: p) = none
    rw [hframe, List.append_assoc, hnew]
    · simp
    · intro a _
      simp
  have hnodup : ∀ network ∈ s.config.networks, ((networkPairs network).map Prod.fst).Nodup :=
    fun network _ => nodup_networkPairs network
  obtain ⟨state', hexecute, hnetworks⟩ := Toml.execute_elements hnodup hfront hlast helements
  have hkeep : ∀ key, key ≠ "networks".toList →
      state'.items (testPath s.name ++ [Step.key key]) =
        filled.items (testPath s.name ++ [Step.key key]) := by
    intro key hkey
    refine hnetworks _ fun h => hkey ?_
    have hprefix := (List.prefix_append_right_inj (testPath s.name)).mp h
    simpa using (List.cons_prefix_cons.mp hprefix).1.symm
  have hmem : ∀ a ∈ s.pairs args, a.1 ≠ "networks".toList → state'.items
      (testPath s.name ++ [Step.key a.1]) = some (.value a.2) := by
    intro a ha hkey
    rw [hkeep a.1 hkey, hvalues a ha]
  refine ⟨state', ?_, ?_, ?_, ?_, ?_, ?_⟩
  · rw [Section.statements, Toml.execute_append, hfill]
    exact hexecute
  · intro p hp
    rw [hnetworks p fun h => hp ((List.prefix_append _ _).trans h), hoff p hp]
  · refine ⟨.table, ?_, trivial⟩
    rw [hnetworks _ fun h => absurd h.length_le (by simp [testPath]), htable]
  · exact hmem _ (vms_mem s) (show "vms".toList ≠ "networks".toList by decide)
  · by_cases htags : s.config.vmTags = []
    · rw [if_pos htags, hkeep _ (by decide), hother _ (vmTags_not_mem htags)]
    · rw [if_neg htags]
      exact hmem _ (vmTags_mem htags) (show "vm_tags".toList ≠ "networks".toList by decide)
  · exact hmem _ (variants_mem s) (show "variants".toList ≠ "networks".toList by decide)

theorem SectionRead.congr {items items' : Items} (h : SectionRead args items s)
    (heq : ∀ p, testPath s.name <+: p → items' p = items p) : SectionRead args items' s := by
  have hkey : ∀ key, items' (testPath s.name ++ [Step.key key]) =
      items (testPath s.name ++ [Step.key key]) := fun key => heq _ (List.prefix_append _ _)
  obtain ⟨item, hitem, htable⟩ := h.table
  exact ⟨⟨item, (heq _ List.prefix_rfl).trans hitem, htable⟩, (hkey _).trans h.vms,
    (hkey _).trans h.vmTags, (hkey _).trans h.variants⟩

theorem testPath_inj {name name' : String} {p : Path}
    (h : testPath name <+: testPath name' ++ p) : name = name' := by
  have htail := (List.cons_prefix_cons.mp h).2
  have hkey : Step.key name.toList = Step.key name'.toList := (List.cons_prefix_cons.mp htail).1
  exact String.toList_injective (Step.key.inj hkey)

theorem not_prefix_tests (name : String) : ¬ testPath name <+: [Step.key "tests".toList] := by
  intro h
  exact absurd h.length_le (by simp [testPath, testKeys])

/-- Sections with different names define their tables. -/
theorem execute_sections (args : Args) {sections : List Section}
    (hnames : (sections.map Section.name).Nodup)
    {state : State} (htests : state.items [Step.key "tests".toList] = some .table)
    (hnew : ∀ s ∈ sections, ∀ p, state.items (testPath s.name ++ p) = none) :
    ∃ state', Toml.execute (sections.flatMap (·.statements args)) state = some state' ∧
      (∀ p, (∀ s ∈ sections, ¬ testPath s.name <+: p) → state'.items p = state.items p) ∧
      ∀ s ∈ sections, SectionRead args state'.items s := by
  induction sections generalizing state with
  | nil => exact ⟨state, rfl, fun _ _ => rfl, by simp⟩
  | cons s sections ih =>
    rw [List.map_cons, List.nodup_cons] at hnames
    obtain ⟨next, hstep, hframe, hread⟩ :=
      execute_section args htests (hnew s List.mem_cons_self)
    have hother : ∀ t ∈ sections, ∀ p, ¬ testPath s.name <+: testPath t.name ++ p := by
      intro t ht p h
      have hmem : t.name ∈ sections.map Section.name := List.mem_map_of_mem ht
      rw [← testPath_inj h] at hmem
      exact hnames.1 hmem
    have htests' : next.items [Step.key "tests".toList] = some .table := by
      rw [hframe _ (not_prefix_tests _), htests]
    have hnew' : ∀ t ∈ sections, ∀ p, next.items (testPath t.name ++ p) = none := by
      intro t ht p
      rw [hframe _ (hother t ht p), hnew t (List.mem_cons_of_mem _ ht)]
    obtain ⟨state', hexecute, hkeep, hall⟩ := ih hnames.2 htests' hnew'
    refine ⟨state', ?_, ?_, ?_⟩
    · rw [List.flatMap_cons, Toml.execute_append, hstep]
      exact hexecute
    · intro p hp
      rw [hkeep p fun t ht => hp t (List.mem_cons_of_mem _ ht), hframe p (hp s List.mem_cons_self)]
    · intro t ht
      rcases List.mem_cons.mp ht with rfl | ht
      · refine hread.congr fun p hp => hkeep p fun u hu hprefix => ?_
        obtain ⟨more, rfl⟩ := hp
        have hmem : u.name ∈ sections.map Section.name := List.mem_map_of_mem hu
        rw [testPath_inj hprefix] at hmem
        exact hnames.1 hmem
      · exact hall t ht

/-- The state after the header of the tests. -/
def testsState : State :=
  ⟨Function.update (fun _ => none) [Step.key "tests".toList] (some .table),
    [Step.key "tests".toList]⟩

theorem step_tests : Toml.step .start (.table ["tests".toList]) = some testsState := rfl

theorem testsState_items : testsState.items =
    Function.update (fun _ => none) [Step.key "tests".toList] (some .table) := rfl

theorem testsState_tests : testsState.items [Step.key "tests".toList] = some .table := by
  rw [testsState_items, Function.update_self]

theorem testsState_none {p : Path} (hp : p ≠ [Step.key "tests".toList]) :
    testsState.items p = none := by
  rw [testsState_items, Function.update_of_ne hp]

/-! ## Sufficiency -/

def printedText (l : List Printed) : List Char := l.flatMap fun line => line.text.toList ++ ['\n']

/-- The part of the output that holds the tests. -/
def testsText (lines : List String) : List Char :=
  ("[tests]" :: lines).flatMap fun line => line.toList ++ ['\n']

/-- The table of the tests has one table for each selected test, with the values that are
computed for it, and no other key. -/
structure ReadsBack (o : Outside) (args : Args) (items : Items) : Prop where
  tests : ∀ key, items [Step.key "tests".toList, Step.key key] ≠ none ↔
    ∃ s, Computed o args s ∧ s.name.toList = key
  sections : ∀ s, Computed o args s → SectionRead args items s

theorem readStatements_printed {l : List Printed} (h : ∀ line ∈ l, line.Reads other) (n : Nat)
    (rest : List Char) : Toml.readStatements other (l.length + n) (printedText l ++ rest) =
      (Toml.readStatements other n rest).map (l.filterMap Printed.statement ++ ·) := by
  have hlines : ∀ line ∈ l.map fun line => (line.text.toList, line.statement),
      Toml.Line other line.1 line.2 := by
    intro line hline
    obtain ⟨p, hp, rfl⟩ := List.mem_map.mp hline
    exact h p hp
  have hread := Toml.readStatements_lines hlines n rest
  rw [List.length_map, List.flatMap_map, List.filterMap_map] at hread
  exact hread

def testsHeader : Printed := ⟨"[tests]", some (.table ["tests".toList])⟩

theorem reads_testsHeader : testsHeader.Reads other := by
  have hkeys : ∀ key ∈ ["tests".toList], Bare key := by
    intro key hkey
    rw [List.mem_singleton.mp hkey]
    exact bare_tests
  have hline : Toml.Line other ('[' :: (['.'].intercalate ["tests".toList] ++ [']']))
      (some (.table ["tests".toList])) := Toml.line_table hkeys (List.cons_ne_nil _ _)
  exact hline

/-- The lines of the part with the tests. -/
def printedTests (o : Outside) (args : Args) (sections : List Section) : List Printed :=
  testsHeader :: sections.flatMap (·.printed o args)

theorem printedTests_text (sections : List Section) :
    (printedTests o args sections).map Printed.text =
      "[tests]" :: sections.flatMap (·.lines o args) := by
  have hlines : (sections.flatMap (·.printed o args)).map Printed.text =
      sections.flatMap (·.lines o args) := by
    simp only [List.map_flatMap, printed_text]
  rw [printedTests, List.map_cons, hlines, testsHeader]

theorem testsText_eq (sections : List Section) :
    testsText (sections.flatMap (·.lines o args)) = printedText (printedTests o args sections) := by
  unfold testsText printedText
  rw [← printedTests_text, List.flatMap_map]

theorem printedTests_statements (sections : List Section) :
    (printedTests o args sections).filterMap Printed.statement =
      .table ["tests".toList] :: sections.flatMap (·.statements args) := by
  have hsections : (sections.flatMap (·.printed o args)).filterMap Printed.statement =
      sections.flatMap (·.statements args) := by
    simp only [List.filterMap_flatMap, printed_statements]
  have hheader : testsHeader.statement = some (.table ["tests".toList]) := rfl
  rw [printedTests, List.filterMap_cons_some hheader, hsections]

theorem reads_printedTests (other : List Char → Option (Value × List Char))
    {sections : List Section}
    (hsections : ∀ s ∈ sections, Representable o args s)
    (hnetworks : ∀ s ∈ sections, QuotableNetworks s) :
    ∀ line ∈ printedTests o args sections, line.Reads other := by
  intro line hline
  rcases List.mem_cons.mp hline with rfl | hline
  · exact reads_testsHeader
  · obtain ⟨s, hs, hmem⟩ := List.mem_flatMap.mp hline
    exact reads_printed (hsections s hs) (hnetworks s hs) line hmem

theorem length_le_printedText (l : List Printed) : l.length ≤ (printedText l).length := by
  induction l with
  | nil => exact Nat.zero_le _
  | cons line l ih =>
    simp only [printedText, List.flatMap_cons, List.length_append, List.length_cons] at ih ⊢
    omega

/-- The sections of representable tests are read back. -/
theorem document_sections {sections : List Section}
    (hsections : ∀ s ∈ sections, Representable o args s)
    (hnetworks : ∀ s ∈ sections, QuotableNetworks s) (hnames : (sections.map Section.name).Nodup) :
    ∃ items, Toml.document other (testsText (sections.flatMap (·.lines o args))) = some items ∧
      (∀ key, items [Step.key "tests".toList, Step.key key] ≠ none ↔
        ∃ s ∈ sections, s.name.toList = key) ∧
      ∀ s ∈ sections, SectionRead args items s := by
  have hnew : ∀ s ∈ sections, ∀ p, testsState.items (testPath s.name ++ p) = none := by
    intro s _ p
    apply testsState_none
    simp [testPath, testKeys]
  obtain ⟨state, hexecute, hframe, hread⟩ :=
    execute_sections args hnames testsState_tests hnew
  refine ⟨state.items, ?_, ?_, hread⟩
  · have hread := fun n =>
      readStatements_printed (reads_printedTests other hsections hnetworks) n []
    obtain ⟨n, hn⟩ := Nat.exists_eq_add_of_le
      (length_le_printedText (printedTests o args sections))
    have hstatements : Toml.readStatements other (printedText (printedTests o args sections)).length
        (printedText (printedTests o args sections)) =
          some ((printedTests o args sections).filterMap Printed.statement) := by
      have hn' := hread n
      have hnil : Toml.readStatements other n [] = some [] := by cases n <;> rfl
      rw [← hn, List.append_nil, hnil, Option.map_some, List.append_nil] at hn'
      exact hn'
    rw [Toml.document_eq_some, testsText_eq]
    refine ⟨_, state, hstatements, ?_, rfl⟩
    rw [printedTests_statements, Toml.execute_cons, step_tests]
    exact hexecute
  · intro key
    constructor
    · intro hsome
      by_contra hnot
      refine hsome ?_
      rw [hframe, testsState_none (by simp)]
      intro s hs hprefix
      have htail := (List.cons_prefix_cons.mp hprefix).2
      have hkey : Step.key s.name.toList = Step.key key := (List.cons_prefix_cons.mp htail).1
      exact hnot ⟨s, hs, Step.key.inj hkey⟩
    · rintro ⟨s, hs, rfl⟩ hnone
      obtain ⟨item, hitem, _⟩ := (hread s hs).table
      have hpath : testPath s.name = [Step.key "tests".toList, Step.key s.name.toList] := rfl
      rw [hpath, hnone] at hitem
      cases hitem

/-! ## Necessity: the strings -/

/-- A line of a section with a list of strings that are not all readable. -/
structure BadLine (o : Outside) (args : Args) (s : Section) where
  word : String
  list : List String
  front : List Printed
  pairs : List (Key × Value)
  bare : Bare word.toList
  lines : ∃ back, s.printed o args =
    ⟨testHeader s.name, some (.table (testKeys s.name))⟩ :: front ++
      assignLine word (strList (list.map (reprStr o))) (stringArray list) :: back
  statements : front.filterMap Printed.statement = pairs.map fun a => .assign [a.1] a.2
  nodup : (pairs.map Prod.fst).Nodup
  fresh : word.toList ∉ pairs.map Prod.fst
  bad : ¬ ∀ a ∈ list, Readable o a
  value : ∀ items, SectionRead args items s →
    items (testPath s.name ++ [Step.key word.toList]) = some (.value (stringArray list))

/-- The first list of a section that is not readable. -/
theorem exists_badLine (other : List Char → Option (Value × List Char))
    (hname : Bare s.name.toList) (hs : ¬ Representable o args s) :
    ∃ line : BadLine o args s, ∀ l ∈ line.front, l.Reads other := by
  by_cases htags : ∀ tag ∈ s.config.vmTags, Readable o tag
  · have hvariants : ¬ ∀ variant ∈ s.variants args, Readable o variant := by
      intro hall
      exact hs ⟨hname, htags, fun variant hmem => hall variant (mem_sortedSet.mpr hmem)⟩
    have hvalue : ∀ items, SectionRead args items s →
        items (testPath s.name ++ [Step.key "variants".toList]) =
          some (.value (stringArray (s.variants args))) := fun items h => h.variants
    by_cases hnil : s.config.vmTags = []
    · have hlines : ∃ back, s.printed o args =
          ⟨testHeader s.name, some (.table (testKeys s.name))⟩ ::
            [assignLine "vms" (strList (s.vms.map toString)) (intArray s.vms)] ++
            assignLine "variants" (strList ((s.variants args).map (reprStr o)))
              (stringArray (s.variants args)) :: back := by
        rw [Section.printed, Section.assigns, if_neg (not_not.mpr hnil)]
        simp only [List.append_nil, List.cons_append, List.nil_append, List.append_assoc]
        exact ⟨_, rfl⟩
      refine ⟨⟨"variants", s.variants args, _, [("vms".toList, intArray s.vms)], bare_variants,
        hlines, rfl, by simp, by simp, hvariants, hvalue⟩, ?_⟩
      intro l hl
      rw [List.mem_singleton.mp hl]
      exact reads_vms s
    · have hlines : ∃ back, s.printed o args =
          ⟨testHeader s.name, some (.table (testKeys s.name))⟩ ::
            [assignLine "vms" (strList (s.vms.map toString)) (intArray s.vms),
              assignLine "vm_tags" (strList (s.config.vmTags.map (reprStr o)))
                (stringArray s.config.vmTags)] ++
            assignLine "variants" (strList ((s.variants args).map (reprStr o)))
              (stringArray (s.variants args)) :: back := by
        rw [Section.printed, Section.assigns, if_pos hnil]
        simp only [List.cons_append, List.nil_append, List.append_assoc]
        exact ⟨_, rfl⟩
      refine ⟨⟨"variants", s.variants args, _,
        [("vms".toList, intArray s.vms), ("vm_tags".toList, stringArray s.config.vmTags)],
        bare_variants, hlines, rfl, by simp, by simp, hvariants, hvalue⟩, ?_⟩
      intro l hl
      rcases List.mem_cons.mp hl with rfl | hl
      · exact reads_vms s
      · rw [List.mem_singleton.mp hl]
        exact reads_strings bare_vmTags htags
  · have hne : s.config.vmTags ≠ [] := by
      intro hnil
      rw [hnil] at htags
      simp at htags
    have hlines : ∃ back, s.printed o args =
        ⟨testHeader s.name, some (.table (testKeys s.name))⟩ ::
          [assignLine "vms" (strList (s.vms.map toString)) (intArray s.vms)] ++
          assignLine "vm_tags" (strList (s.config.vmTags.map (reprStr o)))
            (stringArray s.config.vmTags) :: back := by
      rw [Section.printed, Section.assigns, if_pos hne]
      simp only [List.cons_append, List.nil_append, List.append_assoc]
      exact ⟨_, rfl⟩
    refine ⟨⟨"vm_tags", s.config.vmTags, _, [("vms".toList, intArray s.vms)], bare_vmTags, hlines,
      rfl, by simp, by simp, htags, fun items h => h.vmTags.trans (if_neg hne)⟩, ?_⟩
    intro l hl
    rw [List.mem_singleton.mp hl]
    exact reads_vms s

theorem printedText_append (front back : List Printed) :
    printedText (front ++ back) = printedText front ++ printedText back := by
  rw [printedText, List.flatMap_append]
  rfl

/-- What is read of a line with a list that is not readable. -/
theorem BadLine.read (line : BadLine o args s) {n : Nat} {back : List Printed}
    {statements : List Statement}
    (h : Toml.readStatements other n (printedText
      (assignLine line.word (strList (line.list.map (reprStr o))) (stringArray line.list) :: back)) =
        some statements) :
    ∃ value more, value ≠ stringArray line.list ∧
      statements = .assign [line.word.toList] value :: more := by
  have htext : printedText (assignLine line.word (strList (line.list.map (reprStr o)))
      (stringArray line.list) :: back) = line.word.toList ++ ' ' :: '=' :: ' ' ::
        ((strList (line.list.map (reprStr o))).toList ++ '\n' :: printedText back) := by
    rw [printedText, List.flatMap_cons, toList_assignLine]
    simp [List.append_assoc, printedText]
  rw [htext] at h
  have hhead : ∃ tail, (strList (line.list.map (reprStr o))).toList ++ '\n' :: printedText back =
      '[' :: tail := by
    rw [toList_strList]
    exact ⟨_, rfl⟩
  obtain ⟨tail, htail⟩ := hhead
  have hblank : ∀ c ∈ ((strList (line.list.map (reprStr o))).toList ++
      '\n' :: printedText back).head?, Toml.isBlank c = false := by
    rw [htail]
    rintro c ⟨⟩
    decide
  obtain ⟨m, value, rest, more, hvalue, rfl⟩ :=
    Toml.readStatements_assign line.bare (by rw [htail]; simp) hblank h
  exact ⟨value, more, readValue_strings_ne line.bad hvalue, rfl⟩

/-- When the values of the sections are read back, their strings are readable. -/
theorem representable_of_read {sections : List Section}
    (hbare : ∀ s ∈ sections, Bare s.name.toList) (hnetworks : ∀ s ∈ sections, QuotableNetworks s)
    (hnames : (sections.map Section.name).Nodup) {items : Items}
    (hdocument : Toml.document other (testsText (sections.flatMap (·.lines o args))) = some items)
    (hread : ∀ s ∈ sections, SectionRead args items s) :
    ∀ s ∈ sections, Representable o args s := by
  by_contra hall
  obtain ⟨front, s, back, rfl, hfront, hs⟩ := exists_first hall
  have hsmem : s ∈ front ++ s :: back := List.mem_append_right _ List.mem_cons_self
  obtain ⟨line, hline⟩ := exists_badLine other (hbare s hsmem) hs
  obtain ⟨after, hafter⟩ := line.lines
  -- what is printed in front of the list
  obtain ⟨before, hbeforeEq⟩ : ∃ before, before = printedTests o args front ++
    ⟨testHeader s.name, some (.table (testKeys s.name))⟩ :: line.front := ⟨_, rfl⟩
  have hprinted : printedTests o args (front ++ s :: back) = before ++
      assignLine line.word (strList (line.list.map (reprStr o))) (stringArray line.list) ::
        (after ++ back.flatMap (·.printed o args)) := by
    simp only [printedTests, List.flatMap_append, List.flatMap_cons, hafter, hbeforeEq,
      List.cons_append, List.append_assoc]
  have hbefore : ∀ l ∈ before, l.Reads other := by
    intro l hl
    rw [hbeforeEq, List.mem_append] at hl
    rcases hl with hl | hl
    · exact reads_printedTests other hfront
        (fun t ht => hnetworks t (List.mem_append_left _ ht)) l hl
    · rcases List.mem_cons.mp hl with rfl | hl
      · exact reads_header (hbare s hsmem)
      · exact hline l hl
  obtain ⟨statements, state, hstatements, hexecute, rfl⟩ := Toml.document_eq_some.mp hdocument
  rw [testsText_eq, hprinted, printedText_append] at hstatements
  obtain ⟨n, hn⟩ : ∃ n, (printedText before ++ printedText (assignLine line.word
      (strList (line.list.map (reprStr o))) (stringArray line.list) ::
        (after ++ back.flatMap (·.printed o args)))).length = before.length + n := by
    apply Nat.exists_eq_add_of_le
    rw [List.length_append]
    exact (length_le_printedText before).trans (Nat.le_add_right _ _)
  rw [hn, readStatements_printed hbefore] at hstatements
  obtain ⟨rest, hrest, rfl⟩ := Option.map_eq_some_iff.mp hstatements
  obtain ⟨value, more, hvalue, rfl⟩ := line.read hrest
  -- the state in which the list is assigned
  have hfilter : before.filterMap Printed.statement =
      (.table ["tests".toList] :: front.flatMap (·.statements args)) ++
        .table (testKeys s.name) :: line.pairs.map fun a => .assign [a.1] a.2 := by
    have hheader : (⟨testHeader s.name, some (.table (testKeys s.name))⟩ : Printed).statement =
        some (.table (testKeys s.name)) := rfl
    rw [hbeforeEq, List.filterMap_append, printedTests_statements,
      List.filterMap_cons_some hheader, line.statements]
  rw [List.map_append, List.map_cons] at hnames
  have hnew : ∀ t ∈ front, ∀ p, testsState.items (testPath t.name ++ p) = none := by
    intro t _ p
    apply testsState_none
    simp [testPath, testKeys]
  obtain ⟨state₁, hexecute₁, hframe₁, _⟩ :=
    execute_sections args (hnames.sublist (List.sublist_append_left _ _))
      testsState_tests hnew
  have htests₁ : state₁.items [Step.key "tests".toList] = some .table := by
    rw [hframe₁ _ fun t _ => not_prefix_tests t.name, testsState_tests]
  have hnew₁ : ∀ p, state₁.items (testPath s.name ++ p) = none := by
    intro p
    rw [hframe₁, testsState_none (by simp [testPath, testKeys])]
    intro t ht hprefix
    have hmem : t.name ∈ front.map Section.name := List.mem_map_of_mem ht
    rw [testPath_inj hprefix] at hmem
    exact (List.nodup_append.mp hnames).2.2 _ hmem _ List.mem_cons_self rfl
  obtain ⟨state₂, hexecute₂, hcurrent, _, _, hframe₂⟩ := execute_pairs htests₁ hnew₁ line.nodup
  have hfresh : state₂.items (state₂.current ++ [Step.key line.word.toList]) = none := by
    rw [hcurrent, hframe₂ _ (by simp), hnew₁]
    intro a ha heq
    have hsame : line.word.toList = a.1 := by simpa using List.append_cancel_left heq
    exact line.fresh (hsame ▸ List.mem_map_of_mem ha)
  have hassign : Toml.step state₂ (.assign [line.word.toList] value) = _ := Toml.step_assign hfresh
  rw [hfilter, List.append_assoc, List.cons_append, Toml.execute_cons, step_tests, Option.bind_some,
    Toml.execute_append, hexecute₁, Option.bind_some, Toml.execute_append, hexecute₂,
    Option.bind_some, Toml.execute_cons, hassign, Option.bind_some] at hexecute
  have hkept := Toml.kept_execute hexecute state₂.current line.word.toList (.value value) trivial
    (Function.update_self _ _ _)
  rw [hcurrent, line.value _ (hread s hsmem)] at hkept
  exact hvalue (Item.value.inj (Option.some.inj hkept)).symm

/-! ## Necessity: the names -/

/-- A line in which no key needs quotes, however what follows it is read. -/
structure SafeLine (other : List Char → Option (Value × List Char)) (line : Printed) : Prop where
  newline : '\n' ∉ line.text.toList
  keys : ∀ more statement rest,
    Toml.readStatement other (line.text.toList ++ '\n' :: more) = some (some statement, rest) →
      ∀ key ∈ statement.keys, Bare key

theorem safe_of_reads {line : Printed} (hline : line.Reads other)
    (hnewline : '\n' ∉ line.text.toList)
    (hkeys : ∀ statement, line.statement = some statement → ∀ key ∈ statement.keys, Bare key) :
    SafeLine other line := by
  refine ⟨hnewline, ?_⟩
  intro more statement rest h
  rw [hline more] at h
  exact hkeys statement (Prod.mk.inj (Option.some.inj h)).1

theorem safe_assignLine {word text : String} {value : Value} (hword : Bare word.toList)
    (hne : text.toList ≠ []) (hblank : ∀ c ∈ text.toList.head?, Toml.isBlank c = false)
    (htext : '\n' ∉ text.toList) : SafeLine other (assignLine word text value) := by
  refine ⟨?_, ?_⟩
  · rw [toList_assignLine, List.mem_append]
    rintro (hmem | hmem)
    · exact absurd (hword.bare _ hmem) (by decide)
    · simp only [List.mem_cons] at hmem
      rcases hmem with h | h | h | h
      · exact absurd h (by decide)
      · exact absurd h (by decide)
      · exact absurd h (by decide)
      · exact htext h
  · intro more statement rest h key hkey
    obtain ⟨c, tail, hcons⟩ := List.exists_cons_of_ne_nil hne
    have hhead : ∀ d ∈ (text.toList ++ '\n' :: more).head?, Toml.isBlank d = false := by
      rw [hcons] at hblank ⊢
      rintro d ⟨⟩
      exact hblank c rfl
    rw [toList_assignLine, List.append_assoc] at h
    change Toml.readStatement other (word.toList ++ ' ' :: '=' :: ' ' ::
      (text.toList ++ '\n' :: more)) = _ at h
    rw [Toml.readStatement_assign hword hhead] at h
    obtain ⟨p, _, heq⟩ := Option.map_eq_some_iff.mp h
    cases heq
    rw [List.mem_singleton.mp hkey]
    exact hword

theorem safe_strList {word : String} (hword : Bare word.toList) {reprs : List String} {value : Value}
    (hreprs : ∀ repr ∈ reprs, '\n' ∉ repr.toList) :
    SafeLine other (assignLine word (strList reprs) value) := by
  refine safe_assignLine hword ?_ ?_ ?_
  · rw [toList_strList]
    exact List.cons_ne_nil _ _
  · rw [toList_strList]
    rintro c ⟨⟩
    decide
  · have hjoin : '\n' ∉ [',', ' '].intercalate (reprs.map String.toList) := by
      apply Toml.not_mem_intercalate (by decide)
      intro text htext
      obtain ⟨repr, hrepr, rfl⟩ := List.mem_map.mp htext
      exact hreprs repr hrepr
    rw [toList_strList]
    simp [hjoin]

theorem safe_boolean {word : String} (hword : Bare word.toList) (b : Bool) :
    SafeLine other (assignLine word (if b then "true" else "false") (.boolean b)) := by
  refine safe_assignLine hword ?_ (head_boolean b) ?_
  · cases b <;> decide
  · cases b <;> decide

theorem newline_not_mem_reprStr (a : String) : '\n' ∉ (reprStr o a).toList := by
  have hquote : Toml.isText (quoteOf a) = true := by
    rcases quoteOf_cases a with ⟨h, _⟩ | ⟨h, _⟩ <;> rw [h] <;> rfl
  have htext : ∀ c ∈ (reprStr o a).toList, Toml.isText c = true := by
    intro c hc
    rw [toList_reprStr, List.mem_cons, List.mem_append, List.mem_singleton] at hc
    rcases hc with rfl | hc | rfl
    · exact hquote
    · obtain ⟨d, _, hd⟩ := List.mem_flatMap.mp hc
      exact isText_reprChar hquote d c hd
    · exact hquote
  exact fun hmem => Toml.isText_ne (htext _ hmem) rfl

theorem safe_strings {word : String} (hword : Bare word.toList) (l : List String) (value : Value) :
    SafeLine other (assignLine word (strList (l.map (reprStr o))) value) := by
  apply safe_strList hword
  intro repr hrepr
  obtain ⟨a, _, rfl⟩ := List.mem_map.mp hrepr
  exact newline_not_mem_reprStr a

theorem safe_assigns : ∀ line ∈ s.assigns o args, SafeLine other line := by
  have hvms : SafeLine other (assignLine "vms" (strList (s.vms.map toString)) (intArray s.vms)) := by
    apply safe_strList (bare_of_all (by decide) (by decide))
    intro repr hrepr
    obtain ⟨i, _, rfl⟩ := List.mem_map.mp hrepr
    obtain ⟨c, tail, hcons, hc, htail⟩ := Toml.toList_toString_int i
    rw [hcons, List.mem_cons]
    rintro (rfl | hmem)
    · rcases hc with h | h <;> exact absurd h (by decide)
    · exact absurd (htail _ hmem) (by decide)
  intro line hline
  unfold Section.assigns at hline
  simp only [List.mem_append, List.mem_singleton] at hline
  rcases hline with ((rfl | hline) | rfl) | hline
  · exact hvms
  · split_ifs at hline
    · rw [List.mem_singleton.mp hline]
      exact safe_strings bare_vmTags _ _
    · cases hline
  · exact safe_strings bare_variants _ _
  · split_ifs at hline
    · rw [List.mem_singleton.mp hline]
      exact safe_boolean (bare_of_all (by decide) (by decide)) true
    · cases hline

/-- The lines of a network after its header. -/
theorem safe_networkAssigns {network : Network} (hforward : Quotable (network.forward.getD ""))
    (hdomain : Quotable (network.domain.getD "")) :
    ∀ line ∈ networkAssigns network, SafeLine other line := by
  have hquoted : ∀ {word text : String}, Bare word.toList → Quotable text →
      SafeLine other (assignLine word ("\"" ++ text ++ "\"") (.string (unquoted text))) := by
    intro word text hword htext
    have htoList : ("\"" ++ text ++ "\"").toList = '"' :: (text.toList ++ ['"']) := by
      rw [String.toList_append, String.toList_append]
      rfl
    obtain ⟨value, hvalue⟩ := htext
    obtain ⟨raw, hraw, hnewline, _⟩ := Toml.readBasic_raw hvalue
    refine safe_assignLine hword ?_ ?_ ?_
    · rw [htoList]
      exact List.cons_ne_nil _ _
    · rw [htoList]
      rintro c ⟨⟩
      decide
    · rw [htoList, hraw]
      simp [hnewline]
  intro line hline
  simp only [networkAssigns, List.mem_cons, List.not_mem_nil, or_false] at hline
  rcases hline with rfl | rfl | rfl
  · exact hquoted (bare_of_all (by decide) (by decide)) hforward
  · exact hquoted (bare_of_all (by decide) (by decide)) hdomain
  · exact safe_boolean (bare_of_all (by decide) (by decide)) network.dhcp

def networkHeader (name : String) : String := "[[tests." ++ name ++ ".networks]]"

/-- A line is safe, or it is one of the headers with the name of a test. -/
theorem mem_printedTests (other : List Char → Option (Value × List Char))
    {sections : List Section} (hnetworks : ∀ s ∈ sections, QuotableNetworks s) :
    ∀ line ∈ printedTests o args sections, SafeLine other line ∨
      ∃ s ∈ sections, line.text = testHeader s.name ∨ line.text = networkHeader s.name := by
  have hempty : SafeLine other ⟨"", none⟩ := by
    refine safe_of_reads Toml.line_nil List.not_mem_nil ?_
    rintro statement ⟨⟩
  have hheader : SafeLine other testsHeader := by
    refine safe_of_reads reads_testsHeader (by decide) ?_
    rintro statement ⟨⟩ key hkey
    rw [List.mem_singleton.mp hkey]
    exact bare_tests
  intro line hline
  rcases List.mem_cons.mp hline with rfl | hline
  · exact Or.inl hheader
  obtain ⟨s, hs, hmem⟩ := List.mem_flatMap.mp hline
  rw [Section.printed, List.mem_append, List.cons_append, List.mem_cons, List.mem_append,
    List.mem_singleton] at hmem
  rcases hmem with (rfl | hmem | hmem) | rfl
  · exact Or.inr ⟨s, hs, Or.inl rfl⟩
  · exact Or.inl (safe_assigns line hmem)
  · obtain ⟨network, hnetwork, hline⟩ := List.mem_flatMap.mp hmem
    obtain ⟨hforward, hdomain⟩ := hnetworks s hs network hnetwork
    rcases List.mem_cons.mp hline with rfl | hline
    · exact Or.inr ⟨s, hs, Or.inr rfl⟩
    · exact Or.inl (safe_networkAssigns hforward hdomain line hline)
  · exact Or.inl hempty

theorem subkeys_subset {statement : Statement} {key : Key} (h : key ∈ statement.subkeys) :
    key ∈ statement.keys := by
  cases statement with
  | table keys => exact List.mem_of_mem_tail h
  | tables keys => exact List.mem_of_mem_tail h
  | assign keys value => exact h

theorem two_le_length {keys : List Key} {key : Key} (h : key ∈ keys.tail) : 2 ≤ keys.length := by
  have hpos := List.length_pos_of_mem h
  rw [List.length_tail] at hpos
  omega

/-- A key that needs quotes stands in the name of a test, with two characters more. -/
theorem exists_rougher {sections : List Section} (hnetworks : ∀ s ∈ sections, QuotableNetworks s)
    {text rest : List Char} {statement : Statement} {key : Key}
    (hstart : Toml.LineStart (printedText (printedTests o args sections)) text)
    (hread : Toml.readStatement other text = some (some statement, rest))
    (hkey : key ∈ statement.subkeys) (hbare : ¬ Bare key) :
    ∃ s ∈ sections, Toml.rough key < Toml.rough s.name.toList := by
  have hne : text ≠ [] := by
    rintro rfl
    cases hread
  have hlines : printedText (printedTests o args sections) =
      ((printedTests o args sections).map fun line => line.text.toList).flatMap (· ++ ['\n']) := by
    rw [List.flatMap_map, printedText]
  rw [hlines] at hstart
  obtain ⟨_, hline, front, back, more, hsplit, hfront, rfl⟩ := hstart.exists_line hne
  obtain ⟨line, hmem, rfl⟩ := List.mem_map.mp hline
  have hbound := (Toml.readStatement_line hread key (subkeys_subset hkey)).resolve_left hbare
  have hback := Toml.rough_le_of_prefix (Toml.lineOf_newline back more)
  have hlength := List.length_pos_of_mem (subkeys_subset hkey)
  have hmarks : 1 ≤ statement.marks := by
    cases statement <;> simp [Statement.marks]
  rcases mem_printedTests other hnetworks line hmem with hsafe | ⟨s, hs, htext | htext⟩
  · -- the line is read as it is meant
    have hnil : front = [] := by
      rcases hfront with hnil | ⟨before, hbefore⟩
      · exact hnil
      · refine absurd ?_ hsafe.newline
        rw [hsplit, ← hbefore]
        simp
    rw [hnil, List.nil_append] at hsplit
    rw [← hsplit] at hread
    exact absurd (hsafe.keys more statement rest hread key (subkeys_subset hkey)) hbare
  · have hopening : line.text.toList = "[tests.".toList ++ (s.name.toList ++ [']']) := by
      rw [htext, testHeader, String.toList_append, String.toList_append, List.append_assoc]
      rfl
    have hrough : Toml.rough (s.name.toList ++ [']']) = Toml.rough s.name.toList + 1 := by
      rw [Toml.rough_append]
      rfl
    refine ⟨s, hs, ?_⟩
    rcases Toml.rough_back (by decide) (hopening.symm.trans hsplit) hfront with hnil | hlater
    · rw [hnil, List.nil_append] at hsplit
      have hwhole : Toml.rough back = 2 + Toml.rough (s.name.toList ++ [']']) := by
        rw [← hsplit, hopening, Toml.rough_append]
        rfl
      have hhead : back ++ '\n' :: more = '[' :: 't' :: ("ests.".toList ++ (s.name.toList ++ [']'])
          ++ '\n' :: more) := by
        rw [← hsplit, hopening]
        rfl
      rw [hhead] at hread
      rcases Toml.readStatement_cases hread with ⟨body, keys, hbody, _⟩ |
        ⟨body, keys, hbody, _, _, rfl⟩ | ⟨hbody, _⟩
      · cases hbody
      · have htwo := two_le_length hkey
        change _ + keys.length + 1 + 2 ≤ _ at hbound
        omega
      · exact absurd rfl hbody
    · omega
  · have hopening : line.text.toList =
        "[[tests.".toList ++ (s.name.toList ++ ".networks]]".toList) := by
      rw [htext, networkHeader, String.toList_append, String.toList_append, List.append_assoc]
    have hrough : Toml.rough (s.name.toList ++ ".networks]]".toList) =
        Toml.rough s.name.toList + 3 := by
      rw [Toml.rough_append]
      rfl
    refine ⟨s, hs, ?_⟩
    rcases Toml.rough_back (by decide) (hopening.symm.trans hsplit) hfront with hnil | hlater
    · rw [hnil, List.nil_append] at hsplit
      have hwhole : Toml.rough back = 3 + Toml.rough (s.name.toList ++ ".networks]]".toList) := by
        rw [← hsplit, hopening, Toml.rough_append]
        rfl
      have hhead : back ++ '\n' :: more = '[' :: '[' :: ("tests.".toList ++
          (s.name.toList ++ ".networks]]".toList) ++ '\n' :: more) := by
        rw [← hsplit, hopening]
        rfl
      rw [hhead] at hread
      rcases Toml.readStatement_cases hread with ⟨body, keys, hbody, _, rfl⟩ |
        ⟨body, keys, hbody, hopen, _⟩ | ⟨hbody, _⟩
      · have htwo := two_le_length hkey
        change _ + keys.length + 1 + 4 ≤ _ at hbound
        omega
      · have htail : body.head? = some '[' := by
          rw [← (List.cons.inj hbody).2]
          rfl
        exact absurd htail hopen
      · exact absurd rfl hbody
    · omega

/-- When each test has a table under its name, the names are bare keys. -/
theorem bare_of_read (hother : Forward other) {sections : List Section}
    (hnetworks : ∀ s ∈ sections, QuotableNetworks s) {items : Items}
    (hdocument : Toml.document other (testsText (sections.flatMap (·.lines o args))) = some items)
    (htests : ∀ s ∈ sections, items [Step.key "tests".toList, Step.key s.name.toList] ≠ none) :
    ∀ s ∈ sections, Bare s.name.toList := by
  obtain ⟨statements, state, hread, hexecute, rfl⟩ := Toml.document_eq_some.mp hdocument
  rw [testsText_eq] at hread
  -- from a name that needs quotes, there is always a rougher one
  have hnext : ∀ s ∈ sections, ¬ Bare s.name.toList →
      ∃ t ∈ sections, Toml.rough s.name.toList < Toml.rough t.name.toList := by
    intro s hs hbare
    have hnew : state.items ([Step.key "tests".toList] ++ [Step.key s.name.toList]) ≠
        State.start.items ([Step.key "tests".toList] ++ [Step.key s.name.toList]) := htests s hs
    obtain ⟨statement, hmem, hkey⟩ := Toml.execute_new hexecute (List.cons_ne_nil _ _) hnew
    obtain ⟨text, rest, hstart, hstatement⟩ := Toml.readStatements_start hother
      ⟨[], rfl, Or.inl rfl⟩ hread statement hmem
    exact exists_rougher hnetworks hstart hstatement hkey hbare
  have hall : ∀ n, (∃ s ∈ sections, ¬ Bare s.name.toList) →
      ∃ s ∈ sections, ¬ Bare s.name.toList ∧ n ≤ Toml.rough s.name.toList := by
    intro n hsome
    induction n with
    | zero =>
      obtain ⟨s, hs, hbare⟩ := hsome
      exact ⟨s, hs, hbare, Nat.zero_le _⟩
    | succ n ih =>
      obtain ⟨s, hs, hbare, hle⟩ := ih
      obtain ⟨t, ht, hlt⟩ := hnext s hs hbare
      refine ⟨t, ht, ?_, by omega⟩
      intro hbare'
      rw [hbare'.rough_eq] at hlt
      omega
  by_contra hnot
  have hsome : ∃ s ∈ sections, ¬ Bare s.name.toList := by simpa using hnot
  obtain ⟨s, hs, _, hle⟩ :=
    hall ((sections.map fun s => Toml.rough s.name.toList).sum + 1) hsome
  have hsum : Toml.rough s.name.toList ≤ (sections.map fun s => Toml.rough s.name.toList).sum :=
    List.single_le_sum (by simp) _ (List.mem_map_of_mem hs)
  omega

/-! ## The result -/

theorem readsBack_sections_iff (hother : Forward other) {sections : List Section}
    (hsections : ∀ s, s ∈ sections ↔ Computed o args s)
    (hnames : (sections.map Section.name).Nodup)
    (hnetworks : ∀ s ∈ sections, QuotableNetworks s) :
    (∃ items, Toml.document other (testsText (sections.flatMap (·.lines o args))) = some items ∧
      ReadsBack o args items) ↔ ∀ s ∈ sections, Representable o args s := by
  constructor
  · rintro ⟨items, hdocument, hback⟩
    have htests : ∀ s ∈ sections,
        items [Step.key "tests".toList, Step.key s.name.toList] ≠ none := fun s hs =>
      (hback.tests _).mpr ⟨s, (hsections s).mp hs, rfl⟩
    exact representable_of_read (bare_of_read hother hnetworks hdocument htests) hnetworks hnames
      hdocument fun s hs => hback.sections s ((hsections s).mp hs)
  · intro hall
    obtain ⟨items, hdocument, htests, hread⟩ := document_sections hall hnetworks hnames
    refine ⟨items, hdocument, ?_, fun s hs => hread s ((hsections s).mpr hs)⟩
    intro key
    rw [htests key]
    exact exists_congr fun s => and_congr_left fun _ => hsections s

/-- Where the fields of the networks need no escapes, the tests are read back as they are exactly
when their names are bare keys, and their strings are readable. -/
theorem tests_read_back_iff (o : Outside) (args : Args) (hother : Forward other)
    (hnames : (o.tests.map Entry.name).Nodup)
    (hnetworks : ∀ s, Computed o args s → QuotableNetworks s) {lines : List String}
    (hmain : main o args = .ok (header o args ++ lines)) :
    (∃ items, Toml.document other (testsText lines) = some items ∧ ReadsBack o args items) ↔
      ∀ s, Computed o args s → Representable o args s := by
  obtain ⟨sections, rfl, hsections, hnodup⟩ := main_ok hnames hmain
  rw [readsBack_sections_iff hother hsections hnodup fun s hs => hnetworks s ((hsections s).mp hs)]
  exact forall_congr' fun s => imp_congr_left (hsections s)

def oneConfig (vmTags : List String) : VmshedConfig :=
  ⟨some [2], none, none, none, vmTags, [.name "tls"], false, [⟨some "nat", none, true⟩]⟩

/-- A test with the given name and tags, and one network. -/
def oneTest (name : String) (vmTags : List String) : Outside where
  tests := [⟨name, true, ["### vmshed: 1"]⟩]
  variantsToml := "[[variants]]"
  loads _ := .ok (oneConfig vmTags)
  isPrintable _ := true

def allTests : Args := ⟨"tests", .all, none, none, ["tcp"], "15m"⟩

theorem mem_oneTest {name : String} {vmTags : List String} {test : String × VmshedConfig} :
    test ∈ (oneTest name vmTags).testConfigs ↔ test = (name, oneConfig vmTags) := by
  have hconfigs : (oneTest name vmTags).testConfigs = [(name, oneConfig vmTags)] := rfl
  rw [hconfigs, List.mem_singleton]

theorem quotable_oneTest {name : String} {vmTags : List String} {s : Section}
    (h : Computed (oneTest name vmTags) allTests s) : QuotableNetworks s := by
  obtain ⟨_, _, hmem, _⟩ := h
  have hconfig : s.config = oneConfig vmTags := congrArg Prod.snd (mem_oneTest.mp hmem)
  intro network hnetwork
  rw [hconfig] at hnetwork
  rw [List.mem_singleton.mp hnetwork]
  exact ⟨⟨"nat".toList, by decide⟩, ⟨[], by decide⟩⟩

theorem forward_none : Forward (fun _ => none : List Char → Option (Value × List Char)) := by
  rintro text value rest ⟨⟩

theorem tests_read_back_one :
    (∃ items, Toml.document (fun _ => none) (testsText
        ["[tests.sync]", "vms = [2]", "vm_tags = [\"it's\", 'x y']", "variants = ['tcp', 'tls']",
          "[[tests.sync.networks]]", "forward = \"nat\"", "domain = \"\"", "dhcp = true", ""]) =
        some items ∧ ReadsBack (oneTest "sync" ["it's", "x y"]) allTests items) ↔
      ∀ s, Computed (oneTest "sync" ["it's", "x y"]) allTests s →
        Representable (oneTest "sync" ["it's", "x y"]) allTests s :=
  tests_read_back_iff _ _ forward_none (by decide) (fun _ => quotable_oneTest) (by decide +kernel)

/-- A file name with a dot: `[tests.add.old]` is a table in the table of a test `add`. -/
theorem tests_not_read_back : ∃ lines,
    main (oneTest "add.old" []) allTests = .ok (header (oneTest "add.old" []) allTests ++ lines) ∧
      ∀ other, Forward other → ¬ ∃ items, Toml.document other (testsText lines) = some items ∧
        ReadsBack (oneTest "add.old" []) allTests items := by
  have hmain : main (oneTest "add.old" []) allTests = .ok (header (oneTest "add.old" []) allTests ++
      ["[tests.add.old]", "vms = [2]", "variants = ['tcp', 'tls']", "[[tests.add.old.networks]]",
        "forward = \"nat\"", "domain = \"\"", "dhcp = true", ""]) := by decide +kernel
  refine ⟨_, hmain, fun other hother => ?_⟩
  obtain ⟨sections, hlines, hsections, hnodup⟩ := main_ok (by decide) hmain
  rw [hlines, readsBack_sections_iff hother hsections hnodup
    fun s hs => quotable_oneTest ((hsections s).mp hs)]
  intro hall
  have hcomputed : Computed (oneTest "add.old" []) allTests
      ⟨"add.old", oneConfig [], [2], ["tls"]⟩ :=
    ⟨none, rfl, mem_oneTest.mpr rfl, ⟨[2], rfl, rfl⟩, List.cons_ne_nil _ _, rfl, rfl⟩
  have hdot := (hall _ ((hsections _).mpr hcomputed)).name.bare '.' (by decide)
  exact absurd hdot (by decide)

end DrbdTests.Generator
