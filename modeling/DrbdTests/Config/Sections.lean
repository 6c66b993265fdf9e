import DrbdTests.Cluster.Operations
import DrbdTests.Lib.Braces
import Mathlib.Data.Sym.Sym2

/-!
# The sections of a config

The text of a config, read by its braces. A `Section` is a block as it is read: the name in
front of its opening brace, and the structure of what is between its braces. `sectionOf`
is the section of a block that contains statements, each on its own line, and then other
sections. `Prints` connects the statements of the source with the sections that can be read
from what they print.

`config_sections`: the config of a node is one `resource` section, in which an `on` section
for each node follows the common sections, and a `connection` section for each pair of nodes
follows those.
-/

namespace DrbdTests.Config

open Braces Stateful

/-- The opening brace. -/
def opening : Char := '\x7b'

/-- The closing brace. -/
def closing : Char := '\x7d'

/-- A text that reads as itself: no conversion specifiers, and no braces. -/
def Plain (s : String) : Prop := ∀ c ∈ s.toList, c ≠ '%' ∧ c ≠ opening ∧ c ≠ closing

instance (s : String) : Decidable (Plain s) :=
  List.decidableBAll (fun c => c ≠ '%' ∧ c ≠ opening ∧ c ≠ closing) s.toList

abbrev Section := List Char × Body Char

/-- The section of a block that contains statements and then sections. -/
def sectionOf (units : Nat) (name : String) (statements : List String) (sections : List Section) :
    Section :=
  ((indentation units ++ name ++ " ").toList,
    Body.ofGroups ("\n" ++ String.join (statements.map (line units))).toList "\n\n".toList sections
      (indentation units).toList)

/-! ## Plain texts -/

variable {s t : String}

theorem plain_append (hs : Plain s) (ht : Plain t) : Plain (s ++ t) := by
  intro c hc
  rw [String.toList_append, List.mem_append] at hc
  rcases hc with hc | hc
  · exact hs c hc
  · exact ht c hc

theorem plain_join {l : List String} (h : ∀ s ∈ l, Plain s) : Plain (String.join l) := by
  induction l with
  | nil => intro c hc; simp at hc
  | cons s l ih =>
    rw [String.join_cons]
    exact plain_append (h s (by simp)) (ih fun t ht => h t (by simp [ht]))

theorem plain_indentation (units : Nat) : Plain (indentation units) := by
  apply plain_join
  intro s hs
  rw [List.eq_of_mem_replicate hs]
  decide

theorem plain_line (units : Nat) (h : Plain s) : Plain (line units s) := by
  have hcontent : Plain (indentation units ++ INDENT ++ s) :=
    plain_append (plain_append (plain_indentation units) (by decide)) h
  unfold line
  simp only
  split
  · exact hcontent
  · exact plain_append hcontent (by decide)

theorem plain_toString (n : Nat) : Plain (toString n) := by
  intro c hc
  have hdigit : c.isDigit := by
    have := Nat.isDigit_of_mem_toDigits (b := 10) (n := n) (by omega) (by omega) (c := c)
    apply this
    simpa [toString, Nat.repr] using hc
  refine ⟨?_, ?_, ?_⟩ <;> rintro rfl <;> exact absurd hdigit (by decide)

theorem plain_addr (addr : Addr) : Plain addr.text := by
  intro c hc
  rcases addr.chars c hc with hdigit | rfl
  · refine ⟨?_, ?_, ?_⟩ <;> rintro rfl <;> exact absurd hdigit (by decide)
  · decide

theorem scans_plain (h : Plain s) : Scans opening closing s.toList fun b => b.prepend s.toList :=
  scans_text fun c hc => (h c hc).2

/-! ## What is read from printed text -/

/-- Sections in front of what follows them. -/
def before (sections : List Section) (b : Body Char) : Body Char :=
  sections.foldr (fun s b => Body.group s.1 s.2 (b.prepend "\n\n".toList)) b

theorem before_append (l l' : List Section) (b : Body Char) :
    before (l ++ l') b = before l (before l' b) := by
  rw [before, List.foldr_append]
  rfl

theorem prepend_before (lead : List Char) (sections : List Section) (tail : List Char) :
    (before sections (.done tail)).prepend lead =
      Body.ofGroups lead "\n\n".toList sections tail := by
  induction sections generalizing lead with
  | nil => rfl
  | cons s sections ih =>
    rw [Body.ofGroups, ← ih]
    rfl

/-- The statements print lines, and nothing else. -/
def PrintsLines (depth units : Nat) (m : Print PUnit) (statements : List String) : Prop :=
  Emits depth 0 m (String.join (statements.map (line units))) ∧ ∀ s ∈ statements, Plain s

/-- The statements print lines and then blocks that read as the given sections. -/
def Prints (depth units : Nat) (m : Print PUnit) (statements : List String)
    (sections : List Section) : Prop :=
  (∀ s ∈ statements, Plain s) ∧ ∃ text : String,
    Emits depth 0 m (String.join (statements.map (line units)) ++ text) ∧
      Scans opening closing text.toList (before sections)

variable {depth units : Nat} {block : Block} {m m' : Print PUnit} {ss ss' : List String}
  {gs gs' : List Section}

theorem printsLines_pure : PrintsLines depth units (pure ⟨⟩) [] := ⟨emits_pure, by simp⟩

theorem printsLines_write (hb : block.At units 0) (h : Plain s) :
    PrintsLines depth units (block.write s) [s] := by
  refine ⟨Emits.of_eq (emits_write hb fun hc => (h _ hc).1 rfl) ?_, by simpa using h⟩
  simp

theorem PrintsLines.seq (h : PrintsLines depth units m ss) (h' : PrintsLines depth units m' ss') :
    PrintsLines depth units (m >>= fun _ => m') (ss ++ ss') := by
  refine ⟨Emits.of_eq (h.1.seq h'.1) ?_, fun s hs => ?_⟩
  · rw [List.map_append, String.join_append]
  · rcases List.mem_append.mp hs with hs | hs
    · exact h.2 s hs
    · exact h'.2 s hs

/-- A conditional statement that is not the last one. -/
theorem PrintsLines.guard {p : Prop} [Decidable p] (h : p → PrintsLines depth units m ss)
    (h' : PrintsLines depth units m' ss') :
    PrintsLines depth units (if p then m >>= fun _ => m' else m')
      ((if p then ss else []) ++ ss') := by
  by_cases hp : p
  · rw [if_pos hp, if_pos hp]
    exact (h hp).seq h'
  · rw [if_neg hp, if_neg hp]
    exact h'

theorem PrintsLines.prints (h : PrintsLines depth units m ss) : Prints depth units m ss [] :=
  ⟨h.2, "", Emits.of_eq h.1 (by simp), scans_nil⟩

theorem prints_pure : Prints depth units (pure ⟨⟩) [] [] := printsLines_pure.prints

theorem PrintsLines.then (h : PrintsLines depth units m ss) (h' : Prints depth units m' ss' gs) :
    Prints depth units (m >>= fun _ => m') (ss ++ ss') gs := by
  obtain ⟨hplain, text, hemits, hscans⟩ := h'
  refine ⟨fun s hs => ?_, text, Emits.of_eq (h.1.seq hemits) ?_, hscans⟩
  · rcases List.mem_append.mp hs with hs | hs
    · exact h.2 s hs
    · exact hplain s hs
  · rw [List.map_append, String.join_append, String.append_assoc]

theorem Prints.then (h : Prints depth units m ss gs) (h' : Prints depth units m' [] gs') :
    Prints depth units (m >>= fun _ => m') ss (gs ++ gs') := by
  obtain ⟨hplain, text, hemits, hscans⟩ := h
  obtain ⟨-, text', hemits', hscans'⟩ := h'
  refine ⟨hplain, text ++ text', Emits.of_eq (hemits.seq hemits') ?_, ?_⟩
  · simp [String.append_assoc]
  · rw [String.toList_append]
    have hboth := hscans.append hscans'
    simp only [← before_append] at hboth
    exact hboth

theorem prints_forM {β : Type} {f : β → Print PUnit} {g : β → List Section} (xs : List β)
    (h : ∀ x ∈ xs, Prints depth units (f x) [] (g x)) :
    Prints depth units (xs.forM f) [] (xs.flatMap g) := by
  induction xs with
  | nil => exact prints_pure
  | cons x xs ih =>
    rw [List.flatMap_cons]
    exact (h x (by simp)).then (ih fun y hy => h y (by simp [hy]))

theorem scans_blockText (units : Nat) {name inner : String} {f : Body Char → Body Char} (hname : Plain name)
    (h : Scans opening closing inner.toList f) :
    Scans opening closing (blockText units name inner).toList fun b =>
      Body.group (indentation units ++ name ++ " ").toList
        ((f (.done (indentation units).toList)).prepend "\n".toList) (b.prepend "\n\n".toList) := by
  have hheader : Plain (indentation units ++ name ++ " ") :=
    plain_append (plain_append (plain_indentation units) hname) (by decide)
  have hinner : Scans opening closing ("\n" ++ inner ++ indentation units).toList fun b =>
      (f (b.prepend (indentation units).toList)).prepend "\n".toList := by
    rw [String.toList_append, String.toList_append]
    have hnl := scans_plain (s := "\n") (by decide)
    exact (hnl.append h).append (scans_plain (plain_indentation units))
  have hgroup := scans_group (by decide) hinner
  have hall := (scans_plain hheader).append (hgroup.append (scans_plain (s := "\n\n") (by decide)))
  have htext : (blockText units name inner).toList = (indentation units ++ name ++ " ").toList ++
      (opening :: (("\n" ++ inner ++ indentation units).toList ++ [closing]) ++ "\n\n".toList) := by
    simp [blockText, opening, closing]
  rw [htext]
  simpa [Body.prepend] using hall

/-- A `with` block reads as its section. -/
theorem prints_withBlock {name : String} {destFn : Option Sink} {body : Block → Print PUnit}
    (hdest : depth = 0 → destFn = some 0) (hname : Plain name)
    (h : ∀ block : Block, block.At (unitsAt depth) 0 →
      Prints (depth + 1) (unitsAt depth) (body block) ss gs) :
    Prints depth units (withBlock name destFn body) [] [sectionOf (unitsAt depth) name ss gs] := by
  obtain ⟨hplain, text, -, hscans⟩ := h ⟨0, "", indentation (unitsAt depth), some 0⟩ ⟨rfl, rfl⟩
  have hbody : ∀ block : Block, block.At (unitsAt depth) 0 → Emits (depth + 1) 0 (body block)
      (String.join (ss.map (line (unitsAt depth))) ++ text) := by
    intro block hb
    obtain ⟨-, text', hemits, hscans'⟩ := h block hb
    -- what is printed does not depend on the block: the sections determine the text
    have htext : text' = text := String.toList_inj.mp
      ((unparse_of_parse _ _ hscans'.parse).symm.trans (unparse_of_parse _ _ hscans.parse))
    exact htext ▸ hemits
  have hemits : Emits depth 0 (withBlock name destFn body) _ := emits_withBlock hdest hbody
  refine ⟨by simp, blockText (unitsAt depth) name (String.join (ss.map (line (unitsAt depth))) ++ text),
    Emits.of_eq hemits (by simp), ?_⟩
  have hlines : Plain (String.join (ss.map (line (unitsAt depth)))) := by
    apply plain_join
    intro s hs
    obtain ⟨statement, hmem, rfl⟩ := List.mem_map.mp hs
    exact plain_line _ (hplain statement hmem)
  have hinner := (scans_plain hlines).append hscans
  rw [← String.toList_append] at hinner
  have hblock := scans_blockText (unitsAt depth) hname hinner
  have hsection : ∀ b, before [sectionOf (unitsAt depth) name ss gs] b =
      Body.group (indentation (unitsAt depth) ++ name ++ " ").toList
        (((before gs (.done (indentation (unitsAt depth)).toList)).prepend
          (String.join (ss.map (line (unitsAt depth)))).toList).prepend "\n".toList)
        (b.prepend "\n\n".toList) := by
    intro b
    rw [prepend_before, Body.prepend_ofGroups, ← String.toList_append]
    rfl
  exact (funext hsection) ▸ hblock

/-! ## The sections the source prints -/

/-- A `path` section, with both ends. -/
def pathSection (n1 n2 : NodeView) (a1 a2 : Addr) : Section :=
  sectionOf 3 "path"
    ["host " ++ n1.name ++ " address " ++ a1.text ++ ":" ++ toString n1.port.val ++ ";",
      "host " ++ n2.name ++ " address " ++ a2.text ++ ":" ++ toString n2.port.val ++ ";"] []

/-- The `path` sections of a connection: one for each network both hosts have. -/
def pathSections (n1 n2 : NodeView) : List Section :=
  (n1.host.addrs.zip n2.host.addrs).map fun (a1, a2) => pathSection n1 n2 a1 a2

def connectionSection (n1 n2 : NodeView) : Section :=
  sectionOf 2 "connection" [] (sectionOf 3 "net" [] [] :: pathSections n1 n2)

/-- The lines of a `volume` section. -/
def volumeStatements (node : NodeView) (disk : VolumeView) : List String :=
  ("device " ++ deviceForConfig node.host disk ++ ";") ::
    ("disk " ++ orElse disk.disk "none" ++ ";") ::
    ((if truthy disk.disk then ["meta-disk " ++ orElse disk.metaDisk "internal" ++ ";"] else []) ++
      match disk.tiebreaker with
      | some tiebreaker => ["tiebreaker " ++ (if tiebreaker then "yes" else "no") ++ ";"]
      | none => [])

def volumeSection (node : NodeView) (index : Nat) (disk : VolumeView) : Section :=
  sectionOf 3 ("volume " ++ toString index) (volumeStatements node disk) []

def volumeSections (node : NodeView) : List Section :=
  node.disks.zipIdx.map fun (disk, index) => volumeSection node index disk

/-- The `on` section of a node, as a node with DRBD 9 writes it. -/
def onSection (node : NodeView) : Section :=
  sectionOf 2 ("on " ++ node.host.hostname) ["node-id " ++ toString node.id ++ ";"]
    (volumeSections node)

/-- The strings that the sections of a node contain. -/
structure PlainNode (node : NodeView) : Prop where
  name : Plain node.name
  fencingMode : Plain node.fencingMode
  hostname : Plain node.host.hostname
  disk : ∀ disk ∈ node.disks, Plain (orElse disk.disk "none")
  metaDisk : ∀ disk ∈ node.disks, Plain (orElse disk.metaDisk "internal")

instance (node : NodeView) : Decidable (PlainNode node) :=
  decidable_of_iff (Plain node.name ∧ Plain node.fencingMode ∧ Plain node.host.hostname ∧
      (∀ disk ∈ node.disks, Plain (orElse disk.disk "none")) ∧
      ∀ disk ∈ node.disks, Plain (orElse disk.metaDisk "internal"))
    ⟨fun ⟨h1, h2, h3, h4, h5⟩ => ⟨h1, h2, h3, h4, h5⟩, fun ⟨h1, h2, h3, h4, h5⟩ => ⟨h1, h2, h3, h4, h5⟩⟩

/-- The strings that the config of a resource contains. -/
structure PlainResource (resource : ResourceView) : Prop where
  name : Plain resource.name
  handlers : Plain resource.handlers
  resourceOptions : Plain resource.resourceOptions
  diskOptions : Plain resource.diskOptions
  netOptions : Plain resource.netOptions
  transport : Plain (resource.transport.getD "")
  tls : Plain resource.tls
  nodes : ∀ node ∈ resource.nodes, PlainNode node

instance (resource : ResourceView) : Decidable (PlainResource resource) :=
  decidable_of_iff (Plain resource.name ∧ Plain resource.handlers ∧
      Plain resource.resourceOptions ∧ Plain resource.diskOptions ∧ Plain resource.netOptions ∧
      Plain (resource.transport.getD "") ∧ Plain resource.tls ∧
      ∀ node ∈ resource.nodes, PlainNode node)
    ⟨fun ⟨h1, h2, h3, h4, h5, h6, h7, h8⟩ => ⟨h1, h2, h3, h4, h5, h6, h7, h8⟩,
      fun ⟨h1, h2, h3, h4, h5, h6, h7, h8⟩ => ⟨h1, h2, h3, h4, h5, h6, h7, h8⟩⟩

variable {settings : Settings} {resource : ResourceView} {self node n1 n2 : NodeView}

theorem printsLines_hostAddr (hb : block.At units 0) (h : PlainNode node) (addr : Addr) :
    PrintsLines depth units (configOneHostAddr node block addr)
      ["host " ++ node.name ++ " address " ++ addr.text ++ ":" ++ toString node.port.val ++ ";"] := by
  refine printsLines_write hb ?_
  have h₁ := plain_append (plain_append (plain_append (s := "host ") (by decide) h.name)
    (t := " address ") (by decide)) (plain_addr addr)
  exact plain_append (plain_append (plain_append h₁ (t := ":") (by decide)) (plain_toString _))
    (by decide)

theorem prints_path (h1 : PlainNode n1) (h2 : PlainNode n2) (a1 a2 : Addr) :
    Prints 2 units (withBlock "path" none fun path => do
      configOneHostAddr n1 path a1
      configOneHostAddr n2 path a2) [] [pathSection n1 n2 a1 a2] :=
  prints_withBlock (fun h => absurd h (by decide)) (by decide) fun _ hb =>
    ((printsLines_hostAddr hb h1 a1).seq (printsLines_hostAddr hb h2 a2)).prints

theorem prints_connection (hproxy : settings.proxyEnable = false) (h1 : PlainNode n1)
    (h2 : PlainNode n2) :
    Prints 1 units (configOneConnection settings self n1 n2) [] [connectionSection n1 n2] := by
  have hnet : Prints 2 (unitsAt 1) (withBlock "net" none fun _ => pure ⟨⟩) []
      [sectionOf 3 "net" [] []] :=
    prints_withBlock (fun h => absurd h (by decide)) (by decide) fun _ _ => prints_pure
  have hpaths : Prints 2 (unitsAt 1) ((n1.host.addrs.zip n2.host.addrs).forM fun (a1, a2) =>
      withBlock "path" none fun path => do
        configOneHostAddr n1 path a1
        configOneHostAddr n2 path a2) [] (pathSections n1 n2) := by
    have hall : Prints 2 (unitsAt 1) _ [] _ :=
      prints_forM (n1.host.addrs.zip n2.host.addrs) fun p _ => prints_path h1 h2 p.1 p.2
    rw [← List.map_eq_flatMap] at hall
    exact hall
  unfold configOneConnection
  rw [hproxy]
  exact prints_withBlock (fun h => absurd h (by decide)) (by decide) fun _ _ => hnet.then hpaths

theorem plain_statement (name : String) {value : String} (hname : Plain name) (hvalue : Plain value) :
    Plain (name ++ value ++ ";") := plain_append (plain_append hname hvalue) (by decide)

theorem plain_deviceForConfig (host : HostInfo) (disk : VolumeView) :
    Plain (deviceForConfig host disk) := by
  unfold deviceForConfig
  split
  · exact plain_append (by decide) (plain_toString _)
  · exact plain_append (by decide) (plain_toString _)

theorem prints_volume (h : PlainNode node) {disk : VolumeView} (hd : disk ∈ node.disks)
    (index : Nat) :
    Prints 2 units (configVolume node index disk) [] [volumeSection node index disk] := by
  have hdevice := plain_statement "device " (by decide) (plain_deviceForConfig node.host disk)
  have hdisk := plain_statement "disk " (by decide) (h.disk disk hd)
  have hmeta := plain_statement "meta-disk " (by decide) (h.metaDisk disk hd)
  refine prints_withBlock (fun h => absurd h (by decide))
    (plain_append (by decide) (plain_toString index)) fun V hb => PrintsLines.prints ?_
  have htie : PrintsLines 3 (unitsAt 2) (match disk.tiebreaker with
      | some tiebreaker => V.write ("tiebreaker " ++ (if tiebreaker then "yes" else "no") ++ ";")
      | none => pure ⟨⟩)
      (match disk.tiebreaker with
      | some tiebreaker => ["tiebreaker " ++ (if tiebreaker then "yes" else "no") ++ ";"]
      | none => []) := by
    rcases disk.tiebreaker with _ | _ | _
    · exact printsLines_pure
    · exact printsLines_write hb (by decide)
    · exact printsLines_write hb (by decide)
  exact (printsLines_write hb hdevice).seq ((printsLines_write hb hdisk).seq
    (PrintsLines.guard (fun _ => printsLines_write hb hmeta) htie))

theorem prints_host (h9 : isVersion9 self) (h : PlainNode node) :
    Prints 1 units (configHost self node) [] [onSection node] := by
  refine prints_withBlock (fun h => absurd h (by decide)) (plain_append (by decide) h.hostname)
    fun N hb => ?_
  have hid := plain_statement "node-id " (by decide) (plain_toString node.id)
  have hvolumes : Prints 2 (unitsAt 1) (node.disks.zipIdx.forM fun (disk, index) =>
      configVolume node index disk) [] (volumeSections node) := by
    have hall : Prints 2 (unitsAt 1) _ [] _ := prints_forM node.disks.zipIdx fun p hp =>
      prints_volume h (List.fst_mem_of_mem_zipIdx hp) p.2
    rw [← List.map_eq_flatMap] at hall
    exact hall
  rw [if_pos h9]
  exact (printsLines_write hb hid).then hvolumes

/-! ## The common sections -/

theorem prints_handlers (h : PlainResource resource) :
    Prints 1 units (configHandlers resource) [] [sectionOf 2 "handlers" [resource.handlers] []] :=
  prints_withBlock (fun h => absurd h (by decide)) (by decide) fun _ hb =>
    (printsLines_write hb h.handlers).prints

theorem prints_options (h : PlainResource resource) :
    Prints 1 units (configOptions resource) []
      [sectionOf 2 "options" [resource.resourceOptions] []] :=
  prints_withBlock (fun h => absurd h (by decide)) (by decide) fun _ hb =>
    (printsLines_write hb h.resourceOptions).prints

/-- The lines of the `disk` section. -/
def diskStatements (resource : ResourceView) (self : NodeView) : List String :=
  "disk-flushes no;" :: "md-flushes no;" ::
    ((if ¬ "c-min-rate".toList <:+: resource.diskOptions.toList ∧ self.host.osId = "ubuntu" ∧
        self.host.osVersionId = "18.04" then ["c-min-rate 0;"] else []) ++
      ((if self.fencingMode ≠ "" ∧ ¬ isVersion9 self then ["fencing " ++ self.fencingMode ++ ";"]
        else []) ++ [resource.diskOptions]))

/-- The lines of the `net` section. -/
def netStatements (resource : ResourceView) (self : NodeView) : List String :=
  (if truthy resource.transport then ["transport \"" ++ resource.transport.getD "" ++ "\";"]
    else []) ++
    ((if resource.tls = "yes" then ["tls " ++ resource.tls ++ ";"] else []) ++
      ((if self.fencingMode ≠ "" ∧ isVersion9 self then ["fencing " ++ self.fencingMode ++ ";"]
        else []) ++ [resource.netOptions]))

theorem prints_disk (h : PlainResource resource) (hself : PlainNode self) :
    Prints 1 units (configDisk resource self) []
      [sectionOf 2 "disk" (diskStatements resource self) []] := by
  have hfencing := plain_statement "fencing " (by decide) hself.fencingMode
  refine prints_withBlock (fun h => absurd h (by decide)) (by decide) fun disk hb =>
    PrintsLines.prints ?_
  refine (printsLines_write hb (by decide)).seq ((printsLines_write hb (by decide)).seq ?_)
  refine PrintsLines.guard (fun _ => printsLines_write hb (by decide)) ?_
  exact PrintsLines.guard (fun _ => printsLines_write hb hfencing)
    (printsLines_write hb h.diskOptions)

theorem prints_net (h : PlainResource resource) (hself : PlainNode self) :
    Prints 1 units (configNet resource self) []
      [sectionOf 2 "net" (netStatements resource self) []] := by
  have hfencing := plain_statement "fencing " (by decide) hself.fencingMode
  have htransport : Plain ("transport \"" ++ resource.transport.getD "" ++ "\";") :=
    plain_append (plain_append (by decide) h.transport) (by decide)
  have htls := plain_statement "tls " (by decide) h.tls
  refine prints_withBlock (fun h => absurd h (by decide)) (by decide) fun net hb =>
    PrintsLines.prints ?_
  refine PrintsLines.guard (fun _ => printsLines_write hb htransport) ?_
  refine PrintsLines.guard (fun _ => printsLines_write hb htls) ?_
  exact PrintsLines.guard (fun _ => printsLines_write hb hfencing)
    (printsLines_write hb h.netOptions)

theorem prints_proxy (hproxy : settings.proxyEnable = false) :
    Prints 1 units (configProxy settings) [] [sectionOf 2 "proxy" [] []] := by
  refine prints_withBlock (fun h => absurd h (by decide)) (by decide) fun _ _ => ?_
  rw [hproxy]
  exact prints_pure

/-! ## The loop over pairs -/

/-- Each element with each one after it. -/
def pairs {α : Type} : List α → List (α × α)
  | [] => []
  | a :: l => l.map (fun b => (a, b)) ++ pairs l

theorem pairs_map {α β : Type} (f : α → β) (l : List α) :
    pairs (l.map f) = (pairs l).map fun p => (f p.1, f p.2) := by
  induction l with
  | nil => rfl
  | cons a l ih => simp [pairs, ih]

/-- The pairs that the offset slice `self.nodes[start:]` gives. -/
theorem flatMap_zipIdx_drop {α : Type} (l pre : List α) :
    ((l.zipIdx pre.length).flatMap fun p => ((pre ++ l).drop (p.2 + 1)).map fun b => (p.1, b)) =
      pairs l := by
  induction l generalizing pre with
  | nil => rfl
  | cons a l ih =>
    have hrest := ih (pre ++ [a])
    rw [List.length_append, List.append_assoc] at hrest
    rw [List.zipIdx_cons, List.flatMap_cons, pairs]
    congr 1
    have hdrop : (pre ++ a :: l).drop (pre.length + 1) = l := by simp [List.drop_append]
    rw [hdrop]

theorem mem_pairs_map {α : Type} {l : List α} {a b : α} :
    s(a, b) ∈ (pairs l).map (fun p => s(p.1, p.2)) → a ∈ l ∧ b ∈ l := by
  induction l with
  | nil => simp [pairs]
  | cons c l ih =>
    rw [pairs, List.map_append, List.map_map, List.mem_append]
    rintro (h | h)
    · obtain ⟨d, hd, he⟩ := List.mem_map.mp h
      rcases Sym2.eq_iff.mp he with ⟨rfl, rfl⟩ | ⟨rfl, rfl⟩
      · exact ⟨by simp, by simp [hd]⟩
      · exact ⟨by simp [hd], by simp⟩
    · obtain ⟨ha, hb⟩ := ih h
      exact ⟨by simp [ha], by simp [hb]⟩

/-- In a list without repetition each pair of distinct elements is met in one of its two
orders, and no other pair is met. -/
theorem mem_pairs {α : Type} {l : List α} (h : l.Nodup) (a b : α) :
    s(a, b) ∈ (pairs l).map (fun p => s(p.1, p.2)) ↔ a ∈ l ∧ b ∈ l ∧ a ≠ b := by
  induction l with
  | nil => simp [pairs]
  | cons c l ih =>
    obtain ⟨hc, hl⟩ := List.nodup_cons.mp h
    have hfirst : s(a, b) ∈ (l.map (fun d => (c, d))).map (fun p => s(p.1, p.2)) ↔
        a = c ∧ b ∈ l ∨ b = c ∧ a ∈ l := by
      rw [List.map_map, List.mem_map]
      constructor
      · rintro ⟨d, hd, he⟩
        rcases Sym2.eq_iff.mp he with ⟨rfl, rfl⟩ | ⟨rfl, rfl⟩
        · exact Or.inl ⟨rfl, hd⟩
        · exact Or.inr ⟨rfl, hd⟩
      · rintro (⟨rfl, hb⟩ | ⟨rfl, ha⟩)
        · exact ⟨b, hb, rfl⟩
        · exact ⟨a, ha, Sym2.eq_swap⟩
    rw [pairs, List.map_append, List.mem_append, hfirst, ih hl]
    simp only [List.mem_cons]
    constructor
    · rintro ((⟨rfl, hb⟩ | ⟨rfl, ha⟩) | ⟨ha, hb, hne⟩)
      · exact ⟨Or.inl rfl, Or.inr hb, fun he => hc (he ▸ hb)⟩
      · exact ⟨Or.inr ha, Or.inl rfl, fun he => hc (he ▸ ha)⟩
      · exact ⟨Or.inr ha, Or.inr hb, hne⟩
    · rintro ⟨rfl | ha, rfl | hb, hne⟩
      · exact absurd rfl hne
      · exact Or.inl (Or.inl ⟨rfl, hb⟩)
      · exact Or.inl (Or.inr ⟨rfl, ha⟩)
      · exact Or.inr ⟨ha, hb, hne⟩

theorem pairs_nodup {α : Type} {l : List α} (h : l.Nodup) :
    ((pairs l).map fun p => s(p.1, p.2)).Nodup := by
  induction l with
  | nil => exact List.nodup_nil
  | cons c l ih =>
    obtain ⟨hc, hl⟩ := List.nodup_cons.mp h
    rw [pairs, List.map_append, List.map_map]
    apply List.Nodup.append
    · apply hl.map
      intro d d' he
      exact Sym2.congr_right.mp he
    · exact ih hl
    · intro p hp hp'
      obtain ⟨d, -, rfl⟩ := List.mem_map.mp hp
      exact hc (mem_pairs_map hp').1

/-! ## The config of a node -/

/-- The sections that do not depend on the other nodes. -/
def commonSections (resource : ResourceView) (self : NodeView) : List Section :=
  [sectionOf 2 "handlers" [resource.handlers] [],
    sectionOf 2 "options" [resource.resourceOptions] [],
    sectionOf 2 "disk" (diskStatements resource self) [],
    sectionOf 2 "net" (netStatements resource self) [],
    sectionOf 2 "proxy" [] []]

theorem prints_conns9 (hproxy : settings.proxyEnable = false) (h : PlainResource resource) :
    Prints 1 units (configConns9 settings resource self) []
      ((pairs resource.nodes).map fun p => connectionSection p.1 p.2) := by
  have hall : Prints 1 units (configConns9 settings resource self) []
      (resource.nodes.zipIdx.flatMap fun p =>
        (resource.nodes.drop (p.2 + 1)).flatMap fun n2 => [connectionSection p.1 n2]) :=
    prints_forM _ fun p hp => prints_forM _ fun n2 hn2 => prints_connection hproxy
      (h.nodes p.1 (List.fst_mem_of_mem_zipIdx hp)) (h.nodes n2 (List.mem_of_mem_drop hn2))
  have hpairs := flatMap_zipIdx_drop resource.nodes []
  rw [← hpairs, List.map_flatMap]
  simp only [List.map_map, List.nil_append]
  simp only [← List.map_eq_flatMap] at hall
  exact hall

theorem prints_config (hproxy : settings.proxyEnable = false) (h : PlainResource resource)
    (hself : PlainNode self) (h9 : isVersion9 self) :
    Prints 0 units (configBlocks settings resource self) []
      [sectionOf 0 ("resource " ++ resource.name) [] (commonSections resource self ++
        (resource.nodes.map onSection ++
          (pairs resource.nodes).map fun p => connectionSection p.1 p.2))] := by
  refine prints_withBlock (fun _ => rfl) (plain_append (by decide) h.name) fun _ _ => ?_
  refine (prints_handlers h).then ((prints_options h).then ((prints_disk h hself).then
    ((prints_net h hself).then ((prints_proxy hproxy).then (Prints.then ?_ ?_)))))
  · have hall : Prints 1 (unitsAt 0) _ [] _ := prints_forM resource.nodes fun n hn =>
      prints_host h9 (h.nodes n hn)
    rw [← List.map_eq_flatMap] at hall
    exact hall
  · rw [if_pos h9]
    exact prints_conns9 hproxy h

theorem length_volumeSections (node : NodeView) :
    (volumeSections node).length = node.disks.length := by
  simp [volumeSections]

theorem getElem_volumeSections (node : NodeView) {i : Nat} (h : i < node.disks.length) :
    (volumeSections node)[i]? = some (volumeSection node i node.disks[i]) := by
  simp [volumeSections, h]

theorem length_pathSections (n1 n2 : NodeView) :
    (pathSections n1 n2).length = min n1.host.addrs.length n2.host.addrs.length := by
  simp [pathSections]

theorem getElem_pathSections (n1 n2 : NodeView) {i : Nat} (h1 : i < n1.host.addrs.length)
    (h2 : i < n2.host.addrs.length) :
    (pathSections n1 n2)[i]? = some (pathSection n1 n2 n1.host.addrs[i] n2.host.addrs[i]) := by
  simp [pathSections, h1, h2]

/-- The configs of the nodes of a resource: they have the same `on` and `connection` sections,
one for each member and one for each unordered pair of members. -/
structure ReadsAsSections (w : World) (r : ResourceId) (ons connections : List Section) : Prop where
  config : ∀ n ∈ w.members r, (w.node n).resource = r → isVersion9 (w.nodeView n) →
    ∃ text, Node.config w n = .ok text ∧ parse opening closing text.toList =
      some (before [sectionOf 0 ("resource " ++ (w.resource r).name) []
        (commonSections (w.resourceView r) (w.nodeView n) ++ (ons ++ connections))] (.done []))
  ons : ons = (w.members r).map fun n => onSection (w.nodeView n)
  volumes : ∀ n, (volumeSections (w.nodeView n)).length = (w.node n).disks.length ∧
    ∀ i disk, (w.node n).disks[i]? = some disk →
      (volumeSections (w.nodeView n))[i]? = some (volumeSection (w.nodeView n) i disk.view)
  connections : ∃ connected : List (NodeId × NodeId),
    connections = connected.map (fun p => connectionSection (w.nodeView p.1) (w.nodeView p.2)) ∧
    (connected.map fun p => s(p.1, p.2)).Nodup ∧
    ∀ a b, s(a, b) ∈ connected.map (fun p => s(p.1, p.2)) ↔
      a ∈ w.members r ∧ b ∈ w.members r ∧ a ≠ b
  paths : ∀ n1 n2 : NodeView,
    (pathSections n1 n2).length = min n1.host.addrs.length n2.host.addrs.length ∧
    ∀ i (h1 : i < n1.host.addrs.length) (h2 : i < n2.host.addrs.length),
      (pathSections n1 n2)[i]? = some (pathSection n1 n2 n1.host.addrs[i] n2.host.addrs[i])

/-- The structure of the generated configs, whatever the resource contains. -/
theorem config_sections {w : World} {r : ResourceId} (hproxy : w.settings.proxyEnable = false)
    (hplain : PlainResource (w.resourceView r)) :
    ∃ ons connections, ReadsAsSections w r ons connections := by
  refine ⟨(w.members r).map fun n => onSection (w.nodeView n),
    (pairs (w.members r)).map fun p => connectionSection (w.nodeView p.1) (w.nodeView p.2), ?_⟩
  have hnodup : (w.members r).Nodup := (w.resource r).nodes.nodup
  refine ⟨fun n hn hr h9 => ?_, rfl, fun n => ⟨?_, fun i disk hdisk => ?_⟩, ?_, fun n1 n2 => ?_⟩
  · have hself := hplain.nodes _ (List.mem_map_of_mem hn)
    have hprints : Prints 0 0 (configBlocks w.settings (w.resourceView r) (w.nodeView n)) [] _ :=
      prints_config hproxy hplain hself h9
    obtain ⟨-, text, hemits, hscans⟩ := hprints
    obtain ⟨printer, hret, -, htext⟩ := hemits ⟨[], fun _ => [], 0⟩ rfl (by simp)
    refine ⟨text, ?_, ?_⟩
    · rw [Node.config, hr, render, show Stateful.exec _ _ = _ from hret]
      simpa [Printer.text] using htext
    · rw [hscans.parse]
      simp only [World.resourceView, pairs_map, List.map_map, Function.comp_def]
  · rw [length_volumeSections]
    simp [World.nodeView]
  · obtain ⟨hi, rfl⟩ := List.getElem?_eq_some_iff.mp hdisk
    rw [getElem_volumeSections (w.nodeView n) (by simpa [World.nodeView] using hi)]
    simp [World.nodeView]
  · exact ⟨_, rfl, pairs_nodup hnodup, mem_pairs hnodup⟩
  · exact ⟨length_pathSections n1 n2, fun i h1 h2 => getElem_pathSections n1 n2 h1 h2⟩

/-- A cluster of three hosts with a resource that has a disk. -/
def threeNodes : World :=
  Op.afterAll (World.plain 3) [.createResource none,
    .addDisk 0 ⟨"1G", none, .default, none, none, ⟨none, false, false, false, false⟩⟩]

theorem config_sections_three_nodes :
    ∃ ons connections, ReadsAsSections threeNodes 0 ons connections :=
  config_sections (by decide +kernel) (by decide +kernel)

end DrbdTests.Config
