import DrbdTests.Config.Sections

/-!
# The statements of `Node.config`

`Node.config` does not read what it has printed, so what it does is a tree of statements:
lines, exceptions, and `with` blocks with statements inside. `Statements.print` runs such a
tree, and `configStatements` is the tree of a node (`configBlocks_eq`).

`Statements.outcome` says what a tree does without a printer: how it ends, also when a
conversion specifier in a line raises, and the text it prints until then. It is the same
whatever has been printed before (`exec_print`).
-/

namespace DrbdTests.Config

open Stateful

/-- Statements inside a `with` block, in order. -/
inductive Statements
  | done
  | write (data : String) (rest : Statements)
  | raise (e : PyError)
  | block (name : String) (body rest : Statements)
  deriving DecidableEq, Repr

namespace Statements

/-- The statements run inside the block. -/
def print (block : Block) : Statements → Print PUnit
  | done => pure ⟨⟩
  | write data rest => do
    block.write data
    rest.print block
  | raise e => throw e
  | .block name body rest => do
    withBlock name none fun inner => body.print inner
    rest.print block

def append : Statements → Statements → Statements
  | done, after => after
  | write data rest, after => write data (rest.append after)
  | raise e, _ => raise e
  | .block name body rest, after => .block name body (rest.append after)

def lines (data : List String) : Statements := data.foldr write done

def sequence (parts : List Statements) : Statements := parts.foldr append done

/-- A block on its own. -/
def single (name : String) (body : Statements) : Statements := .block name body done

theorem append_assoc (s t u : Statements) : (s.append t).append u = s.append (t.append u) := by
  induction s with
  | done => rfl
  | write data rest ih => rw [append, append, ih, append]
  | raise e => rfl
  | block name body rest _ ih => rw [append, append, ih, append]

theorem sequence_cons (s : Statements) (parts : List Statements) :
    sequence (s :: parts) = s.append (sequence parts) := rfl

theorem sequence_append (parts parts' : List Statements) :
    sequence (parts ++ parts') = (sequence parts).append (sequence parts') := by
  induction parts with
  | nil => rfl
  | cons s parts ih => rw [List.cons_append, sequence_cons, ih, sequence_cons, append_assoc]

theorem print_append (block : Block) (s after : Statements) :
    (s.append after).print block = (do s.print block; after.print block) := by
  induction s with
  | done => rw [append, print, pure_bind]
  | write data rest ih => rw [append, print, ih, print, bind_assoc]
  | raise e => rfl
  | block name body rest _ ih => rw [append, print, ih, print, bind_assoc]

theorem print_sequence {α : Type} (block : Block) (f : α → Statements) (xs : List α) :
    (sequence (xs.map f)).print block = xs.forM fun x => (f x).print block := by
  induction xs with
  | nil => rfl
  | cons x xs ih =>
    change ((f x).append (sequence (xs.map f))).print block = _
    rw [print_append, ih]
    rfl

theorem print_single (block : Block) (name : String) (body : Statements) :
    (single name body).print block = withBlock name none fun inner => body.print inner := by
  rw [single, print]
  simp only [print, bind_pure_unit]

end Statements

open Statements

/-! ## The statements of the source -/

def hostAddrLine (node : NodeView) (addr : Addr) : String :=
  "host " ++ node.name ++ " address " ++ addr.text ++ ":" ++ toString node.port.val ++ ";"

def proxyHostStatements (self node : NodeView) : Statements :=
  single ("host " ++ node.name ++ " address 127.0.0.1:" ++ toString node.port.val
      ++ " via proxy on " ++ node.name)
    (.write ("inside 127.0.0.2:" ++ toString self.port.val ++ ";")
      (match node.host.addrs with
        | addr :: _ => .write ("outside ipv4 " ++ addr.text ++ ":" ++ toString self.port.val ++ ";") .done
        | [] => .raise .indexError))

def connectionStatements (settings : Settings) (self n1 n2 : NodeView) : Statements :=
  single "connection"
    (if settings.proxyEnable then
      (proxyHostStatements self n1).append ((proxyHostStatements self n2).append
        (single "net" (lines ["protocol A;"])))
    else
      (single "net" .done).append (sequence ((n1.host.addrs.zip n2.host.addrs).map fun (a1, a2) =>
        single "path" (lines [hostAddrLine n1 a1, hostAddrLine n2 a2]))))

def conns9Statements (settings : Settings) (resource : ResourceView) (self : NodeView) :
    Statements :=
  sequence (resource.nodes.zipIdx.map fun (n1, start) =>
    sequence ((resource.nodes.drop (start + 1)).map fun n2 =>
      connectionStatements settings self n1 n2))

def hostStatements (self node : NodeView) : Statements :=
  single ("on " ++ node.host.hostname)
    (.write (if isVersion9 self then "node-id " ++ toString node.id ++ ";"
        else "address " ++ node.host.addr.text ++ ":" ++ toString node.port.val ++ ";")
      (sequence (node.disks.zipIdx.map fun (disk, index) =>
        single ("volume " ++ toString index) (lines (volumeStatements node disk)))))

def proxyStatements (settings : Settings) : Statements :=
  single "proxy"
    (if settings.proxyEnable then
      (if settings.lz4Enable then single "plugin" (lines ["lz4;"])
        else if settings.zstdEnable ≠ 0 then
          single "plugin" (lines ["zstd levels " ++ toString settings.zstdEnable ++ ";"])
        else .done).append
      (match settings.memlimit with
        | some memlimit =>
          if memlimit ≠ 0 then lines ["memlimit " ++ toString memlimit ++ ";"] else .done
        | none => .done)
    else .done)

/-- The statements before the connections. -/
def frontStatements (settings : Settings) (resource : ResourceView) (self : NodeView) :
    Statements :=
  sequence ([single "handlers" (lines [resource.handlers]),
    single "options" (lines [resource.resourceOptions]),
    single "disk" (lines (diskStatements resource self)),
    single "net" (lines (netStatements resource self)),
    proxyStatements settings] ++ resource.nodes.map (hostStatements self))

def configStatements (settings : Settings) (resource : ResourceView) (self : NodeView) :
    Statements :=
  (frontStatements settings resource self).append
    (if isVersion9 self then conns9Statements settings resource self else .done)

variable (settings : Settings) (resource : ResourceView) (self node n1 n2 : NodeView)
  (outer : Block)

theorem print_proxyHost : (proxyHostStatements self node).print outer =
    configProxyHost self node := by
  rw [proxyHostStatements, print_single]
  unfold configProxyHost
  congr 1
  funext N
  rcases h : node.host.addrs with _ | ⟨addr, rest⟩
  · rfl
  · simp only [print, bind_pure_unit]

theorem print_connection : (connectionStatements settings self n1 n2).print outer =
    configOneConnection settings self n1 n2 := by
  rw [connectionStatements, print_single]
  unfold configOneConnection
  congr 1
  funext connection
  split
  · rw [print_append, print_append, print_proxyHost, print_proxyHost, print_single]
    simp only [lines, List.foldr_cons, List.foldr_nil, print, bind_pure_unit]
  · rw [print_append, print_single, print_sequence]
    simp only [print_single, lines, List.foldr_cons, List.foldr_nil, print, bind_pure_unit,
      configOneHostAddr, hostAddrLine]

theorem print_conns9 : (conns9Statements settings resource self).print outer =
    configConns9 settings resource self := by
  unfold conns9Statements configConns9
  rw [print_sequence]
  simp only [print_sequence, print_connection]

theorem print_handlers : (single "handlers" (lines [resource.handlers])).print outer =
    configHandlers resource := by
  rw [print_single]
  simp only [lines, List.foldr_cons, List.foldr_nil, print, bind_pure_unit, configHandlers]

theorem print_options : (single "options" (lines [resource.resourceOptions])).print outer =
    configOptions resource := by
  rw [print_single]
  simp only [lines, List.foldr_cons, List.foldr_nil, print, bind_pure_unit, configOptions]

theorem print_lines_append (data after : List String) :
    (lines (data ++ after)).print outer = (do
      (lines data).print outer
      (lines after).print outer) := by
  induction data with
  | nil => rfl
  | cons line data ih =>
    change (do outer.write line; (lines (data ++ after)).print outer) = _
    rw [ih, ← bind_assoc]
    rfl

theorem print_line (data : String) : (lines [data]).print outer = outer.write data :=
  bind_pure_unit

/-- A section of one line, before the rest of the body. -/
theorem print_single_line (name data : String) (rest : Print PUnit) :
    ((single name (lines [data])).print outer >>= fun _ => rest) =
      withBlock name none (fun inner => inner.write data) >>= fun _ => rest := by
  rw [print_single]
  simp only [print_line]

/-- How a conditional statement that is not the last one is read. -/
theorem guard_bind {p : Prop} [Decidable p] (m : Print PUnit) (f : PUnit → Print PUnit) :
    ((if p then m else pure ⟨⟩) >>= f) = if p then m >>= f else f ⟨⟩ := by
  split
  · rfl
  · exact pure_bind _ _

/-- A line that is only written under a condition. -/
theorem print_guard {p : Prop} [Decidable p] (data : String) :
    (lines (if p then [data] else [])).print outer =
      if p then outer.write data else pure ⟨⟩ := by
  split
  · exact print_line outer data
  · rfl

theorem print_disk : (single "disk" (lines (diskStatements resource self))).print outer =
    configDisk resource self := by
  rw [print_single]
  unfold configDisk diskStatements
  congr 1
  funext disk
  change (do
    disk.write "disk-flushes no;"
    disk.write "md-flushes no;"
    (lines _).print disk) = _
  rw [print_lines_append, print_lines_append, print_guard, print_guard, print_line]
  simp only [guard_bind]

theorem print_net : (single "net" (lines (netStatements resource self))).print outer =
    configNet resource self := by
  rw [print_single]
  unfold configNet netStatements
  congr 1
  funext net
  rw [print_lines_append, print_lines_append, print_lines_append, print_guard, print_guard,
    print_guard, print_line]
  simp only [guard_bind]

theorem print_volume (index : Nat) (disk : VolumeView) :
    (single ("volume " ++ toString index) (lines (volumeStatements node disk))).print outer =
      configVolume node index disk := by
  rw [print_single]
  unfold configVolume volumeStatements
  congr 1
  funext V
  change (do
    V.write _
    V.write _
    (lines _).print V) = _
  rw [print_lines_append, print_guard]
  simp only [guard_bind]
  rcases disk.tiebreaker with _ | tiebreaker
  · rfl
  · simp only [print_line]

theorem print_host : (hostStatements self node).print outer = configHost self node := by
  rw [hostStatements, print_single]
  unfold configHost
  congr 1
  funext N
  change (do
    N.write _
    (sequence _).print N) = _
  rw [print_sequence]
  simp only [print_volume]
  split
  · rfl
  · rfl

theorem print_memlimit : (match settings.memlimit with
      | some memlimit =>
        if memlimit ≠ 0 then lines ["memlimit " ++ toString memlimit ++ ";"] else done
      | none => done).print outer =
    match settings.memlimit with
      | some memlimit =>
        if memlimit ≠ 0 then outer.write ("memlimit " ++ toString memlimit ++ ";")
        else pure PUnit.unit
      | none => pure PUnit.unit := by
  rcases settings.memlimit with _ | memlimit
  · rfl
  · dsimp only
    split
    · exact print_line outer _
    · rfl

theorem print_proxy : (proxyStatements settings).print outer = configProxy settings := by
  rw [proxyStatements, print_single]
  unfold configProxy
  congr 1
  funext proxy
  split
  · rw [print_append, print_memlimit]
    split
    · exact print_single_line outer "plugin" _ _
    · split
      · exact print_single_line outer "plugin" _ _
      · exact pure_bind _ _
  · rfl

theorem print_config : (configStatements settings resource self).print outer = (do
    configHandlers resource
    configOptions resource
    configDisk resource self
    configNet resource self
    configProxy settings
    resource.nodes.forM fun n => configHost self n
    if isVersion9 self then configConns9 settings resource self) := by
  have hfront : (frontStatements settings resource self).print outer = (do
      configHandlers resource
      configOptions resource
      configDisk resource self
      configNet resource self
      configProxy settings
      resource.nodes.forM fun n => configHost self n) := by
    have hhosts := print_sequence outer (hostStatements self) resource.nodes
    simp only [print_host] at hhosts
    rw [← hhosts]
    change (Statements.append _ (Statements.append _ (Statements.append _ (Statements.append _
      (Statements.append _ (sequence (resource.nodes.map (hostStatements self)))))))).print outer = _
    rw [print_append, print_append, print_append, print_append, print_append, print_handlers,
      print_options, print_disk, print_net, print_proxy]
  rw [configStatements, print_append, hfront]
  simp only [bind_assoc]
  congr 1; funext _; congr 1; funext _; congr 1; funext _; congr 1; funext _; congr 1; funext _
  congr 1; funext _
  split
  · exact print_conns9 settings resource self outer
  · rfl

/-- The tree is what `Node.config` runs in its outermost block. -/
theorem configBlocks_eq : configBlocks settings resource self =
    withBlock ("resource " ++ resource.name) (some 0) fun block =>
      (configStatements settings resource self).print block := by
  simp only [print_config]
  rfl

/-! ## What statements do -/

/-- How statements end, and what they print, when the block around them is inside of `depth`
others. -/
def Statements.outcome (depth : Nat) : Statements → Except PyError Unit × String
  | .done => (.ok ⟨⟩, "")
  | .write data rest =>
    match percentFormat data with
    | .ok text => ((rest.outcome depth).1, line (unitsAt depth) text ++ (rest.outcome depth).2)
    | .error e => (.error e, "")
  | .raise e => (.error e, "")
  | .block name body rest =>
    let inner := body.outcome (depth + 1)
    let text := blockText (unitsAt (depth + 1)) name inner.2
    match inner.1 with
    | .ok _ => ((rest.outcome depth).1, text ++ (rest.outcome depth).2)
    | .error e => (.error e, text)

section Outcome

variable {depth : Nat} {data text name : String} {body rest : Statements} {e : PyError}

theorem outcome_write_ok (h : percentFormat data = .ok text) :
    (Statements.write data rest).outcome depth =
      ((rest.outcome depth).1, line (unitsAt depth) text ++ (rest.outcome depth).2) := by
  rw [outcome, h]

theorem outcome_write_error (h : percentFormat data = .error e) :
    (Statements.write data rest).outcome depth = (.error e, "") := by
  rw [outcome, h]

theorem outcome_block_ok {u : Unit} (h : (body.outcome (depth + 1)).1 = .ok u) :
    (Statements.block name body rest).outcome depth = ((rest.outcome depth).1,
      blockText (unitsAt (depth + 1)) name (body.outcome (depth + 1)).2 ++
        (rest.outcome depth).2) := by
  rw [outcome, h]

theorem outcome_block_error (h : (body.outcome (depth + 1)).1 = .error e) :
    (Statements.block name body rest).outcome depth =
      (.error e, blockText (unitsAt (depth + 1)) name (body.outcome (depth + 1)).2) := by
  rw [outcome, h]

end Outcome

/-- With `depth` blocks open and everything going to `sink`, the statements end as given,
leave the stack as it was, and only add the text to the sink. -/
def Does (depth : Nat) (sink : Sink) (m : Print PUnit) (result : Except PyError Unit)
    (text : String) : Prop :=
  ∀ printer : Printer, printer.stack.length = depth →
    (∀ parent ∈ printer.stack.head?, parent.toVar = some sink) →
    ∃ printer', exec m printer = (result, printer') ∧ printer'.stack = printer.stack ∧
      printer'.text sink = printer.text sink ++ text ∧
      ∀ other, other ≠ sink → printer'.written other = printer.written other

section Does

variable {depth units : Nat} {sink : Sink} {block : Block} {m m' : Print PUnit} {t t' : String}
  {e : PyError} {r : Except PyError Unit}

theorem does_pure : Does depth sink (pure ⟨⟩) (.ok ⟨⟩) "" := by
  intro printer _ _
  exact ⟨printer, rfl, rfl, by simp, fun _ _ => rfl⟩

theorem does_throw (e : PyError) : Does depth sink (throw e) (.error e) "" := by
  intro printer _ _
  exact ⟨printer, rfl, rfl, by simp, fun _ _ => rfl⟩

theorem Does.seq (h : Does depth sink m (.ok ⟨⟩) t) (h' : Does depth sink m' r t') :
    Does depth sink (do m; m') r (t ++ t') := by
  intro printer hdepth hparent
  obtain ⟨p₁, hexec, hstack, htext, hother⟩ := h printer hdepth hparent
  obtain ⟨p₂, hexec', hstack', htext', hother'⟩ :=
    h' p₁ (by rw [hstack]; exact hdepth) (by rw [hstack]; exact hparent)
  refine ⟨p₂, ?_, hstack'.trans hstack, ?_, fun s hs => (hother' s hs).trans (hother s hs)⟩
  · rw [exec_bind_of_ok hexec]
    exact hexec'
  · rw [htext', htext, String.append_assoc]

theorem Does.seq_error (h : Does depth sink m (.error e) t) :
    Does depth sink (do m; m') (.error e) t := by
  intro printer hdepth hparent
  obtain ⟨p₁, hexec, hrest⟩ := h printer hdepth hparent
  refine ⟨p₁, ?_, hrest⟩
  rw [exec_bind_of_error hexec]

theorem does_writeNoIndent (hb : block.toVar = some sink) (content : String) :
    Does depth sink (block.writeNoIndent content) (.ok ⟨⟩) content := by
  intro printer _ _
  refine ⟨⟨printer.stack, Function.update printer.written sink (printer.written sink ++ [content]),
    printer.blocks⟩, ?_, rfl, text_update printer sink content,
    fun other ho => Function.update_of_ne ho _ _⟩
  rw [Block.writeNoIndent, hb]
  rfl

theorem does_write_ok (hb : block.At units sink) {data text : String}
    (h : percentFormat data = .ok text) :
    Does depth sink (block.write data) (.ok ⟨⟩) (line units text) := by
  have hw : block.write data = block.writeNoIndent (line units text) := by
    unfold Block.write
    rw [h, hb.indent_eq]
    rfl
  rw [hw]
  exact does_writeNoIndent hb.toVar_eq _

theorem does_write_error {data : String} (h : percentFormat data = .error e) :
    Does depth sink (block.write data) (.error e) "" := by
  have hw : block.write data = throw e := by
    unfold Block.write
    rw [h]
    rfl
  rw [hw]
  exact does_throw e

/-- Closing the block that was opened last. -/
theorem exec_exit (hv : block.toVar = some sink) {printer : Printer} {rest : List Block}
    (hstack : printer.stack = block :: rest) :
    exec block.exit printer = (.ok ⟨⟩, { printer with
      stack := rest
      written := Function.update printer.written sink
        (printer.written sink ++ [block.indent ++ "\x7d\n\n"]) }) := by
  obtain ⟨stack, written, blocks⟩ := printer
  dsimp only at hstack
  subst hstack
  unfold Block.exit Block.writeNoIndent
  rw [hv, exec_bind_of_ok (exec_modify _ _), exec_get_bind, exec_bind_of_ok (exec_set _ _)]
  simp

/-- A `with` block prints its closing brace also when an exception passes through. -/
theorem does_withBlock {name : String} {destFn : Option Sink} {body : Block → Print PUnit}
    (hdest : depth = 0 → destFn = some sink)
    (h : ∀ block : Block, block.At (unitsAt depth) sink → Does (depth + 1) sink (body block) r t) :
    Does depth sink (withBlock name destFn body) r (blockText (unitsAt depth) name t) := by
  intro printer hdepth hparent
  subst hdepth
  obtain ⟨block, hb, hname, hinit⟩ :=
    init_eq printer name destFn (fun h => hdest (by simp [h])) hparent
  let opened : Printer := ⟨block :: printer.stack, printer.written, printer.blocks + 1⟩
  obtain ⟨p₁, henter, hs₁, ht₁, ho₁⟩ := does_writeNoIndent hb.toVar_eq
    (block.indent ++ block.name ++ " \x7b\n") opened rfl (by simp [opened, hb.toVar_eq])
  obtain ⟨p₂, hbody, hs₂, ht₂, ho₂⟩ := h block hb p₁ (by simp [hs₁, opened])
    (by simp [hs₁, opened, hb.toVar_eq])
  have hexit := exec_exit hb.toVar_eq (hs₂.trans hs₁)
  rw [hb.indent_eq] at hexit
  let closed : Printer := { p₂ with
    stack := printer.stack
    written := Function.update p₂.written sink
      (p₂.written sink ++ [indentation (unitsAt printer.stack.length) ++ "\x7d\n\n"]) }
  refine ⟨closed, ?_, rfl, ?_, ?_⟩
  · unfold withBlock
    have henter' : exec block.enter opened = (.ok ⟨⟩, p₁) := henter
    rw [exec_bind_of_ok hinit, exec_bind_of_ok henter']
    cases r with
    | ok u =>
      have htry : exec (tryCatch (body block) fun e => do block.exit; throw e) p₁ =
          (.ok ⟨⟩, p₂) := by rw [exec_tryCatch, hbody]
      rw [exec_bind_of_ok htry]
      exact hexit
    | error e =>
      have htry : exec (tryCatch (body block) fun e => do block.exit; throw e) p₁ =
          (.error e, closed) := by
        rw [exec_tryCatch, hbody]
        dsimp only
        rw [exec_bind_of_ok hexit]
        rfl
      rw [exec_bind_of_error htry]
  · have hclosed : closed.text sink = p₂.text sink ++
        (indentation (unitsAt printer.stack.length) ++ "\x7d\n\n") := text_update p₂ sink _
    rw [hclosed, ht₂, ht₁, blockText, hb.indent_eq, hname]
    simp only [String.append_assoc]
    rfl
  · intro other hother
    rw [show closed.written other = p₂.written other from Function.update_of_ne hother _ _,
      ho₂ other hother, ho₁ other hother]

end Does

theorem does_print {depth : Nat} {sink : Sink} {block : Block} (hb : block.At (unitsAt depth) sink)
    (s : Statements) :
    Does (depth + 1) sink (s.print block) (s.outcome depth).1 (s.outcome depth).2 := by
  induction s generalizing depth block with
  | done => exact does_pure
  | write data rest ih =>
    rcases h : percentFormat data with e | text
    · rw [outcome_write_error h]
      exact (does_write_error h).seq_error
    · rw [outcome_write_ok h]
      exact (does_write_ok hb h).seq (ih hb)
  | raise e => exact does_throw e
  | block name body rest ihbody ihrest =>
    have hblock : Does (depth + 1) sink (withBlock name none fun inner => body.print inner)
        (body.outcome (depth + 1)).1
        (blockText (unitsAt (depth + 1)) name (body.outcome (depth + 1)).2) :=
      does_withBlock (fun h => absurd h (by omega)) fun inner hinner => ihbody hinner
    rcases h : (body.outcome (depth + 1)).1 with e | u
    · rw [h] at hblock
      rw [outcome_block_error h]
      exact hblock.seq_error
    · rw [h] at hblock
      rw [outcome_block_ok h]
      exact hblock.seq (ihrest hb)

/-- The outermost block, with statements inside. -/
theorem does_outermost (sink : Sink) (name : String) (s : Statements) :
    Does 0 sink (withBlock name (some sink) fun block => s.print block) (s.outcome 0).1
      (blockText 0 name (s.outcome 0).2) :=
  does_withBlock (fun _ => rfl) fun _ hb => does_print hb s

/-- `Node.config` gives the outcome of its statements. -/
theorem render_configBlocks : render (configBlocks settings resource self) =
    ((configStatements settings resource self).outcome 0).1.map fun _ =>
      blockText 0 ("resource " ++ resource.name)
        ((configStatements settings resource self).outcome 0).2 := by
  have hdoes := does_outermost 0 ("resource " ++ resource.name)
    (configStatements settings resource self)
  obtain ⟨printer, hexec, -, htext, -⟩ := hdoes ⟨[], fun _ => [], 0⟩ rfl (by simp)
  rw [configBlocks_eq]
  unfold render
  rw [hexec]
  rcases h : ((configStatements settings resource self).outcome 0).1 with e | u
  · rfl
  · refine congrArg Except.ok ?_
    simpa [Printer.text] using htext

/-- What is done first, and then the rest unless it raised. -/
def andThen (o o' : Except PyError Unit × String) : Except PyError Unit × String :=
  match o.1 with
  | .ok _ => (o'.1, o.2 ++ o'.2)
  | .error e => (.error e, o.2)

theorem andThen_done (o : Except PyError Unit × String) : andThen (.ok ⟨⟩, "") o = o := by
  rw [andThen, String.empty_append]

theorem andThen_prepend (r : Except PyError Unit) (t t' : String)
    (o : Except PyError Unit × String) :
    ((andThen (r, t') o).1, t ++ (andThen (r, t') o).2) = andThen (r, t ++ t') o := by
  cases r with
  | ok u => simp only [andThen, String.append_assoc]
  | error e => rfl

theorem Statements.outcome_append (depth : Nat) (s after : Statements) :
    (s.append after).outcome depth = andThen (s.outcome depth) (after.outcome depth) := by
  induction s with
  | done => rw [Statements.append, outcome, andThen_done]
  | write data rest ih =>
    rw [Statements.append]
    rcases hformat : percentFormat data with e | text
    · rw [outcome_write_error hformat, outcome_write_error hformat]
      rfl
    · rw [outcome_write_ok hformat, outcome_write_ok hformat, ih, andThen_prepend]
  | raise e => rfl
  | block name body rest _ ih =>
    rw [Statements.append]
    rcases hbody : (body.outcome (depth + 1)).1 with e | u
    · rw [outcome_block_error hbody, outcome_block_error hbody]
      rfl
    · rw [outcome_block_ok hbody, outcome_block_ok hbody, ih, andThen_prepend]

theorem outcome_append_ok {depth : Nat} {s after : Statements} {u : Unit}
    (h : ((s.append after).outcome depth).1 = .ok u) :
    ((s.append after).outcome depth).2 = (s.outcome depth).2 ++ (after.outcome depth).2 := by
  rw [Statements.outcome_append, andThen] at h ⊢
  rcases hs : (s.outcome depth).1 with e | u
  · rw [hs] at h
    cases h
  · rfl

/-- The text of the connections of a config, as the node generates them. -/
def connectionsText : String := ((conns9Statements settings resource self).outcome 0).2

/-- The connections are the last part of a config. -/
theorem config_connections {text : String} (h9 : isVersion9 self = true)
    (h : render (configBlocks settings resource self) = .ok text) :
    ∃ front, text = front ++ connectionsText settings resource self ++ "\x7d\n\n" := by
  rw [render_configBlocks] at h
  rcases hr : ((configStatements settings resource self).outcome 0).1 with e | u
  · rw [hr] at h
    cases h
  · rw [hr] at h
    have htext := Except.ok.inj h
    have hstatements : configStatements settings resource self =
        (frontStatements settings resource self).append (conns9Statements settings resource self) := by
      rw [configStatements, if_pos h9]
    rw [hstatements] at htext hr
    rw [outcome_append_ok hr] at htext
    refine ⟨"resource " ++ resource.name ++ " \x7b\n" ++
      ((frontStatements settings resource self).outcome 0).2, ?_⟩
    rw [← htext, blockText, connectionsText, show indentation 0 = "" from rfl, String.empty_append,
      String.empty_append]
    simp only [String.append_assoc]

/-- Of the node that generates a config, the connections only depend on its port. -/
theorem conns9Statements_congr {a b : NodeView} (h : a.port = b.port) :
    conns9Statements settings resource a = conns9Statements settings resource b := by
  have hhost : ∀ node, proxyHostStatements a node = proxyHostStatements b node := by
    intro node
    rw [proxyHostStatements, h, proxyHostStatements]
  have hconnection : ∀ n1 n2, connectionStatements settings a n1 n2 =
      connectionStatements settings b n1 n2 := by
    intro n1 n2
    rw [connectionStatements, hhost, hhost, connectionStatements]
  unfold conns9Statements
  simp only [hconnection]

end DrbdTests.Config
