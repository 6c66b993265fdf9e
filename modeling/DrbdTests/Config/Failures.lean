import DrbdTests.Config.Statements

/-!
# Config generation that fails

`ConfigBlock.__init__` pushes the block on the shared stack and `__exit__` pops it, so an exception
that leaves a `with` statement takes the block off the stack. `Source` is the tree of statements of
`Node.config` with its only exception handler, the one around the line for `memlimit`, and
`Source.Fails` relates the tree to those in which exceptions are raised at some of its points.

`failed_config_leaves_no_trace`: whatever is raised, the stack is the same afterwards, and a later
call gives what it would have given before. The call ends with the first exception that is raised
outside the handler.
-/

namespace DrbdTests.Config

open Stateful

/-- Statements inside a `with` block. `attempt` is `try: body except: pass`. -/
inductive Source
  | done
  | write (data : String) (rest : Source)
  | raise (e : PyError)
  | block (name : String) (body rest : Source)
  | attempt (body rest : Source)
  deriving DecidableEq, Repr

namespace Source

/-- The statements run inside the block. -/
def print (block : Block) : Source → Print PUnit
  | done => pure ⟨⟩
  | write data rest => do
    block.write data
    rest.print block
  | raise e => throw e
  | .block name body rest => do
    withBlock name none fun inner => body.print inner
    rest.print block
  | attempt body rest => do
    tryCatch (body.print block) fun _ => pure ⟨⟩
    rest.print block

def append : Source → Source → Source
  | done, after => after
  | write data rest, after => write data (rest.append after)
  | raise e, _ => raise e
  | .block name body rest, after => .block name body (rest.append after)
  | attempt body rest, after => attempt body (rest.append after)

/-- Statements without an exception handler. -/
def plain : Statements → Source
  | .done => done
  | .write data rest => write data (plain rest)
  | .raise e => raise e
  | .block name body rest => .block name (plain body) (plain rest)

/-- How statements end, and what they print, when the block around them is inside of `depth`
others. -/
def outcome (depth : Nat) : Source → Except PyError Unit × String
  | done => (.ok ⟨⟩, "")
  | write data rest =>
    match percentFormat data with
    | .ok text => ((rest.outcome depth).1, line (unitsAt depth) text ++ (rest.outcome depth).2)
    | .error e => (.error e, "")
  | raise e => (.error e, "")
  | .block name body rest =>
    let inner := body.outcome (depth + 1)
    let text := blockText (unitsAt (depth + 1)) name inner.2
    match inner.1 with
    | .ok _ => ((rest.outcome depth).1, text ++ (rest.outcome depth).2)
    | .error e => (.error e, text)
  | attempt body rest =>
    ((rest.outcome depth).1, (body.outcome depth).2 ++ (rest.outcome depth).2)

/-- The first exception that is raised outside of an exception handler. -/
def raised : Source → Option PyError
  | done => none
  | write data rest =>
    match percentFormat data with
    | .ok _ => rest.raised
    | .error e => some e
  | raise e => some e
  | .block _ body rest => body.raised.or rest.raised
  | attempt _ rest => rest.raised

/-- The first exception that is raised, handled or not. -/
def firstRaised : Source → Option PyError
  | done => none
  | write data rest =>
    match percentFormat data with
    | .ok _ => rest.firstRaised
    | .error e => some e
  | raise e => some e
  | .block _ body rest => body.firstRaised.or rest.firstRaised
  | attempt body rest => body.firstRaised.or rest.firstRaised

/-- The second tree does what the first one does, but at some points an exception is raised in
place of the statements that follow: when the next line is formatted, when a value is computed, or
after the last statement of a block. -/
inductive Fails : Source → Source → Prop
  | here (s : Source) (e : PyError) : Fails s (raise e)
  | refl (s : Source) : Fails s s
  | write (data : String) {rest rest' : Source} :
    Fails rest rest' → Fails (write data rest) (write data rest')
  | block (name : String) {body body' rest rest' : Source} :
    Fails body body' → Fails rest rest' → Fails (.block name body rest) (.block name body' rest')
  | attempt {body body' rest rest' : Source} :
    Fails body body' → Fails rest rest' → Fails (attempt body rest) (attempt body' rest')

end Source

open Source

/-! ## The statements of the source -/

/-- The line for `memlimit`, in its exception handler. Without the option there is no global
variable of that name. -/
def memlimitSource (settings : Settings) : Source :=
  match settings.memlimit with
  | some memlimit =>
    if memlimit ≠ 0 then .write ("memlimit " ++ toString memlimit ++ ";") .done else .done
  | none => .raise .nameError

def proxySource (settings : Settings) : Source :=
  .block "proxy"
    (if settings.proxyEnable then
      (plain (if settings.lz4Enable then .single "plugin" (.lines ["lz4;"])
        else if settings.zstdEnable ≠ 0 then
          .single "plugin" (.lines ["zstd levels " ++ toString settings.zstdEnable ++ ";"])
        else .done)).append
      (.attempt (memlimitSource settings) .done)
    else .done)
    .done

/-- The statements inside the outermost block of `Node.config`. -/
def configSource (settings : Settings) (resource : ResourceView) (self : NodeView) : Source :=
  (plain (.sequence [.single "handlers" (.lines [resource.handlers]),
    .single "options" (.lines [resource.resourceOptions]),
    .single "disk" (.lines (diskStatements resource self)),
    .single "net" (.lines (netStatements resource self))])).append
  ((proxySource settings).append
    ((plain (.sequence (resource.nodes.map (hostStatements self)))).append
      (if isVersion9 self then plain (conns9Statements settings resource self) else .done)))

/-- `Node.config` with the stack as it is, printing to a new list. -/
def configInto (w : World) (n : NodeId) (text : Sink) (body : Source) : Print String := do
  modify fun printer => { printer with written := Function.update printer.written text [] }
  withBlock ("resource " ++ (w.resourceView (w.node n).resource).name) (some text) fun block =>
    body.print block
  return (← get).text text

/-- The statements inside the outermost block, for a node. -/
def nodeSource (w : World) (n : NodeId) : Source :=
  configSource w.settings (w.resourceView (w.node n).resource) (w.nodeView n)

/-! ## What the statements do -/

section

variable {depth : Nat} {data text name : String} {body rest : Source} {e : PyError}

theorem source_write_ok (h : percentFormat data = .ok text) :
    (Source.write data rest).outcome depth =
      ((rest.outcome depth).1, line (unitsAt depth) text ++ (rest.outcome depth).2) := by
  rw [Source.outcome, h]

theorem source_write_error (h : percentFormat data = .error e) :
    (Source.write data rest).outcome depth = (.error e, "") := by
  rw [Source.outcome, h]

theorem source_block_ok {u : Unit} (h : (body.outcome (depth + 1)).1 = .ok u) :
    (Source.block name body rest).outcome depth = ((rest.outcome depth).1,
      blockText (unitsAt (depth + 1)) name (body.outcome (depth + 1)).2 ++
        (rest.outcome depth).2) := by
  rw [Source.outcome, h]

theorem source_block_error (h : (body.outcome (depth + 1)).1 = .error e) :
    (Source.block name body rest).outcome depth =
      (.error e, blockText (unitsAt (depth + 1)) name (body.outcome (depth + 1)).2) := by
  rw [Source.outcome, h]

end

/-- A handled exception leaves what was printed until then. -/
theorem Does.attempt {depth : Nat} {sink : Sink} {m : Print PUnit} {r : Except PyError Unit}
    {t : String} (h : Does depth sink m r t) :
    Does depth sink (tryCatch m fun _ => pure ⟨⟩) (.ok ⟨⟩) t := by
  intro printer hdepth hparent
  obtain ⟨printer', hexec, hrest⟩ := h printer hdepth hparent
  refine ⟨printer', ?_, hrest⟩
  rw [exec_tryCatch, hexec]
  cases r with
  | ok u => rfl
  | error e => rfl

theorem Source.does_print {depth : Nat} {sink : Sink} {block : Block}
    (hb : block.At (unitsAt depth) sink) (s : Source) :
    Does (depth + 1) sink (s.print block) (s.outcome depth).1 (s.outcome depth).2 := by
  induction s generalizing depth block with
  | done => exact does_pure
  | write data rest ih =>
    rcases h : percentFormat data with e | text
    · rw [source_write_error h]
      exact (does_write_error h).seq_error
    · rw [source_write_ok h]
      exact (does_write_ok hb h).seq (ih hb)
  | raise e => exact does_throw e
  | block name body rest ihbody ihrest =>
    have hblock : Does (depth + 1) sink (withBlock name none fun inner => body.print inner)
        (body.outcome (depth + 1)).1
        (blockText (unitsAt (depth + 1)) name (body.outcome (depth + 1)).2) :=
      does_withBlock (fun h => absurd h (Nat.succ_ne_zero depth)) fun inner hinner => ihbody hinner
    rcases h : (body.outcome (depth + 1)).1 with e | u
    · rw [h] at hblock
      rw [source_block_error h]
      exact hblock.seq_error
    · rw [h] at hblock
      rw [source_block_ok h]
      exact hblock.seq (ihrest hb)
  | attempt body rest ihbody ihrest => exact (ihbody hb).attempt.seq (ihrest hb)

/-- Statements end with the first exception that is not handled. -/
theorem outcome_raised (depth : Nat) (s : Source) : (s.outcome depth).1 =
    match s.raised with
    | none => .ok ⟨⟩
    | some e => .error e := by
  induction s generalizing depth with
  | done => rfl
  | write data rest ih =>
    rw [raised]
    rcases h : percentFormat data with e | text
    · rw [source_write_error h]
    · rw [source_write_ok h]
      exact ih depth
  | raise e => rfl
  | block name body rest ihbody ihrest =>
    have hbody := ihbody (depth + 1)
    rw [raised]
    rcases hraised : body.raised with _ | e
    · rw [hraised] at hbody
      rw [source_block_ok hbody]
      exact ihrest depth
    · rw [hraised] at hbody
      rw [source_block_error hbody]
      rfl
  | attempt body rest _ ihrest => exact ihrest depth

/-! ## A call -/

variable {printer : Printer} {text : Sink}

/-- What a call returns, or raises, depends on the stack only. -/
theorem exec_configInto (w : World) (n : NodeId) (text : Sink) (printer : Printer) (body : Source)
    (hopen : ∀ block ∈ printer.stack.head?, ∃ sink, sink ≠ text ∧ block.toVar = some sink) :
    ∃ printer', exec (configInto w n text body) printer =
      ((body.outcome printer.stack.length).1.map fun _ =>
        if printer.stack = [] then
          blockText 0 ("resource " ++ (w.resourceView (w.node n).resource).name) (body.outcome 0).2
        else "", printer') ∧ printer'.stack = printer.stack := by
  let cleared : Printer := { printer with written := Function.update printer.written text [] }
  have hclear : exec (modify fun p : Printer =>
      { p with written := Function.update p.written text [] } : Print PUnit) printer =
      (.ok ⟨⟩, cleared) := rfl
  have hempty : cleared.text text = "" := by simp [cleared, Printer.text]
  -- the list that the outermost block prints to
  obtain ⟨sink, hdest, hparent, htext⟩ : ∃ sink, (cleared.stack.length = 0 → some text = some sink) ∧
      (∀ parent ∈ cleared.stack.head?, parent.toVar = some sink) ∧
      (sink = text ↔ printer.stack = []) := by
    change ∃ sink, (printer.stack.length = 0 → some text = some sink) ∧
      (∀ parent ∈ printer.stack.head?, parent.toVar = some sink) ∧
      (sink = text ↔ printer.stack = [])
    rcases hstack : printer.stack with _ | ⟨top, rest⟩
    · exact ⟨text, fun _ => rfl, by simp, by simp⟩
    · obtain ⟨sink, hne, htop⟩ := hopen top (by rw [hstack]; rfl)
      exact ⟨sink, by simp, by simpa using htop, by simp [hne]⟩
  have hdoes : Does printer.stack.length sink
      (withBlock ("resource " ++ (w.resourceView (w.node n).resource).name) (some text) fun block =>
        body.print block) _ _ :=
    does_withBlock hdest fun block hb => Source.does_print hb body
  obtain ⟨printer', hexec, hstack, hwritten, hother⟩ := hdoes cleared rfl hparent
  refine ⟨printer', ?_, hstack⟩
  unfold configInto
  rw [exec_bind_of_ok hclear]
  rcases hresult : (body.outcome printer.stack.length).1 with e | u
  · rw [hresult] at hexec
    rw [exec_bind_of_error hexec]
    rfl
  · rw [hresult] at hexec
    rw [exec_bind_of_ok hexec, exec_get_bind, exec_pure]
    by_cases hnil : printer.stack = []
    · have hsink := htext.mpr hnil
      rw [hsink, hempty, String.empty_append, hnil] at hwritten
      rw [hwritten, if_pos hnil]
      rfl
    · have hlist : printer'.text text = cleared.text text :=
        congrArg String.join (hother text fun heq => hnil (htext.mp heq.symm))
      rw [hlist, hempty, if_neg hnil]
      rfl

/-! ## The statements with and without the handler -/

theorem outcome_plain (depth : Nat) (s : Statements) :
    (Source.plain s).outcome depth = s.outcome depth := by
  induction s generalizing depth with
  | done => rfl
  | write data rest ih =>
    rw [Source.plain]
    rcases hformat : percentFormat data with e | text
    · rw [source_write_error hformat, outcome_write_error hformat]
    · rw [source_write_ok hformat, outcome_write_ok hformat, ih]
  | raise e => rfl
  | block name body rest ihbody ihrest =>
    rw [Source.plain]
    rcases hbody : (body.outcome (depth + 1)).1 with e | u
    · have hsource : ((Source.plain body).outcome (depth + 1)).1 = .error e := by rw [ihbody, hbody]
      rw [source_block_error hsource, outcome_block_error hbody, ihbody]
    · have hsource : ((Source.plain body).outcome (depth + 1)).1 = .ok u := by rw [ihbody, hbody]
      rw [source_block_ok hsource, outcome_block_ok hbody, ihbody, ihrest]

theorem Source.outcome_append (depth : Nat) (s after : Source) :
    (s.append after).outcome depth = andThen (s.outcome depth) (after.outcome depth) := by
  induction s with
  | done => rw [Source.append, Source.outcome, andThen_done]
  | write data rest ih =>
    rw [Source.append]
    rcases hformat : percentFormat data with e | text
    · rw [source_write_error hformat, source_write_error hformat]
      rfl
    · rw [source_write_ok hformat, source_write_ok hformat, ih, andThen_prepend]
  | raise e => rfl
  | block name body rest _ ih =>
    rw [Source.append]
    rcases hbody : (body.outcome (depth + 1)).1 with e | u
    · rw [source_block_error hbody, source_block_error hbody]
      rfl
    · rw [source_block_ok hbody, source_block_ok hbody, ih, andThen_prepend]
  | attempt body rest _ ih =>
    rw [Source.append, Source.outcome, ih, Source.outcome, andThen_prepend]

/-- The handler of the line for `memlimit` only makes a difference when there is no such variable,
and then `Node.config` has no such line. -/
theorem outcome_memlimit (depth : Nat) (settings : Settings) :
    (Source.attempt (memlimitSource settings) .done).outcome depth =
      (match settings.memlimit with
        | some memlimit =>
          if memlimit ≠ 0 then Statements.lines ["memlimit " ++ toString memlimit ++ ";"]
          else .done
        | none => .done : Statements).outcome depth := by
  unfold memlimitSource
  rcases settings.memlimit with _ | memlimit
  · rfl
  · dsimp only
    split
    · have hplain : Plain ("memlimit " ++ toString memlimit ++ ";") :=
        plain_append (plain_append (by decide) (plain_toString memlimit)) (by decide)
      have hformat := percentFormat_plain fun hc => (hplain _ hc).1 rfl
      change Source.outcome depth (.attempt (.write _ .done) .done) =
        Statements.outcome depth (.write _ .done)
      rw [outcome_write_ok hformat, Source.outcome, source_write_ok hformat]
      simp [Source.outcome, Statements.outcome]
    · rfl

theorem outcome_single {depth : Nat} {name : String} {body : Source} {body' : Statements}
    (h : body.outcome (depth + 1) = body'.outcome (depth + 1)) :
    (Source.block name body .done).outcome depth = (Statements.single name body').outcome depth := by
  rw [Statements.single]
  rcases hbody : (body'.outcome (depth + 1)).1 with e | u
  · have hsource : (body.outcome (depth + 1)).1 = .error e := by rw [h, hbody]
    rw [source_block_error hsource, outcome_block_error hbody, h]
  · have hsource : (body.outcome (depth + 1)).1 = .ok u := by rw [h, hbody]
    rw [source_block_ok hsource, outcome_block_ok hbody, h]
    rfl

theorem outcome_proxy (depth : Nat) (settings : Settings) :
    (proxySource settings).outcome depth = (proxyStatements settings).outcome depth := by
  apply outcome_single
  split
  · rw [Source.outcome_append, outcome_plain, outcome_memlimit]
    exact (Statements.outcome_append _ _ _).symm
  · rfl

theorem outcome_config (depth : Nat) (settings : Settings) (resource : ResourceView)
    (self : NodeView) : (configSource settings resource self).outcome depth =
      (configStatements settings resource self).outcome depth := by
  have hfront : frontStatements settings resource self =
      (Statements.sequence [.single "handlers" (.lines [resource.handlers]),
        .single "options" (.lines [resource.resourceOptions]),
        .single "disk" (.lines (diskStatements resource self)),
        .single "net" (.lines (netStatements resource self))]).append
      ((proxyStatements settings).append
        (.sequence (resource.nodes.map (hostStatements self)))) := by
    rw [← Statements.sequence_cons, ← Statements.sequence_append]
    rfl
  have hconns : (if isVersion9 self then Source.plain (conns9Statements settings resource self)
        else .done).outcome depth =
      (if isVersion9 self then conns9Statements settings resource self else .done).outcome depth := by
    split
    · exact outcome_plain depth _
    · rfl
  rw [configSource, configStatements, hfront, Statements.append_assoc, Statements.append_assoc]
  rw [Source.outcome_append, Source.outcome_append, Source.outcome_append, outcome_plain,
    outcome_proxy, outcome_plain, hconns]
  rw [Statements.outcome_append, Statements.outcome_append, Statements.outcome_append]

/-- `Node.config` is the call with an empty stack. -/
theorem configInto_eq_config (w : World) (n : NodeId) (hstack : printer.stack = []) :
    (exec (configInto w n text (nodeSource w n)) printer).1 = Node.config w n := by
  obtain ⟨printer', hexec, -⟩ :=
    exec_configInto w n text printer (nodeSource w n) (by simp [hstack])
  rw [hexec, Node.config, render_configBlocks, if_pos hstack, hstack, nodeSource,
    List.length_nil, outcome_config]

/-! ## After a failure -/

/-- Whatever is raised while the config is generated, the stack is as before and later calls give
what they would have given; the call raises the first exception that is not handled. -/
theorem failed_config_leaves_no_trace (w : World) (n : NodeId) (text : Sink) (printer : Printer)
    (hopen : ∀ block ∈ printer.stack, ∃ sink, sink ≠ text ∧ block.toVar = some sink) :
    ∀ body, Fails (nodeSource w n) body →
      let call := exec (configInto w n text body) printer
      (∀ e, call.1 = .error e ↔ body.raised = some e) ∧
      call.2.stack = printer.stack ∧
      ∀ w' m text', (∀ block ∈ printer.stack, block.toVar ≠ some text') →
        (exec (configInto w' m text' (nodeSource w' m)) call.2).1 =
          (exec (configInto w' m text' (nodeSource w' m)) printer).1 ∧
        (printer.stack = [] →
          (exec (configInto w' m text' (nodeSource w' m)) call.2).1 = Node.config w' m) := by
  intro body _
  have hhead : ∀ block ∈ printer.stack.head?, ∃ sink, sink ≠ text ∧ block.toVar = some sink :=
    fun block hb => hopen block (List.mem_of_mem_head? hb)
  obtain ⟨printer', hexec, hstack⟩ := exec_configInto w n text printer body hhead
  refine ⟨fun e => ?_, ?_, fun w' m text' hnew => ?_⟩
  · rw [hexec, outcome_raised]
    rcases body.raised with _ | e'
    · simp [Except.map]
    · simp [Except.map]
  · rw [hexec]
    exact hstack
  · have hhead' : ∀ block ∈ printer.stack.head?, ∃ sink, sink ≠ text' ∧ block.toVar = some sink := by
      intro block hb
      obtain ⟨sink, -, hsink⟩ := hopen block (List.mem_of_mem_head? hb)
      refine ⟨sink, ?_, hsink⟩
      rintro rfl
      exact hnew block (List.mem_of_mem_head? hb) hsink
    obtain ⟨p, hp, -⟩ := exec_configInto w' m text' printer (nodeSource w' m) hhead'
    obtain ⟨p', hp', -⟩ := exec_configInto w' m text' printer' (nodeSource w' m)
      (by rw [hstack]; exact hhead')
    constructor
    · rw [hexec, hp, hp', hstack]
    · intro hnil
      rw [hexec]
      exact configInto_eq_config w' m (hstack.trans hnil)

theorem failed_config_leaves_no_trace_handlers :
    let body : Source := .block "handlers" (.raise .typeError) (.raise .typeError)
    let failed := exec (configInto threeNodes 0 0 body) ⟨[], fun _ => [], 0⟩
    failed.1 = .error .typeError ∧
      (exec (configInto threeNodes 1 1 (nodeSource threeNodes 1)) failed.2).1 =
        Node.config threeNodes 1 := by
  have hfails : Fails (nodeSource threeNodes 0)
      (.block "handlers" (.raise .typeError) (.raise .typeError)) :=
    .block "handlers" (.here _ _) (.here _ _)
  obtain ⟨hraised, -, hlater⟩ := failed_config_leaves_no_trace threeNodes 0 0
    ⟨[], fun _ => [], 0⟩ (by simp) _ hfails
  exact ⟨(hraised .typeError).mpr rfl, (hlater threeNodes 1 1 (by simp)).2 rfl⟩

/-- With a proxy and without the option `memlimit`, an exception is raised that does not leave the
call. -/
theorem memlimit_exception_handled :
    let w := { threeNodes with settings := { threeNodes.settings with proxyEnable := true } }
    Fails (nodeSource w 0) (nodeSource w 0) ∧ (nodeSource w 0).firstRaised = some .nameError ∧
      (exec (configInto w 0 0 (nodeSource w 0)) ⟨[], fun _ => [], 0⟩).1.toBool = true := by
  refine ⟨.refl _, ?_⟩
  decide +kernel

end DrbdTests.Config
