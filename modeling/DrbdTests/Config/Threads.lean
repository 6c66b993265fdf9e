import DrbdTests.Config.Statements
import DrbdTests.Lib.Runs
import Mathlib.Algebra.GroupWithZero.Nat

/-!
# Two threads that generate configs

`ConfigBlock._stack` is bound once, in the body of the class, to the list of the thread that
runs it. Although it is taken from a `threading.local()`, all threads push their blocks on
that one list.

`Control` is the place in a call of `Node.config` where a thread is, and `Control.step` does
the next access to the stack: a construction, a header, a line or an exit. Each call has its
own list `text`, the sink of its outermost block; but a block that is constructed while the
other thread has a block open becomes a part of that one.

As long as the calls do not overlap, a thread finds the stack as it left it (`InStep`), and
what the rest of its call does is what the whole call does when it runs alone.
-/

namespace DrbdTests.Config

open Stateful Runs

/-- A call of `Node.config`: the name of the outermost block, and the statements inside. -/
structure Call where
  name : String
  body : Statements
  deriving DecidableEq, Repr

/-- The call for a node. -/
def Call.ofNode (w : World) (n : NodeId) : Call where
  name := "resource " ++ (w.resourceView (w.node n).resource).name
  body := configStatements w.settings (w.resourceView (w.node n).resource) (w.nodeView n)

/-- A `with` block that has been entered, and the statements that are still to come in it. -/
structure Frame where
  block : Block
  rest : Statements
  deriving DecidableEq

/-- Where a call is. The frames are those of the open `with` blocks, the innermost first. -/
inductive Control
  | called
  | constructed (block : Block) (body : Statements) (frames : List Frame)
  | inside (frames : List Frame)
  | raising (e : PyError) (frames : List Frame)
  deriving DecidableEq

/-- What a thread does after an access to the stack that may raise. -/
def Control.after (result : Except PyError Unit) (frames : List Frame) (next : Control) : Control :=
  match result with
  | .ok _ => next
  | .error e => .raising e frames

/-- Constructing the next block. -/
def Control.construct (name : String) (destFn : Option Sink) (body : Statements)
    (frames : List Frame) (printer : Printer) : Control × Printer :=
  match exec (Block.init name destFn) printer with
  | (.ok block, printer') => (.constructed block body frames, printer')
  | (.error e, printer') => (.raising e frames, printer')

/-- The next step of a call. A header that cannot be written is outside of the `with`
statement, so the block is not exited. -/
def Control.step (call : Call) (sink : Sink) (printer : Printer) : Control → Control × Printer
  | called => construct call.name (some sink) call.body [] printer
  | constructed block body frames =>
    let entered := exec block.enter printer
    (after entered.1 frames (.inside (⟨block, body⟩ :: frames)), entered.2)
  | inside [] => (.inside [], printer)
  | inside (⟨block, .done⟩ :: frames) =>
    let exited := exec block.exit printer
    (after exited.1 frames (.inside frames), exited.2)
  | inside (⟨block, .write data rest⟩ :: frames) =>
    let written := exec (block.write data) printer
    (after written.1 (⟨block, rest⟩ :: frames) (.inside (⟨block, rest⟩ :: frames)), written.2)
  | inside (⟨block, .raise e⟩ :: frames) => (.raising e (⟨block, .done⟩ :: frames), printer)
  | inside (⟨block, .block name body rest⟩ :: frames) =>
    construct name none body (⟨block, rest⟩ :: frames) printer
  | raising e [] => (.raising e [], printer)
  | raising e (frame :: frames) =>
    let exited := exec frame.block.exit printer
    (after exited.1 frames (.raising e frames), exited.2)

/-- How the call has ended. -/
def Control.finished : Control → Option (Except PyError Unit)
  | inside [] => some (.ok ⟨⟩)
  | raising e [] => some (.error e)
  | _ => none

/-! ## The rest of a call -/

/-- The rest of the open `with` blocks, after the innermost computation. -/
def unwind (m : Print PUnit) : List Frame → Print PUnit
  | [] => m
  | ⟨block, rest⟩ :: frames => unwind (do
      tryCatch (do m; rest.print block) fun e => do
        block.exit
        throw e
      block.exit) frames

/-- What a call does from here when nothing else happens. -/
def Control.rest (call : Call) (sink : Sink) : Control → Print PUnit
  | called => withBlock call.name (some sink) fun block => call.body.print block
  | constructed block body frames => unwind (do
      block.enter
      tryCatch (body.print block) fun e => do
        block.exit
        throw e
      block.exit) frames
  | inside frames => unwind (pure ⟨⟩) frames
  | raising e frames => unwind (throw e) frames

/-- The statements of the innermost block, and the exit that follows them. -/
theorem exec_frame {m m' : Print PUnit} {rest rest' : Statements} {block : Block}
    {printer printer' : Printer} (frames : List Frame)
    (h : exec (do m; rest.print block) printer = exec (do m'; rest'.print block) printer') :
    exec (unwind m (⟨block, rest⟩ :: frames)) printer =
      exec (unwind m' (⟨block, rest'⟩ :: frames)) printer' := by
  suffices hgen : ∀ (frames : List Frame) (m m' : Print PUnit),
      exec m printer = exec m' printer' →
      exec (unwind m frames) printer = exec (unwind m' frames) printer' by
    apply hgen frames
    rw [exec_bind, exec_bind, exec_tryCatch, exec_tryCatch, h]
  intro frames
  induction frames with
  | nil => exact fun _ _ h => h
  | cons frame frames ih =>
    intro m m' hm
    apply ih
    have hbody : exec (do m; frame.rest.print frame.block) printer =
        exec (do m'; frame.rest.print frame.block) printer' := by
      rw [exec_bind, exec_bind, hm]
    rw [exec_bind, exec_bind, exec_tryCatch, exec_tryCatch, hbody]

theorem exec_unwind {m m' : Print PUnit} {printer printer' : Printer} (frames : List Frame)
    (h : exec m printer = exec m' printer') :
    exec (unwind m frames) printer = exec (unwind m' frames) printer' := by
  cases frames with
  | nil => exact h
  | cons frame frames =>
    apply exec_frame frames
    rw [exec_bind, exec_bind, h]

variable {call : Call} {sink : Sink} {printer : Printer}

/-- The next computation either returns, and `next` goes on, or raises. -/
theorem exec_after {m : Print PUnit} {frames : List Frame} {next : Control} {whole : Print PUnit}
    (hok : ∀ printer', exec m printer = (.ok ⟨⟩, printer') →
      exec whole printer = exec (next.rest call sink) printer')
    (herror : ∀ e printer', exec m printer = (.error e, printer') →
      exec whole printer = exec (unwind (throw e) frames) printer') :
    exec ((Control.after (exec m printer).1 frames next).rest call sink) (exec m printer).2 =
      exec whole printer := by
  rcases h : exec m printer with ⟨e | ⟨⟩, printer'⟩
  · exact (herror e printer' h).symm
  · exact (hok printer' h).symm

theorem exec_construct {name : String} {destFn : Option Sink} {body : Statements}
    {frames : List Frame} {whole : Print PUnit}
    (h : exec whole printer = exec (unwind (withBlock name destFn fun block =>
      body.print block) frames) printer) :
    exec ((Control.construct name destFn body frames printer).1.rest call sink)
        (Control.construct name destFn body frames printer).2 = exec whole printer := by
  rw [h]
  unfold Control.construct
  rcases hinit : exec (Block.init name destFn) printer with ⟨e | block, printer'⟩
  · apply exec_unwind frames
    unfold withBlock
    rw [exec_bind_of_error hinit]
    rfl
  · apply exec_unwind frames
    unfold withBlock
    rw [exec_bind_of_ok hinit]

/-- A step does the first part of the rest of the call. -/
theorem exec_step (call : Call) (sink : Sink) (printer : Printer) (c : Control) :
    exec ((c.step call sink printer).1.rest call sink) (c.step call sink printer).2 =
      exec (c.rest call sink) printer := by
  match c with
  | .called => exact exec_construct rfl
  | .constructed block body frames =>
    apply exec_after
    · intro printer' h
      apply exec_unwind frames
      rw [exec_bind_of_ok h]
      rfl
    · intro e printer' h
      apply exec_unwind frames
      rw [exec_bind_of_error h]
      rfl
  | .inside [] => rfl
  | .inside (⟨block, .done⟩ :: frames) =>
    have hdone : exec (unwind (pure ⟨⟩) (⟨block, .done⟩ :: frames)) printer =
        exec (unwind block.exit frames) printer := by
      apply exec_unwind frames
      rfl
    apply exec_after
    · intro printer' h
      refine hdone.trans ?_
      apply exec_unwind frames
      rw [h]
      rfl
    · intro e printer' h
      refine hdone.trans ?_
      apply exec_unwind frames
      rw [h]
      rfl
  | .inside (⟨block, .write data rest⟩ :: frames) =>
    apply exec_after
    · intro printer' h
      apply exec_frame frames
      change exec (do block.write data; rest.print block) printer = _
      rw [exec_bind_of_ok h]
      rfl
    · intro e printer' h
      apply exec_frame frames
      change exec (do block.write data; rest.print block) printer = _
      rw [exec_bind_of_error h]
      rfl
  | .inside (⟨block, .raise e⟩ :: frames) => exact exec_frame frames rfl
  | .inside (⟨block, .block name body rest⟩ :: frames) =>
    apply exec_construct
    apply exec_frame frames
    rfl
  | .raising e [] => rfl
  | .raising e (⟨block, rest⟩ :: frames) =>
    have hhandler : exec (tryCatch (do throw e; rest.print block) fun e => do
        block.exit
        throw e) printer = exec (do block.exit; throw e) printer := rfl
    apply exec_after
    · intro printer' h
      apply exec_unwind frames
      have hraise := hhandler.trans (exec_bind_of_ok h)
      rw [exec_bind, hraise]
      rfl
    · intro e' printer' h
      apply exec_unwind frames
      have hraise := hhandler.trans (exec_bind_of_error h)
      rw [exec_bind, hraise]
      rfl

/-! ## The stack as the call left it -/

/-- The blocks that the call has on the stack. -/
def Control.blocks : Control → List Block
  | called => []
  | constructed block _ frames => block :: frames.map Frame.block
  | inside frames => frames.map Frame.block
  | raising _ frames => frames.map Frame.block

/-- The stack contains the blocks of the call and nothing else, and everything goes to its
sink. -/
structure InStep (sink : Sink) (printer : Printer) (c : Control) : Prop where
  stack : printer.stack = c.blocks
  toVar : ∀ block ∈ c.blocks, block.toVar = some sink

/-- Nothing was written to other sinks. -/
structure OnlySink (sink : Sink) (printer printer' : Printer) : Prop where
  written : ∀ other, other ≠ sink → printer'.written other = printer.written other

theorem exec_init_sink {name : String} {destFn : Option Sink}
    (hdest : printer.stack = [] → destFn = some sink)
    (hparent : ∀ block ∈ printer.stack, block.toVar = some sink) :
    ∃ block : Block, block.toVar = some sink ∧ exec (Block.init name destFn) printer =
      (.ok block, { printer with stack := block :: printer.stack, blocks := printer.blocks + 1 }) := by
  obtain ⟨block, hb, -, hr⟩ := init_eq printer name destFn hdest fun parent hp =>
    hparent parent (List.mem_of_mem_head? hp)
  exact ⟨block, hb.toVar_eq, hr⟩

theorem exec_writeNoIndent {block : Block} (hv : block.toVar = some sink) (content : String) :
    exec (block.writeNoIndent content) printer = (.ok ⟨⟩, { printer with
      written := Function.update printer.written sink (printer.written sink ++ [content]) }) := by
  rw [Block.writeNoIndent, hv]
  rfl

theorem exec_write {block : Block} (hv : block.toVar = some sink) (data : String)
    (printer : Printer) :
    ∃ result printer', exec (block.write data) printer = (result, printer') ∧
      printer'.stack = printer.stack ∧ OnlySink sink printer printer' := by
  rcases h : percentFormat data with e | text
  · refine ⟨.error e, printer, ?_, rfl, ⟨fun _ _ => rfl⟩⟩
    unfold Block.write
    rw [h]
    rfl
  · let content := block.indent ++ INDENT ++ text
    have hcontent : block.write data = block.writeNoIndent
        (if content.toList.getLast? = some '\n' then content else content ++ "\n") := by
      unfold Block.write
      rw [h]
      rfl
    rw [hcontent, exec_writeNoIndent hv]
    exact ⟨_, _, rfl, rfl, ⟨fun other ho => Function.update_of_ne ho _ _⟩⟩

theorem InStep.construct {c : Control} (h : InStep sink printer c) {name : String}
    {destFn : Option Sink} (hdest : c.blocks = [] → destFn = some sink) (body : Statements)
    {frames : List Frame} (hframes : frames.map Frame.block = c.blocks) :
    InStep sink (Control.construct name destFn body frames printer).2
        (Control.construct name destFn body frames printer).1 ∧
      OnlySink sink printer (Control.construct name destFn body frames printer).2 := by
  obtain ⟨block, hv, hinit⟩ := exec_init_sink (by rw [h.stack]; exact hdest)
    (by rw [h.stack]; exact h.toVar)
  unfold Control.construct
  rw [hinit]
  refine ⟨⟨?_, ?_⟩, ⟨fun _ _ => rfl⟩⟩
  · change block :: printer.stack = block :: frames.map Frame.block
    rw [h.stack, hframes]
  · intro b hb
    rcases List.mem_cons.mp hb with hb | hb
    · rw [hb]
      exact hv
    · rw [hframes] at hb
      exact h.toVar b hb

/-- Leaving the innermost block. -/
theorem InStep.exit {c : Control} (h : InStep sink printer c) {block : Block}
    {frames : List Frame} (hframes : block :: frames.map Frame.block = c.blocks) :
    ∃ printer', exec block.exit printer = (.ok ⟨⟩, printer') ∧
      printer'.stack = frames.map Frame.block ∧ OnlySink sink printer printer' := by
  have hv : block.toVar = some sink := by
    apply h.toVar
    rw [← hframes]
    exact List.mem_cons_self
  exact ⟨_, exec_exit hv (h.stack.trans hframes.symm), rfl,
    ⟨fun other ho => Function.update_of_ne ho _ _⟩⟩

section Step

variable {block : Block} {rest : Statements} {frames : List Frame} {printer' : Printer}
  {result : Except PyError Unit}

theorem step_constructed (body : Statements) (h : exec block.enter printer = (result, printer')) :
    (Control.constructed block body frames).step call sink printer =
      (.after result frames (.inside (⟨block, body⟩ :: frames)), printer') := by
  rw [Control.step, h]

theorem step_exit (h : exec block.exit printer = (result, printer')) :
    (Control.inside (⟨block, .done⟩ :: frames)).step call sink printer =
      (.after result frames (.inside frames), printer') := by
  rw [Control.step, h]

theorem step_write {data : String} (h : exec (block.write data) printer = (result, printer')) :
    (Control.inside (⟨block, .write data rest⟩ :: frames)).step call sink printer =
      (.after result (⟨block, rest⟩ :: frames) (.inside (⟨block, rest⟩ :: frames)), printer') := by
  rw [Control.step, h]

theorem step_raising {e : PyError} (h : exec block.exit printer = (result, printer')) :
    (Control.raising e (⟨block, rest⟩ :: frames)).step call sink printer =
      (.after result frames (.raising e frames), printer') := by
  rw [Control.step, h]

end Step

theorem InStep.step {c : Control} (h : InStep sink printer c) (call : Call) :
    InStep sink (c.step call sink printer).2 (c.step call sink printer).1 ∧
      OnlySink sink printer (c.step call sink printer).2 := by
  match c with
  | .called => exact h.construct (fun _ => rfl) call.body rfl
  | .constructed block body frames =>
    have henter : exec block.enter printer = _ :=
      exec_writeNoIndent (h.toVar block List.mem_cons_self) _
    rw [step_constructed body henter]
    exact ⟨⟨h.stack, h.toVar⟩, ⟨fun other ho => Function.update_of_ne ho _ _⟩⟩
  | .inside [] => exact ⟨⟨h.stack, h.toVar⟩, ⟨fun _ _ => rfl⟩⟩
  | .inside (⟨block, .done⟩ :: frames) =>
    obtain ⟨printer', hexit, hstack, honly⟩ := h.exit rfl
    rw [step_exit hexit]
    exact ⟨⟨hstack, fun b hb => h.toVar b (List.mem_cons_of_mem _ hb)⟩, honly⟩
  | .inside (⟨block, .write data rest⟩ :: frames) =>
    obtain ⟨result, printer', hwrite, hstack, honly⟩ :=
      exec_write (h.toVar block List.mem_cons_self) data printer
    rw [step_write hwrite]
    cases result with
    | ok _ => exact ⟨⟨hstack.trans h.stack, h.toVar⟩, honly⟩
    | error e => exact ⟨⟨hstack.trans h.stack, h.toVar⟩, honly⟩
  | .inside (⟨block, .raise e⟩ :: frames) => exact ⟨⟨h.stack, h.toVar⟩, ⟨fun _ _ => rfl⟩⟩
  | .inside (⟨block, .block name body rest⟩ :: frames) =>
    exact h.construct (fun hnil => absurd hnil (by simp [Control.blocks])) body rfl
  | .raising e [] => exact ⟨⟨h.stack, h.toVar⟩, ⟨fun _ _ => rfl⟩⟩
  | .raising e (⟨block, rest⟩ :: frames) =>
    obtain ⟨printer', hexit, hstack, honly⟩ := h.exit rfl
    rw [step_raising hexit]
    exact ⟨⟨hstack, fun b hb => h.toVar b (List.mem_cons_of_mem _ hb)⟩, honly⟩

/-! ## A call that is alone -/

/-- How the call ends when it runs alone, and the text it prints. -/
def Call.result (call : Call) : Except PyError Unit := (call.body.outcome 0).1

def Call.text (call : Call) : String := blockText 0 call.name (call.body.outcome 0).2

/-- What the call gives when it runs alone. -/
def Call.alone (call : Call) : Except PyError String := call.result.map fun _ => call.text

theorem alone_ofNode (w : World) (n : NodeId) : (Call.ofNode w n).alone = Node.config w n :=
  (render_configBlocks _ _ _).symm

/-- The rest of the call ends as the whole call does when it runs alone. -/
def Follows (call : Call) (sink : Sink) (printer : Printer) (c : Control) : Prop :=
  ∃ final, exec (c.rest call sink) printer = (call.result, final) ∧ final.text sink = call.text

theorem follows_called (hstack : printer.stack = []) (hsink : printer.written sink = []) :
    Follows call sink printer .called := by
  obtain ⟨final, hexec, -, htext, -⟩ := does_outermost sink call.name call.body printer
    (by rw [hstack]; rfl) (by simp [hstack])
  refine ⟨final, hexec, ?_⟩
  rw [htext, Printer.text, hsink]
  exact String.empty_append

theorem Follows.step {c : Control} (h : Follows call sink printer c) :
    Follows call sink (c.step call sink printer).2 (c.step call sink printer).1 := by
  obtain ⟨final, hexec, htext⟩ := h
  exact ⟨final, (exec_step call sink printer c).trans hexec, htext⟩

/-- What a call that has ended still does. -/
theorem exec_finished {c : Control} {result : Except PyError Unit}
    (hc : c.finished = some result) (printer : Printer) :
    exec (c.rest call sink) printer = (result, printer) := by
  match c with
  | .inside [] =>
    cases hc
    rfl
  | .raising e [] =>
    cases hc
    rfl
  | .called => cases hc
  | .constructed block body frames => cases hc
  | .inside (frame :: frames) => cases hc
  | .raising e (frame :: frames) => cases hc

theorem follows_finished {c : Control} {result : Except PyError Unit}
    (hc : c.finished = some result) :
    Follows call sink printer c ↔ result = call.result ∧ printer.text sink = call.text := by
  unfold Follows
  rw [exec_finished hc]
  constructor
  · rintro ⟨final, hexec, htext⟩
    rw [Prod.mk.injEq] at hexec
    obtain ⟨hresult, rfl⟩ := hexec
    exact ⟨hresult, htext⟩
  · rintro ⟨rfl, htext⟩
    exact ⟨printer, rfl, htext⟩

/-! ## Two threads -/

/-- A thread: the calls that are still to come, the one it is in, with its list `text`, and
what the finished ones gave. -/
structure Thread where
  todo : List Call
  current : Option (Call × Sink × Control)
  results : List (Except PyError String)

/-- The two threads, and the printer they share. -/
structure Threads where
  printer : Printer
  nextSink : Sink
  thread : Bool → Thread

namespace Threads

def start (calls : Bool → List Call) : Threads where
  printer := ⟨[], fun _ => [], 0⟩
  nextSink := 0
  thread t := ⟨calls t, none, []⟩

def setThread (s : Threads) (t : Bool) (thread : Thread) : Threads :=
  { s with thread := Function.update s.thread t thread }

/-- A call starts with an empty list. -/
def begin (s : Threads) (t : Bool) (call : Call) (todo : List Call) : Threads :=
  { s.setThread t { s.thread t with todo, current := some (call, s.nextSink, .called) } with
    nextSink := s.nextSink + 1 }

/-- The next access of a call to the stack. -/
def proceed (s : Threads) (t : Bool) (call : Call) (sink : Sink) (c : Control) : Threads :=
  { s.setThread t { s.thread t with
      current := some (call, sink, (c.step call sink s.printer).1) } with
    printer := (c.step call sink s.printer).2 }

/-- A call ends by joining its list. -/
def finish (s : Threads) (t : Bool) (sink : Sink) (result : Except PyError Unit) : Threads :=
  s.setThread t { s.thread t with
    current := none
    results := (s.thread t).results ++ [result.map fun _ => s.printer.text sink] }

/-- One step of a thread. -/
def step (s : Threads) (t : Bool) : Threads :=
  match (s.thread t).current, (s.thread t).todo with
  | none, [] => s
  | none, call :: todo => s.begin t call todo
  | some (call, sink, c), _ =>
    match c.finished with
    | some result => s.finish t sink result
    | none => s.proceed t call sink c

section

variable {s : Threads} {t : Bool}

theorem step_done (hcurrent : (s.thread t).current = none) (htodo : (s.thread t).todo = []) :
    s.step t = s := by
  rw [step, hcurrent, htodo]

theorem step_begin {call : Call} {todo : List Call} (hcurrent : (s.thread t).current = none)
    (htodo : (s.thread t).todo = call :: todo) : s.step t = s.begin t call todo := by
  rw [step, hcurrent, htodo]

variable {call : Call} {sink : Sink} {c : Control}

theorem step_finish {result : Except PyError Unit}
    (hcurrent : (s.thread t).current = some (call, sink, c)) (hc : c.finished = some result) :
    s.step t = s.finish t sink result := by
  rw [step, hcurrent]
  simp only [hc]

theorem step_proceed (hcurrent : (s.thread t).current = some (call, sink, c))
    (hc : c.finished = none) : s.step t = s.proceed t call sink c := by
  rw [step, hcurrent]
  simp only [hc]

end

/-- Everything that a step can be. -/
theorem step_cases (s : Threads) (t : Bool) :
    (((s.thread t).current = none ∧ (s.thread t).todo = []) ∧ s.step t = s) ∨
    (∃ call todo, ((s.thread t).current = none ∧ (s.thread t).todo = call :: todo) ∧
      s.step t = s.begin t call todo) ∨
    (∃ call sink c, ((s.thread t).current = some (call, sink, c) ∧ c.finished = none) ∧
      s.step t = s.proceed t call sink c) ∨
    (∃ call sink c result, ((s.thread t).current = some (call, sink, c) ∧
      c.finished = some result) ∧ s.step t = s.finish t sink result) := by
  rcases hcurrent : (s.thread t).current with - | ⟨call, sink, c⟩
  · rcases htodo : (s.thread t).todo with - | ⟨call, todo⟩
    · exact .inl ⟨⟨rfl, rfl⟩, step_done hcurrent htodo⟩
    · exact .inr (.inl ⟨call, todo, ⟨rfl, rfl⟩, step_begin hcurrent htodo⟩)
  · rcases hc : c.finished with - | result
    · exact .inr (.inr (.inl ⟨call, sink, c, ⟨rfl, hc⟩, step_proceed hcurrent hc⟩))
    · exact .inr (.inr (.inr ⟨call, sink, c, result, ⟨rfl, hc⟩, step_finish hcurrent hc⟩))

@[simp] theorem setThread_same (s : Threads) (t : Bool) (thread : Thread) :
    (s.setThread t thread).thread t = thread := Function.update_self _ _ _

@[simp] theorem setThread_other (s : Threads) (t : Bool) (thread : Thread) :
    (s.setThread t thread).thread (!t) = s.thread (!t) :=
  Function.update_of_ne (by cases t <;> decide) _ _

end Threads

/-- The call has a block on the stack. -/
def Control.isOpen (c : Control) : Bool := !c.blocks.isEmpty

def Thread.isOpen (thread : Thread) : Bool := thread.current.any fun p => p.2.2.isOpen

/-- The thread is about to construct the outermost block of a call. -/
def Thread.opens (thread : Thread) : Bool := thread.current.any fun p => p.2.2 = .called

/-- A call of one thread does not begin while the other one has a block open. -/
def NoOverlap (s : Threads) (t : Bool) : Prop :=
  (s.thread t).opens = true → (s.thread (!t)).isOpen = false

instance (s : Threads) (t : Bool) : Decidable (NoOverlap s t) :=
  inferInstanceAs (Decidable (_ → _))

/-- The block whose exit comes next, with the assertion that it is on top of the stack. -/
def Thread.exiting (thread : Thread) : Option Block :=
  match thread.current with
  | some (_, _, .inside (⟨block, .done⟩ :: _)) => some block
  | some (_, _, .raising _ (⟨block, _⟩ :: _)) => some block
  | _ => none

/-! ## Calls that do not overlap -/

theorem Control.closed_cases {c : Control} (h : c.isOpen = false) :
    c = .called ∨ ∃ result, c.finished = some result := by
  match c with
  | .called => exact .inl rfl
  | .inside [] => exact .inr ⟨_, rfl⟩
  | .raising e [] => exact .inr ⟨_, rfl⟩
  | .constructed block body frames => cases h
  | .inside (frame :: frames) => cases h
  | .raising e (frame :: frames) => cases h

theorem Control.closed_of_finished {c : Control} {result : Except PyError Unit}
    (h : c.finished = some result) : c.isOpen = false := by
  match c with
  | .inside [] => rfl
  | .raising e [] => rfl
  | .called => rfl
  | .constructed block body frames => cases h
  | .inside (frame :: frames) => cases h
  | .raising e (frame :: frames) => cases h

theorem Control.blocks_of_closed {c : Control} (h : c.isOpen = false) : c.blocks = [] := by
  simpa [isOpen] using h

theorem Control.after_ne_called {result : Except PyError Unit} {frames : List Frame}
    {next : Control} (h : next ≠ .called) : Control.after result frames next ≠ .called := by
  cases result with
  | ok _ => exact h
  | error e => exact Control.noConfusion

theorem Control.construct_ne_called (name : String) (destFn : Option Sink) (body : Statements)
    (frames : List Frame) (printer : Printer) :
    (Control.construct name destFn body frames printer).1 ≠ .called := by
  unfold Control.construct
  rcases exec (Block.init name destFn) printer with ⟨e | block, printer'⟩
  · exact Control.noConfusion
  · exact Control.noConfusion

theorem Control.step_ne_called (call : Call) (sink : Sink) (printer : Printer) (c : Control) :
    (c.step call sink printer).1 ≠ .called := by
  match c with
  | .called => exact construct_ne_called _ _ _ _ _
  | .constructed block body frames => exact after_ne_called Control.noConfusion
  | .inside [] => exact Control.noConfusion
  | .inside (⟨block, .done⟩ :: frames) => exact after_ne_called Control.noConfusion
  | .inside (⟨block, .write data rest⟩ :: frames) => exact after_ne_called Control.noConfusion
  | .inside (⟨block, .raise e⟩ :: frames) => exact Control.noConfusion
  | .inside (⟨block, .block name body rest⟩ :: frames) => exact construct_ne_called _ _ _ _ _
  | .raising e [] => exact Control.noConfusion
  | .raising e (⟨block, rest⟩ :: frames) => exact after_ne_called Control.noConfusion

/-- What is known of a call that a thread is in. -/
structure Underway (printer : Printer) (call : Call) (sink : Sink) (c : Control) : Prop where
  called : c = .called → printer.written sink = []
  inStep : c.isOpen = true → InStep sink printer c
  follows : c ≠ .called → Follows call sink printer c

/-- A call that has no block open depends on its own list only. -/
theorem Underway.frame {c : Control} (h : Underway printer call sink c)
    (hclosed : c.isOpen = false) {printer' : Printer}
    (hwritten : printer'.written sink = printer.written sink) :
    Underway printer' call sink c where
  called hc := hwritten.trans (h.called hc)
  inStep hopen := absurd hopen (by simp [hclosed])
  follows hne := by
    rcases Control.closed_cases hclosed with hc | ⟨result, hc⟩
    · exact absurd hc hne
    · obtain ⟨hresult, htext⟩ := (follows_finished hc).mp (h.follows hne)
      apply (follows_finished hc).mpr
      refine ⟨hresult, ?_⟩
      rw [← htext, Printer.text, Printer.text, hwritten]

/-- What a call does while the other thread has no block open. -/
theorem Underway.step {c : Control} (h : Underway printer call sink c)
    (hc : c.finished = none) (hidle : c.isOpen = false → printer.stack = []) :
    Underway (c.step call sink printer).2 call sink (c.step call sink printer).1 ∧
      OnlySink sink printer (c.step call sink printer).2 ∧
      ((c.step call sink printer).1.isOpen = false → (c.step call sink printer).2.stack = []) := by
  have hbefore : InStep sink printer c ∧ Follows call sink printer c := by
    cases hopen : c.isOpen with
    | true =>
      refine ⟨h.inStep hopen, h.follows ?_⟩
      rintro rfl
      cases hopen
    | false =>
      rcases Control.closed_cases hopen with rfl | ⟨result, hresult⟩
      · exact ⟨⟨hidle hopen, fun b hb => absurd hb List.not_mem_nil⟩,
          follows_called (hidle hopen) (h.called rfl)⟩
      · rw [hc] at hresult
        cases hresult
  obtain ⟨hin, honly⟩ := hbefore.1.step call
  refine ⟨⟨?_, fun _ => hin, fun _ => hbefore.2.step⟩, honly, ?_⟩
  · intro hcalled
    exact absurd hcalled (Control.step_ne_called call sink printer c)
  · intro hclosed
    exact hin.stack.trans (Control.blocks_of_closed hclosed)

/-- The calls of the two threads have not come in each other's way. -/
structure Separate (calls : Bool → List Call) (s : Threads) : Prop where
  history : ∀ t, ∃ done, (s.thread t).results = done.map Call.alone ∧
    calls t = done ++ ((s.thread t).current.map Prod.fst).toList ++ (s.thread t).todo
  fresh : ∀ sink, s.nextSink ≤ sink → s.printer.written sink = []
  issued : ∀ t call sink c, (s.thread t).current = some (call, sink, c) → sink < s.nextSink
  underway : ∀ t call sink c, (s.thread t).current = some (call, sink, c) →
    Underway s.printer call sink c
  distinct : ∀ t call sink c call' c', (s.thread t).current = some (call, sink, c) →
    (s.thread (!t)).current ≠ some (call', sink, c')
  exclusive : ∀ t, (s.thread t).isOpen = true → (s.thread (!t)).isOpen = false
  idle : (∀ t, (s.thread t).isOpen = false) → s.printer.stack = []

theorem both (t : Bool) {P : Bool → Prop} (h : P t) (hother : P (!t)) : ∀ t', P t' := by
  intro t'
  cases t <;> cases t' <;> assumption

theorem Thread.isOpen_none {thread : Thread} (h : thread.current = none) :
    thread.isOpen = false := by
  rw [Thread.isOpen, h]
  rfl

theorem Thread.isOpen_some {thread : Thread} {c : Control}
    (h : thread.current = some (call, sink, c)) : thread.isOpen = c.isOpen := by
  rw [Thread.isOpen, h]
  rfl

namespace Separate

variable {calls : Bool → List Call} {s : Threads} {t : Bool}

theorem start (calls : Bool → List Call) : Separate calls (Threads.start calls) where
  history t := ⟨[], rfl, rfl⟩
  fresh _ _ := rfl
  issued _ _ _ _ h := by simp [Threads.start] at h
  underway _ _ _ _ h := by simp [Threads.start] at h
  distinct _ _ _ _ _ _ h := by simp [Threads.start] at h
  exclusive _ _ := rfl
  idle _ := rfl

/-- What has to be shown of a step of one thread. -/
theorem update (h : Separate calls s) {s' : Threads} (t : Bool)
    (hother : s'.thread (!t) = s.thread (!t))
    (hhistory : ∃ done, (s'.thread t).results = done.map Call.alone ∧
      calls t = done ++ ((s'.thread t).current.map Prod.fst).toList ++ (s'.thread t).todo)
    (hfresh : ∀ sink, s'.nextSink ≤ sink → s'.printer.written sink = [])
    (hnext : s.nextSink ≤ s'.nextSink)
    (hcurrent : ∀ call sink c, (s'.thread t).current = some (call, sink, c) →
      sink < s'.nextSink ∧ Underway s'.printer call sink c ∧
        ∀ call' c', (s.thread (!t)).current ≠ some (call', sink, c'))
    (hframe : ∀ call sink c, (s.thread (!t)).current = some (call, sink, c) →
      Underway s'.printer call sink c)
    (hexclusive : (s'.thread t).isOpen = true → (s.thread (!t)).isOpen = false)
    (hidle : (s'.thread t).isOpen = false → (s.thread (!t)).isOpen = false →
      s'.printer.stack = []) :
    Separate calls s' where
  history := by
    refine both t hhistory ?_
    rw [hother]
    exact h.history (!t)
  fresh := hfresh
  issued := by
    refine both t (fun call sink c hc => (hcurrent call sink c hc).1) ?_
    rw [hother]
    exact fun call sink c hc => Nat.lt_of_lt_of_le (h.issued (!t) call sink c hc) hnext
  underway := by
    refine both t (fun call sink c hc => (hcurrent call sink c hc).2.1) ?_
    rw [hother]
    exact hframe
  distinct := by
    refine both t ?_ ?_
    · intro call sink c call' c' hc
      rw [hother]
      exact (hcurrent call sink c hc).2.2 call' c'
    · intro call sink c call' c' hc hc'
      rw [hother] at hc
      rw [Bool.not_not] at hc'
      exact (hcurrent call' sink c' hc').2.2 call c hc
  exclusive := by
    refine both t ?_ ?_
    · rw [hother]
      exact hexclusive
    · rw [hother, Bool.not_not]
      intro hopen
      by_contra ht
      have hclosed := hexclusive (by simpa using ht)
      rw [hopen] at hclosed
      exact absurd hclosed (by decide)
  idle hclosed := hidle (hclosed t) (hother ▸ hclosed (!t))

theorem begin (h : Separate calls s) {call : Call} {todo : List Call}
    (hcurrent : (s.thread t).current = none) (htodo : (s.thread t).todo = call :: todo) :
    Separate calls (s.begin t call todo) := by
  have hthread : (s.begin t call todo).thread t =
      { s.thread t with todo, current := some (call, s.nextSink, .called) } :=
    s.setThread_same t _
  have hclosed : ((s.begin t call todo).thread t).isOpen = false := by
    rw [hthread]
    rfl
  have hother : (s.begin t call todo).thread (!t) = s.thread (!t) := s.setThread_other t _
  apply h.update t hother
  · obtain ⟨done, hresults, hcalls⟩ := h.history t
    refine ⟨done, ?_, ?_⟩
    · rw [hthread]
      exact hresults
    · rw [hthread, hcalls, hcurrent, htodo]
      simp
  · intro sink hsink
    exact h.fresh sink (Nat.le_of_succ_le hsink)
  · exact Nat.le_succ s.nextSink
  · intro call' sink c hc
    rw [hthread, Option.some.injEq, Prod.mk.injEq, Prod.mk.injEq] at hc
    obtain ⟨-, rfl, rfl⟩ := hc
    refine ⟨Nat.lt_succ_self _, ?_, ?_⟩
    · exact ⟨fun _ => h.fresh _ (Nat.le_refl _), fun hopen => Bool.noConfusion hopen,
        fun hne => absurd rfl hne⟩
    · intro other c' hother
      exact Nat.lt_irrefl _ (h.issued (!t) other _ c' hother)
  · exact h.underway (!t)
  · intro hopen
    rw [hclosed] at hopen
    exact absurd hopen (by decide)
  · intro _ hother
    exact h.idle (both t (Thread.isOpen_none hcurrent) hother)

theorem finish (h : Separate calls s) {c : Control} {result : Except PyError Unit}
    (hcurrent : (s.thread t).current = some (call, sink, c)) (hc : c.finished = some result) :
    Separate calls (s.finish t sink result) := by
  have hthread : (s.finish t sink result).thread t = { s.thread t with
      current := none
      results := (s.thread t).results ++ [result.map fun _ => s.printer.text sink] } :=
    s.setThread_same t _
  have hnone : ((s.finish t sink result).thread t).current = none := by rw [hthread]
  have hne : c ≠ .called := by
    rintro rfl
    cases hc
  have hclosed : c.isOpen = false := Control.closed_of_finished hc
  have hfollows := (h.underway t call sink c hcurrent).follows hne
  obtain ⟨hresult, htext⟩ := (follows_finished hc).mp hfollows
  have hother : (s.finish t sink result).thread (!t) = s.thread (!t) := s.setThread_other t _
  apply h.update t hother
  · obtain ⟨done, hresults, hcalls⟩ := h.history t
    refine ⟨done ++ [call], ?_, ?_⟩
    · rw [hthread, List.map_append, ← hresults]
      simp only [List.map_cons, List.map_nil, Call.alone]
      rw [hresult, htext]
    · rw [hnone, hcalls, hcurrent, hthread]
      simp
  · exact h.fresh
  · exact Nat.le_refl _
  · intro call' sink' c hc
    rw [hnone] at hc
    exact absurd hc (by simp)
  · exact h.underway (!t)
  · intro hopen
    rw [Thread.isOpen_none hnone] at hopen
    exact absurd hopen (by decide)
  · intro _ hother
    exact h.idle (both t ((Thread.isOpen_some hcurrent).trans hclosed) hother)

/-- While a call proceeds, the other thread has no block open. -/
theorem other_closed (h : Separate calls s) {c : Control} (hok : NoOverlap s t)
    (hcurrent : (s.thread t).current = some (call, sink, c))
    (hc : c.finished = none) : (s.thread (!t)).isOpen = false := by
  cases hopen : c.isOpen with
  | true => exact h.exclusive t ((Thread.isOpen_some hcurrent).trans hopen)
  | false =>
    apply hok
    rcases Control.closed_cases hopen with rfl | ⟨result, hresult⟩
    · rw [Thread.opens, hcurrent]
      rfl
    · rw [hc] at hresult
      cases hresult

theorem proceed (h : Separate calls s) {c : Control} (hok : NoOverlap s t)
    (hcurrent : (s.thread t).current = some (call, sink, c))
    (hc : c.finished = none) : Separate calls (s.proceed t call sink c) := by
  have hclosed := h.other_closed hok hcurrent hc
  obtain ⟨hunderway, honly, hidle⟩ := (h.underway t call sink c hcurrent).step hc fun hopen =>
    h.idle (both t ((Thread.isOpen_some hcurrent).trans hopen) hclosed)
  have hthread : (s.proceed t call sink c).thread t = { s.thread t with
      current := some (call, sink, (c.step call sink s.printer).1) } :=
    s.setThread_same t _
  have hsome : ((s.proceed t call sink c).thread t).current =
      some (call, sink, (c.step call sink s.printer).1) := by rw [hthread]
  have hsink : sink < s.nextSink := h.issued t call sink c hcurrent
  have hother : (s.proceed t call sink c).thread (!t) = s.thread (!t) := s.setThread_other t _
  apply h.update t hother
  · obtain ⟨done, hresults, hcalls⟩ := h.history t
    refine ⟨done, ?_, ?_⟩
    · rw [hthread]
      exact hresults
    · rw [hsome, hcalls, hcurrent, hthread]
      rfl
  · intro other hother
    have hne : other ≠ sink := (Nat.ne_of_lt (Nat.lt_of_lt_of_le hsink hother)).symm
    exact (honly.written other hne).trans (h.fresh other hother)
  · exact Nat.le_refl _
  · intro call' sink' c' hc'
    rw [hsome, Option.some.injEq, Prod.mk.injEq, Prod.mk.injEq] at hc'
    obtain ⟨rfl, rfl, rfl⟩ := hc'
    exact ⟨hsink, hunderway, fun call' c' => h.distinct t call sink c call' c' hcurrent⟩
  · intro call' sink' c' hcurrent'
    have hne : sink' ≠ sink := by
      rintro rfl
      exact h.distinct t call sink' c call' c' hcurrent hcurrent'
    exact (h.underway (!t) call' sink' c' hcurrent').frame
      ((Thread.isOpen_some hcurrent').symm.trans hclosed) (honly.written sink' hne)
  · exact fun _ => hclosed
  · intro hopen _
    exact hidle ((Thread.isOpen_some hsome).symm.trans hopen)

theorem step (h : Separate calls s) (hok : NoOverlap s t) : Separate calls (s.step t) := by
  rcases s.step_cases t with ⟨-, hs⟩ | ⟨call, todo, ⟨hcurrent, htodo⟩, hs⟩ |
    ⟨call, sink, c, ⟨hcurrent, hc⟩, hs⟩ | ⟨call, sink, c, result, ⟨hcurrent, hc⟩, hs⟩
  · rw [hs]
    exact h
  · rw [hs]
    exact h.begin hcurrent htodo
  · rw [hs]
    exact h.proceed hok hcurrent hc
  · rw [hs]
    exact h.finish hcurrent hc

/-- The assertion in an exit holds. -/
theorem exiting (h : Separate calls s) {block : Block}
    (hexit : (s.thread t).exiting = some block) : s.printer.stack.head? = some block := by
  unfold Thread.exiting at hexit
  split at hexit
  · next hcurrent =>
    cases hexit
    rw [((h.underway t _ _ _ hcurrent).inStep rfl).stack]
    rfl
  · next hcurrent =>
    cases hexit
    rw [((h.underway t _ _ _ hcurrent).inStep rfl).stack]
    rfl
  · cases hexit

end Separate

/-! ## Every call ends -/

/-- A bound on the steps for the statements. -/
def Statements.size : Statements → Nat
  | done => 1
  | write _ rest => rest.size + 1
  | raise _ => 2
  | .block _ body rest => body.size + rest.size + 3

def framesSize (frames : List Frame) : Nat := (frames.map fun frame => frame.rest.size + 1).sum

def Control.size (call : Call) : Control → Nat
  | called => call.body.size + 4
  | constructed _ body frames => body.size + framesSize frames + 3
  | inside frames => framesSize frames + 1
  | raising _ frames => framesSize frames + 1

/-- A bound on the steps that a thread still takes. -/
def Thread.size (thread : Thread) : Nat :=
  (thread.todo.map fun call => call.body.size + 6).sum +
    (thread.current.map fun p => p.2.2.size p.1 + 1).getD 0

theorem framesSize_cons (block : Block) (rest : Statements) (frames : List Frame) :
    framesSize (⟨block, rest⟩ :: frames) = rest.size + 1 + framesSize frames := rfl

theorem size_after {result : Except PyError Unit} {frames : List Frame} {next : Control}
    {bound : Nat} (herror : framesSize frames + 1 < bound) (hnext : next.size call < bound) :
    (Control.after result frames next).size call < bound := by
  cases result with
  | ok _ => exact hnext
  | error e => exact herror

theorem size_construct (name : String) (destFn : Option Sink) (body : Statements)
    (frames : List Frame) (printer : Printer) :
    (Control.construct name destFn body frames printer).1.size call <
      body.size + framesSize frames + 4 := by
  unfold Control.construct
  rcases exec (Block.init name destFn) printer with ⟨e | block, printer'⟩
  · simp only [Control.size]
    omega
  · simp only [Control.size]
    omega

theorem size_step (printer : Printer) {c : Control} (hc : c.finished = none) :
    (c.step call sink printer).1.size call < c.size call := by
  match c with
  | .called => exact size_construct call.name (some sink) call.body [] printer
  | .constructed block body frames =>
    apply size_after
    · simp only [Control.size]
      omega
    · simp only [Control.size, framesSize_cons]
      omega
  | .inside [] => cases hc
  | .inside (⟨block, .done⟩ :: frames) =>
    apply size_after
    · simp only [Control.size, framesSize_cons]
      omega
    · simp only [Control.size, framesSize_cons]
      omega
  | .inside (⟨block, .write data rest⟩ :: frames) =>
    apply size_after
    · simp only [Control.size, framesSize_cons, Statements.size]
      omega
    · simp only [Control.size, framesSize_cons, Statements.size]
      omega
  | .inside (⟨block, .raise e⟩ :: frames) =>
    simp only [Control.step, Control.size, framesSize_cons, Statements.size]
    omega
  | .inside (⟨block, .block name body rest⟩ :: frames) =>
    apply Nat.lt_of_lt_of_le (size_construct name none body (⟨block, rest⟩ :: frames) printer)
    simp only [Control.size, framesSize_cons, Statements.size]
    omega
  | .raising e [] => cases hc
  | .raising e (⟨block, rest⟩ :: frames) =>
    apply size_after
    · simp only [Control.size, framesSize_cons]
      omega
    · simp only [Control.size, framesSize_cons]
      omega

theorem Thread.done_of_size {thread : Thread} (h : thread.size = 0) :
    thread.current = none ∧ thread.todo = [] := by
  obtain ⟨todo, current, results⟩ := thread
  rcases current with - | ⟨call, sink, c⟩
  · rcases todo with - | ⟨call, todo⟩
    · exact ⟨rfl, rfl⟩
    · simp only [size, List.map_cons, List.sum_cons] at h
      omega
  · simp only [size, Option.map_some, Option.getD_some] at h
    omega

namespace Threads

theorem step_other (s : Threads) (t : Bool) : (s.step t).thread (!t) = s.thread (!t) := by
  rcases s.step_cases t with ⟨-, hs⟩ | ⟨call, todo, -, hs⟩ | ⟨call, sink, c, -, hs⟩ |
    ⟨call, sink, c, result, -, hs⟩
  · rw [hs]
  · rw [hs]
    exact s.setThread_other t _
  · rw [hs]
    exact s.setThread_other t _
  · rw [hs]
    exact s.setThread_other t _

theorem size_step (s : Threads) (t : Bool) :
    ((s.step t).thread t).size ≤ (s.thread t).size - 1 := by
  rcases s.step_cases t with ⟨⟨hcurrent, htodo⟩, hs⟩ | ⟨call, todo, ⟨hcurrent, htodo⟩, hs⟩ |
    ⟨call, sink, c, ⟨hcurrent, hc⟩, hs⟩ | ⟨call, sink, c, result, ⟨hcurrent, hc⟩, hs⟩
  · rw [hs, Thread.size, hcurrent, htodo]
    exact Nat.le_refl 0
  · rw [hs, begin]
    simp only [setThread_same, Thread.size, hcurrent, htodo, List.map_cons, List.sum_cons,
      Option.map_some, Option.getD_some, Option.map_none, Option.getD_none, Control.size]
    omega
  · have hsize : (c.step call sink s.printer).1.size call < c.size call :=
      Config.size_step s.printer hc
    rw [hs, proceed]
    simp only [setThread_same, Thread.size, hcurrent, Option.map_some, Option.getD_some]
    omega
  · rw [hs, finish]
    simp only [setThread_same, Thread.size, hcurrent, Option.map_some, Option.getD_some,
      Option.map_none, Option.getD_none]
    omega

theorem size_run {s s' : Threads} {schedule : List Bool}
    (run : Run (fun s t s' => s' = s.step t) s schedule s') (t : Bool) :
    (s'.thread t).size ≤ (s.thread t).size - schedule.count t := by
  induction run with
  | nil => exact Nat.le_refl _
  | @snoc schedule s₁ s₂ t' run hs ih =>
    subst hs
    rw [List.count_append]
    by_cases ht : t' = t
    · subst ht
      have hstep := size_step s₁ t'
      simp only [List.count_singleton_self]
      omega
    · have hother : t = !t' := by
        cases t <;> cases t' <;> simp_all
      rw [List.count_singleton, if_neg (by simpa using ht), hother, step_other]
      rw [hother] at ih
      exact ih

end Threads

/-- As long as no call constructs its outermost block while the other thread has a block on
the stack, the threads obtain what they would obtain alone, all of it after enough steps, and
the block that is to be exited is on top of the stack. -/
theorem parallel_configs (w : World) (nodes : Bool → List NodeId) {schedule : List Bool}
    {s : Threads}
    (run : Run (Guarded NoOverlap fun s t s' => s' = s.step t)
      (Threads.start fun t => (nodes t).map (Call.ofNode w)) schedule s) (t : Bool) :
    (s.thread t).results <+: (nodes t).map (Node.config w) ∧
    ((((nodes t).map (Call.ofNode w)).map fun call => call.body.size + 6).sum ≤
        schedule.count t →
      (s.thread t).results = (nodes t).map (Node.config w)) ∧
    ∀ block, (s.thread t).exiting = some block → s.printer.stack.head? = some block := by
  have hseparate : Separate (fun t => (nodes t).map (Call.ofNode w)) s := by
    apply run.invariant (Separate.start _)
    intro s₁ t₁ s₂ h hstep
    rw [hstep.2]
    exact h.step hstep.1
  have halone : (nodes t).map (Node.config w) =
      ((nodes t).map (Call.ofNode w)).map Call.alone := by
    rw [List.map_map]
    apply List.map_congr_left
    intro n _
    exact (alone_ofNode w n).symm
  obtain ⟨done, hresults, hcalls⟩ := hseparate.history t
  refine ⟨?_, ?_, fun block => hseparate.exiting⟩
  · rw [hresults, halone, hcalls, List.append_assoc, List.map_append]
    exact List.prefix_append _ _
  · intro hcount
    have hsize := Threads.size_run run.of_guarded t
    have hstart : ((Threads.start fun t => (nodes t).map (Call.ofNode w)).thread t).size =
        (((nodes t).map (Call.ofNode w)).map fun call => call.body.size + 6).sum := rfl
    obtain ⟨hcurrent, htodo⟩ := (s.thread t).done_of_size (by omega)
    rw [hresults, halone, hcalls, hcurrent, htodo]
    simp

/-- Two nodes with a resource. -/
def twoNodes : World := Op.afterAll (World.plain 2) [.createResource none]

def eachNode (t : Bool) : List NodeId := if t then [0] else [1]

theorem parallel_configs_taking_turns :
    ∃ s, Run (Guarded NoOverlap fun s t s' => s' = s.step t)
        (Threads.start fun t => (eachNode t).map (Call.ofNode twoNodes))
        (true :: false :: (List.replicate 60 true ++ List.replicate 60 false)) s ∧
      (s.thread true).results = [Node.config twoNodes 0] ∧
      (s.thread false).results = [Node.config twoNodes 1] := by
  have hpermitted : Permitted NoOverlap Threads.step
      (Threads.start fun t => (eachNode t).map (Call.ofNode twoNodes))
      (true :: false :: (List.replicate 60 true ++ List.replicate 60 false)) := by
    decide +kernel
  have run := run_of_permitted hpermitted
  refine ⟨_, run, ?_, ?_⟩
  · exact (parallel_configs twoNodes eachNode run true).2.1 (by decide +kernel)
  · exact (parallel_configs twoNodes eachNode run false).2.1 (by decide +kernel)

/-- A call inside of the first block of the other one prints into the text of that one. When
the blocks are not exited in the order of the stack, the assertion fails. -/
theorem overlapping_configs :
    (∃ s, Run (fun s t s' => s' = Threads.step s t)
        (Threads.start fun t => (eachNode t).map (Call.ofNode twoNodes))
        (List.replicate 3 true ++ List.replicate 60 false) s ∧
      (s.thread false).results = [.ok ""] ∧ Node.config twoNodes 1 ≠ .ok "") ∧
    (∃ s, Run (fun s t s' => s' = Threads.step s t)
        (Threads.start fun t => (eachNode t).map (Call.ofNode twoNodes))
        (List.replicate 3 true ++ List.replicate 2 false ++ List.replicate 60 true) s ∧
      (s.thread true).results = [.error .assertionError]) :=
  ⟨⟨_, run_foldl _ _ _, by decide +kernel, by decide +kernel⟩,
    ⟨_, run_foldl _ _ _, by decide +kernel⟩⟩

end DrbdTests.Config
