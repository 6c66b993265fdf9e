import DrbdTests.Config.Percent
import DrbdTests.Lib.Stateful

/-!
# `ConfigBlock`

`drbdtest.ConfigBlock` prints nested blocks with a stack shared by the whole class. A block
looks its parent up on top of the stack when it is constructed, and takes from it the
function its text is passed to (`to_var`); its indentation is the number of entries on the
stack, of which the lowest is the word `"top"`. `with ConfigBlock(...)` constructs the
block, prints its header, runs the statements inside, and prints the closing brace on the
way out, also when an exception passes through.

The list a `to_var` function appends to is a `Sink`. `Emits` describes what statements
inside a block print; `emits_withBlock` and `emits_write` are its rules.
-/

namespace DrbdTests.Config

/-- The list of strings that a `dest_fn` appends to. -/
abbrev Sink := Nat

/-- A constructed `ConfigBlock`. -/
structure Block where
  object : Nat
  name : String
  indent : String
  toVar : Option Sink
  deriving DecidableEq, Repr

/-- The class-wide stack (above its entry `"top"`, last opened block first), the strings
that arrived at each sink, and the number of blocks constructed so far. -/
structure Printer where
  stack : List Block
  written : Sink → List String
  blocks : Nat

abbrev Print (α : Type) := Stateful.Comp Printer PyError α

/-- `ConfigBlock.INDENT` -/
def INDENT : String := "     "

/-- `INDENT * n` -/
def indentation (n : Nat) : String := String.join (List.replicate n INDENT)

/-- `ConfigBlock.__init__`. The stack has one entry more than the open blocks. -/
def Block.init (name : String) (destFn : Option Sink) : Print Block := do
  let printer ← get
  let block : Block :=
    match printer.stack with
    | parent :: _ =>
      ⟨printer.blocks, name, indentation (printer.stack.length + 1), parent.toVar⟩
    | [] => ⟨printer.blocks, name, "", destFn⟩
  set { printer with stack := block :: printer.stack, blocks := printer.blocks + 1 }
  return block

/-- `write_no_indent`. A block without a sink has no file either. -/
def Block.writeNoIndent (block : Block) (content : String) : Print PUnit :=
  match block.toVar with
  | some sink =>
    modify fun printer =>
      { printer with written := Function.update printer.written sink (printer.written sink ++ [content]) }
  | none => throw .attributeError

/-- `write`, called without arguments for the conversions in `data`. -/
def Block.write (block : Block) (data : String) : Print PUnit := do
  let formatted ← liftExcept (percentFormat data)
  let content := block.indent ++ INDENT ++ formatted
  block.writeNoIndent (if content.toList.getLast? = some '\n' then content else content ++ "\n")
where
  liftExcept (r : Except PyError String) : Print String :=
    match r with
    | .ok text => pure text
    | .error e => throw e

/-- `__enter__` -/
def Block.enter (block : Block) : Print PUnit :=
  block.writeNoIndent (block.indent ++ block.name ++ " \x7b\n")

/-- `__exit__` -/
def Block.exit (block : Block) : Print PUnit := do
  block.writeNoIndent (block.indent ++ "\x7d\n\n")
  let printer ← get
  match printer.stack with
  | popped :: rest =>
    set { printer with stack := rest }
    if popped ≠ block then throw .assertionError
  | [] => throw .indexError

/-- `with ConfigBlock(...) as block: body` -/
def withBlock (name : String) (destFn : Option Sink) (body : Block → Print PUnit) :
    Print PUnit := do
  let block ← Block.init name destFn
  block.enter
  tryCatch (body block) fun e => do
    block.exit
    throw e
  block.exit

/-- Run statements with an empty stack and return the text they passed to sink `0`. -/
def render (m : Print PUnit) : Except PyError String :=
  match Stateful.exec m ⟨[], fun _ => [], 0⟩ with
  | (.ok _, printer) => .ok (String.join (printer.written 0))
  | (.error e, _) => .error e

/-! ## What statements print -/

/-- The text that has arrived at a sink. -/
def Printer.text (printer : Printer) (sink : Sink) : String := String.join (printer.written sink)

/-- With `depth` blocks open and everything going to `sink`, the statements return, leave
the stack as it was and print exactly `text`. -/
def Emits (depth : Nat) (sink : Sink) (m : Print PUnit) (text : String) : Prop :=
  ∀ printer : Printer, printer.stack.length = depth →
    (∀ parent ∈ printer.stack.head?, parent.toVar = some sink) →
    ∃ printer', Stateful.Returns m printer ⟨⟩ printer' ∧ printer'.stack = printer.stack ∧
      printer'.text sink = printer.text sink ++ text

/-- A block as the statements between its braces see it. -/
structure Block.At (block : Block) (units : Nat) (sink : Sink) : Prop where
  indent_eq : block.indent = indentation units
  toVar_eq : block.toVar = some sink

/-- The indentation of the block that is opened inside `depth` blocks. -/
def unitsAt : Nat → Nat
  | 0 => 0
  | depth + 1 => depth + 2

/-- What `write` prints in a block. -/
def line (units : Nat) (data : String) : String :=
  let content := indentation units ++ INDENT ++ data
  if content.toList.getLast? = some '\n' then content else content ++ "\n"

/-- A block with the text `inner` between its braces. -/
def blockText (units : Nat) (name inner : String) : String :=
  indentation units ++ name ++ " \x7b\n" ++ inner ++ (indentation units ++ "\x7d\n\n")

theorem text_update (printer : Printer) (sink : Sink) (content : String) :
    ({ printer with
        written := Function.update printer.written sink (printer.written sink ++ [content]) } :
      Printer).text sink = printer.text sink ++ content := by
  simp [Printer.text, String.join]

variable {depth units : Nat} {sink : Sink} {block : Block} {m m' : Print PUnit} {t t' : String}

theorem emits_pure : Emits depth sink (pure ⟨⟩) "" := fun printer _ _ =>
  ⟨printer, rfl, rfl, by simp⟩

theorem Emits.of_eq (h : Emits depth sink m t) (ht : t = t') : Emits depth sink m t' := ht ▸ h

theorem Emits.seq (h : Emits depth sink m t) (h' : Emits depth sink m' t') :
    Emits depth sink (m >>= fun _ => m') (t ++ t') := by
  intro printer hdepth hparent
  obtain ⟨p₁, hr, hstack, htext⟩ := h printer hdepth hparent
  obtain ⟨p₂, hr', hstack', htext'⟩ := h' p₁ (hstack ▸ hdepth) (hstack ▸ hparent)
  refine ⟨p₂, hr.bind hr', hstack'.trans hstack, ?_⟩
  rw [htext', htext, String.append_assoc]

theorem emits_writeNoIndent (hb : block.toVar = some sink) (content : String) :
    Emits depth sink (block.writeNoIndent content) content := by
  intro printer _ _
  refine ⟨_, ?_, ?_, text_update printer sink content⟩
  · rw [Block.writeNoIndent, hb]
    rfl
  · rfl

/-- Text without `%` is printed as it is, on a line of its own. -/
theorem emits_write (hb : block.At units sink) {data : String} (h : '%' ∉ data.toList) :
    Emits depth sink (block.write data) (line units data) := by
  have hw : block.write data = block.writeNoIndent (line units data) := by
    unfold Block.write
    rw [percentFormat_plain h, hb.indent_eq]
    rfl
  rw [hw]
  exact emits_writeNoIndent hb.toVar_eq _

theorem init_eq (printer : Printer) (name : String) (destFn : Option Sink)
    (hdest : printer.stack = [] → destFn = some sink)
    (hparent : ∀ parent ∈ printer.stack.head?, parent.toVar = some sink) :
    ∃ block : Block, block.At (unitsAt printer.stack.length) sink ∧ block.name = name ∧
      Stateful.Returns (Block.init name destFn) printer block
        { printer with stack := block :: printer.stack, blocks := printer.blocks + 1 } := by
  obtain ⟨stack, written, blocks⟩ := printer
  cases stack with
  | nil => exact ⟨⟨blocks, name, "", destFn⟩, ⟨rfl, hdest rfl⟩, rfl, rfl⟩
  | cons parent rest =>
    exact ⟨⟨blocks, name, indentation (rest.length + 2), parent.toVar⟩,
      ⟨rfl, hparent parent rfl⟩, rfl, rfl⟩

theorem exit_eq {block : Block} {printer : Printer} {rest : List Block}
    (hb : block.At units sink) (hstack : printer.stack = block :: rest) :
    ∃ printer', Stateful.Returns block.exit printer ⟨⟩ printer' ∧ printer'.stack = rest ∧
      printer'.text sink = printer.text sink ++ (indentation units ++ "\x7d\n\n") := by
  obtain ⟨stack, written, blocks⟩ := printer
  subst hstack
  let content := block.indent ++ "\x7d\n\n"
  refine ⟨⟨rest, Function.update written sink (written sink ++ [content]), blocks⟩, ?_, rfl, ?_⟩
  · rw [Block.exit, Block.writeNoIndent, hb.toVar_eq]
    simp [Stateful.returns_bind, content]
  · rw [← hb.indent_eq]
    exact text_update ⟨block :: rest, written, blocks⟩ sink content

/-- A `with` block prints its header, what its body prints, and the closing brace. -/
theorem emits_withBlock {name : String} {destFn : Option Sink} {body : Block → Print PUnit}
    (hdest : depth = 0 → destFn = some sink)
    (h : ∀ block : Block, block.At (unitsAt depth) sink → Emits (depth + 1) sink (body block) t) :
    Emits depth sink (withBlock name destFn body) (blockText (unitsAt depth) name t) := by
  intro printer hdepth hparent
  subst hdepth
  obtain ⟨block, hb, hname, hinit⟩ :=
    init_eq printer name destFn (fun h => hdest (by simp [h])) hparent
  -- the header, the body and the closing brace, in the printer that `__init__` left
  let opened : Printer := ⟨block :: printer.stack, printer.written, printer.blocks + 1⟩
  obtain ⟨p₁, henter, hs₁, ht₁⟩ := emits_writeNoIndent hb.toVar_eq
    (block.indent ++ block.name ++ " \x7b\n") opened rfl (by simp [opened, hb.toVar_eq])
  obtain ⟨p₂, hbody, hs₂, ht₂⟩ := h block hb p₁ (by simp [hs₁, opened])
    (by simp [hs₁, opened, hb.toVar_eq])
  obtain ⟨p₃, hexit, hs₃, ht₃⟩ := exit_eq hb (hs₂.trans hs₁)
  refine ⟨p₃, ?_, hs₃, ?_⟩
  · exact hinit.bind (henter.bind ((Stateful.returns_tryCatch_of_returns hbody).bind hexit))
  · rw [ht₃, ht₂, ht₁, blockText, hb.indent_eq, hname]
    simp only [String.append_assoc]
    rfl

end DrbdTests.Config
