import DrbdTests.Error
import DrbdTests.Lib.TextFile
import Mathlib.Data.List.Infix

/-!
# The test set file

`stream_read_json` reads JSON objects that stand one after another in a file. Whenever
`json.load` complains about more data, it seeks back to the start of the current object, and
reads as many characters as this object takes. The position it seeks to is a number of
characters, but a file is sought by bytes: the objects are read if the text before the last
two is one byte a character (`streamReadJson_ok`). From three objects on, there is white space
between them for which this fails.

The `json` module is a parameter, of which `JsonLaws` says what is relied on.
-/

namespace DrbdTests.Runner

open TextFile

/-! ## The `json` module -/

/-- The exceptions of `json.loads`: data after the value from a position on, and others. -/
inductive JsonError
  | extraData (pos : Nat)
  | other

structure Json (Value : Type) where
  loads : List Char → Except JsonError Value

/-- JSON white space. -/
def isBlank (c : Char) : Bool := c = ' ' || c = '\t' || c = '\n' || c = '\r'

def Blank (text : List Char) : Prop := ∀ c ∈ text, isBlank c = true

instance (text : List Char) : Decidable (Blank text) := inferInstanceAs (Decidable (∀ _ ∈ _, _))

/-- What the `json` module does with the texts of objects. -/
structure JsonLaws {Value : Type} (json : Json Value) (IsObject : List Char → Value → Prop) :
    Prop where
  /-- An object stands between braces. -/
  braces : ∀ text v, IsObject text v → ∃ inner, text = '\x7b' :: inner ++ ['\x7d']
  /-- Line ends are white space between tokens, whatever their kind. -/
  lineEnds : ∀ text v, IsObject text v → IsObject (newlines text) v
  loads : ∀ text v, IsObject text v → ∀ before after, Blank before → Blank after →
    json.loads (before ++ text ++ after) = .ok v
  /-- The position is that of the first character of the data, after white space. -/
  extra : ∀ text v, IsObject text v → ∀ before after, Blank before → Blank after →
    ∀ c rest, isBlank c = false → json.loads (before ++ text ++ after ++ c :: rest) =
      .error (.extraData (before.length + text.length + after.length))
  /-- A part of an object is no value. -/
  truncated : ∀ text v, IsObject text v → ∀ before pre, Blank before → pre <+: text → pre ≠ text →
    ∃ e, json.loads (before ++ pre) = .error e

/-! ## `stream_read_json` -/

/-- `start_pos`, and what is left of the file. -/
structure Position where
  startPos : Nat
  rest : List Char

/-- What happens until the generator yields: the last object, an object with more to come, or an
exception. -/
inductive Step (Value : Type)
  | last (obj : Value)
  | yielded (obj : Value) (next : Position)
  | raised (e : PyError)

variable {Value : Type}

/-- The body of the loop. -/
def Json.step (json : Json Value) (file : List Char) (p : Position) : Step Value :=
  match json.loads (newlines p.rest) with
  | .ok obj => .last obj
  -- `re.match` returns `None`
  | .error .other => .raised .attributeError
  | .error (.extraData endPos) =>
    match seek p.startPos file with
    -- `UnicodeDecodeError`
    | none => .raised .valueError
    | some sought =>
      match json.loads (read endPos sought).1 with
      | .ok obj => .yielded obj ⟨p.startPos + endPos, (read endPos sought).2⟩
      | .error _ => .raised .valueError

inductive Ending
  | returned
  | raised (e : PyError)
  /-- out of fuel -/
  | running
  deriving DecidableEq, Repr

/-- The objects that are yielded, and how the generator ends. -/
def Json.streamReadJsonFrom (json : Json Value) (file : List Char) :
    Nat → Position → List Value × Ending
  | 0, _ => ([], .running)
  | fuel + 1, p =>
    match json.step file p with
    | .last obj => ([obj], .returned)
    | .yielded obj next =>
      (obj :: (json.streamReadJsonFrom file fuel next).1, (json.streamReadJsonFrom file fuel next).2)
    | .raised e => ([], .raised e)

def Json.streamReadJson (json : Json Value) (fuel : Nat) (file : List Char) : List Value × Ending :=
  json.streamReadJsonFrom file fuel ⟨0, file⟩

/-! ## Files of objects -/

/-- An object in a file, with its text, its value, and the white space after it. -/
structure Item (Value : Type) where
  text : List Char
  value : Value
  after : List Char

def Item.chunk (item : Item Value) : List Char := item.text ++ item.after

/-- The file with the given white space before the objects. -/
def fileOf (lead : List Char) (items : List (Item Value)) : List Char :=
  lead ++ items.flatMap Item.chunk

structure Valid (IsObject : List Char → Value → Prop) (item : Item Value) : Prop where
  object : IsObject item.text item.value
  after : Blank item.after

/-- The objects of the file are yielded, and nothing else, if there is enough fuel. -/
def ReadsBack (json : Json Value) (lead : List Char) (items : List (Item Value)) : Prop :=
  ∀ fuel, items.length ≤ fuel →
    json.streamReadJson fuel (fileOf lead items) = (items.map Item.value, .returned)

section Texts

variable {json : Json Value} {IsObject : List Char → Value → Prop} {lead text before after : List Char}
  {v : Value} {item : Item Value} {items : List (Item Value)} {file rest : List Char}

theorem blank_newlines (h : Blank text) : Blank (newlines text) := by
  have hall : ∀ afterCr, Blank (newlinesFrom afterCr text) := by
    induction text with
    | nil => exact fun _ c hc => by cases hc
    | cons c text ih =>
      have hrest : ∀ afterCr, Blank (newlinesFrom afterCr text) :=
        ih fun d hd => h d (List.mem_cons_of_mem c hd)
      intro afterCr
      rw [newlinesFrom]
      split_ifs with hcrlf hcr
      · exact hrest false
      · intro d hd
        rcases List.mem_cons.mp hd with rfl | hd
        · rfl
        · exact hrest true d hd
      · intro d hd
        rcases List.mem_cons.mp hd with rfl | hd
        · exact h d List.mem_cons_self
        · exact hrest false d hd
  exact hall false

/-- An object starts with a brace. -/
theorem JsonLaws.cons (h : JsonLaws json IsObject) (ho : IsObject text v) :
    ∃ inner, text = '\x7b' :: inner := by
  obtain ⟨inner, rfl⟩ := h.braces text v ho
  exact ⟨inner ++ ['\x7d'], rfl⟩

theorem JsonLaws.head_ne (h : JsonLaws json IsObject) (ho : IsObject text v) (rest : List Char) :
    (text ++ rest).head? ≠ some '\n' := by
  obtain ⟨inner, rfl⟩ := h.cons ho
  intro he
  exact absurd (Option.some.inj he) (by decide)

theorem JsonLaws.last_ne (h : JsonLaws json IsObject) (ho : IsObject text v) :
    text.getLast? ≠ some '\r' := by
  obtain ⟨inner, rfl⟩ := h.braces text v ho
  rw [List.cons_append, ← List.cons_append, List.getLast?_concat]
  intro he
  exact absurd (Option.some.inj he) (by decide)

/-- The text of an object with white space around it, as it is read. -/
theorem JsonLaws.newlines_around (h : JsonLaws json IsObject) (ho : IsObject text v) :
    newlines (before ++ (text ++ after)) =
      newlines before ++ newlines text ++ newlines after := by
  rw [newlines_append (.inr (h.head_ne ho after)), newlines_append (.inl (h.last_ne ho)),
    List.append_assoc]

/-- The last object. -/
theorem JsonLaws.step_last (h : JsonLaws json IsObject) (hlead : Blank lead)
    (hitem : Valid IsObject item) (file : List Char) (startPos : Nat) :
    json.step file ⟨startPos, lead ++ item.chunk⟩ = .last item.value := by
  have hloads := h.loads _ _ (h.lineEnds _ _ hitem.object) _ _ (blank_newlines hlead)
    (blank_newlines hitem.after)
  unfold Json.step Item.chunk
  rw [h.newlines_around hitem.object, hloads]

/-- What `json.load` says about an object that others follow. -/
theorem JsonLaws.loads_extra (h : JsonLaws json IsObject) (hlead : Blank lead)
    (hitem : Valid IsObject item) {text' : List Char} {v' : Value} (hnext : IsObject text' v')
    (rest : List Char) :
    json.loads (newlines (lead ++ item.chunk ++ (text' ++ rest))) =
      .error (.extraData (newlines (lead ++ item.chunk)).length) := by
  obtain ⟨inner, hinner⟩ := h.cons hnext
  have hbrace : newlines (text' ++ rest) =
      '\x7b' :: newlines (inner ++ rest) := by
    rw [hinner, List.cons_append]
    exact newlines_cons (by decide)
  unfold Item.chunk
  rw [newlines_append (.inr (h.head_ne hnext rest)), h.newlines_around hitem.object, hbrace,
    h.extra _ _ (h.lineEnds _ _ hitem.object) _ _ (blank_newlines hlead)
      (blank_newlines hitem.after) _ _ (by decide)]
  simp [Nat.add_assoc]

/-- An object that others follow, if the position is sought that was reached before. -/
theorem JsonLaws.step_yielded (h : JsonLaws json IsObject) (hlead : Blank lead)
    (hitem : Valid IsObject item) {text' : List Char} {v' : Value} (hnext : IsObject text' v')
    {startPos : Nat} (hseek : seek startPos file = some (lead ++ item.chunk ++ (text' ++ rest))) :
    json.step file ⟨startPos, lead ++ item.chunk ++ (text' ++ rest)⟩ = .yielded item.value
      ⟨startPos + (newlines (lead ++ item.chunk)).length, text' ++ rest⟩ := by
  have hread := @read_append (lead ++ item.chunk) (text' ++ rest) (h.head_ne hnext rest)
  have hloads := h.loads _ _ (h.lineEnds _ _ hitem.object) _ _ (blank_newlines hlead)
    (blank_newlines hitem.after)
  unfold Json.step
  dsimp only
  rw [h.loads_extra hlead hitem hnext rest, hseek]
  dsimp only
  rw [hread]
  dsimp only
  unfold Item.chunk
  rw [h.newlines_around hitem.object, hloads]

end Texts

/-! ## Reading back -/

/-- There are at most two objects, or the text before the last two is one byte a character. -/
def OneByteBefore (lead : List Char) (items : List (Item Value)) : Prop :=
  items.length ≤ 2 ∨ OneByte (fileOf lead (items.take (items.length - 2)))

section ReadingBack

variable {json : Json Value} {IsObject : List Char → Value → Prop} {lead : List Char}
  {items read rest : List (Item Value)} {x y : Item Value}

theorem fileOf_append : fileOf lead (read ++ rest) = fileOf lead read ++ rest.flatMap Item.chunk := by
  rw [fileOf, List.flatMap_append, ← List.append_assoc]
  rfl

theorem OneByteBefore.of_append (h : OneByteBefore lead (read ++ x :: y :: rest)) (hne : read ≠ []) :
    OneByte (fileOf lead read) := by
  have hpos : 0 < read.length := List.length_pos_iff.mpr hne
  have hlength : (read ++ x :: y :: rest).length = read.length + (rest.length + 2) := by
    rw [List.length_append]
    rfl
  rcases h with hle | hone
  · omega
  · have hdiff : (read ++ x :: y :: rest).length - 2 = read.length + rest.length := by omega
    rw [hdiff, List.take_length_add_append, fileOf_append] at hone
    exact hone.of_append

/-- The rest of the objects, after at least one has been read. -/
theorem JsonLaws.reads_rest (h : JsonLaws json IsObject) (hvalid : ∀ item ∈ rest, Valid IsObject item)
    (hbefore : OneByteBefore lead (read ++ rest)) (hread : read ≠ []) (hrest : rest ≠ [])
    {fuel : Nat} (hfuel : rest.length ≤ fuel) :
    json.streamReadJsonFrom (fileOf lead (read ++ rest)) fuel
      ⟨(newlines (fileOf lead read)).length, rest.flatMap Item.chunk⟩ =
      (rest.map Item.value, .returned) := by
  induction rest generalizing read fuel with
  | nil => exact absurd rfl hrest
  | cons x rest ih =>
    have hx := hvalid x List.mem_cons_self
    have hnil : Blank [] := fun c hc => by cases hc
    obtain ⟨fuel, rfl⟩ : ∃ n, fuel = n + 1 := Nat.exists_eq_succ_of_ne_zero (by
      rw [List.length_cons] at hfuel
      omega)
    have hfuel' : rest.length ≤ fuel := Nat.le_of_succ_le_succ hfuel
    cases rest with
    | nil =>
      have hlast := h.step_last hnil hx (fileOf lead (read ++ [x]))
        (newlines (fileOf lead read)).length
      have hchunk : [x].flatMap Item.chunk = [] ++ x.chunk := List.append_nil _
      rw [hchunk, Json.streamReadJsonFrom, hlast]
      rfl
    | cons y rest =>
      have hy := hvalid y (List.mem_cons_of_mem x List.mem_cons_self)
      have hsplit : (x :: y :: rest).flatMap Item.chunk =
          [] ++ x.chunk ++ (y.text ++ (y.after ++ rest.flatMap Item.chunk)) := by
        simp [Item.chunk]
      have hseek : seek (newlines (fileOf lead read)).length
          (fileOf lead (read ++ x :: y :: rest)) =
          some ([] ++ x.chunk ++ (y.text ++ (y.after ++ rest.flatMap Item.chunk))) := by
        rw [(hbefore.of_append hread).length_newlines, fileOf_append, seek_append, hsplit]
      have hstep := h.step_yielded hnil hx hy.object hseek
      have hnext : (newlines (fileOf lead read)).length + (newlines ([] ++ x.chunk)).length =
          (newlines (fileOf lead (read ++ [x]))).length := by
        have hchunk : [x].flatMap Item.chunk = x.chunk := List.append_nil _
        have hhead : x.chunk.head? ≠ some '\n' := h.head_ne hx.object x.after
        rw [fileOf_append, hchunk, List.nil_append,
          @newlines_append (fileOf lead read) x.chunk (.inr hhead), List.length_append]
      have happend : read ++ x :: y :: rest = (read ++ [x]) ++ y :: rest := by simp
      have hbefore' : OneByteBefore lead ((read ++ [x]) ++ y :: rest) := by
        rw [← happend]
        exact hbefore
      have hrest' := ih (fun item hitem => hvalid item (List.mem_cons_of_mem x hitem)) hbefore'
        (by simp) (List.cons_ne_nil y rest) hfuel'
      have hflat : y.text ++ (y.after ++ rest.flatMap Item.chunk) =
          (y :: rest).flatMap Item.chunk := by simp [Item.chunk]
      rw [hsplit, Json.streamReadJsonFrom, hstep]
      dsimp only
      rw [hnext, hflat, happend, hrest']
      rfl

/-- A file with at most two objects, or with one byte a character before the last two, is read
back. -/
theorem JsonLaws.readsBack (h : JsonLaws json IsObject) (hlead : Blank lead)
    (hvalid : ∀ item ∈ items, Valid IsObject item) (hne : items ≠ [])
    (hbefore : OneByteBefore lead items) : ReadsBack json lead items := by
  intro fuel hfuel
  cases items with
  | nil => exact absurd rfl hne
  | cons x rest =>
    have hx := hvalid x List.mem_cons_self
    obtain ⟨fuel, rfl⟩ : ∃ n, fuel = n + 1 := Nat.exists_eq_succ_of_ne_zero (by
      rw [List.length_cons] at hfuel
      omega)
    have hfuel' : rest.length ≤ fuel := Nat.le_of_succ_le_succ hfuel
    unfold Json.streamReadJson
    cases rest with
    | nil =>
      have hlast := h.step_last hlead hx (fileOf lead [x]) 0
      have hfile : fileOf lead [x] = lead ++ x.chunk := by simp [fileOf]
      rw [← hfile] at hlast
      rw [Json.streamReadJsonFrom, hlast]
      rfl
    | cons y rest =>
      have hy := hvalid y (List.mem_cons_of_mem x List.mem_cons_self)
      have hfile : fileOf lead (x :: y :: rest) =
          lead ++ x.chunk ++ (y.text ++ (y.after ++ rest.flatMap Item.chunk)) := by
        simp [fileOf, Item.chunk]
      have hseek : seek 0 (fileOf lead (x :: y :: rest)) =
          some (lead ++ x.chunk ++ (y.text ++ (y.after ++ rest.flatMap Item.chunk))) := by
        rw [hfile]
        exact seek_append [] _
      have hstep := h.step_yielded hlead hx hy.object hseek
      rw [← hfile] at hstep
      have hnext : 0 + (newlines (lead ++ x.chunk)).length =
          (newlines (fileOf lead [x])).length := by
        have hone : fileOf lead [x] = lead ++ x.chunk := by simp [fileOf]
        rw [Nat.zero_add, hone]
      have hflat : y.text ++ (y.after ++ rest.flatMap Item.chunk) =
          (y :: rest).flatMap Item.chunk := by simp [Item.chunk]
      have hbefore' : OneByteBefore lead ([x] ++ y :: rest) := hbefore
      have hrest := h.reads_rest
        (fun item hitem => hvalid item (List.mem_cons_of_mem x hitem)) hbefore'
        (List.cons_ne_nil x []) (List.cons_ne_nil y rest) hfuel'
      rw [Json.streamReadJsonFrom, hstep]
      dsimp only
      rw [hnext, hflat]
      change (x.value :: (json.streamReadJsonFrom (fileOf lead ([x] ++ y :: rest)) fuel _).1,
        (json.streamReadJsonFrom (fileOf lead ([x] ++ y :: rest)) fuel _).2) = _
      rw [hrest]
      rfl

end ReadingBack

/-! ## Three objects -/

/-- An object as a text and its value. -/
def Item.object (item : Item Value) : List Char × Value := (item.text, item.value)

section Three

variable {json : Json Value} {IsObject : List Char → Value → Prop} {x y z : Item Value}
  {rest : List (Item Value)}

/-- A line end in two characters, and as many blanks as there are bytes beyond the first of their
character in the text. -/
def misleading (text : List Char) : List Char :=
  '\r' :: '\n' :: List.replicate (byteLength text - (newlines text).length) ' '

theorem newlines_replicate (n : Nat) : newlines (List.replicate n ' ') = List.replicate n ' ' := by
  induction n with
  | zero => rfl
  | succ n ih => rw [List.replicate_succ, newlines_cons (by decide), ih]

theorem newlines_misleading (text : List Char) : newlines (misleading text) =
    '\n' :: List.replicate (byteLength text - (newlines text).length) ' ' := by
  have hcr : newlines (misleading text) = '\n' ::
      newlinesFrom true ('\n' :: List.replicate (byteLength text - (newlines text).length) ' ') := rfl
  rw [hcr, newlinesFrom_cr]
  exact congrArg ('\n' :: ·) (newlines_replicate _)

theorem blank_misleading (text : List Char) : Blank (misleading text) := by
  intro c hc
  rcases List.mem_cons.mp hc with rfl | hc
  · rfl
  rcases List.mem_cons.mp hc with rfl | hc
  · rfl
  · rw [List.eq_of_mem_replicate hc]
    rfl

/-- With such white space after the first of three objects, the position that is sought for the
second one is inside of the line end. -/
theorem JsonLaws.misled (h : JsonLaws json IsObject)
    (hx : Valid IsObject ⟨x.text, x.value, misleading x.text⟩) (hy : IsObject y.text y.value)
    (hz : IsObject z.text z.value) (fuel : Nat) :
    json.streamReadJson (fuel + 2)
      (fileOf [] (⟨x.text, x.value, misleading x.text⟩ :: ⟨y.text, y.value, []⟩ ::
        ⟨z.text, z.value, []⟩ :: rest)) = ([x.value], .raised .valueError) := by
  have hnil : Blank [] := fun c hc => by cases hc
  let first : Item Value := ⟨x.text, x.value, misleading x.text⟩
  let blanks : List Char :=
    '\n' :: List.replicate (byteLength x.text - (newlines x.text).length) ' '
  let file := fileOf [] (first :: ⟨y.text, y.value, []⟩ :: ⟨z.text, z.value, []⟩ :: rest)
  let more := z.text ++ rest.flatMap Item.chunk
  have hfile : file = [] ++ first.chunk ++ (y.text ++ more) := by
    simp [file, more, fileOf, Item.chunk]
  have hseek : seek 0 file = some ([] ++ first.chunk ++ (y.text ++ more)) := by
    rw [hfile]
    exact seek_append [] _
  have hfirst := h.step_yielded hnil hx hy hseek
  rw [← hfile] at hfirst
  have hchunk : newlines ([] ++ first.chunk) = newlines x.text ++ blanks := by
    have happend := @newlines_append x.text (misleading x.text) (.inl (h.last_ne hx.object))
    rw [newlines_misleading] at happend
    exact happend
  -- the position counts the line end once
  have hlength : 0 + (newlines ([] ++ first.chunk)).length = byteLength (x.text ++ ['\r']) := by
    have hle := length_newlines_le x.text
    have hbytes : byteLength (x.text ++ ['\r']) = byteLength x.text + 1 := by
      unfold byteLength
      rw [List.map_append, List.sum_append]
      rfl
    rw [hchunk, hbytes, List.length_append, List.length_cons, List.length_replicate]
    omega
  have hsought : seek (byteLength (x.text ++ ['\r'])) file = some (blanks ++ (y.text ++ more)) := by
    have hcr : file = (x.text ++ ['\r']) ++ (blanks ++ (y.text ++ more)) := by
      rw [hfile]
      simp [first, Item.chunk, misleading, blanks]
    rw [hcr]
    exact seek_append _ _
  have hextra : json.loads (newlines (y.text ++ more)) =
      .error (.extraData (newlines y.text).length) := by
    have hitem : Valid IsObject (⟨y.text, y.value, []⟩ : Item Value) := ⟨hy, hnil⟩
    have hloads := h.loads_extra hnil hitem hz (rest.flatMap Item.chunk)
    simpa [Item.chunk, more] using hloads
  have hcut : ∃ e, json.loads
      (read (newlines y.text).length (blanks ++ (y.text ++ more))).1 = .error e := by
    have hself : newlines blanks = blanks := by
      have hcons := @newlines_cons
        (List.replicate (byteLength x.text - (newlines x.text).length) ' ') '\n' (by decide)
      rw [newlines_replicate] at hcons
      exact hcons
    have hblanks : newlines (blanks ++ (y.text ++ more)) =
        blanks ++ (newlines y.text ++ newlines more) := by
      rw [newlines_append (.inr (h.head_ne hy more)), hself,
        newlines_append (.inr (h.head_ne hz _))]
    have hobject := h.lineEnds _ _ hy
    have hpos : 0 < (newlines y.text).length := by
      obtain ⟨inner, hinner⟩ := h.cons hobject
      rw [hinner]
      exact Nat.succ_pos _
    have hlonger : 0 < blanks.length := Nat.succ_pos _
    rw [read_fst, hblanks, List.take_append, List.take_append_of_le_length (Nat.sub_le _ _)]
    apply h.truncated _ _ hobject
    · intro c hc
      have hmem : c ∈ misleading x.text := List.mem_cons_of_mem _ (List.mem_of_mem_take hc)
      exact blank_misleading x.text c hmem
    · exact List.take_prefix _ _
    · intro heq
      have hlen := congrArg List.length heq
      rw [List.length_take] at hlen
      omega
  obtain ⟨e, hcut⟩ := hcut
  have hsecond : json.step file ⟨byteLength (x.text ++ ['\r']), y.text ++ more⟩ =
      .raised .valueError := by
    unfold Json.step
    dsimp only
    rw [hextra, hsought]
    dsimp only
    rw [hcut]
  unfold Json.streamReadJson
  rw [Json.streamReadJsonFrom, hfirst]
  dsimp only
  rw [hlength, Json.streamReadJsonFrom, hsecond]

/-- Three objects can be written so that they are not read back. -/
theorem JsonLaws.exists_misled (h : JsonLaws json IsObject) {items : List (Item Value)}
    (hvalid : ∀ item ∈ items, Valid IsObject item) (hthree : 2 < items.length) :
    ∃ items' : List (Item Value), items'.map Item.object = items.map Item.object ∧
      (∀ item ∈ items', Valid IsObject item) ∧ ¬ ReadsBack json [] items' := by
  obtain ⟨x, y, z, rest, rfl⟩ : ∃ x y z rest, items = x :: y :: z :: rest := by
    match items, hthree with
    | x :: y :: z :: rest, _ => exact ⟨x, y, z, rest, rfl⟩
  have hnil : Blank [] := fun c hc => by cases hc
  have hx := (hvalid x List.mem_cons_self).object
  have hy := (hvalid y (by simp)).object
  have hz := (hvalid z (by simp)).object
  refine ⟨⟨x.text, x.value, misleading x.text⟩ :: ⟨y.text, y.value, []⟩ ::
    ⟨z.text, z.value, []⟩ :: rest, rfl, ?_, ?_⟩
  · intro item hitem
    rcases List.mem_cons.mp hitem with rfl | hitem
    · exact ⟨hx, blank_misleading x.text⟩
    rcases List.mem_cons.mp hitem with rfl | hitem
    · exact ⟨hy, hnil⟩
    rcases List.mem_cons.mp hitem with rfl | hitem
    · exact ⟨hz, hnil⟩
    · exact hvalid item (by simp [hitem])
  · intro hreads
    have hread := hreads (rest.length + 1 + 2) (Nat.le_refl _)
    rw [h.misled ⟨hx, blank_misleading x.text⟩ hy hz] at hread
    cases congrArg Prod.snd hread

end Three

/-- `stream_read_json` reads the objects of a file, and stops, if there are at most two of them or
the text before the last two is one byte a character. A list of objects is read however white
space stands between them exactly when there are at most two. -/
theorem streamReadJson_ok {json : Json Value} {IsObject : List Char → Value → Prop}
    (h : JsonLaws json IsObject) {lead : List Char} {items : List (Item Value)}
    (hlead : Blank lead) (hvalid : ∀ item ∈ items, Valid IsObject item) (hne : items ≠ []) :
    (OneByteBefore lead items → ReadsBack json lead items) ∧
    ((∀ lead' items', items'.map Item.object = items.map Item.object → Blank lead' →
        (∀ item ∈ items', Valid IsObject item) → ReadsBack json lead' items') ↔
      items.length ≤ 2) := by
  refine ⟨h.readsBack hlead hvalid hne, ?_⟩
  constructor
  · intro hall
    by_contra hthree
    obtain ⟨items', hobjects, hvalid', hnot⟩ := h.exists_misled hvalid (not_le.mp hthree)
    exact hnot (hall [] items' hobjects (fun c hc => by cases hc) hvalid')
  · intro htwo lead' items' hobjects hlead' hvalid'
    have hlength : items'.length = items.length := by
      have hlen := congrArg List.length hobjects
      rw [List.length_map, List.length_map] at hlen
      exact hlen
    have hne' : items' ≠ [] := by
      intro hnil
      rw [hnil] at hlength
      exact hne (List.length_eq_zero_iff.mp hlength.symm)
    exact h.readsBack hlead' hvalid' hne' (.inl (by omega))

/-! ## Examples of files -/

/-- What follows an object in which `depth` braces are open. -/
def afterObject (depth : Nat) (inString : Bool) : List Char → Option (List Char)
  | [] => none
  | c :: rest =>
    if inString then afterObject depth (c ≠ '"') rest
    else if c = '"' then afterObject depth true rest
    else if c = '\x7b' then afterObject (depth + 1) false rest
    else if c = '\x7d' then if depth = 1 then some rest else afterObject (depth - 1) false rest
    else afterObject depth false rest

/-- Objects of strings without escapes, as `json.loads` reads them; the value is the text. -/
def objectTexts : Json (List Char) where
  loads text :=
    match text.dropWhile isBlank with
    | [] => .error .other
    | c :: rest =>
      if c = '\x7b' then
        match afterObject 1 false rest with
        | none => .error .other
        | some more =>
          match more.dropWhile isBlank with
          | [] => .ok ((c :: rest).take (rest.length + 1 - more.length))
          | _ :: data => .error (.extraData (text.length - (data.length + 1)))
      else .error .other

/-- An object of strings without escapes, without a carriage return. -/
structure IsObjectText (text v : List Char) : Prop where
  head : text.head? = some '\x7b'
  closed : afterObject 1 false text.tail = some []
  no_cr : '\r' ∉ text
  value : v = text

section ObjectTexts

variable {depth : Nat} {inString : Bool} {text rest v before after : List Char}

theorem afterObject_append (h : afterObject depth inString text = some rest) (more : List Char) :
    afterObject depth inString (text ++ more) = some (rest ++ more) := by
  induction text generalizing depth inString with
  | nil => cases h
  | cons c text ih =>
    rw [afterObject] at h
    rw [List.cons_append, afterObject]
    split_ifs at h ⊢
    · exact ih h
    · exact ih h
    · exact ih h
    · obtain rfl := Option.some.inj h
      rfl
    · exact ih h
    · exact ih h

/-- The brace that closes an object is its last character. -/
theorem concat_of_afterObject (h : afterObject depth inString text = some []) :
    ∃ inner, text = inner ++ ['\x7d'] := by
  induction text generalizing depth inString with
  | nil => cases h
  | cons c text ih =>
    have hrest : (∃ depth inString, afterObject depth inString text = some []) →
        ∃ inner, c :: text = inner ++ ['\x7d'] := by
      rintro ⟨depth, inString, h⟩
      obtain ⟨inner, rfl⟩ := ih h
      exact ⟨c :: inner, rfl⟩
    rw [afterObject] at h
    split_ifs at h with hin hquote hopen hclose hone
    · exact hrest ⟨_, _, h⟩
    · exact hrest ⟨_, _, h⟩
    · exact hrest ⟨_, _, h⟩
    · obtain rfl := Option.some.inj h
      exact ⟨[], by rw [hclose]; rfl⟩
    · exact hrest ⟨_, _, h⟩
    · exact hrest ⟨_, _, h⟩

/-- An object is not closed before its end. -/
theorem afterObject_truncated {pre : List Char} (h : afterObject depth inString text = some [])
    (hpre : pre <+: text) (hne : pre ≠ text) : afterObject depth inString pre = none := by
  obtain ⟨more, rfl⟩ := hpre
  cases hclosed : afterObject depth inString pre with
  | none => rfl
  | some rest =>
    have hnil := Option.some.inj ((afterObject_append hclosed more).symm.trans h)
    exact absurd (by rw [(List.append_eq_nil_iff.mp hnil).2, List.append_nil]) hne

theorem newlines_eq_self (h : '\r' ∉ text) : newlines text = text := by
  induction text with
  | nil => rfl
  | cons c text ih =>
    rw [List.mem_cons, not_or] at h
    rw [newlines_cons (Ne.symm h.1), ih h.2]

theorem IsObjectText.exists_cons (h : IsObjectText text v) :
    ∃ inner, text = '\x7b' :: inner ∧ afterObject 1 false inner = some [] := by
  cases text with
  | nil => cases h.head
  | cons c inner =>
    obtain rfl := Option.some.inj h.head
    exact ⟨inner, rfl, h.closed⟩

/-- What `loads` does with an object and what is behind it. -/
theorem objectTexts_loads (h : IsObjectText text v) (hbefore : Blank before) (more : List Char) :
    objectTexts.loads (before ++ text ++ more) =
      match more.dropWhile isBlank with
      | [] => .ok text
      | _ :: data => .error (.extraData ((before ++ text ++ more).length - (data.length + 1))) := by
  obtain ⟨inner, rfl, hclosed⟩ := h.exists_cons
  have hdrop : (before ++ '\x7b' :: inner ++ more).dropWhile isBlank = '\x7b' :: (inner ++ more) := by
    rw [List.append_assoc, List.dropWhile_append_of_pos hbefore]
    exact List.dropWhile_cons_of_neg (by decide)
  have hafter := afterObject_append hclosed more
  have htake : ('\x7b' :: (inner ++ more)).take ((inner ++ more).length + 1 - more.length) =
      '\x7b' :: inner := by
    have hlength : (inner ++ more).length + 1 - more.length = ('\x7b' :: inner).length := by
      rw [List.length_append, List.length_cons]
      omega
    rw [hlength]
    exact List.take_left
  unfold objectTexts
  dsimp only
  rw [hdrop]
  dsimp only
  rw [if_pos rfl, hafter]
  dsimp only
  rw [List.nil_append, htake]

theorem objectTexts_laws : JsonLaws objectTexts IsObjectText where
  braces text v h := by
    obtain ⟨inner, rfl, hclosed⟩ := h.exists_cons
    obtain ⟨inner, rfl⟩ := concat_of_afterObject hclosed
    exact ⟨inner, rfl⟩
  lineEnds text v h := by
    rw [newlines_eq_self h.no_cr]
    exact h
  loads text v h before after hbefore hafter := by
    have hnil := @List.dropWhile_append_of_pos _ isBlank after [] hafter
    rw [List.append_nil] at hnil
    rw [objectTexts_loads h hbefore, hnil, h.value]
    rfl
  extra text v h before after hbefore hafter c rest hc := by
    have hcons : (after ++ c :: rest).dropWhile isBlank = c :: rest := by
      rw [List.dropWhile_append_of_pos hafter]
      exact List.dropWhile_cons_of_neg (by simp [hc])
    rw [List.append_assoc, objectTexts_loads h hbefore, hcons]
    simp only [List.length_append, List.length_cons, Except.error.injEq, JsonError.extraData.injEq]
    omega
  truncated text v h before pre hbefore hpre hne := by
    refine ⟨.other, ?_⟩
    unfold objectTexts
    dsimp only
    rw [List.dropWhile_append_of_pos hbefore]
    obtain ⟨inner, rfl, hclosed⟩ := h.exists_cons
    cases pre with
    | nil => rfl
    | cons c pre =>
      obtain ⟨rfl, htail⟩ := List.cons_prefix_cons.mp hpre
      have hopen := afterObject_truncated hclosed htail fun heq => hne (by rw [heq])
      rw [List.dropWhile_cons_of_neg (by decide)]
      dsimp only
      rw [if_pos rfl, hopen]

end ObjectTexts

/-- A test set of one test, as it stands in a file. -/
def testSetObject (vms test : String) : Item (List Char) :=
  let text := ("\x7b\"vms\": " ++ vms ++ ", \"tests\": [\"" ++ test ++ "\"]\x7d").toList
  ⟨text, text, []⟩

/-- The object with a new line after it. -/
def Item.onLine (item : Item Value) : Item Value := { item with after := ['\n'] }

/-- The last two of three test sets may have characters of more than one byte. -/
theorem streamReadJson_ok_lines :
    ReadsBack objectTexts ['\n'] [(testSetObject "2" "resync").onLine,
      (testSetObject "3" "réseau").onLine, (testSetObject "4" "ein\x7bfügen\x7d").onLine] := by
  have hvalid : ∀ item ∈ [(testSetObject "2" "resync").onLine, (testSetObject "3" "réseau").onLine,
      (testSetObject "4" "ein\x7bfügen\x7d").onLine], Valid IsObjectText item := by
    intro item hitem
    have hchecked : item.text.head? = some '\x7b' ∧ afterObject 1 false item.text.tail = some [] ∧
        '\r' ∉ item.text ∧ item.value = item.text ∧ Blank item.after := by
      revert item
      decide +kernel
    obtain ⟨hhead, hclosed, hcr, hvalue, hafter⟩ := hchecked
    exact ⟨⟨hhead, hclosed, hcr, hvalue⟩, hafter⟩
  have hone : OneByte (fileOf ['\n'] [(testSetObject "2" "resync").onLine]) := by
    constructor
    · decide +kernel
    · decide +kernel
  exact (streamReadJson_ok objectTexts_laws (by decide) hvalid (by simp)).1 (.inr hone)

/-- Without white space, the position that is sought for the second object is the last byte of
the first one, in which a character has two. -/
theorem streamReadJson_raises :
    objectTexts.streamReadJson 3 (fileOf [] [testSetObject "2" "réseau", testSetObject "3" "resync",
      testSetObject "4" "rename"]) =
      ([(testSetObject "2" "réseau").value], .raised .valueError) ∧
    ¬ ReadsBack objectTexts [] [testSetObject "2" "réseau", testSetObject "3" "resync",
      testSetObject "4" "rename"] := by
  have hraises : objectTexts.streamReadJson 3 (fileOf [] [testSetObject "2" "réseau",
      testSetObject "3" "resync", testSetObject "4" "rename"]) =
      ([(testSetObject "2" "réseau").value], .raised .valueError) := by
    decide +kernel
  refine ⟨hraises, ?_⟩
  intro h
  have hread := h 3 (Nat.le_refl 3)
  rw [hraises] at hread
  cases congrArg Prod.snd hread

end DrbdTests.Runner
