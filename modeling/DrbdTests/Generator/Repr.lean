import DrbdTests.Generator.Generate
import DrbdTests.Lib.Toml.Reader

/-!
# Reading the `repr` of strings as TOML

The lists of `vm_tags` and of `variants` are printed with `str`, which writes each string with
`repr`. TOML reads the same string exactly when it is `Readable`, and the same list exactly when
all its strings are: `readValue_strings` and `readValue_strings_ne`.
-/

namespace DrbdTests.Generator

open Toml (Value Starts Ends)

/-! ## Strings -/

/-- A character that `repr` writes as `\x`, with two digits. -/
def HexEscaped (o : Outside) (c : Char) : Prop :=
  (c.toNat < 0x20 ∧ c ≠ '\t' ∧ c ≠ '\n' ∧ c ≠ '\r') ∨ c.toNat = 0x7f ∨
    (0x7f < c.toNat ∧ c.toNat < 0x100 ∧ o.isPrintable c = false)

/-- A character that `repr` leaves as it is, if it is not the quote. -/
def Verbatim (o : Outside) (c : Char) : Prop :=
  c ≠ '\\' ∧ 0x20 ≤ c.toNat ∧ c.toNat ≠ 0x7f ∧ (c.toNat < 0x7f ∨ o.isPrintable c = true)

/-- A string whose `repr` is the same string in TOML. With `'` it is in double quotes, where TOML
knows all the escapes but one; without, it is in single quotes, where TOML has no escapes. -/
def Readable (o : Outside) (s : String) : Prop :=
  if '\'' ∈ s.toList then '"' ∉ s.toList ∧ ∀ c ∈ s.toList, ¬ HexEscaped o c
  else ∀ c ∈ s.toList, Verbatim o c

variable {o : Outside} {other : List Char → Option (Value × List Char)}
  {text rest : List Char} {c : Char}

theorem hexValue_hexDigit : ∀ d < 16, Toml.hexValue (hexDigit d) = some d := by
  decide

theorem hex_values (width n : Nat) : ∃ values : List Nat,
    (hex width n).map Toml.hexValue = values.map some ∧
      values.foldl (fun n d => 16 * n + d) 0 = n % 16 ^ width := by
  induction width generalizing n with
  | zero => exact ⟨[], rfl, (Nat.mod_one n).symm⟩
  | succ width ih =>
    obtain ⟨values, hmap, hfold⟩ := ih (n / 16)
    refine ⟨values ++ [n % 16], ?_, ?_⟩
    · have hdigit := hexValue_hexDigit (n % 16) (Nat.mod_lt n (by omega))
      rw [hex, List.map_append, List.map_append, hmap, List.map_singleton, List.map_singleton,
        hdigit]
    · rw [List.foldl_append, hfold, Nat.pow_succ', Nat.mod_mul]
      exact Nat.add_comm _ _

theorem length_hex (width n : Nat) : (hex width n).length = width := by
  induction width generalizing n with
  | zero => rfl
  | succ width ih => rw [hex, List.length_append, ih, List.length_singleton]

theorem readBasic_hexEscape {width : Nat} (hc : c.toNat < 16 ^ (width + 1)) :
    Toml.readBasic (.hex width 0) (hex (width + 1) c.toNat ++ text) =
      (Toml.readBasic .plain text).map fun p => (c :: p.1, p.2) := by
  obtain ⟨values, hmap, hfold⟩ := hex_values (width + 1) c.toNat
  rw [Nat.mod_eq_of_lt hc] at hfold
  rw [Toml.readBasic_hex hmap (length_hex _ _) (by rw [hfold]; exact c.valid), hfold,
    Char.ofNat_toNat]

theorem reprChar_plain {quote : Char} (hquote : c ≠ quote) (hc : Verbatim o c) :
    reprChar o quote c = [c] := by
  obtain ⟨hslash, hlow, hdel, hprint⟩ := hc
  have htab : c ≠ '\t' ∧ c ≠ '\n' ∧ c ≠ '\r' := by
    refine ⟨?_, ?_, ?_⟩ <;> (rintro rfl; revert hlow; decide)
  rw [reprChar, if_neg (by simp [hquote, hslash]), if_neg htab.1, if_neg htab.2.1,
    if_neg htab.2.2, if_neg (by omega), if_pos hprint]

theorem reprChar_quote {quote : Char} (hc : c = quote ∨ c = '\\') :
    reprChar o quote c = ['\\', c] := by
  rw [reprChar, if_pos hc]

/-- The other characters are written as escapes. -/
theorem reprChar_escape {quote : Char} (hquote : ¬ (c = quote ∨ c = '\\')) (hc : ¬ Verbatim o c) :
    (¬ HexEscaped o c ∧ ∃ d, reprChar o quote c = ['\\', d] ∧ Toml.shortEscape d = some c) ∨
    (HexEscaped o c ∧ reprChar o quote c = '\\' :: 'x' :: hex 2 c.toNat) ∨
    (¬ HexEscaped o c ∧ c.toNat < 16 ^ 4 ∧ reprChar o quote c = '\\' :: 'u' :: hex 4 c.toNat) ∨
    (¬ HexEscaped o c ∧ reprChar o quote c = '\\' :: 'U' :: hex 8 c.toNat) := by
  have hspace : c = '\t' ∨ c = '\n' ∨ c = '\r' → ¬ HexEscaped o c := by
    rintro hspace (⟨_, htab, hnewline, hcr⟩ | h | ⟨h, _⟩)
    · exact hspace.elim htab fun h => h.elim hnewline hcr
    · rcases hspace with rfl | rfl | rfl <;> revert h <;> decide
    · rcases hspace with rfl | rfl | rfl <;> revert h <;> decide
  rw [reprChar, if_neg hquote]
  split_ifs with htab hnewline hcr hcontrol hprint hlow hmiddle
  · exact Or.inl ⟨hspace (Or.inl htab), 't', rfl, by rw [htab]; rfl⟩
  · exact Or.inl ⟨hspace (Or.inr (Or.inl hnewline)), 'n', rfl, by rw [hnewline]; rfl⟩
  · exact Or.inl ⟨hspace (Or.inr (Or.inr hcr)), 'r', rfl, by rw [hcr]; rfl⟩
  · refine Or.inr (Or.inl ⟨?_, rfl⟩)
    rcases hcontrol with hcontrol | hdel
    · exact Or.inl ⟨hcontrol, htab, hnewline, hcr⟩
    · exact Or.inr (Or.inl hdel)
  · refine absurd ⟨fun h => hquote (Or.inr h), ?_, ?_, hprint⟩ hc
    · omega
    · omega
  · refine Or.inr (Or.inl ⟨Or.inr (Or.inr ⟨?_, hlow, ?_⟩), rfl⟩)
    · omega
    · simpa using fun h => hprint (Or.inr h)
  · refine Or.inr (Or.inr (Or.inl ⟨?_, hmiddle, rfl⟩))
    rintro (⟨h, _⟩ | h | ⟨_, h, _⟩) <;> omega
  · refine Or.inr (Or.inr (Or.inr ⟨?_, rfl⟩))
    rintro (⟨h, _⟩ | h | ⟨_, h, _⟩) <;> omega

theorem not_hexEscaped (hc : Verbatim o c) : ¬ HexEscaped o c := by
  obtain ⟨_, hlow, hdel, hprint⟩ := hc
  rintro (⟨h, _⟩ | h | ⟨h, _, hnot⟩)
  · omega
  · omega
  · rcases hprint with hprint | hprint
    · omega
    · rw [hnot] at hprint
      cases hprint

theorem isText_verbatim (hc : Verbatim o c) : Toml.isText c = true := by
  obtain ⟨_, hlow, hdel, _⟩ := hc
  simp [Toml.isText, hlow, hdel]

/-- A character in double quotes is read back, unless it is written as `\x`. -/
theorem readBasic_reprChar (hquote : c ≠ '"') : Toml.readBasic .plain (reprChar o '"' c ++ text) =
    open Classical in if HexEscaped o c then none
    else (Toml.readBasic .plain text).map fun p => (c :: p.1, p.2) := by
  classical
  by_cases hslash : c = '\\'
  · have hnot : ¬ HexEscaped o c := by
      rw [hslash]
      rintro (⟨h, _⟩ | h | ⟨h, _⟩) <;> revert h <;> decide
    rw [if_neg hnot, reprChar_quote (Or.inr hslash), hslash]
    exact Toml.readBasic_short rfl
  by_cases hverbatim : Verbatim o c
  · rw [if_neg (not_hexEscaped hverbatim), reprChar_plain hquote hverbatim]
    exact Toml.readBasic_plain hquote hslash (isText_verbatim hverbatim)
  have hneither : ¬ (c = '"' ∨ c = '\\') := fun h => h.elim hquote hslash
  rcases reprChar_escape hneither hverbatim with ⟨hnot, d, heq, hd⟩ | ⟨hhex, heq⟩ |
    ⟨hnot, hlt, heq⟩ | ⟨hnot, heq⟩
  · rw [if_neg hnot, heq]
    exact Toml.readBasic_short hd
  · rw [if_pos hhex, heq]
    rfl
  · rw [if_neg hnot, heq]
    exact readBasic_hexEscape hlt
  · rw [if_neg hnot, heq]
    have hvalid : c.toNat < 0xd800 ∨ 0xdfff < c.toNat ∧ c.toNat < 0x110000 := c.valid
    apply readBasic_hexEscape
    omega

/-- A string in double quotes. -/
theorem readBasic_flatMap {s : List Char} (hs : '"' ∉ s) :
    Toml.readBasic .plain (s.flatMap (reprChar o '"') ++ '"' :: rest) =
      open Classical in if ∃ c ∈ s, HexEscaped o c then none else some (s, rest) := by
  classical
  induction s with
  | nil => simp [Toml.readBasic]
  | cons c s ih =>
    have hc : c ≠ '"' := fun h => hs (h ▸ List.mem_cons_self)
    rw [List.flatMap_cons, List.append_assoc, readBasic_reprChar hc,
      ih fun h => hs (List.mem_cons_of_mem _ h)]
    by_cases hfirst : HexEscaped o c
    · rw [if_pos hfirst, if_pos ⟨c, List.mem_cons_self, hfirst⟩]
    · have hiff : (∃ d ∈ c :: s, HexEscaped o d) ↔ ∃ d ∈ s, HexEscaped o d := by
        simp [hfirst]
      rw [if_neg hfirst]
      by_cases hrest : ∃ d ∈ s, HexEscaped o d
      · rw [if_pos hrest, if_pos (hiff.mpr hrest)]
        rfl
      · rw [if_neg hrest, if_neg fun h => hrest (hiff.mp h)]
        rfl

theorem isText_hex (width n : Nat) : ∀ c ∈ hex width n, Toml.isText c = true := by
  have hdigit : ∀ d < 16, Toml.isText (hexDigit d) = true := by decide
  induction width generalizing n with
  | zero => simp [hex]
  | succ width ih =>
    intro c hc
    rw [hex, List.mem_append, List.mem_singleton] at hc
    rcases hc with hc | rfl
    · exact ih _ c hc
    · exact hdigit _ (Nat.mod_lt n (by omega))

theorem isText_shortEscape {d : Char} (h : Toml.shortEscape d = some c) : Toml.isText d = true := by
  unfold Toml.shortEscape at h
  split_ifs at h with h₁ h₂ h₃ h₄ h₅ h₆
  · rcases h₁ with rfl | rfl <;> rfl
  · rw [h₂]; rfl
  · rw [h₃]; rfl
  · rw [h₄]; rfl
  · rw [h₅]; rfl
  · rw [h₆]; rfl

/-- What is printed for a string stays in its line. -/
theorem isText_reprChar {quote : Char} (hquote : Toml.isText quote = true) (c : Char) :
    ∀ d ∈ reprChar o quote c, Toml.isText d = true := by
  have hslash : Toml.isText '\\' = true := rfl
  have hletter : ∀ d ∈ ['x', 'u', 'U'], Toml.isText d = true := by decide
  intro d hd
  by_cases hself : c = quote ∨ c = '\\'
  · rw [reprChar_quote hself, List.mem_cons, List.mem_singleton] at hd
    rcases hd with rfl | rfl
    · exact hslash
    · rcases hself with rfl | rfl
      · exact hquote
      · exact hslash
  by_cases hverbatim : Verbatim o c
  · rw [reprChar_plain (fun h => hself (Or.inl h)) hverbatim, List.mem_singleton] at hd
    rw [hd]
    exact isText_verbatim hverbatim
  rcases reprChar_escape hself hverbatim with ⟨_, e, heq, he⟩ | ⟨_, heq⟩ | ⟨_, _, heq⟩ | ⟨_, heq⟩
  · rw [heq, List.mem_cons, List.mem_singleton] at hd
    rcases hd with rfl | rfl
    · exact hslash
    · exact isText_shortEscape he
  all_goals
    rw [heq, List.mem_cons, List.mem_cons] at hd
    rcases hd with rfl | rfl | hd
    · exact hslash
    · exact hletter _ (by simp)
    · exact isText_hex _ _ d hd

theorem not_mem_hex (width n : Nat) : '\'' ∉ hex width n := by
  have hdigit : ∀ d < 16, '\'' ≠ hexDigit d := by decide
  induction width generalizing n with
  | zero => exact List.not_mem_nil
  | succ width ih =>
    rw [hex, List.mem_append, List.mem_singleton]
    rintro (h | h)
    · exact ih _ h
    · exact hdigit _ (Nat.mod_lt n (by omega)) h

theorem not_mem_reprChar (hc : c ≠ '\'') : '\'' ∉ reprChar o '\'' c := by
  have hslash : '\'' ≠ '\\' := by decide
  intro hmem
  by_cases hself : c = '\'' ∨ c = '\\'
  · rw [reprChar_quote hself, List.mem_cons, List.mem_singleton] at hmem
    exact hmem.elim hslash hc.symm
  by_cases hverbatim : Verbatim o c
  · rw [reprChar_plain hc hverbatim, List.mem_singleton] at hmem
    exact hc hmem.symm
  rcases reprChar_escape hself hverbatim with ⟨_, e, heq, he⟩ | ⟨_, heq⟩ | ⟨_, _, heq⟩ | ⟨_, heq⟩
  · rw [heq, List.mem_cons, List.mem_singleton] at hmem
    rcases hmem with h | rfl
    · exact hslash h
    · cases he
  all_goals
    rw [heq, List.mem_cons, List.mem_cons] at hmem
    rcases hmem with h | h | h
    · exact hslash h
    · revert h
      decide
    · exact not_mem_hex _ _ h

/-- An escape is longer than its character. -/
theorem length_reprChar {quote : Char} (hc : ¬ Verbatim o c) :
    1 < (reprChar o quote c).length := by
  by_cases hself : c = quote ∨ c = '\\'
  · rw [reprChar_quote hself]
    exact Nat.one_lt_two
  · rcases reprChar_escape hself hc with ⟨_, e, heq, he⟩ | ⟨_, heq⟩ | ⟨_, _, heq⟩ | ⟨_, heq⟩
    all_goals
      rw [heq]
      simp only [List.length_cons]
      omega

theorem flatMap_reprChar {s : List Char} {quote : Char} (hs : quote ∉ s)
    (hall : ∀ c ∈ s, Verbatim o c) : s.flatMap (reprChar o quote) = s := by
  induction s with
  | nil => rfl
  | cons c s ih =>
    have hc : c ≠ quote := fun h => hs (h ▸ List.mem_cons_self)
    rw [List.flatMap_cons, reprChar_plain hc (hall c List.mem_cons_self),
      ih (fun h => hs (List.mem_cons_of_mem _ h)) fun d hd => hall d (List.mem_cons_of_mem _ hd)]
    rfl

theorem length_flatMap_reprChar (quote : Char) (s : List Char) :
    s.length ≤ (s.flatMap (reprChar o quote)).length ∧
      ((∃ c ∈ s, ¬ Verbatim o c) → s.length < (s.flatMap (reprChar o quote)).length) := by
  induction s with
  | nil => simp
  | cons c s ih =>
    have hpos : 0 < (reprChar o quote c).length := by
      by_cases hc : Verbatim o c
      · by_cases hquote : c = quote
        · rw [reprChar_quote (Or.inl hquote)]
          exact Nat.two_pos
        · rw [reprChar_plain hquote hc]
          exact Nat.one_pos
      · exact Nat.lt_of_succ_lt (length_reprChar hc)
    rw [List.flatMap_cons, List.length_append, List.length_cons]
    refine ⟨by omega, ?_⟩
    rintro ⟨d, hd, hnot⟩
    rcases List.mem_cons.mp hd with rfl | hd
    · have hlong : 1 < (reprChar o quote d).length := length_reprChar hnot
      omega
    · have hrest := ih.2 ⟨d, hd, hnot⟩
      omega

/-- The quote that `repr` takes. -/
def quoteOf (s : String) : Char := if '\'' ∈ s.toList ∧ '"' ∉ s.toList then '"' else '\''

theorem toList_reprStr (s : String) : (reprStr o s).toList =
    quoteOf s :: (s.toList.flatMap (reprChar o (quoteOf s)) ++ [quoteOf s]) := by
  rw [reprStr, String.toList_ofList]
  rfl

theorem quoteOf_cases (s : String) :
    (quoteOf s = '"' ∧ '\'' ∈ s.toList ∧ '"' ∉ s.toList) ∨
      (quoteOf s = '\'' ∧ ('\'' ∈ s.toList → '"' ∈ s.toList)) := by
  by_cases h : '\'' ∈ s.toList ∧ '"' ∉ s.toList
  · exact Or.inl ⟨if_pos h, h⟩
  · refine Or.inr ⟨if_neg h, fun hmem => ?_⟩
    by_contra hnot
    exact h ⟨hmem, hnot⟩

/-- The quotes of a string are not those of a string of several lines. -/
theorem take_two {s : List Char} {quote : Char} (hslash : quote ≠ '\\')
    (hs : s = [] → ∀ c ∈ rest.head?, c ≠ quote) :
    (s.flatMap (reprChar o quote) ++ quote :: rest).take 2 ≠ [quote, quote] := by
  cases s with
  | nil =>
    cases rest with
    | nil => simp
    | cons c rest =>
      have hc := hs rfl c rfl
      simpa using hc
  | cons c s =>
    have hhead : ∃ d tail, reprChar o quote c = d :: tail ∧ d ≠ quote := by
      by_cases hself : c = quote ∨ c = '\\'
      · exact ⟨_, _, reprChar_quote hself, hslash.symm⟩
      by_cases hverbatim : Verbatim o c
      · exact ⟨c, [], reprChar_plain (fun h => hself (Or.inl h)) hverbatim,
          fun h => hself (Or.inl h)⟩
      rcases reprChar_escape hself hverbatim with ⟨_, e, heq, _⟩ | ⟨_, heq⟩ | ⟨_, _, heq⟩ |
        ⟨_, heq⟩
      all_goals exact ⟨_, _, heq, hslash.symm⟩
    obtain ⟨d, tail, heq, hd⟩ := hhead
    rw [List.flatMap_cons, heq, List.append_assoc, List.cons_append]
    intro htake
    exact hd (List.cons.inj htake).1

/-- What is read of the `repr` of a string. -/
theorem readValue_reprStr (s : String) (n : Nat) (hrest : Ends rest) :
    Toml.readValue other (n + 1) ((reprStr o s).toList ++ rest) =
      ((if quoteOf s = '"' then Toml.readBasic .plain else Toml.readLiteral)
        (s.toList.flatMap (reprChar o (quoteOf s)) ++ quoteOf s :: rest)).map
          fun p => (.string p.1, p.2) := by
  have htext : (reprStr o s).toList ++ rest =
      quoteOf s :: (s.toList.flatMap (reprChar o (quoteOf s)) ++ quoteOf s :: rest) := by
    rw [toList_reprStr, List.cons_append, List.append_assoc]
    rfl
  have htake : (s.toList.flatMap (reprChar o (quoteOf s)) ++ quoteOf s :: rest).take 2 ≠
      [quoteOf s, quoteOf s] := by
    refine take_two ?_ fun _ c hc heq => ?_
    · rcases quoteOf_cases s with ⟨h, _⟩ | ⟨h, _⟩ <;> rw [h] <;> decide
    · rcases quoteOf_cases s with ⟨h, _⟩ | ⟨h, _⟩
      · exact (hrest c hc).2.1 (heq.trans h)
      · exact (hrest c hc).2.2 (heq.trans h)
  rw [htext]
  rcases quoteOf_cases s with ⟨h, _⟩ | ⟨h, _⟩
  · rw [h] at htake ⊢
    rw [Toml.readValue_basic n htake, if_pos rfl]
  · rw [h] at htake ⊢
    rw [Toml.readValue_literal n htake, if_neg (by decide)]

/-- A readable string is read back. -/
theorem readValue_readable {s : String} (hs : Readable o s) (n : Nat) (hrest : Ends rest) :
    Toml.readValue other (n + 1) ((reprStr o s).toList ++ rest) =
      some (.string s.toList, rest) := by
  unfold Readable at hs
  rw [readValue_reprStr s n hrest]
  rcases quoteOf_cases s with ⟨hquote, hmem, hnot⟩ | ⟨hquote, hboth⟩
  · rw [if_pos hmem] at hs
    rw [hquote, if_pos rfl, readBasic_flatMap hnot, if_neg fun ⟨c, hc, hhex⟩ => hs.2 c hc hhex]
    rfl
  · have hnone : '\'' ∉ s.toList := by
      intro hmem
      rw [if_pos hmem] at hs
      exact hs.1 (hboth hmem)
    rw [if_neg hnone] at hs
    rw [hquote, if_neg (by decide), flatMap_reprChar hnone hs,
      Toml.readLiteral_append hnone fun c hc => isText_verbatim (hs c hc)]
    rfl

/-- Another string is read as something else, or not at all. -/
theorem readValue_not_readable {s : String} (hs : ¬ Readable o s) {n : Nat} (hrest : Ends rest)
    {value : Value} {after : List Char}
    (h : Toml.readValue other (n + 1) ((reprStr o s).toList ++ rest) = some (value, after)) :
    value ≠ .string s.toList := by
  unfold Readable at hs
  rw [readValue_reprStr s n hrest] at h
  obtain ⟨⟨t, after'⟩, hread, heq⟩ := Option.map_eq_some_iff.mp h
  cases heq
  intro heq
  obtain rfl : t = s.toList := Value.string.inj heq
  rcases quoteOf_cases s with ⟨hquote, hmem, hnot⟩ | ⟨hquote, hboth⟩
  · rw [hquote, if_pos rfl, readBasic_flatMap hnot] at hread
    rw [if_pos hmem] at hs
    split_ifs at hread with hhex
    exact hs ⟨hnot, fun c hc h => hhex ⟨c, hc, h⟩⟩
  · rw [hquote, if_neg (by decide)] at hread
    obtain ⟨_, hnone, _⟩ := Toml.readLiteral_eq_some hread
    rw [if_neg hnone] at hs
    have hlength := (length_flatMap_reprChar (o := o) '\'' s.toList).2 (by simpa using hs)
    have hraw : '\'' ∉ s.toList.flatMap (reprChar o '\'') := by
      intro hmem
      obtain ⟨c, hc, hquote⟩ := List.mem_flatMap.mp hmem
      exact not_mem_reprChar (fun h => hnone (h ▸ hc)) hquote
    have htext : ∀ c ∈ s.toList.flatMap (reprChar o '\''), Toml.isText c = true := by
      intro c hmem
      obtain ⟨d, _, hd⟩ := List.mem_flatMap.mp hmem
      exact isText_reprChar rfl d c hd
    rw [Toml.readLiteral_append hraw htext] at hread
    rw [(Prod.mk.inj (Option.some.inj hread)).1] at hlength
    exact Nat.lt_irrefl _ hlength

/-! ## Lists -/

theorem toList_strList (reprs : List String) : (strList reprs).toList =
    '[' :: ([',', ' '].intercalate (reprs.map String.toList) ++ [']']) := by
  rw [strList, String.toList_append, String.toList_append, String.toList_intercalate]
  rfl

theorem starts_reprStr (s : String) : ∃ c tail, (reprStr o s).toList = c :: tail ∧ Starts c := by
  refine ⟨_, _, toList_reprStr s, ?_⟩
  rcases quoteOf_cases s with ⟨h, _⟩ | ⟨h, _⟩ <;> rw [h, Starts] <;> decide

def stringValue (s : String) : Value := .string s.toList

/-- The value of a list of strings. -/
def stringArray (l : List String) : Value := .array (l.map stringValue)

def intArray (l : List Int) : Value := .array (l.map .integer)

theorem element_readable {s : String} (hs : Readable o s) (n : Nat) :
    Toml.Element (Toml.readValue other (n + 1)) (reprStr o s).toList (stringValue s) :=
  ⟨starts_reprStr s, fun _ hrest => readValue_readable hs n hrest⟩

theorem element_int (i : Int) (n : Nat) :
    Toml.Element (Toml.readValue other (n + 1)) (toString i).toList (.integer i) := by
  refine ⟨?_, fun _ hrest => Toml.readValue_toString i n hrest⟩
  obtain ⟨c, tail, hcons, hc, _⟩ := Toml.toList_toString_int i
  refine ⟨c, tail, hcons, ?_⟩
  rcases hc with rfl | hc
  · rw [Starts]
    decide
  · have hne : ∀ d : Char, d.isDigit = false → c ≠ d := by
      rintro d hd rfl
      rw [hc] at hd
      cases hd
    simp [Starts, hne ' ' rfl, hne '\t' rfl, hne '\n' rfl, hne '\r' rfl, hne '#' rfl, hne ']' rfl]

theorem readValue_strList {reprs : List String} (n : Nat) (rest : List Char) :
    Toml.readValue other n ((strList reprs).toList ++ rest) = Toml.readValue other n
      ('[' :: ([',', ' '].intercalate (reprs.map String.toList) ++ ']' :: rest)) := by
  rw [toList_strList, List.cons_append, List.append_assoc]
  rfl

theorem readValue_ints (l : List Int) (n : Nat) (rest : List Char) :
    Toml.readValue other (n + 2) ((strList (l.map toString)).toList ++ rest) =
      some (intArray l, rest) := by
  rw [readValue_strList, List.map_map]
  exact Toml.readValue_elements (fun i _ => element_int i n) rest

theorem readValue_strings {l : List String} (hl : ∀ s ∈ l, Readable o s) (n : Nat)
    (rest : List Char) :
    Toml.readValue other (n + 2) ((strList (l.map (reprStr o))).toList ++ rest) =
      some (stringArray l, rest) := by
  rw [readValue_strList, List.map_map]
  exact Toml.readValue_elements (fun s hs => element_readable (hl s hs) n) rest

/-- A list up to its first element without a property. -/
theorem exists_first {α : Type} {p : α → Prop} {l : List α} (h : ¬ ∀ a ∈ l, p a) :
    ∃ front a back, l = front ++ a :: back ∧ (∀ b ∈ front, p b) ∧ ¬ p a := by
  induction l with
  | nil => simp at h
  | cons a l ih =>
    by_cases ha : p a
    · obtain ⟨front, b, back, rfl, hfront, hb⟩ := ih (by simpa [ha] using h)
      refine ⟨a :: front, b, back, rfl, ?_, hb⟩
      intro c hc
      rcases List.mem_cons.mp hc with rfl | hc
      · exact ha
      · exact hfront c hc
    · exact ⟨[], a, l, rfl, by simp, ha⟩

/-- A list with a string that is not readable is read as another value, or not at all. -/
theorem readValue_strings_ne {l : List String} (hl : ¬ ∀ s ∈ l, Readable o s) {n : Nat}
    {value : Value} {after : List Char}
    (h : Toml.readValue other (n + 2) ((strList (l.map (reprStr o))).toList ++ rest) =
      some (value, after)) : value ≠ stringArray l := by
  obtain ⟨front, s, back, rfl, hfront, hs⟩ := exists_first hl
  rw [readValue_strList, List.map_map, List.map_append, List.map_cons] at h
  have helements : ∀ s ∈ front, Toml.Element (Toml.readValue other (n + 1))
      ((String.toList ∘ reprStr o) s) (stringValue s) :=
    fun s hs => element_readable (hfront s hs) n
  obtain ⟨element, more, after', rest', hends, hread, rfl⟩ :=
    Toml.readValue_elements_next helements (starts_reprStr s) h
  intro heq
  unfold stringArray at heq
  rw [Value.array.injEq, List.map_append, List.map_cons] at heq
  have hcons := List.append_cancel_left heq
  exact readValue_not_readable hs hends hread (List.cons.inj hcons).1

end DrbdTests.Generator
