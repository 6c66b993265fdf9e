import DrbdTests.Lib.Toml.Reader

/-!
# Where the keys of a document stand

The keys of a statement stand in the line where the statement starts. A key that needs quotes
has fewer characters that are not bare than that line: the quotes, and the signs of the
statement, are not bare either (`readStatement_line`). The statements start where lines start
(`readStatements_start`), for every reader of other values that goes forward.
-/

namespace Toml

/-- The number of the characters that need quotes in a key. -/
def rough (text : List Char) : Nat := text.countP fun c => !isBare c

/-- The number of brackets, or of equals signs. -/
def Statement.marks : Statement → Nat
  | .table _ => 2
  | .tables _ => 4
  | .assign _ _ => 1

/-- The line that starts at the start of a text. -/
def lineOf (text : List Char) : List Char := text.takeWhile (· ≠ '\n')

/-- What is left is a part of the text. -/
def Forward {α : Type} (read : List Char → Option (α × List Char)) : Prop :=
  ∀ text a rest, read text = some (a, rest) → rest <:+ text

variable {other : List Char → Option (Value × List Char)} {text rest raw : List Char}

@[simp] theorem rough_nil : rough [] = 0 := rfl

@[simp] theorem rough_append (a b : List Char) : rough (a ++ b) = rough a + rough b :=
  List.countP_append

theorem rough_cons (c : Char) (l : List Char) :
    rough (c :: l) = rough l + if isBare c then 0 else 1 := by
  rw [rough, List.countP_cons, rough]
  cases isBare c <;> rfl

theorem rough_cons_of_not {c : Char} (h : isBare c = false) (l : List Char) :
    rough (c :: l) = rough l + 1 := by
  rw [rough_cons, h]
  rfl

theorem rough_le_cons (c : Char) (l : List Char) : rough l ≤ rough (c :: l) := by
  rw [rough_cons]
  omega

theorem rough_cons_le (c : Char) (l : List Char) : rough (c :: l) ≤ rough l + 1 := by
  rw [rough_cons]
  split_ifs <;> omega

theorem rough_le_of_prefix {a b : List Char} (h : a <+: b) : rough a ≤ rough b := by
  obtain ⟨c, rfl⟩ := h
  rw [rough_append]
  omega

theorem Bare.rough_eq {key : Key} (h : Bare key) : rough key = 0 := by
  rw [rough, List.countP_eq_zero]
  intro c hc
  simp [h.bare c hc]

/-- A text without newlines at the start of a text is at the start of its line. -/
theorem prefix_lineOf (hraw : '\n' ∉ raw) (rest : List Char) : raw <+: lineOf (raw ++ rest) := by
  have hall : ∀ c ∈ raw, decide (c ≠ '\n') = true := by
    intro c hc
    rw [decide_eq_true_eq]
    rintro rfl
    exact hraw hc
  rw [lineOf, List.takeWhile_append_of_pos hall]
  exact List.prefix_append _ _

/-! ## Keys -/

theorem not_mem_cons {c d : Char} {l : List Char} (hc : c ≠ d) (hl : d ∉ l) : d ∉ c :: l := by
  rw [List.mem_cons]
  rintro (rfl | h)
  · exact hc rfl
  · exact hl h

theorem isText_ne {c : Char} (h : isText c = true) : c ≠ '\n' := by
  rintro rfl
  cases h

/-- An escape stands for one character, and starts with a backslash. -/
theorem readBasic_raw {position : Position} {s : List Char}
    (h : readBasic position text = some (s, rest)) : ∃ raw, text = raw ++ '"' :: rest ∧
      '\n' ∉ raw ∧ rough s ≤ rough raw + if position = .plain then 0 else 1 := by
  induction text generalizing position s with
  | nil => cases position <;> cases h
  | cons c text ih =>
    cases position with
    | plain =>
      rw [readBasic] at h
      split_ifs at h with hquote hslash htext
      · cases h
        exact ⟨[], by rw [hquote]; rfl, List.not_mem_nil, by simp⟩
      · obtain ⟨raw, rfl, hraw, hrough⟩ := ih h
        refine ⟨c :: raw, rfl, not_mem_cons (by rw [hslash]; decide) hraw, ?_⟩
        rw [rough_cons_of_not (by rw [hslash]; decide)]
        exact hrough
      · obtain ⟨⟨s', rest'⟩, hread, heq⟩ := Option.map_eq_some_iff.mp h
        cases heq
        obtain ⟨raw, rfl, hraw, hrough⟩ := ih hread
        refine ⟨c :: raw, rfl, not_mem_cons (isText_ne htext) hraw, ?_⟩
        simp only [rough_cons, if_true] at hrough ⊢
        omega
    | escape =>
      rw [readBasic] at h
      split_ifs at h with hu hU
      · obtain ⟨raw, rfl, hraw, hrough⟩ := ih h
        refine ⟨c :: raw, rfl, not_mem_cons (by rw [hu]; decide) hraw, ?_⟩
        exact hrough.trans (Nat.add_le_add_right (rough_le_cons c raw) 1)
      · obtain ⟨raw, rfl, hraw, hrough⟩ := ih h
        refine ⟨c :: raw, rfl, not_mem_cons (by rw [hU]; decide) hraw, ?_⟩
        exact hrough.trans (Nat.add_le_add_right (rough_le_cons c raw) 1)
      · rcases hshort : shortEscape c with _ | d
        · rw [hshort] at h
          cases h
        rw [hshort] at h
        obtain ⟨⟨s', rest'⟩, hread, heq⟩ := Option.map_eq_some_iff.mp h
        cases heq
        obtain ⟨raw, rfl, hraw, hrough⟩ := ih hread
        have hnewline : c ≠ '\n' := by
          rintro rfl
          cases hshort
        refine ⟨c :: raw, rfl, not_mem_cons hnewline hraw, ?_⟩
        have hs := rough_cons_le d s'
        have hle := rough_le_cons c raw
        simp only [if_true] at hrough
        rw [if_neg (by decide)]
        dsimp only
        omega
    | hex left value =>
      have hnewline : c ≠ '\n' := by
        rintro rfl
        have hnone : hexValue '\n' = none := by decide
        simp only [readBasic, hnone] at h
        cases h
      rcases hdigit : hexValue c with _ | d
      · simp only [readBasic, hdigit] at h
        cases h
      cases left with
      | succ left =>
        rw [readBasic_hex_succ hdigit] at h
        obtain ⟨raw, rfl, hraw, hrough⟩ := ih h
        refine ⟨c :: raw, rfl, not_mem_cons hnewline hraw, ?_⟩
        exact hrough.trans (Nat.add_le_add_right (rough_le_cons c raw) 1)
      | zero =>
        simp only [readBasic, hdigit] at h
        split_ifs at h with hvalid
        obtain ⟨⟨s', rest'⟩, hread, heq⟩ := Option.map_eq_some_iff.mp h
        cases heq
        obtain ⟨raw, rfl, hraw, hrough⟩ := ih hread
        refine ⟨c :: raw, rfl, not_mem_cons hnewline hraw, ?_⟩
        have hs := rough_cons_le (Char.ofNat (16 * value + d)) s'
        have hle := rough_le_cons c raw
        simp only [if_true] at hrough
        rw [if_neg (by simp)]
        dsimp only
        omega

/-- A part of a key that is not bare stands in quotes. -/
theorem readPart_raw {key : Key} (h : readPart text = some (key, rest)) :
    ∃ raw, text = raw ++ rest ∧ '\n' ∉ raw ∧ (Bare key ∨ rough key + 2 ≤ rough raw) := by
  cases text with
  | nil => cases h
  | cons c text =>
    rw [readPart] at h
    split_ifs at h with hquote hquote
    · obtain ⟨raw, rfl, hraw, hrough⟩ := readBasic_raw h
      refine ⟨c :: raw ++ ['"'], by simp, ?_, Or.inr ?_⟩
      · simp [hraw, hquote]
      · rw [rough_append, rough_cons_of_not (by rw [hquote]; decide)]
        change rough key ≤ rough raw + 0 at hrough
        change _ ≤ rough raw + 1 + 1
        omega
    · obtain ⟨rfl, hraw, htext⟩ := readLiteral_eq_some h
      refine ⟨c :: key ++ ['\''], by simp, ?_, Or.inr ?_⟩
      · have hkey : '\n' ∉ key := fun hmem => isText_ne (htext _ hmem) rfl
        simp [hkey, hquote]
      · rw [rough_append, rough_cons_of_not (by rw [hquote]; decide)]
        exact le_rfl
    · rw [readBare] at h
      split_ifs at h with hnil
      cases h
      have hbare : ∀ d ∈ (c :: text).takeWhile isBare, isBare d = true := fun d hd =>
        List.mem_takeWhile_imp hd
      refine ⟨_, List.takeWhile_append_dropWhile.symm, ?_, Or.inl ⟨hnil, hbare⟩⟩
      intro hmem
      exact absurd (hbare _ hmem) (by decide)

theorem dropWhile_isBlank_raw (text : List Char) :
    ∃ raw, text = raw ++ text.dropWhile isBlank ∧ '\n' ∉ raw := by
  refine ⟨text.takeWhile isBlank, List.takeWhile_append_dropWhile.symm, ?_⟩
  intro hmem
  exact absurd (List.mem_takeWhile_imp hmem) (by decide)

/-- There is a dot between two parts. -/
theorem readKeys_raw {n : Nat} {keys : List Key} (h : readKeys n text = some (keys, rest)) :
    ∃ raw, text = raw ++ rest ∧ '\n' ∉ raw ∧
      ∀ key ∈ keys, Bare key ∨ rough key + keys.length + 1 ≤ rough raw := by
  have hdots : ∀ {n : Nat} {text rest : List Char} {keys : List Key},
      readKeys n text = some (keys, rest) → ∃ raw, text = raw ++ rest ∧ '\n' ∉ raw ∧
        keys.length ≤ rough raw + 1 ∧
        ∀ key ∈ keys, Bare key ∨ rough key + keys.length + 1 ≤ rough raw := by
    intro n
    induction n with
    | zero =>
      intro text rest keys h
      cases h
    | succ n ih =>
      intro text rest keys h
      rw [readKeys] at h
      rcases hpart : readPart text with _ | ⟨key, after⟩
      · rw [hpart] at h
        cases h
      rw [hpart] at h
      dsimp only at h
      obtain ⟨part, htext, hpartline, hkey⟩ := readPart_raw hpart
      obtain ⟨blanks, hblanks, hblanksline⟩ := dropWhile_isBlank_raw after
      split at h
      · next rest' hdot =>
        obtain ⟨⟨keys', rest''⟩, hread, heq⟩ := Option.map_eq_some_iff.mp h
        cases heq
        obtain ⟨more, hmore, hmoreline, hlength, hkeys⟩ := ih hread
        obtain ⟨blanks', hblanks', hblanksline'⟩ := dropWhile_isBlank_raw rest'
        have hdotrough : rough ('.' :: (blanks' ++ more)) = rough blanks' + rough more + 1 := by
          rw [rough_cons_of_not (by decide), rough_append]
        refine ⟨part ++ blanks ++ '.' :: (blanks' ++ more), ?_, ?_, ?_, ?_⟩
        · rw [htext, hblanks, hdot, hblanks', hmore]
          simp [List.append_assoc]
        · simp [hpartline, hblanksline, hblanksline', hmoreline]
        · simp only [rough_append, hdotrough, List.length_cons]
          omega
        · simp only [rough_append, hdotrough, List.length_cons]
          intro k hk
          rcases List.mem_cons.mp hk with rfl | hk
          · rcases hkey with hbare | hrough
            · exact Or.inl hbare
            · exact Or.inr (by omega)
          · rcases hkeys k hk with hbare | hrough
            · exact Or.inl hbare
            · exact Or.inr (by omega)
      · cases h
        refine ⟨part ++ blanks, by rw [htext, List.append_assoc, ← hblanks], ?_, ?_, ?_⟩
        · simp [hpartline, hblanksline]
        · simp
        · intro k hk
          rw [List.mem_singleton.mp hk]
          rcases hkey with hbare | hrough
          · exact Or.inl hbare
          · refine Or.inr ?_
            rw [rough_append, List.length_singleton]
            omega
  obtain ⟨raw, htext, hraw, _, hkeys⟩ := hdots h
  exact ⟨raw, htext, hraw, hkeys⟩

/-! ## What is left -/

theorem skipFrom_suffix (comment : Bool) (text : List Char) : skipFrom comment text <:+ text := by
  induction text generalizing comment with
  | nil => exact List.suffix_rfl
  | cons c text ih =>
    rw [skipFrom]
    split_ifs
    · exact (ih _).trans (List.suffix_cons c text)
    · exact (ih _).trans (List.suffix_cons c text)
    · exact List.suffix_rfl
    · exact (ih _).trans (List.suffix_cons c text)
    · exact (ih _).trans (List.suffix_cons c text)
    · exact List.suffix_rfl

theorem Forward.map {α β : Type} {read : List Char → Option (α × List Char)} (h : Forward read)
    {f : α → β} {b : β} (hread : (read text).map (fun p => (f p.1, p.2)) = some (b, rest)) :
    rest <:+ text := by
  obtain ⟨⟨a, rest'⟩, hsome, heq⟩ := Option.map_eq_some_iff.mp hread
  cases heq
  exact h _ _ _ hsome

theorem readBasic_forward (position : Position) : Forward (readBasic position) := by
  intro text s rest h
  obtain ⟨raw, rfl, _⟩ := readBasic_raw h
  exact ⟨raw ++ ['"'], by simp⟩

theorem readLiteral_forward : Forward readLiteral := by
  intro text s rest h
  obtain ⟨rfl, _⟩ := readLiteral_eq_some h
  exact ⟨s ++ ['\''], by simp⟩

theorem readKeys_forward (n : Nat) : Forward (readKeys n) := by
  intro text keys rest h
  obtain ⟨raw, rfl, _⟩ := readKeys_raw h
  exact List.suffix_append _ _

theorem readElements_forward {read : List Char → Option (Value × List Char)} (h : Forward read)
    (n : Nat) : Forward (readElements read n) := by
  induction n with
  | zero =>
    intro text values rest hread
    cases hread
  | succ n ih =>
    intro text values rest hread
    have hskip : skip text <:+ text := skipFrom_suffix false text
    rw [readElements] at hread
    split_ifs at hread with hclose
    · cases hread
      exact (List.tail_suffix _).trans hskip
    · rcases hvalue : read (skip text) with _ | ⟨value, after⟩
      · rw [hvalue] at hread
        cases hread
      rw [hvalue] at hread
      dsimp only at hread
      have hafter : skip after <:+ text :=
        ((skipFrom_suffix false after).trans (h _ _ _ hvalue)).trans hskip
      split at hread
      · next hcomma =>
        rw [hcomma] at hafter
        exact (ih.map hread).trans ((List.suffix_cons _ _).trans hafter)
      · next hbracket =>
        rw [hbracket] at hafter
        cases hread
        exact (List.suffix_cons _ _).trans hafter
      · cases hread

theorem readValue_forward (h : Forward other) (n : Nat) : Forward (readValue other n) := by
  induction n with
  | zero =>
    intro text value rest hread
    cases hread
  | succ n ih =>
    intro text value rest hread
    cases text with
    | nil => cases hread
    | cons c text =>
      have hcons : text <:+ c :: text := List.suffix_cons c text
      rw [readValue] at hread
      split_ifs at hread
      · exact h _ _ _ hread
      · exact ((readBasic_forward .plain).map hread).trans hcons
      · exact h _ _ _ hread
      · exact (readLiteral_forward.map hread).trans hcons
      · exact ((readElements_forward ih _).map hread).trans hcons
      · rw [readScalar] at hread
        split_ifs at hread
        · cases hread
          exact List.dropWhile_suffix _
        · cases hread
          exact List.dropWhile_suffix _
        · split at hread
          · cases hread
            exact List.dropWhile_suffix _
          · exact h _ _ _ hread

/-! ## Statements -/

/-- The three kinds of statements. -/
theorem readStatement_cases {statement : Statement}
    (h : readStatement other text = some (some statement, rest)) :
    (∃ body keys, text.dropWhile isBlank = '[' :: '[' :: body ∧
      readHeader [']', ']'] body = some (keys, rest) ∧ statement = .tables keys) ∨
    (∃ body keys, text.dropWhile isBlank = '[' :: body ∧ body.head? ≠ some '[' ∧
      readHeader [']'] body = some (keys, rest) ∧ statement = .table keys) ∨
    (text.dropWhile isBlank).head? ≠ some '[' ∧
      readAssign other (text.dropWhile isBlank) = some (statement, rest) := by
  rw [readStatement] at h
  split at h
  · cases h
  · next body hbody =>
    obtain ⟨⟨keys, rest'⟩, hread, heq⟩ := Option.map_eq_some_iff.mp h
    cases heq
    exact Or.inl ⟨body, keys, hbody, hread, rfl⟩
  · next body hnot hbody =>
    obtain ⟨⟨keys, rest'⟩, hread, heq⟩ := Option.map_eq_some_iff.mp h
    cases heq
    refine Or.inr (Or.inl ⟨body, keys, hbody, ?_, hread, rfl⟩)
    intro hhead
    cases body with
    | nil => cases hhead
    | cons c body =>
      cases hhead
      exact hnot _ rfl
  · next c body hnot hbody =>
    split_ifs at h
    · cases h
    · obtain ⟨⟨statement', rest'⟩, hread, heq⟩ := Option.map_eq_some_iff.mp h
      cases heq
      refine Or.inr (Or.inr ⟨?_, ?_⟩)
      · rw [hbody]
        rintro ⟨⟩
        exact hnot rfl
      · rw [hbody]
        exact hread

theorem readHeader_raw {close : List Char} (hclose : '\n' ∉ close) {keys : List Key}
    (h : readHeader close text = some (keys, rest)) : ∃ raw, text = raw ++ rest ∧ '\n' ∉ raw ∧
      ∀ key ∈ keys, Bare key ∨ rough key + keys.length + 1 + rough close ≤ rough raw := by
  rw [readHeader] at h
  rcases hkeys : readKeys text.length (text.dropWhile isBlank) with _ | ⟨keys', after⟩
  · rw [hkeys] at h
    cases h
  rw [hkeys] at h
  obtain ⟨rest', hprefix, heq⟩ := Option.map_eq_some_iff.mp h
  cases heq
  obtain ⟨blanks, hblanks, hblanksline⟩ := dropWhile_isBlank_raw text
  obtain ⟨raw, hraw, hrawline, hrough⟩ := readKeys_raw hkeys
  have hafter := Text.afterPrefix_eq_some hprefix
  refine ⟨blanks ++ raw ++ close, ?_, by simp [hblanksline, hrawline, hclose], ?_⟩
  · rw [List.append_assoc, List.append_assoc, ← hafter, ← hraw, ← hblanks]
  · intro key hkey
    rcases hrough key hkey with hbare | hle
    · exact Or.inl hbare
    · refine Or.inr ?_
      rw [rough_append, rough_append]
      omega

theorem readAssign_raw {statement : Statement} (h : readAssign other text = some (statement, rest)) :
    ∃ keys value, statement = .assign keys value ∧ ∃ raw, raw <+: text ∧ '\n' ∉ raw ∧
      ∀ key ∈ keys, Bare key ∨ rough key + keys.length + 2 ≤ rough raw := by
  rw [readAssign] at h
  split at h
  · next keys after hkeys =>
    obtain ⟨⟨value, rest'⟩, _, heq⟩ := Option.map_eq_some_iff.mp h
    cases heq
    obtain ⟨raw, hraw, hrawline, hrough⟩ := readKeys_raw hkeys
    refine ⟨keys, value, rfl, raw ++ ['='], ⟨after, by rw [hraw]; simp⟩, by simp [hrawline], ?_⟩
    intro key hkey
    rcases hrough key hkey with hbare | hle
    · exact Or.inl hbare
    · refine Or.inr ?_
      rw [rough_append]
      exact Nat.add_le_add_right hle 1
  · cases h

/-- The keys of a statement stand in its first line, in quotes if they are not bare. -/
theorem readStatement_line {statement : Statement}
    (h : readStatement other text = some (some statement, rest)) :
    ∀ key ∈ statement.keys, Bare key ∨
      rough key + statement.keys.length + 1 + statement.marks ≤ rough (lineOf text) := by
  obtain ⟨blanks, hblanks, hblanksline⟩ := dropWhile_isBlank_raw text
  have hline : ∀ raw, raw <+: text.dropWhile isBlank → '\n' ∉ raw →
      rough raw ≤ rough (lineOf text) := by
    rintro raw ⟨more, hmore⟩ hraw
    have hprefix : blanks ++ raw <+: lineOf (blanks ++ raw ++ more) :=
      prefix_lineOf (by simp [hblanksline, hraw]) more
    rw [List.append_assoc, hmore, ← hblanks] at hprefix
    have hle := rough_le_of_prefix hprefix
    rw [rough_append] at hle
    omega
  have hbound : ∀ {keys : List Key} {marks : Nat} {raw : List Char},
      raw <+: text.dropWhile isBlank → '\n' ∉ raw →
      (∀ key ∈ keys, Bare key ∨ rough key + keys.length + 1 + marks ≤ rough raw) →
      ∀ key ∈ keys, Bare key ∨ rough key + keys.length + 1 + marks ≤ rough (lineOf text) := by
    intro keys marks raw hprefix hraw hkeys key hkey
    exact (hkeys key hkey).imp_right fun hle => hle.trans (hline raw hprefix hraw)
  rcases readStatement_cases h with ⟨body, keys, hbody, hread, rfl⟩ |
    ⟨body, keys, hbody, _, hread, rfl⟩ | ⟨_, hread⟩
  · obtain ⟨raw, hraw, hrawline, hkeys⟩ := readHeader_raw (by decide) hread
    have hprefix : '[' :: '[' :: raw <+: text.dropWhile isBlank := by
      rw [hbody, hraw]
      exact ⟨rest, rfl⟩
    refine hbound hprefix (by simp [hrawline]) ?_
    intro key hkey
    refine (hkeys key hkey).imp_right fun hle => ?_
    have hclose : rough [']', ']'] = 2 := rfl
    rw [rough_cons_of_not (by decide), rough_cons_of_not (by decide)]
    change rough key + keys.length + 1 + 4 ≤ _
    omega
  · obtain ⟨raw, hraw, hrawline, hkeys⟩ := readHeader_raw (by decide) hread
    have hprefix : '[' :: raw <+: text.dropWhile isBlank := by
      rw [hbody, hraw]
      exact ⟨rest, rfl⟩
    refine hbound hprefix (by simp [hrawline]) ?_
    intro key hkey
    refine (hkeys key hkey).imp_right fun hle => ?_
    have hclose : rough [']'] = 1 := rfl
    rw [rough_cons_of_not (by decide)]
    change rough key + keys.length + 1 + 2 ≤ _
    omega
  · obtain ⟨keys, value, rfl, raw, hprefix, hraw, hkeys⟩ := readAssign_raw hread
    exact hbound hprefix hraw hkeys

theorem readStatement_forward (hother : Forward other) : Forward (readStatement other) := by
  intro text statement rest h
  have hblanks : text.dropWhile isBlank <:+ text := List.dropWhile_suffix _
  cases statement with
  | none =>
    rw [readStatement] at h
    split at h
    · cases h
      exact List.nil_suffix
    · obtain ⟨_, _, heq⟩ := Option.map_eq_some_iff.mp h
      cases heq
    · obtain ⟨_, _, heq⟩ := Option.map_eq_some_iff.mp h
      cases heq
    · next hbody =>
      split_ifs at h
      · cases h
        rw [← hbody]
        exact hblanks
      · obtain ⟨_, _, heq⟩ := Option.map_eq_some_iff.mp h
        cases heq
  | some statement =>
    rcases readStatement_cases h with ⟨body, keys, hbody, hread, rfl⟩ |
      ⟨body, keys, hbody, _, hread, rfl⟩ | ⟨_, hread⟩
    · obtain ⟨raw, hraw, _⟩ := readHeader_raw (by decide) hread
      refine List.IsSuffix.trans ⟨'[' :: '[' :: raw, ?_⟩ hblanks
      rw [hbody, hraw]
      rfl
    · obtain ⟨raw, hraw, _⟩ := readHeader_raw (by decide) hread
      refine List.IsSuffix.trans ⟨'[' :: raw, ?_⟩ hblanks
      rw [hbody, hraw]
      rfl
    · rw [readAssign] at hread
      split at hread
      · next keys after hkeys =>
        have hafter := ((List.suffix_cons '=' after).trans (readKeys_forward _ _ _ _ hkeys)).trans hblanks
        have hvalue := (readValue_forward hother _).map hread
        exact (hvalue.trans (List.dropWhile_suffix _)).trans hafter
      · cases hread

/-! ## Lines -/

/-- A line of the whole text starts here. -/
def LineStart (whole text : List Char) : Prop :=
  ∃ front, whole = front ++ text ∧ (front = [] ∨ ['\n'] <:+ front)

theorem endLine_eq_some (h : endLine text = some rest) :
    rest = [] ∨ ∃ front, text = front ++ '\n' :: rest := by
  have hsuffix : (if (text.dropWhile isBlank).head? = some '#'
      then (text.dropWhile isBlank).dropWhile isText else text.dropWhile isBlank) <:+ text := by
    split_ifs
    · exact (List.dropWhile_suffix _).trans (List.dropWhile_suffix _)
    · exact List.dropWhile_suffix _
  rw [endLine] at h
  obtain ⟨front, hfront⟩ := hsuffix
  split at h
  · cases h
    exact Or.inl rfl
  · next heq =>
    cases h
    rw [heq] at hfront
    exact Or.inr ⟨front, hfront.symm⟩
  · next heq =>
    cases h
    rw [heq] at hfront
    exact Or.inr ⟨front ++ ['\r'], by rw [← hfront]; simp⟩
  · cases h

/-- Each statement starts where a line starts. -/
theorem readStatements_start (hother : Forward other) {whole : List Char} {n : Nat}
    {statements : List Statement} (hstart : LineStart whole text)
    (h : readStatements other n text = some statements) :
    ∀ statement ∈ statements, ∃ text rest, LineStart whole text ∧
      readStatement other text = some (some statement, rest) := by
  induction n generalizing text statements with
  | zero =>
    cases text with
    | nil =>
      cases h
      simp
    | cons c text => cases h
  | succ n ih =>
    cases text with
    | nil =>
      cases h
      simp
    | cons c text =>
      rw [readStatements] at h
      rcases hread : readStatement other (c :: text) with _ | ⟨first, after⟩
      · rw [hread] at h
        cases h
      rw [hread] at h
      dsimp only at h
      rcases hend : endLine after with _ | next
      · rw [hend] at h
        cases h
      rw [hend] at h
      obtain ⟨more, hmore, heq⟩ := Option.map_eq_some_iff.mp h
      subst heq
      have hrest : ∀ statement ∈ more, ∃ text rest, LineStart whole text ∧
          readStatement other text = some (some statement, rest) := by
        rcases endLine_eq_some hend with rfl | ⟨front, rfl⟩
        · cases n <;> cases hmore <;> simp
        · refine ih ?_ hmore
          obtain ⟨before, hbefore, _⟩ := hstart
          obtain ⟨raw, hraw⟩ := readStatement_forward hother _ _ _ hread
          exact ⟨before ++ raw ++ (front ++ ['\n']), by rw [hbefore, ← hraw]; simp,
            Or.inr ⟨before ++ raw ++ front, by simp⟩⟩
      intro statement hmem
      rcases List.mem_append.mp hmem with hfirst | hmem
      · cases first with
        | none => cases hfirst
        | some first =>
          rw [Option.toList_some, List.mem_singleton] at hfirst
          subst hfirst
          exact ⟨c :: text, after, hstart, hread⟩
      · exact hrest statement hmem

/-- A line of a text that is made of lines: where it starts in one of them. -/
theorem LineStart.exists_line {lines : List (List Char)}
    (h : LineStart (lines.flatMap (· ++ ['\n'])) text) (htext : text ≠ []) :
    ∃ line ∈ lines, ∃ front back more, line = front ++ back ∧
      (front = [] ∨ ['\n'] <:+ front) ∧ text = back ++ '\n' :: more := by
  induction lines with
  | nil =>
    obtain ⟨front, hfront, _⟩ := h
    rw [List.flatMap_nil] at hfront
    exact absurd (List.append_eq_nil_iff.mp hfront.symm).2 htext
  | cons line lines ih =>
    obtain ⟨front, hfront, hstart⟩ := h
    rw [List.flatMap_cons, List.append_assoc] at hfront
    rcases List.append_eq_append_iff.mp hfront with ⟨more, hfront, hmore⟩ | ⟨back, hline, hback⟩
    · cases more with
      | nil =>
        rw [List.append_nil] at hfront
        exact ⟨line, List.mem_cons_self, line, [], _, (List.append_nil _).symm,
          hfront ▸ hstart, hmore.symm⟩
      | cons c more =>
        obtain ⟨rfl, hlines⟩ := List.cons.inj hmore
        have hrest : LineStart (lines.flatMap (· ++ ['\n'])) text := by
          refine ⟨more, hlines, ?_⟩
          rcases hstart with hnil | hsuffix
          · rw [hnil] at hfront
            simp at hfront
          · cases more with
            | nil => exact Or.inl rfl
            | cons d more =>
              refine Or.inr ?_
              have hlast : d :: more <:+ front := by
                rw [hfront]
                exact ⟨line ++ ['\n'], by simp⟩
              exact List.suffix_of_suffix_length_le hsuffix hlast (by simp)
        obtain ⟨line', hmem, found⟩ := ih hrest
        exact ⟨line', List.mem_cons_of_mem _ hmem, found⟩
    · exact ⟨line, List.mem_cons_self, front, back, _, hline, hstart, hback⟩

theorem lineOf_newline (back more : List Char) : lineOf (back ++ '\n' :: more) <+: back := by
  induction back with
  | nil => exact List.prefix_rfl
  | cons c back ih =>
    rw [lineOf, List.cons_append, List.takeWhile_cons]
    split_ifs
    · exact List.cons_prefix_cons.mpr ⟨rfl, ih⟩
    · exact List.nil_prefix

/-- Only the first line of a text has what is written in front of it. -/
theorem rough_back {opening middle front back : List Char} (hline : '\n' ∉ opening)
    (htext : opening ++ middle = front ++ back) (hfront : front = [] ∨ ['\n'] <:+ front) :
    front = [] ∨ rough back + 1 ≤ rough middle := by
  rcases hfront with hnil | ⟨before, hbefore⟩
  · exact Or.inl hnil
  refine Or.inr ?_
  have hnewline : rough ['\n'] = 1 := rfl
  have hprefix : opening <+: front := by
    refine List.prefix_of_prefix_length_le (List.prefix_append opening middle)
      (htext ▸ List.prefix_append front back) ?_
    by_contra hlt
    have hshort : front <+: opening :=
      List.prefix_of_prefix_length_le (htext ▸ List.prefix_append front back)
        (List.prefix_append opening middle) (by omega)
    exact hline (hshort.subset (hbefore ▸ List.mem_append_right _ List.mem_cons_self))
  obtain ⟨after, rfl⟩ := hprefix
  rw [List.append_assoc] at htext
  rw [List.append_cancel_left htext, rough_append]
  have hafter : 0 < rough after := by
    rcases List.eq_nil_or_concat after with rfl | ⟨init, last, rfl⟩
    · rw [List.append_nil] at hbefore
      exact absurd (hbefore ▸ List.mem_append_right _ List.mem_cons_self) hline
    · rw [List.concat_eq_append, ← List.append_assoc] at hbefore
      have hlast := (List.append_inj' hbefore rfl).2
      rw [List.concat_eq_append, ← hlast, rough_append]
      omega
  omega

end Toml
