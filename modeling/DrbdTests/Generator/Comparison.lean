import DrbdTests.Generator.Generate

/-!
# Comparing versions

`is_lower` as an order. On the versions in use it is a strict weak order
(`isLower_weak_order`). A development build is above the releases of its series and below the
next one, unless `parse_version` takes its commit for a number (`development_build_iff`).
Versions with other strings in them need not be comparable (`isLower_returns_iff`). The two
places where `main` applies a minimum version ask in opposite directions, and differ on ties
(`gates_agree_iff`).
-/

namespace DrbdTests.Generator

/-- `is_lower` says that the version is lower. -/
def Lower (v w : Version) : Prop := isLower v w = .ok true

instance (v w : Version) : Decidable (Lower v w) := inferInstanceAs (Decidable (_ = _))

variable {u v w : Version}

/-! ## A weak order -/

theorem lower_iff (hv : ∀ e ∈ v, e.Comparable) (hw : ∀ e ∈ w, e.Comparable) :
    Lower v w ↔ key v < key w := by
  rw [Lower, isLower_eq hv hw]
  simp

theorem key_append (h : .text "*" ∉ v) (w : Version) : key (v ++ w) = key v ++ key w := by
  induction v with
  | nil => rfl
  | cons e v ih =>
    have hne : e ≠ .text "*" := fun he => h (he ▸ List.mem_cons_self)
    have hrest := ih fun hmem => h (List.mem_cons_of_mem _ hmem)
    rw [List.cons_append, key_cons hne, key_cons hne, hrest, List.cons_append]

/-- What follows a `*` is ignored. -/
theorem key_append_star (v w : Version) :
    key (v ++ .text "*" :: w) = key (v ++ [.text "*"]) := by
  induction v with
  | nil => rw [List.nil_append, List.nil_append, key_star, key_star]
  | cons e v ih =>
    by_cases he : e = .text "*"
    · rw [List.cons_append, List.cons_append, he, key_star, key_star]
    · rw [List.cons_append, List.cons_append, key_cons he, key_cons he, ih]

theorem key_eq_nil : key v = [] ↔ v = [] := by
  cases v with
  | nil => exact iff_of_true rfl rfl
  | cons e v =>
    by_cases he : e = .text "*"
    · simp [he]
    · simp [key_cons he]

/-- A proper prefix is lower. -/
theorem key_lt_append (h : .text "*" ∉ v) (hw : w ≠ []) : key v < key (v ++ w) := by
  rw [key_append h]
  obtain ⟨r, k, hk⟩ := List.exists_cons_of_ne_nil (mt key_eq_nil.mp hw)
  rw [hk]
  generalize key v = l
  induction l with
  | nil => exact List.nil_lt_cons r k
  | cons a l ih => exact List.cons_lt_cons_iff.mpr (.inr ⟨rfl, ih⟩)

/-- `is_lower` is the lexicographic order of the keys, and so a strict weak order. What follows
the first `*` is ignored, and a list is below its extensions. -/
theorem isLower_weak_order (hu : ∀ e ∈ u, e.Comparable) (hv : ∀ e ∈ v, e.Comparable)
    (hw : ∀ e ∈ w, e.Comparable) :
    (isLower v w = .ok (decide (key v < key w)) ∧
      (∀ front rest, v = front ++ .text "*" :: rest → key v = key (front ++ [.text "*"])) ∧
      (.text "*" ∉ v → w ≠ [] → Lower v (v ++ w))) ∧
    ¬ Lower v v ∧
    (Lower v w → ¬ Lower w v) ∧
    (Lower u v → Lower v w → Lower u w) ∧
    (¬ Lower u v ∧ ¬ Lower v u → ¬ Lower v w ∧ ¬ Lower w v → ¬ Lower u w ∧ ¬ Lower w u) := by
  rw [lower_iff hv hv, lower_iff hv hw, lower_iff hw hv, lower_iff hu hv, lower_iff hv hu,
    lower_iff hu hw, lower_iff hw hu]
  refine ⟨⟨isLower_eq hv hw, ?_, ?_⟩, lt_irrefl _, lt_asymm, lt_trans, ?_⟩
  · rintro front rest rfl
    exact key_append_star front rest
  · intro hstar hne
    have happend : ∀ e ∈ v ++ w, e.Comparable := by
      intro e he
      rcases List.mem_append.mp he with he | he
      · exact hv e he
      · exact hw e he
    exact (lower_iff hv happend).mpr (key_lt_append hstar hne)
  · rintro ⟨huv, hvu⟩ ⟨hvw, hwv⟩
    have heq₁ : key u = key v := le_antisymm (not_lt.mp hvu) (not_lt.mp huv)
    have heq₂ : key v = key w := le_antisymm (not_lt.mp hwv) (not_lt.mp hvw)
    rw [heq₁, heq₂]
    exact ⟨lt_irrefl _, lt_irrefl _⟩

theorem isLower_weak_order_wildcard :
    Lower [.number 9, .number 2] [.number 9, .text "*", .number 1] :=
  (isLower_weak_order (u := [.number 9, .number 2]) (v := [.number 9, .infinity])
    (w := [.number 9, .text "*", .number 1]) (by decide) (by decide) (by decide)).2.2.2.1
    (by decide) (by decide)

/-! ## Development builds -/

/-- The names of development builds: `latest`, and commit hashes. -/
def IsBuild (build : String) : Prop :=
  build = "latest" ∨ (build.toList.length = 40 ∨ build.toList.length = 64) ∧
    ∀ c ∈ build.toList, c ∈ "0123456789abcdef".toList

instance (build : String) : Decidable (IsBuild build) := inferInstanceAs (Decidable (_ ∨ _))

/-- The version of a development build. -/
def development (major minor : Nat) (build : String) : Version :=
  parseVersion (toString major ++ "." ++ toString minor ++ ".0." ++ build)

/-- The version of a release. -/
def release (numbers : List Nat) : Version := numbers.map .number

/-- The version is above all releases of its series, and below those of the later ones. -/
structure AboveReleases (major minor : Nat) (v : Version) : Prop where
  above : ∀ patch rest, isLower (release (major :: minor :: patch :: rest)) v = .ok true ∧
    isLower v (release (major :: minor :: patch :: rest)) = .ok false
  below : ∀ major' minor' rest, major < major' ∨ major = major' ∧ minor < minor' →
    isLower v (release (major' :: minor' :: rest)) = .ok true ∧
    isLower (release (major' :: minor' :: rest)) v = .ok false

variable {major minor n : Nat} {build : String}

theorem IsBuild.dot (h : IsBuild build) : '.' ∉ build.toList := by
  rcases h with rfl | ⟨-, hhex⟩
  · decide
  · intro hdot
    exact absurd (hhex _ hdot) (by decide)

theorem not_mem_toString {c : Char} (hc : c.isDigit = false) (n : Nat) :
    c ∉ (toString n).toList := by
  rw [Nat.toString_eq_ofList_toDigits, String.toList_ofList]
  intro hmem
  rw [Nat.isDigit_of_mem_toDigits (by omega) (by omega) hmem] at hc
  cases hc

theorem development_split (h : IsBuild build) :
    (toString major ++ "." ++ toString minor ++ ".0." ++ build).toList.splitOn '.' =
      [(toString major).toList, (toString minor).toList, ['0'], build.toList] := by
  have hjoin : (toString major ++ "." ++ toString minor ++ ".0." ++ build).toList =
      List.intercalate ['.']
        [(toString major).toList, (toString minor).toList, ['0'], build.toList] := by
    simp [List.intercalate]
  rw [hjoin]
  refine List.splitOn_intercalate '.' ?_ (List.cons_ne_nil _ _)
  intro l hl
  simp only [List.mem_cons, List.not_mem_nil, or_false] at hl
  rcases hl with rfl | rfl | rfl | rfl
  · exact not_mem_toString (c := '.') (by decide) major
  · exact not_mem_toString (c := '.') (by decide) minor
  · decide
  · exact h.dot

theorem parseElement_toString (n : Nat) : parseElement (toString n).toList = .number n := by
  rw [parseElement, Text.decimal_toString]

/-- A build whose name is a number is taken for a release. -/
theorem development_eq (h : IsBuild build) :
    development major minor build = match Text.decimal build.toList with
      | some n => [.number major, .number minor, .number 0, .number n]
      | none => [.number major, .number minor, .infinity] := by
  have hzero : parseElement ['0'] = .number 0 := by decide
  unfold development parseVersion
  rw [development_split h, List.map_cons, List.map_cons, List.map_cons, List.map_cons,
    List.map_nil, parseElement_toString, parseElement_toString, hzero, parseElement]
  cases hdecimal : Text.decimal build.toList with
  | some n => simp [isCommitSha]
  | none =>
    rw [String.ofList_toList]
    have hmarker : Element.text build = .text "latest" ∨ isCommitSha (.text build) := by
      rcases h with rfl | ⟨hlength, hhex⟩
      · exact .inl rfl
      · refine .inr ?_
        simpa [isCommitSha, hlength] using hhex
    simp only [hmarker, if_true]

theorem decimal_eq_none {c : Char} {text : List Char} (hmem : c ∈ text)
    (hc : Text.decimalValue c = none) : Text.decimal text = none := by
  rw [Text.decimal, if_neg]
  rintro ⟨-, hall⟩
  have hsome := List.all_eq_true.mp hall c hmem
  rw [hc] at hsome
  cases hsome

/-- The name of a build is a number exactly when it has digits only. -/
theorem IsBuild.decimal_eq_none_iff (h : IsBuild build) :
    Text.decimal build.toList = none ↔ ∃ c ∈ build.toList, c.isDigit = false := by
  rcases h with rfl | ⟨hlength, hhex⟩
  · decide
  constructor
  · intro hnone
    by_contra hdigits
    have hall : ∀ c ∈ build.toList, c.isDigit = true := by
      intro c hc
      by_contra hfalse
      exact hdigits ⟨c, hc, Bool.eq_false_iff.mpr hfalse⟩
    rw [Text.decimal, if_pos] at hnone
    · cases hnone
    refine ⟨?_, ?_⟩
    · rintro hnil
      rw [hnil] at hlength
      exact absurd hlength (by decide)
    · rw [List.all_eq_true]
      intro c hc
      rw [Text.decimalValue_digit (hall c hc)]
      rfl
  · rintro ⟨c, hc, hletter⟩
    have hhexLetter : ∀ d ∈ "0123456789abcdef".toList, d.isDigit = false →
        Text.decimalValue d = none := by
      decide
    exact decimal_eq_none hc (hhexLetter c (hhex c hc) hletter)

theorem release_comparable (numbers : List Nat) : ∀ e ∈ release numbers, e.Comparable := by
  intro e he
  obtain ⟨n, -, rfl⟩ := List.mem_map.mp he
  exact trivial

theorem key_number (n : Nat) (v : Version) :
    key (.number n :: v) = Element.rank (.number n) :: key v := key_cons Element.noConfusion

theorem rank_number_lt {m n : Nat} : Element.rank (.number m) < Element.rank (.number n) ↔ m < n := by
  simp [Element.rank]

theorem rank_number_inj {m n : Nat} : Element.rank (.number m) = Element.rank (.number n) ↔ m = n := by
  simp [Element.rank]

theorem aboveReleases_infinity : AboveReleases major minor [.number major, .number minor, .infinity] := by
  have hv : ∀ e ∈ [.number major, .number minor, Element.infinity], e.Comparable := by
    intro e he
    simp only [List.mem_cons, List.not_mem_nil, or_false] at he
    rcases he with rfl | rfl | rfl
    · exact trivial
    · exact trivial
    · exact trivial
  have hinfinity : key [Element.infinity] = [Element.rank .infinity] := key_cons Element.noConfusion
  constructor
  · intro patch rest
    have hlt : key (release (major :: minor :: patch :: rest)) <
        key [.number major, .number minor, .infinity] := by
      simp only [release, List.map_cons, key_number, hinfinity, List.cons_lt_cons_iff, true_and,
        lt_irrefl, false_or]
      exact .inl (WithTop.coe_lt_coe.mpr (WithTop.coe_lt_top patch))
    rw [isLower_eq (release_comparable _) hv, isLower_eq hv (release_comparable _),
      decide_eq_true hlt, decide_eq_false hlt.not_gt]
    exact ⟨rfl, rfl⟩
  · intro major' minor' rest hseries
    have hlt : key [.number major, .number minor, .infinity] <
        key (release (major' :: minor' :: rest)) := by
      simp only [release, List.map_cons, key_number, List.cons_lt_cons_iff, rank_number_lt,
        rank_number_inj]
      rcases hseries with hmajor | ⟨hmajor, hminor⟩
      · exact .inl hmajor
      · exact .inr ⟨hmajor, .inl hminor⟩
    rw [isLower_eq (release_comparable _) hv, isLower_eq hv (release_comparable _),
      decide_eq_true hlt, decide_eq_false hlt.not_gt]
    exact ⟨rfl, rfl⟩

/-- The first patch release is above the version 0 of a series. -/
theorem not_aboveReleases_release : ¬ AboveReleases major minor (release [major, minor, 0, n]) := by
  intro h
  have hlower := (h.above 1 []).1
  rw [isLower_eq (release_comparable _) (release_comparable _)] at hlower
  simp [release, key_number, List.cons_lt_cons_iff, rank_number_lt, rank_number_inj] at hlower

/-- A development build is above the releases of its series exactly when there is a letter in
its name. -/
theorem development_build_iff (h : IsBuild build) :
    AboveReleases major minor (development major minor build) ↔
      ∃ c ∈ build.toList, c.isDigit = false := by
  rw [← h.decimal_eq_none_iff, development_eq h]
  cases Text.decimal build.toList with
  | none => exact iff_of_true aboveReleases_infinity rfl
  | some n => exact iff_of_false not_aboveReleases_release (Option.some_ne_none n)

theorem development_build_latest : AboveReleases 9 3 (development 9 3 "latest") :=
  (development_build_iff (show IsBuild "latest" from .inl rfl)).mpr (by decide)

/-- A commit hash in which no letter happens to occur. -/
theorem development_build_digits :
    IsBuild "1234567890123456789012345678901234567890" ∧
    isLower (release [9, 3, 1]) (development 9 3 "1234567890123456789012345678901234567890") =
      .ok false ∧
    ¬ AboveReleases 9 3 (development 9 3 "1234567890123456789012345678901234567890") := by
  have hlower : isLower (release [9, 3, 1])
      (development 9 3 "1234567890123456789012345678901234567890") = .ok false := by
    decide +kernel
  refine ⟨by decide +kernel, hlower, ?_⟩
  intro h
  have habove := (h.above 1 []).1
  rw [hlower] at habove
  cases habove

/-! ## Versions that cannot be compared -/

def Element.isText : Element → Bool
  | .text _ => true
  | _ => false

/-- After a common front without `*`, a string stands against a number. -/
def Clash (v w : Version) : Prop :=
  ∃ front a b v' w', v = front ++ a :: v' ∧ w = front ++ b :: w' ∧
    .text "*" ∉ front ∧ a ≠ .text "*" ∧ b ≠ .text "*" ∧ a.isText ≠ b.isText

variable {a b : Element}

/-- Elements of one kind are ordered. -/
theorem Element.lt_total (h : a.isText = b.isText) :
    a.lt b = .ok true ∧ a ≠ b ∨ a.lt b = .ok false ∧ b.lt a = .ok true ∧ a ≠ b ∨
      a.lt b = .ok false ∧ b.lt a = .ok false ∧ a = b := by
  cases a with
  | number m =>
    cases b with
    | number n =>
      rcases lt_trichotomy m n with hlt | rfl | hgt
      · exact .inl ⟨congrArg Except.ok (decide_eq_true hlt), fun he => hlt.ne (Element.number.inj he)⟩
      · refine .inr (.inr ⟨?_, ?_, rfl⟩)
        · exact congrArg Except.ok (decide_eq_false (lt_irrefl m))
        · exact congrArg Except.ok (decide_eq_false (lt_irrefl m))
      · refine .inr (.inl ⟨?_, ?_, fun he => hgt.ne' (Element.number.inj he)⟩)
        · exact congrArg Except.ok (decide_eq_false hgt.not_gt)
        · exact congrArg Except.ok (decide_eq_true hgt)
    | infinity => exact .inl ⟨rfl, Element.noConfusion⟩
    | text t => cases h
  | infinity =>
    cases b with
    | number n => exact .inr (.inl ⟨rfl, rfl, Element.noConfusion⟩)
    | infinity => exact .inr (.inr ⟨rfl, rfl, rfl⟩)
    | text t => cases h
  | text s =>
    cases b with
    | number n => cases h
    | infinity => cases h
    | text t =>
      rcases lt_trichotomy s t with hlt | rfl | hgt
      · exact .inl ⟨congrArg Except.ok (decide_eq_true hlt), fun he => hlt.ne (Element.text.inj he)⟩
      · refine .inr (.inr ⟨?_, ?_, rfl⟩)
        · exact congrArg Except.ok (decide_eq_false (lt_irrefl s))
        · exact congrArg Except.ok (decide_eq_false (lt_irrefl s))
      · refine .inr (.inl ⟨?_, ?_, fun he => hgt.ne' (Element.text.inj he)⟩)
        · exact congrArg Except.ok (decide_eq_false hgt.not_gt)
        · exact congrArg Except.ok (decide_eq_true hgt)

theorem Element.lt_error (h : a.isText ≠ b.isText) : a.lt b = .error .typeError := by
  cases a with
  | number m =>
    cases b with
    | text t => rfl
    | number n => exact absurd rfl h
    | infinity => exact absurd rfl h
  | infinity =>
    cases b with
    | text t => rfl
    | number n => exact absurd rfl h
    | infinity => exact absurd rfl h
  | text s =>
    cases b with
    | text t => exact absurd rfl h
    | number n => rfl
    | infinity => rfl

/-- Where two lists begin with different elements, there is nothing but these to clash. -/
theorem clash_cons (ha : a ≠ .text "*") (hb : b ≠ .text "*") :
    Clash (a :: v) (b :: w) ↔ a.isText ≠ b.isText ∨ a = b ∧ Clash v w := by
  constructor
  · rintro ⟨front, c, d, v', w', hv, hw, hfront, hc, hd, hkind⟩
    cases front with
    | nil =>
      obtain ⟨rfl, rfl⟩ := List.cons.inj hv
      obtain ⟨rfl, rfl⟩ := List.cons.inj hw
      exact .inl hkind
    | cons e front =>
      obtain ⟨rfl, rfl⟩ := List.cons.inj hv
      obtain ⟨rfl, rfl⟩ := List.cons.inj hw
      exact .inr ⟨rfl, front, c, d, v', w', rfl, rfl, fun h => hfront (List.mem_cons_of_mem _ h),
        hc, hd, hkind⟩
  · rintro (hkind | ⟨rfl, front, c, d, v', w', rfl, rfl, hfront, hc, hd, hkind⟩)
    · exact ⟨[], a, b, v, w, rfl, rfl, List.not_mem_nil, ha, hb, hkind⟩
    · refine ⟨a :: front, c, d, v', w', rfl, rfl, ?_, hc, hd, hkind⟩
      intro h
      rcases List.mem_cons.mp h with h | h
      · exact ha h.symm
      · exact hfront h

theorem not_clash_nil (h : v = [] ∨ w = []) : ¬ Clash v w := by
  rintro ⟨front, c, d, v', w', rfl, rfl, -⟩
  rcases h with h | h
  · exact List.append_ne_nil_of_right_ne_nil _ (List.cons_ne_nil _ _) h
  · exact List.append_ne_nil_of_right_ne_nil _ (List.cons_ne_nil _ _) h

theorem not_clash_star (h : a = .text "*" ∨ b = .text "*") : ¬ Clash (a :: v) (b :: w) := by
  rintro ⟨front, c, d, v', w', hv, hw, hfront, hc, hd, -⟩
  cases front with
  | nil =>
    obtain ⟨rfl, -⟩ := List.cons.inj hv
    obtain ⟨rfl, -⟩ := List.cons.inj hw
    exact h.elim hc hd
  | cons e front =>
    obtain ⟨rfl, -⟩ := List.cons.inj hv
    obtain ⟨rfl, -⟩ := List.cons.inj hw
    rcases h with h | h
    · exact hfront (h ▸ List.mem_cons_self)
    · exact hfront (h ▸ List.mem_cons_self)

/-- `is_lower` returns unless a string stands against a number where it looks. -/
theorem isLower_ok_iff : (∃ lower, isLower v w = .ok lower) ↔ ¬ Clash v w := by
  induction w generalizing v with
  | nil =>
    refine iff_of_true ⟨false, ?_⟩ (not_clash_nil (.inr rfl))
    simp [isLower]
  | cons b w ih =>
    cases v with
    | nil => exact iff_of_true ⟨true, rfl⟩ (not_clash_nil (.inl rfl))
    | cons a v =>
      by_cases ha : a = .text "*"
      · refine iff_of_true ⟨false, ?_⟩ (not_clash_star (.inl ha))
        rw [isLower, if_pos ha]
      by_cases hb : b = .text "*"
      · refine iff_of_true ⟨true, ?_⟩ (not_clash_star (.inr hb))
        rw [isLower, if_neg ha, if_pos hb]
      rw [isLower, if_neg ha, if_neg hb, clash_cons ha hb]
      by_cases hkind : a.isText = b.isText
      · rcases Element.lt_total hkind with ⟨hlt, hne⟩ | ⟨hlt, hgt, hne⟩ | ⟨hlt, hgt, rfl⟩
        · rw [hlt]
          exact iff_of_true ⟨true, rfl⟩ (by simp [hkind, hne])
        · rw [hlt, hgt]
          exact iff_of_true ⟨false, rfl⟩ (by simp [hkind, hne])
        · rw [hlt]
          have hclash : (a.isText ≠ a.isText ∨ a = a ∧ Clash v w) ↔ Clash v w := by simp
          rw [hclash]
          exact ih
      · rw [Element.lt_error hkind]
        refine iff_of_false ?_ (fun h => h (.inl hkind))
        rintro ⟨lower, hlower⟩
        cases hlower

/-- For all strings: the parsed versions are compared unless a string stands against a number
at the first place where they differ, with no `*` before. -/
theorem isLower_returns_iff (s t : String) :
    (∃ lower, isLower (parseVersion s) (parseVersion t) = .ok lower) ↔
      ¬ Clash (parseVersion s) (parseVersion t) := isLower_ok_iff

/-- A release candidate against a release. -/
theorem isLower_raises : isLower (parseVersion "9.0.rc1") (parseVersion "9.0.1") =
    .error .typeError := by
  decide +kernel

/-! ## The two gates -/

/-- The gate for a variant and the gate for a test with the same minimum version. -/
structure GatesAgree (lower : Version) (variant minimum : String) : Prop where
  agree : ∃ variants old, parseVariantsAdd [.since variant minimum] (some lower) = .ok variants ∧
    tooOld (some lower) (some minimum) = .ok old ∧ (variant ∈ variants ↔ old = false) ∧
    (old = false ↔ ¬ Lower lower (parseVersion minimum))

/-- The gates agree exactly when the version and the minimum differ, up to what follows a
`*`. -/
theorem gates_agree_iff {lower : Version} (variant minimum : String)
    (hlower : ∀ e ∈ lower, e.Comparable) (hminimum : ∀ e ∈ parseVersion minimum, e.Comparable) :
    GatesAgree lower variant minimum ↔ key lower ≠ key (parseVersion minimum) := by
  have hvariants : parseVariantsAdd [.since variant minimum] (some lower) =
      .ok (if key (parseVersion minimum) < key lower then [variant] else []) := by
    change parseVariantItem (some lower) [] (.since variant minimum) >>= _ = _
    unfold parseVariantItem
    simp only [isLower_eq hminimum hlower]
    by_cases hlt : key (parseVersion minimum) < key lower
    · rw [if_pos hlt, decide_eq_true hlt]
      rfl
    · rw [if_neg hlt, decide_eq_false hlt]
      rfl
  have hold : tooOld (some lower) (some minimum) =
      .ok (decide (key lower < key (parseVersion minimum))) := isLower_eq hlower hminimum
  have hagree : GatesAgree lower variant minimum ↔
      (key (parseVersion minimum) < key lower ↔ ¬ key lower < key (parseVersion minimum)) := by
    constructor
    · rintro ⟨variants, old, hv, ho, hgate, -⟩
      rw [hvariants] at hv
      rw [hold] at ho
      cases hv
      cases ho
      simpa [apply_ite (variant ∈ ·)] using hgate
    · intro h
      refine ⟨_, _, hvariants, hold, ?_, ?_⟩
      · simpa [apply_ite (variant ∈ ·)] using h
      · rw [decide_eq_false_iff_not, lower_iff hlower hminimum]
  rw [hagree]
  constructor
  · intro h heq
    rw [heq] at h
    exact (h.not.mp (lt_irrefl _)) (lt_irrefl _)
  · intro hne
    exact ⟨fun hlt => hlt.not_gt, fun hnot => lt_of_le_of_ne (not_lt.mp hnot) hne.symm⟩

theorem gates_agree_newer : GatesAgree [.number 9, .number 3, .infinity] "tls" "9.2" := by
  have hminimum : parseVersion "9.2" = [.number 9, .number 2] := by decide +kernel
  refine (gates_agree_iff "tls" "9.2" (by decide) ?_).mpr ?_
  · rw [hminimum]
    decide
  · rw [hminimum]
    decide

/-- On the minimum itself, the test is kept and the variant is not added. -/
theorem gates_differ :
    parseVariantsAdd [.since "tls" "9.2"] (some (parseVersion "9.2")) = .ok [] ∧
    tooOld (some (parseVersion "9.2")) (some "9.2") = .ok false ∧
    ¬ GatesAgree (parseVersion "9.2") "tls" "9.2" := by
  have hminimum : parseVersion "9.2" = [.number 9, .number 2] := by decide +kernel
  have hvariants : parseVariantsAdd [.since "tls" "9.2"] (some (parseVersion "9.2")) = .ok [] := by
    decide +kernel
  have hold : tooOld (some (parseVersion "9.2")) (some "9.2") = .ok false := by decide +kernel
  refine ⟨hvariants, hold, ?_⟩
  rintro ⟨variants, old, hv, ho, hgate, -⟩
  rw [hvariants] at hv
  rw [hold] at ho
  cases hv
  cases ho
  simp at hgate

end DrbdTests.Generator
