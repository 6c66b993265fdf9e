import Mathlib.Algebra.Group.Nat.Defs

/-!
# Dates and times of day

The Gregorian calendar, as `datetime` computes with it: days are counted from 0001-01-01, which has the
number 1, and a time is the number of seconds since the beginning of that day. `date` is the algorithm
that the library uses, with cycles of 400, 100, 4 and one years.

* `ordinal_date`: the date of a day has its number.
* `seconds_ofSeconds`: the fields of a time are those of this time.
* `read_text`: a time that is written as fourteen digits is read back.
-/

namespace Calendar

structure DateTime where
  year : Nat
  month : Nat
  day : Nat
  hour : Nat
  minute : Nat
  second : Nat
  deriving DecidableEq, Repr

/-! ## Days -/

def isLeap (year : Nat) : Bool := year % 4 = 0 && (year % 100 ≠ 0 || year % 400 = 0)

def daysBeforeYear (year : Nat) : Nat :=
  (year - 1) * 365 + (year - 1) / 4 - (year - 1) / 100 + (year - 1) / 400

/-- The days before a month of a year that is not a leap year. -/
def monthStarts : List Nat := [0, 31, 59, 90, 120, 151, 181, 212, 243, 273, 304, 334]

def daysBeforeMonth (leap : Bool) (month : Nat) : Nat :=
  monthStarts.getD (month - 1) 0 + if 2 < month ∧ leap then 1 else 0

def ordinal (year month day : Nat) : Nat := daysBeforeYear year + daysBeforeMonth (isLeap year) month + day

/-- The month and the day of the `n`-th day of a year, which may not be the last one of a leap year. The
first guess at the month is too large by one at most. -/
def monthDay (leap : Bool) (n : Nat) : Nat × Nat :=
  let month := (n + 50) / 32
  if n < daysBeforeMonth leap month then (month - 1, n - daysBeforeMonth leap (month - 1) + 1)
  else (month, n - daysBeforeMonth leap month + 1)

/-- The year, month and day of a day. -/
def date (ordinal : Nat) : Nat × Nat × Nat :=
  let n := ordinal - 1
  let n400 := n / 146097
  let n := n % 146097
  let n100 := n / 36524
  let n := n % 36524
  let n4 := n / 1461
  let n := n % 1461
  let n1 := n / 365
  let n := n % 365
  let year := n400 * 400 + n100 * 100 + n4 * 4 + n1 + 1
  if n1 = 4 ∨ n100 = 4 then (year - 1, 12, 31)
  else
    let (month, day) := monthDay (n1 = 3 && (n4 ≠ 24 || n100 = 3)) n
    (year, month, day)

theorem daysBeforeMonth_monthDay (leap : Bool) {n : Nat} (h : n < 365) :
    daysBeforeMonth leap (monthDay leap n).1 + (monthDay leap n).2 = n + 1 := by
  have hall : ∀ leap : Bool, ∀ n < 365,
      daysBeforeMonth leap (monthDay leap n).1 + (monthDay leap n).2 = n + 1 := by decide +kernel
  exact hall leap n h

/-- The years of a cycle of 400. -/
theorem daysBeforeYear_cycle (a b c d : Nat) (hb : b < 4) (hc : c < 25) (hd : d < 4) :
    daysBeforeYear (a * 400 + b * 100 + c * 4 + d + 1) = a * 146097 + b * 36524 + c * 1461 + d * 365 := by
  unfold daysBeforeYear
  omega

theorem isLeap_cycle (a b c d : Nat) (hb : b < 4) (hc : c < 25) (hd : d < 4) :
    isLeap (a * 400 + b * 100 + c * 4 + d + 1) = (d = 3 && (c ≠ 24 || b = 3) : Bool) := by
  unfold isLeap
  rw [Bool.eq_iff_iff]
  simp only [Bool.and_eq_true, Bool.or_eq_true, decide_eq_true_eq]
  omega

/-- The last day of a leap year. -/
theorem ordinal_newYearsEve {year : Nat} (hyear : 0 < year) (hleap : isLeap year = true) :
    ordinal year 12 31 = daysBeforeYear (year + 1) := by
  have hdays : daysBeforeMonth true 12 = 335 := by decide
  rw [ordinal, hleap, hdays]
  unfold isLeap at hleap
  simp only [Bool.and_eq_true, Bool.or_eq_true, decide_eq_true_eq] at hleap
  unfold daysBeforeYear
  omega

/-- The date of a day has its number. -/
theorem ordinal_date {n : Nat} (h : 0 < n) : ordinal (date n).1 (date n).2.1 (date n).2.2 = n := by
  obtain ⟨a, ha⟩ : ∃ a, a = (n - 1) / 146097 := ⟨_, rfl⟩
  obtain ⟨b, hb⟩ : ∃ b, b = (n - 1) % 146097 / 36524 := ⟨_, rfl⟩
  obtain ⟨c, hc⟩ : ∃ c, c = (n - 1) % 146097 % 36524 / 1461 := ⟨_, rfl⟩
  obtain ⟨d, hd⟩ : ∃ d, d = (n - 1) % 146097 % 36524 % 1461 / 365 := ⟨_, rfl⟩
  obtain ⟨r, hr⟩ : ∃ r, r = (n - 1) % 146097 % 36524 % 1461 % 365 := ⟨_, rfl⟩
  have hn : n = a * 146097 + b * 36524 + c * 1461 + d * 365 + r + 1 := by omega
  have hrange : r < 365 ∧ c < 25 := by omega
  unfold date
  dsimp only
  rw [← ha, ← hb, ← hc, ← hd, ← hr]
  by_cases hlast : d = 4 ∨ b = 4
  · rw [if_pos hlast]
    dsimp only
    rw [Nat.add_sub_cancel]
    -- the last day of a cycle of four years, or of one of 400 years
    rcases hlast with hlast | hlast
    · have hcycle : r = 0 ∧ b < 4 ∧ c + 1 < 25 := by omega
      have hleap : isLeap (a * 400 + b * 100 + c * 4 + d) = true := by
        unfold isLeap
        simp only [Bool.and_eq_true, Bool.or_eq_true, decide_eq_true_eq]
        omega
      have hnext : a * 400 + b * 100 + c * 4 + d + 1 = a * 400 + b * 100 + (c + 1) * 4 + 0 + 1 := by omega
      rw [ordinal_newYearsEve (by omega) hleap, hnext,
        daysBeforeYear_cycle a b (c + 1) 0 hcycle.2.1 hcycle.2.2 (by omega)]
      clear hnext
      omega
    · have hcycle : r = 0 ∧ c = 0 ∧ d = 0 := by omega
      have hleap : isLeap (a * 400 + b * 100 + c * 4 + d) = true := by
        unfold isLeap
        simp only [Bool.and_eq_true, Bool.or_eq_true, decide_eq_true_eq]
        omega
      have hnext : a * 400 + b * 100 + c * 4 + d + 1 = (a + 1) * 400 + 0 * 100 + 0 * 4 + 0 + 1 := by omega
      rw [ordinal_newYearsEve (by omega) hleap, hnext,
        daysBeforeYear_cycle (a + 1) 0 0 0 (by omega) (by omega) (by omega)]
      omega
  · rw [if_neg hlast]
    have hb : b < 4 := by omega
    have hd : d < 4 := by omega
    dsimp only
    rw [ordinal, daysBeforeYear_cycle a b c d hb hrange.2 hd, isLeap_cycle a b c d hb hrange.2 hd,
      Nat.add_assoc, daysBeforeMonth_monthDay _ hrange.1]
    omega

/-! ## Seconds -/

def ofSeconds (t : Nat) : DateTime :=
  let (year, month, day) := date (t / 86400 + 1)
  let s := t % 86400
  ⟨year, month, day, s / 3600, s / 60 % 60, s % 60⟩

def DateTime.seconds (d : DateTime) : Nat :=
  (ordinal d.year d.month d.day - 1) * 86400 + d.hour * 3600 + d.minute * 60 + d.second

theorem seconds_ofSeconds (t : Nat) : (ofSeconds t).seconds = t := by
  have hdate : ordinal (date (t / 86400 + 1)).1 (date (t / 86400 + 1)).2.1 (date (t / 86400 + 1)).2.2 =
    t / 86400 + 1 := ordinal_date (Nat.succ_pos _)
  unfold DateTime.seconds ofSeconds
  dsimp only
  rw [hdate]
  omega

/-- The years from 1000 to 9999. -/
theorem year_ofSeconds {t : Nat} (h : (⟨1000, 1, 1, 0, 0, 0⟩ : DateTime).seconds ≤ t)
    (hlt : t < (⟨10000, 1, 1, 0, 0, 0⟩ : DateTime).seconds) :
    1000 ≤ (ofSeconds t).year ∧ (ofSeconds t).year < 10000 := by
  have hfirst : (⟨1000, 1, 1, 0, 0, 0⟩ : DateTime).seconds = 364877 * 86400 := by decide
  have hlast : (⟨10000, 1, 1, 0, 0, 0⟩ : DateTime).seconds = 3652059 * 86400 := by decide
  rw [hfirst] at h
  rw [hlast] at hlt
  unfold ofSeconds date
  dsimp only
  split
  · dsimp only
    omega
  · dsimp only
    omega

theorem fields_ofSeconds (t : Nat) : (ofSeconds t).month < 100 ∧ (ofSeconds t).day < 100 ∧
    (ofSeconds t).hour < 100 ∧ (ofSeconds t).minute < 100 ∧ (ofSeconds t).second < 100 := by
  have hall : ∀ leap : Bool, ∀ n < 365, (monthDay leap n).1 < 100 ∧ (monthDay leap n).2 < 100 := by
    decide +kernel
  have hdate : (date (t / 86400 + 1)).2.1 < 100 ∧ (date (t / 86400 + 1)).2.2 < 100 := by
    unfold date
    dsimp only
    split
    · have hlast : 12 < 100 ∧ 31 < 100 := by decide
      exact hlast
    · exact hall _ _ (Nat.mod_lt _ (by decide))
  refine ⟨hdate.1, hdate.2, ?_, ?_, ?_⟩
  · change t % 86400 / 3600 < 100
    omega
  · change t % 86400 / 60 % 60 < 100
    omega
  · change t % 86400 % 60 < 100
    omega

/-! ## Texts -/

/-- A number with this many digits. -/
def digits : Nat → Nat → List Char
  | 0, _ => []
  | width + 1, n => digits width (n / 10) ++ [Nat.digitChar (n % 10)]

/-- `%Y%m%d%H%M%S`; the year is not padded. -/
def text (d : DateTime) : List Char :=
  Nat.toDigits 10 d.year ++ digits 2 d.month ++ digits 2 d.day ++ digits 2 d.hour ++ digits 2 d.minute ++
    digits 2 d.second

def number (digits : List Char) : Nat := digits.foldl (fun n c => 10 * n + (c.toNat - '0'.toNat)) 0

/-- The fields of a time that is written as fourteen digits. -/
def read (text : List Char) : Option DateTime :=
  if text.length = 14 ∧ text.all Char.isDigit then
    let (year, text) := text.splitAt 4
    let (month, text) := text.splitAt 2
    let (day, text) := text.splitAt 2
    let (hour, text) := text.splitAt 2
    let (minute, second) := text.splitAt 2
    some ⟨number year, number month, number day, number hour, number minute, number second⟩
  else none

variable {w n : Nat}

@[simp] theorem length_digits : (digits w n).length = w := by
  induction w generalizing n with
  | zero => rfl
  | succ w ih => rw [digits, List.length_append, ih, List.length_singleton]

theorem isDigit_digits : ∀ c ∈ digits w n, c.isDigit := by
  induction w generalizing n with
  | zero => simp [digits]
  | succ w ih =>
    intro c hc
    rw [digits, List.mem_append, List.mem_singleton] at hc
    rcases hc with hc | rfl
    · exact ih c hc
    · have hall : ∀ d < 10, (Nat.digitChar d).isDigit := by decide
      exact hall _ (Nat.mod_lt _ (by decide))

theorem number_digits (h : n < 10 ^ w) : number (digits w n) = n := by
  induction w generalizing n with
  | zero =>
    obtain rfl : n = 0 := by simpa using h
    rfl
  | succ w ih =>
    have hall : ∀ d < 10, (Nat.digitChar d).toNat - '0'.toNat = d := by decide
    have hn : n / 10 < 10 ^ w := by
      rw [Nat.pow_succ] at h
      exact Nat.div_lt_of_lt_mul (by rwa [Nat.mul_comm] at h)
    have hfront := ih hn
    unfold number at hfront ⊢
    rw [digits, List.foldl_append, hfront, List.foldl_cons, List.foldl_nil, hall _ (Nat.mod_lt _ (by decide))]
    omega

/-- A year of four digits. -/
theorem toDigits_year (h : 1000 ≤ n) (hlt : n < 10000) : Nat.toDigits 10 n = digits 4 n := by
  rw [Nat.toDigits_of_base_le (by decide) (by omega), Nat.toDigits_of_base_le (by decide) (by omega),
    Nat.toDigits_of_base_le (by decide) (by omega), Nat.toDigits_of_lt_base (by omega)]
  simp only [digits, List.nil_append]
  congr 5
  omega

theorem splitAt_digits (rest : List Char) : (digits w n ++ rest).splitAt w = (digits w n, rest) := by
  rw [List.splitAt_eq, List.take_left' length_digits, List.drop_left' length_digits]

/-- A time is read back. -/
theorem read_text {d : DateTime} (hyear : 1000 ≤ d.year) (hlt : d.year < 10000) (hmonth : d.month < 100)
    (hday : d.day < 100) (hhour : d.hour < 100) (hminute : d.minute < 100) (hsecond : d.second < 100) :
    read (text d) = some d := by
  have hlength : (text d).length = 14 := by
    simp only [text, toDigits_year hyear hlt, List.length_append, length_digits]
  have hdigit : (text d).all Char.isDigit = true := by
    simp only [text, toDigits_year hyear hlt, List.all_append, Bool.and_eq_true, List.all_eq_true]
    refine ⟨⟨⟨⟨⟨?_, ?_⟩, ?_⟩, ?_⟩, ?_⟩, ?_⟩ <;> exact isDigit_digits
  rw [read, if_pos ⟨hlength, hdigit⟩]
  simp only [text, toDigits_year hyear hlt, List.append_assoc, splitAt_digits]
  rw [number_digits hlt, number_digits hmonth, number_digits hday, number_digits hhour,
    number_digits hminute, number_digits hsecond]

theorem read_text_ofSeconds {t : Nat} (h : (⟨1000, 1, 1, 0, 0, 0⟩ : DateTime).seconds ≤ t)
    (hlt : t < (⟨10000, 1, 1, 0, 0, 0⟩ : DateTime).seconds) :
    read (text (ofSeconds t)) = some (ofSeconds t) := by
  obtain ⟨hyear, hyear'⟩ := year_ofSeconds h hlt
  obtain ⟨hmonth, hday, hhour, hminute, hsecond⟩ := fields_ofSeconds t
  exact read_text hyear hyear' hmonth hday hhour hminute hsecond

end Calendar
