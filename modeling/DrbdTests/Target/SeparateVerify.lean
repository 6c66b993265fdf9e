import DrbdTests.Target.MisalignedBio

/-!
# Verifying in a process of its own

On the peer the device is verified by another process, which has written nothing: its
`current_byte` is zero, so `verify_pattern` does not know how long the pattern is. It takes the
first sector that is not filled with its number for the end of the pattern, wherever this is. The
process that has written the pattern only accepts the end where it has written it.
-/

namespace DrbdTests.MisalignedBio

open Stateful

/-- The content starts with `n` data sectors and the marker. -/
def HoldsPattern (n : Nat) (content : List Sector) : Prop :=
  (∀ k < n, content[k]? = some (fill k)) ∧ content[n]? = some (fill 255)

variable {fd buffer pageSize : Nat}

/-- Where the end is not known, some number of data sectors and the marker are accepted. -/
theorem accepts_zero_iff {k : Nat} {rest : List Sector} :
    Accepts 0 k rest = true ↔ ∃ n, (k + n) % 256 ≠ 255 ∧
      (∀ j < n, rest[j]? = some (fill (k + j))) ∧ rest[n]? = some (fill 255) := by
  induction rest generalizing k with
  | nil => simp [Accepts]
  | cons sector rest ih =>
    rw [Accepts]
    by_cases hfill : sector = fill k
    · rw [if_pos hfill, ih]
      constructor
      · rintro ⟨n, hn, hdata, hend⟩
        refine ⟨n + 1, by rwa [Nat.add_right_comm, Nat.add_assoc] at hn, ?_, hend⟩
        intro j hj
        cases j with
        | zero => rw [hfill]; rfl
        | succ j =>
          rw [List.getElem?_cons_succ, hdata j (Nat.lt_of_succ_lt_succ hj), Nat.add_right_comm,
            Nat.add_assoc]
      · rintro ⟨n, hn, hdata, hend⟩
        cases n with
        | zero =>
          -- the marker is no data here
          rw [List.getElem?_cons_zero, hfill] at hend
          exact absurd (fill_injective.mp (Option.some.inj hend)) hn
        | succ n =>
          refine ⟨n, by rwa [Nat.add_right_comm, Nat.add_assoc], ?_, hend⟩
          intro j hj
          have hsector := hdata (j + 1) (Nat.succ_lt_succ hj)
          rw [List.getElem?_cons_succ] at hsector
          rw [hsector, Nat.add_right_comm, Nat.add_assoc]
    · rw [if_neg hfill, decide_eq_true_eq]
      constructor
      · rintro ⟨-, hmarker⟩
        refine ⟨0, ?_, fun j hj => absurd hj (Nat.not_lt_zero j), by rw [hmarker]; rfl⟩
        intro hk
        exact hfill (hmarker.trans (fill_injective.mpr hk.symm))
      · rintro ⟨n, hn, hdata, hend⟩
        cases n with
        | zero =>
          rw [List.getElem?_cons_zero] at hend
          exact ⟨.inl rfl, Option.some.inj hend⟩
        | succ n => exact absurd (Option.some.inj (hdata 0 (Nat.succ_pos n))) hfill

/-- A process that has written nothing accepts a pattern of any length. -/
theorem separate_accepts_iff {fresh : Process} (hfresh : fresh.currentByte = 0)
    (hpage : sectSize ≤ pageSize) :
    (exec (verifyPattern fd buffer pageSize) fresh).1 = .ok true ↔
      ∃ n, n % 256 ≠ 255 ∧ HoldsPattern n fresh.device := by
  rw [(verifyPattern_leaves fresh fd buffer hpage).ok_iff, hfresh, accepts_zero_iff]
  simp only [Nat.zero_add]
  rfl

/-- The process that has written the pattern accepts this pattern only. -/
theorem builtIn_accepts_iff {s s' : Process} {k : Nat} {u : PUnit} (hk : 0 < k)
    (hpage : pageSize = sectSize * 2 ^ k) (hstart : s.currentByte = 0 ∧ s.position = 0)
    (hrun : Returns (writePattern fd buffer pageSize) s u s') (content : List Sector) :
    (exec (verifyPattern fd buffer pageSize) { s' with device := content }).1 = .ok true ↔
      HoldsPattern (dataSectors pageSize) content := by
  have hbyte := (writePattern_written hk hpage hstart hrun).1
  exact verifyPattern_ok_iff (s := { s' with device := content }) hk hpage hbyte

/-- The length of a pattern can be read off the content. -/
theorem HoldsPattern.unique {m n : Nat} {content : List Sector} (hm : HoldsPattern m content)
    (hn : HoldsPattern n content) (hm' : m % 256 ≠ 255) (hn' : n % 256 ≠ 255) : m = n := by
  have hmarker : ∀ {i j : Nat}, HoldsPattern i content → HoldsPattern j content →
      i % 256 ≠ 255 → ¬ i < j := by
    intro i j hi hj hi' hlt
    have hsector := hj.1 i hlt
    rw [hi.2] at hsector
    exact hi' (fill_injective.mp (Option.some.inj hsector)).symm
  exact Nat.le_antisymm (Nat.le_of_not_lt (hmarker hn hm hn')) (Nat.le_of_not_lt (hmarker hm hn hm'))

/-- What the process that has written the pattern accepts is also accepted by one that has not, and
the two give the same verdict exactly when the content does not start with a pattern of another
length. -/
theorem separate_verify {s s' fresh : Process} {k : Nat} {u : PUnit} (hk : 0 < k)
    (hpage : pageSize = sectSize * 2 ^ k) (hstart : s.currentByte = 0 ∧ s.position = 0)
    (hrun : Returns (writePattern fd buffer pageSize) s u s') (hfresh : fresh.currentByte = 0)
    (fd' buffer' : Nat) (content : List Sector) :
    let builtIn := (exec (verifyPattern fd buffer pageSize) { s' with device := content }).1
    let separate := (exec (verifyPattern fd' buffer' pageSize) { fresh with device := content }).1
    (builtIn = .ok true ↔ HoldsPattern (dataSectors pageSize) content) ∧
      (separate = .ok true ↔ ∃ n, n % 256 ≠ 255 ∧ HoldsPattern n content) ∧
      (builtIn = .ok true → separate = .ok true) ∧
      ((separate = .ok true ↔ builtIn = .ok true) ↔
        ∀ n, n % 256 ≠ 255 → HoldsPattern n content → n = dataSectors pageSize) := by
  intro builtIn separate
  have hdata : dataSectors pageSize % 256 ≠ 255 := by
    obtain ⟨m, rfl⟩ := exists_halfPage hk hpage
    exact dataSectors_mod m
  have hbuiltIn : builtIn = .ok true ↔ _ := builtIn_accepts_iff hk hpage hstart hrun content
  have hseparate : separate = .ok true ↔ _ := separate_accepts_iff hfresh (sectSize_le hpage)
  have hmore : builtIn = .ok true → separate = .ok true := by
    intro h
    exact hseparate.mpr ⟨_, hdata, hbuiltIn.mp h⟩
  refine ⟨hbuiltIn, hseparate, hmore, ?_⟩
  constructor
  · intro hsame n hn hholds
    have hown := hbuiltIn.mp (hsame.mp (hseparate.mpr ⟨n, hn, hholds⟩))
    exact hholds.unique hown hn hdata
  · intro honly
    refine ⟨fun h => ?_, hmore⟩
    obtain ⟨n, hn, hholds⟩ := hseparate.mp h
    rw [honly n hn hholds] at hholds
    exact hbuiltIn.mpr hholds

/-- A device with a page size of two sectors, before and after `write_pattern`. -/
def blankDevice : Process := ⟨fun _ => 0, 0, List.replicate 15 (fill 0), 0⟩

def writtenDevice : Process := (exec (writePattern 3 4096 1024) blankDevice).2

theorem writtenDevice_returns : Returns (writePattern 3 4096 1024) blankDevice ⟨⟩ writtenDevice := by
  have hreturns : (exec (writePattern 3 4096 1024) blankDevice).1.toBool = true := by decide +kernel
  exact returns_of_toBool hreturns

theorem separate_verify_two_sectors :
    (exec (verifyPattern 3 4096 1024) { blankDevice with device := writtenDevice.device }).1 =
      .ok true := by
  have hpage : 1024 = sectSize * 2 ^ 1 := by decide
  have hwritten := writePattern_written Nat.one_pos hpage ⟨rfl, rfl⟩ writtenDevice_returns
  have hverify := separate_verify Nat.one_pos hpage ⟨rfl, rfl⟩ writtenDevice_returns
    (show blankDevice.currentByte = 0 from rfl) 3 4096 writtenDevice.device
  exact hverify.2.2.1 (hverify.1.mpr hwritten.2)

/-- The marker in the place of the first sector passes for an empty pattern. -/
theorem damaged_device_verifies :
    (exec (verifyPattern 3 4096 1024) { blankDevice with device := [fill 255] }).1 = .ok true ∧
    (exec (verifyPattern 3 4096 1024) { writtenDevice with device := [fill 255] }).1 ≠ .ok true := by
  have hpage : 1024 = sectSize * 2 ^ 1 := by decide
  constructor
  · have hfresh : ({ blankDevice with device := [fill 255] } : Process).currentByte = 0 := rfl
    apply (separate_accepts_iff hfresh (by decide)).mpr
    exact ⟨0, by decide, fun j hj => absurd hj (Nat.not_lt_zero j), rfl⟩
  · intro h
    have hholds := (builtIn_accepts_iff Nat.one_pos hpage ⟨rfl, rfl⟩ writtenDevice_returns
      [fill 255]).mp h
    have hfirst : fill 255 = fill 0 := Option.some.inj (hholds.1 0 (by decide))
    exact absurd (fill_injective.mp hfirst) (by decide)

end DrbdTests.MisalignedBio
