import DrbdTests.Lib.Stateful
import Mathlib.Data.List.Basic
import Mathlib.Data.Nat.Digits.Defs
import Mathlib.Data.Vector.Basic

/-!
# `misaligned_bio.py`

The helper writes a pattern to a device in bios that start and end anywhere in a page, and
reads it back sector by sector. Every data sector is filled with its own number, as a byte, and
the sector that follows the last one with the byte 255.

The device is a list of sectors. It takes and gives whole sectors from the position of the
file, as many as fit. The buffer is memory by address, so which sectors a write sends is
decided by what `prepare_buffer` left at the addresses of the write.

`Accepts` says what the loop of `verify_pattern` does without a buffer: a sector that is not
filled with the next byte ends the loop, well only if it is where the end is expected and
holds the marker.
-/

namespace DrbdTests.MisalignedBio

open Stateful

/-- `sect_size` -/
abbrev sectSize : Nat := 512

/-- The bytes of a sector. -/
abbrev Sector := Vector UInt8 sectSize

/-- A sector that is filled with one byte. As in C, the byte is the number modulo 256. -/
def fill (byte : Nat) : Sector := Vector.replicate sectSize (UInt8.ofNat byte)

/-- The process: the memory by address, the global `current_byte`, and the device behind the
open file with the position in it, in sectors. -/
structure Process where
  mem : Nat → UInt8
  currentByte : Nat
  device : List Sector
  position : Nat

inductive Failure
  | osError (message : String)
  | typeError
  | exception (message : String)
  deriving DecidableEq, Repr

abbrev Program (α : Type) := Comp Process Failure α

/-- `%x` -/
def hex (n : Nat) : String := String.ofList (Nat.toDigits 16 n)

/-! ## The C library -/

/-- The sector that starts at an address. -/
def Process.sectorAt (s : Process) (address : Nat) : Sector := Vector.ofFn fun j => s.mem (address + j)

/-- The sectors that start at an address. -/
def Process.sectorsAt (s : Process) (address size : Nat) : List Sector :=
  (List.range (size / sectSize)).map fun j => s.sectorAt (address + j * sectSize)

def Process.set (s : Process) (address byte size : Nat) : Process := { s with
  mem := fun a => if address ≤ a ∧ a < address + size then UInt8.ofNat byte else s.mem a }

def memset (address byte size : Nat) : Program PUnit := modify fun s => s.set address byte size

/-- Whether the result of `memcmp` is not zero, for one sector. -/
def memcmp (a b : Nat) : Program Bool := do
  let s ← get
  return s.sectorAt a ≠ s.sectorAt b

/-- The device takes the sectors that fit. -/
def Process.store (s : Process) (sectors : List Sector) : Process := { s with
  device := s.device.take s.position ++ sectors ++ s.device.drop (s.position + sectors.length)
  position := s.position + sectors.length }

/-- The number of bytes written; `none` is -1, with `errno` saying that no space is left. -/
def libcWrite (sectors : List Sector) : Program (Option Nat) := do
  let s ← get
  let written := sectors.take (s.device.length - s.position)
  if written = [] ∧ sectors ≠ [] then return none
  else do
    set (s.store written)
    return some (written.length * sectSize)

/-- The bytes of the sectors are stored at an address. -/
def Process.load (s : Process) (address : Nat) (sectors : List Sector) : Process := { s with
  mem := fun a =>
    if address ≤ a then
      match sectors[(a - address) / sectSize]? with
      | some sector => sector.get ⟨(a - address) % sectSize, Nat.mod_lt _ (by decide)⟩
      | none => s.mem a
    else s.mem a
  position := s.position + sectors.length }

/-- The number of bytes read: zero at the end of the device. -/
def libcRead (address size : Nat) : Program Nat := do
  let s ← get
  let sectors := (s.device.drop s.position).take (size / sectSize)
  set (s.load address sectors)
  return sectors.length * sectSize

/-! ## `misaligned_bio.py` -/

/-- The texts of the exceptions of `write` and `read`. -/
def callText (call : String) (fd address size : Nat) : String :=
  "libc." ++ call ++ "(" ++ toString fd ++ ", 0x" ++ hex address ++ ", " ++ toString size ++ ")"

def write (fd address size : Nat) : Program Nat := do
  let s ← get
  match ← libcWrite (s.sectorsAt address size) with
  | none => throw (.osError (callText "write" fd address size ++ ": No space left on device"))
  | some n =>
    if n ≠ size then
      throw (.osError (callText "write" fd address size ++ " returned " ++ toString n
        ++ ". Short write?"))
    else return n

def read (fd address size : Nat) : Program Nat := do
  let n ← libcRead address size
  if n ≠ size then
    throw (.osError (callText "read" fd address size ++ " returned " ++ toString n
      ++ ". Short read?"))
  else return n

def prepareBuffer (start size : Nat) : Program PUnit :=
  (List.range (size / sectSize)).forM fun j => do
    let s ← get
    memset (start + j * sectSize) s.currentByte sectSize
    modify fun s => { s with currentByte := s.currentByte + 1 }

/-- Prepare a buffer, then write it. -/
def prepareAndWrite (fd address size : Nat) : Program PUnit := do
  prepareBuffer address size
  let _ ← write fd address size

/-- `libc.writev` of one sector from each of four pages. The texts of both exceptions are made
with `%lx` from a reference, which is no number. -/
def writeScattered (buffer pageSize : Nat) : Program PUnit := do
  let s ← get
  match ← libcWrite ((List.range 4).map fun j => s.sectorAt (buffer + j * pageSize)) with
  | none => throw .typeError
  | some n => if n ≠ 4 * sectSize then throw .typeError else pure ⟨⟩

def writePattern (fd buffer pageSize : Nat) : Program PUnit := do
  -- bios with a misaligned start, one page in size
  (List.range' 1 (pageSize / sectSize - 1)).forM fun i =>
    prepareAndWrite fd (buffer + i * sectSize) pageSize
  -- misaligned starts, aligned ends
  prepareAndWrite fd (buffer + pageSize / 2) (pageSize + pageSize / 2)
  prepareAndWrite fd (buffer + sectSize) (pageSize * 2 + sectSize)
  -- one bio with three holes
  (List.range 4).forM fun j => prepareBuffer (buffer + j * pageSize) sectSize
  writeScattered buffer pageSize
  -- the end
  memset buffer 255 sectSize
  let _ ← write fd buffer sectSize

/-- The loop of `verify_pattern`, for a number of iterations. It gives whether the loop has been
left by then. -/
def verifyLoop (fd buffer pageSize expectedEndSector : Nat) : Nat → Nat → Program Bool
  | 0, _ => pure false
  | fuel + 1, sector => do
    let _ ← read fd buffer sectSize
    let s ← get
    memset (buffer + pageSize) s.currentByte sectSize
    if ← memcmp buffer (buffer + pageSize) then
      if expectedEndSector = 0 ∨ sector = expectedEndSector then do
        memset (buffer + pageSize) 255 sectSize
        if ← memcmp buffer (buffer + pageSize) then throw (.exception "Does not verify")
        else return true
      else throw (.exception "Does not verify")
    else do
      modify fun s => { s with currentByte := s.currentByte + 1 }
      verifyLoop fd buffer pageSize expectedEndSector fuel (sector + 1)

/-- `verify_pattern`. An iteration goes on only after it has read a sector, so one iteration
more than the device has sectors is enough (`exec_verifyLoop`). `os.lseek` to the beginning gives 0. -/
def verifyPattern (fd buffer pageSize : Nat) : Program Bool := do
  let s ← get
  let expectedEndSector := s.currentByte
  modify fun s => { s with position := 0 }
  modify fun s => { s with currentByte := 0 }
  verifyLoop fd buffer pageSize expectedEndSector (s.device.length + 1) 0

/-! ## Filling and writing -/

variable {s s' : Process} {fd address size : Nat}

theorem sectorAt_set (s : Process) (address byte : Nat) :
    (s.set address byte sectSize).sectorAt address = fill byte := by
  apply Vector.ext
  intro j hj
  rw [Process.sectorAt, Vector.getElem_ofFn, fill, Vector.getElem_replicate]
  exact if_pos ⟨Nat.le_add_right _ _, Nat.add_lt_add_left hj _⟩

/-- A sector keeps its bytes when others are filled. -/
theorem sectorAt_congr {mem : Nat → UInt8} (h : ∀ j < sectSize, mem (address + j) = s.mem (address + j)) :
    ({ s with mem := mem } : Process).sectorAt address = s.sectorAt address := by
  apply Vector.ext
  intro j hj
  rw [Process.sectorAt, Process.sectorAt, Vector.getElem_ofFn, Vector.getElem_ofFn]
  exact h j hj

/-- What `prepare_buffer` leaves: the sectors are filled with the next bytes, and the rest of the
memory and the device are as before. -/
structure Prepared (s : Process) (start count : Nat) (s' : Process) : Prop where
  sector : ∀ j < count, s'.sectorAt (start + j * sectSize) = fill (s.currentByte + j)
  mem : ∀ a, a < start ∨ start + count * sectSize ≤ a → s'.mem a = s.mem a
  currentByte : s'.currentByte = s.currentByte + count
  device : s'.device = s.device
  position : s'.position = s.position

theorem prepared_zero (s : Process) (start : Nat) : Prepared s start 0 s where
  sector j hj := absurd hj (Nat.not_lt_zero j)
  mem _ _ := rfl
  currentByte := rfl
  device := rfl
  position := rfl

/-- One iteration of `prepare_buffer`. -/
theorem Prepared.succ {start count : Nat} (h : Prepared s start count s') :
    Prepared s start (count + 1) { s'.set (start + count * sectSize) s'.currentByte sectSize with
      currentByte := s'.currentByte + 1 } where
  sector j hj := by
    rcases Nat.lt_succ_iff_lt_or_eq.mp hj with hj | rfl
    · rw [← h.sector j hj]
      apply Vector.ext
      intro b hb
      rw [Process.sectorAt, Process.sectorAt, Vector.getElem_ofFn, Vector.getElem_ofFn]
      apply if_neg
      have hnext : (j + 1) * sectSize ≤ count * sectSize := Nat.mul_le_mul_right _ hj
      rw [Nat.succ_mul] at hnext
      omega
    · rw [← h.currentByte]
      exact sectorAt_set s' (start + j * sectSize) s'.currentByte
  mem a ha := by
    rw [Nat.succ_mul, ← Nat.add_assoc] at ha
    rw [← h.mem a (ha.imp_right (Nat.le_trans (Nat.le_add_right _ _)))]
    apply if_neg
    rintro ⟨hle, hlt⟩
    rcases ha with ha | ha
    · exact absurd (Nat.lt_of_le_of_lt (Nat.le_trans (Nat.le_add_right _ _) hle) ha) (Nat.lt_irrefl _)
    · exact absurd hlt (Nat.not_lt_of_le ha)
  currentByte := by
    change s'.currentByte + 1 = _
    rw [h.currentByte, Nat.add_assoc]
  device := h.device
  position := h.position

theorem prepareBuffer_prepared {start : Nat} {u : PUnit}
    (h : Returns (prepareBuffer start size) s u s') : Prepared s start (size / sectSize) s' := by
  have hrun := Returns.forM_invariant (fun pre t => Prepared s start pre.length t) h
    (prepared_zero s start) ?_
  · rw [List.length_range] at hrun
    exact hrun
  · intro pre j post t t' hpre ht hbody
    have hj : j = pre.length := by
      have hget : (List.range (size / sectSize))[pre.length]? = some j := by
        rw [hpre, List.getElem?_append_right (Nat.le_refl _), Nat.sub_self]
        rfl
      exact (List.getElem?_eq_some_iff.mp hget).2.symm.trans (by simp)
    subst hj
    obtain ⟨_, t₁, hmem, hmod⟩ := returns_bind.mp (returns_get_bind.mp hbody)
    have hmem := returns_modify.mp hmem
    have hmod := returns_modify.mp hmod
    subst hmem
    subst hmod
    rw [List.length_append, List.length_singleton]
    exact ht.succ

/-- The first `n` sectors are as they should be, and the next bio goes behind them. -/
structure Written (n : Nat) (s : Process) : Prop where
  sector : ∀ k < n, s.device[k]? = some (fill k)
  position : s.position = n

theorem Written.le_length {n : Nat} (h : Written n s) : n ≤ s.device.length := by
  cases n with
  | zero => exact Nat.zero_le _
  | succ n => exact (List.getElem?_eq_some_iff.mp (h.sector n (Nat.lt_succ_self n))).1

/-- What a bio stores, from the position on. -/
theorem Written.device_store {n : Nat} (h : Written n s) (sectors : List Sector) (j : Nat)
    (hj : j < sectors.length) : (s.store sectors).device[n + j]? = sectors[j]? := by
  have hlength : (s.device.take s.position).length = n := by
    rw [h.position, List.length_take_of_le h.le_length]
  rw [Process.store, List.append_assoc, List.getElem?_append_right (by omega), hlength,
    Nat.add_sub_cancel_left, List.getElem?_append_left hj]

/-- A bio leaves what was written before. -/
theorem Written.device_store_of_lt {n : Nat} (h : Written n s) (sectors : List Sector) (k : Nat)
    (hk : k < n) : (s.store sectors).device[k]? = some (fill k) := by
  have hlength : (s.device.take s.position).length = n := by
    rw [h.position, List.length_take_of_le h.le_length]
  rw [← h.sector k hk, Process.store, List.append_assoc,
    List.getElem?_append_left (by omega), h.position, List.getElem?_take_of_lt hk]

theorem Written.store {n : Nat} (h : Written n s) {sectors : List Sector}
    (hsectors : ∀ j < sectors.length, sectors[j]? = some (fill (n + j))) :
    Written (n + sectors.length) (s.store sectors) where
  sector k hk := by
    by_cases hold : k < n
    · exact h.device_store_of_lt sectors k hold
    · obtain ⟨j, rfl⟩ := Nat.exists_eq_add_of_le (Nat.le_of_not_lt hold)
      have hj : j < sectors.length := Nat.lt_of_add_lt_add_left hk
      rw [h.device_store sectors j hj, hsectors j hj]
  position := by rw [Process.store, h.position]

theorem libcWrite_returns {sectors : List Sector} (h : Returns (libcWrite sectors) s
    (some (sectors.length * sectSize)) s') : s' = s.store sectors := by
  have h := returns_get_bind.mp h
  dsimp only at h
  split at h
  · cases (returns_pure.mp h).1
  · obtain ⟨_, t, hset, hpure⟩ := returns_bind.mp h
    obtain ⟨hn, rfl⟩ := returns_pure.mp hpure
    have hlength : (sectors.take (s.device.length - s.position)).length = sectors.length :=
      Nat.eq_of_mul_eq_mul_right (by decide) (Option.some.inj hn)
    have hle : sectors.length ≤ s.device.length - s.position := by
      rw [List.length_take] at hlength
      exact Nat.le_trans hlength.symm.le (Nat.min_le_left _ _)
    rw [← returns_set.mp hset, List.take_of_length_le hle]

theorem length_sectorsAt : (s.sectorsAt address size).length = size / sectSize := by
  rw [Process.sectorsAt, List.length_map, List.length_range]

theorem getElem?_sectorsAt {j : Nat} (hj : j < size / sectSize) :
    (s.sectorsAt address size)[j]? = some (s.sectorAt (address + j * sectSize)) := by
  rw [Process.sectorsAt, List.getElem?_map, List.getElem?_range hj]
  rfl

theorem write_returns {n : Nat} (hsize : size / sectSize * sectSize = size)
    (h : Returns (write fd address size) s n s') : s' = s.store (s.sectorsAt address size) := by
  obtain ⟨result, t, hwrite, hrest⟩ := returns_bind.mp (returns_get_bind.mp h)
  cases result with
  | none => cases returns_throw.mp hrest
  | some m =>
    dsimp only at hrest
    split at hrest
    · cases returns_throw.mp hrest
    · rename_i hm
      obtain ⟨-, rfl⟩ := returns_pure.mp hrest
      rw [not_ne_iff.mp hm] at hwrite
      apply libcWrite_returns
      rw [length_sectorsAt, hsize]
      exact hwrite

/-- The pattern is written up to a sector, and `current_byte` is the number of that sector. -/
structure Pattern (n : Nat) (s : Process) : Prop extends Written n s where
  currentByte : s.currentByte = n

theorem Pattern.prepareAndWrite {n : Nat} {u : PUnit} (h : Pattern n s)
    (hsize : size / sectSize * sectSize = size)
    (hrun : Returns (prepareAndWrite fd address size) s u s') :
    Pattern (n + size / sectSize) s' := by
  obtain ⟨_, t, hprepare, hwrite⟩ := returns_bind.mp hrun
  have hp := prepareBuffer_prepared hprepare
  obtain ⟨m, hwrite⟩ := returns_drop.mp hwrite
  have hs' := write_returns hsize hwrite
  have ht : Written n t := ⟨fun k hk => hp.device ▸ h.sector k hk, hp.position.trans h.position⟩
  have hstore : Written (n + (t.sectorsAt address size).length)
      (t.store (t.sectorsAt address size)) := by
    apply ht.store
    intro j hj
    rw [length_sectorsAt] at hj
    rw [getElem?_sectorsAt hj, hp.sector j hj, h.currentByte]
  rw [length_sectorsAt] at hstore
  subst hs'
  exact ⟨hstore, by rw [Process.store, hp.currentByte, h.currentByte]⟩

/-- The sectors with holes between them are prepared one by one. -/
theorem Pattern.prepareScattered {n pageSize buffer : Nat} {u : PUnit} (h : Pattern n s)
    (hpage : sectSize ≤ pageSize)
    (hrun : Returns ((List.range 4).forM fun j => prepareBuffer (buffer + j * pageSize) sectSize)
      s u s') :
    Written n s' ∧ s'.currentByte = n + 4 ∧
      ∀ j < 4, s'.sectorAt (buffer + j * pageSize) = fill (n + j) := by
  have hloop := Returns.forM_invariant (fun pre t => (Written n t ∧ t.currentByte = n + pre.length) ∧
    ∀ j < pre.length, t.sectorAt (buffer + j * pageSize) = fill (n + j)) hrun
    ⟨⟨h.toWritten, h.currentByte⟩, fun j hj => absurd hj (Nat.not_lt_zero j)⟩ ?_
  · exact ⟨hloop.1.1, hloop.1.2, hloop.2⟩
  · rintro pre i post t t' hpre ⟨⟨hw, hbyte⟩, hsectors⟩ hbody
    have hi : i = pre.length := by
      have hget : (List.range 4)[pre.length]? = some i := by
        rw [hpre, List.getElem?_append_right (Nat.le_refl _), Nat.sub_self]
        rfl
      exact (List.getElem?_eq_some_iff.mp hget).2.symm.trans (by simp)
    subst hi
    have hp := prepareBuffer_prepared hbody
    rw [List.length_append, List.length_singleton]
    refine ⟨⟨⟨fun k hk => hp.device ▸ hw.sector k hk, hp.position.trans hw.position⟩, ?_⟩, ?_⟩
    · rw [hp.currentByte, hbyte, Nat.add_assoc]
      rfl
    · intro j hj
      rcases Nat.lt_succ_iff_lt_or_eq.mp hj with hj | rfl
      · rw [← hsectors j hj]
        -- the sector of an earlier page
        have hnext : (j + 1) * pageSize ≤ pre.length * pageSize := Nat.mul_le_mul_right _ hj
        rw [Nat.succ_mul] at hnext
        apply sectorAt_congr (s := t)
        intro b hb
        exact hp.mem _ (.inl (by omega))
      · have hfirst := hp.sector 0 (by decide)
        rw [Nat.zero_mul, Nat.add_zero, Nat.add_zero, hbyte] at hfirst
        exact hfirst

theorem writeScattered_returns {n pageSize buffer : Nat} {u : PUnit} (h : Written n s)
    (hbyte : s.currentByte = n + 4)
    (hsectors : ∀ j < 4, s.sectorAt (buffer + j * pageSize) = fill (n + j))
    (hrun : Returns (writeScattered buffer pageSize) s u s') : Pattern (n + 4) s' := by
  obtain ⟨result, t, hwrite, hrest⟩ := returns_bind.mp (returns_get_bind.mp hrun)
  cases result with
  | none => cases returns_throw.mp hrest
  | some m =>
    dsimp only at hrest
    split at hrest
    · cases returns_throw.mp hrest
    · rename_i hm
      obtain ⟨-, rfl⟩ := returns_pure.mp hrest
      rw [not_ne_iff.mp hm] at hwrite
      let sectors := (List.range 4).map fun j => s.sectorAt (buffer + j * pageSize)
      have hs' : t = s.store sectors := libcWrite_returns hwrite
      have hstore : Written (n + sectors.length) (s.store sectors) := by
        apply h.store
        intro j hj
        rw [List.length_map, List.length_range] at hj
        rw [List.getElem?_map, List.getElem?_range hj, Option.map_some, hsectors j hj]
      subst hs'
      exact ⟨hstore, hbyte⟩

/-- The number of data sectors. -/
def dataSectors (pageSize : Nat) : Nat :=
  (pageSize / sectSize - 1) * (pageSize / sectSize) + (pageSize + pageSize / 2) / sectSize +
    (pageSize * 2 + sectSize) / sectSize + 4

variable {pageSize buffer : Nat}

/-- The first loop of `write_pattern`. -/
theorem Pattern.misalignedStarts {u : PUnit} (h : Pattern 0 s)
    (hpage : pageSize / sectSize * sectSize = pageSize)
    (hrun : Returns ((List.range' 1 (pageSize / sectSize - 1)).forM fun i =>
      MisalignedBio.prepareAndWrite fd (buffer + i * sectSize) pageSize) s u s') :
    Pattern ((pageSize / sectSize - 1) * (pageSize / sectSize)) s' := by
  have hloop := Returns.forM_invariant
    (fun pre t => Pattern (pre.length * (pageSize / sectSize)) t) hrun (by simpa using h) ?_
  · rw [List.length_range'] at hloop
    exact hloop
  · intro pre i post t t' _ ht hbody
    rw [List.length_append, List.length_singleton, Nat.succ_mul]
    exact ht.prepareAndWrite hpage hbody

/-- `write_pattern` numbers the data sectors one after the other, and marks the one behind. -/
theorem writePattern_returns {u : PUnit} (h : Pattern 0 s) (hpage : 2 * sectSize ∣ pageSize)
    (hpos : 0 < pageSize) (hrun : Returns (writePattern fd buffer pageSize) s u s') :
    s'.currentByte = dataSectors pageSize ∧
      (∀ k < dataSectors pageSize, s'.device[k]? = some (fill k)) ∧
      s'.device[dataSectors pageSize]? = some (fill 255) := by
  obtain ⟨q, rfl⟩ := hpage
  have hq : 0 < q := Nat.pos_of_mul_pos_left hpos
  obtain ⟨_, s₁, hrun₁, hrun⟩ := returns_bind.mp hrun
  obtain ⟨_, s₂, hrun₂, hrun⟩ := returns_bind.mp hrun
  obtain ⟨_, s₃, hrun₃, hrun⟩ := returns_bind.mp hrun
  obtain ⟨_, s₄, hrun₄, hrun⟩ := returns_bind.mp hrun
  obtain ⟨_, s₅, hrun₅, hrun⟩ := returns_bind.mp hrun
  obtain ⟨_, s₆, hmark, hrun⟩ := returns_bind.mp hrun
  obtain ⟨m, hlast⟩ := returns_drop.mp hrun
  have h₁ := h.misalignedStarts (by simp only [sectSize]; omega) hrun₁
  have h₂ := h₁.prepareAndWrite (by simp only [sectSize]; omega) hrun₂
  have h₃ := h₂.prepareAndWrite (by simp only [sectSize]; omega) hrun₃
  obtain ⟨h₄, hbyte₄, hsectors⟩ := h₃.prepareScattered (by simp only [sectSize]; omega) hrun₄
  have h₅ : Pattern (dataSectors (2 * sectSize * q)) s₅ :=
    writeScattered_returns h₄ hbyte₄ hsectors hrun₅
  have hmark := returns_modify.mp hmark
  have hmarked : Written (dataSectors (2 * sectSize * q)) s₆ := by
    subst hmark
    exact ⟨h₅.sector, h₅.position⟩
  have hs' := write_returns (by rfl) hlast
  have hdata : s₆.sectorsAt buffer sectSize = [fill 255] := by
    subst hmark
    have hmark := sectorAt_set s₅ buffer 255
    change [Process.sectorAt _ (buffer + 0 * sectSize)] = _
    rw [Nat.zero_mul, Nat.add_zero]
    exact congrArg (fun sector => [sector]) hmark
  rw [hdata] at hs'
  subst hs'
  refine ⟨?_, hmarked.device_store_of_lt [fill 255], hmarked.device_store [fill 255] 0 Nat.one_pos⟩
  rw [Process.store]
  subst hmark
  exact h₅.currentByte

/-! ## Verifying -/

/-- Whether the loop of `verify_pattern` is left by `break`, from a sector on. -/
def Accepts (expectedEndSector : Nat) : Nat → List Sector → Bool
  | _, [] => false
  | k, sector :: rest =>
    if sector = fill k then Accepts expectedEndSector (k + 1) rest
    else (expectedEndSector = 0 ∨ k = expectedEndSector) ∧ sector = fill 255

theorem exec_libcRead (s : Process) (address size : Nat) :
    exec (libcRead address size) s =
      (.ok (((s.device.drop s.position).take (size / sectSize)).length * sectSize),
        s.load address ((s.device.drop s.position).take (size / sectSize))) := rfl

theorem sectorAt_load (s : Process) (address : Nat) (sector : Sector) :
    (s.load address [sector]).sectorAt address = sector := by
  apply Vector.ext
  intro j hj
  rw [Process.sectorAt, Vector.getElem_ofFn]
  dsimp only [Process.load]
  rw [if_pos (Nat.le_add_right _ _)]
  simp only [Nat.add_sub_cancel_left, Nat.div_eq_of_lt hj, Nat.mod_eq_of_lt hj]
  rfl

/-- At the end of the device, `read` raises. -/
theorem read_at_end (h : s.device.drop s.position = []) :
    ∃ e s', exec (read fd address sectSize) s = (.error e, s') := by
  have hread := exec_libcRead s address sectSize
  rw [h] at hread
  unfold read
  rw [exec_bind_of_ok hread]
  exact ⟨_, _, rfl⟩

theorem read_sector {sector : Sector} {rest : List Sector}
    (h : s.device.drop s.position = sector :: rest) :
    exec (read fd address sectSize) s = (.ok sectSize, s.load address [sector]) := by
  have hread := exec_libcRead s address sectSize
  have hone : (sector :: rest).take (sectSize / sectSize) = [sector] := by
    rw [Nat.div_self (by decide)]
    rfl
  rw [h, hone, List.length_singleton, Nat.one_mul] at hread
  unfold read
  rw [exec_bind_of_ok hread, if_neg (not_not_intro rfl)]
  rfl

/-- Filling memory elsewhere keeps a sector. -/
theorem sectorAt_set_of_le (s : Process) {other : Nat} (byte : Nat)
    (h : address + sectSize ≤ other) :
    (s.set other byte sectSize).sectorAt address = s.sectorAt address := by
  apply sectorAt_congr
  intro j hj
  apply if_neg
  omega

theorem fill_injective {a b : Nat} : fill a = fill b ↔ a % 256 = b % 256 := by
  constructor
  · intro h
    rcases Vector.replicate_inj.mp h with hsize | hbyte
    · exact absurd hsize (by decide)
    · exact congrArg UInt8.toNat hbyte
  · intro h
    rw [fill, fill, ← UInt8.ofNat_mod_size (x := a), ← UInt8.ofNat_mod_size (x := b)]
    exact congrArg (fun n => Vector.replicate sectSize (UInt8.ofNat n)) h

/-- A sector is compared with a byte: `memset` of another page, then `memcmp`. -/
theorem exec_compare {α : Type} (s : Process) (byte : Nat) (hpage : sectSize ≤ pageSize)
    (f : Bool → Program α) :
    exec (do
      memset (buffer + pageSize) byte sectSize
      let differs ← memcmp buffer (buffer + pageSize)
      f differs) s =
    exec (f (s.sectorAt buffer ≠ fill byte)) (s.set (buffer + pageSize) byte sectSize) := by
  have hkeep := sectorAt_set_of_le s byte (Nat.add_le_add_left hpage buffer)
  have hfill := sectorAt_set s (buffer + pageSize) byte
  have hcompare : exec (memcmp buffer (buffer + pageSize)) (s.set (buffer + pageSize) byte sectSize) =
      (.ok (s.sectorAt buffer ≠ fill byte), s.set (buffer + pageSize) byte sectSize) := by
    rw [← hkeep, ← hfill]
    rfl
  have hset : exec (memset (buffer + pageSize) byte sectSize) s =
      (.ok ⟨⟩, s.set (buffer + pageSize) byte sectSize) := rfl
  rw [exec_bind_of_ok hset, exec_bind_of_ok hcompare]

/-- How the loop is left: by `break`, or by an exception. -/
def Leaves (accepted : Bool) (result : Except Failure Bool) : Prop :=
  if accepted then result = .ok true else ∃ e, result = .error e

/-- The end of the pattern is expected here: the sector is compared with the marker. -/
theorem exec_marker (s : Process) (hpage : sectSize ≤ pageSize) :
    (exec (do
      memset (buffer + pageSize) 255 sectSize
      let differs ← memcmp buffer (buffer + pageSize)
      if differs then throw (.exception "Does not verify") else return true) s).1 =
    if s.sectorAt buffer = fill 255 then .ok true else .error (.exception "Does not verify") := by
  rw [exec_compare s 255 hpage]
  by_cases hmarker : s.sectorAt buffer = fill 255
  · rw [if_pos hmarker, if_neg (by simpa using hmarker)]
    rfl
  · rw [if_neg hmarker, if_pos (by simpa using hmarker)]
    rfl

/-- The loop is left as `Accepts` says, when there are enough iterations for the sectors that are
left on the device. -/
theorem exec_verifyLoop {expected fuel k : Nat} (hpage : sectSize ≤ pageSize)
    (hbyte : s.currentByte = k) (hfuel : (s.device.drop s.position).length < fuel) :
    Leaves (Accepts expected k (s.device.drop s.position))
      (exec (verifyLoop fd buffer pageSize expected fuel k) s).1 := by
  induction fuel generalizing s k with
  | zero => exact absurd hfuel (Nat.not_lt_zero _)
  | succ fuel ih =>
    rcases hrest : s.device.drop s.position with _ | ⟨sector, rest⟩
    · obtain ⟨e, s', hread⟩ : ∃ e s', exec (read fd buffer sectSize) s = (.error e, s') :=
        read_at_end hrest
      refine ⟨e, ?_⟩
      rw [verifyLoop, exec_bind_of_error hread]
    · have hnext : s.device.drop (s.position + 1) = rest := by
        rw [← List.drop_drop, hrest]
        rfl
      rw [hrest, List.length_cons] at hfuel
      rw [verifyLoop, exec_bind_of_ok (read_sector hrest), exec_get_bind, exec_compare _ _ hpage,
        sectorAt_load, Accepts, show (s.load buffer [sector]).currentByte = k from hbyte]
      by_cases hfill : sector = fill k
      · -- the loop goes on with the next sector
        have hloop := ih (k := k + 1) (s := { (s.load buffer [sector]).set (buffer + pageSize) k sectSize
          with currentByte := k + 1 }) rfl (by
            change (s.device.drop (s.position + 1)).length < fuel
            rw [hnext]
            exact Nat.lt_of_succ_lt_succ hfuel)
        change Leaves (Accepts expected (k + 1) (s.device.drop (s.position + 1))) _ at hloop
        rw [hnext] at hloop
        have hdiffers : ¬ decide (sector ≠ fill k) = true := by simpa using hfill
        rw [if_pos hfill, if_neg hdiffers, exec_bind_of_ok (exec_modify _ _)]
        subst hbyte
        exact hloop
      · have hdiffers : decide (sector ≠ fill k) = true := by simpa using hfill
        rw [if_neg hfill, if_pos hdiffers]
        by_cases hend : expected = 0 ∨ k = expected
        · have hkeep := sectorAt_set_of_le (s.load buffer [sector]) k
            (Nat.add_le_add_left hpage buffer)
          rw [if_pos hend, exec_marker _ hpage, hkeep, sectorAt_load]
          by_cases hmarker : sector = fill 255
          · simp [Leaves, hend, hmarker]
          · simp [Leaves, hmarker]
        · rw [if_neg hend]
          simp [Leaves, hend]

theorem exec_verifyPattern (s : Process) (fd buffer pageSize : Nat) :
    exec (verifyPattern fd buffer pageSize) s =
      exec (verifyLoop fd buffer pageSize s.currentByte (s.device.length + 1) 0)
        ⟨s.mem, 0, s.device, 0⟩ := by
  unfold verifyPattern
  rw [exec_get_bind, exec_bind_of_ok (exec_modify _ _), exec_bind_of_ok (exec_modify _ _)]

/-- Where the end is expected and the marker is no data, the sectors up to the end are exactly
those of the pattern. -/
theorem accepts_iff {expected k : Nat} {rest : List Sector} (hexpected : expected ≠ 0)
    (hmarker : expected % 256 ≠ 255) :
    Accepts expected k rest = true ↔ k ≤ expected ∧
      (∀ j, k + j < expected → rest[j]? = some (fill (k + j))) ∧
      rest[expected - k]? = some (fill 255) := by
  induction rest generalizing k with
  | nil => simp [Accepts]
  | cons sector rest ih =>
    rw [Accepts]
    by_cases hfill : sector = fill k
    · rw [if_pos hfill, ih]
      constructor
      · rintro ⟨hk, hdata, hend⟩
        refine ⟨Nat.le_of_succ_le hk, fun j hj => ?_, ?_⟩
        · cases j with
          | zero => rw [hfill]; rfl
          | succ j =>
            rw [List.getElem?_cons_succ, hdata j (by omega), Nat.add_right_comm, Nat.add_assoc]
        · rw [show expected - k = expected - (k + 1) + 1 by omega, List.getElem?_cons_succ]
          exact hend
      · rintro ⟨hk, hdata, hend⟩
        -- the marker is not the byte of this sector
        have hne : k ≠ expected := by
          rintro rfl
          rw [Nat.sub_self, List.getElem?_cons_zero, hfill] at hend
          exact hmarker (fill_injective.mp (Option.some.inj hend))
        refine ⟨by omega, fun j hj => ?_, ?_⟩
        · have hsector := hdata (j + 1) (by omega)
          rw [List.getElem?_cons_succ] at hsector
          rw [hsector, Nat.add_right_comm, Nat.add_assoc]
        · rw [show expected - k = expected - (k + 1) + 1 by omega, List.getElem?_cons_succ] at hend
          exact hend
    · rw [if_neg hfill, decide_eq_true_eq]
      constructor
      · rintro ⟨hend, hsector⟩
        obtain rfl := hend.resolve_left hexpected
        refine ⟨Nat.le_refl _, fun j hj => absurd hj (by omega), ?_⟩
        rw [Nat.sub_self, List.getElem?_cons_zero, hsector]
      · rintro ⟨hk, hdata, hend⟩
        have hk' : k = expected := by
          by_contra hne
          have hfirst := hdata 0 (by omega)
          exact hfill (Option.some.inj hfirst)
        rw [hk', Nat.sub_self, List.getElem?_cons_zero] at hend
        exact ⟨.inr hk', Option.some.inj hend⟩

theorem dataSectors_eq {q : Nat} (hq : 0 < q) :
    dataSectors (2 * sectSize * q) = 4 * (q * q) + 5 * q + 5 := by
  have hpage : 2 * sectSize * q / sectSize = 2 * q := by simp only [sectSize]; omega
  have hlong : (2 * sectSize * q + 2 * sectSize * q / 2) / sectSize = 3 * q := by
    simp only [sectSize]
    omega
  have hlonger : (2 * sectSize * q * 2 + sectSize) / sectSize = 4 * q + 1 := by
    simp only [sectSize]
    omega
  have hsquare : (2 * q - 1) * (2 * q) + 2 * q = 4 * (q * q) := by
    rw [← Nat.succ_mul, show (2 * q - 1).succ = 2 * q by omega, Nat.mul_mul_mul_comm]
  rw [dataSectors, hpage, hlong, hlonger]
  omega

/-- The number of data sectors is not that of the marker, whatever the page size. -/
theorem dataSectors_mod (m : Nat) : dataSectors (2 * sectSize * 2 ^ m) % 256 ≠ 255 := by
  rw [dataSectors_eq (Nat.two_pow_pos m)]
  by_cases hm : m < 8
  · have hsmall : ∀ m < 8, (4 * (2 ^ m * 2 ^ m) + 5 * 2 ^ m + 5) % 256 ≠ 255 := by decide
    exact hsmall m hm
  · obtain ⟨n, rfl⟩ := Nat.exists_eq_add_of_le (Nat.le_of_not_lt hm)
    have hsquare : 2 ^ (8 + n) * 2 ^ (8 + n) = 256 * (2 ^ n * 2 ^ (8 + n)) := by
      rw [Nat.pow_add, Nat.mul_assoc]
    rw [hsquare, Nat.pow_add]
    omega

/-- `verify_pattern` accepts what `Accepts` says from the first sector on, and raises otherwise. -/
theorem verifyPattern_leaves (s : Process) (fd buffer : Nat) (hpage : sectSize ≤ pageSize) :
    Leaves (Accepts s.currentByte 0 s.device) (exec (verifyPattern fd buffer pageSize) s).1 := by
  rw [exec_verifyPattern]
  have hloop : Leaves (Accepts s.currentByte 0 (s.device.drop 0))
      (exec (verifyLoop fd buffer pageSize s.currentByte (s.device.length + 1) 0)
        ⟨s.mem, 0, s.device, 0⟩).1 :=
    exec_verifyLoop (s := ⟨s.mem, 0, s.device, 0⟩) hpage rfl (Nat.lt_succ_self _)
  exact hloop

theorem Leaves.ok_iff {accepted : Bool} {result : Except Failure Bool} (h : Leaves accepted result) :
    result = .ok true ↔ accepted = true := by
  cases accepted with
  | true => exact iff_of_true h rfl
  | false =>
    obtain ⟨e, rfl⟩ := h
    exact iff_of_false (by simp) (by simp)

theorem Leaves.raises {accepted : Bool} {result : Except Failure Bool} (h : Leaves accepted result)
    (hne : result ≠ .ok true) : ∃ e, result = .error e := by
  cases accepted with
  | true => exact absurd h hne
  | false => exact h

/-! ## A pattern and what is accepted -/

theorem exists_halfPage {k : Nat} (hk : 0 < k) (hpage : pageSize = sectSize * 2 ^ k) :
    ∃ m, pageSize = 2 * sectSize * 2 ^ m := by
  obtain ⟨m, rfl⟩ := Nat.exists_eq_add_of_le hk
  exact ⟨m, by rw [hpage, Nat.pow_add, Nat.pow_one, ← Nat.mul_assoc, Nat.mul_comm sectSize 2]⟩

theorem sectSize_le {k : Nat} (hpage : pageSize = sectSize * 2 ^ k) : sectSize ≤ pageSize := by
  rw [hpage]
  exact Nat.le_mul_of_pos_right _ (Nat.two_pow_pos k)

/-- What a process has written that has opened the device. -/
theorem writePattern_written {k : Nat} {u : PUnit} (hk : 0 < k) (hpage : pageSize = sectSize * 2 ^ k)
    (hstart : s.currentByte = 0 ∧ s.position = 0)
    (hrun : Returns (writePattern fd buffer pageSize) s u s') :
    s'.currentByte = dataSectors pageSize ∧
      (∀ k < dataSectors pageSize, s'.device[k]? = some (fill k)) ∧
      s'.device[dataSectors pageSize]? = some (fill 255) := by
  obtain ⟨m, rfl⟩ := exists_halfPage hk hpage
  have hpos : 0 < 2 * sectSize * 2 ^ m := Nat.mul_pos (by decide) (Nat.two_pow_pos m)
  have hpattern : Pattern 0 s := ⟨⟨fun k hk => absurd hk (Nat.not_lt_zero k), hstart.2⟩, hstart.1⟩
  exact writePattern_returns hpattern ⟨2 ^ m, rfl⟩ hpos hrun

/-- Where the length of the pattern is known, `verify_pattern` accepts the pattern. -/
theorem verifyPattern_ok_iff {k : Nat} (hk : 0 < k) (hpage : pageSize = sectSize * 2 ^ k)
    (hbyte : s.currentByte = dataSectors pageSize) :
    (exec (verifyPattern fd buffer pageSize) s).1 = .ok true ↔
      (∀ k < dataSectors pageSize, s.device[k]? = some (fill k)) ∧
        s.device[dataSectors pageSize]? = some (fill 255) := by
  have hle := sectSize_le hpage
  obtain ⟨m, rfl⟩ := exists_halfPage hk hpage
  have hne : dataSectors (2 * sectSize * 2 ^ m) ≠ 0 := by
    rw [dataSectors_eq (Nat.two_pow_pos m)]
    exact Nat.succ_ne_zero _
  rw [(verifyPattern_leaves s fd buffer hle).ok_iff, hbyte, accepts_iff hne (dataSectors_mod m)]
  simp only [Nat.zero_le, Nat.zero_add, Nat.sub_zero, true_and]

/-- What a process writes with `write_pattern` after it has opened the device, and what
`verify_pattern` then accepts: the contents that start with the pattern and the marker, and no
others. -/
theorem pattern_verifies {k : Nat} {u : PUnit} (hk : 0 < k) (hpage : pageSize = sectSize * 2 ^ k)
    (hstart : s.currentByte = 0 ∧ s.position = 0)
    (hrun : Returns (writePattern fd buffer pageSize) s u s') :
    (∀ k < dataSectors pageSize, s'.device[k]? = some (fill k)) ∧
      s'.device[dataSectors pageSize]? = some (fill 255) ∧
    ∀ content : List Sector,
      let result := (exec (verifyPattern fd buffer pageSize) { s' with device := content }).1
      (result = .ok true ↔ (∀ k < dataSectors pageSize, content[k]? = some (fill k)) ∧
        content[dataSectors pageSize]? = some (fill 255)) ∧
      (result ≠ .ok true → ∃ e, result = .error e) := by
  obtain ⟨hbyte, hdata, hend⟩ := writePattern_written hk hpage hstart hrun
  refine ⟨hdata, hend, fun content => ?_⟩
  intro result
  let damaged : Process := { s' with device := content }
  have hleaves : Leaves _ result := verifyPattern_leaves damaged fd buffer (sectSize_le hpage)
  exact ⟨verifyPattern_ok_iff (s := damaged) hk hpage hbyte, hleaves.raises⟩

/-- A page of two sectors and a device of 15 sectors. -/
theorem pattern_verifies_two_sectors :
    let blank : Process := ⟨fun _ => 0, 0, List.replicate 15 (fill 0), 0⟩
    let written := (exec (writePattern 3 4096 1024) blank).2
    written.device[14]? = some (fill 255) ∧
      (exec (verifyPattern 3 4096 1024) { written with device := List.replicate 15 (fill 0) }).1
        ≠ .ok true := by
  intro blank written
  have hreturns : (exec (writePattern 3 4096 1024) blank).1.toBool = true := by decide +kernel
  have hrun : Returns (writePattern 3 4096 1024) blank ⟨⟩ written := returns_of_toBool hreturns
  have hpage : 1024 = sectSize * 2 ^ 1 := by decide
  have h := pattern_verifies (k := 1) Nat.one_pos hpage ⟨rfl, rfl⟩ hrun
  have hdata : dataSectors 1024 = 14 := by decide
  rw [hdata] at h
  refine ⟨h.2.1, fun hok => ?_⟩
  have hfirst := ((h.2.2 (List.replicate 15 (fill 0))).1.mp hok).1 1 (by decide)
  have hfill : fill 0 = fill 1 := Option.some.inj hfirst
  exact absurd (fill_injective.mp hfill) (by decide)

end DrbdTests.MisalignedBio
