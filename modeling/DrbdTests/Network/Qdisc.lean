import Mathlib.Logic.Function.Basic
import DrbdTests.Lib.Digits
import DrbdTests.Lib.Text

/-!
# `tc`

What `tc` does on one host, as far as packets are shaped by their destination: `prio` qdiscs at the
root of devices with `u32` filters on the destination address, and `netem` qdiscs below their
classes. Numbers in handles and class ids are hexadecimal, numbers of bands decimal, and band `b` is
the class `b + 1`. A command that has nothing to act upon changes nothing.
-/

namespace DrbdTests.Network

/-- `major:minor`; a handle has the minor number zero. -/
structure TcId where
  major : Nat
  minor : Nat
  deriving DecidableEq, Repr

def TcId.read (text : String) : Option TcId :=
  match text.toList.dropWhile (· ≠ ':') with
  | [] => none
  | _ :: minor => do
    let major ← Digits.readHex (text.toList.takeWhile (· ≠ ':'))
    let minor ← Digits.readHex minor
    return ⟨major, minor⟩

structure Filter where
  dst : String
  flowid : TcId
  deriving DecidableEq, Repr

/-- A `netem` qdisc below a class. -/
structure Leaf where
  parent : TcId
  handle : TcId
  netem : List String
  deriving DecidableEq, Repr

/-- A `prio` qdisc. The filters are listed in the order in which they were added, which is the order
in which they are looked at. -/
structure Qdisc where
  handle : TcId
  bands : Nat
  priomap : List Nat
  filters : List Filter
  leaves : List Leaf
  deriving DecidableEq, Repr

/-- The qdisc at the root of each device. -/
abbrev Devices := String → Option Qdisc

/-! ## Packets -/

namespace Qdisc

def HasClass (q : Qdisc) (c : TcId) : Prop :=
  c.major = q.handle.major ∧ 1 ≤ c.minor ∧ c.minor ≤ q.bands

instance (q : Qdisc) (c : TcId) : Decidable (q.HasClass c) := by
  unfold HasClass
  infer_instance

/-- The class of packets that no filter matches, by the lower bits of their priority. -/
def defaultClass (q : Qdisc) (priority : Nat) : TcId :=
  ⟨q.handle.major, q.priomap.getD (priority % 16) 0 + 1⟩

/-- The class that the filters name for a destination. -/
def flow (q : Qdisc) (dst : String) : Option TcId :=
  (q.filters.find? fun filter => filter.dst = dst).map Filter.flowid

/-- The class a packet is put in. One that is sent to a class that does not exist goes where priority
zero goes. -/
def classOf (q : Qdisc) (dst : String) (priority : Nat) : TcId :=
  match q.flow dst with
  | some c => if q.HasClass c then c else q.defaultClass 0
  | none => q.defaultClass priority

/-- The arguments of the `netem` qdisc below a class. -/
def leaf (q : Qdisc) (c : TcId) : Option (List String) :=
  (q.leaves.find? fun leaf => leaf.parent = c).map Leaf.netem

/-- How packets to a destination are shaped. -/
def shaping (q : Qdisc) (dst : String) (priority : Nat) : Option (List String) :=
  q.leaf (q.classOf dst priority)

/-- `filter add` -/
def addFilter (q : Qdisc) (parent : TcId) (filter : Filter) : Qdisc :=
  if parent = q.handle then { q with filters := q.filters ++ [filter] } else q

/-- `qdisc replace` below a class removes the qdisc that is there and adds the new one. No handle is
used twice on a device. -/
def setLeaf (q : Qdisc) (new : Leaf) : Qdisc :=
  if q.HasClass new.parent ∧ new.handle ≠ q.handle ∧
      ∀ leaf ∈ q.leaves, leaf.handle = new.handle → leaf.parent = new.parent then
    { q with leaves := new :: q.leaves.filter fun leaf => leaf.parent ≠ new.parent }
  else q

/-- `qdisc del` below a class. -/
def removeLeaf (q : Qdisc) (parent handle : TcId) : Qdisc :=
  { q with leaves := q.leaves.filter fun leaf => ¬ (leaf.parent = parent ∧ leaf.handle = handle) }

end Qdisc

/-! ## Commands -/

inductive TcCommand
  | delRoot (dev : String)
  | replaceRoot (dev : String) (handle : TcId) (bands : Nat) (priomap : List Nat)
  | addFilter (dev : String) (parent : TcId) (filter : Filter)
  | replaceLeaf (dev : String) (leaf : Leaf)
  | delLeaf (dev : String) (parent handle : TcId)
  deriving DecidableEq, Repr

namespace TcCommand

def readDel (dev : String) : List String → Option TcCommand
  | ["root"] => some (delRoot dev)
  | ["parent", parent, "handle", handle] => do
    return delLeaf dev (← TcId.read parent) (← TcId.read handle)
  | _ => none

def readReplace (dev : String) : List String → Option TcCommand
  | "root" :: "handle" :: handle :: "prio" :: "bands" :: bands :: "priomap" :: priomap => do
    return replaceRoot dev (← TcId.read handle) (← Text.decimal bands.toList)
      (← priomap.mapM fun band => Text.decimal band.toList)
  | "parent" :: parent :: "handle" :: handle :: "netem" :: netem => do
    return replaceLeaf dev ⟨← TcId.read parent, ← TcId.read handle, netem⟩
  | _ => none

def readFilter (dev : String) : List String → Option TcCommand
  | ["parent", parent, "protocol", "ip", "prio", "1", "u32", "match", "ip", "dst", dst, "flowid",
      flowid] => do
    return addFilter dev (← TcId.read parent) ⟨dst, ← TcId.read flowid⟩
  | _ => none

def read : List String → Option TcCommand
  | "tc" :: "qdisc" :: "del" :: "dev" :: dev :: args => readDel dev args
  | "tc" :: "qdisc" :: "replace" :: "dev" :: dev :: args => readReplace dev args
  | "tc" :: "filter" :: "add" :: "dev" :: dev :: args => readFilter dev args
  | _ => none

/-- A change of the qdisc of one device. -/
def change (s : Devices) (dev : String) (f : Qdisc → Qdisc) : Devices :=
  Function.update s dev ((s dev).map f)

/-- The root `qdisc replace` removes the qdisc that is there, with all its filters and leaves. -/
def apply : TcCommand → Devices → Devices
  | delRoot dev, s => Function.update s dev none
  | replaceRoot dev handle bands priomap, s =>
    Function.update s dev (some ⟨handle, bands, priomap, [], []⟩)
  | addFilter dev parent filter, s => change s dev fun q => q.addFilter parent filter
  | replaceLeaf dev leaf, s => change s dev fun q => q.setLeaf leaf
  | delLeaf dev parent handle, s => change s dev fun q => q.removeLeaf parent handle

def device : TcCommand → String
  | delRoot dev => dev
  | replaceRoot dev _ _ _ => dev
  | addFilter dev _ _ => dev
  | replaceLeaf dev _ => dev
  | delLeaf dev _ _ => dev

end TcCommand

/-- What a command line that succeeds does. -/
def tc (cmd : List String) (s : Devices) : Devices :=
  match TcCommand.read cmd with
  | some command => command.apply s
  | none => s

/-! ## Reading ids -/

theorem read_id {major minor : List Char} (h : ':' ∉ major) :
    TcId.read (String.ofList (major ++ ':' :: minor)) = do
      let major ← Digits.readHex major
      let minor ← Digits.readHex minor
      return ⟨major, minor⟩ := by
  have hall : ∀ c ∈ major, (decide (c ≠ ':')) = true := by
    intro c hc
    rw [decide_eq_true_eq]
    intro heq
    exact h (heq ▸ hc)
  unfold TcId.read
  rw [String.toList_ofList, List.dropWhile_append_of_pos hall, List.takeWhile_append_of_pos hall,
    List.dropWhile_cons_of_neg (by simp), List.takeWhile_cons_of_neg (by simp), List.append_nil]

theorem colon_notMem_toDigits (n : Nat) : ':' ∉ Nat.toDigits 10 n := by
  intro hmem
  have hdigit := Nat.isDigit_of_mem_toDigits (by omega) (by omega) hmem
  revert hdigit
  decide

/-- A class id with a decimal number for the class. -/
theorem read_class (n : Nat) : TcId.read ("1:" ++ toString n) = some ⟨1, Digits.reread 16 n⟩ := by
  have htext : "1:" ++ toString n = String.ofList (['1'] ++ ':' :: Nat.toDigits 10 n) := by
    rw [Nat.toString_eq_ofList_toDigits, ← String.toList_inj, String.toList_append]
    simp only [String.toList_ofList]
    rfl
  rw [htext, read_id (by simp), Digits.readHex_toDigits]
  rfl

theorem read_handle (n : Nat) : TcId.read (toString n ++ ":") = some ⟨Digits.reread 16 n, 0⟩ := by
  have htext : toString n ++ ":" = String.ofList (Nat.toDigits 10 n ++ ':' :: []) := by
    rw [Nat.toString_eq_ofList_toDigits, ← String.toList_inj, String.toList_append]
    simp only [String.toList_ofList]
    rfl
  rw [htext, read_id (colon_notMem_toDigits n), Digits.readHex_toDigits]
  rfl

theorem mapM_replicate {α β : Type} {f : α → Option β} {x : α} {y : β} (h : f x = some y) (n : Nat) :
    (List.replicate n x).mapM f = some (List.replicate n y) := by
  induction n with
  | zero => rfl
  | succ n ih =>
    rw [List.replicate_succ, List.mapM_cons, h, ih]
    rfl

/-! ## What the commands leave unchanged -/

namespace TcCommand

theorem change_self (s : Devices) (dev : String) (f : Qdisc → Qdisc) :
    change s dev f dev = (s dev).map f := Function.update_self dev _ s

end TcCommand

namespace Qdisc

variable {q : Qdisc} {c : TcId} {new : Leaf}

theorem leaf_setLeaf_self (hclass : q.HasClass new.parent) (hroot : new.handle ≠ q.handle)
    (hunused : ∀ leaf ∈ q.leaves, leaf.handle = new.handle → leaf.parent = new.parent) :
    (q.setLeaf new).leaf new.parent = some new.netem := by
  unfold setLeaf
  rw [if_pos ⟨hclass, hroot, hunused⟩]
  unfold leaf
  rw [List.find?_cons_of_pos (by simp)]
  rfl

theorem find?_filter_of_imp {α : Type} {l : List α} {p keep : α → Bool}
    (h : ∀ x, p x = true → keep x = true) : (l.filter keep).find? p = l.find? p := by
  rw [List.find?_filter]
  congr 1
  funext x
  rcases hp : p x with _ | _
  · simp
  · simp [h x hp]

theorem leaf_setLeaf_other (h : c ≠ new.parent) : (q.setLeaf new).leaf c = q.leaf c := by
  unfold setLeaf
  split
  · unfold leaf
    rw [List.find?_cons_of_neg (by simpa using Ne.symm h), find?_filter_of_imp]
    intro leaf hleaf
    simpa [of_decide_eq_true hleaf] using h
  · rfl

theorem leaf_removeLeaf_other {parent handle : TcId} (h : c ≠ parent) :
    (q.removeLeaf parent handle).leaf c = q.leaf c := by
  unfold removeLeaf leaf
  rw [find?_filter_of_imp]
  intro leaf hleaf
  simp [of_decide_eq_true hleaf, h]

theorem leaf_removeLeaf_self {parent handle : TcId}
    (h : ∀ leaf ∈ q.leaves, leaf.parent = parent → leaf.handle = handle) :
    (q.removeLeaf parent handle).leaf parent = none := by
  unfold removeLeaf leaf
  rw [Option.map_eq_none_iff, List.find?_eq_none]
  intro leaf hleaf
  obtain ⟨hmem, hkept⟩ := List.mem_filter.mp hleaf
  intro hparent
  have hparent := of_decide_eq_true hparent
  exact of_decide_eq_true hkept ⟨hparent, h leaf hmem hparent⟩

theorem mem_leaves_setLeaf {leaf : Leaf} (h : leaf ∈ (q.setLeaf new).leaves) :
    leaf = new ∨ leaf ∈ q.leaves := by
  unfold setLeaf at h
  split at h
  · rcases List.mem_cons.mp h with rfl | h
    · exact .inl rfl
    · exact .inr (List.mem_of_mem_filter h)
  · exact .inr h

theorem mem_leaves_removeLeaf {leaf : Leaf} {parent handle : TcId}
    (h : leaf ∈ (q.removeLeaf parent handle).leaves) : leaf ∈ q.leaves := List.mem_of_mem_filter h

/-- Commands for leaves change nothing but the leaves. -/
theorem setLeaf_root (q : Qdisc) (new : Leaf) :
    { q.setLeaf new with leaves := [] } = { q with leaves := [] } := by
  unfold setLeaf
  split <;> rfl

theorem removeLeaf_root (q : Qdisc) (parent handle : TcId) :
    { q.removeLeaf parent handle with leaves := [] } = { q with leaves := [] } := rfl

end Qdisc

end DrbdTests.Network
