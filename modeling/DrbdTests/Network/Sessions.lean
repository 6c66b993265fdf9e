import DrbdTests.Network.Addresses
import DrbdTests.Network.Machine

/-!
# The packet filter over test runs

`init_host` lets the chains `INPUT` and `OUTPUT` jump to two chains of its own; `cleanup_framework` takes
the jumps away again, and deletes its chains unless something still jumps to them. With a network
namespace `init_host` does this in the initial namespace and in the new one, and `cleanup_framework` only
undoes it in the new one.

* `Kept.install`, `Kept.uninstall`: what the two scripts do to a filter with jumps that are left over.
* `Kept.after`: the same for the log of a host, whatever else was run.
* `jumps_left`: over any test runs on a host, the filter of the initial namespace is as it was but for one
  jump in `INPUT` and one in `OUTPUT` for every test run that has not cleaned up there. A test run that
  ends well leaves them exactly when it uses a network namespace.
-/

namespace DrbdTests.Network

open Stateful

/-! ## The scripts on a filter -/

def testChains : List String := ["drbd-test-input", "drbd-test-output"]

def jumpTo (chain : String) : Rule := ["-j", chain]

/-- The lines of `init_iptables`. -/
def initLines : List Shell.AndOr :=
  testChains.map (fun chain => ⟨["iptables", "-F", chain], [(.or, ["iptables", "-N", chain])]⟩) ++
    [⟨["iptables", "-I", "INPUT", "-j", "drbd-test-input"], []⟩,
      ⟨["iptables", "-I", "OUTPUT", "-j", "drbd-test-output"], []⟩]

/-- The lines of `cleanup_iptables`. -/
def cleanupLines : List Shell.AndOr :=
  [⟨["iptables", "-D", "INPUT", "-j", "drbd-test-input"], []⟩,
    ⟨["iptables", "-D", "OUTPUT", "-j", "drbd-test-output"], []⟩] ++
  testChains.map fun chain =>
    ⟨["iptables", "-F", chain], [(.and, ["iptables", "-X", chain]), (.or, ["true"])]⟩

variable {t t' : Table} {chain builtin : String} {k : Nat} {rules : List Rule}

/-- A command that succeeds. -/
theorem command_of_some (args : List String) (h : t.iptables args = some t') :
    Table.command ("iptables" :: args) t = (t', true) := by
  simp only [Table.command, h]

theorem command_of_none (args : List String) (h : t.iptables args = none) :
    Table.command ("iptables" :: args) t = (t, false) := by
  simp only [Table.command, h]

theorem flush_of_mem (h : chain ∈ t.keys) :
    Table.command ["iptables", "-F", chain] t = (t.set chain [], true) :=
  command_of_some _ (if_pos h)

theorem flush_or_create (t : Table) (chain : String) :
    ((⟨["iptables", "-F", chain], [(.or, ["iptables", "-N", chain])]⟩ : Shell.AndOr).run
      Table.command t).state = t.set chain [] ∧
    ((⟨["iptables", "-F", chain], [(.or, ["iptables", "-N", chain])]⟩ : Shell.AndOr).run
      Table.command t).ok = true := by
  obtain ⟨hstate, hok⟩ :=
    Shell.run_orElse Table.command ["iptables", "-F", chain] ["iptables", "-N", chain] t
  rw [hstate, hok]
  by_cases hmem : chain ∈ t.keys
  · rw [flush_of_mem hmem]
    exact ⟨rfl, rfl⟩
  · have hflush := command_of_none ["-F", chain] (if_neg hmem)
    have hcreate := command_of_some ["-N", chain] (if_neg hmem)
    rw [hflush, hcreate]
    exact ⟨rfl, rfl⟩

theorem insert_jump (hrules : t.get? builtin = some rules) (hchain : chain ∈ t.keys)
    (hown : chain ∉ builtinChains) : Table.command ["iptables", "-I", builtin, "-j", chain] t =
      (t.set builtin (jumpTo chain :: rules), true) := by
  have hbuiltin : builtin ∈ t.keys := Dict.mem_keys_iff.mpr (by rw [hrules]; rfl)
  have haccepts : t.Accepts ["-j", chain] := Or.inr ⟨hchain, hown⟩
  have hedit : t.edit "-I" builtin ["-j", chain] = some (t.set builtin (jumpTo chain :: rules)) := by
    rw [Table.edit, if_pos ⟨hbuiltin, Or.inr haccepts⟩]
    simp only [Network.iptables, Option.map_some, Function.update_self, Table.chains, hrules,
      Option.getD_some, jumpTo]
  exact command_of_some ["-I", builtin, "-j", chain] hedit

theorem delete_jump (rules : List Rule) (hrules : t.get? builtin = some (jumpTo chain :: rules)) :
    Table.command ["iptables", "-D", builtin, "-j", chain] t = (t.set builtin rules, true) := by
  have hbuiltin : builtin ∈ t.keys := Dict.mem_keys_iff.mpr (by rw [hrules]; rfl)
  have hedit : t.edit "-D" builtin ["-j", chain] = some (t.set builtin rules) := by
    rw [Table.edit, if_pos ⟨hbuiltin, Or.inl rfl⟩]
    simp only [Network.iptables, Table.chains, hrules, Option.getD_some, jumpTo, List.mem_cons_self,
      if_true, Option.map_some, Function.update_self, List.erase_cons_head]
  exact command_of_some ["-D", builtin, "-j", chain] hedit

theorem flush_and_delete (h : chain ∈ t.keys) :
    ((⟨["iptables", "-F", chain], [(.and, ["iptables", "-X", chain]), (.or, ["true"])]⟩ :
      Shell.AndOr).run Table.command t).state =
        (if Table.Deletable (t.set chain []) chain then (t.set chain []).erase chain
          else t.set chain []) ∧
    ((⟨["iptables", "-F", chain], [(.and, ["iptables", "-X", chain]), (.or, ["true"])]⟩ :
      Shell.AndOr).run Table.command t).ok = true := by
  obtain ⟨hstate, hok⟩ := Shell.run_tolerant Table.command ["iptables", "-F", chain]
    ["iptables", "-X", chain] ["true"] (fun t => rfl) t
  refine ⟨?_, hok⟩
  rw [hstate, flush_of_mem h, if_pos rfl]
  by_cases hdelete : Table.Deletable (t.set chain []) chain
  · rw [if_pos hdelete]
    exact congrArg Prod.fst (command_of_some ["-X", chain] (if_pos hdelete))
  · rw [if_neg hdelete]
    exact congrArg Prod.fst (command_of_none ["-X", chain] (if_neg hdelete))

/-! ## Jumps that are left over -/

/-- The rule does not jump to a chain of the tests. -/
def IsPlain (rule : Rule) : Prop := ∀ target ∈ testChains, jumpTarget rule ≠ some target

/-- A filter that no test run has changed. -/
structure Untouched (t : Table) : Prop where
  input : "INPUT" ∈ t.keys
  output : "OUTPUT" ∈ t.keys
  absent : ∀ chain ∈ testChains, chain ∉ t.keys
  unused : ∀ chain ∈ testChains, ¬ t.Refers chain

/-- The filter has as many jumps to the chains of the tests as are given; apart from these chains it is
otherwise the same. -/
structure Jumping (t : Table) (k : Nat) (t' : Table) : Prop where
  input : ∃ rules, t.get? "INPUT" = some rules ∧
    t'.get? "INPUT" = some (List.replicate k (jumpTo "drbd-test-input") ++ rules)
  output : ∃ rules, t.get? "OUTPUT" = some rules ∧
    t'.get? "OUTPUT" = some (List.replicate k (jumpTo "drbd-test-output") ++ rules)
  other : ∀ chain, chain ∉ ["INPUT", "OUTPUT"] → chain ∉ testChains → t'.get? chain = t.get? chain
  own : ∀ chain ∈ testChains, ∀ rules, t'.get? chain = some rules → ∀ rule ∈ rules, IsPlain rule

/-- The chains of the tests are there as long as something jumps to them. -/
structure Kept (t : Table) (k : Nat) (t' : Table) : Prop extends Jumping t k t' where
  test : ∀ chain ∈ testChains, chain ∈ t'.keys ↔ 0 < k

/-- These rules behind some jumps. -/
def withJumps (t : Table) (k : Nat) (a b : List Rule) : Table :=
  (t.set "INPUT" (List.replicate k (jumpTo "drbd-test-input") ++ a)).set "OUTPUT"
    (List.replicate k (jumpTo "drbd-test-output") ++ b)

theorem not_builtin_of_test (h : chain ∈ testChains) : chain ∉ builtinChains := by
  revert chain
  decide

theorem not_hooked_of_test (h : chain ∈ testChains) : chain ∉ ["INPUT", "OUTPUT"] := by
  revert chain
  decide

theorem withJumps_other (t : Table) (k : Nat) (a b : List Rule) (h : chain ∉ ["INPUT", "OUTPUT"]) :
    (withJumps t k a b).get? chain = t.get? chain := by
  have hne : chain ≠ "INPUT" ∧ chain ≠ "OUTPUT" := by simpa using h
  rw [withJumps, Dict.get?_set, if_neg hne.2, Dict.get?_set, if_neg hne.1]

theorem refers_iff : t.Refers chain ↔ ∃ from' rules, t.get? from' = some rules ∧
    ∃ rule ∈ rules, jumpTarget rule = some chain := by
  constructor
  · rintro ⟨⟨from', rules⟩, hentry, hrule⟩
    exact ⟨from', rules, Dict.get?_eq_some_iff.mpr hentry, hrule⟩
  · rintro ⟨from', rules, hget, hrule⟩
    exact ⟨(from', rules), Dict.get?_eq_some_iff.mp hget, hrule⟩

namespace Jumping

theorem start (hu : Untouched t) : Kept t 0 t where
  input := by
    obtain ⟨rules, hrules⟩ := Option.isSome_iff_exists.mp (Dict.mem_keys_iff.mp hu.input)
    exact ⟨rules, hrules, hrules⟩
  output := by
    obtain ⟨rules, hrules⟩ := Option.isSome_iff_exists.mp (Dict.mem_keys_iff.mp hu.output)
    exact ⟨rules, hrules, hrules⟩
  other _ _ _ := rfl
  own chain hchain rules hrules := by
    refine absurd (Dict.mem_keys_iff.mpr ?_) (hu.absent chain hchain)
    rw [hrules]
    rfl
  test chain hchain := iff_of_false (hu.absent chain hchain) (Nat.lt_irrefl 0)

/-- Only the jumps at the front lead to a chain of the tests. -/
theorem mem_of_front (hu : Untouched t) {own front : String} {a : List Rule} {rule : Rule}
    (ha : t.get? builtin = some a) (hown : own ∈ testChains)
    (hrule : rule ∈ List.replicate k (jumpTo front) ++ a) (hjump : jumpTarget rule = some own) :
    0 < k ∧ front = own := by
  rcases List.mem_append.mp hrule with hfront | hback
  · obtain ⟨hk, rfl⟩ := List.mem_replicate.mp hfront
    exact ⟨Nat.pos_of_ne_zero hk, Option.some.inj hjump⟩
  · exact absurd (refers_iff.mpr ⟨builtin, a, ha, rule, hback, hjump⟩) (hu.unused own hown)

theorem refers_iff_pos (h : Jumping t k t') (hu : Untouched t) (hchain : chain ∈ testChains) :
    t'.Refers chain ↔ 0 < k := by
  obtain ⟨a, ha, hinput⟩ := h.input
  obtain ⟨b, hb, houtput⟩ := h.output
  constructor
  · intro hrefers
    obtain ⟨from', rules, hget, rule, hrule, hjump⟩ := refers_iff.mp hrefers
    by_cases hin : from' = "INPUT"
    · rw [hin, hinput] at hget
      obtain rfl := Option.some.inj hget
      exact (mem_of_front hu ha hchain hrule hjump).1
    by_cases hout : from' = "OUTPUT"
    · rw [hout, houtput] at hget
      obtain rfl := Option.some.inj hget
      exact (mem_of_front hu hb hchain hrule hjump).1
    by_cases htest : from' ∈ testChains
    · exact absurd hjump (h.own from' htest rules hget rule hrule chain hchain)
    · rw [h.other from' (by simp [hin, hout]) htest] at hget
      exact absurd (refers_iff.mpr ⟨from', rules, hget, rule, hrule, hjump⟩) (hu.unused chain hchain)
  · intro hk
    have hmem : ∀ (front : String) (rules : List Rule),
        jumpTo front ∈ List.replicate k (jumpTo front) ++ rules := fun front rules =>
      List.mem_append_left _ (List.mem_replicate.mpr ⟨Nat.ne_of_gt hk, rfl⟩)
    rcases List.mem_cons.mp hchain with rfl | hchain
    · exact refers_iff.mpr ⟨_, _, hinput, _, hmem _ a, rfl⟩
    · obtain rfl := List.mem_singleton.mp hchain
      exact refers_iff.mpr ⟨_, _, houtput, _, hmem _ b, rfl⟩

/-- The own chains can be given other rules. -/
theorem set_own (h : Jumping t k t') (hchain : chain ∈ testChains)
    (hplain : ∀ rule ∈ rules, IsPlain rule) : Jumping t k (t'.set chain rules) := by
  have hin : "INPUT" ≠ chain := fun he => not_hooked_of_test hchain (by simp [← he])
  have hout : "OUTPUT" ≠ chain := fun he => not_hooked_of_test hchain (by simp [← he])
  refine ⟨?_, ?_, ?_, ?_⟩
  · rw [Dict.get?_set, if_neg hin]
    exact h.input
  · rw [Dict.get?_set, if_neg hout]
    exact h.output
  · intro chain' hhooked htest
    have hne : chain' ≠ chain := fun he => htest (he ▸ hchain)
    rw [Dict.get?_set, if_neg hne]
    exact h.other chain' hhooked htest
  · intro chain' htest rules' hget
    rw [Dict.get?_set] at hget
    split at hget
    · obtain rfl := Option.some.inj hget
      exact hplain
    · exact h.own chain' htest rules' hget

theorem erase_own (h : Jumping t k t') (hchain : chain ∈ testChains) : Jumping t k (t'.erase chain) := by
  have hin : "INPUT" ≠ chain := fun he => not_hooked_of_test hchain (by simp [← he])
  have hout : "OUTPUT" ≠ chain := fun he => not_hooked_of_test hchain (by simp [← he])
  refine ⟨?_, ?_, ?_, ?_⟩
  · rw [Dict.get?_erase, if_neg hin]
    exact h.input
  · rw [Dict.get?_erase, if_neg hout]
    exact h.output
  · intro chain' hhooked htest
    have hne : chain' ≠ chain := fun he => htest (he ▸ hchain)
    rw [Dict.get?_erase, if_neg hne]
    exact h.other chain' hhooked htest
  · intro chain' htest rules' hget
    rw [Dict.get?_erase] at hget
    split at hget
    · cases hget
    · exact h.own chain' htest rules' hget

/-- Other numbers of jumps. -/
theorem set_jumps (h : Jumping t k t') (k' : Nat) {a b : List Rule} (ha : t.get? "INPUT" = some a)
    (hb : t.get? "OUTPUT" = some b) : Jumping t k' (withJumps t' k' a b) := by
  refine ⟨⟨a, ha, ?_⟩, ⟨b, hb, ?_⟩, ?_, ?_⟩
  · rw [withJumps, Dict.get?_set, if_neg (by decide), Dict.get?_set, if_pos rfl]
  · rw [withJumps, Dict.get?_set, if_pos rfl]
  · intro chain hhooked htest
    rw [withJumps_other t' k' a b hhooked]
    exact h.other chain hhooked htest
  · intro chain htest rules hget
    rw [withJumps_other t' k' a b (not_hooked_of_test htest)] at hget
    exact h.own chain htest rules hget

/-- A chain of the tests is flushed, and deleted when nothing jumps to it. -/
theorem drop_own (h : Jumping t k t') (hu : Untouched t) (hchain : chain ∈ testChains)
    (hmem : chain ∈ t'.keys) : ∃ dropped,
      (⟨["iptables", "-F", chain], [(.and, ["iptables", "-X", chain]), (.or, ["true"])]⟩ :
        Shell.AndOr).run Table.command t' = dropped ∧ dropped.ok = true ∧
      Jumping t k dropped.state ∧ (chain ∈ dropped.state.keys ↔ 0 < k) ∧
      ∀ chain', chain' ≠ chain → (chain' ∈ dropped.state.keys ↔ chain' ∈ t'.keys) := by
  obtain ⟨hstate, hok⟩ := flush_and_delete hmem
  have hflushed : Jumping t k (t'.set chain []) := h.set_own hchain (by simp)
  have hdeletable : Table.Deletable (t'.set chain []) chain ↔ ¬ 0 < k := by
    have hempty : (t'.set chain []).get? chain = some [] := by rw [Dict.get?_set, if_pos rfl]
    rw [Table.Deletable, hflushed.refers_iff_pos hu hchain]
    exact ⟨fun hd => hd.2.2, fun hk => ⟨hempty, not_builtin_of_test hchain, hk⟩⟩
  refine ⟨_, rfl, hok, ?_⟩
  rw [hstate]
  by_cases hk : 0 < k
  · rw [if_neg fun hd => hdeletable.mp hd hk]
    refine ⟨hflushed, iff_of_true ?_ hk, fun chain' hne => ?_⟩
    · rw [Dict.mem_keys_iff, Dict.get?_set, if_pos rfl]
      rfl
    · rw [Dict.mem_keys_iff, Dict.get?_set, if_neg hne, ← Dict.mem_keys_iff]
  · rw [if_pos (hdeletable.mpr hk)]
    refine ⟨hflushed.erase_own hchain, iff_of_false ?_ hk, fun chain' hne => ?_⟩
    · rw [Dict.mem_keys_iff, Dict.get?_erase, if_pos rfl]
      exact Bool.false_ne_true
    · rw [Dict.mem_keys_iff, Dict.get?_erase, if_neg hne, Dict.get?_set, if_neg hne,
        ← Dict.mem_keys_iff]

end Jumping

namespace Kept

/-- `init_iptables` -/
theorem install (h : Kept t k t') : Kept t (k + 1) (Shell.runScript Table.command initLines t').1 := by
  have hin : "drbd-test-input" ∈ testChains := by decide
  have hout : "drbd-test-output" ∈ testChains := by decide
  obtain ⟨flushed, hflushed⟩ : ∃ flushed, flushed =
    (t'.set "drbd-test-input" []).set "drbd-test-output" [] := ⟨_, rfl⟩
  have hjumps : Jumping t k flushed := by
    rw [hflushed]
    exact (h.set_own hin (by simp)).set_own hout (by simp)
  have hkeys : ∀ chain ∈ testChains, chain ∈ flushed.keys := by
    intro chain hchain
    rw [hflushed, Dict.mem_keys_iff, Dict.get?_set]
    split
    · rfl
    · rename_i hother
      have hfirst : chain = "drbd-test-input" := by simpa [testChains, hother] using hchain
      rw [Dict.get?_set, if_pos hfirst]
      rfl
  obtain ⟨a, ha, hinput⟩ := hjumps.input
  obtain ⟨b, hb, houtput⟩ := hjumps.output
  have hinsert₁ := insert_jump hinput (hkeys _ hin) (not_builtin_of_test hin)
  have hinsert₂ := insert_jump (t := flushed.set "INPUT" (jumpTo "drbd-test-input" ::
      (List.replicate k (jumpTo "drbd-test-input") ++ a)))
    (by
      rw [Dict.get?_set, if_neg (by decide : "OUTPUT" ≠ "INPUT")]
      exact houtput)
    (by
      rw [Dict.mem_keys_iff, Dict.get?_set, if_neg (by decide : "drbd-test-output" ≠ "INPUT"),
        ← Dict.mem_keys_iff]
      exact hkeys _ hout) (not_builtin_of_test hout)
  obtain ⟨hstate₁, hok₁⟩ := flush_or_create t' "drbd-test-input"
  obtain ⟨hstate₂, hok₂⟩ := flush_or_create (t'.set "drbd-test-input" []) "drbd-test-output"
  rw [← hflushed] at hstate₂
  have hrun : (Shell.runScript Table.command initLines t').1 = withJumps flushed (k + 1) a b := by
    unfold initLines
    simp only [testChains, List.map_cons, List.map_nil, List.cons_append, List.nil_append]
    rw [Shell.runScript_cons_of_ok hok₁, hstate₁, Shell.runScript_cons_of_ok hok₂, hstate₂]
    rw [Shell.runScript_cons_of_ok (by rw [Shell.run_single, hinsert₁]), Shell.run_single, hinsert₁]
    rw [Shell.runScript, Shell.run_single, hinsert₂]
    rfl
  rw [hrun]
  refine ⟨hjumps.set_jumps (k + 1) ha hb, fun chain hchain => iff_of_true ?_ (Nat.succ_pos k)⟩
  rw [Dict.mem_keys_iff, withJumps_other _ _ _ _ (not_hooked_of_test hchain), ← Dict.mem_keys_iff]
  exact hkeys chain hchain

/-- `cleanup_iptables` -/
theorem uninstall (h : Kept t (k + 1) t') (hu : Untouched t) :
    Kept t k (Shell.runScript Table.command cleanupLines t').1 := by
  obtain ⟨a, ha, hinput⟩ := h.input
  obtain ⟨b, hb, houtput⟩ := h.output
  have hin : "drbd-test-input" ∈ testChains := by decide
  have hout : "drbd-test-output" ∈ testChains := by decide
  have hdelete₁ := delete_jump (List.replicate k (jumpTo "drbd-test-input") ++ a) hinput
  have hdelete₂ : Table.command ["iptables", "-D", "OUTPUT", "-j", "drbd-test-output"]
      (t'.set "INPUT" (List.replicate k (jumpTo "drbd-test-input") ++ a)) =
        (withJumps t' k a b, true) := by
    apply delete_jump
    rw [Dict.get?_set, if_neg (by decide)]
    exact houtput
  have hkeys : ∀ chain ∈ testChains, chain ∈ (withJumps t' k a b).keys := by
    intro chain hchain
    rw [Dict.mem_keys_iff, withJumps_other _ _ _ _ (not_hooked_of_test hchain), ← Dict.mem_keys_iff]
    exact (h.test chain hchain).mpr (Nat.succ_pos k)
  obtain ⟨dropped₁, hrun₁, hok₁, hjumps₁, hown₁, hother₁⟩ :=
    (h.set_jumps k ha hb).drop_own hu hin (hkeys _ hin)
  obtain ⟨dropped₂, hrun₂, -, hjumps₂, hown₂, hother₂⟩ := hjumps₁.drop_own hu hout
    ((hother₁ _ (by decide)).mpr (hkeys _ hout))
  have hrun : (Shell.runScript Table.command cleanupLines t').1 = dropped₂.state := by
    unfold cleanupLines
    simp only [testChains, List.map_cons, List.map_nil, List.cons_append, List.nil_append]
    rw [Shell.runScript_cons_of_ok (by rw [Shell.run_single, hdelete₁]), Shell.run_single, hdelete₁]
    rw [Shell.runScript_cons_of_ok (by rw [Shell.run_single, hdelete₂]), Shell.run_single, hdelete₂]
    rw [Shell.runScript_cons_of_ok (by rw [hrun₁, hok₁]), hrun₁, Shell.runScript, hrun₂]
  rw [hrun]
  refine ⟨hjumps₂, fun chain hchain => ?_⟩
  rcases List.mem_cons.mp hchain with rfl | hchain
  · exact (hother₂ _ (by decide)).trans hown₁
  · obtain rfl := List.mem_singleton.mp hchain
    exact hown₂

/-- The rules of a block or of its undoing. -/
theorem edit (h : Kept t k t') {op : String} {rule : Rule} (hop : op ∈ ["-I", "-A", "-D"])
    (hchain : chain ∈ testChains) (hplain : IsPlain rule) :
    Kept t k (Table.command ("iptables" :: op :: chain :: rule) t').1 := by
  have hargs : t'.iptables (op :: chain :: rule) = t'.edit op chain rule := by
    simp only [List.mem_cons, List.not_mem_nil, or_false] at hop
    rcases hop with rfl | rfl | rfl
    · cases rule <;> rfl
    · cases rule <;> rfl
    · cases rule <;> rfl
  cases hedit : t'.edit op chain rule with
  | none =>
    rw [command_of_none _ (hargs.trans hedit)]
    exact h
  | some edited =>
    rw [command_of_some _ (hargs.trans hedit)]
    unfold Table.edit at hedit
    split at hedit
    case isFalse => cases hedit
    rename_i hguard
    obtain ⟨chains, hchains, rfl⟩ := Option.map_eq_some_iff.mp hedit
    have hold : ∀ rule' ∈ t'.chains chain, IsPlain rule' := by
      obtain ⟨rules, hrules⟩ := Option.isSome_iff_exists.mp (Dict.mem_keys_iff.mp hguard.1)
      rw [Table.chains, hrules]
      exact h.own chain hchain rules hrules
    have hnew : ∀ rule' ∈ chains chain, IsPlain rule' := by
      intro rule' hrule'
      simp only [List.mem_cons, List.not_mem_nil, or_false] at hop
      rcases hop with rfl | rfl | rfl
      · obtain rfl := Option.some.inj hchains
        rw [Function.update_self] at hrule'
        rcases List.mem_cons.mp hrule' with rfl | hrule'
        · exact hplain
        · exact hold rule' hrule'
      · obtain rfl := Option.some.inj hchains
        rw [Function.update_self] at hrule'
        rcases List.mem_append.mp hrule' with hrule' | hrule'
        · exact hold rule' hrule'
        · obtain rfl := List.mem_singleton.mp hrule'
          exact hplain
      · have hdelete : (if rule ∈ t'.chains chain then
            some (Function.update t'.chains chain ((t'.chains chain).erase rule)) else none) =
              some chains := hchains
        split at hdelete
        case isFalse => cases hdelete
        obtain rfl := Option.some.inj hdelete
        rw [Function.update_self] at hrule'
        exact hold rule' (List.mem_of_mem_erase hrule')
    refine ⟨h.set_own hchain hnew, fun chain' hchain' => ?_⟩
    rw [Dict.mem_keys_iff, Dict.get?_set]
    split
    · rename_i heq
      exact iff_of_true rfl ((h.test chain hchain).mp hguard.1)
    · rw [← Dict.mem_keys_iff]
      exact h.test chain' hchain'

end Kept

/-! ## The log of a host -/

/-- The script of `cleanup_framework`. -/
def cleanupIptables : List String :=
  ["bash", "--norc", "-xec",
    "iptables -D INPUT -j drbd-test-input\n" ++
    "iptables -D OUTPUT -j drbd-test-output\n" ++
    "iptables -F drbd-test-input && iptables -X drbd-test-input || true\n" ++
    "iptables -F drbd-test-output && iptables -X drbd-test-output || true"]

/-- `cleanup_framework` -/
def cleanupFramework : LinuxHost.Method PUnit := do
  let _ ← LinuxHost.run ["journalctl", "-u", "tlshd", "-b", "0", "-q"]
  let _ ← LinuxHost.run cleanupIptables

/-- A command other than the two scripts that leaves the filter of the initial namespace alone. -/
structure Quiet (cmd : List String) : Prop where
  not_init : cmd ≠ LinuxHost.initIptables
  not_cleanup : cmd ≠ cleanupIptables
  tables : ∀ (m : Machine) ns m' ok, m.run ns cmd = some (m', ok) → m'.tables none = m.tables none

/-- A rule of a block or of its undoing. -/
inductive IsEdit : List String → Prop
  | edit {op chain : String} {rule : Rule} (hop : op ∈ ["-I", "-A", "-D"]) (hchain : chain ∈ testChains)
      (hplain : IsPlain rule) : IsEdit ("iptables" :: op :: chain :: rule)

def Allowed (cmd : List String) : Prop := Quiet cmd ∨ IsEdit cmd

abbrev Logged := Option String × List String

/-- What `init_host` has put into the filter of the initial namespace and `cleanup_framework` has taken
out of it. -/
def marks (log : List Logged) : List Bool :=
  log.filterMap fun c =>
    if c = (none, LinuxHost.initIptables) then some true
    else if c = (none, cleanupIptables) then some false
    else none

def Ordinary (c : Logged) : Prop :=
  Allowed c.2 ∨ c.2 = LinuxHost.initIptables ∨ c.2 = cleanupIptables

/-- The number of jumps after some marks. -/
def level : List Bool → Nat → Option Nat
  | [], k => some k
  | true :: marks, k => level marks (k + 1)
  | false :: _, 0 => none
  | false :: marks, k + 1 => level marks k

/-- The filter of the initial namespace. -/
def Keeps (t : Table) (k : Nat) (m : Machine) : Prop := ∃ t', m.tables none = some t' ∧ Kept t k t'

variable {m m' : Machine} {other : Elsewhere} {ns : Option String} {cmd : List String} {ok : Bool}
  {log : List Logged}

theorem Allowed.not_script (h : Allowed cmd) : cmd ≠ LinuxHost.initIptables ∧ cmd ≠ cleanupIptables := by
  rcases h with h | h
  · exact ⟨h.not_init, h.not_cleanup⟩
  · cases h
    exact ⟨by simp [LinuxHost.initIptables], by simp [cleanupIptables]⟩

theorem read_init : Shell.readScript
    (("iptables -F drbd-test-input || iptables -N drbd-test-input\n" ++
      "iptables -F drbd-test-output || iptables -N drbd-test-output\n" ++
      "iptables -I INPUT -j drbd-test-input\n" ++
      "iptables -I OUTPUT -j drbd-test-output")) = some initLines := by
  decide +kernel

theorem read_cleanup : Shell.readScript
    ("iptables -D INPUT -j drbd-test-input\n" ++
    "iptables -D OUTPUT -j drbd-test-output\n" ++
    "iptables -F drbd-test-input && iptables -X drbd-test-input || true\n" ++
    "iptables -F drbd-test-output && iptables -X drbd-test-output || true") = some cleanupLines := by
  decide +kernel

theorem script_tables {text : String} (hrun : m.script ns text = some (m', ok)) :
    ∃ t lines, m.tables ns = some t ∧ Shell.readScript text = some lines ∧
      m' = m.setTable ns (Shell.runScript Table.command lines t).1 := by
  unfold Machine.script at hrun
  split at hrun
  · rename_i t lines ht hlines
    obtain ⟨rfl, -⟩ := Prod.mk.inj (Option.some.inj hrun)
    exact ⟨t, lines, ht, hlines, rfl⟩
  · cases hrun

/-- The next machine. -/
theorem keeps_of_table {t' : Table} (ht' : m'.tables none = some t') (h : Kept t k t') : Keeps t k m' :=
  ⟨t', ht', h⟩

theorem run_script {text : String} {lines : List Shell.AndOr} (ht : m.tables ns = some t)
    (hlines : Shell.readScript text = some lines) : m.script ns text =
      some (m.setTable ns (Shell.runScript Table.command lines t).1,
        (Shell.runScript Table.command lines t).2) := by
  unfold Machine.script
  rw [ht, hlines]

theorem keeps_init (h : Keeps t k m) : Keeps t (k + 1) (m.step other (none, LinuxHost.initIptables)) := by
  obtain ⟨t', ht', hkept⟩ := h
  have hrun : m.run none LinuxHost.initIptables = some _ := run_script ht' read_init
  rw [Machine.step_of_run hrun]
  exact keeps_of_table ((Machine.setTable_tables _ none).trans (if_pos rfl)) hkept.install

theorem keeps_cleanup (hu : Untouched t) (h : Keeps t (k + 1) m) :
    Keeps t k (m.step other (none, cleanupIptables)) := by
  obtain ⟨t', ht', hkept⟩ := h
  have hrun : m.run none cleanupIptables = some _ := run_script ht' read_cleanup
  rw [Machine.step_of_run hrun]
  exact keeps_of_table ((Machine.setTable_tables _ none).trans (if_pos rfl)) (hkept.uninstall hu)

theorem keeps_quiet (hother : other.Spares (fun m => m.tables none) log) (hc : (ns, cmd) ∈ log)
    (h : Keeps t k m) (hquiet : Quiet cmd) : Keeps t k (m.step other (ns, cmd)) := by
  obtain ⟨t', ht', hkept⟩ := h
  refine keeps_of_table ?_ hkept
  exact (hother.step hc m fun result hrun => hquiet.tables m ns _ _ hrun).trans ht'

/-- A script in another namespace. -/
theorem keeps_script (hother : other.Spares (fun m => m.tables none) log) {text name : String}
    (hc : (some name, ["bash", "--norc", "-xec", text]) ∈ log) (h : Keeps t k m) :
    Keeps t k (m.step other (some name, ["bash", "--norc", "-xec", text])) := by
  obtain ⟨t', ht', hkept⟩ := h
  refine keeps_of_table ?_ hkept
  refine (hother.step hc m ?_).trans ht'
  rintro ⟨next, ok⟩ hrun
  obtain ⟨_, _, -, -, hnext⟩ := script_tables hrun
  rw [hnext, Machine.setTable_tables, if_neg (by simp)]

theorem keeps_edit (h : Keeps t k m) (hedit : IsEdit cmd) : Keeps t k (m.step other (ns, cmd)) := by
  obtain ⟨t', ht', hkept⟩ := h
  cases hedit with
  | @edit op chain rule hop hchain hplain =>
    change Keeps t k (m.filter ns (op :: chain :: rule)).1
    unfold Machine.filter
    cases ns with
    | none =>
      rw [ht']
      refine keeps_of_table ?_ (hkept.edit hop hchain hplain)
      exact (Machine.setTable_tables _ none).trans (if_pos rfl)
    | some name =>
      cases m.tables (some name) with
      | none => exact ⟨t', ht', hkept⟩
      | some _ =>
        refine keeps_of_table ?_ hkept
        change (m.setTable _ _).tables none = some t'
        rw [Machine.setTable_tables, if_neg (by simp)]
        exact ht'

theorem scripts_differ : cleanupIptables ≠ LinuxHost.initIptables := by
  decide +kernel

theorem marks_init : marks [(none, LinuxHost.initIptables)] = [true] := by
  simp only [marks, List.filterMap_cons, List.filterMap_nil, eq_self, if_true]

theorem marks_cleanup : marks [(none, cleanupIptables)] = [false] := by
  have hne : ¬ ((none, cleanupIptables) : Logged) = (none, LinuxHost.initIptables) := fun h =>
    scripts_differ (congrArg Prod.snd h)
  simp only [marks, List.filterMap_cons, List.filterMap_nil, if_neg hne, eq_self, if_true]

theorem marks_cons (c : Logged) (log : List Logged) : marks (c :: log) = marks [c] ++ marks log :=
  List.filterMap_append (l := [c])

/-- A log takes the filter through the numbers of jumps that its marks tell. -/
theorem keeps_after (hu : Untouched t) {k' : Nat} (hother : other.Spares (fun m => m.tables none) log)
    (hall : ∀ c ∈ log, Ordinary c) (h : Keeps t k m) (hlevel : level (marks log) k = some k') :
    Keeps t k' (m.after other log) := by
  induction log generalizing m k with
  | nil =>
    obtain rfl := Option.some.inj hlevel
    exact h
  | cons c log ih =>
    have hrest := fun c' hc' => hall c' (List.mem_cons_of_mem _ hc')
    have hother' := hother.of_subset fun c' hc' => List.mem_cons_of_mem c hc'
    rw [marks_cons] at hlevel
    rw [Machine.after_cons]
    by_cases hinit : c = (none, LinuxHost.initIptables)
    · subst hinit
      rw [marks_init] at hlevel
      exact ih hother' hrest (keeps_init h) hlevel
    by_cases hcleanup : c = (none, cleanupIptables)
    · subst hcleanup
      rw [marks_cleanup] at hlevel
      cases k with
      | zero => cases hlevel
      | succ k => exact ih hother' hrest (keeps_cleanup hu h) hlevel
    have hmark : marks [c] = [] := by
      simp only [marks, List.filterMap_cons, if_neg hinit, if_neg hcleanup, List.filterMap_nil]
    rw [hmark] at hlevel
    refine ih hother' hrest ?_ hlevel
    obtain ⟨ns, cmd⟩ := c
    rcases hall (ns, cmd) List.mem_cons_self with (hquiet | hedit) | hscript | hscript
    · exact keeps_quiet hother List.mem_cons_self h hquiet
    · exact keeps_edit h hedit
    · cases ns with
      | none => exact absurd (congrArg (Prod.mk none) hscript) hinit
      | some name =>
        dsimp only at hscript
        subst hscript
        exact keeps_script hother List.mem_cons_self h
    · cases ns with
      | none => exact absurd (congrArg (Prod.mk none) hscript) hcleanup
      | some name =>
        dsimp only at hscript
        subst hscript
        exact keeps_script hother List.mem_cons_self h

/-! ## Hosts -/

/-- The marks in the log of a host, and the namespace of its commands. -/
structure Phase (ms : List Bool) (ns : Option String) (host : LinuxHost) : Prop where
  ordinary : ∀ c ∈ host.commands, Ordinary c
  marks : Network.marks host.commands = ms
  netns : host.netns = ns

/-- A call of `init_host` that raises. -/
def Broken (host : LinuxHost) : Prop := ∃ ms ns, (ms = [] ∨ ms = [true]) ∧ Phase ms ns host

section Hosts

open LinuxHost

variable {ms : List Bool} {host : LinuxHost} {netns : Option String} {ignoreNetns : Bool}

theorem exec_runWith (ignoreNetns : Bool) (cmd : List String) (host : LinuxHost) :
    (Stateful.exec (runWith ignoreNetns cmd) host).2 =
      { host with commands := host.commands ++ [(if ignoreNetns then none else host.netns, cmd)] } := by
  unfold runWith
  rw [exec_get_bind]
  change (Stateful.exec (if _ then _ else _) _).2 = _
  split
  · rfl
  · rfl

theorem Phase.logged (h : Phase ms ns host) {c : Logged} (hc : Ordinary c) {ms' : List Bool}
    (hmark : Network.marks [c] = ms') :
    Phase (ms ++ ms') ns { host with commands := host.commands ++ [c] } where
  ordinary := by
    intro c' hc'
    rcases List.mem_append.mp hc' with hc' | hc'
    · exact h.ordinary c' hc'
    · obtain rfl := List.mem_singleton.mp hc'
      exact hc
  marks := by
    rw [← h.marks, ← hmark]
    exact List.filterMap_append
  netns := h.netns

theorem marks_allowed (h : Allowed cmd) (ns : Option String) : marks [(ns, cmd)] = [] := by
  have hinit : ¬ ((ns, cmd) : Logged) = (none, initIptables) := fun he =>
    h.not_script.1 (congrArg Prod.snd he)
  have hcleanup : ¬ ((ns, cmd) : Logged) = (none, cleanupIptables) := fun he =>
    h.not_script.2 (congrArg Prod.snd he)
  simp only [marks, List.filterMap_cons, List.filterMap_nil, if_neg hinit, if_neg hcleanup]

theorem marks_other (name : String) (cmd : List String) : marks [(some name, cmd)] = [] := by
  have hne : ∀ cmd', ¬ ((some name, cmd) : Logged) = (none, cmd') := fun cmd' he => by cases he
  simp only [marks, List.filterMap_cons, List.filterMap_nil, if_neg (hne _)]

theorem phase_run (hallowed : Allowed cmd) :
    (Frame.keeping (Phase ms ns)).Holds (runWith ignoreNetns cmd) := by
  intro host h
  rw [exec_runWith]
  have hlogged := h.logged (c := (if ignoreNetns then none else host.netns, cmd)) (Or.inl hallowed)
    (marks_allowed hallowed _)
  rwa [List.append_nil] at hlogged

/-- A script in the initial namespace. -/
theorem phase_script {mark : Bool} (hordinary : Ordinary (none, cmd)) (hmark : marks [(none, cmd)] = [mark])
    (h : Phase ms none host) : Phase (ms ++ [mark]) none (Stateful.exec (run cmd) host).2 := by
  unfold run
  rw [exec_runWith, if_neg Bool.false_ne_true]
  rw [← h.netns] at hordinary hmark
  exact h.logged hordinary hmark

theorem phase_script_other {name : String} (hordinary : Ordinary (some name, cmd))
    (h : Phase ms (some name) host) : Phase ms (some name) (Stateful.exec (run cmd) host).2 := by
  unfold run
  rw [exec_runWith, if_neg Bool.false_ne_true]
  have hmark := marks_other name cmd
  rw [← h.netns] at hordinary hmark
  have hlogged := h.logged hordinary hmark
  rwa [List.append_nil] at hlogged

theorem phase_modify {f : LinuxHost → LinuxHost} (hcommands : ∀ host, (f host).commands = host.commands)
    (hnetns : ∀ host, (f host).netns = host.netns) :
    (Frame.keeping (Phase ms ns)).Holds (modify f : Method PUnit) := by
  refine Frame.holds_modify fun host h => ⟨?_, ?_, ?_⟩
  · rw [hcommands]
    exact h.ordinary
  · rw [hcommands]
    exact h.marks
  · rw [hnetns]
    exact h.netns

/-! ### Commands of `init_host` -/

theorem quiet_of_unknown (hinit : cmd ≠ initIptables) (hcleanup : cmd ≠ cleanupIptables)
    (h : ∀ (m : Machine) ns, m.run ns cmd = none) : Allowed cmd := by
  refine Or.inl ⟨hinit, hcleanup, fun m ns m' ok hrun => ?_⟩
  rw [h m ns] at hrun
  cases hrun

theorem quiet_ip {args : List String} (h : ∀ (m : Machine) ns result, m.ip ns args = some result →
    result.1.tables none = m.tables none) : Allowed ("ip" :: args) := by
  refine Or.inl ⟨by simp [initIptables], by simp [cleanupIptables], fun m ns m' ok hrun => ?_⟩
  exact h m ns (m', ok) hrun

theorem addAddress_tables (m : Machine) (ns : Option String) (devname address : String) :
    (m.addAddress ns devname address).1.tables = m.tables := by
  unfold Machine.addAddress
  split
  · rfl
  · split
    · rfl
    · rfl

theorem setUp_tables (m : Machine) (ns : Option String) (devname : String) :
    (m.setUp ns devname).1.tables = m.tables := by
  unfold Machine.setUp
  split
  · rfl
  · rfl

theorem move_tables (m : Machine) (ns : Option String) (devname name : String) :
    (m.move ns devname name).1.tables = m.tables := by
  unfold Machine.move
  split
  · rfl
  · split
    · rfl
    · rfl

theorem allowed_addNamespace (name : String) : Allowed ["ip", "netns", "add", name] := by
  refine quiet_ip fun m ns result hrun => ?_
  obtain rfl := Option.some.inj hrun
  unfold Machine.addNamespace
  split
  · rfl
  · exact (Machine.setTable_tables _ none).trans (if_neg (by simp))

theorem allowed_move (devname name : String) :
    Allowed ["ip", "link", "set", "dev", devname, "netns", name] := by
  refine quiet_ip fun m ns result hrun => ?_
  obtain rfl := Option.some.inj hrun
  exact congrFun (move_tables m ns devname name) none

/-- The namespace that `ip` configures devices of. -/
def configuredIn (netns ns : Option String) : Option String := if isSet netns then some (netns.getD "") else ns

theorem run_addAddress (m : Machine) (ns netns : Option String) (devname : String) (info : AddressInfo) :
    m.run ns (addAddress netns devname info) =
      some (m.addAddress (configuredIn netns ns) devname (info.address ++ "/" ++ info.prefixLength)) := by
  unfold addAddress ipBase configuredIn
  split
  · rfl
  · rfl

theorem run_up (m : Machine) (ns netns : Option String) (devname : String) :
    m.run ns (ipBase netns ++ ["link", "set", "dev", devname, "up"]) =
      some (m.setUp (configuredIn netns ns) devname) := by
  unfold ipBase configuredIn
  split
  · rfl
  · rfl

theorem head_ipBase (netns : Option String) : ∃ rest, ipBase netns = "ip" :: rest := by
  unfold ipBase
  split
  · exact ⟨_, rfl⟩
  · exact ⟨_, rfl⟩

theorem allowed_addAddress (netns : Option String) (devname : String) (info : AddressInfo) :
    Allowed (addAddress netns devname info) := by
  obtain ⟨rest, hbase⟩ := head_ipBase netns
  have hquiet : ∀ (m : Machine) ns result, m.run ns (addAddress netns devname info) = some result →
      result.1.tables none = m.tables none := by
    intro m ns result hrun
    rw [run_addAddress] at hrun
    obtain rfl := Option.some.inj hrun
    exact congrFun (addAddress_tables m _ devname _) none
  unfold addAddress at hquiet ⊢
  rw [hbase] at hquiet ⊢
  exact quiet_ip hquiet

theorem allowed_up (netns : Option String) (devname : String) :
    Allowed (ipBase netns ++ ["link", "set", "dev", devname, "up"]) := by
  obtain ⟨rest, hbase⟩ := head_ipBase netns
  have hquiet : ∀ (m : Machine) ns result,
      m.run ns (ipBase netns ++ ["link", "set", "dev", devname, "up"]) = some result →
      result.1.tables none = m.tables none := by
    intro m ns result hrun
    rw [run_up] at hrun
    obtain rfl := Option.some.inj hrun
    exact congrFun (setUp_tables m _ devname) none
  rw [hbase] at hquiet ⊢
  exact quiet_ip hquiet

theorem allowed_os : Allowed ["bash", "-c", ". /etc/os-release ; echo $ID ; echo $VERSION_ID"] :=
  quiet_of_unknown (by simp [initIptables]) (by simp [cleanupIptables]) fun _ _ => rfl

theorem allowed_route : Allowed ["ip", "-4", "route", "get", "1"] :=
  quiet_of_unknown (by simp [initIptables]) (by simp [cleanupIptables]) fun _ _ => rfl

theorem allowed_addr : Allowed ["ip", "-oneline", "addr", "show"] :=
  quiet_of_unknown (by simp [initIptables]) (by simp [cleanupIptables]) fun _ _ => rfl

theorem allowed_journal : Allowed ["journalctl", "-u", "tlshd", "-b", "0", "-q"] :=
  quiet_of_unknown (by simp [initIptables]) (by simp [cleanupIptables]) fun _ _ => rfl

theorem ordinary_init (ns : Option String) : Ordinary (ns, initIptables) := Or.inr (Or.inl rfl)

theorem ordinary_cleanup (ns : Option String) : Ordinary (ns, cleanupIptables) := Or.inr (Or.inr rfl)

/-! ### How the methods end -/

variable (word : WordClass)

theorem broken_of_phase (hms : ms = [] ∨ ms = [true]) (host : LinuxHost) (h : Phase ms ns host) :
    Broken host := ⟨ms, ns, hms, h⟩

theorem phase_ensureNetdev (netns : Option String) :
    (Frame.keeping (Phase ms ns)).Holds (ensureNetdev netns) := by
  refine Frame.holds_bind Frame.holds_get fun host => Frame.holds_forM _ fun device _ => ?_
  refine Frame.holds_bind (Frame.holds_when fun _ => ?_) fun _ => Frame.holds_bind ?_ fun _ => ?_
  · exact Frame.holds_bind (phase_run (allowed_move _ _)) fun _ => Frame.holds_pure _
  · refine Frame.holds_tryCatch (Frame.holds_bind (phase_run (allowed_addAddress _ _ _)) fun _ =>
      Frame.holds_pure _) fun e => ?_
    split
    · exact Frame.holds_pure _
    · exact Frame.holds_throw _
  · exact Frame.holds_bind (phase_run (allowed_up _ _)) fun _ => Frame.holds_pure _

theorem phase_getDefaultAddr : (Frame.keeping (Phase ms ns)).Holds getDefaultAddr := by
  refine Frame.holds_bind (phase_run allowed_route) fun routeOut => ?_
  split
  · exact Frame.holds_pure _
  · exact Frame.holds_throw _

theorem phase_addLine (multiPaths : Bool) (line : List Char) :
    (Frame.keeping (Phase ms ns)).Holds (addLine word multiPaths line) := by
  unfold addLine
  split
  · exact Frame.holds_pure _
  · refine Frame.holds_bind Frame.holds_get fun host => Frame.holds_ite (fun _ => Frame.holds_pure _)
      fun _ => ?_
    refine Frame.holds_bind (Frame.holds_when fun _ => ?_) fun _ => ?_
    · exact phase_modify (fun _ => rfl) fun _ => rfl
    · exact phase_modify (fun _ => rfl) fun _ => rfl

/-- The script runs in the initial namespace before the host enters its own. -/
theorem ends_enterNetns (netns : Option String) :
    Frame.Ends (Phase [] none) (enterNetns netns) (Phase [true] netns) Broken := by
  have hempty : ∀ host, Phase [] none host → Broken host := broken_of_phase (Or.inl rfl)
  have hmarked : ∀ host, Phase [true] none host → Broken host := broken_of_phase (Or.inr rfl)
  refine Frame.Ends.bind (.of_keeping Frame.holds_get hempty) fun host => ?_
  refine Frame.Ends.bind (.of_keeping (Frame.holds_when fun _ => Frame.holds_throw _) hempty) fun _ => ?_
  refine Frame.Ends.bind (.of_keeping (phase_modify (fun _ => rfl) fun _ => rfl) hempty) fun _ => ?_
  refine Frame.Ends.bind (.of_keeping (phase_run (allowed_addNamespace _)) hempty) fun _ => ?_
  refine Frame.Ends.bind (.of_keeping (phase_modify (fun _ => rfl) fun _ => rfl) hempty) fun _ => ?_
  refine Frame.Ends.bind (.of_keeping Frame.holds_get hempty) fun host => ?_
  refine Frame.Ends.bind (.of_keeping (Frame.holds_when fun _ => Frame.holds_throw _) hempty) fun _ => ?_
  refine Frame.Ends.bind (.of_exec (fun _ h => phase_script (ordinary_init none) marks_init h) hmarked)
    fun _ => ?_
  refine Frame.Ends.bind (Q := Phase [true] netns) (.of_exec (fun host h => ?_)
    (broken_of_phase (Or.inr rfl))) fun _ => ?_
  · exact ⟨h.ordinary, h.marks, rfl⟩
  · exact .of_keeping (phase_ensureNetdev netns) (broken_of_phase (Or.inr rfl))

/-- A call of `init_host` that returns has put the jumps into the filter of the initial namespace once. -/
theorem ends_initHost (storageBackend : StorageBackend) (backingDevice : String) (multiPaths : Bool)
    (netns : Option String) : Frame.Ends (Phase [] none)
      (initHost word storageBackend backingDevice multiPaths netns)
      (Phase [true] (if isSet netns then netns else none)) Broken := by
  have hempty : ∀ host, Phase [] none host → Broken host := broken_of_phase (Or.inl rfl)
  refine Frame.Ends.bind (.of_keeping (phase_modify (fun _ => rfl) fun _ => rfl) hempty) fun _ => ?_
  refine Frame.Ends.bind (.of_keeping (phase_run allowed_os) hempty) fun os => ?_
  split
  case h_2 =>
    intro host h
    exact ⟨fun _ _ he => (by cases he), fun _ _ he => (by cases he; exact hempty host h)⟩
  refine Frame.Ends.bind (.of_keeping (phase_modify (fun _ => rfl) fun _ => rfl) hempty) fun _ => ?_
  refine Frame.Ends.bind (.of_keeping phase_getDefaultAddr hempty) fun addr => ?_
  refine Frame.Ends.bind (.of_keeping (phase_modify (fun _ => rfl) fun _ => rfl) hempty) fun _ => ?_
  refine Frame.Ends.bind (.of_keeping (phase_run allowed_addr) hempty) fun addresses => ?_
  refine Frame.Ends.bind (.of_keeping (Frame.holds_forM _ fun line _ => phase_addLine word multiPaths line)
    hempty) fun _ => ?_
  refine Frame.Ends.bind (.of_keeping Frame.holds_get hempty) fun host => ?_
  refine Frame.Ends.bind (.of_keeping (Frame.holds_when fun _ => Frame.holds_throw _) hempty) fun _ => ?_
  cases hset : isSet netns with
  | false =>
    rw [if_neg Bool.false_ne_true, when_false]
    refine Frame.Ends.bind (.of_keeping (Frame.holds_pure _) hempty) fun _ => ?_
    refine Frame.Ends.bind (.of_exec (fun _ h => phase_script (ordinary_init none) marks_init h)
      (broken_of_phase (Or.inr rfl))) fun _ => ?_
    exact .of_keeping (Frame.holds_pure _) (broken_of_phase (Or.inr rfl))
  | true =>
    rw [if_pos rfl, when_true]
    refine Frame.Ends.bind (ends_enterNetns netns) fun _ => ?_
    obtain ⟨name, rfl⟩ := Option.isSome_iff_exists.mp (Option.isSome_of_any hset)
    refine Frame.Ends.bind (.of_exec (fun _ h => phase_script_other (ordinary_init _) h)
      (broken_of_phase (Or.inr rfl))) fun _ => ?_
    exact .of_keeping (Frame.holds_pure _) (broken_of_phase (Or.inr rfl))

theorem ends_cleanup : Frame.Ends (Phase [true] none) cleanupFramework (Phase [true, false] none)
    fun host => Phase [true] none host ∨ Phase [true, false] none host := by
  refine Frame.Ends.bind (.of_keeping (phase_run allowed_journal) fun _ h => Or.inl h) fun _ => ?_
  refine Frame.Ends.bind (.of_exec (fun _ h => phase_script (ordinary_cleanup none) marks_cleanup h)
    fun _ h => Or.inr h) fun _ => ?_
  exact .of_keeping (Frame.holds_pure _) fun _ h => Or.inr h

theorem phase_cleanup_other {name : String} (h : Phase ms (some name) host) :
    Phase ms (some name) (Stateful.exec cleanupFramework host).2 := by
  have hscript : (Frame.keeping (Phase ms (some name))).Holds (run cleanupIptables) := fun _ h =>
    phase_script_other (ordinary_cleanup _) h
  exact Frame.holds_bind (phase_run allowed_journal)
    (fun _ => Frame.holds_bind hscript fun _ => Frame.holds_pure _) host h

end Hosts

/-! ## Test runs -/

/-- A test run on a host: the arguments of `init_host`, the commands of the test, and whether the exit
handler is run. -/
structure Session where
  host : LinuxHost
  storageBackend : StorageBackend
  backingDevice : String
  multiPaths : Bool
  netns : Option String
  commands : List (List String)
  cleanup : Bool
  commands_nil : host.commands = []
  netns_none : host.netns = none
  allowed : ∀ cmd ∈ commands, Allowed cmd

variable (word : WordClass)

namespace Session

def init (s : Session) : LinuxHost.Method PUnit :=
  LinuxHost.initHost word s.storageBackend s.backingDevice s.multiPaths s.netns

/-- The commands of the test, whether or not they raise. -/
def test (s : Session) (host : LinuxHost) : LinuxHost :=
  s.commands.foldl (fun host cmd => (Stateful.exec (LinuxHost.run cmd) host).2) host

/-- The host at the end of the test run. -/
def finish (s : Session) : LinuxHost :=
  match Stateful.exec (s.init word) s.host with
  | (.error _, host) => host
  | (.ok _, host) =>
    if s.cleanup then (Stateful.exec cleanupFramework (s.test host)).2 else s.test host

/-- The jumps in the initial namespace are not taken away. -/
def Leaves (s : Session) : Prop :=
  (none, LinuxHost.initIptables) ∈ (s.finish word).commands ∧
    (none, cleanupIptables) ∉ (s.finish word).commands

instance (s : Session) : Decidable (s.Leaves word) := inferInstanceAs (Decidable (_ ∧ _))

/-- Nothing goes wrong in `init_host` and `cleanup_framework`. -/
def Complete (s : Session) : Prop :=
  ∃ host host', Returns (s.init word) s.host ⟨⟩ host ∧ s.cleanup = true ∧
    Returns cleanupFramework (s.test host) ⟨⟩ host'

end Session

/-- A test run, or a command of a shell that a test has left running in the background. -/
inductive Event
  | session (s : Session)
  | background (ns : Option String) (cmd : List String) (h : Allowed cmd)

namespace Event

/-- The commands that are run, each in its namespace. -/
def logged : Event → List Logged
  | session s => (s.finish word).commands
  | background ns cmd _ => [(ns, cmd)]

def Leaves : Event → Prop
  | session s => s.Leaves word
  | background .. => False

instance : DecidablePred (Event.Leaves word)
  | session s => inferInstanceAs (Decidable (s.Leaves word))
  | background .. => inferInstanceAs (Decidable False)

end Event

theorem mem_marks_init : true ∈ marks log ↔ (none, LinuxHost.initIptables) ∈ log := by
  unfold marks
  rw [List.mem_filterMap]
  constructor
  · rintro ⟨c, hc, hmark⟩
    split at hmark
    · rename_i hinit
      exact hinit ▸ hc
    · split at hmark
      · cases hmark
      · cases hmark
  · intro hmem
    exact ⟨_, hmem, if_pos rfl⟩

theorem mem_marks_cleanup : false ∈ marks log ↔ (none, cleanupIptables) ∈ log := by
  unfold marks
  rw [List.mem_filterMap]
  constructor
  · rintro ⟨c, hc, hmark⟩
    split at hmark
    · cases hmark
    · split at hmark
      · rename_i hcleanup
        exact hcleanup ▸ hc
      · cases hmark
  · intro hmem
    have hne : ¬ ((none, cleanupIptables) : Logged) = (none, LinuxHost.initIptables) := fun h =>
      scripts_differ (congrArg Prod.snd h)
    exact ⟨_, hmem, (if_neg hne).trans (if_pos rfl)⟩

namespace Session

variable {word} {s : Session} {host : LinuxHost} {ms : List Bool}

theorem phase_start (s : Session) : Phase [] none s.host := by
  refine ⟨?_, ?_, s.netns_none⟩
  · rw [s.commands_nil]
    simp
  · rw [s.commands_nil]
    rfl

theorem phase_test (h : Phase ms ns host) : Phase ms ns (s.test host) := by
  have hallowed := s.allowed
  unfold test
  revert hallowed host
  induction s.commands with
  | nil => exact fun h _ => h
  | cons cmd commands ih =>
    intro host h hallowed
    have hcmd : Phase ms ns (Stateful.exec (LinuxHost.runWith false cmd) host).2 :=
      phase_run (hallowed cmd List.mem_cons_self) host h
    exact ih hcmd fun cmd' hcmd' => hallowed cmd' (List.mem_cons_of_mem _ hcmd')

/-- The host that `init_host` leaves behind when it returns. -/
theorem phase_init (hinit : Returns (s.init word) s.host ⟨⟩ host) :
    Phase [true] (if LinuxHost.isSet s.netns then s.netns else none) host :=
  (ends_initHost word s.storageBackend s.backingDevice s.multiPaths s.netns s.host
    s.phase_start).1 _ _ hinit

theorem isSet_cases (netns : Option String) :
    (LinuxHost.isSet netns = false ∧ (if LinuxHost.isSet netns then netns else none) = none) ∨
      ∃ name, LinuxHost.isSet netns = true ∧
        (if LinuxHost.isSet netns then netns else none) = some name := by
  cases hset : LinuxHost.isSet netns with
  | false => exact Or.inl ⟨rfl, rfl⟩
  | true =>
    obtain ⟨name, rfl⟩ := Option.isSome_iff_exists.mp (Option.isSome_of_any hset)
    exact Or.inr ⟨name, rfl, rfl⟩

/-- The marks that a test run makes. -/
theorem phase_finish (s : Session) (word : WordClass) : ∃ ms ns, (ms = [] ∨ ms = [true] ∨ ms = [true, false]) ∧
    Phase ms ns (s.finish word) := by
  unfold finish
  rcases hinit : Stateful.exec (s.init word) s.host with ⟨e | u, host⟩
  · obtain ⟨ms, ns, hms, h⟩ := (ends_initHost word s.storageBackend s.backingDevice s.multiPaths s.netns
      s.host s.phase_start).2 _ _ hinit
    exact ⟨ms, ns, hms.imp_right Or.inl, h⟩
  · have htest := phase_test (s := s) (phase_init hinit)
    cases hcleanup : s.cleanup with
    | false => exact ⟨[true], _, Or.inr (Or.inl rfl), htest⟩
    | true =>
      rcases isSet_cases s.netns with ⟨-, hns⟩ | ⟨name, -, hns⟩
      · rw [hns] at htest
        obtain ⟨hok, herror⟩ := ends_cleanup (s.test host) htest
        rcases hend : Stateful.exec cleanupFramework (s.test host) with ⟨e | u', host'⟩
        · rcases herror e host' hend with h | h
          · exact ⟨[true], none, Or.inr (Or.inl rfl), by simpa [hend] using h⟩
          · exact ⟨[true, false], none, Or.inr (Or.inr rfl), by simpa [hend] using h⟩
        · exact ⟨[true, false], none, Or.inr (Or.inr rfl), by simpa [hend] using hok u' host' hend⟩
      · rw [hns] at htest
        exact ⟨[true], some name, Or.inr (Or.inl rfl), phase_cleanup_other htest⟩

theorem leaves_iff (h : Phase ms ns (s.finish word)) : s.Leaves word ↔ true ∈ ms ∧ false ∉ ms := by
  rw [Leaves, ← mem_marks_init, ← mem_marks_cleanup, h.marks]

/-- A test run without trouble leaves its jumps when it uses a network namespace. -/
theorem leaves_of_complete (h : s.Complete word) : s.Leaves word ↔ LinuxHost.isSet s.netns = true := by
  obtain ⟨host, host', hinit, hcleanup, hend⟩ := h
  have htest := phase_test (s := s) (phase_init hinit)
  have hfinish : s.finish word = host' := by
    unfold finish
    rw [show Stateful.exec (s.init word) s.host = _ from hinit]
    dsimp only
    rw [if_pos hcleanup, show Stateful.exec cleanupFramework _ = _ from hend]
  rcases isSet_cases s.netns with ⟨hset, hns⟩ | ⟨name, hset, hns⟩
  · rw [hns] at htest
    have hphase := (ends_cleanup (s.test host) htest).1 _ _ hend
    rw [← hfinish] at hphase
    rw [leaves_iff hphase, hset]
    simp
  · rw [hns] at htest
    have hphase := phase_cleanup_other htest
    rw [show Stateful.exec cleanupFramework _ = _ from hend] at hphase
    rw [← hfinish] at hphase
    rw [leaves_iff hphase, hset]
    simp

end Session

/-- What one step does to the filter. -/
theorem keeps_step (hu : Untouched t) (h : Keeps t k m) (step : Event)
    (hother : other.Spares (fun m => m.tables none) (step.logged word)) :
    Keeps t (k + if step.Leaves word then 1 else 0) (m.after other (step.logged word)) := by
  cases step with
  | background ns cmd hallowed =>
    have hall : ∀ c ∈ [(ns, cmd)], Ordinary c := by
      intro c hc
      obtain rfl := List.mem_singleton.mp hc
      exact Or.inl hallowed
    refine keeps_after hu hother hall h ?_
    have hmarks : marks ((Event.background ns cmd hallowed).logged word) = [] := marks_allowed hallowed ns
    rw [hmarks]
    rfl
  | session s =>
    obtain ⟨ms, ns, hms, hphase⟩ := s.phase_finish word
    refine keeps_after hu hother hphase.ordinary h ?_
    have hleaves : (Event.session s).Leaves word ↔ true ∈ ms ∧ false ∉ ms := Session.leaves_iff hphase
    have hmarks : marks ((Event.session s).logged word) = ms := hphase.marks
    rw [hmarks]
    rcases hms with rfl | rfl | rfl
    · rw [if_neg (by rw [hleaves]; decide)]
      rfl
    · rw [if_pos (by rw [hleaves]; decide)]
      rfl
    · rw [if_neg (by rw [hleaves]; decide)]
      rfl

theorem keeps_steps (hu : Untouched t) (h : Keeps t k m) (steps : List Event)
    (hother : other.Spares (fun m => m.tables none) (steps.flatMap (Event.logged word))) :
    Keeps t (k + steps.countP (Event.Leaves word))
      (m.after other (steps.flatMap (Event.logged word))) := by
  induction steps generalizing m k with
  | nil => exact h
  | cons step steps ih =>
    rw [List.flatMap_cons] at hother
    rw [List.flatMap_cons, Machine.after_append, List.countP_cons]
    have hstep := keeps_step word hu h step (hother.of_subset fun c hc => List.mem_append_left _ hc)
    have hrest := ih hstep (hother.of_subset fun c hc => List.mem_append_right _ hc)
    simp only [decide_eq_true_eq]
    rwa [Nat.add_comm (steps.countP _), ← Nat.add_assoc]

/-- After any test runs on a host, the filter of the initial namespace is as it was before but for one
jump in `INPUT` and one in `OUTPUT` for each test run that leaves them. A test run in which nothing goes
wrong does so exactly when it uses a network namespace. -/
theorem jumps_left (other : Elsewhere) (m : Machine) (t : Table) (ht : m.tables none = some t)
    (hu : Untouched t) (steps : List Event)
    (hother : other.Spares (fun m => m.tables none) (steps.flatMap (Event.logged word))) :
    (∃ t', (m.after other (steps.flatMap (Event.logged word))).tables none = some t' ∧
      Kept t (steps.countP (Event.Leaves word)) t') ∧
    ∀ s, .session s ∈ steps → s.Complete word →
      ((Event.session s).Leaves word ↔ LinuxHost.isSet s.netns = true) := by
  constructor
  · have hsteps := keeps_steps word hu ⟨t, ht, Jumping.start hu⟩ steps hother
    rwa [Nat.zero_add] at hsteps
  · intro s _ hcomplete
    exact Session.leaves_of_complete hcomplete

/-- A test run on a host with two devices. -/
def cleanRun (netns : Option String) : Session where
  host := LinuxHost.twoDevices
  storageBackend := .lvm
  backingDevice := "/dev/vdb"
  multiPaths := false
  netns := netns
  commands := [["iptables", "-I", "drbd-test-input", "-p", "tcp", "-j", "DROP"]]
  cleanup := true
  commands_nil := rfl
  netns_none := rfl
  allowed := by
    intro cmd hcmd
    obtain rfl := List.mem_singleton.mp hcmd
    exact Or.inr (.edit (by decide) (by decide) (by unfold IsPlain; decide))

def freshMachine : Machine :=
  ⟨fun ns => if ns = none then some .initial else none, fun _ _ => none, true⟩

theorem untouched_initial : Untouched .initial := by
  refine ⟨by decide, by decide, by decide, ?_⟩
  intro chain hchain
  revert chain
  decide

/-- Of two test runs the one with a network namespace leaves a jump. The other commands do nothing to
the machine. -/
theorem jumps_left_two :
    let steps := [Event.session (cleanRun none), Event.session (cleanRun (some "drbd"))]
    ((∃ t', (freshMachine.after (fun _ _ m => m)
        (steps.flatMap (Event.logged LinuxHost.asciiWord))).tables none = some t' ∧
      Kept .initial (steps.countP (Event.Leaves LinuxHost.asciiWord)) t') ∧
    ∀ s, .session s ∈ steps → s.Complete LinuxHost.asciiWord →
      ((Event.session s).Leaves LinuxHost.asciiWord ↔ LinuxHost.isSet s.netns = true)) ∧
    steps.countP (Event.Leaves LinuxHost.asciiWord) = 1 :=
  ⟨jumps_left LinuxHost.asciiWord (fun _ _ m => m) freshMachine .initial rfl untouched_initial _
    fun _ _ _ _ => rfl, by decide +kernel⟩

end DrbdTests.Network
