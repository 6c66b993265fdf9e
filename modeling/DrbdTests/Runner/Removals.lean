import DrbdTests.Runner.Run

/-!
# The LVs that are removed

A test that did not succeed may leave LVs behind, and `cleanup` removes them: with `lvremove -f`, on VMs
which also have LVs that nobody may touch. What it goes by is `original_lvs`, listed when `run_tests`
started.

* `lvremove_justified`: however a run of the script ends, each `lvremove` in it is for an LV which
  was not there when its iteration started, which the listing just before has, and it comes after a
  successful `cleanup_and_prepare_vm` of its VM.
* `cleanup_restores`: when `cleanup` returns, the VMs have no LVs but the original ones.
-/

namespace DrbdTests.Runner

open Stateful

/-! ## What a removal rests on -/

/-- Between the two positions there is nothing but the removal of LVs from a VM. -/
def OnlyRemovals (cs : List Command) (i j : Nat) (vm : String) : Prop :=
  ∀ k, i < k → k < j → cs[k]? = some (.prepare vm) ∨ ∃ lv, cs[k]? = some (.lvremove vm lv)

/-- What is known when the `j`-th command removes an LV; since `since` LVs are removed. -/
structure Removal (o : Outside) (origLvs : List String) (cs : List Command) (since j : Nat)
    (vm lv : String) : Prop where
  excess : lv ∉ origLvs
  prepared : ∃ i lines, i + 1 = j ∧ cs[i]? = some (.prepare vm) ∧ o.answer i = .ok lines
  listed : ∃ i lvs, since ≤ i ∧ i < j ∧ cs[i]? = some (.lvs vm) ∧ o.answer i = .ok lvs ∧ lv ∈ lvs ∧
    OnlyRemovals cs i j vm

variable {o : Outside} {args : Args} {s s' : State} {cs cs' : List Command} {i j since since' : Nat}
  {vm lv : String} {origLvs lvs : List String} {originalLvs : String → List String}
  {vms : List String}

theorem getElem?_of_extends (h : cs <+: cs') (hj : j < cs.length) : cs'[j]? = cs[j]? := by
  obtain ⟨later, rfl⟩ := h
  exact List.getElem?_append_left hj

theorem OnlyRemovals.of_extends (h : OnlyRemovals cs i j vm) (hcs : cs <+: cs')
    (hj : j ≤ cs.length) : OnlyRemovals cs' i j vm := by
  intro k hik hkj
  rw [getElem?_of_extends hcs (by omega)]
  exact h k hik hkj

/-- What a removal rests on comes before it. -/
theorem Removal.of_extends (h : Removal o origLvs cs since j vm lv) (hcs : cs <+: cs')
    (hj : j < cs.length) (hsince : since' ≤ since) : Removal o origLvs cs' since' j vm lv := by
  obtain ⟨i, lines, hi, hprepare, hanswer⟩ := h.prepared
  obtain ⟨i', lvs, hle, hlt, hlvs, hlisted, hmem, honly⟩ := h.listed
  refine ⟨h.excess, ⟨i, lines, hi, ?_, hanswer⟩,
    ⟨i', lvs, hsince.trans hle, hlt, ?_, hlisted, hmem, honly.of_extends hcs hj.le⟩⟩
  · rw [getElem?_of_extends hcs (by omega)]
    exact hprepare
  · rw [getElem?_of_extends hcs (by omega)]
    exact hlvs

/-! ## Commands -/

theorem exec_command (c : Command) (s : State) : exec (command o c) s =
    (o.answer s.commands.length, { s with commands := s.commands ++ [c] }) := by
  rw [command, exec_get_bind, exec_bind_of_ok (exec_set _ s)]
  rcases o.answer s.commands.length with e | lines <;> rfl

theorem returns_command {c : Command} : Returns (command o c) s lvs s' ↔
    o.answer s.commands.length = .ok lvs ∧ { s with commands := s.commands ++ [c] } = s' := by
  rw [Returns, exec_command, Prod.mk.injEq]

/-- Commands are only added. -/
def extending : Frame State where
  rel s s' := s.commands <+: s'.commands
  refl _ := List.prefix_rfl
  trans := List.IsPrefix.trans

theorem extending_command (c : Command) : extending.Holds (command o c) := by
  intro s
  rw [exec_command]
  exact List.prefix_append _ _

theorem extending_removeExcessLV : extending.Holds (removeExcessLV o origLvs vm lv) := by
  refine Frame.holds_ite (fun _ => Frame.holds_pure _) fun _ => ?_
  refine Frame.holds_bind (Frame.holds_bind (extending_command _) fun _ => Frame.holds_pure _) ?_
  exact fun _ => Frame.holds_bind (extending_command _) fun _ => Frame.holds_pure _

/-- Commands are added, and none of them removes an LV. -/
def sparing : Frame State where
  rel s s' := s.commands <+: s'.commands ∧
    ∀ j vm lv, s.commands.length ≤ j → s'.commands[j]? ≠ some (.lvremove vm lv)
  refl s := by
    refine ⟨List.prefix_rfl, fun j vm lv hj => ?_⟩
    rw [List.getElem?_eq_none hj]
    exact nofun
  trans := by
    intro a b c hab hbc
    refine ⟨hab.1.trans hbc.1, fun j vm lv hj => ?_⟩
    by_cases hjb : b.commands.length ≤ j
    · exact hbc.2 j vm lv hjb
    · rw [getElem?_of_extends hbc.1 (by omega)]
      exact hab.2 j vm lv hj

theorem sparing_command {c : Command} (hc : ∀ vm lv, c ≠ .lvremove vm lv) :
    sparing.Holds (command o c) := by
  intro s
  rw [exec_command]
  refine ⟨List.prefix_append _ _, fun j vm lv hj => ?_⟩
  rw [List.getElem?_append_right hj]
  rcases j - s.commands.length with _ | k
  · intro heq
    exact hc vm lv (Option.some.inj heq)
  · exact nofun

theorem sparing_cleanupAndPrepareVm (vm : String) : sparing.Holds (cleanupAndPrepareVm o vm) :=
  Frame.holds_bind (sparing_command fun _ _ => Command.noConfusion) fun _ => Frame.holds_pure _

theorem sparing_recordLVs (originalLvs : String → List String) (vm : String) :
    sparing.Holds (recordLVs o originalLvs vm) :=
  Frame.holds_bind (sparing_command fun _ _ => Command.noConfusion) fun _ => Frame.holds_pure _

theorem sparing_runWithProgress (test : String) (vmNames : List String) :
    sparing.Holds (runWithProgress o test vmNames) := fun s => sparing.refl s

/-- Commands are added, and each LV that they remove is known to be in excess. -/
def removing (o : Outside) (originalLvs : String → List String) (vms : List String) :
    Frame State where
  rel s s' := s.commands <+: s'.commands ∧ ∀ j vm lv, s.commands.length ≤ j →
    s'.commands[j]? = some (.lvremove vm lv) →
      vm ∈ vms ∧ Removal o (originalLvs vm) s'.commands s.commands.length j vm lv
  refl s := by
    refine ⟨List.prefix_rfl, fun j vm lv hj hcs => ?_⟩
    rw [List.getElem?_eq_none hj] at hcs
    cases hcs
  trans := by
    intro a b c hab hbc
    refine ⟨hab.1.trans hbc.1, fun j vm lv hj hcs => ?_⟩
    by_cases hjb : b.commands.length ≤ j
    · obtain ⟨hvm, hremoval⟩ := hbc.2 j vm lv hjb hcs
      have hj' : j < c.commands.length := (List.getElem?_eq_some_iff.mp hcs).1
      exact ⟨hvm, hremoval.of_extends List.prefix_rfl hj' hab.1.length_le⟩
    · rw [getElem?_of_extends hbc.1 (by omega)] at hcs
      obtain ⟨hvm, hremoval⟩ := hab.2 j vm lv hj hcs
      exact ⟨hvm, hremoval.of_extends hbc.1 (by omega) le_rfl⟩

theorem Removing.of_sparing (s s' : State) (h : sparing.rel s s') :
    (removing o originalLvs vms).rel s s' :=
  ⟨h.1, fun j vm lv hj hcs => absurd hcs (h.2 j vm lv hj)⟩

/-! ## One VM -/

/-- The commands for an LV in excess, if there were `n` before. -/
def removeCommands (o : Outside) (n : Nat) (vm lv : String) : List Command :=
  match o.answer n with
  | .ok _ => [.prepare vm, .lvremove vm lv]
  | .error _ => [.prepare vm]

theorem exec_removeExcessLV (hlv : lv ∉ origLvs) (s : State) :
    (exec (removeExcessLV o origLvs vm lv) s).2 =
      { s with commands := s.commands ++ removeCommands o s.commands.length vm lv } := by
  have hprepare : exec (cleanupAndPrepareVm o vm) s =
      ((o.answer s.commands.length).map fun _ => ⟨⟩,
        { s with commands := s.commands ++ [.prepare vm] }) := by
    rw [cleanupAndPrepareVm, exec_bind, exec_command]
    rcases o.answer s.commands.length with e | lines <;> rfl
  rw [removeExcessLV, if_neg hlv, exec_bind, hprepare, removeCommands]
  rcases o.answer s.commands.length with e | lines
  · rfl
  · dsimp only [Except.map]
    rw [exec_map_snd, exec_command]
    simp

theorem mem_removeCommands {n : Nat} {c : Command} (h : c ∈ removeCommands o n vm lv) :
    c = .prepare vm ∨ c = .lvremove vm lv := by
  unfold removeCommands at h
  split at h
  · simpa using h
  · exact Or.inl (by simpa using h)

/-- The LV is removed after the VM was prepared. -/
theorem getElem?_removeCommands {n k : Nat} {vm' lv' : String}
    (h : (removeCommands o n vm lv)[k]? = some (.lvremove vm' lv')) :
    k = 1 ∧ vm' = vm ∧ lv' = lv ∧ (removeCommands o n vm lv)[0]? = some (.prepare vm) ∧
      ∃ lines, o.answer n = .ok lines := by
  unfold removeCommands at h ⊢
  rcases hanswer : o.answer n with e | lines
  · rw [hanswer] at h
    rcases k with _ | k
    · cases Option.some.inj h
    · cases h
  · rw [hanswer] at h
    rcases k with _ | _ | k
    · cases Option.some.inj h
    · cases Option.some.inj h
      exact ⟨rfl, rfl, rfl, rfl, lines, rfl⟩
    · cases h

/-- Since the LVs of the VM were listed, LVs were removed from it. -/
structure Swept (vm : String) (i : Nat) (cs : List Command) : Prop where
  listing : cs[i]? = some (.lvs vm)
  only : OnlyRemovals cs i cs.length vm

/-- The frame of the loop over the LVs that the `i`-th command has listed. -/
def sweeping (o : Outside) (origLvs : List String) (vm : String) (i : Nat) : Frame State where
  rel s s' := s.commands <+: s'.commands ∧ (Swept vm i s.commands → Swept vm i s'.commands ∧
    ∀ j vm' lv, s.commands.length ≤ j → s'.commands[j]? = some (.lvremove vm' lv) →
      vm' = vm ∧ Removal o origLvs s'.commands i j vm lv)
  refl s := by
    refine ⟨List.prefix_rfl, fun hswept => ⟨hswept, fun j vm' lv hj hcs => ?_⟩⟩
    rw [List.getElem?_eq_none hj] at hcs
    cases hcs
  trans := by
    intro a b c hab hbc
    refine ⟨hab.1.trans hbc.1, fun hswept => ?_⟩
    obtain ⟨hb, hremovals⟩ := hab.2 hswept
    obtain ⟨hc, hremovals'⟩ := hbc.2 hb
    refine ⟨hc, fun j vm' lv hj hcs => ?_⟩
    by_cases hjb : b.commands.length ≤ j
    · exact hremovals' j vm' lv hjb hcs
    · rw [getElem?_of_extends hbc.1 (by omega)] at hcs
      obtain ⟨hvm, hremoval⟩ := hremovals j vm' lv hj hcs
      exact ⟨hvm, hremoval.of_extends hbc.1 (by omega) le_rfl⟩

theorem Swept.append {later : List Command} (h : Swept vm i cs)
    (hlater : ∀ c ∈ later, c = .prepare vm ∨ c = .lvremove vm lv) : Swept vm i (cs ++ later) := by
  have hi : i < cs.length := (List.getElem?_eq_some_iff.mp h.listing).1
  refine ⟨?_, fun k hik hk => ?_⟩
  · rw [List.getElem?_append_left hi]
    exact h.listing
  · rw [List.length_append] at hk
    by_cases hold : k < cs.length
    · rw [List.getElem?_append_left hold]
      exact h.only k hik hold
    · have hlt : k - cs.length < later.length := by omega
      rw [List.getElem?_append_right (by omega), List.getElem?_eq_getElem hlt]
      rcases hlater _ (List.getElem_mem hlt) with hc | hc
      · exact Or.inl (congrArg some hc)
      · exact Or.inr ⟨lv, congrArg some hc⟩

theorem sweeping_removeExcessLV (hanswer : o.answer i = .ok lvs) (hlv : lv ∈ lvs) :
    (sweeping o origLvs vm i).Holds (removeExcessLV o origLvs vm lv) := by
  intro s
  by_cases hexcess : lv ∈ origLvs
  · rw [removeExcessLV, if_pos hexcess]
    exact (sweeping o origLvs vm i).refl s
  rw [exec_removeExcessLV hexcess]
  refine ⟨List.prefix_append _ _, fun hswept => ?_⟩
  have hi : i < s.commands.length := (List.getElem?_eq_some_iff.mp hswept.listing).1
  have hswept' : Swept vm i (s.commands ++ removeCommands o s.commands.length vm lv) :=
    hswept.append fun c hc => mem_removeCommands hc
  refine ⟨hswept', fun j vm' lv' hj hcs => ?_⟩
  rw [List.getElem?_append_right hj] at hcs
  obtain ⟨hk, rfl, rfl, hprepare, lines, hlines⟩ := getElem?_removeCommands hcs
  refine ⟨rfl, hexcess, ⟨s.commands.length, lines, by omega, ?_, hlines⟩,
    ⟨i, lvs, le_rfl, by omega, hswept'.listing, hanswer, hlv, ?_⟩⟩
  · rw [List.getElem?_append_right le_rfl, Nat.sub_self]
    exact hprepare
  · intro k hik hkj
    apply hswept'.only k hik
    have := (List.getElem?_eq_some_iff.mp hcs).1
    rw [List.length_append]
    omega

/-- What is removed from a VM is in excess by the listing at the start. -/
theorem removing_removeExcessLVs (hvm : vm ∈ vms) :
    (removing o originalLvs vms).Holds (removeExcessLVs o (originalLvs vm) vm) := by
  intro s
  have hlvs : sparing.Holds (command o (.lvs vm)) := sparing_command fun _ _ => Command.noConfusion
  have hfirst : (removing o originalLvs vms).rel s (exec (command o (.lvs vm)) s).2 :=
    Removing.of_sparing _ _ (hlvs s)
  rw [removeExcessLVs, listLVs, exec_bind]
  rw [exec_command] at hfirst ⊢
  rcases hanswer : o.answer s.commands.length with e | lvs
  · exact hfirst
  · have hloop : (sweeping o (originalLvs vm) vm s.commands.length).Holds
        (lvs.forM (removeExcessLV o (originalLvs vm) vm)) :=
      Frame.holds_forM lvs fun lv hlv => sweeping_removeExcessLV hanswer hlv
    obtain ⟨hpre, hswept⟩ := hloop { s with commands := s.commands ++ [.lvs vm] }
    have hlisted : Swept vm s.commands.length (s.commands ++ [.lvs vm]) := by
      refine ⟨by simp, fun k hik hk => ?_⟩
      rw [List.length_append, List.length_singleton] at hk
      omega
    obtain ⟨-, hremovals⟩ := hswept hlisted
    refine ⟨(List.prefix_append _ _).trans hpre, fun j vm' lv hj hcs => ?_⟩
    have hj' : s.commands.length < j := by
      rcases Nat.eq_or_lt_of_le hj with rfl | hlt
      · rw [getElem?_of_extends hpre (by simp)] at hcs
        simp at hcs
      · exact hlt
    obtain ⟨rfl, hremoval⟩ := hremovals j vm' lv (by simp; omega) hcs
    exact ⟨hvm, hremoval⟩

theorem removing_cleanup : (removing o originalLvs vms).Holds (cleanup o originalLvs vms) :=
  Frame.holds_forM vms fun _ hvm => removing_removeExcessLVs hvm

/-! ## One iteration -/

theorem removing_notSucceeded {code : Int} {c : Counters} :
    (removing o originalLvs args.vmName).Holds (notSucceeded o args originalLvs code c) := by
  refine Frame.holds_bind removing_cleanup fun _ => ?_
  exact Frame.holds_ite (fun _ => Frame.holds_pure _) fun _ => Frame.holds_pure _

theorem removing_judge {result : Outcome} {c : Counters} :
    (removing o originalLvs args.vmName).Holds (judge o args originalLvs c result) := by
  refine Frame.holds_ite (fun _ => removing_notSucceeded) fun _ => ?_
  exact Frame.holds_ite (fun _ => Frame.holds_pure _) fun _ => removing_notSucceeded

theorem removing_runTest {vmNames : List String} {test : String} {c : Counters} :
    (removing o originalLvs args.vmName).Holds (runTest o args originalLvs vmNames test c) := by
  have hprepare : sparing.Holds (cleanupAndPrepareVms o vmNames) :=
    Frame.holds_forM vmNames fun vm _ => sparing_cleanupAndPrepareVm vm
  refine Frame.holds_ite (fun _ => Frame.holds_pure _) fun _ => ?_
  refine Frame.holds_ite (fun _ => Frame.holds_pure _) fun _ => ?_
  refine Frame.holds_bind (hprepare.mono Removing.of_sparing) fun _ => ?_
  refine Frame.holds_bind ((sparing_runWithProgress test vmNames).mono Removing.of_sparing) ?_
  exact fun _ => removing_judge

theorem removing_andThen {f : Counters → Script Flow}
    (hf : ∀ c, (removing o originalLvs args.vmName).Holds (f c)) (flow : Flow) :
    (removing o originalLvs args.vmName).Holds (flow.andThen f) := by
  cases flow with
  | next c => exact hf c
  | returned => exact Frame.holds_pure _

theorem removing_runTestSet {testSet : TestSet} {c : Counters} :
    (removing o originalLvs args.vmName).Holds (runTestSet o args originalLvs testSet c) := by
  refine Frame.holds_ite (fun _ => Frame.holds_pure _) fun _ => ?_
  exact Frame.holds_foldlM _ _ fun flow _ _ => removing_andThen (fun _ => removing_runTest) flow

theorem removing_testSets {sets : List TestSet} {flow : Flow} :
    (removing o originalLvs args.vmName).Holds (sets.foldlM
      (fun flow testSet => flow.andThen (runTestSet o args originalLvs testSet)) flow) :=
  Frame.holds_foldlM _ _ fun flow _ _ => removing_andThen (fun _ => removing_runTestSet) flow

theorem removing_finish {error : Option PyError} {flow : Flow} :
    (removing o originalLvs args.vmName).Holds (finish error flow) := by
  rcases flow with c | ⟨code, c⟩
  · rcases error with _ | e
    · exact Frame.holds_pure _
    · exact Frame.holds_throw e
  · exact Frame.holds_pure _

/-- An iteration that starts after `n` commands has recorded the LVs of a VM; for a VM named twice, the
second listing counts. -/
def Recorded (o : Outside) (args : Args) (n : Nat) (vm : String) (origLvs : List String) : Prop :=
  ∃ pre post, args.vmName = pre ++ vm :: post ∧ vm ∉ post ∧ o.answer (n + pre.length) = .ok origLvs

theorem recordLVs_recorded
    (h : Returns (args.vmName.foldlM (recordLVs o) fun _ => []) s originalLvs s') :
    s'.commands.length = s.commands.length + args.vmName.length ∧
      ∀ vm ∈ args.vmName, Recorded o args s.commands.length vm (originalLvs vm) := by
  have hloop := h.foldlM_invariant (fun pre originalLvs t =>
    t.commands.length = s.commands.length + pre.length ∧ ∀ vm ∈ pre, ∃ before after,
      pre = before ++ vm :: after ∧ vm ∉ after ∧
        o.answer (s.commands.length + before.length) = .ok (originalLvs vm)) ⟨rfl, by simp⟩ ?_
  · exact hloop
  intro pre vm post originalLvs₁ s₁ originalLvs₂ s₂ _ ⟨hlen, hinv⟩ hone
  obtain ⟨lvs, s₃, hlist, hpure⟩ := returns_bind.mp hone
  obtain ⟨hanswer, rfl⟩ := returns_command.mp hlist
  obtain ⟨rfl, rfl⟩ := returns_pure.mp hpure
  refine ⟨?_, fun vm' hvm' => ?_⟩
  · simp only [List.length_append, List.length_singleton]
    omega
  · by_cases hsame : vm' = vm
    · refine ⟨pre, [], by rw [hsame], List.not_mem_nil, ?_⟩
      simp only [if_pos hsame, ← hlen]
      exact hanswer
    · have hpre : vm' ∈ pre := by simpa [hsame] using hvm'
      obtain ⟨before, after, rfl, hafter, hanswer'⟩ := hinv vm' hpre
      refine ⟨before, after ++ [vm], by simp, by simp [hafter, hsame], ?_⟩
      simp only [if_neg hsame]
      exact hanswer'

/-- What an iteration that starts after `n` commands removes is in excess by the listing at its
start. -/
def JustifiedSince (o : Outside) (args : Args) (cs : List Command) (n j : Nat) (vm lv : String) :
    Prop :=
  ∃ origLvs, Recorded o args n vm origLvs ∧
    Removal o origLvs cs (n + args.vmName.length) j vm lv

theorem runTests_justified {stream : TestSetStream} (hj : s.commands.length ≤ j)
    (h : (exec (runTests o args stream) s).2.commands[j]? = some (.lvremove vm lv)) :
    JustifiedSince o args (exec (runTests o args stream) s).2.commands s.commands.length j vm lv := by
  have hrecord : sparing.Holds (args.vmName.foldlM (recordLVs o) fun _ => []) :=
    Frame.holds_foldlM _ _ fun originalLvs vm _ => sparing_recordLVs originalLvs vm
  obtain ⟨-, hspared⟩ := hrecord s
  rw [runTests, exec_bind] at h ⊢
  rcases hexec : exec (args.vmName.foldlM (recordLVs o) fun _ => []) s with ⟨e | originalLvs, s₁⟩
  · rw [hexec] at h hspared
    exact absurd h (hspared j vm lv hj)
  · rw [hexec] at h hspared
    obtain ⟨hlen, hrecorded⟩ := recordLVs_recorded (show Returns _ s originalLvs s₁ from hexec)
    have hrest : (removing o originalLvs args.vmName).Holds (stream.sets.foldlM
        (fun flow testSet => flow.andThen (runTestSet o args originalLvs testSet))
          (.next ⟨0, 0, 0, 0⟩) >>= finish stream.error) :=
      Frame.holds_bind removing_testSets fun _ => removing_finish
    obtain ⟨hpre, hremovals⟩ := hrest s₁
    have hj₁ : s₁.commands.length ≤ j := by
      by_contra hlt
      rw [getElem?_of_extends hpre (by omega)] at h
      exact hspared j vm lv hj h
    obtain ⟨hvm, hremoval⟩ := hremovals j vm lv hj₁ h
    refine ⟨originalLvs vm, hrecorded vm hvm, ?_⟩
    rw [← hlen]
    exact hremoval

/-! ## The whole script -/

/-- `main`, until the iteration `i` would start. -/
def mainUpTo (o : Outside) (args : Args) (i : Nat) : Script (Option Int) :=
  match args.vmName with
  | [] => throw (.systemExit 1)
  | vm :: _ => do
    cleanupAndPrepareVm o vm
    let _ ← command o (.uname vm)
    let _ ← command o .loadResults
    (List.range i).foldlM (iteration o args) none

theorem mainUpTo_succ (i : Nat) : mainUpTo o args (i + 1) =
    mainUpTo o args i >>= fun exitCode => iteration o args exitCode i := by
  unfold mainUpTo
  rcases args.vmName with _ | ⟨vm, vms⟩
  · rfl
  · simp [List.range_succ, List.foldlM_append]

theorem exec_iteration (exitCode : Option Int) (i : Nat) (s : State) :
    (exec (iteration o args exitCode i) s).2 = (exec (runTests o args (testSetIter o args i)) s).2 :=
  exec_map_snd _ _ s

theorem JustifiedSince.of_extends {n : Nat} (h : JustifiedSince o args cs n j vm lv) (hcs : cs <+: cs')
    (hj : j < cs.length) : JustifiedSince o args cs' n j vm lv := by
  obtain ⟨origLvs, hrecorded, hremoval⟩ := h
  exact ⟨origLvs, hrecorded, hremoval.of_extends hcs hj le_rfl⟩

theorem iteration_extends (exitCode : Option Int) (i : Nat) :
    extending.Holds (iteration o args exitCode i) := by
  refine Frame.holds_bind (Frame.holds_bind ?_ fun originalLvs => ?_) fun _ => Frame.holds_pure _
  · exact Frame.holds_foldlM _ _ fun originalLvs vm _ =>
      (sparing_recordLVs originalLvs vm).mono fun _ _ h => h.1
  · exact Frame.holds_bind (removing_testSets.mono fun _ _ h => h.1) fun _ =>
      Frame.Holds.mono (F := removing o originalLvs args.vmName) removing_finish fun _ _ h => h.1

theorem main_eq (h : args.analyze = false) : main o args =
    mainUpTo o args args.iterations.toNat >>= fun exitCode =>
      command o .saveResults >>= fun _ => returnExitCode exitCode := by
  unfold main mainUpTo
  rw [h]
  rcases args.vmName with _ | ⟨vm, vms⟩
  · rfl
  · simp

/-- The commands of an iteration come after those before it. -/
theorem mainUpTo_extends (i : Nat) : (exec (mainUpTo o args i) State.start).2.commands <+:
    (exec (mainUpTo o args (i + 1)) State.start).2.commands := by
  rw [mainUpTo_succ, exec_bind]
  rcases hexec : exec (mainUpTo o args i) State.start with ⟨e | exitCode, s⟩
  · exact List.prefix_rfl
  · exact iteration_extends exitCode i s

theorem mainUpTo_justified (n : Nat)
    (h : (exec (mainUpTo o args n) State.start).2.commands[j]? = some (.lvremove vm lv)) :
    ∃ i exitCode s, i < n ∧ Returns (mainUpTo o args i) State.start exitCode s ∧
      s.commands.length ≤ j ∧ j < (exec (mainUpTo o args (i + 1)) State.start).2.commands.length ∧
      JustifiedSince o args (exec (mainUpTo o args n) State.start).2.commands s.commands.length j
        vm lv := by
  induction n with
  | zero =>
    have hspared : sparing.Holds (mainUpTo o args 0) := by
      unfold mainUpTo
      split
      · exact Frame.holds_throw _
      · refine Frame.holds_bind (sparing_cleanupAndPrepareVm _) fun _ => ?_
        refine Frame.holds_bind (sparing_command fun _ _ => Command.noConfusion) fun _ => ?_
        refine Frame.holds_bind (sparing_command fun _ _ => Command.noConfusion) fun _ => ?_
        exact Frame.holds_pure _
    exact absurd h ((hspared State.start).2 j vm lv (Nat.zero_le j))
  | succ n ih =>
    have hpre : (exec (mainUpTo o args n) State.start).2.commands <+: _ := mainUpTo_extends n
    have hlt := (List.getElem?_eq_some_iff.mp h).1
    by_cases hold : j < (exec (mainUpTo o args n) State.start).2.commands.length
    · rw [getElem?_of_extends hpre hold] at h
      obtain ⟨i, exitCode, s, hi, hreturns, hle, hj, hjustified⟩ := ih h
      exact ⟨i, exitCode, s, by omega, hreturns, hle, hj, hjustified.of_extends hpre hold⟩
    · rcases hexec : exec (mainUpTo o args n) State.start with ⟨e | exitCode, s⟩
      · rw [mainUpTo_succ, exec_bind, hexec] at hlt
        rw [hexec] at hold
        exact absurd hlt hold
      · refine ⟨n, exitCode, s, by omega, hexec, ?_, hlt, ?_⟩
        · rw [hexec] at hold
          exact Nat.le_of_not_lt hold
        · rw [hexec] at hold
          rw [mainUpTo_succ, exec_bind, hexec] at h ⊢
          dsimp only at h hold ⊢
          rw [exec_iteration] at h ⊢
          exact runTests_justified (Nat.le_of_not_lt hold) h

/-- However `main` ends, an LV that was removed in an iteration was not listed when that iteration
started, the last listing of its VM has it, and the VM was prepared successfully just before. -/
theorem lvremove_justified (o : Outside) (args : Args) (j : Nat) (vm lv : String)
    (h : (exec (main o args) State.start).2.commands[j]? = some (.lvremove vm lv)) :
    ∃ i exitCode s, i < args.iterations.toNat ∧
      Returns (mainUpTo o args i) State.start exitCode s ∧ s.commands.length ≤ j ∧
      j < (exec (mainUpTo o args (i + 1)) State.start).2.commands.length ∧
      JustifiedSince o args (exec (main o args) State.start).2.commands s.commands.length j vm lv := by
  have hana : args.analyze = false := by
    by_contra hana
    rw [main, if_pos (by simpa using hana)] at h
    cases h
  have hend (exitCode : Option Int) :
      sparing.Holds (command o .saveResults >>= fun _ => returnExitCode exitCode) := by
    refine Frame.holds_bind (sparing_command fun _ _ => Command.noConfusion) fun _ => ?_
    cases exitCode with
    | none => exact Frame.holds_throw _
    | some exitCode => exact Frame.holds_pure _
  obtain ⟨hpre, hspared⟩ : sparing.rel (exec (mainUpTo o args args.iterations.toNat) State.start).2
      (exec (main o args) State.start).2 := by
    rw [main_eq hana, exec_bind]
    rcases exec (mainUpTo o args args.iterations.toNat) State.start with ⟨e | exitCode, s⟩
    · exact sparing.refl s
    · exact hend exitCode s
  have hlt : j < (exec (mainUpTo o args args.iterations.toNat) State.start).2.commands.length := by
    by_contra hle
    exact hspared j vm lv (Nat.le_of_not_lt hle) h
  rw [getElem?_of_extends hpre hlt] at h
  obtain ⟨i, exitCode, s, hi, hreturns, hle, hj, hjustified⟩ := mainUpTo_justified _ h
  exact ⟨i, exitCode, s, hi, hreturns, hle, hj, hjustified.of_extends hpre hlt⟩

/-- The test leaves an LV behind. -/
def leftLV : Outside where
  outcome _ := ⟨1, false⟩
  answer k := .ok (if k = 3 then ["/dev/vg/root"] else if k = 5 then ["/dev/vg/root", "/dev/vg/disk0"]
    else [])
  file _ := ⟨[⟨1, ["resync"]⟩], none⟩
  report _ _ := .error .valueError

theorem lvremove_justified_left : ∃ i exitCode s, i < 1 ∧
    Returns (mainUpTo leftLV (oneVm 1) i) State.start exitCode s ∧ s.commands.length ≤ 7 ∧
    7 < (exec (mainUpTo leftLV (oneVm 1) (i + 1)) State.start).2.commands.length ∧
    JustifiedSince leftLV (oneVm 1) (exec (main leftLV (oneVm 1)) State.start).2.commands
      s.commands.length 7 "vm" "/dev/vg/disk0" :=
  lvremove_justified leftLV (oneVm 1) 7 "vm" "/dev/vg/disk0" (by decide +kernel)

/-! ## What is left on the VMs -/

/-- The LVs of a VM, if it had some before and the commands were run since. -/
def remaining (before : String → List String) (cs : List Command) (vm : String) : List String :=
  (before vm).filter (.lvremove vm · ∉ cs)

/-- The listings between two states are those of VMs on which nothing but `lvremove` happens. -/
def ListsRemaining (o : Outside) (before : String → List String) (s s' : State) : Prop :=
  ∀ k vm lvs, s.commands.length ≤ k → s'.commands[k]? = some (.lvs vm) → o.answer k = .ok lvs →
    ∀ lv, lv ∈ lvs ↔ lv ∈ remaining before ((s'.commands.take k).drop s.commands.length) vm

theorem mem_drop_of_extends {c : Command} {n n' : Nat} (h : c ∈ cs.drop n) (hcs : cs <+: cs')
    (hn : n' ≤ n) : c ∈ cs'.drop n' := by
  obtain ⟨later, rfl⟩ := hcs
  have hcs' : c ∈ cs.drop n' := by
    rw [← Nat.add_sub_cancel' hn, ← List.drop_drop] at h
    exact List.mem_of_mem_drop h
  rw [List.drop_append]
  exact List.mem_append_left _ hcs'

theorem removeExcessLV_removes (hlv : lv ∉ origLvs)
    (h : Returns (removeExcessLV o origLvs vm lv) s ⟨⟩ s') :
    s'.commands = s.commands ++ [.prepare vm, .lvremove vm lv] := by
  rw [removeExcessLV, if_neg hlv] at h
  obtain ⟨⟨⟩, t, hprepare, hremove⟩ := returns_bind.mp h
  obtain ⟨lines, hprepare⟩ := returns_drop.mp hprepare
  obtain ⟨lines', hremove⟩ := returns_drop.mp hremove
  obtain ⟨-, rfl⟩ := returns_command.mp hprepare
  obtain ⟨-, rfl⟩ := returns_command.mp hremove
  simp

/-- When the loop over the listed LVs returns, those in excess were removed. -/
theorem removes_of_returns (h : Returns (lvs.forM (removeExcessLV o origLvs vm)) s ⟨⟩ s') :
    ∀ lv ∈ lvs, lv ∉ origLvs → .lvremove vm lv ∈ s'.commands.drop s.commands.length := by
  have hloop := h.forM_invariant (fun pre t => s.commands.length ≤ t.commands.length ∧
    ∀ lv ∈ pre, lv ∉ origLvs → .lvremove vm lv ∈ t.commands.drop s.commands.length)
    ⟨le_rfl, by simp⟩ ?_
  · exact hloop.2
  intro pre lv post t t' _ ⟨hlen, hinv⟩ hone
  by_cases hexcess : lv ∈ origLvs
  · rw [removeExcessLV, if_pos hexcess] at hone
    obtain ⟨-, rfl⟩ := returns_pure.mp hone
    refine ⟨hlen, fun lv' hlv' hnot => ?_⟩
    have hne : lv' ≠ lv := fun heq => hnot (heq ▸ hexcess)
    exact hinv lv' (by simpa [hne] using hlv') hnot
  · rw [removeExcessLV_removes hexcess hone]
    refine ⟨by rw [List.length_append]; omega, fun lv' hlv' hnot => ?_⟩
    rw [List.drop_append_of_le_length hlen, List.mem_append]
    rcases List.mem_append.mp hlv' with hpre | hlast
    · exact Or.inl (hinv lv' hpre hnot)
    · right
      rw [List.mem_singleton.mp hlast]
      simp

/-- When `cleanup` returns, an LV that a VM had before is left exactly if it is an original one. -/
theorem cleanup_restores (o : Outside) (originalLvs before : String → List String)
    (vms : List String) (s s' : State) (h : Returns (cleanup o originalLvs vms) s ⟨⟩ s')
    (hlists : ListsRemaining o before s s') (vm : String) (hvm : vm ∈ vms) :
    remaining before (s'.commands.drop s.commands.length) vm =
      (before vm).filter (· ∈ originalLvs vm) := by
  obtain ⟨-, hremovals⟩ := removing_cleanup.rel_of_returns h
  obtain ⟨pre, post, rfl⟩ := List.append_of_mem hvm
  rw [cleanup, List.forM_eq_forM, List.forM_append] at h
  obtain ⟨⟨⟩, t, hbefore, h⟩ := returns_bind.mp h
  obtain ⟨t', hthis, hafter⟩ := returns_forM_cons.mp h
  obtain ⟨lvs, t₁, hlist, hloop⟩ := returns_bind.mp hthis
  obtain ⟨hanswer, ht₁⟩ := returns_command.mp hlist
  have hst : s.commands <+: t.commands := (removing_cleanup.rel_of_returns hbefore).1
  have ht₁' : t₁.commands <+: t'.commands :=
    (Frame.holds_forM lvs fun _ _ => extending_removeExcessLV).rel_of_returns hloop
  have ht' : t'.commands <+: s'.commands := (removing_cleanup.rel_of_returns hafter).1
  have htt₁ : t.commands <+: t₁.commands := by
    rw [← ht₁]
    exact List.prefix_append _ _
  have hlvs : s'.commands[t.commands.length]? = some (.lvs vm) := by
    rw [getElem?_of_extends (ht₁'.trans ht') (by simp [← ht₁]), ← ht₁]
    simp
  have htake : s'.commands.take t.commands.length = t.commands :=
    List.prefix_iff_eq_take.mp (htt₁.trans (ht₁'.trans ht')) |>.symm
  unfold remaining
  refine List.filter_congr fun lv hlv => ?_
  rw [decide_eq_decide]
  constructor
  · intro hkept
    by_contra hexcess
    -- it is listed when the turn of the VM comes, since it was not removed before
    have hlisted : lv ∈ lvs := by
      rw [hlists _ vm lvs hst.length_le hlvs hanswer, htake, remaining, List.mem_filter]
      refine ⟨hlv, decide_eq_true fun hremoved => hkept ?_⟩
      exact mem_drop_of_extends hremoved (htt₁.trans (ht₁'.trans ht')) le_rfl
    have hremoved := removes_of_returns hloop lv hlisted hexcess
    exact hkept (mem_drop_of_extends hremoved ht' (hst.trans htt₁).length_le)
  · intro horig hremoved
    rw [List.mem_drop_iff_getElem] at hremoved
    obtain ⟨k, hk, hget⟩ := hremoved
    have hcs : s'.commands[s.commands.length + k]? = some (.lvremove vm lv) := by
      rw [List.getElem?_eq_getElem (by omega), hget]
    exact (hremovals _ vm lv (by omega) hcs).2.excess horig

/-- A VM with an LV too many. -/
def fullVm : Outside where
  outcome _ := ⟨0, false⟩
  answer _ := .ok ["/dev/vg/root", "/dev/vg/disk0"]
  file _ := ⟨[], none⟩
  report _ _ := .error .valueError

theorem cleanup_restores_full :
    remaining (fun _ => ["/dev/vg/root", "/dev/vg/disk0"])
      [.lvs "vm", .prepare "vm", .lvremove "vm" "/dev/vg/disk0"] "vm" =
    ["/dev/vg/root", "/dev/vg/disk0"].filter (· ∈ ["/dev/vg/root"]) := by
  refine cleanup_restores fullVm (fun _ => ["/dev/vg/root"])
    (fun _ => ["/dev/vg/root", "/dev/vg/disk0"]) ["vm"] State.start
    ⟨[], [.lvs "vm", .prepare "vm", .lvremove "vm" "/dev/vg/disk0"]⟩ rfl ?_ "vm" (by simp)
  intro k vm lvs _ hcs hanswer lv
  rcases k with _ | _ | _ | k
  · cases Option.some.inj hcs
    cases Except.ok.inj hanswer
    simp [remaining]
  · cases Option.some.inj hcs
  · cases Option.some.inj hcs
  · cases hcs

end DrbdTests.Runner
