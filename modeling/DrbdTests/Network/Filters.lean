import DrbdTests.Lib.Runs
import DrbdTests.Lib.Scripts
import DrbdTests.Network.Iptables

/-!
# Blocking and unblocking

Runs of a test that blocks and unblocks paths and packets. The commands of the main thread
and those of the background shells are interleaved in any order; each call of an `unblock`
method undoes a block that is still open.

A timed `block_path` joins the words of its commands without quotes. As long as the shell reads
each jump target of such a block as words, all rules that are deleted are found and all chains
are restored (`filters_restored`).
-/

namespace DrbdTests.Network

open Scripts Runs

/-! ## Runs -/

inductive Call
  | blockPath (node otherNode : NodeId) (netNumber : Int) (jumpTo : String)
      (leadSeconds : Option Rat) (forSeconds : Option Duration) (iptablesFilter : List String)
  | unblockPath (node otherNode : NodeId) (netNumber : Int) (jumpTo : String)
  | blockPacketType (node : NodeId) (packet : Int) (fromNode : Option NodeId) (volume : Int)
      (forSeconds : Option Duration)
  | unblockPacketType (node : NodeId) (packet : Int) (fromNode : Option NodeId) (volume : Int)
  deriving DecidableEq

namespace Call

def commands (w : World) : Call → Except PyError (List RunCommand)
  | .blockPath node other net jump lead secs filter =>
    Network.blockPath w node other net jump lead secs filter
  | .unblockPath node other net jump => Network.unblockPath w node other net jump
  | .blockPacketType node packet fromNode volume secs =>
    Network.blockPacketType w node packet fromNode volume secs
  | .unblockPacketType node packet fromNode volume =>
    Network.unblockPacketType w node packet fromNode volume

def IsBlock : Call → Prop
  | .blockPath .. => True
  | .blockPacketType .. => True
  | _ => False

/-- The call that undoes a block; a timed block undoes itself. -/
def undo : Call → Option Call
  | .blockPath node other net jump _ none _ => some (.unblockPath node other net jump)
  | .blockPacketType node packet fromNode volume none =>
    some (.unblockPacketType node packet fromNode volume)
  | _ => none

/-- The shell reads the jump target of a timed path block as words: there is no command
separator, no open quote and no expansion in it. -/
def Exact : Call → Prop
  | .blockPath _ _ _ jump _ secs _ => secs.isSome → ∃ words, Shell.Reads jump.toList words
  | _ => True

end Call

/-- The hosts, what the running call still executes, and the undoing calls to come. -/
structure Net where
  hosts : Hosts
  main : List RunCommand
  undos : List Call

def Net.start (chains : HostId → Chains) : Net := ⟨⟨chains, []⟩, [], []⟩

inductive Move
  | call (c : Call)
  | main
  | job

def Move.Exact : Move → Prop
  | .call c => c.Exact
  | _ => True

inductive Step (w : World) (s : Net) : Move → Net → Prop
  | block {c : Call} {cmds : List RunCommand} (hmain : s.main = []) (hblock : c.IsBlock)
      (hcmds : c.commands w = .ok cmds) :
      Step w s (.call c) { s with main := cmds, undos := c.undo.toList ++ s.undos }
  | undo {c : Call} {cmds : List RunCommand} (hmain : s.main = []) (hmem : c ∈ s.undos)
      (hcmds : c.commands w = .ok cmds) :
      Step w s (.call c) { s with main := cmds, undos := s.undos.erase c }
  | main {h : HostId} {cmd : List String} {rest : List RunCommand} {hosts : Hosts}
      (hmain : s.main = (h, cmd) :: rest) (hrun : hostRun h cmd s.hosts = some hosts) :
      Step w s .main { s with hosts := hosts, main := rest }
  -- a background shell goes on when a command fails
  | job {before after : List (HostId × List (List String))} {h : HostId} {cmd : List String}
      {rest : List (List String)} (hjobs : s.hosts.jobs = before ++ (h, cmd :: rest) :: after) :
      Step w s .job { s with hosts :=
        let hosts := { s.hosts with jobs := before ++ (h, rest) :: after }
        (exec h cmd hosts).getD hosts }

/-! ## Commands as acts on the rules -/

/-- A rule, in a chain of a host. -/
abbrev Key := HostId × String × Rule

def count (chains : HostId → Chains) : Key → Nat
  | (h, chain, rule) => (chains h chain).count rule

def simpleActs (h : HostId) : List String → List (Act Key)
  | "iptables" :: "-I" :: chain :: rule => [.put (h, chain, rule)]
  | "iptables" :: "-A" :: chain :: rule => [.put (h, chain, rule)]
  | "iptables" :: "-D" :: chain :: rule => [.take (h, chain, rule)]
  | _ => []

/-- A command that can be interpreted, other than one that starts a background shell. -/
inductive Simple : List String → Prop
  | insert (chain : String) (rule : Rule) : Simple ("iptables" :: "-I" :: chain :: rule)
  | append (chain : String) (rule : Rule) : Simple ("iptables" :: "-A" :: chain :: rule)
  | delete (chain : String) (rule : Rule) : Simple ("iptables" :: "-D" :: chain :: rule)
  | sleep (seconds : String) : Simple ["sleep", seconds]

variable {start : HostId → Chains} {pending : Multiset (List (Act Key))} {rest : List (Act Key)}
  {h : HostId} {cmd : List String}

/-- Two states of the chains that differ by one copy of a rule. -/
theorem count_add {more fewer : HostId → Chains} {chain : String} {rule : Rule}
    (hother : ∀ h' chain', ¬ (h' = h ∧ chain' = chain) → more h' chain' = fewer h' chain')
    (hchain : ∀ r, (more h chain).count r = (fewer h chain).count r + if rule = r then 1 else 0)
    (key : Key) :
    count more key = count fewer key + if (h, chain, rule) = key then 1 else 0 := by
  obtain ⟨h', chain', rule'⟩ := key
  by_cases hkey : h' = h ∧ chain' = chain
  · obtain ⟨rfl, rfl⟩ := hkey
    simpa [count] using hchain rule'
  · have hne : ¬ (h, chain, rule) = (h', chain', rule') := by
      intro he
      cases he
      exact hkey ⟨rfl, rfl⟩
    rw [if_neg hne]
    exact congrArg (List.count rule') (hother h' chain' hkey)

theorem update_other (chains : HostId → Chains) {chain : String} (rules : List Rule) {h' : HostId}
    {chain' : String} (hne : ¬ (h' = h ∧ chain' = chain)) :
    Function.update chains h (Function.update (chains h) chain rules) h' chain' =
      chains h' chain' := by
  simp only [Function.update_apply]
  by_cases hh : h' = h
  · have hc : chain' ≠ chain := fun hc => hne ⟨hh, hc⟩
    simp [hh, hc]
  · simp [hh]

/-- A simple command succeeds when it is next, and the balance is kept. -/
theorem exec_simple {s : Hosts} (hcmd : Simple cmd)
    (hbal : InBalance (count start) (count s.chains) ((simpleActs h cmd ++ rest) ::ₘ pending)) :
    ∃ chains, exec h cmd s = some { s with chains := chains } ∧
      InBalance (count start) (count chains) (rest ::ₘ pending) := by
  cases hcmd with
  | insert chain rule =>
    refine ⟨_, rfl, hbal.put ?_⟩
    apply count_add
    · intro h' chain' hne
      exact update_other s.chains _ hne
    · intro r
      simp [List.count_cons]
  | append chain rule =>
    refine ⟨_, rfl, hbal.put ?_⟩
    apply count_add
    · intro h' chain' hne
      exact update_other s.chains _ hne
    · intro r
      simp [List.count_append, List.count_cons]
  | delete chain rule =>
    have hmem : rule ∈ s.chains h chain := List.count_pos_iff.mp hbal.one_le
    refine ⟨Function.update s.chains h
      (Function.update (s.chains h) chain ((s.chains h chain).erase rule)), ?_, hbal.take ?_⟩
    · change (if rule ∈ s.chains h chain then _ else none).map _ = _
      rw [if_pos hmem]
      rfl
    · apply count_add
      · intro h' chain' hne
        exact (update_other s.chains _ hne).symm
      · intro r
        have hpos := List.count_pos_iff.mpr hmem
        simp only [Function.update_self, List.count_erase, beq_iff_eq]
        by_cases hrule : rule = r
        · subst hrule
          simp
          omega
        · simp [hrule]
  | sleep seconds => exact ⟨s.chains, rfl, hbal⟩

/-! ## What a call adds -/

theorem blockPacketTypeCmd_ops {w : World} {node : NodeId} {op : String} {packet volume : Int}
    {fromNode : Option NodeId} {cmd : List String}
    (hcmd : blockPacketTypeCmd w node op packet volume fromNode = .ok cmd) :
    ∃ rule : Rule, ∀ op', blockPacketTypeCmd w node op' packet volume fromNode =
      .ok (withOp op' ("drbd-test-input", rule)) := by
  unfold blockPacketTypeCmd at hcmd ⊢
  cases fromNode with
  | none => exact ⟨_, fun op' => rfl⟩
  | some other =>
    rcases ha : addrAt (w.host (w.node other).host).info.addrs 0 with e | a
    · simp only [ha] at hcmd
      cases hcmd
    · simp only [ha]
      exact ⟨_, fun op' => rfl⟩

def acts : RunCommand → List (Act Key)
  | (h, ["setsid", "bash", "-c", line]) =>
    match background line.toList with
    | some cmds => cmds.flatMap (simpleActs h)
    | none => []
  | (h, cmd) => simpleActs h cmd

/-- A command that can be interpreted. -/
inductive Known : RunCommand → Prop
  | simple {h : HostId} {cmd : List String} (hcmd : Simple cmd) : Known (h, cmd)
  | launch {h : HostId} {line : List Char} {cmds : List (List String)}
      (hline : background line = some cmds) (hcmds : ∀ cmd ∈ cmds, Simple cmd)
      (hcovered : Covered (cmds.flatMap (simpleActs h))) : Known (h, setsidBash line)

theorem acts_simple (hcmd : Simple cmd) : acts (h, cmd) = simpleActs h cmd := by
  cases hcmd <;> rfl

theorem acts_launch {line : List Char} {cmds : List (List String)}
    (hline : background line = some cmds) :
    acts (h, setsidBash line) = cmds.flatMap (simpleActs h) := by
  simp [acts, setsidBash, hline]

/-- The acts of commands that differ in their rules only. -/
theorem flatMap_simpleActs {op : String} {act : Key → Act Key}
    (hop : ∀ spec, simpleActs h (withOp op spec) = [act (h, spec)]) (specs : List (String × Rule)) :
    (specs.map (withOp op)).flatMap (simpleActs h) = (specs.map fun spec => (h, spec)).map act := by
  induction specs with
  | nil => rfl
  | cons spec specs ih => simp [hop, ih]

theorem flatMap_acts {cmds : List (List String)} (hcmds : ∀ cmd ∈ cmds, Simple cmd) :
    (cmds.map fun cmd => (h, cmd)).flatMap acts = cmds.flatMap (simpleActs h) := by
  induction cmds with
  | nil => rfl
  | cons cmd cmds ih =>
    rw [List.map_cons, List.flatMap_cons, List.flatMap_cons, acts_simple (hcmds cmd (by simp)),
      ih fun c hc => hcmds c (by simp [hc])]

/-- The acts of the commands of a call. -/
def callActs (w : World) (c : Call) : List (Act Key) :=
  match c.commands w with
  | .ok cmds => cmds.flatMap acts
  | .error _ => []

/-- A call that only deletes rules. -/
structure Deletes (w : World) (c : Call) : Prop where
  commands : ∃ cmds, c.commands w = .ok cmds ∧ ∀ p ∈ cmds, Known p
  acts : ∃ keys : List Key, callActs w c = keys.map .take

/-- A call that blocks, and what undoes it. -/
structure Blocks (w : World) (c : Call) (cmds : List RunCommand) : Prop where
  known : ∀ p ∈ cmds, Known p
  acts : ∃ keys : List Key, cmds.flatMap acts ++ c.undo.toList.flatMap (callActs w) =
    keys.map .put ++ keys.map .take
  undo : ∀ u ∈ c.undo, Deletes w u

theorem simple_withOp (op : String) (hop : op = "-I" ∨ op = "-A" ∨ op = "-D")
    (specs : List (String × Rule)) : ∀ cmd ∈ specs.map (withOp op), Simple cmd := by
  intro cmd hcmd
  obtain ⟨⟨chain, rule⟩, _, rfl⟩ := List.mem_map.mp hcmd
  rcases hop with rfl | rfl | rfl
  · exact .insert chain rule
  · exact .append chain rule
  · exact .delete chain rule

/-- A call that deletes rules on one host. -/
theorem deletes_of_commands {w : World} {c : Call} {specs : List (String × Rule)}
    (hcmds : c.commands w = .ok ((specs.map (withOp "-D")).map fun cmd => (h, cmd))) :
    Deletes w c ∧ callActs w c = (specs.map fun spec => (h, spec)).map .take := by
  have hsimple := simple_withOp "-D" (by simp) specs
  have hacts : callActs w c = (specs.map fun spec => (h, spec)).map .take := by
    rw [callActs, hcmds]
    simp only
    rw [flatMap_acts hsimple, flatMap_simpleActs (fun spec => rfl)]
  refine ⟨⟨⟨_, hcmds, ?_⟩, ⟨_, hacts⟩⟩, hacts⟩
  intro p hp
  obtain ⟨cmd, hcmd, rfl⟩ := List.mem_map.mp hp
  exact .simple (hsimple cmd hcmd)

/-- A block that another call undoes. -/
theorem blocks_of_commands {w : World} {c u : Call} (op : String) (hop : op = "-I" ∨ op = "-A")
    {specs : List (String × Rule)} (hundo : c.undo = some u)
    (hcmds : u.commands w = .ok ((specs.map (withOp "-D")).map fun cmd => (h, cmd))) :
    Blocks w c ((specs.map (withOp op)).map fun cmd => (h, cmd)) := by
  obtain ⟨hdeletes, hacts⟩ := deletes_of_commands hcmds
  have hsimple : ∀ cmd ∈ specs.map (withOp op), Simple cmd :=
    simple_withOp op (by rcases hop with rfl | rfl <;> simp) specs
  have hputs : ∀ spec, simpleActs h (withOp op spec) = [.put (h, spec)] := by
    rcases hop with rfl | rfl
    · exact fun spec => rfl
    · exact fun spec => rfl
  refine ⟨?_, ⟨specs.map fun spec => (h, spec), ?_⟩, ?_⟩
  · intro p hp
    obtain ⟨cmd, hcmd, rfl⟩ := List.mem_map.mp hp
    exact .simple (hsimple cmd hcmd)
  · rw [flatMap_acts hsimple, flatMap_simpleActs hputs, hundo, Option.toList_some,
      List.flatMap_singleton, hacts]
  · rintro u' hu'
    rw [hundo] at hu'
    cases hu'
    exact hdeletes

/-! ## The lines of timed blocks -/

theorem safe_toString (n : Nat) : Shell.Safe (toString n).toList := by
  rw [Nat.toString_eq_ofList_toDigits, String.toList_ofList]
  refine ⟨Nat.toDigits_ne_nil, ?_⟩
  intro c hc
  have hdigit : c.isDigit := Nat.isDigit_of_mem_toDigits (by omega) (by omega) hc
  simp [Shell.isSafe, Char.isAlphanum, hdigit]

theorem safe_addr (a : Addr) : Shell.Safe a.text.toList := by
  refine ⟨fun hnil => a.nonempty (String.toList_inj.mp (by simpa using hnil)), ?_⟩
  intro c hc
  rcases a.chars c hc with hdigit | rfl
  · simp [Shell.isSafe, Char.isAlphanum, hdigit]
  · decide

theorem safe_pathMatch (sa da : Addr) (sp dp : Option Nat) {udpTcp : String}
    (hproto : Shell.Safe udpTcp.toList) :
    ∀ word ∈ pathMatch sa sp da dp udpTcp, Shell.Safe word.toList := by
  have hport : ∀ (option : String) (port : Option Nat), Shell.Safe option.toList →
      ∀ word ∈ portWords option port, Shell.Safe word.toList := by
    intro option port hoption word hword
    unfold portWords at hword
    split at hword
    · split at hword
      · rcases List.mem_cons.mp hword with rfl | hword
        · exact hoption
        · rw [List.mem_singleton.mp hword]
          exact safe_toString _
      · cases hword
    · cases hword
  intro word hword
  simp only [pathMatch, List.mem_append, List.mem_cons, List.not_mem_nil, or_false] at hword
  rcases hword with ((rfl | rfl | rfl | rfl | rfl | rfl) | hword) | hword
  · decide
  · exact hproto
  · decide
  · exact safe_addr sa
  · decide
  · exact safe_addr da
  · exact hport _ sp (by decide) word hword
  · exact hport _ dp (by decide) word hword

theorem safe_pathMatches (w : World) (node node2 : NodeId) (a b : Addr) :
    ∀ spec ∈ pathMatches w node node2 a b,
      Shell.Safe spec.1.toList ∧ ∀ word ∈ spec.2, Shell.Safe word.toList := by
  have hout : Shell.Safe "drbd-test-output".toList := by decide
  have hin : Shell.Safe "drbd-test-input".toList := by decide
  intro spec hspec
  unfold pathMatches at hspec
  rcases hrdma : isRdma w node with _ | _
  · simp only [hrdma, Bool.false_eq_true, if_false, List.mem_cons, List.not_mem_nil,
      or_false] at hspec
    rcases hspec with rfl | rfl | rfl | rfl
    · exact ⟨hout, safe_pathMatch _ _ _ _ (by decide)⟩
    · exact ⟨hout, safe_pathMatch _ _ _ _ (by decide)⟩
    · exact ⟨hin, safe_pathMatch _ _ _ _ (by decide)⟩
    · exact ⟨hin, safe_pathMatch _ _ _ _ (by decide)⟩
  · simp only [hrdma, if_true, List.mem_cons, List.not_mem_nil, or_false] at hspec
    rcases hspec with rfl | rfl
    · exact ⟨hout, safe_pathMatch _ _ _ _ (by decide)⟩
    · exact ⟨hin, safe_pathMatch _ _ _ _ (by decide)⟩

/-- Words that need no quotes, joined. -/
theorem reads_joinWords {words : List String} (hne : words ≠ [])
    (hsafe : ∀ word ∈ words, Shell.Safe word.toList) :
    Shell.Reads (joinWords words) (words.map String.toList) := by
  apply Shell.reads_safe
  · simpa using hne
  · intro word hword
    obtain ⟨word, hmem, rfl⟩ := List.mem_map.mp hword
    exact hsafe word hmem

theorem reads_sleep (secs : Duration) :
    Shell.Reads ("sleep".toList ++ ' ' :: secs.text) ["sleep".toList, secs.text] := by
  have hsleep : Shell.Safe "sleep".toList := by decide
  exact (Shell.spells_safe hsleep).reads.append (Shell.spells_safe secs.safe).reads

/-- A command of a path block that is not quoted, with words in the place of its target. -/
theorem reads_aimedAt {spec : String × Rule} {op jump : String} {words : List (List Char)}
    (hop : Shell.Safe op.toList) (hchain : Shell.Safe spec.1.toList)
    (hspec : ∀ word ∈ spec.2, Shell.Safe word.toList) (hjump : Shell.Reads jump.toList words) :
    Shell.Reads (joinWords (withOp op (aimedAt [jump] spec)))
      ((withOp op (aimedAt (words.map String.ofList) spec)).map String.toList) := by
  let front := withOp op (spec.1, spec.2 ++ ["-j"])
  have hfront : ∀ word ∈ front, Shell.Safe word.toList := by
    intro word hword
    simp only [front, withOp, List.mem_cons, List.mem_append, List.not_mem_nil, or_false] at hword
    rcases hword with rfl | rfl | rfl | hword | rfl
    · decide
    · exact hop
    · exact hchain
    · exact hspec word hword
    · decide
  have hne : front.map String.toList ≠ [] := by simp [front, withOp]
  have htext : joinWords (withOp op (aimedAt [jump] spec)) = joinWords front ++ ' ' :: jump.toList := by
    rw [joinWords, joinWords, ← Shell.join_concat hne]
    simp [front, withOp, aimedAt]
  have hwords : (withOp op (aimedAt (words.map String.ofList) spec)).map String.toList =
      front.map String.toList ++ words := by
    simp [front, withOp, aimedAt, Function.comp_def]
  rw [htext, hwords]
  exact (reads_joinWords (List.cons_ne_nil _ _) hfront).append hjump

/-- The line of a timed path block. -/
theorem background_blockPathLine {specs : List (String × Rule)} {jump : String}
    {words : List (List Char)} (secs : Duration) (hne : specs ≠ [])
    (hsafe : ∀ spec ∈ specs, Shell.Safe spec.1.toList ∧ ∀ word ∈ spec.2, Shell.Safe word.toList)
    (hjump : Shell.Reads jump.toList words) :
    background (blockPathLine ((specs.map (aimedAt [jump])).map (withOp "-I")) secs
        ((specs.map (aimedAt [jump])).map (withOp "-D"))) =
      some ((specs.map (aimedAt (words.map String.ofList))).map (withOp "-I") ++
        ["sleep", String.ofList secs.text] ::
          (specs.map (aimedAt (words.map String.ofList))).map (withOp "-D")) := by
  have hline : ∀ cmds delCmds, blockPathLine cmds secs delCmds =
      '(' :: (joinCommands (cmds.map joinWords) ++ ';' :: ' ' ::
        (("sleep".toList ++ ' ' :: secs.text) ++ ';' :: ' ' ::
          joinCommands (delCmds.map joinWords))) ++ backgroundEnd := by
    simp [blockPathLine]
  have hread : ∀ op : String, Shell.Safe op.toList → List.Forall₂ Shell.Reads
      (((specs.map (aimedAt [jump])).map (withOp op)).map joinWords)
      (((specs.map (aimedAt (words.map String.ofList))).map (withOp op)).map
        (List.map String.toList)) := by
    intro op hop
    simp only [List.map_map]
    rw [List.forall₂_map_left_iff, List.forall₂_map_right_iff, List.forall₂_same]
    exact fun spec hspec => reads_aimedAt hop (hsafe spec hspec).1 (hsafe spec hspec).2 hjump
  rw [hline, background_line, joinCommands,
    Shell.commands_intercalate_append (hread "-I" (by decide)) (by simpa using hne),
    (reads_sleep secs).commands_append, joinCommands,
    Shell.commands_intercalate (hread "-D" (by decide)) (by simpa using hne)]
  simp [Function.comp_def]

/-- The line of a timed packet block. -/
theorem background_blockPacketTypeLine {d : List String} (secs : Duration) (hd : d ≠ []) :
    background (blockPacketTypeLine secs d) =
      some [["sleep", String.ofList secs.text], d ++ ["-j", "LOG"], d ++ ["-j", "DROP"]] := by
  have hline : blockPacketTypeLine secs d =
      '(' :: (' ' :: ("sleep".toList ++ ' ' :: secs.text) ++ ';' :: ' ' ::
        ((quoteWords d ++ ' ' :: ("-j".toList ++ ' ' :: "LOG".toList)) ++ ';' :: ' ' ::
          (quoteWords d ++ ' ' :: ("-j".toList ++ ' ' :: "DROP".toList)))) ++ backgroundEnd := by
    simp [blockPacketTypeLine]
  have hjump : ∀ target : String, Shell.Safe target.toList →
      Shell.Reads (quoteWords d ++ ' ' :: ("-j".toList ++ ' ' :: target.toList))
        (d.map String.toList ++ (["-j".toList] ++ [target.toList])) := by
    intro target htarget
    have hoption : Shell.Safe "-j".toList := by decide
    apply (reads_quoteWords hd).append
    exact (Shell.spells_safe hoption).reads.append (Shell.spells_safe htarget).reads
  rw [hline, background_line, (reads_sleep secs).blank.commands_append,
    (hjump "LOG" (by decide)).commands_append, (hjump "DROP" (by decide)).commands]
  simp [Function.comp_def]

/-! ## All blocks -/

theorem pathMatches_ne_nil {w : World} {node node2 : NodeId} {a b : Addr} :
    pathMatches w node node2 a b ≠ [] := by
  unfold pathMatches
  rcases isRdma w node with _ | _ <;> simp

theorem iptablesCmd_ok {w : World} {node other : NodeId} {net : Int} {jump op : String}
    {filter : List String} {cmds : List (List String)}
    (hcmds : iptablesCmd w node other jump net op filter = .ok cmds) :
    ∃ specs : List (String × Rule), specs ≠ [] ∧
      (∀ op' filter', iptablesCmd w node other jump net op' filter' =
        .ok ((specs.map (aimedAt [jump])).map (withOp op'))) ∧
      ∀ spec ∈ specs, Shell.Safe spec.1.toList ∧ ∀ word ∈ spec.2, Shell.Safe word.toList := by
  obtain ⟨a, b, ha, hb⟩ := addrAt_of_iptablesCmd hcmds
  exact ⟨pathMatches w node other a b, pathMatches_ne_nil,
    fun op' filter' => iptablesCmd_eq ha hb jump op' filter', safe_pathMatches w node other a b⟩

theorem blocks_blockPath {w : World} {node other : NodeId} {net : Int} {jump : String}
    {lead : Option Rat} {secs : Option Duration} {filter : List String} {cmds : List RunCommand}
    (hexact : (Call.blockPath node other net jump lead secs filter).Exact)
    (hcmds : blockPath w node other net jump lead secs filter = .ok cmds) :
    Blocks w (.blockPath node other net jump lead secs filter) cmds := by
  unfold blockPath at hcmds
  rcases hplatform : (w.host (w.node node).host).info.platform with _ | _
  · simp only [hplatform] at hcmds
    rcases hins : iptablesCmd w node other jump net "-I" filter with e | ins
    · rw [hins] at hcmds
      cases hcmds
    obtain ⟨matching, hne, hspecs, hsafe⟩ := iptablesCmd_ok hins
    rw [hspecs "-I" filter] at hcmds
    cases secs with
    | none =>
      cases hcmds
      apply blocks_of_commands "-I" (by simp) rfl
      change unblockPath w node other net jump = _
      rw [unblockPath, hspecs "-D"]
      rfl
    | some secs =>
      obtain ⟨words, hjump⟩ := hexact rfl
      by_cases hlead : secs.seconds ≤ lead.getD (3 / 10)
      · change (if secs.seconds ≤ lead.getD (3 / 10) then _ else _) = _ at hcmds
        rw [if_pos hlead] at hcmds
        cases hcmds
      · change (if secs.seconds ≤ lead.getD (3 / 10) then _ else _) = _ at hcmds
        rw [if_neg hlead, hspecs "-D"] at hcmds
        cases hcmds
        -- the rules are those with the words that the shell reads
        let specs := matching.map (aimedAt (words.map String.ofList))
        have hline : background (blockPathLine _ secs _) = some (specs.map (withOp "-I") ++
            ["sleep", String.ofList secs.text] :: specs.map (withOp "-D")) :=
          background_blockPathLine secs hne hsafe hjump
        have hacts : (specs.map (withOp "-I") ++
            ["sleep", String.ofList secs.text] :: specs.map (withOp "-D")).flatMap
              (simpleActs (w.node node).host) =
            (specs.map fun spec => ((w.node node).host, spec)).map .put ++
              (specs.map fun spec => ((w.node node).host, spec)).map .take := by
          rw [List.flatMap_append, List.flatMap_cons, flatMap_simpleActs (fun spec => rfl),
            flatMap_simpleActs (fun spec => rfl)]
          rfl
        refine ⟨?_, ⟨specs.map fun spec => ((w.node node).host, spec), ?_⟩, ?_⟩
        · intro p hp
          rw [List.mem_singleton.mp hp]
          refine .launch hline ?_ ?_
          · intro cmd hcmd
            rcases List.mem_append.mp hcmd with hcmd | hcmd
            · exact simple_withOp _ (by simp) specs cmd hcmd
            · rcases List.mem_cons.mp hcmd with rfl | hcmd
              · exact .sleep _
              · exact simple_withOp _ (by simp) specs cmd hcmd
          · rw [hacts]
            exact covered_puts_takes fun k => Nat.le_refl _
        · simp only [Call.undo, Option.toList_none, List.flatMap_nil, List.append_nil,
            List.flatMap_singleton]
          rw [acts_launch hline, hacts]
        · rintro u ⟨⟩
  · simp only [hplatform] at hcmds
    cases hcmds

theorem blocks_blockPacketType {w : World} {node : NodeId} {packet volume : Int}
    {fromNode : Option NodeId} {secs : Option Duration} {cmds : List RunCommand}
    (hcmds : blockPacketType w node packet fromNode volume secs = .ok cmds) :
    Blocks w (.blockPacketType node packet fromNode volume secs) cmds := by
  rcases hins : blockPacketTypeCmd w node "-A" packet volume fromNode with e | ins
  · simp only [blockPacketType, blockPacketTypeWith, hins] at hcmds
    cases hcmds
  obtain ⟨rule, hrule⟩ := blockPacketTypeCmd_ops hins
  let specs : List (String × Rule) :=
    [("drbd-test-input", rule ++ ["-j", "LOG"]), ("drbd-test-input", rule ++ ["-j", "DROP"])]
  have hwith : ∀ op, blockPacketTypeWith w node op packet fromNode volume =
      .ok ((specs.map (withOp op)).map fun cmd => ((w.node node).host, cmd)) := by
    intro op
    rw [blockPacketTypeWith, hrule op]
    rfl
  rw [blockPacketType, hwith "-A"] at hcmds
  cases secs with
  | none =>
    cases hcmds
    exact blocks_of_commands "-A" (by simp) rfl (hwith "-D")
  | some secs =>
    change (blockPacketTypeCmd w node "-D" packet volume fromNode >>= fun d => _) = _ at hcmds
    rw [hrule "-D"] at hcmds
    cases hcmds
    have hline := background_blockPacketTypeLine secs
      (d := withOp "-D" ("drbd-test-input", rule)) (List.cons_ne_nil _ _)
    have hsimple := simple_withOp "-A" (by simp) specs
    have hdeletes : ([["sleep", String.ofList secs.text],
        withOp "-D" ("drbd-test-input", rule) ++ ["-j", "LOG"],
        withOp "-D" ("drbd-test-input", rule) ++ ["-j", "DROP"]] : List (List String)) =
        ["sleep", String.ofList secs.text] :: specs.map (withOp "-D") := rfl
    rw [hdeletes] at hline
    have hacts : (["sleep", String.ofList secs.text] :: specs.map (withOp "-D")).flatMap
        (simpleActs (w.node node).host) =
        (specs.map fun spec => ((w.node node).host, spec)).map .take := by
      rw [List.flatMap_cons, flatMap_simpleActs (fun spec => rfl)]
      rfl
    refine ⟨?_, ⟨specs.map fun spec => ((w.node node).host, spec), ?_⟩, ?_⟩
    · intro p hp
      rcases List.mem_append.mp hp with hp | hp
      · obtain ⟨cmd, hcmd, rfl⟩ := List.mem_map.mp hp
        exact .simple (hsimple cmd hcmd)
      · rw [List.mem_singleton.mp hp]
        refine .launch hline ?_ ?_
        · intro cmd hcmd
          rcases List.mem_cons.mp hcmd with rfl | hcmd
          · exact .sleep _
          · exact simple_withOp _ (by simp) specs cmd hcmd
        · rw [hacts]
          exact covered_takes _
    · simp only [Call.undo, Option.toList_none, List.flatMap_nil, List.append_nil,
        List.flatMap_append, List.flatMap_singleton]
      rw [acts_launch hline, hacts, flatMap_acts hsimple, flatMap_simpleActs (fun spec => rfl)]
    · rintro u ⟨⟩

theorem blocks_of_exact {w : World} {c : Call} {cmds : List RunCommand} (hblock : c.IsBlock)
    (hexact : c.Exact) (hcmds : c.commands w = .ok cmds) : Blocks w c cmds := by
  cases c with
  | blockPath node other net jump lead secs filter => exact blocks_blockPath hexact hcmds
  | unblockPath node other net jump => exact absurd hblock id
  | blockPacketType node packet fromNode volume secs => exact blocks_blockPacketType hcmds
  | unblockPacketType node packet fromNode volume => exact absurd hblock id

/-! ## The balance of a run -/

/-- What the background shells still do. -/
def jobActs (jobs : List (HostId × List (List String))) : Multiset (List (Act Key)) :=
  (jobs.map fun j => j.2.flatMap (simpleActs j.1) : List (List (Act Key)))

/-- The running call goes on together with the calls that undo the open blocks. -/
structure Sound (w : World) (start : HostId → Chains) (s : Net) : Prop where
  known : ∀ p ∈ s.main, Known p
  undos : ∀ u ∈ s.undos, Deletes w u
  jobs : ∀ j ∈ s.hosts.jobs, ∀ cmd ∈ j.2, Simple cmd
  balanced : InBalance (count start) (count s.hosts.chains)
    ((s.main.flatMap acts ++ s.undos.flatMap (callActs w)) ::ₘ jobActs s.hosts.jobs)

theorem jobActs_middle (before after : List (HostId × List (List String)))
    (j : HostId × List (List String)) :
    jobActs (before ++ j :: after) =
      j.2.flatMap (simpleActs j.1) ::ₘ jobActs (before ++ after) := by
  unfold jobActs
  rw [List.map_append, List.map_cons, List.map_append]
  exact Multiset.coe_eq_coe.mpr List.perm_middle

theorem Sound.initial (w : World) (chains : HostId → Chains) : Sound w chains (Net.start chains) :=
  ⟨by simp [Net.start], by simp [Net.start], by simp [Net.start],
    InBalance.empty.add trivial fun _ => rfl⟩

theorem net_perm {s s' : List (Act Key)} (h : s.Perm s') (k : Key) : net k s = net k s' := by
  induction h with
  | nil => rfl
  | cons a _ ih => cases a <;> simp only [net, ih]
  | swap a b s =>
    cases a <;> cases b <;>
    · simp only [net]
      omega
  | trans _ _ ih₁ ih₂ => exact ih₁.trans ih₂

theorem covered_callActs {w : World} {calls : List Call} (h : ∀ c ∈ calls, Deletes w c) :
    Covered (calls.flatMap (callActs w)) := by
  induction calls with
  | nil => trivial
  | cons c calls ih =>
    obtain ⟨keys, hkeys⟩ := (h c (by simp)).acts
    rw [List.flatMap_cons, hkeys]
    exact (covered_takes keys).append (ih fun c' hc' => h c' (by simp [hc']))

/-- What is executed next succeeds, and the balance is kept. -/
theorem exec_known {w : World} {s : Net} {p : RunCommand} {main : List RunCommand}
    (hs : Sound w start s) (hmain : s.main = p :: main) :
    ∃ hosts, hostRun p.1 p.2 s.hosts = some hosts ∧
      Sound w start { s with hosts := hosts, main := main } := by
  have hrest : ∀ q ∈ main, Known q := fun q hq => hs.known q (by simp [hmain, hq])
  have hbal := hs.balanced
  rw [hmain, List.flatMap_cons, List.append_assoc] at hbal
  cases hs.known p (by simp [hmain]) with
  | @simple h cmd hcmd =>
    rw [acts_simple hcmd] at hbal
    obtain ⟨chains, hexec, hbal'⟩ := exec_simple hcmd hbal
    have hne : cmd ≠ [] := by
      rintro rfl
      cases hcmd
    refine ⟨_, (hostRun_eq hne h s.hosts).trans hexec, hrest, hs.undos, hs.jobs, hbal'⟩
  | @launch h line cmds hline hcmds hcovered =>
    rw [acts_launch hline] at hbal
    refine ⟨{ s.hosts with jobs := s.hosts.jobs ++ [(h, cmds)] }, ?_, hrest, hs.undos, ?_, ?_⟩
    · rw [hostRun_eq (by simp [setsidBash])]
      simp [setsidBash, exec, hline]
    · intro j hj
      rcases List.mem_append.mp hj with hj | hj
      · exact hs.jobs j hj
      · rw [List.mem_singleton.mp hj]
        exact hcmds
    · have hfork := hbal.fork hcovered
      rw [Multiset.cons_swap] at hfork
      have hjobs : jobActs (s.hosts.jobs ++ [(h, cmds)]) =
          cmds.flatMap (simpleActs h) ::ₘ jobActs s.hosts.jobs := by
        rw [jobActs_middle, List.append_nil]
      rw [← hjobs] at hfork
      exact hfork

/-- What a background shell executes next succeeds, and the balance is kept. -/
theorem exec_job {w : World} {s : Net} {before after : List (HostId × List (List String))}
    {cmds : List (List String)} (hs : Sound w start s)
    (hjobs : s.hosts.jobs = before ++ (h, cmd :: cmds) :: after) :
    ∃ chains, exec h cmd { s.hosts with jobs := before ++ (h, cmds) :: after } =
        some ⟨chains, before ++ (h, cmds) :: after⟩ ∧
      Sound w start { s with hosts := ⟨chains, before ++ (h, cmds) :: after⟩ } := by
  have hsimple : ∀ c ∈ cmd :: cmds, Simple c := by
    have hmem : (h, cmd :: cmds) ∈ s.hosts.jobs := by simp [hjobs]
    exact hs.jobs _ hmem
  have hbal := hs.balanced
  rw [hjobs, jobActs_middle, Multiset.cons_swap, List.flatMap_cons] at hbal
  obtain ⟨chains, hexec, hbal'⟩ := exec_simple (s := { s.hosts with
    jobs := before ++ (h, cmds) :: after }) (hsimple cmd (by simp)) hbal
  refine ⟨chains, hexec, hs.known, hs.undos, ?_, ?_⟩
  · intro j hj
    rcases List.mem_append.mp hj with hj | hj
    · exact hs.jobs j (by simp [hjobs, hj])
    · rcases List.mem_cons.mp hj with rfl | hj
      · exact fun c hc => hsimple c (by simp [hc])
      · exact hs.jobs j (by simp [hjobs, hj])
  · rw [Multiset.cons_swap, ← jobActs_middle before after (h, cmds)] at hbal'
    exact hbal'

theorem Sound.step {w : World} {s s' : Net} {move : Move} (hs : Sound w start s)
    (hexact : move.Exact) (hstep : Step w s move s') : Sound w start s' := by
  cases hstep with
  | @block c cmds hmain hblock hcmds =>
    have hplan := blocks_of_exact hblock hexact hcmds
    obtain ⟨keys, hkeys⟩ := hplan.acts
    refine ⟨hplan.known, ?_, hs.jobs, ?_⟩
    · intro u hu
      rcases List.mem_append.mp hu with hu | hu
      · exact hplan.undo u (Option.mem_toList.mp hu)
      · exact hs.undos u hu
    · have hbal := hs.balanced
      rw [hmain, List.flatMap_nil, List.nil_append] at hbal
      have hsplit : cmds.flatMap acts ++ (c.undo.toList ++ s.undos).flatMap (callActs w) =
          (keys.map .put ++ keys.map .take) ++ s.undos.flatMap (callActs w) := by
        rw [List.flatMap_append, ← List.append_assoc, hkeys]
      rw [hsplit]
      apply hbal.replace
      · exact (covered_puts_takes fun k => Nat.le_refl _).append (covered_callActs hs.undos)
      · intro k
        rw [net_append, net_puts_takes]
        omega
  | @undo c cmds hmain hmem hcmds =>
    obtain ⟨cmds', hcmds', hknown⟩ := (hs.undos c hmem).commands
    obtain rfl : cmds' = cmds := Except.ok.inj (hcmds'.symm.trans hcmds)
    have herase : ∀ u ∈ s.undos.erase c, Deletes w u := fun u hu =>
      hs.undos u (List.mem_of_mem_erase hu)
    refine ⟨hknown, herase, hs.jobs, ?_⟩
    have hbal := hs.balanced
    rw [hmain, List.flatMap_nil, List.nil_append] at hbal
    have hacts : cmds'.flatMap acts = callActs w c := by rw [callActs, hcmds]
    -- the acts of the call move to the front
    have hperm : (callActs w c ++ (s.undos.erase c).flatMap (callActs w)).Perm
        (s.undos.flatMap (callActs w)) := by
      rw [← List.flatMap_cons]
      exact (List.perm_cons_erase hmem).symm.flatMap_right _
    rw [hacts]
    apply hbal.replace
    · obtain ⟨keys, hkeys⟩ := (hs.undos c hmem).acts
      rw [hkeys]
      exact (covered_takes keys).append (covered_callActs herase)
    · exact fun k => net_perm hperm k
  | @main h cmd rest hosts hmain hrun =>
    obtain ⟨hosts', hrun', hs'⟩ := exec_known hs hmain
    obtain rfl : hosts' = hosts := Option.some.inj (hrun'.symm.trans hrun)
    exact hs'
  | @job before after h cmd rest hjobs =>
    obtain ⟨chains, hexec, hs'⟩ := exec_job hs hjobs
    simp only [hexec, Option.getD_some]
    exact hs'

/-- In every run whose blocks are exact, each command that comes next succeeds, in
particular the deletions, an open block can be undone, and when all blocks are undone each
chain holds what it held at the start. -/
theorem filters_restored (w : World) (start : HostId → Chains) (moves : List Move) (s : Net)
    (run : Run (Guarded (fun _ move => move.Exact) (Step w)) (Net.start start) moves s) :
    (∀ p rest, s.main = p :: rest → (hostRun p.1 p.2 s.hosts).isSome) ∧
    (∀ j ∈ s.hosts.jobs, ∀ cmd rest, j.2 = cmd :: rest → (exec j.1 cmd s.hosts).isSome) ∧
    (∀ u ∈ s.undos, ∃ cmds, u.commands w = .ok cmds) ∧
    (s.main = [] → s.undos = [] → (∀ j ∈ s.hosts.jobs, j.2 = []) →
      ∀ h chain, (s.hosts.chains h chain).Perm (start h chain)) := by
  have hs : Sound w start s :=
    run.invariant (Sound.initial w start) fun s move s' hs hstep => hs.step hstep.1 hstep.2
  refine ⟨?_, ?_, ?_, ?_⟩
  · intro p rest hmain
    obtain ⟨hosts, hrun, _⟩ := exec_known hs hmain
    rw [hrun]
    rfl
  · rintro ⟨h, cmds⟩ hj cmd rest rfl
    obtain ⟨before, after, hjobs⟩ := List.append_of_mem hj
    have hbal := hs.balanced
    rw [hjobs, jobActs_middle, Multiset.cons_swap, List.flatMap_cons] at hbal
    obtain ⟨chains, hexec, _⟩ := exec_simple (hs.jobs _ hj cmd (by simp)) hbal
    rw [hexec]
    rfl
  · intro u hu
    obtain ⟨cmds, hcmds, _⟩ := (hs.undos u hu).commands
    exact ⟨cmds, hcmds⟩
  · intro hmain hundos hjobs h chain
    rw [List.perm_iff_count]
    intro rule
    refine hs.balanced.done ?_ (h, chain, rule)
    intro t ht
    rcases Multiset.mem_cons.mp ht with rfl | ht
    · rw [hmain, hundos]
      rfl
    · obtain ⟨j, hj, rfl⟩ := List.mem_map.mp ht
      rw [hjobs j hj]
      rfl

/-! ## Two nodes -/

def Net.startEmpty : Net := Net.start fun _ _ => []

/-- The main thread executes some commands. -/
def Net.finish : Nat → Net → Option Net
  | 0, s => some s
  | k + 1, s =>
    match s.main with
    | [] => none
    | (h, cmd) :: rest => (hostRun h cmd s.hosts).bind fun hosts =>
      Net.finish k { s with hosts := hosts, main := rest }

theorem Net.run_of_finish {w : World} {k : Nat} {s s' : Net} (h : s.finish k = some s') :
    Run (Guarded (fun _ move => move.Exact) (Step w)) s (List.replicate k .main) s' := by
  induction k generalizing s with
  | zero =>
    cases h
    exact .nil
  | succ k ih =>
    unfold Net.finish at h
    split at h
    · cases h
    · rename_i hid cmd rest hmain
      obtain ⟨hosts, hrun, hrest⟩ := Option.bind_eq_some_iff.mp h
      exact Run.cons ⟨trivial, .main hmain hrun⟩ (ih hrest)

/-- The state after a call of `block_path` for some packets only. -/
def blocking : Net :=
  { Net.startEmpty with
    main := ((Call.blockPath 0 1 0 "DROP" none none ["-m", "tcp", "--syn"]).commands
      twoNodes).toOption.getD []
    undos := [.unblockPath 0 1 0 "DROP"] }

def blocked : Net := (blocking.finish 4).getD Net.startEmpty

/-- The state in which the path is to be unblocked again. -/
def unblocking : Net :=
  { blocked with
    main := ((Call.unblockPath 0 1 0 "DROP").commands twoNodes).toOption.getD []
    undos := [] }

theorem run_unblocking : ∃ moves,
    Run (Guarded (fun _ move => move.Exact) (Step twoNodes)) Net.startEmpty moves unblocking := by
  have hblock : Step twoNodes Net.startEmpty
      (.call (.blockPath 0 1 0 "DROP" none none ["-m", "tcp", "--syn"])) blocking :=
    .block rfl trivial rfl
  have hfinish : blocking.finish 4 = some blocked := by
    have hsome : (blocking.finish 4).isSome := by decide +kernel
    obtain ⟨s, hs⟩ := Option.isSome_iff_exists.mp hsome
    rw [blocked, hs]
    rfl
  have hmain : blocked.main = [] := by decide +kernel
  have hundos : blocked.undos = [.unblockPath 0 1 0 "DROP"] := by decide +kernel
  have hundo : Step twoNodes blocked (.call (.unblockPath 0 1 0 "DROP")) unblocking := by
    have hstep := Step.undo (w := twoNodes) (s := blocked) (c := .unblockPath 0 1 0 "DROP") hmain
      (by simp [hundos]) rfl
    rw [hundos, List.erase_cons_head] at hstep
    exact hstep
  have hfirst : Guarded (fun _ move => move.Exact) (Step twoNodes) Net.startEmpty
      (.call (.blockPath 0 1 0 "DROP" none none ["-m", "tcp", "--syn"])) blocking :=
    ⟨fun hsome => (by cases hsome), hblock⟩
  have hlast : Guarded (fun _ move => move.Exact) (Step twoNodes) blocked
      (.call (.unblockPath 0 1 0 "DROP")) unblocking := ⟨trivial, hundo⟩
  exact ⟨_, .snoc (Run.cons hfirst (Net.run_of_finish hfinish)) hlast⟩

/-- The rules of the path are found when they are to be deleted. -/
theorem filters_restored_blocking :
    ∃ p rest, unblocking.main = p :: rest ∧ (hostRun p.1 p.2 unblocking.hosts).isSome := by
  obtain ⟨moves, run⟩ := run_unblocking
  have hall := filters_restored twoNodes (fun _ _ => []) moves unblocking run
  exact ⟨_, _, rfl, hall.1 _ _ rfl⟩

/-! ## A jump target with an open quote -/

def second : Duration := ⟨1, ['1'], by decide⟩

/-- The commands of a path block, or of its deletions. -/
def pathCommands (op jump : String) : List (List String) :=
  ((pathMatches twoNodes 0 1 (addrOf 0) (addrOf 1)).map (aimedAt [jump])).map (withOp op)

def timedLine (jump : String) : List Char :=
  blockPathLine (pathCommands "-I" jump) second (pathCommands "-D" jump)

theorem commands_timed (jump : String) :
    (Call.blockPath 0 1 0 jump none (some second) []).commands twoNodes =
      .ok [(0, setsidBash (timedLine jump))] := by
  have hlead : ¬ second.seconds ≤ (none : Option Rat).getD (3 / 10) := by decide +kernel
  have hcmds : ∀ op, iptablesCmd twoNodes 0 1 jump 0 op [] = .ok (pathCommands op jump) := fun op =>
    iptablesCmd_eq rfl rfl jump op []
  change (iptablesCmd twoNodes 0 1 jump 0 "-I" [] >>= fun cmds => if second.seconds ≤ _ then _ else _) = _
  rw [hcmds]
  change (if second.seconds ≤ _ then _ else _) = _
  rw [if_neg hlead, hcmds]
  rfl

/-- The state after the shell of a timed block was started. -/
def launched (cmds : List (List String)) : Net :=
  { Net.startEmpty with hosts := ⟨fun _ _ => [], [(0, cmds)]⟩ }

theorem run_launched {jump : String} {cmds : List (List String)}
    (h : background (timedLine jump) = some cmds) :
    Run (Step twoNodes) Net.startEmpty
      [.call (.blockPath 0 1 0 jump none (some second) []), .main] (launched cmds) := by
  have hrun : hostRun 0 (setsidBash (timedLine jump)) Net.startEmpty.hosts =
      some ⟨fun _ _ => [], [(0, cmds)]⟩ := by
    rw [hostRun_eq (by simp [setsidBash])]
    simp [setsidBash, exec, h, Net.startEmpty, Net.start]
  exact Run.cons (.block rfl trivial (commands_timed jump)) (Run.single (.main rfl hrun))

/-- The first shell executes some commands. -/
def Net.runJob : Nat → Net → Option Net
  | 0, s => some s
  | k + 1, s =>
    match s.hosts.jobs with
    | (h, cmd :: rest) :: after =>
      let hosts := { s.hosts with jobs := (h, rest) :: after }
      Net.runJob k { s with hosts := (exec h cmd hosts).getD hosts }
    | _ => none

theorem Net.run_of_runJob {w : World} {k : Nat} {s s' : Net} (h : s.runJob k = some s') :
    Run (Step w) s (List.replicate k .job) s' := by
  induction k generalizing s with
  | zero =>
    cases h
    exact .nil
  | succ k ih =>
    unfold Net.runJob at h
    split at h
    · rename_i hid cmd rest after hjobs
      exact Run.cons (@Step.job _ _ [] _ _ _ _ hjobs) (ih h)
    · cases h

/-- The next command of the first shell deletes a rule that is not there. -/
def Net.misses (s : Net) : Bool :=
  match s.hosts.jobs with
  | (h, cmd :: _) :: _ => cmd.take 2 = ["iptables", "-D"] && (exec h cmd s.hosts).isNone
  | _ => false

theorem Net.misses_spec {s : Net} (h : s.misses = true) :
    ∃ host cmd rest, (host, cmd :: rest) ∈ s.hosts.jobs ∧ cmd.take 2 = ["iptables", "-D"] ∧
      exec host cmd s.hosts = none := by
  unfold Net.misses at h
  split at h
  · rename_i host cmd rest after hjobs
    rw [Bool.and_eq_true, decide_eq_true_eq, Option.isNone_iff_eq_none] at h
    exact ⟨host, cmd, rest, by simp [hjobs], h⟩
  · cases h

/-- The shell takes what is between two quotes for one word, so that the rule that is to be deleted is
another one than the rule that was inserted. -/
theorem quoted_target_not_undone :
    ∃ moves s, Run (Step twoNodes) Net.startEmpty
      (.call (.blockPath 0 1 0 "it's" none (some second) []) :: moves) s ∧
      ∃ host cmd rest, (host, cmd :: rest) ∈ s.hosts.jobs ∧ cmd.take 2 = ["iptables", "-D"] ∧
        exec host cmd s.hosts = none := by
  have hread : (background (timedLine "it's")).any fun cmds =>
      ((launched cmds).runJob 3).any Net.misses := by decide +kernel
  rw [Option.any_eq_true] at hread
  obtain ⟨cmds, hcmds, hrun⟩ := hread
  obtain ⟨s, hs, hmisses⟩ := (Option.any_eq_true _ _).mp hrun
  exact ⟨_, s, (run_launched hcmds).trans (Net.run_of_runJob hs), Net.misses_spec hmisses⟩

end DrbdTests.Network
