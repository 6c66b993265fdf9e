import DrbdTests.Lib.Text
import DrbdTests.Network.Iptables

/-!
# What a blocked path blocks

Rules are matched against packets. A rule inserted by `block_path` names both addresses and
one port, since either end may have opened the connection; the four rules of a path together
cover exactly the packets of the connection. The filter that `block_path` is given is in none
of them (`blockPath_blocks_iff`).
-/

namespace DrbdTests.Network

inductive Direction
  | leaving
  | arriving
  deriving DecidableEq, Repr

/-- A packet that leaves a host or arrives at it, with addresses of type `ι`. -/
structure Packet (ι δ : Type) where
  direction : Direction
  protocol : String
  source : ι
  destination : ι
  sourcePort : Nat
  destinationPort : Nat
  data : δ

/-- How `iptables` reads an address, and the match words that follow the jump target. -/
structure Meaning (ι δ : Type) where
  resolve : String → ι
  extra : List String → Packet ι δ → Bool
  extra_nil : ∀ p, extra [] p = true

variable {ι δ : Type} [DecidableEq ι]

/-- The rule matches the packet. -/
def matchesRule (m : Meaning ι δ) (p : Packet ι δ) : Rule → Bool
  | "-p" :: protocol :: rule => p.protocol = protocol && matchesRule m p rule
  | "--source" :: addr :: rule => p.source = m.resolve addr && matchesRule m p rule
  | "--destination" :: addr :: rule => p.destination = m.resolve addr && matchesRule m p rule
  | "--source-port" :: port :: rule =>
    Text.decimal port.toList = some p.sourcePort && matchesRule m p rule
  | "--destination-port" :: port :: rule =>
    Text.decimal port.toList = some p.destinationPort && matchesRule m p rule
  | "-j" :: _ :: rule => m.extra rule p
  | _ => false

/-- The word after `-j`. -/
def target : Rule → Option String
  | "-j" :: jump :: _ => some jump
  | _ :: _ :: rule => target rule
  | _ => none

/-- The target of the first rule that matches. -/
def handedTo (m : Meaning ι δ) (rules : List Rule) (p : Packet ι δ) : Option String :=
  (rules.find? (matchesRule m p)).bind target

def Direction.chain : Direction → String
  | .leaving => "drbd-test-output"
  | .arriving => "drbd-test-input"

def runAll (cmds : List RunCommand) (s : Hosts) : Option Hosts :=
  cmds.foldlM (fun s cmd => hostRun cmd.1 cmd.2 s) s

/-! ## Rules of a path -/

/-- The ports of a rule, each given and not zero or left out. -/
theorem matches_pathMatch (m : Meaning ι δ) (p : Packet ι δ) (sa da : Addr) (sp dp : Option Nat)
    (hsp : ∀ n ∈ sp, n ≠ 0) (hdp : ∀ n ∈ dp, n ≠ 0) (udpTcp jump : String) :
    matchesRule m p (pathMatch sa sp da dp udpTcp ++ ["-j", jump]) = true ↔
      p.protocol = udpTcp ∧ p.source = m.resolve sa.text ∧ p.destination = m.resolve da.text ∧
        (∀ n ∈ sp, p.sourcePort = n) ∧ (∀ n ∈ dp, p.destinationPort = n) := by
  have hjump : matchesRule m p ["-j", jump] = true := m.extra_nil p
  have hport : ∀ (n q : Nat), decide (Text.decimal (toString n).toList = some q) = true ↔
      ∀ k ∈ some n, q = k := by
    intro n q
    rw [Text.decimal_toString, decide_eq_true_eq, Option.some_inj]
    constructor
    · rintro rfl k hk
      exact Option.some.inj hk
    · intro hq
      exact (hq n rfl).symm
  have hdest : matchesRule m p (portWords "--destination-port" dp ++ ["-j", jump]) = true ↔
      ∀ n ∈ dp, p.destinationPort = n := by
    cases dp with
    | none => simp [portWords, hjump]
    | some n =>
      rw [portWords, if_pos (hdp n rfl)]
      change (decide _ && matchesRule m p ["-j", jump]) = true ↔ _
      rw [hjump, Bool.and_true, hport]
  have hsource : matchesRule m p (portWords "--source-port" sp ++
      (portWords "--destination-port" dp ++ ["-j", jump])) = true ↔
      (∀ n ∈ sp, p.sourcePort = n) ∧ ∀ n ∈ dp, p.destinationPort = n := by
    rw [← hdest]
    cases sp with
    | none => simp [portWords]
    | some n =>
      rw [portWords, if_pos (hsp n rfl), ← hport, ← Bool.and_eq_true]
      rfl
  have hrule : pathMatch sa sp da dp udpTcp ++ ["-j", jump] =
      "-p" :: udpTcp :: "--source" :: sa.text :: "--destination" :: da.text ::
        (portWords "--source-port" sp ++ (portWords "--destination-port" dp ++ ["-j", jump])) := by
    simp [pathMatch]
  rw [hrule]
  simp only [matchesRule, Bool.and_eq_true, decide_eq_true_eq]
  rw [hsource]

theorem target_pathMatch (sa da : Addr) (sp dp : Option Nat) (udpTcp jump : String) :
    target (pathMatch sa sp da dp udpTcp ++ ["-j", jump]) = some jump := by
  have hport : ∀ (option : String) (port : Option Nat) (rule : Rule), option ≠ "-j" →
      target (portWords option port ++ rule) = target rule := by
    intro option port rule hoption
    unfold portWords
    split
    · split
      · exact target.eq_2 _ _ _ (fun h => hoption h)
      · rfl
    · rfl
  unfold pathMatch
  simp only [List.append_assoc]
  change target (portWords _ _ ++ _) = _
  rw [hport _ _ _ (by decide), hport _ _ _ (by decide)]
  rfl

/-! ## The path -/

/-- Rules that are inserted end up in front of their chains. -/
theorem runAll_insert {h : HostId} (specs : List (String × Rule)) (s : Hosts) :
    ∃ s', runAll ((specs.map (withOp "-I")).map fun c => (h, c)) s = some s' ∧
      ∀ chain, s'.chains h chain =
        ((specs.filter fun spec => spec.1 = chain).map Prod.snd).reverse ++ s.chains h chain := by
  induction specs generalizing s with
  | nil => exact ⟨s, rfl, fun chain => rfl⟩
  | cons spec specs ih =>
    obtain ⟨chain₀, rule⟩ := spec
    let chains := Function.update (s.chains h) chain₀ (rule :: s.chains h chain₀)
    let s₁ : Hosts := ⟨Function.update s.chains h chains, s.jobs⟩
    have hstep : hostRun h (withOp "-I" (chain₀, rule)) s = some s₁ :=
      hostRun_eq (List.cons_ne_nil _ _) h s
    obtain ⟨s', hrun, hchains⟩ := ih s₁
    refine ⟨s', ?_, fun chain => ?_⟩
    · rw [List.map_cons, List.map_cons, runAll, List.foldlM_cons, hstep]
      exact hrun
    · rw [hchains]
      by_cases hchain : chain₀ = chain
      · subst hchain
        simp [s₁, chains]
      · have hne : chain ≠ chain₀ := fun he => hchain he.symm
        simp [s₁, chains, hchain, hne]

/-- Two rules with one target. -/
theorem handedTo_pair (m : Meaning ι δ) (p : Packet ι δ) {first second : Rule} {jump : String}
    (hfirst : target first = some jump) (hsecond : target second = some jump) :
    handedTo m [first, second] p = some jump ↔
      matchesRule m p first = true ∨ matchesRule m p second = true := by
  unfold handedTo
  rcases h₁ : matchesRule m p first with _ | _
  · rcases h₂ : matchesRule m p second with _ | _
    · simp [h₁, h₂]
    · simp [h₁, h₂, hsecond]
  · simp [h₁, hfirst]

/-- The two rules for one direction. -/
theorem matches_path (m : Meaning ι δ) (p : Packet ι δ) (sa da : Addr) (sp dp : Port)
    (jump : String) :
    (matchesRule m p (pathMatch sa (some sp) da none "tcp" ++ ["-j", jump]) = true ∨
      matchesRule m p (pathMatch sa none da (some dp) "tcp" ++ ["-j", jump]) = true) ↔
      p.protocol = "tcp" ∧ p.source = m.resolve sa.text ∧
        p.destination = m.resolve da.text ∧ (p.sourcePort = sp ∨ p.destinationPort = dp) := by
  have hsome : ∀ (k : Port), ∀ n ∈ some k.val, n ≠ 0 := by
    rintro k n ⟨⟩ hzero
    have hk := k.property
    omega
  have hnone : ∀ n ∈ (none : Option Nat), n ≠ 0 := by rintro n ⟨⟩
  rw [matches_pathMatch m p sa da _ _ (hsome sp) hnone, matches_pathMatch m p sa da _ _ hnone (hsome dp)]
  simp only [Option.mem_def, Option.some.injEq, forall_eq', reduceCtorEq, false_implies,
    implies_true, true_and]
  tauto

/-- A TCP packet of the connection between two nodes with these addresses, in either direction and no
matter who has opened it. -/
def OfPath (m : Meaning ι δ) (w : World) (nodeA nodeB : NodeId) (a b : Addr) (p : Packet ι δ) : Prop :=
  p.protocol = "tcp" ∧
    ((p.direction = .leaving ∧ p.source = m.resolve a.text ∧ p.destination = m.resolve b.text ∧
        (p.sourcePort = (w.node nodeA).port ∨ p.destinationPort = (w.node nodeB).port)) ∨
      (p.direction = .arriving ∧ p.source = m.resolve b.text ∧ p.destination = m.resolve a.text ∧
        (p.sourcePort = (w.node nodeB).port ∨ p.destinationPort = (w.node nodeA).port)))

/-- The rules of a path in front of empty chains. -/
theorem handedTo_pathMatches (m : Meaning ι δ) (w : World) {nodeA nodeB : NodeId} (a b : Addr)
    (jump : String) (htcp : isRdma w nodeA = false) (p : Packet ι δ) :
    handedTo m ((((pathMatches w nodeA nodeB a b).map (aimedAt [jump])).filter fun spec =>
      spec.1 = p.direction.chain).map Prod.snd).reverse p = some jump ↔
        OfPath m w nodeA nodeB a b p := by
  unfold OfPath
  rcases hdir : p.direction with _ | _
  · have hrules : ((((pathMatches w nodeA nodeB a b).map (aimedAt [jump])).filter fun spec =>
        spec.1 = Direction.leaving.chain).map Prod.snd).reverse =
        [pathMatch a none b (some (w.node nodeB).port) "tcp" ++ ["-j", jump],
          pathMatch a (some (w.node nodeA).port) b none "tcp" ++ ["-j", jump]] := by
      simp [pathMatches, aimedAt, htcp, Direction.chain]
    rw [hrules, handedTo_pair m p (target_pathMatch _ _ _ _ _ _) (target_pathMatch _ _ _ _ _ _),
      or_comm, matches_path]
    simp
  · have hrules : ((((pathMatches w nodeA nodeB a b).map (aimedAt [jump])).filter fun spec =>
        spec.1 = Direction.arriving.chain).map Prod.snd).reverse =
        [pathMatch b (some (w.node nodeB).port) a none "tcp" ++ ["-j", jump],
          pathMatch b none a (some (w.node nodeA).port) "tcp" ++ ["-j", jump]] := by
      simp [pathMatches, aimedAt, htcp, Direction.chain]
    rw [hrules, handedTo_pair m p (target_pathMatch _ _ _ _ _ _) (target_pathMatch _ _ _ _ _ _),
      matches_path]
    simp

/-- After a path was blocked, all packets of its connection are handed to the target. These are the ones
that also satisfy the filter exactly when the filter leaves out no packet of the connection. -/
theorem blockPath_blocks_iff (m : Meaning ι δ) (w : World) (nodeA nodeB : NodeId) (i : Int)
    (jump : String) (lead : Option Rat) (filter : List String) (a b : Addr) (s : Hosts)
    (ha : addrAt (w.host (w.node nodeA).host).info.addrs i = .ok a)
    (hb : addrAt (w.host (w.node nodeB).host).info.addrs i = .ok b)
    (hlinux : (w.host (w.node nodeA).host).info.platform = .linux)
    (htcp : isRdma w nodeA = false)
    (hempty : ∀ direction : Direction, s.chains (w.node nodeA).host direction.chain = []) :
    ∃ cmds s', blockPath w nodeA nodeB i jump lead none filter = .ok cmds ∧
      runAll cmds s = some s' ∧
      (∀ p : Packet ι δ, handedTo m (s'.chains (w.node nodeA).host p.direction.chain) p = some jump ↔
        OfPath m w nodeA nodeB a b p) ∧
      ((∀ p : Packet ι δ,
          handedTo m (s'.chains (w.node nodeA).host p.direction.chain) p = some jump ↔
            OfPath m w nodeA nodeB a b p ∧ m.extra filter p = true) ↔
        ∀ p : Packet ι δ, OfPath m w nodeA nodeB a b p → m.extra filter p = true) := by
  have hcmds : blockPath w nodeA nodeB i jump lead none filter =
      .ok ((((pathMatches w nodeA nodeB a b).map (aimedAt [jump])).map (withOp "-I")).map
        fun c => ((w.node nodeA).host, c)) := by
    unfold blockPath
    simp only [hlinux, iptablesCmd_eq ha hb]
    rfl
  obtain ⟨s', hrun, hchains⟩ := runAll_insert (h := (w.node nodeA).host)
    ((pathMatches w nodeA nodeB a b).map (aimedAt [jump])) s
  have hpath : ∀ p : Packet ι δ,
      handedTo m (s'.chains (w.node nodeA).host p.direction.chain) p = some jump ↔
        OfPath m w nodeA nodeB a b p := by
    intro p
    rw [hchains, hempty, List.append_nil]
    exact handedTo_pathMatches m w a b jump htcp p
  refine ⟨_, s', hcmds, hrun, hpath, ?_⟩
  simp only [hpath]
  constructor
  · exact fun hclaim p hp => ((hclaim p).mp hp).2
  · exact fun hfilter p => ⟨fun hp => ⟨hp, hfilter p hp⟩, And.left⟩

/-- Addresses are read as they are written, and the filter is about the SYN flag. -/
def synMeaning : Meaning String Bool := ⟨id, fun words p => words.isEmpty || p.data, fun _ => rfl⟩

/-- A packet of an open connection. -/
def ackPacket : Packet String Bool := ⟨.leaving, "tcp", "10.0.0.1", "10.0.0.2", 7788, 49152, false⟩

theorem ackPacket_ofPath : OfPath synMeaning twoNodes 0 1 (addrOf 0) (addrOf 1) ackPacket :=
  ⟨rfl, .inl ⟨rfl, rfl, rfl, .inl rfl⟩⟩

/-- A block of SYN packets only is none. -/
theorem blockPath_blocks_iff_syn :
    ∃ cmds s', blockPath twoNodes 0 1 0 "DROP" none none ["-m", "tcp", "--syn"] = .ok cmds ∧
      runAll cmds ⟨fun _ _ => [], []⟩ = some s' ∧
      ¬ ∀ p : Packet String Bool,
        handedTo synMeaning (s'.chains (twoNodes.node 0).host p.direction.chain) p = some "DROP" ↔
          OfPath synMeaning twoNodes 0 1 (addrOf 0) (addrOf 1) p ∧
            synMeaning.extra ["-m", "tcp", "--syn"] p = true := by
  obtain ⟨cmds, s', hcmds, hrun, -, hiff⟩ := blockPath_blocks_iff synMeaning twoNodes 0 1 0 "DROP" none
    ["-m", "tcp", "--syn"] (addrOf 0) (addrOf 1) ⟨fun _ _ => [], []⟩ rfl rfl rfl rfl (fun _ => rfl)
  refine ⟨cmds, s', hcmds, hrun, fun hclaim => ?_⟩
  have hack := hiff.mp hclaim ackPacket ackPacket_ofPath
  cases hack

/-- The packet does not satisfy the filter, and is dropped. -/
theorem filter_ignored :
    ∃ cmds s', blockPath twoNodes 0 1 0 "DROP" none none ["-m", "tcp", "--syn"] = .ok cmds ∧
      runAll cmds ⟨fun _ _ => [], []⟩ = some s' ∧
      handedTo synMeaning (s'.chains (twoNodes.node 0).host ackPacket.direction.chain) ackPacket =
        some "DROP" ∧
      synMeaning.extra ["-m", "tcp", "--syn"] ackPacket = false := by
  obtain ⟨s', hrun, hchains⟩ := runAll_insert (h := (twoNodes.node 0).host)
    ((pathMatches twoNodes 0 1 (addrOf 0) (addrOf 1)).map (aimedAt ["DROP"])) ⟨fun _ _ => [], []⟩
  refine ⟨_, s', rfl, hrun, ?_, rfl⟩
  rw [hchains, List.append_nil]
  exact (handedTo_pathMatches synMeaning twoNodes (addrOf 0) (addrOf 1) "DROP" rfl ackPacket).mpr
    ackPacket_ofPath

end DrbdTests.Network
