import DrbdTests.Cluster.Operations
import DrbdTests.Lib.Shell
import Mathlib.Data.Rat.Defs

/-!
# Packet filters

The methods of `Node` and `LinuxPlatformHelper` that block network paths and packets with
`iptables`, and what their commands do on a host. A rule is the list of words that follow
the name of its chain.

The commands of a timed block run in a background shell. Its line is a text, in which the
words of `block_path` are not quoted and those of `block_packet_type` are.
-/

namespace DrbdTests.Network

/-! ## Chains -/

abbrev Rule := List String

/-- The chains of a host. -/
abbrev Chains := String → List Rule

/-- The arguments of `iptables`; it fails when there is no rule to delete. -/
def iptables : List String → Chains → Option Chains
  | "-I" :: chain :: rule, chains => some (Function.update chains chain (rule :: chains chain))
  | "-A" :: chain :: rule, chains => some (Function.update chains chain (chains chain ++ [rule]))
  | "-D" :: chain :: rule, chains =>
    if rule ∈ chains chain then
      some (Function.update chains chain ((chains chain).erase rule))
    else none
  | _, _ => none

/-! ## Commands of a node -/

/-- A number of seconds, and the text it is formatted to. -/
structure Duration where
  seconds : Rat
  text : List Char
  safe : Shell.Safe text
  deriving DecidableEq

/-- `addrs[i]` -/
def addrAt (addrs : List Addr) (i : Int) : Except PyError Addr :=
  match addrs[(if i < 0 then addrs.length + i else i).toNat]? with
  | some addr => if i < 0 ∧ addrs.length + i < 0 then .error .indexError else .ok addr
  | none => .error .indexError

/-- The words for a port that is given and not zero. -/
def portWords (option : String) : Option Nat → List String
  | some port => if port ≠ 0 then [option, toString port] else []
  | none => []

def iptablesCmd1 (chain : String) (sa : Addr) (sp : Option Nat) (da : Addr) (dp : Option Nat)
    (jump addRemove udpTcp : String) (additionalFilter : List String) : List String :=
  ["iptables", addRemove, chain, "-p", udpTcp, "--source", sa.text, "--destination", da.text] ++
  portWords "--source-port" sp ++ portWords "--destination-port" dp ++ ["-j", jump] ++
  additionalFilter

def isRdma (w : World) (n : NodeId) : Bool :=
  (w.resource (w.node n).resource).transport = some "rdma"

/-- `Node._iptables_cmd`. It takes a filter, but passes none on to `_iptables_cmd_1`. -/
def iptablesCmd (w : World) (node node2 : NodeId) (jump : String) (pathNr : Int)
    (addRemove : String) (_additionalFilter : List String) : Except PyError (List (List String)) := do
  let a ← addrAt (w.host (w.node node).host).info.addrs pathNr
  let b ← addrAt (w.host (w.node node2).host).info.addrs pathNr
  let port := (w.node node).port.val
  let port2 := (w.node node2).port.val
  if isRdma w node then
    return [iptablesCmd1 "drbd-test-output" a none b (some 4791) jump addRemove "udp" [],
      iptablesCmd1 "drbd-test-input" b none a (some 4791) jump addRemove "udp" []]
  else
    return [iptablesCmd1 "drbd-test-output" a (some port) b none jump addRemove "tcp" [],
      iptablesCmd1 "drbd-test-output" a none b (some port2) jump addRemove "tcp" [],
      iptablesCmd1 "drbd-test-input" b none a (some port) jump addRemove "tcp" [],
      iptablesCmd1 "drbd-test-input" b (some port2) a none jump addRemove "tcp" []]

/-- `'%04X' % n` -/
def hex4 (n : Int) : List Char :=
  let digits := (Nat.toDigits 16 n.natAbs).map Char.toUpper
  if n < 0 then '-' :: digits.leftpad 3 '0' else digits.leftpad 4 '0'

def blockPacketTypeCmd (w : World) (node : NodeId) (op : String) (packet volume : Int)
    (fromNode : Option NodeId) : Except PyError (List String) := do
  let start := ["iptables", op, "drbd-test-input", "-p", if isRdma w node then "udp" else "tcp"]
  let pattern := "|8620ec20 " ++ String.ofList (hex4 volume) ++ " " ++ String.ofList (hex4 packet) ++
    " 0000|"
  let options := ["-m", "string", "--algo", "bm", "--from", "0", "--hex-string", pattern]
  match fromNode with
  | none => return start ++ options
  | some fromNode =>
    let a ← addrAt (w.host (w.node fromNode).host).info.addrs 0
    return start ++ ["-s", a.text] ++ options

/-! ## Lines for a background shell -/

/-- `' '.join(words)` -/
def joinWords (words : List String) : List Char := Shell.join (words.map String.toList)

/-- `' '.join(shlex.quote(word) for word in words)` -/
def quoteWords (words : List String) : List Char :=
  Shell.join (words.map fun word => Shell.quote word.toList)

/-- `'; '.join(commands)` -/
def joinCommands (commands : List (List Char)) : List Char := [';', ' '].intercalate commands

def backgroundEnd : List Char := ") </dev/null &>/dev/null &".toList

def blockPathLine (cmds : List (List String)) (forSeconds : Duration) (delCmds : List (List String)) :
    List Char :=
  '(' :: joinCommands (cmds.map joinWords) ++ "; sleep ".toList ++ forSeconds.text ++ "; ".toList ++
    joinCommands (delCmds.map joinWords) ++ backgroundEnd

def blockPacketTypeLine (forSeconds : Duration) (d : List String) : List Char :=
  '(' :: " sleep ".toList ++ forSeconds.text ++ "; ".toList ++
    quoteWords d ++ " -j LOG; ".toList ++ quoteWords d ++ " -j DROP".toList ++ backgroundEnd

/-- The commands of a line that runs a subshell in the background. -/
def background : List Char → Option (List (List String))
  | '(' :: rest =>
    if backgroundEnd <:+ rest then
      (Shell.commands (rest.take (rest.length - backgroundEnd.length))).map
        (List.map (List.map String.ofList))
    else none
  | _ => none

/-! ## The methods -/

/-- A call of `node.run`. -/
abbrev RunCommand := HostId × List String

def setsidBash (line : List Char) : List String := ["setsid", "bash", "-c", String.ofList line]

/-- `Node.block_path`. The helper for Windows takes fewer arguments than it is given. -/
def blockPath (w : World) (node otherNode : NodeId) (netNumber : Int) (jumpTo : String)
    (leadSeconds : Option Rat) (forSeconds : Option Duration) (iptablesFilter : List String) :
    Except PyError (List RunCommand) :=
  let host := (w.node node).host
  match (w.host host).info.platform with
  | .windows => .error .typeError
  | .linux => do
    let cmds ← iptablesCmd w node otherNode jumpTo netNumber "-I" iptablesFilter
    match forSeconds with
    | some forSeconds =>
      if forSeconds.seconds ≤ leadSeconds.getD (3 / 10) then
        throw (.runtimeError "for_seconds needs to be larger than lead_seconds")
      else
        let delCmds ← iptablesCmd w node otherNode jumpTo netNumber "-D" []
        return [(host, setsidBash (blockPathLine cmds forSeconds delCmds))]
    | none => return cmds.map fun c => (host, c)

/-- `Node.unblock_path`, on Linux. -/
def unblockPath (w : World) (node otherNode : NodeId) (netNumber : Int) (jumpTo : String) :
    Except PyError (List RunCommand) := do
  let cmds ← iptablesCmd w node otherNode jumpTo netNumber "-D" []
  return cmds.map fun c => ((w.node node).host, c)

/-- `Node._block_packet_type` -/
def blockPacketTypeWith (w : World) (node : NodeId) (op : String) (packet : Int)
    (fromNode : Option NodeId) (volume : Int) : Except PyError (List RunCommand) := do
  let cmdline ← blockPacketTypeCmd w node op packet volume fromNode
  return ["LOG", "DROP"].map fun target => ((w.node node).host, cmdline ++ ["-j", target])

def blockPacketType (w : World) (node : NodeId) (packet : Int) (fromNode : Option NodeId)
    (volume : Int) (forSeconds : Option Duration) : Except PyError (List RunCommand) := do
  let cmds ← blockPacketTypeWith w node "-A" packet fromNode volume
  match forSeconds with
  | some forSeconds =>
    let d ← blockPacketTypeCmd w node "-D" packet volume fromNode
    return cmds ++ [((w.node node).host, setsidBash (blockPacketTypeLine forSeconds d))]
  | none => return cmds

def unblockPacketType (w : World) (node : NodeId) (packet : Int) (fromNode : Option NodeId)
    (volume : Int) : Except PyError (List RunCommand) :=
  blockPacketTypeWith w node "-D" packet fromNode volume

/-! ## Rules -/

/-- A rule in a chain, in a command that inserts, appends or deletes it. -/
def withOp (op : String) (spec : String × Rule) : List String :=
  "iptables" :: op :: spec.1 :: spec.2

/-- What `_iptables_cmd_1` writes between the chain and the target. -/
def pathMatch (sa : Addr) (sp : Option Nat) (da : Addr) (dp : Option Nat) (udpTcp : String) : Rule :=
  ["-p", udpTcp, "--source", sa.text, "--destination", da.text] ++
  portWords "--source-port" sp ++ portWords "--destination-port" dp

/-- The chains and matches of a path between two nodes with these addresses. -/
def pathMatches (w : World) (node node2 : NodeId) (a b : Addr) : List (String × Rule) :=
  let port := (w.node node).port.val
  let port2 := (w.node node2).port.val
  if isRdma w node then
    [("drbd-test-output", pathMatch a none b (some 4791) "udp"),
      ("drbd-test-input", pathMatch b none a (some 4791) "udp")]
  else
    [("drbd-test-output", pathMatch a (some port) b none "tcp"),
      ("drbd-test-output", pathMatch a none b (some port2) "tcp"),
      ("drbd-test-input", pathMatch b none a (some port) "tcp"),
      ("drbd-test-input", pathMatch b (some port2) a none "tcp")]

/-- The rule with these words behind `-j`. -/
def aimedAt (target : List String) (spec : String × Rule) : String × Rule :=
  (spec.1, spec.2 ++ "-j" :: target)

theorem iptablesCmd1_eq (chain : String) (sa : Addr) (sp : Option Nat) (da : Addr) (dp : Option Nat)
    (jump addRemove udpTcp : String) : iptablesCmd1 chain sa sp da dp jump addRemove udpTcp [] =
      withOp addRemove (aimedAt [jump] (chain, pathMatch sa sp da dp udpTcp)) := by
  simp [iptablesCmd1, withOp, aimedAt, pathMatch]

theorem iptablesCmd_eq {w : World} {node node2 : NodeId} {pathNr : Int} {a b : Addr}
    (ha : addrAt (w.host (w.node node).host).info.addrs pathNr = .ok a)
    (hb : addrAt (w.host (w.node node2).host).info.addrs pathNr = .ok b)
    (jump addRemove : String) (additionalFilter : List String) :
    iptablesCmd w node node2 jump pathNr addRemove additionalFilter =
      .ok (((pathMatches w node node2 a b).map (aimedAt [jump])).map (withOp addRemove)) := by
  unfold iptablesCmd pathMatches
  simp only [ha, hb, iptablesCmd1_eq]
  rcases isRdma w node with _ | _
  · rfl
  · rfl

theorem addrAt_of_iptablesCmd {w : World} {node node2 : NodeId} {pathNr : Int}
    {jump addRemove : String} {additionalFilter : List String} {cmds : List (List String)}
    (h : iptablesCmd w node node2 jump pathNr addRemove additionalFilter = .ok cmds) :
    ∃ a b, addrAt (w.host (w.node node).host).info.addrs pathNr = .ok a ∧
      addrAt (w.host (w.node node2).host).info.addrs pathNr = .ok b := by
  unfold iptablesCmd at h
  rcases ha : addrAt (w.host (w.node node).host).info.addrs pathNr with e | a
  · rw [ha] at h
    cases h
  rcases hb : addrAt (w.host (w.node node2).host).info.addrs pathNr with e | b
  · rw [ha, hb] at h
    cases h
  exact ⟨a, b, rfl, rfl⟩

/-! ## Running the commands -/

/-- The chains of the hosts, and what the shells in their background still run. -/
structure Hosts where
  chains : HostId → Chains
  jobs : List (HostId × List (List String))

/-- A command on a host, if it succeeds. -/
def exec (h : HostId) : List String → Hosts → Option Hosts
  | "iptables" :: args, s =>
    (iptables args (s.chains h)).map fun chains =>
      { s with chains := Function.update s.chains h chains }
  | ["setsid", "bash", "-c", line], s =>
    (background line.toList).map fun commands => { s with jobs := s.jobs ++ [(h, commands)] }
  | "sleep" :: _, s => some s
  | _, _ => none

/-- `Host.run`: the words are quoted, and read again by the shell of the host. -/
def hostRun (h : HostId) (cmd : List String) (s : Hosts) : Option Hosts :=
  match Shell.commands (quoteWords cmd) with
  | some [words] => exec h (words.map String.ofList) s
  | _ => none

theorem map_ofList_toList (words : List String) :
    (words.map String.toList).map String.ofList = words := by
  simp [Function.comp_def]

theorem reads_quoteWords {words : List String} (h : words ≠ []) :
    Shell.Reads (quoteWords words) (words.map String.toList) := by
  have hne : words.map String.toList ≠ [] := by simpa using h
  have hreads := Shell.reads_quote hne
  rwa [List.map_map] at hreads

/-- The quoting loses nothing. -/
theorem hostRun_eq {cmd : List String} (h : cmd ≠ []) (hid : HostId) (s : Hosts) :
    hostRun hid cmd s = exec hid cmd s := by
  unfold hostRun
  rw [(reads_quoteWords h).commands]
  simp only [map_ofList_toList]

theorem background_line (body : List Char) :
    background ('(' :: body ++ backgroundEnd) =
      (Shell.commands body).map (List.map (List.map String.ofList)) := by
  have hsuffix : backgroundEnd <:+ body ++ backgroundEnd := List.suffix_append _ _
  rw [List.cons_append, background, if_pos hsuffix, List.length_append, Nat.add_sub_cancel,
    List.take_left]

/-- An address for each of two hosts. -/
def addrOf (h : HostId) : Addr :=
  if h = 0 then ⟨"10.0.0.1", by decide, by decide⟩ else ⟨"10.0.0.2", by decide, by decide⟩

/-- Two nodes on two hosts. -/
def twoNodes : World :=
  { World.plain 2 with
    host := fun h =>
      let host := (World.plain 2).host h
      { host with info := { host.info with addr := addrOf h, addrs := [addrOf h] } }
    node := fun n => { (World.plain 2).node n with host := n, port := ⟨7788 + n, by omega⟩ } }

end DrbdTests.Network
