import DrbdTests.Cluster.Objects
import DrbdTests.Lib.Dict
import DrbdTests.Lib.Regex

/-!
# The addresses of a host

`init_host` reads the addresses with a regular expression that only knows device names made of word
characters, and keeps them in a dictionary with one address for each device. So no address is missed
exactly when every device that has one is named with word characters and has no second one:
`addresses_recorded_iff`.
-/

namespace DrbdTests

open Stateful

/-- The class `\w`: no white space is in it. -/
structure WordClass where
  accepts : Char → Bool
  not_space : ∀ c, Text.isSpace c = true → accepts c = false

/-- The values of `netdevs`. -/
structure AddressInfo where
  address : String
  prefixLength : String
  deriving DecidableEq, Repr

/-- The attributes of a host that `init_host` reads or sets, the commands with the network namespace
in which they were run, and the replies to them. -/
structure LinuxHost where
  name : String
  storageBackend : StorageBackend
  backingDevice : String
  drbdConfigDir : String
  osId : String
  osVersionId : String
  addr : String
  addrs : List String
  netdevs : Dict String AddressInfo
  netns : Option String
  commands : List (Option String × List String)
  replies : Nat → Reply

namespace LinuxHost

abbrev Method (α : Type) := Comp LinuxHost PyError α

/-- `run`, with `ignore_netns` -/
def runWith (ignoreNetns : Bool) (cmd : List String) : Method String := do
  let host ← get
  let reply := host.replies host.commands.length
  set { host with
    commands := host.commands ++ [(if ignoreNetns then none else host.netns, cmd)] }
  if reply.returncode ≠ 0 then throw (.calledProcessError reply.returncode)
  else return String.ofList (Text.strip reply.stdout.toList)

def run (cmd : List String) : Method String := runWith false cmd

/-- `if netns` -/
def isSet (netns : Option String) : Bool := netns.any (· ≠ "")

/-- The name of the namespace, when it is set. -/
def ipBase (netns : Option String) : List String :=
  if isSet netns then ["ip", "-netns", netns.getD ""] else ["ip"]

def addAddress (netns : Option String) (devname : String) (info : AddressInfo) : List String :=
  ipBase netns ++ ["addr", "add", info.address ++ "/" ++ info.prefixLength, "dev", devname]

/-- The body of the loop of `ensure_netdev`. -/
def ensureOne (netns : Option String) (devname : String) (info : AddressInfo) : Method PUnit := do
  when (isSet netns) do
    let _ ← runWith true ["ip", "link", "set", "dev", devname, "netns", netns.getD ""]
  tryCatch (do let _ ← runWith true (addAddress netns devname info)) fun
    | .calledProcessError _ => pure ⟨⟩
    | e => throw e
  let _ ← runWith true (ipBase netns ++ ["link", "set", "dev", devname, "up"])

/-- `ensure_netdev` -/
def ensureNetdev (netns : Option String) : Method PUnit := do
  let host ← get
  host.netdevs.entries.forM fun (devname, info) => ensureOne netns devname info

/-! ## `init_host` -/

/-- The words of a route. -/
def routeWords (text : String) : List (List Char) := (Text.strip text.toList).splitOn ' '

/-- What follows a key in the words of a route. -/
def valuesOf (key : String) (words : List (List Char)) : List (List Char) :=
  (words.zip words.tail).filterMap fun (word, value) => if word = key.toList then some value else none

/-- `get_default_addr` -/
def getDefaultAddr : Method String := do
  let routeOut ← run ["ip", "-4", "route", "get", "1"]
  match valuesOf "src" (routeWords routeOut) with
  | [addr] => return String.ofList addr
  | _ => throw (.runtimeError ("Default route does not contain src address: " ++ routeOut))

def isDigitOrDot (c : Char) : Bool := Regex.isDecimal c || c = '.'

variable (word : WordClass)

/-- The pattern for a line of `ip -oneline addr show`. -/
def addressPattern : List Regex.Piece :=
  .run Text.isSpace 0 false :: .run Regex.isDecimal 1 false ::
    (Regex.lit ":" ++ .run Text.isSpace 1 false :: .run word.accepts 1 true ::
      .run Text.isSpace 1 false :: (Regex.lit "inet" ++ .run Text.isSpace 1 false ::
        .run isDigitOrDot 1 true :: (Regex.lit "/" ++ [.run Regex.isDecimal 1 true])))

/-- The device and the address in a line. The pattern matches at the start of the line only. -/
def readAddress (line : List Char) : Option (String × AddressInfo) :=
  match Regex.matchHere (addressPattern word) line with
  | some [devname, addr, prefixLength] =>
    some (String.ofList devname, ⟨String.ofList addr, String.ofList prefixLength⟩)
  | _ => none

/-- The body of the loop over the lines. -/
def addLine (multiPaths : Bool) (line : List Char) : Method PUnit :=
  match readAddress word line with
  | none => pure ⟨⟩
  | some (devname, info) => do
    let host ← get
    if info.address = "127.0.0.1" ∨ info.address = host.addr then pure ⟨⟩
    else do
      when multiPaths (modify fun host => { host with addrs := host.addrs ++ [info.address] })
      modify fun host => { host with netdevs := host.netdevs.set devname info }

def initIptables : List String :=
  ["bash", "--norc", "-xec",
    "iptables -F drbd-test-input || iptables -N drbd-test-input\n" ++
    "iptables -F drbd-test-output || iptables -N drbd-test-output\n" ++
    "iptables -I INPUT -j drbd-test-input\n" ++
    "iptables -I OUTPUT -j drbd-test-output"]

/-- The part of `init_host` for a network namespace. -/
def enterNetns (netns : Option String) : Method PUnit := do
  let host ← get
  when (host.netdevs.entries.isEmpty) do
    throw (.runtimeError
      ("('%s is missing additional netdevs to namespace', " ++ host.name ++ ")"))
  modify fun host => { host with addrs := [] }
  let _ ← run ["ip", "netns", "add", netns.getD ""]
  modify fun host =>
    { host with addrs := host.netdevs.entries.map fun (_, info) => info.address }
  let host ← get
  when (host.addrs.isEmpty) do
    throw (.runtimeError ("('%s has namespaced address', " ++ host.name ++ ")"))
  let _ ← run initIptables
  modify fun host => { host with netns := netns }
  ensureNetdev netns

def initHost (storageBackend : StorageBackend) (backingDevice : String) (multiPaths : Bool)
    (netns : Option String) : Method PUnit := do
  modify fun host => { host with
    storageBackend := storageBackend
    backingDevice := backingDevice
    drbdConfigDir := "/var/lib/drbd-test" }
  let os ← run ["bash", "-c", ". /etc/os-release ; echo $ID ; echo $VERSION_ID"]
  match Text.splitlines os.toList with
  | [osId, osVersionId] =>
    modify fun host => { host with
      osId := String.ofList osId
      osVersionId := String.ofList osVersionId }
    let addr ← getDefaultAddr
    modify fun host => { host with addr := addr, addrs := [addr] }
    let addresses ← run ["ip", "-oneline", "addr", "show"]
    (Text.splitlines addresses.toList).forM (addLine word multiPaths)
    let host ← get
    when (multiPaths && host.netdevs.entries.isEmpty) do
      throw (.runtimeError (host.name ++ " has no additional address"))
    when (isSet netns) (enterNetns netns)
    let _ ← run initIptables
  | _ => throw .valueError

/-! ## Lines with an address -/

/-- A nonempty text of some characters. -/
def IsRun (accepts : Char → Bool) (text : List Char) : Prop := text ≠ [] ∧ ∀ c ∈ text, accepts c = true

/-- What stands around the device and the address in a line. -/
structure Layout where
  indent : List Char
  index : List Char
  gap₁ : List Char
  gap₂ : List Char
  gap₃ : List Char
  rest : List Char
  indent_space : ∀ c ∈ indent, Text.isSpace c = true
  index_decimal : IsRun Regex.isDecimal index
  gap₁_space : IsRun Text.isSpace gap₁
  gap₂_space : IsRun Text.isSpace gap₂
  gap₃_space : IsRun Text.isSpace gap₃
  rest_stops : ∀ c, rest.head? = some c → Regex.isDecimal c = false

/-- `<index>: <device> inet <address>/<prefix> ...` -/
def Layout.line (l : Layout) (devname : String) (info : AddressInfo) : List Char :=
  l.indent ++ (l.index ++ (":".toList ++ (l.gap₁ ++ (devname.toList ++ (l.gap₂ ++ ("inet".toList ++
    (l.gap₃ ++ (info.address.toList ++ ("/".toList ++ (info.prefixLength.toList ++ l.rest))))))))))

/-- The line shows the address of the device. -/
structure Shows (line : List Char) (devname : String) (info : AddressInfo) : Prop where
  devname_run : IsRun (fun c => !Text.isSpace c) devname.toList
  address_run : IsRun isDigitOrDot info.address.toList
  prefix_run : IsRun Regex.isDecimal info.prefixLength.toList
  exists_layout : ∃ l : Layout, line = l.line devname info

theorem IsRun.length_pos {accepts : Char → Bool} {text : List Char} (h : IsRun accepts text) :
    1 ≤ text.length := List.length_pos_iff.mpr h.1

theorem not_space_of_decimal {c : Char} (h : Regex.isDecimal c = true) : Text.isSpace c = false := by
  by_contra hspace
  rw [Bool.not_eq_false] at hspace
  have hmem : c.toNat ∈ [9, 10, 11, 12, 13, 28, 29, 30, 31, 32, 0x85, 0xa0, 0x1680, 0x2000, 0x2001,
      0x2002, 0x2003, 0x2004, 0x2005, 0x2006, 0x2007, 0x2008, 0x2009, 0x200a, 0x2028, 0x2029, 0x202f,
      0x205f, 0x3000] := by
    simp only [Text.isSpace, Bool.or_eq_true, Bool.and_eq_true, decide_eq_true_eq] at hspace
    simp only [List.mem_cons, List.not_mem_nil, or_false]
    omega
  have hnone : ∀ n ∈ [9, 10, 11, 12, 13, 28, 29, 30, 31, 32, 0x85, 0xa0, 0x1680, 0x2000, 0x2001,
      0x2002, 0x2003, 0x2004, 0x2005, 0x2006, 0x2007, 0x2008, 0x2009, 0x200a, 0x2028, 0x2029, 0x202f,
      0x205f, 0x3000], Text.decimalZeros.find? (fun z => z ≤ n && n < z + 10) = none := by
    decide +kernel
  rw [Regex.isDecimal, Text.decimalValue, hnone _ hmem] at h
  cases h

theorem not_space_of_digitOrDot {c : Char} (h : isDigitOrDot c = true) : Text.isSpace c = false := by
  rcases Bool.or_eq_true_iff.mp h with h | h
  · exact not_space_of_decimal h
  · rw [of_decide_eq_true h]
    decide

theorem head_append_run {accepts : Char → Bool} {word left : List Char} (h : IsRun accepts word) :
    ∀ c, (word ++ left).head? = some c → accepts c = true := by
  obtain ⟨hne, hword⟩ := h
  cases word with
  | nil => exact absurd rfl hne
  | cons d word =>
    intro c hc
    obtain rfl := Option.some.inj hc
    exact hword d List.mem_cons_self

variable {line : List Char} {devname : String} {info : AddressInfo}

/-- A line is read when the device is named with word characters. -/
theorem readAddress_of_shows (h : Shows line devname info)
    (hword : ∀ c ∈ devname.toList, word.accepts c = true) :
    readAddress word line = some (devname, info) := by
  obtain ⟨hdev, haddress, hlen, l, rfl⟩ := h
  have hmatch : Regex.matchHere (addressPattern word) (l.line devname info) =
      some [devname.toList, info.address.toList, info.prefixLength.toList] := by
    unfold addressPattern Layout.line
    refine Regex.match_run_append false l.indent_space (Nat.zero_le _) ?_ ?_
    · intro c hc
      exact not_space_of_decimal (head_append_run l.index_decimal c hc)
    refine Regex.match_run_append false l.index_decimal.2 l.index_decimal.length_pos ?_ ?_
    · intro c hc
      obtain rfl := Option.some.inj hc
      decide
    rw [Regex.match_lit]
    refine Regex.match_run_append false l.gap₁_space.2 l.gap₁_space.length_pos ?_ ?_
    · intro c hc
      exact Bool.not_eq_true' _ ▸ head_append_run hdev c hc
    refine Regex.match_run_append true hword hdev.length_pos ?_ ?_
    · intro c hc
      exact word.not_space c (head_append_run l.gap₂_space c hc)
    refine Regex.match_run_append false l.gap₂_space.2 l.gap₂_space.length_pos ?_ ?_
    · intro c hc
      obtain rfl := Option.some.inj hc
      decide
    rw [Regex.match_lit]
    refine Regex.match_run_append false l.gap₃_space.2 l.gap₃_space.length_pos ?_ ?_
    · intro c hc
      exact not_space_of_digitOrDot (head_append_run haddress c hc)
    refine Regex.match_run_append true haddress.2 haddress.length_pos ?_ ?_
    · intro c hc
      obtain rfl := Option.some.inj hc
      decide
    rw [Regex.match_lit]
    exact Regex.match_run_append true hlen.2 hlen.length_pos l.rest_stops rfl
  rw [readAddress, hmatch]
  simp

theorem isRun_of_least {accepts : Char → Bool} {text : List Char} (hleast : 1 ≤ text.length)
    (h : ∀ c ∈ text, accepts c = true) : IsRun accepts text :=
  ⟨List.length_pos_iff.mp hleast, h⟩

/-- What is read is shown by the line. -/
theorem shows_of_readAddress (h : readAddress word line = some (devname, info)) :
    Shows line devname info ∧ ∀ c ∈ devname.toList, word.accepts c = true := by
  unfold readAddress at h
  split at h
  case h_2 => cases h
  rename_i dev addr prefixLength hmatch
  obtain ⟨rfl, rfl⟩ := Prod.mk.inj (Option.some.inj h)
  obtain ⟨indent, left, _, rfl, hindent, -, hmatch, rfl⟩ := Regex.match_run_eq_some hmatch
  obtain ⟨index, left, _, rfl, hindex, hindex₁, hmatch, rfl⟩ := Regex.match_run_eq_some hmatch
  obtain ⟨left, rfl, hmatch⟩ := Regex.match_lit_eq_some hmatch
  obtain ⟨gap₁, left, _, rfl, hgap₁, hgap₁₁, hmatch, rfl⟩ := Regex.match_run_eq_some hmatch
  obtain ⟨_, left, _, rfl, hdev, hdev₁, hmatch, hgroups⟩ := Regex.match_run_eq_some hmatch
  obtain ⟨rfl, rfl⟩ := List.cons.inj hgroups
  obtain ⟨gap₂, left, _, rfl, hgap₂, hgap₂₁, hmatch, rfl⟩ := Regex.match_run_eq_some hmatch
  obtain ⟨left, rfl, hmatch⟩ := Regex.match_lit_eq_some hmatch
  obtain ⟨gap₃, left, _, rfl, hgap₃, hgap₃₁, hmatch, rfl⟩ := Regex.match_run_eq_some hmatch
  obtain ⟨_, left, _, rfl, haddr, haddr₁, hmatch, hgroups⟩ := Regex.match_run_eq_some hmatch
  obtain ⟨rfl, rfl⟩ := List.cons.inj hgroups
  obtain ⟨left, rfl, hmatch⟩ := Regex.match_lit_eq_some hmatch
  obtain ⟨hlen₁, hgroups⟩ := Regex.match_last_eq_some hmatch
  obtain ⟨rfl, -⟩ := List.cons.inj hgroups
  refine ⟨⟨?_, ?_, ?_, ?_⟩, ?_⟩
  · rw [String.toList_ofList]
    refine isRun_of_least hdev₁ fun c hc => ?_
    cases hspace : Text.isSpace c with
    | false => rfl
    | true => exact absurd (word.not_space c hspace) (ne_true_of_eq_false · (hdev c hc))
  · rw [String.toList_ofList]
    exact isRun_of_least haddr₁ haddr
  · rw [String.toList_ofList]
    exact isRun_of_least hlen₁ fun c hc => List.mem_takeWhile_imp hc
  · refine ⟨⟨indent, index, gap₁, gap₂, gap₃, left.dropWhile Regex.isDecimal, hindent,
      isRun_of_least hindex₁ hindex, isRun_of_least hgap₁₁ hgap₁, isRun_of_least hgap₂₁ hgap₂,
      isRun_of_least hgap₃₁ hgap₃, ?_⟩, ?_⟩
    · intro c hc
      have hstop := List.head?_dropWhile_not Regex.isDecimal left
      rw [hc] at hstop
      exact hstop
    · simp only [Layout.line, String.toList_ofList, List.append_eq, List.nil_append,
        List.takeWhile_append_dropWhile]
  · rw [String.toList_ofList]
    exact hdev

/-! ## `ensure_netdev` -/

section Commands

variable {host host' : LinuxHost} {netns : Option String}

/-- A command that returns has succeeded. -/
theorem runWith_returns {ignoreNetns : Bool} {cmd : List String} {out : String} :
    Returns (runWith ignoreNetns cmd) host out host' ↔
      (host.replies host.commands.length).returncode = 0 ∧
      out = String.ofList (Text.strip (host.replies host.commands.length).stdout.toList) ∧
      host' = { host with
        commands := host.commands ++ [(if ignoreNetns then none else host.netns, cmd)] } := by
  unfold runWith
  rw [returns_get_bind, returns_bind]
  constructor
  · rintro ⟨_, host₁, hset, h⟩
    obtain rfl := returns_set.mp hset
    split at h
    · exact absurd h (by simp)
    · rename_i hcode
      obtain ⟨rfl, rfl⟩ := returns_pure.mp h
      exact ⟨not_not.mp hcode, rfl, rfl⟩
  · rintro ⟨hcode, rfl, rfl⟩
    refine ⟨⟨⟩, _, returns_set.mpr rfl, ?_⟩
    rw [if_neg (not_not.mpr hcode)]
    exact returns_pure.mpr ⟨rfl, rfl⟩

/-- The commands of `ensure_netdev` for one device. -/
def ensuring (netns : Option String) (device : String × AddressInfo) :
    List (Option String × List String) :=
  (if isSet netns then [(none, ["ip", "link", "set", "dev", device.1, "netns", netns.getD ""])] else []) ++
    [(none, addAddress netns device.1 device.2),
      (none, ipBase netns ++ ["link", "set", "dev", device.1, "up"])]

/-- More commands have been run. -/
def ran (host : LinuxHost) (commands : List (Option String × List String)) : LinuxHost :=
  { host with commands := host.commands ++ commands }

theorem ran_ran (host : LinuxHost) (first second : List (Option String × List String)) :
    (host.ran first).ran second = host.ran (first ++ second) := by
  simp [ran, List.append_assoc]

variable (hgood : ∀ k, (host.replies k).returncode = 0)

include hgood

theorem ignoring_returns (cmd : List String) (done : List (Option String × List String)) :
    ∃ out, Returns (runWith true cmd) (host.ran done) out (host.ran (done ++ [(none, cmd)])) :=
  ⟨_, runWith_returns.mpr ⟨hgood _, rfl, (ran_ran host done _).symm⟩⟩

theorem ensureOne_returns (devname : String) (info : AddressInfo)
    (done : List (Option String × List String)) : Returns (ensureOne netns devname info)
      (host.ran done) ⟨⟩ (host.ran (done ++ ensuring netns (devname, info))) := by
  have hadd : ∀ done, Returns (tryCatch (do
        let _ ← runWith true (addAddress netns devname info)) fun
      | .calledProcessError _ => pure ⟨⟩
      | e => throw e : Method PUnit) (host.ran done) ⟨⟩
      (host.ran (done ++ [(none, addAddress netns devname info)])) := by
    intro done
    obtain ⟨out, hrun⟩ := ignoring_returns hgood (addAddress netns devname info) done
    exact returns_tryCatch_of_returns (returns_drop.mpr ⟨out, hrun⟩)
  have hup : ∀ done, Returns (do
      let _ ← runWith true (ipBase netns ++ ["link", "set", "dev", devname, "up"]) : Method PUnit)
      (host.ran done) ⟨⟩
      (host.ran (done ++ [(none, ipBase netns ++ ["link", "set", "dev", devname, "up"])])) := by
    intro done
    obtain ⟨out, hrun⟩ := ignoring_returns hgood _ done
    exact returns_drop.mpr ⟨out, hrun⟩
  unfold ensureOne ensuring
  cases isSet netns with
  | false =>
    rw [when_false, pure_bind]
    refine Returns.bind (hadd done) ?_
    have h := hup (done ++ [(none, addAddress netns devname info)])
    rwa [List.append_assoc] at h
  | true =>
    obtain ⟨out, hmove⟩ := ignoring_returns hgood
      ["ip", "link", "set", "dev", devname, "netns", netns.getD ""] done
    have hmoved := (returns_drop (u := ⟨⟩)).mpr ⟨out, hmove⟩
    refine Returns.bind hmoved (Returns.bind (hadd _) ?_)
    have h := hup (done ++ [(none, ["ip", "link", "set", "dev", devname, "netns", netns.getD ""])] ++
      [(none, addAddress netns devname info)])
    simpa only [List.append_assoc, List.cons_append, List.nil_append, if_true] using h

/-- When all commands succeed, `ensure_netdev` configures all devices. -/
theorem ensureNetdev_returns : Returns (ensureNetdev netns) host ⟨⟩
    (host.ran (host.netdevs.entries.flatMap (ensuring netns))) := by
  have hloop : ∀ (devices : List (String × AddressInfo)) done,
      Returns (devices.forM fun (devname, info) => ensureOne netns devname info) (host.ran done) ⟨⟩
        (host.ran (done ++ devices.flatMap (ensuring netns))) := by
    intro devices
    induction devices with
    | nil => exact fun done => returns_forM_nil.mpr (by rw [List.flatMap_nil, List.append_nil])
    | cons device devices ih =>
      intro done
      rw [returns_forM_cons]
      refine ⟨_, ensureOne_returns hgood device.1 device.2 done, ?_⟩
      rw [List.flatMap_cons, ← List.append_assoc]
      exact ih _
  have h := hloop host.netdevs.entries []
  have hnone : host.ran [] = host := by rw [ran, List.append_nil]
  rw [hnone, List.nil_append] at h
  exact returns_get_bind.mpr h

end Commands

/-! ## What `init_host` records -/

/-- The address is neither the one of the loopback device nor the default one. -/
def IsFurther (default : String) (info : AddressInfo) : Prop :=
  ¬ (info.address = "127.0.0.1" ∨ info.address = default)

instance (default : String) : DecidablePred (IsFurther default) := fun _ => inferInstanceAs (Decidable (¬ _))

/-- The addresses that are read from the lines. -/
def found (default : String) (lines : List (List Char)) : List (String × AddressInfo) :=
  (lines.filterMap (readAddress word)).filter fun device => IsFurther default device.2

def recorded (host : LinuxHost) (multiPaths : Bool) (devices : List (String × AddressInfo)) :
    LinuxHost :=
  { host with
    addrs := host.addrs ++ if multiPaths then devices.map (·.2.address) else []
    netdevs := host.netdevs.setAll devices }

theorem recorded_recorded (host : LinuxHost) (multiPaths : Bool)
    (first second : List (String × AddressInfo)) :
    (host.recorded multiPaths first).recorded multiPaths second =
      host.recorded multiPaths (first ++ second) := by
  cases multiPaths <;> simp [recorded, Dict.setAll]

theorem addLine_returns (multiPaths : Bool) (line : List Char) (host : LinuxHost) :
    Returns (addLine word multiPaths line) host ⟨⟩
      (host.recorded multiPaths (found word host.addr [line])) := by
  have hnone : host.recorded multiPaths [] = host := by
    cases multiPaths <;> simp [recorded, Dict.setAll]
  unfold addLine found
  cases hread : readAddress word line with
  | none =>
    rw [List.filterMap_cons_none hread, List.filterMap_nil, List.filter_nil, hnone]
    exact returns_pure.mpr ⟨rfl, rfl⟩
  | some device =>
    obtain ⟨devname, info⟩ := device
    rw [List.filterMap_cons_some hread, List.filterMap_nil, List.filter_cons, List.filter_nil]
    refine returns_get_bind.mpr ?_
    by_cases hskip : info.address = "127.0.0.1" ∨ info.address = host.addr
    · rw [if_pos hskip, if_neg (by rw [decide_eq_true_eq]; exact not_not.mpr hskip), hnone]
      exact returns_pure.mpr ⟨rfl, rfl⟩
    · rw [if_neg hskip, if_pos (by simpa [IsFurther] using hskip)]
      cases multiPaths with
      | false =>
        refine returns_modify.mpr ?_
        simp [recorded, Dict.setAll]
      | true => rfl

theorem addLines_returns (multiPaths : Bool) (lines : List (List Char)) (host : LinuxHost) :
    Returns (lines.forM (addLine word multiPaths)) host ⟨⟩
      (host.recorded multiPaths (found word host.addr lines)) := by
  induction lines generalizing host with
  | nil =>
    have hnone : host.recorded multiPaths [] = host := by
      cases multiPaths <;> simp [recorded, Dict.setAll]
    exact returns_forM_nil.mpr hnone.symm
  | cons line lines ih =>
    have hfound : found word host.addr (line :: lines) =
        found word host.addr [line] ++ found word host.addr lines := by
      rw [found, found, found, ← List.filter_append, ← List.filterMap_append]
      rfl
    rw [returns_forM_cons, hfound, ← recorded_recorded]
    exact ⟨_, addLine_returns word multiPaths line host, ih _⟩

/-- The lines that `ip -oneline addr show` prints when `init_host` is called. -/
def addressLines (host : LinuxHost) : List (List Char) :=
  Text.splitlines (Text.strip (host.replies (host.commands.length + 2)).stdout.toList)

/-- The default address that is read when `init_host` is called. -/
def routeSources (host : LinuxHost) : List (List Char) :=
  valuesOf "src" (routeWords (String.ofList
    (Text.strip (host.replies (host.commands.length + 1)).stdout.toList)))

/-- What commands leave unchanged. -/
def settled : Frame LinuxHost := Frame.fixing fun host => (host.addr, host.addrs, host.netdevs)

theorem settled_runWith (ignoreNetns : Bool) (cmd : List String) :
    settled.Holds (runWith ignoreNetns cmd) := by
  intro host
  unfold runWith
  rw [exec_get_bind, exec_bind_of_ok (exec_set _ _)]
  by_cases hcode : (host.replies host.commands.length).returncode ≠ 0
  · rw [if_pos hcode]
    rfl
  · rw [if_neg hcode]
    rfl

theorem settled_ensureNetdev (netns : Option String) : settled.Holds (ensureNetdev netns) := by
  refine Frame.holds_get_bind fun host => Frame.holds_forM _ (fun device _ => ?_) host
  refine Frame.holds_bind (Frame.holds_when fun _ => ?_) fun _ => ?_
  · exact Frame.holds_bind (settled_runWith true _) fun _ => Frame.holds_pure _
  refine Frame.holds_bind (Frame.holds_tryCatch ?_ fun e => ?_) fun _ => ?_
  · exact Frame.holds_bind (settled_runWith true _) fun _ => Frame.holds_pure _
  · cases e <;> first | exact Frame.holds_pure _ | exact Frame.holds_throw _
  · exact Frame.holds_bind (settled_runWith true _) fun _ => Frame.holds_pure _

theorem getDefaultAddr_returns {host host' : LinuxHost} {addr : String}
    (h : Returns getDefaultAddr host addr host') : valuesOf "src" (routeWords (String.ofList
      (Text.strip (host.replies host.commands.length).stdout.toList))) = [addr.toList] ∧
    host' = { host with commands := host.commands ++ [(host.netns, ["ip", "-4", "route", "get", "1"])] } := by
  obtain ⟨routeOut, host₁, hrun, h⟩ := returns_bind.mp h
  obtain ⟨-, rfl, rfl⟩ := runWith_returns.mp hrun
  split at h
  · rename_i value hvalue
    obtain ⟨rfl, rfl⟩ := returns_pure.mp h
    exact ⟨by rw [hvalue, String.toList_ofList], rfl⟩
  · exact absurd h (by simp)

theorem check_returns {host host' : LinuxHost} {p : Bool} {e : PyError} {u : PUnit}
    (h : Returns (when p (throw e) : Method PUnit) host u host') : p = false ∧ host = host' := by
  cases p with
  | false => exact ⟨rfl, (returns_pure.mp h).2⟩
  | true => exact absurd h (by simp)

/-- Entering a namespace makes its addresses those of the further devices. -/
theorem enterNetns_returns {netns : Option String} {host host' : LinuxHost}
    (h : Returns (enterNetns netns) host ⟨⟩ host') : host'.addr = host.addr ∧
      host'.netdevs = host.netdevs ∧ host'.addrs = host.netdevs.entries.map (·.2.address) := by
  unfold enterNetns at h
  rw [returns_get_bind] at h
  obtain ⟨_, host₁, hcheck, h⟩ := returns_bind.mp h
  obtain ⟨-, rfl⟩ := check_returns hcheck
  obtain ⟨_, host₂, hclear, h⟩ := returns_bind.mp h
  obtain rfl := returns_modify.mp hclear
  obtain ⟨_, host₃, hns, h⟩ := returns_bind.mp h
  obtain ⟨-, -, rfl⟩ := runWith_returns.mp hns
  obtain ⟨_, host₄, hset, h⟩ := returns_bind.mp h
  obtain rfl := returns_modify.mp hset
  rw [returns_get_bind] at h
  obtain ⟨_, host₅, hcheck, h⟩ := returns_bind.mp h
  obtain ⟨-, rfl⟩ := check_returns hcheck
  obtain ⟨_, host₆, hiptables, h⟩ := returns_bind.mp h
  obtain ⟨-, -, rfl⟩ := runWith_returns.mp hiptables
  obtain ⟨_, host₇, hnetns, h⟩ := returns_bind.mp h
  obtain rfl := returns_modify.mp hnetns
  have hsettled := (settled_ensureNetdev netns).rel_of_returns h
  obtain ⟨haddr, hrest⟩ := Prod.mk.inj hsettled
  obtain ⟨haddrs, hnetdevs⟩ := Prod.mk.inj hrest
  exact ⟨haddr, hnetdevs, haddrs⟩

/-- What a call of `init_host` that returns has read and recorded. -/
theorem initHost_returns {storageBackend : StorageBackend} {backingDevice : String}
    {multiPaths : Bool} {netns : Option String} {host host' : LinuxHost}
    (h : Returns (initHost word storageBackend backingDevice multiPaths netns) host ⟨⟩ host') :
    host.routeSources = [host'.addr.toList] ∧
    host'.netdevs = host.netdevs.setAll (found word host'.addr host.addressLines) ∧
    host'.addrs = if isSet netns then host'.netdevs.entries.map (·.2.address)
      else [host'.addr] ++ if multiPaths then
        (found word host'.addr host.addressLines).map (·.2.address) else [] := by
  obtain ⟨_, host₁, hset, h⟩ := returns_bind.mp h
  obtain rfl := returns_modify.mp hset
  obtain ⟨os, host₂, hos, h⟩ := returns_bind.mp h
  obtain ⟨-, -, rfl⟩ := runWith_returns.mp hos
  split at h
  case h_2 => exact absurd h (by simp)
  rename_i osId osVersionId hlines
  obtain ⟨_, host₃, hset, h⟩ := returns_bind.mp h
  obtain rfl := returns_modify.mp hset
  obtain ⟨addr, host₄, hroute, h⟩ := returns_bind.mp h
  obtain ⟨hsources, rfl⟩ := getDefaultAddr_returns hroute
  obtain ⟨_, host₅, hset, h⟩ := returns_bind.mp h
  obtain rfl := returns_modify.mp hset
  obtain ⟨addresses, host₆, hshow, h⟩ := returns_bind.mp h
  obtain ⟨-, rfl, rfl⟩ := runWith_returns.mp hshow
  have hlines : ∀ first second, Text.splitlines (String.ofList (Text.strip (host.replies
      (host.commands ++ [first] ++ [second]).length).stdout.toList)).toList = host.addressLines := by
    intro first second
    rw [addressLines, String.toList_ofList, List.length_append, List.length_append]
    rfl
  have hsource : host.routeSources = [addr.toList] := by
    rw [← hsources, routeSources, List.length_append]
    rfl
  obtain ⟨_, host₇, hloop, h⟩ := returns_bind.mp h
  rw [hlines] at hloop
  obtain ⟨-, rfl⟩ := hloop.unique (addLines_returns word multiPaths _ _)
  rw [returns_get_bind] at h
  obtain ⟨_, host₈, hcheck, h⟩ := returns_bind.mp h
  obtain ⟨-, rfl⟩ := check_returns hcheck
  obtain ⟨_, host₉, henter, h⟩ := returns_bind.mp h
  obtain ⟨_, hiptables⟩ := returns_drop.mp h
  obtain ⟨-, -, rfl⟩ := runWith_returns.mp hiptables
  rw [returns_when] at henter
  by_cases hns : isSet netns
  · rw [if_pos hns] at henter ⊢
    obtain ⟨haddr, hnetdevs, haddrs⟩ := enterNetns_returns henter
    dsimp only at haddr hnetdevs haddrs ⊢
    rw [haddr, hnetdevs, haddrs]
    exact ⟨hsource, rfl, rfl⟩
  · rw [if_neg hns] at henter ⊢
    subst henter
    exact ⟨hsource, rfl, rfl⟩

/-! ## Which addresses are missed -/

theorem mem_found {default : String} {lines : List (List Char)} {devname : String}
    {info : AddressInfo} : (devname, info) ∈ found word default lines ↔
      (∃ line ∈ lines, Shows line devname info) ∧ (∀ c ∈ devname.toList, word.accepts c = true) ∧
        IsFurther default info := by
  rw [found, List.mem_filter, decide_eq_true_eq, List.mem_filterMap]
  constructor
  · rintro ⟨⟨line, hline, hread⟩, hfurther⟩
    obtain ⟨hshows, hword⟩ := shows_of_readAddress word hread
    exact ⟨⟨line, hline, hshows⟩, hword, hfurther⟩
  · rintro ⟨⟨line, hline, hshows⟩, hword, hfurther⟩
    exact ⟨⟨line, hline, readAddress_of_shows word hshows hword⟩, hfurther⟩

/-- When its commands succeed, `ensure_netdev` adds the address to the device. -/
def Configures (host : LinuxHost) (devname : String) (info : AddressInfo) : Prop :=
  ∀ (netns : Option String) (replies : Nat → Reply), (∀ k, (replies k).returncode = 0) →
    ∃ host', Returns (ensureNetdev netns) { host with replies := replies } ⟨⟩ host' ∧
      (none, addAddress netns devname info) ∈ host'.commands.drop host.commands.length

theorem configures_of_mem {host : LinuxHost} {devname : String} {info : AddressInfo}
    (h : (devname, info) ∈ host.netdevs.entries) : host.Configures devname info := by
  intro netns replies hgood
  have hreturns : Returns (ensureNetdev netns) { host with replies := replies } ⟨⟩ _ :=
    ensureNetdev_returns hgood
  refine ⟨_, hreturns, ?_⟩
  rw [ran, List.drop_left]
  apply List.mem_flatMap.mpr
  refine ⟨(devname, info), h, List.mem_append_right _ List.mem_cons_self⟩

theorem not_slash_of_digitOrDot {c : Char} (h : isDigitOrDot c = true) : c ≠ '/' := by
  rintro rfl
  revert h
  decide

/-- A command adds one address only. -/
theorem addAddress_injective {devname devname' : String} {info info' : AddressInfo}
    (haddr : '/' ∉ info.address.toList) (hlen : '/' ∉ info.prefixLength.toList)
    (h : addAddress none devname info = addAddress none devname' info') :
    devname = devname' ∧ info = info' := by
  obtain ⟨address, prefixLength⟩ := info
  obtain ⟨address', prefixLength'⟩ := info'
  have hwords : [address ++ "/" ++ prefixLength, "dev", devname] =
      [address' ++ "/" ++ prefixLength', "dev", devname'] :=
    (List.cons.inj (List.cons.inj (List.cons.inj h).2).2).2
  obtain ⟨htext, hrest⟩ := List.cons.inj hwords
  have hchars : address.toList ++ '/' :: prefixLength.toList =
      address'.toList ++ '/' :: prefixLength'.toList := by
    have htoList := congrArg String.toList htext
    rw [String.toList_append, String.toList_append, String.toList_append, String.toList_append,
      List.append_assoc, List.append_assoc] at htoList
    exact htoList
  obtain ⟨haddress, -, hlength⟩ := (List.append_cons_inj_of_notMem haddr hlen).mp hchars
  obtain rfl := String.toList_injective haddress
  obtain rfl := String.toList_injective hlength
  exact ⟨(List.cons.inj (List.cons.inj hrest).2).1, rfl⟩

theorem mem_of_configures {host : LinuxHost} {devname : String} {info : AddressInfo}
    (haddr : '/' ∉ info.address.toList) (hlen : '/' ∉ info.prefixLength.toList)
    (h : host.Configures devname info) : (devname, info) ∈ host.netdevs.entries := by
  obtain ⟨host', hreturns, hmem⟩ := h none (fun _ => ⟨0, ""⟩) fun _ => rfl
  obtain ⟨-, rfl⟩ := hreturns.unique (ensureNetdev_returns (fun _ => rfl))
  rw [ran, List.drop_left] at hmem
  obtain ⟨⟨devname', info'⟩, hdevice, hmem⟩ := List.mem_flatMap.mp hmem
  rcases List.mem_cons.mp hmem with hadd | hup
  · obtain ⟨rfl, rfl⟩ := addAddress_injective haddr hlen (Prod.mk.inj hadd).2
    exact hdevice
  · -- the other command is `ip link set`
    have hwords := (Prod.mk.inj (List.mem_singleton.mp hup)).2
    have hlink : "addr" = "link" := (List.cons.inj (List.cons.inj hwords).2).1
    exact absurd hlink (by decide)

/-- A call of `init_host` that returns has recorded every further address in each way that it has
been asked for. -/
def RecordsAll (host : LinuxHost) : Prop :=
  ∀ storageBackend backingDevice multiPaths netns host',
    Returns (initHost word storageBackend backingDevice multiPaths netns) host ⟨⟩ host' →
    ∀ line ∈ host.addressLines, ∀ devname info, Shows line devname info →
      IsFurther host'.addr info →
        (multiPaths = true ∨ isSet netns = true → info.address ∈ host'.addrs) ∧
        host'.Configures devname info

/-- When nothing is missed, every further address is kept in `netdevs`. -/
theorem mem_netdevs_of_recordsAll {storageBackend : StorageBackend} {backingDevice : String}
    {host host₁ : LinuxHost} {line : List Char} {devname : String} {info : AddressInfo}
    (hall : RecordsAll word host)
    (h : Returns (initHost word storageBackend backingDevice false none) host ⟨⟩ host₁)
    (hline : line ∈ host.addressLines) (hshows : Shows line devname info)
    (hfurther : IsFurther host₁.addr info) : (devname, info) ∈ host₁.netdevs.entries := by
  refine mem_of_configures ?_ ?_ (hall _ _ _ _ _ h line hline devname info hshows hfurther).2
  · exact fun hslash => not_slash_of_digitOrDot (hshows.address_run.2 _ hslash) rfl
  · exact fun hslash => not_slash_of_digitOrDot
      (Bool.or_eq_true_iff.mpr (.inl (hshows.prefix_run.2 _ hslash))) rfl

/-- No address is missed exactly when the devices with further addresses are named with word
characters and have one each. -/
theorem addresses_recorded_iff {storageBackend : StorageBackend} {backingDevice : String}
    {host host₁ : LinuxHost} (hfresh : host.netdevs = Dict.empty)
    (h : Returns (initHost word storageBackend backingDevice false none) host ⟨⟩ host₁) :
    RecordsAll word host ↔ ∀ line ∈ host.addressLines, ∀ devname info, Shows line devname info →
      IsFurther host₁.addr info → (∀ c ∈ devname.toList, word.accepts c = true) ∧
        ∀ line' ∈ host.addressLines, ∀ info', Shows line' devname info' →
          IsFurther host₁.addr info' → info' = info := by
  obtain ⟨hsource, hnetdevs, -⟩ := initHost_returns word h
  rw [hfresh] at hnetdevs
  -- the devices that are kept
  have hkept : ∀ devname info, (devname, info) ∈ host₁.netdevs.entries →
      (devname, info) ∈ found word host₁.addr host.addressLines := by
    intro devname info hmem
    rw [hnetdevs] at hmem
    rcases Dict.mem_of_mem_setAll hmem with hmem | hmem
    · exact hmem
    · cases hmem
  constructor
  · intro hall line hline devname info hshows hfurther
    have hmem := mem_netdevs_of_recordsAll word hall h hline hshows hfurther
    refine ⟨((mem_found word).mp (hkept _ _ hmem)).2.1, ?_⟩
    intro line' hline' info' hshows' hfurther'
    have hmem' := mem_netdevs_of_recordsAll word hall h hline' hshows' hfurther'
    rw [← Dict.get?_eq_some_iff] at hmem hmem'
    exact Option.some.inj (hmem'.symm.trans hmem)
  · intro hcond storageBackend' backingDevice' multiPaths netns host' h' line hline devname info
      hshows hfurther
    obtain ⟨hsource', hnetdevs', haddrs'⟩ := initHost_returns word h'
    have haddr : host'.addr = host₁.addr :=
      String.toList_injective (List.cons.inj (hsource'.symm.trans hsource)).1
    rw [haddr] at hfurther hnetdevs' haddrs'
    rw [hfresh, ← hnetdevs] at hnetdevs'
    obtain ⟨hword, hunique⟩ := hcond line hline devname info hshows hfurther
    have hread : (devname, info) ∈ found word host₁.addr host.addressLines :=
      (mem_found word).mpr ⟨⟨line, hline, hshows⟩, hword, hfurther⟩
    have hmem : (devname, info) ∈ host₁.netdevs.entries := by
      have hkey : (host₁.netdevs.get? devname).isSome := by
        rw [hnetdevs]
        exact Dict.isSome_get?_setAll (.inr (List.mem_map_of_mem hread))
      obtain ⟨info', hinfo'⟩ := Option.isSome_iff_exists.mp hkey
      have hmem' := Dict.get?_eq_some_iff.mp hinfo'
      obtain ⟨⟨line', hline', hshows'⟩, -, hfurther'⟩ := (mem_found word).mp (hkept _ _ hmem')
      rwa [hunique line' hline' info' hshows' hfurther'] at hmem'
    refine ⟨fun hasked => ?_, configures_of_mem (hnetdevs' ▸ hmem)⟩
    rw [haddrs']
    by_cases hns : isSet netns
    · rw [if_pos hns, hnetdevs']
      exact List.mem_map_of_mem hmem
    · rw [if_neg hns, if_pos (hasked.resolve_right hns)]
      exact List.mem_append_right _ (List.mem_map_of_mem hread)

/-- The class `\w`, for texts in ASCII. -/
def asciiWord : WordClass where
  accepts c :=
    let n := c.toNat
    (48 ≤ n && n ≤ 57) || (65 ≤ n && n ≤ 90) || n = 95 || (97 ≤ n && n ≤ 122)
  not_space c h := by
    simp only [Text.isSpace, Bool.or_eq_true, Bool.and_eq_true, decide_eq_true_eq] at h
    simp only [Bool.or_eq_false_iff, Bool.and_eq_false_iff, decide_eq_false_iff_not]
    omega

/-- The class of all characters that can be in the name of a device. -/
def anyWord : WordClass := ⟨fun c => !Text.isSpace c, fun c h => by rw [h]; rfl⟩

theorem shows_iff : Shows line devname info ↔ readAddress anyWord line = some (devname, info) :=
  ⟨fun h => readAddress_of_shows anyWord h h.devname_run.2, fun h => (shows_of_readAddress anyWord h).1⟩

/-- A host with these addresses. -/
def withAddresses (addresses : String) : LinuxHost where
  name := "a"
  storageBackend := .lvm
  backingDevice := ""
  drbdConfigDir := ""
  osId := ""
  osVersionId := ""
  addr := ""
  addrs := []
  netdevs := Dict.empty
  netns := none
  commands := []
  replies k := ⟨0, ["debian\n12\n", "1 via 10.43.0.1 dev eth0 src 10.43.0.2 uid 0\n", addresses].getD k ""⟩

def twoDevices : LinuxHost := withAddresses
  "2: eth0    inet 10.43.0.2/24 scope global eth0\n3: eth1    inet 10.43.1.2/24 scope global eth1\n"

theorem addresses_recorded_two_devices : RecordsAll asciiWord twoDevices := by
  obtain ⟨hreturns, haddr, hlines, hword⟩ :
      (exec (initHost asciiWord .lvm "" false none) twoDevices).1.toBool = true ∧
      (exec (initHost asciiWord .lvm "" false none) twoDevices).2.addr = "10.43.0.2" ∧
      (∀ line ∈ twoDevices.addressLines,
        readAddress anyWord line = some ("eth0", ⟨"10.43.0.2", "24"⟩) ∨
        readAddress anyWord line = some ("eth1", ⟨"10.43.1.2", "24"⟩)) ∧
      ∀ c ∈ "eth1".toList, asciiWord.accepts c = true := by
    decide +kernel
  apply (addresses_recorded_iff asciiWord rfl (returns_of_toBool hreturns)).mpr
  rw [haddr]
  intro line hline devname info hshows hfurther
  rw [shows_iff] at hshows
  rcases hlines line hline with heth0 | heth1
  · obtain ⟨-, rfl⟩ := Prod.mk.inj (Option.some.inj (heth0.symm.trans hshows))
    exact absurd (.inr rfl) hfurther
  · obtain ⟨rfl, rfl⟩ := Prod.mk.inj (Option.some.inj (heth1.symm.trans hshows))
    refine ⟨hword, fun line' hline' info' hshows' hfurther' => ?_⟩
    rw [shows_iff] at hshows'
    rcases hlines line' hline' with heth0 | heth1
    · obtain ⟨hname, -⟩ := Prod.mk.inj (Option.some.inj (heth0.symm.trans hshows'))
      exact absurd hname (by decide)
    · exact (Prod.mk.inj (Option.some.inj (hshows'.symm.trans heth1))).2

def hyphenatedDevice : LinuxHost := withAddresses "3: br-lan    inet 10.43.1.2/24 scope global br-lan\n"

def twoAddresses : LinuxHost := withAddresses
  "3: eth1    inet 10.43.1.2/24 scope global eth1\n3: eth1    inet 10.43.2.2/24 scope global eth1\n"

/-- The bridge is not read, and of the two addresses the first one is not kept. -/
theorem addresses_missed : ¬ RecordsAll asciiWord hyphenatedDevice ∧
    ¬ RecordsAll asciiWord twoAddresses := by
  constructor
  · intro hall
    obtain ⟨hreturns, haddr, hline, hread, hmissed⟩ :
        (exec (initHost asciiWord .lvm "" false none) hyphenatedDevice).1.toBool = true ∧
        (exec (initHost asciiWord .lvm "" false none) hyphenatedDevice).2.addr = "10.43.0.2" ∧
        "3: br-lan    inet 10.43.1.2/24 scope global br-lan".toList ∈ hyphenatedDevice.addressLines ∧
        readAddress anyWord "3: br-lan    inet 10.43.1.2/24 scope global br-lan".toList =
          some ("br-lan", ⟨"10.43.1.2", "24"⟩) ∧
        (exec (initHost asciiWord .lvm "" false none) hyphenatedDevice).2.netdevs.entries = [] := by
      decide +kernel
    have hmem := mem_netdevs_of_recordsAll asciiWord hall (returns_of_toBool hreturns) hline
      (shows_iff.mpr hread) (by rw [haddr]; decide)
    rw [hmissed] at hmem
    cases hmem
  · intro hall
    obtain ⟨hreturns, haddr, hline, hread, hkept⟩ :
        (exec (initHost asciiWord .lvm "" false none) twoAddresses).1.toBool = true ∧
        (exec (initHost asciiWord .lvm "" false none) twoAddresses).2.addr = "10.43.0.2" ∧
        "3: eth1    inet 10.43.1.2/24 scope global eth1".toList ∈ twoAddresses.addressLines ∧
        readAddress anyWord "3: eth1    inet 10.43.1.2/24 scope global eth1".toList =
          some ("eth1", ⟨"10.43.1.2", "24"⟩) ∧
        (exec (initHost asciiWord .lvm "" false none) twoAddresses).2.netdevs.entries =
          [("eth1", ⟨"10.43.2.2", "24"⟩)] := by
      decide +kernel
    have hmem := mem_netdevs_of_recordsAll asciiWord hall (returns_of_toBool hreturns) hline
      (shows_iff.mpr hread) (by rw [haddr]; decide)
    rw [hkept] at hmem
    exact absurd hmem (by decide)

end LinuxHost

end DrbdTests
