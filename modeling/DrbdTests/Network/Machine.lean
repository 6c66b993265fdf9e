import DrbdTests.Lib.AndOr
import DrbdTests.Lib.Dict
import DrbdTests.Network.Iptables

/-!
# Network namespaces of a host

What the commands of `init_host`, `ensure_netdev` and `cleanup_framework` do on a host: the packet filter
and the devices of each network namespace. `none` is the initial namespace.

A command fails when it cannot do what it is to do, and then changes nothing; a script stops as
`bash -e` does. Commands about anything else are left open (`Machine.run` is `none`): what they do is a
parameter, and `Elsewhere.Spares` says what is relied on.
-/

namespace DrbdTests.Network

/-! ## The packet filter -/

/-- The chains of a packet filter with their rules. -/
abbrev Table := Dict String (List Rule)

/-- The target of a rule. -/
def jumpTarget : Rule → Option String
  | [] => none
  | "-j" :: rule => rule.head?
  | _ :: rule => jumpTarget rule

def builtinChains : List String := ["INPUT", "FORWARD", "OUTPUT"]

/-- Targets that are not chains. -/
def plainTargets : List String := ["ACCEPT", "DROP", "LOG", "REJECT", "RETURN"]

namespace Table

/-- The filter of a new namespace. -/
def initial : Table := ⟨builtinChains.map fun chain => (chain, []), by decide⟩

def chains (t : Table) : Chains := fun chain => (t.get? chain).getD []

/-- There is a target for the rule. -/
def Accepts (t : Table) (rule : Rule) : Prop :=
  match jumpTarget rule with
  | none => True
  | some target => target ∈ plainTargets ∨ (target ∈ t.keys ∧ target ∉ builtinChains)

instance (t : Table) (rule : Rule) : Decidable (t.Accepts rule) := by
  unfold Accepts
  cases jumpTarget rule with
  | none => exact inferInstance
  | some target => exact inferInstance

/-- A rule jumps to the chain. -/
def Refers (t : Table) (chain : String) : Prop :=
  ∃ entry ∈ t.entries, ∃ rule ∈ entry.2, jumpTarget rule = some chain

instance (t : Table) (chain : String) : Decidable (t.Refers chain) :=
  inferInstanceAs (Decidable (∃ entry ∈ t.entries, _))

/-- `-F` -/
def flush (t : Table) (chain : String) : Option Table :=
  if chain ∈ t.keys then some (t.set chain []) else none

/-- `-N` -/
def create (t : Table) (chain : String) : Option Table :=
  if chain ∈ t.keys then none else some (t.set chain [])

/-- What `-X` needs. -/
def Deletable (t : Table) (chain : String) : Prop :=
  t.get? chain = some [] ∧ chain ∉ builtinChains ∧ ¬ t.Refers chain

instance (t : Table) (chain : String) : Decidable (t.Deletable chain) :=
  inferInstanceAs (Decidable (_ ∧ _))

/-- `-X` -/
def delete (t : Table) (chain : String) : Option Table :=
  if t.Deletable chain then some (t.erase chain) else none

/-- `-I`, `-A` and `-D`. Loops of chains are not looked for. -/
def edit (t : Table) (op chain : String) (rule : Rule) : Option Table :=
  if chain ∈ t.keys ∧ (op = "-D" ∨ t.Accepts rule) then
    (Network.iptables (op :: chain :: rule) t.chains).map fun chains => t.set chain (chains chain)
  else none

/-- The arguments of `iptables`. -/
def iptables (t : Table) : List String → Option Table
  | ["-F", chain] => t.flush chain
  | ["-N", chain] => t.create chain
  | ["-X", chain] => t.delete chain
  | op :: chain :: rule => t.edit op chain rule
  | _ => none

/-- A command of a script, and whether it succeeds. -/
def command : List String → Table → Table × Bool
  | "iptables" :: args, t =>
    match t.iptables args with
    | some t' => (t', true)
    | none => (t, false)
  | ["true"], t => (t, true)
  | _, t => (t, false)

end Table

/-! ## Namespaces -/

structure Device where
  addresses : List String
  up : Bool
  deriving DecidableEq

structure Machine where
  tables : Option String → Option Table
  devices : Option String → String → Option Device
  /-- A device that is moved keeps its addresses and is not set down. -/
  keepsConfig : Bool

/-- What commands about anything else do. -/
abbrev Elsewhere := Option String → List String → Machine → Machine

namespace Machine

variable (m : Machine) (ns : Option String)

def setTable (t : Table) : Machine := { m with tables := Function.update m.tables ns (some t) }

def setDevice (devname : String) (device : Option Device) : Machine :=
  { m with devices := Function.update m.devices ns (Function.update (m.devices ns) devname device) }

def addNamespace (name : String) : Machine × Bool :=
  if (m.tables (some name)).isSome then (m, false) else (m.setTable (some name) .initial, true)

def move (devname name : String) : Machine × Bool :=
  match m.devices ns devname with
  | none => (m, false)
  | some device =>
    if (m.tables (some name)).isSome ∧ m.devices (some name) devname = none then
      ((m.setDevice ns devname none).setDevice (some name) devname
        (some (if m.keepsConfig then device else ⟨[], false⟩)), true)
    else (m, false)

def addAddress (devname address : String) : Machine × Bool :=
  match m.devices ns devname with
  | none => (m, false)
  | some device =>
    if address ∈ device.addresses then (m, false)
    else (m.setDevice ns devname (some { device with addresses := device.addresses ++ [address] }), true)

def setUp (devname : String) : Machine × Bool :=
  match m.devices ns devname with
  | none => (m, false)
  | some device => (m.setDevice ns devname (some { device with up := true }), true)

/-- `ip` for the addresses and the state of a device -/
def configure : List String → Option (Machine × Bool)
  | ["addr", "add", address, "dev", devname] => some (m.addAddress ns devname address)
  | ["link", "set", "dev", devname, "up"] => some (m.setUp ns devname)
  | _ => none

def ip : List String → Option (Machine × Bool)
  | ["netns", "add", name] => some (m.addNamespace name)
  | ["link", "set", "dev", devname, "netns", name] => some (m.move ns devname name)
  | "-netns" :: name :: args => m.configure (some name) args
  | args => m.configure ns args

def script (text : String) : Option (Machine × Bool) :=
  match m.tables ns, Shell.readScript text with
  | some t, some lines =>
    let (t, ok) := Shell.runScript Table.command lines t
    some (m.setTable ns t, ok)
  | _, _ => none

def filter (args : List String) : Machine × Bool :=
  match m.tables ns with
  | none => (m, false)
  | some t =>
    let (t, ok) := t.command ("iptables" :: args)
    (m.setTable ns t, ok)

/-- A command in a namespace, and whether it succeeds. -/
def run : List String → Option (Machine × Bool)
  | ["bash", "--norc", "-xec", text] => m.script ns text
  | "iptables" :: args => some (m.filter ns args)
  | "ip" :: args => m.ip ns args
  | _ => none

/-- The machine after a command in its namespace. -/
def step (other : Elsewhere) (c : Option String × List String) : Machine :=
  match m.run c.1 c.2 with
  | some result => result.1
  | none => other c.1 c.2 m

/-- The machine after some commands. -/
def after (other : Elsewhere) (commands : List (Option String × List String)) : Machine :=
  commands.foldl (fun m c => m.step other c) m

variable {m ns} {other : Elsewhere}

theorem step_of_run {cmd : List String} {result : Machine × Bool} (hrun : m.run ns cmd = some result) :
    m.step other (ns, cmd) = result.1 := by
  rw [step, hrun]

@[simp] theorem after_nil : m.after other [] = m := rfl

@[simp] theorem after_cons (c : Option String × List String)
    (commands : List (Option String × List String)) :
    m.after other (c :: commands) = (m.step other c).after other commands := rfl

@[simp] theorem after_append (first second : List (Option String × List String)) :
    m.after other (first ++ second) = (m.after other first).after other second := List.foldl_append

@[simp] theorem setTable_tables (t : Table) (ns' : Option String) :
    (m.setTable ns t).tables ns' = if ns' = ns then some t else m.tables ns' := by
  simp only [setTable, Function.update_apply]

@[simp] theorem setTable_devices (t : Table) : (m.setTable ns t).devices = m.devices := rfl

@[simp] theorem setDevice_tables (devname : String) (device : Option Device) :
    (m.setDevice ns devname device).tables = m.tables := rfl

@[simp] theorem setDevice_devices (devname : String) (device : Option Device) (ns' : Option String)
    (devname' : String) : (m.setDevice ns devname device).devices ns' devname' =
      if ns' = ns ∧ devname' = devname then device else m.devices ns' devname' := by
  simp only [setDevice, Function.update_apply]
  by_cases hns : ns' = ns
  · by_cases hdev : devname' = devname
    · rw [if_pos hns, Function.update_apply, if_pos hdev, if_pos ⟨hns, hdev⟩]
    · rw [if_pos hns, Function.update_apply, if_neg hdev, if_neg fun h => hdev h.2, hns]
  · rw [if_neg hns, if_neg fun h => hns h.1]

end Machine

/-- The commands of a log that are about anything else leave a part of the machine as it is. -/
def Elsewhere.Spares {α : Type} (other : Elsewhere) (part : Machine → α)
    (log : List (Option String × List String)) : Prop :=
  ∀ c ∈ log, ∀ m : Machine, m.run c.1 c.2 = none → part (other c.1 c.2 m) = part m

namespace Elsewhere.Spares

variable {α : Type} {other : Elsewhere} {part : Machine → α} {log : List (Option String × List String)}

theorem of_subset {log' : List (Option String × List String)} (h : other.Spares part log)
    (hsub : ∀ c ∈ log', c ∈ log) : other.Spares part log' := fun c hc => h c (hsub c hc)

/-- A command leaves a part alone if it does when it is modelled. -/
theorem step (h : other.Spares part log) {c : Option String × List String} (hc : c ∈ log) (m : Machine)
    (hrun : ∀ result, m.run c.1 c.2 = some result → part result.1 = part m) :
    part (m.step other c) = part m := by
  unfold Machine.step
  cases hresult : m.run c.1 c.2 with
  | none => exact h c hc m hresult
  | some result => exact hrun result hresult

end Elsewhere.Spares

end DrbdTests.Network
