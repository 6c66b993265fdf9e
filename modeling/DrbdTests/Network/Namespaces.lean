import DrbdTests.Network.Sessions

/-!
# Addresses in a network namespace

A host that uses a network namespace moves its further devices there. A device may lose its address on
the way, so the address is added once more, and a failure to do so is taken for an address that has been
kept. `addresses_configured` says that this is right: when `init_host` returns, every address of the host
is configured on a device of the namespace which is up and is gone from the initial namespace.

`Truthful` ties the replies that a host has received to what the machine does.
-/

namespace DrbdTests.Network

open Stateful LinuxHost

variable {m : Machine} {other : Elsewhere} {ns netns : Option String} {devname devname' : String}
  {host host' : LinuxHost}

/-! ## Truthful replies -/

/-- A command that the machine knows has status zero exactly when the machine could do it. -/
def Truthful (other : Elsewhere) (m : Machine) (host : LinuxHost) : Prop :=
  ∀ k c, host.commands[k]? = some c → ∀ result,
    (m.after other (host.commands.take k)).run c.1 c.2 = some result →
      ((host.replies k).returncode = 0 ↔ result.2 = true)

theorem Truthful.of_extends (more : List Logged) (h : Truthful other m host')
    (hreplies : host'.replies = host.replies) (hcommands : host'.commands = host.commands ++ more) :
    Truthful other m host := by
  intro k c hc result hrun
  have hlt : k < host.commands.length := (List.getElem?_eq_some_iff.mp hc).1
  rw [← hreplies]
  apply h k c
  · rw [hcommands, List.getElem?_append_left hlt]
    exact hc
  · rw [hcommands, List.take_append_of_le_length (Nat.le_of_lt hlt)]
    exact hrun

/-- The reply to the last command. -/
theorem Truthful.last {c : Logged} {before : List Logged} (h : Truthful other m host)
    (hcommands : host.commands = before ++ [c]) {result : Machine × Bool}
    (hrun : (m.after other before).run c.1 c.2 = some result) :
    (host.replies before.length).returncode = 0 ↔ result.2 = true := by
  refine h before.length c ?_ result ?_
  · rw [hcommands, List.getElem?_append_right (Nat.le_refl _), Nat.sub_self]
    rfl
  · rw [hcommands, List.take_left]
    exact hrun

/-! ## One device -/

/-- The address is configured in the namespace only, on a device which is up. -/
def Configured (m : Machine) (netns : Option String) (devname : String) (info : AddressInfo) : Prop :=
  m.devices none devname = none ∧ ∃ device, m.devices netns devname = some device ∧ device.up = true ∧
    info.address ++ "/" ++ info.prefixLength ∈ device.addresses

theorem move_other (m : Machine) (ns ns' : Option String) (name : String) (h : devname' ≠ devname) :
    (m.move ns devname name).1.devices ns' devname' = m.devices ns' devname' := by
  unfold Machine.move
  split
  · rfl
  · split
    · simp [h]
    · rfl

theorem addAddress_other (m : Machine) (ns ns' : Option String) (address : String)
    (h : devname' ≠ devname) :
    (m.addAddress ns devname address).1.devices ns' devname' = m.devices ns' devname' := by
  unfold Machine.addAddress
  split
  · rfl
  · split
    · rfl
    · simp [h]

theorem setUp_other (m : Machine) (ns ns' : Option String) (h : devname' ≠ devname) :
    (m.setUp ns devname).1.devices ns' devname' = m.devices ns' devname' := by
  unfold Machine.setUp
  split
  · rfl
  · simp [h]

/-- Once moved, a device is in the other namespace and no longer in this one. -/
theorem move_ok {name : String} (h : (m.move none devname name).2 = true) :
    (m.move none devname name).1.devices none devname = none ∧
      ∃ device, (m.move none devname name).1.devices (some name) devname = some device := by
  unfold Machine.move at h ⊢
  split
  · rename_i hnone
    rw [hnone] at h
    cases h
  · rename_i device hdevice
    rw [hdevice] at h
    dsimp only at h
    split
    · exact ⟨by simp, _, (Machine.setDevice_devices _ _ _ _).trans (if_pos ⟨rfl, rfl⟩)⟩
    · rename_i hguard
      rw [if_neg hguard] at h
      cases h

/-- A device has an address that is added, or that cannot be added. -/
theorem addAddress_ok {name : String} (address : String) {device : Device}
    (hdevice : m.devices (some name) devname = some device) :
    (m.addAddress (some name) devname address).1.devices none devname = m.devices none devname ∧
      ∃ device', (m.addAddress (some name) devname address).1.devices (some name) devname = some device' ∧
        address ∈ device'.addresses := by
  unfold Machine.addAddress
  rw [hdevice]
  dsimp only
  split
  · rename_i hmem
    exact ⟨rfl, device, hdevice, hmem⟩
  · refine ⟨by simp, _, (Machine.setDevice_devices _ _ _ _).trans (if_pos ⟨rfl, rfl⟩), ?_⟩
    exact List.mem_append_right _ (List.mem_singleton.mpr rfl)

theorem setUp_ok {name : String} {device : Device}
    (hdevice : m.devices (some name) devname = some device) :
    (m.setUp (some name) devname).1.devices none devname = m.devices none devname ∧
      (m.setUp (some name) devname).1.devices (some name) devname = some { device with up := true } := by
  unfold Machine.setUp
  rw [hdevice]
  exact ⟨by simp, by simp⟩

/-! ## All devices -/

variable {info : AddressInfo} {name : String}

/-- The three commands for a device, as far as they concern the devices. -/
def configuring (m : Machine) (name devname address : String) : Machine :=
  (((m.move none devname name).1.addAddress (some name) devname address).1.setUp (some name) devname).1

theorem configuring_other (m : Machine) (ns' : Option String) (name address : String)
    (h : devname' ≠ devname) :
    (configuring m name devname address).devices ns' devname' = m.devices ns' devname' := by
  unfold configuring
  rw [setUp_other _ _ _ h, addAddress_other _ _ _ _ h, move_other _ _ _ _ h]

theorem configured_configuring (hmove : (m.move none devname name).2 = true) : Configured
    (configuring m name devname (info.address ++ "/" ++ info.prefixLength)) (some name) devname info := by
  obtain ⟨hgone, device, hdevice⟩ := move_ok hmove
  obtain ⟨hgone', device', hdevice', haddress⟩ :=
    addAddress_ok (info.address ++ "/" ++ info.prefixLength) hdevice
  obtain ⟨hgone'', hup⟩ := setUp_ok hdevice'
  exact ⟨hgone''.trans (hgone'.trans hgone), _, hup, rfl, haddress⟩

/-- The log of `ensure_netdev` for one device. -/
theorem ensureOne_log (hset : isSet (some name) = true)
    (h : Returns (ensureOne (some name) devname info) host ⟨⟩ host') :
    (host.replies host.commands.length).returncode = 0 ∧
      host' = host.ran (ensuring (some name) (devname, info)) := by
  unfold ensureOne at h
  rw [hset, when_true] at h
  obtain ⟨_, host₁, hmove, h⟩ := returns_bind.mp h
  obtain ⟨_, hmove⟩ := returns_drop.mp hmove
  obtain ⟨hok, -, rfl⟩ := LinuxHost.runWith_returns.mp hmove
  obtain ⟨_, host₂, hadd, h⟩ := returns_bind.mp h
  obtain ⟨_, hup⟩ := returns_drop.mp h
  obtain ⟨-, -, rfl⟩ := LinuxHost.runWith_returns.mp hup
  refine ⟨hok, ?_⟩
  -- the state is the same whether or not the address could be added
  have hstate := congrArg Prod.snd (show Stateful.exec _ _ = _ from hadd)
  rw [exec_tryCatch_snd fun e => ?_, exec_map_snd, exec_runWith] at hstate
  · obtain rfl : _ = host₂ := hstate
    simp [LinuxHost.ran, ensuring, hset]
  · split
    · exact readsOnly_pure _
    · exact readsOnly_throw _

/-- When it returns, the device is configured, and the others are as before. -/
theorem ensureOne_configures (hset : isSet (some name) = true)
    (h : Returns (ensureOne (some name) devname info) host ⟨⟩ host') (htruth : Truthful other m host') :
    Configured (m.after other host'.commands) (some name) devname info ∧
      ∀ ns' devname', devname' ≠ devname → (m.after other host'.commands).devices ns' devname' =
        (m.after other host.commands).devices ns' devname' := by
  obtain ⟨hreply, rfl⟩ := ensureOne_log hset h
  have hlog : ensuring (some name) (devname, info) =
      [(none, ["ip", "link", "set", "dev", devname, "netns", name]),
        (none, addAddress (some name) devname info),
        (none, ipBase (some name) ++ ["link", "set", "dev", devname, "up"])] := by
    rw [ensuring, hset]
    rfl
  have hafter : m.after other (host.ran (ensuring (some name) (devname, info))).commands =
      configuring (m.after other host.commands) name devname
        (info.address ++ "/" ++ info.prefixLength) := by
    rw [LinuxHost.ran, hlog, Machine.after_append]
    simp only [Machine.after_cons, Machine.after_nil, Machine.step, run_addAddress, run_up, configuredIn,
      hset, if_true]
    rfl
  have hmove : ((m.after other host.commands).move none devname name).2 = true := by
    have hfirst : Truthful other m
        (host.ran [(none, ["ip", "link", "set", "dev", devname, "netns", name])]) := by
      refine htruth.of_extends (ensuring (some name) (devname, info)).tail rfl ?_
      rw [LinuxHost.ran, LinuxHost.ran, hlog, List.append_assoc]
      rfl
    exact (hfirst.last rfl rfl).mp hreply
  rw [hafter]
  exact ⟨configured_configuring hmove, fun ns' devname' hne => configuring_other _ _ _ _ hne⟩

theorem ensureNetdev_configures (hset : isSet (some name) = true)
    (h : Returns (ensureNetdev (some name)) host ⟨⟩ host') (htruth : Truthful other m host') :
    host'.netns = host.netns ∧ ∀ device ∈ host.netdevs.entries,
      Configured (m.after other host'.commands) (some name) device.1 device.2 := by
  unfold ensureNetdev at h
  rw [returns_get_bind] at h
  have hloop := h.forM_invariant (fun done current => current.netns = host.netns ∧
    (Truthful other m current → ∀ device ∈ done,
      Configured (m.after other current.commands) (some name) device.1 device.2)) ⟨rfl, by simp⟩ ?_
  · exact ⟨hloop.1, hloop.2 htruth⟩
  intro pre device post current next hsplit hI hstep
  obtain ⟨-, hnext⟩ := ensureOne_log hset hstep
  refine ⟨by rw [hnext]; exact hI.1, fun htruth' => ?_⟩
  obtain ⟨hnew, hother⟩ := ensureOne_configures hset hstep htruth'
  have hbefore := hI.2 (htruth'.of_extends _ (by rw [hnext]; rfl) (by rw [hnext]; rfl))
  intro device' hdevice'
  rcases List.mem_append.mp hdevice' with hpre | hlast
  · -- the keys of the dictionary are distinct
    have hne : device'.1 ≠ device.1 := by
      have hnodup := host.netdevs.nodup
      rw [hsplit, List.map_append, List.map_cons] at hnodup
      intro heq
      have hdisjoint := (List.nodup_append.mp hnodup).2.2
      exact hdisjoint _ (List.mem_map_of_mem hpre) _ List.mem_cons_self heq
    obtain ⟨hgone, device'', hdevice'', hup, haddress⟩ := hbefore device' hpre
    exact ⟨(hother none _ hne).trans hgone, device'', (hother _ _ hne).trans hdevice'', hup, haddress⟩
  · obtain rfl := List.mem_singleton.mp hlast
    exact hnew

/-! ## `init_host` -/

/-- `ensure_netdev` is the last thing that is done on the way into a namespace. -/
theorem enterNetns_tail (h : Returns (enterNetns netns) host ⟨⟩ host') :
    ∃ entered, Returns (ensureNetdev netns) entered ⟨⟩ host' ∧ entered.netns = netns := by
  unfold enterNetns at h
  rw [returns_get_bind] at h
  obtain ⟨_, host₁, -, h⟩ := returns_bind.mp h
  obtain ⟨_, host₂, -, h⟩ := returns_bind.mp h
  obtain ⟨_, host₃, -, h⟩ := returns_bind.mp h
  obtain ⟨_, host₄, -, h⟩ := returns_bind.mp h
  rw [returns_get_bind] at h
  obtain ⟨_, host₅, -, h⟩ := returns_bind.mp h
  obtain ⟨_, host₆, -, h⟩ := returns_bind.mp h
  obtain ⟨_, host₇, hnetns, h⟩ := returns_bind.mp h
  obtain rfl := returns_modify.mp hnetns
  exact ⟨_, h, rfl⟩

/-- The script is run once more behind it, in the namespace of the host. -/
theorem initHost_tail {word : WordClass} {storageBackend : StorageBackend} {backingDevice : String}
    {multiPaths : Bool} (hset : isSet netns = true)
    (h : Returns (initHost word storageBackend backingDevice multiPaths netns) host ⟨⟩ host') :
    ∃ entered ensured, Returns (ensureNetdev netns) entered ⟨⟩ ensured ∧ entered.netns = netns ∧
      host' = ensured.ran [(ensured.netns, initIptables)] := by
  obtain ⟨_, host₁, -, h⟩ := returns_bind.mp h
  obtain ⟨os, host₂, -, h⟩ := returns_bind.mp h
  split at h
  case h_2 => exact absurd h (by simp)
  obtain ⟨_, host₃, -, h⟩ := returns_bind.mp h
  obtain ⟨_, host₄, -, h⟩ := returns_bind.mp h
  obtain ⟨_, host₅, -, h⟩ := returns_bind.mp h
  obtain ⟨_, host₆, -, h⟩ := returns_bind.mp h
  obtain ⟨_, host₇, -, h⟩ := returns_bind.mp h
  rw [returns_get_bind] at h
  obtain ⟨_, host₈, -, h⟩ := returns_bind.mp h
  obtain ⟨_, ensured, henter, h⟩ := returns_bind.mp h
  rw [hset, when_true] at henter
  obtain ⟨_, hiptables⟩ := returns_drop.mp h
  obtain ⟨-, -, rfl⟩ := LinuxHost.runWith_returns.mp hiptables
  obtain ⟨entered, hensure, hnetns⟩ := enterNetns_tail henter
  exact ⟨entered, ensured, hensure, hnetns, rfl⟩

theorem step_init_devices (h : other.Spares Machine.devices [(ns, initIptables)]) :
    (m.step other (ns, initIptables)).devices = m.devices := by
  refine h.step List.mem_cons_self m ?_
  rintro ⟨next, ok⟩ hrun
  obtain ⟨_, _, -, -, hnext⟩ := script_tables hrun
  rw [hnext]
  rfl

/-- When `init_host` returns on a host that is to use a network namespace, its commands run in that
namespace and each of its addresses is configured there, on a device which is up. -/
theorem addresses_configured {word : WordClass} {storageBackend : StorageBackend} {backingDevice : String}
    {multiPaths : Bool} (m : Machine) (hother : other.Spares Machine.devices host'.commands)
    (hset : isSet netns = true)
    (h : Returns (initHost word storageBackend backingDevice multiPaths netns) host ⟨⟩ host')
    (htruth : Truthful other m host') : host'.netns = netns ∧ ∀ address ∈ host'.addrs,
      ∃ devname info, info.address = address ∧
        Configured (m.after other host'.commands) netns devname info := by
  obtain ⟨-, -, haddrs⟩ := initHost_returns word h
  rw [if_pos hset] at haddrs
  obtain ⟨entered, ensured, hensure, hnetns, rfl⟩ := initHost_tail hset h
  obtain ⟨name, rfl⟩ := Option.isSome_iff_exists.mp (Option.isSome_of_any hset)
  obtain ⟨hkept, hconfigured⟩ := ensureNetdev_configures hset hensure (htruth.of_extends _ rfl rfl)
  have hsettled := (settled_ensureNetdev (some name)).rel_of_returns hensure
  have hnetdevs : ensured.netdevs = entered.netdevs := (Prod.mk.inj (Prod.mk.inj hsettled).2).2
  refine ⟨hkept.trans hnetns, fun address haddress => ?_⟩
  rw [haddrs] at haddress
  obtain ⟨device, hdevice, rfl⟩ := List.mem_map.mp haddress
  have hentry : device ∈ entered.netdevs.entries := hnetdevs ▸ hdevice
  refine ⟨device.1, device.2, rfl, ?_⟩
  have hdevices : (m.after other (ensured.ran [(ensured.netns, initIptables)]).commands).devices =
      (m.after other ensured.commands).devices := by
    rw [LinuxHost.ran, Machine.after_append]
    exact step_init_devices (hother.of_subset fun c hc => List.mem_append_right _ hc)
  unfold Configured
  rw [hdevices]
  exact hconfigured device hentry

/-- A machine on which moved devices lose their addresses. -/
def twoDeviceMachine : Machine where
  tables ns := if ns = none then some .initial else none
  devices ns devname :=
    if ns = none ∧ devname = "eth0" then some ⟨["10.43.0.2/24"], true⟩
    else if ns = none ∧ devname = "eth1" then some ⟨["10.43.1.2/24"], true⟩
    else none
  keepsConfig := false

def namespaced : LinuxHost :=
  (Stateful.exec (initHost asciiWord .lvm "/dev/vdb" false (some "drbd")) twoDevices).2

theorem truthful_namespaced : Truthful (fun _ _ m => m) twoDeviceMachine namespaced := by
  have hsucceed : ∀ k < namespaced.commands.length, (namespaced.replies k).returncode = 0 ∧
      ∀ c ∈ namespaced.commands[k]?,
        ((twoDeviceMachine.after (fun _ _ m => m) (namespaced.commands.take k)).run c.1 c.2).all (·.2) =
          true := by
    decide +kernel
  intro k c hc result hrun
  obtain ⟨hreply, hresult⟩ := hsucceed k (List.getElem?_eq_some_iff.mp hc).1
  have hok := hresult c hc
  rw [hrun] at hok
  exact iff_of_true hreply hok

theorem addresses_configured_moved : namespaced.netns = some "drbd" ∧ ∀ address ∈ namespaced.addrs,
    ∃ devname info, info.address = address ∧
      Configured (twoDeviceMachine.after (fun _ _ m => m) namespaced.commands) (some "drbd") devname info :=
  addresses_configured twoDeviceMachine (fun _ _ _ _ => rfl) (by decide)
    (returns_of_toBool (m := initHost asciiWord .lvm "/dev/vdb" false (some "drbd")) (by decide +kernel))
    truthful_namespaced

end DrbdTests.Network
