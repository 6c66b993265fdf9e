import DrbdTests.Network.Addresses
import DrbdTests.Network.TrafficControl

/-!
# Replies about routes

`get_default_addr` looks for the word behind `src`, wherever it stands. `net_device_to_peer` takes
the third word, which is the one behind `dev` only if a single word stands before `dev`: not when the
route goes over a gateway, and not when the peer is local (`route_replies`).
-/

namespace DrbdTests.Routes

open Stateful LinuxHost Network

/-- The value stands behind the key, which is the word at this position. -/
def At (words : List (List Char)) (key value : List Char) (k : Nat) : Prop :=
  words[k]? = some key ∧ words[k + 1]? = some value

/-! ## Values of keys -/

variable {words front rest : List (List Char)} {key : String} {value device : List Char}

theorem valuesOf_cons (key : String) (word next : List Char) (words : List (List Char)) :
    valuesOf key (word :: next :: words) =
      (if word = key.toList then [next] else []) ++ valuesOf key (next :: words) := by
  by_cases heq : word = key.toList
  · simp [valuesOf, heq]
  · simp [valuesOf, heq]

theorem at_cons_zero (word next : List Char) :
    At (word :: next :: words) key.toList value 0 ↔ word = key.toList ∧ next = value := by
  simp [At]

/-- No word stands behind a last word. -/
theorem not_at_singleton (word : List Char) (k : Nat) : ¬ At [word] key.toList value k := by
  rintro ⟨-, h⟩
  cases h

theorem valuesOf_eq_nil_iff : valuesOf key words = [] ↔ ∀ value k, ¬ At words key.toList value k := by
  induction words with
  | nil => exact iff_of_true rfl fun value k h => by cases h.1
  | cons word words ih =>
    cases words with
    | nil => exact iff_of_true rfl fun value k => not_at_singleton word k
    | cons next words =>
      rw [valuesOf_cons, List.append_eq_nil_iff, ih]
      constructor
      · rintro ⟨hfirst, hrest⟩ value k hat
        cases k with
        | zero =>
          rw [if_pos ((at_cons_zero word next).mp hat).1] at hfirst
          cases hfirst
        | succ k => exact hrest value k hat
      · intro h
        refine ⟨if_neg fun heq => ?_, fun value k => h value (k + 1)⟩
        exact h next 0 ((at_cons_zero word next).mpr ⟨heq, rfl⟩)

/-- One value is found when the key stands before one word only. -/
theorem valuesOf_eq_singleton_iff : valuesOf key words = [value] ↔
    ∃ k, At words key.toList value k ∧ ∀ value' j, At words key.toList value' j → j = k := by
  induction words with
  | nil =>
    refine iff_of_false (by simp [valuesOf]) ?_
    rintro ⟨k, hat, -⟩
    cases hat.1
  | cons word words ih =>
    cases words with
    | nil =>
      refine iff_of_false (by simp [valuesOf]) ?_
      rintro ⟨k, hat, -⟩
      exact not_at_singleton word k hat
    | cons next words =>
      rw [valuesOf_cons]
      by_cases heq : word = key.toList
      · rw [if_pos heq, List.singleton_append, List.cons.injEq, valuesOf_eq_nil_iff]
        constructor
        · rintro ⟨rfl, hrest⟩
          refine ⟨0, (at_cons_zero word next).mpr ⟨heq, rfl⟩, fun value' j hat => ?_⟩
          cases j with
          | zero => rfl
          | succ j => exact absurd hat (hrest value' j)
        · rintro ⟨k, hat, hunique⟩
          obtain rfl := hunique next 0 ((at_cons_zero word next).mpr ⟨heq, rfl⟩)
          refine ⟨((at_cons_zero word next).mp hat).2, fun value' j hat' => ?_⟩
          exact absurd (hunique value' (j + 1) hat') (Nat.succ_ne_zero j)
      · rw [if_neg heq, List.nil_append, ih]
        constructor
        · rintro ⟨k, hat, hunique⟩
          refine ⟨k + 1, hat, fun value' j hat' => ?_⟩
          cases j with
          | zero => exact absurd ((at_cons_zero word next).mp hat').1 heq
          | succ j => exact congrArg (· + 1) (hunique value' j hat')
        · rintro ⟨k, hat, hunique⟩
          cases k with
          | zero => exact absurd ((at_cons_zero word next).mp hat).1 heq
          | succ k =>
            exact ⟨k, hat, fun value' j hat' => Nat.succ.inj (hunique value' (j + 1) hat')⟩

/-! ## The third word -/

/-- The third word is the one behind `dev`, or it is the same word by chance. -/
def ThirdIs (front : List (List Char)) (device : List Char) (rest : List (List Char)) : Prop :=
  front.length = 1 ∨ (front = [] ∧ rest.head? = some device) ∨
    (front.length = 2 ∧ device = "dev".toList) ∨ front[2]? = some device

theorem third_eq_some_iff :
    (front ++ "dev".toList :: device :: rest)[2]? = some device ↔ ThirdIs front device rest := by
  unfold ThirdIs
  match front with
  | [] =>
    cases rest with
    | nil => simp
    | cons word rest => simp
  | [_] => simp
  | [_, _] =>
    change some "dev".toList = some device ↔ _
    constructor
    · intro h
      exact .inr (.inr (.inl ⟨rfl, (Option.some.inj h).symm⟩))
    · rintro (h | ⟨h, -⟩ | ⟨-, rfl⟩ | h)
      · cases h
      · cases h
      · rfl
      · cases h
  | _ :: _ :: third :: _ => simp

theorem exec_netDeviceToPeer {w : World} {host peerHost : HostId} {netNum : Nat} {addr : Addr}
    (haddr : addrAt (w.host peerHost).info.addrs netNum = .ok addr)
    (hgood : (w.env.replies w.requests.length).returncode = 0) :
    (exec (Host.netDeviceToPeer host peerHost netNum) w).1 =
      match ((Text.strip (w.env.replies w.requests.length).stdout.toList).splitOn ' ')[2]? with
      | some dev => .ok (String.ofList dev)
      | none => .error .indexError := by
  have hlookup : exec (Py.liftExcept (addrAt (w.host peerHost).info.addrs netNum)) w = (.ok addr, w) := by
    rw [exec_liftExcept, haddr]
  have hrun : exec (Host.run host ["ip", "-o", "route", "get", addr.text]) w = _ :=
    exec_runWith_of_ok hgood
  rw [Host.netDeviceToPeer, exec_get_bind, exec_bind_of_ok hlookup, exec_bind_of_ok hrun,
    routeDevice, String.toList_ofList]
  cases ((Text.strip (w.env.replies w.requests.length).stdout.toList).splitOn ' ')[2]? with
  | none => rfl
  | some dev => rfl

theorem exec_getDefaultAddr {host : LinuxHost}
    (hgood : (host.replies host.commands.length).returncode = 0) :
    (exec getDefaultAddr host).1 =
      match valuesOf "src" (routeWords (String.ofList
        (Text.strip (host.replies host.commands.length).stdout.toList))) with
      | [addr] => .ok (String.ofList addr)
      | _ => .error (.runtimeError ("Default route does not contain src address: " ++ String.ofList
        (Text.strip (host.replies host.commands.length).stdout.toList))) := by
  have hrun : Returns (run ["ip", "-4", "route", "get", "1"]) host _ _ :=
    LinuxHost.runWith_returns.mpr ⟨hgood, rfl, rfl⟩
  rw [getDefaultAddr, exec_bind_of_ok hrun]
  match valuesOf "src" (routeWords (String.ofList
    (Text.strip (host.replies host.commands.length).stdout.toList))) with
  | [] => rfl
  | [_] => rfl
  | _ :: _ :: _ => rfl

/-- `get_default_addr` reads the word behind `src` in all replies. `net_device_to_peer` reads the one
behind `dev` when a single word stands before it, or by chance. -/
theorem route_replies {w : World} {host peerHost : HostId} {netNum : Nat} {addr : Addr}
    {linux : LinuxHost} {front rest words : List (List Char)} {device : List Char}
    (haddr : addrAt (w.host peerHost).info.addrs netNum = .ok addr)
    (hgood : (w.env.replies w.requests.length).returncode = 0)
    (hdevice : (Text.strip (w.env.replies w.requests.length).stdout.toList).splitOn ' ' =
      front ++ "dev".toList :: device :: rest)
    (hlinux : (linux.replies linux.commands.length).returncode = 0)
    (hwords : routeWords (String.ofList
      (Text.strip (linux.replies linux.commands.length).stdout.toList)) = words) :
    ((exec (Host.netDeviceToPeer host peerHost netNum) w).1 = .ok (String.ofList device) ↔
      ThirdIs front device rest) ∧
    (∀ source, (exec getDefaultAddr linux).1 = .ok (String.ofList source) ↔
      ∃ k, At words "src".toList source k ∧ ∀ value j, At words "src".toList value j → j = k) ∧
    ((¬ ∃ source k, At words "src".toList source k ∧
        ∀ value j, At words "src".toList value j → j = k) →
      ∃ message, (exec getDefaultAddr linux).1 = .error (.runtimeError message)) := by
  constructor
  · rw [exec_netDeviceToPeer haddr hgood, hdevice, ← third_eq_some_iff]
    cases (front ++ "dev".toList :: device :: rest)[2]? with
    | none => exact iff_of_false (by simp) (by simp)
    | some word => rw [Except.ok.injEq, Option.some.injEq, String.ofList_inj]
  · rw [exec_getDefaultAddr hlinux, hwords]
    have hsingle : ∀ source, (∃ k, At words "src".toList source k ∧
        ∀ value j, At words "src".toList value j → j = k) ↔ valuesOf "src" words = [source] :=
      fun source => valuesOf_eq_singleton_iff.symm
    simp only [hsingle]
    match valuesOf "src" words with
    | [] => exact ⟨fun source => iff_of_false (by simp) (by simp), fun _ => ⟨_, rfl⟩⟩
    | [value] =>
      refine ⟨fun source => ?_, fun h => absurd ⟨value, rfl⟩ h⟩
      rw [Except.ok.injEq, String.ofList_inj, List.cons.injEq, and_iff_left rfl]
    | _ :: _ :: _ => exact ⟨fun source => iff_of_false (by simp) (by simp), fun _ => ⟨_, rfl⟩⟩

/-- Two hosts, and this reply to each command. -/
def replying (text : String) : World :=
  { World.plain 2 with env := ⟨fun _ => ⟨0, text⟩, fun _ => "", fun _ => ""⟩ }

theorem route_replies_connected :
    (exec (Host.netDeviceToPeer 0 1 0) (replying "10.43.0.3 dev eth0 src 10.43.0.2 uid 0")).1 =
      .ok "eth0" ∧
    (exec getDefaultAddr { withAddresses "" with
      replies := fun _ => ⟨0, "1 via 10.43.0.1 dev eth0 src 10.43.0.2 uid 0"⟩ }).1 =
      .ok "10.43.0.2" := by
  obtain ⟨hwords, hvalues⟩ :
      (Text.strip "10.43.0.3 dev eth0 src 10.43.0.2 uid 0".toList).splitOn ' ' =
        ["10.43.0.3".toList] ++ "dev".toList :: "eth0".toList ::
          ["src".toList, "10.43.0.2".toList, "uid".toList, "0".toList] ∧
      valuesOf "src" (routeWords (String.ofList
        (Text.strip "1 via 10.43.0.1 dev eth0 src 10.43.0.2 uid 0".toList))) =
        ["10.43.0.2".toList] := by
    decide +kernel
  have hboth := @route_replies (replying "10.43.0.3 dev eth0 src 10.43.0.2 uid 0") 0 1 0 _
    { withAddresses "" with
      replies := fun _ => ⟨0, "1 via 10.43.0.1 dev eth0 src 10.43.0.2 uid 0"⟩ } _ _ _ _
    rfl rfl hwords rfl rfl
  have hdevice := hboth.1.mpr (.inl rfl)
  have hsource := (hboth.2.1 _).mpr (valuesOf_eq_singleton_iff.mp hvalues)
  rw [String.ofList_toList] at hdevice hsource
  exact ⟨hdevice, hsource⟩

/-- A gateway is taken for the device, and so is the word `dev` itself when the peer is local. -/
theorem gateway_taken_for_device :
    ((Text.strip "10.44.0.3 via 10.43.0.1 dev eth0 src 10.43.0.2".toList).splitOn ' ' =
        ["10.44.0.3".toList, "via".toList, "10.43.0.1".toList] ++ "dev".toList :: "eth0".toList ::
          ["src".toList, "10.43.0.2".toList] ∧
      (exec (Host.netDeviceToPeer 0 1 0)
        (replying "10.44.0.3 via 10.43.0.1 dev eth0 src 10.43.0.2")).1 = .ok "10.43.0.1") ∧
    ((Text.strip "local 10.43.0.2 dev lo src 10.43.0.2".toList).splitOn ' ' =
        ["local".toList, "10.43.0.2".toList] ++ "dev".toList :: "lo".toList ::
          ["src".toList, "10.43.0.2".toList] ∧
      (exec (Host.netDeviceToPeer 0 1 0)
        (replying "local 10.43.0.2 dev lo src 10.43.0.2")).1 = .ok "dev") := by
  decide +kernel

end DrbdTests.Routes
