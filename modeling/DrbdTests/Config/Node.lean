import Mathlib.Data.List.Infix
import DrbdTests.Config.Block
import DrbdTests.Cluster.Objects

/-!
# `Node.config`

The text of the DRBD configuration of one node. It is generated from `ResourceView`,
`NodeView` and `VolumeView`, the attributes of the resource, its nodes with their hosts, and
its volumes that the methods read; `World.resourceView` and `World.nodeView` collect them
from the objects, so two worlds with the same views give the same text.
-/

namespace DrbdTests

structure VolumeView where
  minor : Nat
  disk : Option String
  metaDisk : Option String
  tiebreaker : Option Bool
  deriving DecidableEq, Repr

structure NodeView where
  id : Nat
  name : String
  port : Port
  fencingMode : String
  host : HostInfo
  disks : List VolumeView

structure ResourceView where
  name : String
  handlers : String
  resourceOptions : String
  diskOptions : String
  netOptions : String
  transport : Option String
  tls : String
  nodes : List NodeView

def Volume.view (v : Volume) : VolumeView := ⟨v.minor, v.disk, v.meta, v.tiebreaker⟩

def World.nodeView (w : World) (n : NodeId) : NodeView where
  id := (w.node n).id
  name := (w.node n).name
  port := (w.node n).port
  fencingMode := (w.node n).fencingMode
  host := (w.host (w.node n).host).info
  disks := (w.node n).disks.map Volume.view

def World.resourceView (w : World) (r : ResourceId) : ResourceView where
  name := (w.resource r).name
  handlers := (w.resource r).handlers
  resourceOptions := (w.resource r).resourceOptions
  diskOptions := (w.resource r).diskOptions
  netOptions := (w.resource r).netOptions
  transport := (w.resource r).transport
  tls := (w.resource r).tls
  nodes := (w.members r).map w.nodeView

namespace Config

/-- `a or b` for an optional string: an empty string counts as absent. -/
def orElse (a : Option String) (b : String) : String :=
  match a with
  | some s => if s = "" then b else s
  | none => b

/-- The truth value of an optional string. -/
def truthy (a : Option String) : Bool :=
  match a with
  | some s => s ≠ ""
  | none => false

def isVersion9 (node : NodeView) : Bool := node.host.drbdVersionTuple.ge (9, 0, 0)

/-- `Volume.device_for_config` -/
def deviceForConfig (host : HostInfo) (disk : VolumeView) : String :=
  match host.platform with
  | .linux => "/dev/drbd" ++ toString disk.minor
  | .windows => "minor " ++ toString disk.minor

def configOneHostAddr (node : NodeView) (block : Block) (addr : Addr) : Print PUnit :=
  block.write ("host " ++ node.name ++ " address " ++ addr.text ++ ":" ++ toString node.port.val
    ++ ";")

/-- One end of a connection that runs through a proxy. -/
def configProxyHost (self node : NodeView) : Print PUnit :=
  withBlock ("host " ++ node.name ++ " address 127.0.0.1:" ++ toString node.port.val
      ++ " via proxy on " ++ node.name) none fun N => do
    N.write ("inside 127.0.0.2:" ++ toString self.port.val ++ ";")
    match node.host.addrs with
    | addr :: _ => N.write ("outside ipv4 " ++ addr.text ++ ":" ++ toString self.port.val ++ ";")
    | [] => throw .indexError

def configOneConnection (settings : Settings) (self n1 n2 : NodeView) : Print PUnit :=
  withBlock "connection" none fun _ =>
    if settings.proxyEnable then do
      configProxyHost self n1
      configProxyHost self n2
      withBlock "net" none fun netOpts => netOpts.write "protocol A;"
    else do
      withBlock "net" none fun _ => pure ⟨⟩
      (n1.host.addrs.zip n2.host.addrs).forM fun (a1, a2) =>
        withBlock "path" none fun path => do
          configOneHostAddr n1 path a1
          configOneHostAddr n2 path a2

def configConns9 (settings : Settings) (resource : ResourceView) (self : NodeView) :
    Print PUnit :=
  resource.nodes.zipIdx.forM fun (n1, start) =>
    (resource.nodes.drop (start + 1)).forM fun n2 => configOneConnection settings self n1 n2

def configVolume (node : NodeView) (index : Nat) (disk : VolumeView) : Print PUnit :=
  withBlock ("volume " ++ toString index) none fun V => do
    V.write ("device " ++ deviceForConfig node.host disk ++ ";")
    V.write ("disk " ++ orElse disk.disk "none" ++ ";")
    if truthy disk.disk then
      V.write ("meta-disk " ++ orElse disk.metaDisk "internal" ++ ";")
    match disk.tiebreaker with
    | some tiebreaker => V.write ("tiebreaker " ++ (if tiebreaker then "yes" else "no") ++ ";")
    | none => pure ⟨⟩

def configHost (self node : NodeView) : Print PUnit :=
  withBlock ("on " ++ node.host.hostname) none fun N => do
    if isVersion9 self then
      N.write ("node-id " ++ toString node.id ++ ";")
    else
      N.write ("address " ++ node.host.addr.text ++ ":" ++ toString node.port.val ++ ";")
    node.disks.zipIdx.forM fun (disk, index) => configVolume node index disk

def configHandlers (resource : ResourceView) : Print PUnit :=
  withBlock "handlers" none fun handlers => handlers.write resource.handlers

def configOptions (resource : ResourceView) : Print PUnit :=
  withBlock "options" none fun options => options.write resource.resourceOptions

def configDisk (resource : ResourceView) (self : NodeView) : Print PUnit :=
  withBlock "disk" none fun disk => do
    disk.write "disk-flushes no;"
    disk.write "md-flushes no;"
    -- application I/O is detected on Ubuntu Bionic when there is none
    if ¬ "c-min-rate".toList <:+: resource.diskOptions.toList ∧ self.host.osId = "ubuntu" ∧
        self.host.osVersionId = "18.04" then
      disk.write "c-min-rate 0;"
    if self.fencingMode ≠ "" ∧ ¬ isVersion9 self then
      disk.write ("fencing " ++ self.fencingMode ++ ";")
    disk.write resource.diskOptions

def configNet (resource : ResourceView) (self : NodeView) : Print PUnit :=
  withBlock "net" none fun net => do
    if truthy resource.transport then
      net.write ("transport \"" ++ resource.transport.getD "" ++ "\";")
    if resource.tls = "yes" then
      net.write ("tls " ++ resource.tls ++ ";")
    if self.fencingMode ≠ "" ∧ isVersion9 self then
      net.write ("fencing " ++ self.fencingMode ++ ";")
    net.write resource.netOptions

def configProxy (settings : Settings) : Print PUnit :=
  withBlock "proxy" none fun proxy =>
    if settings.proxyEnable then do
      if settings.lz4Enable then
        withBlock "plugin" none fun proxyPlugin => proxyPlugin.write "lz4;"
      else if settings.zstdEnable ≠ 0 then
        withBlock "plugin" none fun proxyPlugin =>
          proxyPlugin.write ("zstd levels " ++ toString settings.zstdEnable ++ ";")
      -- the global `memlimit` only exists when the option was given
      match settings.memlimit with
      | some memlimit =>
        if memlimit ≠ 0 then proxy.write ("memlimit " ++ toString memlimit ++ ";")
      | none => pure ⟨⟩
    else pure ⟨⟩

/-- The statements of `Node.config`; the list `text` is sink `0`. -/
def configBlocks (settings : Settings) (resource : ResourceView) (self : NodeView) :
    Print PUnit :=
  withBlock ("resource " ++ resource.name) (some 0) fun _ => do
    configHandlers resource
    configOptions resource
    configDisk resource self
    configNet resource self
    configProxy settings
    resource.nodes.forM fun n => configHost self n
    if isVersion9 self then configConns9 settings resource self
    -- `_config_conns_84`: no explicit connections for 8.4

end Config

/-- `Node.config` -/
def Node.config (w : World) (n : NodeId) : Except PyError String :=
  Config.render
    (Config.configBlocks w.settings (w.resourceView (w.node n).resource) (w.nodeView n))

theorem Node.config_congr {w w' : World} {n : NodeId} (hs : w'.settings = w.settings)
    (hr : w'.resourceView (w'.node n).resource = w.resourceView (w.node n).resource)
    (hn : w'.nodeView n = w.nodeView n) : Node.config w' n = Node.config w n := by
  rw [Node.config, hs, hr, hn, Node.config]

end DrbdTests
