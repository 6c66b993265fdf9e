import DrbdTests.Lib.Stateful
import DrbdTests.Lib.Runs
import DrbdTests.Lib.Braces
import DrbdTests.Collections.Collection
import DrbdTests.Config.Block
import DrbdTests.Config.Node
import DrbdTests.Cluster.Commands
import DrbdTests.Cluster.Storage
import DrbdTests.Cluster.Operations
import DrbdTests.Cluster.Layout
import DrbdTests.Cluster.Creation
import DrbdTests.Cluster.Mesh
import DrbdTests.Cluster.Numbering
import DrbdTests.Cluster.Freshness
import DrbdTests.Cluster.Accounting
import DrbdTests.Config.Sections
import DrbdTests.Cluster.Cleanup
import DrbdTests.Runner.TestSets
import DrbdTests.Runner.Run
import DrbdTests.Generator.Versions
import DrbdTests.Generator.Generate
import DrbdTests.Generator.ReadBack
import DrbdTests.Lib.Shell
import DrbdTests.Lib.Scripts
import DrbdTests.Network.Iptables
import DrbdTests.Network.Filters
import DrbdTests.Network.Packets
import DrbdTests.Collections.Hashed
import DrbdTests.Collections.Insertion
import DrbdTests.Collections.PeerDevices
import DrbdTests.Cluster.Minors
import DrbdTests.Cluster.Ids
import DrbdTests.Cluster.Ports
import DrbdTests.Config.Threads
import DrbdTests.Capture.Trap
import DrbdTests.Capture.Startup
import DrbdTests.Generator.Comparison
import DrbdTests.Config.Options
import DrbdTests.Lib.Dict
import DrbdTests.Runner.Statistics
import DrbdTests.Runner.Results
import DrbdTests.Lib.TextFile
import DrbdTests.Lib.Toml.Origin
import DrbdTests.Lib.Toml.Tables
import DrbdTests.Runner.Stream
import DrbdTests.Cluster.Included
import DrbdTests.Lib.Executor
import DrbdTests.Target.MisalignedBio
import DrbdTests.Cluster.Selections
import DrbdTests.Cluster.Resync
import DrbdTests.Config.Failures
import DrbdTests.Cluster.Uploads
import DrbdTests.Cluster.Replies
import DrbdTests.Cluster.Patterns
import DrbdTests.Cluster.Removal
import DrbdTests.Lib.Fnmatch
import DrbdTests.Cluster.Setup
import DrbdTests.Lib.Digits
import DrbdTests.Network.Qdisc
import DrbdTests.Network.TrafficControl
import DrbdTests.Network.Throttling
import DrbdTests.Network.Reset
import DrbdTests.Special.Random
import DrbdTests.Target.SeparateVerify
import DrbdTests.Lib.Regex
import DrbdTests.Tests.Verify
import DrbdTests.Tests.TwopcTimeout
import DrbdTests.Capture.Tee
import DrbdTests.Lib.Weighted
import DrbdTests.Special.Steps
import DrbdTests.Network.Addresses
import DrbdTests.Network.Routes
import DrbdTests.Collections.Index
import DrbdTests.Lib.Grouping
import DrbdTests.Cluster.Events
import DrbdTests.Cluster.UpWait
import DrbdTests.Runner.Removals
import DrbdTests.Runner.Down
import DrbdTests.Cluster.Fio
import DrbdTests.Cluster.Exit
import DrbdTests.Lib.AndOr
import DrbdTests.Network.Machine
import DrbdTests.Network.Sessions
import DrbdTests.Network.Namespaces
import DrbdTests.Lib.Content
import DrbdTests.Cluster.Resize
import DrbdTests.Lib.Calendar
import DrbdTests.Cluster.Tls
