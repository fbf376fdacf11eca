import Dmn.Lib.StrictOrder
import Dmn.Lib.Weave
import Dmn.Inflight.Guard
import Dmn.IntervalBTree.Range
import Dmn.IntervalBTree.Topology
import Dmn.IntervalBTree.Node
import Dmn.IntervalBTree.Balance
import Dmn.IntervalBTree.Insert
import Dmn.IntervalBTree.Erase
import Dmn.IntervalBTree.Tree
import Dmn.IntervalBTree.Invariant
import Dmn.IntervalBTree.Mutation
import Dmn.IntervalBTree.Query
import Dmn.IntervalBTree.Refinement
import Dmn.IntervalBTree.Overlay
import Dmn.IntervalBTree.Agreement
import Dmn.Lib.StableSort
import Dmn.IntervalBTree.RoundTrip
import Dmn.Lib.Transition
import Dmn.DLock.Table
import Dmn.DLock.Snapshot
import Dmn.DLock.Machine
import Dmn.DLock.Exclusion
import Dmn.Lib.Mutex
import Dmn.DLock.Ownership
import Dmn.DLock.Shutdown
import Dmn.BlockingQueueMt.Machine
import Dmn.BlockingQueueMt.WakeUp
import Dmn.BlockingQueueMt.Tally
import Dmn.Lib.Linked
import Dmn.Lib.Census
import Dmn.BlockingQueueLf.Machine
import Dmn.BlockingQueueLf.Order
import Dmn.BlockingQueueLf.Retired
import Dmn.BlockingQueueLf.Reclaim
import Dmn.PubSub.Publisher
import Dmn.PubSub.Replay
import Dmn.Pipe.Scheduled
import Dmn.Pipe.Loop
import Dmn.StateMachine.Machine
import Dmn.Runtime.Machine
import Dmn.Runtime.Awake
import Dmn.Runtime.Idle
import Dmn.Runtime.Discipline
import Dmn.Runtime.Timer
import Dmn.Runtime.Armed
import Dmn.RuntimeState.Machine
import Dmn.RuntimeState.Retention
import Dmn.RuntimeState.Lifecycle
import Dmn.RuntimeState.Submission
import Dmn.RuntimeState.Contract
import Dmn.Ancs.Utf8
import Dmn.Ancs.Utf8Span
import Dmn.Ancs.DataSource
import Dmn.Ancs.Fragments
import Dmn.Ancs.Grammar
import Dmn.Ancs.Client.Machine
import Dmn.Ancs.Client.Isolation
import Dmn.Ancs.Client.Update
import Dmn.Ancs.Client.Scheduler
import Dmn.Ancs.Client.Acknowledged
import Dmn.Ancs.Client.Protocol
import Dmn.DMesg.Message
import Dmn.DMesg.Publisher
import Dmn.DMesg.Invariant
import Dmn.DMesg.Serialization
import Dmn.DMesg.Mirror
import Dmn.DMesg.Playback
import Dmn.DMesg.Delivery
import Dmn.DMesg.Abreast
import Dmn.DMesg.Conflict
import Dmn.DMesg.Growth
import Dmn.DMesg.Waiting
import Dmn.DMesg.Frame
import Dmn.DMesg.Pace
import Dmn.DMesgNet.Node
import Dmn.DMesgNet.Network
import Dmn.DMesgNet.Election
import Dmn.DMesgNet.Circle
import Dmn.DMesgNet.Outbound
import Dmn.DMesgNet.Input
import Dmn.DMesgNet.Survival
import Dmn.Lib.Halting
import Dmn.Lib.Settle
import Dmn.Bluez.Inventory
import Dmn.Bluez.Machine
import Dmn.Bluez.Index
import Dmn.Bluez.Snapshot
import Dmn.Bluez.Events
import Dmn.Bluez.Objects
import Dmn.Bluez.Describes
import Dmn.Bluez.Converges
import Dmn.Bluez.Discovery
import Dmn.BluezBackend.Connection
import Dmn.Dbus.Match
import Dmn.Dbus.Rules
import Dmn.Dbus.Callbacks
import Dmn.Dbus.Accounting
import Dmn.Dbus.Shutdown
import Dmn.Dbus.Calls
import Dmn.Dbus.Completion
import Dmn.Dbus.Once
import Dmn.Dbus.Replies
import Dmn.Engine.Identity
import Dmn.Engine.Selection
import Dmn.Lib.Newest
import Dmn.Engine.EventStore
import Dmn.Engine.Controller
import Dmn.Engine.Machine
import Dmn.Engine.Pending
import Dmn.Engine.Deferred
import Dmn.Engine.Ended
import Dmn.Engine.Devices
import Dmn.Engine.Overlap
import Dmn.Engine.Direct
import Dmn.Engine.Shutdown
import Dmn.Engine.Links
import Dmn.Engine.Backoff
import Dmn.Json.Parser
import Dmn.Json.Grammar
import Dmn.Json.Scan
import Dmn.Json.Strings
import Dmn.Json.Accepts
import Dmn.Json.Dump
import Dmn.Engine.SelectionRuns
import Dmn.Timer.Generations
import Dmn.Dbus.Output
import Dmn.Dbus.Codec
import Dmn.Lib.Dialogue
import Dmn.Ancs.Monitor.Setup
import Dmn.Ancs.Monitor.Conduct
import Dmn.Dbus.Input
import Dmn.IntervalBTree.Height
import Dmn.Gatt.Notify
