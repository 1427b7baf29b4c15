import Cspcl.Lib.Lts
import Cspcl.Lib.Table
import Cspcl.Lib.Recency
import Cspcl.Lib.Ledger
import Cspcl.Lib.CString
import Cspcl.Lib.Numeral
import Cspcl.Lib.Chan
import Cspcl.Lib.Custody
import Cspcl.Lib.Buffer
import Cspcl.Lib.Sem
import Cspcl.Lib.Condvar
import Cspcl.Lib.LockOrder
import Cspcl.Lib.Switch
import Cspcl.Lib.Permits
import Cspcl.Config
import Cspcl.Addr.Parse
import Cspcl.Addr.Grammar
import Cspcl.Addr.Endpoint
import Cspcl.Pool.Basic
import Cspcl.Pool.Lemmas
import Cspcl.Pool.Owner
import Cspcl.Pool.Runs
import Cspcl.Pool.Destinations
import Cspcl.Pool.Outcome
import Cspcl.Pool.Lru
import Cspcl.Pool.Teardown
import Cspcl.Pool.Age
import Cspcl.Pool.Stats
import Cspcl.Rx.Basic
import Cspcl.Inbound.State
import Cspcl.Inbound.Lemmas
import Cspcl.Inbound.Streams
import Cspcl.Inbound.Accept
import Cspcl.Inbound.Queues
import Cspcl.Inbound.Kept
import Cspcl.Inbound.Listeners
import Cspcl.Inbound.ListenerRuns
import Cspcl.Inbound.Frame
import Cspcl.Inbound.Close
import Cspcl.Inbound.WakeUps
import Cspcl.Inbound.Grace
import Cspcl.Inbound.StopBound
import Cspcl.Receive.Gate
import Cspcl.Receive.GateShut
import Cspcl.Receive.Loop
import Cspcl.Ud3tn.RxBuffer
import Cspcl.Ud3tn.Links
import Cspcl.Ud3tn.LinkInv
import Cspcl.Ud3tn.Teardown
import Cspcl.Ud3tn.Keys
import Cspcl.Ud3tn.TxBuffer
import Cspcl.Lib.Pieces
import Cspcl.Lib.RustStr
import Cspcl.Lib.Backoff
import Cspcl.Picod3tn.Addr
import Cspcl.Receive.Source
import Cspcl.Picod3tn.Incoming
import Cspcl.Hardy.Dispatcher
import Cspcl.Receive.Agree
import Cspcl.Hardy.Attribution
import Cspcl.Stack.Basic
import Cspcl.Rx.Recv
import Cspcl.Rx.Budget
import Cspcl.Rx.Owner
import Cspcl.Rx.Lru
import Cspcl.Rx.Scan
import Cspcl.Rx.Failures
import Cspcl.Rx.Fair
import Cspcl.Stack.Init
import Cspcl.Stack.RxSocket
import Cspcl.Iface.Spec
import Cspcl.Iface.Agree
import Cspcl.Iface.Text
import Cspcl.Iface.Configure
import Cspcl.Stack.Config
import Cspcl.Unibo.Peers
import Cspcl.Unibo.Ensure
import Cspcl.Unibo.Outbound
import Cspcl.Unibo.Eid
import Cspcl.Delivery.World
import Cspcl.Delivery.Senders
import Cspcl.Delivery.Packets
import Cspcl.Delivery.Honesty
import Cspcl.Delivery.Threads
import Cspcl.Delivery.Acks
import Cspcl.Nodes.State
import Cspcl.Nodes.Places
import Cspcl.Nodes.Steps
import Cspcl.Nodes.Waits
import Cspcl.Lib.Simulation
import Cspcl.Inbound.Sections
import Cspcl.Delivery.Dests
import Cspcl.Delivery.Returns
import Cspcl.Delivery.Codes
import Cspcl.Nodes.Traffic
import Cspcl.Nodes.Refine
import Cspcl.Nodes.Others
import Cspcl.Nodes.EndToEnd
import Cspcl.Nodes.Owners
import Cspcl.Nodes.Async
import Cspcl.Nodes.SendSteps
import Cspcl.Nodes.AsyncInv
import Cspcl.Nodes.Futures
import Cspcl.Nodes.Listeners
import Cspcl.Nodes.Budget
import Cspcl.Picod3tn.Transmit
import Cspcl.Picod3tn.Link
import Cspcl.Picod3tn.OneLink
import Cspcl.Receive.GateStreams
import Cspcl.Hardy.Cla
import Cspcl.Hardy.Unregister
import Cspcl.Inbound.Order
import Cspcl.Receive.Serving
import Cspcl.Hardy.Order
import Cspcl.Picod3tn.RxTask
