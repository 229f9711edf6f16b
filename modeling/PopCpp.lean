import PopCpp.Lib.Transition
import PopCpp.Lib.ListEdit
import PopCpp.Lib.CInt
import PopCpp.Lib.BubbleSort
import PopCpp.Lib.Bytes
import PopCpp.Lib.Binary32
import PopCpp.Lib.Channel
import PopCpp.Lib.WaitFor
import PopCpp.Lib.Writing
import PopCpp.Lib.Slots
import PopCpp.Lib.Table
import PopCpp.Lib.Mailbox
import PopCpp.Lib.Runs
import PopCpp.Lib.Graph
import PopCpp.Lib.Scope
import PopCpp.Lib.Tree
import PopCpp.Lib.Simulation
import PopCpp.Lib.Retry
import PopCpp.Lib.Ledger
import PopCpp.Buffer.Model
import PopCpp.Buffer.Xdr
import PopCpp.Buffer.Raw
import PopCpp.Buffer.Codec
import PopCpp.Buffer.RoundTrip
import PopCpp.Buffer.BoolArray
import PopCpp.Buffer.Framing
import PopCpp.Buffer.Bounds
import PopCpp.Buffer.Exception
import PopCpp.Buffer.Serialize
import PopCpp.Buffer.XdrMpi
import PopCpp.Buffer.Strings
import PopCpp.Buffer.Windows
import PopCpp.Buffer.Overloads
import PopCpp.Buffer.MpiOverloads
import PopCpp.Buffer.Vectors
import PopCpp.Buffer.Failure
import PopCpp.Buffer.Load
import PopCpp.Buffer.RecvCtrl
import PopCpp.Combox.Send
import PopCpp.Combox.SocketTable
import PopCpp.Combox.UnixTable
import PopCpp.Combox.UnixReceive
import PopCpp.Combox.Receive
import PopCpp.Broker.Model
import PopCpp.Broker.Step
import PopCpp.Broker.Locks
import PopCpp.Broker.Conservation
import PopCpp.Broker.Order
import PopCpp.Broker.Pending
import PopCpp.Broker.Shutdown
import PopCpp.Broker.PopCall
import PopCpp.Broker.Receive
import PopCpp.Broker.Reply
import PopCpp.Discovery.Model
import PopCpp.Discovery.Flood
import PopCpp.Discovery.Coverage
import PopCpp.Discovery.Pruning
import PopCpp.Discovery.EndFlood
import PopCpp.Discovery.WayBack
import PopCpp.Discovery.Serialize
import PopCpp.Discovery.Results
import PopCpp.Discovery.Semaphores
import PopCpp.JobMgr.Model
import PopCpp.JobMgr.Accounting
import PopCpp.JobMgr.Mirror
import PopCpp.JobMgr.Cancel
import PopCpp.JobMgr.ExecObj
import PopCpp.JobMgr.Alloc
import PopCpp.JobMgr.CreateObject
import PopCpp.Interconnector.Allocation
import PopCpp.Interconnector.Link
import PopCpp.Interconnector.Pipeline
import PopCpp.Interconnector.Answers
import PopCpp.Interconnector.Routing
import PopCpp.Interconnector.Routes
import PopCpp.Interconnector.RouteSteps
import PopCpp.Interconnector.RouteArrivals
import PopCpp.Interconnector.Delivery
import PopCpp.Interface.AccessPoint
import PopCpp.Interface.RefCount
import PopCpp.Interface.Lifetime
import PopCpp.Interface.Encoding
import PopCpp.Interface.ObjectDescription
import PopCpp.Parser.Types
import PopCpp.Parser.Generator
import PopCpp.Parser.Hygiene
import PopCpp.Parser.Semantics
import PopCpp.Parser.Codec
import PopCpp.Parser.Refinement
import PopCpp.Parser.RoundTrip
import PopCpp.Parser.Classes
import PopCpp.Parser.Dispatch
import PopCpp.Parser.Wire
import PopCpp.Parser.Stubs
import PopCpp.Parser.Abstract
import PopCpp.Parser.RemoteCall
import PopCpp.Parser.Members
import PopCpp.Discovery.Transfer
import PopCpp.JobMgr.CancelExact
import PopCpp.JobMgr.Reserve
import PopCpp.Parser.TypeGraph
import PopCpp.Parser.Numbers
import PopCpp.Lib.Striping
import PopCpp.PopFile.Write
import PopCpp.Lib.Stringstream
import PopCpp.PopFile.Read
import PopCpp.PopFile.Reads
import PopCpp.PopFile.Misread
import PopCpp.JobMgr.Admission
import PopCpp.Lib.History
import PopCpp.Discovery.History
import PopCpp.Discovery.Exploration
import PopCpp.Lib.RoundRobin
import PopCpp.JobMgr.Distribution
import PopCpp.Discovery.CheckResource
import PopCpp.JobMgr.SearchRequest
import PopCpp.JobMgr.Filter
import PopCpp.JobMgr.MatchArray
import PopCpp.JobMgr.ApplicationEnd
import PopCpp.Discovery.Recent
import PopCpp.Discovery.UniqueId
import PopCpp.Event.EventQueue
import PopCpp.Lib.Wildcard
import PopCpp.Utils.MatchWildcard
import PopCpp.Lib.Tokens
import PopCpp.Utils.SameContact
import PopCpp.Lib.Ranked
import PopCpp.Interface.CommPattern
import PopCpp.Interface.Bind
import PopCpp.Lib.StdString
import PopCpp.Interconnector.Addresses
import PopCpp.Interface.Assignment
import PopCpp.Interface.Url
import PopCpp.Lib.Conformance
import PopCpp.Services.AppService
import PopCpp.Services.ObjectMonitor
import PopCpp.Lib.Upsert
import PopCpp.Services.CodeMgr
import PopCpp.Parser.ClassId
import PopCpp.Services.PopFileManager
import PopCpp.PopFile.Seek
import PopCpp.Parser.OdExprlist
import PopCpp.Lib.BreadthFirst
import PopCpp.Parser.FindAllBaseClass
import PopCpp.Parser.Marks
import PopCpp.Parser.PureVirtual
import PopCpp.PopFile.Flush
import PopCpp.Lib.LongestMatch
import PopCpp.Parser.Lexer
import PopCpp.Parser.ReadUntil
import PopCpp.Parser.Constructors
import PopCpp.Parser.ConstructorsExact
import PopCpp.Parser.TypeArray
import PopCpp.Parser.ReadUntilBuffer
import PopCpp.Lib.RoundBuffer
import PopCpp.Parser.TokenBuffer
import PopCpp.Lib.Ieee
import PopCpp.Lib.Insertion
import PopCpp.Services.NodeInfoMap
import PopCpp.Lib.FairProgress
import PopCpp.Services.TimerThread
import PopCpp.Event.TimedWait
import PopCpp.Lib.Progress
import PopCpp.Broker.Progress
import PopCpp.PopFile.RoundTrip
import PopCpp.Discovery.Termination
import PopCpp.Broker.ParallelObject
import PopCpp.Discovery.Answers
import PopCpp.JobMgr.Reclaim
