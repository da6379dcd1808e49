import Opio.Lib.LittleEndian
import Opio.Lib.Checked
import Opio.Lib.Blocks
import Opio.Lib.Runs
import Opio.Lib.StreamFifo
import Opio.Lib.Program
import Opio.Lib.Incremental
import Opio.Lib.Mutex
import Opio.Lib.Timer
import Opio.Lib.Lane
import Opio.Lib.AsyncOps
import Opio.Lib.Dispatch
import Opio.Lib.Snapshots
import Opio.Lib.Heap
import Opio.Lib.Greedy
import Opio.Lib.Fuel
import Opio.Lib.Fields
import Opio.Lib.SharedObjects
import Opio.Net.SimpleBuffer
import Opio.Net.WritableSequence
import Opio.Net.SkipTransferredPart
import Opio.Net.ConcatSmallBuffers
import Opio.Net.Connection
import Opio.Net.Cases
import Opio.Net.WriteQueue
import Opio.Net.StreamLog
import Opio.Net.Bystanders
import Opio.Net.WriteStream
import Opio.Net.WriteSteps
import Opio.Net.NestedSends
import Opio.Net.CalmRuns
import Opio.Net.TransmitStats
import Opio.Net.Callbacks
import Opio.Net.Completions
import Opio.Net.QueueInvariant
import Opio.Net.AdjustableBuffers
import Opio.Net.BufferMemory
import Opio.Net.BufferPhases
import Opio.Net.Reports
import Opio.Net.Successes
import Opio.Net.BufferSnapshots
import Opio.Net.CallbackBound
import Opio.Net.NonSends
import Opio.Net.ShutdownHandler
import Opio.Net.QuietSteps
import Opio.Net.ReadLoop
import Opio.Net.Reading
import Opio.Net.ReadMemory
import Opio.Net.HeterogeneousBuffer
import Opio.Net.BufferOwnership
import Opio.Net.HeterogeneousSteps
import Opio.Net.HeterogeneousRuns
import Opio.Net.NoNestedSends
import Opio.Net.SlowProxy
import Opio.Net.SlowProxyRuns
import Opio.Net.Locking
import Opio.Net.Callables
import Opio.Net.SendStrategies
import Opio.Net.WriteWatchdog
import Opio.Net.Acceptor
import Opio.Net.AcceptorOpen
import Opio.Net.UdpMessageReceiver
import Opio.Net.CfgJson
import Opio.ProtoEntry.PkgHeader
import Opio.ProtoEntry.PkgInput
import Opio.ProtoEntry.Ring
import Opio.ProtoEntry.RingOps
import Opio.ProtoEntry.InputFifo
import Opio.ProtoEntry.ZeroCopy
import Opio.ProtoEntry.RingSlots
import Opio.ProtoEntry.SkipContract
import Opio.ProtoEntry.CopyTermination
import Opio.ProtoEntry.Entry
import Opio.ProtoEntry.Shutdown
import Opio.ProtoEntry.AfterTermination
import Opio.ProtoEntry.PackageStep
import Opio.ProtoEntry.InputLoop
import Opio.ProtoEntry.GivingUp
import Opio.ProtoEntry.Decoder
import Opio.ProtoEntry.EventLog
import Opio.ProtoEntry.ShutdownReport
import Opio.ProtoEntry.Heartbeat
import Opio.ProtoEntry.HeartbeatReply
import Opio.ProtoEntry.CfgJson
import Opio.ProtoEntry.InputBound
import Opio.ProtoEntry.WholeStream
import Opio.ProtoEntry.PackageImage
import Opio.ProtoEntry.HeaderSpace
import Opio.ProtoEntry.Sends
import Opio.ProtoEntry.Senders
import Opio.ProtoEntry.BackPressure
import Opio.ProtoEntry.Generator
import Opio.ProtoEntry.MsgTypeLut
import Opio.ProtoEntry.ReadBufferSize
import Opio.ProtoEntry.Delivery
import Opio.ProtoEntry.Node
import Opio.ProtoEntry.NodeRuns
import Opio.ProtoEntry.NodeClosing
import Opio.ProtoEntry.Link
import Opio.ProtoEntry.ResponsivePeer
import Opio.ProtoEntry.Dialogue
