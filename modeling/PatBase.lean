import PatBase.Lib.Fifo
import PatBase.Lib.Machine
import PatBase.Lib.Trace
import PatBase.Bytes.Buffer
import PatBase.Bytes.BufferFifo
import PatBase.Lib.IntrusiveList
import PatBase.Runtime.TaskQueue
import PatBase.Runtime.IoContext
import PatBase.Runtime.IoContextShutdown
import PatBase.Runtime.WakeupPipe
import PatBase.Runtime.Completion
import PatBase.Runtime.StreamHandle
import PatBase.Runtime.StreamClose
import PatBase.Runtime.StreamCloseOverlap
import PatBase.Runtime.TcpSocket
import PatBase.Runtime.Submission
import PatBase.Runtime.File
import PatBase.Lib.Reader
import PatBase.Io.LimitedReader
import PatBase.Bytes.BufferStorage
import PatBase.Bytes.BufferPreconditions
import PatBase.Runtime.FailedWakeup
import PatBase.Lib.Writer
import PatBase.Runtime.Failures
import PatBase.Runtime.Writers
import PatBase.Lib.Sender
import PatBase.Runtime.StreamRead
import PatBase.Runtime.Threads
import PatBase.Bytes.BufferMove
import PatBase.Runtime.FileOwnership
import PatBase.Io.StackedLimits
import PatBase.Lib.Endian
import PatBase.Net.Ip
import PatBase.Runtime.TcpConnect
import PatBase.Net.LookupIp
import PatBase.Runtime.SocketLifetime
import PatBase.Io.EndOfData
import PatBase.Lib.Simulation
import PatBase.Runtime.WakeupRefinement
import PatBase.Runtime.WakeupProgress
import PatBase.Runtime.IoContextProgress
import PatBase.Runtime.StreamWrite
import PatBase.Runtime.Connection
import PatBase.Runtime.Client
import PatBase.Bytes.BufferObjects
import PatBase.Bytes.BufferGrowth
import PatBase.Runtime.FileTransfer
import PatBase.Runtime.FileTest
import PatBase.Runtime.LoopHandles
import PatBase.Io.Frames
import PatBase.Net.NumericHost
import PatBase.Lib.Trails
import PatBase.Runtime.SocketOrder
import PatBase.Runtime.SlotPipelines
import PatBase.Runtime.ClientLoop
import PatBase.Runtime.FilePipelines
import PatBase.Io.LimitedStream
import PatBase.Runtime.ContextRequests
import PatBase.Runtime.ContextPipelines
