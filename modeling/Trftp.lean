import Trftp.Lib.EventMachine
import Trftp.Lib.ConditionVariable
import Trftp.Lib.History
import Trftp.Lib.LittleEndian
import Trftp.Lib.Chunks
import Trftp.Lib.Counter
import Trftp.Crc32
import Trftp.Common
import Trftp.UdpSocket
import Trftp.InetAddr
import Trftp.Server.Transaction
import Trftp.Server.Threads
import Trftp.Server.Frame
import Trftp.Server.Sending
import Trftp.Server.SendingInv
import Trftp.Server.Phases
import Trftp.Server.Progress
import Trftp.Server.Handshake
import Trftp.Server.AtMostOnce
import Trftp.Server.Waiting
import Trftp.Server.Cancellation
import Trftp.Server.Overlooking
import Trftp.Server.Retransmission
import Trftp.Client.Transaction
import Trftp.Client.Receiving
import Trftp.Client.Verified
import Trftp.Client.Threads
import Trftp.Client.Statements
import Trftp.Client.Alive
import Trftp.Client.Exceptions
import Trftp.Client.Transfers
import Trftp.Client.Callback
import Trftp.Client.Conversation
import Trftp.Server.Slices
import Trftp.Messages
import Trftp.Server.LostRequest
import Trftp.Server.Transmissions
import Trftp.Server.Server
import Trftp.Server.Registry
import Trftp.Server.Slot
import Trftp.System.Isolation
import Trftp.Server.Joining
import Trftp.Server.WaitForStatus
import Trftp.ThreadStream
import Trftp.Server.Conversation
import Trftp.System.Network
import Trftp.System.Genuine
import Trftp.System.Framing
import Trftp.System.Discarding
import Trftp.System.Dispatching
import Trftp.System.ReceiveLoops
import Trftp.System.Content
import Trftp.System.Safety
import Trftp.System.Threads
import Trftp.System.Positions
import Trftp.System.Loops
import Trftp.System.ThreadedSafety
import Trftp.System.Tolerance
import Trftp.System.Completion
import Trftp.Lib.Crc
import Trftp.Lib.CrcDistance
import Trftp.Lib.CrcRemainder
import Trftp.Crc32.Remainder
import Trftp.Crc32.FileReading
import Trftp.System.Corruption
import Trftp.System.BitErrors
import Trftp.System.PacketCounts
import Trftp.Server.Iterations
import Trftp.Client.PartialFile
import Trftp.System.ReceivedBytes
import Trftp.System.Sessions
import Trftp.System.LateDatagrams
import Trftp.System.CleanRun
import Trftp.System.Answers
import Trftp.System.Stages
import Trftp.System.FileSizes
import Trftp.System.LossyRun
import Trftp.System.Repairing
import Trftp.System.Retransmission
import Trftp.System.Addresses
import Trftp.System.Concurrent
import Trftp.System.Outcomes
import Trftp.Lib.Ownership
import Trftp.System.Lifetimes
import Trftp.System.EndpointThreads
import Trftp.System.Descriptors
import Trftp.System.Destruction
import Trftp.Lib.Handover
import Trftp.System.HandingOver
