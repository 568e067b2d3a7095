import Sponge.Lib.Unsigned
import Sponge.Lib.Chunks
import Sponge.Spec.ByteStream
import Sponge.Spec.StreamReassembler
import Sponge.Sanity.Merge
import Sponge.Sanity.ByteStream
import Sponge.Sanity.Push
import Sponge.Sanity.Window
import Sponge.Lib.Exec
import Sponge.Sanity.Content
import Sponge.Proofs.Reassembly
import Sponge.Sanity.Account
import Sponge.Proofs.Accounting
import Sponge.Proofs.Bounds
import Sponge.Proofs.Progress
import Sponge.Proofs.Retention
import Sponge.Spec.TCPSegment
import Sponge.Spec.TCPSender
import Sponge.Lib.Nearest
import Sponge.Sanity.Wrapping
import Sponge.Lib.Tiling
import Sponge.Sanity.Sender
import Sponge.Sanity.Tiles
import Sponge.Sanity.SenderRun
import Sponge.Proofs.Segments
import Sponge.Sanity.Queue
import Sponge.Proofs.Outstanding
import Sponge.Spec.TCPReceiver
import Sponge.Spec.TCPState
import Sponge.Spec.Transfer
import Sponge.Sanity.Link
import Sponge.Sanity.Deliver
import Sponge.Proofs.Stream
import Sponge.Sanity.Flow
import Sponge.Sanity.Keep
import Sponge.Proofs.FlowControl
import Sponge.Spec.Network
import Sponge.Sanity.Endpoint
import Sponge.Sanity.Network
import Sponge.Proofs.Close
import Sponge.Spec.ConnectionRun
import Sponge.Proofs.Listen
import Sponge.Proofs.Handshake
import Sponge.Sanity.Connection
import Sponge.Sanity.Timer
import Sponge.Sanity.Live
import Sponge.Sanity.Received
import Sponge.Spec.ReceiverRun
import Sponge.Sanity.Arrival
import Sponge.Proofs.OutOfWindow
import Sponge.Sanity.Summary
import Sponge.Proofs.Shutdown
import Sponge.Proofs.Linger
import Sponge.Proofs.Silence
import Sponge.Spec.IPv4
import Sponge.Lib.OnesComplement
import Sponge.Sanity.Parser
import Sponge.Sanity.IPv4
import Sponge.Proofs.Datagram
import Sponge.Lib.Table
import Sponge.Spec.Ethernet
import Sponge.Spec.NetworkInterface
import Sponge.Lib.OrderedSet
import Sponge.Spec.Router
import Sponge.Sanity.NetworkInterface
import Sponge.Sanity.RouteTable
import Sponge.Sanity.Router
import Sponge.Proofs.Forwarding
import Sponge.Proofs.RoutePrefix
import Sponge.Proofs.RouterSafety
import Sponge.Proofs.Unwrap
import Sponge.Proofs.FillWindow
import Sponge.Proofs.RetxTimer
import Sponge.Proofs.RepeatedAck
import Sponge.Sanity.Returns
import Sponge.Proofs.AckDiscipline
import Sponge.Sanity.Ethernet
import Sponge.Spec.InterfaceRun
import Sponge.Lib.Aging
import Sponge.Lib.Mail
import Sponge.Sanity.InterfaceRun
import Sponge.Sanity.InterfaceMail
import Sponge.Proofs.ArpTimers
import Sponge.Proofs.ArpQueue
import Sponge.Spec.TCPOverIPv4
import Sponge.Proofs.Encapsulation
import Sponge.Proofs.Isolation
import Sponge.Proofs.Checksum
import Sponge.Sanity.Segment
import Sponge.Proofs.SegmentParse
import Sponge.Proofs.Codec
import Sponge.Proofs.Transparent
import Sponge.Proofs.MergeString
import Sponge.Proofs.GiveUp
import Sponge.Lib.Outcome
import Sponge.Proofs.Adapters
import Sponge.Proofs.SocketSafety
import Sponge.Proofs.SocketStream
import Sponge.Spec.Lab7
import Sponge.Proofs.RouterCarriage
import Sponge.Proofs.Lab7
import Sponge.Spec.Recovery
import Sponge.Proofs.Recovery
import Sponge.Spec.Internet
import Sponge.Proofs.Neighbours
import Sponge.Proofs.Internet
import Sponge.Proofs.Parting
