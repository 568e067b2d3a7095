import Sponge.Spec.Adapters
import Sponge.Spec.EventLoop
import Sponge.Spec.Network

/-! The socket of `libsponge/tcp_helpers/tcp_sponge_socket.cc`: a TCP connection between an
adapter and the pipe to the owner, served by an event loop of four rules. -/

namespace Sponge

open EventLoop

def TCPReceiverStateSummary.toString : TCPReceiverStateSummary → String
  | .error => "error (connection was reset)"
  | .listen => "waiting for SYN: ackno is empty"
  | .synRecv => "SYN received (ackno exists), and input to stream hasn't ended"
  | .finRecv => "input to stream has ended"

def TCPSenderStateSummary.toString : TCPSenderStateSummary → String
  | .error => "error (connection was reset)"
  | .closed => "waiting for stream to begin (no SYN sent)"
  | .synSent => "stream started but nothing acknowledged"
  | .synAcked => "stream ongoing"
  | .finSent => "stream finished (FIN sent) but not fully acknowledged"
  | .finAcked => "stream finished and fully acknowledged"

def TCPState.name (s : TCPState) : String :=
  "sender=`" ++ s.sender.toString ++ "`, receiver=`" ++ s.receiver.toString ++ "`, active=" ++
    (if s.active then "1" else "0") ++ ", linger_after_streams_finish=" ++
    (if s.lingerAfterStreamsFinish then "1" else "0")

/-- A socket whose connection is set up, with the bytes that have come from its owner and those
that have gone to it. -/
structure TCPSpongeSocket (α : Type) where
  threadData : FDWrapper := {}
  datagramAdapter : α
  tcp : TCPConnection
  inboundShutdown : Bool := false
  outboundShutdown : Bool := false
  fullyAcked : Bool := false
  fromOwner : List Byte := []
  toOwner : List Byte := []

/-- What a callback meets in its surroundings: the datagram that has come, the bytes in the pipe,
how many the pipe takes, whether it can be shut down, and what each call on the adapter needs. -/
structure Surroundings (ω δ : Type) where
  datagram : Option ω := none
  bytes : Option Buffer := none
  taken : Option ℕ := none
  shutdown : Option Unit := some ()
  adapter : ℕ → δ

inductive SocketRule where
  | readDatagram
  | readOwner
  | writeOwner
  | sendSegments
  deriving DecidableEq, Repr

namespace TCPSpongeSocket

variable {α ω δ : Type} [FdAdapter α ω δ]

def inbound (s : TCPSpongeSocket α) : ByteStream := s.tcp.receiver.streamOut

def remainingOutboundCapacity (s : TCPSpongeSocket α) : ℕ := s.tcp.sender.stream.remainingCapacity

/-- A fault in the connection is the exception of a substring out of range. -/
def segmentReceived (s : TCPSpongeSocket α) (seg : TCPSegment) :
    Except Raised (TCPSpongeSocket α) := do
  let tcp ← (s.tcp.segmentReceived seg).mapError fun _ => .thrown .outOfRange
  .ok { s with tcp }

def readDatagram (k : Surroundings ω δ) (s : TCPSpongeSocket α) :
    Except Raised (TCPSpongeSocket α) := do
  let (seg, datagramAdapter) ← FdAdapter.read s.datagramAdapter (k.adapter 0) k.datagram
  let s := { s with datagramAdapter }
  let s ← match seg with
    | some seg => s.segmentReceived seg
    | none => .ok s
  .ok (if s.threadData.eof ∧ s.tcp.sender.bytesInFlight = 0 ∧ !s.fullyAcked then
    { s with fullyAcked := true } else s)

def endInputStream (s : TCPSpongeSocket α) : TCPSpongeSocket α :=
  { s with tcp := s.tcp.endInputStream, outboundShutdown := true }

def readOwner (k : Surroundings ω δ) (s : TCPSpongeSocket α) :
    Except Raised (TCPSpongeSocket α) := do
  let (data, threadData) ← s.threadData.read s.remainingOutboundCapacity k.bytes
  let (tcp, amountWritten) := s.tcp.write data
  if amountWritten ≠ data.length then
    .error (.thrown (.runtimeError "TCPConnection::write() accepted less than advertised length"))
  else
    let s := { s with threadData, tcp, fromOwner := s.fromOwner ++ data }
    .ok (if s.threadData.eof then s.endInputStream else s)

def writeOwner (k : Surroundings ω δ) (s : TCPSpongeSocket α) :
    Except Raised (TCPSpongeSocket α) := do
  let amountToWrite := min 65536 s.inbound.bufferSize
  let buffer := s.inbound.peekOutput amountToWrite
  let w ← s.threadData.writeSome buffer k.taken
  let inbound := s.inbound.popOutput w.totalBytesWritten
  let s := { s with
    threadData := w.fd
    tcp := { s.tcp with receiver := s.tcp.receiver.withOutput inbound }
    toOwner := s.toOwner ++ w.taken }
  if inbound.eof ∨ inbound.error then do
    let threadData ← s.threadData.shutdownWrite k.shutdown
    .ok { s with threadData, inboundShutdown := true }
  else .ok s

/-- Segments one after the other, from the `n`th call on. -/
def writeSegments (env : ℕ → δ) : ℕ → α → List TCPSegment → Except Raised α
  | _, a, [] => .ok a
  | n, a, seg :: segs => do
    let a ← FdAdapter.write a (env n) seg
    writeSegments env (n + 1) a segs

def sendSegments (k : Surroundings ω δ) (s : TCPSpongeSocket α) :
    Except Raised (TCPSpongeSocket α) := do
  let datagramAdapter ← writeSegments k.adapter 0 s.datagramAdapter s.tcp.segmentsOut
  .ok { s with datagramAdapter, tcp := { s.tcp with segmentsOut := [] } }

def rule : SocketRule → Rule (TCPSpongeSocket α) (Surroundings ω δ)
  | .readDatagram => {
      fd := fun s => FdAdapter.fd s.datagramAdapter
      direction := .In
      callback := readDatagram
      interest := fun s => s.tcp.isActive }
  | .readOwner => {
      fd := fun s => s.threadData
      direction := .In
      callback := readOwner
      interest := fun s =>
        s.tcp.isActive && !s.outboundShutdown && decide (0 < s.remainingOutboundCapacity)
      cancel := endInputStream }
  | .writeOwner => {
      fd := fun s => s.threadData
      direction := .Out
      callback := writeOwner
      interest := fun s =>
        !s.inbound.bufferEmpty || ((s.inbound.eof || s.inbound.error) && !s.inboundShutdown) }
  | .sendSegments => {
      fd := fun s => FdAdapter.fd s.datagramAdapter
      direction := .Out
      callback := sendSegments
      interest := fun s => !s.tcp.segmentsOut.isEmpty }

def rules : List SocketRule := [.readDatagram, .readOwner, .writeOwner, .sendSegments]

end TCPSpongeSocket

/-- The loops of a socket: the one `connect` or `listen_and_accept` waits in, then that of its
thread. -/
inductive SocketPhase where
  | connecting
  | accepting
  | main
  | finished
  deriving DecidableEq, Repr

namespace SocketPhase

/-- The condition of each loop. -/
def condition (state : TCPState) : SocketPhase → Bool
  | .connecting => state = .ofState .synSent
  | .accepting => state = .ofState .listen || state = .ofState .synRcvd || state = .ofState .synSent
  | .main => true
  | .finished => false

def next : SocketPhase → SocketPhase
  | .connecting | .accepting => .main
  | .main | .finished => .finished

end SocketPhase

/-- What one turn of `_tcp_loop` meets: the outcome of `poll`, the flag of the owner that wants
out, and the time since the last turn that looked. -/
structure LoopInput (ω δ : Type) where
  poll : Poll (Surroundings ω δ)
  abort : Bool := false
  elapsed : ℕ := 0
  adapter : δ

structure SocketThread (α : Type) where
  socket : TCPSpongeSocket α
  rules : List SocketRule := TCPSpongeSocket.rules
  phase : SocketPhase

namespace SocketThread

variable {α ω δ : Type} [FdAdapter α ω δ]

/-- `_initialize_TCP`, then `connect`. -/
def connect (adapter : α) (random : WrappingInt32) (cTcp : TCPConfig) (cAd : AdapterConfig) :
    Except Raised (SocketThread α) :=
  let tcp := (TCPConnection.new cTcp random).connect
  if tcp.state ≠ .ofState .synSent then
    .error (.thrown (.runtimeError ("After TCPConnection::connect(), state was " ++
      tcp.state.name ++ " but expected " ++ (TCPState.ofState .synSent).name)))
  else .ok {
    socket := { datagramAdapter := FdAdapter.configure adapter cAd, tcp }
    phase := .connecting }

def listenAndAccept (adapter : α) (random : WrappingInt32) (cTcp : TCPConfig)
    (cAd : AdapterConfig) : SocketThread α where
  socket := {
    datagramAdapter := FdAdapter.setListening (FdAdapter.configure adapter cAd) true
    tcp := TCPConnection.new cTcp random }
  phase := .accepting

/-- Time passes for the connection and the adapter while the connection is active. -/
def tick (s : TCPSpongeSocket α) (input : LoopInput ω δ) : Except Raised (TCPSpongeSocket α) :=
  if s.tcp.isActive then do
    let datagramAdapter ← FdAdapter.tick s.datagramAdapter input.adapter input.elapsed
    .ok { s with tcp := s.tcp.tick input.elapsed, datagramAdapter }
  else .ok s

/-- One turn of the loop the thread is in. A loop that ends is followed by the next. -/
def step (t : SocketThread α) (input : LoopInput ω δ) : Except Raised (SocketThread α) :=
  if t.phase.condition t.socket.tcp.state then do
    let (ret, rules, socket) ← waitNextEvent TCPSpongeSocket.rule input.poll t.rules t.socket
    if ret = .exit ∨ input.abort then .ok { socket, rules, phase := t.phase.next }
    else do
      let socket ← tick socket input
      .ok { socket, rules, phase := t.phase }
  else .ok { t with phase := t.phase.next }

end SocketThread

/-- Two sockets. What one of them reads from its device is a matter of the network. -/
structure SocketPair (α : Type) where
  left : SocketThread α
  right : SocketThread α

namespace SocketPair

variable {α ω δ : Type} [FdAdapter α ω δ]

def step (p : SocketPair α) : Side × LoopInput ω δ → Except Raised (SocketPair α)
  | (.left, input) => do
    let left ← p.left.step input
    .ok { p with left }
  | (.right, input) => do
    let right ← p.right.step input
    .ok { p with right }

end SocketPair

end Sponge
