import Sponge.Spec.TCPState

/-! One end of a connection, from `libsponge/tcp_connection.cc`: a sender and a
receiver, the queue of segments they fill together, and the decision when to
close. -/

namespace Sponge

def defaultCapacity : UInt64 := 64000

def timeoutDflt : UInt16 := 1000

def maxRetxAttempts : ℕ := 8

structure TCPConfig where
  rtTimeout : UInt16 := timeoutDflt
  recvCapacity : UInt64 := defaultCapacity
  sendCapacity : UInt64 := defaultCapacity
  fixedIsn : Option WrappingInt32 := none
  deriving DecidableEq

structure TCPConnection where
  cfg : TCPConfig
  receiver : TCPReceiver
  sender : TCPSender
  segmentsOut : List TCPSegment
  lingerAfterStreamsFinish : Bool
  timeSinceLastSegmentReceived : ℕ
  isActive : Bool
  deriving DecidableEq

namespace TCPConnection

/-- `random` is the initial sequence number drawn where the configuration fixes none. -/
def new (cfg : TCPConfig) (random : WrappingInt32) : TCPConnection where
  cfg := cfg
  receiver := TCPReceiver.new cfg.recvCapacity.toNat
  sender := TCPSender.new cfg.sendCapacity.toNat cfg.rtTimeout.toNat (cfg.fixedIsn.getD random)
  segmentsOut := []
  lingerAfterStreamsFinish := true
  timeSinceLastSegmentReceived := 0
  isActive := true

/-- `state()`: an inactive connection does not linger. -/
def state (c : TCPConnection) : TCPState where
  sender := c.sender.stateSummary
  receiver := c.receiver.stateSummary
  active := c.isActive
  lingerAfterStreamsFinish := if c.isActive then c.lingerAfterStreamsFinish else false

/-- The receiver's part of an outgoing segment. -/
def assemble (r : TCPReceiver) (g : TCPSegment) : TCPSegment :=
  let header := match r.ackno with
    | some ackno => { g.header with ack := true, ackno := ackno }
    | none => g.header
  { g with header := { header with win := UInt16.ofNat (min 65535 r.windowSize) } }

/-- The loop empties the sender's queue; the receiver does not change in it. -/
def segmentAssembleSend (c : TCPConnection) : TCPConnection :=
  { c with
    segmentsOut := c.segmentsOut ++ c.sender.segmentsOut.map (assemble c.receiver)
    sender := { c.sender with segmentsOut := [] } }

def setShutdown (c : TCPConnection) (isClean : Bool) : TCPConnection :=
  let c := { c with isActive := false }
  if isClean then c
  else
    { c with
      sender := { c.sender with stream := c.sender.stream.setError }
      receiver := c.receiver.withOutput c.receiver.streamOut.setError }

def sendRstSegment (c : TCPConnection) : TCPConnection :=
  { c with sender := c.sender.sendEmptySegmentWith false false true }.segmentAssembleSend

def connect (c : TCPConnection) : TCPConnection :=
  { c with sender := c.sender.fillWindow }.segmentAssembleSend

def write (c : TCPConnection) (data : List Byte) : TCPConnection × ℕ :=
  let (stream, len) := c.sender.stream.write data
  let sender := { c.sender with stream := stream }
  ({ c with sender := sender.fillWindow }.segmentAssembleSend, len)

def endInputStream (c : TCPConnection) : TCPConnection :=
  let sender := { c.sender with stream := c.sender.stream.endInput }
  { c with sender := sender.fillWindow }.segmentAssembleSend

/-- The owner reads from `inbound_stream()`. -/
def readInbound (c : TCPConnection) (len : ℕ) : TCPConnection × List Byte :=
  let (output, bytes) := c.receiver.streamOut.read len
  ({ c with receiver := c.receiver.withOutput output }, bytes)

/-- The peer ended its stream first, so there is no need to linger. -/
def closeWait (c : TCPConnection) : TCPConnection :=
  if c.receiver.stateSummary = .finRecv ∧ c.sender.stateSummary = .synAcked then
    { c with lingerAfterStreamsFinish := false }
  else c

/-- An empty segment one before the expected number asks for a sign of life. -/
def keepAlive (c : TCPConnection) (g : TCPSegment) : TCPConnection :=
  match c.receiver.ackno with
  | some ackno =>
    if g.lengthInSequenceSpace = 0 ∧ g.header.seqno = ackno.sub 1 then
      { c with sender := c.sender.sendEmptySegment }
    else c
  | none => c

/-- A segment that takes up sequence numbers is answered. -/
def answer (c : TCPConnection) (g : TCPSegment) : TCPConnection :=
  if 0 < g.lengthInSequenceSpace ∧ c.sender.segmentsOut = [] then
    let sender := c.sender.fillWindow
    { c with sender := if sender.segmentsOut = [] then sender.sendEmptySegment else sender }
  else c

/-- The sender takes the acknowledgment of a segment that has one. -/
def acknowledge (c : TCPConnection) (g : TCPSegment) : TCPConnection :=
  if g.header.ack then { c with sender := c.sender.ackReceived g.header.ackno g.header.win } else c

/-- A SYN to a sender that has not sent one connects; anything else may need an answer. -/
def respond (c : TCPConnection) (g : TCPSegment) : TCPConnection :=
  if g.header.syn ∧ c.sender.nextSeqno = 0 then c.connect
  else ((c.closeWait.keepAlive g).answer g).segmentAssembleSend

def segmentReceived (c : TCPConnection) (g : TCPSegment) : Except Fault TCPConnection :=
  if !c.isActive then .ok c
  else
    let c := { c with timeSinceLastSegmentReceived := 0 }
    if g.header.rst then .ok (c.setShutdown false)
    else do
      let receiver ← c.receiver.segmentReceived g
      .ok (({ c with receiver := receiver }.acknowledge g).respond g)

/-- Both streams are done, and there is nothing left to wait for. -/
def finish (c : TCPConnection) : TCPConnection :=
  if c.receiver.stateSummary = .finRecv ∧ c.sender.stateSummary = .finAcked then
    if c.lingerAfterStreamsFinish then
      if 10 * c.cfg.rtTimeout.toNat ≤ c.timeSinceLastSegmentReceived then c.setShutdown true else c
    else c.setShutdown true
  else c

def tick (c : TCPConnection) (ms : ℕ) : TCPConnection :=
  let c := { c with
    sender := c.sender.tick ms
    timeSinceLastSegmentReceived := uadd c.timeSinceLastSegmentReceived ms }
  if maxRetxAttempts < c.sender.consecutiveRetransmissions then
    ({ c with sender := { c.sender with segmentsOut := [] } }.setShutdown false).sendRstSegment
  else c.segmentAssembleSend.finish

end TCPConnection

end Sponge
