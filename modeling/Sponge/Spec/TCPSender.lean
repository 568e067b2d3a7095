import Sponge.Spec.TCPSegment

/-! The sender of `libsponge/tcp_sender.cc` and its retransmission timer. The
sequence numbers and counts of segments are natural numbers; the timer's
arithmetic is modulo 2^64. -/

namespace Sponge

def maxPayloadSize : ℕ := 1000

structure Timer where
  initRTO : ℕ
  curRTO : ℕ
  elapsedTime : ℕ
  running : Bool
  deriving DecidableEq, Repr

namespace Timer

def new (rto : ℕ) : Timer := ⟨rto, rto, 0, false⟩

def start (t : Timer) : Timer := { t with elapsedTime := 0, running := true }

def stop (t : Timer) : Timer := { t with running := false }

def reset (t : Timer) : Timer := { t with curRTO := t.initRTO }

def resetDouble (t : Timer) : Timer := { t with curRTO := t.curRTO * 2 % 2 ^ 64 }

def tick (t : Timer) (ms : ℕ) : Timer :=
  if t.running then { t with elapsedTime := uadd t.elapsedTime ms } else t

def checkExpired (t : Timer) : Bool := t.running && decide (t.curRTO ≤ t.elapsedTime)

end Timer

structure TCPSender where
  isn : WrappingInt32
  segmentsOut : List TCPSegment
  stream : ByteStream
  nextSeqno : ℕ
  recvAckno : ℕ
  setSyn : Bool
  setFin : Bool
  timer : Timer
  consecutiveRetransmissions : ℕ
  windowSize : ℕ
  bytesInFlight : ℕ
  segmentsUnackno : List TCPSegment
  deriving DecidableEq

namespace TCPSender

def new (capacity retxTimeout : ℕ) (isn : WrappingInt32) : TCPSender where
  isn := isn
  segmentsOut := []
  stream := ByteStream.new capacity
  nextSeqno := 0
  recvAckno := 0
  setSyn := false
  setFin := false
  timer := Timer.new retxTimeout
  consecutiveRetransmissions := 0
  windowSize := 1
  bytesInFlight := 0
  segmentsUnackno := []

/-- The segment is filled from the flags and the stream, and queued unless it is
empty; the flag says whether it was. `_set_syn` is set before the first return. -/
def pushSegment (s : TCPSender) (length : ℕ) : TCPSender × Bool :=
  let syn := !s.setSyn
  let s := { s with setSyn := true }
  if length < syn.toNat then (s, false)
  else
    let payloadSize := min maxPayloadSize (min (length - syn.toNat) s.stream.bufferSize)
    let (stream, payload) := s.stream.read payloadSize
    let segment : TCPSegment := { header := { syn := syn }, payload := payload }
    let fin := !s.setFin && stream.eof && decide (segment.lengthInSequenceSpace < length)
    let segment := { segment with header := { segment.header with fin := fin } }
    let s := { s with stream := stream, setFin := s.setFin || fin }
    if segment.lengthInSequenceSpace ≤ 0 then (s, false)
    else
      let segment := { segment with header := { segment.header with seqno := wrap s.nextSeqno s.isn } }
      ({ s with
          segmentsOut := s.segmentsOut ++ [segment]
          timer := if !s.timer.running then s.timer.start else s.timer
          segmentsUnackno := s.segmentsUnackno ++ [segment]
          nextSeqno := s.nextSeqno + segment.lengthInSequenceSpace
          bytesInFlight := s.bytesInFlight + segment.lengthInSequenceSpace },
        true)

/-- A loop of `fill_window`: `size` is the room computed at its head, or none
where the loop returns. -/
def fillLoop (size : TCPSender → Option ℕ) : ℕ → TCPSender → TCPSender
  | 0, s => s
  | fuel + 1, s =>
    match size s with
    | none => s
    | some length =>
      match s.pushSegment length with
      | (s, false) => s
      | (s, true) => fillLoop size fuel s

def zeroWindowRoom (s : TCPSender) : Option ℕ :=
  if s.bytesInFlight = 0 then some 1 else none

def windowRoom (s : TCPSender) : Option ℕ :=
  some (if s.bytesInFlight < s.windowSize then s.windowSize - s.bytesInFlight else 0)

/-- What is left to send: each segment pushed takes some of it. -/
def unsent (s : TCPSender) : ℕ :=
  (!s.setSyn).toNat + s.stream.bufferSize + (!s.setFin).toNat

def fillWindow (s : TCPSender) : TCPSender :=
  if s.windowSize = 0 then fillLoop zeroWindowRoom (s.unsent + 1) s
  else fillLoop windowRoom (s.unsent + 1) s

/-- The loop over the outstanding segments: those the acknowledgment covers go. -/
def popAcked (isn : WrappingInt32) (nextSeqno recvAckno : ℕ) :
    List TCPSegment → ℕ → Bool → List TCPSegment × ℕ × Bool
  | [], bytesInFlight, updated => ([], bytesInFlight, updated)
  | g :: rest, bytesInFlight, updated =>
    if uadd (unwrap g.header.seqno isn nextSeqno) g.lengthInSequenceSpace ≤ recvAckno then
      popAcked isn nextSeqno recvAckno rest (bytesInFlight - g.lengthInSequenceSpace) true
    else (g :: rest, bytesInFlight, updated)

/-- An acknowledgment up to its last line: none when it is not accepted. -/
def acceptAck (s : TCPSender) (ackno : WrappingInt32) (windowSize : UInt16) : Option TCPSender :=
  let absAckno := unwrap ackno s.isn s.recvAckno
  if s.nextSeqno < absAckno ∨ absAckno < s.recvAckno then none
  else
    let (queue, bytesInFlight, updated) :=
      popAcked s.isn s.nextSeqno absAckno s.segmentsUnackno s.bytesInFlight false
    let timer := if updated then s.timer.reset.start else s.timer
    some { s with
      recvAckno := absAckno
      segmentsUnackno := queue
      bytesInFlight := bytesInFlight
      consecutiveRetransmissions := if updated then 0 else s.consecutiveRetransmissions
      timer := if queue.isEmpty then timer.stop else timer
      windowSize := windowSize.toNat }

def ackReceived (s : TCPSender) (ackno : WrappingInt32) (windowSize : UInt16) : TCPSender :=
  match s.acceptAck ackno windowSize with
  | none => s
  | some s => s.fillWindow

def tick (s : TCPSender) (ms : ℕ) : TCPSender :=
  let s := { s with timer := s.timer.tick ms }
  match s.segmentsUnackno, s.timer.checkExpired with
  | g :: _, true =>
    { s with
      segmentsOut := s.segmentsOut ++ [g]
      consecutiveRetransmissions :=
        if 0 < s.windowSize then s.consecutiveRetransmissions + 1 else s.consecutiveRetransmissions
      timer := (if 0 < s.windowSize then s.timer.resetDouble else s.timer).start }
  | _, _ => s

def sendEmptySegment (s : TCPSender) : TCPSender :=
  { s with segmentsOut := s.segmentsOut ++ [{ header := { seqno := wrap s.nextSeqno s.isn } }] }

/-- The overload with flags. It counts the sequence numbers of its flags as sent
but does not keep the segment for retransmission. -/
def sendEmptySegmentWith (s : TCPSender) (syn fin rst : Bool) : TCPSender :=
  let segment : TCPSegment :=
    { header := { seqno := wrap s.nextSeqno s.isn, syn := syn, fin := fin, rst := rst } }
  { s with
    setSyn := s.setSyn || syn
    setFin := s.setFin || fin
    nextSeqno := s.nextSeqno + segment.lengthInSequenceSpace
    segmentsOut := s.segmentsOut ++ [segment] }

end TCPSender

end Sponge
