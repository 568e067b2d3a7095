import Sponge.Spec.TCPSender

/-! A sender in use: its owner writes to the stream, ends it, fills the window,
hands it acknowledgments and time, asks for empty segments and takes segments
from its queue. The run remembers the bytes the stream accepted and every segment
put on the queue. -/

namespace Sponge

/-- The operations on a sender. `sendFlagged rst` is
`send_empty_segment(false, false, rst)`: no caller sets the other two flags. -/
inductive SenderOp where
  | write (data : List Byte)
  | endInput
  | setError
  | fillWindow
  | ackReceived (ackno : WrappingInt32) (windowSize : UInt16)
  | tick (ms : ℕ)
  | sendEmptySegment
  | sendFlagged (rst : Bool)
  | popSegment
  deriving DecidableEq

namespace SenderOp

def run (s : TCPSender) : SenderOp → TCPSender
  | .write data => { s with stream := (s.stream.write data).1 }
  | .endInput => { s with stream := s.stream.endInput }
  | .setError => { s with stream := s.stream.setError }
  | .fillWindow => s.fillWindow
  | .ackReceived ackno windowSize => s.ackReceived ackno windowSize
  | .tick ms => s.tick ms
  | .sendEmptySegment => s.sendEmptySegment
  | .sendFlagged rst => s.sendEmptySegmentWith false false rst
  | .popSegment => { s with segmentsOut := s.segmentsOut.tail }

/-- The bytes the stream takes. -/
def accepts (s : TCPSender) : SenderOp → List Byte
  | .write data => data.take (s.stream.write data).2
  | _ => []

/-- The operation ends in `fill_window`, which alone makes new segments. -/
def fills : SenderOp → Bool
  | .fillWindow => true
  | .ackReceived _ _ => true
  | _ => false

/-- The sender as `fill_window` is entered. -/
def entered (s : TCPSender) : SenderOp → TCPSender
  | .ackReceived ackno windowSize => (s.acceptAck ackno windowSize).getD s
  | _ => s

end SenderOp

/-- A segment sent for the first time, with the window and the sequence numbers in
flight as `fill_window` was entered. -/
structure FirstSend where
  segment : TCPSegment
  window : ℕ
  inFlight : ℕ
  deriving DecidableEq

/-- `others` are the segments queued by anything but `fill_window`, each with the
segments outstanding at that time. -/
structure SenderRun where
  sender : TCPSender
  accepted : List Byte
  first : List FirstSend
  others : List (TCPSegment × List TCPSegment)
  deriving DecidableEq

namespace SenderRun

def new (capacity retxTimeout : ℕ) (isn : WrappingInt32) : SenderRun :=
  ⟨TCPSender.new capacity retxTimeout isn, [], [], []⟩

def step (r : SenderRun) (op : SenderOp) : SenderRun :=
  let s := op.run r.sender
  let queued := s.segmentsOut.drop r.sender.segmentsOut.length
  let entered := op.entered r.sender
  { sender := s
    accepted := r.accepted ++ op.accepts r.sender
    first := r.first ++ if op.fills
      then queued.map fun g => ⟨g, entered.windowSize, entered.bytesInFlight⟩ else []
    others := r.others ++ if op.fills
      then [] else queued.map fun g => (g, r.sender.segmentsUnackno) }

def run (r : SenderRun) (ops : List SenderOp) : SenderRun := ops.foldl step r

/-- The new segments, in the order they were sent. -/
def sent (r : SenderRun) : List TCPSegment := r.first.map FirstSend.segment

end SenderRun

end Sponge
