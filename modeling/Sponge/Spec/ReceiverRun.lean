import Sponge.Lib.Exec
import Sponge.Spec.TCPReceiver

/-! A receiver in use: arbitrary segments arrive, and its owner reads. -/

namespace Sponge

inductive ReceiverOp where
  | segmentReceived (g : TCPSegment)
  | read (len : ℕ)
  deriving DecidableEq

namespace TCPReceiver

def step (r : TCPReceiver) : ReceiverOp → Except Fault TCPReceiver
  | .segmentReceived g => r.segmentReceived g
  | .read len => .ok (r.withOutput (r.streamOut.read len).1)

/-- What a receiver shows of itself: its stream with the bytes assembled and not yet
read, `ackno()`, `window_size()` and `unassembled_bytes()`. -/
def view (r : TCPReceiver) : ByteStream × Option WrappingInt32 × ℕ × ℕ :=
  (r.streamOut, r.ackno, r.windowSize, r.reassembler.unassembledSize)

end TCPReceiver

end Sponge
