import Sponge.Lib.Exec
import Sponge.Spec.TCPConnection

/-! One connection in use, alone: its owner calls it in any order, and the segments
that arrive are arbitrary. What it enqueues stays on its queue, which it never
looks at again. -/

namespace Sponge

inductive ConnectionOp where
  | connect
  | write (data : List Byte)
  | endInputStream
  | tick (ms : ℕ)
  | read (len : ℕ)
  | segmentReceived (g : TCPSegment)
  deriving DecidableEq

def TCPConnection.step (c : TCPConnection) : ConnectionOp → Except Fault TCPConnection
  | .connect => .ok c.connect
  | .write data => .ok (c.write data).1
  | .endInputStream => .ok c.endInputStream
  | .tick ms => .ok (c.tick ms)
  | .read len => .ok (c.readInbound len).1
  | .segmentReceived g => c.segmentReceived g

end Sponge
