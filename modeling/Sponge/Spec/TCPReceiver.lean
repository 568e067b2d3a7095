import Sponge.Spec.StreamReassembler
import Sponge.Spec.TCPSegment

/-! The receiver of `libsponge/tcp_receiver.cc`. -/

namespace Sponge

structure TCPReceiver where
  reassembler : StreamReassembler
  capacity : ℕ
  setSyn : Bool
  setFin : Bool
  isn : WrappingInt32
  deriving DecidableEq

namespace TCPReceiver

def new (capacity : ℕ) : TCPReceiver :=
  ⟨StreamReassembler.new capacity, capacity, false, false, ⟨0⟩⟩

def streamOut (r : TCPReceiver) : ByteStream := r.reassembler.output

/-- The payload goes to the reassembler at `abs_seqno + (syn ? 0 : -1)`, a 64-bit
sum. -/
def assemble (r : TCPReceiver) (g : TCPSegment) : Except Fault TCPReceiver := do
  let checkpoint := uadd r.streamOut.bytesWritten 1
  let absSeqno := unwrap g.header.seqno r.isn checkpoint
  let streamIndex := if g.header.syn then absSeqno else uadd absSeqno (2 ^ 64 - 1)
  let (reassembler, _) ←
    r.reassembler.pushSubstring .wrap g.payload streamIndex g.header.fin
  .ok { r with reassembler := reassembler, setFin := r.setFin || g.header.fin }

def segmentReceived (r : TCPReceiver) (g : TCPSegment) : Except Fault TCPReceiver :=
  if r.setSyn then r.assemble g
  else if g.header.syn then
    { r with setSyn := true, isn := g.header.seqno }.assemble g
  else .ok r

def ackno (r : TCPReceiver) : Option WrappingInt32 :=
  if r.setSyn then
    let unassembledIndex := r.streamOut.bytesWritten + 1
    if r.streamOut.inputEnded then some (wrap (unassembledIndex + 1) r.isn)
    else some (wrap unassembledIndex r.isn)
  else none

def windowSize (r : TCPReceiver) : ℕ := r.capacity - r.streamOut.bufferSize

/-- The owner reads from `stream_out()`. -/
def withOutput (r : TCPReceiver) (output : ByteStream) : TCPReceiver :=
  { r with reassembler := { r.reassembler with output := output } }

end TCPReceiver

end Sponge
