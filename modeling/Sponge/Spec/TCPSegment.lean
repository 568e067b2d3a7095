import Sponge.Spec.ByteStream
import Sponge.Spec.WrappingIntegers

/-! The TCP header and segment of `libsponge/tcp_helpers`, with the defaults the
header's fields are declared with. -/

namespace Sponge

structure TCPHeader where
  sport : UInt16 := 0
  dport : UInt16 := 0
  seqno : WrappingInt32 := ⟨0⟩
  ackno : WrappingInt32 := ⟨0⟩
  doff : UInt8 := 20 / 4
  urg : Bool := false
  ack : Bool := false
  psh : Bool := false
  rst : Bool := false
  syn : Bool := false
  fin : Bool := false
  win : UInt16 := 0
  cksum : UInt16 := 0
  uptr : UInt16 := 0
  deriving DecidableEq, Repr

structure TCPSegment where
  header : TCPHeader := {}
  payload : List Byte := []
  deriving DecidableEq, Repr

def TCPSegment.lengthInSequenceSpace (g : TCPSegment) : ℕ :=
  g.payload.length + g.header.syn.toNat + g.header.fin.toNat

end Sponge
