import Sponge.Spec.TCPWire

/-! The adapter of `libsponge/tcp_helpers/tcp_over_ip.cc`, which carries the segments of
one connection in IPv4 datagrams. An `Address` is the number and port that libc makes of
it and back. -/

namespace Sponge

structure Address where
  ipv4Numeric : UInt32
  port : UInt16
  deriving DecidableEq, Repr

/-- The source and destination of a connection, `{"0", 0}` each unless set. -/
structure FdAdapterConfig where
  source : Address := ⟨0, 0⟩
  destination : Address := ⟨0, 0⟩
  deriving DecidableEq, Repr

def IPv4Header.PROTO_TCP : UInt8 := 6

structure TCPOverIPv4Adapter where
  config : FdAdapterConfig := {}
  listening : Bool := false
  deriving DecidableEq, Repr

namespace TCPOverIPv4Adapter

/-- The last check of `unwrap_tcp_in_ip`: is the segment from our peer? -/
def fromPeer (a : TCPOverIPv4Adapter) (seg : TCPSegment) : Option TCPSegment :=
  if seg.header.sport ≠ a.config.destination.port then none else some seg

/-- The adapter takes the peer, and the address it was called by, from a datagram. -/
def accept (a : TCPOverIPv4Adapter) (ipDgram : IPv4Datagram) (seg : TCPSegment) :
    TCPOverIPv4Adapter where
  config := {
    source := ⟨ipDgram.header.dst, a.config.source.port⟩
    destination := ⟨ipDgram.header.src, seg.header.sport⟩ }
  listening := false

/-- A payload in several buffers throws where it is made into one. -/
def unwrapTcpInIp (a : TCPOverIPv4Adapter) (ipDgram : IPv4Datagram) :
    Except Thrown (Option TCPSegment × TCPOverIPv4Adapter) :=
  if !a.listening ∧ ipDgram.header.dst ≠ a.config.source.ipv4Numeric then .ok (none, a)
  else if !a.listening ∧ ipDgram.header.src ≠ a.config.destination.ipv4Numeric then .ok (none, a)
  else if ipDgram.header.proto ≠ IPv4Header.PROTO_TCP then .ok (none, a)
  else do
    let (result, tcpSeg) :=
      ({} : TCPSegment).parse (← ipDgram.payload.toBuffer) ipDgram.header.pseudoCksum
    if result ≠ .noError then return (none, a)
    else if tcpSeg.header.dport ≠ a.config.source.port then return (none, a)
    else if a.listening then
      if tcpSeg.header.syn ∧ !tcpSeg.header.rst then
        let a := a.accept ipDgram tcpSeg
        return (a.fromPeer tcpSeg, a)
      else return (none, a)
    else return (a.fromPeer tcpSeg, a)

/-- The datagram for a segment, and the segment with its port numbers set. -/
def wrapTcpInIp (a : TCPOverIPv4Adapter) (seg : TCPSegment) :
    Except Thrown (IPv4Datagram × TCPSegment) := do
  let seg := { seg with header := { seg.header with
    sport := a.config.source.port
    dport := a.config.destination.port } }
  let header : IPv4Header := {
    src := a.config.source.ipv4Numeric
    dst := a.config.destination.ipv4Numeric }
  let header := { header with
    len := .ofNat (header.hlen.toNat * 4 + seg.header.doff.toNat * 4 + seg.payload.length) }
  let payload ← seg.serialize header.pseudoCksum
  return ({ header, payload }, seg)

end TCPOverIPv4Adapter

/-- An adapter in use, with what it has returned and the datagram each came from. -/
structure AdapterRun where
  adapter : TCPOverIPv4Adapter
  returned : List (IPv4Datagram × TCPSegment)

namespace AdapterRun

/-- A call that throws returns nothing and has changed nothing. -/
def step (r : AdapterRun) (ipDgram : IPv4Datagram) : AdapterRun :=
  match r.adapter.unwrapTcpInIp ipDgram with
  | .ok (some seg, adapter) => ⟨adapter, r.returned ++ [(ipDgram, seg)]⟩
  | .ok (none, adapter) => { r with adapter }
  | .error _ => r

def run (r : AdapterRun) (ipDgrams : List IPv4Datagram) : AdapterRun := ipDgrams.foldl step r

end AdapterRun

end Sponge
