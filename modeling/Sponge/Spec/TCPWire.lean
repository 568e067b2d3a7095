import Sponge.Spec.IPv4
import Sponge.Spec.TCPSegment

/-! TCP headers and segments on the wire, from `tcp_header.cc` and `tcp_segment.cc` of
`libsponge/tcp_helpers`, and the part of an IPv4 header their checksum covers. -/

namespace Sponge

/-- `BufferList::concatenate`. -/
def BufferList.concatenate (l : BufferList) : Buffer := l.flatten

def IPv4Header.pseudoCksum (h : IPv4Header) : UInt32 :=
  let pcksum : UInt32 := (h.src >>> 16) + (h.src &&& 0xffff)
  let pcksum : UInt32 := pcksum + ((h.dst >>> 16) + (h.dst &&& 0xffff))
  let pcksum := pcksum + h.proto.toUInt32
  pcksum + h.payloadLength.toUInt32

namespace TCPHeader

def LENGTH : ℕ := 20

/-- The fields in the order `parse` reads them. -/
def readFields : StateM NetParser TCPHeader := do
  let sport ← NetParser.u16
  let dport ← NetParser.u16
  let seqno ← NetParser.u32
  let ackno ← NetParser.u32
  let doffByte ← NetParser.u8
  let flB ← NetParser.u8
  let win ← NetParser.u16
  let cksum ← NetParser.u16
  let uptr ← NetParser.u16
  return {
    sport, dport, seqno := ⟨seqno⟩, ackno := ⟨ackno⟩, doff := doffByte >>> 4
    urg := flB &&& 0b00100000 != 0, ack := flB &&& 0b00010000 != 0
    psh := flB &&& 0b00001000 != 0, rst := flB &&& 0b00000100 != 0
    syn := flB &&& 0b00000010 != 0, fin := flB &&& 0b00000001 != 0
    win, cksum, uptr }

/-- Every field is overwritten, so what the header held before does not matter. -/
def parse (p : NetParser) : ParseResult × TCPHeader × NetParser :=
  let (h, p) := readFields p
  if h.doff < 5 then (.headerTooShort, h, p)
  else
    let ((), p) := NetParser.removePrefix (h.doff.toNat * 4 - LENGTH) p
    if p.error ≠ .noError then (p.error, h, p) else (.noError, h, p)

def flB (h : TCPHeader) : UInt8 :=
  (if h.urg then 0b00100000 else 0) ||| (if h.ack then 0b00010000 else 0) |||
  (if h.psh then 0b00001000 else 0) ||| (if h.rst then 0b00000100 else 0) |||
  (if h.syn then 0b00000010 else 0) ||| (if h.fin then 0b00000001 else 0)

def serialize (h : TCPHeader) : Except Thrown Buffer :=
  if h.doff < 5 then .error (.runtimeError "TCP header too short")
  else .ok <| IPv4Header.resize (
    NetUnparser.u16 h.sport ++ NetUnparser.u16 h.dport ++
    NetUnparser.u32 h.seqno.rawValue ++ NetUnparser.u32 h.ackno.rawValue ++
    NetUnparser.u8 (h.doff <<< 4) ++ NetUnparser.u8 h.flB ++ NetUnparser.u16 h.win ++
    NetUnparser.u16 h.cksum ++ NetUnparser.u16 h.uptr) (4 * h.doff.toNat)

end TCPHeader

namespace TCPSegment

/-- A bad checksum leaves the segment alone. What the header's parser returns is dropped:
only the parser's own error decides. -/
def parse (g : TCPSegment) (buffer : Buffer) (datagramLayerChecksum : UInt32) :
    ParseResult × TCPSegment :=
  let check := { sum := datagramLayerChecksum : InternetChecksum }.add buffer
  if check.value ≠ 0 then (.badChecksum, g)
  else
    let (_, header, p) := TCPHeader.parse { buffer }
    (p.error, { header, payload := p.buffer })

def serialize (g : TCPSegment) (datagramLayerChecksum : UInt32) : Except Thrown BufferList := do
  let zero ← { g.header with cksum := 0 }.serialize
  let check := ({ sum := datagramLayerChecksum : InternetChecksum }.add zero).add g.payload
  let header ← { g.header with cksum := check.value }.serialize
  return [header, g.payload]

end TCPSegment

end Sponge
