import Sponge.Spec.Parser

/-! The IPv4 header and datagram of `libsponge/tcp_helpers`. -/

namespace Sponge

structure IPv4Header where
  ver : UInt8 := 4
  hlen : UInt8 := 20 / 4
  tos : UInt8 := 0
  len : UInt16 := 0
  id : UInt16 := 0
  df : Bool := true
  mf : Bool := false
  offset : UInt16 := 0
  ttl : UInt8 := 128
  proto : UInt8 := 6
  cksum : UInt16 := 0
  src : UInt32 := 0
  dst : UInt32 := 0
  deriving DecidableEq, Repr

namespace IPv4Header

def LENGTH : ℕ := 20

/-- The fields in the order `parse` reads them. -/
def readFields (h : IPv4Header) : StateM NetParser IPv4Header := do
  let firstByte ← NetParser.u8
  let tos ← NetParser.u8
  let len ← NetParser.u16
  let id ← NetParser.u16
  let foVal ← NetParser.u16
  let ttl ← NetParser.u8
  let proto ← NetParser.u8
  let cksum ← NetParser.u16
  let src ← NetParser.u32
  let dst ← NetParser.u32
  return { h with
    ver := firstByte >>> 4, hlen := firstByte &&& 0x0f, tos, len, id
    df := foVal &&& 0x4000 != 0, mf := foVal &&& 0x2000 != 0, offset := foVal &&& 0x1fff
    ttl, proto, cksum, src, dst }

/-- A header that is too short leaves the fields and the parser as they were; the
later refusals leave the fields read and the parser past them. -/
def parse (h : IPv4Header) (p : NetParser) : ParseResult × IPv4Header × NetParser :=
  let original := p.buffer
  if original.length < LENGTH then (.packetTooShort, h, p)
  else
    let (h, p) := h.readFields p
    if original.length < 4 * h.hlen.toNat then (.packetTooShort, h, p)
    else if h.ver ≠ 4 then (.wrongIPVersion, h, p)
    else if h.hlen < 5 then (.headerTooShort, h, p)
    else if original.length ≠ h.len.toNat then (.truncatedPacket, h, p)
    else
      let ((), p) := NetParser.removePrefix (h.hlen.toNat * 4 - LENGTH) p
      if p.error ≠ .noError then (p.error, h, p)
      else
        let check := ({} : InternetChecksum).add (original.take (4 * h.hlen.toNat))
        if check.value ≠ 0 then (.badChecksum, h, p) else (.noError, h, p)

/-- The flags and the fragment offset in one field. -/
def foVal (h : IPv4Header) : UInt16 :=
  (if h.df then 0x4000 else 0) ||| (if h.mf then 0x2000 else 0) ||| (h.offset &&& 0x1fff)

/-- `std::string::resize`. -/
def resize (s : Buffer) (n : ℕ) : Buffer := s.take n ++ List.replicate (n - s.length) 0

def serialize (h : IPv4Header) : Except Thrown Buffer :=
  if h.ver ≠ 4 then .error (.runtimeError "wrong IP version")
  else if 4 * h.hlen.toNat < LENGTH then .error (.runtimeError "IP header too short")
  else .ok <| resize (
    NetUnparser.u8 ((h.ver <<< 4) ||| (h.hlen &&& 0xf)) ++ NetUnparser.u8 h.tos ++
    NetUnparser.u16 h.len ++ NetUnparser.u16 h.id ++ NetUnparser.u16 h.foVal ++
    NetUnparser.u8 h.ttl ++ NetUnparser.u8 h.proto ++ NetUnparser.u16 h.cksum ++
    NetUnparser.u32 h.src ++ NetUnparser.u32 h.dst) (4 * h.hlen.toNat)

/-- A 16-bit difference: a total length below the header length wraps around. -/
def payloadLength (h : IPv4Header) : UInt16 := h.len - 4 * h.hlen.toUInt16

end IPv4Header

structure IPv4Datagram where
  header : IPv4Header := {}
  payload : BufferList := []
  deriving DecidableEq, Repr

namespace IPv4Datagram

/-- What the header's parser returns is dropped: only the parser's own error and the
payload's size decide. -/
def parse (d : IPv4Datagram) (buffer : Buffer) : ParseResult × IPv4Datagram :=
  let (_, header, p) := d.header.parse { buffer }
  let d := { header, payload := [p.buffer] : IPv4Datagram }
  if d.payload.size ≠ d.header.payloadLength.toNat then (.packetTooShort, d)
  else (p.error, d)

def serialize (d : IPv4Datagram) : Except Thrown BufferList :=
  if d.payload.size ≠ d.header.payloadLength.toNat then
    .error (.runtimeError "IPv4Datagram::serialize: payload is wrong size")
  else do
    let zero ← { d.header with cksum := 0 }.serialize
    let cksum := (({} : InternetChecksum).add zero).value
    let header ← { d.header with cksum }.serialize
    return header :: d.payload

end IPv4Datagram

end Sponge
