import Sponge.Sanity.Wire

/-! A segment comes out of the peer's adapter as it went into the sender's. -/

namespace Sponge

namespace TCPOverIPv4Adapter

/-- A segment with the adapter's ports. -/
def addressed (a : TCPOverIPv4Adapter) (seg : TCPSegment) : TCPSegment :=
  { seg with header := { seg.header with
    sport := a.config.source.port
    dport := a.config.destination.port } }

/-- The header of the datagram that carries a segment. -/
def ipHeader (a : TCPOverIPv4Adapter) (seg : TCPSegment) : IPv4Header where
  src := a.config.source.ipv4Numeric
  dst := a.config.destination.ipv4Numeric
  len := .ofNat ((20 / 4 : UInt8).toNat * 4 + seg.header.doff.toNat * 4 + seg.payload.length)

theorem ipHeader_writable (a : TCPOverIPv4Adapter) (seg : TCPSegment) :
    (a.ipHeader seg).Writable where
  ver := rfl
  short := show 5 ≤ (20 / 4 : UInt8).toNat by decide
  long := show (20 / 4 : UInt8).toNat ≤ 15 by decide
  offset := show (0 : UInt16).toNat < 2 ^ 13 by decide

variable {a b : TCPOverIPv4Adapter} {seg : TCPSegment}

theorem ipHeader_len (hsize : 20 + 4 * seg.header.doff.toNat + seg.payload.length ≤ 65535) :
    (a.ipHeader seg).len.toNat = 20 + (4 * seg.header.doff.toNat + seg.payload.length) := by
  have hfive : (20 / 4 : UInt8).toNat = 5 := rfl
  simp only [ipHeader, UInt16.toNat_ofNat', hfive]
  omega

theorem wrapTcpInIp_eq (hdoff : 5 ≤ seg.header.doff.toNat) :
    a.wrapTcpInIp seg = .ok (⟨a.ipHeader seg, [(a.addressed seg).header.bytes
      ((a.addressed seg).wireCksum (a.ipHeader seg).pseudoCksum), seg.payload]⟩,
      a.addressed seg) := by
  have hserialize := TCPSegment.serialize_eq (g := a.addressed seg) hdoff
    (a.ipHeader seg).pseudoCksum
  unfold wrapTcpInIp
  exact (congrArg (· >>= _) hserialize).trans rfl

/-- What the peer does with a datagram that carries a segment for it. -/
theorem unwrapTcpInIp_eq (hb : b.listening = false)
    (hsource : b.config.source = a.config.destination)
    (hdestination : b.config.destination = a.config.source) {bytes : Buffer} {g : TCPSegment}
    {cksum : UInt16}
    (hparse : ({} : TCPSegment).parse bytes (a.ipHeader seg).pseudoCksum = (.noError, g))
    (hdport : g.header.dport = a.config.destination.port)
    (hsport : g.header.sport = a.config.source.port) :
    b.unwrapTcpInIp ⟨{ a.ipHeader seg with cksum }, [bytes]⟩ = .ok (some g, b) := by
  have hpseudo : IPv4Header.pseudoCksum { a.ipHeader seg with cksum } =
      (a.ipHeader seg).pseudoCksum := rfl
  rw [unwrapTcpInIp, if_neg (by simp [hsource, ipHeader]), if_neg (by simp [hdestination, ipHeader]),
    if_neg (by simp [ipHeader, IPv4Header.PROTO_TCP])]
  simp only [BufferList.toBuffer, ok_bind, hpseudo, hparse, hb, hsource, hdport, ne_eq,
    not_true_eq_false, if_false, Bool.false_eq_true, fromPeer, hdestination, hsport]
  rfl

end TCPOverIPv4Adapter

open TCPOverIPv4Adapter

/-- Through two adapters that are set up as each other's peers, over bytes, into any
datagram object. -/
theorem encapsulation (seg : TCPSegment) (a b : TCPOverIPv4Adapter) (d : IPv4Datagram)
    (hshort : 5 ≤ seg.header.doff.toNat) (hlong : seg.header.doff.toNat ≤ 15)
    (hsize : 20 + 4 * seg.header.doff.toNat + seg.payload.length ≤ 65535)
    (hb : b.listening = false) (hsource : b.config.source = a.config.destination)
    (hdestination : b.config.destination = a.config.source) :
    ∃ dgram sent bytes received g,
      a.wrapTcpInIp seg = .ok (dgram, sent) ∧ dgram.serialize = .ok bytes ∧
      d.parse bytes.concatenate = (.noError, received) ∧
      b.unwrapTcpInIp received = .ok (some g, b) ∧
      { g.header with cksum := seg.header.cksum } = { seg.header with
        sport := a.config.source.port
        dport := a.config.destination.port } ∧
      g.payload = seg.payload := by
  have hwritable := a.ipHeader_writable seg
  have hlen : (a.ipHeader seg).len.toNat = 4 * (a.ipHeader seg).hlen.toNat + BufferList.size
      [(a.addressed seg).header.bytes
        ((a.addressed seg).wireCksum (a.ipHeader seg).pseudoCksum), seg.payload] := by
    have hbytes := TCPHeader.length_bytes (h := (a.addressed seg).header) hshort
      ((a.addressed seg).wireCksum (a.ipHeader seg).pseudoCksum)
    have hsum : BufferList.size [(a.addressed seg).header.bytes
        ((a.addressed seg).wireCksum (a.ipHeader seg).pseudoCksum), seg.payload] =
        4 * seg.header.doff.toNat + seg.payload.length := by
      simp only [BufferList.size, List.map_cons, List.map_nil, List.sum_cons, List.sum_nil, hbytes]
      rfl
    rw [hsum]
    exact ipHeader_len hsize
  have hread := IPv4Datagram.parse_bytes d (d := ⟨a.ipHeader seg, _⟩) hwritable hlen
  have hparse := TCPSegment.parse_bytes {} (g := a.addressed seg) hshort hlong
    (show 4 * seg.header.doff.toNat + seg.payload.length < 2 ^ 16 by omega)
    (a.ipHeader seg).pseudoCksum_lt
  have hpayload : BufferList.concatenate [(a.addressed seg).header.bytes
      ((a.addressed seg).wireCksum (a.ipHeader seg).pseudoCksum), seg.payload] =
      (a.addressed seg).header.bytes
        ((a.addressed seg).wireCksum (a.ipHeader seg).pseudoCksum) ++ (a.addressed seg).payload := by
    simp [BufferList.concatenate, addressed]
  rw [hpayload] at hread
  exact ⟨_, _, _, _, _, wrapTcpInIp_eq hshort, IPv4Datagram.serialize_eq hwritable hlen, hread,
    unwrapTcpInIp_eq hb hsource hdestination hparse rfl rfl, rfl, rfl⟩

/-- A segment with options and an odd payload. -/
theorem encapsulation_options :
    ∃ dgram sent bytes received g,
      TCPOverIPv4Adapter.wrapTcpInIp ⟨⟨⟨1, 2⟩, ⟨3, 4⟩⟩, false⟩
        ⟨{ doff := 7, syn := true, cksum := 9 }, [5, 6, 7]⟩ = .ok (dgram, sent) ∧
      dgram.serialize = .ok bytes ∧
      ({} : IPv4Datagram).parse bytes.concatenate = (.noError, received) ∧
      TCPOverIPv4Adapter.unwrapTcpInIp ⟨⟨⟨3, 4⟩, ⟨1, 2⟩⟩, false⟩ received =
        .ok (some g, ⟨⟨⟨3, 4⟩, ⟨1, 2⟩⟩, false⟩) ∧
      { g.header with cksum := 9 } =
        { sport := 2, dport := 4, doff := 7, syn := true, cksum := 9 : TCPHeader } ∧
      g.payload = [5, 6, 7] :=
  encapsulation ⟨{ doff := 7, syn := true, cksum := 9 }, [5, 6, 7]⟩ ⟨⟨⟨1, 2⟩, ⟨3, 4⟩⟩, false⟩
    ⟨⟨⟨3, 4⟩, ⟨1, 2⟩⟩, false⟩ {} (by decide) (by decide) (by decide) rfl rfl rfl

end Sponge
