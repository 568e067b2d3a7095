import Sponge.Sanity.Ethernet
import Sponge.Sanity.Wire

/-! Round trips of the wire formats: IPv4 datagrams, ARP messages and Ethernet frames. -/

namespace Sponge

/-- `d₀` is the object that reads; what it held does not matter. -/
theorem datagram_round_trip (d d₀ : IPv4Datagram) (hver : d.header.ver = 4)
    (hshort : 5 ≤ d.header.hlen.toNat) (hlong : d.header.hlen.toNat ≤ 15)
    (hoffset : d.header.offset.toNat < 2 ^ 13)
    (hlen : d.header.len.toNat = 4 * d.header.hlen.toNat + d.payload.size) :
    ∃ l, d.serialize = .ok l ∧
      (d₀.parse l.concatenate).1 = .noError ∧
      { (d₀.parse l.concatenate).2.header with cksum := d.header.cksum } = d.header ∧
      (d₀.parse l.concatenate).2.payload.concatenate = d.payload.concatenate ∧
      (d₀.header.parse { buffer := l.concatenate }).1 = .noError := by
  have hw : d.header.Writable := ⟨hver, hshort, hlong, hoffset⟩
  have hsize : d.payload.concatenate.length = d.payload.size := List.length_flatten
  have hheader := d₀.header.parse_bytes hw d.payload.concatenate (by rw [hsize, hlen])
  refine ⟨_, IPv4Datagram.serialize_eq hw hlen, ?_⟩
  rw [IPv4Datagram.parse_bytes d₀ hw hlen]
  refine ⟨rfl, rfl, ?_, ?_⟩
  · exact List.append_nil _
  · exact congrArg Prod.fst hheader

/-- Two words of options, a fragment offset, and a payload in two buffers. -/
theorem datagram_round_trip_options :
    let d : IPv4Datagram :=
      { header := { hlen := 7, len := 31, tos := 3, id := 9, df := false, mf := true,
                    offset := 0x1fff, cksum := 77, src := 0x0a000001, dst := 0xffffffff }
        payload := [[1, 2], [3]] }
    ∃ l, d.serialize = .ok l ∧ (({} : IPv4Datagram).parse l.concatenate).1 = .noError := by
  intro d
  obtain ⟨l, hl, hparse, -⟩ := datagram_round_trip d {} rfl (by decide) (by decide) (by decide) rfl
  exact ⟨l, hl, hparse⟩

/-- The first part is about any bytes, `m` being the object that reads them. -/
theorem arp_codec :
    (∀ (m : ARPMessage) (b : Buffer),
      ((m.parse b).1 = .noError ↔ 28 ≤ b.length ∧
        (b.take 8 = [0, 1, 8, 0, 6, 4, 0, 1] ∨ b.take 8 = [0, 1, 8, 0, 6, 4, 0, 2])) ∧
      ((m.parse b).1 = .noError → (m.parse b).2.serialize = .ok (b.take 28))) ∧
    (∀ m m' : ARPMessage, m'.supported = true →
      ∃ b, m'.serialize = .ok b ∧ ∀ padding, m.parse (b ++ padding) = (.noError, m')) := by
  constructor
  · intro m b
    by_cases hlen : 28 ≤ b.length
    · obtain ⟨m', rest, rfl⟩ := ARPMessage.exists_bytes hlen
      have htypes : (m'.bytes ++ rest).take 8 = m'.types := by
        rw [ARPMessage.bytes, List.append_assoc, List.take_left' m'.length_types]
      have hall : (m'.bytes ++ rest).take 28 = m'.bytes := List.take_left' m'.length_bytes
      obtain ⟨hyes, hno⟩ := ARPMessage.parse_bytes m m' rest
      rw [htypes, hall, ← ARPMessage.supported_iff]
      by_cases hs : m'.supported = true
      · rw [hyes hs]
        exact ⟨⟨fun _ => ⟨hlen, hs⟩, fun _ => rfl⟩, fun _ => m'.serialize_eq hs⟩
      · have hunsupported := hno (by simpa using hs)
        exact ⟨by simp [hunsupported, hs], fun h => by simp [hunsupported] at h⟩
    · rw [ARPMessage.parse_short m (by omega)]
      exact ⟨by simp [hlen], fun h => by simp at h⟩
  · intro m m' hs
    exact ⟨m'.bytes, m'.serialize_eq hs, fun padding => (ARPMessage.parse_bytes m m' padding).1 hs⟩

namespace EthernetFrame

theorem parse_short (f : EthernetFrame) {b : Buffer} (h : b.length < 14) :
    f.parse b = (.noError, { f with payload := [b] }) := by
  have hshort := f.header.parse_short (show (NetParser.mk b .noError).buffer.length < 14 from h)
  simp only [parse, hshort]

theorem parse_serialize (f : EthernetFrame) (h : EthernetHeader) (rest : Buffer) :
    f.parse (h.serialize ++ rest) = (.noError, { header := h, payload := [rest] }) := by
  simp only [parse, EthernetHeader.parse_serialize]

/-- A frame shorter than a header is accepted with the header left as it was, so that it is
written with one. -/
theorem frame_codec_iff (b : Buffer) (f f₀ : EthernetFrame) :
    ((((({} : EthernetFrame).parse b).1 = .noError ↔ 14 ≤ b.length) ∧
      ((({} : EthernetFrame).parse b).1 = .noError →
        (({} : EthernetFrame).parse b).2.serialize.concatenate = b)) ↔ 14 ≤ b.length) ∧
    (f₀.parse f.serialize.concatenate).1 = .noError ∧
    (f₀.parse f.serialize.concatenate).2.header = f.header ∧
    (f₀.parse f.serialize.concatenate).2.payload.concatenate = f.payload.concatenate := by
  constructor
  · by_cases hlen : 14 ≤ b.length
    · obtain ⟨h, rest, rfl⟩ := EthernetHeader.exists_serialize hlen
      rw [parse_serialize]
      refine ⟨fun _ => hlen, fun _ => ⟨⟨fun _ => hlen, fun _ => rfl⟩, fun _ => ?_⟩⟩
      exact congrArg (h.serialize ++ ·) (List.append_nil rest)
    · rw [parse_short {} (by omega)]
      simp [hlen]
  · have hwhole : f.serialize.concatenate = f.header.serialize ++ f.payload.concatenate := rfl
    rw [hwhole, parse_serialize]
    exact ⟨rfl, rfl, List.append_nil _⟩

/-- The empty string is accepted, and written as fourteen zeros. -/
theorem empty_frame_accepted :
    (({} : EthernetFrame).parse []).1 = .noError ∧ ¬14 ≤ ([] : Buffer).length ∧
      (({} : EthernetFrame).parse []).2.serialize.concatenate = List.replicate 14 0 := by
  decide

end EthernetFrame

end Sponge
