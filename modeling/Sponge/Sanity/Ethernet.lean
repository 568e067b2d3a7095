import Sponge.Sanity.Parser
import Sponge.Spec.Ethernet

/-! ARP messages and Ethernet headers survive the wire, and every byte string of their length is
that of one. -/

namespace Sponge

namespace ARPMessage

open NetParser

theorem readAddress_unparse (a : EthernetAddress) (rest : Buffer) :
    readAddress ⟨a.toList.flatMap NetUnparser.u8 ++ rest, .noError⟩ = (a, ⟨rest, .noError⟩) := by
  obtain ⟨l, hl⟩ := a
  match l, hl with
  | [b0, b1, b2, b3, b4, b5], _ =>
    simp only [List.Vector.toList, List.flatMap_cons, List.flatMap_nil, List.append_nil,
      List.append_assoc, readAddress]
    rw [bind_run (u8_unparse _ _), bind_run (u8_unparse _ _), bind_run (u8_unparse _ _),
      bind_run (u8_unparse _ _), bind_run (u8_unparse _ _), bind_run (u8_unparse _ _), pure_apply]
    rfl

theorem length_address (a : EthernetAddress) : (a.toList.flatMap NetUnparser.u8).length = 6 := by
  simp

theorem readTypes_unparse (m m' : ARPMessage) (rest : Buffer) :
    m.readTypes ⟨NetUnparser.u16 m'.hardwareType ++ (NetUnparser.u16 m'.protocolType ++
      (NetUnparser.u8 m'.hardwareAddressSize ++ (NetUnparser.u8 m'.protocolAddressSize ++
      (NetUnparser.u16 m'.opcode ++ rest)))), .noError⟩ =
    ({ m with
        hardwareType := m'.hardwareType
        protocolType := m'.protocolType
        hardwareAddressSize := m'.hardwareAddressSize
        protocolAddressSize := m'.protocolAddressSize
        opcode := m'.opcode }, ⟨rest, .noError⟩) := by
  rw [readTypes, bind_run (u16_unparse _ _), bind_run (u16_unparse _ _),
    bind_run (u8_unparse _ _), bind_run (u8_unparse _ _), bind_run (u16_unparse _ _), pure_apply]

theorem readAddresses_unparse (m m' : ARPMessage) (rest : Buffer) :
    m.readAddresses ⟨m'.senderEthernetAddress.toList.flatMap NetUnparser.u8 ++
      (NetUnparser.u32 m'.senderIpAddress ++
      (m'.targetEthernetAddress.toList.flatMap NetUnparser.u8 ++
      (NetUnparser.u32 m'.targetIpAddress ++ rest))), .noError⟩ =
    ({ m with
        senderEthernetAddress := m'.senderEthernetAddress
        senderIpAddress := m'.senderIpAddress
        targetEthernetAddress := m'.targetEthernetAddress
        targetIpAddress := m'.targetIpAddress }, ⟨rest, .noError⟩) := by
  rw [readAddresses, bind_run (readAddress_unparse _ _), bind_run (u32_unparse _ _),
    bind_run (readAddress_unparse _ _), bind_run (u32_unparse _ _), pure_apply]

/-- The bytes before the addresses. -/
def types (m : ARPMessage) : Buffer :=
  NetUnparser.u16 m.hardwareType ++ (NetUnparser.u16 m.protocolType ++
  (NetUnparser.u8 m.hardwareAddressSize ++ (NetUnparser.u8 m.protocolAddressSize ++
  NetUnparser.u16 m.opcode)))

def bytes (m : ARPMessage) : Buffer :=
  m.types ++ (m.senderEthernetAddress.toList.flatMap NetUnparser.u8 ++
  (NetUnparser.u32 m.senderIpAddress ++ (m.targetEthernetAddress.toList.flatMap NetUnparser.u8 ++
  NetUnparser.u32 m.targetIpAddress)))

theorem length_types (m : ARPMessage) : m.types.length = 8 := by
  simp [types]

theorem length_bytes (m : ARPMessage) : m.bytes.length = 28 := by
  simp [bytes, length_types]

theorem serialize_eq (m : ARPMessage) (h : m.supported = true) : m.serialize = .ok m.bytes := by
  rw [serialize, if_neg (by simp [h])]
  simp only [bytes, types, List.append_assoc]

theorem serialize_ok {m : ARPMessage} {b : Buffer} (h : m.serialize = .ok b) :
    m.supported = true ∧ b = m.bytes := by
  by_cases hs : m.supported = true
  · rw [serialize_eq m hs, Except.ok.injEq] at h
    exact ⟨hs, h.symm⟩
  · rw [serialize, if_pos (by simp [hs])] at h
    cases h

theorem parse_short (m : ARPMessage) {b : Buffer} (h : b.length < 28) :
    m.parse b = (.packetTooShort, m) := by
  simp [parse, LENGTH, h]

/-- The addresses are read only when the fields before them are supported. -/
theorem parse_bytes (m m' : ARPMessage) (padding : Buffer) :
    (m'.supported = true → m.parse (m'.bytes ++ padding) = (.noError, m')) ∧
      (m'.supported = false → (m.parse (m'.bytes ++ padding)).1 = .unsupported) := by
  have hlen : ¬(m'.bytes ++ padding).length < LENGTH := by
    rw [List.length_append, length_bytes, LENGTH]
    omega
  have hsupported : supported { m with
      hardwareType := m'.hardwareType
      protocolType := m'.protocolType
      hardwareAddressSize := m'.hardwareAddressSize
      protocolAddressSize := m'.protocolAddressSize
      opcode := m'.opcode } = m'.supported := rfl
  unfold parse
  simp only [if_neg hlen]
  simp only [bytes, types, List.append_assoc, readTypes_unparse, readAddresses_unparse, hsupported]
  constructor
  · intro h
    rw [if_neg (by simp [h])]
  · intro h
    rw [if_pos (by simp [h])]

theorem parse_serialize (m m' : ARPMessage) {b : Buffer} (hb : m'.serialize = .ok b)
    (padding : Buffer) : m.parse (b ++ padding) = (.noError, m') := by
  obtain ⟨hsupported, rfl⟩ := serialize_ok hb
  exact (parse_bytes m m' padding).1 hsupported

theorem exists_address {b : Buffer} (h : 6 ≤ b.length) :
    ∃ (a : EthernetAddress) (rest : Buffer), b = a.toList.flatMap NetUnparser.u8 ++ rest := by
  have hall : ∀ l : Buffer, l.flatMap NetUnparser.u8 = l := by
    intro l
    simp [funext NetUnparser.u8_eq]
  refine ⟨⟨b.take 6, List.length_take_of_le h⟩, b.drop 6, ?_⟩
  rw [List.Vector.toList_mk, hall, List.take_append_drop]

/-- Any 28 bytes are those of some message, supported or not. -/
theorem exists_bytes {b : Buffer} (h : 28 ≤ b.length) : ∃ m rest, b = bytes m ++ rest := by
  obtain ⟨hardwareType, b1, rfl⟩ := NetUnparser.exists_u16 (show 2 ≤ b.length by omega)
  rw [List.length_append, NetUnparser.length_u16] at h
  obtain ⟨protocolType, b2, rfl⟩ := NetUnparser.exists_u16 (show 2 ≤ b1.length by omega)
  rw [List.length_append, NetUnparser.length_u16] at h
  obtain ⟨hardwareAddressSize, b3, rfl⟩ := NetUnparser.exists_u8 (show 1 ≤ b2.length by omega)
  rw [List.length_append, NetUnparser.length_u8] at h
  obtain ⟨protocolAddressSize, b4, rfl⟩ := NetUnparser.exists_u8 (show 1 ≤ b3.length by omega)
  rw [List.length_append, NetUnparser.length_u8] at h
  obtain ⟨opcode, b5, rfl⟩ := NetUnparser.exists_u16 (show 2 ≤ b4.length by omega)
  rw [List.length_append, NetUnparser.length_u16] at h
  obtain ⟨senderEthernetAddress, b6, rfl⟩ := exists_address (show 6 ≤ b5.length by omega)
  rw [List.length_append, length_address] at h
  obtain ⟨senderIpAddress, b7, rfl⟩ := NetUnparser.exists_u32 (show 4 ≤ b6.length by omega)
  rw [List.length_append, NetUnparser.length_u32] at h
  obtain ⟨targetEthernetAddress, b8, rfl⟩ := exists_address (show 6 ≤ b7.length by omega)
  rw [List.length_append, length_address] at h
  obtain ⟨targetIpAddress, rest, rfl⟩ := NetUnparser.exists_u32 (show 4 ≤ b8.length by omega)
  refine ⟨⟨hardwareType, protocolType, hardwareAddressSize, protocolAddressSize, opcode,
    senderEthernetAddress, senderIpAddress, targetEthernetAddress, targetIpAddress⟩, rest, ?_⟩
  simp only [bytes, types, List.append_assoc]

/-- Ethernet and IPv4, addresses of six and four bytes, then the opcode of a request or of a
reply. -/
theorem supported_iff (m : ARPMessage) : m.supported = true ↔
    m.types = [0, 1, 8, 0, 6, 4, 0, 1] ∨ m.types = [0, 1, 8, 0, 6, 4, 0, 2] := by
  constructor
  · intro h
    simp only [supported, Bool.and_eq_true, Bool.or_eq_true, decide_eq_true_eq] at h
    obtain ⟨⟨⟨⟨h1, h2⟩, h3⟩, h4⟩, h5⟩ := h
    simp only [types, h1, h2, h3, h4]
    rcases h5 with h5 | h5
    · rw [h5]
      exact .inl rfl
    · rw [h5]
      exact .inr rfl
  · -- reading the eight bytes gives the message's fields and those of the list
    intro h
    have hread := readTypes_unparse {} m []
    have hbytes : NetUnparser.u16 m.hardwareType ++ (NetUnparser.u16 m.protocolType ++
        (NetUnparser.u8 m.hardwareAddressSize ++ (NetUnparser.u8 m.protocolAddressSize ++
        (NetUnparser.u16 m.opcode ++ [])))) = m.types := by
      rw [List.append_nil, types]
    rw [hbytes] at hread
    have hsame : ∀ m' : ARPMessage, m'.supported = true →
        ({} : ARPMessage).readTypes ⟨m.types, .noError⟩ = (m', ⟨[], .noError⟩) →
        m.supported = true := by
      intro m' hm' hlist
      have heq := (Prod.mk.inj (hread.symm.trans hlist)).1
      rw [← hm', ← heq]
      rfl
    rcases h with h | h
    · exact hsame { opcode := 1 } rfl (by rw [h]; rfl)
    · exact hsame { opcode := 2 } rfl (by rw [h]; rfl)

end ARPMessage

namespace EthernetHeader

open NetParser

theorem length_serialize (h : EthernetHeader) : h.serialize.length = 14 := by
  simp [serialize]

theorem readFields_serialize (h : EthernetHeader) (rest : Buffer) :
    readFields ⟨h.serialize ++ rest, .noError⟩ = (h, ⟨rest, .noError⟩) := by
  simp only [serialize, List.append_assoc, readFields]
  rw [bind_run (ARPMessage.readAddress_unparse _ _), bind_run (ARPMessage.readAddress_unparse _ _),
    bind_run (u16_unparse _ _), pure_apply]

theorem parse_short (h : EthernetHeader) {p : NetParser} (hp : p.buffer.length < 14) :
    h.parse p = (.packetTooShort, h, p) := by
  simp [parse, LENGTH, hp]

theorem parse_serialize (h h' : EthernetHeader) (rest : Buffer) :
    h.parse ⟨h'.serialize ++ rest, .noError⟩ = (.noError, h', ⟨rest, .noError⟩) := by
  have hlen : ¬(h'.serialize ++ rest).length < LENGTH := by
    rw [List.length_append, length_serialize, LENGTH]
    omega
  simp only [parse, if_neg hlen, readFields_serialize]

theorem exists_serialize {b : Buffer} (h : 14 ≤ b.length) :
    ∃ hdr rest, b = serialize hdr ++ rest := by
  obtain ⟨dst, b1, rfl⟩ := ARPMessage.exists_address (show 6 ≤ b.length by omega)
  rw [List.length_append, ARPMessage.length_address] at h
  obtain ⟨src, b2, rfl⟩ := ARPMessage.exists_address (show 6 ≤ b1.length by omega)
  rw [List.length_append, ARPMessage.length_address] at h
  obtain ⟨type, rest, rfl⟩ := NetUnparser.exists_u16 (show 2 ≤ b2.length by omega)
  refine ⟨{ dst, src, type }, rest, ?_⟩
  simp only [serialize, List.append_assoc]

end EthernetHeader

end Sponge
