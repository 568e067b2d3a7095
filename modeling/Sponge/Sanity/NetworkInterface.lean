import Sponge.Spec.NetworkInterface

/-! When a datagram can be written out, and that an interface whose waiting datagrams
all can never throws. -/

namespace Sponge

theorem BufferList.toBuffer_ok {l : BufferList} (h : l.length ≤ 1) : ∃ b, l.toBuffer = .ok b := by
  match l, h with
  | [], _ => exact ⟨[], rfl⟩
  | [b], _ => exact ⟨b, rfl⟩

theorem IPv4Header.serialize_ok_iff (h : IPv4Header) :
    (∃ b, h.serialize = .ok b) ↔ h.ver = 4 ∧ 5 ≤ h.hlen := by
  have hfive : 5 ≤ h.hlen ↔ ¬4 * h.hlen.toNat < LENGTH := by
    rw [UInt8.le_iff_toNat_le, LENGTH]
    simp only [UInt8.reduceToNat]
    omega
  rw [hfive, serialize]
  split_ifs with hver hlen
  · simp [hver]
  · simp [hlen]
  · simp only [Except.ok.injEq, exists_eq', true_iff]
    exact ⟨not_not.mp hver, hlen⟩

namespace IPv4Datagram

def Serialisable (d : IPv4Datagram) : Prop := ∃ l, d.serialize = .ok l

theorem serialisable_iff (d : IPv4Datagram) : d.Serialisable ↔
    d.payload.size = d.header.payloadLength.toNat ∧ d.header.ver = 4 ∧ 5 ≤ d.header.hlen := by
  unfold Serialisable serialize
  split
  case isTrue hsize => simp [hsize]
  case isFalse hsize =>
    rw [not_not] at hsize
    constructor
    · rintro ⟨l, hl⟩
      obtain ⟨zero, hzero, -⟩ := bind_eq_ok hl
      exact ⟨hsize, (IPv4Header.serialize_ok_iff { d.header with cksum := 0 }).mp ⟨zero, hzero⟩⟩
    · rintro ⟨-, hfields⟩
      have hany := fun cksum => (IPv4Header.serialize_ok_iff { d.header with cksum }).mpr hfields
      obtain ⟨zero, hzero⟩ := hany 0
      obtain ⟨header, hheader⟩ := hany (({} : InternetChecksum).add zero).value
      exact ⟨header :: d.payload, by simp only [hzero, hheader, ok_bind]; rfl⟩

instance (d : IPv4Datagram) : Decidable d.Serialisable :=
  decidable_of_iff' _ d.serialisable_iff

theorem Serialisable.setTtl {d : IPv4Datagram} (h : d.Serialisable) (ttl : UInt8) :
    Serialisable { d with header := { d.header with ttl } } :=
  (serialisable_iff _).mpr (d.serialisable_iff.mp h)

theorem parse_size {d : IPv4Datagram} {b : Buffer} (h : (d.parse b).1 = .noError) :
    (d.parse b).2.payload.size = (d.parse b).2.header.payloadLength.toNat := by
  simp only [parse] at h ⊢
  split at h
  case isTrue => cases h
  case isFalse hsize =>
    rw [if_neg hsize]
    exact not_not.mp hsize

end IPv4Datagram

namespace NetworkInterface

open IPv4Datagram

/-- Every datagram that waits for an address can be written out. -/
def Ready (i : NetworkInterface) : Prop :=
  i.arpWaitIpdata.All fun ds => ∀ d ∈ ds, d.Serialisable

theorem arpRequest_serialize (i : NetworkInterface) (hop : UInt32) :
    ∃ b, (i.arpRequest hop).serialize = .ok b := ⟨_, rfl⟩

theorem arpReply_serialize (i : NetworkInterface) (m : ARPMessage) :
    ∃ b, (i.arpReply m).serialize = .ok b := ⟨_, rfl⟩

theorem sendDatagram_ok (i : NetworkInterface) {d : IPv4Datagram} (hd : d.Serialisable)
    (hop : UInt32) : ∃ i', i.sendDatagram d hop = .ok i' ∧ (i.Ready → i'.Ready) := by
  unfold sendDatagram
  cases i.arpTable.lookup hop with
  | some entry =>
    obtain ⟨l, hl⟩ := hd
    simp only [hl, ok_bind]
    exact ⟨_, rfl, fun h => h⟩
  | none =>
    cases i.arpRequestTime.lookup hop with
    | none =>
      obtain ⟨b, hb⟩ := i.arpRequest_serialize hop
      simp only [hb, ok_bind]
      exact ⟨_, rfl, fun h => h.emplace (List.forall_mem_singleton.mpr hd)⟩
    | some t =>
      refine ⟨_, rfl, fun h => Table.All.insert h ?_⟩
      intro x hx
      rcases List.mem_append.mp hx with hx | hx
      · cases hw : i.arpWaitIpdata.lookup hop with
        | none => simp [hw] at hx
        | some ds =>
          rw [hw] at hx
          exact h hop ds hw x hx
      · exact List.mem_singleton.mp hx ▸ hd

theorem sendWaiting_ok (dst : EthernetAddress) {ds : List IPv4Datagram}
    (hds : ∀ d ∈ ds, d.Serialisable) (i : NetworkInterface) :
    ∃ frames, i.sendWaiting dst ds = .ok { i with framesOut := i.framesOut ++ frames } := by
  induction ds generalizing i with
  | nil => exact ⟨[], by simp [sendWaiting]⟩
  | cons d ds ih =>
    obtain ⟨l, hl⟩ := hds d List.mem_cons_self
    obtain ⟨frames, hrest⟩ := ih (fun x hx => hds x (List.mem_cons_of_mem d hx))
      (i.pushDatagram dst EthernetHeader.TYPE_IPv4 l)
    refine ⟨⟨⟨dst, i.ethernetAddress, EthernetHeader.TYPE_IPv4⟩, l⟩ :: frames, ?_⟩
    simp only [sendWaiting, hl, ok_bind, hrest]
    simp [pushDatagram]

theorem Ready.answerRequest {i : NetworkInterface} (h : i.Ready) (m : ARPMessage) :
    ∃ i', i.answerRequest m = .ok i' ∧ i'.Ready := by
  unfold NetworkInterface.answerRequest
  split
  · obtain ⟨b, hb⟩ := i.arpReply_serialize m
    simp only [hb, ok_bind]
    exact ⟨_, rfl, h⟩
  · exact ⟨i, rfl, h⟩

theorem Ready.releaseWaiting {i : NetworkInterface} (h : i.Ready) (m : ARPMessage) :
    ∃ i', i.releaseWaiting m = .ok i' ∧ i'.Ready := by
  unfold NetworkInterface.releaseWaiting
  cases hw : i.arpWaitIpdata.lookup m.senderIpAddress with
  | none => exact ⟨i, rfl, h⟩
  | some data =>
    obtain ⟨frames, hsent⟩ := sendWaiting_ok m.senderEthernetAddress (h _ data hw) i
    simp only [hsent, ok_bind]
    exact ⟨_, rfl, Table.All.erase h _⟩

theorem Ready.recvArp {i : NetworkInterface} (h : i.Ready) (m : ARPMessage) :
    ∃ i', i.recvArp m = .ok i' ∧ i'.Ready := by
  have hlearn : Ready { i with
      arpTable := i.arpTable.insert m.senderIpAddress (m.senderEthernetAddress, 0) } := h
  obtain ⟨i1, h1, hready1⟩ := hlearn.answerRequest m
  obtain ⟨i2, h2, hready2⟩ := hready1.releaseWaiting m
  exact ⟨i2, by simp only [NetworkInterface.recvArp, h1, ok_bind, h2], hready2⟩

theorem Ready.recvFrame {i : NetworkInterface} (h : i.Ready) {frame : EthernetFrame}
    (hone : frame.payload.length ≤ 1) :
    ∃ o i', i.recvFrame frame = .ok (o, i') ∧ i'.Ready ∧
      ∀ d, o = some d → d.payload.size = d.header.payloadLength.toNat := by
  obtain ⟨b, hb⟩ := BufferList.toBuffer_ok hone
  unfold NetworkInterface.recvFrame
  simp only [hb, ok_bind]
  split
  · exact ⟨none, i, rfl, h, by simp⟩
  split
  · refine ⟨_, i, rfl, h, ?_⟩
    intro d hd
    split at hd
    case isTrue hparse => exact Option.some.inj hd ▸ parse_size hparse
    case isFalse => cases hd
  split
  · split
    · exact ⟨none, i, rfl, h, by simp⟩
    · obtain ⟨i', hi', hready⟩ := h.recvArp (({} : ARPMessage).parse b).2
      simp only [hi', ok_bind]
      exact ⟨none, i', rfl, hready, by simp⟩
  · exact ⟨none, i, rfl, h, by simp⟩

/-- What a frame brings: a datagram in an IPv4 frame for this interface or for all, which leaves
the interface as it is, or nothing. -/
theorem recvFrame_cases {i i' : NetworkInterface} {frame : EthernetFrame} {o : Option IPv4Datagram}
    (h : i.recvFrame frame = .ok (o, i')) :
    ((frame.header.dst = i.ethernetAddress ∨ frame.header.dst = ETHERNET_BROADCAST) ∧
        frame.header.type = EthernetHeader.TYPE_IPv4) ∧
      (∃ b, frame.payload.toBuffer = .ok b ∧ i' = i ∧ o =
        if (({} : IPv4Datagram).parse b).1 = .noError then some (({} : IPv4Datagram).parse b).2
        else none) ∨
    ¬((frame.header.dst = i.ethernetAddress ∨ frame.header.dst = ETHERNET_BROADCAST) ∧
        frame.header.type = EthernetHeader.TYPE_IPv4) ∧ o = none := by
  unfold NetworkInterface.recvFrame at h
  split at h
  case isTrue haddress =>
    cases h
    exact .inr ⟨fun hfor => haddress hfor.1, rfl⟩
  case isFalse haddress =>
    split at h
    case isTrue hip =>
      obtain ⟨b, hb, h⟩ := bind_eq_ok h
      have hpair := Prod.mk.inj (Except.ok.inj h)
      exact .inl ⟨⟨not_not.mp haddress, hip⟩, b, hb, hpair.2.symm, hpair.1.symm⟩
    case isFalse hip =>
      refine .inr ⟨fun hfor => hip hfor.2, ?_⟩
      split at h
      · obtain ⟨b, -, h⟩ := bind_eq_ok h
        dsimp only at h
        split at h
        · cases h
          rfl
        · obtain ⟨_, -, h⟩ := bind_eq_ok h
          cases h
          rfl
      · cases h
        rfl

theorem Ready.tick {i : NetworkInterface} (h : i.Ready) (ms : ℕ) : (i.tick ms).Ready :=
  Table.All.eraseAll h _

end NetworkInterface

end Sponge
