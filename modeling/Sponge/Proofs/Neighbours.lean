import Sponge.Proofs.RouterCarriage
import Sponge.Spec.Internet

/-! Interfaces on cables. As long as no two ports of a cable share an Ethernet address,
what ARP learns is true, so a datagram reaches only the neighbour it was sent to. `R d q`
says that a datagram that arrives as `d` may arrive at `q`. -/

namespace Sponge

open NetworkInterface

/-- Which ports there are, what they are plugged into and what they are called. -/
structure Plan where
  plugged : Port → Prop
  cable : Port → ℕ
  mac : Port → EthernetAddress
  ip : Port → UInt32

namespace Plan

/-- A port on the same cable. -/
structure Beside (P : Plan) (p q : Port) : Prop where
  plugged : P.plugged q
  cable : P.cable q = P.cable p

/-- The next hop `a` from `p` is `q`. -/
def Hop (P : Plan) (p : Port) (a : UInt32) (q : Port) : Prop := P.Beside p q ∧ P.ip q = a

structure Sound (P : Plan) : Prop where
  distinct : ∀ p q, P.plugged p → P.Beside p q → P.mac q = P.mac p → q = p
  unicast : ∀ p, P.plugged p → P.mac p ≠ ETHERNET_BROADCAST

end Plan

/-- A datagram that can be written. -/
abbrev IPv4Datagram.Sendable (d : IPv4Datagram) : Prop := d.Good fun _ _ _ => True

/-- The datagram as it is read where it arrives. -/
def IPv4Datagram.arriving (d : IPv4Datagram) : IPv4Datagram :=
  ⟨{ d.header with cksum := d.header.wireCksum }, [d.payload.concatenate]⟩

variable {P : Plan} {R : IPv4Datagram → Port → Prop} {p q : Port}

/-- A frame sent by `p`: an ARP message speaks for `p`, and a datagram is addressed to a
neighbour that it may reach. -/
structure EthernetFrame.Honest (P : Plan) (R : IPv4Datagram → Port → Prop) (p : Port)
    (f : EthernetFrame) : Prop where
  arp : ∀ m, (Internet.onCable f).arp = some m →
    m.senderIpAddress = P.ip p ∧ m.senderEthernetAddress = P.mac p
  ip : f.isIPv4 = true → ∃ (d : IPv4Datagram) (l : BufferList) (q : Port),
    d.Sendable ∧ d.serialize = .ok l ∧ f.payload.concatenate = l.concatenate ∧ P.Beside p q ∧
      P.mac q = f.header.dst ∧
    R d.arriving q

namespace NetworkInterface

structure Honest (P : Plan) (R : IPv4Datagram → Port → Prop) (p : Port) (i : NetworkInterface) :
    Prop where
  mac : i.ethernetAddress = P.mac p
  ip : i.ipAddress = P.ip p
  table : ∀ a e, i.arpTable.lookup a = some e → ∃ q, P.Hop p a q ∧ P.mac q = e.1
  waiting : ∀ a ds, i.arpWaitIpdata.lookup a = some ds →
    ∀ d ∈ ds, d.Sendable ∧ ∀ q, P.Hop p a q → R d.arriving q
  frames : ∀ f ∈ i.framesOut, f.Honest P R p

theorem Honest.new {ethernetAddress : EthernetAddress} {ipAddress : UInt32}
    (hmac : ethernetAddress = P.mac p) (hip : ipAddress = P.ip p) :
    Honest P R p { ethernetAddress, ipAddress } where
  mac := hmac
  ip := hip
  table a e h := by simp at h
  waiting a ds h := by simp at h
  frames := List.forall_mem_nil _

theorem arp_ipFrame (i : NetworkInterface) (dst : EthernetAddress) (l : BufferList) :
    (Internet.onCable (i.ipFrame dst l)).arp = none :=
  if_neg (show ¬EthernetHeader.TYPE_IPv4 = EthernetHeader.TYPE_ARP by decide)

theorem Honest.arpFrame {i : NetworkInterface} (h : i.Honest P R p) (dst : EthernetAddress)
    {m : ARPMessage} (hip : m.senderIpAddress = i.ipAddress)
    (hmac : m.senderEthernetAddress = i.ethernetAddress) {b : Buffer} (hb : m.serialize = .ok b) :
    (i.arpFrame dst b).Honest P R p where
  arp m' hm' := by
    have hone : Internet.onCable (i.arpFrame dst b) = i.arpFrame dst b := by
      simp [Internet.onCable, NetworkInterface.arpFrame, BufferList.concatenate]
    rw [hone, i.arpFrame_arp dst hb] at hm'
    cases hm'
    exact ⟨hip.trans h.ip, hmac.trans h.mac⟩
  ip hipv4 := by simp [arpFrame_isIPv4] at hipv4

theorem Honest.ipFrame (i : NetworkInterface) {d : IPv4Datagram} {l : BufferList}
    (hd : d.Sendable) (hl : d.serialize = .ok l) (hq : P.Beside p q) (hR : R d.arriving q) :
    (i.ipFrame (P.mac q) l).Honest P R p where
  arp m hm := by simp [arp_ipFrame] at hm
  ip _ := ⟨d, l, q, hd, hl, rfl, hq, rfl, hR⟩

theorem Honest.ready {i : NetworkInterface} (h : i.Honest P R p) : i.Ready :=
  fun a ds hds d hd => (h.waiting a ds hds d hd).1.serialisable

theorem Honest.mem_waiting {i : NetworkInterface} (h : i.Honest P R p) {a : UInt32} :
    ∀ d ∈ i.waiting a, d.Sendable ∧ ∀ q, P.Hop p a q → R d.arriving q := by
  intro d hd
  unfold NetworkInterface.waiting at hd
  cases hds : i.arpWaitIpdata.lookup a with
  | none => simp [hds] at hd
  | some ds =>
    rw [hds] at hd
    exact h.waiting a ds hds d hd

theorem Honest.tick {i : NetworkInterface} (h : i.Honest P R p) (ms : ℕ) :
    (i.tick ms).Honest P R p := by
  refine ⟨h.mac, h.ip, fun a e he => ?_, fun a ds hds => ?_, h.frames⟩
  · simp only [NetworkInterface.tick, Table.lookup_sweep] at he
    obtain ⟨e', he', hage⟩ := Option.bind_eq_some_iff.mp he
    split_ifs at hage
    cases hage
    exact h.table a e' he'
  · simp only [NetworkInterface.tick, Table.lookup_eraseAll] at hds
    split_ifs at hds
    exact h.waiting a ds hds

theorem Honest.sendDatagram {i : NetworkInterface} (h : i.Honest P R p) {d : IPv4Datagram}
    (hd : d.Sendable) {a : UInt32} (hR : ∀ q, P.Hop p a q → R d.arriving q) :
    ∃ i', i.sendDatagram d a = .ok i' ∧ i'.Honest P R p := by
  obtain ⟨i', hrun, -⟩ := i.sendDatagram_ok hd.serialisable a
  obtain ⟨frames, hleft⟩ := i.left_sendDatagram d a
  have hsame : i.left (.sendDatagram d a) = i' := by
    simp only [NetworkInterface.left, hrun, Except.toOption, Option.getD_some]
  rw [hsame] at hleft
  refine ⟨i', hrun, ?_⟩
  cases hleft with
  | @hit _ _ e l ha hl =>
    obtain ⟨q, hq, hmac⟩ := h.table a e ha
    have hframe := Honest.ipFrame i hd hl hq.1 (hR q hq)
    rw [hmac] at hframe
    exact ⟨h.mac, h.ip, h.table, h.waiting,
      List.forall_mem_append.mpr ⟨h.frames, List.forall_mem_singleton.mpr hframe⟩⟩
  | refused => exact h
  | asks ha hr hb =>
    have hframe := h.arpFrame ETHERNET_BROADCAST rfl rfl hb
    refine ⟨h.mac, h.ip, h.table, fun a' ds hds => ?_,
      List.forall_mem_append.mpr ⟨h.frames, List.forall_mem_singleton.mpr hframe⟩⟩
    unfold Table.emplace at hds
    split_ifs at hds with hwaits
    · exact h.waiting a' ds hds
    · rw [Table.lookup_insert_eq] at hds
      split_ifs at hds with haddr
      · cases hds
        exact List.forall_mem_singleton.mpr ⟨hd, haddr ▸ hR⟩
      · exact h.waiting a' ds hds
  | waits ha hr =>
    refine ⟨h.mac, h.ip, h.table, fun a' ds hds => ?_, h.frames⟩
    rw [Table.lookup_insert_eq] at hds
    split_ifs at hds with haddr
    · cases hds
      subst haddr
      exact List.forall_mem_append.mpr ⟨h.mem_waiting, List.forall_mem_singleton.mpr ⟨hd, hR⟩⟩
    · exact h.waiting a' ds hds

theorem answerRequest_frames (i : NetworkInterface) (m : ARPMessage) :
    ∃ replies, i.answerRequest m = .ok { i with framesOut := i.framesOut ++ replies } ∧
      ∀ f ∈ replies, ∃ b, (i.arpReply m).serialize = .ok b ∧
        f = i.arpFrame m.senderEthernetAddress b := by
  unfold answerRequest
  split
  · obtain ⟨b, hb⟩ := i.arpReply_serialize m
    exact ⟨[i.arpFrame m.senderEthernetAddress b], by simp only [hb, ok_bind]; rfl,
      List.forall_mem_singleton.mpr ⟨b, hb, rfl⟩⟩
  · exact ⟨[], by simp, List.forall_mem_nil _⟩

theorem leftByArp_frames (i : NetworkInterface) (m : ARPMessage) {f : EthernetFrame}
    (hf : f ∈ (i.leftByArp m).framesOut) :
    f ∈ i.framesOut ∨
      (∃ b, (i.arpReply m).serialize = .ok b ∧ f = i.arpFrame m.senderEthernetAddress b) ∨
      ∃ d ∈ i.waiting m.senderIpAddress, ∃ l, d.serialize = .ok l ∧
        f = i.ipFrame m.senderEthernetAddress l := by
  obtain ⟨replies, hanswer, hreplies⟩ := answerRequest_frames { i with
    arpTable := i.arpTable.insert m.senderIpAddress (m.senderEthernetAddress, 0) } m
  have hmem : f ∈ (i.framesOut ++ replies) ++
      (written (i.waiting m.senderIpAddress)).map (i.ipFrame m.senderEthernetAddress) := by
    simp only [leftByArp, hanswer, Except.toOption, Option.getD_some] at hf
    cases hdata : i.arpWaitIpdata.lookup m.senderIpAddress with
    | none =>
      simp only [hdata] at hf
      exact List.mem_append_left _ hf
    | some data =>
      simp only [hdata, pushDatagrams_eq] at hf
      simp only [waiting, hdata, Option.getD_some]
      split_ifs at hf <;> exact hf
  rcases List.mem_append.mp hmem with hf | hf
  · exact (List.mem_append.mp hf).imp_right fun hf => Or.inl (hreplies f hf)
  · obtain ⟨l, hl, rfl⟩ := List.mem_map.mp hf
    obtain ⟨d, hd, hdl⟩ := mem_written hl
    exact Or.inr (Or.inr ⟨d, hd, l, hdl, rfl⟩)

theorem Honest.leftByArp {i : NetworkInterface} (h : i.Honest P R q) {m : ARPMessage}
    (hp : P.Beside q p) (hip : m.senderIpAddress = P.ip p)
    (hmac : m.senderEthernetAddress = P.mac p) : (i.leftByArp m).Honest P R q := by
  obtain ⟨replies, wait', -, hwait, hleft⟩ := i.leftByArp_eq m
  have hframes : ∀ f ∈ (i.leftByArp m).framesOut, f.Honest P R q := by
    intro f hf
    rcases i.leftByArp_frames m hf with hf | ⟨b, hb, rfl⟩ | ⟨d, hd, l, hl, rfl⟩
    · exact h.frames f hf
    · exact h.arpFrame m.senderEthernetAddress rfl rfl hb
    · obtain ⟨hsend, hR⟩ := h.mem_waiting d hd
      rw [hmac]
      exact Honest.ipFrame i hsend hl hp (hR p ⟨hp, hip.symm⟩)
  rw [hleft] at hframes ⊢
  refine ⟨h.mac, h.ip, fun a e he => ?_, fun a ds hds => ?_, hframes⟩
  · rw [Table.lookup_insert_eq] at he
    split_ifs at he with ha
    · cases he
      exact ⟨p, ⟨hp, hip.symm.trans ha.symm⟩, hmac.symm⟩
    · exact h.table a e he
  · rw [hwait a] at hds
    split_ifs at hds
    exact h.waiting a ds hds

/-- A frame of a neighbour: an honest interface is left, and a datagram that comes out of
it was addressed to this port. -/
theorem Honest.recvFrame (hP : P.Sound) {i : NetworkInterface} (h : i.Honest P R q)
    (hq : P.plugged q) (hp : P.Beside q p) {f : EthernetFrame} (hf : f.Honest P R p) :
    ∃ o i', i.recvFrame (Internet.onCable f) = .ok (o, i') ∧ i'.Honest P R q ∧
      ∀ d, o = some d → d.Sendable ∧ R d q := by
  have hone : (Internet.onCable f).payload.length ≤ 1 := le_rfl
  obtain ⟨o, i', hrun, -, -⟩ := h.ready.recvFrame hone
  refine ⟨o, i', hrun, ?_, fun d hd => ?_⟩
  · have hleft := recvFrame_left hrun
    simp only [left] at hleft
    cases hm : hears i.ethernetAddress (Internet.onCable f) with
    | none =>
      rw [hm] at hleft
      exact hleft ▸ h
    | some m =>
      rw [hm] at hleft
      unfold hears at hm
      split_ifs at hm
      obtain ⟨hip, hmac⟩ := hf.arp m hm
      exact hleft ▸ h.leftByArp hp hip hmac
  · rw [hd] at hrun
    obtain ⟨hdst, hip, ⟨b, hb, hparse⟩, -⟩ := recvFrame_some hrun
    obtain ⟨d', l, q', hsend, hl, hpayload, hq', hmac, hR⟩ := hf.ip hip
    have hself : q' = q := by
      refine hP.distinct q q' hq ⟨hq'.plugged, hq'.cable.trans hp.cable⟩ ?_
      rw [hmac]
      refine (hdst.resolve_right fun hall => hP.unicast q' hq'.plugged ?_).trans h.mac
      rw [hmac]
      exact hall
    have hbytes : b = l.concatenate := by
      rw [← hpayload, ← Except.ok.inj hb]
    rw [hsend.serialize_eq] at hl
    cases hl
    rw [hbytes, IPv4Datagram.parse_bytes _ hsend.writable hsend.len] at hparse
    cases hparse
    exact ⟨hsend.parse hsend.serialize_eq
      (IPv4Datagram.parse_bytes _ hsend.writable hsend.len), hself ▸ hR⟩

end NetworkInterface

end Sponge
