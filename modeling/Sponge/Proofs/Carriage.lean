import Sponge.Proofs.Codec
import Sponge.Proofs.Encapsulation
import Sponge.Proofs.Isolation
import Sponge.Sanity.Calls
import Sponge.Sanity.InterfaceRun

/-! What the packets on a network carry. `V a b g` says that a segment `g` from `a` to `b` is
vouched for; that is kept by everything the code does to a packet. -/

namespace Sponge

open TCPOverIPv4Adapter

variable {V : Address → Address → TCPSegment → Prop}

namespace IPv4Datagram

/-- A datagram that can be written, and whose segment, if it has one, is vouched for. -/
structure Good (V : Address → Address → TCPSegment → Prop) (d : IPv4Datagram) : Prop where
  writable : d.header.Writable
  len : d.header.len.toNat = 4 * d.header.hlen.toNat + d.payload.size
  carries : ∀ seg, Carries ⟨d.header, [d.payload.concatenate]⟩ seg →
    V ⟨d.header.src, seg.header.sport⟩ ⟨d.header.dst, seg.header.dport⟩ seg.bare

theorem Good.serialize_eq {d : IPv4Datagram} (h : Good V d) :
    d.serialize = .ok (d.header.bytes d.header.wireCksum :: d.payload) :=
  IPv4Datagram.serialize_eq h.writable h.len

theorem Good.serialisable {d : IPv4Datagram} (h : Good V d) : d.Serialisable := ⟨_, h.serialize_eq⟩

/-- The time to live and the checksum of the header say nothing about the segment. -/
theorem Good.setHop {d : IPv4Datagram} (h : Good V d) (ttl : UInt8) (cksum : UInt16) :
    Good V { d with header := { d.header with ttl, cksum } } where
  writable := ⟨h.writable.ver, h.writable.short, h.writable.long, h.writable.offset⟩
  len := h.len
  carries seg hseg := h.carries seg ⟨hseg.proto, hseg.parsed⟩

theorem Good.parse {d d' : IPv4Datagram} (h : Good V d) {l : BufferList}
    (hl : d.serialize = .ok l) (hd' : ({} : IPv4Datagram).parse l.concatenate = (.noError, d')) :
    Good V d' := by
  rw [h.serialize_eq] at hl
  cases hl
  rw [parse_bytes _ h.writable h.len] at hd'
  cases hd'
  have hset := h.setHop d.header.ttl d.header.wireCksum
  refine ⟨hset.writable, ?_, fun seg hseg => hset.carries seg ⟨hseg.proto, ?_⟩⟩
  · rw [h.len]
    simp [BufferList.size, BufferList.concatenate, List.length_flatten]
  · simpa [BufferList.concatenate] using hseg.parsed

theorem parse_payload (d₀ : IPv4Datagram) (b : Buffer) : (d₀.parse b).2.payload.length = 1 := by
  rw [IPv4Datagram.parse]
  dsimp only
  split_ifs <;> rfl

theorem Good.mono {V' : Address → Address → TCPSegment → Prop} (hV : ∀ a b g, V a b g → V' a b g)
    {d : IPv4Datagram} (h : Good V d) : Good V' d :=
  ⟨h.writable, h.len, fun seg hseg => hV _ _ _ (h.carries seg hseg)⟩

end IPv4Datagram

theorem TCPOverIPv4Adapter.wrap_good (a : TCPOverIPv4Adapter) {g : TCPSegment} (hg : g.Plain)
    (hV : V a.config.source a.config.destination g.bare) :
    ∃ d sent, a.wrapTcpInIp g = .ok (d, sent) ∧ d.Good V := by
  have hdoff : g.header.doff.toNat = 5 := by rw [hg.doff]; rfl
  have hsize := hg.size
  rw [maxPayloadSize] at hsize
  have hshort : 5 ≤ (a.addressed g).header.doff.toNat := hdoff.ge
  have hparse := TCPSegment.parse_bytes {} (g := a.addressed g) hshort
    (show g.header.doff.toNat ≤ 15 by omega)
    (show 4 * g.header.doff.toNat + g.payload.length < 2 ^ 16 by omega)
    (a.ipHeader g).pseudoCksum_lt
  refine ⟨_, _, wrapTcpInIp_eq hdoff.ge, a.ipHeader_writable g, ?_, ?_⟩
  · have hbytes := TCPHeader.length_bytes hshort ((a.addressed g).wireCksum (a.ipHeader g).pseudoCksum)
    have hsum : BufferList.size [(a.addressed g).header.bytes
        ((a.addressed g).wireCksum (a.ipHeader g).pseudoCksum), g.payload] =
        4 * g.header.doff.toNat + g.payload.length := by
      simp only [BufferList.size, List.map_cons, List.map_nil, List.sum_cons, List.sum_nil, hbytes]
      rfl
    rw [hsum]
    exact ipHeader_len (by omega)
  · rintro seg ⟨-, b, hb, hseg, -⟩
    have hpayload : b = (a.addressed g).header.bytes
        ((a.addressed g).wireCksum (a.ipHeader g).pseudoCksum) ++ (a.addressed g).payload := by
      have := Except.ok.inj hb
      rw [← this]
      simp [BufferList.concatenate, addressed]
    rw [hpayload, hparse] at hseg
    cases hseg
    exact hV

/-- What an adapter makes of a good datagram is vouched for, from its peer to itself. -/
theorem TCPOverIPv4Adapter.unwrap_good {a a' : TCPOverIPv4Adapter} {d : IPv4Datagram}
    (hd : d.Good V) (hone : d.payload.length = 1) {seg : TCPSegment}
    (h : a.unwrapTcpInIp d = .ok (some seg, a')) :
    V a'.config.destination a'.config.source seg.bare := by
  rcases unwrapTcpInIp_spec h with ⟨hnone, -⟩ | ⟨seg', hsome, htakes⟩
  · cases hnone
  · cases hsome
    obtain ⟨p, hp⟩ := List.length_eq_one_iff.mp hone
    have hcarries : Carries ⟨d.header, [d.payload.concatenate]⟩ seg := by
      obtain ⟨hproto, b, hb, hrest⟩ := htakes.carries
      refine ⟨hproto, b, ?_, hrest⟩
      rw [hp] at hb ⊢
      simpa [BufferList.concatenate, BufferList.toBuffer] using hb
    have hV := hd.carries seg hcarries
    rwa [htakes.peer.src, htakes.peer.sport, htakes.peer.dst, htakes.peer.dport] at hV

/-- A frame that carries a datagram carries a good one. -/
def EthernetFrame.Good (V : Address → Address → TCPSegment → Prop) (f : EthernetFrame) : Prop :=
  f.isIPv4 = true → ∃ (d : IPv4Datagram) (l : BufferList), d.Good V ∧ d.serialize = .ok l ∧
    f.payload.concatenate = l.concatenate

theorem EthernetFrame.Good.mono {V' : Address → Address → TCPSegment → Prop}
    (hV : ∀ a b g, V a b g → V' a b g)
    {f : EthernetFrame} (h : f.Good V) : f.Good V' := by
  intro hip
  obtain ⟨d, l, hd, hl⟩ := h hip
  exact ⟨d, l, hd.mono hV, hl⟩

theorem EthernetFrame.Good.arrived {f f' : EthernetFrame} (h : f.Good V)
    (hf' : ({} : EthernetFrame).parse f.serialize.concatenate = (.noError, f')) :
    f'.Good V ∧ f'.payload.length = 1 := by
  have hwhole : f.serialize.concatenate = f.header.serialize ++ f.payload.concatenate := rfl
  rw [hwhole, parse_serialize] at hf'
  cases hf'
  refine ⟨fun hip => ?_, rfl⟩
  obtain ⟨d, l, hd, hl, hpayload⟩ := h hip
  exact ⟨d, l, hd, hl, by rw [← hpayload]; simp [BufferList.concatenate]⟩

namespace NetworkInterface

theorem mem_written {ds : List IPv4Datagram} {l : BufferList} (h : l ∈ written ds) :
    ∃ d ∈ ds, d.serialize = .ok l := by
  induction ds with
  | nil => cases h
  | cons d ds ih =>
    unfold written at h
    cases hd : d.serialize with
    | error e =>
      rw [hd] at h
      cases h
    | ok l' =>
      rw [hd] at h
      rcases List.mem_cons.mp h with rfl | h
      · exact ⟨d, List.mem_cons_self, hd⟩
      · obtain ⟨b, hb, hl⟩ := ih h
        exact ⟨b, List.mem_cons_of_mem _ hb, hl⟩

/-- The datagrams that wait and the frames that are queued are good. -/
structure Clean (V : Address → Address → TCPSegment → Prop) (i : NetworkInterface) : Prop where
  waiting : i.arpWaitIpdata.All fun ds => ∀ d ∈ ds, d.Good V
  frames : ∀ f ∈ i.framesOut, f.Good V

theorem Clean.new (ethernetAddress : EthernetAddress) (ipAddress : UInt32) :
    Clean V { ethernetAddress, ipAddress } := ⟨Table.All.empty, List.forall_mem_nil _⟩

theorem Clean.ready {i : NetworkInterface} (h : i.Clean V) : i.Ready :=
  fun a ds hds d hd => (h.waiting a ds hds d hd).serialisable

theorem Clean.mono {V' : Address → Address → TCPSegment → Prop} (hV : ∀ a b g, V a b g → V' a b g)
    {i : NetworkInterface} (h : i.Clean V) : i.Clean V' :=
  ⟨fun a ds hds d hd => (h.waiting a ds hds d hd).mono hV, fun f hf => (h.frames f hf).mono hV⟩

theorem Clean.mem_waiting {i : NetworkInterface} (h : i.Clean V) {a : UInt32} :
    ∀ d ∈ i.waiting a, d.Good V := by
  intro d hd
  unfold NetworkInterface.waiting at hd
  cases hds : i.arpWaitIpdata.lookup a with
  | none => simp [hds] at hd
  | some ds =>
    rw [hds] at hd
    exact h.waiting a ds hds d hd

theorem ipFrame_good (i : NetworkInterface) (dst : EthernetAddress) {d : IPv4Datagram}
    (hd : d.Good V) {l : BufferList} (hl : d.serialize = .ok l) : (i.ipFrame dst l).Good V :=
  fun _ => ⟨d, l, hd, hl, rfl⟩

theorem arpFrame_good (i : NetworkInterface) (dst : EthernetAddress) (b : Buffer) :
    (i.arpFrame dst b).Good V := fun hip => by simp [arpFrame_isIPv4] at hip

theorem Clean.left {i i' : NetworkInterface} (h : i.Clean V) {op : InterfaceOp}
    {frames : List EthernetFrame} (hleft : Left i op frames i')
    (hop : ∀ d a, op = .sendDatagram d a → d.Good V) : i'.Clean V := by
  have hframes : (∀ f ∈ frames, f.Good V) → ∀ f ∈ i'.framesOut, f.Good V := by
    intro hnew f hf
    rw [hleft.framesOut] at hf
    exact (List.mem_append.mp hf).elim (h.frames f) (hnew f)
  cases hleft with
  | @hit d a e l ha hl =>
    exact ⟨h.waiting, hframes (List.forall_mem_singleton.mpr (i.ipFrame_good _ (hop d a rfl) hl))⟩
  | refused => exact h
  | @asks d a b =>
    refine ⟨h.waiting.emplace (List.forall_mem_singleton.mpr (hop d a rfl)), hframes ?_⟩
    exact List.forall_mem_singleton.mpr (i.arpFrame_good _ b)
  | @waits d a =>
    refine ⟨Table.All.insert h.waiting fun x hx => ?_, h.frames⟩
    rcases List.mem_append.mp hx with hx | hx
    · exact h.mem_waiting x hx
    · exact List.mem_singleton.mp hx ▸ hop d a rfl
  | deaf => exact h
  | @heard frame m replies wait' hm hreplies hwait =>
    refine ⟨fun a ds hds => ?_, hframes fun f hf => ?_⟩
    · rw [hwait a] at hds
      split_ifs at hds
      exact h.waiting a ds hds
    · rcases List.mem_append.mp hf with hf | hf
      · exact fun hip => absurd hip (by simp [(hreplies f hf).1])
      · obtain ⟨l, hl, rfl⟩ := List.mem_map.mp hf
        obtain ⟨d, hd, hdl⟩ := mem_written hl
        exact i.ipFrame_good _ (h.mem_waiting d hd) hdl
  | tick => exact ⟨Table.All.eraseAll h.waiting _, h.frames⟩

theorem Clean.tick {i : NetworkInterface} (h : i.Clean V) (ms : ℕ) : (i.tick ms).Clean V :=
  h.left (@Left.tick i ms) (by simp)

theorem Clean.sendDatagram {i : NetworkInterface} (h : i.Clean V) {d : IPv4Datagram}
    (hd : d.Good V) (hop : UInt32) : ∃ i', i.sendDatagram d hop = .ok i' ∧ i'.Clean V := by
  obtain ⟨i', hrun, -⟩ := i.sendDatagram_ok hd.serialisable hop
  obtain ⟨frames, hleft⟩ := i.left_sendDatagram d hop
  have hsame : i.left (.sendDatagram d hop) = i' := by
    simp only [NetworkInterface.left, hrun, Except.toOption, Option.getD_some]
  rw [hsame] at hleft
  refine ⟨i', hrun, h.left hleft fun b a hb => ?_⟩
  cases hb
  exact hd

/-- A datagram comes out of an IPv4 frame that is addressed to the interface or to all, and
nothing else happens. -/
theorem recvFrame_some {i i' : NetworkInterface} {f : EthernetFrame} {d : IPv4Datagram}
    (h : i.recvFrame f = .ok (some d, i')) :
    (f.header.dst = i.ethernetAddress ∨ f.header.dst = ETHERNET_BROADCAST) ∧ f.isIPv4 = true ∧
      (∃ p, f.payload.toBuffer = .ok p ∧ ({} : IPv4Datagram).parse p = (.noError, d)) ∧ i' = i := by
  rcases recvFrame_cases h with ⟨⟨haddress, hip⟩, p, hp, hi, hd⟩ | ⟨-, hnone⟩
  · split at hd
    case isTrue hok =>
      refine ⟨haddress, decide_eq_true hip, ⟨p, hp, ?_⟩, hi⟩
      rw [← hok, Option.some.inj hd]
    case isFalse => cases hd
  · cases hnone

theorem recvFrame_good {i i' : NetworkInterface} {f : EthernetFrame} (hf : f.Good V)
    (hone : f.payload.length = 1) {d : IPv4Datagram} (h : i.recvFrame f = .ok (some d, i')) :
    d.Good V ∧ d.payload.length = 1 := by
  obtain ⟨-, hip, ⟨p, hp, hparse⟩, -⟩ := recvFrame_some h
  obtain ⟨d₀, l, hgood, hl, hpayload⟩ := hf hip
  have hbytes : p = l.concatenate := by
    obtain ⟨q, hq⟩ := List.length_eq_one_iff.mp hone
    rw [hq] at hp hpayload
    rw [← hpayload, ← Except.ok.inj hp]
    simp [BufferList.concatenate]
  refine ⟨hgood.parse hl (hbytes ▸ hparse), ?_⟩
  have := ({} : IPv4Datagram).parse_payload p
  rwa [hparse] at this

theorem Clean.recvFrame {i : NetworkInterface} (h : i.Clean V) {f : EthernetFrame}
    (hone : f.payload.length = 1) : ∃ o i', i.recvFrame f = .ok (o, i') ∧ i'.Clean V := by
  obtain ⟨o, i', hrun, -, -⟩ := h.ready.recvFrame hone.le
  obtain ⟨frames, hleft⟩ := i.left_recvFrame f
  rw [recvFrame_left hrun] at hleft
  exact ⟨o, i', hrun, h.left hleft (by simp)⟩

end NetworkInterface

end Sponge
