import Sponge.Sanity.Router
import Sponge.Sanity.Wire

/-! Forwarding changes nothing of a datagram but its time to live and its checksum. -/

namespace Sponge

open IPv4Datagram

/-- A datagram without options and with time to live left. -/
structure Forwardable (b : Buffer) : Prop extends WellFormed b where
  plain : headerWords b = 5
  reserved : (b.getD 6 0).toNat < 128
  ttl : 1 < (b.getD 8 0).toNat

/-- The bytes one hop later. -/
structure HoppedBytes (b out : Buffer) : Prop where
  length : out.length = b.length
  same : ∀ k, k ≠ 8 → k ≠ 10 → k ≠ 11 → out[k]? = b[k]?
  ttl : (out.getD 8 0).toNat + 1 = (b.getD 8 0).toNat
  cksum : onesChecksum (out.take 20) = 0

namespace IPv4Header

/-- The eight bytes before the time to live. -/
def early (h : IPv4Header) : Buffer :=
  NetUnparser.u8 ((h.ver <<< 4) ||| (h.hlen &&& 0xf)) ++ (NetUnparser.u8 h.tos ++
  (NetUnparser.u16 h.len ++ (NetUnparser.u16 h.id ++ NetUnparser.u16 h.foVal)))

theorem length_early (h : IPv4Header) : h.early.length = 8 := by
  simp [early]

theorem bytes_eq (h : IPv4Header) (cksum : UInt16) (rest : Buffer) :
    h.bytes cksum ++ rest = h.early ++ (h.ttl :: h.proto :: .ofNat (cksum.toNat / 256 % 256) ::
      .ofNat (cksum.toNat % 256) :: (h.back ++ rest)) := by
  simp only [bytes, front, early, NetUnparser.u8_eq h.ttl, NetUnparser.u8_eq h.proto,
    NetUnparser.u16_eq cksum, List.append_assoc, List.cons_append, List.nil_append]

theorem ttl_bytes (h : IPv4Header) (cksum : UInt16) (rest : Buffer) :
    (h.bytes cksum ++ rest).getD 8 0 = h.ttl := by
  rw [bytes_eq, List.getD_eq_getElem?_getD, List.getElem?_append_right (by simp [length_early]),
    length_early]
  rfl

/-- The same header with one less to live, written with its own checksum. -/
theorem hopped_bytes {h : IPv4Header} (hw : h.Writable) (hfive : h.hlen = 5)
    (httl : 1 < h.ttl.toNat) (cksum : UInt16) (rest : Buffer) :
    let h' := { h with ttl := h.ttl - 1 }
    HoppedBytes (h.bytes cksum ++ rest) (h'.bytes h'.wireCksum ++ rest) := by
  intro h'
  have hw' : h'.Writable := ⟨hw.ver, hw.short, hw.long, hw.offset⟩
  have hback : h'.back = h.back := rfl
  have hearly : h'.early = h.early := rfl
  have hlen : (h'.bytes h'.wireCksum).length = 20 := by
    rw [length_bytes hw', show h'.hlen = 5 from hfive]
    rfl
  constructor
  · simp only [List.length_append, length_bytes hw, length_bytes hw', h']
  · intro k h8 h10 h11
    rw [bytes_eq, bytes_eq, hearly, hback]
    by_cases hk : k < 8
    · rw [List.getElem?_append_left (by rw [length_early]; exact hk),
        List.getElem?_append_left (by rw [length_early]; exact hk)]
    · obtain ⟨j, rfl⟩ : ∃ j, k = 8 + j := ⟨k - 8, by omega⟩
      rw [List.getElem?_append_right (by rw [length_early]; omega),
        List.getElem?_append_right (by rw [length_early]; omega), length_early,
        Nat.add_sub_cancel_left]
      match j with
      | 0 => exact absurd rfl h8
      | 1 => rfl
      | 2 => exact absurd rfl h10
      | 3 => exact absurd rfl h11
      | j + 4 => rfl
  · have hone : 1 ≤ h.ttl := UInt8.le_iff_toNat_le.mpr (Nat.le_of_lt httl)
    have hsub : (h.ttl - 1).toNat = h.ttl.toNat - 1 := UInt8.toNat_sub_of_le _ _ hone
    rw [ttl_bytes, ttl_bytes, show h'.ttl = h.ttl - 1 from rfl, hsub]
    omega
  · have hvalue := InternetChecksum.value_add (show (h'.bytes h'.wireCksum).length < 2 ^ 16 by omega)
    rw [List.take_left' hlen, ← hvalue, value_wireCksum hw']
    rfl

end IPv4Header

theorem Forwardable.hopped {b : Buffer} (hb : Forwardable b) :
    let d := (({} : IPv4Datagram).parse b).2
    (({} : IPv4Datagram).parse b).1 = .noError ∧ ¬d.header.ttl ≤ 1 ∧
      ∃ out, d.hopped.serialize = .ok out ∧ HoppedBytes b out.concatenate := by
  obtain ⟨h, rest, hw, hfive, hlen, rfl⟩ :=
    IPv4Header.exists_bytes hb.toShaped hb.plain hb.reserved
  have httl := hb.ttl
  rw [IPv4Header.ttl_bytes] at httl
  have hlen : h.len.toNat = 4 * h.hlen.toNat + rest.length := by
    rw [hlen, hfive]
    rfl
  have hsize : BufferList.size [rest] = rest.length := by simp [BufferList.size]
  have hpayload : BufferList.size [rest] = h.payloadLength.toNat := by
    rw [IPv4Header.payloadLength_toNat (by omega), hsize]
    omega
  have hparse : ({} : IPv4Datagram).parse (h.bytes h.cksum ++ rest) = (.noError, ⟨h, [rest]⟩) := by
    simp only [parse, IPv4Header.parse_bytes_any _ hw h.cksum rest hlen]
    exact if_neg (not_not.mpr hpayload)
  rw [hparse]
  refine ⟨rfl, ?_, ?_⟩
  · rw [UInt8.le_iff_toNat_le]
    exact Nat.not_le.mpr httl
  · have hw' : { h with ttl := h.ttl - 1 }.Writable := ⟨hw.ver, hw.short, hw.long, hw.offset⟩
    have hserialize := IPv4Datagram.serialize_eq
      (d := ⟨{ h with ttl := h.ttl - 1 }, [rest]⟩) hw' (by rw [hsize]; exact hlen)
    have hwhole := IPv4Header.hopped_bytes hw hfive httl h.cksum rest
    exact ⟨_, hserialize, by simpa [BufferList.concatenate] using hwhole⟩

namespace NetworkInterface

/-- What sending leaves alone: the table of addresses, the interface's own address, and the
frames already queued. -/
structure Grows (i i' : NetworkInterface) : Prop where
  arpTable : i'.arpTable = i.arpTable
  ethernetAddress : i'.ethernetAddress = i.ethernetAddress
  framesOut : i.framesOut <+: i'.framesOut

theorem Grows.refl (i : NetworkInterface) : i.Grows i := ⟨rfl, rfl, List.prefix_rfl⟩

theorem Grows.trans {i i' i'' : NetworkInterface} (h : i.Grows i') (h' : i'.Grows i'') :
    i.Grows i'' :=
  ⟨h'.arpTable.trans h.arpTable, h'.ethernetAddress.trans h.ethernetAddress,
    h.framesOut.trans h'.framesOut⟩

theorem sendDatagram_grows {i i' : NetworkInterface} {d : IPv4Datagram} {hop : UInt32}
    (h : i.sendDatagram d hop = .ok i') : i.Grows i' := by
  unfold sendDatagram at h
  split at h
  · obtain ⟨l, -, h⟩ := bind_eq_ok h
    cases h
    exact ⟨rfl, rfl, List.prefix_append _ _⟩
  · split at h
    · obtain ⟨b, -, h⟩ := bind_eq_ok h
      cases h
      exact ⟨rfl, rfl, List.prefix_append _ _⟩
    · cases h
      exact ⟨rfl, rfl, List.prefix_rfl⟩

theorem sendDatagram_known {i : NetworkInterface} {d : IPv4Datagram} {hop : UInt32}
    {dst : EthernetAddress} {age : ℕ} (harp : i.arpTable.lookup hop = some (dst, age))
    {out : BufferList} (hout : d.serialize = .ok out) :
    i.sendDatagram d hop = .ok (i.pushDatagram dst EthernetHeader.TYPE_IPv4 out) := by
  simp only [sendDatagram, harp, hout, ok_bind]
  rfl

end NetworkInterface

namespace Router

/-- Every interface is still there, and has only been sent through. -/
def Grows (r r' : Router) : Prop :=
  ∀ (n : ℕ) (i : AsyncNetworkInterface), r.interfaces[n]? = some i →
    ∃ i', r'.interfaces[n]? = some i' ∧ i.toNetworkInterface.Grows i'.toNetworkInterface

theorem forward_grows {r r' : Router} {d : IPv4Datagram} {dec : Option (ℕ × UInt32)}
    (h : r.forward d dec = .ok r') : r.Grows r' := by
  cases dec with
  | none =>
    cases h
    exact fun n i hi => ⟨i, hi, .refl _⟩
  | some target =>
    obtain ⟨m, hop⟩ := target
    obtain ⟨next, hnext, h⟩ := bind_eq_ok h
    obtain ⟨iface, hsent, h⟩ := bind_eq_ok h
    cases h
    intro n i hi
    by_cases hn : m = n
    · subst hn
      obtain rfl : next = i := Option.some.inj ((interface_ok hnext).symm.trans hi)
      obtain ⟨hlt, -⟩ := List.getElem?_eq_some_iff.mp hi
      exact ⟨_, List.getElem?_set_self hlt, NetworkInterface.sendDatagram_grows hsent⟩
    · exact ⟨i, (List.getElem?_set_ne hn).trans hi, .refl _⟩

theorem exec_grows {r r' : Router} {ds : List IPv4Datagram}
    (h : exec routeOneDatagram r ds = .ok r') : r.Grows r' := by
  refine exec_ok_inv (I := r.Grows) ?_ (fun n i hi => ⟨i, hi, .refl _⟩) h
  intro s d s' hs hstep n i hi
  obtain ⟨i1, hi1, hgrows1⟩ := hs n i hi
  rw [routeOneDatagram_eq] at hstep
  obtain ⟨i2, hi2, hgrows2⟩ := forward_grows hstep n i1 hi1
  exact ⟨i2, hi2, hgrows1.trans hgrows2⟩

theorem step_recvFrame {r : Router} {n : ℕ} {i : AsyncNetworkInterface} {frame : EthernetFrame}
    {b : Buffer} (hi : r.interface n = .ok i) (hframe : frame.payload.toBuffer = .ok b)
    (htype : frame.header.type = EthernetHeader.TYPE_IPv4)
    (haddr : frame.header.dst = i.ethernetAddress ∨ frame.header.dst = ETHERNET_BROADCAST)
    (hparse : (({} : IPv4Datagram).parse b).1 = .noError) :
    r.step (.recvFrame n frame) = .ok (r.setInterface n
      { i with datagramsOut := i.datagramsOut ++ [(({} : IPv4Datagram).parse b).2] }) := by
  have hiface : i.toNetworkInterface.recvFrame frame =
      .ok (some (({} : IPv4Datagram).parse b).2, i.toNetworkInterface) := by
    rw [NetworkInterface.recvFrame, if_neg (not_not.mpr haddr), if_pos htype]
    simp only [hframe, ok_bind, hparse, if_true]
    rfl
  simp only [step, hi, ok_bind, AsyncNetworkInterface.recvFrame, hiface]
  rfl

theorem waiting_setInterface {r : Router} {n : ℕ} {i : AsyncNetworkInterface}
    (hn : n < r.interfaces.length) : (r.setInterface n i).waiting =
      (r.interfaces.take n).flatMap (·.datagramsOut) ++
        (i.datagramsOut ++ (r.interfaces.drop (n + 1)).flatMap (·.datagramsOut)) := by
  rw [waiting, setInterface, List.set_eq_take_append_cons_drop, if_pos hn, List.flatMap_append,
    List.flatMap_cons]

theorem route_pass {r r' : Router} (h : r.route = .ok r') :
    ∃ last, exec routeOneDatagram r r.waiting = .ok last ∧ last.emptied = r' := by
  rw [route_eq] at h
  cases hrun : exec routeOneDatagram r r.waiting with
  | error e => simp [hrun, Except.map] at h
  | ok last => exact ⟨last, rfl, by simpa [hrun, Except.map] using h⟩

theorem routeOneDatagram_known {r : Router} {d : IPv4Datagram} {e : RouteEntry}
    {next : AsyncNetworkInterface} {dst : EthernetAddress} {age : ℕ} {out : BufferList}
    (httl : ¬ d.header.ttl ≤ 1) (hbest : r.bestRoute d.header.dst = some e)
    (hnext : r.interface e.interfaceNum = .ok next)
    (harp : next.arpTable.lookup (e.nextHop.getD d.header.dst) = some (dst, age))
    (hout : d.hopped.serialize = .ok out) :
    r.routeOneDatagram d = .ok (r.setInterface e.interfaceNum { next with
      toNetworkInterface := next.pushDatagram dst EthernetHeader.TYPE_IPv4 out }) := by
  have hdec : r.decision d = some (e.interfaceNum, e.nextHop.getD d.header.dst) := by
    rw [decision, if_neg httl, hbest]
    rfl
  rw [routeOneDatagram_eq, hdec]
  simp only [forward, hnext, ok_bind, NetworkInterface.sendDatagram_known harp hout]
  rfl

/-- `before` is what is routed ahead of the datagram; `r2` is the router when its turn comes. -/
theorem forwarding_transparent (b : Buffer) (hb : Forwardable b) (r r1 r' : Router) (n : ℕ)
    (i next : AsyncNetworkInterface) (frame : EthernetFrame) (e : RouteEntry)
    (dst : EthernetAddress) (age : ℕ) (hi : r.interface n = .ok i)
    (hframe : frame.payload.toBuffer = .ok b)
    (htype : frame.header.type = EthernetHeader.TYPE_IPv4)
    (haddr : frame.header.dst = i.ethernetAddress ∨ frame.header.dst = ETHERNET_BROADCAST)
    (hrecv : r.step (.recvFrame n frame) = .ok r1) (hroute : r1.route = .ok r')
    (hbest : r1.bestRoute (({} : IPv4Datagram).parse b).2.header.dst = some e)
    (hnext : r1.interface e.interfaceNum = .ok next)
    (harp : next.arpTable.lookup
      (e.nextHop.getD (({} : IPv4Datagram).parse b).2.header.dst) = some (dst, age)) :
    let before := (r.interfaces.take n).flatMap (·.datagramsOut) ++ i.datagramsOut
    ∃ after r2 next2 next' out later,
      r1.waiting = before ++ (({} : IPv4Datagram).parse b).2 :: after ∧
      exec routeOneDatagram r1 before = .ok r2 ∧
      r2.interface e.interfaceNum = .ok next2 ∧ r'.interface e.interfaceNum = .ok next' ∧
      next'.framesOut = next2.framesOut ++
        ⟨⟨dst, next.ethernetAddress, EthernetHeader.TYPE_IPv4⟩, out⟩ :: later ∧
      HoppedBytes b out.concatenate := by
  intro before
  obtain ⟨hparse, httl, out, hout, hhopped⟩ := hb.hopped
  have hr1 := Except.ok.inj (hrecv.symm.trans (step_recvFrame hi hframe htype haddr hparse))
  obtain ⟨hn, -⟩ := List.getElem?_eq_some_iff.mp (interface_ok hi)
  have hwaiting : r1.waiting = before ++ (({} : IPv4Datagram).parse b).2 ::
      (r.interfaces.drop (n + 1)).flatMap (·.datagramsOut) := by
    rw [hr1, waiting_setInterface hn]
    simp only [before, List.append_assoc, List.singleton_append]
  -- the pass over everything that waits, cut at the datagram
  obtain ⟨last, hpass, rfl⟩ := route_pass hroute
  rw [hwaiting, exec_append] at hpass
  obtain ⟨r2, hbefore, hpass⟩ := bind_eq_ok hpass
  obtain ⟨r3, hstep, hafter⟩ := exec_cons_ok hpass
  obtain ⟨next2, hnext2, hgrows2⟩ := exec_grows hbefore _ _ (interface_ok hnext)
  have hiface2 : r2.interface e.interfaceNum = .ok next2 := by simp [interface, hnext2]
  have hbest2 : r2.bestRoute (({} : IPv4Datagram).parse b).2.header.dst = some e := by
    rw [bestRoute, (exec_kept hbefore).routeTable]
    exact hbest
  obtain rfl := Except.ok.inj (hstep.symm.trans
    (routeOneDatagram_known httl hbest2 hiface2 (hgrows2.arpTable ▸ harp) hout))
  obtain ⟨hlt, -⟩ := List.getElem?_eq_some_iff.mp hnext2
  obtain ⟨next', hnext', hgrows'⟩ := exec_grows hafter _ _ (List.getElem?_set_self hlt)
  obtain ⟨later, hlater⟩ := hgrows'.framesOut
  refine ⟨_, r2, next2, { next' with datagramsOut := [] }, out, later, hwaiting, hbefore, hiface2,
    ?_, ?_, hhopped⟩
  · simp [interface, emptied, hnext']
  · rw [← hgrows2.ethernetAddress]
    exact hlater.symm.trans (List.append_assoc _ _ _)

/-- A datagram with one byte of payload for a neighbour in 10.0.0.0/8. -/
theorem forwarding_transparent_neighbour :
    let b : Buffer :=
      [0x45, 0, 0, 21, 0, 0, 0x40, 0, 64, 6, 0x26, 0xe1, 10, 0, 0, 1, 10, 0, 0, 2, 7]
    let i : AsyncNetworkInterface :=
      { ethernetAddress := ⟨[2, 0, 0, 0, 0, 0], rfl⟩, ipAddress := 0x0b000001 }
    let next : AsyncNetworkInterface :=
      { ethernetAddress := ⟨[2, 0, 0, 0, 0, 1], rfl⟩, ipAddress := 0x0a000001
        arpTable := AList.insert 0x0a000002 (⟨[2, 0, 0, 0, 0, 8], rfl⟩, 0) ∅ }
    let r := ({ interfaces := [i, next] } : Router).addRoutes [⟨0x0a000000, 8, none, 1⟩]
    let frame : EthernetFrame := ⟨⟨ETHERNET_BROADCAST, .zero, EthernetHeader.TYPE_IPv4⟩, [b]⟩
    Forwardable b ∧ ∃ r1 r' next' out, r.step (.recvFrame 0 frame) = .ok r1 ∧
      r1.route = .ok r' ∧ r'.interface 1 = .ok next' ∧ out ∈ next'.framesOut ∧
      HoppedBytes b out.payload.concatenate := by
  intro b i next r frame
  have hb : Forwardable b :=
    { (show WellFormed b by decide) with
      plain := by decide
      reserved := by decide
      ttl := by decide }
  let r1 := r.setInterface 0 { i with datagramsOut := [(({} : IPv4Datagram).parse b).2] }
  have hrecv : r.step (.recvFrame 0 frame) = .ok r1 :=
    step_recvFrame rfl rfl rfl (.inr rfl) (by decide)
  have hok : r1.route.isOk = true := by decide +kernel
  obtain ⟨r', hroute⟩ : ∃ r', r1.route = .ok r' := by
    cases hr : r1.route with
    | error e =>
      rw [hr] at hok
      cases hok
    | ok r' => exact ⟨r', rfl⟩
  obtain ⟨_, _, _, next', out, _, -, -, -, hnext', hframes, hhopped⟩ :=
    forwarding_transparent b hb r r1 r' 0 i next frame ⟨0x0a000000, 8, none, 1⟩
      ⟨[2, 0, 0, 0, 0, 8], rfl⟩ 0 rfl rfl rfl (.inr rfl) hrecv hroute (by decide +kernel) rfl
      (by decide +kernel)
  refine ⟨hb, r1, r', next', ⟨⟨⟨[2, 0, 0, 0, 0, 8], rfl⟩, next.ethernetAddress,
    EthernetHeader.TYPE_IPv4⟩, out⟩, hrecv, hroute, hnext', ?_, hhopped⟩
  rw [hframes]
  exact List.mem_append_right _ List.mem_cons_self

end Router

end Sponge
