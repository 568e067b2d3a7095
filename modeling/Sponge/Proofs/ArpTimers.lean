import Sponge.Sanity.InterfaceMail

/-! When an interface asks for an address, and how fresh the addresses are that it
sends to. -/

namespace Sponge

open NetworkInterface

theorem NetworkInterface.emitted_asks (i : NetworkInterface) (op : InterfaceOp) (a : UInt32) :
    (i.emitted op).any (·.asks a) = true ↔
      ∃ d, op = .sendDatagram d a ∧ a ∉ i.arpTable ∧ a ∉ i.arpRequestTime := by
  obtain ⟨frames, i', hleft, hem, -⟩ := i.left_cases op
  rw [hem]
  cases hleft with
  | @hit d b e l hb hl =>
    simp only [List.any_cons, ipFrame_asks, List.any_nil, Bool.or_false, Bool.false_eq_true,
      false_iff]
    rintro ⟨d', hop, hnew, -⟩
    cases hop
    exact hnew (Table.mem_iff_lookup.mpr ⟨e, hb⟩)
  | refused hb hd =>
    simp only [List.any_nil, Bool.false_eq_true, false_iff]
    rintro ⟨d', hop, hnew, -⟩
    cases hop
    exact hnew hb
  | @asks d b bytes hb hr hbytes =>
    simp only [List.any_cons, i.request_asks hbytes, List.any_nil, Bool.or_false, decide_eq_true_eq]
    constructor
    · rintro rfl
      exact ⟨d, rfl, hb, hr⟩
    · rintro ⟨d', hop, -, -⟩
      cases hop
      rfl
  | waits hb hr =>
    simp only [List.any_nil, Bool.false_eq_true, false_iff]
    rintro ⟨d', hop, -, hnew⟩
    cases hop
    exact hnew hr
  | deaf => simp
  | @heard frame m replies wait' hm hreplies hwait =>
    have hnone : (replies ++ (written (i.waiting m.senderIpAddress)).map
        (i.ipFrame m.senderEthernetAddress)).any (·.asks a) = false := by
      rw [List.any_append, Bool.or_eq_false_iff]
      refine ⟨List.any_eq_false.mpr fun f hf => ?_, List.any_eq_false.mpr fun f hf => ?_⟩
      · simp [(hreplies f hf).2 a]
      · obtain ⟨l, -, rfl⟩ := List.mem_map.mp hf
        simp [ipFrame_asks]
    simp [hnone]
  | tick => simp

namespace InterfaceRun

theorem aged (ethernetAddress : EthernetAddress) (ipAddress : UInt32) (ops : List InterfaceOp)
    (hfits : ∀ past op, past ++ [op] <+: ops → ((new ethernetAddress ipAddress).run past).Fits op) :
    ((new ethernetAddress ipAddress).run ops).Aged :=
  foldl_inv (C := Fits) (fun _ _ h hf => h.step hf) (Aged.new ethernetAddress ipAddress) ops hfits

theorem Aged.fits {r : InterfaceRun} (h : r.Aged) {op : InterfaceOp}
    (hp : passed op + ARP_ENTRY_TTL_MS ≤ 2 ^ 64) : r.Fits op := by
  cases op with
  | sendDatagram d a => trivial
  | recvFrame frame => trivial
  | tick ms =>
    have hms : ms + 30000 ≤ 2 ^ 64 := hp
    refine ⟨fun a e he => ?_, fun a t ht => ?_⟩
    · have hlt : e.2 < 30000 := (young_eq_some.mp ((h.heard a).symm.trans he)).2
      omega
    · have hlt : t < 5000 := (young_eq_some.mp ((h.asked a).symm.trans ht)).2
      omega

/-- Timers are below their limits, so no sum wraps while the clock is read often enough. -/
theorem fits_of_passed (ethernetAddress : EthernetAddress) (ipAddress : UInt32)
    {ops : List InterfaceOp} (h : ∀ op ∈ ops, passed op + ARP_ENTRY_TTL_MS ≤ 2 ^ 64)
    (past : List InterfaceOp) (op : InterfaceOp) (hpast : past ++ [op] <+: ops) :
    ((new ethernetAddress ipAddress).run past).Fits op := by
  have hmem : ∀ x ∈ past ++ [op], x ∈ ops := fun x hx => hpast.subset hx
  have haged : ((new ethernetAddress ipAddress).run past).Aged := by
    refine foldl_inv (C := fun _ x => passed x + ARP_ENTRY_TTL_MS ≤ 2 ^ 64)
      (fun _ _ hr hx => hr.step (hr.fits hx)) (Aged.new ethernetAddress ipAddress) past ?_
    intro past' x hx
    have hx' : x ∈ past := hx.subset (List.mem_append_right _ List.mem_cons_self)
    exact h x (hmem x (List.mem_append_left _ hx'))
  exact haged.fits (h op (hmem op (List.mem_append_right _ List.mem_cons_self)))

theorem asked_le {a : UInt32} (ops : List InterfaceOp) : ∀ {r : InterfaceRun} {t : ℕ},
    r.asked a = some t → ∃ t', (r.run ops).asked a = some t' ∧ t' ≤ t + (ops.map passed).sum := by
  induction ops with
  | nil => exact fun {r t} h => ⟨t, h, Nat.le_refl _⟩
  | cons op ops ih =>
    intro r t h
    obtain ⟨t₁, ht₁, hle₁⟩ : ∃ t₁, (r.step op).asked a = some t₁ ∧ t₁ ≤ t + passed op := by
      simp only [step, askedAfter, h, Option.map_some]
      split_ifs
      · exact ⟨0, rfl, Nat.zero_le _⟩
      · exact ⟨t + passed op, rfl, Nat.le_refl _⟩
    obtain ⟨t₂, ht₂, hle₂⟩ := ih ht₁
    refine ⟨t₂, ht₂, ?_⟩
    rw [List.map_cons, List.sum_cons]
    omega

theorem Aged.asks_iff {r : InterfaceRun} (h : r.Aged) (d : IPv4Datagram) (a : UInt32) :
    (r.interface.emitted (.sendDatagram d a)).any (·.asks a) = true ↔
      a ∉ r.interface.arpTable ∧ ∀ t, r.asked a = some t → ARP_REPLY_TTL_MS ≤ t := by
  rw [emitted_asks, ← AList.lookup_eq_none (s := r.interface.arpRequestTime), h.asked a,
    young_eq_none]
  constructor
  · rintro ⟨d', -, hnew⟩
    exact hnew
  · intro hnew
    exact ⟨d, rfl, hnew⟩

/-- The frame carries the datagram number `n`, to the sender of the last ARP message from
the next hop the datagram was given with, which came less than 30 seconds ago. -/
def Fresh (r : InterfaceRun) (f : EthernetFrame) (n : ℕ) : Prop :=
  ∃ d a t, r.sends[n]? = some (d, a) ∧ d.serialize = .ok f.payload ∧
    r.heard a = some (f.header.dst, t) ∧ t < ARP_ENTRY_TTL_MS

end InterfaceRun

open InterfaceRun

/-- In every run whose timer sums stay below 2^64, at every point. -/
theorem arp_request_rate (ethernetAddress : EthernetAddress) (ipAddress : UInt32)
    (ops : List InterfaceOp)
    (hfits : ∀ past op, past ++ [op] <+: ops → ((new ethernetAddress ipAddress).run past).Fits op) :
    (∀ d a, (((new ethernetAddress ipAddress).run ops).interface.emitted (.sendDatagram d a)).any
        (·.asks a) = true ↔
      a ∉ ((new ethernetAddress ipAddress).run ops).interface.arpTable ∧
        ∀ t, ((new ethernetAddress ipAddress).run ops).asked a = some t → 5000 ≤ t) ∧
    ∀ a before op mid op' after, ops = before ++ op :: (mid ++ op' :: after) →
      (((new ethernetAddress ipAddress).run before).interface.emitted op).any (·.asks a) = true →
      (((new ethernetAddress ipAddress).run (before ++ op :: mid)).interface.emitted op').any
        (·.asks a) = true →
      5000 ≤ (mid.map passed).sum := by
  refine ⟨(aged ethernetAddress ipAddress ops hfits).asks_iff, ?_⟩
  intro a before op mid op' after hops hfirst hsecond
  have hfirst' : ((new ethernetAddress ipAddress).run (before ++ [op])).asked a = some 0 := by
    simp only [run, List.foldl_append, List.foldl_cons, List.foldl_nil]
    exact if_pos hfirst
  obtain ⟨t, ht, hle⟩ := asked_le mid hfirst'
  have hmid : before ++ op :: mid <+: ops := ⟨op' :: after, by rw [hops]; simp⟩
  have haged := aged ethernetAddress ipAddress (before ++ op :: mid)
    fun past x hpast => hfits past x (hpast.trans hmid)
  obtain ⟨d, rfl, -⟩ := (emitted_asks _ _ _).mp hsecond
  have hlate := ((haged.asks_iff d a).mp hsecond).2 t (by rw [← ht]; simp [run])
  exact (hlate.trans hle).trans_eq (Nat.zero_add _)

/-- A datagram that comes 4999 ms after the request waits, one a millisecond later makes
the interface ask again. -/
theorem arp_request_rate_again :
    (((new ETHERNET_BROADCAST 7).run [.sendDatagram {} 1, .tick 4999]).interface.emitted
      (.sendDatagram {} 1)).any (·.asks 1) = false ∧
    (((new ETHERNET_BROADCAST 7).run [.sendDatagram {} 1, .tick 4999, .tick 1]).interface.emitted
      (.sendDatagram {} 1)).any (·.asks 1) = true := by
  have hearly := (arp_request_rate ETHERNET_BROADCAST 7 [.sendDatagram {} 1, .tick 4999]
    (fits_of_passed _ _ (by decide))).1 {} 1
  have hlate := (arp_request_rate ETHERNET_BROADCAST 7 [.sendDatagram {} 1, .tick 4999, .tick 1]
    (fits_of_passed _ _ (by decide))).1 {} 1
  have hbefore : ((new ETHERNET_BROADCAST 7).run [.sendDatagram {} 1, .tick 4999]).asked 1 =
      some 4999 := by
    decide +kernel
  have hafter : ((new ETHERNET_BROADCAST 7).run
      [.sendDatagram {} 1, .tick 4999, .tick 1]).asked 1 = some 5000 := by
    decide +kernel
  constructor
  · refine Bool.eq_false_iff.mpr fun hasks => ?_
    exact absurd ((hearly.mp hasks).2 4999 hbefore) (by decide)
  · refine hlate.mpr ⟨by decide +kernel, fun t ht => ?_⟩
    exact (Option.some.inj (hafter.symm.trans ht)).le

/-- Every IPv4 frame of every call of a run whose timer sums stay below 2^64. -/
theorem arp_cache_fresh (ethernetAddress : EthernetAddress) (ipAddress : UInt32)
    (ops : List InterfaceOp)
    (hfits : ∀ past op, past ++ [op] <+: ops → ((new ethernetAddress ipAddress).run past).Fits op)
    (past : List InterfaceOp) (op : InterfaceOp) (hpast : past ++ [op] <+: ops) :
    ∃ numbers,
      ((new ethernetAddress ipAddress).run (past ++ [op])).carried =
        ((new ethernetAddress ipAddress).run past).carried ++ numbers ∧
      List.Forall₂ ((new ethernetAddress ipAddress).run (past ++ [op])).Fresh
        ((((new ethernetAddress ipAddress).run past).interface.emitted op).filter
          EthernetFrame.isIPv4) numbers := by
  have haged := aged ethernetAddress ipAddress (past ++ [op])
    fun past' x hx => hfits past' x (hx.trans hpast)
  have hstep : (new ethernetAddress ipAddress).run (past ++ [op]) =
      ((new ethernetAddress ipAddress).run past).step op := List.foldl_concat _ _ _ _
  obtain ⟨numbers, hcarried, hframes⟩ := (numbered ethernetAddress ipAddress past).carries op
  rw [← hstep] at hcarried hframes
  refine ⟨numbers, hcarried, hframes.imp ?_⟩
  rintro f n ⟨d, a, t, hn, hd, hknown⟩
  obtain ⟨hheard, hyoung⟩ := young_eq_some.mp ((haged.heard a).symm.trans hknown)
  exact ⟨d, a, t, hn, hd, hheard, hyoung⟩

/-- A datagram that waited is sent when the reply comes. -/
theorem arp_cache_fresh_reply :
    ∃ numbers,
      ((new ETHERNET_BROADCAST 7).run ([.sendDatagram { header := { len := 20 } } 1, .tick 10] ++
        [.recvFrame replyOne])).carried = [] ++ numbers ∧
      List.Forall₂
        ((new ETHERNET_BROADCAST 7).run ([.sendDatagram { header := { len := 20 } } 1, .tick 10] ++
          [.recvFrame replyOne])).Fresh
        ((((new ETHERNET_BROADCAST 7).run [.sendDatagram { header := { len := 20 } } 1,
          .tick 10]).interface.emitted (.recvFrame replyOne)).filter EthernetFrame.isIPv4) numbers :=
  arp_cache_fresh ETHERNET_BROADCAST 7
    ([.sendDatagram { header := { len := 20 } } 1, .tick 10] ++ [.recvFrame replyOne])
    (fits_of_passed _ _ (by decide)) _ _ List.prefix_rfl

end Sponge
