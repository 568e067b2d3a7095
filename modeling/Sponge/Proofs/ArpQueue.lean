import Sponge.Sanity.InterfaceMail

/-! A datagram given to an interface is sent once, waits or is given up, and those for
one next hop leave in order. -/

namespace Sponge

open NetworkInterface

/-- The datagram and next hop of a call of `send_datagram`. -/
def InterfaceOp.sent : InterfaceOp → Option (IPv4Datagram × UInt32)
  | .sendDatagram d a => some (d, a)
  | _ => none

namespace InterfaceRun

variable {r : InterfaceRun} {op : InterfaceOp} {frames : List EthernetFrame} {n : Numbers}

def Numbers.mail (n : Numbers) : Mail UInt32 where
  sent := n.sends.map Prod.snd
  carried := n.carried
  queued := n.queued
  dropped := n.dropped

theorem Moved.sends_eq (h : Moved r op frames n) : n.sends = r.sends ++ op.sent.toList := by
  cases h with
  | carry | lose | queue => rfl
  | deaf | release | drop => exact (List.append_nil _).symm

theorem Moved.serialisable (h : Moved r op frames n)
    (hop : ∀ d a, op = .sendDatagram d a → d.Serialisable)
    (hr : ∀ a, ∀ d ∈ r.interface.waiting a, d.Serialisable) :
    ∀ a, ∀ d ∈ n.waiting a, d.Serialisable := by
  intro b x hx
  cases h with
  | carry | lose | deaf => exact hr b x hx
  | @queue d a ha =>
    dsimp only at hx
    split_ifs at hx with hb
    · rcases List.mem_append.mp hx with hx | hx
      · exact hr b x hx
      · exact List.mem_singleton.mp hx ▸ hop d a rfl
    · exact hr b x hx
  | release hm hls =>
    dsimp only at hx
    split_ifs at hx
    · exact absurd hx List.not_mem_nil
    · exact hr b x hx
  | drop =>
    dsimp only at hx
    split_ifs at hx
    · exact absurd hx List.not_mem_nil
    · exact hr b x hx

theorem written_length {ds : List IPv4Datagram} (h : ∀ d ∈ ds, d.Serialisable) :
    (written ds).length = ds.length := by
  induction ds with
  | nil => rfl
  | cons d ds ih =>
    obtain ⟨l, hl⟩ := h d List.mem_cons_self
    simp only [written, hl, List.length_cons]
    rw [ih fun x hx => h x (List.mem_cons_of_mem d hx)]

/-- The datagrams that wait can be written out, no known address is waited for, and the
numbers are where the mail has them. -/
structure Posted (r : InterfaceRun) : Prop where
  numbered : r.Numbered
  serialisable : ∀ a, ∀ d ∈ r.interface.waiting a, d.Serialisable
  unknown : ∀ a ∈ r.interface.arpWaitIpdata, a ∉ r.interface.arpTable
  kept : r.numbers.mail.Kept

theorem Posted.new (ethernetAddress : EthernetAddress) (ipAddress : UInt32) :
    (InterfaceRun.new ethernetAddress ipAddress).Posted where
  numbered := Numbered.new ethernetAddress ipAddress
  serialisable _ _ hd := absurd hd List.not_mem_nil
  unknown a ha := absurd ha (AList.notMem_empty a)
  kept := {
    queued := fun _ _ hn => absurd hn List.not_mem_nil
    carried := fun _ hn => absurd hn List.not_mem_nil
    dropped := fun _ hn => absurd hn List.not_mem_nil
    once := fun _ _ hn => by cases hn
    order := fun _ => .nil }

theorem Posted.move (h : r.Posted) (hmoved : Moved r op frames n)
    (hop : ∀ d a, op = .sendDatagram d a → d.Serialisable) :
    Mail.Move r.numbers.mail n.mail := by
  cases hmoved with
  | @carry d a e l ha hl =>
    have hnot : a ∉ r.interface.arpWaitIpdata := fun hmem =>
      h.unknown a hmem (Table.mem_iff_lookup.mpr ⟨e, ha⟩)
    have hmove := Mail.Move.carry r.numbers.mail a (h.numbered.queued_of_notMem hnot)
    simpa [Numbers.mail, numbers] using hmove
  | @lose d a hd => exact absurd (hop d a rfl) hd
  | @queue d a ha =>
    have hmove := Mail.Move.queue r.numbers.mail a
    simpa [Numbers.mail, numbers] using hmove
  | deaf => exact .stay _
  | @release frame m ls hm hls =>
    have hall : ls.length = (r.interface.waiting m.senderIpAddress).length :=
      hls ▸ written_length (h.serialisable m.senderIpAddress)
    have htake : (r.queued m.senderIpAddress).take
        (r.interface.waiting m.senderIpAddress).length = r.queued m.senderIpAddress := by
      rw [(h.numbered.waiting m.senderIpAddress).length_eq, List.take_length]
    have hmove := Mail.Move.release r.numbers.mail m.senderIpAddress
    simpa [Numbers.mail, numbers, hall, htake] using hmove
  | @drop ms => exact .drop r.numbers.mail _ (r.interface.expired_nodup ms)

theorem Posted.unknown_step (h : r.Posted) (op : InterfaceOp) :
    ∀ a ∈ (r.step op).interface.arpWaitIpdata, a ∉ (r.step op).interface.arpTable := by
  obtain ⟨frames, i', hleft, -, hl⟩ := r.interface.left_cases op
  have hinterface : (r.step op).interface = i' := hl
  rw [hinterface]
  cases hleft with
  | hit | refused | deaf => exact h.unknown
  | @asks d a b ha hr hb =>
    intro a' ha'
    rcases Table.mem_emplace.mp ha' with rfl | ha'
    · exact ha
    · exact h.unknown a' ha'
  | waits ha hr =>
    intro a' ha'
    rcases (AList.mem_insert _).mp ha' with rfl | ha'
    · exact ha
    · exact h.unknown a' ha'
  | @heard frame m replies wait' hm hreplies hwait =>
    intro a ha
    obtain ⟨ds, hds⟩ := Table.mem_iff_lookup.mp ha
    rw [hwait a] at hds
    split_ifs at hds with hcleared
    -- everything that waited for the sender was written out, so this is another address
    have hother : a ≠ m.senderIpAddress := fun heq =>
      hcleared ⟨heq, written_length (h.serialisable m.senderIpAddress)⟩
    have hold := h.unknown a (Table.mem_iff_lookup.mpr ⟨ds, hds⟩)
    exact fun hmem => ((AList.mem_insert _).mp hmem).elim hother hold
  | @tick ms =>
    intro a ha hmem
    obtain ⟨ds, hds⟩ := Table.mem_iff_lookup.mp ha
    have hwait := (Table.lookup_eraseAll r.interface.arpWaitIpdata _ a).symm.trans hds
    split_ifs at hwait
    obtain ⟨e, he⟩ := Table.mem_iff_lookup.mp hmem
    obtain ⟨e', he', -⟩ := Option.bind_eq_some_iff.mp ((Table.lookup_sweep _ _ a).symm.trans he)
    exact h.unknown a (Table.mem_iff_lookup.mpr ⟨ds, hwait⟩) (Table.mem_iff_lookup.mpr ⟨e', he'⟩)

theorem Posted.step (h : r.Posted) (hop : ∀ d a, op = .sendDatagram d a → d.Serialisable) :
    (r.step op).Posted where
  numbered := h.numbered.step op
  serialisable := (h.numbered.moved op).serialisable hop h.serialisable
  unknown := h.unknown_step op
  kept := h.kept.move (h.move (h.numbered.moved op) hop)

theorem sends_eq (ethernetAddress : EthernetAddress) (ipAddress : UInt32)
    (ops : List InterfaceOp) :
    ((InterfaceRun.new ethernetAddress ipAddress).run ops).sends =
      ops.filterMap InterfaceOp.sent := by
  induction ops using List.reverseRecOn with
  | nil => rfl
  | append_singleton past op ih =>
    have hstep := ((numbered ethernetAddress ipAddress past).moved op).sends_eq
    rw [run, List.foldl_concat, ← run]
    refine hstep.trans ?_
    rw [ih, List.filterMap_append]
    cases op <;> rfl

/-- A number is dropped by a tick in which the request of its next hop reaches its limit. -/
theorem dropped_expired (start : InterfaceRun) (hstart : start.dropped = [])
    (ops : List InterfaceOp) :
    ∀ k ∈ (start.run ops).dropped, ∃ past ms a t, past ++ [.tick ms] <+: ops ∧
      k ∈ (start.run past).queued a ∧
      (start.run past).interface.arpRequestTime.lookup a = some t ∧
      ARP_REPLY_TTL_MS ≤ uadd t ms := by
  induction ops using List.reverseRecOn with
  | nil =>
    intro k hk
    exact absurd (hstart ▸ hk) List.not_mem_nil
  | append_singleton past op ih =>
    intro k hk
    rw [run, List.foldl_concat, ← run] at hk
    rcases List.mem_append.mp hk with hk | hk
    · obtain ⟨past', ms, a, t, hpast, hrest⟩ := ih k hk
      exact ⟨past', ms, a, t, hpast.trans (List.prefix_append _ _), hrest⟩
    · cases op with
      | sendDatagram d a => exact absurd hk List.not_mem_nil
      | recvFrame frame => exact absurd hk List.not_mem_nil
      | tick ms =>
        obtain ⟨a, ha, hka⟩ := List.mem_flatMap.mp hk
        obtain ⟨t, ht, hle⟩ := mem_expired.mp ha
        exact ⟨past, ms, a, t, List.prefix_rfl, hka, ht, hle⟩

end InterfaceRun

open InterfaceRun

/-- The datagrams given in `ops`, numbered in order, and where each of them is. -/
structure ArpQueue (start r : InterfaceRun) (ops : List InterfaceOp) : Prop where
  sends : r.sends = ops.filterMap InterfaceOp.sent
  keys : ∀ a ∈ r.interface.arpWaitIpdata,
    a ∈ r.interface.arpRequestTime ∧ a ∉ r.interface.arpTable
  frames : List.Forall₂
    (fun f n => ∃ d a, r.sends[n]? = some (d, a) ∧ d.serialize = .ok f.payload)
    (r.interface.framesOut.filter EthernetFrame.isIPv4) r.carried
  waiting : ∀ a, List.Forall₂ (fun d n => r.sends[n]? = some (d, a))
    ((r.interface.arpWaitIpdata.lookup a).getD []) (r.queued a)
  once : ∀ n d a, r.sends[n]? = some (d, a) →
    r.carried.count n + (r.queued a).count n + r.dropped.count n = 1
  dropped : ∀ n ∈ r.dropped, ∃ past ms a t, past ++ [.tick ms] <+: ops ∧
    n ∈ (start.run past).queued a ∧
    (start.run past).interface.arpRequestTime.lookup a = some t ∧ 5000 ≤ uadd t ms
  order : ∀ a, (r.carried.filter fun n => r.sends[n]?.map Prod.snd = some a).Pairwise (· < ·)

/-- After every run in which the datagrams given can be written out. -/
theorem arp_queue (ethernetAddress : EthernetAddress) (ipAddress : UInt32)
    (ops : List InterfaceOp) (hops : ∀ d a, .sendDatagram d a ∈ ops → d.Serialisable) :
    ArpQueue (new ethernetAddress ipAddress) ((new ethernetAddress ipAddress).run ops) ops := by
  have hposted : ((new ethernetAddress ipAddress).run ops).Posted := by
    refine foldl_inv (C := fun _ op => ∀ d a, op = .sendDatagram d a → d.Serialisable)
      (fun _ _ h hop => h.step hop) (Posted.new ethernetAddress ipAddress) ops ?_
    rintro past op hpast d a rfl
    exact hops d a (hpast.subset (List.mem_append_right _ List.mem_cons_self))
  have hgoes : ∀ a, ((new ethernetAddress ipAddress).run ops).numbers.mail.goesTo a =
      fun n => decide (((new ethernetAddress ipAddress).run ops).sends[n]?.map Prod.snd = some a) := by
    intro a
    funext n
    refine decide_eq_decide.mpr ?_
    rw [← List.getElem?_map]
    rfl
  exact {
    sends := sends_eq ethernetAddress ipAddress ops
    keys := fun a ha => ⟨hposted.numbered.requested a ha, hposted.unknown a ha⟩
    frames := hposted.numbered.carried
    waiting := hposted.numbered.waiting
    once := fun n d a hn => hposted.kept.once n a (by simp [Numbers.mail, numbers, hn])
    dropped := dropped_expired _ rfl ops
    order := fun a => hgoes a ▸ (List.pairwise_append.mp (hposted.kept.order a)).1 }

/-- Of two datagrams for one hop the first is given up before the reply comes. -/
theorem arp_queue_reply :
    ArpQueue (new ETHERNET_BROADCAST 7)
      ((new ETHERNET_BROADCAST 7).run [.sendDatagram { header := { len := 20 } } 1, .tick 5000,
        .sendDatagram { header := { len := 20 } } 1, .recvFrame replyOne])
      [.sendDatagram { header := { len := 20 } } 1, .tick 5000,
        .sendDatagram { header := { len := 20 } } 1, .recvFrame replyOne] ∧
    ((new ETHERNET_BROADCAST 7).run [.sendDatagram { header := { len := 20 } } 1, .tick 5000,
      .sendDatagram { header := { len := 20 } } 1, .recvFrame replyOne]).dropped = [0] ∧
    ((new ETHERNET_BROADCAST 7).run [.sendDatagram { header := { len := 20 } } 1, .tick 5000,
      .sendDatagram { header := { len := 20 } } 1, .recvFrame replyOne]).carried = [1] := by
  refine ⟨arp_queue _ _ _ ?_, by decide +kernel, by decide +kernel⟩
  have hd : IPv4Datagram.Serialisable { header := { len := 20 } } := by decide +kernel
  intro d a hmem
  simp only [List.mem_cons, InterfaceOp.sendDatagram.injEq, reduceCtorEq, List.not_mem_nil,
    or_false, false_or] at hmem
  rcases hmem with ⟨rfl, -⟩ | ⟨rfl, -⟩ <;> exact hd

end Sponge
