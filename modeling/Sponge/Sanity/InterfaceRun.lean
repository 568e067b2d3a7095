import Sponge.Lib.Aging
import Sponge.Lib.Exec
import Sponge.Sanity.Ethernet
import Sponge.Sanity.NetworkInterface
import Sponge.Spec.InterfaceRun

/-! What one call can do to an interface, and from it that in every run the timers are
the times since the interface asked and heard. -/

namespace Sponge

namespace NetworkInterface

def ipFrame (i : NetworkInterface) (dst : EthernetAddress) (l : BufferList) : EthernetFrame :=
  ⟨⟨dst, i.ethernetAddress, EthernetHeader.TYPE_IPv4⟩, l⟩

def arpFrame (i : NetworkInterface) (dst : EthernetAddress) (b : Buffer) : EthernetFrame :=
  ⟨⟨dst, i.ethernetAddress, EthernetHeader.TYPE_ARP⟩, [b]⟩

/-- The datagrams that wait for an address. -/
def waiting (i : NetworkInterface) (a : UInt32) : List IPv4Datagram :=
  (i.arpWaitIpdata.lookup a).getD []

/-- Every way a call can go, with the frames it sends and the interface it leaves. -/
inductive Left (i : NetworkInterface) :
    InterfaceOp → List EthernetFrame → NetworkInterface → Prop
  | hit {d a e l} (ha : i.arpTable.lookup a = some e) (hl : d.serialize = .ok l) :
      Left i (.sendDatagram d a) [i.ipFrame e.1 l]
        { i with framesOut := i.framesOut ++ [i.ipFrame e.1 l] }
  | refused {d a} (ha : a ∈ i.arpTable) (hd : ¬d.Serialisable) : Left i (.sendDatagram d a) [] i
  | asks {d a b} (ha : a ∉ i.arpTable) (hr : a ∉ i.arpRequestTime)
      (hb : (i.arpRequest a).serialize = .ok b) :
      Left i (.sendDatagram d a) [i.arpFrame ETHERNET_BROADCAST b] { i with
        framesOut := i.framesOut ++ [i.arpFrame ETHERNET_BROADCAST b]
        arpRequestTime := i.arpRequestTime.insert a 0
        arpWaitIpdata := i.arpWaitIpdata.emplace a [d] }
  | waits {d a} (ha : a ∉ i.arpTable) (hr : a ∈ i.arpRequestTime) :
      Left i (.sendDatagram d a) [] { i with
        arpWaitIpdata := i.arpWaitIpdata.insert a (i.waiting a ++ [d]) }
  | deaf {frame} (hm : hears i.ethernetAddress frame = none) : Left i (.recvFrame frame) [] i
  | heard {frame m replies wait'} (hm : hears i.ethernetAddress frame = some m)
      (hreplies : ∀ f ∈ replies, f.isIPv4 = false ∧ ∀ a, f.asks a = false)
      (hwait : ∀ a, wait'.lookup a = if a = m.senderIpAddress ∧
          (written (i.waiting m.senderIpAddress)).length = (i.waiting m.senderIpAddress).length
        then none else i.arpWaitIpdata.lookup a) :
      Left i (.recvFrame frame)
        (replies ++ (written (i.waiting m.senderIpAddress)).map (i.ipFrame m.senderEthernetAddress))
        { i with
          framesOut := i.framesOut ++ (replies ++
            (written (i.waiting m.senderIpAddress)).map (i.ipFrame m.senderEthernetAddress))
          arpTable := i.arpTable.insert m.senderIpAddress (m.senderEthernetAddress, 0)
          arpWaitIpdata := wait' }
  | tick {ms} : Left i (.tick ms) [] (i.tick ms)

theorem ipFrame_isIPv4 (i : NetworkInterface) (dst : EthernetAddress) (l : BufferList) :
    (i.ipFrame dst l).isIPv4 = true := decide_eq_true rfl

theorem ipFrame_asks (i : NetworkInterface) (dst : EthernetAddress) (l : BufferList) (a : UInt32) :
    (i.ipFrame dst l).asks a = false := by
  have hnone : (i.ipFrame dst l).arp = none :=
    if_neg (show ¬EthernetHeader.TYPE_IPv4 = EthernetHeader.TYPE_ARP by decide)
  simp [EthernetFrame.asks, hnone]

theorem arpFrame_isIPv4 (i : NetworkInterface) (dst : EthernetAddress) (b : Buffer) :
    (i.arpFrame dst b).isIPv4 = false :=
  decide_eq_false (show ¬EthernetHeader.TYPE_ARP = EthernetHeader.TYPE_IPv4 by decide)

theorem arpFrame_arp (i : NetworkInterface) (dst : EthernetAddress) {m : ARPMessage} {b : Buffer}
    (hb : m.serialize = .ok b) : (i.arpFrame dst b).arp = some m := by
  have hparse := ARPMessage.parse_serialize {} m hb []
  rw [List.append_nil] at hparse
  show (if EthernetHeader.TYPE_ARP = EthernetHeader.TYPE_ARP then _ else none) = _
  simp [arpFrame, BufferList.toBuffer, hparse]

theorem request_asks (i : NetworkInterface) {a : UInt32} {b : Buffer}
    (hb : (i.arpRequest a).serialize = .ok b) (a' : UInt32) :
    (i.arpFrame ETHERNET_BROADCAST b).asks a' = decide (a = a') := by
  rw [EthernetFrame.asks, i.arpFrame_arp _ hb]
  simp [arpFrame, arpRequest]

theorem reply_asks (i : NetworkInterface) (dst : EthernetAddress) {m : ARPMessage} {b : Buffer}
    (hb : (i.arpReply m).serialize = .ok b) (a : UInt32) : (i.arpFrame dst b).asks a = false := by
  rw [EthernetFrame.asks, i.arpFrame_arp _ hb]
  simp [arpReply, ARPMessage.OPCODE_REPLY, ARPMessage.OPCODE_REQUEST]

theorem answerRequest_eq (i : NetworkInterface) (m : ARPMessage) :
    ∃ replies, i.answerRequest m = .ok { i with framesOut := i.framesOut ++ replies } ∧
      ∀ f ∈ replies, f.isIPv4 = false ∧ ∀ a, f.asks a = false := by
  unfold answerRequest
  split
  · obtain ⟨b, hb⟩ := i.arpReply_serialize m
    refine ⟨[i.arpFrame m.senderEthernetAddress b], by simp only [hb, ok_bind]; rfl, ?_⟩
    rw [List.forall_mem_singleton]
    exact ⟨i.arpFrame_isIPv4 _ b, i.reply_asks _ hb⟩
  · exact ⟨[], by simp, by simp⟩

theorem pushDatagrams_eq (dst : EthernetAddress) (ls : List BufferList) (i : NetworkInterface) :
    ls.foldl (fun i l => i.pushDatagram dst EthernetHeader.TYPE_IPv4 l) i =
      { i with framesOut := i.framesOut ++ ls.map (i.ipFrame dst) } := by
  induction ls generalizing i with
  | nil => simp
  | cons l ls ih =>
    rw [List.foldl_cons, ih]
    simp [pushDatagram, ipFrame]

theorem leftByArp_eq (i : NetworkInterface) (m : ARPMessage) :
    ∃ replies wait', (∀ f ∈ replies, f.isIPv4 = false ∧ ∀ a, f.asks a = false) ∧
      (∀ a, wait'.lookup a = if a = m.senderIpAddress ∧
          (written (i.waiting m.senderIpAddress)).length = (i.waiting m.senderIpAddress).length
        then none else i.arpWaitIpdata.lookup a) ∧
      i.leftByArp m = { i with
        framesOut := i.framesOut ++ (replies ++
          (written (i.waiting m.senderIpAddress)).map (i.ipFrame m.senderEthernetAddress))
        arpTable := i.arpTable.insert m.senderIpAddress (m.senderEthernetAddress, 0)
        arpWaitIpdata := wait' } := by
  obtain ⟨replies, hanswer, hreplies⟩ := answerRequest_eq { i with
    arpTable := i.arpTable.insert m.senderIpAddress (m.senderEthernetAddress, 0) } m
  simp only [leftByArp, hanswer, Except.toOption, Option.getD_some, waiting]
  obtain hdata | ⟨data, hdata⟩ := (i.arpWaitIpdata.lookup m.senderIpAddress).eq_none_or_eq_some
  · simp only [hdata]
    refine ⟨replies, i.arpWaitIpdata, hreplies, ?_, by simp [written]⟩
    intro a
    split_ifs with ha
    · rw [ha.1, hdata]
    · rfl
  · simp only [hdata, Option.getD_some, pushDatagrams_eq]
    by_cases hall : (written data).length = data.length
    · refine ⟨replies, i.arpWaitIpdata.erase m.senderIpAddress, hreplies, ?_, ?_⟩
      · intro a
        rw [Table.lookup_erase_eq]
        simp [hall]
      · rw [if_pos hall, List.append_assoc]
        rfl
    · refine ⟨replies, i.arpWaitIpdata, hreplies, by simp [hall], ?_⟩
      rw [if_neg hall, List.append_assoc]
      rfl

theorem Left.framesOut {i i' : NetworkInterface} {op : InterfaceOp} {frames : List EthernetFrame}
    (h : Left i op frames i') : i'.framesOut = i.framesOut ++ frames := by
  cases h with
  | hit | asks | heard => rfl
  | refused | waits | deaf | tick => exact (List.append_nil _).symm

theorem left_sendDatagram (i : NetworkInterface) (d : IPv4Datagram) (a : UInt32) :
    ∃ frames, Left i (.sendDatagram d a) frames (i.left (.sendDatagram d a)) := by
  simp only [left, sendDatagram]
  cases ha : i.arpTable.lookup a with
  | some e =>
    cases hl : d.serialize with
    | ok l => exact ⟨_, .hit ha hl⟩
    | error x =>
      have hknown := Table.mem_iff_lookup.mpr ⟨e, ha⟩
      exact ⟨_, .refused hknown (by simp [IPv4Datagram.Serialisable, hl])⟩
  | none =>
    have hunknown := AList.lookup_eq_none.mp ha
    cases hr : i.arpRequestTime.lookup a with
    | none =>
      obtain ⟨b, hb⟩ := i.arpRequest_serialize a
      simp only [hb, ok_bind, pushDatagram, Table.emplace_of_lookup_none hr]
      exact ⟨_, .asks hunknown (AList.lookup_eq_none.mp hr) hb⟩
    | some t => exact ⟨_, .waits hunknown (Table.mem_iff_lookup.mpr ⟨t, hr⟩)⟩

theorem left_recvFrame (i : NetworkInterface) (frame : EthernetFrame) :
    ∃ frames, Left i (.recvFrame frame) frames (i.left (.recvFrame frame)) := by
  simp only [left]
  cases hm : hears i.ethernetAddress frame with
  | none => exact ⟨_, .deaf hm⟩
  | some m =>
    obtain ⟨replies, wait', hreplies, hwait, hleft⟩ := i.leftByArp_eq m
    simp only [hleft]
    exact ⟨_, .heard hm hreplies hwait⟩

theorem left_cases (i : NetworkInterface) (op : InterfaceOp) :
    ∃ frames i', Left i op frames i' ∧ i.emitted op = frames ∧ i.left op = i' := by
  have hleft : ∃ frames, Left i op frames (i.left op) := by
    cases op with
    | sendDatagram d a => exact i.left_sendDatagram d a
    | recvFrame frame => exact i.left_recvFrame frame
    | tick ms => exact ⟨_, .tick⟩
  obtain ⟨frames, h⟩ := hleft
  refine ⟨frames, _, h, ?_, rfl⟩
  rw [emitted, h.framesOut, List.drop_left]

theorem framesOut_left (i : NetworkInterface) (op : InterfaceOp) :
    (i.left op).framesOut = i.framesOut ++ i.emitted op := by
  obtain ⟨frames, i', hleft, hem, hl⟩ := i.left_cases op
  rw [hem, hl, hleft.framesOut]

theorem arpTable_sendDatagram (i : NetworkInterface) (d : IPv4Datagram) (a : UInt32) :
    (i.left (.sendDatagram d a)).arpTable = i.arpTable := by
  obtain ⟨frames, i', hleft, -, hl⟩ := i.left_cases (.sendDatagram d a)
  rw [hl]
  cases hleft <;> rfl

theorem arpTable_recvFrame {i : NetworkInterface} {frame : EthernetFrame} {m : ARPMessage}
    (hm : hears i.ethernetAddress frame = some m) : (i.left (.recvFrame frame)).arpTable =
      i.arpTable.insert m.senderIpAddress (m.senderEthernetAddress, 0) := by
  obtain ⟨frames, i', hleft, -, hl⟩ := i.left_cases (.recvFrame frame)
  rw [hl]
  cases hleft with
  | deaf hm' => cases hm.symm.trans hm'
  | heard hm' hreplies hwait =>
    rw [Option.some.inj (hm.symm.trans hm')]

theorem mem_expired {i : NetworkInterface} {ms : ℕ} {a : UInt32} : a ∈ i.expired ms ↔
    ∃ t, i.arpRequestTime.lookup a = some t ∧ ARP_REPLY_TTL_MS ≤ uadd t ms := by
  simp only [expired, List.mem_map, List.mem_filter, decide_eq_true_eq]
  constructor
  · rintro ⟨⟨a', t⟩, ⟨hmem, hle⟩, rfl⟩
    exact ⟨t, AList.mem_lookup_iff.mpr hmem, hle⟩
  · rintro ⟨t, ht, hle⟩
    exact ⟨⟨a, t⟩, ⟨AList.mem_lookup_iff.mp ht, hle⟩, rfl⟩

theorem expired_nodup (i : NetworkInterface) (ms : ℕ) : (i.expired ms).Nodup :=
  List.Nodup.sublist (List.filter_sublist.map Sigma.fst) i.arpRequestTime.nodupKeys

theorem Left.requested {i i' : NetworkInterface} {op : InterfaceOp} {frames : List EthernetFrame}
    (h : Left i op frames i') (hi : ∀ a ∈ i.arpWaitIpdata, a ∈ i.arpRequestTime) :
    ∀ a ∈ i'.arpWaitIpdata, a ∈ i'.arpRequestTime := by
  cases h with
  | hit | refused | deaf => exact hi
  | @asks d a b ha hr hb =>
    intro a' ha'
    exact (AList.mem_insert _).mpr ((Table.mem_emplace.mp ha').imp_right (hi a'))
  | waits ha hr =>
    intro a' ha'
    rcases (AList.mem_insert _).mp ha' with rfl | ha'
    · exact hr
    · exact hi a' ha'
  | heard hm hreplies hwait =>
    intro a ha
    obtain ⟨ds, hds⟩ := Table.mem_iff_lookup.mp ha
    rw [hwait a] at hds
    split_ifs at hds
    exact hi a (Table.mem_iff_lookup.mpr ⟨ds, hds⟩)
  | @tick ms =>
    intro a ha
    obtain ⟨ds, hds⟩ := Table.mem_iff_lookup.mp ha
    have hcleared := (Table.lookup_eraseAll i.arpWaitIpdata (i.expired ms) a).symm.trans hds
    split_ifs at hcleared with hexp
    obtain ⟨t, ht⟩ := Table.mem_iff_lookup.mp (hi a (Table.mem_iff_lookup.mpr ⟨ds, hcleared⟩))
    -- its request has not reached the limit, or it would have been cleared
    have hyoung : ¬ARP_REPLY_TTL_MS ≤ uadd t ms := fun hle => hexp (mem_expired.mpr ⟨t, ht, hle⟩)
    refine Table.mem_iff_lookup.mpr ⟨uadd t ms, (Table.lookup_sweep _ _ a).trans ?_⟩
    rw [ht]
    exact if_neg hyoung

/-- The loop over the waiting datagrams ends if all of them can be written out. -/
theorem sendWaiting_eq (dst : EthernetAddress) (ds : List IPv4Datagram) (i : NetworkInterface) :
    if (written ds).length = ds.length then
      i.sendWaiting dst ds = .ok ((written ds).foldl
        (fun i l => i.pushDatagram dst EthernetHeader.TYPE_IPv4 l) i)
    else ∃ x, i.sendWaiting dst ds = .error x := by
  induction ds generalizing i with
  | nil => rfl
  | cons d ds ih =>
    cases hd : d.serialize with
    | ok l => simpa [written, hd, sendWaiting] using ih _
    | error x =>
      simp only [written, hd, sendWaiting]
      exact ⟨x, rfl⟩

theorem recvArp_left {i i' : NetworkInterface} {m : ARPMessage} (h : i.recvArp m = .ok i') :
    i.leftByArp m = i' := by
  obtain ⟨i1, hanswer, hrelease⟩ := bind_eq_ok h
  simp only [leftByArp, hanswer, Except.toOption, Option.getD_some]
  unfold releaseWaiting at hrelease
  cases hdata : i1.arpWaitIpdata.lookup m.senderIpAddress with
  | none =>
    rw [hdata] at hrelease
    exact Except.ok.inj hrelease
  | some data =>
    rw [hdata] at hrelease
    obtain ⟨i2, hsent, hi2⟩ := bind_eq_ok hrelease
    have hloop := sendWaiting_eq m.senderEthernetAddress data i1
    split_ifs at hloop with hall
    · rw [hloop] at hsent
      rw [← Except.ok.inj hi2, ← Except.ok.inj hsent]
      exact if_pos hall
    · obtain ⟨x, hx⟩ := hloop
      rw [hx] at hsent
      cases hsent

theorem recvFrame_left {i i' : NetworkInterface} {frame : EthernetFrame} {o : Option IPv4Datagram}
    (h : i.recvFrame frame = .ok (o, i')) : i.left (.recvFrame frame) = i' := by
  unfold recvFrame at h
  simp only [left, hears, EthernetFrame.arp]
  split at h
  case isTrue hdst =>
    rw [if_neg hdst]
    exact (Prod.ext_iff.mp (Except.ok.inj h)).2
  case isFalse hdst =>
    rw [if_pos (not_not.mp hdst)]
    split at h
    case isTrue hip =>
      obtain ⟨b, -, hret⟩ := bind_eq_ok h
      rw [if_neg (by rw [hip]; decide)]
      exact (Prod.ext_iff.mp (Except.ok.inj hret)).2
    case isFalse =>
      split at h
      case isTrue harp =>
        obtain ⟨b, hb, hret⟩ := bind_eq_ok h
        simp only [if_pos harp, hb]
        dsimp only at hret
        split at hret
        case isTrue hbad =>
          rw [if_neg hbad]
          exact (Prod.ext_iff.mp (Except.ok.inj hret)).2
        case isFalse hgood =>
          obtain ⟨i2, hi2, hret⟩ := bind_eq_ok hret
          rw [if_pos (not_not.mp hgood)]
          exact (recvArp_left hi2).trans (Prod.ext_iff.mp (Except.ok.inj hret)).2
      case isFalse harp =>
        rw [if_neg harp]
        exact (Prod.ext_iff.mp (Except.ok.inj h)).2

end NetworkInterface

namespace InterfaceRun

open NetworkInterface

/-- No sum of a timer and the time that passes reaches 2^64. -/
def Fits (r : InterfaceRun) : InterfaceOp → Prop
  | .tick ms => r.interface.arpTable.All (fun e => e.2 + ms < 2 ^ 64) ∧
      r.interface.arpRequestTime.All (fun t => t + ms < 2 ^ 64)
  | _ => True

/-- The timers are the times since the interface asked and heard, up to their limits. -/
structure Aged (r : InterfaceRun) : Prop where
  asked : ∀ a, r.interface.arpRequestTime.lookup a = young id ARP_REPLY_TTL_MS (r.asked a)
  heard : ∀ a, r.interface.arpTable.lookup a = young Prod.snd ARP_ENTRY_TTL_MS (r.heard a)

theorem Aged.new (ethernetAddress : EthernetAddress) (ipAddress : UInt32) :
    (InterfaceRun.new ethernetAddress ipAddress).Aged where
  asked _ := rfl
  heard _ := rfl

variable {r : InterfaceRun} {op : InterfaceOp}

/-- A call that lets no time pass and asks for nothing leaves `asked` alone. -/
theorem asked_of_quiet (hp : passed op = 0)
    (hq : ∀ f ∈ r.interface.emitted op, ∀ a, f.asks a = false) : (r.step op).asked = r.asked := by
  funext a
  have hany : (r.interface.emitted op).any (·.asks a) = false := by
    rw [List.any_eq_false]
    intro f hf
    simp [hq f hf a]
  simp [step, askedAfter, hany, hp]

theorem heard_sendDatagram (r : InterfaceRun) (d : IPv4Datagram) (a : UInt32) :
    (r.step (.sendDatagram d a)).heard = r.heard := by
  funext b
  simp [step, heardAfter, passed]

theorem Aged.step (h : r.Aged) (hfits : r.Fits op) : (r.step op).Aged := by
  obtain ⟨frames, i', hleft, hem, hl⟩ := r.interface.left_cases op
  have hinterface : (r.step op).interface = i' := hl
  cases hleft with
  | hit _ _ | refused _ _ | waits _ _ =>
    constructor
    · rw [hinterface, asked_of_quiet rfl (by simp [hem, ipFrame_asks])]
      exact h.asked
    · rw [hinterface, heard_sendDatagram]
      exact h.heard
  | @asks d a b ha hr hb =>
    refine ⟨fun a' => ?_, ?_⟩
    · rw [hinterface, Table.lookup_insert_eq]
      simp only [InterfaceRun.step, askedAfter, hem, List.any_cons, List.any_nil, Bool.or_false,
        r.interface.request_asks hb, decide_eq_true_eq]
      by_cases ha' : a' = a
      · rw [if_pos ha', if_pos ha'.symm]
        rfl
      · rw [if_neg ha', if_neg (Ne.symm ha'), h.asked a']
        simp [passed]
    · rw [hinterface, heard_sendDatagram]
      exact h.heard
  | deaf hm =>
    constructor
    · rw [hinterface, asked_of_quiet rfl (by simp [hem])]
      exact h.asked
    · intro a
      rw [hinterface, h.heard a]
      simp [InterfaceRun.step, heardAfter, hm]
  | @heard frame m replies wait' hm hreplies hwait =>
    constructor
    · rw [hinterface, asked_of_quiet rfl]
      · exact h.asked
      · rw [hem]
        intro f hf a
        rcases List.mem_append.mp hf with hf | hf
        · exact (hreplies f hf).2 a
        · obtain ⟨l, -, rfl⟩ := List.mem_map.mp hf
          exact r.interface.ipFrame_asks _ l a
    · intro a
      rw [hinterface, Table.lookup_insert_eq]
      simp only [InterfaceRun.step, heardAfter, hm]
      by_cases ha : a = m.senderIpAddress
      · rw [if_pos ha, if_pos ha.symm]
        rfl
      · rw [if_neg ha, if_neg (Ne.symm ha)]
        exact h.heard a
  | @tick ms =>
    obtain ⟨htable, hrequests⟩ := hfits
    refine ⟨fun a => ?_, fun a => ?_⟩
    · have hage := lookup_sweep_grow id (fun _ n => n) ARP_REPLY_TTL_MS (fun _ _ => rfl)
        (h.asked a) (hrequests a)
      rw [hinterface]
      refine hage.trans ?_
      simp [InterfaceRun.step, askedAfter, hem, passed]
    · have hage := lookup_sweep_grow Prod.snd (fun e n => (e.1, n)) ARP_ENTRY_TTL_MS
        (fun _ _ => rfl) (h.heard a) (htable a)
      rw [hinterface]
      exact hage

end InterfaceRun

end Sponge
