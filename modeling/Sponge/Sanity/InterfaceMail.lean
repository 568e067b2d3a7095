import Sponge.Lib.Mail
import Sponge.Sanity.InterfaceRun

/-! Where the datagrams given to an interface are. -/

namespace Sponge

namespace InterfaceRun

open NetworkInterface

variable {r : InterfaceRun} {op : InterfaceOp}

/-- The numbers of a run, with the datagrams that wait. -/
@[ext]
structure Numbers where
  sends : List (IPv4Datagram × UInt32)
  carried : List ℕ
  queued : UInt32 → List ℕ
  dropped : List ℕ
  waiting : UInt32 → List IPv4Datagram

def numbers (r : InterfaceRun) : Numbers where
  sends := r.sends
  carried := r.carried
  queued := r.queued
  dropped := r.dropped
  waiting := r.interface.waiting

/-- Every way a call can move the numbers, with the IPv4 frames it sends. -/
inductive Moved (r : InterfaceRun) : InterfaceOp → List EthernetFrame → Numbers → Prop
  | carry {d a e l} (ha : r.interface.arpTable.lookup a = some e) (hl : d.serialize = .ok l) :
      Moved r (.sendDatagram d a) [r.interface.ipFrame e.1 l] { r.numbers with
        sends := r.sends ++ [(d, a)]
        carried := r.carried ++ [r.sends.length] }
  | lose {d a} (hd : ¬d.Serialisable) :
      Moved r (.sendDatagram d a) [] { r.numbers with sends := r.sends ++ [(d, a)] }
  | queue {d a} (ha : a ∉ r.interface.arpTable) :
      Moved r (.sendDatagram d a) [] { r.numbers with
        sends := r.sends ++ [(d, a)]
        queued := fun b => if b = a then r.queued b ++ [r.sends.length] else r.queued b
        waiting := fun b => if b = a then r.interface.waiting b ++ [d] else r.interface.waiting b }
  | deaf {frame} : Moved r (.recvFrame frame) [] r.numbers
  | release {frame m ls} (hm : hears r.interface.ethernetAddress frame = some m)
      (hls : ls = written (r.interface.waiting m.senderIpAddress)) :
      Moved r (.recvFrame frame) (ls.map (r.interface.ipFrame m.senderEthernetAddress))
        { r.numbers with
          carried := r.carried ++ (r.queued m.senderIpAddress).take ls.length
          queued := fun b => if b = m.senderIpAddress ∧
            ls.length = (r.interface.waiting m.senderIpAddress).length then [] else r.queued b
          waiting := fun b => if b = m.senderIpAddress ∧
            ls.length = (r.interface.waiting m.senderIpAddress).length then []
            else r.interface.waiting b }
  | drop {ms} : Moved r (.tick ms) [] { r.numbers with
      queued := fun b => if b ∈ r.interface.expired ms then [] else r.queued b
      dropped := r.dropped ++ (r.interface.expired ms).flatMap r.queued
      waiting := fun b => if b ∈ r.interface.expired ms then [] else r.interface.waiting b }

/-- Who waits has been asked for, and a number stands for its datagram: those queued
for the datagrams that wait, in order, those carried for the IPv4 frames. -/
structure Numbered (r : InterfaceRun) : Prop where
  requested : ∀ a ∈ r.interface.arpWaitIpdata, a ∈ r.interface.arpRequestTime
  waiting : ∀ a, List.Forall₂ (fun d n => r.sends[n]? = some (d, a))
    (r.interface.waiting a) (r.queued a)
  carried : List.Forall₂ (fun f n => ∃ d a, r.sends[n]? = some (d, a) ∧ d.serialize = .ok f.payload)
    (r.interface.framesOut.filter EthernetFrame.isIPv4) r.carried

theorem Numbered.new (ethernetAddress : EthernetAddress) (ipAddress : UInt32) :
    (InterfaceRun.new ethernetAddress ipAddress).Numbered where
  requested a ha := absurd ha (AList.notMem_empty a)
  waiting _ := .nil
  carried := .nil

theorem waiting_of_notMem {i : NetworkInterface} {a : UInt32} (ha : a ∉ i.arpWaitIpdata) :
    i.waiting a = [] := by
  rw [NetworkInterface.waiting, AList.lookup_eq_none.mpr ha]
  rfl

theorem Numbered.queued_of_notMem (h : r.Numbered) {a : UInt32}
    (ha : a ∉ r.interface.arpWaitIpdata) : r.queued a = [] := by
  have hall := h.waiting a
  rw [waiting_of_notMem ha] at hall
  exact List.forall₂_nil_left_iff.mp hall

/-- A call that leaves the waiting lists leaves the queues, but for a datagram of its own. -/
theorem Numbered.queuedAfter_of_same (h : r.Numbered)
    (hsame : (r.interface.left op).arpWaitIpdata = r.interface.arpWaitIpdata)
    (hop : ∀ d a, op = .sendDatagram d a → a ∈ r.interface.arpTable) :
    r.queuedAfter op = r.queued := by
  funext b
  unfold queuedAfter
  rw [hsame]
  by_cases hb : b ∈ r.interface.arpWaitIpdata
  · rw [if_pos hb]
    cases op with
    | sendDatagram d a => exact if_neg fun hx => hx.2 (hop d a rfl)
    | recvFrame frame => rfl
    | tick ms => rfl
  · rw [if_neg hb, h.queued_of_notMem hb]

theorem Numbered.queuedAfter_queue (h : r.Numbered) {d : IPv4Datagram} {a : UInt32}
    (ha : a ∉ r.interface.arpTable) {ds : List IPv4Datagram}
    (hwait : (r.interface.left (.sendDatagram d a)).arpWaitIpdata =
      r.interface.arpWaitIpdata.insert a ds) :
    r.queuedAfter (.sendDatagram d a) =
      fun b => if b = a then r.queued b ++ [r.sends.length] else r.queued b := by
  funext b
  rw [queuedAfter, hwait]
  by_cases hb : b = a
  · simp [hb, ha, AList.mem_insert]
  · by_cases hmem : b ∈ r.interface.arpWaitIpdata
    · simp [hb, hmem, AList.mem_insert]
    · simp [hb, hmem, AList.mem_insert, h.queued_of_notMem hmem]

theorem Numbered.numbers_keep (h : r.Numbered)
    (hsame : (r.interface.left op).arpWaitIpdata = r.interface.arpWaitIpdata)
    (hop : ∀ d a, op = .sendDatagram d a → a ∈ r.interface.arpTable)
    (hdropped : r.droppedBy op = []) :
    (r.step op).numbers = { r.numbers with
      sends := (r.step op).sends
      carried := (r.step op).carried } := by
  ext1
  · rfl
  · rfl
  · exact h.queuedAfter_of_same hsame hop
  · exact (congrArg (r.dropped ++ ·) hdropped).trans (List.append_nil _)
  · funext b
    exact congrArg (fun t : Table UInt32 (List IPv4Datagram) => (t.lookup b).getD []) hsame

theorem Numbered.numbers_queue (h : r.Numbered) {d : IPv4Datagram} {a : UInt32}
    (ha : a ∉ r.interface.arpTable)
    (hwait : (r.interface.left (.sendDatagram d a)).arpWaitIpdata =
      r.interface.arpWaitIpdata.insert a (r.interface.waiting a ++ [d]))
    (hno : (r.interface.emitted (.sendDatagram d a)).countP EthernetFrame.isIPv4 = 0) :
    (r.step (.sendDatagram d a)).numbers = { r.numbers with
      sends := r.sends ++ [(d, a)]
      queued := fun b => if b = a then r.queued b ++ [r.sends.length] else r.queued b
      waiting := fun b =>
        if b = a then r.interface.waiting b ++ [d] else r.interface.waiting b } := by
  ext1
  · rfl
  · simp [numbers, step, hno]
  · exact h.queuedAfter_queue ha hwait
  · exact List.append_nil _
  · funext b
    have hb : (r.step (.sendDatagram d a)).interface.waiting b =
        ((r.interface.arpWaitIpdata.insert a (r.interface.waiting a ++ [d])).lookup b).getD [] :=
      congrArg (fun t : Table UInt32 (List IPv4Datagram) => (t.lookup b).getD []) hwait
    refine hb.trans ?_
    rw [Table.lookup_insert_eq]
    dsimp only
    split_ifs with heq
    · rw [heq]
      rfl
    · rfl

/-- A call that clears the waiting lists of some addresses clears their queues. -/
theorem Numbered.queuedAfter_clear (h : r.Numbered) (hop : ∀ d a, op ≠ .sendDatagram d a)
    {P : UInt32 → Prop} [DecidablePred P]
    (hwait : ∀ b, (r.interface.left op).arpWaitIpdata.lookup b =
      if P b then none else r.interface.arpWaitIpdata.lookup b) :
    r.queuedAfter op = fun b => if P b then [] else r.queued b := by
  funext b
  have hmem : b ∈ (r.interface.left op).arpWaitIpdata ↔ ¬P b ∧ b ∈ r.interface.arpWaitIpdata := by
    rw [Table.mem_iff_lookup, Table.mem_iff_lookup, hwait b]
    split_ifs with hP <;> simp [hP]
  unfold queuedAfter
  by_cases hP : P b
  · rw [if_pos hP, if_neg fun hb => (hmem.mp hb).1 hP]
  · rw [if_neg hP]
    by_cases hb : b ∈ r.interface.arpWaitIpdata
    · rw [if_pos (hmem.mpr ⟨hP, hb⟩)]
      cases op with
      | sendDatagram d a => exact absurd rfl (hop d a)
      | recvFrame frame => rfl
      | tick ms => rfl
    · rw [if_neg fun hb' => hb (hmem.mp hb').2, h.queued_of_notMem hb]

theorem filter_replies (i : NetworkInterface) (dst : EthernetAddress)
    {replies : List EthernetFrame}
    (hreplies : ∀ f ∈ replies, f.isIPv4 = false ∧ ∀ a, f.asks a = false) (ls : List BufferList) :
    (replies ++ ls.map (i.ipFrame dst)).filter EthernetFrame.isIPv4 = ls.map (i.ipFrame dst) := by
  have hnone : replies.filter EthernetFrame.isIPv4 = [] :=
    List.filter_eq_nil_iff.mpr fun f hf => by simp [(hreplies f hf).1]
  have hall : (ls.map (i.ipFrame dst)).filter EthernetFrame.isIPv4 = ls.map (i.ipFrame dst) := by
    refine List.filter_eq_self.mpr fun f hf => ?_
    obtain ⟨l, -, rfl⟩ := List.mem_map.mp hf
    exact i.ipFrame_isIPv4 dst l
  rw [List.filter_append, hnone, hall, List.nil_append]

theorem Numbered.numbers_clear (h : r.Numbered) (hop : ∀ d a, op ≠ .sendDatagram d a)
    {P : UInt32 → Prop} [DecidablePred P]
    (hwait : ∀ b, (r.interface.left op).arpWaitIpdata.lookup b =
      if P b then none else r.interface.arpWaitIpdata.lookup b) :
    (r.step op).numbers = { r.numbers with
      carried := (r.step op).carried
      queued := fun b => if P b then [] else r.queued b
      dropped := (r.step op).dropped
      waiting := fun b => if P b then [] else r.interface.waiting b } := by
  ext1
  · cases op with
    | sendDatagram d a => exact absurd rfl (hop d a)
    | recvFrame frame => rfl
    | tick ms => rfl
  · rfl
  · exact h.queuedAfter_clear hop hwait
  · rfl
  · funext b
    refine (congrArg (·.getD []) (hwait b)).trans ?_
    dsimp only
    split_ifs <;> rfl

theorem Numbered.moved (h : r.Numbered) (op : InterfaceOp) :
    Moved r op ((r.interface.emitted op).filter EthernetFrame.isIPv4) (r.step op).numbers := by
  obtain ⟨frames, i', hleft, hem, hl⟩ := r.interface.left_cases op
  have hwait := congrArg NetworkInterface.arpWaitIpdata hl
  cases hleft with
  | @hit d a e l ha hd =>
    have hknown : a ∈ r.interface.arpTable := Table.mem_iff_lookup.mpr ⟨e, ha⟩
    have hcarried : (r.step (.sendDatagram d a)).carried = r.carried ++ [r.sends.length] := by
      simp [step, candidates, hem, ipFrame_isIPv4]
    rw [h.numbers_keep hwait (by rintro _ _ ⟨⟩; exact hknown) rfl, hcarried, hem,
      List.filter_singleton, ipFrame_isIPv4]
    exact .carry ha hd
  | @refused d a ha hd =>
    have hcarried : (r.step (.sendDatagram d a)).carried = r.carried := by simp [step, hem]
    rw [h.numbers_keep hwait (by rintro _ _ ⟨⟩; exact ha) rfl, hcarried, hem]
    exact .lose hd
  | @asks d a b ha hr hb =>
    have hnew : a ∉ r.interface.arpWaitIpdata := fun hmem => hr (h.requested a hmem)
    have hinsert := Table.emplace_of_lookup_none (AList.lookup_eq_none.mpr hnew) [d]
    have hlist : r.interface.waiting a ++ [d] = [d] := by rw [waiting_of_notMem hnew, List.nil_append]
    rw [h.numbers_queue ha (by rw [hwait, hlist]; exact hinsert) (by simp [hem, arpFrame_isIPv4]),
      hem, List.filter_singleton, arpFrame_isIPv4]
    exact .queue ha
  | @waits d a ha hr =>
    rw [h.numbers_queue ha hwait (by simp [hem]), hem]
    exact .queue ha
  | @deaf frame hm =>
    have hcarried : (r.step (.recvFrame frame)).carried = r.carried := by simp [step, hem]
    rw [h.numbers_keep hwait (by rintro _ _ ⟨⟩) rfl, hcarried, hem]
    exact .deaf
  | @heard frame m replies wait' hm hreplies hcleared =>
    have hfilter := (congrArg (List.filter EthernetFrame.isIPv4) hem).trans
      (filter_replies r.interface m.senderEthernetAddress hreplies _)
    have hcarried : (r.step (.recvFrame frame)).carried = r.carried ++
        (r.queued m.senderIpAddress).take
          (written (r.interface.waiting m.senderIpAddress)).length := by
      simp only [step, candidates, hm, List.countP_eq_length_filter, hfilter, List.length_map]
    have hdropped : (r.step (.recvFrame frame)).dropped = r.dropped := List.append_nil _
    rw [h.numbers_clear (by rintro _ _ ⟨⟩) (by rw [hl]; exact hcleared), hcarried, hdropped, hfilter]
    exact .release hm rfl
  | @tick ms =>
    have hcarried : (r.step (.tick ms)).carried = r.carried := by simp [step, hem]
    rw [h.numbers_clear (by rintro _ _ ⟨⟩) (Table.lookup_eraseAll _ _), hcarried, hem]
    exact .drop

theorem Moved.sends {frames : List EthernetFrame} {n : Numbers} (h : Moved r op frames n) {k : ℕ}
    {x : IPv4Datagram × UInt32} (hk : r.sends[k]? = some x) : n.sends[k]? = some x := by
  cases h with
  | carry | lose | queue => exact Mail.getElem?_snoc hk
  | deaf | release | drop => exact hk

theorem Moved.waiting {frames : List EthernetFrame} {n : Numbers} (h : Moved r op frames n)
    (hr : ∀ a, List.Forall₂ (fun d k => r.sends[k]? = some (d, a))
      (r.interface.waiting a) (r.queued a)) (a : UInt32) :
    List.Forall₂ (fun d k => n.sends[k]? = some (d, a)) (n.waiting a) (n.queued a) := by
  have hmono := (hr a).imp fun _ _ => h.sends
  cases h with
  | carry | lose | deaf => exact hmono
  | @queue d a' ha =>
    dsimp only
    split_ifs with heq
    · subst heq
      exact List.rel_append hmono (.cons List.getElem?_concat_length .nil)
    · exact hmono
  | release hm hls =>
    dsimp only
    split_ifs
    · exact .nil
    · exact hmono
  | drop =>
    dsimp only
    split_ifs
    · exact .nil
    · exact hmono

/-- What the loop wrote out are the first of the datagrams that waited. -/
theorem written_forall₂ {P : IPv4Datagram → ℕ → Prop} {ds : List IPv4Datagram} {ks : List ℕ}
    (h : List.Forall₂ P ds ks) : List.Forall₂ (fun l k => ∃ d, P d k ∧ d.serialize = .ok l)
      (written ds) (ks.take (written ds).length) := by
  induction h with
  | nil => exact .nil
  | @cons d k ds ks hd _ ih =>
    cases hl : d.serialize with
    | ok l =>
      simp only [written, hl]
      exact .cons ⟨d, hd, hl⟩ ih
    | error x =>
      simp only [written, hl]
      exact .nil

/-- Every IPv4 frame of a call carries a datagram to the address the table then has. -/
theorem Numbered.carries (h : r.Numbered) (op : InterfaceOp) :
    ∃ out, (r.step op).carried = r.carried ++ out ∧
      List.Forall₂ (fun f k => ∃ d a t, (r.step op).sends[k]? = some (d, a) ∧
          d.serialize = .ok f.payload ∧
          (r.step op).interface.arpTable.lookup a = some (f.header.dst, t))
        ((r.interface.emitted op).filter EthernetFrame.isIPv4) out := by
  have hmoved := h.moved op
  generalize hn : (r.step op).numbers = n at hmoved
  generalize (r.interface.emitted op).filter EthernetFrame.isIPv4 = frames at hmoved ⊢
  have hsends : (r.step op).sends = n.sends := congrArg Numbers.sends hn
  have hcarried : (r.step op).carried = n.carried := congrArg Numbers.carried hn
  rw [hsends, hcarried]
  cases hmoved with
  | @carry d a e l ha hl =>
    refine ⟨_, rfl, .cons ⟨d, a, e.2, List.getElem?_concat_length, hl, ?_⟩ .nil⟩
    refine (congrArg _ (r.interface.arpTable_sendDatagram d a)).trans ha
  | lose | queue | deaf | drop => exact ⟨[], (List.append_nil _).symm, .nil⟩
  | @release frame m ls hm hls =>
    refine ⟨_, rfl, ?_⟩
    rw [List.forall₂_map_left_iff, hls]
    refine (written_forall₂ (h.waiting m.senderIpAddress)).imp ?_
    rintro l k ⟨d, hk, hl⟩
    refine ⟨d, m.senderIpAddress, 0, hk, hl, ?_⟩
    refine (congrArg _ (arpTable_recvFrame hm)).trans ?_
    exact AList.lookup_insert _

theorem Numbered.step (h : r.Numbered) (op : InterfaceOp) : (r.step op).Numbered where
  requested := by
    obtain ⟨frames, i', hleft, -, hl⟩ := r.interface.left_cases op
    have hinterface : (r.step op).interface = i' := hl
    rw [hinterface]
    exact hleft.requested h.requested
  waiting := (h.moved op).waiting h.waiting
  carried := by
    obtain ⟨out, hout, hframes⟩ := h.carries op
    have hout' : (r.step op).interface.framesOut = _ := r.interface.framesOut_left op
    rw [hout, hout', List.filter_append]
    refine List.rel_append (h.carried.imp ?_) (hframes.imp ?_)
    · rintro f k ⟨d, a, hk, hd⟩
      exact ⟨d, a, (h.moved op).sends hk, hd⟩
    · rintro f k ⟨d, a, t, hk, hd, -⟩
      exact ⟨d, a, hk, hd⟩

theorem numbered (ethernetAddress : EthernetAddress) (ipAddress : UInt32)
    (ops : List InterfaceOp) : ((new ethernetAddress ipAddress).run ops).Numbered :=
  foldl_inv (C := fun _ _ => True) (fun _ op h _ => h.step op)
    (Numbered.new ethernetAddress ipAddress) ops fun _ _ _ => trivial

/-- The host with address 1 answers the one with address 7. -/
def replyOne : EthernetFrame where
  header := { dst := ETHERNET_BROADCAST, type := EthernetHeader.TYPE_ARP }
  payload := [[0, 1, 8, 0, 6, 4, 0, 2, 2, 0, 0, 0, 0, 1, 0, 0, 0, 1, 0, 0, 0, 0, 0, 0, 0, 0, 0, 7]]

end InterfaceRun

end Sponge
