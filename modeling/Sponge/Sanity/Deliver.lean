import Sponge.Sanity.Link

/-! A segment of the sender arrives. Its sequence number unwraps to its true
position, so its payload is pushed where it belongs in the stream. -/

namespace Sponge

open Chunks StreamReassembler TCPSender

/-- The segment carries what a sent one did, or nothing. The fields its owner
fills in, for the other direction, do not matter. -/
inductive Genuine (x : SenderRun) (g : TCPSegment) : Prop
  | empty (h : g.lengthInSequenceSpace = 0)
  | copy (b : TCPSegment) (hb : b ∈ x.sent) (hseqno : g.header.seqno = b.header.seqno)
      (hsyn : g.header.syn = b.header.syn) (hfin : g.header.fin = b.header.fin)
      (hpayload : g.payload = b.payload)

theorem Genuine.onward {x x' : SenderRun} {g : TCPSegment} (hg : Genuine x g) (hx : Onward x x') :
    Genuine x' g := by
  cases hg with
  | empty h => exact .empty h
  | copy b hb h1 h2 h3 h4 => exact .copy b (hx.sent.subset hb) h1 h2 h3 h4

theorem TCPReceiver.assemble_spec {r : TCPReceiver} (h : Inv r.reassembler) {g : TCPSegment}
    {index : ℕ}
    (hi : (if g.header.syn then unwrap g.header.seqno r.isn (uadd r.streamOut.bytesWritten 1)
      else uadd (unwrap g.header.seqno r.isn (uadd r.streamOut.bytesWritten 1)) (2 ^ 64 - 1)) = index)
    (hb : index + g.payload.length < 2 ^ 64) :
    ∃ re, Pushed r.reassembler g.payload index g.header.fin re ∧
      r.assemble g = .ok { r with reassembler := re, setFin := r.setFin || g.header.fin } := by
  obtain ⟨re, d, hrun, hp⟩ := pushSubstring_spec .wrap h g.payload index g.header.fin hb (Or.inl rfl)
  refine ⟨re, hp, ?_⟩
  simp only [assemble, hi, hrun, ok_bind]

/-- What the arrival of a genuine segment does. -/
inductive Delivered (x : SenderRun) (r : TCPReceiver) (g : TCPSegment) : TCPReceiver → Prop
  | ignored (hr : r.setSyn = false) (hg : g.header.syn = false) : Delivered x r g r
  | empty {re : StreamReassembler} {index : ℕ} (hr : r.setSyn = true) (hpayload : g.payload = [])
      (hi : index < 2 ^ 64) (hp : Pushed r.reassembler [] index false re) :
      Delivered x r g { r with reassembler := re }
  | piece {re : StreamReassembler} {pre post : List TCPSegment} (b : TCPSegment)
      (hl : x.sent = pre ++ b :: post) (hseqno : g.header.seqno = b.header.seqno)
      (hsyn : g.header.syn = b.header.syn) (hpayload : g.payload = b.payload)
      (hp : Pushed r.reassembler b.payload (streamIndex pre b) b.header.fin re) :
      Delivered x r g { r with
        setSyn := true, isn := x.sender.isn, reassembler := re, setFin := r.setFin || b.header.fin }

theorem Link.index_eq {x : SenderRun} {taken : List Byte} {r : TCPReceiver} (h : Link x taken r)
    (hb : x.sender.nextSeqno < 2 ^ 31) {pre post : List TCPSegment} {b : TCPSegment}
    (hl : x.sent = pre ++ b :: post) :
    (if b.header.syn then unwrap b.header.seqno x.sender.isn (uadd r.streamOut.bytesWritten 1)
      else uadd (unwrap b.header.seqno x.sender.isn (uadd r.streamOut.bytesWritten 1)) (2 ^ 64 - 1)) =
      streamIndex pre b := by
  have hpiece := h.tiles.piece_at hl
  have hnext := (h.tiles.sent_piece hl).1
  have hmem : b ∈ x.sent := hl ▸ List.mem_append_cons_self
  have h1 := h.index_le
  have h2 := h.tiles.count
  rw [h.tiles.syn_of_mem hmem, Bool.toNat_true] at h2
  have hw : r.streamOut.bytesWritten = r.reassembler.unassembledIndex := h.inv.written
  have hpos : unwrap b.header.seqno x.sender.isn (uadd r.streamOut.bytesWritten 1) =
      space pre := by
    rw [hw, uadd_eq (by omega), hpiece.seqno]
    apply unwrap_wrap <;> omega
  rw [hpos]
  unfold streamIndex
  cases hsyn : b.header.syn with
  | true =>
    rw [hpiece.syn.mp hsyn]
    rfl
  | false =>
    have := hpiece.first_byte
    rw [hsyn] at this
    simp only [Bool.toNat_false] at this
    simp only [Bool.false_eq_true, if_false, Bool.toNat_false, uadd]
    omega

theorem Link.stop_lt {x : SenderRun} {taken : List Byte} {r : TCPReceiver} (h : Link x taken r)
    (hb : x.sender.nextSeqno < 2 ^ 31) {pre post : List TCPSegment} {b : TCPSegment}
    (hl : x.sent = pre ++ b :: post) : streamIndex pre b + b.payload.length < 2 ^ 64 := by
  have h1 := (h.tiles.sent_piece hl).1
  have h2 := Bool.toNat_le b.header.syn
  unfold TCPSegment.lengthInSequenceSpace at h1
  unfold streamIndex
  omega

theorem Link.delivered_empty {x : SenderRun} {taken : List Byte} {r : TCPReceiver}
    (h : Link x taken r) {g : TCPSegment} (hlen : g.lengthInSequenceSpace = 0) :
    ∃ r', r.segmentReceived g = .ok r' ∧ Delivered x r g r' := by
  simp only [TCPSegment.lengthInSequenceSpace, Nat.add_eq_zero_iff, List.length_eq_zero_iff,
    Bool.toNat_eq_zero] at hlen
  obtain ⟨⟨hpayload, hsyn⟩, hfin⟩ := hlen
  unfold TCPReceiver.segmentReceived
  cases hr : r.setSyn with
  | false =>
    refine ⟨r, ?_, .ignored hr hsyn⟩
    simp [hsyn]
  | true =>
    have hi : uadd (unwrap g.header.seqno r.isn (uadd r.streamOut.bytesWritten 1)) (2 ^ 64 - 1) <
      2 ^ 64 := uadd_lt _ _
    obtain ⟨re, hp, hrun⟩ := TCPReceiver.assemble_spec h.inv (g := g) (if_neg (by simp [hsyn]))
      (by rw [hpayload, List.length_nil, Nat.add_zero]; exact hi)
    rw [hpayload, hfin] at hp
    refine ⟨_, ?_, .empty hr hpayload hi hp⟩
    simp [hrun, hfin]

theorem Link.assemble_copy {x : SenderRun} {taken : List Byte} {r : TCPReceiver}
    (h : Link x taken r) (hb : x.sender.nextSeqno < 2 ^ 31) {pre post : List TCPSegment}
    {g b : TCPSegment} (hl : x.sent = pre ++ b :: post)
    (hseqno : g.header.seqno = b.header.seqno) (hsyn : g.header.syn = b.header.syn)
    (hfin : g.header.fin = b.header.fin) (hpayload : g.payload = b.payload) (r' : TCPReceiver)
    (hre : r'.reassembler = r.reassembler) (hisn : r'.isn = x.sender.isn) :
    ∃ re, Pushed r.reassembler b.payload (streamIndex pre b) b.header.fin re ∧
      r'.assemble g = .ok { r' with reassembler := re, setFin := r'.setFin || b.header.fin } := by
  have hindex := h.index_eq hb hl
  have hrange := h.stop_lt hb hl
  have hi : (if g.header.syn then
        unwrap g.header.seqno r'.isn (uadd r'.streamOut.bytesWritten 1)
      else uadd (unwrap g.header.seqno r'.isn (uadd r'.streamOut.bytesWritten 1)) (2 ^ 64 - 1)) =
      streamIndex pre b := by
    rw [hseqno, hsyn, hisn, TCPReceiver.streamOut, hre]
    exact hindex
  obtain ⟨re, hp, hrun⟩ := TCPReceiver.assemble_spec (hre ▸ h.inv) hi (hpayload ▸ hrange)
  rw [hre, hpayload, hfin] at hp
  exact ⟨re, hp, by rw [hrun, hfin]⟩

theorem Link.delivered {x : SenderRun} {taken : List Byte} {r : TCPReceiver} (h : Link x taken r)
    (hb : x.sender.nextSeqno < 2 ^ 31) {g : TCPSegment} (hg : Genuine x g) :
    ∃ r', r.segmentReceived g = .ok r' ∧ Delivered x r g r' := by
  cases hg with
  | empty hlen => exact h.delivered_empty hlen
  | copy b hmem hseqno hsyn hfin hpayload =>
    obtain ⟨pre, post, hl⟩ := List.append_of_mem hmem
    unfold TCPReceiver.segmentReceived
    cases hr : r.setSyn with
    | true =>
      obtain ⟨re, hp, hrun⟩ :=
        h.assemble_copy hb hl hseqno hsyn hfin hpayload r rfl (h.syn hr).1
      refine ⟨_, hrun, ?_⟩
      have := Delivered.piece (r := r) (g := g) b hl hseqno hsyn hpayload hp
      rw [← (h.syn hr).1, ← hr] at this
      exact this
    | false =>
      cases hs : g.header.syn with
      | false => exact ⟨r, rfl, .ignored hr hs⟩
      | true =>
        -- the first segment carries the initial sequence number itself
        have hisn : g.header.seqno = x.sender.isn := by
          have hpiece := h.tiles.piece_at hl
          rw [hseqno, hpiece.seqno, hpiece.syn.mp (hsyn ▸ hs), wrap_zero]
        obtain ⟨re, hp, hrun⟩ := h.assemble_copy hb hl hseqno hsyn hfin hpayload
          { r with setSyn := true, isn := g.header.seqno } rfl hisn
        refine ⟨_, hrun, ?_⟩
        rw [hisn]
        exact .piece b hl hseqno hsyn hpayload hp

/-- An ended receiver has passed the end of whatever arrives. -/
theorem Link.shut {x : SenderRun} {taken : List Byte} {r : TCPReceiver} (h : Link x taken r)
    (hb : x.sender.nextSeqno < 2 ^ 31) {data : List Byte} {index : ℕ} {eof : Bool}
    (hr : index + data.length < 2 ^ 64)
    (heof : eof = true → x.sender.setFin = true ∧ index + data.length = x.accepted.length)
    (hend : r.reassembler.output.inputEnded = true) :
    eofAfter r.reassembler data index eof ≤ r.reassembler.unassembledIndex := by
  obtain ⟨-, h1, h2⟩ := h.ended hb hend
  unfold eofAfter
  cases eof with
  | true => rw [if_pos rfl, uadd_eq hr, (heof rfl).2, h2]
  | false => simp [h1, h2]

theorem Link.pushed {x : SenderRun} {taken : List Byte} {r : TCPReceiver} (h : Link x taken r)
    (hb : x.sender.nextSeqno < 2 ^ 31) (hsyn : x.sender.setSyn = true) {data : List Byte}
    {index : ℕ} {eof : Bool} {re : StreamReassembler}
    (hd : Agrees (x.accepted.take x.sender.stream.bytesRead) index data)
    (hr : index + data.length < 2 ^ 64)
    (heof : eof = true → x.sender.setFin = true ∧ index + data.length = x.accepted.length)
    (hp : Pushed r.reassembler data index eof re) (fin : Bool) {r' : TCPReceiver}
    (hr' : r' = { r with setSyn := true, isn := x.sender.isn, reassembler := re, setFin := fin }) :
    Link x taken r' ∧ r.absAckno ≤ r'.absAckno := by
  subst hr'
  have hshut := h.shut hb hr heof
  have hinv := h.inv.pushed hr hp
  have hmono : r.absAckno ≤ re.output.bytesWritten + 1 + re.output.inputEnded.toNat := by
    unfold TCPReceiver.absAckno TCPReceiver.streamOut
    split_ifs
    · have h1 := hp.index_le
      rw [h.inv.written, hinv.written]
      cases hend : r.reassembler.output.inputEnded with
      | false => simp only [Bool.toNat_false]; omega
      | true => rw [hp.inputEnded hend]; omega
    · exact Nat.zero_le _
  refine ⟨⟨h.tiles, h.queue, h.capacity.trans hp.capacity.symm, hinv,
    h.safe.pushed h.inv hd hshut hp, ?_, fun _ => ⟨rfl, hsyn⟩, by simp, h.acked.trans hmono⟩, hmono⟩
  rw [hp.eofIndex]
  unfold eofAfter
  cases eof with
  | true =>
    rw [if_pos rfl, uadd_eq hr]
    exact Or.inr (heof rfl)
  | false => exact h.eof

theorem Link.receive {x : SenderRun} {taken : List Byte} {r r' : TCPReceiver} {g : TCPSegment}
    (h : Link x taken r) (hb : x.sender.nextSeqno < 2 ^ 31) (hd : Delivered x r g r') :
    Link x taken r' ∧ r.absAckno ≤ r'.absAckno := by
  cases hd with
  | ignored => exact ⟨h, le_rfl⟩
  | empty hr _ hi hp =>
    apply h.pushed hb (h.syn hr).2 (Agrees.nil _ _) hi (by simp) hp r.setFin
    rw [← (h.syn hr).1, ← hr]
  | piece b hl _ _ _ hp =>
    obtain ⟨-, hbytes, hfin⟩ := h.tiles.sent_piece hl
    have hmem : b ∈ x.sent := hl ▸ List.mem_append_cons_self
    exact h.pushed hb (h.tiles.syn_of_mem hmem) hbytes (h.stop_lt hb hl) hfin hp _ rfl

theorem Link.read {x : SenderRun} {taken : List Byte} {r : TCPReceiver} (h : Link x taken r) (n : ℕ) :
    Link x (taken ++ r.streamOut.peekOutput n) (r.withOutput (r.streamOut.popOutput n)) :=
  ⟨h.tiles, h.queue, h.capacity, h.inv.pop n, h.safe.pop n, h.eof, h.syn, h.listening, h.acked⟩

end Sponge
