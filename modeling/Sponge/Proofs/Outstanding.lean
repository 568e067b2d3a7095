import Sponge.Sanity.Queue

/-! The queue of outstanding segments, whatever acknowledgments arrive. -/

namespace Sponge

open Chunks TCPSender

/-- The position an acknowledgment leaves the sender at: the one it names, if that lies
between the acknowledged position and what has been sent, and otherwise the old one. -/
def TCPSender.ackedBy (s : TCPSender) (ackno : WrappingInt32) : ℕ :=
  if s.recvAckno ≤ unwrap ackno s.isn s.recvAckno ∧ unwrap ackno s.isn s.recvAckno ≤ s.nextSeqno
  then unwrap ackno s.isn s.recvAckno else s.recvAckno

/-- The outstanding segments of a sender, its acknowledged position, and what an
acknowledgment removes: of the queue a tail `rest` stays, and only what is sent anew
follows it. The segment before `post` ends that much before the next sequence number. -/
structure Outstanding (s : TCPSender) : Prop where
  contiguous : ∀ pre g post, s.segmentsUnackno = pre ++ g :: post →
    space (g :: post) ≤ s.nextSeqno ∧
      g.header.seqno = wrap (s.nextSeqno - space (g :: post)) s.isn
  flight : s.bytesInFlight = space s.segmentsUnackno
  le : s.recvAckno ≤ s.nextSeqno
  mono : ∀ op : SenderOp, s.recvAckno ≤ (op.run s).recvAckno
  head : ∀ g rest, s.segmentsUnackno = g :: rest →
    s.nextSeqno - space (g :: rest) ≤ s.recvAckno ∧ s.recvAckno < s.nextSeqno - space rest
  empty : s.segmentsUnackno = [] → s.recvAckno = s.nextSeqno
  unwrapped : ∀ pre g post, s.segmentsUnackno = pre ++ g :: post →
    unwrap g.header.seqno s.isn s.nextSeqno = s.nextSeqno - space (g :: post)
  acked : ∀ ackno w, (s.ackReceived ackno w).recvAckno = s.ackedBy ackno
  removed : ∀ ackno w, ∃ rest new, (s.ackReceived ackno w).segmentsUnackno = rest ++ new ∧
    rest <:+ s.segmentsUnackno ∧ (s.ackReceived ackno w).nextSeqno = s.nextSeqno + space new ∧
    ∀ pre g post, s.segmentsUnackno = pre ++ g :: post →
      (rest <:+ post ↔ s.nextSeqno - space post ≤ s.ackedBy ackno)

theorem TCPSender.acceptAck_none_iff {s : TCPSender} {ackno : WrappingInt32} {w : UInt16} :
    s.acceptAck ackno w = none ↔ s.nextSeqno < unwrap ackno s.isn s.recvAckno ∨
      unwrap ackno s.isn s.recvAckno < s.recvAckno := by
  unfold acceptAck
  simp only
  split_ifs with hcase
  · exact iff_of_true rfl hcase
  · exact iff_of_false (by simp) hcase

theorem Tiles.ackReceived_ackno {accepted : List Byte} {first : List TCPSegment} {s : TCPSender}
    (ht : Tiles accepted first s) (ackno : WrappingInt32) (w : UInt16) :
    (s.ackReceived ackno w).recvAckno = s.ackedBy ackno := by
  unfold TCPSender.ackedBy
  rcases ht.ackReceived_cases ackno w with ⟨hnone, hsame⟩ | ⟨t, gs, ha, hacked, hrun, hgs⟩
  · rw [hsame, if_neg fun hc => ?_]
    have := acceptAck_none_iff.mp hnone
    omega
  · have hsome := mt acceptAck_none_iff.mpr (by rw [ha]; simp)
    rw [hrun, hgs.grown.recvAckno, hacked.recvAckno, if_pos (by omega)]

theorem Queue.removed {accepted : List Byte} {first : List TCPSegment} {s : TCPSender}
    (ht : Tiles accepted first s) (h : Queue s) (hb : s.nextSeqno < 2 ^ 64)
    (ackno : WrappingInt32) (w : UInt16) :
    ∃ rest new, (s.ackReceived ackno w).segmentsUnackno = rest ++ new ∧
      rest <:+ s.segmentsUnackno ∧ (s.ackReceived ackno w).nextSeqno = s.nextSeqno + space new ∧
      ∀ pre g post, s.segmentsUnackno = pre ++ g :: post →
        (rest <:+ post ↔ s.nextSeqno - space post ≤ s.ackedBy ackno) := by
  have hstart := h.start
  rw [← ht.ackReceived_ackno ackno w]
  rcases ht.ackReceived_cases ackno w with ⟨-, hsame⟩ | ⟨t, gs, ha, hacked, hrun, hgs⟩
  · rw [hsame]
    refine ⟨s.segmentsUnackno, [], (List.append_nil _).symm, List.suffix_rfl,
      by rw [space_nil, Nat.add_zero], fun pre g post hq => ?_⟩
    obtain ⟨hpiece, hsplit, hle⟩ := ht.queued hq
    refine iff_of_false (fun hs => ?_) ?_
    · have := hs.length_le
      rw [hq] at this
      simp only [List.length_append, List.length_cons] at this
      omega
    · have hpos := hpiece.pos
      cases pre with
      | nil =>
        have := h.head g post hq
        rw [space_nil] at hsplit
        omega
      | cons b pre =>
        have := h.head b (pre ++ g :: post) hq
        rw [space_cons] at hsplit
        omega
  · have hfrom := (acceptAck_spec ha).1
    rw [hrun]
    refine ⟨t.segmentsUnackno, gs, hgs.grown.unackno, ?_, ?_, fun pre g post hq => ?_⟩
    · rw [hacked.queue]
      exact List.dropWhile_suffix _
    · rw [hgs.grown.next, hacked.next]
    rw [hgs.grown.recvAckno, hacked.recvAckno, hacked.queue]
    have hcov := ht.covered_iff (unwrap ackno s.isn s.recvAckno) h hb
    obtain ⟨-, hsplit, hle⟩ := ht.queued hq
    rw [hq] at hcov ⊢
    rw [hcov.dropWhile_iff (by omega)]
    have : s.nextSeqno - space post =
        s.nextSeqno - s.bytesInFlight + space pre + g.lengthInSequenceSpace := by omega
    rw [this]

/-- In every run that uses fewer than 2^63 sequence numbers, with acknowledgments
and windows of any kind. -/
theorem outstanding_queue (capacity retxTimeout : ℕ) (isn : WrappingInt32) (ops : List SenderOp)
    (hb : ((SenderRun.new capacity retxTimeout isn).run ops).sender.nextSeqno < 2 ^ 63) :
    Outstanding ((SenderRun.new capacity retxTimeout isn).run ops).sender := by
  replace hb := hb.trans (show 2 ^ 63 < 2 ^ 64 by norm_num)
  obtain ⟨ht, h⟩ := SenderRun.queue capacity retxTimeout isn ops rfl hb
  generalize (SenderRun.new capacity retxTimeout isn).run ops = r at hb ht h ⊢
  refine ⟨fun pre g post hq => ?_, ht.flight, h.le, fun op => ?_, fun g rest hq => ?_, fun hq => ?_,
    fun pre g post hq => ?_, ht.ackReceived_ackno, Queue.removed ht h hb⟩
  · obtain ⟨hpiece, hsplit, hle⟩ := ht.queued hq
    rw [space_cons]
    refine ⟨by omega, ?_⟩
    rw [hpiece.seqno]
    congr 1
    omega
  · exact ((SenderRun.step_spec ht op).onward ht).ackno
  · obtain ⟨-, hsplit, hle⟩ := ht.queued (show r.sender.segmentsUnackno = [] ++ g :: rest from hq)
    have hhead := h.head g rest hq
    have hstart := h.start
    rw [space_nil] at hsplit
    rw [space_cons]
    omega
  · have hflight := ht.flight
    rw [hq, space_nil] at hflight
    have h1 := h.le
    have h2 := h.start
    omega
  · obtain ⟨-, hsplit, hle⟩ := ht.queued hq
    rw [ht.unwrap_queued h hb hq, space_cons]
    omega

theorem outstanding_queue_run :
    Outstanding ((SenderRun.new 10 1000 ⟨7⟩).run
      [.fillWindow, .write [1, 2, 3], .ackReceived ⟨8⟩ 2, .tick 1000, .endInput]).sender :=
  outstanding_queue 10 1000 ⟨7⟩
    [.fillWindow, .write [1, 2, 3], .ackReceived ⟨8⟩ 2, .tick 1000, .endInput] (by decide)

end Sponge
