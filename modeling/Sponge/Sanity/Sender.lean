import Sponge.Sanity.Fill

/-! What the sender's other operations do. An acknowledgment that is accepted leaves
a shorter queue; a tick and an empty segment touch only the timer and the queue of
segments to send. -/

namespace Sponge

namespace TCPSender

/-- The acknowledgment reaches the end of a queued segment. -/
def covered (isn : WrappingInt32) (nextSeqno recvAckno : ℕ) (g : TCPSegment) : Bool :=
  decide (uadd (unwrap g.header.seqno isn nextSeqno) g.lengthInSequenceSpace ≤ recvAckno)

theorem popAcked_eq (isn : WrappingInt32) (nextSeqno recvAckno : ℕ) (queue : List TCPSegment) :
    ∀ (flight : ℕ) (updated : Bool),
      popAcked isn nextSeqno recvAckno queue flight updated =
        (queue.dropWhile (covered isn nextSeqno recvAckno),
          flight - space (queue.takeWhile (covered isn nextSeqno recvAckno)),
          updated || !(queue.takeWhile (covered isn nextSeqno recvAckno)).isEmpty) := by
  induction queue with
  | nil => simp [popAcked]
  | cons g rest ih =>
    intro flight updated
    by_cases hc : uadd (unwrap g.header.seqno isn nextSeqno) g.lengthInSequenceSpace ≤ recvAckno
    · simp [popAcked, covered, hc, ih, Nat.sub_sub]
    · simp [popAcked, covered, hc]

/-- An accepted acknowledgment: what it covers leaves the queue. -/
structure Acked (s : TCPSender) (ackno : ℕ) (windowSize : UInt16) (t : TCPSender) : Prop where
  isn : t.isn = s.isn
  out : t.segmentsOut = s.segmentsOut
  stream : t.stream = s.stream
  next : t.nextSeqno = s.nextSeqno
  syn : t.setSyn = s.setSyn
  fin : t.setFin = s.setFin
  recvAckno : t.recvAckno = ackno
  window : t.windowSize = windowSize.toNat
  queue : t.segmentsUnackno = s.segmentsUnackno.dropWhile (covered s.isn s.nextSeqno ackno)
  flight : t.bytesInFlight =
    s.bytesInFlight - space (s.segmentsUnackno.takeWhile (covered s.isn s.nextSeqno ackno))

theorem acceptAck_spec {s t : TCPSender} {ackno : WrappingInt32} {w : UInt16}
    (h : s.acceptAck ackno w = some t) :
    s.recvAckno ≤ unwrap ackno s.isn s.recvAckno ∧ unwrap ackno s.isn s.recvAckno ≤ s.nextSeqno ∧
      Acked s (unwrap ackno s.isn s.recvAckno) w t := by
  unfold acceptAck at h
  simp only [popAcked_eq, Option.ite_none_left_eq_some, not_or, Nat.not_lt, Option.some.injEq] at h
  obtain ⟨⟨h1, h2⟩, rfl⟩ := h
  exact ⟨h2, h1, ⟨rfl, rfl, rfl, rfl, rfl, rfl, rfl, rfl, rfl, rfl⟩⟩

/-- Only the timer and the queue of segments to send have changed. -/
structure Kept (s : TCPSender) (gs : List TCPSegment) (t : TCPSender) : Prop where
  isn : t.isn = s.isn
  out : t.segmentsOut = s.segmentsOut ++ gs
  stream : t.stream = s.stream
  next : t.nextSeqno = s.nextSeqno
  recvAckno : t.recvAckno = s.recvAckno
  syn : t.setSyn = s.setSyn
  fin : t.setFin = s.setFin
  window : t.windowSize = s.windowSize
  flight : t.bytesInFlight = s.bytesInFlight
  queue : t.segmentsUnackno = s.segmentsUnackno

theorem tick_spec (s : TCPSender) (ms : ℕ) :
    ∃ gs, Kept s gs (s.tick ms) ∧ (gs = [] ∨ ∃ g ∈ s.segmentsUnackno, gs = [g]) := by
  unfold tick
  cases hq : s.segmentsUnackno with
  | nil =>
    refine ⟨[], ?_, Or.inl rfl⟩
    simp only
    exact ⟨rfl, (List.append_nil _).symm, rfl, rfl, rfl, rfl, rfl, rfl, rfl, hq.symm⟩
  | cons g rest =>
    cases he : (s.timer.tick ms).checkExpired with
    | false =>
      refine ⟨[], ?_, Or.inl rfl⟩
      simp only [he]
      exact ⟨rfl, (List.append_nil _).symm, rfl, rfl, rfl, rfl, rfl, rfl, rfl, hq.symm⟩
    | true =>
      refine ⟨[g], ?_, Or.inr ⟨g, by simp, rfl⟩⟩
      simp only [he]
      exact ⟨rfl, rfl, rfl, rfl, rfl, rfl, rfl, rfl, rfl, hq.symm⟩

theorem tick_idle {s : TCPSender} (h : s.segmentsUnackno = []) (ms : ℕ) :
    s.tick ms = { s with timer := s.timer.tick ms } := by
  simp only [tick, h]

theorem sendEmptySegment_spec (s : TCPSender) :
    Kept s [{ header := { seqno := wrap s.nextSeqno s.isn } }] s.sendEmptySegment :=
  ⟨rfl, rfl, rfl, rfl, rfl, rfl, rfl, rfl, rfl, rfl⟩

theorem sendEmptySegmentWith_spec (s : TCPSender) (rst : Bool) :
    Kept s [{ header := { seqno := wrap s.nextSeqno s.isn, rst := rst } }]
      (s.sendEmptySegmentWith false false rst) :=
  ⟨rfl, rfl, rfl, rfl, rfl, Bool.or_false _, Bool.or_false _, rfl, rfl, rfl⟩

end TCPSender

end Sponge
