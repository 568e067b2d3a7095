import Sponge.Sanity.SenderRun

/-! The outstanding segments. They end at the next sequence number, and the
acknowledged position lies in the first of them. At most 65535 sequence numbers
are in flight, so unwrapping a queued number near the next one is exact. -/

namespace Sponge

open Chunks TCPSender

structure Queue (s : TCPSender) : Prop where
  le : s.recvAckno ≤ s.nextSeqno
  start : s.nextSeqno ≤ s.recvAckno + s.bytesInFlight
  head : ∀ g rest, s.segmentsUnackno = g :: rest →
    s.recvAckno + s.bytesInFlight < s.nextSeqno + g.lengthInSequenceSpace
  flight : s.bytesInFlight ≤ 65535
  window : s.windowSize ≤ 65535

theorem Queue.new (capacity retxTimeout : ℕ) (isn : WrappingInt32) :
    Queue (TCPSender.new capacity retxTimeout isn) where
  le := le_rfl
  start := le_rfl
  head g rest h := by simp [TCPSender.new] at h
  flight := Nat.zero_le _
  window := by simp [TCPSender.new]

theorem Queue.send {accepted : List Byte} {first : List TCPSegment} {s : TCPSender} {room : ℕ}
    {g : TCPSegment} (ht : Tiles accepted first s) (h : Queue s) (hg : Send s room g)
    (hroom : s.bytesInFlight + room ≤ max 1 s.windowSize) : Queue (s.sent g) := by
  obtain ⟨h1, h2, h3, h4, h5⟩ := h
  have hpos := hg.pos
  have hlen := hg.room
  refine ⟨?_, ?_, ?_, ?_, h5⟩
  · simp only [sent]
    omega
  · simp only [sent]
    omega
  · intro b rest hb
    simp only [sent] at hb ⊢
    cases hq : s.segmentsUnackno with
    | nil =>
      have hflight := ht.flight
      rw [hq, space_nil] at hflight
      rw [hq] at hb
      cases hb
      omega
    | cons c queue =>
      have := h3 c queue hq
      rw [hq] at hb
      cases hb
      omega
  · simp only [sent]
    omega

theorem Queue.sends {accepted : List Byte} {first gs : List TCPSegment} {s t : TCPSender}
    (ht : Tiles accepted first s) (h : Queue s) (hgs : Sends s gs t) : Queue t :=
  (Sends.keeps (P := fun t first => Tiles accepted first t ∧ Queue t)
    (fun _ _ _ _ hs hg hroom => ⟨hs.1.send hg, Queue.send hs.1 hs.2 hg hroom⟩) hgs first ⟨ht, h⟩).2

theorem Tiles.queued {accepted : List Byte} {first pre post : List TCPSegment} {g : TCPSegment}
    {s : TCPSender} (h : Tiles accepted first s) (hq : s.segmentsUnackno = pre ++ g :: post) :
    Piece s.isn accepted (s.nextSeqno - s.bytesInFlight + space pre) g ∧
      s.bytesInFlight = space pre + (g.lengthInSequenceSpace + space post) ∧
      s.bytesInFlight ≤ s.nextSeqno := by
  obtain ⟨gone, hgone⟩ := h.queue
  have hnext := h.next
  rw [← hgone, space_append, ← h.flight] at hnext
  have hflight := h.flight
  rw [hq, space_append, space_cons] at hflight
  have hpiece := h.piece_at
    (show first = (gone ++ pre) ++ g :: post by rw [← hgone, hq, List.append_assoc])
  refine ⟨?_, hflight, by omega⟩
  rw [space_append] at hpiece
  rwa [hnext, Nat.add_sub_cancel]

theorem Tiles.queue_nil {accepted : List Byte} {first : List TCPSegment} {s : TCPSender}
    (h : Tiles accepted first s) (hflight : s.bytesInFlight = 0) : s.segmentsUnackno = [] := by
  cases hq : s.segmentsUnackno with
  | nil => rfl
  | cons g rest =>
    obtain ⟨hpiece, hsum, -⟩ := h.queued (show s.segmentsUnackno = [] ++ g :: rest from hq)
    have := hpiece.pos
    omega

/-- Queued numbers come back exact, so an acknowledgment covers what it reaches. -/
theorem Tiles.unwrap_queued {accepted : List Byte} {first pre post : List TCPSegment} {g : TCPSegment}
    {s : TCPSender} (ht : Tiles accepted first s) (h : Queue s) (hb : s.nextSeqno < 2 ^ 64)
    (hq : s.segmentsUnackno = pre ++ g :: post) :
    unwrap g.header.seqno s.isn s.nextSeqno = s.nextSeqno - s.bytesInFlight + space pre := by
  obtain ⟨hpiece, hsplit, hle⟩ := ht.queued hq
  have hsmall := h.flight
  rw [hpiece.seqno]
  apply unwrap_wrap <;> omega

theorem Tiles.covered_iff {accepted : List Byte} {first : List TCPSegment} {s : TCPSender} (a : ℕ)
    (ht : Tiles accepted first s) (h : Queue s) (hb : s.nextSeqno < 2 ^ 64) :
    Tiled TCPSegment.lengthInSequenceSpace
      (fun p g => covered s.isn s.nextSeqno a g = true ↔
        s.nextSeqno - s.bytesInFlight + p + g.lengthInSequenceSpace ≤ a) s.segmentsUnackno := by
  intro pre g post hq
  obtain ⟨-, hsplit, hle⟩ := ht.queued hq
  unfold covered
  rw [ht.unwrap_queued h hb hq, uadd_eq (by omega), decide_eq_true_iff]

theorem Tiles.popped {accepted : List Byte} {first : List TCPSegment} {s : TCPSender} {a : ℕ}
    (ht : Tiles accepted first s) (h : Queue s) (hb : s.nextSeqno < 2 ^ 64)
    (ha : s.recvAckno ≤ a) {gone rest : List TCPSegment}
    (hgone : gone = s.segmentsUnackno.takeWhile (covered s.isn s.nextSeqno a))
    (hrest : rest = s.segmentsUnackno.dropWhile (covered s.isn s.nextSeqno a)) :
    s.bytesInFlight = space gone + space rest ∧ s.bytesInFlight ≤ s.nextSeqno ∧
      s.nextSeqno - s.bytesInFlight + space gone ≤ a ∧
      ∀ g tail, rest = g :: tail →
        a < s.nextSeqno - s.bytesInFlight + space gone + g.lengthInSequenceSpace := by
  have hstart := h.start
  obtain ⟨h1, h2⟩ := (ht.covered_iff a h hb).takeWhile (by omega)
  rw [← hgone] at h1 h2
  rw [← hrest] at h2
  refine ⟨?_, ?_, h1, h2⟩
  · rw [ht.flight, ← space_append, hgone, hrest, List.takeWhile_append_dropWhile]
  · obtain ⟨done, hdone⟩ := ht.queue
    rw [ht.flight, ht.next, ← hdone, space_append]
    exact Nat.le_add_left _ _

theorem Queue.acked {accepted : List Byte} {first : List TCPSegment} {s t : TCPSender} {a : ℕ}
    {w : UInt16} (ht : Tiles accepted first s) (h : Queue s) (hb : s.nextSeqno < 2 ^ 64)
    (h1 : s.recvAckno ≤ a) (h2 : a ≤ s.nextSeqno) (ha : Acked s a w t) : Queue t := by
  obtain ⟨hsplit, hle, hgone, hhead⟩ := ht.popped h hb h1 rfl rfl
  have hflight := ha.flight
  have hsmall := h.flight
  refine ⟨?_, ?_, ?_, ?_, ?_⟩
  · rw [ha.recvAckno, ha.next]
    exact h2
  · rw [ha.recvAckno, ha.next, hflight]
    omega
  · intro g rest hq
    rw [ha.queue] at hq
    have := hhead g rest hq
    rw [ha.recvAckno, ha.next, hflight]
    omega
  · rw [hflight]
    omega
  · rw [ha.window]
    exact Nat.lt_succ_iff.mp w.toNat_lt

theorem Queue.kept {gs : List TCPSegment} {s t : TCPSender} (h : Queue s) (ht : Kept s gs t) :
    Queue t := by
  refine ⟨?_, ?_, ?_, ?_, ?_⟩
  · rw [ht.recvAckno, ht.next]; exact h.le
  · rw [ht.recvAckno, ht.next, ht.flight]; exact h.start
  · rw [ht.recvAckno, ht.next, ht.flight, ht.queue]; exact h.head
  · rw [ht.flight]; exact h.flight
  · rw [ht.window]; exact h.window

theorem Queue.step {r r' : SenderRun} {op : SenderOp} (ht : Tiles r.accepted r.sent r.sender)
    (h : Queue r.sender) (hb : r.sender.nextSeqno < 2 ^ 64) (hst : SenderStep r op r') :
    Queue r'.sender := by
  cases hst with
  | fed => exact { h with }
  | filled s t gs hs hgs =>
    rcases hs with rfl | ⟨ackno, w, -, ha⟩
    · exact Queue.sends ht h hgs
    · obtain ⟨h1, h2, hacked⟩ := acceptAck_spec ha
      exact Queue.sends (ht.acked hacked) (Queue.acked ht h hb h1 h2 hacked) hgs
  | other t gs hk => exact h.kept hk
  | popped => exact { h with }

theorem SenderRun.queue (capacity retxTimeout : ℕ) (isn : WrappingInt32) (ops : List SenderOp)
    {r : SenderRun} (hr : r = (SenderRun.new capacity retxTimeout isn).run ops)
    (hb : r.sender.nextSeqno < 2 ^ 64) :
    Tiles r.accepted r.sent r.sender ∧ Queue r.sender := by
  obtain ⟨ht, hq⟩ := SenderRun.run_inv (I := fun r => r.sender.nextSeqno < 2 ^ 64 → Queue r.sender)
    (fun r op r' ht hst hI hb => by
      have := lt_of_le_of_lt (hst.onward ht).next hb
      exact (hI this).step ht this hst)
    capacity retxTimeout isn (fun _ => Queue.new capacity retxTimeout isn) ops
  subst hr
  exact ⟨ht, hq hb⟩

end Sponge
