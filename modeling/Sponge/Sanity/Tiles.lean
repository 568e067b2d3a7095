import Sponge.Lib.Chunks
import Sponge.Sanity.Sender
import Sponge.Spec.SenderRun

/-! The segments a sender makes lie end to end in sequence space: the SYN, then
every byte its stream accepted, then the FIN. -/

namespace Sponge

open Chunks TCPSender

/-- A segment at absolute position `p` of the sequence space. Its first byte, after
a SYN, has stream index one below its position. -/
structure Piece (isn : WrappingInt32) (accepted : List Byte) (p : ℕ) (g : TCPSegment) : Prop where
  seqno : g.header.seqno = wrap p isn
  pos : 0 < g.lengthInSequenceSpace
  syn : g.header.syn = true ↔ p = 0
  ack : g.header.ack = false
  size : g.payload.length ≤ maxPayloadSize
  bytes : Agrees accepted (p + g.header.syn.toNat - 1) g.payload

/-- The new segments `first` of a sender whose stream has taken `accepted`. -/
structure Tiles (accepted : List Byte) (first : List TCPSegment) (s : TCPSender) : Prop where
  pieces : Tiled TCPSegment.lengthInSequenceSpace (Piece s.isn accepted) first
  next : s.nextSeqno = space first
  count : s.nextSeqno = s.setSyn.toNat + s.stream.bytesRead + s.setFin.toNat
  started : s.setSyn = false → first = []
  finLast : ∀ pre g post, first = pre ++ g :: post → g.header.fin = true →
    post = [] ∧ s.setFin = true
  finSent : s.setFin = true → ∃ g ∈ first, g.header.fin = true
  finished : s.setFin = true → s.setSyn = true ∧ s.stream.inputEnded = true ∧ s.stream.buffer = []
  length : accepted.length = s.stream.bytesWritten
  buffered : accepted.drop s.stream.bytesRead = s.stream.buffer
  queue : s.segmentsUnackno <:+ first
  flight : s.bytesInFlight = space s.segmentsUnackno

theorem Tiles.new (capacity retxTimeout : ℕ) (isn : WrappingInt32) :
    Tiles [] [] (TCPSender.new capacity retxTimeout isn) where
  pieces := Tiled.nil _
  next := rfl
  count := rfl
  started _ := rfl
  finLast pre g post h := by simp at h
  finSent h := by simp [TCPSender.new] at h
  finished h := by simp [TCPSender.new] at h
  length := rfl
  buffered := rfl
  queue := List.nil_suffix
  flight := rfl

theorem Tiles.piece_at {accepted : List Byte} {first pre post : List TCPSegment} {g : TCPSegment}
    {s : TCPSender} (h : Tiles accepted first s) (hl : first = pre ++ g :: post) :
    Piece s.isn accepted (space pre) g := h.pieces pre g post hl

theorem Tiles.ready {accepted : List Byte} {first : List TCPSegment} {s : TCPSender}
    (h : Tiles accepted first s) (hsyn : s.setSyn = false) : s.bytesInFlight = 0 := by
  have hq := h.queue
  rw [h.started hsyn] at hq
  rw [h.flight, List.suffix_nil.mp hq]
  rfl

/-- Every sequence number is one of a byte, the SYN or the FIN. -/
theorem Tiles.next_le {accepted : List Byte} {first : List TCPSegment} {s : TCPSender}
    (h : Tiles accepted first s) : s.nextSeqno ≤ accepted.length + 2 := by
  have h1 := h.count
  have h2 := h.length
  have h3 := s.stream.balanced
  have h4 := Bool.toNat_le s.setSyn
  have h5 := Bool.toNat_le s.setFin
  omega

theorem Tiles.syn_of_mem {accepted : List Byte} {first : List TCPSegment} {s : TCPSender}
    (h : Tiles accepted first s) {g : TCPSegment} (hg : g ∈ first) : s.setSyn = true := by
  by_contra hsyn
  rw [Bool.not_eq_true] at hsyn
  rw [h.started hsyn] at hg
  simp at hg

/-- A segment made after the FIN would have nothing to carry. -/
theorem Tiles.not_finished {accepted : List Byte} {first : List TCPSegment} {s : TCPSender}
    (h : Tiles accepted first s) {room : ℕ} {g : TCPSegment} (hg : Send s room g) :
    s.setFin = false := by
  by_contra hfin
  rw [Bool.not_eq_false] at hfin
  obtain ⟨h1, h2, h3⟩ := h.finished hfin
  have hp : g.payload = [] := by
    have := hg.bytes
    rwa [h3, List.take_nil] at this
  have hnofin : g.header.fin = false := by
    by_contra hc
    rw [Bool.not_eq_false] at hc
    simp [(hg.fin hc).1] at hfin
  have := hg.pos
  simp [TCPSegment.lengthInSequenceSpace, hp, hg.syn, h1, hnofin] at this

theorem Tiles.piece {accepted : List Byte} {first : List TCPSegment} {s : TCPSender}
    (h : Tiles accepted first s) {room : ℕ} {g : TCPSegment} (hg : Send s room g) :
    Piece s.isn accepted (space first) g := by
  have hfin := h.not_finished hg
  have hcount := h.count
  rw [hfin, Bool.toNat_false, Nat.add_zero, h.next] at hcount
  refine ⟨by rw [← h.next]; exact hg.seqno, hg.pos, ?_, hg.ack, hg.size, ?_⟩
  · rw [hg.syn]
    cases hsyn : s.setSyn with
    | false => simp [h.started hsyn]
    | true =>
      rw [hsyn, Bool.toNat_true] at hcount
      simp only [Bool.not_true, Bool.false_eq_true, false_iff]
      omega
  · have hpos : space first + g.header.syn.toNat - 1 = s.stream.bytesRead := by
      rw [hg.syn, hcount]
      cases hsyn : s.setSyn with
      | false =>
        have : space first = 0 := by rw [h.started hsyn]; rfl
        rw [hcount, hsyn, Bool.toNat_false] at this
        simp only [Bool.toNat_false, Bool.not_false, Bool.toNat_true]
        omega
      | true =>
        simp only [Bool.toNat_true, Bool.not_true, Bool.toNat_false]
        omega
    rw [hpos]
    unfold Agrees
    rw [h.buffered, hg.bytes]
    exact List.take_prefix _ _

theorem Tiles.send {accepted : List Byte} {first : List TCPSegment} {s : TCPSender}
    (h : Tiles accepted first s) {room : ℕ} {g : TCPSegment} (hg : Send s room g) :
    Tiles accepted (first ++ [g]) (s.sent g) := by
  have hfin := h.not_finished hg
  have hcount := h.count
  have hlen : g.payload.length ≤ s.stream.buffer.length := by
    rw [hg.bytes]
    exact List.length_take_le' _ _
  have hread : (s.stream.popOutput g.payload.length).bytesRead =
      s.stream.bytesRead + g.payload.length := by
    simp [ByteStream.popOutput, hlen]
  have hbuf : (s.stream.popOutput g.payload.length).buffer =
      s.stream.buffer.drop g.payload.length := by
    simp [ByteStream.popOutput, hlen]
  refine ⟨h.pieces.snoc (h.piece hg), ?_, ?_, ?_, ?_, ?_, ?_, h.length, ?_, ?_, ?_⟩
  · simp [sent, h.next]
  · simp only [sent, hread, hcount, TCPSegment.lengthInSequenceSpace, hg.syn, hfin, Bool.false_or]
    cases s.setSyn <;> simp <;> omega
  · simp [sent]
  · intro pre b post hl hb
    rcases snoc_cases hl with ⟨-, rfl, hpost⟩ | ⟨rest, hl⟩
    · exact ⟨hpost, by simp [sent, hb]⟩
    · have := (h.finLast pre b rest hl hb).2
      simp [hfin] at this
  · intro hs
    simp only [sent, hfin, Bool.false_or] at hs
    exact ⟨g, by simp, hs⟩
  · intro hs
    simp only [sent, hfin, Bool.false_or] at hs
    obtain ⟨-, h2, h3⟩ := hg.fin hs
    refine ⟨rfl, h2, ?_⟩
    show (s.stream.popOutput g.payload.length).buffer = []
    rw [hbuf, h3, List.drop_length]
  · simp only [sent, hread, hbuf, ← h.buffered, List.drop_drop]
  · obtain ⟨gone, hgone⟩ := h.queue
    exact ⟨gone, by rw [← hgone, List.append_assoc]; rfl⟩
  · simp [sent, h.flight]

theorem Tiles.sends {accepted : List Byte} {first gs : List TCPSegment} {s t : TCPSender}
    (h : Tiles accepted first s) (hgs : Sends s gs t) : Tiles accepted (first ++ gs) t :=
  Sends.keeps (P := fun t first => Tiles accepted first t) (fun _ _ _ _ hs hg _ => hs.send hg)
    hgs first h

theorem Tiles.shorter {accepted : List Byte} {first : List TCPSegment} {s t : TCPSender}
    (h : Tiles accepted first s) (hisn : t.isn = s.isn) (hstream : t.stream = s.stream)
    (hnext : t.nextSeqno = s.nextSeqno) (hsyn : t.setSyn = s.setSyn) (hfin : t.setFin = s.setFin)
    (hqueue : t.segmentsUnackno <:+ first) (hflight : t.bytesInFlight = space t.segmentsUnackno) :
    Tiles accepted first t := by
  refine ⟨?_, ?_, ?_, ?_, ?_, ?_, ?_, ?_, ?_, hqueue, hflight⟩
  · rw [hisn]; exact h.pieces
  · rw [hnext]; exact h.next
  · rw [hnext, hstream, hsyn, hfin]; exact h.count
  · rw [hsyn]; exact h.started
  · rw [hfin]; exact h.finLast
  · rw [hfin]; exact h.finSent
  · rw [hfin, hsyn, hstream]; exact h.finished
  · rw [hstream]; exact h.length
  · rw [hstream]; exact h.buffered

theorem Tiles.acked {accepted : List Byte} {first : List TCPSegment} {s t : TCPSender} {a : ℕ}
    {w : UInt16} (h : Tiles accepted first s) (ha : Acked s a w t) : Tiles accepted first t := by
  refine h.shorter ha.isn ha.stream ha.next ha.syn ha.fin ?_ ?_
  · rw [ha.queue]
    exact (List.dropWhile_suffix _).trans h.queue
  · have hsplit : space (s.segmentsUnackno.takeWhile (covered s.isn s.nextSeqno a)) +
        space (s.segmentsUnackno.dropWhile (covered s.isn s.nextSeqno a)) =
          space s.segmentsUnackno := by
      rw [← space_append, List.takeWhile_append_dropWhile]
    rw [ha.flight, ha.queue, h.flight]
    omega

theorem Tiles.ackReceived_cases {accepted : List Byte} {first : List TCPSegment} {s : TCPSender}
    (h : Tiles accepted first s) (ackno : WrappingInt32) (w : UInt16) :
    (s.acceptAck ackno w = none ∧ s.ackReceived ackno w = s) ∨
      ∃ t gs, s.acceptAck ackno w = some t ∧ Acked s (unwrap ackno s.isn s.recvAckno) w t ∧
        s.ackReceived ackno w = t.fillWindow ∧ Sends t gs t.fillWindow := by
  cases ha : s.acceptAck ackno w with
  | none => exact Or.inl ⟨rfl, by simp [ackReceived, ha]⟩
  | some t =>
    have hacked := (acceptAck_spec ha).2.2
    obtain ⟨gs, hgs⟩ := fillWindow_spec t (h.acked hacked).ready
    exact Or.inr ⟨t, gs, rfl, hacked, by simp [ackReceived, ha], hgs⟩

theorem Tiles.kept {accepted : List Byte} {first gs : List TCPSegment} {s t : TCPSender}
    (h : Tiles accepted first s) (ht : Kept s gs t) : Tiles accepted first t := by
  refine h.shorter ht.isn ht.stream ht.next ht.syn ht.fin ?_ ?_
  · rw [ht.queue]
    exact h.queue
  · rw [ht.flight, ht.queue]
    exact h.flight

theorem Tiles.feed {accepted : List Byte} {first : List TCPSegment} {s : TCPSender}
    (h : Tiles accepted first s) (more : List Byte) (stream : ByteStream)
    (hread : stream.bytesRead = s.stream.bytesRead)
    (hbuf : stream.buffer = s.stream.buffer ++ more)
    (hend : s.stream.inputEnded = true → stream.inputEnded = true ∧ more = []) :
    Tiles (accepted ++ more) first { s with stream := stream } := by
  have hwritten : accepted.length + more.length = stream.bytesWritten := by
    have h1 := stream.balanced
    have h2 := s.stream.balanced
    have h3 := h.length
    rw [hread, hbuf, List.length_append] at h1
    omega
  refine ⟨?_, h.next, ?_, h.started, h.finLast, h.finSent, ?_, ?_, ?_, h.queue, h.flight⟩
  · refine h.pieces.imp fun p g hg => ⟨hg.seqno, hg.pos, hg.syn, hg.ack, hg.size, ?_⟩
    exact hg.bytes.mono (List.prefix_append _ _)
  · rw [h.count, hread]
  · intro hfin
    obtain ⟨h1, h2, h3⟩ := h.finished hfin
    obtain ⟨h4, h5⟩ := hend h2
    exact ⟨h1, h4, by rw [hbuf, h3, h5]; rfl⟩
  · rw [List.length_append]
    exact hwritten
  · have hle : s.stream.bytesRead ≤ accepted.length := by
      rw [h.length, ← s.stream.balanced]
      exact Nat.le_add_right _ _
    rw [hread, hbuf, List.drop_append_of_le_length hle, h.buffered]

theorem Tiles.fin_position {accepted : List Byte} {pre post : List TCPSegment} {g : TCPSegment}
    {s : TCPSender} (h : Tiles accepted (pre ++ g :: post) s) (hfin : g.header.fin = true) :
    post = [] ∧ s.stream.inputEnded = true ∧ s.stream.bytesRead = s.stream.bytesWritten ∧
      space pre + g.header.syn.toNat + g.payload.length = 1 + s.stream.bytesWritten := by
  obtain ⟨rfl, hset⟩ := h.finLast pre g post rfl hfin
  obtain ⟨hsyn, hend, hbuf⟩ := h.finished hset
  have hread := s.stream.balanced
  rw [hbuf, List.length_nil, Nat.add_zero] at hread
  have hnext := h.next
  rw [h.count, hsyn, hset, space_append, space_cons, TCPSegment.lengthInSequenceSpace, hfin] at hnext
  simp only [Bool.toNat_true, span_nil] at hnext
  exact ⟨rfl, hend, hread, by omega⟩

theorem Piece.first_byte {isn : WrappingInt32} {accepted : List Byte} {p : ℕ} {g : TCPSegment}
    (h : Piece isn accepted p g) : 1 ≤ p + g.header.syn.toNat := by
  cases hsyn : g.header.syn with
  | true => simp
  | false =>
    have := mt h.syn.mpr (by simp [hsyn])
    simp only [Bool.toNat_false]
    omega

/-- The stream index of the first byte of a segment sent after those of `pre`. -/
def streamIndex (pre : List TCPSegment) (g : TCPSegment) : ℕ :=
  space pre + g.header.syn.toNat - 1

/-- A sent segment carries bytes that have left the stream, and the FIN their end. -/
theorem Tiles.sent_piece {accepted : List Byte} {first pre post : List TCPSegment} {g : TCPSegment}
    {s : TCPSender} (h : Tiles accepted first s) (hl : first = pre ++ g :: post) :
    space pre + g.lengthInSequenceSpace ≤ s.nextSeqno ∧
      Agrees (accepted.take s.stream.bytesRead) (streamIndex pre g) g.payload ∧
      (g.header.fin = true → s.setFin = true ∧
        streamIndex pre g + g.payload.length = accepted.length) := by
  have hpiece := h.piece_at hl
  have hfirst := hpiece.first_byte
  have hle : space pre + g.lengthInSequenceSpace ≤ s.nextSeqno := by
    rw [h.next, hl, space_append, space_cons]
    omega
  refine ⟨hle, ?_, fun hfin => ?_⟩
  · cases hfin : s.setFin with
    | true =>
      have hread := s.stream.balanced
      rw [(h.finished hfin).2.2, List.length_nil, Nat.add_zero, ← h.length] at hread
      rw [hread, List.take_length]
      exact hpiece.bytes
    | false =>
      apply hpiece.bytes.clip
      rw [h.count, hfin, TCPSegment.lengthInSequenceSpace] at hle
      have := Bool.toNat_le s.setSyn
      simp only [Bool.toNat_false] at hle
      omega
  · refine ⟨(h.finLast pre g post hl hfin).2, ?_⟩
    rw [hl] at h
    have := (h.fin_position hfin).2.2.2
    rw [h.length]
    unfold streamIndex
    omega

end Sponge
