import Sponge.Sanity.SenderRun

/-! The stream as the sender cuts it. Whatever the order of writes,
acknowledgments, ticks and fills, the segments made are the SYN, the accepted
bytes and the FIN, end to end and in order. -/

namespace Sponge

open Chunks TCPSender

/-- The segment `g` sent for the first time after those of `pre` and before those
of `post`. -/
structure SegmentAt (isn : WrappingInt32) (r : SenderRun) (pre : List TCPSegment) (g : TCPSegment)
    (post : List TCPSegment) : Prop where
  seqno : g.header.seqno = wrap (space pre) isn
  nonempty : 0 < g.lengthInSequenceSpace
  syn : g.header.syn = true ↔ space pre = 0
  bytes : ∀ j (hj : j < g.payload.length), ∃ i, space pre + g.header.syn.toNat + j = 1 + i ∧
    r.accepted[i]? = some (g.payload.get ⟨j, hj⟩)
  size : g.payload.length ≤ 1000
  fin : g.header.fin = true → post = [] ∧ r.sender.stream.inputEnded = true ∧
    r.sender.stream.bytesRead = r.sender.stream.bytesWritten ∧
    space pre + g.header.syn.toNat + g.payload.length = 1 + r.sender.stream.bytesWritten

/-- The new segments tile the sequence numbers used; the rest is empty or copied. -/
structure Tiling (isn : WrappingInt32) (r : SenderRun) : Prop where
  segment : ∀ pre g post, r.sent = pre ++ g :: post → SegmentAt isn r pre g post
  next : r.sender.nextSeqno = space r.sent
  accepted : r.accepted.length = r.sender.stream.bytesWritten
  count : r.sender.nextSeqno = (r.sent.any fun g => g.header.syn).toNat +
    r.sender.stream.bytesRead + (r.sent.any fun g => g.header.fin).toNat
  others : ∀ e ∈ r.others, e.1.lengthInSequenceSpace = 0 ∨ e.1 ∈ e.2

theorem Piece.byte {isn : WrappingInt32} {accepted : List Byte} {p : ℕ} {g : TCPSegment}
    (h : Piece isn accepted p g) (j : ℕ) (hj : j < g.payload.length) :
    ∃ i, p + g.header.syn.toNat + j = 1 + i ∧ accepted[i]? = some (g.payload.get ⟨j, hj⟩) := by
  have hpos := h.first_byte
  refine ⟨p + g.header.syn.toNat - 1 + j, by omega, ?_⟩
  rw [← List.getElem?_drop]
  exact List.prefix_iff_getElem?.mp h.bytes j hj

theorem Tiles.any_syn {accepted : List Byte} {first : List TCPSegment} {s : TCPSender}
    (h : Tiles accepted first s) : (first.any fun g => g.header.syn) = s.setSyn := by
  cases hsyn : s.setSyn with
  | false => rw [h.started hsyn]; rfl
  | true =>
    cases first with
    | nil =>
      have hnext := h.next
      rw [h.count, hsyn] at hnext
      simp at hnext
    | cons g post =>
      have := (h.pieces [] g post rfl).syn.mpr rfl
      simp [this]

theorem Tiles.any_fin {accepted : List Byte} {first : List TCPSegment} {s : TCPSender}
    (h : Tiles accepted first s) : (first.any fun g => g.header.fin) = s.setFin := by
  rw [Bool.eq_iff_iff, List.any_eq_true]
  refine ⟨fun ⟨g, hg, hfin⟩ => ?_, h.finSent⟩
  obtain ⟨pre, post, hl⟩ := List.append_of_mem hg
  exact (h.finLast pre g post hl hfin).2

/-- In every run of a sender the segments sent for the first time tile the
sequence space, and every other one is empty or a copy of an outstanding one. -/
theorem segments_tile (capacity retxTimeout : ℕ) (isn : WrappingInt32) (ops : List SenderOp) :
    Tiling isn ((SenderRun.new capacity retxTimeout isn).run ops) := by
  obtain ⟨h, hisn, hcopies⟩ := SenderRun.run_inv
    (I := fun r => r.sender.isn = isn ∧ Copies r)
    (fun r op r' ht hst hI => ⟨(hst.onward ht).isn.trans hI.1, hI.2.step hst⟩) capacity retxTimeout isn
    ⟨rfl, fun e he => by simp [SenderRun.new] at he⟩ ops
  generalize (SenderRun.new capacity retxTimeout isn).run ops = r at h hisn hcopies ⊢
  refine ⟨fun pre g post hl => ?_, h.next, h.length, ?_, hcopies⟩
  · have hp := h.piece_at hl
    rw [hisn] at hp
    refine ⟨hp.seqno, hp.pos, hp.syn, hp.byte, hp.size, fun hfin => ?_⟩
    rw [hl] at h
    exact h.fin_position hfin
  · rw [h.any_syn, h.any_fin]
    exact h.count

end Sponge
