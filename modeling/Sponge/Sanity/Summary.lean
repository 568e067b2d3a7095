import Sponge.Sanity.Tiles
import Sponge.Spec.TCPState

/-! What the summaries of a sender in use say of its flags: the FIN has not been sent in
SYN_ACKED, and in FIN_ACKED everything has been sent and nothing is in flight. -/

namespace Sponge

open TCPSender

theorem Tiles.next_of_fin {accepted : List Byte} {first : List TCPSegment} {s : TCPSender}
    (h : Tiles accepted first s) (hfin : s.setFin = true) :
    s.stream.eof = true ∧ s.nextSeqno = s.stream.bytesWritten + 2 := by
  obtain ⟨hsyn, hend, hbuf⟩ := h.finished hfin
  have hbalance := s.stream.balanced
  have hcount := h.count
  rw [hbuf, List.length_nil] at hbalance
  simp only [hsyn, hfin, Bool.toNat_true] at hcount
  refine ⟨?_, by omega⟩
  simp [ByteStream.eof, ByteStream.bufferEmpty, hend, hbuf]

theorem Tiles.next_lt_of_noFin {accepted : List Byte} {first : List TCPSegment} {s : TCPSender}
    (h : Tiles accepted first s) (hfin : s.setFin = false) :
    s.nextSeqno < s.stream.bytesWritten + 2 := by
  have hcount := h.count
  have hbalance := s.stream.balanced
  have hsyn := Bool.toNat_le s.setSyn
  simp only [hfin, Bool.toNat_false] at hcount
  omega

theorem Tiles.synAcked {accepted : List Byte} {first : List TCPSegment} {s : TCPSender}
    (h : Tiles accepted first s) (hs : s.stateSummary = .synAcked) : s.setFin = false := by
  by_contra hfin
  rw [Bool.not_eq_false] at hfin
  obtain ⟨heof, hnext⟩ := h.next_of_fin hfin
  unfold TCPSender.stateSummary at hs
  split_ifs at hs with h1 h2 h3 h4 h5
  · simp [heof] at h4
  · omega

theorem Tiles.finAcked {accepted : List Byte} {first : List TCPSegment} {s : TCPSender}
    (h : Tiles accepted first s) (hs : s.stateSummary = .finAcked) :
    s.stream.error = false ∧ s.setFin = true ∧ s.bytesInFlight = 0 := by
  unfold TCPSender.stateSummary at hs
  split_ifs at hs with h1 h2 h3 h4 h5 h6
  refine ⟨by simpa using h1, ?_, by simpa using h6⟩
  by_contra hfin
  rw [Bool.not_eq_true] at hfin
  exact h5 (h.next_lt_of_noFin hfin)

theorem TCPReceiver.finRecv {r : TCPReceiver} (h : r.stateSummary = .finRecv) :
    r.streamOut.error = false ∧ r.streamOut.inputEnded = true := by
  unfold TCPReceiver.stateSummary at h
  split_ifs at h with h1 h2 h3
  exact ⟨by simpa using h1, h3⟩

theorem Tiles.synAcked_of {accepted : List Byte} {first : List TCPSegment} {s : TCPSender}
    (h : Tiles accepted first s) (herror : s.stream.error = false) (hpos : s.nextSeqno ≠ 0)
    (hacked : s.nextSeqno ≠ s.bytesInFlight) (hfin : s.setFin = false) :
    s.stateSummary = .synAcked := by
  unfold TCPSender.stateSummary
  rw [if_neg (by simp [herror]), if_neg hpos, if_neg hacked, if_pos (h.next_lt_of_noFin hfin)]
  split_ifs
  · rfl
  · rfl

theorem TCPReceiver.finRecv_of {r : TCPReceiver} (herror : r.streamOut.error = false)
    (hsyn : r.setSyn = true) (hend : r.streamOut.inputEnded = true) : r.stateSummary = .finRecv := by
  simp [TCPReceiver.stateSummary, herror, TCPReceiver.ackno, hsyn, hend]

end Sponge
