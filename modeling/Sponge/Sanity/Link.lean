import Sponge.Sanity.Content
import Sponge.Sanity.Queue
import Sponge.Spec.TCPState

/-! A sender and the receiver its segments reach. What the receiver has written is
a prefix of what has been sent, its end is the sender's, and the acknowledged
position is not past the one the receiver stands at. Each operation of either
side keeps this, whatever has been lost, repeated or reordered in between. -/

namespace Sponge

open Chunks StreamReassembler TCPSender

/-- The receiver's acknowledgment number without the wrap: 0 before the SYN. -/
def TCPReceiver.absAckno (r : TCPReceiver) : ℕ :=
  if r.setSyn then r.streamOut.bytesWritten + 1 + r.streamOut.inputEnded.toNat else 0

theorem TCPReceiver.ackno_of_syn {r : TCPReceiver} (h : r.setSyn = true) :
    r.ackno = some (wrap r.absAckno r.isn) := by
  unfold ackno absAckno
  rw [if_pos h, if_pos h]
  cases r.streamOut.inputEnded <;> rfl

theorem TCPReceiver.ackno_eq {r : TCPReceiver} {a : WrappingInt32} (h : r.ackno = some a) :
    r.setSyn = true ∧ a = wrap r.absAckno r.isn := by
  unfold ackno at h
  unfold absAckno
  split_ifs at h ⊢ with h1 h2
  · refine ⟨h1, ?_⟩
    cases h
    rw [h2]
    rfl
  · refine ⟨h1, ?_⟩
    cases h
    rw [Bool.not_eq_true] at h2
    rw [h2]
    rfl

structure Link (x : SenderRun) (taken : List Byte) (r : TCPReceiver) : Prop where
  tiles : Tiles x.accepted x.sent x.sender
  queue : Queue x.sender
  capacity : r.capacity = r.reassembler.capacity
  inv : Inv r.reassembler
  safe : Safe (x.accepted.take x.sender.stream.bytesRead) taken r.reassembler
  eof : r.reassembler.eofIndex = noEof ∨
    (x.sender.setFin = true ∧ r.reassembler.eofIndex = x.accepted.length)
  syn : r.setSyn = true → r.isn = x.sender.isn ∧ x.sender.setSyn = true
  listening : r.setSyn = false →
    r.reassembler.unassembledIndex = 0 ∧ r.reassembler.output.inputEnded = false
  acked : x.sender.recvAckno ≤ r.absAckno

theorem Link.new (sendCapacity retxTimeout : ℕ) (isn : WrappingInt32) {recvCapacity : ℕ}
    (h : recvCapacity < 2 ^ 64) :
    Link (SenderRun.new sendCapacity retxTimeout isn) [] (TCPReceiver.new recvCapacity) where
  tiles := Tiles.new sendCapacity retxTimeout isn
  queue := Queue.new sendCapacity retxTimeout isn
  capacity := rfl
  inv := Inv.new h
  safe := Safe.new _ recvCapacity
  eof := Or.inl rfl
  syn h := by simp [TCPReceiver.new] at h
  listening _ := ⟨rfl, rfl⟩
  acked := le_rfl

theorem Link.index_le {x : SenderRun} {taken : List Byte} {r : TCPReceiver} (h : Link x taken r) :
    r.reassembler.unassembledIndex ≤ x.sender.stream.bytesRead :=
  (h.safe.index_le h.inv).trans (List.length_take_le _ _)

theorem Link.read_le_next {x : SenderRun} {taken : List Byte} {r : TCPReceiver} (h : Link x taken r) :
    x.sender.stream.bytesRead ≤ x.sender.nextSeqno := by
  rw [h.tiles.count]
  omega

/-- The end the receiver has reached is the end of everything sent. -/
theorem Link.ended {x : SenderRun} {taken : List Byte} {r : TCPReceiver} (h : Link x taken r)
    (hb : x.sender.nextSeqno < 2 ^ 31) (hend : r.reassembler.output.inputEnded = true) :
    x.sender.setFin = true ∧ r.reassembler.eofIndex = x.accepted.length ∧
      r.reassembler.unassembledIndex = x.accepted.length := by
  have hreached := h.safe.closed.mp hend
  have h1 := h.index_le
  have h2 := h.read_le_next
  rcases h.eof with heof | ⟨hfin, heof⟩
  · rw [heof, noEof] at hreached
    omega
  · refine ⟨hfin, heof, ?_⟩
    have h3 := h.tiles.length
    have h4 := x.sender.stream.balanced
    omega

theorem Link.absAckno_le {x : SenderRun} {taken : List Byte} {r : TCPReceiver} (h : Link x taken r)
    (hb : x.sender.nextSeqno < 2 ^ 31) : r.absAckno ≤ x.sender.nextSeqno := by
  unfold TCPReceiver.absAckno TCPReceiver.streamOut
  split_ifs with hsyn
  · have h1 := h.index_le
    rw [h.tiles.count, (h.syn hsyn).2, h.inv.written]
    cases hend : r.reassembler.output.inputEnded with
    | false => simp only [Bool.toNat_true, Bool.toNat_false]; omega
    | true =>
      rw [(h.ended hb hend).1]
      simp only [Bool.toNat_true]
      omega
  · exact Nat.zero_le _

theorem Link.content {x : SenderRun} {taken : List Byte} {r : TCPReceiver} (h : Link x taken r) :
    taken ++ r.streamOut.buffer <+: x.accepted :=
  h.safe.content.trans (List.take_prefix _ _)

theorem Link.complete {x : SenderRun} {taken : List Byte} {r : TCPReceiver} (h : Link x taken r)
    (hb : x.sender.nextSeqno < 2 ^ 31) (hend : r.streamOut.inputEnded = true) :
    x.sender.stream.inputEnded = true ∧ taken ++ r.streamOut.buffer = x.accepted := by
  obtain ⟨hfin, -, hindex⟩ := h.ended hb hend
  refine ⟨(h.tiles.finished hfin).2.1, h.content.eq_of_length ?_⟩
  rw [← hindex]
  exact h.safe.length_eq h.inv

theorem Link.finAcked {x : SenderRun} {taken : List Byte} {r : TCPReceiver} (h : Link x taken r)
    (hb : x.sender.nextSeqno < 2 ^ 31) (hfin : x.sender.stateSummary = .finAcked) :
    r.streamOut.inputEnded = true := by
  have hstate : x.sender.stream.bytesWritten + 2 ≤ x.sender.nextSeqno ∧
      x.sender.bytesInFlight = 0 := by
    unfold TCPSender.stateSummary at hfin
    split_ifs at hfin with h1 h2 h3 h4 h5 h6
    omega
  have h1 := h.queue.start
  have h2 := h.acked
  have h3 := h.absAckno_le hb
  have h4 := h.index_le
  have h5 := h.tiles.count
  have h6 := x.sender.stream.balanced
  have h7 := Bool.toNat_le x.sender.setSyn
  have h8 := Bool.toNat_le x.sender.setFin
  by_contra hend
  rw [Bool.not_eq_true] at hend
  unfold TCPReceiver.absAckno at h2
  split_ifs at h2
  · rw [hend, TCPReceiver.streamOut, h.inv.written, Bool.toNat_false] at h2
    omega
  · omega

theorem Link.onward {x x' : SenderRun} {taken : List Byte} {r : TCPReceiver} (h : Link x taken r)
    (hx : Onward x x') (ht : Tiles x'.accepted x'.sent x'.sender) (hq : Queue x'.sender)
    (hack : x'.sender.recvAckno ≤ r.absAckno) : Link x' taken r where
  tiles := ht
  queue := hq
  capacity := h.capacity
  inv := h.inv
  safe := by
    apply h.safe.mono
    have hle : x.sender.stream.bytesRead ≤ x.accepted.length := by
      rw [h.tiles.length, ← x.sender.stream.balanced]
      exact Nat.le_add_right _ _
    obtain ⟨more, hmore⟩ := hx.accepted
    rw [← hmore, ← List.take_append_of_le_length hle]
    exact List.take_prefix_take_left hx.read
  eof := by
    rcases h.eof with heof | ⟨hfin, heof⟩
    · exact Or.inl heof
    · obtain ⟨h1, h2⟩ := hx.fin hfin
      exact Or.inr ⟨h1, by rw [h2]; exact heof⟩
  syn hsyn := ⟨(h.syn hsyn).1.trans hx.isn.symm, hx.syn (h.syn hsyn).2⟩
  listening := h.listening
  acked := hack

/-- An acknowledgment the receiver has given comes back exact. -/
theorem Link.unwrap_ackno {x : SenderRun} {taken : List Byte} {r : TCPReceiver} (h : Link x taken r)
    (hb : x.sender.nextSeqno < 2 ^ 31) {a : ℕ} (ha : a ≤ r.absAckno) :
    unwrap (wrap a x.sender.isn) x.sender.isn x.sender.recvAckno = a := by
  have h1 := h.absAckno_le hb
  have h2 := h.queue.le
  apply unwrap_wrap <;> omega

theorem Link.step {x x' : SenderRun} {taken : List Byte} {r : TCPReceiver} (h : Link x taken r)
    (hb : x.sender.nextSeqno < 2 ^ 31) {op : SenderOp} (hst : SenderStep x op x')
    (hack : ∀ ackno w, op = .ackReceived ackno w →
      ∃ a, ackno = wrap a x.sender.isn ∧ a ≤ r.absAckno) : Link x' taken r := by
  apply h.onward (hst.onward h.tiles) (h.tiles.step hst) (h.queue.step h.tiles (by omega) hst)
  cases hst with
  | fed => exact h.acked
  | filled s t gs hs hgs =>
    rw [hgs.grown.recvAckno]
    rcases hs with rfl | ⟨ackno, w, hop, ha⟩
    · exact h.acked
    · obtain ⟨a, rfl, hle⟩ := hack ackno w hop
      rw [(acceptAck_spec ha).2.2.recvAckno, h.unwrap_ackno hb hle]
      exact hle
  | other t gs hk =>
    rw [hk.recvAckno]
    exact h.acked
  | popped => exact h.acked

end Sponge
