import Sponge.Sanity.Transfer

/-! End to end: what the receiver's stream is given is what the sender's stream
accepted, in every run of the two over a network that loses, repeats, delays and
reorders. -/

namespace Sponge

/-- Nothing but the accepted bytes arrives, in order; the end arrives last; and the
sender never believes more than the receiver has said. -/
structure StreamSafe (s : Transfer) : Prop where
  content : s.written <+: s.tx.accepted
  ended : s.rx.streamOut.inputEnded = true →
    s.tx.sender.stream.inputEnded = true ∧ s.written = s.tx.accepted
  acked : s.tx.sender.recvAckno ≤ s.rx.absAckno
  finAcked : s.tx.sender.stateSummary = .finAcked →
    s.rx.streamOut.inputEnded = true ∧ s.written = s.tx.accepted

theorem Linked.streamSafe {s : Transfer} (h : Linked s) (hb : s.tx.sender.nextSeqno < 2 ^ 31) :
    StreamSafe s where
  content := h.link.content
  ended := h.link.complete hb
  acked := h.link.acked
  finAcked hfin := by
    have hend := h.link.finAcked hb hfin
    exact ⟨hend, (h.link.complete hb hend).2⟩

/-- For every run of a sender and a receiver over such a network that uses fewer
than 2^31 sequence numbers: no call faults, and the stream is safe at its end. -/
theorem stream_safe (sendCapacity retxTimeout : ℕ) (isn : WrappingInt32) (recvCapacity : ℕ)
    (hcap : recvCapacity < 2 ^ 64) (events : List TransferEvent)
    (hb : Always Transfer.step (fun s => s.tx.sender.nextSeqno < 2 ^ 31)
      (Transfer.new sendCapacity retxTimeout isn recvCapacity) events) :
    ∃ s, exec Transfer.step (Transfer.new sendCapacity retxTimeout isn recvCapacity) events = .ok s ∧
      StreamSafe s := by
  obtain ⟨s, hrun, hs, h, -⟩ := Transfer.exec_inv (I := fun _ => True) (fun _ _ _ _ _ h => h)
    (Linked.new sendCapacity retxTimeout isn hcap) trivial hb
  exact ⟨s, hrun, h.streamSafe hs⟩

theorem stream_safe_run :
    ∃ s, exec Transfer.step (Transfer.new 10 1000 ⟨4294967295⟩ 4)
        [.write [1, 2], .deliver 0, .report, .acknowledge 0, .deliver 1, .tick 1000,
          .endInput] = .ok s ∧
      StreamSafe s :=
  stream_safe 10 1000 ⟨4294967295⟩ 4 (by decide)
    [.write [1, 2], .deliver 0, .report, .acknowledge 0, .deliver 1, .tick 1000, .endInput] (by decide)

end Sponge
