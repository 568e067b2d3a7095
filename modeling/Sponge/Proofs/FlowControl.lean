import Sponge.Sanity.Keep

/-! Flow control between the sender and the receiver. The right edge of the window
never moves back, nothing but a probe is sent past it, and what arrives inside it
is kept. The last fails once `bytes_read() + capacity` passes 2^64: the
reassembler's own end of the window then wraps, and bytes inside the window are
discarded. -/

namespace Sponge

open StreamReassembler TCPSender

structure FlowControl (s : Transfer) : Prop where
  edge : ∀ e s', s.step e = .ok s' → s.rx.rightEdge ≤ s'.rx.rightEdge
  window : ∀ pre e post, s.tx.first = pre ++ e :: post →
    (e.Probe ∧ e.segment.payload.length ≤ 1) ∨ ∀ j < e.segment.payload.length,
      streamIndex (pre.map FirstSend.segment) e.segment + j < s.rx.limit
  copies : ∀ g ∈ s.emitted, g.payload ≠ [] → ∃ e ∈ s.tx.first, e.segment = g
  kept : ∀ pre e post, s.tx.first = pre ++ e :: post → ¬ e.Probe →
    ∀ i s', s.emitted[i]? = some e.segment → s.step (.deliver i) = .ok s' →
      s'.rx.setSyn = true → s.rx.limit < 2 ^ 64 → ∀ j < e.segment.payload.length,
        Held s'.rx.reassembler (streamIndex (pre.map FirstSend.segment) e.segment + j)

theorem Linked.edge_le {s s' : Transfer} (h : Linked s) (hb : s.tx.sender.nextSeqno < 2 ^ 31)
    {e : TransferEvent} (hs : s.step e = .ok s') : s.rx.rightEdge ≤ s'.rx.rightEdge := by
  obtain ⟨u, t, hrun, h1, hnext, h2⟩ := Transfer.step_spec h hb e
  rw [hs] at hrun
  cases hrun
  have ht := h.moved hb h1
  exact ((h1.ahead h hb).trans (h2.ahead ht (hnext ▸ hb))).edge

theorem Linked.copies {s : Transfer} (h : Linked s) {g : TCPSegment} (hg : g ∈ s.emitted)
    (hne : g.payload ≠ []) : ∃ e ∈ s.tx.first, e.segment = g := by
  have hsent : g ∈ s.tx.sent := by
    rcases List.mem_append.mp hg with hg | hg
    · exact hg
    · obtain ⟨e, he, rfl⟩ := List.mem_map.mp hg
      refine (h.repeats e he).resolve_left fun hlen => hne ?_
      simp only [TCPSegment.lengthInSequenceSpace, Nat.add_eq_zero_iff] at hlen
      exact List.length_eq_zero_iff.mp hlen.1.1
  exact List.mem_map.mp hsent

theorem Flow.flowControl {s : Transfer} (h : Linked s) (hf : Flow s)
    (hb : s.tx.sender.nextSeqno < 2 ^ 31) (hi : s.rx.limit < 2 ^ 64 → Intact s.tx s.rx) :
    FlowControl s where
  edge _ _ := h.edge_le hb
  window pre e post hl := by
    rcases hf.fits pre e post hl with hnil | hle | ⟨hprobe, hle, -⟩
    · refine Or.inr fun j hj => ?_
      rw [hnil] at hj
      simp at hj
    · exact Or.inr fun j hj => by omega
    · exact Or.inl ⟨hprobe, hle⟩
  copies _ := h.copies
  kept pre e post hl hprobe i s' hg hs hsyn hlt j hj := by
    obtain ⟨r, hrun, hd⟩ := h.link.delivered hb (h.genuine (List.mem_of_getElem? hg))
    have hs' : s.step (.deliver i) = .ok { s with rx := r } := by
      simp [Transfer.step, hg, hrun]
    rw [hs'] at hs
    cases hs
    exact (hi hlt).kept h hf hb hlt hl hprobe hd hsyn (Nat.le_add_right _ _) (by omega)

/-- For every run of a sender and a receiver over a network that loses, repeats,
delays and reorders, with fewer than 2^31 sequence numbers used. -/
theorem flow_control (sendCapacity retxTimeout : ℕ) (isn : WrappingInt32) (recvCapacity : ℕ)
    (hcap : recvCapacity < 2 ^ 64) (events : List TransferEvent)
    (hb : Always Transfer.step (fun s => s.tx.sender.nextSeqno < 2 ^ 31)
      (Transfer.new sendCapacity retxTimeout isn recvCapacity) events) :
    ∃ s, exec Transfer.step (Transfer.new sendCapacity retxTimeout isn recvCapacity) events = .ok s ∧
      FlowControl s := by
  have hnew := Transfer.Sound.new sendCapacity retxTimeout isn hcap
  obtain ⟨s, hrun, hs, h, hsound⟩ := Transfer.exec_inv
    (fun _ _ _ hb hm (hI : Transfer.Sound _) => hI.moved hb hm) hnew.linked hnew hb
  exact ⟨s, hrun, hsound.flow.flowControl h hs hsound.intact⟩

/-- A window of two bytes, then a closed one and a probe. -/
theorem flow_control_run :
    ∃ s, exec Transfer.step (Transfer.new 10 1000 ⟨7⟩ 2)
        [.write [1, 2, 3], .deliver 0, .report, .acknowledge 0, .deliver 1, .report, .acknowledge 1,
          .deliver 2, .read 1, .deliver 2] = .ok s ∧ FlowControl s :=
  flow_control 10 1000 ⟨7⟩ 2 (by decide)
    [.write [1, 2, 3], .deliver 0, .report, .acknowledge 0, .deliver 1, .report, .acknowledge 1,
      .deliver 2, .read 1, .deliver 2] (by decide)

/-- At the largest capacity, reading one byte wraps the reassembler's end of the
window to 0, and the next byte, sent inside the window, is discarded. -/
theorem sent_byte_discarded :
    ∃ s s' e, exec Transfer.step (Transfer.new 10 1000 ⟨7⟩ (2 ^ 64 - 1))
        [.write [1], .deliver 0, .report, .acknowledge 0, .deliver 1, .read 1, .write [2]] = .ok s ∧
      s.tx.sender.nextSeqno < 2 ^ 31 ∧ s.rx.setSyn = true ∧ s.tx.first[2]? = some e ∧ ¬ e.Probe ∧
      streamIndex ((s.tx.first.take 2).map FirstSend.segment) e.segment = 1 ∧
      e.segment.payload = [2] ∧ s.emitted[2]? = some e.segment ∧ s.step (.deliver 2) = .ok s' ∧
      ¬ Held s'.rx.reassembler 1 := by
  refine ⟨_, _, _, rfl, by decide, rfl, rfl, by decide, rfl, rfl, rfl, rfl, ?_⟩
  rintro (h | h)
  · exact absurd h (by decide)
  · exact absurd h (by decide)

end Sponge
