import Sponge.Sanity.Connection

/-! What one call does to a connection besides its sender: the receiver, the linger flag,
the time since the last segment, and whether it stays active. -/

namespace Sponge

open TCPSender SenderOp

namespace TCPConnection

/-- Both streams are marked as failed. -/
def Failed (c : TCPConnection) : Prop :=
  c.sender.stream.error = true ∧ c.receiver.streamOut.error = true

instance (c : TCPConnection) : Decidable c.Failed := inferInstanceAs (Decidable (_ ∧ _))

/-- The linger flag after a segment: `r` is the receiver that has taken it, `s` the sender
that has taken its acknowledgment. A SYN that connects returns before the check. -/
def lingers (c : TCPConnection) (g : TCPSegment) (r : TCPReceiver) (s : TCPSender) : Bool :=
  if ¬ (g.header.syn = true ∧ s.nextSeqno = 0) ∧ r.stateSummary = .finRecv ∧
    s.stateSummary = .synAcked then false else c.lingerAfterStreamsFinish

end TCPConnection

/-- The calls of the owner that only hand something to the sender. -/
def ConnectionOp.sends : ConnectionOp → Bool
  | .connect => true
  | .write _ => true
  | .endInputStream => true
  | _ => false

/-- How a call leaves the connection. The sender and the queue are those of `Called`. -/
inductive Acted (c : TCPConnection) : ConnectionOp → TCPConnection → Prop
  | sent (op : ConnectionOp) (hop : op.sends = true) (s : TCPSender) (out : List TCPSegment) :
      Acted c op { c with sender := s, segmentsOut := out }
  | read (len : ℕ) : Acted c (.read len)
      { c with receiver := c.receiver.withOutput (c.receiver.streamOut.popOutput len) }
  | ticked (ms : ℕ) (h : ¬ maxRetxAttempts < (c.sender.tick ms).consecutiveRetransmissions)
      (s : TCPSender) (out : List TCPSegment) : Acted c (.tick ms)
      { c with
        sender := s
        segmentsOut := out
        timeSinceLastSegmentReceived := uadd c.timeSinceLastSegmentReceived ms }
  | finished (ms : ℕ) (h : ¬ maxRetxAttempts < (c.sender.tick ms).consecutiveRetransmissions)
      (s : TCPSender) (out : List TCPSegment)
      (hrecv : c.receiver.stateSummary = .finRecv) (hsent : s.stateSummary = .finAcked)
      (hwait : c.lingerAfterStreamsFinish = false ∨
        10 * c.cfg.rtTimeout.toNat ≤ uadd c.timeSinceLastSegmentReceived ms) : Acted c (.tick ms)
      { c with
        sender := s
        segmentsOut := out
        timeSinceLastSegmentReceived := uadd c.timeSinceLastSegmentReceived ms
        isActive := false }
  | gaveUp (ms : ℕ) (h : maxRetxAttempts < (c.sender.tick ms).consecutiveRetransmissions)
      (s : TCPSender) (out : List TCPSegment) (herr : s.stream.error = true) : Acted c (.tick ms)
      { c with
        sender := s
        segmentsOut := out
        receiver := c.receiver.withOutput c.receiver.streamOut.setError
        timeSinceLastSegmentReceived := uadd c.timeSinceLastSegmentReceived ms
        isActive := false }
  | dead (g : TCPSegment) (h : c.isActive = false) : Acted c (.segmentReceived g) c
  | reset (g : TCPSegment) (h : c.isActive = true) (hrst : g.header.rst = true) :
      Acted c (.segmentReceived g) ({ c with timeSinceLastSegmentReceived := 0 }.setShutdown false)
  | heard (g : TCPSegment) (h : c.isActive = true) (hrst : g.header.rst = false) (r : TCPReceiver)
      (hr : c.receiver.segmentReceived g = .ok r) (s : TCPSender) (out : List TCPSegment) :
      Acted c (.segmentReceived g)
      { c with
        receiver := r
        sender := s
        segmentsOut := out
        timeSinceLastSegmentReceived := 0
        lingerAfterStreamsFinish := c.lingers g r (runs c.sender g.acks) }

namespace TCPConnection

/-- The end of a tick closes only with both streams done and nothing to wait for. -/
theorem finish_cases (c : TCPConnection) : c.finish = c ∨
    (c.receiver.stateSummary = .finRecv ∧ c.sender.stateSummary = .finAcked ∧
      (c.lingerAfterStreamsFinish = false ∨
        10 * c.cfg.rtTimeout.toNat ≤ c.timeSinceLastSegmentReceived) ∧
      c.finish = { c with isActive := false }) := by
  unfold finish
  split_ifs with hdone hlinger htime
  · exact Or.inr ⟨hdone.1, hdone.2, Or.inr htime, rfl⟩
  · exact Or.inl rfl
  · exact Or.inr ⟨hdone.1, hdone.2, Or.inl (by simpa using hlinger), rfl⟩
  · exact Or.inl rfl

theorem tick_acted (c : TCPConnection) (ms : ℕ) : Acted c (.tick ms) (c.tick ms) := by
  unfold tick
  simp only
  split_ifs with hcount
  · exact Acted.gaveUp ms hcount _ _ rfl
  · rcases finish_cases (segmentAssembleSend { c with
      sender := c.sender.tick ms
      timeSinceLastSegmentReceived := uadd c.timeSinceLastSegmentReceived ms }) with
      hsame | ⟨hrecv, hsent, hwait, hclosed⟩
    · rw [hsame]
      exact Acted.ticked ms hcount _ _
    · rw [hclosed]
      exact Acted.finished ms hcount _ _ hrecv hsent hwait

theorem keepAlive_frame (c : TCPConnection) (g : TCPSegment) :
    ∃ s, c.keepAlive g = { c with sender := s } := by
  unfold keepAlive
  split
  · split_ifs
    · exact ⟨_, rfl⟩
    · exact ⟨_, rfl⟩
  · exact ⟨_, rfl⟩

theorem answer_frame (c : TCPConnection) (g : TCPSegment) :
    ∃ s, c.answer g = { c with sender := s } := by
  unfold answer
  split_ifs
  · exact ⟨_, rfl⟩
  · exact ⟨_, rfl⟩

theorem respond_frame (c : TCPConnection) (g : TCPSegment) :
    ∃ s out, c.respond g = { c with
      sender := s
      segmentsOut := out
      lingerAfterStreamsFinish := c.lingers g c.receiver c.sender } := by
  unfold respond lingers
  split_ifs with hconnect hwait hwait
  · exact absurd hconnect hwait.1
  · exact ⟨_, _, rfl⟩
  · obtain ⟨s, hs⟩ := keepAlive_frame c.closeWait g
    obtain ⟨t, ht⟩ := answer_frame (c.closeWait.keepAlive g) g
    rw [ht, hs, closeWait, if_pos hwait.2]
    exact ⟨_, _, rfl⟩
  · obtain ⟨s, hs⟩ := keepAlive_frame c.closeWait g
    obtain ⟨t, ht⟩ := answer_frame (c.closeWait.keepAlive g) g
    rw [ht, hs, closeWait, if_neg fun h => hwait ⟨hconnect, h⟩]
    exact ⟨_, _, rfl⟩

theorem segmentReceived_acted {c c' : TCPConnection} {g : TCPSegment}
    (h : c.segmentReceived g = .ok c') : Acted c (.segmentReceived g) c' := by
  rcases segmentReceived_cases h with ⟨hactive, rfl⟩ | ⟨hactive, hrst, rfl⟩ |
    ⟨hactive, hrst, r, hr, rfl⟩
  · exact Acted.dead g hactive
  · exact Acted.reset g hactive hrst
  · have hack : (c.taken r).acknowledge g = { c.taken r with sender := runs c.sender g.acks } := by
      unfold acknowledge TCPSegment.acks
      split_ifs
      · rfl
      · rfl
    obtain ⟨s, out, hrespond⟩ := respond_frame ((c.taken r).acknowledge g) g
    rw [hrespond, hack]
    exact Acted.heard g hactive hrst r hr s out

theorem step_acted {c c' : TCPConnection} {op : ConnectionOp} (h : c.step op = .ok c') :
    Acted c op c' := by
  cases op with
  | connect =>
    cases h
    exact Acted.sent .connect rfl _ _
  | write data =>
    cases h
    exact Acted.sent (.write data) rfl _ _
  | endInputStream =>
    cases h
    exact Acted.sent .endInputStream rfl _ _
  | tick ms =>
    cases h
    exact tick_acted c ms
  | read len =>
    cases h
    have hread := Acted.read (c := c) len
    rwa [readInbound, ByteStream.read_eq_pop]
  | segmentReceived g => exact segmentReceived_acted h

theorem step_closed {c c' : TCPConnection} {op : ConnectionOp} (h : c.step op = .ok c')
    (hactive : c.isActive = true) (hclosed : c'.isActive = false) :
    c'.Failed ∨ ∃ ms, op = .tick ms ∧ c'.receiver = c.receiver ∧ c'.receiver.stateSummary = .finRecv ∧
      c'.sender.stateSummary = .finAcked ∧ (c.lingerAfterStreamsFinish = false ∨
        10 * c.cfg.rtTimeout.toNat ≤ uadd c.timeSinceLastSegmentReceived ms) := by
  cases step_acted h with
  | sent => exact absurd (hactive.symm.trans hclosed) (by simp)
  | read => exact absurd (hactive.symm.trans hclosed) (by simp)
  | ticked => exact absurd (hactive.symm.trans hclosed) (by simp)
  | finished ms _ s out hrecv hsent hwait => exact Or.inr ⟨ms, rfl, rfl, hrecv, hsent, hwait⟩
  | gaveUp ms _ s out herr => exact Or.inl ⟨herr, rfl⟩
  | dead g hdead => exact absurd (hactive.symm.trans hdead) (by simp)
  | reset => exact Or.inl ⟨rfl, rfl⟩
  | heard => exact absurd (hactive.symm.trans hclosed) (by simp)

theorem step_active {c c' : TCPConnection} {op : ConnectionOp} (h : c.step op = .ok c')
    (hactive : c'.isActive = true) : c.isActive = true := by
  cases step_acted h with
  | sent => exact hactive
  | read => exact hactive
  | ticked => exact hactive
  | finished => cases hactive
  | gaveUp => cases hactive
  | dead => exact hactive
  | reset g h' => exact h'
  | heard g h' => exact h'

theorem step_cfg {c c' : TCPConnection} {op : ConnectionOp} (h : c.step op = .ok c') :
    c'.cfg = c.cfg := by
  cases step_acted h <;> rfl

end TCPConnection

end Sponge
