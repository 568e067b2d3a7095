import Sponge.Sanity.Acted
import Sponge.Sanity.Network

/-! Agreement at a clean close. A connection that becomes inactive without an
error has been told by its own summaries that both streams are done, and then they
are: each side's inbound stream has ended with exactly what the other's `write`
accepted. -/

namespace Sponge

open TCPSender

theorem Endpoint.step_conn {e e' peer : Endpoint} {ev : EndpointEvent}
    (hs : e.step peer ev = .ok e') : e'.conn = e.conn ∨ ∃ op, e.conn.step op = .ok e'.conn := by
  cases ev with
  | connect =>
    cases hs
    exact Or.inr ⟨.connect, rfl⟩
  | write data =>
    cases hs
    exact Or.inr ⟨.write data, rfl⟩
  | endInputStream =>
    cases hs
    exact Or.inr ⟨.endInputStream, rfl⟩
  | tick ms =>
    cases hs
    exact Or.inr ⟨.tick ms, rfl⟩
  | read len =>
    cases hs
    exact Or.inr ⟨.read len, rfl⟩
  | deliver i =>
    simp only [Endpoint.step] at hs
    split at hs
    · cases hs
      exact Or.inl rfl
    · obtain ⟨c, hc, hs⟩ := bind_eq_ok hs
      cases hs
      exact Or.inr ⟨.segmentReceived _, hc⟩

theorem TCPConnection.tick_nextSeqno (c : TCPConnection) (ms : ℕ) :
    (c.tick ms).sender.nextSeqno = c.sender.nextSeqno := by
  obtain ⟨gs, hkept, -⟩ := tick_spec c.sender ms
  unfold TCPConnection.tick
  simp only
  split_ifs
  · exact hkept.next
  · rw [(finish_frame _).1]
    exact hkept.next

theorem Endpoint.step_closed {e e' peer : Endpoint} {ev : EndpointEvent}
    (hs : e.step peer ev = .ok e') (h : e.conn.isActive = true) (h' : e'.conn.isActive = false)
    (hclean : ¬ e'.conn.Failed) :
    e'.conn.sender.nextSeqno = e.conn.sender.nextSeqno ∧
      e'.conn.receiver.stateSummary = .finRecv ∧ e'.conn.sender.stateSummary = .finAcked := by
  rcases Endpoint.step_conn hs with hsame | ⟨op, hop⟩
  · rw [hsame] at h'
    exact absurd (h.symm.trans h') (by simp)
  · obtain ⟨ms, rfl, -, hrecv, hsent, -⟩ := (TCPConnection.step_closed hop h h').resolve_left hclean
    have hnext := TCPConnection.tick_nextSeqno e.conn ms
    rw [Except.ok.inj hop] at hnext
    exact ⟨hnext, hrecv, hsent⟩

/-- The inbound stream of `peer` has ended with exactly what `e` accepted. -/
def Received (e peer : Endpoint) : Prop :=
  peer.conn.receiver.streamOut.inputEnded = true ∧ peer.written = e.accepted

theorem Direction.received_of_ended {x : SenderRun} {e peer : Endpoint} (h : Direction x e peer)
    (hb : e.conn.sender.nextSeqno < 2 ^ 31)
    (hend : peer.conn.receiver.streamOut.inputEnded = true) : Received e peer := by
  have hbx : x.sender.nextSeqno < 2 ^ 31 := h.sender ▸ hb
  exact ⟨hend, ((h.link hbx).complete hbx hend).2.trans h.accepted⟩

theorem Paired.received {e peer : Endpoint} (h : Paired e peer)
    (hb : e.conn.sender.nextSeqno < 2 ^ 31) (hb' : peer.conn.sender.nextSeqno < 2 ^ 31)
    (hrecv : e.conn.receiver.stateSummary = .finRecv)
    (hfin : e.conn.sender.stateSummary = .finAcked) : Received e peer ∧ Received peer e := by
  obtain ⟨⟨x, hx⟩, ⟨y, hy⟩⟩ := h
  have hbx : x.sender.nextSeqno < 2 ^ 31 := hx.sender ▸ hb
  have hend : e.conn.receiver.streamOut.inputEnded = true := by
    unfold TCPReceiver.stateSummary at hrecv
    split_ifs at hrecv with h1 h2 h3
    exact h3
  exact ⟨hx.received_of_ended hb ((hx.link hbx).finAcked hbx (hx.sender ▸ hfin)),
    hy.received_of_ended hb' hend⟩

theorem Paired.close {e e' peer : Endpoint} (h : Paired e peer)
    (hb : e.conn.sender.nextSeqno < 2 ^ 31) (hb' : peer.conn.sender.nextSeqno < 2 ^ 31)
    {ev : EndpointEvent} (hs : e.step peer ev = .ok e') (hactive : e.conn.isActive = true)
    (hinactive : e'.conn.isActive = false) (hclean : ¬ e'.conn.Failed) :
    Received e' peer ∧ Received peer e' := by
  obtain ⟨hnext, hrecv, hfin⟩ := Endpoint.step_closed hs hactive hinactive hclean
  obtain ⟨e'', hs', hacts⟩ := h.step hb' ev
  rw [hs] at hs'
  cases hs'
  exact (h.acts hacts).received (hnext ▸ hb) hb' hrecv hfin

/-- For every run of two connections over a network that loses, repeats, delays and
reorders, with fewer than 2^31 sequence numbers used in each direction: no call
faults, and whenever the next event makes one side inactive without an error, each
side has received exactly what the other has accepted. -/
theorem clean_close_agrees (cfg cfg' : TCPConfig) (random random' : WrappingInt32)
    (events : List (Side × EndpointEvent))
    (hb : Always Network.step Network.Short (Network.new cfg cfg' random random') events) :
    ∃ n, exec Network.step (Network.new cfg cfg' random random') events = .ok n ∧
      ∀ side ev n', n.step (side, ev) = .ok n' → (n.here side).conn.isActive = true →
        (n'.here side).conn.isActive = false → ¬ (n'.here side).conn.Failed →
          Received (n'.here side) (n'.across side) ∧ Received (n'.across side) (n'.here side) := by
  obtain ⟨n, hrun, hshort, h⟩ := Network.exec_inv (Paired.new cfg cfg' random random') hb
  refine ⟨n, hrun, fun side ev n' hs hactive hinactive hclean => ?_⟩
  cases side with
  | left =>
    obtain ⟨e, he, -⟩ := h.step hshort.2 ev
    simp only [Network.step, he, ok_bind, Except.ok.injEq] at hs
    subst hs
    exact h.close hshort.1 hshort.2 he hactive hinactive hclean
  | right =>
    obtain ⟨e, he, -⟩ := h.symm.step hshort.1 ev
    simp only [Network.step, he, ok_bind, Except.ok.injEq] at hs
    subst hs
    exact h.symm.close hshort.2 hshort.1 he hactive hinactive hclean

/-- A handshake, a byte each way, both ends, and the wait of the side that ended
first. -/
theorem clean_close_agrees_run :
    ∃ n n', exec Network.step (Network.new { rtTimeout := 1 } { rtTimeout := 1 } ⟨5⟩ ⟨9⟩)
        [(.left, .connect), (.right, .deliver 0), (.left, .deliver 0), (.right, .deliver 1),
          (.left, .write [1]), (.right, .deliver 2), (.right, .write [2]), (.left, .deliver 2),
          (.left, .endInputStream), (.right, .deliver 4), (.right, .endInputStream),
          (.left, .deliver 4), (.right, .deliver 5)] = .ok n ∧
      n.step (.left, .tick 10) = .ok n' ∧ n.left.conn.isActive = true ∧
      n'.left.conn.isActive = false ∧ ¬ n'.left.conn.Failed ∧
      Received n'.left n'.right ∧ Received n'.right n'.left := by
  obtain ⟨n, hrun, hclose⟩ := clean_close_agrees { rtTimeout := 1 } { rtTimeout := 1 } ⟨5⟩ ⟨9⟩
    [(.left, .connect), (.right, .deliver 0), (.left, .deliver 0), (.right, .deliver 1),
      (.left, .write [1]), (.right, .deliver 2), (.right, .write [2]), (.left, .deliver 2),
      (.left, .endInputStream), (.right, .deliver 4), (.right, .endInputStream),
      (.left, .deliver 4), (.right, .deliver 5)] (by decide)
  have hcheck : (exec Network.step (Network.new { rtTimeout := 1 } { rtTimeout := 1 } ⟨5⟩ ⟨9⟩)
      [(.left, .connect), (.right, .deliver 0), (.left, .deliver 0), (.right, .deliver 1),
        (.left, .write [1]), (.right, .deliver 2), (.right, .write [2]), (.left, .deliver 2),
        (.left, .endInputStream), (.right, .deliver 4), (.right, .endInputStream),
        (.left, .deliver 4), (.right, .deliver 5)] >>= fun n =>
      n.step (.left, .tick 10) >>= fun n' => .ok (decide (n.left.conn.isActive = true ∧
        n'.left.conn.isActive = false ∧ ¬ n'.left.conn.Failed))) = .ok true := by decide
  rw [hrun, ok_bind] at hcheck
  cases hs : n.step (.left, .tick 10) with
  | error =>
    rw [hs] at hcheck
    cases hcheck
  | ok n' =>
    rw [hs, ok_bind, Except.ok.injEq, decide_eq_true_eq] at hcheck
    obtain ⟨h1, h2, h3⟩ := hcheck
    exact ⟨n, n', hrun, hs, h1, h2, h3, hclose .left (.tick 10) n' hs h1 h2 h3⟩

end Sponge
