import Sponge.Sanity.Received
import Sponge.Sanity.Summary

/-! The state of a connection only moves on. Its sender's summary is read off three numbers and
a flag, and its receiver's off three flags; none of them is ever taken back. -/

namespace Sponge

open TCPSender SenderOp

/-- The sequence numbers sent and no longer outstanding. -/
def TCPSender.settled (s : TCPSender) : ℕ := s.nextSeqno - s.bytesInFlight

theorem Tiles.flight_le {accepted : List Byte} {first : List TCPSegment} {s : TCPSender}
    (h : Tiles accepted first s) : s.bytesInFlight ≤ s.nextSeqno := by
  obtain ⟨gone, hgone⟩ := h.queue
  rw [h.next, h.flight, ← hgone, space_append]
  exact Nat.le_add_left _ _

theorem Tiles.settled_pos {accepted : List Byte} {first : List TCPSegment} {s : TCPSender}
    (h : Tiles accepted first s) : 0 < s.settled ↔ s.nextSeqno ≠ s.bytesInFlight := by
  have := h.flight_le
  unfold TCPSender.settled
  omega

theorem SenderStep.settled {r r' : SenderRun} {op : SenderOp} (ht : Tiles r.accepted r.sent r.sender)
    (h : SenderStep r op r') : r.sender.settled ≤ r'.sender.settled ∧
      ((∀ ackno w, op ≠ .ackReceived ackno w) → r'.sender.settled = r.sender.settled) := by
  have hle := ht.flight_le
  unfold TCPSender.settled
  cases h with
  | fed => exact ⟨le_rfl, fun _ => rfl⟩
  | filled s t gs hs hgs =>
    have hnext := hgs.grown.next
    have hflight := hgs.grown.flight
    simp only
    rcases hs with rfl | ⟨ackno, w, rfl, ha⟩
    · exact ⟨by omega, fun _ => by omega⟩
    · have hacked := (acceptAck_spec ha).2.2
      rw [hacked.next] at hnext
      have hless := hacked.flight
      exact ⟨by omega, fun hne => absurd rfl (hne ackno w)⟩
  | other t gs hk =>
    rw [hk.next, hk.flight]
    exact ⟨le_rfl, fun _ => rfl⟩
  | popped => exact ⟨le_rfl, fun _ => rfl⟩

theorem SenderRun.run_settled {x : SenderRun} (ht : Tiles x.accepted x.sent x.sender)
    (ops : List SenderOp) : x.sender.settled ≤ (x.run ops).sender.settled ∧
      (Quiet ops → (x.run ops).sender.settled = x.sender.settled) := by
  refine ⟨?_, fun hquiet => ?_⟩
  · exact (SenderRun.run_keeps (C := fun _ => True)
      (I := fun r => x.sender.settled ≤ r.sender.settled)
      (fun r op _ hr hI => hI.trans ((SenderRun.step_spec hr op).settled hr).1) ops x
      (fun _ _ => trivial) ht le_rfl).2
  · refine (SenderRun.run_keeps (C := fun op => op ∈ ops)
      (I := fun r => r.sender.settled = x.sender.settled) (fun r op hop hr hI => ?_) ops x
      (fun _ h => h) ht rfl).2
    refine (((SenderRun.step_spec hr op).settled hr).2 fun ackno w hop' => ?_).trans hI
    exact hquiet ackno w (hop' ▸ hop)

def TCPSenderStateSummary.rank : TCPSenderStateSummary → ℕ
  | .closed => 0
  | .synSent => 1
  | .synAcked => 2
  | .finSent => 3
  | .finAcked => 4
  | .error => 5

def TCPReceiverStateSummary.rank : TCPReceiverStateSummary → ℕ
  | .listen => 0
  | .synRecv => 1
  | .finRecv => 2
  | .error => 3

theorem TCPSenderStateSummary.eq_finAcked {s : TCPSenderStateSummary} (h : 4 ≤ s.rank)
    (herror : s ≠ .error) : s = .finAcked := by
  cases s <;> simp_all [rank]

theorem TCPReceiverStateSummary.eq_finRecv {s : TCPReceiverStateSummary} (h : 2 ≤ s.rank)
    (herror : s ≠ .error) : s = .finRecv := by
  cases s <;> simp_all [rank]

theorem TCPSender.error_of_summary {s : TCPSender} (h : s.stateSummary = .error) :
    s.stream.error = true := by
  unfold stateSummary at h
  split_ifs at h with he
  exact he

theorem TCPReceiver.error_of_summary {r : TCPReceiver} (h : r.stateSummary = .error) :
    r.streamOut.error = true := by
  unfold stateSummary at h
  split_ifs at h with he
  exact he

/-- What the summary of a sender is read off: `t` has come at least as far as `s`. -/
structure TCPSender.Onto (s t : TCPSender) : Prop where
  next : s.nextSeqno ≤ t.nextSeqno
  settled : s.settled ≤ t.settled
  fin : s.setFin = true → t.setFin = true ∧ t.nextSeqno = s.nextSeqno

theorem TCPSender.Onto.refl (s : TCPSender) : Onto s s := ⟨le_rfl, le_rfl, fun h => ⟨h, rfl⟩⟩

theorem TCPSender.Onto.trans {s t u : TCPSender} (h : Onto s t) (h' : Onto t u) : Onto s u where
  next := h.next.trans h'.next
  settled := h.settled.trans h'.settled
  fin hfin := ⟨(h'.fin (h.fin hfin).1).1, (h'.fin (h.fin hfin).1).2.trans (h.fin hfin).2⟩

theorem Tiles.stateSummary_eq {accepted : List Byte} {first : List TCPSegment} {s : TCPSender}
    (h : Tiles accepted first s) : s.stateSummary =
      if s.stream.error then .error
      else if s.nextSeqno = 0 then .closed
      else if s.nextSeqno = s.bytesInFlight then .synSent
      else if s.setFin = false then .synAcked
      else if s.bytesInFlight ≠ 0 then .finSent
      else .finAcked := by
  unfold TCPSender.stateSummary
  cases hfin : s.setFin with
  | false =>
    simp only [if_pos (h.next_lt_of_noFin hfin), ite_self, if_true]
  | true =>
    obtain ⟨heof, hnext⟩ := h.next_of_fin hfin
    simp only [heof, hnext, lt_irrefl, if_false, Bool.not_true, Bool.false_eq_true, reduceCtorEq]

theorem SenderStep.onto {r r' : SenderRun} {op : SenderOp} (h : SenderStep r op r')
    (ht : Tiles r.accepted r.sent r.sender) : Onto r.sender r'.sender := by
  have hon := h.onward ht
  refine ⟨hon.next, (h.settled ht).1, fun hfin => ⟨(hon.fin hfin).1, ?_⟩⟩
  obtain ⟨hfin', hsame⟩ := hon.fin hfin
  have ht' := ht.step h
  rw [(ht.next_of_fin hfin).2, (ht'.next_of_fin hfin').2, ← ht.length, ← ht'.length, hsame]

theorem TCPSender.Onto.rank_le {s t : TCPSender} (h : Onto s t) {as bs : List Byte}
    {gs hs : List TCPSegment} (htiles : Tiles as gs s) (htiles' : Tiles bs hs t)
    (herror : s.stream.error = true → t.stream.error = true) :
    s.stateSummary.rank ≤ t.stateSummary.rank := by
  have hflight := htiles.flight_le
  have hflight' := htiles'.flight_le
  have hnext := h.next
  have hsettled := h.settled
  unfold TCPSender.settled at hsettled
  rw [htiles.stateSummary_eq, htiles'.stateSummary_eq]
  by_cases he : t.stream.error = true
  · rw [if_pos he]
    split_ifs <;> simp [TCPSenderStateSummary.rank]
  rw [if_neg he, if_neg fun hs => he (herror hs)]
  -- a FIN that was sent stays sent, and the number behind it stays the last
  by_cases hfin : s.setFin = true
  · obtain ⟨hfin', hsame⟩ := h.fin hfin
    simp only [hfin, hfin']
    split_ifs <;> simp only [TCPSenderStateSummary.rank] <;> omega
  · rw [Bool.not_eq_true] at hfin
    simp only [hfin]
    split_ifs <;> simp only [TCPSenderStateSummary.rank] <;> omega

theorem TCPReceiver.stateSummary_eq (r : TCPReceiver) : r.stateSummary =
    if r.streamOut.error then .error
    else if r.setSyn = false then .listen
    else if r.streamOut.inputEnded then .finRecv
    else .synRecv := by
  unfold TCPReceiver.stateSummary TCPReceiver.ackno
  cases r.setSyn <;> cases r.streamOut.inputEnded <;> rfl

/-- The outbound stream is marked when the connection gives up or is reset. -/
theorem Runs.setError {c : TCPConnection} {op : ConnectionOp} {ops : List SenderOp}
    (h : Runs c op ops) (hset : SenderOp.setError ∈ ops) :
    (∃ ms, op = .tick ms ∧ maxRetxAttempts < (c.sender.tick ms).consecutiveRetransmissions) ∨
      ∃ g, op = .segmentReceived g ∧ c.isActive = true ∧ g.header.rst = true := by
  cases h with
  | giveUp ms hcount => exact .inl ⟨ms, rfl, hcount⟩
  | reset g hactive hrst => exact .inr ⟨g, rfl, hactive, hrst⟩
  | heard g _ _ reply hreply =>
    rcases hreply.mem_acks hset with h | h | ⟨ackno, w, h⟩ <;> cases h
  | connect | write | endInputStream | tick | read | dead => simp at hset

/-- A call leaves both errors as they are, or marks both streams. -/
theorem Live.step_failed {x : SenderRun} {c c' : TCPConnection} (h : Live x c) {op : ConnectionOp}
    (hs : c.step op = .ok c') (hr : c.receiver.Regular) : c'.Failed ∨
      (c'.sender.stream.error = c.sender.stream.error ∧
        c'.receiver.streamOut.error = c.receiver.streamOut.error) := by
  obtain ⟨ops, hruns, hc⟩ := TCPConnection.step_called (h.sender ▸ h.flushed) hs
  have hacted := TCPConnection.step_acted hs
  by_cases hset : SenderOp.setError ∈ ops
  · refine .inl ?_
    rcases hruns.setError hset with ⟨ms, rfl, hcount⟩ | ⟨g, rfl, hactive, hrst⟩
    · cases hacted with
      | sent _ hop => simp [ConnectionOp.sends] at hop
      | ticked _ hfew => exact absurd hcount hfew
      | finished _ hfew => exact absurd hcount hfew
      | gaveUp _ _ s out herr => exact ⟨herr, rfl⟩
    · cases hacted with
      | sent _ hop => simp [ConnectionOp.sends] at hop
      | dead _ hdead => exact absurd (hactive.symm.trans hdead) (by simp)
      | reset => exact ⟨rfl, rfl⟩
      | heard _ _ hnot => exact absurd (hrst.symm.trans hnot) (by simp)
  · have hsender : c'.sender.stream.error = c.sender.stream.error := by
      have hkeeps := (SenderRun.run_keeps (C := fun op => op ≠ .setError)
        (I := fun r => r.sender.stream.error = x.sender.stream.error)
        (fun r op hop ht hI => ((SenderOp.run_stream ht op).2 hop).trans hI) ops x
        (fun op hop heq => hset (heq ▸ hop)) h.tiles rfl).2
      rw [SenderRun.run_sender, h.sender] at hkeeps
      rw [hc.sender]
      exact hkeeps
    cases hacted with
    | gaveUp _ _ s out herr => exact .inl ⟨herr, rfl⟩
    | reset => exact .inl ⟨rfl, rfl⟩
    | heard g _ _ r hseg =>
      exact .inr ⟨hsender, (TCPReceiver.segmentReceived_kept hr.steady hseg).2.1.error⟩
    | sent | read | ticked | finished | dead => exact .inr ⟨hsender, rfl⟩

theorem Live.step_onto {x : SenderRun} {c c' : TCPConnection} (h : Live x c) {op : ConnectionOp}
    (hs : c.step op = .ok c') : Onto c.sender c'.sender := by
  obtain ⟨ops, -, hc⟩ := TCPConnection.step_called (h.sender ▸ h.flushed) hs
  have hkeeps := (SenderRun.run_keeps (C := fun _ => True) (I := fun r => Onto x.sender r.sender)
    (fun r op _ ht hI => hI.trans ((SenderRun.step_spec ht op).onto ht)) ops x (by simp) h.tiles
    (Onto.refl _)).2
  rw [SenderRun.run_sender, h.sender] at hkeeps
  rw [hc.sender]
  exact ⟨hkeeps.next, hkeeps.settled, hkeeps.fin⟩

theorem TCPConnection.step_receiverRank {c c' : TCPConnection} {op : ConnectionOp}
    (h : c.step op = .ok c') (hr : c.receiver.Regular) (herror : c.receiver.streamOut.error = true →
      c'.receiver.streamOut.error = true) :
    c.receiver.stateSummary.rank ≤ c'.receiver.stateSummary.rank := by
  have hended := (step_receiver h hr).2
  have hsyn : c.receiver.setSyn = true → c'.receiver.setSyn = true := by
    cases step_acted h with
    | heard g _ _ r hseg =>
      exact fun hset => ((TCPReceiver.segmentReceived_kept hr.steady hseg).2.2.2 hset).1
    | sent | read | ticked | finished | gaveUp | dead | reset => exact id
  rw [TCPReceiver.stateSummary_eq, TCPReceiver.stateSummary_eq]
  by_cases he : c'.receiver.streamOut.error = true
  · rw [if_pos he]
    split_ifs <;> simp [TCPReceiverStateSummary.rank]
  · rw [if_neg he, if_neg fun hc => he (herror hc)]
    split_ifs with h1 h2 h3 h4 h5 h6 <;> simp_all [TCPReceiverStateSummary.rank]

/-- `b` is `a` or lies further on. -/
structure TCPState.Before (a b : TCPState) : Prop where
  sender : a.sender.rank ≤ b.sender.rank
  receiver : a.receiver.rank ≤ b.receiver.rank
  active : b.active = true → a.active = true
  linger : b.lingerAfterStreamsFinish = true → a.lingerAfterStreamsFinish = true

theorem TCPState.Before.refl (a : TCPState) : Before a a := ⟨le_rfl, le_rfl, id, id⟩

theorem TCPState.Before.trans {a b c : TCPState} (h : Before a b) (h' : Before b c) : Before a c :=
  ⟨h.sender.trans h'.sender, h.receiver.trans h'.receiver, h.active ∘ h'.active,
    h.linger ∘ h'.linger⟩

/-- What is known of a connection in use: it is closed only with both streams failed or both
done. -/
structure Settled (c : TCPConnection) : Prop where
  live : ∃ x, Live x c
  regular : c.receiver.Regular
  closed : c.isActive = false → c.Failed ∨
    (c.sender.stateSummary = .finAcked ∧ c.receiver.stateSummary = .finRecv)

theorem Settled.new (cfg : TCPConfig) (random : WrappingInt32) :
    Settled (TCPConnection.new cfg random) :=
  ⟨Live.new cfg random, TCPReceiver.Regular.new _, fun h => by cases h⟩

theorem Settled.before {c c' : TCPConnection} (h : Settled c) {op : ConnectionOp}
    (hs : c.step op = .ok c') : c.state.Before c'.state := by
  obtain ⟨x, hx⟩ := h.live
  obtain ⟨x', hx', -⟩ := hx.step hs
  have herrors := hx.step_failed hs h.regular
  refine ⟨?_, ?_, TCPConnection.step_active hs, fun hlinger => ?_⟩
  · refine (hx.step_onto hs).rank_le (hx.sender ▸ hx.tiles) (hx'.sender ▸ hx'.tiles) fun he => ?_
    exact herrors.elim And.left fun hsame => hsame.1.trans he
  · exact TCPConnection.step_receiverRank hs h.regular fun he =>
      herrors.elim And.right fun hsame => hsame.2.trans he
  · simp only [TCPConnection.state] at hlinger ⊢
    split_ifs at hlinger with hactive
    rw [if_pos (TCPConnection.step_active hs hactive)]
    cases TCPConnection.step_acted hs with
    | heard g _ _ r =>
      simp only [TCPConnection.lingers] at hlinger
      split_ifs at hlinger
      exact hlinger
    | sent | read | ticked | finished | gaveUp | dead | reset => exact hlinger

theorem Settled.step {c c' : TCPConnection} (h : Settled c) {op : ConnectionOp}
    (hs : c.step op = .ok c') : Settled c' := by
  obtain ⟨x, hx⟩ := h.live
  obtain ⟨x', hx', -⟩ := hx.step hs
  refine ⟨⟨x', hx'⟩, (TCPConnection.step_receiver hs h.regular).1, fun hclosed => ?_⟩
  cases hactive : c.isActive with
  | true =>
    refine (TCPConnection.step_closed hs hactive hclosed).imp_right ?_
    rintro ⟨ms, -, -, hrecv, hsent, -⟩
    exact ⟨hsent, hrecv⟩
  | false =>
    have hbefore := h.before hs
    have herrors := hx.step_failed hs h.regular
    rcases h.closed hactive with hfailed | ⟨hsent, hrecv⟩
    · refine .inl (herrors.elim id fun hsame => ⟨hsame.1.trans hfailed.1, hsame.2.trans hfailed.2⟩)
    · -- both summaries were the last before an error
      have hsender := hbefore.sender
      have hreceiver := hbefore.receiver
      have htiles := hx.tiles
      rw [hx.sender] at htiles
      simp only [TCPConnection.state, hsent, hrecv] at hsender hreceiver
      refine herrors.imp_right fun hsame => ⟨?_, ?_⟩
      · refine TCPSenderStateSummary.eq_finAcked hsender fun he => ?_
        have hbad := TCPSender.error_of_summary he
        rw [hsame.1, (htiles.finAcked hsent).1] at hbad
        cases hbad
      · refine TCPReceiverStateSummary.eq_finRecv hreceiver fun he => ?_
        have hbad := TCPReceiver.error_of_summary he
        rw [hsame.2, (TCPReceiver.finRecv hrecv).1] at hbad
        cases hbad

theorem Settled.run {c c' : TCPConnection} (h : Settled c) {events : List ConnectionOp}
    (hrun : exec TCPConnection.step c events = .ok c') : Settled c' ∧ c.state.Before c'.state :=
  exec_ok_inv (I := fun d => Settled d ∧ c.state.Before d.state)
    (fun _ _ _ hd hs => ⟨hd.1.step hs, hd.2.trans (hd.1.before hs)⟩)
    ⟨h, TCPState.Before.refl _⟩ hrun

end Sponge
