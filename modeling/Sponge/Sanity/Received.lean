import Sponge.Sanity.Acted
import Sponge.Sanity.Arrival
import Sponge.Sanity.Live

/-! What a connection's state says of the calls so far: its acknowledged position is the
number in some ACK that arrived, its outbound stream was ended by its owner, an ended
inbound stream stays ended, and its clock counts from the last segment. -/

namespace Sponge

open TCPSender SenderOp

/-- The acknowledged position moves only to the number in an acknowledgment, and not
beyond what has been sent. -/
theorem SenderStep.recvAckno {r r' : SenderRun} {op : SenderOp} (h : SenderStep r op r') :
    r'.sender.recvAckno = r.sender.recvAckno ∨
      ∃ ackno w, op = .ackReceived ackno w ∧ ackno = wrap r'.sender.recvAckno r.sender.isn ∧
        r'.sender.recvAckno ≤ r.sender.nextSeqno := by
  cases h with
  | fed => exact Or.inl rfl
  | filled s t gs hs hgs =>
    have hack := hgs.grown.recvAckno
    rcases hs with rfl | ⟨ackno, w, hop, ha⟩
    · exact Or.inl hack
    · obtain ⟨-, hle, hacked⟩ := acceptAck_spec ha
      rw [hacked.recvAckno] at hack
      refine Or.inr ⟨ackno, w, hop, ?_, ?_⟩
      · simp only [hack, wrap_unwrap]
      · simp only [hack]
        exact hle
  | other t gs hk => exact Or.inl hk.recvAckno
  | popped => exact Or.inl rfl

/-- No acknowledgment among the operations. -/
def Quiet (ops : List SenderOp) : Prop := ∀ ackno w, .ackReceived ackno w ∉ ops

theorem Replies.quiet {ops : List SenderOp} (h : Replies ops) : Quiet ops := by
  intro ackno w hmem
  rcases h _ hmem with h | h <;> cases h

theorem SenderRun.run_recvAckno {x : SenderRun} (ht : Tiles x.accepted x.sent x.sender)
    {ops : List SenderOp} (hops : Quiet ops) :
    (x.run ops).sender.recvAckno = x.sender.recvAckno := by
  refine (SenderRun.run_keeps (I := fun r => r.sender.recvAckno = x.sender.recvAckno)
    (C := fun op => op ∈ ops) (fun r op hop hr hI => ?_) ops x (fun _ h => h) ht rfl).2
  rcases (SenderRun.step_spec hr op).recvAckno with hsame | ⟨ackno, w, rfl, -⟩
  · exact hsame.trans hI
  · exact absurd hop (hops ackno w)

theorem Runs.acks {c : TCPConnection} {op : ConnectionOp} {ops : List SenderOp} (h : Runs c op ops) :
    Quiet ops ∨ ∃ g reply, op = .segmentReceived g ∧ c.isActive = true ∧ g.header.rst = false ∧
      g.header.ack = true ∧ ops = .ackReceived g.header.ackno g.header.win :: reply ∧ Quiet reply := by
  cases h with
  | connect => exact Or.inl (by simp [Quiet])
  | write => exact Or.inl (by simp [Quiet])
  | endInputStream => exact Or.inl (by simp [Quiet])
  | tick => exact Or.inl (by simp [Quiet])
  | giveUp => exact Or.inl (by simp [Quiet])
  | read => exact Or.inl (by simp [Quiet])
  | dead => exact Or.inl (by simp [Quiet])
  | reset => exact Or.inl (by simp [Quiet])
  | heard g hactive hrst reply hreply =>
    unfold TCPSegment.acks
    split_ifs with hflag
    · exact Or.inr ⟨g, reply, rfl, hactive, hrst, hflag, rfl, hreply.quiet⟩
    · exact Or.inl hreply.quiet

/-- A segment with the ACK flag and this number has been received. -/
def Acknowledged (past : List ConnectionOp) (ackno : WrappingInt32) : Prop :=
  ∃ g, .segmentReceived g ∈ past ∧ g.header.ack = true ∧ g.header.ackno = ackno

theorem Acknowledged.append {past : List ConnectionOp} {ackno : WrappingInt32}
    (h : Acknowledged past ackno) (later : List ConnectionOp) :
    Acknowledged (past ++ later) ackno := by
  obtain ⟨g, hg, hack⟩ := h
  exact ⟨g, List.mem_append_left _ hg, hack⟩

theorem Live.step_recvAckno {x : SenderRun} {c c' : TCPConnection} (h : Live x c) {op : ConnectionOp}
    (hs : c.step op = .ok c') : c'.sender.recvAckno = c.sender.recvAckno ∨
      (Acknowledged [op] (wrap c'.sender.recvAckno c.sender.isn) ∧
        c'.sender.recvAckno ≤ c.sender.nextSeqno) := by
  obtain ⟨ops, hr, hc⟩ := TCPConnection.step_called (h.sender ▸ h.flushed) hs
  have hlast : c'.sender.recvAckno = (x.run ops).sender.recvAckno := by
    rw [hc.sender, SenderRun.run_sender, h.sender]
  rw [hlast, ← h.sender]
  rcases hr.acks with hquiet | ⟨g, reply, rfl, -, -, hflag, rfl, hquiet⟩
  · exact Or.inl (SenderRun.run_recvAckno h.tiles hquiet)
  · have hst := SenderRun.step_spec h.tiles (.ackReceived g.header.ackno g.header.win)
    have hreply := SenderRun.run_recvAckno (h.tiles.step hst) hquiet
    have hrun : x.run (.ackReceived g.header.ackno g.header.win :: reply) =
        (x.step (.ackReceived g.header.ackno g.header.win)).run reply := rfl
    rw [hrun, hreply]
    rcases hst.recvAckno with hsame | ⟨ackno, w, hop, hnew, hle⟩
    · exact Or.inl hsame
    · cases hop
      exact Or.inr ⟨⟨g, by simp, hflag, hnew⟩, hle⟩

theorem Live.step_isn {x : SenderRun} {c c' : TCPConnection} (h : Live x c) {op : ConnectionOp}
    (hs : c.step op = .ok c') : c'.sender.isn = c.sender.isn := by
  obtain ⟨x', h', hon⟩ := h.step hs
  rw [← h'.sender, ← h.sender]
  exact hon.isn

theorem recvAckno_acknowledged {cfg : TCPConfig} {random : WrappingInt32} {events : List ConnectionOp}
    {c : TCPConnection}
    (hrun : exec TCPConnection.step (TCPConnection.new cfg random) events = .ok c) :
    c.sender.recvAckno = 0 ∨ Acknowledged events (wrap c.sender.recvAckno c.sender.isn) := by
  refine (exec_ok_history (C := fun _ _ => True)
    (I := fun past c => (∃ x, Live x c) ∧ (c.sender.recvAckno = 0 ∨
      Acknowledged past (wrap c.sender.recvAckno c.sender.isn)))
    (fun past c op c' hI _ hs => ?_) events [] _ c ⟨Live.new cfg random, Or.inl rfl⟩
    (Each.of_forall (fun _ _ => trivial) _) hrun).2
  obtain ⟨⟨x, hx⟩, hack⟩ := hI
  obtain ⟨x', hx', -⟩ := hx.step hs
  refine ⟨⟨x', hx'⟩, ?_⟩
  rw [hx.step_isn hs]
  rcases hx.step_recvAckno hs with hsame | ⟨⟨g, hg, hnew⟩, -⟩
  · rw [hsame]
    exact hack.imp_right fun h => h.append [op]
  · exact Or.inr ⟨g, List.mem_append_right _ hg, hnew⟩

/-- Only `end_input` ends the outbound stream, and only `set_error` marks it. -/
theorem SenderOp.run_stream {accepted : List Byte} {first : List TCPSegment} {s : TCPSender}
    (ht : Tiles accepted first s) (op : SenderOp) :
    (op ≠ .endInput → (op.run s).stream.inputEnded = s.stream.inputEnded) ∧
      (op ≠ .setError → (op.run s).stream.error = s.stream.error) := by
  cases op with
  | write data => exact ⟨fun _ => ByteStream.write_inputEnded _ _, fun _ => ByteStream.write_error _ _⟩
  | endInput => exact ⟨fun hne => absurd rfl hne, fun _ => rfl⟩
  | setError => exact ⟨fun _ => rfl, fun hne => absurd rfl hne⟩
  | fillWindow =>
    obtain ⟨gs, hgs⟩ := fillWindow_spec s ht.ready
    exact ⟨fun _ => hgs.grown.ended, fun _ => hgs.grown.error⟩
  | ackReceived ackno w =>
    simp only [SenderOp.run]
    rcases ht.ackReceived_cases ackno w with ⟨-, hsame⟩ | ⟨t, gs, -, hacked, hrun, hgs⟩
    · rw [hsame]
      exact ⟨fun _ => rfl, fun _ => rfl⟩
    · rw [hrun, ← hacked.stream]
      exact ⟨fun _ => hgs.grown.ended, fun _ => hgs.grown.error⟩
  | tick ms =>
    obtain ⟨gs, hk, -⟩ := tick_spec s ms
    exact ⟨fun _ => congrArg ByteStream.inputEnded hk.stream,
      fun _ => congrArg ByteStream.error hk.stream⟩
  | sendEmptySegment => exact ⟨fun _ => rfl, fun _ => rfl⟩
  | sendFlagged => exact ⟨fun _ => rfl, fun _ => rfl⟩
  | popSegment => exact ⟨fun _ => rfl, fun _ => rfl⟩

theorem Live.step_inputEnded {x : SenderRun} {c c' : TCPConnection} (h : Live x c)
    {op : ConnectionOp} (hs : c.step op = .ok c') (hop : op ≠ .endInputStream) :
    c'.sender.stream.inputEnded = c.sender.stream.inputEnded := by
  obtain ⟨ops, hr, hc⟩ := TCPConnection.step_called (h.sender ▸ h.flushed) hs
  have hops : ∀ op ∈ ops, op ≠ .endInput := by
    cases hr with
    | endInputStream => exact absurd rfl hop
    | connect => simp
    | write => simp
    | tick => simp
    | giveUp => simp
    | read => simp
    | dead => simp
    | reset => simp
    | heard g _ _ reply hreply =>
      intro sop hsop
      rcases hreply.mem_acks hsop with rfl | rfl | ⟨ackno, w, rfl⟩ <;> simp
  have hkeeps := (SenderRun.run_keeps (C := fun op => op ≠ .endInput)
    (I := fun r => r.sender.stream.inputEnded = x.sender.stream.inputEnded)
    (fun r op hop ht hI => ((SenderOp.run_stream ht op).1 hop).trans hI) ops x hops h.tiles rfl).2
  rw [SenderRun.run_sender, h.sender] at hkeeps
  rw [hc.sender]
  exact hkeeps

theorem Live.step_error {x : SenderRun} {c c' : TCPConnection} (h : Live x c) {op : ConnectionOp}
    (hs : c.step op = .ok c') (hactive : c'.isActive = true) :
    c'.sender.stream.error = c.sender.stream.error := by
  obtain ⟨ops, hr, hc⟩ := TCPConnection.step_called (h.sender ▸ h.flushed) hs
  have hops : ∀ op ∈ ops, op ≠ .setError := by
    cases hr with
    | connect => simp
    | write => simp
    | endInputStream => simp
    | tick => simp
    | giveUp ms hcount =>
      cases TCPConnection.step_acted hs with
      | sent _ hop => simp [ConnectionOp.sends] at hop
      | ticked _ hfew => exact absurd hcount hfew
      | finished _ hfew => exact absurd hcount hfew
      | gaveUp => cases hactive
    | read => simp
    | dead => simp
    | reset g hlive hrst =>
      cases TCPConnection.step_acted hs with
      | sent _ hop => simp [ConnectionOp.sends] at hop
      | dead _ hdead => exact absurd (hlive.symm.trans hdead) (by simp)
      | reset => cases hactive
      | heard _ _ hnot => exact absurd (hrst.symm.trans hnot) (by simp)
    | heard g _ _ reply hreply =>
      intro sop hsop
      rcases hreply.mem_acks hsop with rfl | rfl | ⟨ackno, w, rfl⟩ <;> simp
  have hkeeps := (SenderRun.run_keeps (C := fun op => op ≠ .setError)
    (I := fun r => r.sender.stream.error = x.sender.stream.error)
    (fun r op hop ht hI => ((SenderOp.run_stream ht op).2 hop).trans hI) ops x hops h.tiles rfl).2
  rw [SenderRun.run_sender, h.sender] at hkeeps
  rw [hc.sender]
  exact hkeeps

/-- The milliseconds of ticks since the last segment. -/
def quiet (past : List ConnectionOp) : ℕ :=
  past.foldl (fun time op => match op with
    | .tick ms => time + ms
    | .segmentReceived _ => 0
    | _ => time) 0

theorem quiet_snoc (past : List ConnectionOp) (op : ConnectionOp) :
    quiet (past ++ [op]) = match op with
      | .tick ms => quiet past + ms
      | .segmentReceived _ => 0
      | _ => quiet past := by
  unfold quiet
  rw [List.foldl_append]
  rfl

namespace TCPConnection

theorem step_time {c c' : TCPConnection} {op : ConnectionOp} (h : c.step op = .ok c')
    {past : List ConnectionOp}
    (htime : c.isActive = true → c.timeSinceLastSegmentReceived ≤ quiet past)
    (hactive : c'.isActive = true) : c'.timeSinceLastSegmentReceived ≤ quiet (past ++ [op]) := by
  have hbefore := htime (step_active h hactive)
  rw [quiet_snoc]
  cases step_acted h with
  | sent op hop =>
    cases op with
    | connect => exact hbefore
    | write => exact hbefore
    | endInputStream => exact hbefore
    | tick => simp [ConnectionOp.sends] at hop
    | read => simp [ConnectionOp.sends] at hop
    | segmentReceived => simp [ConnectionOp.sends] at hop
  | read => exact hbefore
  | ticked ms => exact (Nat.mod_le _ _).trans (Nat.add_le_add_right hbefore ms)
  | finished => cases hactive
  | gaveUp => cases hactive
  | dead g hdead => exact absurd (hactive.symm.trans hdead) (by simp)
  | reset => cases hactive
  | heard => exact le_rfl

theorem step_receiver {c c' : TCPConnection} {op : ConnectionOp} (h : c.step op = .ok c')
    (hr : c.receiver.Regular) : c'.receiver.Regular ∧
      (c.receiver.streamOut.inputEnded = true → c'.receiver.streamOut.inputEnded = true) := by
  have herror : (c.receiver.withOutput c.receiver.streamOut.setError).Regular :=
    ⟨⟨hr.steady.index, hr.steady.keyed, hr.steady.eof, hr.steady.shut⟩, hr.capacity, hr.room⟩
  cases step_acted h with
  | sent => exact ⟨hr, id⟩
  | read len => exact ⟨⟨hr.steady.pop len, hr.capacity, hr.room⟩, id⟩
  | ticked => exact ⟨hr, id⟩
  | finished => exact ⟨hr, id⟩
  | gaveUp => exact ⟨herror, id⟩
  | dead => exact ⟨hr, id⟩
  | reset => exact ⟨herror, id⟩
  | heard g _ _ r hseg =>
    obtain ⟨-, hext, -, -⟩ := TCPReceiver.segmentReceived_kept hr.steady hseg
    exact ⟨hr.segmentReceived hseg, hext.ended⟩

end TCPConnection

end Sponge
