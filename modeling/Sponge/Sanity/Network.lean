import Sponge.Sanity.Endpoint

/-! Every call on a connection is a list of acts, so runs of the two connections
keep both links. -/

namespace Sponge

open Chunks StreamReassembler TCPSender

section Calls

variable {inbox : List TCPSegment} (e : Endpoint)

theorem Acts.send (op : SenderOp) (hacc : op.accepts e.conn.sender = [])
    (hop : ∀ ackno w, op = .ackReceived ackno w →
      ∃ g ∈ inbox, g.header.ack = true ∧ g.header.ackno = ackno) :
    Acts inbox e { e with conn := { e.conn with sender := op.run e.conn.sender } } := by
  have hact : Act inbox e _ := .send op hop
  rw [hacc, List.append_nil] at hact
  exact .single hact

theorem Acts.fillFlush :
    Acts inbox e { e with
      conn := { e.conn with sender := e.conn.sender.fillWindow }.segmentAssembleSend } :=
  (Acts.send e .fillWindow rfl (by simp)).tail .flush

theorem Acts.connect : Acts inbox e { e with conn := e.conn.connect } := Acts.fillFlush e

theorem Acts.write (data : List Byte) :
    Acts inbox e { e with
      conn := (e.conn.write data).1
      accepted := e.accepted ++ data.take (e.conn.write data).2 } := by
  have hwrite : Act inbox e _ := .send (.write data) (by simp)
  have hfill := (Acts.fillFlush _).head hwrite
  exact hfill

theorem Acts.endInputStream : Acts inbox e { e with conn := e.conn.endInputStream } :=
  (Acts.send e .endInput rfl (by simp)).trans (Acts.fillFlush _)

theorem Acts.readInbound (len : ℕ) :
    Acts inbox e { e with
      conn := (e.conn.readInbound len).1
      taken := e.taken ++ (e.conn.readInbound len).2 } := by
  have hact : Act inbox e _ := .read len
  simp only [TCPConnection.readInbound, ByteStream.read_eq_pop]
  exact .single hact

theorem Acts.setShutdown (isClean : Bool) :
    Acts inbox e { e with conn := e.conn.setShutdown isClean } := by
  have hnote : Act inbox e _ :=
    .note e.conn.lingerAfterStreamsFinish e.conn.timeSinceLastSegmentReceived false
  cases isClean with
  | true => exact .single hnote
  | false => exact ((Acts.send _ .setError rfl (by simp)).head hnote).tail .fail

theorem Acts.sendRstSegment : Acts inbox e { e with conn := e.conn.sendRstSegment } :=
  (Acts.send e (.sendFlagged true) rfl (by simp)).tail .flush

theorem Acts.finish : Acts inbox e { e with conn := e.conn.finish } := by
  unfold TCPConnection.finish
  split_ifs
  · exact Acts.setShutdown e true
  · exact .refl
  · exact Acts.setShutdown e true
  · exact .refl

theorem Acts.tick (ms : ℕ) : Acts inbox e { e with conn := e.conn.tick ms } := by
  have hnote : Act inbox { e with conn := { e.conn with sender := e.conn.sender.tick ms } } _ :=
    .note e.conn.lingerAfterStreamsFinish (uadd e.conn.timeSinceLastSegmentReceived ms)
      e.conn.isActive
  have htick := (Acts.send e (.tick ms) rfl (by simp)).tail hnote
  unfold TCPConnection.tick
  simp only
  split_ifs
  · exact ((htick.tail .clear).trans (Acts.setShutdown _ false)).trans (Acts.sendRstSegment _)
  · exact (htick.tail .flush).trans (Acts.finish _)

theorem Acts.closeWait : Acts inbox e { e with conn := e.conn.closeWait } := by
  unfold TCPConnection.closeWait
  split_ifs
  · exact .single (.note false e.conn.timeSinceLastSegmentReceived e.conn.isActive)
  · exact .refl

theorem Acts.keepAlive (g : TCPSegment) : Acts inbox e { e with conn := e.conn.keepAlive g } := by
  unfold TCPConnection.keepAlive
  split
  · split_ifs
    · exact Acts.send e .sendEmptySegment rfl (by simp)
    · exact .refl
  · exact .refl

theorem Acts.answer (g : TCPSegment) : Acts inbox e { e with conn := e.conn.answer g } := by
  unfold TCPConnection.answer
  have hfill : Acts inbox e _ := Acts.send e .fillWindow rfl (by simp)
  simp only
  split_ifs
  · exact hfill.trans (Acts.send _ .sendEmptySegment rfl (by simp))
  · exact hfill
  · exact .refl

theorem Acts.acknowledge {g : TCPSegment} (hg : g ∈ inbox) :
    Acts inbox e { e with conn := e.conn.acknowledge g } := by
  unfold TCPConnection.acknowledge
  split_ifs with hack
  · apply Acts.send e (.ackReceived g.header.ackno g.header.win) rfl
    intro ackno w hop
    cases hop
    exact ⟨g, hg, hack, rfl⟩
  · exact .refl

theorem Acts.respond (g : TCPSegment) : Acts inbox e { e with conn := e.conn.respond g } := by
  unfold TCPConnection.respond
  split_ifs
  · exact Acts.connect e
  · exact (((Acts.closeWait e).trans (Acts.keepAlive _ g)).trans (Acts.answer _ g)).tail .flush

theorem Acts.segmentReceived {g : TCPSegment} (hg : g ∈ inbox) {r : TCPReceiver}
    (hr : e.conn.receiver.segmentReceived g = .ok r) :
    ∃ c, e.conn.segmentReceived g = .ok c ∧ Acts inbox e { e with conn := c } := by
  have hnote : Act inbox e { e with conn := { e.conn with timeSinceLastSegmentReceived := 0 } } :=
    .note e.conn.lingerAfterStreamsFinish 0 e.conn.isActive
  unfold TCPConnection.segmentReceived
  simp only [hr, ok_bind]
  split_ifs
  · exact ⟨_, rfl, .refl⟩
  · exact ⟨_, rfl, (Acts.setShutdown _ false).head hnote⟩
  · have hreceive := (Relation.ReflTransGen.single hnote).tail (.receive hg hr)
    exact ⟨_, rfl, (hreceive.trans (Acts.acknowledge _ hg)).trans (Acts.respond _ g)⟩

end Calls

/-- Fewer than 2^31 sequence numbers are used in each direction. -/
def Network.Short (n : Network) : Prop :=
  n.left.conn.sender.nextSeqno < 2 ^ 31 ∧ n.right.conn.sender.nextSeqno < 2 ^ 31

instance (n : Network) : Decidable n.Short := inferInstanceAs (Decidable (_ ∧ _))

theorem Paired.step {e peer : Endpoint} (h : Paired e peer)
    (hb : peer.conn.sender.nextSeqno < 2 ^ 31) (ev : EndpointEvent) :
    ∃ e', e.step peer ev = .ok e' ∧ Acts peer.conn.segmentsOut e e' := by
  cases ev with
  | connect => exact ⟨_, rfl, Acts.connect e⟩
  | write data => exact ⟨_, rfl, Acts.write e data⟩
  | endInputStream => exact ⟨_, rfl, Acts.endInputStream e⟩
  | tick ms => exact ⟨_, rfl, Acts.tick e ms⟩
  | read len => exact ⟨_, rfl, Acts.readInbound e len⟩
  | deliver i =>
    cases hi : peer.conn.segmentsOut[i]? with
    | none => exact ⟨e, by simp [Endpoint.step, hi], .refl⟩
    | some g =>
      have hg := List.mem_of_getElem? hi
      obtain ⟨-, y, hy⟩ := h
      have hby : y.sender.nextSeqno < 2 ^ 31 := hy.sender ▸ hb
      obtain ⟨r, hr, -⟩ := (hy.link hby).delivered hby (hy.emitted g hg)
      obtain ⟨c, hc, hacts⟩ := Acts.segmentReceived e hg hr
      exact ⟨_, by simp [Endpoint.step, hi, hc], hacts⟩

theorem Network.step_spec {n : Network} (h : Paired n.left n.right) (hb : n.Short)
    (ev : Side × EndpointEvent) :
    ∃ n', n.step ev = .ok n' ∧ Paired n'.left n'.right := by
  obtain ⟨side, ev⟩ := ev
  cases side with
  | left =>
    obtain ⟨e, hrun, hacts⟩ := h.step hb.2 ev
    exact ⟨{ n with left := e }, by simp [Network.step, hrun], h.acts hacts⟩
  | right =>
    obtain ⟨e, hrun, hacts⟩ := h.symm.step hb.1 ev
    exact ⟨{ n with right := e }, by simp [Network.step, hrun], (h.symm.acts hacts).symm⟩

theorem Network.exec_inv {n : Network} (h : Paired n.left n.right)
    {events : List (Side × EndpointEvent)} (hb : Always Network.step Network.Short n events) :
    ∃ n', exec Network.step n events = .ok n' ∧ n'.Short ∧ Paired n'.left n'.right := by
  obtain ⟨n', hrun, hp⟩ := Sponge.exec_inv (I := fun n : Network => Paired n.left n.right)
    (C := fun n _ => n.Short) (fun n ev hn hb => Network.step_spec hn hb ev) h hb.each
  exact ⟨n', hrun, hb.last hrun, hp⟩

end Sponge
