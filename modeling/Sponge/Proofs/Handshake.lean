import Sponge.Sanity.Received

/-! Nothing but the SYN before the handshake. Until its SYN is acknowledged a sender
relies on its window of one; an ACK of its initial number, below the SYN, is
accepted and may open that window too early. -/

namespace Sponge

open TCPSender

/-- The segment acknowledges the initial number, of the SYN itself, and advertises more
than the SYN needs. -/
def TCPConnection.Opens (c : TCPConnection) : ConnectionOp → Prop
  | .segmentReceived g => c.isActive = true ∧ c.sender.recvAckno = 0 ∧ g.header.rst = false ∧
      g.header.ack = true ∧ g.header.ackno = c.sender.isn ∧ 1 < g.header.win.toNat
  | _ => False

instance (c : TCPConnection) : (op : ConnectionOp) → Decidable (c.Opens op)
  | .connect => inferInstanceAs (Decidable False)
  | .write _ => inferInstanceAs (Decidable False)
  | .endInputStream => inferInstanceAs (Decidable False)
  | .tick _ => inferInstanceAs (Decidable False)
  | .read _ => inferInstanceAs (Decidable False)
  | .segmentReceived _ => inferInstanceAs (Decidable (_ ∧ _))

/-- Before the SYN is acknowledged there is no room for anything behind it. -/
def Shut (s : TCPSender) : Prop := s.recvAckno = 0 → s.windowSize ≤ 1 ∧ s.nextSeqno ≤ 1

theorem Shut.send {s : TCPSender} {room : ℕ} {g : TCPSegment} (hq : Queue s) (h : Shut s)
    (hg : Send s room g) (hroom : s.bytesInFlight + room ≤ max 1 s.windowSize) : Shut (s.sent g) := by
  intro hack
  obtain ⟨hwindow, hnext⟩ := h hack
  have hstart := hq.start
  have hlen := hg.room
  have hzero : s.recvAckno = 0 := hack
  refine ⟨hwindow, ?_⟩
  simp only [sent]
  omega

theorem Shut.sends {accepted : List Byte} {first gs : List TCPSegment} {s t : TCPSender}
    (ht : Tiles accepted first s) (hq : Queue s) (h : Shut s) (hgs : Sends s gs t) : Shut t :=
  (Sends.keeps (P := fun t first => Tiles accepted first t ∧ Queue t ∧ Shut t)
    (fun _ _ _ _ hs hg hroom =>
      ⟨hs.1.send hg, Queue.send hs.1 hs.2.1 hg hroom, Shut.send hs.2.1 hs.2.2 hg hroom⟩)
    hgs first ⟨ht, hq, h⟩).2.2

theorem Shut.step {r r' : SenderRun} {op : SenderOp} (ht : Tiles r.accepted r.sent r.sender)
    (hq : r.sender.nextSeqno < 2 ^ 64 → Queue r.sender) (h : Shut r.sender) (hst : SenderStep r op r')
    (hop : ∀ w, op = .ackReceived r.sender.isn w → r.sender.recvAckno = 0 → w.toNat ≤ 1) :
    Shut r'.sender := by
  intro hack
  have hzero : r.sender.recvAckno = 0 := Nat.le_zero.mp (hack ▸ (hst.onward ht).ackno)
  have hsmall : r.sender.nextSeqno < 2 ^ 64 := (h hzero).2.trans_lt (by norm_num)
  cases hst with
  | fed => exact h hack
  | filled s t gs hs hgs =>
    rcases hs with rfl | ⟨ackno, w, rfl, ha⟩
    · exact Shut.sends ht (hq hsmall) h hgs hack
    · obtain ⟨h1, h2, hacked⟩ := acceptAck_spec ha
      refine Shut.sends (ht.acked hacked) (Queue.acked ht (hq hsmall) hsmall h1 h2 hacked) ?_ hgs hack
      -- still zero, so it was the initial number that was acknowledged
      intro hsame
      have hisn : ackno = r.sender.isn := by
        rw [← wrap_unwrap ackno r.sender.isn r.sender.recvAckno, ← hacked.recvAckno, hsame, wrap_zero]
      rw [hacked.window, hacked.next]
      exact ⟨hop w (by rw [hisn]) hzero, (h hzero).2⟩
  | other t gs hk =>
    rw [hk.window, hk.next]
    exact h hzero
  | popped => exact h hack

theorem Tiles.only_syn {accepted : List Byte} {first : List TCPSegment} {s : TCPSender}
    (h : Tiles accepted first s) (hnext : s.nextSeqno ≤ 1) {g : TCPSegment} (hg : g ∈ first) :
    g.payload = [] ∧ g.header.fin = false := by
  obtain ⟨pre, post, rfl⟩ := List.append_of_mem hg
  have hpiece := h.piece_at rfl
  have hspace := h.next
  rw [space_append, space_cons] at hspace
  have hpos := hpiece.pos
  have hsyn : g.header.syn = true := hpiece.syn.mpr (by omega)
  have hlen : g.lengthInSequenceSpace ≤ 1 := by omega
  simp only [TCPSegment.lengthInSequenceSpace, hsyn, Bool.toNat_true] at hlen
  refine ⟨List.length_eq_zero_iff.mp (by omega), ?_⟩
  cases hfin : g.header.fin with
  | false => rfl
  | true => simp [hfin] at hlen

theorem Live.run_shut {x : SenderRun} {c : TCPConnection} (h : Live x c) (hshut : Shut c.sender)
    {op : ConnectionOp} {ops : List SenderOp} (hr : Runs c op ops) (hop : ¬ c.Opens op) :
    Shut (x.run ops).sender ∧
      ∀ g ∈ (x.run ops).sender.segmentsOut, Blank g ∨ g ∈ (x.run ops).sent := by
  have hkeeps := SenderRun.run_keeps (C := fun op => op ∈ ops)
    (I := fun r => Onward x r ∧ (r.sender.nextSeqno < 2 ^ 64 → Queue r.sender) ∧ Shut r.sender ∧
      ∀ g ∈ r.sender.segmentsOut, Blank g ∨ g ∈ r.sent) ?_ ops x (fun _ h => h) h.tiles
    ⟨Onward.refl x, h.queue, h.sender ▸ hshut, by simp [h.flushed]⟩
  · exact hkeeps.2.2.2
  rintro r sop hmem ht ⟨hon, hqueue, hI, hout⟩
  have hst := SenderRun.step_spec ht sop
  have hon' := hst.onward ht
  refine ⟨hon.trans hon', fun hb => ?_, hI.step ht hqueue hst ?_, fun g hg => ?_⟩
  · have := lt_of_le_of_lt hon'.next hb
    exact (hqueue this).step ht this hst
  · rintro w rfl hzero
    rcases hr.acks with hquiet | ⟨g, reply, rfl, hactive, hrst, hflag, rfl, hquiet⟩
    · exact absurd hmem (hquiet _ _)
    · have hsame := (List.mem_cons.mp hmem).resolve_right (hquiet _ _)
      obtain ⟨hackno, rfl⟩ := SenderOp.ackReceived.inj hsame
      by_contra hopen
      have hx : x.sender.recvAckno = 0 := Nat.le_zero.mp (hzero ▸ hon.ackno)
      exact hop ⟨hactive, h.sender ▸ hx, hrst, hflag, by rw [← hackno, hon.isn, h.sender], by omega⟩
  · rcases hst.queued ht hg with hold | hnew
    · exact (hout g hold).imp_right fun hmem => hon'.sent.subset hmem
    · exact hnew

theorem Live.step_shut {x : SenderRun} {c c' : TCPConnection} (h : Live x c) (hshut : Shut c.sender)
    {op : ConnectionOp} (hs : c.step op = .ok c') (hop : ¬ c.Opens op) :
    Shut c'.sender ∧ ∃ sent, c'.segmentsOut = c.segmentsOut ++ sent ∧
      ∀ g ∈ sent, g.payload ≠ [] ∨ g.header.fin = true → 1 ≤ c'.sender.recvAckno := by
  obtain ⟨ops, hr, hc⟩ := TCPConnection.step_called (h.sender ▸ h.flushed) hs
  obtain ⟨hshut', hout⟩ := h.run_shut hshut hr hop
  have htiles := (h.run_ops ops).1
  have hrun : (x.run ops).sender = SenderOp.runs c.sender ops := by rw [SenderRun.run_sender, h.sender]
  rw [hrun] at hshut' hout htiles
  refine ⟨?_, _, hc.out, fun g hg hdata => ?_⟩
  · rw [hc.sender]
    exact hshut'
  · by_contra hzero
    have hack : (SenderOp.runs c.sender ops).recvAckno = 0 := by
      rw [hc.sender] at hzero
      simpa using hzero
    obtain ⟨b, hb, rfl⟩ := List.mem_map.mp hg
    have hbare : b.payload = [] ∧ b.header.fin = false := by
      rcases hout b hb with hblank | hsent
      · have hlen := hblank.1
        simp only [TCPSegment.lengthInSequenceSpace, Nat.add_eq_zero_iff, List.length_eq_zero_iff,
          Bool.toNat_eq_zero] at hlen
        exact ⟨hlen.1.1, hlen.2⟩
      · exact htiles.only_syn (hshut' hack).2 hsent
    simp [hbare] at hdata

/-- In every run without such an opening, a call enqueues payload bytes or a FIN only
when an ACK of the SYN has been received, at the latest by that call; and while
nothing has been acknowledged before, that call is the ACK of exactly the SYN. -/
theorem no_data_before_handshake (cfg : TCPConfig) (random : WrappingInt32)
    (events : List ConnectionOp) (op : ConnectionOp) {c c' : TCPConnection}
    (hrun : exec TCPConnection.step (TCPConnection.new cfg random) events = .ok c)
    (hstep : c.step op = .ok c')
    (hshut : Each TCPConnection.step (fun c op => ¬ c.Opens op) (TCPConnection.new cfg random)
      (events ++ [op])) :
    ∃ sent, c'.segmentsOut = c.segmentsOut ++ sent ∧
      ∀ g ∈ sent, g.payload ≠ [] ∨ g.header.fin = true →
        1 ≤ c'.sender.recvAckno ∧
        Acknowledged (events ++ [op]) (wrap c'.sender.recvAckno c'.sender.isn) ∧
        (c.sender.recvAckno = 0 → Acknowledged [op] (wrap 1 c.sender.isn)) := by
  obtain ⟨hpast, hop⟩ := hshut.snoc hrun
  obtain ⟨⟨x, hx⟩, hinv⟩ := exec_ok_history
    (I := fun _ c => (∃ x, Live x c) ∧ Shut c.sender) (C := fun c op => ¬ c.Opens op)
    (fun _ c op c' ⟨⟨x, hx⟩, hI⟩ hC hs =>
      ⟨(hx.step hs).imp fun _ => And.left, (hx.step_shut hI hs hC).1⟩)
    events [] _ c ⟨Live.new cfg random, fun _ => ⟨le_rfl, Nat.zero_le _⟩⟩ hpast hrun
  obtain ⟨-, sent, hout, hdata⟩ := hx.step_shut hinv hstep hop
  refine ⟨sent, hout, fun g hg hcarries => ?_⟩
  have hone := hdata g hg hcarries
  refine ⟨hone, ?_, fun hzero => ?_⟩
  · exact (recvAckno_acknowledged (exec_snoc hrun hstep)).resolve_left (by omega)
  · obtain ⟨hack, hle⟩ := (hx.step_recvAckno hstep).resolve_left (by omega)
    have hsyn : c'.sender.recvAckno = 1 := by
      have := (hinv hzero).2
      omega
    rwa [hsyn] at hack

/-- Connect, write a byte, and receive the peer's SYN with an ACK of ours. -/
theorem no_data_before_handshake_run :
    ∃ c c' : TCPConnection,
      exec TCPConnection.step (TCPConnection.new {} ⟨7⟩) [.connect, .write [97]] = .ok c ∧
      c.step (.segmentReceived { header := { syn := true, ack := true, ackno := ⟨8⟩, win := 100 } }) =
        .ok c' ∧
      ∃ sent, c'.segmentsOut = c.segmentsOut ++ sent ∧
        ∀ g ∈ sent, g.payload ≠ [] ∨ g.header.fin = true → 1 ≤ c'.sender.recvAckno := by
  obtain ⟨sent, hout, hdata⟩ := no_data_before_handshake {} ⟨7⟩ [.connect, .write [97]]
    (.segmentReceived { header := { syn := true, ack := true, ackno := ⟨8⟩, win := 100 } })
    rfl rfl (by decide)
  exact ⟨_, _, rfl, rfl, sent, hout, fun g hg hcarries => (hdata g hg hcarries).1⟩

/-- Connect, write a byte, and receive an ACK of the initial number with a window of ten:
the byte is sent although the SYN is not acknowledged. -/
theorem data_before_handshake :
    ∃ c c' : TCPConnection, exec TCPConnection.step (TCPConnection.new {} ⟨7⟩)
        [.connect, .write [97]] = .ok c ∧
      c.step (.segmentReceived { header := { ack := true, ackno := ⟨7⟩, win := 10 } }) = .ok c' ∧
      c'.sender.recvAckno = 0 ∧
      ∃ g, c'.segmentsOut = c.segmentsOut ++ [g] ∧ g.payload = [97] :=
  ⟨_, _, rfl, rfl, rfl, _, rfl, rfl⟩

end Sponge
