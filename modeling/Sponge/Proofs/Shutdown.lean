import Sponge.Sanity.Received
import Sponge.Sanity.Summary

/-! A clean shutdown is sound. The decision is taken from summaries and from a flag set
in an earlier call; the history of the run gives them their meaning. -/

namespace Sponge

open TCPSender SenderOp

/-- The call in which the FIN is first sent, with the inbound stream already ended. -/
def FinAfterEnd (c : TCPConnection) (op : ConnectionOp) : Prop :=
  c.sender.setFin = false ∧ ∃ c', c.step op = .ok c' ∧
    (c'.sender.setFin = true ∧ c'.receiver.streamOut.inputEnded = true)

instance (c : TCPConnection) (op : ConnectionOp) : Decidable (FinAfterEnd c op) :=
  inferInstanceAs (Decidable (_ ∧ _))

/-- What the state of a connection says of the calls since it was made. -/
structure History (start : TCPConnection) (past : List ConnectionOp) (c : TCPConnection) : Prop where
  run : exec TCPConnection.step start past = .ok c
  live : ∃ x, Live x c
  regular : c.receiver.Regular
  ended : c.sender.stream.inputEnded = true → .endInputStream ∈ past
  time : c.isActive = true → c.timeSinceLastSegmentReceived ≤ quiet past
  linger : c.lingerAfterStreamsFinish = false → c.receiver.streamOut.inputEnded = true ∧
    (c.sender.setFin = false ∨ Once TCPConnection.step FinAfterEnd start past)

theorem History.new (cfg : TCPConfig) (random : WrappingInt32) :
    History (TCPConnection.new cfg random) [] (TCPConnection.new cfg random) where
  run := rfl
  live := Live.new cfg random
  regular := TCPReceiver.Regular.new _
  ended h := by simp [TCPConnection.new, TCPSender.new, ByteStream.new] at h
  time _ := le_rfl
  linger h := by simp [TCPConnection.new] at h

/-- The flag is cleared only before the FIN, and once the inbound stream has ended. -/
theorem Live.step_linger {x : SenderRun} {c c' : TCPConnection} (h : Live x c) {op : ConnectionOp}
    (hs : c.step op = .ok c') (hlinger : c'.lingerAfterStreamsFinish = false) :
    c.lingerAfterStreamsFinish = false ∨
      (c.sender.setFin = false ∧ c'.receiver.streamOut.inputEnded = true) := by
  cases TCPConnection.step_acted hs with
  | sent => exact Or.inl hlinger
  | read => exact Or.inl hlinger
  | ticked => exact Or.inl hlinger
  | finished => exact Or.inl hlinger
  | gaveUp => exact Or.inl hlinger
  | dead => exact Or.inl hlinger
  | reset => exact Or.inl hlinger
  | heard g _ _ r =>
    simp only [TCPConnection.lingers] at hlinger
    split_ifs at hlinger with hwait
    · obtain ⟨htiles, -, -, hon⟩ := h.run_ops g.acks
      have hsender : (x.run g.acks).sender = runs c.sender g.acks := by
        rw [SenderRun.run_sender, h.sender]
      have hafter : (x.run g.acks).sender.setFin = false := htiles.synAcked (hsender ▸ hwait.2.2)
      refine Or.inr ⟨?_, (TCPReceiver.finRecv hwait.2.1).2⟩
      by_contra hfin
      rw [Bool.not_eq_false, ← h.sender] at hfin
      simp [(hon.fin hfin).1] at hafter
    · exact Or.inl hlinger

theorem History.step {start c c' : TCPConnection} {past : List ConnectionOp} (h : History start past c)
    {op : ConnectionOp} (hs : c.step op = .ok c') : History start (past ++ [op]) c' := by
  obtain ⟨x, hx⟩ := h.live
  obtain ⟨x', hx', hon⟩ := hx.step hs
  obtain ⟨hregular, hended⟩ := TCPConnection.step_receiver hs h.regular
  refine ⟨exec_snoc h.run hs, ⟨x', hx'⟩, hregular, fun hend => ?_, TCPConnection.step_time hs h.time,
    fun hlinger => ?_⟩
  · by_cases hop : op = .endInputStream
    · exact List.mem_append_right _ (by simp [hop])
    · rw [hx.step_inputEnded hs hop] at hend
      exact List.mem_append_left _ (h.ended hend)
  · have hbefore : c'.receiver.streamOut.inputEnded = true ∧
        (c.sender.setFin = false ∨ Once TCPConnection.step FinAfterEnd start past) := by
      rcases hx.step_linger hs hlinger with hold | ⟨hfin, hend⟩
      · exact ⟨hended (h.linger hold).1, (h.linger hold).2⟩
      · exact ⟨hend, Or.inl hfin⟩
    refine ⟨hbefore.1, ?_⟩
    rw [Once.snoc h.run]
    rcases hbefore.2 with hfin | honce
    · cases hfin' : c'.sender.setFin with
      | false => exact Or.inl rfl
      | true => exact Or.inr (Or.inr ⟨hfin, c', hs, hfin', hbefore.1⟩)
    · exact Or.inr (Or.inl honce)

theorem History.exec {cfg : TCPConfig} {random : WrappingInt32} {events : List ConnectionOp}
    {c : TCPConnection}
    (hrun : exec TCPConnection.step (TCPConnection.new cfg random) events = .ok c) :
    History (TCPConnection.new cfg random) events c :=
  exec_ok_history (C := fun _ _ => True) (fun _ _ _ _ h _ hs => h.step hs) events [] _ c
    (History.new cfg random) (Each.of_forall (fun _ _ => trivial) _) hrun

theorem Live.finAcked {x : SenderRun} {c : TCPConnection} (h : Live x c)
    (hs : c.sender.stateSummary = .finAcked) :
    c.sender.stream.error = false ∧ c.sender.stream.inputEnded = true ∧ c.sender.bytesInFlight = 0 ∧
      (∃ g ∈ c.segmentsOut, g.header.fin = true) ∧
      (c.sender.stream.bytesWritten + 2 < 2 ^ 64 →
        c.sender.recvAckno = c.sender.stream.bytesWritten + 2) := by
  have ht := h.tiles
  have hq := h.queue
  rw [h.sender] at ht hq
  obtain ⟨herror, hfin, hflight⟩ := ht.finAcked hs
  obtain ⟨-, hnext⟩ := ht.next_of_fin hfin
  refine ⟨herror, (ht.finished hfin).2.1, hflight, ?_, fun hb => ?_⟩
  · obtain ⟨g, hg, hflag⟩ := ht.finSent hfin
    obtain ⟨r, hout⟩ := h.emitted g hg
    exact ⟨_, hout, by simpa using hflag⟩
  · have hqueue := hq (hnext ▸ hb)
    have := hqueue.le
    have := hqueue.start
    omega

/-- What a clean shutdown after the calls `past` relies on. -/
structure Clean (cfg : TCPConfig) (random : WrappingInt32) (past : List ConnectionOp)
    (c : TCPConnection) : Prop where
  noError : c.sender.stream.error = false ∧ c.receiver.streamOut.error = false
  inbound : c.receiver.streamOut.inputEnded = true
  outbound : c.sender.stream.inputEnded = true ∧ .endInputStream ∈ past
  finSent : ∃ g ∈ c.segmentsOut, g.header.fin = true
  noFlight : c.sender.bytesInFlight = 0
  finAcked : c.sender.stream.bytesWritten + 2 < 2 ^ 64 →
    c.sender.recvAckno = c.sender.stream.bytesWritten + 2 ∧
      Acknowledged past (wrap (c.sender.stream.bytesWritten + 2) c.sender.isn)
  waited : 10 * cfg.rtTimeout.toNat ≤ quiet past ∨
    Once TCPConnection.step FinAfterEnd (TCPConnection.new cfg random) past

theorem exec_cfg {cfg : TCPConfig} {random : WrappingInt32} {events : List ConnectionOp}
    {c : TCPConnection}
    (hrun : exec TCPConnection.step (TCPConnection.new cfg random) events = .ok c) : c.cfg = cfg :=
  exec_ok_inv (I := fun c => c.cfg = cfg)
    (fun _ _ _ h hs => (TCPConnection.step_cfg hs).trans h) rfl hrun

/-- A connection becomes inactive with both streams failed, or in a tick: then the
inbound stream has ended; the owner has ended the outbound stream, its FIN is out
and acknowledged, with nothing in flight; and the peer has been silent for ten
timeouts, or its stream had ended before the FIN was first sent. The counters of
the model are unbounded, so the number acknowledged is stated up to 2^64. -/
theorem shutdown_sound (cfg : TCPConfig) (random : WrappingInt32) (events : List ConnectionOp)
    (op : ConnectionOp) {c c' : TCPConnection}
    (hrun : exec TCPConnection.step (TCPConnection.new cfg random) events = .ok c)
    (hstep : c.step op = .ok c') (hactive : c.isActive = true) (hclosed : c'.isActive = false) :
    c'.Failed ∨ ((∃ ms, op = .tick ms) ∧ Clean cfg random (events ++ [op]) c') := by
  rcases TCPConnection.step_closed hstep hactive hclosed with
    hfailed | ⟨ms, rfl, -, hrecv, hsent, hwait⟩
  · exact Or.inl hfailed
  have hbefore := History.exec hrun
  have hafter := hbefore.step hstep
  obtain ⟨x, hx⟩ := hafter.live
  obtain ⟨herror, hended, hflight, hfin, hacked⟩ := hx.finAcked hsent
  obtain ⟨herror', hended'⟩ := TCPReceiver.finRecv hrecv
  refine Or.inr ⟨⟨ms, rfl⟩, ⟨herror, herror'⟩, hended', ⟨hended, hafter.ended hended⟩, hfin, hflight,
    fun hb => ⟨hacked hb, ?_⟩, ?_⟩
  · have hack := recvAckno_acknowledged hafter.run
    rw [hacked hb] at hack
    exact hack.resolve_left (by omega)
  · rcases hwait with hlinger | htime
    · have hset : c'.sender.setFin = true := by
        have ht := hx.tiles
        rw [hx.sender] at ht
        exact (ht.finAcked hsent).2.1
      rw [Once.snoc hrun]
      rcases (hbefore.linger hlinger).2 with hfin | honce
      · exact Or.inr (Or.inr ⟨hfin, c', hstep, hset, hended'⟩)
      · exact Or.inr (Or.inl honce)
    · rw [exec_cfg hrun] at htime
      have hquiet := hbefore.time hactive
      rw [quiet_snoc]
      exact Or.inl (htime.trans ((Nat.mod_le _ _).trans (Nat.add_le_add_right hquiet ms)))

/-- An active close: our FIN first, then the peer's, then ten timeouts of silence. -/
theorem shutdown_sound_active_close :
    ∃ c c', exec TCPConnection.step (TCPConnection.new { rtTimeout := 1 } ⟨7⟩)
        [.connect, .segmentReceived { header := { syn := true, ack := true, ackno := ⟨8⟩, win := 9 } },
          .endInputStream,
          .segmentReceived { header :=
            { seqno := ⟨1⟩, fin := true, ack := true, ackno := ⟨9⟩, win := 9 } }] = .ok c ∧
      c.step (.tick 10) = .ok c' ∧ c'.isActive = false ∧
      Clean { rtTimeout := 1 } ⟨7⟩
        [.connect, .segmentReceived { header := { syn := true, ack := true, ackno := ⟨8⟩, win := 9 } },
          .endInputStream,
          .segmentReceived { header :=
            { seqno := ⟨1⟩, fin := true, ack := true, ackno := ⟨9⟩, win := 9 } }, .tick 10] c' := by
  have hrun : ∃ c, exec TCPConnection.step (TCPConnection.new { rtTimeout := 1 } ⟨7⟩)
      [.connect, .segmentReceived { header := { syn := true, ack := true, ackno := ⟨8⟩, win := 9 } },
        .endInputStream,
        .segmentReceived { header :=
          { seqno := ⟨1⟩, fin := true, ack := true, ackno := ⟨9⟩, win := 9 } }] = .ok c ∧
      (c.isActive = true ∧ ∃ c', c.step (.tick 10) = .ok c' ∧
        (c'.isActive = false ∧ ¬ c'.Failed)) := by
    decide
  obtain ⟨c, hc, hactive, c', hstep, hclosed, hclean⟩ := hrun
  exact ⟨c, c', hc, hstep, hclosed,
    ((shutdown_sound _ _ _ _ hc hstep hactive hclosed).resolve_left hclean).2⟩

end Sponge
