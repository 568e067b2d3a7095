import Sponge.Sanity.Advance

/-! The linger flag of a passive closer. It is looked at after the sender has reacted to a
segment, so it is cleared in time exactly if the inbound stream had ended, and the SYN
had been acknowledged, before the call that sends the FIN. -/

namespace Sponge

open TCPSender SenderOp

theorem SenderRun.run_replies {y : SenderRun} (ht : Tiles y.accepted y.sent y.sender)
    (hfull : Full y.sender) {reply : List SenderOp} (hreply : Replies reply) :
    (y.run reply).sender.setFin = y.sender.setFin := by
  refine (SenderRun.run_keeps (C := fun op => op ∈ reply)
    (I := fun r => Full r.sender ∧ r.sender.setFin = y.sender.setFin)
    (fun r op hop hr hI => ?_) reply y (fun _ h => h) ht ⟨hfull, rfl⟩).2.2
  rcases hreply op hop with rfl | rfl
  · have hsame : (r.step .fillWindow).sender = r.sender := hI.1.fillWindow_eq
    rw [hsame]
    exact hI
  · exact ⟨hI.1.congr rfl rfl rfl rfl rfl rfl, hI.2⟩

/-- What the linger flag stands for. -/
structure Lingering (c : TCPConnection) : Prop where
  live : ∃ x, Live x c
  regular : c.receiver.Regular
  syn : c.receiver.streamOut.inputEnded = true → c.receiver.setSyn = true
  clean : c.isActive = true → c.sender.stream.error = false ∧ c.receiver.streamOut.error = false
  cleared : c.lingerAfterStreamsFinish = false →
    c.receiver.streamOut.inputEnded = true ∧ 0 < c.sender.settled
  kept : c.receiver.streamOut.inputEnded = true → 0 < c.sender.settled → c.sender.setFin = false →
    c.lingerAfterStreamsFinish = false

theorem Lingering.new (cfg : TCPConfig) (random : WrappingInt32) :
    Lingering (TCPConnection.new cfg random) where
  live := Live.new cfg random
  regular := TCPReceiver.Regular.new _
  syn h := by
    simp [TCPConnection.new, TCPReceiver.new, TCPReceiver.streamOut, StreamReassembler.new,
      ByteStream.new] at h
  clean _ := ⟨rfl, rfl⟩
  cleared h := by simp [TCPConnection.new] at h
  kept _ h := by simp [TCPConnection.new, TCPSender.settled, TCPSender.new] at h

/-- The sender as a segment's acknowledgment leaves it, between the two checks on the
linger flag and the replies. -/
structure Heard (c : TCPConnection) (g : TCPSegment) (c' : TCPConnection) (s : TCPSender) : Prop where
  tiles : ∃ accepted first, Tiles accepted first s
  error : s.stream.error = c.sender.stream.error
  settledLe : c.sender.settled ≤ s.settled
  settledEq : c'.sender.settled = s.settled
  finBefore : c.sender.setFin = true → s.setFin = true
  finAfter : s.setFin = true → c'.sender.setFin = true
  finSame : 0 < s.settled → c'.sender.setFin = s.setFin

theorem Live.heard {x : SenderRun} {c c' : TCPConnection} (h : Live x c) {g : TCPSegment}
    (hs : c.segmentReceived g = .ok c') (hactive : c.isActive = true) (hrst : g.header.rst = false) :
    Heard c g c' (runs c.sender g.acks) := by
  obtain ⟨ops, hr, hc⟩ := TCPConnection.segmentReceived_called (h.sender ▸ h.flushed) hs
  cases hr with
  | dead _ hdead => exact absurd (hactive.symm.trans hdead) (by simp)
  | reset _ _ hset => exact absurd (hset.symm.trans hrst) (by simp)
  | heard _ _ _ reply hreply =>
    obtain ⟨htiles, -, -, hon⟩ := h.run_ops g.acks
    have hfull : (x.run g.acks).sender.setSyn = true → Full (x.run g.acks).sender := by
      have := h.run_full (Runs.heard g hactive hrst [] Replies.nil)
      rwa [List.append_nil] at this
    have herror : (x.run g.acks).sender.stream.error = x.sender.stream.error := by
      refine (SenderRun.run_keeps (C := fun op => op ∈ g.acks ++ [])
        (I := fun r => r.sender.stream.error = x.sender.stream.error)
        (fun r op hop ht hI => ?_) g.acks x
        (fun _ h => List.mem_append_left _ h) h.tiles rfl).2
      refine ((SenderOp.run_stream ht op).2 ?_).trans hI
      rcases Replies.nil.mem_acks hop with rfl | rfl | ⟨ackno, w, rfl⟩ <;> simp
    have hsender : (x.run g.acks).sender = runs c.sender g.acks := by
      rw [SenderRun.run_sender, h.sender]
    have hlast : ((x.run g.acks).run reply).sender = runs c.sender (g.acks ++ reply) := by
      rw [SenderRun.run_sender, hsender, runs_append]
    have hsettled := SenderRun.run_settled h.tiles g.acks
    have hsettled' := (SenderRun.run_settled htiles reply).2 hreply.quiet
    have hon' := SenderRun.run_onward htiles reply
    have hreplies := SenderRun.run_replies htiles
    rw [h.sender] at herror hsettled
    rw [hsender] at htiles herror hsettled hfull
    rw [hlast, hsender] at hsettled'
    refine ⟨⟨_, _, htiles⟩, herror, hsettled.1, ?_, fun hfin => ?_, fun hfin => ?_, fun hpos => ?_⟩
    · rw [hc.sender]
      exact hsettled'
    · rw [← hsender]
      exact (hon.fin (h.sender ▸ hfin)).1
    · rw [hc.sender, ← hlast]
      exact (hon'.fin (hsender ▸ hfin)).1
    · have hsyn : (runs c.sender g.acks).setSyn = true := by
        by_contra hnot
        rw [Bool.not_eq_true] at hnot
        have hnext := htiles.next
        rw [htiles.started hnot, space_nil] at hnext
        unfold TCPSender.settled at hpos
        omega
      rw [hc.sender, ← hlast, ← hsender]
      exact hreplies (hsender ▸ hfull hsyn) hreply

theorem Live.step_unheard {x : SenderRun} {c c' : TCPConnection} (h : Live x c) {op : ConnectionOp}
    (hs : c.step op = .ok c') (hop : ∀ g, op ≠ .segmentReceived g) :
    c'.sender.settled = c.sender.settled := by
  obtain ⟨ops, hr, hc⟩ := TCPConnection.step_called (h.sender ▸ h.flushed) hs
  have hquiet : Quiet ops := hr.acks.resolve_right fun ⟨g, _, hg, _⟩ => hop g hg
  have hsame := (SenderRun.run_settled h.tiles ops).2 hquiet
  rw [SenderRun.run_sender, h.sender] at hsame
  rw [hc.sender]
  exact hsame

theorem Lingering.frame {c c' : TCPConnection} (h : Lingering c) (hlive : ∃ x, Live x c')
    (hregular : c'.receiver.Regular)
    (hended : c'.receiver.streamOut.inputEnded = c.receiver.streamOut.inputEnded)
    (hsyn : c'.receiver.setSyn = c.receiver.setSyn)
    (hclean : c'.isActive = true →
      c'.sender.stream.error = false ∧ c'.receiver.streamOut.error = false)
    (hlinger : c'.lingerAfterStreamsFinish = c.lingerAfterStreamsFinish)
    (hsettled : c'.sender.settled = c.sender.settled)
    (hfin : c.sender.setFin = true → c'.sender.setFin = true) : Lingering c' := by
  refine ⟨hlive, hregular, ?_, hclean, ?_, fun hend hpos hnot => ?_⟩
  · rw [hended, hsyn]
    exact h.syn
  · rw [hlinger, hended, hsettled]
    exact h.cleared
  · rw [hended] at hend
    rw [hsettled] at hpos
    rw [hlinger]
    apply h.kept hend hpos
    by_contra hset
    rw [Bool.not_eq_false] at hset
    simp [hfin hset] at hnot

/-- The check that clears the flag, in the terms of the invariant: the peer's stream is
over, the SYN is acknowledged and the FIN is not sent. -/
theorem Heard.lingers {c c' : TCPConnection} {g : TCPSegment} {s : TCPSender} (h : Heard c g c' s)
    {r : TCPReceiver} (herror : s.stream.error = false) (herror' : r.streamOut.error = false)
    (hsyn : r.streamOut.inputEnded = true → r.setSyn = true) :
    c.lingers g r s = false ↔ c.lingerAfterStreamsFinish = false ∨
      (r.streamOut.inputEnded = true ∧ 0 < s.settled ∧ s.setFin = false) := by
  obtain ⟨accepted, first, ht⟩ := h.tiles
  have hiff : (¬ (g.header.syn = true ∧ s.nextSeqno = 0) ∧ r.stateSummary = .finRecv ∧
      s.stateSummary = .synAcked) ↔
      (r.streamOut.inputEnded = true ∧ 0 < s.settled ∧ s.setFin = false) := by
    rw [ht.settled_pos]
    constructor
    · rintro ⟨-, hrecv, hacked⟩
      refine ⟨(TCPReceiver.finRecv hrecv).2, ?_, ht.synAcked hacked⟩
      unfold TCPSender.stateSummary at hacked
      split_ifs at hacked with h1 h2 h3 <;> exact h3
    · rintro ⟨hend, hne, hfin⟩
      have hpos : s.nextSeqno ≠ 0 := by
        have := ht.flight_le
        omega
      exact ⟨fun hc => hpos hc.2, TCPReceiver.finRecv_of herror' (hsyn hend) hend,
        ht.synAcked_of herror hpos hne hfin⟩
  unfold TCPConnection.lingers
  rw [← hiff]
  split_ifs with hwait
  · exact iff_of_true rfl (Or.inr hwait)
  · exact ⟨Or.inl, fun hor => hor.resolve_right hwait⟩

theorem Lingering.heard {c c' : TCPConnection} (h : Lingering c) {g : TCPSegment} {r : TCPReceiver}
    {s : TCPSender} (hheard : Heard c g c' s) (hactive : c.isActive = true)
    (hr : c.receiver.segmentReceived g = .ok r) :
    (r.streamOut.inputEnded = true → r.setSyn = true) ∧ r.streamOut.error = false ∧
      (c.lingers g r s = false ↔ c.lingerAfterStreamsFinish = false ∨
        (r.streamOut.inputEnded = true ∧ 0 < s.settled ∧ s.setFin = false)) := by
  obtain ⟨-, hext, -, -⟩ := TCPReceiver.segmentReceived_kept h.regular.steady hr
  have hsyn := TCPReceiver.segmentReceived_syn h.regular.steady hr h.syn
  have herror' : r.streamOut.error = false := hext.error.trans (h.clean hactive).2
  exact ⟨hsyn, herror', hheard.lingers (hheard.error.trans (h.clean hactive).1) herror' hsyn⟩

theorem Lingering.step {c c' : TCPConnection} (h : Lingering c) {op : ConnectionOp}
    (hs : c.step op = .ok c') : Lingering c' := by
  obtain ⟨x, hx⟩ := h.live
  obtain ⟨x', hx', hon⟩ := hx.step hs
  obtain ⟨hregular, -⟩ := TCPConnection.step_receiver hs h.regular
  have hfin : c.sender.setFin = true → c'.sender.setFin = true := by
    rw [← hx.sender, ← hx'.sender]
    exact fun hset => (hon.fin hset).1
  have herror := hx.step_error hs
  have hunheard := hx.step_unheard hs
  cases TCPConnection.step_acted hs with
  | sent op hop s out =>
    have hsettled := hunheard (by rintro g rfl; simp [ConnectionOp.sends] at hop)
    refine h.frame ⟨x', hx'⟩ hregular rfl rfl (fun hactive => ?_) rfl hsettled hfin
    exact ⟨(herror hactive).trans (h.clean hactive).1, (h.clean hactive).2⟩
  | read len =>
    refine h.frame ⟨x', hx'⟩ hregular rfl rfl (fun hactive => ?_) rfl (hunheard (by simp)) hfin
    exact ⟨(h.clean hactive).1, (h.clean hactive).2⟩
  | ticked ms =>
    refine h.frame ⟨x', hx'⟩ hregular rfl rfl (fun hactive => ?_) rfl (hunheard (by simp)) hfin
    exact ⟨(herror hactive).trans (h.clean hactive).1, (h.clean hactive).2⟩
  | finished ms =>
    exact h.frame ⟨x', hx'⟩ hregular rfl rfl (by simp) rfl (hunheard (by simp)) hfin
  | gaveUp ms =>
    exact h.frame ⟨x', hx'⟩ hregular rfl rfl (by simp) rfl (hunheard (by simp)) hfin
  | dead g => exact h
  | reset g =>
    exact h.frame ⟨x', hx'⟩ hregular rfl rfl (by simp [TCPConnection.setShutdown]) rfl rfl hfin
  | heard g hactive hrst r hr s out =>
    have hheard := hx.heard hs hactive hrst
    obtain ⟨hsyn, herror', hlingers⟩ := h.heard hheard hactive hr
    obtain ⟨-, hext, -, -⟩ := TCPReceiver.segmentReceived_kept h.regular.steady hr
    have hsettled := hheard.settledEq
    refine ⟨⟨x', hx'⟩, hregular, hsyn, fun _ => ⟨(herror hactive).trans (h.clean hactive).1, herror'⟩,
      fun hlinger => ?_, fun hend hpos hnot => ?_⟩
    · rcases hlingers.mp hlinger with hold | ⟨hend, hpos, -⟩
      · obtain ⟨hend, hpos⟩ := h.cleared hold
        have := hheard.settledLe
        exact ⟨hext.ended hend, by omega⟩
      · exact ⟨hend, by omega⟩
    · apply hlingers.mpr
      rw [hsettled] at hpos
      refine Or.inr ⟨hend, hpos, ?_⟩
      rw [← hheard.finSame hpos]
      exact hnot

theorem TCPConnection.step_linger_false {c c' : TCPConnection} {op : ConnectionOp}
    (hs : c.step op = .ok c') (h : c.lingerAfterStreamsFinish = false) :
    c'.lingerAfterStreamsFinish = false := by
  cases TCPConnection.step_acted hs with
  | sent => exact h
  | read => exact h
  | ticked => exact h
  | finished => exact h
  | gaveUp => exact h
  | dead => exact h
  | reset => exact h
  | heard =>
    simp only [TCPConnection.lingers]
    split_ifs
    · rfl
    · exact h

theorem Lingering.fin_step {c c' : TCPConnection} (h : Lingering c) {op : ConnectionOp}
    (hs : c.step op = .ok c') (hbefore : c.sender.setFin = false) (hafter : c'.sender.setFin = true) :
    c'.lingerAfterStreamsFinish = false ↔
      c.receiver.streamOut.inputEnded = true ∧ 0 < c.sender.settled := by
  refine ⟨fun hlinger => ?_, fun ⟨hend, hpos⟩ =>
    TCPConnection.step_linger_false hs (h.kept hend hpos hbefore)⟩
  obtain ⟨x, hx⟩ := h.live
  cases TCPConnection.step_acted hs with
  | sent => exact h.cleared hlinger
  | read => exact h.cleared hlinger
  | ticked => exact h.cleared hlinger
  | finished => exact h.cleared hlinger
  | gaveUp => exact h.cleared hlinger
  | dead => exact h.cleared hlinger
  | reset => exact h.cleared hlinger
  | heard g hactive hrst r hr s out =>
    have hheard := hx.heard hs hactive hrst
    obtain ⟨-, -, hlingers⟩ := h.heard hheard hactive hr
    rcases hlingers.mp hlinger with hold | ⟨-, hpos, hnot⟩
    · exact h.cleared hold
    · -- cleared in this call, before the replies; but the replies send no FIN
      have hsame := hheard.finSame hpos
      rw [hnot] at hsame
      exact absurd (hafter.symm.trans hsame) (by simp)

theorem Lingering.tick_shuts {c : TCPConnection} (h : Lingering c)
    (hrecv : c.receiver.stateSummary = .finRecv) (hacked : c.sender.stateSummary = .finAcked) {ms : ℕ}
    (hwait : c.lingerAfterStreamsFinish = false ∨
      10 * c.cfg.rtTimeout.toNat ≤ uadd c.timeSinceLastSegmentReceived ms) :
    (c.tick ms).receiver = c.receiver ∧ (c.tick ms).state = .ofState .closed := by
  obtain ⟨x, hx⟩ := h.live
  have ht := hx.tiles
  have htimed := hx.timed
  rw [hx.sender] at ht htimed
  have hqueue := ht.queue_nil (ht.finAcked hacked).2.2
  have htick := TCPSender.tick_idle hqueue ms
  have hfew : ¬ maxRetxAttempts < (c.sender.tick ms).consecutiveRetransmissions := by
    rw [htick, htimed.count hqueue]
    decide
  have hshut : ∀ d : TCPConnection, d.receiver.stateSummary = .finRecv →
      d.sender.stateSummary = .finAcked → (d.setShutdown true).state = .ofState .closed := by
    intro d h1 h2
    simp [TCPConnection.setShutdown, TCPConnection.state, TCPState.ofState, h1, h2]
  unfold TCPConnection.tick
  simp only [if_neg hfew]
  simp only [htick, TCPConnection.segmentAssembleSend, TCPConnection.finish]
  rw [if_pos ⟨hrecv, hacked⟩]
  split_ifs with hlinger htime
  · exact ⟨rfl, hshut _ hrecv hacked⟩
  · exact absurd (hwait.resolve_left (by simp [hlinger])) htime
  · exact ⟨rfl, hshut _ hrecv hacked⟩

theorem Lingering.tick_closes {c : TCPConnection} (h : Lingering c) (hactive : c.isActive = true)
    (hlinger : c.lingerAfterStreamsFinish = false) (hacked : c.sender.stateSummary = .finAcked)
    (ms : ℕ) : (c.tick ms).isActive = false := by
  obtain ⟨hend, -⟩ := h.cleared hlinger
  have hrecv := TCPReceiver.finRecv_of (h.clean hactive).2 (h.syn hend) hend
  exact congrArg TCPState.active (h.tick_shuts hrecv hacked (.inl hlinger)).2

/-- After the call that first sends the FIN, a connection does not linger exactly if the
inbound stream had ended, and the SYN had been acknowledged, before that call. And a
connection that does not linger closes at the first tick that finds its FIN acknowledged. -/
theorem passive_close_iff (cfg : TCPConfig) (random : WrappingInt32) (events : List ConnectionOp)
    (op : ConnectionOp) {c c' : TCPConnection}
    (hrun : exec TCPConnection.step (TCPConnection.new cfg random) events = .ok c)
    (hstep : c.step op = .ok c') (hbefore : c.sender.setFin = false)
    (hafter : c'.sender.setFin = true) :
    (c'.lingerAfterStreamsFinish = false ↔
      c.receiver.streamOut.inputEnded = true ∧ c.sender.nextSeqno ≠ c.sender.bytesInFlight) ∧
    (c'.lingerAfterStreamsFinish = false → ∀ later d ms, exec TCPConnection.step c' later = .ok d →
      d.isActive = true → d.sender.stateSummary = .finAcked → (d.tick ms).isActive = false) := by
  have h : Lingering c := exec_ok_inv (fun _ _ _ h hs => h.step hs) (Lingering.new cfg random) hrun
  obtain ⟨x, hx⟩ := h.live
  refine ⟨?_, fun hlinger later d ms hlater hactive hacked => ?_⟩
  · rw [h.fin_step hstep hbefore hafter, ← hx.sender, hx.tiles.settled_pos]
  · obtain ⟨hd, hd'⟩ := exec_ok_inv
      (I := fun c => Lingering c ∧ c.lingerAfterStreamsFinish = false)
      (fun _ _ _ h hs => ⟨h.1.step hs, TCPConnection.step_linger_false hs h.2⟩) ⟨h.step hstep, hlinger⟩
      hlater
    exact hd.tick_closes hactive hd' hacked ms

/-- The peer's FIN, then ours. -/
theorem passive_close_iff_close_wait :
    ∃ c c', exec TCPConnection.step (TCPConnection.new {} ⟨7⟩)
        [.connect, .segmentReceived { header := { syn := true, ack := true, ackno := ⟨8⟩, win := 9 } },
          .segmentReceived { header :=
            { seqno := ⟨1⟩, fin := true, ack := true, ackno := ⟨8⟩, win := 9 } }] = .ok c ∧
      c.step .endInputStream = .ok c' ∧ c'.receiver.streamOut.inputEnded = true ∧
      c'.lingerAfterStreamsFinish = false := by
  have hrun : ∃ c, exec TCPConnection.step (TCPConnection.new {} ⟨7⟩)
      [.connect, .segmentReceived { header := { syn := true, ack := true, ackno := ⟨8⟩, win := 9 } },
        .segmentReceived { header :=
          { seqno := ⟨1⟩, fin := true, ack := true, ackno := ⟨8⟩, win := 9 } }] = .ok c ∧
      (c.sender.setFin = false ∧ (c.receiver.streamOut.inputEnded = true ∧
        c.sender.nextSeqno ≠ c.sender.bytesInFlight) ∧ ∃ c', c.step .endInputStream = .ok c' ∧
          (c'.sender.setFin = true ∧ c'.receiver.streamOut.inputEnded = true)) := by
    decide
  obtain ⟨c, hc, hbefore, hcond, c', hstep, hafter, hended⟩ := hrun
  exact ⟨c, c', hc, hstep, hended, (passive_close_iff _ _ _ _ hc hstep hbefore hafter).1.mpr hcond⟩

/-- A segment that carries the peer's FIN and opens the window for ours: the FIN is sent
with the inbound stream over, and the connection lingers. -/
theorem passive_closer_lingers :
    ∃ c, exec TCPConnection.step (TCPConnection.new {} ⟨7⟩)
        [.connect, .segmentReceived { header := { syn := true, ack := true, ackno := ⟨8⟩, win := 0 } },
          .write [97], .endInputStream] = .ok c ∧
      (c.sender.setFin = false ∧
        ∃ c', c.step (.segmentReceived { header :=
            { seqno := ⟨1⟩, fin := true, ack := true, ackno := ⟨9⟩, win := 9 } }) = .ok c' ∧
          (c'.sender.setFin = true ∧ c'.receiver.streamOut.inputEnded = true ∧
            c'.lingerAfterStreamsFinish = true)) := by
  decide

end Sponge
