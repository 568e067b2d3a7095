import Sponge.Sanity.Acted
import Sponge.Sanity.Endpoint
import Sponge.Sanity.Keep
import Sponge.Sanity.Live

/-! Each direction of a connection is a transfer. A call on one end runs operations on its
sender, whose acknowledgments are reports of the other end, and takes at most one segment of
the other end into its receiver; what it enqueues reports where that receiver stands. So what
every move of a transfer keeps, every call keeps in both directions. -/

namespace Sponge

open Chunks StreamReassembler TCPSender SenderOp

namespace Transfer.Sound

variable {s : Transfer}

/-- Any copy of what was sent, with whatever its owner has filled in. -/
theorem receive (h : s.Sound) (hb : s.tx.sender.nextSeqno < 2 ^ 31) {g : TCPSegment}
    {r : TCPReceiver} (hd : Delivered s.tx s.rx g r) : ({ s with rx := r } : Transfer).Sound := by
  obtain ⟨hlink, hmono⟩ := h.linked.link.receive hb hd
  have hahead := h.linked.link.receive_ahead hb hd
  refine ⟨⟨hlink, h.linked.repeats, fun p hp => ?_⟩, h.flow.ahead hahead s.taken, fun hlt => ?_⟩
  · obtain ⟨a, ha, hle⟩ := h.linked.reports p hp
    exact ⟨a, ha, hle.trans hmono⟩
  · have hlt' := lt_of_le_of_lt hahead.limit hlt
    exact (h.intact hlt').receive h.linked.link hb hlt' (fun _ _ _ hl => h.flow.fits_sent hl) hd

/-- A list of operations, with acknowledgments the receiver has reported. -/
theorem run {ops : List SenderOp} (h : s.Sound)
    (hops : ∀ ackno w, .ackReceived ackno w ∈ ops → (ackno, w) ∈ s.reports)
    (hb : (s.tx.run ops).sender.nextSeqno < 2 ^ 31) :
    ({ s with tx := s.tx.run ops } : Transfer).Sound := by
  induction ops generalizing s with
  | nil => exact h
  | cons op ops ih =>
    have hon := SenderRun.run_onward h.linked.link.tiles (op :: ops)
    have hstep := h.moved (hon.next.trans_lt hb)
      (.send op fun ackno w hop => hops ackno w (by simp [hop]))
    exact ih hstep (fun ackno w hop => hops ackno w (by simp [hop])) hb

end Transfer.Sound

theorem SenderOp.runs_pops (s : TCPSender) :
    runs s (List.replicate s.segmentsOut.length .popSegment) = { s with segmentsOut := [] } := by
  generalize hq : s.segmentsOut = queue
  induction queue generalizing s with
  | nil => exact (congrArg (fun queue => { s with segmentsOut := queue }) hq.symm).symm
  | cons g queue ih => exact ih { s with segmentsOut := s.segmentsOut.tail } (by simp [hq])

theorem SenderRun.run_append (x : SenderRun) (ops ops' : List SenderOp) :
    x.run (ops ++ ops') = (x.run ops).run ops' := List.foldl_append

theorem SenderRun.run_accepted {ops : List SenderOp} (h : ∀ data, .write data ∉ ops)
    (x : SenderRun) : (x.run ops).accepted = x.accepted := by
  induction ops generalizing x with
  | nil => rfl
  | cons op ops ih =>
    refine (ih (fun data hmem => h data (by simp [hmem])) (x.step op)).trans ?_
    cases op with
    | write data => exact absurd List.mem_cons_self (h data)
    | _ => exact List.append_nil _

theorem SenderRun.run_queued {x : SenderRun} (ht : Tiles x.accepted x.sent x.sender)
    (hq : x.sender.segmentsOut = []) (ops : List SenderOp) :
    ∀ g ∈ (x.run ops).sender.segmentsOut, Blank g ∨ g ∈ (x.run ops).sent := by
  refine (SenderRun.run_keeps (I := fun r => ∀ g ∈ r.sender.segmentsOut, Blank g ∨ g ∈ r.sent)
    (C := fun _ => True) (fun r op _ hr hI g hg => ?_) ops x (fun _ _ => trivial) ht
    (by simp [hq])).2
  have hst := SenderRun.step_spec hr op
  rcases hst.queued hr hg with hold | hnew
  · exact (hI g hold).imp_right fun hmem => (hst.onward hr).sent.subset hmem
  · exact hnew

/-- What a call takes in of the other direction. -/
inductive Took (e peer e' : Endpoint) : Prop
  | nothing (hr : e'.conn.receiver = e.conn.receiver) (ht : e'.taken = e.taken)
  | bytes (n : ℕ)
      (hr : e'.conn.receiver = e.conn.receiver.withOutput (e.conn.receiver.streamOut.popOutput n))
      (ht : e'.taken = e.taken ++ e.conn.receiver.streamOut.peekOutput n)
  | segment (g : TCPSegment) (hg : g ∈ peer.conn.segmentsOut)
      (hr : e.conn.receiver.segmentReceived g = .ok e'.conn.receiver) (ht : e'.taken = e.taken)

/-- A call that leaves the connection active. -/
structure Handled (ops : List SenderOp) (e peer e' : Endpoint) : Prop where
  called : Called e.conn ops e'.conn
  accepted : ∀ x : SenderRun, x.sender = e.conn.sender → x.accepted = e.accepted →
    (x.run ops).accepted = e'.accepted
  acks : ∀ ackno w, .ackReceived ackno w ∈ ops →
    ∃ g ∈ peer.conn.segmentsOut, g.header.ack = true ∧ g.header.ackno = ackno ∧ g.header.win = w
  flags : ∀ rst, .sendFlagged rst ∉ ops
  took : Took e peer e'

/-- A call that hands the sender neither bytes nor an acknowledgment. -/
theorem Handled.idle {ops : List SenderOp} {e peer e' : Endpoint} (hc : Called e.conn ops e'.conn)
    (hops : ∀ op ∈ ops, op = .fillWindow ∨ op = .endInput ∨ ∃ ms, op = .tick ms)
    (haccepted : e'.accepted = e.accepted) (htook : Took e peer e') : Handled ops e peer e' where
  called := hc
  accepted x _ hx := by
    rw [haccepted, ← hx]
    refine SenderRun.run_accepted (fun data hop => ?_) x
    rcases hops _ hop with h | h | ⟨_, h⟩ <;> cases h
  acks ackno w hop := by rcases hops _ hop with h | h | ⟨_, h⟩ <;> cases h
  flags rst hop := by rcases hops _ hop with h | h | ⟨_, h⟩ <;> cases h
  took := htook

/-- A segment that an active connection takes. -/
theorem Handled.heard {e peer : Endpoint} {g : TCPSegment} (hg : g ∈ peer.conn.segmentsOut)
    {r : TCPReceiver} (hr : e.conn.receiver.segmentReceived g = .ok r) :
    ∃ reply, Replies reply ∧ Handled (g.acks ++ reply) e peer
      { e with conn := ((e.conn.taken r).acknowledge g).respond g } := by
  have hran := TCPConnection.acknowledge_ran (e.conn.taken r) g
  obtain ⟨reply, hreply, hcalled⟩ := TCPConnection.respond_called hran g
  refine ⟨reply, hreply, ⟨hcalled.sender, hcalled.out⟩, fun x _ hx => ?_, fun ackno w hop => ?_,
    fun rst hop => ?_, .segment g hg ?_ rfl⟩
  · refine (SenderRun.run_accepted (fun data hop => ?_) x).trans hx
    rcases hreply.mem_acks hop with h | h | ⟨_, _, h⟩ <;> cases h
  · rcases List.mem_append.mp hop with hop | hop
    · unfold TCPSegment.acks at hop
      split_ifs at hop with hack
      · cases List.mem_singleton.mp hop
        exact ⟨g, hg, hack, rfl, rfl⟩
      · simp at hop
    · rcases hreply _ hop with h | h <;> cases h
  · rcases hreply.mem_acks hop with h | h | ⟨_, _, h⟩ <;> cases h
  · rw [TCPConnection.respond_receiver, hran.receiver]
    exact hr

theorem Endpoint.step_handled {e e' peer : Endpoint} {ev : EndpointEvent}
    (hq : e.conn.sender.segmentsOut = []) (hs : e.step peer ev = .ok e')
    (hactive : e'.conn.isActive = true) : ∃ ops, Handled ops e peer e' := by
  cases ev with
  | connect =>
    cases hs
    have hran : Ran e.conn [.fillWindow] { e.conn with sender := e.conn.sender.fillWindow } :=
      ⟨rfl, rfl, rfl⟩
    exact ⟨_, .idle hran.flush (by simp) rfl (.nothing rfl rfl)⟩
  | write data =>
    cases hs
    have hran : Ran e.conn [.write data, .fillWindow] { e.conn with
        sender := fillWindow { e.conn.sender with stream := (e.conn.sender.stream.write data).1 } } :=
      ⟨rfl, rfl, rfl⟩
    refine ⟨_, hran.flush, fun x hx hx' => ?_, by simp, by simp, .nothing rfl rfl⟩
    simp only [SenderRun.run, List.foldl, SenderRun.step, SenderOp.accepts, hx, hx',
      List.append_nil]
    rfl
  | endInputStream =>
    cases hs
    have hran : Ran e.conn [.endInput, .fillWindow] { e.conn with
        sender := fillWindow { e.conn.sender with stream := e.conn.sender.stream.endInput } } :=
      ⟨rfl, rfl, rfl⟩
    exact ⟨_, .idle hran.flush (by simp) rfl (.nothing rfl rfl)⟩
  | tick ms =>
    cases hs
    have hs : e.conn.step (.tick ms) = .ok (e.conn.tick ms) := rfl
    obtain ⟨ops, hr, hc⟩ := TCPConnection.tick_called hq ms
    have hacted := TCPConnection.step_acted hs
    simp only at hactive
    generalize e.conn.tick ms = c' at hactive hc hacted
    cases hr with
    | tick _ hfew =>
      refine ⟨_, .idle hc (by simp) rfl (.nothing ?_ rfl)⟩
      cases hacted with
      | gaveUp _ hmany => exact absurd hmany hfew
      | sent | ticked | finished => rfl
    | giveUp _ hmany =>
      cases hacted with
      | sent _ hop => cases hop
      | ticked _ hfew => exact absurd hmany hfew
      | finished => cases hactive
      | gaveUp => cases hactive
  | read len =>
    simp only [Endpoint.step, TCPConnection.readInbound, ByteStream.read_eq_pop] at hs
    cases hs
    exact ⟨[], .idle (Called.none hq rfl rfl) (by simp) rfl (.bytes len rfl rfl)⟩
  | deliver i =>
    cases hi : peer.conn.segmentsOut[i]? with
    | none =>
      simp only [Endpoint.step, hi] at hs
      cases hs
      exact ⟨[], .idle (Called.none hq rfl rfl) (by simp) rfl (.nothing rfl rfl)⟩
    | some g =>
      simp only [Endpoint.step, hi] at hs
      obtain ⟨c, hc, hs⟩ := bind_eq_ok hs
      cases hs
      rcases TCPConnection.segmentReceived_cases hc with
        ⟨hdead, rfl⟩ | ⟨-, -, rfl⟩ | ⟨-, -, r, hr, rfl⟩
      · exact absurd (hdead.symm.trans hactive) (by simp)
      · cases hactive
      · obtain ⟨reply, -, ht⟩ := Handled.heard (List.mem_of_getElem? hi) hr
        exact ⟨_, ht⟩

/-- The stream from `e` to `peer`, between two calls, as the transfer `s`. -/
structure Half (s : Transfer) (e peer : Endpoint) : Prop where
  sender : s.tx.sender = e.conn.sender
  accepted : s.tx.accepted = e.accepted
  rx : s.rx = peer.conn.receiver
  taken : s.taken = peer.taken
  emitted : ∀ g ∈ e.conn.segmentsOut, Genuine s.tx g
  reported : ∀ g ∈ peer.conn.segmentsOut, g.header.ack = true →
    (g.header.ackno, g.header.win) ∈ s.reports
  sound : s.Sound

namespace Half

variable {s : Transfer} {e e' peer : Endpoint} {ops : List SenderOp}

theorem new (cfg cfg' : TCPConfig) (random random' : WrappingInt32) :
    ∃ s, Half s (Endpoint.new cfg random) (Endpoint.new cfg' random') :=
  ⟨Transfer.new cfg.sendCapacity.toNat cfg.rtTimeout.toNat (cfg.fixedIsn.getD random)
    cfg'.recvCapacity.toNat, rfl, rfl, rfl, rfl, by simp [Endpoint.new, TCPConnection.new],
    by simp [Endpoint.new, TCPConnection.new], .new _ _ _ cfg'.recvCapacity.toNat_lt⟩

theorem tiles (h : Half s e peer) : Tiles s.tx.accepted s.tx.sent s.tx.sender :=
  h.sound.linked.link.tiles

theorem next_lt (h : Half s e peer) (hb : e.accepted.length + 2 < 2 ^ 31) :
    s.tx.sender.nextSeqno < 2 ^ 31 := by
  have := h.tiles.next_le
  rw [h.accepted] at this
  omega

theorem plain (h : Half s e peer) (hq : e.conn.sender.segmentsOut = []) (ops : List SenderOp) :
    ∀ g ∈ (runs e.conn.sender ops).segmentsOut, g.header.ack = false := by
  intro g hg
  rw [← h.sender, ← SenderRun.run_sender] at hg
  rcases SenderRun.run_queued h.tiles (h.sender ▸ hq) ops g hg with hblank | hsent
  · exact hblank.2
  · obtain ⟨pre, post, hl⟩ := List.append_of_mem hsent
    exact ((SenderRun.run_tiles h.tiles ops).piece_at hl).ack

theorem sent (h : Half s e peer) (hq : e.conn.sender.segmentsOut = []) (ht : Handled ops e peer e')
    (hb : e'.accepted.length + 2 < 2 ^ 31) :
    ∃ s', Half s' e' peer ∧ Onward s.tx s'.tx ∧ s'.rx = s.rx := by
  have hqx : s.tx.sender.segmentsOut = [] := by rw [h.sender, hq]
  have hrun : (s.tx.run ops).sender = runs e.conn.sender ops := by
    rw [SenderRun.run_sender, h.sender]
  let pops := List.replicate (runs e.conn.sender ops).segmentsOut.length SenderOp.popSegment
  have hsender : (s.tx.run (ops ++ pops)).sender = e'.conn.sender := by
    rw [SenderRun.run_append, SenderRun.run_sender, hrun, ht.called.sender]
    exact SenderOp.runs_pops _
  have haccepted : (s.tx.run (ops ++ pops)).accepted = e'.accepted := by
    rw [SenderRun.run_append, SenderRun.run_accepted (by simp [pops])]
    exact ht.accepted s.tx h.sender h.accepted
  have hon := SenderRun.run_onward h.tiles (ops ++ pops)
  have hpops := SenderRun.run_onward (SenderRun.run_tiles h.tiles ops) pops
  rw [← SenderRun.run_append] at hpops
  have hnext : (s.tx.run (ops ++ pops)).sender.nextSeqno < 2 ^ 31 := by
    have := (SenderRun.run_tiles h.tiles (ops ++ pops)).next_le
    rw [haccepted] at this
    omega
  refine ⟨{ s with tx := s.tx.run (ops ++ pops) }, ⟨hsender, haccepted, h.rx, h.taken,
    fun g hg => ?_, h.reported, h.sound.run (fun ackno w hop => ?_) hnext⟩, hon, rfl⟩
  · rw [ht.called.out, ← hrun] at hg
    rcases List.mem_append.mp hg with hg | hg
    · exact (h.emitted g hg).onward hon
    · obtain ⟨b, hmem, rfl⟩ := List.mem_map.mp hg
      exact (Genuine.assemble (SenderRun.run_queued h.tiles hqx ops b hmem) _).onward hpops
  · rcases List.mem_append.mp hop with hop | hop
    · obtain ⟨g, hg, hack, rfl, rfl⟩ := ht.acks ackno w hop
      exact h.reported g hg hack
    · cases List.eq_of_mem_replicate hop

theorem took (h : Half s peer e) (hb : peer.accepted.length + 2 < 2 ^ 31) (ht : Took e peer e') :
    ∃ r taken, r = e'.conn.receiver ∧ taken = e'.taken ∧
      ({ s with rx := r, taken := taken } : Transfer).Sound := by
  have hnext := h.next_lt hb
  cases ht with
  | nothing hr htaken =>
    refine ⟨s.rx, s.taken, h.rx.trans hr.symm, h.taken.trans htaken.symm, h.sound⟩
  | bytes n hr htaken =>
    refine ⟨_, _, ?_, ?_, h.sound.moved hnext (.read n)⟩
    · rw [hr, h.rx]
    · rw [htaken, h.taken, h.rx]
  | segment g hg hr htaken =>
    obtain ⟨r, hrun, hd⟩ := h.sound.linked.link.delivered hnext (h.emitted g hg)
    rw [h.rx, hr] at hrun
    cases hrun
    exact ⟨_, s.taken, rfl, h.taken.trans htaken.symm, h.sound.receive hnext hd⟩

/-- A call on the receiving end: what it enqueues reports where its receiver stands. -/
theorem heard (h : Half s peer e) (hb : peer.accepted.length + 2 < 2 ^ 31)
    (hplain : ∀ g ∈ (runs e.conn.sender ops).segmentsOut, g.header.ack = false)
    (ht : Handled ops e peer e') : ∃ s', Half s' peer e' ∧ s'.tx = s.tx := by
  obtain ⟨r, taken, hr, htaken, hsound⟩ := h.took hb ht.took
  have hnew : ∀ g ∈ e'.conn.segmentsOut, g.header.ack = true → g ∈ e.conn.segmentsOut ∨
      r.ackno = some g.header.ackno ∧ g.header.win = UInt16.ofNat (min 65535 r.windowSize) := by
    intro g hg hack
    rw [ht.called.out] at hg
    rcases List.mem_append.mp hg with hg | hg
    · exact Or.inl hg
    · obtain ⟨b, hmem, rfl⟩ := List.mem_map.mp hg
      have hb := hplain b hmem
      rw [← hr] at hack ⊢
      unfold TCPConnection.assemble at hack ⊢
      cases ha : r.ackno with
      | none =>
        rw [ha] at hack
        exact absurd (hb.symm.trans hack) (by simp)
      | some a => exact Or.inr ⟨rfl, rfl⟩
  cases ha : r.ackno with
  | none =>
    refine ⟨{ s with rx := r, taken := taken }, ⟨h.sender, h.accepted, hr, htaken, h.emitted,
      fun g hg hack => ?_, hsound⟩, rfl⟩
    rcases hnew g hg hack with hold | ⟨hnone, -⟩
    · exact h.reported g hold hack
    · rw [ha] at hnone
      cases hnone
  | some a =>
    refine ⟨{ s with
        rx := r
        taken := taken
        reports := s.reports ++ [(a, UInt16.ofNat (min 65535 r.windowSize))] },
      ⟨h.sender, h.accepted, hr, htaken, h.emitted, fun g hg hack => ?_,
        hsound.moved (h.next_lt hb) (.report ha)⟩, rfl⟩
    rcases hnew g hg hack with hold | ⟨hsome, hwin⟩
    · exact List.mem_append_left _ (h.reported g hold hack)
    · rw [ha, Option.some.injEq] at hsome
      refine List.mem_append_right _ (List.mem_singleton.mpr ?_)
      rw [hsome, hwin]

end Half

end Sponge
