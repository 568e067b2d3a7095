import Sponge.Proofs.AckDiscipline
import Sponge.Proofs.Close
import Sponge.Proofs.GiveUp
import Sponge.Proofs.Linger
import Sponge.Proofs.Recovery
import Sponge.Sanity.Halves

/-! Two connections can always part. From every state in which both are active there are
further calls and deliveries, without another write, that end with both in CLOSED: the oldest
outstanding segment is still on its connection's queue, so it can arrive again, and what the
other side enqueues for it moves the acknowledged position on. -/

namespace Sponge

open TCPSender SenderOp

/-- Nothing that is outstanding or waits to be sent is a RST. -/
structure Mild (s : TCPSender) : Prop where
  plain : Plain s
  out : ∀ g ∈ s.segmentsOut, g.header.rst = false

namespace Mild

variable {s : TCPSender}

theorem pushSegment (h : Mild s) (room : ℕ) : Mild (s.pushSegment room).1 := by
  refine ⟨h.plain.pushSegment room, ?_⟩
  unfold TCPSender.pushSegment
  simp only
  split
  · exact h.out
  · split
    · exact h.out
    · intro g hg
      rcases List.mem_append.mp hg with hg | hg
      · exact h.out g hg
      · rw [List.mem_singleton.mp hg]

theorem fillWindow (h : Mild s) : Mild s.fillWindow :=
  fillWindow_keeps (fun _ room hs => hs.pushSegment room) h

/-- Only the giving up sends a RST. -/
theorem run (h : Mild s) {op : SenderOp} (hop : ∀ rst, op ≠ .sendFlagged rst) :
    Mild (op.run s) := by
  refine ⟨h.plain.run op, ?_⟩
  cases op with
  | fillWindow => exact h.fillWindow.out
  | ackReceived ackno w =>
    simp only [SenderOp.run, TCPSender.ackReceived]
    cases ha : s.acceptAck ackno w with
    | none => exact h.out
    | some t =>
      refine (Mild.fillWindow ⟨h.plain.acked ha, ?_⟩).out
      rw [(acceptAck_spec ha).2.2.out]
      exact h.out
  | tick ms =>
    obtain ⟨gs, hk, hgs⟩ := tick_spec s ms
    intro g hg
    rw [SenderOp.run, hk.out] at hg
    rcases List.mem_append.mp hg with hg | hg
    · exact h.out g hg
    · rcases hgs with rfl | ⟨b, hb, rfl⟩
      · cases hg
      · exact List.mem_singleton.mp hg ▸ h.plain b hb
  | sendEmptySegment =>
    intro g hg
    rcases List.mem_append.mp hg with hg | hg
    · exact h.out g hg
    · rw [List.mem_singleton.mp hg]
  | sendFlagged rst => exact absurd rfl (hop rst)
  | popSegment => exact fun g hg => h.out g (List.mem_of_mem_tail hg)
  | write | endInput | setError => exact h.out

theorem runs {ops : List SenderOp} (h : Mild s) (hops : ∀ rst, .sendFlagged rst ∉ ops) :
    Mild (SenderOp.runs s ops) := by
  induction ops generalizing s with
  | nil => exact h
  | cons op ops ih =>
    have hop : ∀ rst, op ≠ .sendFlagged rst := fun rst hop => hops rst (by simp [hop])
    exact ih (h.run hop) fun rst hmem => hops rst (List.mem_cons_of_mem _ hmem)

end Mild

theorem SenderRun.run_ended {x : SenderRun} (ht : Tiles x.accepted x.sent x.sender)
    (ops : List SenderOp) (h : x.sender.stream.inputEnded = true) :
    (x.run ops).sender.stream.inputEnded = true := by
  refine (SenderRun.run_keeps (I := fun r => r.sender.stream.inputEnded = true) (C := fun _ => True)
    (fun r op _ hr hI => ?_) ops x (fun _ _ => trivial) ht h).2
  by_cases hop : op = .endInput
  · rw [hop]
    rfl
  · exact ((SenderOp.run_stream hr op).1 hop).trans hI

/-- An end in use: active, with a window, within the bounds. -/
structure Up (e : Endpoint) : Prop where
  active : e.conn.isActive = true
  lingering : Lingering e.conn
  mild : Mild e.conn.sender
  queue : ∀ g ∈ e.conn.segmentsOut, g.header.rst = false
  short : e.accepted.length + 2 < 2 ^ 31
  room : 1 ≤ e.conn.receiver.capacity
  bound : e.conn.receiver.capacity < 2 ^ 63

theorem Up.new {cfg : TCPConfig} (hpos : 1 ≤ cfg.recvCapacity.toNat)
    (hcap : cfg.recvCapacity.toNat < 2 ^ 63) (random : WrappingInt32) :
    Up (Endpoint.new cfg random) where
  active := rfl
  lingering := Lingering.new cfg random
  mild := by constructor <;> simp [Plain, Endpoint.new, TCPConnection.new, TCPSender.new]
  queue := by simp [Endpoint.new, TCPConnection.new]
  short := by simp [Endpoint.new]
  room := hpos
  bound := hcap

theorem Up.flushed {e : Endpoint} (h : Up e) : e.conn.sender.segmentsOut = [] := by
  obtain ⟨x, hx⟩ := h.lingering.live
  exact hx.sender ▸ hx.flushed

theorem Took.capacity {e peer e' : Endpoint} (hr : e.conn.receiver.Regular) (h : Took e peer e') :
    e'.conn.receiver.capacity = e.conn.receiver.capacity := by
  cases h with
  | nothing hsame => rw [hsame]
  | bytes n hsame => rw [hsame]; rfl
  | segment g _ hrun => exact (TCPReceiver.segmentReceived_kept hr.steady hrun).2.2.1

theorem Lingering.endpoint_step {e e' peer : Endpoint} {ev : EndpointEvent} (h : Lingering e.conn)
    (hs : e.step peer ev = .ok e') : Lingering e'.conn := by
  rcases Endpoint.step_conn hs with hsame | ⟨op, hop⟩
  · rw [hsame]
    exact h
  · exact h.step hop

theorem Up.step {e e' peer : Endpoint} {ev : EndpointEvent} (h : Up e)
    (hs : e.step peer ev = .ok e') (hactive : e'.conn.isActive = true)
    (hshort : e'.accepted.length + 2 < 2 ^ 31) {ops : List SenderOp}
    (ht : Handled ops e peer e') : Up e' := by
  have hmild := h.mild.runs ht.flags
  have hcap := ht.took.capacity h.lingering.regular
  refine ⟨hactive, h.lingering.endpoint_step hs, ?_, fun g hg => ?_, hshort, hcap ▸ h.room,
    hcap ▸ h.bound⟩
  · rw [ht.called.sender]
    exact ⟨hmild.plain, by simp⟩
  · rw [ht.called.out] at hg
    rcases List.mem_append.mp hg with hg | hg
    · exact h.queue g hg
    · obtain ⟨b, hb, rfl⟩ := List.mem_map.mp hg
      rw [TCPConnection.assemble_rst]
      exact hmild.out b hb

/-- What a call only moves on. -/
structure Later (e e' : Endpoint) : Prop where
  ackno : e.conn.sender.recvAckno ≤ e'.conn.sender.recvAckno
  syn : e.conn.sender.setSyn = true → e'.conn.sender.setSyn = true
  ended : e.conn.sender.stream.inputEnded = true → e'.conn.sender.stream.inputEnded = true

theorem Later.refl (e : Endpoint) : Later e e := ⟨le_rfl, id, id⟩

theorem Later.trans {e e' e'' : Endpoint} (h : Later e e') (h' : Later e' e'') : Later e e'' :=
  ⟨h.ackno.trans h'.ackno, h'.syn ∘ h.syn, h'.ended ∘ h.ended⟩

/-- Two ends in use, and the transfers in both directions between them. -/
structure Joint (e peer : Endpoint) : Prop where
  here : Up e
  there : Up peer
  out : ∃ s, Half s e peer
  back : ∃ s, Half s peer e

namespace Joint

variable {e e' peer : Endpoint}

theorem swap (h : Joint e peer) : Joint peer e := ⟨h.there, h.here, h.back, h.out⟩

theorem step (h : Joint e peer) {ev : EndpointEvent} (hs : e.step peer ev = .ok e')
    (hactive : e'.conn.isActive = true) (hshort : e'.accepted.length + 2 < 2 ^ 31) :
    Joint e' peer ∧ Later e e' := by
  obtain ⟨⟨s, hout⟩, ⟨s', hback⟩⟩ := And.intro h.out h.back
  have hq := h.here.flushed
  obtain ⟨ops, ht⟩ := Endpoint.step_handled hq hs hactive
  obtain ⟨t, hout', hon, -⟩ := hout.sent hq ht hshort
  obtain ⟨t', hback', -⟩ := hback.heard h.there.short (hout.plain hq ops) ht
  refine ⟨⟨h.here.step hs hactive hshort ht, h.there, ⟨t, hout'⟩, ⟨t', hback'⟩⟩, ?_, ?_, ?_⟩
  · rw [← hout.sender, ← hout'.sender]
    exact hon.ackno
  · rw [← hout.sender, ← hout'.sender]
    exact hon.syn
  · intro hend
    rw [ht.called.sender]
    have hrun := SenderRun.run_ended hout.tiles ops (hout.sender ▸ hend)
    rwa [SenderRun.run_sender, hout.sender] at hrun

theorem ready (h : Joint e peer) (hsyn : e.conn.sender.setSyn = true) {s : Transfer}
    (hs : Half s e peer) : Ready s := by
  obtain ⟨x, hx⟩ := h.here.lingering.live
  have hsender : x.sender = s.tx.sender := hx.sender.trans hs.sender.symm
  have hshort := h.here.short
  have hbound : s.tx.accepted.length + s.rx.capacity < 2 ^ 64 := by
    have := h.there.bound
    rw [hs.accepted, hs.rx]
    omega
  refine ⟨hs.sound.linked, hs.sound.flow,
    hs.sound.intact (hs.sound.linked.link.limit_le.trans_lt hbound), hsender ▸ hx.timed,
    hsender ▸ hx.full (by rw [hx.sender, hsyn]), hs.accepted ▸ hshort, ?_, hbound⟩
  rw [hs.rx]
  exact h.there.room

theorem deliver (h : Joint e peer) {i : ℕ} {g : TCPSegment}
    (hi : peer.conn.segmentsOut[i]? = some g) :
    ∃ e' r, e.step peer (.deliver i) = .ok e' ∧ e.conn.receiver.segmentReceived g = .ok r ∧
      e'.conn = ((e.conn.taken r).acknowledge g).respond g ∧ Joint e' peer ∧ Later e e' := by
  have hrst := h.there.queue g (List.mem_of_getElem? hi)
  obtain ⟨r, hr⟩ := TCPReceiver.segmentReceived_returns e.conn.receiver g
  have hrun := TCPConnection.segmentReceived_heard h.here.active hrst hr
  generalize hc : ((e.conn.taken r).acknowledge g).respond g = c at hrun
  have hs : e.step peer (.deliver i) = .ok { e with conn := c } := by
    simp only [Endpoint.step, hi, hrun, ok_bind]
  have hactive : c.isActive = true := by
    have hacted : Acted e.conn (.segmentReceived g) c := TCPConnection.step_acted hrun
    cases hacted with
    | sent _ hop => cases hop
    | dead => exact h.here.active
    | reset _ _ hreset => exact absurd (hreset.symm.trans hrst) (by simp)
    | heard => exact h.here.active
  exact ⟨_, r, hs, hr, hc.symm, h.step hs hactive h.here.short⟩

end Joint

/-- What the owners and the network do once nothing more is written. No tick is longer than the
ten timeouts a connection lingers. -/
def EndpointEvent.Closing : EndpointEvent → Prop
  | .connect => False
  | .write _ => False
  | .endInputStream => True
  | .tick ms => ms ≤ 10 * 65535
  | .read _ => True
  | .deliver _ => True

namespace Network

def swap (n : Network) : Network := ⟨n.right, n.left⟩

/-- One such event. -/
def Winds (n n' : Network) : Prop :=
  ∃ side ev, EndpointEvent.Closing ev ∧ n.step (side, ev) = .ok n'

theorem Winds.left {e e' peer : Endpoint} {ev : EndpointEvent} (hev : ev.Closing)
    (hs : e.step peer ev = .ok e') : Winds ⟨e, peer⟩ ⟨e', peer⟩ :=
  ⟨.left, ev, hev, by simp only [Network.step, hs, ok_bind]⟩

theorem Winds.swap {n n' : Network} (h : Winds n n') : Winds n.swap n'.swap := by
  obtain ⟨side, ev, hev, hs⟩ := h
  cases side with
  | left =>
    obtain ⟨e, he, hs⟩ := bind_eq_ok hs
    cases hs
    exact ⟨.right, ev, hev, by simp only [Network.step, Network.swap, he, ok_bind]⟩
  | right =>
    obtain ⟨e, he, hs⟩ := bind_eq_ok hs
    cases hs
    exact ⟨.left, ev, hev, by simp only [Network.step, Network.swap, he, ok_bind]⟩

abbrev Unwinds : Network → Network → Prop := Relation.ReflTransGen Winds

theorem Unwinds.swap {n n' : Network} (h : Unwinds n n') : Unwinds n.swap n'.swap :=
  h.lift Network.swap fun _ _ => Winds.swap

theorem Unwinds.events {n n' : Network} (h : Unwinds n n') :
    ∃ more : List (Side × EndpointEvent), (∀ ev ∈ more, ev.2.Closing) ∧
      exec Network.step n more = .ok n' := by
  induction h with
  | refl => exact ⟨[], by simp, rfl⟩
  | tail _ hw ih =>
    obtain ⟨more, hmore, hrun⟩ := ih
    obtain ⟨side, ev, hev, hs⟩ := hw
    refine ⟨more ++ [(side, ev)], fun ev' hmem => ?_, exec_snoc hrun hs⟩
    rcases List.mem_append.mp hmem with hmem | hmem
    · exact hmore ev' hmem
    · exact List.mem_singleton.mp hmem ▸ hev

end Network

theorem Endpoint.step_accepted {e e' peer : Endpoint} {ev : EndpointEvent}
    (hs : e.step peer ev = .ok e') :
    e'.accepted = e.accepted ∨
      ∃ data more, ev = .write data ∧ e'.accepted = e.accepted ++ more := by
  cases ev with
  | write data =>
    cases hs
    exact .inr ⟨data, _, rfl, rfl⟩
  | connect | endInputStream | tick | read =>
    cases hs
    exact .inl rfl
  | deliver i =>
    simp only [Endpoint.step] at hs
    split at hs
    · cases hs
      exact .inl rfl
    · obtain ⟨c, -, hs⟩ := bind_eq_ok hs
      cases hs
      exact .inl rfl

theorem EndpointEvent.Closing.accepted {e e' peer : Endpoint} {ev : EndpointEvent}
    (hev : ev.Closing) (hs : e.step peer ev = .ok e') : e'.accepted = e.accepted := by
  rcases Endpoint.step_accepted hs with hsame | ⟨data, more, rfl, -⟩
  · exact hsame
  · exact hev.elim

theorem Network.Unwinds.accepted {n n' : Network} (h : Unwinds n n') :
    n'.left.accepted = n.left.accepted ∧ n'.right.accepted = n.right.accepted := by
  induction h with
  | refl => exact ⟨rfl, rfl⟩
  | tail _ hw ih =>
    obtain ⟨side, ev, hev, hs⟩ := hw
    cases side with
    | left =>
      obtain ⟨e, he, hs⟩ := bind_eq_ok hs
      cases hs
      exact ⟨(hev.accepted he).trans ih.1, ih.2⟩
    | right =>
      obtain ⟨e, he, hs⟩ := bind_eq_ok hs
      cases hs
      exact ⟨ih.1, (hev.accepted he).trans ih.2⟩

/-- The receiver does not look at what the owner of a segment has filled in. -/
theorem TCPReceiver.segmentReceived_assemble (r r' : TCPReceiver) (g : TCPSegment) :
    r.segmentReceived (TCPConnection.assemble r' g) = r.segmentReceived g := by
  obtain ⟨_, _, _, h⟩ := TCPConnection.assemble_eq r' g
  rw [h]
  rfl

/-- The acknowledgment of a segment counts, whatever the reply to it. -/
theorem Live.acknowledged {x : SenderRun} {c : TCPConnection} (hx : Live x c) {g : TCPSegment}
    (hack : g.header.ack = true) (r : TCPReceiver) :
    (c.sender.ackReceived g.header.ackno g.header.win).recvAckno ≤
      (((c.taken r).acknowledge g).respond g).sender.recvAckno := by
  obtain ⟨reply, -, hcalled⟩ :=
    TCPConnection.respond_called (TCPConnection.acknowledge_ran (c.taken r) g) g
  have hacks : runs c.sender g.acks = c.sender.ackReceived g.header.ackno g.header.win := by
    rw [TCPSegment.acks, if_pos hack]
    rfl
  have hle := (SenderRun.run_onward (hx.run_ops g.acks).1 reply).ackno
  simp only [SenderRun.run_sender, hx.sender, hacks] at hle
  rw [hcalled.sender, runs_append]
  show _ ≤ (runs (runs c.sender g.acks) reply).recvAckno
  rw [hacks]
  exact hle

namespace Joint

variable {e peer : Endpoint}

/-- The reader empties the stream of the other end. -/
theorem emptied (h : Joint e peer) :
    ∃ peer', Network.Unwinds ⟨e, peer⟩ ⟨e, peer'⟩ ∧ Joint e peer' ∧ Later peer peer' ∧
      peer'.conn.receiver.streamOut.buffer = [] := by
  let n := peer.conn.receiver.streamOut.bufferSize
  have hev : (EndpointEvent.read n).Closing := trivial
  have hs : peer.step e (.read n) = .ok { peer with
      conn := { peer.conn with
        receiver := peer.conn.receiver.withOutput (peer.conn.receiver.streamOut.popOutput n) }
      taken := peer.taken ++ peer.conn.receiver.streamOut.peekOutput n } := by
    simp only [Endpoint.step, TCPConnection.readInbound, ByteStream.read_eq_pop]
  obtain ⟨hj, hl⟩ := h.swap.step hs h.there.active h.there.short
  refine ⟨_, .single (Network.Winds.left hev hs).swap, hj.swap, hl, ?_⟩
  exact List.drop_eq_nil_of_le (le_min le_rfl le_rfl)

/-- What is outstanding is still on the connection's queue, as its owner has filled it in. -/
theorem copy (h : Joint e peer) {g : TCPSegment} {rest : List TCPSegment}
    (hq : e.conn.sender.segmentsUnackno = g :: rest) :
    ∃ r, ∃ i : ℕ, e.conn.segmentsOut[i]? = some (TCPConnection.assemble r g) := by
  obtain ⟨x, hx⟩ := h.here.lingering.live
  have hmem : g ∈ x.sent := hx.tiles.queue.subset (by rw [hx.sender, hq]; exact List.mem_cons_self)
  obtain ⟨r, hr⟩ := hx.emitted g hmem
  exact ⟨r, List.getElem?_of_mem hr⟩

/-- The oldest outstanding segment arrives at an empty stream, and is answered. -/
theorem arrives (h : Joint e peer) (hsyn : e.conn.sender.setSyn = true) {g : TCPSegment}
    {rest : List TCPSegment} (hq : e.conn.sender.segmentsUnackno = g :: rest)
    (hempty : peer.conn.receiver.streamOut.buffer = []) :
    ∃ peer' b, ∃ j : ℕ, Network.Unwinds ⟨e, peer⟩ ⟨e, peer'⟩ ∧ Joint e peer' ∧ Later peer peer' ∧
      peer'.conn.segmentsOut[j]? = some b ∧ b.header.ack = true ∧
      b.header.ackno = wrap peer'.conn.receiver.absAckno e.conn.sender.isn ∧
      e.conn.sender.recvAckno < peer'.conn.receiver.absAckno := by
  obtain ⟨s, hs⟩ := h.out
  have hready := h.ready hsyn hs
  obtain ⟨pre, post, hsent, hstart, hstop⟩ := hready.oldest (hs.sender ▸ hq)
  obtain ⟨r₀, i, hi⟩ := h.copy hq
  obtain ⟨peer', r, hstep, hr, hconn, hj, hl⟩ := h.swap.deliver hi
  have hev : (EndpointEvent.deliver i).Closing := trivial
  rw [TCPReceiver.segmentReceived_assemble, ← hs.rx] at hr
  have hlt := hready.arrives hsent hstart le_rfl hstop (.inl (hs.rx ▸ hempty)) hr
  have hrx : peer'.conn.receiver = r := by
    rw [hconn, TCPConnection.respond_receiver, (TCPConnection.acknowledge_ran _ _).receiver]
    rfl
  obtain ⟨x, hx⟩ := h.there.lingering.live
  obtain ⟨out, hout, hsome, -⟩ := hx.respond_enqueues r (TCPConnection.assemble r₀ g)
  rw [← hconn] at hout
  rw [TCPConnection.assemble_length] at hsome
  obtain ⟨b, out', rfl⟩ := List.exists_cons_of_ne_nil
    (hsome (hready.linked.link.tiles.piece_at hsent).pos)
  have hset := TCPReceiver.syn_of_lt hlt
  obtain ⟨hack, hackno, -⟩ := TCPConnection.assemble_acked (TCPReceiver.ackno_of_syn hset) b
  obtain ⟨s', hs'⟩ := hj.back
  have hisn : r.isn = e.conn.sender.isn := by
    rw [← hs'.sender, ← hrx, ← hs'.rx]
    refine (hs'.sound.linked.link.syn ?_).1
    rw [hs'.rx, hrx, hset]
  refine ⟨peer', TCPConnection.assemble r b, peer.conn.segmentsOut.length,
    .single (Network.Winds.left hev hstep).swap, hj.swap, hl, ?_, hack, ?_, ?_⟩
  · rw [hout, List.getElem?_append_right le_rfl, Nat.sub_self]
    rfl
  · rw [hackno, hrx, hisn]
  · rw [hrx, ← hs.sender]
    exact hlt

/-- With something outstanding the acknowledged position can move on. -/
theorem round (h : Joint e peer) (hsyn : e.conn.sender.setSyn = true)
    (hq : e.conn.sender.segmentsUnackno ≠ []) :
    ∃ e' peer', Network.Unwinds ⟨e, peer⟩ ⟨e', peer'⟩ ∧ Joint e' peer' ∧ Later e e' ∧
      Later peer peer' ∧ e.conn.sender.recvAckno < e'.conn.sender.recvAckno := by
  obtain ⟨g, rest, hq⟩ := List.exists_cons_of_ne_nil hq
  obtain ⟨p₁, hw₁, hj₁, hl₁, hempty⟩ := h.emptied
  obtain ⟨p₂, b, j, hw₂, hj₂, hl₂, hb, hack, hackno, hlt⟩ := hj₁.arrives hsyn hq hempty
  obtain ⟨e₃, r, hstep, -, hconn, hj₃, hl₃⟩ := hj₂.deliver hb
  have hev : (EndpointEvent.deliver j).Closing := trivial
  refine ⟨e₃, p₂, (hw₁.trans hw₂).tail (.left hev hstep), hj₃, hl₃, hl₁.trans hl₂, ?_⟩
  obtain ⟨s, hs⟩ := hj₂.out
  obtain ⟨x, hx⟩ := hj₂.here.lingering.live
  have hle := (hj₂.ready hsyn hs).acknowledged (a := p₂.conn.receiver.absAckno)
    (by rw [hs.rx]) b.header.win
  rw [hs.sender, ← hackno] at hle
  rw [hconn]
  exact hlt.trans_le (hle.trans (hx.acknowledged hack r))

/-- With nothing outstanding and the stream ended, the last number has been acknowledged. -/
theorem acknowledged (h : Joint e peer) (hsyn : e.conn.sender.setSyn = true)
    (hend : e.conn.sender.stream.inputEnded = true) (hq : e.conn.sender.segmentsUnackno = []) :
    e.accepted.length + 2 ≤ e.conn.sender.recvAckno := by
  obtain ⟨s, hs⟩ := h.out
  have hlink := hs.sound.linked.link
  obtain ⟨-, hflight, hclosed⟩ := (h.ready hsyn hs).complete (hs.sender ▸ hq)
  obtain ⟨hfin, -⟩ := hclosed (hs.sender ▸ hend)
  have hcount := hs.tiles.count
  have hlength := hs.tiles.length
  have hbalanced := s.tx.sender.stream.balanced
  have hstart := hlink.queue.start
  obtain ⟨hset, -, hbuf⟩ := hs.tiles.finished hfin
  rw [hset, hfin, Bool.toNat_true] at hcount
  rw [hbuf, List.length_nil] at hbalanced
  rw [← hs.accepted, ← hs.sender]
  omega

/-- And nothing is outstanding once it has. -/
theorem queue_nil (h : Joint e peer) (hsyn : e.conn.sender.setSyn = true)
    (hall : e.accepted.length + 2 ≤ e.conn.sender.recvAckno) :
    e.conn.sender.segmentsUnackno = [] := by
  obtain ⟨s, hs⟩ := h.out
  rw [← hs.accepted, ← hs.sender] at hall
  cases hq : e.conn.sender.segmentsUnackno with
  | nil => rfl
  | cons g rest =>
    obtain ⟨pre, post, hl, -, hlt⟩ := (h.ready hsyn hs).oldest (hs.sender ▸ hq)
    have hle := hs.tiles.next_le
    rw [hs.tiles.next, hl, space_append, space_cons] at hle
    omega

/-- Then the other end has received everything, and the sender's work is done. -/
theorem finAcked (h : Joint e peer) (hsyn : e.conn.sender.setSyn = true)
    (hend : e.conn.sender.stream.inputEnded = true) (hq : e.conn.sender.segmentsUnackno = []) :
    Received e peer ∧ e.conn.sender.stateSummary = .finAcked := by
  obtain ⟨s, hs⟩ := h.out
  obtain ⟨hwritten, hflight, hclosed⟩ := (h.ready hsyn hs).complete (hs.sender ▸ hq)
  obtain ⟨hfin, hended⟩ := hclosed (hs.sender ▸ hend)
  refine ⟨⟨hs.rx ▸ hended, ?_⟩, ?_⟩
  · rw [← hs.accepted, ← hwritten, Transfer.written, hs.taken, hs.rx]
    rfl
  · have hnext := hs.tiles.count
    have herror := (h.here.lingering.clean h.here.active).1
    rw [(hs.tiles.finished hfin).1, Bool.toNat_true] at hnext
    rw [← hs.sender] at herror
    rw [← hs.sender, hs.tiles.stateSummary_eq, herror, hfin, hflight]
    simp only [Bool.false_eq_true, if_false, reduceCtorEq, ne_eq, not_true_eq_false]
    rw [if_neg (by omega), if_neg (by omega)]

theorem of_step {ev : EndpointEvent} {e' : Endpoint} (hs : e.step peer ev = .ok e')
    (hactive : e'.conn.isActive = true) (hshort : e'.accepted.length + 2 < 2 ^ 31)
    (h : e.conn.isActive = true → e.accepted.length + 2 < 2 ^ 31 → Joint e peer) :
    Joint e' peer := by
  refine ((h ?_ ?_).step hs hactive hshort).1
  · rcases Endpoint.step_conn hs with hsame | ⟨op, hop⟩
    · exact hsame ▸ hactive
    · exact TCPConnection.step_active hop hactive
  · rcases Endpoint.step_accepted hs with hsame | ⟨data, more, -, hmore⟩
    · exact hsame ▸ hshort
    · rw [hmore, List.length_append] at hshort
      omega

/-- Every state in which both connections are active. -/
theorem exec {cfg cfg' : TCPConfig} {random random' : WrappingInt32}
    (hcap : 1 ≤ cfg.recvCapacity.toNat ∧ cfg.recvCapacity.toNat < 2 ^ 63)
    (hcap' : 1 ≤ cfg'.recvCapacity.toNat ∧ cfg'.recvCapacity.toNat < 2 ^ 63)
    {events : List (Side × EndpointEvent)} {n : Network}
    (hrun : exec Network.step (Network.new cfg cfg' random random') events = .ok n) :
    n.left.conn.isActive = true → n.right.conn.isActive = true →
      n.left.accepted.length + 2 < 2 ^ 31 → n.right.accepted.length + 2 < 2 ^ 31 →
        Joint n.left n.right := by
  refine exec_ok_inv (I := fun n => n.left.conn.isActive = true → n.right.conn.isActive = true →
    n.left.accepted.length + 2 < 2 ^ 31 → n.right.accepted.length + 2 < 2 ^ 31 →
      Joint n.left n.right) ?_ ?_ hrun
  · rintro n ⟨side, ev⟩ n' hI hs h1 h2 h3 h4
    cases side with
    | left =>
      obtain ⟨e, he, hs⟩ := bind_eq_ok hs
      cases hs
      exact of_step he h1 h3 fun h1 h3 => hI h1 h2 h3 h4
    | right =>
      obtain ⟨e, he, hs⟩ := bind_eq_ok hs
      cases hs
      exact (of_step he h2 h4 fun h2 h4 => (hI h1 h2 h3 h4).swap).swap
  · exact fun _ _ _ _ => ⟨.new hcap.1 hcap.2 random, .new hcap'.1 hcap'.2 random',
      Half.new cfg cfg' random random', Half.new cfg' cfg random' random⟩

end Joint

end Sponge
