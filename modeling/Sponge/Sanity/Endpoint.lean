import Sponge.Sanity.Connection
import Sponge.Sanity.Deliver
import Sponge.Spec.Network

/-! Two connections as two links, one for each direction of the stream. Whatever a
connection does is a list of acts of its sender or its receiver, and each act
keeps both links. The links hold as long as fewer than 2^31 sequence numbers are
used; the sender's tiling needs no such bound, so the count only grows. -/

namespace Sponge

open Chunks StreamReassembler TCPSender

/-- What one call does, an act at a time, to an endpoint whose peer has sent `inbox`. -/
inductive Act (inbox : List TCPSegment) (e : Endpoint) : Endpoint → Prop
  | send (op : SenderOp) (hop : ∀ ackno w, op = .ackReceived ackno w →
        ∃ g ∈ inbox, g.header.ack = true ∧ g.header.ackno = ackno) :
      Act inbox e { e with
        conn := { e.conn with sender := op.run e.conn.sender }
        accepted := e.accepted ++ op.accepts e.conn.sender }
  | flush : Act inbox e { e with conn := e.conn.segmentAssembleSend }
  | clear : Act inbox e { e with
      conn := { e.conn with sender := { e.conn.sender with segmentsOut := [] } } }
  | receive {g : TCPSegment} {r : TCPReceiver} (hg : g ∈ inbox)
      (hr : e.conn.receiver.segmentReceived g = .ok r) :
      Act inbox e { e with conn := { e.conn with receiver := r } }
  | fail : Act inbox e { e with
      conn := { e.conn with
        receiver := e.conn.receiver.withOutput e.conn.receiver.streamOut.setError } }
  | read (n : ℕ) : Act inbox e { e with
      conn := { e.conn with
        receiver := e.conn.receiver.withOutput (e.conn.receiver.streamOut.popOutput n) }
      taken := e.taken ++ e.conn.receiver.streamOut.peekOutput n }
  | note (linger : Bool) (time : ℕ) (active : Bool) : Act inbox e { e with
      conn := { e.conn with
        lingerAfterStreamsFinish := linger
        timeSinceLastSegmentReceived := time
        isActive := active } }

abbrev Acts (inbox : List TCPSegment) : Endpoint → Endpoint → Prop :=
  Relation.ReflTransGen (Act inbox)

/-- The stream from `e` to `peer`; `x` is the history of the sender of `e`. -/
structure Direction (x : SenderRun) (e peer : Endpoint) : Prop where
  sender : x.sender = e.conn.sender
  accepted : x.accepted = e.accepted
  tiles : Tiles x.accepted x.sent x.sender
  queued : ∀ g ∈ e.conn.sender.segmentsOut, Blank g ∨ g ∈ x.sent
  emitted : ∀ g ∈ e.conn.segmentsOut, Genuine x g
  link : x.sender.nextSeqno < 2 ^ 31 → Link x peer.taken peer.conn.receiver
  acks : x.sender.nextSeqno < 2 ^ 31 → ∀ g ∈ peer.conn.segmentsOut, g.header.ack = true →
    ∃ a, g.header.ackno = wrap a x.sender.isn ∧ a ≤ peer.conn.receiver.absAckno

theorem Direction.new (cfg cfg' : TCPConfig) (random random' : WrappingInt32) :
    ∃ x, Direction x (Endpoint.new cfg random) (Endpoint.new cfg' random') := by
  refine ⟨SenderRun.new cfg.sendCapacity.toNat cfg.rtTimeout.toNat (cfg.fixedIsn.getD random),
    rfl, rfl, Tiles.new _ _ _, ?_, ?_, fun _ => Link.new _ _ _ cfg'.recvCapacity.toNat_lt, ?_⟩
  · simp [Endpoint.new, TCPConnection.new, TCPSender.new]
  · simp [Endpoint.new, TCPConnection.new]
  · simp [Endpoint.new, TCPConnection.new]

theorem Direction.plain {x : SenderRun} {e peer : Endpoint} (h : Direction x e peer)
    {g : TCPSegment} (hg : g ∈ e.conn.sender.segmentsOut) : g.header.ack = false := by
  rcases h.queued g hg with hblank | hsent
  · exact hblank.2
  · obtain ⟨pre, post, hl⟩ := List.append_of_mem hsent
    exact (h.tiles.piece_at hl).ack

/-- The receiver's part changes none of what the peer's receiver looks at. -/
theorem Genuine.assemble {x : SenderRun} {g : TCPSegment} (h : Blank g ∨ g ∈ x.sent)
    (r : TCPReceiver) : Genuine x (TCPConnection.assemble r g) := by
  rcases h with hblank | hsent
  · apply Genuine.empty
    rw [TCPConnection.assemble_length]
    exact hblank.1
  · apply Genuine.copy g hsent <;> simp

/-- An acknowledgment on an assembled segment is where the receiver stands. -/
theorem TCPConnection.assemble_ack {r : TCPReceiver} {g : TCPSegment} (hg : g.header.ack = false)
    (h : (assemble r g).header.ack = true) :
    r.setSyn = true ∧ (assemble r g).header.ackno = wrap r.absAckno r.isn := by
  unfold assemble at h ⊢
  cases ha : r.ackno with
  | none =>
    rw [ha] at h
    simp [hg] at h
  | some a => exact TCPReceiver.ackno_eq ha

theorem Direction.step {x x' : SenderRun} {e peer : Endpoint} (h : Direction x e peer)
    {op : SenderOp} (hst : SenderStep x op x')
    (hop : ∀ ackno w, op = .ackReceived ackno w →
      ∃ g ∈ peer.conn.segmentsOut, g.header.ack = true ∧ g.header.ackno = ackno)
    {e' : Endpoint} (hsender : x'.sender = e'.conn.sender) (haccepted : x'.accepted = e'.accepted)
    (hemitted : ∀ g ∈ e'.conn.segmentsOut, Genuine x' g) :
    Direction x' e' peer := by
  have hon := hst.onward h.tiles
  have hbefore : x'.sender.nextSeqno < 2 ^ 31 → x.sender.nextSeqno < 2 ^ 31 :=
    lt_of_le_of_lt hon.next
  refine ⟨hsender, haccepted, h.tiles.step hst, fun g hg => ?_, hemitted, fun hb => ?_,
    fun hb g hg hack => ?_⟩
  · rw [← hsender] at hg
    rcases hst.queued h.tiles hg with hold | hnew
    · rw [h.sender] at hold
      exact (h.queued g hold).imp_right fun hmem => hon.sent.subset hmem
    · exact hnew
  · refine (h.link (hbefore hb)).step (hbefore hb) hst fun ackno w he => ?_
    obtain ⟨g, hg, hack, rfl⟩ := hop ackno w he
    exact h.acks (hbefore hb) g hg hack
  · rw [hon.isn]
    exact h.acks (hbefore hb) g hg hack

theorem Direction.sent {x : SenderRun} {e e' peer : Endpoint} (h : Direction x e peer)
    (hact : Act peer.conn.segmentsOut e e') : ∃ x', Direction x' e' peer := by
  have hemitted : ∀ {x'}, Onward x x' → ∀ g ∈ e.conn.segmentsOut, Genuine x' g :=
    fun hon g hg => (h.emitted g hg).onward hon
  cases hact with
  | send op hop =>
    have hst := SenderRun.step_spec h.tiles op
    refine ⟨x.step op, h.step hst hop ?_ ?_ (hemitted (hst.onward h.tiles))⟩
    · exact congrArg (SenderOp.run · op) h.sender
    · simp only [SenderRun.step, h.accepted, h.sender]
  | flush =>
    have hst : SenderStep x .popSegment _ := .popped [] List.nil_suffix
    refine ⟨_, h.step hst (by simp) ?_ h.accepted fun g hg => ?_⟩
    · simp only [TCPConnection.segmentAssembleSend, h.sender]
    · rcases List.mem_append.mp hg with hg | hg
      · exact hemitted (hst.onward h.tiles) g hg
      · obtain ⟨b, hb, rfl⟩ := List.mem_map.mp hg
        exact (Genuine.assemble (h.queued b hb) _).onward (hst.onward h.tiles)
  | clear =>
    have hst : SenderStep x .popSegment _ := .popped [] List.nil_suffix
    refine ⟨_, h.step hst (by simp) ?_ h.accepted (hemitted (hst.onward h.tiles))⟩
    simp only [h.sender]
  | receive => exact ⟨x, { h with }⟩
  | fail => exact ⟨x, { h with }⟩
  | read => exact ⟨x, { h with }⟩
  | note => exact ⟨x, { h with }⟩

theorem Link.fail {x : SenderRun} {taken : List Byte} {r : TCPReceiver} (h : Link x taken r) :
    Link x taken (r.withOutput r.streamOut.setError) where
  __ := h
  inv := { h.inv with }
  safe := { h.safe with }

theorem Direction.received {y : SenderRun} {e e' peer : Endpoint} (h : Direction y peer e)
    (hplain : ∀ g ∈ e.conn.sender.segmentsOut, g.header.ack = false)
    (hact : Act peer.conn.segmentsOut e e') : Direction y peer e' := by
  cases hact with
  | send => exact { h with }
  | flush =>
    refine { h with acks := fun hb g hg hack => ?_ }
    rcases List.mem_append.mp hg with hg | hg
    · exact h.acks hb g hg hack
    · obtain ⟨b, hmem, rfl⟩ := List.mem_map.mp hg
      obtain ⟨hsyn, hackno⟩ := TCPConnection.assemble_ack (hplain b hmem) hack
      exact ⟨e.conn.receiver.absAckno, by rw [hackno, ((h.link hb).syn hsyn).1], le_rfl⟩
  | clear => exact { h with }
  | @receive g r hg hr =>
    have hreceive : y.sender.nextSeqno < 2 ^ 31 →
        Link y e.taken r ∧ e.conn.receiver.absAckno ≤ r.absAckno := by
      intro hb
      obtain ⟨r', hrun, hd⟩ := (h.link hb).delivered hb (h.emitted g hg)
      rw [hr] at hrun
      cases hrun
      exact (h.link hb).receive hb hd
    refine { h with link := fun hb => (hreceive hb).1, acks := fun hb g hg hack => ?_ }
    obtain ⟨a, ha, hle⟩ := h.acks hb g hg hack
    exact ⟨a, ha, hle.trans (hreceive hb).2⟩
  | fail => exact { h with link := fun hb => (h.link hb).fail }
  | read n => exact { h with link := fun hb => (h.link hb).read n }
  | note => exact { h with }

/-- Both directions of a connection. -/
def Paired (e peer : Endpoint) : Prop :=
  (∃ x, Direction x e peer) ∧ ∃ y, Direction y peer e

theorem Paired.new (cfg cfg' : TCPConfig) (random random' : WrappingInt32) :
    Paired (Endpoint.new cfg random) (Endpoint.new cfg' random') :=
  ⟨Direction.new cfg cfg' random random', Direction.new cfg' cfg random' random⟩

theorem Paired.symm {e peer : Endpoint} (h : Paired e peer) : Paired peer e := ⟨h.2, h.1⟩

theorem Paired.act {e e' peer : Endpoint} (h : Paired e peer)
    (hact : Act peer.conn.segmentsOut e e') : Paired e' peer := by
  obtain ⟨⟨x, hx⟩, ⟨y, hy⟩⟩ := h
  exact ⟨hx.sent hact, y, hy.received (fun _ => hx.plain) hact⟩

theorem Paired.acts {e e' peer : Endpoint} (h : Paired e peer)
    (hacts : Acts peer.conn.segmentsOut e e') : Paired e' peer := by
  induction hacts with
  | refl => exact h
  | tail _ hact ih => exact ih.act hact

end Sponge
