import Sponge.Sanity.Arrival
import Sponge.Sanity.Network
import Sponge.Sanity.Returns
import Sponge.Spec.ConnectionRun

/-! The calls on a connection whose owner keeps track of its bytes, and what they do not
depend on: the segments already on the queue, and the ports and checksum of one that arrives. -/

namespace Sponge

open TCPSender

namespace TCPSegment

/-- A segment without the fields that are set on its way out. -/
def bare (g : TCPSegment) : TCPSegment :=
  { g with header := { g.header with sport := 0, dport := 0, cksum := 0 } }

/-- A segment without options, no longer than the sender makes them. -/
structure Plain (g : TCPSegment) : Prop where
  doff : g.header.doff = 5
  size : g.payload.length ≤ maxPayloadSize

end TCPSegment

theorem TCPConnection.segmentReceived_bare (c : TCPConnection) (g : TCPSegment) :
    c.segmentReceived g.bare = c.segmentReceived g := rfl

namespace TCPSender

/-- Everything the sender has queued or keeps is plain. -/
structure Plain (s : TCPSender) : Prop where
  out : ∀ g ∈ s.segmentsOut, g.Plain
  queue : ∀ g ∈ s.segmentsUnackno, g.Plain

theorem Plain.pushSegment {s : TCPSender} (h : s.Plain) (room : ℕ) : (s.pushSegment room).1.Plain := by
  have hsize : ∀ {n m}, (s.stream.peekOutput (min maxPayloadSize (min n m))).length ≤
      maxPayloadSize := by
    intro n m
    simp only [ByteStream.peekOutput, List.length_take]
    omega
  have hsnoc : ∀ {gs : List TCPSegment} {g : TCPSegment}, (∀ b ∈ gs, b.Plain) → g.Plain →
      ∀ b ∈ gs ++ [g], b.Plain := by
    intro gs g hgs hg b hb
    rcases List.mem_append.mp hb with hb | hb
    · exact hgs b hb
    · exact List.mem_singleton.mp hb ▸ hg
  unfold TCPSender.pushSegment
  simp only [ByteStream.read]
  split
  · exact ⟨h.out, h.queue⟩
  · split
    · exact ⟨h.out, h.queue⟩
    · exact ⟨hsnoc h.out ⟨rfl, hsize⟩, hsnoc h.queue ⟨rfl, hsize⟩⟩

theorem Plain.fillWindow {s : TCPSender} (h : s.Plain) : s.fillWindow.Plain :=
  fillWindow_keeps (fun _ room hs => hs.pushSegment room) h

theorem Kept.plain {s t : TCPSender} {gs : List TCPSegment} (hk : Kept s gs t) (h : s.Plain)
    (hgs : ∀ g ∈ gs, g.Plain) : t.Plain := by
  refine ⟨fun g hg => ?_, fun g hg => h.queue g (hk.queue ▸ hg)⟩
  rw [hk.out] at hg
  exact (List.mem_append.mp hg).elim (h.out g) (hgs g)

theorem Plain.run {s : TCPSender} (h : s.Plain) (op : SenderOp) : (op.run s).Plain := by
  cases op with
  | write data => exact ⟨h.out, h.queue⟩
  | endInput => exact ⟨h.out, h.queue⟩
  | setError => exact ⟨h.out, h.queue⟩
  | fillWindow => exact h.fillWindow
  | ackReceived ackno w =>
    simp only [SenderOp.run, ackReceived]
    cases hack : s.acceptAck ackno w with
    | none => exact h
    | some t =>
      obtain ⟨-, -, hacked⟩ := acceptAck_spec hack
      have ht : t.Plain := by
        refine ⟨fun g hg => h.out g (hacked.out ▸ hg), fun g hg => h.queue g ?_⟩
        rw [hacked.queue] at hg
        exact (List.dropWhile_suffix _).subset hg
      exact ht.fillWindow
  | tick ms =>
    obtain ⟨gs, hkept, hgs⟩ := tick_spec s ms
    refine hkept.plain h fun g hg => ?_
    rcases hgs with rfl | ⟨b, hb, rfl⟩
    · cases hg
    · exact List.mem_singleton.mp hg ▸ h.queue b hb
  | sendEmptySegment =>
    exact (sendEmptySegment_spec s).plain h
      (List.forall_mem_singleton.mpr ⟨rfl, Nat.zero_le _⟩)
  | sendFlagged rst =>
    exact (sendEmptySegmentWith_spec s rst).plain h
      (List.forall_mem_singleton.mpr ⟨rfl, Nat.zero_le _⟩)
  | popSegment => exact ⟨fun g hg => h.out g (List.mem_of_mem_tail hg), h.queue⟩

theorem fillWindow_written (s : TCPSender) :
    s.fillWindow.stream.bytesWritten = s.stream.bytesWritten := by
  refine fillWindow_keeps (P := fun t => t.stream.bytesWritten = s.stream.bytesWritten)
    (fun t room ht => ?_) rfl
  unfold TCPSender.pushSegment
  simp only [ByteStream.read]
  split
  · exact ht
  · split <;> exact ht

theorem run_written (s : TCPSender) (op : SenderOp) :
    (op.run s).stream.bytesWritten = s.stream.bytesWritten + (op.accepts s).length := by
  cases op with
  | write data =>
    have hle : (s.stream.write data).2 ≤ data.length := by
      simp only [ByteStream.write]
      split_ifs <;> simp
    simp only [SenderOp.run, SenderOp.accepts, ByteStream.write_bytesWritten, List.length_take]
    omega
  | fillWindow => exact fillWindow_written s
  | ackReceived ackno w =>
    simp only [SenderOp.run, SenderOp.accepts, ackReceived]
    cases hack : s.acceptAck ackno w with
    | none => rfl
    | some t =>
      obtain ⟨-, -, hacked⟩ := acceptAck_spec hack
      rw [fillWindow_written, hacked.stream]
      rfl
  | tick ms =>
    obtain ⟨gs, hkept, -⟩ := tick_spec s ms
    simp only [SenderOp.run, hkept.stream]
    rfl
  | endInput | setError | sendEmptySegment | sendFlagged | popSegment => rfl

end TCPSender

namespace Endpoint

/-- The bytes an endpoint has moved are those its streams have counted. -/
structure Counted (e : Endpoint) : Prop where
  accepted : e.accepted.length = e.conn.sender.stream.bytesWritten
  taken : e.taken.length = e.conn.receiver.streamOut.bytesRead
  regular : e.conn.receiver.Regular

theorem Counted.new (cfg : TCPConfig) (random : WrappingInt32) :
    (Endpoint.new cfg random).Counted := ⟨rfl, rfl, TCPReceiver.Regular.new _⟩

theorem Counted.act {inbox : List TCPSegment} {e e' : Endpoint} (h : e.Counted)
    (hact : Act inbox e e') : e'.Counted := by
  cases hact with
  | send op =>
    refine ⟨?_, h.taken, h.regular⟩
    rw [List.length_append, h.accepted]
    exact (run_written _ op).symm
  | receive _ hr =>
    refine ⟨h.accepted, h.taken.trans ?_, h.regular.segmentReceived hr⟩
    exact (TCPReceiver.segmentReceived_kept h.regular.steady hr).2.1.read.symm
  | fail =>
    have hsteady := h.regular.steady
    exact ⟨h.accepted, h.taken, ⟨hsteady.index, hsteady.keyed, hsteady.eof, hsteady.shut⟩,
      h.regular.capacity, h.regular.room⟩
  | read n =>
    refine ⟨h.accepted, ?_, h.regular.steady.pop n, h.regular.capacity, h.regular.room⟩
    rw [List.length_append, h.taken]
    simp only [ByteStream.peekOutput, List.length_take]
    exact congrArg _ (by omega)
  | flush => exact ⟨h.accepted, h.taken, h.regular⟩
  | clear => exact ⟨h.accepted, h.taken, h.regular⟩
  | note => exact ⟨h.accepted, h.taken, h.regular⟩

theorem Counted.acts {inbox : List TCPSegment} {e e' : Endpoint} (h : e.Counted)
    (hacts : Acts inbox e e') : e'.Counted := by
  induction hacts with
  | refl => exact h
  | tail _ hact ih => exact ih.act hact

structure Plain (e : Endpoint) : Prop where
  sender : e.conn.sender.Plain
  out : ∀ g ∈ e.conn.segmentsOut, g.Plain

theorem Plain.new (cfg : TCPConfig) (random : WrappingInt32) : (Endpoint.new cfg random).Plain :=
  ⟨⟨List.forall_mem_nil _, List.forall_mem_nil _⟩, List.forall_mem_nil _⟩

theorem Plain.act {inbox : List TCPSegment} {e e' : Endpoint} (h : e.Plain)
    (hact : Act inbox e e') : e'.Plain := by
  cases hact with
  | send op => exact ⟨h.sender.run op, h.out⟩
  | flush =>
    refine ⟨⟨List.forall_mem_nil _, h.sender.queue⟩, fun g hg => ?_⟩
    rcases List.mem_append.mp hg with hg | hg
    · exact h.out g hg
    · obtain ⟨b, hb, rfl⟩ := List.mem_map.mp hg
      obtain ⟨ack, ackno, win, heq⟩ := TCPConnection.assemble_eq e.conn.receiver b
      rw [heq]
      exact ⟨(h.sender.out b hb).doff, (h.sender.out b hb).size⟩
  | clear => exact ⟨⟨List.forall_mem_nil _, h.sender.queue⟩, h.out⟩
  | receive => exact ⟨h.sender, h.out⟩
  | fail => exact ⟨h.sender, h.out⟩
  | read => exact ⟨h.sender, h.out⟩
  | note => exact ⟨h.sender, h.out⟩

theorem Plain.acts {inbox : List TCPSegment} {e e' : Endpoint} (h : e.Plain)
    (hacts : Acts inbox e e') : e'.Plain := by
  induction hacts with
  | refl => exact h
  | tail _ hact ih => exact ih.act hact

/-- A call on the connection of an endpoint, whose segments come from anywhere. -/
def call (e : Endpoint) : ConnectionOp → Except Fault Endpoint
  | .connect => .ok { e with conn := e.conn.connect }
  | .write data =>
    let (conn, len) := e.conn.write data
    .ok { e with conn := conn, accepted := e.accepted ++ data.take len }
  | .endInputStream => .ok { e with conn := e.conn.endInputStream }
  | .tick ms => .ok { e with conn := e.conn.tick ms }
  | .read len =>
    let (conn, bytes) := e.conn.readInbound len
    .ok { e with conn := conn, taken := e.taken ++ bytes }
  | .segmentReceived g => do
    let conn ← e.conn.segmentReceived g
    .ok { e with conn := conn }

theorem call_acts {inbox : List TCPSegment} {e e' : Endpoint} {op : ConnectionOp}
    (h : e.call op = .ok e') (hop : ∀ g, op = .segmentReceived g → g ∈ inbox) :
    Acts inbox e e' := by
  cases op with
  | connect =>
    cases h
    exact Acts.connect e
  | write data =>
    cases h
    exact Acts.write e data
  | endInputStream =>
    cases h
    exact Acts.endInputStream e
  | tick ms =>
    cases h
    exact Acts.tick e ms
  | read len =>
    cases h
    exact Acts.readInbound e len
  | segmentReceived g =>
    obtain ⟨r, hr⟩ := TCPReceiver.segmentReceived_returns e.conn.receiver g
    obtain ⟨c, hc, hacts⟩ := Acts.segmentReceived e (hop g rfl) hr
    simp only [call, hc, ok_bind] at h
    cases h
    exact hacts

/-- The segment of a call, if it has one, as the whole inbox. -/
theorem call_acts_own {e e' : Endpoint} {op : ConnectionOp} (h : e.call op = .ok e') :
    ∃ inbox, Acts inbox e e' := by
  cases op with
  | segmentReceived g =>
    refine ⟨[g], call_acts h fun b hb => ?_⟩
    cases hb
    exact List.mem_singleton.mpr rfl
  | connect | write | endInputStream | tick | read =>
    exact ⟨[], call_acts h fun b hb => by cases hb⟩

end Endpoint

namespace TCPConnection

/-- The connection with segments put before those on its queue, which it never looks at. -/
def after (sent : List TCPSegment) (c : TCPConnection) : TCPConnection :=
  { c with segmentsOut := sent ++ c.segmentsOut }

variable (sent : List TCPSegment) (c : TCPConnection)

theorem segmentAssembleSend_after :
    (c.after sent).segmentAssembleSend = c.segmentAssembleSend.after sent := by
  simp only [after, segmentAssembleSend, List.append_assoc]

theorem connect_after : (c.after sent).connect = c.connect.after sent :=
  segmentAssembleSend_after sent { c with sender := c.sender.fillWindow }

theorem keepAlive_after (g : TCPSegment) :
    (c.after sent).keepAlive g = (c.keepAlive g).after sent := by
  have hreceiver : (c.after sent).receiver = c.receiver := rfl
  simp only [keepAlive, hreceiver]
  cases c.receiver.ackno with
  | none => rfl
  | some ackno =>
    simp only [apply_ite (after sent)]
    rfl

theorem respond_after (g : TCPSegment) : (c.after sent).respond g = (c.respond g).after sent := by
  have hclose : (c.after sent).closeWait = c.closeWait.after sent := by
    simp only [closeWait, apply_ite (after sent)]
    rfl
  have hanswer : ∀ c : TCPConnection, (c.after sent).answer g = (c.answer g).after sent := by
    intro c
    simp only [answer, apply_ite (after sent)]
    rfl
  have hcond : (g.header.syn = true ∧ (c.after sent).sender.nextSeqno = 0) ↔
      (g.header.syn = true ∧ c.sender.nextSeqno = 0) := Iff.rfl
  unfold respond
  simp only [hcond]
  split_ifs
  · exact connect_after sent c
  · rw [hclose, keepAlive_after, hanswer, segmentAssembleSend_after]

theorem segmentReceived_after (g : TCPSegment) :
    (c.after sent).segmentReceived g = (c.segmentReceived g).map (after sent) := by
  have hack : ∀ c : TCPConnection, (c.after sent).acknowledge g = (c.acknowledge g).after sent := by
    intro c
    simp only [acknowledge, apply_ite (after sent)]
    rfl
  have hheard : ∀ r : TCPReceiver, ({ c.after sent with
      timeSinceLastSegmentReceived := 0, receiver := r }.acknowledge g).respond g =
      (({ c with timeSinceLastSegmentReceived := 0, receiver := r }.acknowledge g).respond g).after
        sent := fun r => by
    rw [← respond_after, ← hack]
    rfl
  unfold segmentReceived
  show (if (!c.isActive) = true then _ else _) = _
  split_ifs
  · rfl
  · rfl
  · show (c.receiver.segmentReceived g >>= _) = Except.map _ (c.receiver.segmentReceived g >>= _)
    cases c.receiver.segmentReceived g with
    | error e => rfl
    | ok r => exact congrArg Except.ok (hheard r)

theorem tick_after (ms : ℕ) : (c.after sent).tick ms = (c.tick ms).after sent := by
  have hfinish : ∀ c : TCPConnection, (c.after sent).finish = c.finish.after sent := by
    intro c
    simp only [finish, apply_ite (after sent)]
    rfl
  have hrst : ∀ c : TCPConnection, (c.after sent).sendRstSegment = c.sendRstSegment.after sent :=
    fun c => segmentAssembleSend_after sent
      { c with sender := c.sender.sendEmptySegmentWith false false true }
  unfold tick
  simp only
  show (if maxRetxAttempts < (c.sender.tick ms).consecutiveRetransmissions then _ else _) = _
  split_ifs
  · rw [← hrst]
    rfl
  · rw [← hfinish, ← segmentAssembleSend_after]
    rfl

end TCPConnection

namespace Endpoint

def after (sent : List TCPSegment) (e : Endpoint) : Endpoint :=
  { e with conn := e.conn.after sent }

theorem after_nil (e : Endpoint) : e.after [] = e := rfl

theorem call_after (sent : List TCPSegment) (e : Endpoint) (op : ConnectionOp) :
    (e.after sent).call op = (e.call op).map (after sent) := by
  cases op with
  | connect => exact congrArg (fun c => Except.ok { e with conn := c }) (e.conn.connect_after sent)
  | write data =>
    have hwrite : ((e.conn.after sent).write data).1 = ((e.conn.write data).1).after sent :=
      TCPConnection.segmentAssembleSend_after sent { e.conn with sender :=
        ({ e.conn.sender with stream := (e.conn.sender.stream.write data).1 } : TCPSender).fillWindow }
    exact congrArg (fun c => Except.ok { e with
      conn := c, accepted := e.accepted ++ data.take (e.conn.write data).2 }) hwrite
  | endInputStream =>
    have hend : (e.conn.after sent).endInputStream = e.conn.endInputStream.after sent :=
      TCPConnection.segmentAssembleSend_after sent { e.conn with sender :=
        ({ e.conn.sender with stream := e.conn.sender.stream.endInput } : TCPSender).fillWindow }
    exact congrArg (fun c => Except.ok { e with conn := c }) hend
  | tick ms => exact congrArg (fun c => Except.ok { e with conn := c }) (e.conn.tick_after sent ms)
  | read len => rfl
  | segmentReceived g =>
    simp only [call, after, TCPConnection.segmentReceived_after]
    cases e.conn.segmentReceived g <;> rfl

end Endpoint

end Sponge
