import Sponge.Sanity.SenderRun
import Sponge.Spec.ConnectionRun

/-! What one call on a connection does to its sender: a list of sender operations,
whose segments leave together at the end. So the sender of a connection is a sender
in use, whatever its owner calls and whatever arrives. -/

namespace Sponge

open TCPSender

namespace SenderOp

/-- The sender after a list of operations. -/
def runs (s : TCPSender) (ops : List SenderOp) : TCPSender := ops.foldl run s

theorem runs_append (s : TCPSender) (ops ops' : List SenderOp) :
    runs s (ops ++ ops') = runs (runs s ops) ops' := List.foldl_append

end SenderOp

open SenderOp

theorem SenderRun.run_sender (r : SenderRun) (ops : List SenderOp) :
    (r.run ops).sender = runs r.sender ops := by
  induction ops generalizing r with
  | nil => rfl
  | cons op ops ih => exact ih (r.step op)

/-- The acknowledgment in a segment, if it has one. -/
def TCPSegment.acks (g : TCPSegment) : List SenderOp :=
  if g.header.ack then [.ackReceived g.header.ackno g.header.win] else []

/-- Operations that answer an arriving segment. -/
def Replies (ops : List SenderOp) : Prop := ∀ op ∈ ops, op = .fillWindow ∨ op = .sendEmptySegment

theorem Replies.nil : Replies [] := by simp [Replies]

theorem Replies.append {ops ops' : List SenderOp} (h : Replies ops) (h' : Replies ops') :
    Replies (ops ++ ops') := by
  intro op hop
  rcases List.mem_append.mp hop with hop | hop
  · exact h op hop
  · exact h' op hop

theorem Replies.mem_acks {g : TCPSegment} {reply : List SenderOp} (h : Replies reply) {op : SenderOp}
    (hop : op ∈ g.acks ++ reply) :
    op = .fillWindow ∨ op = .sendEmptySegment ∨ ∃ ackno w, op = .ackReceived ackno w := by
  rcases List.mem_append.mp hop with hop | hop
  · unfold TCPSegment.acks at hop
    split_ifs at hop
    · exact Or.inr (Or.inr ⟨_, _, List.mem_singleton.mp hop⟩)
    · simp at hop
  · rcases h op hop with h | h
    · exact Or.inl h
    · exact Or.inr (Or.inl h)

/-- The sender operations of a call on `c`. -/
inductive Runs (c : TCPConnection) : ConnectionOp → List SenderOp → Prop
  | connect : Runs c .connect [.fillWindow]
  | write (data : List Byte) : Runs c (.write data) [.write data, .fillWindow]
  | endInputStream : Runs c .endInputStream [.endInput, .fillWindow]
  | tick (ms : ℕ) (h : ¬ maxRetxAttempts < (c.sender.tick ms).consecutiveRetransmissions) :
      Runs c (.tick ms) [.tick ms]
  | giveUp (ms : ℕ) (h : maxRetxAttempts < (c.sender.tick ms).consecutiveRetransmissions) :
      Runs c (.tick ms) [.tick ms, .popSegment, .setError, .sendFlagged true]
  | read (len : ℕ) : Runs c (.read len) []
  | dead (g : TCPSegment) (h : c.isActive = false) : Runs c (.segmentReceived g) []
  | reset (g : TCPSegment) (h : c.isActive = true) (hrst : g.header.rst = true) :
      Runs c (.segmentReceived g) [.setError]
  | heard (g : TCPSegment) (h : c.isActive = true) (hrst : g.header.rst = false)
      (reply : List SenderOp) (hreply : Replies reply) : Runs c (.segmentReceived g) (g.acks ++ reply)

/-- The sender has run the operations, and nothing has left yet. -/
structure Ran (c : TCPConnection) (ops : List SenderOp) (c' : TCPConnection) : Prop where
  sender : c'.sender = runs c.sender ops
  out : c'.segmentsOut = c.segmentsOut
  receiver : c'.receiver = c.receiver

/-- The sender has run the operations, and its segments have left. -/
structure Called (c : TCPConnection) (ops : List SenderOp) (c' : TCPConnection) : Prop where
  sender : c'.sender = { runs c.sender ops with segmentsOut := [] }
  out : c'.segmentsOut =
    c.segmentsOut ++ (runs c.sender ops).segmentsOut.map (TCPConnection.assemble c'.receiver)

theorem Ran.refl (c : TCPConnection) : Ran c [] c := ⟨rfl, rfl, rfl⟩

theorem Ran.trans {c d e : TCPConnection} {ops ops' : List SenderOp} (h : Ran c ops d)
    (h' : Ran d ops' e) : Ran c (ops ++ ops') e :=
  ⟨by rw [h'.sender, h.sender, runs_append], h'.out.trans h.out, h'.receiver.trans h.receiver⟩

theorem Ran.flush {c d : TCPConnection} {ops : List SenderOp} (h : Ran c ops d) :
    Called c ops d.segmentAssembleSend := by
  refine ⟨?_, ?_⟩
  · simp only [TCPConnection.segmentAssembleSend, h.sender]
  · simp only [TCPConnection.segmentAssembleSend, h.sender, h.out]

/-- With nothing waiting, what touches neither sender nor queue is a call without
operations. -/
theorem Called.none {c c' : TCPConnection} (hq : c.sender.segmentsOut = [])
    (hs : c'.sender = c.sender) (ho : c'.segmentsOut = c.segmentsOut) : Called c [] c' := by
  have hrun : runs c.sender [] = c.sender := rfl
  refine ⟨?_, ?_⟩
  · rw [hs, hrun, ← hq]
  · rw [ho, hrun, hq, List.map_nil, List.append_nil]

namespace TCPConnection

theorem assemble_eq (r : TCPReceiver) (g : TCPSegment) : ∃ ack ackno win,
    assemble r g = { g with header := { g.header with ack := ack, ackno := ackno, win := win } } := by
  unfold assemble
  split
  · exact ⟨_, _, _, rfl⟩
  · exact ⟨_, _, _, rfl⟩

@[simp] theorem assemble_payload (r : TCPReceiver) (g : TCPSegment) :
    (assemble r g).payload = g.payload := by
  obtain ⟨_, _, _, h⟩ := assemble_eq r g
  rw [h]

@[simp] theorem assemble_seqno (r : TCPReceiver) (g : TCPSegment) :
    (assemble r g).header.seqno = g.header.seqno := by
  obtain ⟨_, _, _, h⟩ := assemble_eq r g
  rw [h]

@[simp] theorem assemble_syn (r : TCPReceiver) (g : TCPSegment) :
    (assemble r g).header.syn = g.header.syn := by
  obtain ⟨_, _, _, h⟩ := assemble_eq r g
  rw [h]

@[simp] theorem assemble_fin (r : TCPReceiver) (g : TCPSegment) :
    (assemble r g).header.fin = g.header.fin := by
  obtain ⟨_, _, _, h⟩ := assemble_eq r g
  rw [h]

@[simp] theorem assemble_rst (r : TCPReceiver) (g : TCPSegment) :
    (assemble r g).header.rst = g.header.rst := by
  obtain ⟨_, _, _, h⟩ := assemble_eq r g
  rw [h]

@[simp] theorem assemble_length (r : TCPReceiver) (g : TCPSegment) :
    (assemble r g).lengthInSequenceSpace = g.lengthInSequenceSpace := by
  simp [TCPSegment.lengthInSequenceSpace]

theorem closeWait_ran (c : TCPConnection) : Ran c [] c.closeWait := by
  unfold closeWait
  split_ifs
  · exact ⟨rfl, rfl, rfl⟩
  · exact Ran.refl c

theorem keepAlive_ran (c : TCPConnection) (g : TCPSegment) :
    ∃ ops, Replies ops ∧ Ran c ops (c.keepAlive g) := by
  unfold keepAlive
  split
  · split_ifs
    · exact ⟨[.sendEmptySegment], by simp [Replies], rfl, rfl, rfl⟩
    · exact ⟨[], Replies.nil, Ran.refl c⟩
  · exact ⟨[], Replies.nil, Ran.refl c⟩

theorem answer_ran (c : TCPConnection) (g : TCPSegment) :
    ∃ ops, Replies ops ∧ Ran c ops (c.answer g) := by
  unfold answer
  simp only
  split_ifs
  · exact ⟨[.fillWindow, .sendEmptySegment], by simp [Replies], rfl, rfl, rfl⟩
  · exact ⟨[.fillWindow], by simp [Replies], rfl, rfl, rfl⟩
  · exact ⟨[], Replies.nil, Ran.refl c⟩

theorem acknowledge_ran (c : TCPConnection) (g : TCPSegment) : Ran c g.acks (c.acknowledge g) := by
  unfold acknowledge TCPSegment.acks
  split_ifs
  · exact ⟨rfl, rfl, rfl⟩
  · exact Ran.refl c

theorem respond_called {c d : TCPConnection} {ops : List SenderOp} (h : Ran c ops d)
    (g : TCPSegment) : ∃ reply, Replies reply ∧ Called c (ops ++ reply) (d.respond g) := by
  unfold respond
  split_ifs
  · have hfill : Ran d [.fillWindow] { d with sender := d.sender.fillWindow } := ⟨rfl, rfl, rfl⟩
    exact ⟨[.fillWindow], by simp [Replies], (h.trans hfill).flush⟩
  · obtain ⟨ops₁, h₁, halive⟩ := keepAlive_ran d.closeWait g
    obtain ⟨ops₂, h₂, hanswer⟩ := answer_ran (d.closeWait.keepAlive g) g
    have hran := ((d.closeWait_ran).trans halive).trans hanswer
    exact ⟨[] ++ ops₁ ++ ops₂, (Replies.nil.append h₁).append h₂, (h.trans hran).flush⟩

theorem respond_receiver (c : TCPConnection) (g : TCPSegment) :
    (c.respond g).receiver = c.receiver := by
  unfold respond
  split_ifs
  · rfl
  · obtain ⟨_, -, halive⟩ := keepAlive_ran c.closeWait g
    obtain ⟨_, -, hanswer⟩ := answer_ran (c.closeWait.keepAlive g) g
    exact hanswer.receiver.trans (halive.receiver.trans c.closeWait_ran.receiver)

theorem finish_frame (c : TCPConnection) : c.finish.sender = c.sender ∧
    c.finish.segmentsOut = c.segmentsOut ∧ c.finish.receiver = c.receiver := by
  unfold finish
  split_ifs <;> exact ⟨rfl, rfl, rfl⟩

theorem tick_called {c : TCPConnection} (hq : c.sender.segmentsOut = []) (ms : ℕ) :
    ∃ ops, Runs c (.tick ms) ops ∧ Called c ops (c.tick ms) := by
  unfold tick
  simp only
  split_ifs with hcount
  · -- the tick has queued at most one segment, so popping one clears the queue
    have htail : (c.sender.tick ms).segmentsOut.tail = [] := by
      obtain ⟨gs, hk, hgs⟩ := tick_spec c.sender ms
      rw [hk.out, hq, List.nil_append]
      rcases hgs with rfl | ⟨g, -, rfl⟩ <;> rfl
    refine ⟨_, .giveUp ms hcount, ?_, ?_⟩
    · simp only [runs, List.foldl, SenderOp.run, htail]
      rfl
    · simp only [runs, List.foldl, SenderOp.run, htail]
      rfl
  · refine ⟨_, .tick ms hcount, ?_⟩
    have hran : Ran c [.tick ms] { c with
        sender := c.sender.tick ms
        timeSinceLastSegmentReceived := uadd c.timeSinceLastSegmentReceived ms } := ⟨rfl, rfl, rfl⟩
    obtain ⟨h1, h2, h3⟩ := finish_frame (segmentAssembleSend { c with
        sender := c.sender.tick ms
        timeSinceLastSegmentReceived := uadd c.timeSinceLastSegmentReceived ms })
    refine ⟨h1.trans hran.flush.sender, ?_⟩
    rw [h2, h3]
    exact hran.flush.out

/-- The receiver has taken a segment, and the sender has not seen it yet. -/
def taken (c : TCPConnection) (r : TCPReceiver) : TCPConnection :=
  { c with timeSinceLastSegmentReceived := 0, receiver := r }

/-- What `segment_received` does: nothing to a dead connection, a reset, or both halves
take the segment in turn. -/
theorem segmentReceived_cases {c c' : TCPConnection} {g : TCPSegment}
    (h : c.segmentReceived g = .ok c') :
    (c.isActive = false ∧ c' = c) ∨
      (c.isActive = true ∧ g.header.rst = true ∧
        c' = { c with timeSinceLastSegmentReceived := 0 }.setShutdown false) ∨
      (c.isActive = true ∧ g.header.rst = false ∧
        ∃ r, c.receiver.segmentReceived g = .ok r ∧ c' = ((c.taken r).acknowledge g).respond g) := by
  unfold segmentReceived at h
  simp only at h
  split_ifs at h with hactive hrst
  · cases h
    exact Or.inl ⟨by simpa using hactive, rfl⟩
  · cases h
    exact Or.inr (Or.inl ⟨by simpa using hactive, hrst, rfl⟩)
  · cases hr : c.receiver.segmentReceived g with
    | error =>
      rw [hr] at h
      cases h
    | ok r =>
      rw [hr, ok_bind] at h
      cases h
      exact Or.inr (Or.inr ⟨by simpa using hactive, by simpa using hrst, r, rfl, rfl⟩)

theorem segmentReceived_heard {c : TCPConnection} {g : TCPSegment} {r : TCPReceiver}
    (hactive : c.isActive = true) (hrst : g.header.rst = false)
    (hr : c.receiver.segmentReceived g = .ok r) :
    c.segmentReceived g = .ok (((c.taken r).acknowledge g).respond g) := by
  have hlive : ¬ (!c.isActive) = true := by simp [hactive]
  have hreset : ¬ g.header.rst = true := by simp [hrst]
  unfold segmentReceived
  simp only [if_neg hlive, if_neg hreset, hr, ok_bind]
  rfl

theorem segmentReceived_called {c c' : TCPConnection} (hq : c.sender.segmentsOut = [])
    {g : TCPSegment} (h : c.segmentReceived g = .ok c') :
    ∃ ops, Runs c (.segmentReceived g) ops ∧ Called c ops c' := by
  rcases segmentReceived_cases h with ⟨hactive, rfl⟩ | ⟨hactive, hrst, rfl⟩ |
    ⟨hactive, hrst, r, -, rfl⟩
  · exact ⟨[], .dead g hactive, Called.none hq rfl rfl⟩
  · refine ⟨[.setError], .reset g hactive hrst, ?_, ?_⟩
    · simp only [runs, List.foldl, SenderOp.run, setShutdown]
      rw [← hq]
      rfl
    · simp only [runs, List.foldl, SenderOp.run, setShutdown, hq]
      simp
  · obtain ⟨reply, hreply, hcalled⟩ := respond_called (acknowledge_ran (c.taken r) g) g
    exact ⟨_, .heard g hactive hrst reply hreply, hcalled.sender, hcalled.out⟩

/-- Every call is a list of sender operations whose segments leave at its end. -/
theorem step_called {c c' : TCPConnection} {op : ConnectionOp} (hq : c.sender.segmentsOut = [])
    (h : c.step op = .ok c') : ∃ ops, Runs c op ops ∧ Called c ops c' := by
  cases op with
  | connect =>
    cases h
    have hran : Ran c [.fillWindow] { c with sender := c.sender.fillWindow } := ⟨rfl, rfl, rfl⟩
    exact ⟨_, .connect, hran.flush⟩
  | write data =>
    cases h
    have hran : Ran c [.write data, .fillWindow] { c with
        sender := fillWindow { c.sender with stream := (c.sender.stream.write data).1 } } :=
      ⟨rfl, rfl, rfl⟩
    exact ⟨_, .write data, hran.flush⟩
  | endInputStream =>
    cases h
    have hran : Ran c [.endInput, .fillWindow] { c with
        sender := fillWindow { c.sender with stream := c.sender.stream.endInput } } :=
      ⟨rfl, rfl, rfl⟩
    exact ⟨_, .endInputStream, hran.flush⟩
  | tick ms =>
    cases h
    exact tick_called hq ms
  | read len =>
    cases h
    exact ⟨_, .read len, Called.none hq rfl rfl⟩
  | segmentReceived g => exact segmentReceived_called hq h

end TCPConnection

end Sponge
