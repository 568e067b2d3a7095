import Sponge.Sanity.Live

/-! A listening connection and the segments that do not open it. Without a SYN the
receiver ignores them all; the sender leaks its SYN for a segment that takes up
sequence numbers and for an acknowledgment of its initial number. -/

namespace Sponge

open TCPSender

namespace TCPConnection

/-- In LISTEN, with nothing enqueued. -/
def Listening (c : TCPConnection) : Prop :=
  c.state = TCPState.ofState .listen ∧ c.segmentsOut = []

instance (c : TCPConnection) : Decidable c.Listening := inferInstanceAs (Decidable (_ ∧ _))

/-- A connection nothing has happened to but the passing of time. -/
def idle (cfg : TCPConfig) (random : WrappingInt32) (time : ℕ) : TCPConnection :=
  { TCPConnection.new cfg random with timeSinceLastSegmentReceived := time }

end TCPConnection

/-- Time, a read, or a segment with neither SYN nor RST. -/
def ConnectionOp.Stray : ConnectionOp → Prop
  | .tick _ => True
  | .read _ => True
  | .segmentReceived g => g.header.syn = false ∧ g.header.rst = false
  | _ => False

/-- A segment that a listening connection with initial number `isn` ignores. -/
def ConnectionOp.Ignored (isn : WrappingInt32) : ConnectionOp → Prop
  | .segmentReceived g =>
    g.lengthInSequenceSpace = 0 ∧ ¬ (g.header.ack = true ∧ g.header.ackno = isn)
  | _ => True

instance : (op : ConnectionOp) → Decidable op.Stray
  | .connect => inferInstanceAs (Decidable False)
  | .write _ => inferInstanceAs (Decidable False)
  | .endInputStream => inferInstanceAs (Decidable False)
  | .tick _ => inferInstanceAs (Decidable True)
  | .read _ => inferInstanceAs (Decidable True)
  | .segmentReceived _ => inferInstanceAs (Decidable (_ ∧ _))

instance (isn : WrappingInt32) : (op : ConnectionOp) → Decidable (op.Ignored isn)
  | .connect => inferInstanceAs (Decidable True)
  | .write _ => inferInstanceAs (Decidable True)
  | .endInputStream => inferInstanceAs (Decidable True)
  | .tick _ => inferInstanceAs (Decidable True)
  | .read _ => inferInstanceAs (Decidable True)
  | .segmentReceived _ => inferInstanceAs (Decidable (_ ∧ ¬ _))

namespace TCPConnection

theorem idle_live (cfg : TCPConfig) (random : WrappingInt32) (time : ℕ) :
    ∃ x, Live x (idle cfg random time) := by
  obtain ⟨x, hx⟩ := Live.new cfg random
  exact ⟨x, { hx with }⟩

theorem idle_listening (cfg : TCPConfig) (random : WrappingInt32) (time : ℕ) :
    (idle cfg random time).Listening := ⟨rfl, rfl⟩

theorem idle_tick (cfg : TCPConfig) (random : WrappingInt32) (time ms : ℕ) :
    (idle cfg random time).tick ms = idle cfg random (uadd time ms) := rfl

theorem idle_read (cfg : TCPConfig) (random : WrappingInt32) (time len : ℕ) :
    ((idle cfg random time).readInbound len).1 = idle cfg random time := by
  have hempty : (ByteStream.new cfg.recvCapacity.toNat).popOutput len =
      ByteStream.new cfg.recvCapacity.toNat := by
    ext1 <;> simp [ByteStream.popOutput, ByteStream.new]
  have hread : ((idle cfg random time).receiver.streamOut.read len).1 =
      (idle cfg random time).receiver.streamOut := by
    rw [ByteStream.read_eq_pop]
    exact hempty
  simp only [readInbound, hread]
  rfl

theorem Listening.syn {c : TCPConnection} (h : c.Listening) {x : SenderRun} (hx : Live x c) :
    c.sender.setSyn = false := by
  have hclosed : c.sender.stateSummary = .closed := congrArg TCPState.sender h.1
  have hnext : c.sender.nextSeqno = 0 := by
    unfold TCPSender.stateSummary at hclosed
    split_ifs at hclosed with h1 h2
    exact h2
  have hcount := hx.tiles.count
  rw [hx.sender, hnext] at hcount
  cases hsyn : c.sender.setSyn with
  | false => rfl
  | true => simp [hsyn] at hcount; omega

/-- Without a SYN the receiver does not move, so only the sender reacts. -/
theorem idle_segment (cfg : TCPConfig) (random : WrappingInt32) (time : ℕ) {g : TCPSegment}
    (hsyn : g.header.syn = false) (hrst : g.header.rst = false) :
    (idle cfg random time).segmentReceived g =
      .ok ((((idle cfg random 0).acknowledge g).answer g).segmentAssembleSend) := by
  have hreceiver : (idle cfg random time).receiver.segmentReceived g =
      .ok (idle cfg random time).receiver := by
    simp [TCPReceiver.segmentReceived, idle, TCPConnection.new, TCPReceiver.new, hsyn]
  have hack := (acknowledge_ran (idle cfg random 0) g).receiver
  have hwait : ((idle cfg random 0).acknowledge g).closeWait = (idle cfg random 0).acknowledge g := by
    unfold closeWait
    rw [hack]
    rfl
  have halive : ((idle cfg random 0).acknowledge g).keepAlive g =
      (idle cfg random 0).acknowledge g := by
    unfold keepAlive
    rw [hack]
    rfl
  have hrespond : ((idle cfg random 0).acknowledge g).respond g =
      (((idle cfg random 0).acknowledge g).answer g).segmentAssembleSend := by
    simp only [respond, hsyn, Bool.false_eq_true, false_and, if_false, hwait, halive]
  rw [← hrespond]
  exact segmentReceived_heard rfl hrst hreceiver

theorem new_acceptAck {capacity timeout : ℕ} {isn ackno : WrappingInt32} (w : UInt16)
    (h : ackno ≠ isn) : (TCPSender.new capacity timeout isn).acceptAck ackno w = none := by
  have hpos : 0 < unwrap ackno isn 0 := by
    have hne : (ackno.rawValue - isn.rawValue).toNat ≠ 0 := by
      intro hzero
      have hraw : ackno.rawValue - isn.rawValue = 0 := UInt32.toNat_inj.mp hzero
      have : ackno.rawValue = isn.rawValue := by
        rw [← UInt32.sub_add_cancel ackno.rawValue isn.rawValue, hraw, UInt32.zero_add]
      exact h (by cases ackno; cases isn; simpa using this)
    simp only [unwrap, Nat.not_lt_zero, if_false]
    omega
  simp [acceptAck, TCPSender.new, hpos]

theorem idle_acknowledge {cfg : TCPConfig} {random : WrappingInt32} {g : TCPSegment}
    (h : ¬ (g.header.ack = true ∧ g.header.ackno = cfg.fixedIsn.getD random)) :
    (idle cfg random 0).acknowledge g = idle cfg random 0 := by
  unfold acknowledge
  split_ifs with hack
  · have hnone : (idle cfg random 0).sender.acceptAck g.header.ackno g.header.win = none :=
      new_acceptAck _ fun he => h ⟨hack, he⟩
    simp only [TCPSender.ackReceived, hnone]
  · rfl

theorem idle_ignored {cfg : TCPConfig} {random : WrappingInt32} {g : TCPSegment}
    (h : (ConnectionOp.segmentReceived g).Ignored (cfg.fixedIsn.getD random)) :
    (((idle cfg random 0).acknowledge g).answer g).segmentAssembleSend = idle cfg random 0 := by
  obtain ⟨hlength, hack⟩ := h
  rw [idle_acknowledge hack, answer, if_neg (by omega)]
  rfl

/-- After an answer the SYN is out, if it was before or there was something to answer. -/
theorem answer_syn {c : TCPConnection} {g : TCPSegment}
    (hflight : c.sender.setSyn = false → c.sender.bytesInFlight = 0)
    (h : c.sender.setSyn = true ∨ 0 < g.lengthInSequenceSpace ∧ c.sender.segmentsOut = []) :
    (c.answer g).sender.setSyn = true := by
  have hfull := (fillWindow_full c.sender hflight).syn
  unfold answer
  simp only
  split
  case isTrue =>
    split_ifs
    · exact hfull
    · exact hfull
  case isFalse hno => exact h.resolve_right hno

theorem idle_leaks {cfg : TCPConfig} {random : WrappingInt32} {g : TCPSegment}
    (h : ¬ (ConnectionOp.segmentReceived g).Ignored (cfg.fixedIsn.getD random)) :
    (((idle cfg random 0).acknowledge g).answer g).sender.setSyn = true := by
  by_cases hack : g.header.ack = true ∧ g.header.ackno = cfg.fixedIsn.getD random
  · -- the acknowledgment is accepted, so the sender fills its window
    obtain ⟨t, ht⟩ :
        ∃ t, (idle cfg random 0).sender.acceptAck g.header.ackno g.header.win = some t := by
      rw [hack.2]
      simp [acceptAck, idle, TCPConnection.new, TCPSender.new, unwrap]
    have hacked := (acceptAck_spec ht).2.2
    have hsyn : ((idle cfg random 0).acknowledge g).sender.setSyn = true := by
      simp only [acknowledge, if_pos hack.1, TCPSender.ackReceived, ht]
      refine (fillWindow_full t fun _ => ?_).syn
      rw [hacked.flight]
      rfl
    exact answer_syn (by simp [hsyn]) (.inl hsyn)
  · -- the acknowledgment, if any, is not; the answer fills the window
    have hlength : 0 < g.lengthInSequenceSpace := by
      by_contra hc
      exact h ⟨by omega, hack⟩
    rw [idle_acknowledge hack]
    exact answer_syn (fun _ => rfl) (.inr ⟨hlength, rfl⟩)

/-- A step from LISTEN: it ends there exactly if the event is ignored. -/
theorem idle_step {cfg : TCPConfig} {random : WrappingInt32} {op : ConnectionOp} (hop : op.Stray)
    (time : ℕ) : ∃ c, (idle cfg random time).step op = .ok c ∧
      (c.Listening → ∃ time, c = idle cfg random time) ∧
      (c.Listening ↔ op.Ignored (cfg.fixedIsn.getD random)) := by
  cases op with
  | connect => exact hop.elim
  | write => exact hop.elim
  | endInputStream => exact hop.elim
  | tick ms =>
    have hstep : (idle cfg random time).step (.tick ms) = .ok (idle cfg random (uadd time ms)) :=
      congrArg Except.ok (idle_tick cfg random time ms)
    exact ⟨_, hstep, fun _ => ⟨_, rfl⟩,
      iff_of_true (idle_listening cfg random (uadd time ms)) trivial⟩
  | read len =>
    exact ⟨_, rfl, fun _ => ⟨time, idle_read cfg random time len⟩,
      iff_of_true (idle_read cfg random time len ▸ idle_listening cfg random time) trivial⟩
  | segmentReceived g =>
    obtain ⟨hsyn, hrst⟩ := hop
    have hstep : (idle cfg random time).step (.segmentReceived g) = _ :=
      idle_segment cfg random time hsyn hrst
    by_cases hg : (ConnectionOp.segmentReceived g).Ignored (cfg.fixedIsn.getD random)
    · refine ⟨_, hstep, fun _ => ⟨0, idle_ignored hg⟩, iff_of_true ?_ hg⟩
      rw [idle_ignored hg]
      exact idle_listening cfg random 0
    · obtain ⟨x, hx⟩ := idle_live cfg random time
      obtain ⟨y, hy, -⟩ := hx.step hstep
      have hnot : ¬ Listening (((idle cfg random 0).acknowledge g).answer g).segmentAssembleSend := by
        intro hl
        have := hl.syn hy
        simp [segmentAssembleSend, idle_leaks hg] at this
      exact ⟨_, hstep, fun hl => absurd hl hnot, iff_of_false hnot hg⟩

theorem unsynced_step {c : TCPConnection} (h : c.receiver.setSyn = false) {op : ConnectionOp}
    (hop : op.Stray) : ∃ c', c.step op = .ok c' ∧ c'.receiver.setSyn = false := by
  cases op with
  | connect => exact hop.elim
  | write => exact hop.elim
  | endInputStream => exact hop.elim
  | tick ms =>
    refine ⟨_, rfl, ?_⟩
    unfold TCPConnection.tick
    simp only
    split_ifs
    · exact h
    · rw [(finish_frame _).2.2]
      exact h
  | read len => exact ⟨_, rfl, h⟩
  | segmentReceived g =>
    obtain ⟨hsyn, hrst⟩ := hop
    have hr : c.receiver.segmentReceived g = .ok c.receiver := by
      simp [TCPReceiver.segmentReceived, h, hsyn]
    cases hactive : c.isActive with
    | false => exact ⟨c, by simp [TCPConnection.step, segmentReceived, hactive], h⟩
    | true =>
      refine ⟨_, segmentReceived_heard hactive hrst hr, ?_⟩
      rw [respond_receiver, (acknowledge_ran _ g).receiver]
      exact h

end TCPConnection

/-- A listening connection takes every stray event without a fault, and it stays in
LISTEN with nothing enqueued exactly as long as no segment takes up sequence
numbers or acknowledges its initial number. -/
theorem listen_stays_iff (cfg : TCPConfig) (random : WrappingInt32) {events : List ConnectionOp}
    (hstray : ∀ op ∈ events, op.Stray) :
    (∃ c, exec TCPConnection.step (TCPConnection.new cfg random) events = .ok c) ∧
      (Always TCPConnection.step TCPConnection.Listening (TCPConnection.new cfg random) events ↔
        ∀ op ∈ events, op.Ignored (cfg.fixedIsn.getD random)) := by
  obtain ⟨c, hrun, -⟩ := exec_inv (I := fun c => c.receiver.setSyn = false)
    (C := fun _ op => ConnectionOp.Stray op) (fun _ _ h hop => TCPConnection.unsynced_step h hop)
    (s := TCPConnection.new cfg random) rfl (Each.of_forall hstray _)
  have hnew : TCPConnection.new cfg random = TCPConnection.idle cfg random 0 := rfl
  refine ⟨⟨c, hrun⟩, ?_⟩
  have hiff := always_iff_each (P := TCPConnection.Listening) (V := fun _ op => ConnectionOp.Stray op)
    (I := fun c => c.Listening → ∃ time, c = TCPConnection.idle cfg random time)
    (C := fun _ op => op.Ignored (cfg.fixedIsn.getD random))
    (fun c op hI hl hop => by
      obtain ⟨time, rfl⟩ := hI hl
      exact TCPConnection.idle_step hop time)
    (s := TCPConnection.new cfg random) (fun _ => ⟨0, hnew⟩) ⟨rfl, rfl⟩ (Each.of_forall hstray _)
  exact hiff.trans ⟨fun h => h.forall_mem hrun, fun h => Each.of_forall h _⟩

/-- Ticks, a stray ACK and an empty segment leave it in LISTEN. -/
theorem listen_stays_pure_acks :
    Always TCPConnection.step TCPConnection.Listening (TCPConnection.new { fixedIsn := some ⟨7⟩ } ⟨0⟩)
      [.tick 5, .segmentReceived { header := { ack := true, ackno := ⟨9⟩, win := 100 } },
        .segmentReceived {}] :=
  (listen_stays_iff { fixedIsn := some ⟨7⟩ } ⟨0⟩ (by decide)).2.mpr (by decide)

/-- One byte of data without a SYN makes a listening connection send its own SYN. -/
theorem listen_answers_data :
    ConnectionOp.Stray (.segmentReceived { header := { fin := true }, payload := [97] }) ∧
      ¬ Always TCPConnection.step TCPConnection.Listening
        (TCPConnection.new { fixedIsn := some ⟨7⟩ } ⟨0⟩)
        [.segmentReceived { header := { fin := true }, payload := [97] }] := by
  decide

end Sponge
