import Sponge.Sanity.Tiles

/-! One step of a sender's run, and what whole runs keep: the new segments tile
the sequence space, and everything else put on the queue is empty or a copy of an
outstanding segment. -/

namespace Sponge

open Chunks TCPSender

/-- An empty segment as the sender makes it; its owner fills in the ACK. -/
def Blank (g : TCPSegment) : Prop := g.lengthInSequenceSpace = 0 ∧ g.header.ack = false

/-- What a step of a run can do. -/
inductive SenderStep (r : SenderRun) (op : SenderOp) : SenderRun → Prop
  | fed (more : List Byte) (stream : ByteStream)
      (hread : stream.bytesRead = r.sender.stream.bytesRead)
      (hbuf : stream.buffer = r.sender.stream.buffer ++ more)
      (hend : r.sender.stream.inputEnded = true → stream.inputEnded = true ∧ more = []) :
      SenderStep r op ⟨{ r.sender with stream := stream }, r.accepted ++ more, r.first, r.others⟩
  | filled (s t : TCPSender) (gs : List TCPSegment)
      (hs : s = r.sender ∨
        ∃ ackno w, op = .ackReceived ackno w ∧ r.sender.acceptAck ackno w = some s)
      (hgs : Sends s gs t) :
      SenderStep r op ⟨t, r.accepted,
        r.first ++ gs.map fun g => ⟨g, s.windowSize, s.bytesInFlight⟩, r.others⟩
  | other (t : TCPSender) (gs : List TCPSegment) (hk : Kept r.sender gs t)
      (hgs : ∀ g ∈ gs, Blank g ∨ g ∈ r.sender.segmentsUnackno) :
      SenderStep r op ⟨t, r.accepted, r.first,
        r.others ++ gs.map fun g => (g, r.sender.segmentsUnackno)⟩
  | popped (queue : List TCPSegment) (hq : queue <:+ r.sender.segmentsOut) :
      SenderStep r op ⟨{ r.sender with segmentsOut := queue }, r.accepted, r.first, r.others⟩

theorem SenderRun.step_eq_other (r : SenderRun) (op : SenderOp) {gs : List TCPSegment}
    (hfills : op.fills = false) (hacc : op.accepts r.sender = [])
    (hk : Kept r.sender gs (op.run r.sender)) :
    r.step op = ⟨op.run r.sender, r.accepted, r.first,
      r.others ++ gs.map fun g => (g, r.sender.segmentsUnackno)⟩ := by
  simp [SenderRun.step, hfills, hacc, hk.out]

theorem SenderRun.step_eq_filled (r : SenderRun) (op : SenderOp) {s : TCPSender}
    {gs : List TCPSegment} (hfills : op.fills = true) (hacc : op.accepts r.sender = [])
    (hs : op.entered r.sender = s) (hout : s.segmentsOut = r.sender.segmentsOut)
    (hgs : Sends s gs (op.run r.sender)) :
    r.step op = ⟨op.run r.sender, r.accepted,
      r.first ++ gs.map fun g => ⟨g, s.windowSize, s.bytesInFlight⟩, r.others⟩ := by
  simp [SenderRun.step, hfills, hacc, hs, hgs.grown.out, hout]

theorem SenderRun.step_spec {r : SenderRun} (h : Tiles r.accepted r.sent r.sender) (op : SenderOp) :
    SenderStep r op (r.step op) := by
  cases op with
  | write data =>
    have : SenderStep r (.write data) _ := SenderStep.fed (data.take (r.sender.stream.write data).2)
      (r.sender.stream.write data).1 (ByteStream.write_bytesRead _ _) (ByteStream.write_buffer _ _)
      fun he => by rw [ByteStream.write_ended he]; exact ⟨he, rfl⟩
    simpa [SenderRun.step, SenderOp.fills, SenderOp.run, SenderOp.accepts] using this
  | endInput =>
    have : SenderStep r .endInput _ := SenderStep.fed [] r.sender.stream.endInput rfl
      (List.append_nil _).symm fun _ => ⟨rfl, rfl⟩
    simpa [SenderRun.step, SenderOp.fills, SenderOp.run, SenderOp.accepts] using this
  | setError =>
    have : SenderStep r .setError _ := SenderStep.fed [] r.sender.stream.setError rfl
      (List.append_nil _).symm fun he => ⟨he, rfl⟩
    simpa [SenderRun.step, SenderOp.fills, SenderOp.run, SenderOp.accepts] using this
  | fillWindow =>
    obtain ⟨gs, hgs⟩ := fillWindow_spec r.sender h.ready
    rw [SenderRun.step_eq_filled r .fillWindow rfl rfl rfl rfl hgs]
    exact .filled _ _ gs (Or.inl rfl) hgs
  | ackReceived ackno w =>
    rcases h.ackReceived_cases ackno w with ⟨ha, hsame⟩ | ⟨s, gs, ha, hacked, hrun, hgs⟩
    · have hs : SenderOp.entered r.sender (.ackReceived ackno w) = r.sender := by
        simp [SenderOp.entered, ha]
      have hgs : Sends r.sender [] (SenderOp.run r.sender (.ackReceived ackno w)) := by
        rw [SenderOp.run, hsame]
        exact Sends.nil _
      rw [SenderRun.step_eq_filled r (.ackReceived ackno w) rfl rfl hs rfl hgs]
      exact .filled _ _ [] (Or.inl rfl) hgs
    · have hs : SenderOp.entered r.sender (.ackReceived ackno w) = s := by
        simp [SenderOp.entered, ha]
      have hgs : Sends s gs (SenderOp.run r.sender (.ackReceived ackno w)) := by
        rw [SenderOp.run, hrun]
        exact hgs
      rw [SenderRun.step_eq_filled r (.ackReceived ackno w) rfl rfl hs hacked.out hgs]
      exact .filled _ _ gs (Or.inr ⟨ackno, w, rfl, ha⟩) hgs
  | tick ms =>
    obtain ⟨gs, hk, hgs⟩ := tick_spec r.sender ms
    rw [SenderRun.step_eq_other r (.tick ms) rfl rfl hk]
    refine .other _ gs hk fun g hg => Or.inr ?_
    rcases hgs with rfl | ⟨b, hb, rfl⟩
    · simp at hg
    · rw [List.mem_singleton] at hg
      rwa [hg]
  | sendEmptySegment =>
    have hk := sendEmptySegment_spec r.sender
    rw [SenderRun.step_eq_other r .sendEmptySegment rfl rfl hk]
    refine .other _ _ hk fun g hg => Or.inl ?_
    rw [List.mem_singleton.mp hg]
    exact ⟨rfl, rfl⟩
  | sendFlagged rst =>
    have hk := sendEmptySegmentWith_spec r.sender rst
    rw [SenderRun.step_eq_other r (.sendFlagged rst) rfl rfl hk]
    refine .other _ _ hk fun g hg => Or.inl ?_
    rw [List.mem_singleton.mp hg]
    exact ⟨rfl, rfl⟩
  | popSegment =>
    have : SenderStep r .popSegment _ :=
      SenderStep.popped r.sender.segmentsOut.tail (List.tail_suffix _)
    have hlen : r.sender.segmentsOut.tail.length ≤ r.sender.segmentsOut.length := by simp
    simpa [SenderRun.step, SenderOp.fills, SenderOp.run, SenderOp.accepts,
      List.drop_of_length_le hlen] using this

theorem Tiles.step {r r' : SenderRun} {op : SenderOp} (h : Tiles r.accepted r.sent r.sender)
    (hst : SenderStep r op r') : Tiles r'.accepted r'.sent r'.sender := by
  cases hst with
  | fed more stream hread hbuf hend => exact h.feed more stream hread hbuf hend
  | filled s t gs hs hgs =>
    have htiles : Tiles r.accepted r.sent s := by
      rcases hs with rfl | ⟨ackno, w, -, ha⟩
      · exact h
      · exact h.acked (acceptAck_spec ha).2.2
    have := htiles.sends hgs
    simpa [SenderRun.sent, Function.comp_def] using this
  | other t gs hk hgs => exact h.kept hk
  | popped queue =>
    exact h.shorter rfl rfl rfl rfl rfl h.queue h.flight

/-- The stream and the flags only move on, and a sent FIN closes the stream. -/
structure Onward (r r' : SenderRun) : Prop where
  isn : r'.sender.isn = r.sender.isn
  accepted : r.accepted <+: r'.accepted
  read : r.sender.stream.bytesRead ≤ r'.sender.stream.bytesRead
  next : r.sender.nextSeqno ≤ r'.sender.nextSeqno
  ackno : r.sender.recvAckno ≤ r'.sender.recvAckno
  syn : r.sender.setSyn = true → r'.sender.setSyn = true
  fin : r.sender.setFin = true → r'.sender.setFin = true ∧ r'.accepted = r.accepted
  sent : r.sent <+: r'.sent

theorem Onward.refl (r : SenderRun) : Onward r r :=
  ⟨rfl, List.prefix_rfl, le_rfl, le_rfl, le_rfl, id, fun h => ⟨h, rfl⟩, List.prefix_rfl⟩

theorem Onward.trans {r r' r'' : SenderRun} (h : Onward r r') (h' : Onward r' r'') : Onward r r'' where
  isn := h'.isn.trans h.isn
  accepted := h.accepted.trans h'.accepted
  read := h.read.trans h'.read
  next := h.next.trans h'.next
  ackno := h.ackno.trans h'.ackno
  syn hs := h'.syn (h.syn hs)
  fin hs := ⟨(h'.fin (h.fin hs).1).1, (h'.fin (h.fin hs).1).2.trans (h.fin hs).2⟩
  sent := h.sent.trans h'.sent

theorem SenderStep.onward {r r' : SenderRun} {op : SenderOp} (h : Tiles r.accepted r.sent r.sender)
    (hst : SenderStep r op r') : Onward r r' := by
  cases hst with
  | fed more stream hread hbuf hend =>
    refine ⟨rfl, List.prefix_append _ _, hread.ge, le_rfl, le_rfl, id, fun hfin => ?_,
      List.prefix_rfl⟩
    have := (hend (h.finished hfin).2.1).2
    exact ⟨hfin, by rw [this, List.append_nil]⟩
  | filled s t gs hs hgs =>
    have hg := hgs.grown
    have hsame : s.isn = r.sender.isn ∧ s.stream = r.sender.stream ∧
        s.nextSeqno = r.sender.nextSeqno ∧ r.sender.recvAckno ≤ s.recvAckno ∧
        s.setSyn = r.sender.setSyn ∧ s.setFin = r.sender.setFin := by
      rcases hs with rfl | ⟨ackno, w, -, ha⟩
      · exact ⟨rfl, rfl, rfl, le_rfl, rfl, rfl⟩
      · obtain ⟨h1, -, hacked⟩ := acceptAck_spec ha
        exact ⟨hacked.isn, hacked.stream, hacked.next, hacked.recvAckno.ge.trans' h1, hacked.syn,
          hacked.fin⟩
    obtain ⟨e1, e2, e3, e4, e5, e6⟩ := hsame
    refine ⟨hg.isn.trans e1, List.prefix_rfl, ?_, ?_, ?_, ?_, fun hfin => ⟨hg.fin ?_, rfl⟩, ?_⟩
    · rw [← e2]; exact hg.read
    · rw [hg.next, e3]; exact Nat.le_add_right _ _
    · rw [hg.recvAckno]; exact e4
    · rw [← e5]; exact hg.syn
    · rw [e6]; exact hfin
    · simp [SenderRun.sent]
  | other t gs hk =>
    refine ⟨hk.isn, List.prefix_rfl, ?_, hk.next.ge, hk.recvAckno.ge, ?_, ?_, List.prefix_rfl⟩
    · rw [hk.stream]
    · rw [hk.syn]; exact id
    · rw [hk.fin]; exact fun hfin => ⟨hfin, rfl⟩
  | popped =>
    exact ⟨rfl, List.prefix_rfl, le_rfl, le_rfl, le_rfl, id, fun hfin => ⟨hfin, rfl⟩,
      List.prefix_rfl⟩

theorem SenderStep.queued {r r' : SenderRun} {op : SenderOp} (h : Tiles r.accepted r.sent r.sender)
    (hst : SenderStep r op r') {g : TCPSegment} (hg : g ∈ r'.sender.segmentsOut) :
    g ∈ r.sender.segmentsOut ∨ Blank g ∨ g ∈ r'.sent := by
  cases hst with
  | fed => exact Or.inl hg
  | filled s t gs hs hgs =>
    have hout : s.segmentsOut = r.sender.segmentsOut := by
      rcases hs with rfl | ⟨ackno, w, -, ha⟩
      · rfl
      · exact (acceptAck_spec ha).2.2.out
    rw [hgs.grown.out, hout] at hg
    rcases List.mem_append.mp hg with hg | hg
    · exact Or.inl hg
    · refine Or.inr (Or.inr ?_)
      simp [SenderRun.sent, Function.comp_def, hg]
  | other t gs hk hgs =>
    rw [hk.out] at hg
    rcases List.mem_append.mp hg with hg | hg
    · exact Or.inl hg
    · exact Or.inr ((hgs g hg).imp_right fun hmem => h.queue.subset hmem)
  | popped queue hq => exact Or.inl (hq.subset hg)

/-- Every other segment is empty or was outstanding when it was queued. -/
def Copies (r : SenderRun) : Prop :=
  ∀ e ∈ r.others, e.1.lengthInSequenceSpace = 0 ∨ e.1 ∈ e.2

theorem Copies.step {r r' : SenderRun} {op : SenderOp} (h : Copies r) (hst : SenderStep r op r') :
    Copies r' := by
  cases hst with
  | fed => exact h
  | filled => exact h
  | other t gs hk hgs =>
    intro e he
    rcases List.mem_append.mp he with he | he
    · exact h e he
    · obtain ⟨g, hg, rfl⟩ := List.mem_map.mp he
      exact (hgs g hg).imp_left And.left
  | popped => exact h

/-- So everything ever queued is new, empty, or a copy of a new one. -/
def Repeats (r : SenderRun) : Prop :=
  ∀ e ∈ r.others, e.1.lengthInSequenceSpace = 0 ∨ e.1 ∈ r.sent

theorem Repeats.step {r r' : SenderRun} {op : SenderOp} (ht : Tiles r.accepted r.sent r.sender)
    (h : Repeats r) (hst : SenderStep r op r') : Repeats r' := by
  have hsent := (hst.onward ht).sent
  have hold : ∀ e ∈ r.others, e.1.lengthInSequenceSpace = 0 ∨ e.1 ∈ r'.sent := fun e he =>
    (h e he).imp_right fun hmem => hsent.subset hmem
  cases hst with
  | fed => exact hold
  | filled => exact hold
  | other t gs hk hgs =>
    intro e he
    rcases List.mem_append.mp he with he | he
    · exact hold e he
    · obtain ⟨g, hg, rfl⟩ := List.mem_map.mp he
      exact (hgs g hg).imp And.left fun hmem => ht.queue.subset hmem
  | popped => exact hold

theorem SenderRun.run_keeps {I : SenderRun → Prop} {C : SenderOp → Prop}
    (hstep : ∀ r op, C op → Tiles r.accepted r.sent r.sender → I r → I (r.step op))
    (ops : List SenderOp) : ∀ r : SenderRun, (∀ op ∈ ops, C op) →
      Tiles r.accepted r.sent r.sender → I r →
        Tiles (r.run ops).accepted (r.run ops).sent (r.run ops).sender ∧ I (r.run ops) := by
  induction ops with
  | nil => exact fun r _ ht hI => ⟨ht, hI⟩
  | cons op ops ih =>
    intro r hops ht hI
    exact ih (r.step op) (fun op' hop => hops op' (by simp [hop]))
      (ht.step (SenderRun.step_spec ht op))
      (hstep r op (hops op (by simp)) ht hI)

theorem SenderRun.run_tiles {x : SenderRun} (ht : Tiles x.accepted x.sent x.sender)
    (ops : List SenderOp) : Tiles (x.run ops).accepted (x.run ops).sent (x.run ops).sender :=
  (SenderRun.run_keeps (I := fun _ => True) (C := fun _ => True) (fun _ _ _ _ _ => trivial) ops x
    (fun _ _ => trivial) ht trivial).1

theorem SenderRun.run_onward {x : SenderRun} (ht : Tiles x.accepted x.sent x.sender)
    (ops : List SenderOp) : Onward x (x.run ops) :=
  (SenderRun.run_keeps (I := fun r => Onward x r) (C := fun _ => True)
    (fun _ op _ hr hI => hI.trans ((SenderRun.step_spec hr op).onward hr)) ops x
    (fun _ _ => trivial) ht (Onward.refl x)).2

theorem SenderRun.run_inv {I : SenderRun → Prop}
    (hstep : ∀ r op r', Tiles r.accepted r.sent r.sender → SenderStep r op r' → I r → I r')
    (capacity retxTimeout : ℕ) (isn : WrappingInt32)
    (hnew : I (SenderRun.new capacity retxTimeout isn))
    (ops : List SenderOp) : Tiles ((SenderRun.new capacity retxTimeout isn).run ops).accepted
        ((SenderRun.new capacity retxTimeout isn).run ops).sent
        ((SenderRun.new capacity retxTimeout isn).run ops).sender ∧
      I ((SenderRun.new capacity retxTimeout isn).run ops) :=
  SenderRun.run_keeps (C := fun _ => True)
    (fun r op _ ht hI => hstep r op _ ht (SenderRun.step_spec ht op) hI) ops _ (fun _ _ => trivial)
    (Tiles.new capacity retxTimeout isn) hnew

theorem SenderRun.tiles (capacity retxTimeout : ℕ) (isn : WrappingInt32) (ops : List SenderOp) :
    Tiles ((SenderRun.new capacity retxTimeout isn).run ops).accepted
      ((SenderRun.new capacity retxTimeout isn).run ops).sent
      ((SenderRun.new capacity retxTimeout isn).run ops).sender :=
  (SenderRun.run_inv (I := fun _ => True) (fun _ _ _ _ _ _ => trivial) capacity retxTimeout isn
    trivial ops).1

end Sponge
