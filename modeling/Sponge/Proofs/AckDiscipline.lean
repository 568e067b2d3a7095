import Sponge.Sanity.Live
import Sponge.Sanity.Returns

/-! What a connection answers: something to every segment that takes up sequence numbers,
always with the receiver's acknowledgment and window, and never an empty segment to an
empty one unless it asks for a sign of life. -/

namespace Sponge

open TCPSender SenderOp

theorem TCPSender.Sends.pos {s t : TCPSender} {gs : List TCPSegment} (h : Sends s gs t) :
    ∀ g ∈ gs, 0 < g.lengthInSequenceSpace := by
  intro g hg
  obtain ⟨pre, post, hsplit⟩ := List.append_of_mem hg
  obtain ⟨u, room, -, hsend, -⟩ := h.made hsplit
  exact hsend.pos

theorem Tiles.acks_pos {accepted : List Byte} {first : List TCPSegment} {s : TCPSender}
    (ht : Tiles accepted first s) (hout : s.segmentsOut = []) (g : TCPSegment) :
    ∀ b ∈ (runs s g.acks).segmentsOut, 0 < b.lengthInSequenceSpace := by
  unfold TCPSegment.acks
  split_ifs
  · show ∀ b ∈ (s.ackReceived g.header.ackno g.header.win).segmentsOut, _
    rcases ht.ackReceived_cases g.header.ackno g.header.win with
      ⟨-, hsame⟩ | ⟨t, gs, -, hacked, hrun, hgs⟩
    · simp [hsame, hout]
    · rw [hrun, hgs.grown.out, hacked.out, hout, List.nil_append]
      exact hgs.pos
  · simp [runs, hout]

theorem Tiles.fillWindow_syn {accepted : List Byte} {first : List TCPSegment} {s : TCPSender}
    (ht : Tiles accepted first s) (hnext : s.nextSeqno = 0) : s.fillWindow.segmentsOut ≠ [] := by
  have hcount := ht.count
  have hsyn : s.setSyn = false := by
    cases hs : s.setSyn with
    | false => rfl
    | true =>
      rw [hnext, hs, Bool.toNat_true] at hcount
      omega
  have hfull := fillWindow_full s ht.ready
  obtain ⟨gs, hgs⟩ := fillWindow_spec s ht.ready
  intro hnone
  rw [hgs.grown.out, List.append_eq_nil_iff] at hnone
  rw [hnone.2] at hgs
  have hsame : s.fillWindow = s := by
    generalize s.fillWindow = t at hgs
    cases hgs
    rfl
  rw [hsame] at hfull
  exact absurd (hfull.syn.symm.trans hsyn) (by simp)

namespace TCPConnection

theorem keepAlive_out {c : TCPConnection} {g : TCPSegment}
    (h : g.lengthInSequenceSpace = 0 → ∀ ackno, c.receiver.ackno = some ackno →
      g.header.seqno ≠ ackno.sub 1) : c.keepAlive g = c := by
  unfold keepAlive
  cases ha : c.receiver.ackno with
  | none => rfl
  | some ackno => exact if_neg fun hc => h hc.1 ackno ha hc.2

theorem answer_out (c : TCPConnection) {g : TCPSegment} (h : 0 < g.lengthInSequenceSpace) :
    (c.answer g).sender.segmentsOut ≠ [] := by
  unfold answer
  split_ifs with hempty
  · simp only
    split_ifs with hfill
    · simp [TCPSender.sendEmptySegment]
    · exact hfill
  · exact fun hc => hempty ⟨h, hc⟩

/-- What the reply to a segment enqueues. With no sequence numbers in it and no sign of
life asked for, that is what the sender had queued before. -/
theorem respond_enqueues {accepted : List Byte} {first : List TCPSegment} {c : TCPConnection}
    (ht : Tiles accepted first c.sender) (g : TCPSegment) :
    ∃ out, (c.respond g).segmentsOut = c.segmentsOut ++ out.map (assemble c.receiver) ∧
      (0 < g.lengthInSequenceSpace → out ≠ []) ∧
      (g.lengthInSequenceSpace = 0 →
        (∀ ackno, c.receiver.ackno = some ackno → g.header.seqno ≠ ackno.sub 1) →
          out = c.sender.segmentsOut) := by
  unfold respond
  split_ifs with hconnect
  · refine ⟨c.sender.fillWindow.segmentsOut, rfl, fun _ => ht.fillWindow_syn hconnect.2,
      fun hzero => ?_⟩
    simp [TCPSegment.lengthInSequenceSpace, hconnect.1] at hzero
  · obtain ⟨_, -, halive⟩ := keepAlive_ran c.closeWait g
    obtain ⟨_, -, hanswer⟩ := answer_ran (c.closeWait.keepAlive g) g
    have hran := ((c.closeWait_ran).trans halive).trans hanswer
    refine ⟨((c.closeWait.keepAlive g).answer g).sender.segmentsOut, ?_, answer_out _,
      fun hzero hseqno => ?_⟩
    · simp only [segmentAssembleSend, hran.out, hran.receiver]
    · have hwait := c.closeWait_ran
      have hskip : c.closeWait.keepAlive g = c.closeWait :=
        keepAlive_out fun _ => by rw [hwait.receiver]; exact hseqno
      have hidle : c.closeWait.answer g = c.closeWait := if_neg fun h => by omega
      rw [hskip, hidle, hwait.sender]
      rfl

theorem assemble_acked {r : TCPReceiver} {ackno : WrappingInt32} (h : r.ackno = some ackno)
    (g : TCPSegment) : (assemble r g).header.ack = true ∧ (assemble r g).header.ackno = ackno ∧
      (assemble r g).header.win.toNat = min 65535 r.windowSize := by
  unfold assemble
  rw [h]
  refine ⟨rfl, rfl, ?_⟩
  rw [UInt16.toNat_ofNat']
  exact Nat.mod_eq_of_lt (by omega)

end TCPConnection

theorem Live.respond_enqueues {x : SenderRun} {c : TCPConnection} (hx : Live x c) (r : TCPReceiver)
    (g : TCPSegment) :
    ∃ out, (((c.taken r).acknowledge g).respond g).segmentsOut =
        c.segmentsOut ++ out.map (TCPConnection.assemble r) ∧
      (0 < g.lengthInSequenceSpace → out ≠ []) ∧
      (g.lengthInSequenceSpace = 0 →
        (∀ ackno, r.ackno = some ackno → g.header.seqno ≠ ackno.sub 1) →
          out = (runs c.sender g.acks).segmentsOut) := by
  have hack := TCPConnection.acknowledge_ran (c.taken r) g
  have ht : Tiles (x.run g.acks).accepted (x.run g.acks).sent
      ((c.taken r).acknowledge g).sender := by
    rw [hack.sender]
    have := (hx.run_ops g.acks).1
    rwa [SenderRun.run_sender, hx.sender] at this
  obtain ⟨out, hnew, hsome, hsame⟩ := TCPConnection.respond_enqueues ht g
  rw [hack.receiver, hack.out] at hnew
  rw [hack.receiver, hack.sender] at hsame
  exact ⟨out, hnew, hsome, hsame⟩

/-- What a connection enqueues for a segment `g` that leaves it as `c'`, with a receiver
whose acknowledgment number is `ackno`. -/
structure Answered (g : TCPSegment) (c' : TCPConnection) (ackno : WrappingInt32)
    (new : List TCPSegment) : Prop where
  some : 0 < g.lengthInSequenceSpace → new ≠ []
  acked : ∀ b ∈ new, b.header.ack = true ∧ b.header.ackno = ackno ∧
    b.header.win.toNat = min 65535 c'.receiver.windowSize
  noStorm : g.lengthInSequenceSpace = 0 → g.header.seqno ≠ ackno.sub 1 →
    ∀ b ∈ new, 0 < b.lengthInSequenceSpace

/-- After every run, which never faults, the sender's own queue is empty; and a segment
without RST that an active connection receives is answered as it should be. -/
theorem ack_discipline (cfg : TCPConfig) (random : WrappingInt32) (events : List ConnectionOp) :
    ∃ c, exec TCPConnection.step (TCPConnection.new cfg random) events = .ok c ∧
      c.sender.segmentsOut = [] ∧
      (c.isActive = true → ∀ g : TCPSegment, g.header.rst = false →
        ∃ c' new, c.segmentReceived g = .ok c' ∧ c'.segmentsOut = c.segmentsOut ++ new ∧
          ∀ ackno, c'.receiver.ackno = some ackno → Answered g c' ackno new) := by
  obtain ⟨c, hrun⟩ := exec_returns TCPConnection.step_returns events (TCPConnection.new cfg random)
  obtain ⟨x, hx⟩ := Live.exec hrun
  have hout := hx.flushed
  have ht := hx.tiles
  rw [hx.sender] at hout ht
  refine ⟨c, hrun, hout, fun hactive g hrst => ?_⟩
  obtain ⟨r, hr⟩ := TCPReceiver.segmentReceived_returns c.receiver g
  have hack := TCPConnection.acknowledge_ran (c.taken r) g
  obtain ⟨out, hnew, hsome, hsame⟩ := hx.respond_enqueues r g
  refine ⟨_, out.map (TCPConnection.assemble r),
    TCPConnection.segmentReceived_heard hactive hrst hr, hnew, fun ackno hackno => ?_⟩
  rw [TCPConnection.respond_receiver, hack.receiver] at hackno
  have hassembled := TCPConnection.assemble_acked (r := r) hackno
  refine ⟨fun hpos hnil => hsome hpos (List.map_eq_nil_iff.mp hnil), fun b hb => ?_,
    fun hzero hseqno b hb => ?_⟩
  · obtain ⟨a, -, rfl⟩ := List.mem_map.mp hb
    obtain ⟨h1, h2, h3⟩ := hassembled a
    rw [TCPConnection.respond_receiver, hack.receiver]
    exact ⟨h1, h2, h3⟩
  · obtain ⟨a, ha, rfl⟩ := List.mem_map.mp hb
    rw [TCPConnection.assemble_length]
    rw [hsame hzero fun b hb => Option.some.inj (hackno.symm.trans hb) ▸ hseqno] at ha
    exact ht.acks_pos hout g a ha

end Sponge
