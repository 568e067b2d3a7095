import Sponge.Sanity.Received
import Sponge.Sanity.Summary

/-! The silence of a dead connection. Only `segment_received` looks whether the connection
is active, so it stays silent exactly if nothing is outstanding and the FIN is sent. -/

namespace Sponge

open TCPSender SenderOp

/-- Nothing to send, to resend or to hand out. -/
structure Silent (s : TCPSender) : Prop where
  fin : s.setFin = true
  queue : s.segmentsUnackno = []
  out : s.segmentsOut = []
  full : Full s

/-- The operations of the calls that do not look whether the connection is active. -/
def SenderOp.unasked : SenderOp → Bool
  | .write _ => true
  | .endInput => true
  | .fillWindow => true
  | .tick _ => true
  | _ => false

theorem Silent.run {accepted : List Byte} {first : List TCPSegment} {s : TCPSender} (h : Silent s)
    (ht : Tiles accepted first s) {op : SenderOp} (hop : op.unasked = true) : Silent (op.run s) := by
  obtain ⟨-, hend, -⟩ := ht.finished h.fin
  cases op with
  | write data =>
    have hsame : SenderOp.run s (.write data) = s := by
      simp only [SenderOp.run, ByteStream.write_ended hend]
    rw [hsame]
    exact h
  | endInput => exact ⟨h.fin, h.queue, h.out, h.full.congr rfl rfl rfl rfl rfl hend.symm⟩
  | fillWindow =>
    have hsame : SenderOp.run s .fillWindow = s := h.full.fillWindow_eq
    rw [hsame]
    exact h
  | tick ms =>
    have htick : SenderOp.run s (.tick ms) = { s with timer := s.timer.tick ms } :=
      TCPSender.tick_idle h.queue ms
    rw [htick]
    exact ⟨h.fin, h.queue, h.out, h.full.congr rfl rfl rfl rfl rfl rfl⟩
  | setError => simp [SenderOp.unasked] at hop
  | ackReceived => simp [SenderOp.unasked] at hop
  | sendEmptySegment => simp [SenderOp.unasked] at hop
  | sendFlagged => simp [SenderOp.unasked] at hop
  | popSegment => simp [SenderOp.unasked] at hop

theorem Live.step_silent {x : SenderRun} {c c' : TCPConnection} (h : Live x c)
    (hsilent : Silent c.sender) (hdead : c.isActive = false) {op : ConnectionOp}
    (hs : c.step op = .ok c') : Silent c'.sender ∧ c'.segmentsOut = c.segmentsOut := by
  obtain ⟨ops, hr, hc⟩ := TCPConnection.step_called (h.sender ▸ h.flushed) hs
  have hops : ∀ op ∈ ops, op.unasked = true := by
    cases hr with
    | connect => simp [SenderOp.unasked]
    | write => simp [SenderOp.unasked]
    | endInputStream => simp [SenderOp.unasked]
    | tick => simp [SenderOp.unasked]
    | giveUp ms hcount =>
      -- nothing is outstanding, so nothing was ever counted
      have htimed := h.timed
      rw [h.sender] at htimed
      rw [TCPSender.tick_idle hsilent.queue, htimed.count hsilent.queue] at hcount
      exact absurd hcount (by decide)
    | read => simp
    | dead => simp
    | reset g hactive => exact absurd (hactive.symm.trans hdead) (by simp)
    | heard g hactive => exact absurd (hactive.symm.trans hdead) (by simp)
  have hkeeps := (SenderRun.run_keeps (C := fun op => op.unasked = true)
    (I := fun r => Silent r.sender) (fun r op hop ht hI => hI.run ht hop) ops x hops h.tiles
    (h.sender ▸ hsilent)).2
  rw [SenderRun.run_sender, h.sender] at hkeeps
  refine ⟨?_, ?_⟩
  · rw [hc.sender]
    exact ⟨hkeeps.fin, hkeeps.queue, rfl, hkeeps.full.congr rfl rfl rfl rfl rfl rfl⟩
  · rw [hc.out, hkeeps.out, List.map_nil, List.append_nil]

theorem TCPConnection.step_dead {c c' : TCPConnection} {op : ConnectionOp} (hs : c.step op = .ok c')
    (hdead : c.isActive = false) : c'.isActive = false := by
  by_contra hactive
  rw [Bool.not_eq_false] at hactive
  exact absurd ((TCPConnection.step_active hs hactive).symm.trans hdead) (by simp)

theorem silent_forever {x : SenderRun} {c d : TCPConnection} (h : Live x c)
    (hsilent : Silent c.sender) (hdead : c.isActive = false) {later : List ConnectionOp}
    (hrun : exec TCPConnection.step c later = .ok d) : d.segmentsOut = c.segmentsOut := by
  refine (exec_ok_inv (I := fun d => (∃ x, Live x d) ∧ Silent d.sender ∧ d.isActive = false ∧
    d.segmentsOut = c.segmentsOut) (fun d op d' hI hs => ?_) ⟨⟨x, h⟩, hsilent, hdead, rfl⟩ hrun).2.2.2
  obtain ⟨⟨y, hy⟩, hsil, hd, hout⟩ := hI
  obtain ⟨hsil', hout'⟩ := hy.step_silent hsil hd hs
  exact ⟨(hy.step hs).imp fun _ => And.left, hsil', TCPConnection.step_dead hs hd, hout'.trans hout⟩

/-- With its timer at the top of its range, a sender resends what is outstanding. -/
theorem tick_resends {s : TCPSender} (h : Timed s) (hqueue : s.segmentsUnackno ≠ []) :
    (s.tick (2 ^ 64 - 1 - s.timer.elapsedTime)).segmentsOut ≠ [] := by
  have hrunning := h.running.mpr hqueue
  have helapsed := h.elapsed
  have hcur := h.cur
  have hlast : uadd s.timer.elapsedTime (2 ^ 64 - 1 - s.timer.elapsedTime) = 2 ^ 64 - 1 := by
    rw [uadd_eq (by omega)]
    omega
  have hexpired : (s.timer.tick (2 ^ 64 - 1 - s.timer.elapsedTime)).checkExpired = true := by
    have hle : s.timer.curRTO ≤ 2 ^ 64 - 1 := by omega
    simp only [Timer.tick, hrunning, if_true, hlast, Timer.checkExpired, Bool.true_and,
      decide_eq_true_eq]
    exact hle
  cases hq : s.segmentsUnackno with
  | nil => exact absurd hq hqueue
  | cons g rest =>
    unfold TCPSender.tick
    simp only [hq, hexpired]
    simp

theorem endInput_sends {accepted : List Byte} {first : List TCPSegment} {s : TCPSender}
    (ht : Tiles accepted first s) (hflight : s.bytesInFlight = 0) (hend : s.stream.inputEnded = true)
    (hfin : s.setFin = false) : s.fillWindow.segmentsOut ≠ [] := by
  obtain ⟨gs, hgs⟩ := fillWindow_spec s ht.ready
  have hfull := fillWindow_full s ht.ready
  generalize s.fillWindow = t at hgs hfull
  cases hgs with
  | nil =>
    obtain ⟨room, hroom, hpos⟩ := room_pos hflight
    have := (hfull.idle room hroom hpos).2 hend
    simp [hfin] at this
  | cons hg _ hrest =>
    rw [hrest.grown.out, TCPSender.sent]
    simp

theorem Called.speaks {c c' : TCPConnection} {ops : List SenderOp} (h : Called c ops c')
    (hout : (runs c.sender ops).segmentsOut ≠ []) : c'.segmentsOut ≠ c.segmentsOut := by
  intro hsame
  rw [h.out] at hsame
  have hnil := List.append_right_eq_self.mp hsame
  exact hout (List.map_eq_nil_iff.mp hnil)

theorem Live.speaks {x : SenderRun} {c : TCPConnection} (h : Live x c)
    (hnot : ¬ (c.sender.setFin = true ∧ c.sender.segmentsUnackno = [])) :
    ∃ op c', c.step op = .ok c' ∧ c'.segmentsOut ≠ c.segmentsOut := by
  have ht := h.tiles
  have htimed := h.timed
  have hflushed := h.flushed
  rw [h.sender] at ht htimed hflushed
  by_cases hqueue : c.sender.segmentsUnackno = []
  · have hfin : c.sender.setFin = false := by
      by_contra hset
      rw [Bool.not_eq_false] at hset
      exact hnot ⟨hset, hqueue⟩
    have hflight : c.sender.bytesInFlight = 0 := by
      rw [ht.flight, hqueue]
      rfl
    obtain ⟨ops, hr, hc⟩ := TCPConnection.step_called hflushed
      (show c.step .endInputStream = .ok c.endInputStream from rfl)
    cases hr
    have hended := h.tiles.step (SenderRun.step_spec h.tiles .endInput)
    simp only [SenderRun.step, h.sender] at hended
    exact ⟨.endInputStream, _, rfl, hc.speaks (endInput_sends hended hflight rfl hfin)⟩
  · obtain ⟨ops, hr, hc⟩ := TCPConnection.step_called hflushed
      (show c.step (.tick (2 ^ 64 - 1 - c.sender.timer.elapsedTime)) = .ok _ from rfl)
    cases hr with
    | tick => exact ⟨.tick _, _, rfl, hc.speaks (tick_resends htimed hqueue)⟩
    | giveUp =>
      refine ⟨.tick _, _, rfl, hc.speaks ?_⟩
      simp [runs, SenderOp.run, TCPSender.sendEmptySegmentWith]

/-- A dead connection enqueues nothing more, whatever is called, exactly if its FIN has
been sent and nothing is outstanding. -/
theorem dead_silent_iff (cfg : TCPConfig) (random : WrappingInt32) (events : List ConnectionOp)
    {c : TCPConnection}
    (hrun : exec TCPConnection.step (TCPConnection.new cfg random) events = .ok c)
    (hdead : c.isActive = false) :
    (∀ later d, exec TCPConnection.step c later = .ok d → d.segmentsOut = c.segmentsOut) ↔
      c.sender.setFin = true ∧ c.sender.segmentsUnackno = [] := by
  obtain ⟨x, hx⟩ := Live.exec hrun
  constructor
  · intro hsilent
    by_contra hnot
    obtain ⟨op, c', hstep, hspeaks⟩ := hx.speaks hnot
    refine hspeaks (hsilent [op] c' ?_)
    simp only [exec, hstep, ok_bind]
  · rintro ⟨hfin, hqueue⟩ later d hlater
    have hflushed := hx.flushed
    have hfull := hx.full
    have hsyn := hx.tiles.finished
    rw [hx.sender] at hflushed hfull hsyn
    exact silent_forever hx ⟨hfin, hqueue, hflushed, hfull (hsyn hfin).1⟩ hdead hlater

/-- A clean close leaves nothing to say. -/
theorem dead_silent_iff_clean :
    ∃ c, exec TCPConnection.step (TCPConnection.new { rtTimeout := 1 } ⟨7⟩)
        [.connect, .segmentReceived { header := { syn := true, ack := true, ackno := ⟨8⟩, win := 9 } },
          .endInputStream,
          .segmentReceived { header :=
            { seqno := ⟨1⟩, fin := true, ack := true, ackno := ⟨9⟩, win := 9 } }, .tick 10] = .ok c ∧
      c.isActive = false ∧
      ∀ later d, exec TCPConnection.step c later = .ok d → d.segmentsOut = c.segmentsOut := by
  have hrun : ∃ c, exec TCPConnection.step (TCPConnection.new { rtTimeout := 1 } ⟨7⟩)
      [.connect, .segmentReceived { header := { syn := true, ack := true, ackno := ⟨8⟩, win := 9 } },
        .endInputStream,
        .segmentReceived { header :=
          { seqno := ⟨1⟩, fin := true, ack := true, ackno := ⟨9⟩, win := 9 } }, .tick 10] = .ok c ∧
      (c.isActive = false ∧ c.sender.setFin = true ∧ c.sender.segmentsUnackno = []) := by
    decide
  obtain ⟨c, hc, hdead, hdone⟩ := hrun
  exact ⟨c, hc, hdead, (dead_silent_iff _ _ _ hc hdead).mpr hdone⟩

/-- Reset after its SYN, a connection repeats the SYN at the next timeout. -/
theorem dead_connection_speaks :
    ∃ c, exec TCPConnection.step (TCPConnection.new { rtTimeout := 1 } ⟨7⟩)
        [.connect, .segmentReceived { header := { rst := true } }] = .ok c ∧
      (c.isActive = false ∧ ∃ d, c.step (.tick 1) = .ok d ∧
        d.segmentsOut.length = c.segmentsOut.length + 1) := by
  decide

end Sponge
