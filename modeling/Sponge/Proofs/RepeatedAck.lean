import Sponge.Sanity.Queue
import Sponge.Sanity.Timer

/-! An acknowledgment that comes twice does what it does once. -/

namespace Sponge

open TCPSender

theorem SenderRun.ticking (capacity retxTimeout : ℕ) (isn : WrappingInt32) (ops : List SenderOp) :
    Ticking ((SenderRun.new capacity retxTimeout isn).run ops).sender :=
  (SenderRun.run_keeps (I := fun r => Ticking r.sender) (C := fun _ => True)
    (fun _ op _ ht h => h.run ht op) ops _ (fun _ _ => trivial) (Tiles.new _ _ _)
    (Backoff.new _ _ _).running).2

/-- The acknowledgment a sender stands at takes nothing off its queue and leaves its
timer alone, so with an unchanged window it changes nothing. -/
theorem acceptAck_again {accepted : List Byte} {first : List TCPSegment} {s : TCPSender}
    (ht : Tiles accepted first s) (h : Queue s) (hrun : Ticking s) (hb : s.nextSeqno < 2 ^ 64)
    {ackno : WrappingInt32} {w : UInt16} (hack : unwrap ackno s.isn s.recvAckno = s.recvAckno)
    (hw : s.windowSize = w.toNat) : s.acceptAck ackno w = some s := by
  have hcov := ht.covered_iff s.recvAckno h hb
  have hpop : popAcked s.isn s.nextSeqno s.recvAckno s.segmentsUnackno s.bytesInFlight false =
      (s.segmentsUnackno, s.bytesInFlight, false) := by
    cases hq : s.segmentsUnackno with
    | nil => rfl
    | cons g rest =>
      -- the acknowledged position lies inside the first segment
      have hhead := h.head g rest hq
      obtain ⟨-, hsplit, hle⟩ := ht.queued (show s.segmentsUnackno = [] ++ g :: rest from hq)
      have hreach := (hcov [] g rest hq).mp
      rw [span_nil] at hreach
      have hnot : ¬ covered s.isn s.nextSeqno s.recvAckno g = true := fun hc => by
        have := hreach hc
        omega
      rw [popAcked_eq, List.takeWhile_cons_of_neg hnot, List.dropWhile_cons_of_neg hnot]
      rfl
  have htimer : (if s.segmentsUnackno.isEmpty then s.timer.stop else s.timer) = s.timer := by
    cases hq : s.segmentsUnackno with
    | nil =>
      have hstop : s.timer.running = false := by
        rw [Bool.eq_false_iff, ne_eq, show _ ↔ _ from hrun, hq]
        simp
      simp only [List.isEmpty_nil, if_true, Timer.stop]
      rw [← hstop]
    | cons g rest => rfl
  have hin : ¬ (s.nextSeqno < s.recvAckno ∨ s.recvAckno < s.recvAckno) := by
    have := h.le
    omega
  unfold acceptAck
  simp only [hack, if_neg hin, hpop, Bool.false_eq_true, if_false, htimer, ← hw]

/-- In every state a sender can come to, for every acknowledgment and window, as long as
the next sequence number stays a 64-bit number: the second time changes nothing, in the
sender or in what it has queued. -/
theorem ack_repeated (capacity retxTimeout : ℕ) (isn : WrappingInt32) (ops : List SenderOp)
    (ackno : WrappingInt32) (w : UInt16) {s t : TCPSender}
    (hs : s = ((SenderRun.new capacity retxTimeout isn).run ops).sender)
    (ht : t = s.ackReceived ackno w) (hb : t.nextSeqno < 2 ^ 64) : t.ackReceived ackno w = t := by
  cases ha : s.acceptAck ackno w with
  | none =>
    have hsame : t = s := by rw [ht, ackReceived, ha]
    rw [hsame, ackReceived, ha]
  | some u =>
    have hrun : t = ((SenderRun.new capacity retxTimeout isn).run
        (ops ++ [.ackReceived ackno w])).sender := by
      rw [ht, hs]
      simp [SenderRun.run, SenderRun.step, SenderOp.run]
    rw [hrun] at hb
    obtain ⟨htiles, hqueue⟩ := SenderRun.queue capacity retxTimeout isn _ rfl hb
    have hticking := SenderRun.ticking capacity retxTimeout isn (ops ++ [.ackReceived ackno w])
    rw [← hrun] at hb htiles hqueue hticking
    have hfill : t = u.fillWindow := by rw [ht, ackReceived, ha]
    obtain ⟨hle, -, hacked⟩ := acceptAck_spec ha
    have hready : u.setSyn = false → u.bytesInFlight = 0 := by
      have htiles' := SenderRun.tiles capacity retxTimeout isn ops
      rw [← hs] at htiles'
      exact (htiles'.acked hacked).ready
    obtain ⟨gs, hgs⟩ := fillWindow_spec u hready
    have hfull := fillWindow_full u hready
    rw [← hfill] at hgs hfull
    have hackno : t.recvAckno = unwrap ackno s.isn s.recvAckno :=
      hgs.grown.recvAckno.trans hacked.recvAckno
    have hisn : t.isn = s.isn := hgs.grown.isn.trans hacked.isn
    have hagain : unwrap ackno t.isn t.recvAckno = t.recvAckno := by
      have hwrap := wrap_unwrap ackno s.isn s.recvAckno
      have hlt := unwrap_lt ackno s.isn s.recvAckno
      rw [← hackno] at hwrap hlt
      rw [hisn, ← hwrap]
      exact unwrap_wrap s.isn hlt (by omega) (by omega)
    have haccept := acceptAck_again htiles hqueue hticking hb hagain
      (hgs.grown.windowSize.trans hacked.window)
    rw [ackReceived, haccept]
    exact hfull.fillWindow_eq

/-- A partial acknowledgment with data waiting, twice. -/
theorem ack_repeated_partial :
    ((((SenderRun.new 10 1000 ⟨7⟩).run [.fillWindow, .ackReceived ⟨8⟩ 3, .write [1, 2, 3, 4],
      .fillWindow]).sender.ackReceived ⟨10⟩ 4).ackReceived ⟨10⟩ 4) =
    (((SenderRun.new 10 1000 ⟨7⟩).run [.fillWindow, .ackReceived ⟨8⟩ 3, .write [1, 2, 3, 4],
      .fillWindow]).sender.ackReceived ⟨10⟩ 4) :=
  ack_repeated 10 1000 ⟨7⟩ [.fillWindow, .ackReceived ⟨8⟩ 3, .write [1, 2, 3, 4], .fillWindow] ⟨10⟩ 4
    rfl rfl (by decide)

end Sponge
