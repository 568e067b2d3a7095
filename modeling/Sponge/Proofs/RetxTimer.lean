import Sponge.Lib.Exec
import Sponge.Sanity.Timer

/-! The retransmission timer over whole runs: when it runs, what it is set to, and what
a tick and an acknowledgment do to it. -/

namespace Sponge

open TCPSender

/-- The window of the last acknowledgment accepted in a run, `window` before the first. -/
def acceptedWindow : SenderRun → ℕ → List SenderOp → ℕ
  | _, window, [] => window
  | r, window, op :: ops => acceptedWindow (r.step op) (r.sender.windowAfter window op) ops

theorem acceptedWindow_eq (ops : List SenderOp) : ∀ r : SenderRun,
    Tiles r.accepted r.sent r.sender →
      acceptedWindow r r.sender.windowSize ops = (r.run ops).sender.windowSize := by
  induction ops with
  | nil => exact fun r _ => rfl
  | cons op ops ih =>
    intro r ht
    have hnext := ih (r.step op) (ht.step (SenderRun.step_spec ht op))
    rw [acceptedWindow, ← ht.run_window op]
    exact hnext

/-- The timer of a sender with initial timeout `T`, whose last accepted window is
`window`. -/
structure RetxTimer (T window : ℕ) (s : TCPSender) : Prop where
  running : s.timer.running = true ↔ s.segmentsUnackno ≠ []
  timeout : s.timer.curRTO = T * 2 ^ s.consecutiveRetransmissions
  elapsed : s.timer.running = true → s.timer.elapsedTime < s.timer.curRTO
  silent : ∀ ms < 2 ^ 63,
    ¬ (s.segmentsUnackno ≠ [] ∧ s.timer.curRTO ≤ s.timer.elapsedTime + ms) →
      (s.tick ms).segmentsOut = s.segmentsOut ∧
        (s.tick ms).consecutiveRetransmissions = s.consecutiveRetransmissions ∧
        (s.tick ms).timer.curRTO = s.timer.curRTO
  fires : ∀ ms < 2 ^ 63, ∀ oldest rest, s.segmentsUnackno = oldest :: rest →
    s.timer.curRTO ≤ s.timer.elapsedTime + ms →
      (s.tick ms).segmentsOut = s.segmentsOut ++ [oldest] ∧
        (window ≠ 0 → (s.tick ms).consecutiveRetransmissions = s.consecutiveRetransmissions + 1 ∧
          (s.tick ms).timer.curRTO = 2 * s.timer.curRTO) ∧
        (window = 0 → (s.tick ms).consecutiveRetransmissions = s.consecutiveRetransmissions ∧
          (s.tick ms).timer.curRTO = s.timer.curRTO)
  reset : ∀ op, s.Removes op →
    (op.run s).consecutiveRetransmissions = 0 ∧ (op.run s).timer.curRTO = T
  kept : ∀ op, ¬ s.Removes op → (∀ ms, op ≠ .tick ms) →
    (op.run s).consecutiveRetransmissions = s.consecutiveRetransmissions ∧
      (op.run s).timer.curRTO = s.timer.curRTO

theorem Backoff.retxTimer {accepted : List Byte} {first : List TCPSegment} {T : ℕ} {s : TCPSender}
    (hT : T < 2 ^ 16) (ht : Tiles accepted first s) (h : Backoff T s)
    (hcount : s.consecutiveRetransmissions ≤ 47) : RetxTimer T s.windowSize s := by
  refine ⟨h.running, h.cur, h.elapsed, fun ms hms hno => ?_, fun ms hms oldest rest hq hlate => ?_,
    fun op hop => ?_, fun op hop => ht.run_unreset hop⟩
  · rw [← h.expired_iff hT hcount hms] at hno
    rcases tick_cases s ms with ⟨-, htick⟩ | ⟨g, rest, -, hyes, -⟩
    · rw [htick]
      exact ⟨rfl, rfl, (s.timer.tick_rto ms).2⟩
    · exact absurd hyes hno
  · have hexpired := (h.expired_iff hT hcount hms).mpr ⟨by simp [hq], hlate⟩
    have hcur := h.cur_le hT hcount
    rcases tick_cases s ms with ⟨hno, -⟩ | ⟨g, rest', hq', -, htick⟩
    · simp [hq, hexpired] at hno
    rw [hq] at hq'
    cases hq'
    rw [htick]
    refine ⟨rfl, fun hw => ?_, fun hw => ?_⟩
    · simp only [if_pos (Nat.pos_of_ne_zero hw), Timer.start, Timer.resetDouble,
        (s.timer.tick_rto ms).2]
      exact ⟨trivial, by omega⟩
    · simp only [hw, lt_irrefl, if_false, Timer.start, (s.timer.tick_rto ms).2]
      exact ⟨trivial, trivial⟩
  · rw [← h.init]
    exact ht.run_reset hop

/-- After every operation of every run of a sender with a positive timeout, as long as
every tick is below 2^63 and no more than 47 retransmissions follow each other. -/
theorem retransmission_timer (capacity : ℕ) (T : UInt16) (hT : 0 < T.toNat) (isn : WrappingInt32)
    (ops : List SenderOp) (hticks : ∀ ms, .tick ms ∈ ops → ms < 2 ^ 63)
    (hcount : ∀ past, past <+: ops →
      ((SenderRun.new capacity T.toNat isn).run past).sender.consecutiveRetransmissions ≤ 47) :
    RetxTimer T.toNat (acceptedWindow (SenderRun.new capacity T.toNat isn) 1 ops)
      ((SenderRun.new capacity T.toNat isn).run ops).sender := by
  have hwindow := acceptedWindow_eq ops (SenderRun.new capacity T.toNat isn) (Tiles.new _ _ _)
  have hback : Tiles ((SenderRun.new capacity T.toNat isn).run ops).accepted
      ((SenderRun.new capacity T.toNat isn).run ops).sent
      ((SenderRun.new capacity T.toNat isn).run ops).sender ∧
      Backoff T.toNat ((SenderRun.new capacity T.toNat isn).run ops).sender := by
    refine foldl_inv
      (I := fun r : SenderRun => Tiles r.accepted r.sent r.sender ∧ Backoff T.toNat r.sender)
      (C := fun r op => r.sender.consecutiveRetransmissions ≤ 47 ∧ ∀ ms, op = .tick ms → ms < 2 ^ 63)
      ?_ ⟨Tiles.new _ _ _, Backoff.new _ _ _⟩ ops ?_
    · rintro r op ⟨ht, hb⟩ ⟨hle, hms⟩
      exact ⟨ht.step (SenderRun.step_spec ht op), hb.run hT T.toNat_lt ht hle hms⟩
    · intro past op hpast
      refine ⟨hcount past ((List.prefix_append _ _).trans hpast), fun ms hop => hticks ms ?_⟩
      exact hpast.subset (by simp [hop])
  have hfinal := hback.2.retxTimer T.toNat_lt hback.1 (hcount ops List.prefix_rfl)
  rw [← hwindow] at hfinal
  exact hfinal

/-- A SYN sent twice, then acknowledged with a closed window and probed. -/
theorem retransmission_timer_probe : RetxTimer 1000
    (acceptedWindow (SenderRun.new 10 1000 ⟨7⟩) 1 [.fillWindow, .tick 1000, .ackReceived ⟨8⟩ 0,
      .write [5], .fillWindow, .tick 1000])
    ((SenderRun.new 10 1000 ⟨7⟩).run [.fillWindow, .tick 1000, .ackReceived ⟨8⟩ 0,
      .write [5], .fillWindow, .tick 1000]).sender := by
  have hcount : ∀ past ∈ [SenderOp.fillWindow, .tick 1000, .ackReceived ⟨8⟩ 0, .write [5],
      .fillWindow, .tick 1000].inits,
      ((SenderRun.new 10 1000 ⟨7⟩).run past).sender.consecutiveRetransmissions ≤ 47 := by
    decide
  exact retransmission_timer 10 1000 (by decide) ⟨7⟩ _ (by simp)
    fun past hpast => hcount past ((List.mem_inits _ _).mpr hpast)

end Sponge
