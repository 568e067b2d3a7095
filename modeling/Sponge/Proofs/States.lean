import Sponge.Sanity.Advance
import Sponge.Sanity.Returns

/-! The named states of a connection are passed through in one direction. -/

namespace Sponge

theorem TCPState.Before.antisymm {a b : TCPState} (h : a.Before b) (h' : b.Before a) : a = b := by
  have hsender : a.sender = b.sender := by
    have := h.sender.antisymm h'.sender
    cases ha : a.sender <;> cases hb : b.sender <;> simp_all [TCPSenderStateSummary.rank]
  have hreceiver : a.receiver = b.receiver := by
    have := h.receiver.antisymm h'.receiver
    cases ha : a.receiver <;> cases hb : b.receiver <;> simp_all [TCPReceiverStateSummary.rank]
  have hactive : a.active = b.active := Bool.eq_iff_iff.mpr ⟨h'.active, h.active⟩
  have hlinger := Bool.eq_iff_iff.mpr ⟨h'.linger, h.linger⟩
  obtain ⟨as, ar, aa, al⟩ := a
  obtain ⟨bs, br, ba, bl⟩ := b
  simp_all

theorem Settled.inactive {c : TCPConnection} (h : Settled c) (hclosed : c.isActive = false) :
    c.state = .ofState .reset ∨ c.state = .ofState .closed := by
  rcases h.closed hclosed with hfailed | ⟨hsent, hrecv⟩
  · refine .inl ?_
    simp [TCPConnection.state, TCPState.ofState, hclosed, TCPSender.stateSummary,
      TCPReceiver.stateSummary, hfailed.1, hfailed.2]
  · refine .inr ?_
    simp [TCPConnection.state, TCPState.ofState, hclosed, hsent, hrecv]

/-- Whatever is called and whatever arrives: along a run of a connection neither summary ever
steps back, an inactive connection stays inactive, and one that does not linger does not start
to; so a state that has been left is not entered again. An inactive connection is in RESET or
in CLOSED. -/
theorem states_never_return (cfg : TCPConfig) (random : WrappingInt32)
    (first second third : List ConnectionOp) :
    ∃ a b c, exec TCPConnection.step (TCPConnection.new cfg random) first = .ok a ∧
      exec TCPConnection.step a second = .ok b ∧ exec TCPConnection.step b third = .ok c ∧
      a.state.Before b.state ∧ (c.state = a.state → b.state = a.state) ∧
      (b.isActive = false → b.state = .ofState .reset ∨ b.state = .ofState .closed) := by
  obtain ⟨a, ha⟩ := exec_returns TCPConnection.step_returns first (TCPConnection.new cfg random)
  obtain ⟨b, hb⟩ := exec_returns TCPConnection.step_returns second a
  obtain ⟨c, hc⟩ := exec_returns TCPConnection.step_returns third b
  obtain ⟨hsettled, -⟩ := (Settled.new cfg random).run ha
  obtain ⟨hsettled', hbefore⟩ := hsettled.run hb
  obtain ⟨-, hbefore'⟩ := hsettled'.run hc
  refine ⟨a, b, c, ha, hb, hc, hbefore, fun hsame => ?_, hsettled'.inactive⟩
  rw [hsame] at hbefore'
  exact hbefore'.antisymm hbefore

end Sponge
