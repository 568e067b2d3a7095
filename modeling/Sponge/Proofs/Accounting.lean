import Sponge.Sanity.Account

/-! When the counter of unassembled bytes is right. A push that starts exactly at
the end of the window is not refused: it stores an empty string there. Once the
window has moved on, a push at that key is counted and then not inserted. Runs
without a push at the edge keep every count, and only those do. -/

namespace Sponge

open Chunks StreamReassembler

/-- In every session, whatever is pushed, no call faults, and the accounts are
right in every state reached exactly if no push starts at the edge of the window. -/
theorem accounting_iff_no_edge (capacity : ℕ) (hcap : capacity < 2 ^ 64) (ops : List SessionOp)
    (hops : ∀ op ∈ ops, op.InRange) :
    (∃ s, exec Session.step (Session.new capacity) ops = .ok s) ∧
    (Always Session.step (fun s => Accounting s.reassembler) (Session.new capacity) ops ↔
      Each Session.step (SessionOp.AtPush fun r data index eof => ¬ Edge r data index eof)
        (Session.new capacity) ops) := by
  have hV : Each Session.step (fun _ op => op.InRange) (Session.new capacity) ops :=
    Each.of_forall hops _
  constructor
  · obtain ⟨s, hs, -⟩ := exec_inv Inv.step (Inv.new hcap) hV
    exact ⟨s, hs⟩
  · refine always_iff_each (I := fun s : Session => Inv s.reassembler) (fun s op h ha hop => ?_)
      (Inv.new hcap) (Accounting.new capacity) hV
    obtain ⟨s', hrun, hst⟩ := Session.step_spec h hop
    refine ⟨s', hrun, h.stepped hst, ?_⟩
    cases hst with
    | push hb hp => exact accounting_pushed h ha hb hp
    | take n hn =>
      refine iff_of_true { ha with } ?_
      rcases hn with rfl | rfl <;> trivial

theorem accounting_iff_no_edge_run :
    Always Session.step (fun s => Accounting s.reassembler) (Session.new 4)
      [.push [3] 2 false, .push [1, 2] 0 false, .read 3, .push [6] 5 true] :=
  (accounting_iff_no_edge 4 (by decide)
    [.push [3] 2 false, .push [1, 2] 0 false, .read 3, .push [6] 5 true] (by decide)).2.mpr
    (by decide)

/-- Capacity 2: a byte at the edge leaves an empty string in the map. -/
theorem accounting_fails_at_edge :
    ∃ s, exec Session.step (Session.new 2) [.push [3] 2 false] = .ok s ∧
      ¬ Accounting s.reassembler := by
  refine ⟨_, rfl, fun h => ?_⟩
  exact h.nonempty (2, []) (by decide) rfl

end Sponge
