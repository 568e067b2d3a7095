import Sponge.Sanity.Retain

/-! The reassembler against the set of indices it was offered inside its window.
A session that drops nothing holds exactly that set, so its output is the longest
prefix of it. A push that reaches the output is charged for the bytes already
stored, even those it brings itself, and can lose its end that way. -/

namespace Sponge

open Chunks StreamReassembler

/-- The event is a push that covers `i` while `i` is inside the window. -/
def SessionOp.Offers (i : ℕ) (s : Session) : SessionOp → Prop
  | .push data index _ => Covers s.reassembler data index i
  | _ => False

instance (i : ℕ) (s : Session) : (op : SessionOp) → Decidable (op.Offers i s)
  | .push _ _ _ => inferInstanceAs (Decidable (_ ∧ _ ∧ _))
  | .read _ => inferInstanceAs (Decidable False)
  | .pop _ => inferInstanceAs (Decidable False)

/-- The index was offered at some point of the session. -/
def Accepted (capacity : ℕ) (ops : List SessionOp) (i : ℕ) : Prop :=
  Once Session.step (SessionOp.Offers i) (Session.new capacity) ops

instance (capacity : ℕ) (ops : List SessionOp) (i : ℕ) : Decidable (Accepted capacity ops i) :=
  inferInstanceAs (Decidable (Once _ _ _ _))

theorem not_held_new (capacity i : ℕ) : ¬ Held (StreamReassembler.new capacity) i := by
  simp [Held, StreamReassembler.new]

theorem held_step {S : List Byte} (hS : S.length < 2 ^ 64) (s : Session) (op : SessionOp)
    (h : ∃ ops, Counted S ops s) (hop : op.From S ∧ op.AtPush LossFree s) :
    ∃ s', s.step op = .ok s' ∧ (∃ ops, Counted S ops s') ∧
      ∀ i, Held s'.reassembler i ↔ Held s.reassembler i ∨ op.Offers i s := by
  obtain ⟨ops, h⟩ := h
  obtain ⟨hfrom, hfree⟩ := hop
  obtain ⟨s', hrun, hst⟩ := Session.step_spec h.inv (hfrom.inRange hS)
  have hfs := h.toFromStream.stepped hS hfrom hst
  cases hst with
  | push hb hp =>
    refine ⟨_, hrun, ⟨_, hfs, h.exact.pushed h.inv hfree.not_clash hp⟩, fun i => ?_⟩
    refine held_pushed h.inv h.exact hfree (fun hend j hj => ?_) (h.shut hS hb hfrom.2.2) hp i
    exact lt_of_lt_of_le hj.2.1 (h.stop_le hb hfrom hend)
  | take n hn =>
    refine ⟨_, hrun, ⟨_, hfs, h.exact⟩, fun i => ?_⟩
    rcases hn with rfl | rfl <;> exact (or_false _).symm ▸ Iff.rfl

/-- In every session of pushes from one stream that drops nothing, the number of
bytes written is the length of the longest prefix of accepted indices. -/
theorem written_eq_accepted_prefix (S : List Byte) (capacity : ℕ) (hcap : capacity < 2 ^ 64)
    (ops : List SessionOp) (hops : ∀ op ∈ ops, op.From S ∧ op.InRange)
    (hfree : Each Session.step (SessionOp.AtPush LossFree) (Session.new capacity) ops) :
    ∃ s, exec Session.step (Session.new capacity) ops = .ok s ∧
      (∀ i < s.reassembler.output.bytesWritten, Accepted capacity ops i) ∧
      ¬ Accepted capacity ops s.reassembler.output.bytesWritten := by
  have hfrom : Each Session.step (fun _ op => op.From (S.take (2 ^ 64 - 1))) (Session.new capacity)
      ops := Each.of_forall (fun op hop => (hops op hop).1.clip (hops op hop).2) _
  obtain ⟨s, hrun, ⟨past, h⟩, hheld⟩ := exec_once (held_step (length_clip S))
    ⟨[], Counted.new _ hcap⟩ (hfrom.and hfree)
  have hacc : ∀ i, Held s.reassembler i ↔ Accepted capacity ops i := fun i => by
    rw [hheld i]
    exact or_iff_right (not_held_new capacity i)
  refine ⟨s, hrun, fun i hi => (hacc i).mp ?_, fun hi => ?_⟩
  · rw [h.inv.written] at hi
    exact Or.inl hi
  · rw [h.inv.written, ← hacc] at hi
    exact h.inv.not_held_next hi

theorem written_eq_accepted_prefix_run :
    ∃ s, exec Session.step (Session.new 4) [.push [3] 2 false, .push [1, 2] 0 false, .read 2,
        .push [4, 5, 6] 3 true] = .ok s ∧
      ¬ Accepted 4 [.push [3] 2 false, .push [1, 2] 0 false, .read 2, .push [4, 5, 6] 3 true]
        s.reassembler.output.bytesWritten := by
  obtain ⟨s, hrun, -, h⟩ := written_eq_accepted_prefix [1, 2, 3, 4, 5, 6] 4 (by decide)
    [.push [3] 2 false, .push [1, 2] 0 false, .read 2, .push [4, 5, 6] 3 true] (by decide)
    (by decide)
  exact ⟨s, hrun, h⟩

/-- Capacity 4: the second push brings all four bytes inside the window, two of
them stored already; only two fit what is left, and the last one is dropped. -/
theorem accepted_byte_dropped :
    (∀ op ∈ [SessionOp.push [2, 3] 1 false, .push [1, 2, 3, 4] 0 false],
      op.From [1, 2, 3, 4] ∧ op.InRange) ∧
    (∀ i < 4, Accepted 4 [.push [2, 3] 1 false, .push [1, 2, 3, 4] 0 false] i) ∧
    ∃ s, exec Session.step (Session.new 4) [.push [2, 3] 1 false, .push [1, 2, 3, 4] 0 false] = .ok s ∧
      s.reassembler.output.bytesWritten = 3 :=
  ⟨by decide, by decide, _, rfl, by decide⟩

end Sponge
