import Sponge.Sanity.Session

/-! The memory bound, and the unsigned subtractions. The stored and buffered
bytes never exceed the capacity. The subtractions of `push_substring` are all
exact until `bytes_read() + capacity` passes 2^64: then the end of the window
wraps below the next index, and a push that still gets past the window test
subtracts the larger from the smaller. -/

namespace Sponge

open Chunks StreamReassembler

/-- What is stored is counted, and what is counted fits. -/
def Bounded (r : StreamReassembler) : Prop :=
  total r.unassembledBytes ≤ r.unassembledSize ∧
    r.output.bufferSize + r.unassembledSize ≤ r.capacity

/-- The push runs to its end in the build that traps wrapping subtractions, and
without a string position out of range. -/
def NoWrap (r : StreamReassembler) (data : List Byte) (index : ℕ) (eof : Bool) : Prop :=
  (pushSubstring .trap r data index eof).isOk = true

/-- The window end has wrapped, and the push gets past both early returns. -/
def PastWrap (r : StreamReassembler) (data : List Byte) (index : ℕ) (eof : Bool) : Prop :=
  2 ^ 64 ≤ r.output.bytesRead + r.capacity ∧ r.unassembledIndex < eofAfter r data index eof ∧
    r.unassembledIndex ≤ index + data.length ∧ index ≤ uadd r.output.bytesRead r.capacity

instance (r : StreamReassembler) (data : List Byte) (index : ℕ) (eof : Bool) :
    Decidable (NoWrap r data index eof) := inferInstanceAs (Decidable (_ = true))

instance (r : StreamReassembler) (data : List Byte) (index : ℕ) (eof : Bool) :
    Decidable (PastWrap r data index eof) := inferInstanceAs (Decidable (_ ∧ _ ∧ _ ∧ _))

theorem Inv.bounded {r : StreamReassembler} (h : Inv r) : Bounded r := ⟨h.stored, h.room⟩

theorem writeDirect_trap {r : StreamReassembler} {data : List Byte} {index : ℕ}
    (h1 : index ≤ r.unassembledIndex) (h2 : r.unacceptedIndex < r.unassembledIndex) :
    writeDirect .trap r data index = .error .underflow := by
  have hlow : min (uadd index data.length) r.unacceptedIndex < r.unassembledIndex :=
    lt_of_le_of_lt (Nat.min_le_right _ _) h2
  simp only [writeDirect, usub_eq .trap h1, usub_trap hlow, ok_bind]
  rfl

theorem noWrap_iff {r : StreamReassembler} (h : Inv r) (data : List Byte) (index : ℕ) (eof : Bool)
    (hb : index + data.length < 2 ^ 64) :
    NoWrap r data index eof ↔ ¬ PastWrap r data index eof := by
  by_cases hlt : r.output.bytesRead + r.capacity < 2 ^ 64
  · obtain ⟨r', d, hrun, -⟩ := pushSubstring_spec .trap h data index eof hb (Or.inr hlt)
    refine iff_of_true ?_ fun hp => absurd hp.1 (Nat.not_le.mpr hlt)
    unfold NoWrap
    rw [hrun]
    rfl
  push Not at hlt
  have hread := h.read_add_buffer
  have hlow : uadd r.output.bytesRead r.capacity < r.unassembledIndex := by
    rcases h.uadd_window with hw | ⟨-, -, hlow⟩
    · have := uadd_lt r.output.bytesRead r.capacity
      omega
    · omega
  unfold NoWrap
  rw [pushSubstring_head .trap r data index eof, uadd_eq hb]
  by_cases hend : eofAfter r data index eof ≤ r.unassembledIndex
  · rw [if_pos hend]
    apply iff_of_true rfl
    rintro ⟨-, h2, -⟩
    omega
  rw [if_neg hend]
  by_cases hout : index + data.length < r.unassembledIndex ∨
      uadd r.output.bytesRead r.capacity < index
  · rw [if_pos hout]
    apply iff_of_true rfl
    rintro ⟨-, -, h3, h4⟩
    omega
  rw [if_neg hout]
  push Not at hend hout
  have hi : ¬ r.unassembledIndex < index := by omega
  rw [if_neg hi, writeDirect_trap (r := noted r data index eof) (Nat.not_lt.mp hi) hlow]
  refine iff_of_false ?_ fun hp => hp ⟨hlt, hend, hout.1, hout.2⟩
  simp [bind, Except.bind, Except.isOk, Except.toBool]

/-- In every session, whatever bytes, indices and end flags are pushed, no call
faults, and in every state reached the stored bytes are at most the counted ones
and these fit the capacity beside the buffer. No subtraction of the session wraps
exactly if no push gets past the window test after the window end has wrapped. -/
theorem bounded_and_noWrap_iff (capacity : ℕ) (hcap : capacity < 2 ^ 64) (ops : List SessionOp)
    (hops : ∀ op ∈ ops, op.InRange) :
    (∃ s, exec Session.step (Session.new capacity) ops = .ok s) ∧
    ((Always Session.step (fun s => Bounded s.reassembler) (Session.new capacity) ops ∧
        Each Session.step (SessionOp.AtPush NoWrap) (Session.new capacity) ops) ↔
      Each Session.step (SessionOp.AtPush fun r data index eof => ¬ PastWrap r data index eof)
        (Session.new capacity) ops) := by
  have hV : Each Session.step (fun _ op => op.InRange) (Session.new capacity) ops :=
    Each.of_forall hops _
  have hinv : Each Session.step (fun s _ => Inv s.reassembler) (Session.new capacity) ops :=
    Each.of_inv Inv.step (Inv.new hcap) hV
  obtain ⟨s, hs, -⟩ := exec_inv Inv.step (Inv.new hcap) hV
  refine ⟨⟨s, hs⟩, ?_⟩
  have hbounded : Always Session.step (fun s => Bounded s.reassembler) (Session.new capacity) ops :=
    Always.of_inv Inv.step (fun _ h => h.bounded) (Inv.new hcap) hV
  rw [and_iff_right hbounded]
  refine Each.congr ?_ (hinv.and hV)
  rintro s (⟨data, index, eof⟩ | n | n) ⟨h, hop⟩
  · exact noWrap_iff h data index eof hop
  · exact Iff.rfl
  · exact Iff.rfl

theorem bounded_and_noWrap_run :
    Each Session.step (SessionOp.AtPush NoWrap) (Session.new 4)
      [.push [3, 9] 2 false, .push [1, 2, 7] 0 true, .read 2, .push [5] 6 false] :=
  ((bounded_and_noWrap_iff 4 (by decide)
    [.push [3, 9] 2 false, .push [1, 2, 7] 0 true, .read 2, .push [5] 6 false] (by decide)).2.mpr
    (by decide)).2

/-- At the largest capacity, reading one byte wraps the end of the window to 0;
the push after it subtracts 1 from 0. -/
theorem window_end_wraps :
    ¬ Each Session.step (SessionOp.AtPush NoWrap) (Session.new (2 ^ 64 - 1))
      [.push [1] 0 false, .read 1, .push [1, 2] 0 false] := by
  decide

end Sponge
