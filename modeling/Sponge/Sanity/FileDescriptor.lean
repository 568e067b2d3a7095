import Sponge.Lib.Outcome
import Sponge.Spec.FileDescriptor

/-! Reads and writes of a descriptor, whatever the kernel answers: what they raise is the
kernel's doing, and what they count is what has gone through. -/

namespace Sponge

/-- A system call that failed, a polled descriptor in error, or an answer no kernel should give. -/
def Raised.FromKernel (e : Raised) : Prop :=
  (∃ attempt, e = .unixError attempt) ∨
  ∃ what ∈ ["EventLoop: error on polled file descriptor", "read() read more than requested",
    "write returned 0 given non-empty input buffer",
    "write wrote more than length of input buffer", "recvfrom (oversized datagram)"],
    e = .thrown (.runtimeError what)

theorem systemCall_outcome {β : Type} (attempt : String) (answer : Option β) :
    Outcome Raised.FromKernel (fun b => answer = some b) (systemCall attempt answer) := by
  cases answer with
  | none => exact .inl ⟨attempt, rfl⟩
  | some b => rfl

namespace BufferViewList

theorem removePrefix_spec {l : BufferViewList} {n : ℕ} (h : n ≤ l.size) :
    ∃ l', l.removePrefix n = .ok l' ∧ l'.flatten = l.flatten.drop n := by
  induction l generalizing n with
  | nil =>
    obtain rfl : n = 0 := Nat.le_zero.mp h
    exact ⟨[], rfl, rfl⟩
  | cons v l ih =>
    unfold removePrefix
    split_ifs with hzero hpart
    · exact ⟨v :: l, rfl, by simp [hzero]⟩
    · refine ⟨v.drop n :: l, rfl, ?_⟩
      rw [List.flatten_cons, List.flatten_cons, List.drop_append_of_le_length hpart.le]
    · simp only [size, List.map_cons, List.sum_cons] at h
      obtain ⟨l', hl', hrest⟩ := ih (n := n - v.length) (by simp only [size]; omega)
      refine ⟨l', hl', ?_⟩
      rw [hrest, List.flatten_cons, List.drop_append, List.drop_eq_nil_of_le (Nat.not_lt.mp hpart),
        List.nil_append]

end BufferViewList

namespace FDWrapper

theorem read_outcome (fd : FDWrapper) (limit : ℕ) (answer : Option Buffer) :
    Outcome Raised.FromKernel (fun r => answer = some r.1 ∧ r.1.length ≤ limit ∧
      r.2.readCount = fd.readCount + 1 ∧ r.2.writeCount = fd.writeCount ∧
      r.2.closed = fd.closed ∧ (fd.eof = true → r.2.eof = true)) (fd.read limit answer) := by
  refine (systemCall_outcome _ answer).bind fun bytes hbytes => ?_
  refine Outcome.ite (fun _ => .inr ⟨_, by simp, rfl⟩) fun hlen => ⟨hbytes, ?_, ?_⟩
  · have hmin : min BUFFER_SIZE limit ≤ limit := Nat.min_le_right _ _
    simp only
    omega
  · split_ifs <;> simp [registerRead]

theorem read_bytes {fd fd' : FDWrapper} {limit : ℕ} {answer : Option Buffer} {bytes : Buffer}
    (h : fd.read limit answer = .ok (bytes, fd')) : answer = some bytes := by
  obtain ⟨b, hb, hret⟩ := bind_eq_ok h
  have hanswer := (systemCall_outcome "read" answer).of_ok hb
  dsimp only at hret
  split at hret
  · cases hret
  · cases hret
    exact hanswer

theorem shutdownWrite_outcome (fd : FDWrapper) (answer : Option Unit) :
    Outcome Raised.FromKernel (fun fd' => fd' = fd.registerWrite) (fd.shutdownWrite answer) :=
  (systemCall_outcome _ answer).bind fun _ _ => rfl

end FDWrapper

namespace Writing

/-- The kernel has taken `n` more bytes off the front of the buffer. -/
structure Took (w : Writing) (n : ℕ) (w' : Writing) : Prop where
  fits : n ≤ w.buffer.size
  some : n = 0 → w.buffer.size = 0
  fd : w'.fd = w.fd.registerWrite
  rest : w'.buffer.flatten = w.buffer.flatten.drop n
  total : w'.totalBytesWritten = w.totalBytesWritten + n
  taken : w'.taken = w.taken ++ w.buffer.flatten.take n

theorem writev_outcome (w : Writing) (answer : Option ℕ) :
    Outcome Raised.FromKernel (fun w' => ∃ n, answer = some n ∧ Took w n w') (w.writev answer) := by
  refine (systemCall_outcome _ answer).bind fun n hn => ?_
  refine Outcome.ite (fun _ => .inr ⟨_, by simp, rfl⟩) fun hsome => ?_
  refine Outcome.ite (fun _ => .inr ⟨_, by simp, rfl⟩) fun hfits => ?_
  obtain ⟨l, hl, hrest⟩ := BufferViewList.removePrefix_spec (Nat.not_lt.mp hfits)
  rw [hl]
  exact ⟨n, hn, Nat.not_lt.mp hfits, fun h0 => by_contra fun h => hsome ⟨h0, h⟩, rfl, hrest, rfl,
    rfl⟩

end Writing

/-- A write that is not repeated: the pipe takes a part of the buffer, and none only of an empty
one. -/
theorem FDWrapper.writeSome_outcome (fd : FDWrapper) (buffer : Buffer) (answer : Option ℕ) :
    Outcome Raised.FromKernel (fun w => w.fd = fd.registerWrite ∧
      w.totalBytesWritten ≤ buffer.length ∧ w.taken = buffer.take w.totalBytesWritten)
      (fd.writeSome buffer answer) := by
  refine (Writing.writev_outcome _ answer).mono ?_
  rintro w ⟨n, -, htook⟩
  have htotal : w.totalBytesWritten = n := by simpa using htook.total
  refine ⟨htook.fd, ?_, ?_⟩
  · simpa [htotal, BufferViewList.size] using htook.fits
  · simpa [htotal] using htook.taken

end Sponge
