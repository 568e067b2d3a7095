import Sponge.Sanity.Session

/-! Everything written to the output is a prefix of the stream, whatever order,
overlap and repetition the pushes have, and the output ends exactly with the
stream. -/

namespace Sponge

open Chunks StreamReassembler

/-- After every step of a session that pushes pieces of `S`: the output has been
given exactly `S[0..n)` with `n` the next index to assemble, the stored strings
are pieces of `S` past `n` that do not overlap, and the output has ended exactly
if it has all of `S` and a push has carried the end flag. A stream of `2^64 - 1`
bytes ends without one: its length is the value that stands for no known end. -/
theorem reassembly_safe (S : List Byte) (hS : S.length < 2 ^ 64) (capacity : ℕ)
    (hcap : capacity < 2 ^ 64) (ops : List SessionOp) (hops : ∀ op ∈ ops, op.From S) :
    ∃ s, exec Session.step (Session.new capacity) ops = .ok s ∧
      s.written = S.take s.reassembler.unassembledIndex ∧
      s.reassembler.unassembledIndex ≤ S.length ∧
      s.reassembler.output.bytesWritten = s.reassembler.unassembledIndex ∧
      (∀ c ∈ s.reassembler.unassembledBytes,
        c.2 = (S.drop c.1).take c.2.length ∧ s.reassembler.unassembledIndex < c.1) ∧
      s.reassembler.unassembledBytes.Pairwise (fun c d => c.1 < d.1 ∧ stop c ≤ d.1) ∧
      (s.reassembler.output.inputEnded = true ↔
        ((∃ op ∈ ops, op.carriesEof = true) ∨ S.length = 2 ^ 64 - 1) ∧
          s.reassembler.unassembledIndex = S.length) := by
  obtain ⟨s, hrun, h⟩ := exec_history (FromStream.step hS) ops [] (Session.new capacity)
    (FromStream.new S hcap) (Each.of_forall hops _)
  rw [List.nil_append] at h
  exact ⟨s, hrun, h.safe.content_eq h.inv, h.safe.index_le h.inv, h.inv.written,
    fun c hc => ⟨(h.safe.agrees c hc).eq_take, h.inv.after c hc⟩, h.inv.sep, h.ended_iff hS⟩

theorem reassembly_safe_run :
    ∃ s, exec Session.step (Session.new 4) [.push [2, 3] 1 true, .push [1, 2] 0 false] = .ok s ∧
      s.written = [1, 2, 3].take s.reassembler.unassembledIndex := by
  obtain ⟨s, hrun, hs, -⟩ := reassembly_safe [1, 2, 3] (by decide) 4 (by decide)
    [.push [2, 3] 1 true, .push [1, 2] 0 false] (by decide)
  exact ⟨s, hrun, hs⟩

/-- A stream of zeros in strings of `c` bytes, each read before the next one comes. -/
def inChunks (c k : ℕ) : List SessionOp :=
  (List.range k).flatMap fun j => [.push (List.replicate c 0) (j * c) false, .read c]

theorem inChunks_succ (c k : ℕ) : inChunks c (k + 1) =
    inChunks c k ++ [.push (List.replicate c 0) (k * c) false, .read c] := by
  simp [inChunks, List.range_succ, List.flatMap_append]

theorem inChunks_from {c k n : ℕ} (h : k * c ≤ n) :
    ∀ op ∈ inChunks c k, op.From (List.replicate n 0) ∧ op.carriesEof = false := by
  intro op hop
  obtain ⟨j, hj, hop⟩ := List.mem_flatMap.mp hop
  have hjk : (j + 1) * c ≤ k * c := Nat.mul_le_mul_right c (List.mem_range.mp hj)
  rw [Nat.succ_mul] at hjk
  simp only [List.mem_cons, List.not_mem_nil, or_false] at hop
  rcases hop with rfl | rfl
  · refine ⟨⟨?_, ?_, by simp⟩, rfl⟩
    · rw [List.length_replicate, List.length_replicate]
      omega
    · rw [List.drop_replicate, List.take_replicate, List.length_replicate]
      congr 1
      omega
  · exact ⟨trivial, rfl⟩

/-- Everything pushed so far has been written and read. -/
structure Fed (n m : ℕ) (s : Session) : Prop where
  index : s.reassembler.unassembledIndex = n
  read : s.reassembler.output.buffer = []
  map : s.reassembler.unassembledBytes = []
  cnt : s.reassembler.unassembledCnt = 0
  capacity : s.reassembler.capacity = m

theorem Fed.step {S : List Byte} (hS : S.length < 2 ^ 64) {ops : List SessionOp} {n c : ℕ}
    {s : Session} (h : FromStream S ops s) (hs : Fed n c s) {data : List Byte}
    (hlen : data.length = c) (hpos : 0 < c) (heof : s.reassembler.eofIndex = noEof)
    (hop : (SessionOp.push data n false).From S) :
    ∃ s', exec Session.step s [.push data n false, .read c] = .ok s' ∧
      FromStream S (ops ++ [.push data n false, .read c]) s' ∧ Fed (n + c) c s' := by
  have hb : n + data.length < 2 ^ 64 := lt_of_le_of_lt hop.1 hS
  have hread := h.inv.read_add_buffer
  rw [hs.read, List.length_nil, Nat.add_zero, hs.index] at hread
  have hwin : uadd s.reassembler.output.bytesRead s.reassembler.capacity = n + c := by
    rw [hread, hs.capacity, uadd_eq (by omega)]
  obtain ⟨t, ht, hst⟩ := Session.step_spec h.inv (hop.inRange hS)
  have hfrom := h.stepped hS hop hst
  obtain ⟨u, hu, hfrom'⟩ := FromStream.step hS _ t (.read c) hfrom trivial
  refine ⟨u, by simp only [exec, ht, ok_bind, hu], by simpa using hfrom', ?_⟩
  have hend : eofAfter s.reassembler data n false = noEof := by simp [eofAfter, heof]
  have hn : s.reassembler.unassembledIndex < noEof := by
    rw [hs.index, noEof]
    omega
  have hfresh : fresh s.reassembler data n = data := by
    simp [fresh, hs.index, hs.read, hs.cnt, hs.capacity, hlen]
  simp only [Session.step, ByteStream.read_eq_pop, Except.ok.injEq] at hu
  subst hu
  cases hst with
  | take _ hop => rcases hop with hop | hop <;> cases hop
  | push _ hp =>
    cases hp with
    | ended hle => omega
    | ignored _ hout => rw [hwin, hs.index] at hout; omega
    | stored _ hi => rw [hs.index] at hi; omega
    | shut _ hshut => exact absurd (h.safe.closed.mp hshut) (by omega)
    | wrote _ hopen _ _ _ new pre post hd =>
      have hnew : new = [] := hd.eq_nil (by simp [hs.map])
      have hsplit := hd.split
      rw [hs.map] at hsplit
      obtain ⟨-, rfl⟩ := List.append_eq_nil_iff.mp hsplit.symm
      have hcap := h.inv.capacityOutput
      have hfit : s.reassembler.output.buffer.length +
          (fresh s.reassembler data n ++ new).length ≤ s.reassembler.output.capacity := by
        rw [hnew, hfresh, hs.read, hcap, hs.capacity]
        simp [hlen]
      refine ⟨?_, ?_, rfl, ?_, hs.capacity⟩
      · simp [Session.withOutput, hnew, hfresh, hs.index, hlen]
      · simp only [Session.withOutput, ByteStream.popOutput, closed_buffer]
        rw [ByteStream.write_buffer_of_fits hopen hfit, hnew, hfresh, hs.read]
        simp [hlen]
      · simp [Session.withOutput, hs.cnt]

theorem exec_inChunks {c n : ℕ} (hpos : 0 < c) (hc : c < 2 ^ 64) (hn : n < 2 ^ 64) :
    ∀ k, k * c ≤ n → ∃ s, exec Session.step (Session.new c) (inChunks c k) = .ok s ∧
      FromStream (List.replicate n 0) (inChunks c k) s ∧ Fed (k * c) c s := by
  intro k
  induction k with
  | zero =>
    intro _
    rw [Nat.zero_mul]
    exact ⟨_, rfl, FromStream.new _ hc, ⟨rfl, rfl, rfl, rfl, rfl⟩⟩
  | succ k ih =>
    intro hk
    rw [Nat.succ_mul] at hk ⊢
    obtain ⟨s, hrun, h, hs⟩ := ih (by omega)
    have hmem := inChunks_from (c := c) (k := k + 1) (n := n) (by rw [Nat.succ_mul]; exact hk)
    rw [inChunks_succ] at hmem ⊢
    have heof : s.reassembler.eofIndex = noEof := by
      rw [h.eof, if_neg]
      rw [List.any_eq_true]
      rintro ⟨op, hop, he⟩
      simp [(hmem op (List.mem_append_left _ hop)).2] at he
    have hop := (hmem (.push (List.replicate c 0) (k * c) false) (by simp)).1
    obtain ⟨s', hrun', h', hs'⟩ := hs.step (by rwa [List.length_replicate]) h
      List.length_replicate hpos heof hop
    refine ⟨s', ?_, h', hs'⟩
    rw [exec_append, hrun, ok_bind, hrun']

/-- The zeros of a stream of `2^64 - 1` bytes, four gigabytes at a time: the output
ends although no push said so. -/
theorem ended_without_eof :
    ∃ s, (∀ op ∈ inChunks (2 ^ 32 - 1) (2 ^ 32 + 1),
        op.From (List.replicate (2 ^ 64 - 1) 0) ∧ op.carriesEof = false) ∧
      exec Session.step (Session.new (2 ^ 32 - 1)) (inChunks (2 ^ 32 - 1) (2 ^ 32 + 1)) = .ok s ∧
      s.reassembler.output.inputEnded = true := by
  have hsize : (2 ^ 32 + 1) * (2 ^ 32 - 1) = 2 ^ 64 - 1 := by norm_num
  obtain ⟨s, hrun, h, hs⟩ := exec_inChunks (c := 2 ^ 32 - 1) (n := 2 ^ 64 - 1) (by norm_num)
    (by norm_num) (by norm_num) (2 ^ 32 + 1) hsize.le
  refine ⟨s, inChunks_from hsize.le, hrun, (h.ended_iff ?_).mpr ⟨Or.inr List.length_replicate, ?_⟩⟩
  · rw [List.length_replicate]
    norm_num
  · rw [hs.index, hsize, List.length_replicate]

end Sponge
