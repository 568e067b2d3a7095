import Sponge.Sanity.ByteStream
import Sponge.Spec.StreamReassembler

/-! The loop of `push_substring` that moves entries of the map to the output: what
it writes continues the output, and no entry is left that could continue it. -/

namespace Sponge

open Chunks StreamReassembler

/-- A write of the contiguous bytes `new` that takes the entries `pre` out of the map. -/
structure Drained (index : ℕ) (map : List (ℕ × List Byte)) (new : List Byte)
    (pre post : List (ℕ × List Byte)) : Prop where
  split : map = pre ++ post
  next : ∀ c ∈ post, index + new.length < c.1
  size : new.length ≤ total pre
  covers : ∀ i, (i < index + new.length ∨ i ∈ cover post) ↔ (i < index ∨ i ∈ cover map)
  agrees : ∀ S, (∀ c ∈ map, Agrees S c.1 c.2) → Agrees S index new

theorem drain_stop (md : Overflow) (output : ByteStream) (index cnt : ℕ)
    (map : List (ℕ × List Byte)) (h : ∀ c ∈ map, index < c.1) :
    drain md output index cnt map = .ok (output, index, cnt, map) := by
  cases map with
  | nil => rfl
  | cons c rest =>
    have := h c (by simp)
    simp only [drain, if_neg (show ¬ c.1 ≤ index by omega)]

theorem Drained.stop_here {index : ℕ} {map : List (ℕ × List Byte)} (h : ∀ c ∈ map, index < c.1) :
    Drained index map [] [] map where
  split := rfl
  next := h
  size := by simp
  covers i := by simp
  agrees S _ := Agrees.nil S index

theorem Drained.skip {index : ℕ} {map : List (ℕ × List Byte)} {new : List Byte}
    {pre post : List (ℕ × List Byte)} {c : ℕ × List Byte} (h : Drained index map new pre post)
    (hc : stop c ≤ index) : Drained index (c :: map) new (c :: pre) post where
  split := by rw [h.split, List.cons_append]
  next := h.next
  size := by
    have := h.size
    rw [total_cons]
    omega
  covers i := by
    rw [h.covers i, cover_cons, Finset.mem_union, Finset.mem_Ico]
    by_cases hi : i ∈ cover map
    · simp [hi]
    · simp only [hi, or_false]
      omega
  agrees S hS := h.agrees S fun d hd => hS d (by simp [hd])

theorem Drained.write {index : ℕ} {map : List (ℕ × List Byte)} {new : List Byte}
    {pre post : List (ℕ × List Byte)} {c : ℕ × List Byte} (h : Drained (stop c) map new pre post)
    (h1 : c.1 ≤ index) (h2 : index < stop c) :
    Drained index (c :: map) (c.2.drop (index - c.1) ++ new) (c :: pre) post := by
  have hend : index + (c.2.drop (index - c.1)).length = stop c := by
    simp only [stop] at h2 ⊢
    rw [List.length_drop]
    omega
  have hlen : index + (c.2.drop (index - c.1) ++ new).length = stop c + new.length := by
    rw [List.length_append, ← Nat.add_assoc, hend]
  refine ⟨by rw [h.split, List.cons_append], ?_, ?_, ?_, ?_⟩
  · rw [hlen]
    exact h.next
  · have := h.size
    simp only [List.length_append, List.length_drop, total_cons]
    omega
  · intro i
    rw [hlen, h.covers i, cover_cons, Finset.mem_union, Finset.mem_Ico]
    by_cases hi : i ∈ cover map
    · simp [hi]
    · simp only [hi, or_false]
      omega
  · intro S hS
    have hs := (hS c (by simp)).drop (index - c.1)
    rw [show c.1 + (index - c.1) = index by omega] at hs
    apply hs.append
    rw [hend]
    exact h.agrees S fun d hd => hS d (by simp [hd])

theorem drain_write (md : Overflow) {output : ByteStream} {index cnt k : ℕ} {s : List Byte}
    (rest : List (ℕ × List Byte)) (he : output.inputEnded = false) (hk : k ≤ index)
    (hnew : index < k + s.length) (hks : k + s.length < 2 ^ 64) (hcnt : s.length ≤ cnt)
    (hfit : output.buffer.length + (s.drop (index - k)).length ≤ output.capacity) :
    drain md output index cnt ((k, s) :: rest) =
      drain md (output.write (s.drop (index - k))).1 (k + s.length) (cnt - s.length) rest := by
  have hend : index + (s.drop (index - k)).length = k + s.length := by
    rw [List.length_drop]
    omega
  simp only [drain, if_pos hk, uadd_eq hks, if_pos hnew, usub_eq md hk, ok_bind,
    substr_eq _ (show index - k ≤ s.length by omega),
    List.take_of_length_le (show (s.drop (index - k)).length ≤ s.length by simp),
    ByteStream.write_snd_of_fits he hfit, usub_eq md hcnt, hend]

theorem drain_skip (md : Overflow) (output : ByteStream) {index cnt k : ℕ} {s : List Byte}
    (rest : List (ℕ × List Byte)) (hold : k + s.length ≤ index) (hks : k + s.length < 2 ^ 64)
    (hcnt : s.length ≤ cnt) : drain md output index cnt ((k, s) :: rest) =
      drain md output index (cnt - s.length) rest := by
  simp only [drain, if_pos (show k ≤ index by omega), uadd_eq hks,
    if_neg (show ¬ k + s.length > index by omega), usub_eq md hcnt, ok_bind]

/-- The loop after a direct write: it writes the entries that continue the output,
and each fits because the map was counted against the capacity. -/
theorem drain_spec (md : Overflow) (map : List (ℕ × List Byte)) (hsep : Sep map)
    (hlt : ∀ c ∈ map, stop c < 2 ^ 64) :
    ∀ (output : ByteStream) (index cnt : ℕ), output.inputEnded = false → total map ≤ cnt →
      output.buffer.length + cnt ≤ output.capacity →
      ∃ new pre post, Drained index map new pre post ∧
        drain md output index cnt map =
          .ok ((output.write new).1, index + new.length, cnt - total pre, post) := by
  induction map with
  | nil =>
    intro output index cnt _ _ _
    exact ⟨[], [], [], Drained.stop_here (by simp), by simp [drain, ByteStream.write_nil]⟩
  | cons c rest ih =>
    intro output index cnt he hcnt hroom
    obtain ⟨k, s⟩ := c
    obtain ⟨hbefore, hsep'⟩ := List.pairwise_cons.mp hsep
    have hks : k + s.length < 2 ^ 64 := hlt (k, s) (by simp)
    have ih' := ih hsep' fun c hc => hlt c (by simp [hc])
    simp only [total_cons] at hcnt
    by_cases hk : k ≤ index
    · by_cases hnew : index < k + s.length
      · have hend : index + (s.drop (index - k)).length = k + s.length := by
          rw [List.length_drop]
          omega
        have hfit : output.buffer.length + (s.drop (index - k)).length ≤ output.capacity := by
          omega
        obtain ⟨new, pre, post, hd, hrun⟩ := ih' (output.write (s.drop (index - k))).1
          (k + s.length) (cnt - s.length) (by simp [he]) (by omega) (by
            rw [ByteStream.write_buffer_of_fits he hfit, ByteStream.write_capacity,
              List.length_append]
            omega)
        have hsize := hd.size
        have hpre : total pre ≤ total rest := by
          rw [hd.split, total_append]
          exact Nat.le_add_right _ _
        refine ⟨_, _, post, Drained.write (c := (k, s)) hd hk hnew, ?_⟩
        rw [drain_write md rest he hk hnew hks (by omega) hfit, hrun,
          ByteStream.write_write he (by omega), List.length_append, total_cons, ← Nat.add_assoc,
          hend, Nat.sub_sub]
      · have hold := Nat.not_lt.mp hnew
        obtain ⟨new, pre, post, hd, hrun⟩ := ih' output index (cnt - s.length) he (by omega)
          (by omega)
        refine ⟨new, _, post, hd.skip (c := (k, s)) hold, ?_⟩
        rw [drain_skip md output rest hold hks (by omega), hrun, total_cons, Nat.sub_sub]
    · have hall : ∀ c ∈ (k, s) :: rest, index < c.1 := by
        intro c hc
        rcases List.mem_cons.mp hc with rfl | hc
        · exact Nat.not_le.mp hk
        · exact (Nat.not_le.mp hk).trans (hbefore c hc).1
      refine ⟨[], [], (k, s) :: rest, Drained.stop_here hall, ?_⟩
      rw [drain_stop md output index cnt _ hall]
      simp [ByteStream.write_nil]

end Sponge
