import Sponge.Sanity.Push

/-! A push keeps the window invariant, whatever bytes, index and end flag it
carries, as long as its own end does not pass 2^64. -/

namespace Sponge

open Chunks StreamReassembler

/-- After joining, the key to insert at is free unless the map held an empty
string at the very index pushed. -/
theorem Joined.key_mem {index ed : ℕ} {data : List Byte} {map : List (ℕ × List Byte)} {out : Merge}
    (hj : Joined index ed data map out) (hsep : Sep map) (hsub : out.map.Sublist map)
    {c : ℕ × List Byte} (hc : c ∈ out.map) (hk : c.1 = out.index) :
    out.index = index ∧ (index, []) ∈ map := by
  have hpos : 0 < out.data.length := List.length_pos_iff.mpr hj.ne
  have hempty : c.2 = [] := by
    rcases hj.apart c hc with h | h
    · apply List.length_eq_zero_iff.mp
      simp only [stop] at h
      omega
    · omega
  have hcm : c ∈ map := hsub.subset hc
  have hix : out.index = index := by
    rcases hj.leftEnd with h | ⟨d, hd, h1, h2⟩
    · exact h
    · have hcd := hsep.eq_of_key hcm hd (by omega)
      subst hcd
      have h3 := hj.left
      simp only [stop, hempty, List.length_nil] at h2
      omega
  refine ⟨hix, ?_⟩
  rwa [← hix, ← hk, show (c.1, []) = c by rw [← hempty]]

theorem Joined.index_gt {index ed lo : ℕ} {data : List Byte} {map : List (ℕ × List Byte)}
    {out : Merge} (hj : Joined index ed data map out) (hi : lo < index)
    (hmap : ∀ c ∈ map, lo < c.1) : lo < out.index := by
  rcases hj.leftEnd with h | ⟨c, hc, h, -⟩
  · omega
  · rw [← h]
    exact hmap c hc

theorem insert_sep {index ed n : ℕ} {data : List Byte} {map : List (ℕ × List Byte)} {out : Merge}
    (hj : Joined index ed data map out) (hsep : Sep map) (hsub : out.map.Sublist map) :
    Sep (Chunks.insert out.index (out.data.take n) out.map) := by
  by_cases hk : ∃ c ∈ out.map, c.1 = out.index
  · rw [insert_of_mem (hsep.sublist hsub) hk]
    exact hsep.sublist hsub
  · push Not at hk
    refine (hsep.sublist hsub).insert hk fun c hc => ?_
    have hle : (out.data.take n).length ≤ out.data.length := by simp
    rcases hj.apart c hc with h | h
    · exact Or.inl h
    · exact Or.inr (by omega)

theorem Inv.stored_push {r r' : StreamReassembler} (h : Inv r) {data : List Byte} {index : ℕ}
    (hi : r.unassembledIndex < index) (hlt : r.output.bytesRead + r.capacity < 2 ^ 64)
    (hle : index ≤ r.output.bytesRead + r.capacity) (hs : Stored r data index r') : Inv r' := by
  cases hs with
  | held => exact h
  | inserted out n _ hm hj hn =>
    have hcnt := hm.cnt_le
    have hroom := h.room
    have hleft := hj.left
    have hgt := hj.index_gt hi h.after
    have hlen : (out.data.take n).length ≤ n := by simp
    have hwin : ∀ c ∈ Chunks.insert out.index (out.data.take n) out.map,
        r.unassembledIndex < c.1 ∧ stop c ≤ r.output.bytesRead + r.capacity := by
      intro c hc
      rcases mem_insert hc with rfl | hc
      · refine ⟨hgt, ?_⟩
        simp only [stop_mk]
        omega
      · exact ⟨h.after c (hm.sub.subset hc), h.window c (hm.sub.subset hc)⟩
    refine ⟨h.capacityOutput, h.capacityLt, h.written, h.indexLt, insert_sep hj h.sep hm.sub,
      fun c hc => (hwin c hc).1, fun c hc => (hwin c hc).2,
      fun c hc => lt_of_le_of_lt (hwin c hc).2 hlt, ?_, ?_⟩
    · have h1 := total_insert_le out.index (out.data.take n) out.map
      have h2 := hm.cnt
      have h3 := h.stored
      simp only
      omega
    · simp only
      omega

theorem fresh_length_le_data (r : StreamReassembler) (data : List Byte) (index : ℕ) :
    (fresh r data index).length ≤ data.length - (r.unassembledIndex - index) := by
  simp only [fresh, List.length_take, List.length_drop]
  exact Nat.min_le_right _ _

theorem Drained.pre_le {index : ℕ} {map : List (ℕ × List Byte)} {new : List Byte}
    {pre post : List (ℕ × List Byte)} (h : Drained index map new pre post) :
    total pre + total post = total map := by
  rw [h.split, total_append]

/-- The written bytes fit the output, since the map was counted against its capacity. -/
theorem Inv.wrote_fits {r : StreamReassembler} (h : Inv r) {data new : List Byte} {index : ℕ}
    {pre post : List (ℕ × List Byte)}
    (hd : Drained (r.unassembledIndex + (fresh r data index).length) r.unassembledBytes new
      pre post) :
    r.output.buffer.length + (fresh r data index ++ new).length +
      (r.unassembledCnt - total pre) ≤ r.capacity := by
  have h1 := fresh_length_le r data index
  have h2 := hd.size
  have h3 := hd.pre_le
  have h4 := h.room
  have h5 := h.stored
  rw [List.length_append]
  omega

theorem Drained.index_lt {index b : ℕ} {map : List (ℕ × List Byte)} {new : List Byte}
    {pre post : List (ℕ × List Byte)} (h : Drained index map new pre post) (hi : index < b)
    (hmap : ∀ c ∈ map, stop c < b) : index + new.length < b := by
  by_cases h0 : new.length = 0
  · omega
  · rcases (h.covers (index + new.length - 1)).mp (Or.inl (by omega)) with h1 | h1
    · omega
    · obtain ⟨c, hc, -, h3⟩ := mem_cover.mp h1
      have := hmap c hc
      omega

theorem Drained.eq_nil {index : ℕ} {map : List (ℕ × List Byte)} {new : List Byte}
    {pre post : List (ℕ × List Byte)} (h : Drained index map new pre post)
    (hmap : ∀ c ∈ map, index < c.1) : new = [] := by
  by_contra hne
  have hpos : 0 < new.length := List.length_pos_iff.mpr hne
  rcases (h.covers index).mp (Or.inl (by omega)) with h1 | h1
  · omega
  · obtain ⟨c, hc, h2, -⟩ := mem_cover.mp h1
    have := hmap c hc
    omega

@[simp] theorem closed_buffer (o : ByteStream) (i e : ℕ) : (closed o i e).buffer = o.buffer := by
  unfold closed
  split_ifs <;> rfl

@[simp] theorem closed_capacity (o : ByteStream) (i e : ℕ) :
    (closed o i e).capacity = o.capacity := by
  unfold closed
  split_ifs <;> rfl

@[simp] theorem closed_bytesWritten (o : ByteStream) (i e : ℕ) :
    (closed o i e).bytesWritten = o.bytesWritten := by
  unfold closed
  split_ifs <;> rfl

@[simp] theorem closed_bytesRead (o : ByteStream) (i e : ℕ) :
    (closed o i e).bytesRead = o.bytesRead := by
  unfold closed
  split_ifs <;> rfl

theorem closed_inputEnded {o : ByteStream} (h : o.inputEnded = false) (i e : ℕ) :
    (closed o i e).inputEnded = true ↔ e ≤ i := by
  unfold closed
  split_ifs with hle <;> simp [h, hle]

theorem Inv.pushed {r r' : StreamReassembler} (h : Inv r) {data : List Byte} {index : ℕ} {eof : Bool}
    (hb : index + data.length < 2 ^ 64) (hp : Pushed r data index eof r') : Inv r' := by
  cases hp with
  | ended => exact { h with }
  | ignored => exact h.noted data index eof
  | stored _ hi hlt hle hs => exact (h.noted data index eof).stored_push hi hlt hle hs
  | shut => exact h.noted data index eof
  | wrote _ hopen h1 h2 _ new pre post hd =>
    have hfits := h.wrote_fits hd
    have hcap := h.capacityOutput
    have hfit : r.output.buffer.length + (fresh r data index ++ new).length ≤ r.output.capacity := by
      omega
    have hpost : ∀ c ∈ post, c ∈ r.unassembledBytes := fun c hc => by
      rw [hd.split]
      exact List.mem_append_right _ hc
    have hfl := fresh_length_le_data r data index
    refine ⟨?_, h.capacityLt, ?_, ?_, ?_, ?_, ?_, ?_, ?_, ?_⟩
    · simpa [Sponge.noted] using hcap
    · simp only [closed_bytesWritten, ByteStream.write_bytesWritten,
        ByteStream.write_snd_of_fits hopen hfit, h.written]
    · have := hd.index_lt (b := 2 ^ 64) (by omega) h.stopLt
      simp only [List.length_append]
      omega
    · exact h.sep.sublist (hd.split ▸ List.sublist_append_right _ _)
    · intro c hc
      have := hd.next c hc
      simp only [List.length_append]
      omega
    · intro c hc
      simpa [Sponge.noted] using h.window c (hpost c hc)
    · intro c hc
      exact h.stopLt c (hpost c hc)
    · have h3 := hd.pre_le
      have h4 := h.stored
      simp only
      omega
    · simp only [closed_buffer, ByteStream.write_buffer_of_fits hopen hfit, List.length_append]
      rw [List.length_append] at hfits
      exact hfits

theorem Pushed.eofIndex {r r' : StreamReassembler} {data : List Byte} {index : ℕ} {eof : Bool}
    (hp : Pushed r data index eof r') : r'.eofIndex = eofAfter r data index eof := by
  cases hp with
  | ended => rfl
  | ignored => rfl
  | stored _ _ _ _ hs => exact hs.frame.2.1
  | shut => rfl
  | wrote => rfl

theorem Pushed.capacity {r r' : StreamReassembler} {data : List Byte} {index : ℕ} {eof : Bool}
    (hp : Pushed r data index eof r') : r'.capacity = r.capacity := by
  cases hp with
  | ended => rfl
  | ignored => rfl
  | stored _ _ _ _ hs => exact hs.frame.2.2.2
  | shut => rfl
  | wrote => rfl

theorem Pushed.bytesRead {r r' : StreamReassembler} {data : List Byte} {index : ℕ} {eof : Bool}
    (hp : Pushed r data index eof r') : r'.output.bytesRead = r.output.bytesRead := by
  cases hp with
  | ended => rfl
  | ignored => rfl
  | stored _ _ _ _ hs => rw [hs.frame.2.2.1]; rfl
  | shut => rfl
  | wrote => simp only [closed_bytesRead, ByteStream.write_bytesRead]

theorem Pushed.inputEnded {r r' : StreamReassembler} {data : List Byte} {index : ℕ} {eof : Bool}
    (hp : Pushed r data index eof r') (h : r.output.inputEnded = true) :
    r'.output.inputEnded = true := by
  cases hp with
  | ended => rfl
  | ignored => exact h
  | stored _ _ _ _ hs => rw [hs.frame.2.2.1]; exact h
  | shut => exact h
  | wrote _ hopen => simp [hopen] at h

theorem Pushed.index_le {r r' : StreamReassembler} {data : List Byte} {index : ℕ} {eof : Bool}
    (hp : Pushed r data index eof r') : r.unassembledIndex ≤ r'.unassembledIndex := by
  cases hp with
  | ended => exact le_rfl
  | ignored => exact le_rfl
  | stored _ _ _ _ hs => exact hs.frame.1.ge
  | shut => exact le_rfl
  | wrote => exact Nat.le_add_right _ _

end Sponge
