import Sponge.Sanity.Push
import Sponge.Spec.ReceiverRun

/-! What every arrival keeps, also one that is nowhere near the window: the next index
is the number of bytes written, the map stands in key order ahead of it, and the
stream is over once the known end is reached. -/

namespace Sponge

open Chunks StreamReassembler

/-- A stream that has only been written to, with the index moved along. -/
structure Grew (o : ByteStream) (index : ℕ) (o' : ByteStream) (index' : ℕ) : Prop where
  written : o'.bytesWritten + index = o.bytesWritten + index'
  le : index ≤ index'
  read : o'.bytesRead = o.bytesRead
  ended : o'.inputEnded = o.inputEnded
  error : o'.error = o.error
  capacity : o'.capacity = o.capacity

theorem Grew.refl (o : ByteStream) (index : ℕ) : Grew o index o index :=
  ⟨rfl, le_rfl, rfl, rfl, rfl, rfl⟩

theorem Grew.write (o : ByteStream) (index : ℕ) (data : List Byte) :
    Grew o index (o.write data).1 (index + (o.write data).2) := by
  refine ⟨?_, Nat.le_add_right _ _, ?_, ?_, ?_, ?_⟩
  · rw [ByteStream.write_bytesWritten]
    omega
  · simp
  · simp
  · simp
  · simp

theorem Grew.trans {o o' o'' : ByteStream} {i i' i'' : ℕ} (h : Grew o i o' i')
    (h' : Grew o' i' o'' i'') : Grew o i o'' i'' := by
  refine ⟨?_, h.le.trans h'.le, h'.read.trans h.read, h'.ended.trans h.ended, h'.error.trans h.error,
    h'.capacity.trans h.capacity⟩
  have h1 := h.written
  have h2 := h'.written
  omega

/-- The loop of `merge_string` only removes entries, and moves the string to the key of
one of them. -/
theorem mergeLoop_keys {md : Overflow} {st ed : ℕ} {map : List (ℕ × List Byte)} :
    ∀ {data : List Byte} {index cnt : ℕ} {m : Merge},
      mergeLoop md st ed data index cnt map = .ok m →
      m.map.Sublist map ∧ (m.index = index ∨ ∃ e ∈ map, m.index = e.1) := by
  induction map with
  | nil =>
    intro data index cnt m h
    cases h
    exact ⟨List.Sublist.refl _, Or.inl rfl⟩
  | cons e rest ih =>
    obtain ⟨k, s⟩ := e
    -- what the rest of the loop does to an entry it has passed, and to one it has taken
    have hpass : ∀ {data : List Byte} {index cnt : ℕ} {m : Merge},
        (mergeLoop md st ed data index cnt rest >>=
          fun m => .ok { m with map := (k, s) :: m.map }) = .ok m →
        m.map.Sublist ((k, s) :: rest) ∧ (m.index = index ∨ ∃ e ∈ (k, s) :: rest, m.index = e.1) := by
      intro data index cnt m h
      obtain ⟨m', hm', hm⟩ := bind_eq_ok h
      cases hm
      obtain ⟨hsub, hkey⟩ := ih hm'
      exact ⟨hsub.cons_cons _, hkey.imp_right fun ⟨e, he, heq⟩ => ⟨e, List.mem_cons_of_mem _ he, heq⟩⟩
    have htake : ∀ {data : List Byte} {index index' cnt : ℕ} {m : Merge},
        mergeLoop md st ed data index' cnt rest = .ok m → index' = index ∨ index' = k →
        m.map.Sublist ((k, s) :: rest) ∧ (m.index = index ∨ ∃ e ∈ (k, s) :: rest, m.index = e.1) := by
      intro data index index' cnt m h hindex
      obtain ⟨hsub, hkey⟩ := ih h
      refine ⟨hsub.cons _, ?_⟩
      rcases hkey with hkey | ⟨e, he, heq⟩
      · rw [hkey]
        exact hindex.imp_right fun hk => ⟨(k, s), by simp, hk⟩
      · exact Or.inr ⟨e, List.mem_cons_of_mem _ he, heq⟩
    intro data index cnt m h
    simp only [mergeLoop] at h
    split_ifs at h
    · cases h
      exact ⟨List.Sublist.refl _, Or.inl rfl⟩
    · obtain ⟨_, -, h⟩ := bind_eq_ok h
      exact htake h (Or.inl rfl)
    · exact hpass h
    · obtain ⟨_, -, h⟩ := bind_eq_ok h
      obtain ⟨_, -, h⟩ := bind_eq_ok h
      obtain ⟨_, -, h⟩ := bind_eq_ok h
      obtain ⟨_, -, h⟩ := bind_eq_ok h
      exact htake h (Or.inl rfl)
    · obtain ⟨_, -, h⟩ := bind_eq_ok h
      obtain ⟨_, -, h⟩ := bind_eq_ok h
      obtain ⟨_, -, h⟩ := bind_eq_ok h
      exact htake h (Or.inr rfl)
    · exact hpass h

theorem drain_grew {md : Overflow} {map : List (ℕ × List Byte)} :
    ∀ {o o' : ByteStream} {index index' cnt cnt' : ℕ} {map' : List (ℕ × List Byte)},
      drain md o index cnt map = .ok (o', index', cnt', map') →
      Grew o index o' index' ∧ map' <:+ map ∧ ∀ c ∈ map'.head?, index' < c.1 := by
  induction map with
  | nil =>
    intro o o' index index' cnt cnt' map' h
    cases h
    exact ⟨Grew.refl o index, List.suffix_rfl, by simp⟩
  | cons e rest ih =>
    obtain ⟨k, s⟩ := e
    intro o o' index index' cnt cnt' map' h
    simp only [drain] at h
    split_ifs at h with h1 h2
    · obtain ⟨_, -, h⟩ := bind_eq_ok h
      obtain ⟨data, -, h⟩ := bind_eq_ok h
      obtain ⟨_, -, h⟩ := bind_eq_ok h
      obtain ⟨hgrew, hsuffix, hhead⟩ := ih h
      exact ⟨(Grew.write o index data).trans hgrew, hsuffix.trans (List.suffix_cons _ _), hhead⟩
    · obtain ⟨_, -, h⟩ := bind_eq_ok h
      obtain ⟨hgrew, hsuffix, hhead⟩ := ih h
      exact ⟨hgrew, hsuffix.trans (List.suffix_cons _ _), hhead⟩
    · cases h
      refine ⟨Grew.refl o index, List.suffix_rfl, ?_⟩
      rintro c hc
      cases hc
      exact Nat.not_le.mp h1

/-- What holds of a reassembler whatever has been pushed. -/
structure Steady (r : StreamReassembler) : Prop where
  index : r.unassembledIndex = r.output.bytesWritten
  keyed : Keyed r.unassembledIndex r.unassembledBytes
  eof : r.eofIndex < 2 ^ 64
  shut : r.output.inputEnded = true ∨ r.unassembledIndex < r.eofIndex

/-- What a push leaves alone, and what it only adds to. -/
structure Extended (r r' : StreamReassembler) : Prop where
  capacity : r'.capacity = r.capacity
  read : r'.output.bytesRead = r.output.bytesRead
  error : r'.output.error = r.output.error
  room : r'.output.capacity = r.output.capacity
  ended : r.output.inputEnded = true → r'.output.inputEnded = true
  written : r.output.bytesWritten ≤ r'.output.bytesWritten

theorem Extended.of_output {r r' : StreamReassembler} (hcap : r'.capacity = r.capacity)
    (hout : r'.output = r.output) : Extended r r' := by
  refine ⟨hcap, ?_, ?_, ?_, ?_, ?_⟩ <;> simp [hout]

theorem Extended.trans {r r' r'' : StreamReassembler} (h : Extended r r') (h' : Extended r' r'') :
    Extended r r'' :=
  ⟨h'.capacity.trans h.capacity, h'.read.trans h.read, h'.error.trans h.error, h'.room.trans h.room,
    fun he => h'.ended (h.ended he), h.written.trans h'.written⟩

theorem mergeString_kept {md : Overflow} {r r' : StreamReassembler} {data d : List Byte} {index : ℕ}
    (h : mergeString md r data index = .ok (r', d)) (hk : Keyed r.unassembledIndex r.unassembledBytes)
    (hi : r.unassembledIndex < index) :
    r'.capacity = r.capacity ∧ r'.output = r.output ∧ r'.unassembledIndex = r.unassembledIndex ∧
      r'.eofIndex = r.eofIndex ∧ Keyed r.unassembledIndex r'.unassembledBytes := by
  obtain ⟨m, hm, h⟩ := bind_eq_ok h
  obtain ⟨hsub, hkey⟩ := mergeLoop_keys hm
  have hkeyed := hk.sublist hsub
  simp only at h
  split_ifs at h
  · cases h
    exact ⟨rfl, rfl, rfl, rfl, hkeyed⟩
  · obtain ⟨_, -, h⟩ := bind_eq_ok h
    obtain ⟨_, -, h⟩ := bind_eq_ok h
    obtain ⟨_, -, h⟩ := bind_eq_ok h
    cases h
    refine ⟨rfl, rfl, rfl, rfl, hkeyed.insert ?_⟩
    rcases hkey with hkey | ⟨e, he, heq⟩
    · rw [hkey]
      exact hi
    · rw [heq]
      exact hk.2 e he

theorem writeDirect_kept {md : Overflow} {r r' : StreamReassembler} {data : List Byte} {index : ℕ}
    (h : writeDirect md r data index = .ok r') (hk : Keyed r.unassembledIndex r.unassembledBytes) :
    Grew r.output r.unassembledIndex r'.output r'.unassembledIndex ∧ r'.capacity = r.capacity ∧
      r'.eofIndex = r.eofIndex ∧ Keyed r'.unassembledIndex r'.unassembledBytes := by
  obtain ⟨_, -, h⟩ := bind_eq_ok h
  obtain ⟨_, -, h⟩ := bind_eq_ok h
  obtain ⟨_, -, h⟩ := bind_eq_ok h
  obtain ⟨_, -, h⟩ := bind_eq_ok h
  obtain ⟨fresh, -, h⟩ := bind_eq_ok h
  obtain ⟨⟨o, i, cnt, map⟩, hdrain, h⟩ := bind_eq_ok h
  cases h
  obtain ⟨hgrew, hsuffix, hhead⟩ := drain_grew hdrain
  exact ⟨(Grew.write r.output r.unassembledIndex fresh).trans hgrew, rfl, rfl,
    hk.of_suffix hsuffix hhead⟩

/-- The check at the end of a push: the stream is over once its end is reached. -/
theorem Steady.close {r r' : StreamReassembler} {data d : List Byte}
    (hindex : r.unassembledIndex = r.output.bytesWritten)
    (hkeyed : Keyed r.unassembledIndex r.unassembledBytes) (heof : r.eofIndex < 2 ^ 64)
    (h : (if r.eofIndex ≤ r.unassembledIndex then
      Except.ok ({ r with output := r.output.endInput }, data) else .ok (r, data)) =
        (.ok (r', d) : Except Fault (StreamReassembler × List Byte))) :
    Steady r' ∧ Extended r r' := by
  split_ifs at h with hend
  · cases h
    exact ⟨⟨hindex, hkeyed, heof, Or.inl rfl⟩, rfl, rfl, rfl, rfl, fun _ => rfl, le_rfl⟩
  · cases h
    exact ⟨⟨hindex, hkeyed, heof, Or.inr (Nat.not_le.mp hend)⟩, Extended.of_output rfl rfl⟩

theorem eofAfter_lt {r : StreamReassembler} (h : r.eofIndex < 2 ^ 64) (data : List Byte) (index : ℕ)
    (eof : Bool) : eofAfter r data index eof < 2 ^ 64 := by
  unfold eofAfter
  split_ifs
  · exact uadd_lt _ _
  · exact h

theorem Steady.push {md : Overflow} {r r' : StreamReassembler} {data d : List Byte} {index : ℕ}
    {eof : Bool} (hr : Steady r) (h : pushSubstring md r data index eof = .ok (r', d)) :
    Steady r' ∧ Extended r r' := by
  have heof := eofAfter_lt hr.eof data index eof
  rw [pushSubstring_head] at h
  split_ifs at h with h1 h2 h3
  · cases h
    exact ⟨⟨hr.index, hr.keyed, heof, Or.inl rfl⟩, rfl, rfl, rfl, rfl, fun _ => rfl, le_rfl⟩
  · cases h
    exact ⟨⟨hr.index, hr.keyed, heof, Or.inr (Nat.not_le.mp h1)⟩, Extended.of_output rfl rfl⟩
  · obtain ⟨⟨s, d'⟩, hs, h⟩ := bind_eq_ok h
    obtain ⟨hcap, hout, hindex, heof', hkeyed⟩ := mergeString_kept hs hr.keyed h3
    rw [← hindex] at hkeyed
    obtain ⟨hsteady, hext⟩ := Steady.close (by rw [hindex, hout]; exact hr.index) hkeyed
      (by rw [heof']; exact heof) h
    have hmerged : Extended r s := Extended.of_output hcap hout
    exact ⟨hsteady, hmerged.trans hext⟩
  · obtain ⟨⟨s, d'⟩, hs, h⟩ := bind_eq_ok h
    obtain ⟨t, ht, hs⟩ := bind_eq_ok hs
    cases hs
    obtain ⟨hgrew, hcap, heof', hkeyed⟩ := writeDirect_kept ht hr.keyed
    have hwritten := hgrew.written
    have hle := hgrew.le
    have hindex := hr.index
    simp only [noted] at hwritten hle
    obtain ⟨hsteady, hext⟩ := Steady.close (by omega) hkeyed (by rw [heof']; exact heof) h
    refine ⟨hsteady, Extended.trans
      ⟨hcap, hgrew.read, hgrew.error, hgrew.capacity, fun he => ?_, by omega⟩
      hext⟩
    rw [hgrew.ended]
    exact he

theorem Steady.pop {r : StreamReassembler} (h : Steady r) (n : ℕ) :
    Steady { r with output := r.output.popOutput n } := ⟨h.index, h.keyed, h.eof, h.shut⟩

theorem Steady.new (capacity : ℕ) : Steady (StreamReassembler.new capacity) :=
  ⟨rfl, ⟨List.Pairwise.nil, by simp [StreamReassembler.new]⟩, by simp [StreamReassembler.new, noEof],
    Or.inr (by simp [StreamReassembler.new, noEof])⟩

namespace TCPReceiver

theorem assemble_kept {r r' : TCPReceiver} {g : TCPSegment} (hr : Steady r.reassembler)
    (h : r.assemble g = .ok r') : Steady r'.reassembler ∧ Extended r.reassembler r'.reassembler ∧
      r'.capacity = r.capacity ∧ r'.setSyn = r.setSyn ∧ r'.isn = r.isn := by
  obtain ⟨⟨s, d⟩, hs, h⟩ := bind_eq_ok h
  cases h
  obtain ⟨hsteady, hext⟩ := hr.push hs
  exact ⟨hsteady, hext, rfl, rfl, rfl⟩

theorem segmentReceived_kept {r r' : TCPReceiver} {g : TCPSegment} (hr : Steady r.reassembler)
    (h : r.segmentReceived g = .ok r') : Steady r'.reassembler ∧
      Extended r.reassembler r'.reassembler ∧ r'.capacity = r.capacity ∧
      (r.setSyn = true → r'.setSyn = true ∧ r'.isn = r.isn) := by
  unfold segmentReceived at h
  split_ifs at h with hsyn hflag
  · obtain ⟨h1, h2, h3, h4, h5⟩ := assemble_kept hr h
    exact ⟨h1, h2, h3, fun _ => ⟨h4.trans hsyn, h5⟩⟩
  · obtain ⟨h1, h2, h3, -, -⟩ :=
      assemble_kept (r := { r with setSyn := true, isn := g.header.seqno }) hr h
    exact ⟨h1, h2, h3, fun hc => absurd hc hsyn⟩
  · cases h
    exact ⟨hr, Extended.of_output rfl rfl, rfl, fun hc => absurd hc hsyn⟩

/-- Only a receiver that has a SYN can see the end of its stream. -/
theorem segmentReceived_syn {r r' : TCPReceiver} {g : TCPSegment} (hr : Steady r.reassembler)
    (h : r.segmentReceived g = .ok r') (hsyn : r.streamOut.inputEnded = true → r.setSyn = true)
    (hend : r'.streamOut.inputEnded = true) : r'.setSyn = true := by
  unfold segmentReceived at h
  split_ifs at h with hset hflag
  · exact (assemble_kept hr h).2.2.2.1.trans hset
  · exact (assemble_kept (r := { r with setSyn := true, isn := g.header.seqno }) hr h).2.2.2.1
  · cases h
    exact hsyn hend

/-- The receiver's window is that of its reassembler and its stream. -/
structure Regular (r : TCPReceiver) : Prop where
  steady : Steady r.reassembler
  capacity : r.reassembler.capacity = r.capacity
  room : r.streamOut.capacity = r.capacity

theorem Regular.new (capacity : ℕ) : Regular (TCPReceiver.new capacity) :=
  ⟨Steady.new capacity, rfl, rfl⟩

theorem Regular.segmentReceived {r r' : TCPReceiver} {g : TCPSegment} (hr : Regular r)
    (h : r.segmentReceived g = .ok r') : Regular r' := by
  obtain ⟨h1, h2, h3, -⟩ := segmentReceived_kept hr.steady h
  exact ⟨h1, h2.capacity.trans (hr.capacity.trans h3.symm), h2.room.trans (hr.room.trans h3.symm)⟩

theorem Regular.read {r : TCPReceiver} (hr : Regular r) (len : ℕ) :
    Regular (r.withOutput (r.streamOut.read len).1) := by
  rw [ByteStream.read_eq_pop]
  exact ⟨hr.steady.pop len, hr.capacity, hr.room⟩

theorem Regular.step {r r' : TCPReceiver} {op : ReceiverOp} (hr : Regular r)
    (h : r.step op = .ok r') : Regular r' := by
  cases op with
  | segmentReceived g => exact hr.segmentReceived h
  | read len =>
    cases h
    exact hr.read len

end TCPReceiver

end Sponge
