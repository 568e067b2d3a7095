import Sponge.Sanity.Drain
import Sponge.Sanity.Merge

/-! What one `push_substring` can do. `Inv` relates the four counters of the
reassembler to its window whatever was pushed, and `Pushed` lists the ways a push
can end, with everything later proofs need about each. -/

namespace Sponge

open Chunks StreamReassembler

/-- The counters and the map agree with the window, whatever bytes were pushed.
The window ends at `bytes_read() + capacity`, here without the 64-bit wrap. -/
structure Inv (r : StreamReassembler) : Prop where
  capacityOutput : r.output.capacity = r.capacity
  capacityLt : r.capacity < 2 ^ 64
  written : r.output.bytesWritten = r.unassembledIndex
  indexLt : r.unassembledIndex < 2 ^ 64
  sep : Sep r.unassembledBytes
  after : ∀ c ∈ r.unassembledBytes, r.unassembledIndex < c.1
  window : ∀ c ∈ r.unassembledBytes, stop c ≤ r.output.bytesRead + r.capacity
  stopLt : ∀ c ∈ r.unassembledBytes, stop c < 2 ^ 64
  stored : total r.unassembledBytes ≤ r.unassembledCnt
  room : r.output.buffer.length + r.unassembledCnt ≤ r.capacity

theorem Inv.new {capacity : ℕ} (h : capacity < 2 ^ 64) : Inv (StreamReassembler.new capacity) where
  capacityOutput := rfl
  capacityLt := h
  written := rfl
  indexLt := by simp [StreamReassembler.new]
  sep := List.Pairwise.nil
  after := by simp [StreamReassembler.new]
  window := by simp [StreamReassembler.new]
  stopLt := by simp [StreamReassembler.new]
  stored := by simp [StreamReassembler.new]
  room := by simp [StreamReassembler.new, ByteStream.new]

theorem Inv.read_add_buffer {r : StreamReassembler} (h : Inv r) :
    r.output.bytesRead + r.output.buffer.length = r.unassembledIndex := by
  rw [r.output.balanced, h.written]

/-- A window that reaches past what was written has not wrapped. -/
theorem window_lt {r : StreamReassembler} (hcap : r.capacity < 2 ^ 64)
    (hwritten : r.output.bytesWritten ≤ r.unassembledIndex)
    (hend : r.unassembledIndex < uadd r.output.bytesRead r.capacity) :
    r.output.bytesRead + r.capacity < 2 ^ 64 := by
  have hbalanced := r.output.balanced
  have hlt := uadd_lt r.output.bytesRead r.capacity
  unfold uadd at hend hlt
  omega

theorem Inv.window_lt {r : StreamReassembler} (h : Inv r)
    (hend : r.unassembledIndex < uadd r.output.bytesRead r.capacity) :
    r.output.bytesRead + r.capacity < 2 ^ 64 :=
  Sponge.window_lt h.capacityLt h.written.le hend

/-- Past 2^64 the wrapped end of the window lies below everything read. -/
theorem Inv.uadd_window {r : StreamReassembler} (h : Inv r) :
    uadd r.output.bytesRead r.capacity = r.output.bytesRead + r.capacity ∨
      (2 ^ 64 ≤ r.output.bytesRead + r.capacity ∧
        uadd r.output.bytesRead r.capacity + 2 ^ 64 = r.output.bytesRead + r.capacity ∧
        uadd r.output.bytesRead r.capacity < r.output.bytesRead) := by
  have h1 := h.read_add_buffer
  have h2 := h.indexLt
  have h3 := h.capacityLt
  by_cases hlt : r.output.bytesRead + r.capacity < 2 ^ 64
  · exact Or.inl (uadd_eq hlt)
  · right
    unfold uadd
    omega

theorem Inv.pop {r : StreamReassembler} (h : Inv r) (n : ℕ) :
    Inv { r with output := r.output.popOutput n } where
  capacityOutput := h.capacityOutput
  capacityLt := h.capacityLt
  written := h.written
  indexLt := h.indexLt
  sep := h.sep
  after := h.after
  window c hc := (h.window c hc).trans (Nat.add_le_add_right (r.output.popOutput_bytesRead_le n) _)
  stopLt := h.stopLt
  stored := h.stored
  room := by
    have h1 := r.output.popOutput_buffer_le n
    have h2 := h.room
    simp only
    omega

/-- `_eof_index` after a push has looked at its flag. -/
def eofAfter (r : StreamReassembler) (data : List Byte) (index : ℕ) (eof : Bool) : ℕ :=
  if eof then uadd index data.length else r.eofIndex

/-- The reassembler after the head of `push_substring`: end and window noted. -/
def noted (r : StreamReassembler) (data : List Byte) (index : ℕ) (eof : Bool) : StreamReassembler :=
  { r with
    eofIndex := eofAfter r data index eof
    unacceptedIndex := uadd r.output.bytesRead r.capacity }

/-- The output once the end has been checked. -/
def closed (output : ByteStream) (index eofIndex : ℕ) : ByteStream :=
  if eofIndex ≤ index then output.endInput else output

/-- The bytes the direct branch takes from the pushed string. -/
def fresh (r : StreamReassembler) (data : List Byte) (index : ℕ) : List Byte :=
  (data.drop (r.unassembledIndex - index)).take
    (r.capacity - r.output.buffer.length - r.unassembledCnt)

theorem mergeLoop_nil (md : Overflow) (st cnt : ℕ) (map : List (ℕ × List Byte)) (hst : st < 2 ^ 64) :
    mergeLoop md st st [] st cnt map = .ok ⟨[], st, cnt, map⟩ := by
  induction map with
  | nil => rfl
  | cons c rest ih =>
    obtain ⟨k, s⟩ := c
    simp only [mergeLoop, List.length_nil, uadd_eq (show st + 0 < 2 ^ 64 from hst), Nat.add_zero, ih]
    split_ifs with h1 h2 h3 h4
    · rfl
    · omega
    · rfl
    · omega
    · rfl

/-- How `merge_string` leaves the reassembler. -/
inductive Stored (r : StreamReassembler) (data : List Byte) (index : ℕ) : StreamReassembler → Prop
  | held (h : ∀ i, index ≤ i → i < index + data.length → i ∈ cover r.unassembledBytes) :
      Stored r data index r
  | inserted (out : Merge) (n : ℕ) (hne : data ≠ [])
      (hm : Merged index (index + data.length) index r.unassembledCnt data r.unassembledBytes out)
      (hj : Joined index (index + data.length) data r.unassembledBytes out)
      (hn : n = min (min (out.index + out.data.length) (r.output.bytesRead + r.capacity) - out.index)
        (r.capacity - r.output.buffer.length - out.cnt)) :
      Stored r data index
        { r with
          unassembledCnt := out.cnt + n
          unassembledBytes := Chunks.insert out.index (out.data.take n) out.map }

theorem Joined.stop_lt {index ed : ℕ} {data : List Byte} {map : List (ℕ × List Byte)} {out : Merge}
    (h : Joined index ed data map out) {b : ℕ} (hed : ed < b) (hmap : ∀ c ∈ map, stop c < b) :
    out.index + out.data.length < b := by
  rcases h.rightEnd with e | ⟨c, hc, e⟩
  · omega
  · rw [← e]
    exact hmap c hc

theorem Merged.cnt_le {st ed index cnt : ℕ} {data : List Byte} {map : List (ℕ × List Byte)}
    {out : Merge} (h : Merged st ed index cnt data map out) : out.cnt ≤ cnt := by
  have h1 := h.cnt
  have h2 := total_le_of_sublist h.sub
  omega

/-- What `merge_string` relies on. Unlike `Inv` it says nothing of the output's own capacity. -/
structure Mergeable (r : StreamReassembler) : Prop where
  read : r.output.bytesRead + r.output.buffer.length ≤ r.unassembledIndex
  sep : Sep r.unassembledBytes
  after : ∀ c ∈ r.unassembledBytes, r.unassembledIndex < c.1
  window : ∀ c ∈ r.unassembledBytes, stop c ≤ r.output.bytesRead + r.capacity
  stopLt : ∀ c ∈ r.unassembledBytes, stop c < 2 ^ 64
  stored : total r.unassembledBytes ≤ r.unassembledCnt
  room : r.output.buffer.length + r.unassembledCnt ≤ r.capacity

theorem Inv.mergeable {r : StreamReassembler} (h : Inv r) : Mergeable r :=
  ⟨h.read_add_buffer.le, h.sep, h.after, h.window, h.stopLt, h.stored, h.room⟩

/-- The loop of `merge_string`, and what is made of its result: nothing, when an entry holds
the whole string already, or one insertion. -/
theorem mergeString_run (md : Overflow) {r : StreamReassembler} (h : Mergeable r)
    {data : List Byte} (hne : data ≠ []) {index : ℕ}
    (hlt : r.output.bytesRead + r.capacity < 2 ^ 64) (hle : index ≤ r.output.bytesRead + r.capacity)
    (hb : index + data.length < 2 ^ 64) :
    ∃ out, mergeLoop md index (index + data.length) data index r.unassembledCnt
        r.unassembledBytes = .ok out ∧
      Merged index (index + data.length) index r.unassembledCnt data r.unassembledBytes out ∧
      ((out.data = [] ∧ mergeString md r data index = .ok (r, []) ∧
        ∃ c ∈ r.unassembledBytes, c.1 ≤ index ∧ index + data.length ≤ stop c) ∨
      (Joined index (index + data.length) data r.unassembledBytes out ∧
        mergeString md r data index = .ok
          ({ r with
              unacceptedIndex := r.output.bytesRead + r.capacity
              unassembledCnt := out.cnt + min
                (min (out.index + out.data.length) (r.output.bytesRead + r.capacity) - out.index)
                (r.capacity - r.output.buffer.length - out.cnt)
              unassembledBytes := Chunks.insert out.index (out.data.take (min
                (min (out.index + out.data.length) (r.output.bytesRead + r.capacity) - out.index)
                (r.capacity - r.output.buffer.length - out.cnt))) out.map }, out.data))) := by
  have hcapacity := h.room
  have hpos : 0 < data.length := List.length_pos_iff.mpr hne
  obtain ⟨out, hout, hm⟩ := mergeLoop_spec md index (index + data.length) r.unassembledBytes h.sep
    h.stopLt hb (by omega) data index r.unassembledCnt rfl le_rfl (Or.inl rfl) h.stored
  refine ⟨out, hout, hm, ?_⟩
  simp only [mergeString, uadd_eq hb, hout, ok_bind]
  rcases hm.cases with ⟨h1, h2, hc⟩ | hj
  · have hcnt : out.cnt = r.unassembledCnt := by
      have := hm.cnt
      rw [h2] at this
      omega
    rw [if_pos h1, h1, h2, hcnt]
    exact Or.inl ⟨rfl, rfl, hc⟩
  · have hend := hj.stop_lt hb h.stopLt
    have hcnt := hm.cnt_le
    have hleft := hj.left
    rw [if_neg hj.ne, uadd_eq hend, uadd_eq hlt]
    simp only [unassembledSize, ByteStream.bufferSize]
    rw [usub_eq md (show out.index ≤ min (out.index + out.data.length)
        (r.output.bytesRead + r.capacity) by omega), ok_bind,
      usub_eq md (show r.output.buffer.length ≤ r.capacity by omega), ok_bind,
      usub_eq md (show out.cnt ≤ r.capacity - r.output.buffer.length by omega), ok_bind]
    exact Or.inr ⟨hj, rfl⟩

theorem mergeString_nil (md : Overflow) (r : StreamReassembler) {index : ℕ} (hb : index < 2 ^ 64) :
    mergeString md r [] index = .ok (r, []) := by
  simp only [mergeString, List.length_nil, uadd_eq (show index + 0 < 2 ^ 64 from hb), Nat.add_zero,
    mergeLoop_nil md index r.unassembledCnt r.unassembledBytes hb, ok_bind, if_true]

theorem mergeString_spec (md : Overflow) {r : StreamReassembler} (h : Mergeable r)
    (data : List Byte) (index : ℕ) (hU : r.unacceptedIndex = uadd r.output.bytesRead r.capacity)
    (hlt : r.output.bytesRead + r.capacity < 2 ^ 64) (hle : index ≤ r.output.bytesRead + r.capacity)
    (hb : index + data.length < 2 ^ 64) :
    ∃ r' d, mergeString md r data index = .ok (r', d) ∧ Stored r data index r' := by
  by_cases hne : data = []
  · subst hne
    refine ⟨r, [], mergeString_nil md r hb, Stored.held fun i h1 h2 => ?_⟩
    simp only [List.length_nil] at h2
    omega
  obtain ⟨out, -, hm, ⟨-, hrun, c, hc, h3, h4⟩ | ⟨hj, hrun⟩⟩ := mergeString_run md h hne hlt hle hb
  · exact ⟨r, [], hrun, Stored.held fun i hi hi' => mem_cover.mpr ⟨c, hc, by omega, by omega⟩⟩
  · refine ⟨_, _, hrun, ?_⟩
    have hr := Stored.inserted (r := r) out _ hne hm hj rfl
    rw [uadd_eq hlt] at hU
    simpa only [← hU] using hr

/-- The direct branch writes what the capacity left by the map allows. Cutting at
the end of the window changes nothing: the room left ends there too, wrapped or not. -/
theorem take_fresh (md : Overflow) {r : StreamReassembler} (h : Inv r) (data : List Byte) (index : ℕ)
    (hmd : md = .wrap ∨ r.output.bytesRead + r.capacity < 2 ^ 64)
    (h1 : index ≤ r.unassembledIndex) (h2 : r.unassembledIndex ≤ index + data.length) :
    ∃ b, usub md (min (index + data.length) (uadd r.output.bytesRead r.capacity))
        r.unassembledIndex = .ok b ∧
      (data.drop (r.unassembledIndex - index)).take
        (min b (r.capacity - r.output.buffer.length - r.unassembledCnt)) = fresh r data index := by
  have hread := h.read_add_buffer
  have hroom := h.room
  have hcut : ∀ b, r.capacity - r.output.buffer.length ≤ b ∨
      index + data.length - r.unassembledIndex ≤ b →
      (data.drop (r.unassembledIndex - index)).take
        (min b (r.capacity - r.output.buffer.length - r.unassembledCnt)) = fresh r data index := by
    intro b hb
    unfold fresh
    rw [List.take_eq_take_iff, List.length_drop]
    omega
  rcases h.uadd_window with hw | ⟨hge, hw, hlow⟩
  · refine ⟨_, usub_eq md ?_, hcut _ ?_⟩
    · omega
    · omega
  · have hwrap : md = .wrap := hmd.resolve_right (by omega)
    subst hwrap
    refine ⟨_, usub_wrap ?_, hcut _ ?_⟩
    · omega
    · omega

theorem fresh_length_le (r : StreamReassembler) (data : List Byte) (index : ℕ) :
    (fresh r data index).length ≤ r.capacity - r.output.buffer.length - r.unassembledCnt := by
  simp [fresh]

theorem writeDirect_eq (md : Overflow) {r : StreamReassembler} (h : Inv r) (data : List Byte)
    (index : ℕ) (hU : r.unacceptedIndex = uadd r.output.bytesRead r.capacity)
    (hmd : md = .wrap ∨ r.output.bytesRead + r.capacity < 2 ^ 64)
    (h1 : index ≤ r.unassembledIndex) (h2 : r.unassembledIndex ≤ index + data.length)
    (hb : index + data.length < 2 ^ 64) :
    writeDirect md r data index = (do
      let (output, unassembledIndex, cnt, map) ←
        drain md (r.output.write (fresh r data index)).1
          (r.unassembledIndex + (r.output.write (fresh r data index)).2) r.unassembledCnt
          r.unassembledBytes
      .ok { r with
            output := output
            unassembledIndex := unassembledIndex
            unassembledCnt := cnt
            unassembledBytes := map }) := by
  obtain ⟨b, hb1, hb2⟩ := take_fresh md h data index hmd h1 h2
  have hroom := h.room
  simp only [writeDirect, unassembledSize, ByteStream.bufferSize, hU, uadd_eq hb, usub_eq md h1,
    ok_bind, hb1, usub_eq md (show r.output.buffer.length ≤ r.capacity by omega),
    usub_eq md (show r.unassembledCnt ≤ r.capacity - r.output.buffer.length by omega),
    substr_eq _ (show r.unassembledIndex - index ≤ data.length by omega), hb2]

theorem writeDirect_spec (md : Overflow) {r : StreamReassembler} (h : Inv r) (data : List Byte)
    (index : ℕ) (hU : r.unacceptedIndex = uadd r.output.bytesRead r.capacity)
    (hmd : md = .wrap ∨ r.output.bytesRead + r.capacity < 2 ^ 64)
    (h1 : index ≤ r.unassembledIndex) (h2 : r.unassembledIndex ≤ index + data.length)
    (hb : index + data.length < 2 ^ 64) :
    (r.output.inputEnded = true ∧ writeDirect md r data index = .ok r) ∨
    (r.output.inputEnded = false ∧ ∃ new pre post,
      Drained (r.unassembledIndex + (fresh r data index).length) r.unassembledBytes new pre post ∧
      writeDirect md r data index = .ok
        { r with
          output := (r.output.write (fresh r data index ++ new)).1
          unassembledIndex := r.unassembledIndex + (fresh r data index ++ new).length
          unassembledCnt := r.unassembledCnt - total pre
          unassembledBytes := post }) := by
  have hsubs := writeDirect_eq md h data index hU hmd h1 h2 hb
  have hroom := h.room
  have hfl := fresh_length_le r data index
  cases he : r.output.inputEnded with
  | true =>
    left
    refine ⟨rfl, ?_⟩
    rw [hsubs, ByteStream.write_ended he]
    simp only [Nat.add_zero, drain_stop md r.output r.unassembledIndex r.unassembledCnt _ h.after,
      ok_bind]
  | false =>
    right
    have hcap := h.capacityOutput
    have hfit : r.output.buffer.length + (fresh r data index).length ≤ r.output.capacity := by omega
    obtain ⟨new, pre, post, hd, hrun⟩ := drain_spec md r.unassembledBytes h.sep h.stopLt
      (r.output.write (fresh r data index)).1 (r.unassembledIndex + (fresh r data index).length)
      r.unassembledCnt (by simp [he]) h.stored (by
        rw [ByteStream.write_buffer_of_fits he hfit, ByteStream.write_capacity, List.length_append]
        omega)
    have hpre : total pre ≤ total r.unassembledBytes := by
      rw [hd.split, total_append]
      exact Nat.le_add_right _ _
    have hstored := h.stored
    have hsize := hd.size
    refine ⟨rfl, new, pre, post, hd, ?_⟩
    rw [hsubs, ByteStream.write_snd_of_fits he hfit, hrun, ok_bind,
      ByteStream.write_write he (by omega), List.length_append, Nat.add_assoc]

/-- The ways a push can end. -/
inductive Pushed (r : StreamReassembler) (data : List Byte) (index : ℕ) (eof : Bool) :
    StreamReassembler → Prop
  | ended (h : eofAfter r data index eof ≤ r.unassembledIndex) :
      Pushed r data index eof
        { r with eofIndex := eofAfter r data index eof, output := r.output.endInput }
  | ignored (h : r.unassembledIndex < eofAfter r data index eof)
      (hout : index + data.length < r.unassembledIndex ∨
        uadd r.output.bytesRead r.capacity < index) :
      Pushed r data index eof (noted r data index eof)
  | stored {r' : StreamReassembler} (h : r.unassembledIndex < eofAfter r data index eof)
      (hi : r.unassembledIndex < index) (hlt : r.output.bytesRead + r.capacity < 2 ^ 64)
      (hle : index ≤ r.output.bytesRead + r.capacity)
      (hs : Stored (noted r data index eof) data index r') : Pushed r data index eof r'
  | shut (h : r.unassembledIndex < eofAfter r data index eof) (hshut : r.output.inputEnded = true)
      (h1 : index ≤ r.unassembledIndex) (h2 : r.unassembledIndex ≤ index + data.length)
      (hU : index ≤ uadd r.output.bytesRead r.capacity) :
      Pushed r data index eof (noted r data index eof)
  | wrote (h : r.unassembledIndex < eofAfter r data index eof) (hopen : r.output.inputEnded = false)
      (h1 : index ≤ r.unassembledIndex) (h2 : r.unassembledIndex ≤ index + data.length)
      (hU : index ≤ uadd r.output.bytesRead r.capacity) (new : List Byte)
      (pre post : List (ℕ × List Byte))
      (hd : Drained (r.unassembledIndex + (fresh r data index).length) r.unassembledBytes new
        pre post) :
      Pushed r data index eof
        { noted r data index eof with
          output := closed (r.output.write (fresh r data index ++ new)).1
            (r.unassembledIndex + (fresh r data index ++ new).length) (eofAfter r data index eof)
          unassembledIndex := r.unassembledIndex + (fresh r data index ++ new).length
          unassembledCnt := r.unassembledCnt - total pre
          unassembledBytes := post }

theorem Inv.noted {r : StreamReassembler} (h : Inv r) (data : List Byte) (index : ℕ) (eof : Bool) :
    Inv (noted r data index eof) := { h with }

theorem Stored.frame {r r' : StreamReassembler} {data : List Byte} {index : ℕ}
    (h : Stored r data index r') :
    r'.unassembledIndex = r.unassembledIndex ∧ r'.eofIndex = r.eofIndex ∧ r'.output = r.output ∧
      r'.capacity = r.capacity := by
  cases h <;> exact ⟨rfl, rfl, rfl, rfl⟩

theorem pushSubstring_head (md : Overflow) (r : StreamReassembler) (data : List Byte) (index : ℕ)
    (eof : Bool) :
    pushSubstring md r data index eof =
      if eofAfter r data index eof ≤ r.unassembledIndex then
        .ok ({ r with eofIndex := eofAfter r data index eof, output := r.output.endInput }, data)
      else if uadd index data.length < r.unassembledIndex ∨
          uadd r.output.bytesRead r.capacity < index then
        .ok (noted r data index eof, data)
      else
        (if r.unassembledIndex < index then mergeString md (noted r data index eof) data index
          else (writeDirect md (noted r data index eof) data index >>= fun r => .ok (r, data))) >>=
        fun p => if p.1.eofIndex ≤ p.1.unassembledIndex
          then .ok ({ p.1 with output := p.1.output.endInput }, p.2) else .ok (p.1, p.2) := by
  simp only [pushSubstring, Sponge.noted, eofAfter]
  split_ifs <;> simp only [bind_assoc]

theorem pushSubstring_spec (md : Overflow) {r : StreamReassembler} (h : Inv r) (data : List Byte)
    (index : ℕ) (eof : Bool) (hb : index + data.length < 2 ^ 64)
    (hmd : md = .wrap ∨ r.output.bytesRead + r.capacity < 2 ^ 64) :
    ∃ r' d, pushSubstring md r data index eof = .ok (r', d) ∧ Pushed r data index eof r' := by
  rw [pushSubstring_head md r data index eof, uadd_eq hb]
  by_cases hend : eofAfter r data index eof ≤ r.unassembledIndex
  · rw [if_pos hend]
    exact ⟨_, _, rfl, Pushed.ended hend⟩
  rw [if_neg hend]
  by_cases hout : index + data.length < r.unassembledIndex ∨
      uadd r.output.bytesRead r.capacity < index
  · rw [if_pos hout]
    exact ⟨_, _, rfl, Pushed.ignored (by omega) hout⟩
  rw [if_neg hout]
  push Not at hend hout
  by_cases hi : r.unassembledIndex < index
  · have hlt := h.window_lt (hi.trans_le hout.2)
    have hle : index ≤ r.output.bytesRead + r.capacity := uadd_eq hlt ▸ hout.2
    obtain ⟨r', d, hrun, hs⟩ :=
      mergeString_spec md (h.noted data index eof).mergeable data index rfl hlt
      hle hb
    obtain ⟨e1, e2, -, -⟩ := hs.frame
    rw [if_pos hi, hrun, ok_bind]
    refine ⟨r', d, ?_, Pushed.stored hend hi hlt hle hs⟩
    simp only [e1, e2]
    rw [if_neg]
    exact Nat.not_le.mpr hend
  rw [if_neg hi]
  push Not at hi
  rcases writeDirect_spec md (h.noted data index eof) data index rfl hmd hi hout.1 hb with
    ⟨he, hrun⟩ | ⟨he, new, pre, post, hd, hrun⟩
  · rw [hrun]
    refine ⟨_, data, ?_, Pushed.shut hend he hi hout.1 hout.2⟩
    rw [ok_bind, ok_bind]
    exact if_neg (Nat.not_le.mpr hend)
  · rw [hrun]
    refine ⟨_, data, ?_, Pushed.wrote hend he hi hout.1 hout.2 new pre post hd⟩
    rw [ok_bind, ok_bind]
    by_cases hc : eofAfter r data index eof ≤
        r.unassembledIndex + (fresh r data index ++ new).length
    · simp only [closed, if_pos hc]
      exact if_pos hc
    · simp only [closed, if_neg hc]
      exact if_neg hc

end Sponge
