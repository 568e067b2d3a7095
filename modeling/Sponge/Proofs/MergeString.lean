import Sponge.Sanity.Account

/-! Two sides of `merge_string`. It writes through the reference it is given, so a push can
change its caller's string; and the strings it leaves in the map cover what they covered and
the part of the pushed one inside the window, once each. -/

namespace Sponge

open Chunks StreamReassembler

/-- No stored string that overlaps the pushed one reaches out of it. -/
def Spares (r : StreamReassembler) (data : List Byte) (index : ℕ) : Prop :=
  ∀ c ∈ r.unassembledBytes, index < uadd c.1 c.2.length → c.1 < uadd index data.length →
    index ≤ c.1 ∧ uadd c.1 c.2.length ≤ uadd index data.length

instance (r : StreamReassembler) (data : List Byte) (index : ℕ) :
    Decidable (Spares r data index) := inferInstanceAs (Decidable (∀ c ∈ _, _))

theorem mergeLoop_data {md : Overflow} {st ed : ℕ} {data : List Byte} {index cnt : ℕ}
    {map : List (ℕ × List Byte)} {out : Merge}
    (hspare : ∀ c ∈ map, st < uadd c.1 c.2.length → c.1 < ed →
      st ≤ c.1 ∧ uadd c.1 c.2.length ≤ ed)
    (h : mergeLoop md st ed data index cnt map = .ok out) : out.data = data := by
  induction map generalizing cnt out with
  | nil =>
    cases h
    rfl
  | cons c rest ih =>
    obtain ⟨k, s⟩ := c
    have hrest := fun c hc => hspare c (List.mem_cons_of_mem _ hc)
    unfold mergeLoop at h
    by_cases hbreak : uadd index data.length ≤ k
    · rw [if_pos hbreak] at h
      cases h
      rfl
    · rw [if_neg hbreak] at h
      by_cases hover : st < uadd k s.length ∧ k < ed
      · obtain ⟨hl, hr⟩ := hspare (k, s) (by simp) hover.1 hover.2
        simp only [if_pos hover, if_pos (show st ≤ k ∧ uadd k s.length ≤ ed from ⟨hl, hr⟩)] at h
        obtain ⟨n, -, h⟩ := bind_eq_ok h
        exact ih hrest h
      · simp only [if_neg hover] at h
        obtain ⟨m, hm, h⟩ := bind_eq_ok h
        cases h
        exact @ih _ m hrest hm

theorem mergeString_data {md : Overflow} {r r' : StreamReassembler} {data d : List Byte}
    {index : ℕ} (h : mergeString md r data index = .ok (r', d)) :
    ∃ out, mergeLoop md index (uadd index data.length) data index r.unassembledCnt
      r.unassembledBytes = .ok out ∧ d = out.data := by
  obtain ⟨out, hout, h⟩ := bind_eq_ok h
  refine ⟨out, hout, ?_⟩
  dsimp only at h
  split at h
  · cases h
    rfl
  · obtain ⟨a, -, h⟩ := bind_eq_ok h
    obtain ⟨b, -, h⟩ := bind_eq_ok h
    obtain ⟨c, -, h⟩ := bind_eq_ok h
    cases h
    rfl

theorem pushSubstring_merges {md : Overflow} {r r' : StreamReassembler} {data d : List Byte}
    {index : ℕ} {eof : Bool} (h : pushSubstring md r data index eof = .ok (r', d))
    (hend : r.unassembledIndex < eofAfter r data index eof)
    (hout : ¬ (uadd index data.length < r.unassembledIndex ∨
      uadd r.output.bytesRead r.capacity < index)) (hi : r.unassembledIndex < index) :
    ∃ r1, mergeString md (noted r data index eof) data index = .ok (r1, d) := by
  rw [pushSubstring_head, if_neg (Nat.not_le.mpr hend), if_neg hout, if_pos hi] at h
  obtain ⟨⟨r1, d1⟩, hrun, h⟩ := bind_eq_ok h
  have hd : d1 = d := by
    split at h <;> cases h <;> rfl
  exact ⟨r1, hd ▸ hrun⟩

theorem pushSubstring_data {md : Overflow} {r r' : StreamReassembler} {data d : List Byte}
    {index : ℕ} {eof : Bool} (h : pushSubstring md r data index eof = .ok (r', d)) :
    d = data ∨ (r.unassembledIndex < eofAfter r data index eof ∧ r.unassembledIndex < index ∧
      index ≤ uadd r.output.bytesRead r.capacity ∧
      ∃ r1, mergeString md (noted r data index eof) data index = .ok (r1, d)) := by
  have hmerges := pushSubstring_merges h
  rw [pushSubstring_head] at h
  split_ifs at h with hend hout hi
  · cases h
    exact .inl rfl
  · cases h
    exact .inl rfl
  · exact .inr ⟨by omega, hi, by omega, hmerges (by omega) hout hi⟩
  · obtain ⟨⟨r1, d1⟩, hrun, h⟩ := bind_eq_ok h
    obtain ⟨r2, -, hrun⟩ := bind_eq_ok hrun
    cases hrun
    split at h <;> cases h <;> exact .inl rfl

/-- The string is kept, in any state and for any push, when nothing stored reaches out of it. -/
theorem argument_kept {r r' : StreamReassembler} {data d : List Byte} {index : ℕ} {eof : Bool}
    (hindex : index < 2 ^ 64) (h : pushSubstring .wrap r data index eof = .ok (r', d))
    (hspare : Merges r data index eof → Spares r data index) : d = data := by
  obtain hd | ⟨hend, hi, hU, r1, hrun⟩ := pushSubstring_data h
  · exact hd
  · by_cases hne : data = []
    · subst hne
      rw [mergeString_nil .wrap _ hindex] at hrun
      cases hrun
      rfl
    · obtain ⟨out, hout, rfl⟩ := mergeString_data hrun
      exact mergeLoop_data (hspare ⟨hne, hend, hi, hU⟩) hout

theorem Joined.inside {index : ℕ} {data : List Byte} {map : List (ℕ × List Byte)} {out : Merge}
    (h : Joined index (index + data.length) data map out) (hsub : out.map.Sublist map)
    (hsep : Sep map) (hdata : out.data = data) {c : ℕ × List Byte} (hc : c ∈ map)
    (hl : index < stop c) (hr : c.1 < index + data.length) :
    index ≤ c.1 ∧ stop c ≤ index + data.length := by
  have hindex : out.index = index := by
    have h1 := h.left
    have h2 := h.right
    rw [hdata] at h2
    omega
  -- an index that only `c` covers and the string does not would still be stored
  have hkept : ∀ i, c.1 ≤ i → i < stop c → ¬(index ≤ i ∧ i < index + data.length) → False := by
    intro i h1 h2 hnot
    have hcover := Finset.ext_iff.mp h.covers i
    simp only [hindex, hdata, Finset.mem_union, Finset.mem_Ico, hnot, or_false] at hcover
    obtain ⟨c', hc', h3, h4⟩ := mem_cover.mp (hcover.mp (mem_cover.mpr ⟨c, hc, h1, h2⟩))
    obtain rfl := hsep.eq_of_cover (hsub.subset hc') hc h3 h4 h1 h2
    have := h.apart c' hc'
    rw [hindex, hdata] at this
    omega
  constructor
  · by_contra hlt
    exact hkept c.1 le_rfl (by omega) (by omega)
  · by_contra hlt
    exact hkept (index + data.length) (by omega) (by omega) (by omega)

/-- After any run the string is kept if nothing stored reaches out of it where they overlap;
when no index has wrapped, only then. -/
theorem argument_kept_iff (capacity : ℕ) (ops : List SessionOp) (s : Session)
    (hrun : exec Session.step (Session.new capacity) ops = .ok s) (data : List Byte) (index : ℕ)
    (hindex : index < 2 ^ 64) (eof : Bool) :
    (∀ r' d, pushSubstring .wrap s.reassembler data index eof = .ok (r', d) →
      (Merges s.reassembler data index eof → Spares s.reassembler data index) → d = data) ∧
    (capacity < 2 ^ 64 → (∀ op ∈ ops, op.InRange) → index + data.length < 2 ^ 64 →
      ∃ r' d, pushSubstring .wrap s.reassembler data index eof = .ok (r', d) ∧
        (d = data ↔ (Merges s.reassembler data index eof → Spares s.reassembler data index))) := by
  refine ⟨fun r' d h hspare => argument_kept hindex h hspare, fun hcap hops hb => ?_⟩
  have hV : Each Session.step (fun _ op => op.InRange) (Session.new capacity) ops :=
    Each.of_forall hops _
  obtain ⟨s', hs', hinv⟩ := exec_inv Inv.step (Inv.new hcap) hV
  obtain rfl : s' = s := Except.ok.inj (hs'.symm.trans hrun)
  obtain ⟨r', d, hpush, -⟩ := pushSubstring_spec .wrap hinv data index eof hb (Or.inl rfl)
  refine ⟨r', d, hpush, fun hd hmerges => ?_, argument_kept hindex hpush⟩
  obtain ⟨hne, hend, hi, hU⟩ := hmerges
  have hlt := hinv.window_lt (hi.trans_le hU)
  rw [uadd_eq hlt] at hU
  obtain ⟨out, hout, hm, hcase⟩ := mergeString_run .wrap (hinv.noted data index eof).mergeable hne
    hlt hU hb
  have hkept : out.data = data := by
    obtain ⟨r1, hmerge⟩ := pushSubstring_merges hpush hend
      (by rw [uadd_eq hb, uadd_eq hlt]; omega) hi
    obtain ⟨out', hout', hlast⟩ := mergeString_data hmerge
    rw [uadd_eq hb] at hout'
    obtain rfl : out' = out := Except.ok.inj (hout'.symm.trans hout)
    rw [← hlast, hd]
  obtain ⟨hnil, -⟩ | ⟨hj, -⟩ := hcase
  · exact absurd (hkept.symm.trans hnil) hne
  · intro c hc hl hr
    rw [uadd_eq (hinv.stopLt c hc)] at hl ⊢
    rw [uadd_eq hb] at hr ⊢
    exact hj.inside hm.sub hinv.sep hkept hc hl hr

/-- A stored string inside the pushed one is erased, and the pushed one kept. -/
theorem argument_kept_iff_inside :
    ∃ s, exec Session.step (Session.new 8) [.push [3, 4] 2 false] = .ok s ∧
      ∀ r' d, pushSubstring .wrap s.reassembler [2, 3, 4, 5] 1 false = .ok (r', d) →
        d = [2, 3, 4, 5] := by
  refine ⟨_, rfl, fun r' d h => ?_⟩
  exact (argument_kept_iff 8 [.push [3, 4] 2 false] _ rfl [2, 3, 4, 5] 1 (by decide) false).1 r' d h
    fun _ => by decide

/-- A stored string that goes on after the pushed one is appended to the caller's string. -/
theorem argument_changed :
    ∃ s r', exec Session.step (Session.new 8) [.push [3, 4] 2 false] = .ok s ∧
      pushSubstring .wrap s.reassembler [2, 3] 1 false = .ok (r', [2, 3, 4]) :=
  ⟨_, _, rfl, rfl⟩

/-- The stored strings are pieces of `S` inside the window, apart from each other, and
counted. -/
structure Holding (S : List Byte) (r : StreamReassembler) : Prop where
  nonempty : ∀ c ∈ r.unassembledBytes, c.2 ≠ []
  sep : Sep r.unassembledBytes
  after : ∀ c ∈ r.unassembledBytes, r.unassembledIndex < c.1
  window : ∀ c ∈ r.unassembledBytes, stop c ≤ uadd r.output.bytesRead r.capacity
  agrees : ∀ c ∈ r.unassembledBytes, Agrees S c.1 c.2
  cnt : r.unassembledCnt = total r.unassembledBytes

theorem Holding.mergeable {S : List Byte} {r : StreamReassembler} (h : Holding S r)
    (hcap : r.capacity < 2 ^ 64) (hwritten : r.output.bytesWritten ≤ r.unassembledIndex)
    (hhi : r.unassembledIndex < uadd r.output.bytesRead r.capacity) : Mergeable r := by
  have hbalanced := r.output.balanced
  have hlt := window_lt hcap hwritten hhi
  have hw := uadd_eq hlt
  have hstop : ∀ c ∈ r.unassembledBytes, stop c ≤ r.output.bytesRead + r.capacity :=
    fun c hc => hw ▸ h.window c hc
  have htotal := total_add_gap_le h.sep
    (fun c hc => ⟨Nat.succ_le_of_lt (h.after c hc), hstop c hc⟩) le_rfl
    (show r.unassembledIndex + 1 ≤ r.output.bytesRead + r.capacity by omega)
    (fun i h1 h2 => by omega)
  have hcnt := h.cnt
  refine ⟨by omega, h.sep, h.after, hstop, fun c hc => ?_, hcnt.ge, by omega⟩
  exact lt_of_le_of_lt (hstop c hc) hlt

theorem cover_union {m m' : List (ℕ × List Byte)} {lo a b : ℕ}
    (h : ∀ i, i ∈ cover m' ↔ i ∈ cover m ∨ (lo ≤ i ∧ i < a ∧ i < b)) :
    cover m' = cover m ∪ Finset.Ico lo (min a b) := by
  ext i
  rw [h i, Finset.mem_union, Finset.mem_Ico, lt_min_iff]

theorem card_cover_union {r r' : StreamReassembler} {I : Finset ℕ} (hsep : Sep r.unassembledBytes)
    (hsep' : Sep r'.unassembledBytes) (he : Exact r) (he' : Exact r')
    (hcover : cover r'.unassembledBytes = cover r.unassembledBytes ∪ I) :
    r'.unassembledCnt = r.unassembledCnt + (I \ cover r.unassembledBytes).card := by
  have hcard := Finset.card_sdiff_add_card I (cover r.unassembledBytes)
  rw [Finset.union_comm, ← hcover] at hcard
  rw [he, he', total_eq_card hsep, total_eq_card hsep']
  omega

/-- `out` is what the loop leaves; the last part says that the room left by the count does not
cut it further. -/
theorem merge_union (S : List Byte) (r : StreamReassembler) (hr : Holding S r)
    (hcap : r.capacity < 2 ^ 64) (hwritten : r.output.bytesWritten ≤ r.unassembledIndex)
    (data : List Byte) (index : ℕ) (hdata : Agrees S index data)
    (hlo : r.unassembledIndex < index) (hhi : index ≤ uadd r.output.bytesRead r.capacity)
    (hb : index + data.length < 2 ^ 64) :
    let I := Finset.Ico index (min (index + data.length) (uadd r.output.bytesRead r.capacity))
    ∃ r' d out, mergeString .wrap r data index = .ok (r', d) ∧
      mergeLoop .wrap index (index + data.length) data index r.unassembledCnt
        r.unassembledBytes = .ok out ∧
      Sep r'.unassembledBytes ∧ (∀ c ∈ r'.unassembledBytes, Agrees S c.1 c.2) ∧
      cover r'.unassembledBytes = cover r.unassembledBytes ∪ I ∧
      r'.unassembledCnt = r.unassembledCnt + (I \ cover r.unassembledBytes).card ∧
      (out.data ≠ [] → min (out.index + out.data.length) (uadd r.output.bytesRead r.capacity) -
        out.index ≤ r.capacity - r.output.bufferSize - out.cnt) := by
  have hend := hlo.trans_le hhi
  have hmergeable := hr.mergeable hcap hwritten hend
  have hlt := window_lt hcap hwritten hend
  rw [uadd_eq hlt] at hhi ⊢
  intro I
  by_cases hne : data = []
  · subst hne
    have hI : I = ∅ := Finset.Ico_eq_empty (by simp)
    have hunion : cover r.unassembledBytes = cover r.unassembledBytes ∪ I := by
      rw [hI, Finset.union_empty]
    exact ⟨r, [], _, mergeString_nil .wrap r hb, mergeLoop_nil .wrap index _ _ hb, hr.sep,
      hr.agrees, hunion, card_cover_union hr.sep hr.sep hr.cnt hr.cnt hunion, by simp⟩
  obtain ⟨out, hout, hm, ⟨hnil, hrun, c, hc, h1, h2⟩ | ⟨hj, hrun⟩⟩ :=
    mergeString_run .wrap hmergeable hne hlt hhi hb
  · have hsub : I ⊆ cover r.unassembledBytes := by
      intro i hi
      have := Finset.mem_Ico.mp hi
      exact mem_cover.mpr ⟨c, hc, by omega, by omega⟩
    have hunion := (Finset.union_eq_left.mpr hsub).symm
    exact ⟨r, [], out, hrun, hout, hr.sep, hr.agrees, hunion,
      card_cover_union hr.sep hr.sep hr.cnt hr.cnt hunion, fun h => absurd hnil h⟩
  · have hfree : data ≠ [] → (index, []) ∉ r.unassembledBytes :=
      fun _ hmem => hr.nonempty _ hmem rfl
    obtain ⟨he', hcover⟩ := Exact.stored_push hmergeable hr.cnt hlo hhi hfree
      (Stored.inserted out _ hne hm hj rfl)
    have hsize := (insert_size hmergeable hr.cnt hlo hhi hm hj rfl).2
    have hunion := cover_union hcover
    refine ⟨_, _, out, hrun, hout, insert_sep hj hr.sep hm.sub, ?_, hunion, ?_, ?_⟩
    · intro c hc
      rcases mem_insert hc with rfl | hc
      · exact (hj.agrees S hr.agrees hdata).take _
      · exact hr.agrees c (hm.sub.subset hc)
    · exact card_cover_union hr.sep (insert_sep hj hr.sep hm.sub) hr.cnt he' hunion
    · exact fun _ => min_eq_left_iff.mp hsize

theorem Holding.of_nil {r : StreamReassembler} (S : List Byte) (hmap : r.unassembledBytes = [])
    (hcnt : r.unassembledCnt = 0) : Holding S r := by
  constructor <;> simp [hmap, hcnt, Chunks.Sep]

/-- A string that overlaps the front of the stored one. -/
theorem merge_union_front :
    let r := { StreamReassembler.new 8 with unassembledBytes := [(2, [3, 4])], unassembledCnt := 2 }
    ∃ r' d, mergeString .wrap r [2, 3] 1 = .ok (r', d) ∧
      cover r'.unassembledBytes = cover r.unassembledBytes ∪ Finset.Ico 1 3 ∧
      r'.unassembledCnt = 3 := by
  intro r
  have hr : Holding [1, 2, 3, 4] r := by
    refine ⟨by decide, List.pairwise_singleton _ _, by decide, by decide, fun c hc => ?_, rfl⟩
    obtain rfl := List.mem_singleton.mp hc
    exact ⟨[], rfl⟩
  obtain ⟨r', d, -, hrun, -, -, -, hcover, hcnt, -⟩ := merge_union [1, 2, 3, 4] r hr (by decide)
    (by decide) [2, 3] 1 ⟨[4], rfl⟩ (by decide) (by decide) (by decide)
  exact ⟨r', d, hrun, hcover, hcnt⟩

/-- A push that passes 2^64 is not cut to the window, and a buffer that runs ahead of
`_unassembled_index` takes room from the window. -/
theorem merge_union_fails :
    (∃ S r r' d, Holding S r ∧ r.capacity = 2 ^ 64 - 1 ∧
      r.output.bytesWritten = r.unassembledIndex ∧ Agrees S (2 ^ 64 - 2) [0, 0, 0] ∧
      r.unassembledIndex < 2 ^ 64 - 2 ∧ uadd r.output.bytesRead r.capacity = 2 ^ 64 - 1 ∧
      mergeString .wrap r [0, 0, 0] (2 ^ 64 - 2) = .ok (r', d) ∧
      2 ^ 64 ∈ cover r'.unassembledBytes ∧ r'.unassembledCnt = 3) ∧
    (∃ S r r' d, Holding S r ∧ r.output.bytesWritten = 5 ∧ r.unassembledIndex = 0 ∧
      Agrees S 1 [1, 2, 3, 4, 5, 6, 7, 8, 9] ∧ uadd r.output.bytesRead r.capacity = 10 ∧
      mergeString .wrap r [1, 2, 3, 4, 5, 6, 7, 8, 9] 1 = .ok (r', d) ∧
      9 ∉ cover r'.unassembledBytes ∧ r'.unassembledCnt = 5) := by
  constructor
  · obtain ⟨S, hS⟩ : ∃ S : List Byte, Agrees S (2 ^ 64 - 2) [0, 0, 0] := by
      refine ⟨List.replicate (2 ^ 64 - 2) 0 ++ [0, 0, 0], ?_⟩
      rw [Agrees, List.drop_left' List.length_replicate]
    refine ⟨S, StreamReassembler.new (2 ^ 64 - 1), _, _, Holding.of_nil S rfl rfl, rfl, rfl, hS,
      by decide, rfl, rfl, ?_, rfl⟩
    exact mem_cover.mpr ⟨_, List.mem_cons_self, by decide, by decide⟩
  · refine ⟨[0, 1, 2, 3, 4, 5, 6, 7, 8, 9],
      { StreamReassembler.new 10 with output := ((ByteStream.new 10).write [0, 0, 0, 0, 0]).1 },
      _, _, Holding.of_nil _ rfl rfl, rfl, rfl, ⟨[], rfl⟩, rfl, rfl, by decide, rfl⟩

end Sponge
