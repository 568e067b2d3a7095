import Sponge.Spec.StreamReassembler

/-! What the loop of `merge_string` computes. Either one entry already covers the
new string, and nothing changes, or the entries it touches are joined with it
into one string whose interval no remaining entry overlaps. The loop compares
with the original bounds `st` and `ed` and stops at the moving end of the string,
so the induction carries a string that starts at or before `st` and ends at `ed`. -/

namespace Sponge

open Chunks StreamReassembler

/-- The string has been joined with the entries it touches. -/
structure Joined (index ed : ℕ) (data : List Byte) (map : List (ℕ × List Byte)) (out : Merge) :
    Prop where
  ne : out.data ≠ []
  left : out.index ≤ index
  right : ed ≤ out.index + out.data.length
  leftEnd : out.index = index ∨ ∃ c ∈ map, c.1 = out.index ∧ index < stop c
  rightEnd : out.index + out.data.length = ed ∨ ∃ c ∈ map, stop c = out.index + out.data.length
  apart : ∀ c ∈ out.map, stop c ≤ out.index ∨ out.index + out.data.length ≤ c.1
  covers : cover map ∪ Finset.Ico index ed =
    cover out.map ∪ Finset.Ico out.index (out.index + out.data.length)
  agrees : ∀ S, (∀ c ∈ map, Agrees S c.1 c.2) → Agrees S index data → Agrees S out.index out.data

/-- The loop's result, from a string on `[index, ed)`. -/
structure Merged (st ed index cnt : ℕ) (data : List Byte) (map : List (ℕ × List Byte))
    (out : Merge) : Prop where
  sub : out.map.Sublist map
  cnt : out.cnt + total map = cnt + total out.map
  cases : (out.data = [] ∧ out.map = map ∧ ∃ c ∈ map, c.1 ≤ st ∧ ed ≤ stop c) ∨
    Joined index ed data map out

theorem mergeLoop_break (md : Overflow) (st ed : ℕ) (data : List Byte) (index cnt : ℕ)
    (map : List (ℕ × List Byte)) (hlt : index + data.length < 2 ^ 64)
    (h : ∀ c ∈ map, index + data.length ≤ c.1) :
    mergeLoop md st ed data index cnt map = .ok ⟨data, index, cnt, map⟩ := by
  cases map with
  | nil => rfl
  | cons c rest =>
    have hc := h c (by simp)
    simp only [mergeLoop, uadd_eq hlt, if_pos hc]

theorem Joined.stop_here {index ed : ℕ} {data : List Byte} {map : List (ℕ × List Byte)} (cnt : ℕ)
    (hne : data ≠ []) (hdata : index + data.length = ed) (h : ∀ c ∈ map, ed ≤ c.1) :
    Joined index ed data map ⟨data, index, cnt, map⟩ where
  ne := hne
  left := le_rfl
  right := hdata.ge
  leftEnd := Or.inl rfl
  rightEnd := Or.inl hdata
  apart c hc := Or.inr (hdata ▸ h c hc)
  covers := by rw [hdata]
  agrees _ _ hS := hS

theorem Joined.absorb {index ed : ℕ} {data : List Byte} {map : List (ℕ × List Byte)} {out : Merge}
    {c : ℕ × List Byte} (h : Joined index ed data map out) (hl : index ≤ c.1) (hr : stop c ≤ ed) :
    Joined index ed data (c :: map) out where
  ne := h.ne
  left := h.left
  right := h.right
  leftEnd := h.leftEnd.imp_right fun ⟨d, hd, e⟩ => ⟨d, by simp [hd], e⟩
  rightEnd := h.rightEnd.imp_right fun ⟨d, hd, e⟩ => ⟨d, by simp [hd], e⟩
  apart := h.apart
  covers := by
    rw [← h.covers, cover_cons, Finset.union_assoc, Finset.union_eq_right]
    intro i hi
    have := Finset.mem_Ico.mp hi
    exact Finset.mem_union_right _ (Finset.mem_Ico.mpr ⟨by omega, by omega⟩)
  agrees S hS hd := h.agrees S (fun d hd => hS d (by simp [hd])) hd

theorem Joined.keep {index ed : ℕ} {data : List Byte} {map : List (ℕ × List Byte)} {out : Merge}
    {c : ℕ × List Byte} (h : Joined index ed data map out) (hc : stop c ≤ index)
    (hrest : ∀ d ∈ map, Before c d) :
    Joined index ed data (c :: map) { out with map := c :: out.map } where
  ne := h.ne
  left := h.left
  right := h.right
  leftEnd := h.leftEnd.imp_right fun ⟨d, hd, e⟩ => ⟨d, by simp [hd], e⟩
  rightEnd := h.rightEnd.imp_right fun ⟨d, hd, e⟩ => ⟨d, by simp [hd], e⟩
  apart d hd := by
    rcases List.mem_cons.mp hd with rfl | hd
    · rcases h.leftEnd with e | ⟨d', hd', e, -⟩
      · exact Or.inl (e ▸ hc)
      · exact Or.inl (e ▸ (hrest d' hd').2)
    · exact h.apart d hd
  covers := by
    simp only [cover_cons, Finset.union_assoc]
    rw [h.covers]
  agrees S hS hd := h.agrees S (fun d hd => hS d (by simp [hd])) hd

theorem Joined.extend_left {st ed : ℕ} {data : List Byte} {map : List (ℕ × List Byte)} {out : Merge}
    {c : ℕ × List Byte} (h : Joined c.1 ed (c.2.take (st - c.1) ++ data) map out)
    (h1 : c.1 < st) (h2 : st < stop c) (h3 : stop c ≤ ed) (hrest : ∀ d ∈ map, Before c d) :
    Joined st ed data (c :: map) out where
  ne := h.ne
  left := h.left.trans h1.le
  right := h.right
  leftEnd := by
    rcases h.leftEnd with e | ⟨d, hd, e, -⟩
    · exact Or.inr ⟨c, by simp, e.symm, h2⟩
    · have h4 := h.left
      have h5 := (hrest d hd).1
      omega
  rightEnd := h.rightEnd.imp_right fun ⟨d, hd, e⟩ => ⟨d, by simp [hd], e⟩
  apart := h.apart
  covers := by
    rw [← h.covers]
    ext i
    simp only [cover_cons, Finset.mem_union, Finset.mem_Ico]
    constructor
    · rintro ((hi | hi) | hi)
      · exact Or.inr ⟨hi.1, by omega⟩
      · exact Or.inl hi
      · exact Or.inr ⟨by omega, hi.2⟩
    · rintro (hi | hi)
      · exact Or.inl (Or.inr hi)
      · by_cases hs : i < stop c
        · exact Or.inl (Or.inl ⟨hi.1, hs⟩)
        · exact Or.inr ⟨by omega, hi.2⟩
  agrees S hS hd := by
    refine h.agrees S (fun d hd => hS d (by simp [hd])) (((hS c (by simp)).take _).append ?_)
    have hlen : (c.2.take (st - c.1)).length = st - c.1 := by
      simp only [stop] at h2
      simp only [List.length_take]
      omega
    rw [hlen, show c.1 + (st - c.1) = st by omega]
    exact hd

theorem Joined.extend_right {index ed : ℕ} {data : List Byte} {map : List (ℕ × List Byte)}
    {c : ℕ × List Byte} (cnt : ℕ) (hne : data ≠ []) (hdata : index + data.length = ed)
    (h1 : index ≤ c.1) (h2 : c.1 < ed) (h3 : ed ≤ stop c) (hrest : ∀ d ∈ map, Before c d) :
    Joined index ed data (c :: map) ⟨data ++ c.2.drop (ed - c.1), index, cnt, map⟩ := by
  have hlen : index + (data ++ c.2.drop (ed - c.1)).length = stop c := by
    simp only [stop] at h3 ⊢
    simp only [List.length_append, List.length_drop]
    omega
  refine ⟨by simp [hne], le_rfl, by simp only [hlen]; exact h3, Or.inl rfl,
    Or.inr ⟨c, by simp, hlen.symm⟩, fun d hd => Or.inr ?_, ?_, fun S hS hd => ?_⟩
  · simp only [hlen]
    exact (hrest d hd).2
  · ext i
    simp only [hlen, cover_cons, Finset.mem_union, Finset.mem_Ico]
    by_cases hi : i ∈ cover map
    · simp [hi]
    · simp only [hi, or_false, false_or]
      omega
  · have hs := (hS c (by simp)).drop (ed - c.1)
    rw [show c.1 + (ed - c.1) = index + data.length by omega] at hs
    exact hd.append hs

theorem Merged.joined {st ed index cnt : ℕ} {data : List Byte} {map : List (ℕ × List Byte)}
    {out : Merge} (hm : Merged st ed index cnt data map out) (h : ∀ c ∈ map, st < c.1) :
    Joined index ed data map out := by
  rcases hm.cases with ⟨-, -, c, hc, h1, -⟩ | hj
  · have := h c hc
    omega
  · exact hj

theorem Merged.taken {st ed index index' cnt : ℕ} {data data' : List Byte}
    {map : List (ℕ × List Byte)} {out : Merge} {c : ℕ × List Byte}
    (hm : Merged st ed index' (cnt - c.2.length) data' map out) (hc : c.2.length ≤ cnt)
    (hj : Joined index ed data (c :: map) out) : Merged st ed index cnt data (c :: map) out := by
  refine ⟨hm.sub.cons _, ?_, Or.inr hj⟩
  have := hm.cnt
  rw [total_cons]
  omega

theorem Merged.keep {st ed index cnt : ℕ} {data : List Byte} {map : List (ℕ × List Byte)}
    {out : Merge} {c : ℕ × List Byte} (hm : Merged st ed index cnt data map out)
    (hc : stop c ≤ index) (hrest : ∀ d ∈ map, Before c d) :
    Merged st ed index cnt data (c :: map) { out with map := c :: out.map } := by
  refine ⟨hm.sub.cons_cons _, ?_, ?_⟩
  · have := hm.cnt
    simp only [total_cons]
    omega
  · rcases hm.cases with ⟨h1, h2, d, hd, h3⟩ | hj
    · exact Or.inl ⟨h1, by rw [h2], d, by simp [hd], h3⟩
    · exact Or.inr (hj.keep hc hrest)

section Turns

/-! One turn of the loop for each place an entry can have, as long as nothing wraps. -/

variable (md : Overflow) {st ed k index cnt : ℕ} {s data : List Byte} {rest : List (ℕ × List Byte)}

theorem mergeLoop_covered (hdata : index + data.length = ed) (hed : ed < 2 ^ 64) (h1 : st ≤ k)
    (h2 : k < ed) (h3 : st < k + s.length) (h4 : k + s.length ≤ ed) (hcnt : s.length ≤ cnt) :
    mergeLoop md st ed data index cnt ((k, s) :: rest) =
      mergeLoop md st ed data index (cnt - s.length) rest := by
  simp only [mergeLoop, uadd_eq (show index + data.length < 2 ^ 64 by omega),
    uadd_eq (show k + s.length < 2 ^ 64 by omega), hdata]
  rw [if_neg (by omega), if_pos ⟨h3, h2⟩, if_pos ⟨h1, h4⟩, usub_eq md hcnt, ok_bind]

/-- The entry covers the string: nothing is left of it, and no later entry is met. -/
theorem mergeLoop_inside (hdata : index + data.length = ed) (hst : st < ed) (hidx : index ≤ st)
    (hks : k + s.length < 2 ^ 64) (h1 : k ≤ st) (h2 : ed ≤ k + s.length)
    (hcov : ¬ (st ≤ k ∧ k + s.length ≤ ed)) (hrest : ∀ c ∈ rest, k + s.length ≤ c.1) :
    mergeLoop md st ed data index cnt ((k, s) :: rest) =
      .ok ⟨[], index, cnt, (k, s) :: rest⟩ := by
  simp only [mergeLoop, uadd_eq (show index + data.length < 2 ^ 64 by omega), uadd_eq hks, hdata]
  rw [if_neg (by omega), if_pos (by omega), if_neg hcov, if_pos ⟨h1, h2⟩,
    mergeLoop_break md st ed [] index cnt rest (by simp only [List.length_nil]; omega)
      (fun c hc => by have := hrest c hc; simp only [List.length_nil]; omega), ok_bind]

theorem mergeLoop_left (hdata : index + data.length = ed) (hed : ed < 2 ^ 64) (h1 : k < st)
    (h2 : st < k + s.length) (h3 : k + s.length < ed) (hcnt : s.length ≤ cnt) :
    mergeLoop md st ed data index cnt ((k, s) :: rest) =
      mergeLoop md st ed (s.take (st - k) ++ data) k (cnt - s.length) rest := by
  simp only [mergeLoop, uadd_eq (show index + data.length < 2 ^ 64 by omega),
    uadd_eq (show k + s.length < 2 ^ 64 by omega), hdata]
  rw [if_neg (by omega), if_pos (by omega), if_neg (by omega), if_neg (by omega),
    if_neg (by omega), usub_eq md h1.le, ok_bind, substr_eq _ (Nat.zero_le _), ok_bind,
    usub_eq md hcnt, ok_bind, List.drop_zero]

/-- The entry crosses the right end: its back part joins the string, which no later
entry then meets. -/
theorem mergeLoop_right (hdata : index + data.length = ed) (h1 : st < k) (h2 : k < ed)
    (h3 : ed < k + s.length) (hks : k + s.length < 2 ^ 64) (hcnt : s.length ≤ cnt)
    (hrest : ∀ c ∈ rest, k + s.length ≤ c.1) :
    mergeLoop md st ed data index cnt ((k, s) :: rest) =
      .ok ⟨data ++ s.drop (ed - k), index, cnt - s.length, rest⟩ := by
  have htake : (s.drop (ed - k)).take (k + s.length - ed) = s.drop (ed - k) := by
    apply List.take_of_length_le
    simp only [List.length_drop]
    omega
  have hlen : index + (data ++ s.drop (ed - k)).length = k + s.length := by
    simp only [List.length_append, List.length_drop]
    omega
  simp only [mergeLoop, uadd_eq (show index + data.length < 2 ^ 64 by omega), uadd_eq hks, hdata]
  rw [if_neg (by omega), if_pos (by omega), if_neg (by omega), if_neg (by omega), if_pos h1.le,
    usub_eq md h2.le, ok_bind, usub_eq md h3.le, ok_bind,
    substr_eq _ (show ed - k ≤ s.length by omega), ok_bind, usub_eq md hcnt, ok_bind, htake]
  exact mergeLoop_break md st ed _ index _ rest (by omega) fun c hc => hlen.trans_le (hrest c hc)

theorem mergeLoop_apart (hdata : index + data.length = ed) (hed : ed < 2 ^ 64) (hst : st < ed)
    (h : k + s.length ≤ st) : mergeLoop md st ed data index cnt ((k, s) :: rest) =
      (mergeLoop md st ed data index cnt rest >>=
        fun m => .ok { m with map := (k, s) :: m.map }) := by
  simp only [mergeLoop, uadd_eq (show index + data.length < 2 ^ 64 by omega),
    uadd_eq (show k + s.length < 2 ^ 64 by omega), hdata]
  rw [if_neg (by omega), if_neg (by omega)]

end Turns

theorem mergeLoop_spec (md : Overflow) (st ed : ℕ) (map : List (ℕ × List Byte)) (hsep : Sep map)
    (hlt : ∀ c ∈ map, stop c < 2 ^ 64) (hed : ed < 2 ^ 64) (hst : st < ed) :
    ∀ (data : List Byte) (index cnt : ℕ), index + data.length = ed → index ≤ st →
      (index = st ∨ ∀ c ∈ map, st < c.1) → total map ≤ cnt →
      ∃ out, mergeLoop md st ed data index cnt map = .ok out ∧
        Merged st ed index cnt data map out := by
  induction map with
  | nil =>
    intro data index cnt hdata hidx _ _
    refine ⟨_, rfl, List.Sublist.refl _, rfl, Or.inr (Joined.stop_here cnt ?_ hdata (by simp))⟩
    rintro rfl
    simp at hdata
    omega
  | cons c rest ih =>
    intro data index cnt hdata hidx hafter hcnt
    obtain ⟨k, s⟩ := c
    obtain ⟨hbefore, hsep'⟩ := List.pairwise_cons.mp hsep
    have ih' := ih hsep' fun c hc => hlt c (by simp [hc])
    have hks : k + s.length < 2 ^ 64 := hlt (k, s) (by simp)
    have hrest : ∀ c ∈ rest, k < c.1 ∧ k + s.length ≤ c.1 := hbefore
    have hne : data ≠ [] := by
      rintro rfl
      simp at hdata
      omega
    -- the string has been extended to the left only by an entry that all others follow
    have hstart : k ≤ st → index = st := fun hk => hafter.resolve_right fun h =>
      absurd (h (k, s) (by simp)) (Nat.not_lt.mpr hk)
    have hafter' : index = st ∨ ∀ c ∈ rest, st < c.1 :=
      hafter.imp_right fun h c hc => h c (by simp [hc])
    simp only [total_cons] at hcnt
    by_cases hbreak : ed ≤ k
    · have hpast : ∀ c ∈ (k, s) :: rest, ed ≤ c.1 := by
        intro c hc
        rcases List.mem_cons.mp hc with rfl | hc
        · exact hbreak
        · have := hrest c hc
          omega
      rw [mergeLoop_break md st ed data index cnt _ (by omega) (by rwa [hdata])]
      exact ⟨_, rfl, List.Sublist.refl _, rfl, Or.inr (Joined.stop_here cnt hne hdata hpast)⟩
    by_cases hapart : k + s.length ≤ st
    · obtain rfl := hstart (by omega)
      obtain ⟨out, hout, hm⟩ := ih' data index cnt hdata hidx hafter' (by omega)
      rw [mergeLoop_apart md hdata hed hst hapart, hout, ok_bind]
      exact ⟨_, rfl, hm.keep hapart hbefore⟩
    by_cases hcov : st ≤ k ∧ k + s.length ≤ ed
    · obtain ⟨out, hout, hm⟩ := ih' data index (cnt - s.length) hdata hidx hafter' (by omega)
      have hj := hm.joined fun c hc => lt_of_le_of_lt hcov.1 (hrest c hc).1
      rw [mergeLoop_covered md hdata hed hcov.1 (by omega) (by omega) hcov.2 (by omega)]
      exact ⟨out, hout, hm.taken (c := (k, s)) (by simp only; omega)
        (hj.absorb (hidx.trans hcov.1) hcov.2)⟩
    by_cases hin : k ≤ st ∧ ed ≤ k + s.length
    · rw [mergeLoop_inside md hdata hst hidx hks hin.1 hin.2 hcov fun c hc => (hrest c hc).2]
      exact ⟨_, rfl, List.Sublist.refl _, rfl, Or.inl ⟨rfl, rfl, (k, s), by simp, hin⟩⟩
    by_cases hright : st < k
    · rw [mergeLoop_right md hdata hright (by omega) (by omega) hks (by omega)
        fun c hc => (hrest c hc).2]
      refine ⟨_, rfl, List.sublist_cons_self _ _, ?_, Or.inr ?_⟩
      · simp only [total_cons]
        omega
      · exact .extend_right (c := (k, s)) _ hne hdata (hidx.trans hright.le) (by simp only; omega)
          (by simp only [stop_mk]; omega) hbefore
    · obtain rfl := hstart (by omega)
      have hlen : (s.take (index - k)).length = index - k := by
        simp only [List.length_take]
        omega
      obtain ⟨out, hout, hm⟩ := ih' (s.take (index - k) ++ data) k (cnt - s.length)
        (by simp only [List.length_append, hlen]; omega) (by omega)
        (Or.inr fun c hc => by have := hrest c hc; omega) (by omega)
      have hj := hm.joined fun c hc => by have := hrest c hc; omega
      rw [mergeLoop_left md hdata hed (by omega) (by omega) (by omega) (by omega)]
      exact ⟨out, hout, hm.taken (c := (k, s)) (by simp only; omega)
        (hj.extend_left (by simp only; omega) (by simp only [stop_mk]; omega)
          (by simp only [stop_mk]; omega) hbefore)⟩

end Sponge
