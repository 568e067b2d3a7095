import Sponge.Sanity.Session

/-! Exact accounting. As long as the counter is the number of bytes stored, the
room it leaves is never what cuts an inserted string: the stored bytes and the
next byte to assemble all lie inside the window. Only a push that starts at the
end of the window spoils the accounts. -/

namespace Sponge

open Chunks StreamReassembler

/-- The indices whose bytes the reassembler has: assembled or stored. -/
def Held (r : StreamReassembler) (i : ℕ) : Prop :=
  i < r.unassembledIndex ∨ i ∈ cover r.unassembledBytes

def Exact (r : StreamReassembler) : Prop := r.unassembledCnt = total r.unassembledBytes

/-- The push hands non-empty data to `merge_string`. -/
def Merges (r : StreamReassembler) (data : List Byte) (index : ℕ) (eof : Bool) : Prop :=
  data ≠ [] ∧ r.unassembledIndex < eofAfter r data index eof ∧ r.unassembledIndex < index ∧
    index ≤ uadd r.output.bytesRead r.capacity

/-- The push is to be inserted under a key that holds an empty string. -/
def Clash (r : StreamReassembler) (data : List Byte) (index : ℕ) (eof : Bool) : Prop :=
  Merges r data index eof ∧ (index, []) ∈ r.unassembledBytes

/-- The push starts exactly at the end of the window. -/
def Edge (r : StreamReassembler) (data : List Byte) (index : ℕ) (eof : Bool) : Prop :=
  Merges r data index eof ∧ index = uadd r.output.bytesRead r.capacity

instance (r : StreamReassembler) (data : List Byte) (index : ℕ) (eof : Bool) :
    Decidable (Merges r data index eof) := inferInstanceAs (Decidable (_ ∧ _ ∧ _ ∧ _))

instance (r : StreamReassembler) (data : List Byte) (index : ℕ) (eof : Bool) :
    Decidable (Clash r data index eof) := inferInstanceAs (Decidable (_ ∧ _))

instance (r : StreamReassembler) (data : List Byte) (index : ℕ) (eof : Bool) :
    Decidable (Edge r data index eof) := inferInstanceAs (Decidable (_ ∧ _))

theorem Inv.not_held_next {r : StreamReassembler} (h : Inv r) : ¬ Held r r.unassembledIndex := by
  rintro (h1 | h1)
  · omega
  · obtain ⟨c, hc, h2, -⟩ := mem_cover.mp h1
    have := h.after c hc
    omega

/-- The stored bytes leave room for any free part of the window and the next byte. -/
theorem Mergeable.total_add_gap {r : StreamReassembler} (h : Mergeable r) {m : List (ℕ × List Byte)}
    (hm : m.Sublist r.unassembledBytes) {a b : ℕ} (ha : r.unassembledIndex < a)
    (hb : b ≤ r.output.bytesRead + r.capacity) (hab : a ≤ b)
    (hfree : ∀ i, a ≤ i → i < b → i ∉ cover m) :
    total m + (b - a) + 1 + r.output.buffer.length ≤ r.capacity := by
  have hread := h.read
  have : total m + (b - a) ≤ r.output.bytesRead + r.capacity - (r.unassembledIndex + 1) :=
    total_add_gap_le (h.sep.sublist hm)
      (fun c hc => ⟨h.after c (hm.subset hc), h.window c (hm.subset hc)⟩) ha hb hfree
  omega

theorem Joined.free {index ed : ℕ} {data : List Byte} {map : List (ℕ × List Byte)} {out : Merge}
    (hj : Joined index ed data map out) (i : ℕ) (h1 : out.index ≤ i)
    (h2 : i < out.index + out.data.length) : i ∉ cover out.map := by
  intro hi
  obtain ⟨c, hc, h3, h4⟩ := mem_cover.mp hi
  have := hj.apart c hc
  omega

/-- With exact accounting the insertion is cut at the end of the window only. -/
theorem insert_size {r : StreamReassembler} (h : Mergeable r) (he : Exact r) {data : List Byte}
    {index n : ℕ} {out : Merge} (hi : r.unassembledIndex < index)
    (hle : index ≤ r.output.bytesRead + r.capacity)
    (hm : Merged index (index + data.length) index r.unassembledCnt data r.unassembledBytes out)
    (hj : Joined index (index + data.length) data r.unassembledBytes out)
    (hn : n = min (min (out.index + out.data.length) (r.output.bytesRead + r.capacity) - out.index)
      (r.capacity - r.output.buffer.length - out.cnt)) :
    out.cnt = total out.map ∧
      n = min (out.index + out.data.length) (r.output.bytesRead + r.capacity) - out.index := by
  have hleft := hj.left
  have hcnt : out.cnt = total out.map := by
    have := hm.cnt
    unfold Exact at he
    omega
  have hgap := h.total_add_gap hm.sub (hj.index_gt hi h.after)
    (b := min (out.index + out.data.length) (r.output.bytesRead + r.capacity)) (by omega) (by omega)
    fun i h1 h2 => hj.free i h1 (by omega)
  refine ⟨hcnt, ?_⟩
  omega

theorem Joined.covers_window {index ed w : ℕ} {data : List Byte} {map : List (ℕ × List Byte)}
    {out : Merge} (hj : Joined index ed data map out) (hsub : out.map.Sublist map)
    (hmap : ∀ c ∈ map, stop c ≤ w) (i : ℕ) :
    (i ∈ cover map ∨ (index ≤ i ∧ i < ed ∧ i < w)) ↔
      (i ∈ cover out.map ∨ (out.index ≤ i ∧ i < out.index + out.data.length ∧ i < w)) := by
  have hc : (i ∈ cover map ∨ (index ≤ i ∧ i < ed)) ↔
      (i ∈ cover out.map ∨ (out.index ≤ i ∧ i < out.index + out.data.length)) := by
    have := Finset.ext_iff.mp hj.covers i
    simpa only [Finset.mem_union, Finset.mem_Ico] using this
  have hw : i ∈ cover map → i < w := by
    intro hi
    obtain ⟨c, hc, -, h2⟩ := mem_cover.mp hi
    have := hmap c hc
    omega
  constructor
  · rintro (h1 | ⟨h1, h2, h3⟩)
    · exact (hc.mp (Or.inl h1)).imp_right fun h => ⟨h.1, h.2, hw h1⟩
    · exact (hc.mp (Or.inr ⟨h1, h2⟩)).imp_right fun h => ⟨h.1, h.2, h3⟩
  · rintro (h1 | ⟨h1, h2, h3⟩)
    · exact Or.inl (cover_subset hsub h1)
    · exact (hc.mpr (Or.inr ⟨h1, h2⟩)).imp_right fun h => ⟨h.1, h.2, h3⟩

theorem Exact.stored_push {r r' : StreamReassembler} (h : Mergeable r) (he : Exact r)
    {data : List Byte} {index : ℕ} (hi : r.unassembledIndex < index)
    (hle : index ≤ r.output.bytesRead + r.capacity)
    (hfree : data ≠ [] → (index, []) ∉ r.unassembledBytes) (hs : Stored r data index r') :
    Exact r' ∧ ∀ i, i ∈ cover r'.unassembledBytes ↔
      i ∈ cover r.unassembledBytes ∨
        (index ≤ i ∧ i < index + data.length ∧ i < r.output.bytesRead + r.capacity) := by
  cases hs with
  | held hcov =>
    refine ⟨he, fun i => ⟨Or.inl, ?_⟩⟩
    rintro (h1 | ⟨h1, h2, -⟩)
    · exact h1
    · exact hcov i h1 h2
  | inserted out n hne hm hj hn =>
    obtain ⟨hcnt, hsize⟩ := insert_size h he hi hle hm hj hn
    have hkey : ∀ c ∈ out.map, c.1 ≠ out.index := fun c hc hk =>
      hfree hne (hj.key_mem h.sep hm.sub hc hk).2
    have hlen : (out.data.take n).length = n := by
      rw [List.length_take]
      omega
    refine ⟨?_, fun i => ?_⟩
    · unfold Exact
      simp only
      rw [total_insert hkey, hlen, hcnt]
    · have hleft := hj.left
      simp only
      rw [hj.covers_window hm.sub h.window i, cover_insert hkey, hlen, Finset.mem_union,
        Finset.mem_Ico]
      constructor
      · rintro (h1 | h1)
        · exact Or.inr ⟨h1.1, by omega, by omega⟩
        · exact Or.inl h1
      · rintro (h1 | h1)
        · exact Or.inr h1
        · exact Or.inl ⟨h1.1, by omega⟩

theorem Exact.pushed {r r' : StreamReassembler} (h : Inv r) (he : Exact r) {data : List Byte}
    {index : ℕ} {eof : Bool} (hfree : ¬ Clash r data index eof) (hp : Pushed r data index eof r') :
    Exact r' := by
  cases hp with
  | ended => exact he
  | ignored => exact he
  | stored hend hi hlt hle hs =>
    refine (Exact.stored_push (h.noted data index eof).mergeable he hi hle (fun hne hmem => ?_) hs).1
    exact hfree ⟨⟨hne, hend, hi, by rw [uadd_eq hlt]; exact hle⟩, hmem⟩
  | shut => exact he
  | wrote _ _ _ _ _ new pre post hd =>
    have := hd.pre_le
    unfold Exact at he ⊢
    simp only
    omega

/-- `unassembled_bytes()` counts every stored index once, no stored string is
empty, and `empty()` says whether anything is stored. -/
structure Accounting (r : StreamReassembler) : Prop where
  size : r.unassembledSize = (r.unassembledBytes.map fun c => c.2.length).sum
  distinct : r.unassembledSize = (cover r.unassembledBytes).card
  nonempty : ∀ c ∈ r.unassembledBytes, c.2 ≠ []
  empty : r.empty = true ↔ r.unassembledSize = 0

theorem Inv.accounting_iff {r : StreamReassembler} (h : Inv r) :
    Accounting r ↔ Exact r ∧ ∀ c ∈ r.unassembledBytes, c.2 ≠ [] := by
  constructor
  · intro ha
    exact ⟨ha.size.trans (total_eq_sum _).symm, ha.nonempty⟩
  · rintro ⟨he, hne⟩
    refine ⟨he.trans (total_eq_sum _), he.trans (total_eq_card h.sep), hne, ?_⟩
    unfold StreamReassembler.empty unassembledSize
    rw [List.isEmpty_iff, he]
    constructor
    · intro hnil
      rw [hnil, total_nil]
    · intro hzero
      cases hm : r.unassembledBytes with
      | nil => rfl
      | cons c m =>
        have hpos : 0 < c.2.length := List.length_pos_iff.mpr (hne c (by simp [hm]))
        rw [hm, total_cons] at hzero
        omega

theorem Accounting.new (capacity : ℕ) : Accounting (StreamReassembler.new capacity) :=
  ⟨rfl, rfl, by simp [StreamReassembler.new], by simp [StreamReassembler.new, StreamReassembler.empty,
    unassembledSize]⟩

theorem accounting_stored {r r' : StreamReassembler} (h : Inv r) (ha : Accounting r)
    {data : List Byte} {index : ℕ} (hne : data ≠ []) (hi : r.unassembledIndex < index)
    (hlt : r.output.bytesRead + r.capacity < 2 ^ 64)
    (hle : index ≤ r.output.bytesRead + r.capacity) (hs : Stored r data index r') :
    Accounting r' ↔ index ≠ r.output.bytesRead + r.capacity := by
  have hpos : 0 < data.length := List.length_pos_iff.mpr hne
  obtain ⟨he, hno⟩ := h.accounting_iff.mp ha
  have hfree : data ≠ [] → (index, []) ∉ r.unassembledBytes := fun _ hmem => hno _ hmem rfl
  have he' := (Exact.stored_push h.mergeable he hi hle hfree hs).1
  rw [(h.stored_push hi hlt hle hs).accounting_iff]
  cases hs with
  | held hcov =>
    refine iff_of_true ⟨he, hno⟩ fun hedge => ?_
    obtain ⟨c, hc, -, h2⟩ := mem_cover.mp (hcov index le_rfl (by omega))
    have := h.window c hc
    omega
  | inserted out n _ hm hj hn =>
    obtain ⟨-, hsize⟩ := insert_size h.mergeable he hi hle hm hj hn
    have hleft := hj.left
    have hkey : ∀ c ∈ out.map, c.1 ≠ out.index := fun c hc hk =>
      hfree hne (hj.key_mem h.sep hm.sub hc hk).2
    constructor
    · rintro ⟨-, hall⟩ hedge
      -- nothing stored reaches past the window, so the string was not joined on its left
      have hix : out.index = index := by
        rcases hj.leftEnd with e | ⟨c, hc, -, h2⟩
        · exact e
        · have := h.window c hc
          omega
      have hzero : n = 0 := by omega
      refine hall (out.index, out.data.take n) ?_ (by simp [hzero])
      exact self_mem_insert hkey
    · intro hedge
      refine ⟨he', fun c hc => ?_⟩
      rcases mem_insert hc with rfl | hc
      · apply List.ne_nil_of_length_pos
        have : 0 < out.data.length := List.length_pos_iff.mpr hj.ne
        rw [List.length_take]
        omega
      · exact hno c (hm.sub.subset hc)

/-- One push from a state with exact accounts keeps them unless it starts at the edge. -/
theorem accounting_pushed {r r' : StreamReassembler} (h : Inv r) (ha : Accounting r)
    {data : List Byte} {index : ℕ} {eof : Bool} (hb : index + data.length < 2 ^ 64)
    (hp : Pushed r data index eof r') : Accounting r' ↔ ¬ Edge r data index eof := by
  cases hp with
  | ended hend =>
    refine iff_of_true { ha with } ?_
    rintro ⟨⟨-, h2, -⟩, -⟩
    omega
  | ignored _ hout =>
    refine iff_of_true { ha with } ?_
    rintro ⟨⟨-, -, h3, h4⟩, -⟩
    omega
  | stored hend hi hlt hle hs =>
    by_cases hne : data = []
    · subst hne
      refine iff_of_true ?_ fun hedge => hedge.1.1 rfl
      cases hs with
      | held => exact { ha with }
      | inserted _ _ hne => exact absurd rfl hne
    · rw [accounting_stored (h.noted data index eof) { ha with } hne hi hlt hle hs]
      unfold Edge Merges
      rw [uadd_eq hlt]
      exact not_congr ⟨fun e => ⟨⟨hne, hend, hi, hle⟩, e⟩, fun e => e.2⟩
  | shut _ _ h1 _ _ =>
    refine iff_of_true { ha with } ?_
    rintro ⟨⟨-, -, h3, -⟩, -⟩
    omega
  | wrote hend hopen h1 h2 hU new pre post hd =>
    refine iff_of_true ?_ fun hedge => absurd hedge.1.2.2.1 (Nat.not_lt.mpr h1)
    rw [(h.pushed hb (Pushed.wrote hend hopen h1 h2 hU new pre post hd)).accounting_iff]
    obtain ⟨he, hno⟩ := h.accounting_iff.mp ha
    refine ⟨?_, fun c hc => hno c ?_⟩
    · have := hd.pre_le
      unfold Exact at he ⊢
      simp only
      omega
    · rw [hd.split]
      exact List.mem_append_right _ hc

end Sponge
