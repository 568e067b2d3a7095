import Mathlib.Tactic
import Mathlib.Data.Finset.Card
import Mathlib.Order.Interval.Finset.Nat

/-! Lists of chunks of a stream: a chunk is a string with the index of its first
element. `cover` is the set of indices a list of chunks holds, `total` the number
of elements it stores, `Sep` says that the chunks stand in order and do not
overlap. An empty chunk is allowed; it covers nothing but occupies its index as
a key. -/

namespace Sponge.Chunks

variable {α : Type*}

def stop (c : ℕ × List α) : ℕ := c.1 + c.2.length

def cover : List (ℕ × List α) → Finset ℕ
  | [] => ∅
  | c :: m => Finset.Ico c.1 (stop c) ∪ cover m

def total : List (ℕ × List α) → ℕ
  | [] => 0
  | c :: m => c.2.length + total m

/-- In key order, and without overlap. -/
def Before (c d : ℕ × List α) : Prop := c.1 < d.1 ∧ stop c ≤ d.1

def Sep (m : List (ℕ × List α)) : Prop := m.Pairwise Before

instance : DecidableRel (@Before α) := fun _ _ => inferInstanceAs (Decidable (_ ∧ _))

/-- Insertion into a map in key order that does nothing on a key already there. -/
def insert (k : ℕ) (s : List α) : List (ℕ × List α) → List (ℕ × List α)
  | [] => [(k, s)]
  | c :: m => if k < c.1 then (k, s) :: c :: m else if k = c.1 then c :: m else c :: insert k s m

/-- The string `s` is what the stream `S` holds from index `k` on. -/
def Agrees (S : List α) (k : ℕ) (s : List α) : Prop := s <+: S.drop k

@[simp] theorem cover_nil : cover ([] : List (ℕ × List α)) = ∅ := rfl

@[simp] theorem cover_cons (c : ℕ × List α) (m : List (ℕ × List α)) :
    cover (c :: m) = Finset.Ico c.1 (stop c) ∪ cover m := rfl

@[simp] theorem total_nil : total ([] : List (ℕ × List α)) = 0 := rfl

@[simp] theorem total_cons (c : ℕ × List α) (m : List (ℕ × List α)) :
    total (c :: m) = c.2.length + total m := rfl

@[simp] theorem stop_mk (k : ℕ) (s : List α) : stop (k, s) = k + s.length := rfl

theorem total_append (m n : List (ℕ × List α)) : total (m ++ n) = total m + total n := by
  induction m with
  | nil => simp
  | cons c m ih => simp [ih, Nat.add_assoc]

theorem mem_cover {m : List (ℕ × List α)} {i : ℕ} :
    i ∈ cover m ↔ ∃ c ∈ m, c.1 ≤ i ∧ i < stop c := by
  induction m with
  | nil => simp
  | cons c m ih => simp [ih]

theorem total_eq_sum (m : List (ℕ × List α)) :
    total m = (m.map fun c => c.2.length).sum := by
  induction m with
  | nil => rfl
  | cons c m ih => simp [ih]

/-- Separated chunks store each covered index once. -/
theorem total_eq_card {m : List (ℕ × List α)} (h : Sep m) : total m = (cover m).card := by
  induction m with
  | nil => rfl
  | cons c m ih =>
    obtain ⟨hc, hm⟩ := List.pairwise_cons.mp h
    have hd : Disjoint (Finset.Ico c.1 (stop c)) (cover m) := by
      rw [Finset.disjoint_left]
      intro i hi hi'
      obtain ⟨d, hd, hl, -⟩ := mem_cover.mp hi'
      have := (hc d hd).2
      have := (Finset.mem_Ico.mp hi).2
      omega
    rw [total_cons, ih hm, cover_cons, Finset.card_union_of_disjoint hd, Nat.card_Ico]
    simp [stop]

/-- Chunks inside `[lo, hi)` that leave `[a, b)` free store at most the rest of it. -/
theorem total_add_gap_le {m : List (ℕ × List α)} {lo hi a b : ℕ} (h : Sep m)
    (hm : ∀ c ∈ m, lo ≤ c.1 ∧ stop c ≤ hi) (ha : lo ≤ a) (hb : b ≤ hi)
    (hfree : ∀ i, a ≤ i → i < b → i ∉ cover m) : total m + (b - a) ≤ hi - lo := by
  have hd : Disjoint (cover m) (Finset.Ico a b) := by
    rw [Finset.disjoint_right]
    intro i hi'
    obtain ⟨h1, h2⟩ := Finset.mem_Ico.mp hi'
    exact hfree i h1 h2
  have hsub : cover m ∪ Finset.Ico a b ⊆ Finset.Ico lo hi := by
    intro i hi'
    rcases Finset.mem_union.mp hi' with h' | h'
    · obtain ⟨c, hc, h1, h2⟩ := mem_cover.mp h'
      have := hm c hc
      exact Finset.mem_Ico.mpr ⟨by omega, by omega⟩
    · have := Finset.mem_Ico.mp h'
      exact Finset.mem_Ico.mpr ⟨by omega, by omega⟩
  have hcard := Finset.card_le_card hsub
  rw [Finset.card_union_of_disjoint hd, ← total_eq_card h, Nat.card_Ico, Nat.card_Ico] at hcard
  exact hcard

theorem total_le_of_sublist {m n : List (ℕ × List α)} (h : m.Sublist n) : total m ≤ total n := by
  induction h with
  | slnil => exact le_rfl
  | cons c _ ih => simp only [total_cons]; omega
  | cons_cons c _ ih => simp only [total_cons]; omega

theorem cover_subset {m n : List (ℕ × List α)} (h : m.Sublist n) : cover m ⊆ cover n := by
  intro i hi
  obtain ⟨c, hc, h1⟩ := mem_cover.mp hi
  exact mem_cover.mpr ⟨c, h.subset hc, h1⟩

theorem Sep.sublist {m n : List (ℕ × List α)} (h : Sep n) (hs : m.Sublist n) : Sep m :=
  List.Pairwise.sublist hs h

theorem Sep.before_or {m : List (ℕ × List α)} (h : Sep m) {c d : ℕ × List α} (hc : c ∈ m)
    (hd : d ∈ m) (hne : c ≠ d) : Before c d ∨ Before d c := by
  have hboth : m.Pairwise fun c d => Before c d ∨ Before d c := h.imp Or.inl
  have hsymm : Std.Symm fun c d : ℕ × List α => Before c d ∨ Before d c := ⟨fun _ _ => Or.symm⟩
  exact hboth.forall hc hd hne

theorem Sep.eq_of_key {m : List (ℕ × List α)} (h : Sep m) {c d : ℕ × List α} (hc : c ∈ m)
    (hd : d ∈ m) (hk : c.1 = d.1) : c = d := by
  by_contra hne
  rcases h.before_or hc hd hne with hb | hb
  · have := hb.1
    omega
  · have := hb.1
    omega

theorem Sep.eq_of_cover {m : List (ℕ × List α)} (h : Sep m) {c d : ℕ × List α} (hc : c ∈ m)
    (hd : d ∈ m) {i : ℕ} (h1 : c.1 ≤ i) (h2 : i < stop c) (h3 : d.1 ≤ i) (h4 : i < stop d) :
    c = d := by
  by_contra hne
  rcases h.before_or hc hd hne with hb | hb
  · have := hb.2
    omega
  · have := hb.2
    omega

theorem mem_insert {k : ℕ} {s : List α} {m : List (ℕ × List α)} {c : ℕ × List α}
    (h : c ∈ insert k s m) : c = (k, s) ∨ c ∈ m := by
  induction m with
  | nil => simpa [insert] using h
  | cons d m ih =>
    simp only [insert] at h
    split_ifs at h with h1 h2
    · simpa using h
    · exact Or.inr h
    · rcases List.mem_cons.mp h with rfl | h
      · exact Or.inr (by simp)
      · rcases ih h with rfl | h
        · exact Or.inl rfl
        · exact Or.inr (by simp [h])

theorem self_mem_insert {k : ℕ} {s : List α} {m : List (ℕ × List α)} (h : ∀ c ∈ m, c.1 ≠ k) :
    (k, s) ∈ insert k s m := by
  induction m with
  | nil => simp [insert]
  | cons d m ih =>
    have hd := h d (by simp)
    simp only [insert]
    split_ifs with h1 h2
    · simp
    · exact absurd h2.symm hd
    · exact List.mem_cons_of_mem _ (ih fun c hc => h c (by simp [hc]))

theorem insert_of_mem {k : ℕ} {s : List α} {m : List (ℕ × List α)} (hm : Sep m)
    (h : ∃ c ∈ m, c.1 = k) : insert k s m = m := by
  induction m with
  | nil => simp at h
  | cons d m ih =>
    obtain ⟨hd, hm⟩ := List.pairwise_cons.mp hm
    obtain ⟨c, hc, rfl⟩ := h
    rcases List.mem_cons.mp hc with rfl | hc
    · simp [insert]
    · have := (hd c hc).1
      simp only [insert, if_neg (show ¬ c.1 < d.1 by omega), if_neg (show ¬ c.1 = d.1 by omega)]
      rw [ih hm ⟨c, hc, rfl⟩]

theorem total_insert {k : ℕ} {s : List α} {m : List (ℕ × List α)} (h : ∀ c ∈ m, c.1 ≠ k) :
    total (insert k s m) = total m + s.length := by
  induction m with
  | nil => simp [insert]
  | cons d m ih =>
    have hd := h d (by simp)
    simp only [insert]
    split_ifs with h1 h2
    · simp only [total_cons]; omega
    · exact absurd h2.symm hd
    · simp only [total_cons, ih fun c hc => h c (by simp [hc])]
      omega

theorem total_insert_le (k : ℕ) (s : List α) (m : List (ℕ × List α)) :
    total (insert k s m) ≤ total m + s.length := by
  induction m with
  | nil => simp [insert]
  | cons d m ih =>
    simp only [insert]
    split_ifs
    · simp only [total_cons]; omega
    · simp only [total_cons]; omega
    · simp only [total_cons]; omega

theorem cover_insert {k : ℕ} {s : List α} {m : List (ℕ × List α)} (h : ∀ c ∈ m, c.1 ≠ k) :
    cover (insert k s m) = Finset.Ico k (k + s.length) ∪ cover m := by
  induction m with
  | nil => simp [insert]
  | cons d m ih =>
    have hd := h d (by simp)
    simp only [insert]
    split_ifs with h1 h2
    · simp
    · exact absurd h2.symm hd
    · simp only [cover_cons, ih fun c hc => h c (by simp [hc])]
      exact Finset.union_left_comm _ _ _

/-- A chunk that overlaps none of the others, and whose key is free, can be inserted. -/
theorem Sep.insert {k : ℕ} {s : List α} {m : List (ℕ × List α)} (hm : Sep m)
    (hk : ∀ c ∈ m, c.1 ≠ k) (hfree : ∀ c ∈ m, stop c ≤ k ∨ k + s.length ≤ c.1) :
    Sep (insert k s m) := by
  induction m with
  | nil => simp [Chunks.insert, Sep]
  | cons d m ih =>
    obtain ⟨hd, hm'⟩ := List.pairwise_cons.mp hm
    have hkd := hk d (by simp)
    have hfd := hfree d (by simp)
    simp only [Chunks.insert]
    split_ifs with h1 h2
    · refine List.pairwise_cons.mpr ⟨?_, hm⟩
      intro c hc
      rcases List.mem_cons.mp hc with rfl | hc
      · refine ⟨h1, ?_⟩
        simp only [stop] at hfd ⊢
        omega
      · have h3 := hd c hc
        have h4 := hfree c (by simp [hc])
        simp only [Before, stop] at h3 h4 ⊢
        omega
    · exact hm
    · refine List.pairwise_cons.mpr ⟨?_, ih hm' (fun c hc => hk c (by simp [hc]))
        fun c hc => hfree c (by simp [hc])⟩
      intro c hc
      rcases mem_insert hc with rfl | hc
      · simp only [Before, stop] at hfd ⊢
        omega
      · exact hd c hc

/-- In key order, with every key above `n`. -/
def Keyed (n : ℕ) (m : List (ℕ × List α)) : Prop :=
  m.Pairwise (fun c d => c.1 < d.1) ∧ ∀ c ∈ m, n < c.1

theorem Keyed.sublist {n : ℕ} {m m' : List (ℕ × List α)} (h : Keyed n m) (hs : m'.Sublist m) :
    Keyed n m' := ⟨h.1.sublist hs, fun c hc => h.2 c (hs.subset hc)⟩

theorem Keyed.insert {n k : ℕ} {s : List α} {m : List (ℕ × List α)} (h : Keyed n m) (hk : n < k) :
    Keyed n (insert k s m) := by
  refine ⟨?_, fun c hc => ?_⟩
  · have hm := h.1
    clear h
    induction m with
    | nil => simp [Chunks.insert]
    | cons d m ih =>
      obtain ⟨hd, hm⟩ := List.pairwise_cons.mp hm
      simp only [Chunks.insert]
      split_ifs with h1 h2
      · refine List.pairwise_cons.mpr ⟨fun c hc => ?_, List.pairwise_cons.mpr ⟨hd, hm⟩⟩
        rcases List.mem_cons.mp hc with rfl | hc
        · exact h1
        · exact h1.trans (hd c hc)
      · exact List.pairwise_cons.mpr ⟨hd, hm⟩
      · refine List.pairwise_cons.mpr ⟨fun c hc => ?_, ih hm⟩
        rcases mem_insert hc with rfl | hc
        · exact lt_of_le_of_ne (Nat.not_lt.mp h1) (Ne.symm h2)
        · exact hd c hc
  · rcases mem_insert hc with rfl | hc
    · exact hk
    · exact h.2 c hc

/-- What is left of a list in key order once its head is above `n`. -/
theorem Keyed.of_suffix {n i : ℕ} {m m' : List (ℕ × List α)} (h : Keyed n m) (hs : m' <:+ m)
    (hhead : ∀ c ∈ m'.head?, i < c.1) : Keyed i m' := by
  have hm := h.1.sublist hs.sublist
  refine ⟨hm, fun c hc => ?_⟩
  cases m' with
  | nil => simp at hc
  | cons d m' =>
    have hd := hhead d rfl
    rcases List.mem_cons.mp hc with rfl | hc
    · exact hd
    · exact hd.trans ((List.pairwise_cons.mp hm).1 c hc)

theorem Agrees.nil (S : List α) (k : ℕ) : Agrees S k [] := List.nil_prefix

theorem Agrees.take {S s : List α} {k : ℕ} (h : Agrees S k s) (n : ℕ) : Agrees S k (s.take n) :=
  (List.take_prefix n s).trans h

theorem Agrees.drop {S s : List α} {k : ℕ} (h : Agrees S k s) (n : ℕ) :
    Agrees S (k + n) (s.drop n) := by
  obtain ⟨t, ht⟩ := h
  unfold Agrees
  rw [← List.drop_drop, ← ht, List.drop_append]
  exact List.prefix_append _ _

theorem Agrees.append {S s t : List α} {k : ℕ} (hs : Agrees S k s)
    (ht : Agrees S (k + s.length) t) : Agrees S k (s ++ t) := by
  obtain ⟨u, hu⟩ := hs
  unfold Agrees at ht ⊢
  rw [← List.drop_drop, ← hu, List.drop_left] at ht
  rw [← hu]
  exact List.prefix_append_right_inj s |>.mpr ht

theorem Agrees.length_le {S s : List α} {k : ℕ} (h : Agrees S k s) (hs : s ≠ []) :
    k + s.length ≤ S.length := by
  have h1 := List.IsPrefix.length_le h
  have h2 : 0 < s.length := List.length_pos_iff.mpr hs
  rw [List.length_drop] at h1
  omega

theorem Agrees.mono {S T s : List α} {k : ℕ} (h : Agrees S k s) (hT : S <+: T) : Agrees T k s := by
  obtain ⟨u, rfl⟩ := hT
  apply List.IsPrefix.trans h
  rw [List.drop_append]
  exact List.prefix_append _ _

theorem Agrees.clip {S s : List α} {k n : ℕ} (h : Agrees S k s) (hn : k + s.length ≤ n) :
    Agrees (S.take n) k s := by
  unfold Agrees at h ⊢
  rw [List.drop_take]
  exact List.prefix_take_iff.mpr ⟨h, by omega⟩

theorem Agrees.eq_take {S s : List α} {k : ℕ} (h : Agrees S k s) :
    s = (S.drop k).take s.length := List.prefix_iff_eq_take.mp h

end Sponge.Chunks
