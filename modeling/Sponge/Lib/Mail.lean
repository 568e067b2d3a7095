import Mathlib.Tactic

/-! Items handed in for a destination, each numbered by its turn. An item is carried at
once, or queued for its destination and later carried or dropped with all that are queued
there. Whatever the order of the moves, every item is in exactly one place and those for
one destination are carried in their turn. -/

namespace Sponge

variable {κ : Type}

/-- `sent` has the destination of each item. -/
structure Mail (κ : Type) where
  sent : List κ
  carried : List ℕ
  queued : κ → List ℕ
  dropped : List ℕ

namespace Mail

theorem getElem?_snoc_cases {l : List κ} {k k' : κ} {n : ℕ} (h : (l ++ [k])[n]? = some k') :
    l[n]? = some k' ∨ n = l.length ∧ k' = k := by
  rcases Nat.lt_or_ge n l.length with hn | hn
  · exact .inl (by rwa [List.getElem?_append_left hn] at h)
  · rw [List.getElem?_append_right hn] at h
    have hlast : n - l.length = 0 := by
      have := (List.getElem?_eq_some_iff.mp h).1
      simp only [List.length_singleton] at this
      omega
    rw [hlast] at h
    exact .inr ⟨by omega, (Option.some.inj h).symm⟩

theorem getElem?_snoc {l : List κ} {k k' : κ} {n : ℕ} (h : l[n]? = some k) :
    (l ++ [k'])[n]? = some k := by
  rw [List.getElem?_append_left (List.getElem?_eq_some_iff.mp h).1, h]

variable [DecidableEq κ]

inductive Move : Mail κ → Mail κ → Prop
  | stay (m : Mail κ) : Move m m
  | carry (m : Mail κ) (k : κ) (hq : m.queued k = []) : Move m { m with
      sent := m.sent ++ [k]
      carried := m.carried ++ [m.sent.length] }
  | queue (m : Mail κ) (k : κ) : Move m { m with
      sent := m.sent ++ [k]
      queued := fun k' => if k' = k then m.queued k' ++ [m.sent.length] else m.queued k' }
  | release (m : Mail κ) (k : κ) : Move m { m with
      carried := m.carried ++ m.queued k
      queued := fun k' => if k' = k then [] else m.queued k' }
  | drop (m : Mail κ) (ks : List κ) (hks : ks.Nodup) : Move m { m with
      queued := fun k => if k ∈ ks then [] else m.queued k
      dropped := m.dropped ++ ks.flatMap m.queued }

/-- The item goes to `k`. -/
def goesTo (m : Mail κ) (k : κ) (n : ℕ) : Bool := m.sent[n]? = some k

structure Kept (m : Mail κ) : Prop where
  queued : ∀ k, ∀ n ∈ m.queued k, m.sent[n]? = some k
  carried : ∀ n ∈ m.carried, n < m.sent.length
  dropped : ∀ n ∈ m.dropped, n < m.sent.length
  once : ∀ n k, m.sent[n]? = some k →
    m.carried.count n + (m.queued k).count n + m.dropped.count n = 1
  order : ∀ k, (m.carried.filter (m.goesTo k) ++ m.queued k).Pairwise (· < ·)

/-- A number is counted only at its own destination. -/
theorem count_flatMap {f : κ → List ℕ} {ks : List κ} (hks : ks.Nodup) {n : ℕ} {k : κ}
    (hk : ∀ k', n ∈ f k' → k' = k) :
    (ks.flatMap f).count n = if k ∈ ks then (f k).count n else 0 := by
  induction ks with
  | nil => rfl
  | cons k' ks ih =>
    rw [List.nodup_cons] at hks
    rw [List.flatMap_cons, List.count_append, ih hks.2]
    by_cases heq : k' = k
    · subst heq
      simp [hks.1]
    · have hzero : (f k').count n = 0 := List.count_eq_zero.mpr fun h => heq (hk k' h)
      simp [hzero, Ne.symm heq]

variable {m m' : Mail κ}

namespace Kept

theorem lt_of_queued (h : m.Kept) {k : κ} {n : ℕ} (hn : n ∈ m.queued k) : n < m.sent.length :=
  (List.getElem?_eq_some_iff.mp (h.queued k n hn)).1

/-- The next number is nowhere. -/
theorem fresh (h : m.Kept) (k : κ) :
    m.carried.count m.sent.length = 0 ∧ (m.queued k).count m.sent.length = 0 ∧
      m.dropped.count m.sent.length = 0 := by
  refine ⟨List.count_eq_zero.mpr fun hn => ?_, List.count_eq_zero.mpr fun hn => ?_,
    List.count_eq_zero.mpr fun hn => ?_⟩
  · exact Nat.lt_irrefl _ (h.carried _ hn)
  · exact Nat.lt_irrefl _ (h.lt_of_queued hn)
  · exact Nat.lt_irrefl _ (h.dropped _ hn)

/-- Handing in one more changes nothing for those carried before. -/
theorem filter_snoc (h : m.Kept) (k k' : κ) :
    m.carried.filter (fun n => (m.sent ++ [k'])[n]? = some k) = m.carried.filter (m.goesTo k) := by
  refine List.filter_congr fun n hn => ?_
  rw [List.getElem?_append_left (h.carried n hn)]
  rfl

theorem order_lt (h : m.Kept) (k : κ) :
    ∀ n ∈ m.carried.filter (m.goesTo k) ++ m.queued k, n < m.sent.length := by
  intro n hn
  rcases List.mem_append.mp hn with hn | hn
  · exact h.carried n (List.mem_of_mem_filter hn)
  · exact h.lt_of_queued hn

theorem carry (h : m.Kept) {k : κ} (hq : m.queued k = []) : Kept { m with
    sent := m.sent ++ [k]
    carried := m.carried ++ [m.sent.length] } where
  queued k' n hn := getElem?_snoc (h.queued k' n hn)
  carried n hn := by
    rw [List.length_append, List.length_singleton]
    rcases List.mem_append.mp hn with hn | hn
    · exact Nat.lt_succ_of_lt (h.carried n hn)
    · rw [List.mem_singleton.mp hn]
      exact Nat.lt_succ_self _
  dropped n hn := by
    rw [List.length_append]
    exact Nat.lt_succ_of_lt (h.dropped n hn)
  once n k' hn := by
    rw [List.count_append]
    rcases getElem?_snoc_cases hn with hold | ⟨rfl, rfl⟩
    · have hne : m.sent.length ≠ n := (List.getElem?_eq_some_iff.mp hold).1.ne'
      rw [List.count_singleton, if_neg (by simpa using hne)]
      exact h.once n k' hold
    · obtain ⟨hc, hqueue, hd⟩ := h.fresh k'
      simp [hc, hqueue, hd]
  order k' := by
    have hlt := h.order_lt k'
    have hold := h.order k'
    show (List.filter (fun n => (m.sent ++ [k])[n]? = some k') _ ++ _).Pairwise _
    rw [List.filter_append, h.filter_snoc]
    by_cases hk : k = k'
    · subst hk
      rw [hq, List.append_nil] at hold hlt ⊢
      rw [List.pairwise_append]
      refine ⟨hold, List.Pairwise.filter _ (List.pairwise_singleton _ _), fun x hx y hy => ?_⟩
      rw [List.mem_singleton.mp (List.mem_of_mem_filter hy)]
      exact hlt x hx
    · simpa [hk] using hold

theorem queue (h : m.Kept) (k : κ) : Kept { m with
    sent := m.sent ++ [k]
    queued := fun k' => if k' = k then m.queued k' ++ [m.sent.length] else m.queued k' } where
  queued k' n hn := by
    dsimp only at hn ⊢
    split_ifs at hn with hk
    · rcases List.mem_append.mp hn with hn | hn
      · exact getElem?_snoc (h.queued k' n hn)
      · rw [List.mem_singleton.mp hn, hk]
        exact List.getElem?_concat_length
    · exact getElem?_snoc (h.queued k' n hn)
  carried n hn := by
    rw [List.length_append]
    exact Nat.lt_succ_of_lt (h.carried n hn)
  dropped n hn := by
    rw [List.length_append]
    exact Nat.lt_succ_of_lt (h.dropped n hn)
  once n k' hn := by
    dsimp only
    rcases getElem?_snoc_cases hn with hold | ⟨rfl, rfl⟩
    · have hne : m.sent.length ≠ n := (List.getElem?_eq_some_iff.mp hold).1.ne'
      have hsame : (if k' = k then m.queued k' ++ [m.sent.length] else m.queued k').count n =
          (m.queued k').count n := by
        split_ifs
        · rw [List.count_append, List.count_singleton, if_neg (by simpa using hne), Nat.add_zero]
        · rfl
      rw [hsame]
      exact h.once n k' hold
    · obtain ⟨hc, hqueue, hd⟩ := h.fresh k'
      simp [hc, hqueue, hd]
  order k' := by
    have hlt := h.order_lt k'
    have hold := h.order k'
    show (List.filter (fun n => (m.sent ++ [k])[n]? = some k') _ ++ _).Pairwise _
    rw [h.filter_snoc]
    dsimp only
    split_ifs with hk
    · rw [← List.append_assoc, List.pairwise_append]
      refine ⟨hold, List.pairwise_singleton _ _, fun x hx y hy => ?_⟩
      rw [List.mem_singleton.mp hy]
      exact hlt x hx
    · exact hold

theorem release (h : m.Kept) (k : κ) : Kept { m with
    carried := m.carried ++ m.queued k
    queued := fun k' => if k' = k then [] else m.queued k' } where
  queued k' n hn := by
    dsimp only at hn
    split_ifs at hn with hk
    · exact absurd hn List.not_mem_nil
    · exact h.queued k' n hn
  carried n hn := by
    rcases List.mem_append.mp hn with hn | hn
    · exact h.carried n hn
    · exact h.lt_of_queued hn
  dropped := h.dropped
  once n k' hn := by
    have honce := h.once n k' hn
    dsimp only
    rw [List.count_append]
    split_ifs with hk
    · subst hk
      rw [List.count_nil]
      omega
    · have hnot : (m.queued k).count n = 0 := List.count_eq_zero.mpr fun hq =>
        hk (Option.some.inj (hn.symm.trans (h.queued k n hq)))
      omega
  order k' := by
    have hold := h.order k'
    show (List.filter (m.goesTo k') _ ++ _).Pairwise _
    rw [List.filter_append]
    dsimp only
    split_ifs with hk
    · subst hk
      have hall : (m.queued k').filter (m.goesTo k') = m.queued k' :=
        List.filter_eq_self.mpr fun n hn => decide_eq_true (h.queued k' n hn)
      rwa [hall, List.append_nil]
    · have hnone : (m.queued k).filter (m.goesTo k') = [] := by
        refine List.filter_eq_nil_iff.mpr fun n hn hto => hk ?_
        exact Option.some.inj ((of_decide_eq_true hto).symm.trans (h.queued k n hn))
      rwa [hnone, List.append_nil]

theorem drop (h : m.Kept) {ks : List κ} (hks : ks.Nodup) : Kept { m with
    queued := fun k => if k ∈ ks then [] else m.queued k
    dropped := m.dropped ++ ks.flatMap m.queued } where
  queued k n hn := by
    dsimp only at hn
    split_ifs at hn with hk
    · exact absurd hn List.not_mem_nil
    · exact h.queued k n hn
  carried := h.carried
  dropped n hn := by
    rcases List.mem_append.mp hn with hn | hn
    · exact h.dropped n hn
    · obtain ⟨k, -, hq⟩ := List.mem_flatMap.mp hn
      exact h.lt_of_queued hq
  once n k hn := by
    have honce := h.once n k hn
    have hown : ∀ k', n ∈ m.queued k' → k' = k := fun k' hq =>
      Option.some.inj ((h.queued k' n hq).symm.trans hn)
    dsimp only
    rw [List.count_append, count_flatMap hks hown]
    split_ifs
    · rw [List.count_nil]
      omega
    · omega
  order k := by
    have hold := h.order k
    show (List.filter (m.goesTo k) _ ++ _).Pairwise _
    dsimp only
    split_ifs
    · rw [List.append_nil]
      exact (List.pairwise_append.mp hold).1
    · exact hold

theorem move (h : m.Kept) (hmove : Move m m') : m'.Kept := by
  cases hmove with
  | stay => exact h
  | carry k hq => exact h.carry hq
  | queue k => exact h.queue k
  | release k => exact h.release k
  | drop ks hks => exact h.drop hks

end Kept

end Mail

end Sponge
