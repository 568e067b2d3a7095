import Mathlib.Tactic

/-! Items laid end to end from 0: each starts where those before it end. -/

namespace Sponge

variable {α : Type} (len : α → ℕ)

def span (l : List α) : ℕ := (l.map len).sum

/-- `P` holds of every item and the position it starts at. -/
def Tiled (P : ℕ → α → Prop) (l : List α) : Prop :=
  ∀ pre a post, l = pre ++ a :: post → P (span len pre) a

variable {len}

@[simp] theorem span_nil : span len [] = 0 := rfl

@[simp] theorem span_cons (a : α) (l : List α) : span len (a :: l) = len a + span len l := by
  simp [span]

@[simp] theorem span_append (l m : List α) : span len (l ++ m) = span len l + span len m := by
  simp [span]

theorem Tiled.nil (P : ℕ → α → Prop) : Tiled len P [] := by
  intro pre a post h
  simp at h

theorem append_cases {l m pre post : List α} {a : α} (h : l ++ m = pre ++ a :: post) :
    (∃ rest, l = pre ++ a :: rest) ∨ ∃ mid, pre = l ++ mid ∧ m = mid ++ a :: post := by
  rcases List.append_eq_append_iff.mp h with ⟨mid, h1, h2⟩ | ⟨rest, h1, h2⟩
  · exact Or.inr ⟨mid, h1, h2⟩
  · cases rest with
    | nil => exact Or.inr ⟨[], by simpa using h1.symm, by simpa using h2.symm⟩
    | cons b rest =>
      rw [List.cons_append] at h2
      cases h2
      exact Or.inl ⟨rest, h1⟩

theorem snoc_cases {l pre post : List α} {a b : α} (h : l ++ [a] = pre ++ b :: post) :
    (l = pre ∧ a = b ∧ post = []) ∨ ∃ rest, l = pre ++ b :: rest := by
  rcases append_cases h with hrest | ⟨mid, hpre, hmid⟩
  · exact Or.inr hrest
  · cases mid with
    | nil =>
      cases hmid
      exact Or.inl ⟨by simpa using hpre.symm, rfl, rfl⟩
    | cons c mid => simp at hmid

/-- Two items of one list are the same one, or one ends before the other starts. -/
theorem span_apart {l pre post pre' post' : List α} {a b : α} (h : l = pre ++ a :: post)
    (h' : l = pre' ++ b :: post') :
    (pre = pre' ∧ a = b) ∨ span len pre + len a ≤ span len pre' ∨
      span len pre' + len b ≤ span len pre := by
  rcases append_cases (h.symm.trans h') with ⟨rest, hpre⟩ | ⟨mid, hpre, hmid⟩
  · refine Or.inr (Or.inr ?_)
    rw [hpre, span_append, span_cons]
    omega
  · cases mid with
    | nil =>
      cases hmid
      exact Or.inl ⟨by simpa using hpre.symm, rfl⟩
    | cons c mid =>
      cases hmid
      refine Or.inr (Or.inl ?_)
      rw [hpre, span_append, span_cons]
      omega

theorem Tiled.snoc {P : ℕ → α → Prop} {l : List α} {a : α} (h : Tiled len P l)
    (ha : P (span len l) a) : Tiled len P (l ++ [a]) := by
  intro pre b post hl
  rcases snoc_cases hl with ⟨rfl, rfl, -⟩ | ⟨rest, hl⟩
  · exact ha
  · exact h pre b rest hl

theorem Tiled.imp {P Q : ℕ → α → Prop} {l : List α} (h : Tiled len P l)
    (hPQ : ∀ p a, P p a → Q p a) : Tiled len Q l :=
  fun pre a post hl => hPQ _ _ (h pre a post hl)

theorem Tiled.tail {P : ℕ → α → Prop} {l : List α} {a : α} (h : Tiled len P (a :: l)) :
    Tiled len (fun p b => P (len a + p) b) l := by
  intro pre b post hl
  have := h (a :: pre) b post (by rw [hl]; rfl)
  rwa [span_cons] at this

/-- Items from `start` on, taken as long as they end at or before `bound`: the
first one left ends after it. -/
theorem Tiled.takeWhile {c : α → Bool} {start bound : ℕ} {l : List α}
    (h : Tiled len (fun p a => c a = true ↔ start + p + len a ≤ bound) l) (hs : start ≤ bound) :
    start + span len (l.takeWhile c) ≤ bound ∧
      ∀ a rest, l.dropWhile c = a :: rest → bound < start + span len (l.takeWhile c) + len a := by
  induction l generalizing start with
  | nil => simpa using hs
  | cons a l ih =>
    have ha : c a = true ↔ start + 0 + len a ≤ bound := h [] a l rfl
    cases hc : c a with
    | true =>
      rw [hc] at ha
      have hl : Tiled len (fun p b => c b = true ↔ start + len a + p + len b ≤ bound) l :=
        h.tail.imp fun p b hb => by rwa [← Nat.add_assoc] at hb
      obtain ⟨h1, h2⟩ := ih hl (by simpa using ha)
      simp only [List.takeWhile_cons, List.dropWhile_cons, hc, if_true, span_cons]
      rw [← Nat.add_assoc]
      exact ⟨h1, h2⟩
    | false =>
      rw [hc] at ha
      simp only [List.takeWhile_cons, List.dropWhile_cons, hc, Bool.false_eq_true, if_false, span_nil]
      refine ⟨hs, fun b rest hb => ?_⟩
      cases hb
      simpa using ha

/-- So exactly the items that end at or before `bound` are taken. -/
theorem Tiled.dropWhile_iff {c : α → Bool} {start bound : ℕ} {pre post : List α} {a : α}
    (h : Tiled len (fun p a => c a = true ↔ start + p + len a ≤ bound) (pre ++ a :: post))
    (hs : start ≤ bound) :
    (pre ++ a :: post).dropWhile c <:+ post ↔ start + span len pre + len a ≤ bound := by
  obtain ⟨h1, h2⟩ := h.takeWhile hs
  have hsplit := List.takeWhile_append_dropWhile (p := c) (l := pre ++ a :: post)
  have hspan := congrArg (span len) hsplit
  rw [span_append, span_append, span_cons] at hspan
  constructor
  · rintro ⟨u, hu⟩
    have := congrArg (span len) hu
    rw [span_append] at this
    omega
  · intro hle
    have hdrop : (pre ++ a :: post).dropWhile c <:+ pre ++ a :: post := List.dropWhile_suffix _
    rcases List.suffix_or_suffix_of_suffix hdrop (List.suffix_append pre (a :: post)) with hd | ⟨u, hu⟩
    · rcases List.suffix_cons_iff.mp hd with heq | hd
      · have := h2 a post heq
        rw [heq, span_cons] at hspan
        omega
      · exact hd
    · have hspan' := congrArg (span len) hu
      rw [span_append, span_cons] at hspan'
      cases u with
      | nil =>
        have := h2 a post hu.symm
        rw [span_nil] at hspan'
        omega
      | cons b u =>
        have := h2 b (u ++ a :: post) hu.symm
        rw [span_cons] at hspan'
        omega

end Sponge
