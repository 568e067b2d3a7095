import Mathlib.Tactic

/-! Loops that only their body ends. A run that leaves has a number of turns; a measure
that drops with each turn that goes on bounds that number, and so gives the fuel with
which a bounded copy of the loop is the loop itself. -/

namespace Sponge

/-- What one turn of a loop does: it goes on, or it leaves. -/
inductive Turn (σ : Type) where
  | again (s : σ)
  | leave (s : σ)

variable {σ : Type} (body : σ → Turn σ)

/-- Started in `s`, the loop leaves in `t` at its `n`th turn. -/
inductive Ends : ℕ → σ → σ → Prop
  | leave {s t : σ} (h : body s = .leave t) : Ends 1 s t
  | again {n : ℕ} {s t u : σ} (h : body s = .again t) (ht : Ends n t u) : Ends (n + 1) s u

/-- The loop cut off after `fuel` turns. -/
def turns : ℕ → σ → σ
  | 0, s => s
  | fuel + 1, s =>
    match body s with
    | .leave t => t
    | .again t => turns fuel t

variable {body}

theorem exists_ends (μ : σ → ℕ) (hμ : ∀ s t, body s = .again t → μ t < μ s) (s : σ) :
    ∃ n t, n ≤ μ s + 1 ∧ Ends body n s t := by
  induction hm : μ s using Nat.strong_induction_on generalizing s with
  | _ m ih =>
    cases hs : body s with
    | leave t => exact ⟨1, t, by omega, .leave hs⟩
    | again t =>
      have hlt := hμ s t hs
      obtain ⟨n, u, hn, hu⟩ := ih (μ t) (hm ▸ hlt) t rfl
      exact ⟨n + 1, u, by omega, .again hs hu⟩

namespace Ends

theorem turns_eq {n : ℕ} {s t : σ} (h : Ends body n s t) :
    ∀ {fuel : ℕ}, n ≤ fuel → turns body fuel s = t := by
  induction h with
  | leave hs =>
    intro fuel hfuel
    obtain ⟨k, rfl⟩ := Nat.exists_eq_add_of_le' hfuel
    simp only [turns, hs]
  | again hs _ ih =>
    intro fuel hfuel
    obtain ⟨k, rfl⟩ : ∃ k, fuel = k + 1 := ⟨fuel - 1, by omega⟩
    simp only [turns, hs]
    exact ih (by omega)

/-- With an invariant of the turns that go on: what the last turn does, kept by each turn
put before it, the loop does. -/
theorem rel {P : σ → Prop} {R : σ → σ → Prop} (hleave : ∀ s t, P s → body s = .leave t → R s t)
    (hagain : ∀ s t, P s → body s = .again t → P t ∧ ∀ u, R t u → R s u) {n : ℕ} {s t : σ}
    (h : Ends body n s t) (hs : P s) : R s t := by
  induction h with
  | leave h => exact hleave _ _ hs h
  | again h _ ih =>
    obtain ⟨ht, hrel⟩ := hagain _ _ hs h
    exact hrel _ (ih ht)

end Ends

end Sponge
