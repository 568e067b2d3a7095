import Sponge.Lib.Exec

/-! Postconditions of computations that may fail: a value that is returned satisfies `Q`, an
error that is raised satisfies `E`. The rules follow the way such computations are put together,
up to whole runs. -/

namespace Sponge

variable {ε α β : Type} {E E' : ε → Prop} {P Q : α → Prop} {R : β → Prop}

def Outcome (E : ε → Prop) (Q : α → Prop) : Except ε α → Prop
  | .ok a => Q a
  | .error e => E e

namespace Outcome

@[simp] theorem ok_iff {a : α} : Outcome E Q (.ok a) ↔ Q a := Iff.rfl

@[simp] theorem error_iff {e : ε} : Outcome E Q (.error e) ↔ E e := Iff.rfl

theorem bind {x : Except ε α} {f : α → Except ε β} (h : Outcome E P x)
    (hf : ∀ a, P a → Outcome E R (f a)) : Outcome E R (x >>= f) := by
  cases x with
  | error e => exact h
  | ok a => exact hf a h

theorem mono {x : Except ε α} (h : Outcome E P x) (hPQ : ∀ a, P a → Q a) : Outcome E Q x := by
  cases x with
  | error e => exact h
  | ok a => exact hPQ a h

theorem of_ok {x : Except ε α} {a : α} (h : Outcome E Q x) (hx : x = .ok a) : Q a := by
  subst hx
  exact h

theorem of_error {x : Except ε α} {e : ε} (h : Outcome E Q x) (hx : x = .error e) : E e := by
  subst hx
  exact h

theorem ite {c : Prop} [Decidable c] {x y : Except ε α} (hx : c → Outcome E Q x)
    (hy : ¬c → Outcome E Q y) : Outcome E Q (if c then x else y) := by
  split
  · exact hx ‹_›
  · exact hy ‹_›

theorem exec {σ : Type} {step : σ → α → Except ε σ} {I : σ → Prop} {C : σ → α → Prop}
    (hstep : ∀ s a, I s → C s a → Outcome E I (step s a)) {s : σ} {as : List α} (hs : I s)
    (hC : Each step C s as) : Outcome E I (exec step s as) := by
  induction as generalizing s with
  | nil => exact hs
  | cons a as ih =>
    have hfirst := hstep s a hs hC.1
    rw [Sponge.exec]
    cases hrun : step s a with
    | error e => exact hfirst.of_error hrun
    | ok t => exact ih (hfirst.of_ok hrun) (hC.2 t hrun)

end Outcome

end Sponge
