import Mathlib.Tactic

/-! Unsigned 64-bit arithmetic and bounds-checked substrings, as a C++ program
sees them. A subtraction whose result would be negative wraps around; the
trapping mode stops there instead, which is how the absence of such a wrap is
stated. -/

namespace Sponge

/-- What an unsigned subtraction does below zero. `wrap` is the language's own
behaviour; `trap` is that of a build which stops at the first wrap. -/
inductive Overflow where
  | wrap
  | trap
  deriving DecidableEq, Repr

/-- How a call can end without returning. -/
inductive Fault where
  | underflow
  | outOfRange
  deriving DecidableEq, Repr

instance decidableEqExcept {ε α : Type*} [DecidableEq ε] [DecidableEq α] :
    DecidableEq (Except ε α)
  | .ok a, .ok b => decidable_of_iff (a = b) (by simp)
  | .error a, .error b => decidable_of_iff (a = b) (by simp)
  | .ok _, .error _ => isFalse (by simp)
  | .error _, .ok _ => isFalse (by simp)

def uadd (a b : ℕ) : ℕ := (a + b) % 2 ^ 64

def usub (md : Overflow) (a b : ℕ) : Except Fault ℕ :=
  if b ≤ a then .ok (a - b)
  else match md with
    | .wrap => .ok (a + 2 ^ 64 - b)
    | .trap => .error .underflow

/-- `std::string::substr`: the position must not exceed the size, the count is
cut to what is there. -/
def substr {α : Type*} (s : List α) (pos n : ℕ) : Except Fault (List α) :=
  if pos ≤ s.length then .ok ((s.drop pos).take n) else .error .outOfRange

@[simp] theorem ok_bind {ε : Type*} {α β : Type} (a : α) (f : α → Except ε β) :
    (Except.ok a >>= f) = f a := rfl

theorem bind_eq_ok {ε : Type*} {α β : Type} {x : Except ε α} {f : α → Except ε β} {b : β}
    (h : x >>= f = .ok b) : ∃ a, x = .ok a ∧ f a = .ok b := by
  cases x with
  | error e => cases h
  | ok a => exact ⟨a, rfl, h⟩

theorem uadd_eq {a b : ℕ} (h : a + b < 2 ^ 64) : uadd a b = a + b := Nat.mod_eq_of_lt h

theorem uadd_lt (a b : ℕ) : uadd a b < 2 ^ 64 := Nat.mod_lt _ (by norm_num)

theorem usub_eq {a b : ℕ} (md : Overflow) (h : b ≤ a) : usub md a b = .ok (a - b) := by
  simp [usub, h]

theorem usub_trap {a b : ℕ} (h : a < b) : usub .trap a b = .error .underflow := by
  simp [usub, Nat.not_le.mpr h]

theorem usub_wrap {a b : ℕ} (h : a < b) : usub .wrap a b = .ok (a + 2 ^ 64 - b) := by
  simp [usub, Nat.not_le.mpr h]

theorem substr_eq {α : Type*} {s : List α} {pos : ℕ} (n : ℕ) (h : pos ≤ s.length) :
    substr s pos n = .ok ((s.drop pos).take n) := by
  simp [substr, h]

end Sponge
