import Mathlib.Data.Nat.Dist
import Mathlib.Tactic

/-! Numbers known only by their remainder modulo an even `2 * half`, recovered
from a number close by. -/

namespace Sponge

/-- The number with remainder `num` that is nearest to `c`, the larger of two
equally near. -/
def nearest (half num c : ℕ) : ℕ :=
  if num < c then num + (c - num + half) / (2 * half) * (2 * half) else num

/-- A number less than `half` below `c` and at most `half` above it comes back. -/
theorem nearest_mod {half a c : ℕ} (h1 : a ≤ c + half) (h2 : c < a + half) :
    nearest half (a % (2 * half)) c = a := by
  have hdiv := Nat.mod_add_div a (2 * half)
  have hmod : a % (2 * half) < 2 * half := Nat.mod_lt a (by omega)
  generalize hnum : a % (2 * half) = num at hdiv hmod ⊢
  generalize hk : a / (2 * half) = k at hdiv
  unfold nearest
  split_ifs with hlt
  · have hq : (c - num + half) / (2 * half) = k := by
      apply Nat.div_eq_of_lt_le
      · rw [Nat.mul_comm]
        omega
      · rw [Nat.succ_mul, Nat.mul_comm k]
        omega
    rw [hq, Nat.mul_comm k]
    exact hdiv
  · have hzero : 2 * half * k < 2 * half * 1 := by omega
    have hk0 : k = 0 := by
      have := Nat.lt_of_mul_lt_mul_left hzero
      omega
    rw [hk0] at hdiv
    simpa using hdiv

/-- No number with the remainder `num` is nearer, and one as near is not larger. -/
theorem nearest_le_dist {half num c m : ℕ} (hm : m % (2 * half) = num) :
    Nat.dist (nearest half num c) c ≤ Nat.dist m c ∧
      (Nat.dist m c = Nat.dist (nearest half num c) c → m ≤ nearest half num c) := by
  have hle : num ≤ m := hm ▸ Nat.mod_le m (2 * half)
  unfold nearest Nat.dist
  split_ifs with hlt
  · rcases Nat.eq_zero_or_pos half with rfl | hpos
    · -- modulo zero only `num` itself has the remainder
      have : m = num := by simpa using hm
      simp only [Nat.mul_zero, this]
      omega
    have hdiv := Nat.mod_add_div m (2 * half)
    rw [hm] at hdiv
    generalize hk : m / (2 * half) = k at hdiv
    generalize hq : (c - num + half) / (2 * half) = q
    have hlow : q * (2 * half) ≤ c - num + half := hq ▸ Nat.div_mul_le_self _ _
    have hhigh : c - num + half < (q + 1) * (2 * half) := by
      rw [← hq, Nat.mul_comm]
      exact Nat.lt_mul_div_succ _ (by omega)
    rw [Nat.mul_comm] at hdiv
    rw [Nat.succ_mul] at hhigh
    -- the multiples on either side of the `q`-th are a full `2 * half` away
    rcases Nat.lt_trichotomy k q with h | rfl | h
    · have := Nat.mul_le_mul_right (2 * half) (show k + 1 ≤ q from h)
      rw [Nat.succ_mul] at this
      omega
    · omega
    · have := Nat.mul_le_mul_right (2 * half) (show q + 1 ≤ k from h)
      rw [Nat.succ_mul] at this
      omega
  · omega

end Sponge
