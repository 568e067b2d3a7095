import Sponge.Lib.Nearest
import Sponge.Spec.WrappingIntegers

/-! Sequence numbers survive the wire: unwrapping near the number it was wrapped
from gives the number back. -/

namespace Sponge

theorem wrap_sub_toNat (a : ℕ) (isn : WrappingInt32) :
    ((wrap a isn).rawValue - isn.rawValue).toNat = a % 2 ^ 32 := by
  have h : isn.rawValue + UInt32.ofNat a - isn.rawValue = UInt32.ofNat a := by
    rw [UInt32.add_comm, UInt32.add_sub_cancel]
  unfold wrap
  rw [h]
  simp

/-- No step of `unwrap` passes 2^64 when neither the distance it rounds nor the
number it finds does. -/
theorem unwrap_eq_nearest {n isn : WrappingInt32} {c : ℕ}
    (hc : c + 2 ^ 31 < (n.rawValue - isn.rawValue).toNat + 2 ^ 64)
    (hn : nearest (2 ^ 31) (n.rawValue - isn.rawValue).toNat c < 2 ^ 64) :
    unwrap n isn c = nearest (2 ^ 31) (n.rawValue - isn.rawValue).toNat c := by
  revert hc hn
  unfold unwrap nearest
  generalize (n.rawValue - isn.rawValue).toNat = num
  simp only [show 2 * 2 ^ 31 = 2 ^ 32 by norm_num]
  intro hc hn
  split_ifs at hn ⊢ with hlt
  · rw [uadd_eq (show c - num + 2 ^ 31 < 2 ^ 64 by omega), Nat.mod_eq_of_lt (by omega),
      uadd_eq (by omega)]
  · rfl

theorem unwrap_wrap {a c : ℕ} (isn : WrappingInt32) (ha : a < 2 ^ 64) (h1 : a ≤ c + 2 ^ 31)
    (h2 : c < a + 2 ^ 31) : unwrap (wrap a isn) isn c = a := by
  have hnear : nearest (2 ^ 31) (a % 2 ^ 32) c = a := nearest_mod h1 h2
  have hdiv := Nat.mod_add_div a (2 ^ 32)
  rw [← wrap_sub_toNat a isn] at hnear hdiv
  rw [unwrap_eq_nearest (by omega) (by omega), hnear]

theorem unwrap_lt (n isn : WrappingInt32) (checkpoint : ℕ) : unwrap n isn checkpoint < 2 ^ 64 := by
  have hlt := (n.rawValue - isn.rawValue).toNat_lt
  unfold unwrap
  simp only
  split_ifs
  · exact uadd_lt _ _
  · omega

theorem wrap_unwrap (n isn : WrappingInt32) (checkpoint : ℕ) :
    wrap (unwrap n isn checkpoint) isn = n := by
  have hmod : UInt32.ofNat (unwrap n isn checkpoint) = n.rawValue - isn.rawValue := by
    apply UInt32.toNat_inj.mp
    have hlt := (n.rawValue - isn.rawValue).toNat_lt
    unfold unwrap uadd
    rw [UInt32.toNat_ofNat']
    simp only
    split_ifs <;> omega
  unfold wrap
  rw [hmod, UInt32.add_comm, UInt32.sub_add_cancel]

theorem wrap_zero (isn : WrappingInt32) : wrap 0 isn = isn := by
  simp [wrap]

end Sponge
