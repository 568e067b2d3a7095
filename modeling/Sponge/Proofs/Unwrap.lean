import Sponge.Sanity.Wrapping

/-! `unwrap` returns the number nearest to its checkpoint. -/

namespace Sponge

/-- The 64-bit operations of `unwrap` stay in range: the distance it rounds, the
multiple of 2^32 it adds, and the sum. -/
def UnwrapInRange (n isn : WrappingInt32) (checkpoint : ℕ) : Prop :=
  let num := (n.rawValue - isn.rawValue).toNat
  num < checkpoint →
    checkpoint - num + 2 ^ 31 < 2 ^ 64 ∧
      (checkpoint - num + 2 ^ 31) / 2 ^ 32 * 2 ^ 32 < 2 ^ 64 ∧
      num + (checkpoint - num + 2 ^ 31) / 2 ^ 32 * 2 ^ 32 < 2 ^ 64

theorem unwrapInRange (n isn : WrappingInt32) {checkpoint : ℕ} (hc : checkpoint < 2 ^ 64 - 2 ^ 31) :
    UnwrapInRange n isn checkpoint := by
  unfold UnwrapInRange
  generalize (n.rawValue - isn.rawValue).toNat = num
  intro hlt
  have := Nat.div_mul_le_self (checkpoint - num + 2 ^ 31) (2 ^ 32)
  omega

theorem wrap_eq_iff {m : ℕ} {n isn : WrappingInt32} :
    wrap m isn = n ↔ m % 2 ^ 32 = (n.rawValue - isn.rawValue).toNat := by
  constructor
  · rintro rfl
    exact (wrap_sub_toNat m isn).symm
  · intro hm
    have : UInt32.ofNat m = n.rawValue - isn.rawValue := by
      apply UInt32.toNat_inj.mp
      rw [UInt32.toNat_ofNat', hm]
    unfold wrap
    rw [this, UInt32.add_comm, UInt32.sub_add_cancel]

/-- For every checkpoint below 2^64 - 2^31, `unwrap` gives a number that wraps to
`n`, without leaving the 64-bit range on the way, and no number that wraps to `n`
is nearer to the checkpoint; of two as near it is the larger. So a number at most
2^31 above the checkpoint and less than 2^31 below it survives. -/
theorem unwrap_nearest (isn : WrappingInt32) (checkpoint : ℕ) (hc : checkpoint < 2 ^ 64 - 2 ^ 31) :
    (∀ n, wrap (unwrap n isn checkpoint) isn = n ∧ UnwrapInRange n isn checkpoint ∧
      ∀ m, wrap m isn = n →
        Nat.dist (unwrap n isn checkpoint) checkpoint ≤ Nat.dist m checkpoint ∧
          (Nat.dist m checkpoint = Nat.dist (unwrap n isn checkpoint) checkpoint →
            m ≤ unwrap n isn checkpoint)) ∧
      ∀ a, checkpoint < a + 2 ^ 31 → a ≤ checkpoint + 2 ^ 31 →
        unwrap (wrap a isn) isn checkpoint = a := by
  refine ⟨fun n => ⟨wrap_unwrap n isn checkpoint, unwrapInRange n isn hc, fun m hm => ?_⟩,
    fun a h1 h2 => unwrap_wrap isn (by omega) h2 h1⟩
  have hnum := (n.rawValue - isn.rawValue).toNat_lt
  have hnear : nearest (2 ^ 31) (n.rawValue - isn.rawValue).toNat checkpoint < 2 ^ 64 := by
    unfold nearest
    split_ifs with hlt
    · exact ((unwrapInRange n isn hc) hlt).2.2
    · omega
  rw [unwrap_eq_nearest (by omega) hnear]
  exact nearest_le_dist (wrap_eq_iff.mp hm)

/-- Two numbers as far as can be from the checkpoint: the larger one is taken. -/
theorem unwrap_nearest_tie : unwrap ⟨0⟩ ⟨0⟩ (2 ^ 31) = 2 ^ 32 ∧
    Nat.dist (2 ^ 32) (2 ^ 31) ≤ Nat.dist 0 (2 ^ 31) := by
  have htie : unwrap ⟨0⟩ ⟨0⟩ (2 ^ 31) = 2 ^ 32 := by decide
  have hnear := ((unwrap_nearest ⟨0⟩ (2 ^ 31) (by decide)).1 ⟨0⟩).2.2 0 (by decide)
  rw [htie] at hnear
  exact ⟨htie, hnear.1⟩

end Sponge
