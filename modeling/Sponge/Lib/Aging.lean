import Sponge.Lib.Table
import Sponge.Lib.Unsigned

/-! Tables whose entries carry an age and are dropped when it reaches a limit. As long as
no sum of ages wraps, such a table holds exactly the entries younger than the limit. -/

namespace Sponge

variable {κ ν : Type} (age : ν → ℕ) (setAge : ν → ℕ → ν) (limit : ℕ)

/-- An entry after `ms` more, unless that takes it to the limit. -/
def grow (ms : ℕ) (v : ν) : Option ν :=
  if limit ≤ uadd (age v) ms then none else some (setAge v (uadd (age v) ms))

/-- The entry, if it is young enough. -/
def young (o : Option ν) : Option ν := o.filter fun v => age v < limit

variable {age setAge limit}

theorem young_eq_some {o : Option ν} {v : ν} :
    young age limit o = some v ↔ o = some v ∧ age v < limit := by
  rw [young, Option.filter_eq_some_iff, decide_eq_true_eq]

theorem young_eq_none {o : Option ν} :
    young age limit o = none ↔ ∀ v, o = some v → limit ≤ age v := by
  cases o <;> simp [young, Option.filter]

variable (age setAge limit) in
theorem young_grow (hset : ∀ v n, age (setAge v n) = n) {o : Option ν} {ms : ℕ}
    (hfit : ∀ v, young age limit o = some v → age v + ms < 2 ^ 64) :
    (young age limit o).bind (grow age setAge limit ms) =
      young age limit (o.map fun v => setAge v (age v + ms)) := by
  cases o with
  | none => rfl
  | some v =>
    by_cases hv : age v < limit
    · have hyoung : young age limit (some v) = some v := young_eq_some.mpr ⟨rfl, hv⟩
      rw [hyoung, Option.bind_some, grow, uadd_eq (hfit v hyoung)]
      by_cases hms : age v + ms < limit
      · rw [if_neg (Nat.not_le.mpr hms)]
        exact (young_eq_some.mpr ⟨rfl, (hset v _).symm ▸ hms⟩).symm
      · rw [if_pos (Nat.le_of_not_lt hms)]
        refine (young_eq_none.mpr ?_).symm
        rintro w hw
        rw [← Option.some.inj hw, hset]
        exact Nat.le_of_not_lt hms
    · have hold : young age limit (some v) = none := by
        simpa [young] using hv
      rw [hold, Option.bind_none]
      refine (young_eq_none.mpr ?_).symm
      intro w hw
      rw [← Option.some.inj hw, hset]
      omega

variable (age setAge limit) in
/-- A table of what is young stays one when it ages. -/
theorem lookup_sweep_grow [DecidableEq κ] (hset : ∀ v n, age (setAge v n) = n) {t : Table κ ν}
    {k : κ} {o : Option ν} {ms : ℕ} (ht : t.lookup k = young age limit o)
    (hfit : ∀ v, t.lookup k = some v → age v + ms < 2 ^ 64) :
    (t.sweep (grow age setAge limit ms)).lookup k =
      young age limit (o.map fun v => setAge v (age v + ms)) := by
  rw [Table.lookup_sweep, ht]
  exact young_grow age setAge limit hset fun v hv => hfit v (ht.trans hv)

end Sponge
