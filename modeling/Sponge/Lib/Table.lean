import Mathlib.Data.List.AList
import Mathlib.Tactic

/-! Finite maps as a C++ program uses them, on top of association lists without
duplicate keys: an insertion that keeps what is there, removal of several keys, and
a pass over all entries that updates or drops each. -/

namespace Sponge

variable {κ ν : Type}

abbrev Table (κ ν : Type) := AList fun _ : κ => ν

namespace Table

/-- Every value is replaced by what `f` makes of it, or dropped with its key. -/
def sweepEntries (f : ν → Option ν) : List (Σ _ : κ, ν) → List (Σ _ : κ, ν)
  | [] => []
  | ⟨k, v⟩ :: es => match f v with
    | none => sweepEntries f es
    | some v' => ⟨k, v'⟩ :: sweepEntries f es

theorem keys_sweepEntries (f : ν → Option ν) (es : List (Σ _ : κ, ν)) :
    (sweepEntries f es).keys.Sublist es.keys := by
  induction es with
  | nil => exact List.Sublist.slnil
  | cons e es ih =>
    simp only [sweepEntries]
    cases f e.2 with
    | none => exact ih.cons e.1
    | some v => exact ih.cons_cons e.1

def sweep (f : ν → Option ν) (t : Table κ ν) : Table κ ν where
  entries := sweepEntries f t.entries
  nodupKeys := List.Nodup.sublist (keys_sweepEntries f t.entries) t.nodupKeys

variable [DecidableEq κ]

/-- `emplace` and `insert` of a map: a key that is present keeps its value. -/
def emplace (k : κ) (v : ν) (t : Table κ ν) : Table κ ν :=
  if k ∈ t then t else t.insert k v

def eraseAll (ks : List κ) (t : Table κ ν) : Table κ ν := ks.foldl (fun t k => t.erase k) t

theorem lookup_sweep (f : ν → Option ν) (t : Table κ ν) (k : κ) :
    (t.sweep f).lookup k = (t.lookup k).bind f := by
  obtain ⟨es, hnodup⟩ := t
  show (sweepEntries f es).dlookup k = (es.dlookup k).bind f
  induction es with
  | nil => rfl
  | cons e es ih =>
    obtain ⟨k', v⟩ := e
    rw [List.nodupKeys_cons] at hnodup
    by_cases hk : k = k'
    · subst hk
      rw [List.dlookup_cons_eq, Option.bind_some]
      simp only [sweepEntries]
      cases f v with
      | none =>
        -- the key does not come again
        rw [ih hnodup.2, List.dlookup_eq_none.mpr hnodup.1]
        rfl
      | some v' => exact List.dlookup_cons_eq _ _ _
    · rw [List.dlookup_cons_ne es ⟨k', v⟩ hk]
      simp only [sweepEntries]
      cases f v with
      | none => exact ih hnodup.2
      | some v' => exact (List.dlookup_cons_ne _ (Sigma.mk k' v') hk).trans (ih hnodup.2)

theorem lookup_insert_eq (t : Table κ ν) (k k' : κ) (v : ν) :
    (t.insert k v).lookup k' = if k' = k then some v else t.lookup k' := by
  split_ifs with h
  · subst h
    exact AList.lookup_insert t
  · exact AList.lookup_insert_ne h

theorem lookup_erase_eq (t : Table κ ν) (k k' : κ) :
    (t.erase k).lookup k' = if k' = k then none else t.lookup k' := by
  split_ifs with h
  · subst h
    exact AList.lookup_erase k' t
  · exact AList.lookup_erase_ne h

theorem emplace_of_lookup_none {t : Table κ ν} {k : κ} (h : t.lookup k = none) (v : ν) :
    t.emplace k v = t.insert k v := if_neg (AList.lookup_eq_none.mp h)

theorem mem_emplace {t : Table κ ν} {k k' : κ} {v : ν} :
    k' ∈ t.emplace k v ↔ k' = k ∨ k' ∈ t := by
  unfold emplace
  split_ifs with h
  · exact ⟨.inr, fun hk => hk.elim (fun heq => heq ▸ h) id⟩
  · exact AList.mem_insert t

theorem lookup_eraseAll (t : Table κ ν) (ks : List κ) (k : κ) :
    (t.eraseAll ks).lookup k = if k ∈ ks then none else t.lookup k := by
  induction ks generalizing t with
  | nil => simp [eraseAll]
  | cons k' ks ih =>
    have hstep := ih (t.erase k')
    rw [lookup_erase_eq] at hstep
    rw [eraseAll, List.foldl_cons, ← eraseAll, hstep]
    by_cases hk : k = k'
    · simp [hk]
    · simp [hk]

theorem mem_iff_lookup {t : Table κ ν} {k : κ} : k ∈ t ↔ ∃ v, t.lookup k = some v := by
  rw [← AList.lookup_isSome, Option.isSome_iff_exists]

/-- `P` holds of every value. -/
def All (P : ν → Prop) (t : Table κ ν) : Prop := ∀ k v, t.lookup k = some v → P v

variable {P : ν → Prop} {t : Table κ ν}

theorem All.empty : All P (∅ : Table κ ν) := by
  intro k v h
  simp at h

theorem All.insert (h : t.All P) {k : κ} {v : ν} (hv : P v) : All P (t.insert k v) := by
  intro k' w hw
  by_cases hk : k' = k
  · subst hk
    rw [AList.lookup_insert] at hw
    exact Option.some.inj hw ▸ hv
  · rw [AList.lookup_insert_ne hk] at hw
    exact h k' w hw

theorem All.emplace (h : t.All P) {k : κ} {v : ν} (hv : P v) : (t.emplace k v).All P := by
  unfold Table.emplace
  split
  · exact h
  · exact h.insert hv

theorem All.erase (h : t.All P) (k : κ) : All P (t.erase k) := by
  intro k' w hw
  by_cases hk : k' = k
  · subst hk
    simp at hw
  · rw [AList.lookup_erase_ne hk] at hw
    exact h k' w hw

theorem All.eraseAll (h : t.All P) (ks : List κ) : (t.eraseAll ks).All P := by
  induction ks generalizing t with
  | nil => exact h
  | cons k ks ih => exact ih (h.erase k)

end Table

end Sponge
