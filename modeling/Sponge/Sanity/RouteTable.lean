import Sponge.Spec.Router

/-! What the route table says: a stored route matches an address when its high-order
bits do and it has no others, and the route chosen is a longest match of all that were
added. -/

namespace Sponge

/-- A mask of `w - k` high bits keeps those bits of a `w`-bit number. -/
theorem mask_high {x w : ℕ} (k : ℕ) (hx : x < 2 ^ w) :
    ((2 ^ w - 1) <<< k % 2 ^ w) &&& x = x / 2 ^ k * 2 ^ k := by
  apply Nat.eq_of_testBit_eq
  intro i
  simp only [Nat.testBit_and, Nat.testBit_mod_two_pow, Nat.testBit_shiftLeft,
    Nat.testBit_two_pow_sub_one, Nat.testBit_mul_two_pow, Nat.testBit_div_two_pow]
  by_cases hk : k ≤ i
  · by_cases hi : i < w
    · have hik : i - k < w := by omega
      simp [hi, hk, hik]
    · have hpow : 2 ^ w ≤ 2 ^ i := Nat.pow_le_pow_right (by norm_num) (by omega)
      simp [hk, Nat.testBit_lt_two_pow (hx.trans_le hpow)]
  · simp [hk]

namespace RouteEntry

/-- How far the prefix's lowest bit stands from the right. -/
def free (e : RouteEntry) : ℕ := 32 - e.prefixLength.toNat

/-- The high-order `prefix_length` bits of the address are those of the prefix. -/
def Covers (e : RouteEntry) (ip : UInt32) : Prop :=
  ip.toNat / 2 ^ e.free = e.routePrefix.toNat / 2 ^ e.free

/-- No bit of the prefix is set beyond its length. -/
def Aligned (e : RouteEntry) : Prop := 2 ^ e.free ∣ e.routePrefix.toNat

instance (e : RouteEntry) : Decidable e.Aligned := inferInstanceAs (Decidable (_ ∣ _))

instance (e : RouteEntry) (ip : UInt32) : Decidable (e.Covers ip) :=
  inferInstanceAs (Decidable (_ = _))

theorem mask_and {e : RouteEntry} (hl : e.prefixLength ≤ 32) (ip : UInt32) :
    (e.mask &&& ip).toNat = ip.toNat / 2 ^ e.free * 2 ^ e.free := by
  have hip := ip.toNat_lt
  have hlen : e.prefixLength.toNat ≤ 32 := hl
  unfold mask
  split
  case isTrue h0 =>
    have hfree : e.free = 32 := by simp [free, h0]
    rw [hfree, Nat.div_eq_of_lt hip]
    simp
  case isFalse h0 =>
    have hpos : 0 < e.prefixLength.toNat := by
      rw [Nat.pos_iff_ne_zero]
      exact fun h => h0 (UInt8.toNat_inj.mp h)
    have hshift : (32 - e.prefixLength.toUInt32).toNat = e.free := by
      rw [UInt32.toNat_sub_of_le]
      · rfl
      · exact UInt32.le_iff_toNat_le.mpr (by simpa using hlen)
    have hlt : e.free < 32 := by
      unfold free
      omega
    rw [UInt32.toNat_and, UInt32.toNat_shiftLeft, hshift, Nat.mod_eq_of_lt hlt]
    exact mask_high e.free hip

theorem matches_iff {e : RouteEntry} (hl : e.prefixLength ≤ 32) (ip : UInt32) :
    e.Matches ip ↔ e.Aligned ∧ e.Covers ip := by
  unfold Matches
  rw [UInt32.xor_eq_zero_iff, ← UInt32.toNat_inj, mask_and hl]
  constructor
  · intro h
    refine ⟨Dvd.intro_left _ h.symm, ?_⟩
    rw [Covers, h, Nat.mul_div_cancel _ (by positivity)]
  · rintro ⟨ha, hc⟩
    rw [hc, Nat.div_mul_cancel ha]

/-- Neither before the other: the same route but for the next hop. -/
structure SameKey (a b : RouteEntry) : Prop where
  routePrefix : a.routePrefix = b.routePrefix
  prefixLength : a.prefixLength = b.prefixLength
  interfaceNum : a.interfaceNum = b.interfaceNum

theorem sameKey_of_not_lt {a b : RouteEntry} (hab : ¬Lt a b) (hba : ¬Lt b a) : SameKey a b := by
  simp only [Lt, ne_eq, ← UInt8.toNat_inj, ← UInt32.toNat_inj, UInt8.lt_iff_toNat_lt,
    UInt32.lt_iff_toNat_lt] at hab hba
  constructor
  · rw [← UInt32.toNat_inj]
    split_ifs at hab hba <;> omega
  · rw [← UInt8.toNat_inj]
    split_ifs at hab hba <;> omega
  · split_ifs at hab hba <;> omega

theorem SameKey.matches_iff {a b : RouteEntry} (h : SameKey a b) (ip : UInt32) :
    a.Matches ip ↔ b.Matches ip := by
  simp only [Matches, mask, h.routePrefix, h.prefixLength]

/-- What the scan has found is a longest match of the routes it has seen. -/
structure Longest (ip : UInt32) (seen : List RouteEntry) (best : RouteEntry) : Prop where
  mem : best ∈ seen
  fits : best.Matches ip
  longest : ∀ e ∈ seen, e.Matches ip → e.prefixLength ≤ best.prefixLength

def Scanned (ip : UInt32) (seen : List RouteEntry) : Option RouteEntry → Prop
  | none => ∀ e ∈ seen, ¬e.Matches ip
  | some best => Longest ip seen best

theorem Scanned.better {ip : UInt32} {seen : List RouteEntry} {best : Option RouteEntry}
    (h : Scanned ip seen best) (e : RouteEntry) :
    Scanned ip (seen ++ [e]) (RouteEntry.better ip best e) := by
  have hsnoc : ∀ P : RouteEntry → Prop, (∀ x ∈ seen, P x) → P e → ∀ x ∈ seen ++ [e], P x :=
    fun P hseen he => List.forall_mem_append.mpr ⟨hseen, List.forall_mem_singleton.mpr he⟩
  unfold RouteEntry.better
  split
  case isTrue hm =>
    cases best with
    | none =>
      exact ⟨by simp, hm, hsnoc _ (fun x hx hxm => absurd hxm (h x hx)) fun _ => UInt8.le_refl _⟩
    | some b =>
      simp only
      split
      case isTrue hlt =>
        refine ⟨by simp, hm, hsnoc _ ?_ fun _ => UInt8.le_refl _⟩
        intro x hx hxm
        exact UInt8.le_trans (h.longest x hx hxm) (UInt8.le_of_lt hlt)
      case isFalse hge =>
        exact ⟨List.mem_append_left _ h.mem, h.fits, hsnoc _ h.longest fun _ => UInt8.not_lt.mp hge⟩
  case isFalse hm =>
    cases best with
    | none => exact hsnoc _ h hm
    | some b =>
      exact ⟨List.mem_append_left _ h.mem, h.fits, hsnoc _ h.longest fun he => absurd he hm⟩

theorem Scanned.foldl {ip : UInt32} {seen : List RouteEntry} {best : Option RouteEntry}
    (h : Scanned ip seen best) (table : List RouteEntry) :
    Scanned ip (seen ++ table) (table.foldl (RouteEntry.better ip) best) := by
  induction table generalizing seen best with
  | nil => simpa using h
  | cons e table ih => simpa using ih (h.better e)

theorem scan_filter (ip : UInt32) (table : List RouteEntry) :
    (table.filter (·.Matches ip)).foldl (RouteEntry.better ip) none =
      table.foldl (RouteEntry.better ip) none := by
  rw [List.foldl_filter]
  congr 1
  funext best e
  simp only [RouteEntry.better, decide_eq_true_eq]
  split <;> rfl

end RouteEntry

namespace Router

open RouteEntry OrderedSet

theorem addRoute_entries (r : Router) (e : RouteEntry) :
    (r.addRoute e.routePrefix e.prefixLength e.nextHop e.interfaceNum).routeTable.entries =
      insertEntry Lt e r.routeTable.entries := rfl

theorem addRoutes_interfaces (r : Router) (routes : List RouteEntry) :
    (r.addRoutes routes).interfaces = r.interfaces := by
  induction routes generalizing r with
  | nil => rfl
  | cons e routes ih => exact ih _

theorem mem_of_mem_addRoutes {r : Router} {routes : List RouteEntry} {e : RouteEntry}
    (h : e ∈ (r.addRoutes routes).routeTable.entries) :
    e ∈ r.routeTable.entries ∨ e ∈ routes := by
  induction routes generalizing r with
  | nil => exact .inl h
  | cons e' routes ih =>
    rcases ih h with h | h
    · rw [addRoute_entries] at h
      rcases mem_of_mem_insertEntry Lt h with rfl | h
      · exact .inr List.mem_cons_self
      · exact .inl h
    · exact .inr (List.mem_cons_of_mem e' h)

theorem mem_routes_of_mem {r : Router} (hr : r.routeTable.entries = [])
    {routes : List RouteEntry} {e : RouteEntry}
    (h : e ∈ (r.addRoutes routes).routeTable.entries) : e ∈ routes := by
  rcases mem_of_mem_addRoutes h with h | h
  · rw [hr] at h
    cases h
  · exact h

theorem mem_addRoutes_of_mem {r : Router} {e : RouteEntry} (h : e ∈ r.routeTable.entries)
    (routes : List RouteEntry) : e ∈ (r.addRoutes routes).routeTable.entries := by
  induction routes generalizing r with
  | nil => exact h
  | cons e' routes ih => exact ih (mem_insertEntry_of_mem Lt h)

/-- Every route added is in the table, up to its next hop. -/
theorem addRoutes_covers {routes : List RouteEntry} {e : RouteEntry} (h : e ∈ routes)
    (r : Router) : ∃ e' ∈ (r.addRoutes routes).routeTable.entries, SameKey e' e := by
  induction routes generalizing r with
  | nil => cases h
  | cons e0 routes ih =>
    rcases List.mem_cons.mp h with rfl | h
    · obtain ⟨e', hmem, heq⟩ := insertEntry_covers Lt e r.routeTable.entries
      refine ⟨e', mem_addRoutes_of_mem hmem routes, ?_⟩
      rcases heq with rfl | ⟨h1, h2⟩
      · exact ⟨rfl, rfl, rfl⟩
      · exact sameKey_of_not_lt h2 h1
    · exact ih h _

/-- The routes that match an address, in the table's order. -/
def matching (r : Router) (ip : UInt32) : List RouteEntry :=
  r.routeTable.entries.filter (·.Matches ip)

theorem matching_addRoute (r : Router) (e : RouteEntry) (ip : UInt32) :
    (r.addRoute e.routePrefix e.prefixLength e.nextHop e.interfaceNum).matching ip =
      if e.Matches ip then insertEntry Lt e (r.matching ip) else r.matching ip := by
  have h := filter_insertEntry Lt (p := fun e => decide (e.Matches ip))
    (fun a b hab hba => decide_eq_decide.mpr ((sameKey_of_not_lt hab hba).matches_iff ip)) e
    r.routeTable.sorted
  simpa [matching, addRoute_entries] using h

theorem matching_addRoutes {r r' : Router} {ip : UInt32} (h : r.matching ip = r'.matching ip)
    (routes : List RouteEntry) :
    (r.addRoutes routes).matching ip = (r'.addRoutes routes).matching ip := by
  induction routes generalizing r r' with
  | nil => exact h
  | cons e routes ih =>
    apply ih
    rw [matching_addRoute, matching_addRoute, h]

theorem bestRoute_scanned (r : Router) (ip : UInt32) :
    Scanned ip r.routeTable.entries (r.bestRoute ip) := by
  have h : Scanned ip [] none := fun e he => by cases he
  exact h.foldl r.routeTable.entries

theorem bestRoute_eq (r : Router) (ip : UInt32) :
    r.bestRoute ip = (r.matching ip).foldl (RouteEntry.better ip) none :=
  (scan_filter ip r.routeTable.entries).symm

end Router

end Sponge
