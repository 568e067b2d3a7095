import Sponge.Sanity.Router

/-! Which bits of a route's prefix count. The stored prefix is compared as it was
given, so a prefix with a bit set beyond its length matches no address at all. -/

namespace Sponge

namespace RouteEntry

/-- Of two routes that match an address, this one is looked at first: it is longer, or as long
and on a lower interface. -/
def Precedes (a b : RouteEntry) : Prop :=
  b.prefixLength < a.prefixLength ∨
    a.prefixLength = b.prefixLength ∧ a.interfaceNum < b.interfaceNum

instance (a b : RouteEntry) : Decidable (a.Precedes b) := inferInstanceAs (Decidable (_ ∨ _))

theorem Matches.prefix_eq {a b : RouteEntry} {ip : UInt32} (ha : a.Matches ip) (hb : b.Matches ip)
    (hlen : a.prefixLength = b.prefixLength) : a.routePrefix = b.routePrefix := by
  unfold Matches mask at ha hb
  rw [UInt32.xor_eq_zero_iff] at ha hb
  rw [ha, hb, hlen]

theorem Lt.precedes {a b : RouteEntry} {ip : UInt32} (h : Lt a b) (ha : a.Matches ip)
    (hb : b.Matches ip) : a.Precedes b := by
  unfold Lt at h
  split_ifs at h with hlen hprefix
  · exact .inl h
  · exact absurd (ha.prefix_eq hb (not_not.mp hlen)) hprefix
  · exact .inr ⟨not_not.mp hlen, h⟩

theorem Precedes.lt {a b : RouteEntry} {ip : UInt32} (h : a.Precedes b) (ha : a.Matches ip)
    (hb : b.Matches ip) : Lt a b := by
  unfold Lt
  rcases h with hlen | ⟨hlen, hnum⟩
  · rwa [if_pos fun heq => by simp [heq] at hlen]
  · rwa [if_neg (not_not.mpr hlen), if_neg (not_not.mpr (ha.prefix_eq hb hlen))]

theorem Lt.length_le {a b : RouteEntry} (h : Lt a b) : b.prefixLength ≤ a.prefixLength := by
  unfold Lt at h
  split_ifs at h with hlen
  · exact UInt8.le_of_lt h
  all_goals exact (not_not.mp hlen).symm ▸ UInt8.le_refl _

theorem Lt.asymm {a b : RouteEntry} (h : Lt a b) : ¬Lt b a := by
  simp only [Lt, ne_eq, ← UInt8.toNat_inj, ← UInt32.toNat_inj, UInt8.lt_iff_toNat_lt,
    UInt32.lt_iff_toNat_lt] at h ⊢
  split_ifs at h ⊢ <;> omega

theorem Lt.cotrans {a c : RouteEntry} (h : Lt a c) (b : RouteEntry) : Lt a b ∨ Lt b c := by
  simp only [Lt, ne_eq, ← UInt8.toNat_inj, ← UInt32.toNat_inj, UInt8.lt_iff_toNat_lt,
    UInt32.lt_iff_toNat_lt] at h ⊢
  split_ifs at h ⊢ <;> omega

/-- No route that comes after one that was found replaces it. -/
theorem better_stays (ip : UInt32) {b : RouteEntry} {l : List RouteEntry}
    (h : ∀ e ∈ l, Lt b e) : l.foldl (better ip) (some b) = some b := by
  induction l with
  | nil => rfl
  | cons e l ih =>
    have hshort := (h e List.mem_cons_self).length_le
    rw [List.foldl_cons, better, if_neg (UInt8.not_lt.mpr hshort), ite_self]
    exact ih fun x hx => h x (List.mem_cons_of_mem e hx)

theorem SameKey.not_lt {a b : RouteEntry} (h : SameKey a b) : ¬Lt a b ∧ ¬Lt b a := by
  simp [Lt, h.routePrefix, h.prefixLength, h.interfaceNum]

end RouteEntry

namespace Router

/-- The prefix with its bits beyond the length cleared. -/
def highBits (p : UInt32) (l : UInt8) : UInt32 :=
  .ofNat (p.toNat / 2 ^ (32 - l.toNat) * 2 ^ (32 - l.toNat))

theorem highBits_toNat (e : RouteEntry) : (highBits e.routePrefix e.prefixLength).toNat =
    e.routePrefix.toNat / 2 ^ e.free * 2 ^ e.free := by
  have hle := Nat.div_mul_le_self e.routePrefix.toNat (2 ^ e.free)
  exact UInt32.toNat_ofNat_of_lt' (lt_of_le_of_lt hle e.routePrefix.toNat_lt)

theorem highBits_eq_iff (e : RouteEntry) :
    highBits e.routePrefix e.prefixLength = e.routePrefix ↔ e.Aligned := by
  rw [← UInt32.toNat_inj, highBits_toNat]
  exact ⟨fun h => Dvd.intro_left _ h, fun h => Nat.div_mul_cancel h⟩

theorem highBits_aligned (e : RouteEntry) :
    RouteEntry.Aligned { e with routePrefix := highBits e.routePrefix e.prefixLength } :=
  Dvd.intro_left _ (highBits_toNat e).symm

/-- A route that does not match the destination makes no difference, however many
routes are added after it. -/
theorem decision_unmatched (r : Router) {e : RouteEntry} {d : IPv4Datagram}
    (h : ¬e.Matches d.header.dst) (later : List RouteEntry) :
    ((r.addRoute e.routePrefix e.prefixLength e.nextHop e.interfaceNum).addRoutes
      later).decision d = (r.addRoutes later).decision d := by
  have hsame : (r.addRoute e.routePrefix e.prefixLength e.nextHop e.interfaceNum).matching
      d.header.dst = r.matching d.header.dst := by rw [matching_addRoute, if_neg h]
  simp only [decision, bestRoute_eq, matching_addRoutes hsame]

theorem decision_unaligned (r : Router) {e : RouteEntry} (hl : e.prefixLength ≤ 32)
    (h : highBits e.routePrefix e.prefixLength ≠ e.routePrefix) (later : List RouteEntry)
    (d : IPv4Datagram) :
    ((r.addRoute e.routePrefix e.prefixLength e.nextHop e.interfaceNum).addRoutes
      later).decision d = (r.addRoutes later).decision d := by
  refine r.decision_unmatched (fun hm => h ?_) later
  exact (highBits_eq_iff e).mpr ((RouteEntry.matches_iff hl _).mp hm).1

theorem bestRoute_head (r : Router) (ip : UInt32) : r.bestRoute ip = (r.matching ip).head? := by
  have hsorted : (r.matching ip).Pairwise RouteEntry.Lt := r.routeTable.sorted.filter _
  have hmatch : ∀ e ∈ r.matching ip, e.Matches ip := fun e he => by
    simpa using List.of_mem_filter he
  rw [bestRoute_eq]
  cases hl : r.matching ip with
  | nil => rfl
  | cons b l =>
    rw [hl] at hsorted hmatch
    rw [List.foldl_cons, RouteEntry.better, if_pos (hmatch b List.mem_cons_self)]
    exact RouteEntry.better_stays ip (List.pairwise_cons.mp hsorted).1

theorem bestRoute_addRoute (r : Router) {e : RouteEntry} {ip : UInt32} (h : e.Matches ip) :
    (r.addRoute e.routePrefix e.prefixLength e.nextHop e.interfaceNum).bestRoute ip =
      OrderedSet.earlier RouteEntry.Lt (r.bestRoute ip) e := by
  rw [bestRoute_head, matching_addRoute, if_pos h, OrderedSet.head?_insertEntry, ← bestRoute_head]

/-- Routes added later replace the best one only where they come before it. -/
theorem bestRoute_addRoutes (r : Router) (later : List RouteEntry) (ip : UInt32) :
    (r.addRoutes later).bestRoute ip =
      (later.filter (·.Matches ip)).foldl (OrderedSet.earlier RouteEntry.Lt) (r.bestRoute ip) := by
  induction later generalizing r with
  | nil => rfl
  | cons e later ih =>
    refine (ih (r.addRoute e.routePrefix e.prefixLength e.nextHop e.interfaceNum)).trans ?_
    by_cases hm : e.Matches ip
    · rw [List.filter_cons, if_pos (by simpa using hm), List.foldl_cons, bestRoute_addRoute r hm]
    · rw [List.filter_cons, if_neg (by simpa using hm), bestRoute_head, matching_addRoute,
        if_neg hm, ← bestRoute_head]

theorem bestRoute_first {r : Router} {ip : UInt32} {m : RouteEntry} (h : r.bestRoute ip = some m) :
    ∀ e ∈ r.routeTable.entries, e.Matches ip → e = m ∨ RouteEntry.Lt m e := by
  intro e he hm
  have hsorted : (r.matching ip).Pairwise RouteEntry.Lt := r.routeTable.sorted.filter _
  have hmem : e ∈ r.matching ip := List.mem_filter.mpr ⟨he, by simpa using hm⟩
  rw [bestRoute_head, List.head?_eq_some_iff] at h
  obtain ⟨l, hl⟩ := h
  rw [hl] at hsorted hmem
  rcases List.mem_cons.mp hmem with heq | hlater
  · exact .inl heq
  · exact .inr ((List.pairwise_cons.mp hsorted).1 e hlater)

theorem bestRoute_some {r : Router} {ip : UInt32} {e : RouteEntry}
    (he : e ∈ r.routeTable.entries) (hm : e.Matches ip) :
    ∃ m, r.bestRoute ip = some m ∧ (e = m ∨ RouteEntry.Lt m e) := by
  have hscan := r.bestRoute_scanned ip
  cases hbest : r.bestRoute ip with
  | none =>
    rw [hbest] at hscan
    exact absurd hm (hscan e he)
  | some m => exact ⟨m, rfl, bestRoute_first hbest e he hm⟩

theorem bestRoute_stored {r : Router} {ip : UInt32} {m : RouteEntry}
    (h : r.bestRoute ip = some m) : m ∈ r.routeTable.entries ∧ m.Matches ip := by
  have hscan := r.bestRoute_scanned ip
  rw [h] at hscan
  exact ⟨hscan.mem, hscan.fits⟩

/-- The route `e`, added after the routes of `r` and before `later`, makes no difference to a
datagram: its time to live is used up; the route does not cover its destination; the table had
the route already; or a stored route that matches the destination precedes it, or is the first
of those and sends the datagram the same way. -/
def Unaffected (r : Router) (e : RouteEntry) (later : List RouteEntry) (d : IPv4Datagram) : Prop :=
  d.header.ttl ≤ 1 ∨ ¬e.Covers d.header.dst ∨
    (∃ m ∈ r.routeTable.entries, m.routePrefix = e.routePrefix ∧
      m.prefixLength = e.prefixLength ∧ m.interfaceNum = e.interfaceNum) ∨
    ∃ m ∈ (r.addRoutes later).routeTable.entries, m.Matches d.header.dst ∧
      (m.Precedes e ∨ m.interfaceNum = e.interfaceNum ∧
        m.nextHop.getD d.header.dst = e.nextHop.getD d.header.dst ∧
        ∀ m' ∈ (r.addRoutes later).routeTable.entries, m'.Matches d.header.dst → ¬m'.Precedes m)

instance (r : Router) (e : RouteEntry) (later : List RouteEntry) (d : IPv4Datagram) :
    Decidable (r.Unaffected e later d) := inferInstanceAs (Decidable (_ ∨ _ ∨ _ ∨ _))

/-- The way a route sends a datagram. -/
def way (d : IPv4Datagram) (e : RouteEntry) : ℕ × UInt32 :=
  (e.interfaceNum, e.nextHop.getD d.header.dst)

theorem decision_eq_way {r : Router} {d : IPv4Datagram} (httl : ¬d.header.ttl ≤ 1) :
    r.decision d = (r.bestRoute d.header.dst).map (way d) := if_neg httl

/-- A route that is not ahead of the best one leaves the choice as it was. -/
theorem bestRoute_unchanged {r : Router} {e m : RouteEntry} {ip : UInt32} (he : e.Matches ip)
    (hm : r.bestRoute ip = some m) (hlt : ¬RouteEntry.Lt e m) (later : List RouteEntry) :
    ((r.addRoute e.routePrefix e.prefixLength e.nextHop e.interfaceNum).addRoutes
      later).bestRoute ip = (r.addRoutes later).bestRoute ip := by
  rw [bestRoute_addRoutes, bestRoute_addRoute r he, bestRoute_addRoutes r, hm,
    OrderedSet.earlier, if_neg hlt]

/-- A matching route ahead of all in the table stays the best one unless a later one
precedes it. -/
theorem bestRoute_ahead {r : Router} {e : RouteEntry} {ip : UInt32} (he : e.Matches ip)
    (hahead : ∀ m ∈ r.bestRoute ip, RouteEntry.Lt e m) (later : List RouteEntry) :
    (∃ m, ((r.addRoute e.routePrefix e.prefixLength e.nextHop e.interfaceNum).addRoutes
      later).bestRoute ip = some m ∧ (r.addRoutes later).bestRoute ip = some m ∧
        RouteEntry.Lt m e) ∨
    ((r.addRoute e.routePrefix e.prefixLength e.nextHop e.interfaceNum).addRoutes
      later).bestRoute ip = some e ∧
        ∀ m ∈ (r.addRoutes later).bestRoute ip, ¬RouteEntry.Lt m e := by
  have hnew : OrderedSet.earlier RouteEntry.Lt (r.bestRoute ip) e = some e := by
    cases hm : r.bestRoute ip with
    | none => rfl
    | some m => exact if_pos (hahead m hm)
  rw [bestRoute_addRoutes, bestRoute_addRoute r he, hnew, bestRoute_addRoutes r]
  exact OrderedSet.foldl_earlier RouteEntry.Lt (fun a b h => h.cotrans b)
    (fun m hm => (hahead m hm).asymm) _

/-- A route that comes before every stored match is not in the table. -/
theorem not_stored_of_ahead {r : Router} {e m : RouteEntry} {ip : UInt32} (he : e.Matches ip)
    (hahead : ∀ m ∈ r.bestRoute ip, RouteEntry.Lt e m) (hm : m ∈ r.routeTable.entries) :
    ¬RouteEntry.SameKey m e := by
  intro hkey
  obtain ⟨b, hb, hle⟩ := bestRoute_some hm ((hkey.matches_iff _).mpr he)
  have heb := hahead b hb
  have hem := hkey.not_lt
  rcases hle with rfl | hbm
  · exact absurd heb hem.2
  · exact absurd (IsTrans.trans e b m heb hbm) hem.2

/-- Where no stored match comes before a route, the table sends a datagram its way exactly if
the first match does. -/
theorem way_same_iff (r : Router) {e : RouteEntry} {d : IPv4Datagram} (he : e.Matches d.header.dst)
    (hnone : ∀ m ∈ r.bestRoute d.header.dst, ¬RouteEntry.Lt m e) :
    some (way d e) = (r.bestRoute d.header.dst).map (way d) ↔
      ∃ m ∈ r.routeTable.entries, m.Matches d.header.dst ∧
        (m.Precedes e ∨ m.interfaceNum = e.interfaceNum ∧
          m.nextHop.getD d.header.dst = e.nextHop.getD d.header.dst ∧
          ∀ m' ∈ r.routeTable.entries, m'.Matches d.header.dst → ¬m'.Precedes m) := by
  constructor
  · intro hsame
    obtain ⟨m, hbest, hway⟩ := Option.map_eq_some_iff.mp hsame.symm
    obtain ⟨hmem, hfits⟩ := bestRoute_stored hbest
    refine ⟨m, hmem, hfits, .inr ⟨congrArg Prod.fst hway, congrArg Prod.snd hway, ?_⟩⟩
    intro m' hm' hfits' hpre
    have hlt := hpre.lt hfits' hfits
    rcases bestRoute_first hbest m' hm' hfits' with rfl | hafter
    · exact hlt.asymm hlt
    · exact hlt.asymm hafter
  · rintro ⟨m, hmem, hfits, hpre | ⟨h1, h2, hleast⟩⟩
    · obtain ⟨b, hb, hle⟩ := bestRoute_some hmem hfits
      have hme := hpre.lt hfits he
      rcases hle with rfl | hbm
      · exact absurd hme (hnone m hb)
      · exact absurd (IsTrans.trans b m e hbm hme) (hnone b hb)
    · obtain ⟨b, hb, hle⟩ := bestRoute_some hmem hfits
      obtain ⟨hbmem, hbfits⟩ := bestRoute_stored hb
      obtain rfl : m = b := hle.resolve_right fun hbm =>
        hleast b hbmem hbfits (hbm.precedes hbfits hfits)
      rw [hb, Option.map_some, way, way, h1, h2]

/-- What the cleared route changes. -/
theorem decision_same_iff (r : Router) {e : RouteEntry} (hl : e.prefixLength ≤ 32)
    (ha : e.Aligned) (later : List RouteEntry) (d : IPv4Datagram) :
    ((r.addRoute e.routePrefix e.prefixLength e.nextHop e.interfaceNum).addRoutes
      later).decision d = (r.addRoutes later).decision d ↔ r.Unaffected e later d := by
  by_cases httl : d.header.ttl ≤ 1
  · exact iff_of_true (by simp only [decision, if_pos httl]) (.inl httl)
  by_cases hcov : e.Covers d.header.dst
  swap
  · refine iff_of_true (r.decision_unmatched (fun hm => hcov ?_) later) (.inr (.inl hcov))
    exact ((RouteEntry.matches_iff hl _).mp hm).2
  have hmatch : e.Matches d.header.dst := (RouteEntry.matches_iff hl _).mpr ⟨ha, hcov⟩
  rw [decision_eq_way httl, decision_eq_way httl]
  by_cases hfirst : ∃ m, r.bestRoute d.header.dst = some m ∧ ¬RouteEntry.Lt e m
  · obtain ⟨m, hm, hlt⟩ := hfirst
    obtain ⟨hmem, hfits⟩ := bestRoute_stored hm
    refine iff_of_true (by rw [bestRoute_unchanged hmatch hm hlt later]) (.inr (.inr ?_))
    by_cases hme : RouteEntry.Lt m e
    · exact .inr ⟨m, mem_addRoutes_of_mem hmem later, hfits, .inl (hme.precedes hfits hmatch)⟩
    · have hkey := RouteEntry.sameKey_of_not_lt hme hlt
      exact .inl ⟨m, hmem, hkey.routePrefix, hkey.prefixLength, hkey.interfaceNum⟩
  · have hahead : ∀ m ∈ r.bestRoute d.header.dst, RouteEntry.Lt e m := fun m hm =>
      by_contra fun hlt => hfirst ⟨m, hm, hlt⟩
    rcases bestRoute_ahead hmatch hahead later with ⟨m, hwith, hwithout, hme⟩ | ⟨hwith, hnone⟩
    · obtain ⟨hmem, hfits⟩ := bestRoute_stored hwithout
      refine iff_of_true (by rw [hwith, hwithout]) (.inr (.inr (.inr ?_)))
      exact ⟨m, hmem, hfits, .inl (hme.precedes hfits hmatch)⟩
    rw [hwith, Option.map_some, way_same_iff _ hmatch hnone]
    refine ⟨fun h => .inr (.inr (.inr h)), ?_⟩
    rintro (h | h | ⟨m, hmem, h1, h2, h3⟩ | h)
    · exact absurd h httl
    · exact absurd hcov h
    · exact absurd ⟨h1, h2, h3⟩ (not_stored_of_ahead hmatch hahead hmem)
    · exact h

/-- Clearing the low bits of a prefix changes no decision exactly when there was nothing
to clear, or the cleared route makes no difference to the datagram. -/
theorem prefix_bits_iff (r : Router) (p : UInt32) (l : UInt8) (hl : l ≤ 32)
    (nextHop : Option UInt32) (n : ℕ) (later : List RouteEntry) (d : IPv4Datagram) :
    ((r.addRoute p l nextHop n).addRoutes later).decision d =
        ((r.addRoute (highBits p l) l nextHop n).addRoutes later).decision d ↔
      highBits p l = p ∨ r.Unaffected ⟨highBits p l, l, nextHop, n⟩ later d := by
  by_cases hp : highBits p l = p
  · rw [hp]
    exact iff_of_true rfl (.inl rfl)
  · have hcleared : RouteEntry.Aligned ⟨highBits p l, l, nextHop, n⟩ :=
      highBits_aligned ⟨p, l, nextHop, n⟩
    have hsame := r.decision_same_iff (e := ⟨highBits p l, l, nextHop, n⟩) hl hcleared later d
    rw [r.decision_unaligned (e := ⟨p, l, nextHop, n⟩) hl hp later d, or_iff_right hp, ← hsame]
    exact eq_comm

/-- The prefix the simulator adds, 128.30.76.255/16: a datagram to 10.0.0.1 is not covered, and
for one to 128.30.1.1 a route for 128.30.1.0/24 comes first. -/
theorem prefix_bits_iff_elsewhere :
    let d : IPv4Datagram := { header := { dst := 0x0a000001 } }
    let d' : IPv4Datagram := { header := { dst := 0x801e0101 } }
    ((({} : Router).addRoute 0x801e4cff 16 none 0).addRoutes []).decision d =
      ((({} : Router).addRoute (highBits 0x801e4cff 16) 16 none 0).addRoutes []).decision d ∧
    ((({} : Router).addRoute 0x801e4cff 16 none 0).addRoutes
        [⟨0x801e0100, 24, none, 1⟩]).decision d' =
      ((({} : Router).addRoute (highBits 0x801e4cff 16) 16 none 0).addRoutes
        [⟨0x801e0100, 24, none, 1⟩]).decision d' := by
  intro d d'
  refine ⟨(prefix_bits_iff {} 0x801e4cff 16 (by decide) none 0 [] d).mpr (.inr ?_),
    (prefix_bits_iff {} 0x801e4cff 16 (by decide) none 0 _ d').mpr (.inr ?_)⟩
  · decide
  · decide

/-- The same prefix, and a datagram to 128.30.1.1. -/
theorem unaligned_prefix_dropped :
    let d : IPv4Datagram := { header := { dst := 0x801e0101 } }
    (({} : Router).addRoute 0x801e4cff 16 none 0).decision d = none ∧
      (({} : Router).addRoute (highBits 0x801e4cff 16) 16 none 0).decision d =
        some (0, 0x801e0101) := by
  decide

end Router

end Sponge
