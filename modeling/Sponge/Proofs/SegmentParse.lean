import Sponge.Sanity.Segment

/-! Which byte strings `TCPSegment::parse` accepts, and that it refuses every string that one
changed byte makes of an accepted one. -/

namespace Sponge

namespace TCPSegment

/-- The way past the checks: everything is right but the data offset is below the five words
of the fixed header. -/
def SlipsOffset (b : Buffer) (pseudo : UInt32) : Prop :=
  Verifies b pseudo ∧ 20 ≤ b.length ∧ dataOffset b < 5

instance (b : Buffer) (pseudo : UInt32) : Decidable (SlipsOffset b pseudo) :=
  inferInstanceAs (Decidable (_ ∧ _))

theorem parse_wellFormed (g : TCPSegment) {b : Buffer} {pseudo : UInt32}
    (hpseudo : pseudo.toNat < 2 ^ 19) (hb : b.length ≤ 65535) (h : WellFormed b pseudo) :
    (g.parse b pseudo).2.payload = b.drop (4 * dataOffset b) ∧
      ∃ l, (g.parse b pseudo).2.serialize pseudo = .ok l := by
  obtain ⟨r, hdr, p, hrun, hdoff, herr, hpayload⟩ := TCPHeader.parse_run h.header
  rw [parse_good g hpseudo hb h.cksum]
  simp only [hrun]
  refine ⟨hpayload h.words (herr.mpr (.inr h.fits)), _, serialize_eq ?_ pseudo⟩
  rw [hdoff]
  exact h.words

theorem accepts_segment_iff (g : TCPSegment) (b : Buffer) (hb : b.length ≤ 65535)
    (pseudo : UInt32) (hpseudo : pseudo.toNat < 2 ^ 19) :
    (((g.parse b pseudo).1 = .noError ↔ WellFormed b pseudo) ∧
      ((g.parse b pseudo).1 = .noError →
        (g.parse b pseudo).2.payload = b.drop (4 * dataOffset b) ∧
        ∃ l, (g.parse b pseudo).2.serialize pseudo = .ok l)) ↔
    ¬SlipsOffset b pseudo := by
  have haccept := g.parse_iff hpseudo hb
  constructor
  · rintro ⟨hiff, -⟩ ⟨hgood, hlen, hshort⟩
    have hwell := hiff.mp (haccept.mpr ⟨hgood, hlen, .inl hshort⟩)
    exact absurd hwell.words (Nat.not_le.mpr hshort)
  · intro hslip
    have hwell : (g.parse b pseudo).1 = .noError → WellFormed b pseudo := by
      intro h
      obtain ⟨hgood, hlen, hoffset⟩ := haccept.mp h
      have hwords : ¬dataOffset b < 5 := fun hshort => hslip ⟨hgood, hlen, hshort⟩
      exact ⟨hgood, hlen, Nat.not_lt.mp hwords, hoffset.resolve_left hwords⟩
    refine ⟨⟨hwell, fun h => haccept.mpr ⟨h.cksum, h.header, .inr h.fits⟩⟩, fun h => ?_⟩
    exact g.parse_wellFormed hpseudo hb (hwell h)

/-- A header with one word of options and two bytes of payload. -/
theorem accepts_segment_iff_options :
    let b : Buffer := [0, 80, 0, 81, 0, 0, 0, 1, 0, 0, 0, 2, 0x60, 0x10, 1, 0, 0x9d, 0x49, 0, 0,
      0, 0, 0, 0, 1, 2]
    WellFormed b 65535 ∧ (({} : TCPSegment).parse b 65535).1 = .noError ∧
      (({} : TCPSegment).parse b 65535).2.payload = [1, 2] := by
  intro b
  have hwell : WellFormed b 65535 := by decide
  obtain ⟨hiff, hthen⟩ :=
    (accepts_segment_iff {} b (by decide) 65535 (by decide)).mpr (by decide)
  exact ⟨hwell, hiff.mpr hwell, (hthen (hiff.mpr hwell)).1.trans (by decide)⟩

/-- Twenty bytes with a data offset of zero and a good checksum: accepted, and what is
accepted cannot be written. -/
theorem accepts_zero_offset :
    let b : Buffer := [0, 0, 0, 0, 0, 0, 0, 0, 0, 0, 0, 0, 0, 0, 0, 0, 0xff, 0xff, 0, 0]
    (({} : TCPSegment).parse b 0).1 = .noError ∧ ¬WellFormed b 0 ∧
      (({} : TCPSegment).parse b 0).2.payload = [] ∧ b.drop (4 * dataOffset b) = b ∧
      (({} : TCPSegment).parse b 0).2.serialize 0 =
        .error (.runtimeError "TCP header too short") := by
  refine ⟨by decide, by decide, by decide, by decide, by rfl⟩

theorem eq_set_of_differ_once {b b' : Buffer} (hlen : b'.length = b.length)
    (hone : ∃! i : ℕ, b'[i]? ≠ b[i]?) :
    ∃ i, ∃ h : i < b.length, ∃ x, x ≠ b[i] ∧ b' = b.set i x := by
  obtain ⟨i, hi, honly⟩ := hone
  have hlt : i < b.length := by
    by_contra hge
    rw [List.getElem?_eq_none (by omega), List.getElem?_eq_none (by omega)] at hi
    exact hi rfl
  have hlt' : i < b'.length := by omega
  refine ⟨i, hlt, b'[i], ?_, ?_⟩
  · intro heq
    rw [List.getElem?_eq_getElem hlt', List.getElem?_eq_getElem hlt, heq] at hi
    exact hi rfl
  · apply List.ext_getElem?
    intro j
    by_cases hj : j = i
    · subst hj
      rw [List.getElem?_set_self hlt, List.getElem?_eq_getElem hlt']
    · rw [List.getElem?_set_ne (Ne.symm hj)]
      by_contra hne
      exact hj (honly j hne)

/-- A changed byte moves the sum by less than 2^16 - 1, and not by zero. -/
theorem Verifies.not_set {b : Buffer} {pseudo : UInt32} (h : Verifies b pseudo) {i : ℕ}
    (hi : i < b.length) {x : Byte} (hx : x ≠ b[i]) : ¬Verifies (b.set i x) pseudo := by
  have hset := wordSum_set hi x
  have hnew := x.toNat_lt
  have hold := b[i].toNat_lt
  have hne : x.toNat ≠ b[i].toNat := fun heq => hx (UInt8.toNat_inj.mp heq)
  unfold Verifies at h ⊢
  rw [endAround_eq_iff] at h ⊢
  split at hset <;> omega

theorem corruption_detected (b : Buffer) (hb : b.length ≤ 65535) (pseudo : UInt32)
    (hpseudo : pseudo.toNat < 2 ^ 19) (g : TCPSegment) (h : (g.parse b pseudo).1 = .noError)
    (b' : Buffer) (hlen : b'.length = b.length) (hone : ∃! i : ℕ, b'[i]? ≠ b[i]?)
    (g' : TCPSegment) : g'.parse b' pseudo = (.badChecksum, g') := by
  obtain ⟨i, hi, x, hx, rfl⟩ := eq_set_of_differ_once hlen hone
  have hgood := ((g.parse_iff hpseudo hb).mp h).1
  exact g'.parse_bad hpseudo (by omega) (hgood.not_set hi hx)

/-- The odd byte at the end of a segment, changed. -/
theorem corruption_detected_last :
    let b : Buffer := [0, 0, 0, 0, 0, 0, 0, 0, 0, 0, 0, 0, 0x50, 0, 0, 0, 0xae, 0xff, 0, 0, 1]
    let b' : Buffer := [0, 0, 0, 0, 0, 0, 0, 0, 0, 0, 0, 0, 0x50, 0, 0, 0, 0xae, 0xff, 0, 0, 2]
    (({} : TCPSegment).parse b 0).1 = .noError ∧
      ({} : TCPSegment).parse b' 0 = (.badChecksum, {}) := by
  intro b b'
  have h : (({} : TCPSegment).parse b 0).1 = .noError := by decide
  refine ⟨h, corruption_detected b (by decide) 0 (by decide) {} h b' rfl ⟨20, by decide, ?_⟩ {}⟩
  intro j hj
  by_contra hne
  apply hj
  match j with
  | 0 | 1 | 2 | 3 | 4 | 5 | 6 | 7 | 8 | 9 | 10 | 11 | 12 | 13 | 14 | 15 | 16 | 17 | 18 | 19 => rfl
  | 20 => exact absurd rfl hne
  | j + 21 => rfl

end TCPSegment

end Sponge
