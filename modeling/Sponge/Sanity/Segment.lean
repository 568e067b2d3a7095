import Sponge.Sanity.Wire

/-! `TCPSegment::parse` against the bytes it reads. The header parser refuses a data offset
below five words, but its answer is dropped: only the error of the byte reader counts. -/

namespace Sponge

namespace TCPSegment

/-- The header length in 32-bit words. -/
def dataOffset (b : Buffer) : ℕ := (b.getD 12 0).toNat / 16

/-- The checksum of the bytes, seeded with the sum of a pseudo-header, is zero. -/
def Verifies (b : Buffer) (pseudo : UInt32) : Prop := endAround (pseudo.toNat + wordSum b) = 65535

instance (b : Buffer) (pseudo : UInt32) : Decidable (Verifies b pseudo) :=
  inferInstanceAs (Decidable (_ = _))

structure WellFormed (b : Buffer) (pseudo : UInt32) : Prop where
  cksum : Verifies b pseudo
  header : 20 ≤ b.length
  words : 5 ≤ dataOffset b
  fits : 4 * dataOffset b ≤ b.length

theorem wellFormed_iff (b : Buffer) (pseudo : UInt32) : WellFormed b pseudo ↔
    Verifies b pseudo ∧ 20 ≤ b.length ∧ 5 ≤ dataOffset b ∧ 4 * dataOffset b ≤ b.length :=
  ⟨fun ⟨h1, h2, h3, h4⟩ => ⟨h1, h2, h3, h4⟩, fun ⟨h1, h2, h3, h4⟩ => ⟨h1, h2, h3, h4⟩⟩

instance (b : Buffer) (pseudo : UInt32) : Decidable (WellFormed b pseudo) :=
  decidable_of_iff' _ (wellFormed_iff b pseudo)

theorem value_eq_zero_iff {b : Buffer} {pseudo : UInt32} (hpseudo : pseudo.toNat < 2 ^ 19)
    (hb : b.length ≤ 65535) :
    ({ sum := pseudo : InternetChecksum }.add b).value = 0 ↔ Verifies b pseudo :=
  InternetChecksum.value_add_eq_zero_iff hpseudo hb

end TCPSegment

namespace TCPHeader

open NetParser TCPSegment

theorem consumes_readFields : Consumes 20 readFields := by
  unfold readFields
  refine Consumes.bind (n := 18) consumes_u16 fun _ => ?_
  refine Consumes.bind (n := 16) consumes_u16 fun _ => ?_
  refine Consumes.bind (n := 12) consumes_u32 fun _ => ?_
  refine Consumes.bind (n := 8) consumes_u32 fun _ => ?_
  refine Consumes.bind (n := 7) consumes_u8 fun _ => ?_
  refine Consumes.bind (n := 6) consumes_u8 fun _ => ?_
  refine Consumes.bind (n := 4) consumes_u16 fun _ => ?_
  refine Consumes.bind (n := 2) consumes_u16 fun _ => ?_
  exact Consumes.bind (n := 0) consumes_u16 fun _ => .pure _

theorem readFields_run {b : Buffer} (hb : 20 ≤ b.length) :
    ∃ h, readFields ⟨b, .noError⟩ = (h, ⟨b.drop 20, .noError⟩) ∧ h.doff.toNat = dataOffset b := by
  obtain ⟨seqno, hseqno⟩ := u32_drop (b := b) (i := 4) (by omega)
  obtain ⟨ackno, hackno⟩ := u32_drop (b := b) (i := 8) (by omega)
  show ∃ h, readFields ⟨b.drop 0, .noError⟩ = _ ∧ _
  rw [readFields, bind_run (u16_drop (by omega)), bind_run (u16_drop (by omega)), bind_run hseqno,
    bind_run hackno, bind_run (u8_drop (by omega)), bind_run (u8_drop (by omega)),
    bind_run (u16_drop (by omega)), bind_run (u16_drop (by omega)), bind_run (u16_drop (by omega)),
    pure_apply]
  refine ⟨_, rfl, ?_⟩
  simp [dataOffset, UInt8.toNat_shiftRight, Nat.shiftRight_eq_div_pow]

/-- A buffer shorter than the fixed header leaves the reader with an error. -/
theorem parse_short {b : Buffer} (hb : b.length < 20) :
    (parse ⟨b, .noError⟩).2.2.error ≠ .noError := by
  have hread : (readFields ⟨b, .noError⟩).2.error ≠ .noError := by
    intro h
    have hlen := (consumes_readFields _ h).2
    simp only at hlen
    omega
  have hskip : ∀ (n : ℕ) (p : NetParser), p.error ≠ .noError →
      (removePrefix n p).2.error ≠ .noError := by
    intro n p hp
    unfold removePrefix checkSize
    split <;> simp [hp]
  obtain ⟨⟨h, p⟩, hrun⟩ : ∃ r, r = readFields ⟨b, .noError⟩ := ⟨_, rfl⟩
  rw [← hrun] at hread
  simp only [parse, ← hrun]
  by_cases hfive : h.doff < 5
  · rwa [if_pos hfive]
  · have hlast := hskip (h.doff.toNat * 4 - LENGTH) p hread
    obtain ⟨⟨_, q⟩, hq⟩ : ∃ r, r = removePrefix (h.doff.toNat * 4 - LENGTH) p := ⟨_, rfl⟩
    rw [← hq] at hlast
    rw [if_neg hfive, ← hq]
    simp only [if_pos hlast]
    exact hlast

/-- The fixed fields, then the options where the data offset has room for them. -/
theorem parse_run {b : Buffer} (hb : 20 ≤ b.length) :
    ∃ r h p, parse ⟨b, .noError⟩ = (r, h, p) ∧ h.doff.toNat = dataOffset b ∧
      (p.error = .noError ↔ dataOffset b < 5 ∨ 4 * dataOffset b ≤ b.length) ∧
      (5 ≤ dataOffset b → p.error = .noError → p.buffer = b.drop (4 * dataOffset b)) := by
  obtain ⟨h, hread, hdoff⟩ := readFields_run hb
  have hfive : h.doff < 5 ↔ dataOffset b < 5 := by
    rw [← hdoff, UInt8.lt_iff_toNat_lt]
    rfl
  simp only [parse, hread, hfive, hdoff, LENGTH]
  by_cases hshort : dataOffset b < 5
  · rw [if_pos hshort]
    exact ⟨_, _, _, rfl, hdoff, by simp [hshort], fun h => absurd h (by omega)⟩
  · rw [if_neg hshort]
    by_cases hfits : 4 * dataOffset b ≤ b.length
    · have hsum : 20 + (dataOffset b * 4 - 20) = 4 * dataOffset b := by omega
      rw [removePrefix_run (by rw [List.length_drop]; omega), List.drop_drop, hsum]
      exact ⟨_, _, _, rfl, hdoff, by simp [hfits], fun _ _ => rfl⟩
    · have hlong : (b.drop 20).length < dataOffset b * 4 - 20 := by
        rw [List.length_drop]
        omega
      have hrefused : removePrefix (dataOffset b * 4 - 20) ⟨b.drop 20, .noError⟩ =
          ((), ⟨b.drop 20, .packetTooShort⟩) := by
        simp only [removePrefix, checkSize, if_pos hlong]
        rfl
      rw [hrefused]
      exact ⟨_, _, _, rfl, hdoff, by simp [hshort, hfits], fun _ h => absurd h (by simp)⟩

end TCPHeader

namespace TCPSegment

theorem parse_bad (g : TCPSegment) {b : Buffer} {pseudo : UInt32}
    (hpseudo : pseudo.toNat < 2 ^ 19) (hb : b.length ≤ 65535) (hbad : ¬Verifies b pseudo) :
    g.parse b pseudo = (.badChecksum, g) := by
  rw [parse, if_pos (mt (value_eq_zero_iff hpseudo hb).mp hbad)]

theorem parse_good (g : TCPSegment) {b : Buffer} {pseudo : UInt32}
    (hpseudo : pseudo.toNat < 2 ^ 19) (hb : b.length ≤ 65535) (hgood : Verifies b pseudo) :
    g.parse b pseudo = ((TCPHeader.parse { buffer := b }).2.2.error,
      { header := (TCPHeader.parse { buffer := b }).2.1
        payload := (TCPHeader.parse { buffer := b }).2.2.buffer }) := by
  rw [parse, if_neg (not_not.mpr ((value_eq_zero_iff hpseudo hb).mpr hgood))]

/-- Exactly what is accepted: a data offset is looked at only when it is large enough. -/
theorem parse_iff (g : TCPSegment) {b : Buffer} {pseudo : UInt32}
    (hpseudo : pseudo.toNat < 2 ^ 19) (hb : b.length ≤ 65535) :
    (g.parse b pseudo).1 = .noError ↔
      Verifies b pseudo ∧ 20 ≤ b.length ∧ (dataOffset b < 5 ∨ 4 * dataOffset b ≤ b.length) := by
  by_cases hgood : Verifies b pseudo
  · rw [parse_good g hpseudo hb hgood]
    by_cases hlen : 20 ≤ b.length
    · obtain ⟨r, h, p, hrun, -, herr, -⟩ := TCPHeader.parse_run hlen
      simp only [hrun, herr, hgood, hlen, true_and]
    · have hshort := TCPHeader.parse_short (show b.length < 20 by omega)
      simp only [hshort, hlen, false_and, and_false]
  · rw [parse_bad g hpseudo hb hgood]
    simp [hgood]

end TCPSegment

end Sponge
