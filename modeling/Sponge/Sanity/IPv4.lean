import Sponge.Sanity.Parser
import Sponge.Spec.IPv4

/-! The header parser against the bytes it reads: which fields it leaves, where it
leaves the parser, and that its own result is right. -/

namespace Sponge

namespace IPv4Datagram

def version (b : Buffer) : ℕ := (b.getD 0 0).toNat / 16

/-- The header length in 32-bit words. -/
def headerWords (b : Buffer) : ℕ := (b.getD 0 0).toNat % 16

def totalLength (b : Buffer) : ℕ := (b.getD 2 0).toNat * 256 + (b.getD 3 0).toNat

/-- Every condition on a datagram but the checksum. -/
structure Shaped (b : Buffer) : Prop where
  header : 20 ≤ b.length
  version : version b = 4
  words : 5 ≤ headerWords b
  fits : 4 * headerWords b ≤ b.length
  total : totalLength b = b.length

structure WellFormed (b : Buffer) : Prop extends Shaped b where
  cksum : onesChecksum (b.take (4 * headerWords b)) = 0

theorem shaped_iff (b : Buffer) : Shaped b ↔ 20 ≤ b.length ∧ version b = 4 ∧
    5 ≤ headerWords b ∧ 4 * headerWords b ≤ b.length ∧ totalLength b = b.length :=
  ⟨fun ⟨h1, h2, h3, h4, h5⟩ => ⟨h1, h2, h3, h4, h5⟩,
    fun ⟨h1, h2, h3, h4, h5⟩ => ⟨h1, h2, h3, h4, h5⟩⟩

instance (b : Buffer) : Decidable (Shaped b) := decidable_of_iff' _ (shaped_iff b)

theorem wellFormed_iff (b : Buffer) :
    WellFormed b ↔ Shaped b ∧ onesChecksum (b.take (4 * headerWords b)) = 0 :=
  ⟨fun h => ⟨h.toShaped, h.cksum⟩, fun ⟨hs, hc⟩ => { hs with cksum := hc }⟩

instance (b : Buffer) : Decidable (WellFormed b) := decidable_of_iff' _ (wellFormed_iff b)

/-- The parser's check of the header bytes, by the one's-complement sum. -/
theorem checksum_iff {b : Buffer} (hs : Shaped b) :
    ¬(({} : InternetChecksum).add (b.take (4 * headerWords b))).value = 0 ↔ ¬WellFormed b := by
  have hlt : headerWords b < 16 := Nat.mod_lt _ (by norm_num)
  have hlen : (b.take (4 * headerWords b)).length < 2 ^ 16 := by
    rw [List.length_take]
    omega
  have hvalue := InternetChecksum.value_add hlen
  rw [wellFormed_iff, ← hvalue, ← UInt16.toNat_inj]
  exact not_congr ⟨fun h => ⟨hs, h⟩, fun h => h.2⟩

/-- Where the header parser stops: the options are skipped only when every condition
but the checksum holds. -/
def payloadStart (b : Buffer) : ℕ := if Shaped b then 4 * headerWords b else 20

theorem Shaped.payloadStart_eq {b : Buffer} (hs : Shaped b) :
    payloadStart b = 4 * headerWords b := if_pos hs

end IPv4Datagram

namespace IPv4Header

open IPv4Datagram NetParser

/-- The fields a datagram's checks look at are those of its bytes. -/
structure Read (b : Buffer) (h : IPv4Header) : Prop where
  ver : h.ver.toNat = version b
  hlen : h.hlen.toNat = headerWords b
  len : h.len.toNat = totalLength b

theorem readFields_run (h : IPv4Header) {b : Buffer} (hb : 20 ≤ b.length) :
    ∃ h', h.readFields ⟨b, .noError⟩ = (h', ⟨b.drop 20, .noError⟩) ∧ Read b h' := by
  obtain ⟨src, hsrc⟩ := u32_drop (b := b) (i := 12) (by omega)
  obtain ⟨dst, hdst⟩ := u32_drop (b := b) (i := 16) (by omega)
  show ∃ h', h.readFields ⟨b.drop 0, .noError⟩ = _ ∧ _
  rw [readFields, bind_run (u8_drop (by omega)), bind_run (u8_drop (by omega)),
    bind_run (u16_drop (by omega)), bind_run (u16_drop (by omega)), bind_run (u16_drop (by omega)),
    bind_run (u8_drop (by omega)), bind_run (u8_drop (by omega)), bind_run (u16_drop (by omega)),
    bind_run hsrc, bind_run hdst, pure_apply]
  refine ⟨_, rfl, ?_, ?_, ?_⟩
  · simp [version, UInt8.toNat_shiftRight, Nat.shiftRight_eq_div_pow]
  · simp only [headerWords, UInt8.toNat_and, UInt8.reduceToNat]
    exact Nat.and_two_pow_sub_one_eq_mod _ 4
  · have h2 := (b.getD 2 0).toNat_lt
    have h3 := (b.getD 3 0).toNat_lt
    exact UInt16.toNat_ofNat_of_lt' (by simp only [UInt16.size, Nat.reduceAdd]; omega)

theorem parse_short (h : IPv4Header) {p : NetParser} (hp : p.buffer.length < 20) :
    h.parse p = (.packetTooShort, h, p) := by
  simp [parse, LENGTH, hp]

/-- The result, which `IPv4Datagram::parse` drops, accepts what is well formed. -/
theorem parse_run (h : IPv4Header) {b : Buffer} (hb : 20 ≤ b.length) :
    ∃ r h', h.parse ⟨b, .noError⟩ =
        (r, h', ⟨b.drop (payloadStart b), .noError⟩) ∧
      Read b h' ∧ (r = .noError ↔ WellFormed b) := by
  obtain ⟨h', hrun, hread⟩ := h.readFields_run hb
  have hver : h'.ver ≠ 4 ↔ version b ≠ 4 := by
    rw [← hread.ver, ne_eq, ← UInt8.toNat_inj]
    rfl
  have hfive : h'.hlen < 5 ↔ headerWords b < 5 := by
    rw [← hread.hlen, UInt8.lt_iff_toNat_lt]
    rfl
  simp only [parse, LENGTH, if_neg (Nat.not_lt.mpr hb), hrun, hver, hfive, hread.hlen, hread.len]
  by_cases hs : Shaped b
  · have hfits := hs.fits
    have hwords := hs.words
    have hskip : (b.drop 20).drop (headerWords b * 4 - 20) = b.drop (4 * headerWords b) := by
      have hsum : 20 + (headerWords b * 4 - 20) = 4 * headerWords b := by omega
      rw [List.drop_drop, hsum]
    rw [if_neg (by omega), if_neg (by simp [hs.version]), if_neg (by omega),
      if_neg (by simp [hs.total]), removePrefix_run (by rw [List.length_drop]; omega), hskip,
      hs.payloadStart_eq]
    simp only [ne_eq, not_true_eq_false, if_false, checksum_iff hs]
    split
    case isTrue hbad => exact ⟨_, _, rfl, hread, by simp [hbad]⟩
    case isFalse hgood => exact ⟨_, _, rfl, hread, by simpa using hgood⟩
  · rw [payloadStart, if_neg hs]
    -- every refusal leaves the parser after the fixed fields
    have refused : ∀ r : ParseResult, r ≠ .noError → ∃ r' h'',
        (r, h', (⟨b.drop 20, .noError⟩ : NetParser)) = (r', h'', ⟨b.drop 20, .noError⟩) ∧
        Read b h'' ∧ (r' = .noError ↔ WellFormed b) := by
      intro r hr
      exact ⟨r, h', rfl, hread, fun h => absurd h hr, fun h => absurd h.toShaped hs⟩
    split
    · exact refused .packetTooShort (by decide)
    split
    · exact refused .wrongIPVersion (by decide)
    split
    · exact refused .headerTooShort (by decide)
    split
    · exact refused .truncatedPacket (by decide)
    · exact absurd ⟨hb, by omega, by omega, by omega, by omega⟩ hs

end IPv4Header

end Sponge
