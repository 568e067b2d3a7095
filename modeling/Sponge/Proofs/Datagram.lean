import Sponge.Sanity.IPv4

/-! Which byte strings `IPv4Datagram::parse` accepts. Every refusal of the header
parser but a short buffer is dropped, so a datagram with a wrong version, header
length, total length or checksum passes whenever its payload's size happens to agree
with the header's fields. -/

namespace Sponge

namespace IPv4Datagram

/-- What `payload_length` computes from the bytes: a 16-bit difference. -/
def payloadField (b : Buffer) : ℕ := (totalLength b + 2 ^ 16 - 4 * headerWords b) % 2 ^ 16

/-- The two ways past the checks: a bad checksum on a datagram that is otherwise
right; any other fault, with as many bytes after the fixed header as the fields
leave for a payload. -/
def Slips (b : Buffer) : Prop :=
  20 ≤ b.length ∧
    if Shaped b then onesChecksum (b.take (4 * headerWords b)) ≠ 0
    else b.length - 20 = payloadField b

theorem payloadLength_toNat {b : Buffer} {h : IPv4Header} (hr : h.Read b) :
    h.payloadLength.toNat = payloadField b := by
  have hw : headerWords b < 16 := Nat.mod_lt _ (by norm_num)
  have hfour : (4 * h.hlen.toUInt16).toNat = 4 * headerWords b := by
    rw [UInt16.toNat_mul, UInt8.toNat_toUInt16, hr.hlen]
    exact Nat.mod_eq_of_lt (by simp only [UInt16.reduceToNat]; omega)
  rw [IPv4Header.payloadLength, UInt16.toNat_sub, hfour, hr.len, payloadField]
  omega

theorem Shaped.payloadField_eq {b : Buffer} (hs : Shaped b) :
    payloadField b = b.length - 4 * headerWords b := by
  have h2 := (b.getD 2 0).toNat_lt
  have h3 := (b.getD 3 0).toNat_lt
  have htotal := hs.total
  have hfits := hs.fits
  unfold payloadField
  unfold totalLength at htotal ⊢
  omega

theorem parse_run (d : IPv4Datagram) {b : Buffer} (hb : 20 ≤ b.length) :
    ((d.parse b).1 = .noError ↔ b.length - payloadStart b = payloadField b) ∧
      (d.parse b).2.payload = [b.drop (payloadStart b)] := by
  obtain ⟨r, h, hrun, hread, -⟩ := d.header.parse_run hb
  simp only [parse, hrun, payloadLength_toNat hread, BufferList.size, List.map_cons, List.map_nil,
    List.sum_singleton, List.length_drop]
  split
  case isTrue hne => exact ⟨⟨fun h => by simp at h, fun h => absurd h hne⟩, rfl⟩
  case isFalse heq => exact ⟨⟨fun _ => not_not.mp heq, fun _ => rfl⟩, rfl⟩

/-- A buffer shorter than the fixed header is refused by its size: the default header's
fields leave 65516 bytes for the payload. -/
theorem parse_short {b : Buffer} (hb : b.length < 20) :
    (({} : IPv4Datagram).parse b).1 = .packetTooShort := by
  have hdefault : ({} : IPv4Header).payloadLength.toNat = 65516 := by decide
  have hrun := IPv4Header.parse_short {} (show (NetParser.mk b .noError).buffer.length < 20 from hb)
  simp only [parse, hrun, hdefault, BufferList.size, List.map_cons, List.map_nil,
    List.sum_singleton]
  rw [if_pos (by omega)]

theorem parse_iff (b : Buffer) :
    (({} : IPv4Datagram).parse b).1 = .noError ↔ WellFormed b ∨ Slips b := by
  by_cases hb : 20 ≤ b.length
  · rw [(parse_run {} hb).1, wellFormed_iff, Slips, payloadStart]
    by_cases hs : Shaped b
    · simp only [hs, if_true, true_and, hs.payloadField_eq, hb, true_iff]
      exact em _
    · simp only [hs, if_false, false_and, false_or, hb, true_and]
  · rw [parse_short (by omega)]
    simp only [reduceCtorEq, false_iff, not_or]
    exact ⟨fun h => hb h.header, fun h => hb h.1⟩

theorem WellFormed.not_slips {b : Buffer} (h : WellFormed b) : ¬Slips b := by
  rintro ⟨-, hslip⟩
  rw [if_pos h.toShaped] at hslip
  exact hslip h.cksum

theorem accepts_wellFormed_iff (b : Buffer) :
    (((({} : IPv4Datagram).parse b).1 = .noError ↔ WellFormed b) ↔ ¬Slips b) ∧
      (WellFormed b → (({} : IPv4Datagram).parse b).1 = .noError ∧
        (({} : IPv4Datagram).parse b).2.payload = [b.drop (4 * headerWords b)]) := by
  rw [parse_iff]
  constructor
  · constructor
    · intro h hslip
      exact (h.mp (.inr hslip)).not_slips hslip
    · intro h
      exact ⟨fun h' => h'.resolve_right h, .inl⟩
  · intro h
    have hpayload := (parse_run {} h.header).2
    rw [h.payloadStart_eq] at hpayload
    exact ⟨.inl h, hpayload⟩

/-- A good header and one byte of payload. -/
theorem accepts_wellFormed_iff_good :
    let b : Buffer :=
      [0x45, 0, 0, 21, 0, 0, 0x40, 0, 64, 6, 0x26, 0xe1, 10, 0, 0, 1, 10, 0, 0, 2, 7]
    WellFormed b ∧ (({} : IPv4Datagram).parse b).1 = .noError ∧
      (({} : IPv4Datagram).parse b).2.payload = [[7]] := by
  intro b
  have hgood : WellFormed b := by decide
  obtain ⟨hparse, hpayload⟩ := (accepts_wellFormed_iff b).2 hgood
  exact ⟨hgood, hparse, hpayload.trans (by decide)⟩

/-- A header of twenty bytes with no checksum, and nothing after it. -/
theorem accepts_bad_checksum :
    let b : Buffer := [0x45, 0, 0, 20, 0, 0, 0x40, 0, 64, 6, 0, 0, 10, 0, 0, 1, 10, 0, 0, 2]
    (({} : IPv4Datagram).parse b).1 = .noError ∧ ¬WellFormed b := by
  decide

end IPv4Datagram

end Sponge
