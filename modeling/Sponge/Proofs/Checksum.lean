import Sponge.Sanity.Parser

/-! `InternetChecksum` is the complement of the one's-complement sum of what it was given,
however that was cut into calls of `add`. -/

namespace Sponge

namespace InternetChecksum

theorem foldl_add (c : InternetChecksum) (chunks : List Buffer) :
    chunks.foldl add c = c.add chunks.flatten :=
  List.foldl_flatten.symm

theorem value_onesAdd {seed : UInt32} (hseed : seed.toNat < 2 ^ 19) {data : Buffer}
    (hdata : data.length ≤ 65535) :
    ({ sum := seed : InternetChecksum }.add data).value.toNat =
      65535 - (words (padded data)).foldl onesAdd (endAround seed.toNat) := by
  rw [value_toNat, add_exact hseed hdata, foldl_onesAdd (words_le _), sum_words (length_padded _),
    wordSum_padded]

/-- The first part says that the accumulator is the plain sum after every byte, so that no
addition of a byte wraps. -/
theorem checksum_rfc1071 (seed : UInt32) (hseed : seed.toNat < 2 ^ 19) (chunks : List Buffer)
    (hlen : chunks.flatten.length ≤ 65535) :
    let c : InternetChecksum := { sum := seed }
    (∀ taken, taken <+: chunks.flatten →
      (taken.foldl addByte c).sum.toNat = seed.toNat + wordSum taken) ∧
    (chunks.foldl add c).value.toNat =
      65535 - (words (padded chunks.flatten)).foldl onesAdd (endAround seed.toNat) ∧
    (∀ chunks' : List Buffer, chunks'.flatten = chunks.flatten →
      (chunks'.foldl add c).value = (chunks.foldl add c).value) ∧
    (∀ (pre post : Buffer) (chunks' : List Buffer), pre.length % 2 = 0 →
      chunks.flatten = pre ++ (NetUnparser.u16 0 ++ post) →
      chunks'.flatten = pre ++ (NetUnparser.u16 (chunks.foldl add c).value ++ post) →
      (chunks'.foldl add c).value = 0) := by
  intro c
  refine ⟨?_, ?_, ?_, ?_⟩
  · intro taken htaken
    have hle := htaken.length_le
    exact add_exact hseed (by omega)
  · rw [foldl_add]
    exact value_onesAdd hseed hlen
  · intro chunks' hsame
    rw [foldl_add, foldl_add, hsame]
  · intro pre post chunks' hpre hzero hfilled
    have hsum := wordSum_le chunks.flatten
    rw [foldl_add, hfilled, foldl_add, hzero]
    refine value_cksum rfl hpre ?_
    rw [← hzero]
    show seed.toNat + wordSum chunks.flatten + 65535 < 2 ^ 32
    omega

/-- Three calls, one of them empty and one of odd length, over two words and an odd byte; the
second word is the field for the checksum. -/
theorem checksum_rfc1071_odd :
    let c : InternetChecksum := { sum := 0x1fffe }
    ([[0x12, 0x34, 0], [], [0, 0xff]].foldl add c).value = 0xeeca ∧
      ([[0x12, 0x34], NetUnparser.u16 0xeeca, [0xff]].foldl add c).value = 0 := by
  intro c
  have h := checksum_rfc1071 0x1fffe (by decide) [[0x12, 0x34, 0], [], [0, 0xff]] (by decide)
  have hvalue : ([[0x12, 0x34, 0], [], [0, 0xff]].foldl add c).value = 0xeeca := by decide
  refine ⟨hvalue, h.2.2.2 [0x12, 0x34] [0xff] _ rfl rfl ?_⟩
  rw [hvalue]
  rfl

end InternetChecksum

end Sponge
