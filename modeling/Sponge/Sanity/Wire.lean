import Mathlib.Data.Nat.Bitwise
import Sponge.Sanity.IPv4
import Sponge.Sanity.NetworkInterface
import Sponge.Spec.TCPOverIPv4

/-! IPv4 datagrams and TCP segments survive the wire: the bytes they are written as are
described once, and the parsers are run on them. -/

namespace Sponge

/-- A count of 32-bit words that is long enough for a header. -/
theorem not_lt_five {words : UInt8} (h : 5 ≤ words.toNat) : ¬words < 5 := by
  rw [UInt8.lt_iff_toNat_lt]
  exact Nat.not_lt.mpr h

theorem IPv4Header.resize_of_le {s : Buffer} {n : ℕ} (h : s.length ≤ n) :
    resize s n = s ++ List.replicate (n - s.length) 0 := by
  rw [resize, List.take_of_length_le h]

namespace IPv4Header

/-- Every field has a value that its place in the header can hold. -/
structure Writable (h : IPv4Header) : Prop where
  ver : h.ver = 4
  short : 5 ≤ h.hlen.toNat
  long : h.hlen.toNat ≤ 15
  offset : h.offset.toNat < 2 ^ 13

/-- The bytes before the checksum. -/
def front (h : IPv4Header) : Buffer :=
  NetUnparser.u8 ((h.ver <<< 4) ||| (h.hlen &&& 0xf)) ++ (NetUnparser.u8 h.tos ++
  (NetUnparser.u16 h.len ++ (NetUnparser.u16 h.id ++ (NetUnparser.u16 h.foVal ++
  (NetUnparser.u8 h.ttl ++ NetUnparser.u8 h.proto)))))

/-- The bytes after the checksum, with zeros for the options. -/
def back (h : IPv4Header) : Buffer :=
  NetUnparser.u32 h.src ++ (NetUnparser.u32 h.dst ++ List.replicate (4 * h.hlen.toNat - 20) 0)

def bytes (h : IPv4Header) (cksum : UInt16) : Buffer :=
  h.front ++ (NetUnparser.u16 cksum ++ h.back)

/-- The checksum a header is written with. -/
def wireCksum (h : IPv4Header) : UInt16 := (({} : InternetChecksum).add (h.bytes 0)).value

theorem length_front (h : IPv4Header) : h.front.length = 10 := by
  simp [front]

theorem length_bytes {h : IPv4Header} (hw : h.Writable) (cksum : UInt16) :
    (h.bytes cksum).length = 4 * h.hlen.toNat := by
  have hshort := hw.short
  simp [bytes, length_front, back]
  omega

theorem serialize_eq {h : IPv4Header} (hw : h.Writable) (cksum : UInt16) :
    { h with cksum }.serialize = .ok (h.bytes cksum) := by
  have hshort := hw.short
  rw [serialize, if_neg (by simp [hw.ver]), if_neg (by simp only [LENGTH]; omega),
    resize_of_le (by simp; omega)]
  simp only [bytes, front, back, foVal, List.append_assoc, List.length_append,
    NetUnparser.length_u8, NetUnparser.length_u16, NetUnparser.length_u32]

theorem first_ver (hlen : UInt8) : (((4 : UInt8) <<< 4) ||| (hlen &&& 0xf)) >>> 4 = 4 := by
  have hlow : (hlen &&& 0xf) >>> 4 = 0 := by
    rw [UInt8.shiftRight_and]
    exact UInt8.and_zero
  rw [UInt8.shiftRight_or, hlow]
  rfl

theorem first_hlen {hlen : UInt8} (h : hlen.toNat ≤ 15) :
    (((4 : UInt8) <<< 4) ||| (hlen &&& 0xf)) &&& 0xf = hlen := by
  have hlow : hlen.toNat &&& 15 = hlen.toNat := by
    rw [Nat.and_two_pow_sub_one_eq_mod _ 4]
    omega
  rw [← UInt8.toNat_inj]
  simp [Nat.and_or_distrib_right, hlow]

theorem foVal_and (h : IPv4Header) (mask : UInt16) : h.foVal &&& mask =
    ((if h.df then 0x4000 else 0) &&& mask) ||| ((if h.mf then 0x2000 else 0) &&& mask) |||
      (h.offset &&& (0x1fff &&& mask)) := by
  rw [← UInt16.and_assoc, ← UInt16.toNat_inj]
  simp only [foVal, UInt16.toNat_and, UInt16.toNat_or, Nat.and_or_distrib_right]

theorem foVal_df (h : IPv4Header) : (h.foVal &&& 0x4000 != 0) = h.df := by
  rw [foVal_and, show (0x1fff &&& 0x4000 : UInt16) = 0 from rfl, UInt16.and_zero]
  cases h.df <;> cases h.mf <;> rfl

theorem foVal_mf (h : IPv4Header) : (h.foVal &&& 0x2000 != 0) = h.mf := by
  rw [foVal_and, show (0x1fff &&& 0x2000 : UInt16) = 0 from rfl, UInt16.and_zero]
  cases h.df <;> cases h.mf <;> rfl

theorem foVal_offset {h : IPv4Header} (hw : h.Writable) : h.foVal &&& 0x1fff = h.offset := by
  have hoffset : h.offset &&& 0x1fff = h.offset := by
    rw [← UInt16.toNat_inj, UInt16.toNat_and]
    exact (Nat.and_two_pow_sub_one_eq_mod _ 13).trans (Nat.mod_eq_of_lt hw.offset)
  rw [foVal_and, UInt16.and_self, hoffset]
  cases h.df <;> cases h.mf <;> exact UInt16.zero_or

open NetParser in
theorem readFields_bytes (h₀ : IPv4Header) {h : IPv4Header} (hw : h.Writable) (cksum : UInt16)
    (rest : Buffer) :
    h₀.readFields ⟨h.bytes cksum ++ rest, .noError⟩ = ({ h with cksum },
      ⟨List.replicate (4 * h.hlen.toNat - 20) 0 ++ rest, .noError⟩) := by
  have hver : (h.ver <<< 4 ||| h.hlen &&& 0xf) >>> 4 = h.ver := by
    rw [hw.ver]
    exact first_ver h.hlen
  have hhlen : (h.ver <<< 4 ||| h.hlen &&& 0xf) &&& 0xf = h.hlen := by
    rw [hw.ver]
    exact first_hlen hw.long
  simp only [bytes, front, back, List.append_assoc, readFields]
  rw [bind_run (u8_unparse _ _), bind_run (u8_unparse _ _), bind_run (u16_unparse _ _),
    bind_run (u16_unparse _ _), bind_run (u16_unparse _ _), bind_run (u8_unparse _ _),
    bind_run (u8_unparse _ _), bind_run (u16_unparse _ _), bind_run (u32_unparse _ _),
    bind_run (u32_unparse _ _), pure_apply, hver, hhlen, foVal_df, foVal_mf, foVal_offset hw]

/-- The header's bytes give its fields, whatever the checksum, and the options are skipped. -/
theorem parse_bytes_any (h₀ : IPv4Header) {h : IPv4Header} (hw : h.Writable) (cksum : UInt16)
    (rest : Buffer) (hlen : h.len.toNat = 4 * h.hlen.toNat + rest.length) :
    h₀.parse ⟨h.bytes cksum ++ rest, .noError⟩ =
      (if (({} : InternetChecksum).add (h.bytes cksum)).value ≠ 0 then .badChecksum else .noError,
        { h with cksum }, ⟨rest, .noError⟩) := by
  have hbytes := length_bytes hw cksum
  have hshort := hw.short
  have hoptions : h.hlen.toNat * 4 - LENGTH =
      (List.replicate (4 * h.hlen.toNat - 20) (0 : Byte)).length := by
    rw [List.length_replicate, LENGTH, Nat.mul_comm]
  have htake : (h.bytes cksum ++ rest).take (4 * h.hlen.toNat) = h.bytes cksum := by
    rw [← hbytes, List.take_left]
  have htotal : (h.bytes cksum ++ rest).length = h.len.toNat := by
    rw [List.length_append, hbytes, hlen]
  have hfits : ¬h.len.toNat < LENGTH := by
    rw [LENGTH]
    omega
  simp only [parse, htotal, if_neg hfits, readFields_bytes h₀ hw]
  rw [if_neg (by omega), if_neg (by simp [hw.ver]), if_neg (not_lt_five hshort), if_neg (by simp),
    NetParser.removePrefix_append hoptions]
  simp only [ne_eq, not_true_eq_false, if_false, htake]
  split <;> rfl

theorem value_wireCksum {h : IPv4Header} (hw : h.Writable) :
    (({} : InternetChecksum).add (h.bytes h.wireCksum)).value = 0 := by
  have hzero := length_bytes hw 0
  have hlong := hw.long
  have hsum := wordSum_le (h.bytes 0)
  refine InternetChecksum.value_cksum rfl (by rw [length_front]) ?_
  rw [hzero] at hsum
  show 0 + wordSum (h.bytes 0) + 65535 < 2 ^ 32
  omega

theorem parse_bytes (h₀ : IPv4Header) {h : IPv4Header} (hw : h.Writable) (rest : Buffer)
    (hlen : h.len.toNat = 4 * h.hlen.toNat + rest.length) :
    h₀.parse ⟨h.bytes h.wireCksum ++ rest, .noError⟩ =
      (.noError, { h with cksum := h.wireCksum }, ⟨rest, .noError⟩) := by
  rw [parse_bytes_any h₀ hw _ rest hlen, if_neg (not_not.mpr (value_wireCksum hw))]

theorem and_bit (x : UInt16) {m : UInt16} {i : ℕ} (hm : m.toNat = 2 ^ i) :
    (if x &&& m != 0 then m else 0) = x &&& m := by
  have hand : (x &&& m).toNat = (x.toNat.testBit i).toNat * m.toNat := by
    rw [UInt16.toNat_and, hm, Nat.and_two_pow]
  cases hbit : x.toNat.testBit i with
  | true =>
    have heq : x &&& m = m := by
      rw [← UInt16.toNat_inj, hand, hbit, Bool.toNat_true, Nat.one_mul]
    rw [heq]
    split <;> simp_all
  | false =>
    have heq : x &&& m = 0 := by
      rw [← UInt16.toNat_inj, hand, hbit, Bool.toNat_false, Nat.zero_mul]
      rfl
    rw [heq]
    rfl

/-- The flags and the offset make up a field whose reserved bit is zero. -/
theorem exists_foVal {fo : UInt16} (h : fo.toNat < 2 ^ 15) :
    ∃ df mf offset, offset.toNat < 2 ^ 13 ∧ foVal { df, mf, offset } = fo := by
  have hoffset : (fo &&& 0x1fff).toNat = fo.toNat % 2 ^ 13 := by
    rw [UInt16.toNat_and]
    exact Nat.and_two_pow_sub_one_eq_mod _ 13
  refine ⟨fo &&& 0x4000 != 0, fo &&& 0x2000 != 0, fo &&& 0x1fff, by omega, ?_⟩
  have hall : fo.toNat &&& 0x7fff = fo.toNat := by
    rw [Nat.and_two_pow_sub_one_eq_mod _ 15]
    omega
  simp only [foVal]
  rw [and_bit fo (i := 14) rfl, and_bit fo (i := 13) rfl, UInt16.and_assoc, UInt16.and_self,
    ← UInt16.toNat_inj]
  simp only [UInt16.toNat_or, UInt16.toNat_and, ← Nat.and_or_distrib_left]
  exact hall

open IPv4Datagram in
/-- A datagram without options, its reserved bit zero, is the bytes of a header and a payload. -/
theorem exists_bytes {b : Buffer} (hs : Shaped b) (hwords : headerWords b = 5)
    (hreserved : (b.getD 6 0).toNat < 128) :
    ∃ h rest, Writable h ∧ h.hlen = 5 ∧ h.len.toNat = 20 + rest.length ∧
      b = h.bytes h.cksum ++ rest := by
  have hlen := hs.header
  have hver := hs.version
  have htotal := hs.total
  obtain ⟨first, b1, rfl⟩ := NetUnparser.exists_u8 (show 1 ≤ b.length by omega)
  rw [List.length_append, NetUnparser.length_u8] at hlen
  obtain ⟨tos, b2, rfl⟩ := NetUnparser.exists_u8 (show 1 ≤ b1.length by omega)
  rw [List.length_append, NetUnparser.length_u8] at hlen
  obtain ⟨len, b3, rfl⟩ := NetUnparser.exists_u16 (show 2 ≤ b2.length by omega)
  rw [List.length_append, NetUnparser.length_u16] at hlen
  obtain ⟨id, b4, rfl⟩ := NetUnparser.exists_u16 (show 2 ≤ b3.length by omega)
  rw [List.length_append, NetUnparser.length_u16] at hlen
  obtain ⟨fo, b5, rfl⟩ := NetUnparser.exists_u16 (show 2 ≤ b4.length by omega)
  rw [List.length_append, NetUnparser.length_u16] at hlen
  obtain ⟨ttl, b6, rfl⟩ := NetUnparser.exists_u8 (show 1 ≤ b5.length by omega)
  rw [List.length_append, NetUnparser.length_u8] at hlen
  obtain ⟨proto, b7, rfl⟩ := NetUnparser.exists_u8 (show 1 ≤ b6.length by omega)
  rw [List.length_append, NetUnparser.length_u8] at hlen
  obtain ⟨cksum, b8, rfl⟩ := NetUnparser.exists_u16 (show 2 ≤ b7.length by omega)
  rw [List.length_append, NetUnparser.length_u16] at hlen
  obtain ⟨src, b9, rfl⟩ := NetUnparser.exists_u32 (show 4 ≤ b8.length by omega)
  rw [List.length_append, NetUnparser.length_u32] at hlen
  obtain ⟨dst, rest, rfl⟩ := NetUnparser.exists_u32 (show 4 ≤ b9.length by omega)
  have hfirst : first = 0x45 := by
    simp only [version, headerWords, NetUnparser.u8_eq, List.singleton_append, List.getD_cons_zero]
      at hver hwords
    rw [← UInt8.toNat_inj]
    show first.toNat = 69
    omega
  have hfo : fo.toNat < 2 ^ 15 := by
    have hlt := fo.toNat_lt
    simp [NetUnparser.u8_eq, NetUnparser.u16_eq] at hreserved
    omega
  have hsize : len.toNat = 20 + rest.length := by
    have hlt := len.toNat_lt
    simp [totalLength, NetUnparser.u8_eq, NetUnparser.u16_eq] at htotal
    omega
  obtain ⟨df, mf, offset, hoffset, hfoVal⟩ := exists_foVal hfo
  refine ⟨⟨4, 5, tos, len, id, df, mf, offset, ttl, proto, cksum, src, dst⟩, rest,
    ⟨rfl, le_rfl, show 5 ≤ 15 by decide, hoffset⟩, rfl, hsize, ?_⟩
  have hfield : foVal ⟨4, 5, tos, len, id, df, mf, offset, ttl, proto, cksum, src, dst⟩ = fo := hfoVal
  simp only [bytes, front, back, hfield, hfirst, List.append_assoc]
  rfl

end IPv4Header

theorem IPv4Header.payloadLength_toNat {h : IPv4Header} (hle : 4 * h.hlen.toNat ≤ h.len.toNat) :
    h.payloadLength.toNat = h.len.toNat - 4 * h.hlen.toNat := by
  have hlen := h.len.toNat_lt
  have hhlen := h.hlen.toNat_lt
  have hfour : (4 * h.hlen.toUInt16).toNat = 4 * h.hlen.toNat := by
    simp only [UInt16.toNat_mul, UInt8.toNat_toUInt16, UInt16.reduceToNat]
    omega
  rw [payloadLength, UInt16.toNat_sub, hfour]
  omega

namespace IPv4Datagram

theorem serialize_eq {d : IPv4Datagram} (hw : d.header.Writable)
    (hlen : d.header.len.toNat = 4 * d.header.hlen.toNat + d.payload.size) :
    d.serialize = .ok (d.header.bytes d.header.wireCksum :: d.payload) := by
  have hpayload : d.payload.size = d.header.payloadLength.toNat := by
    rw [IPv4Header.payloadLength_toNat (by omega)]
    omega
  rw [serialize, if_neg (not_not.mpr hpayload)]
  simp only [IPv4Header.serialize_eq hw, ok_bind]
  rfl

theorem parse_bytes (d₀ : IPv4Datagram) {d : IPv4Datagram} (hw : d.header.Writable)
    (hlen : d.header.len.toNat = 4 * d.header.hlen.toNat + d.payload.size) :
    d₀.parse (BufferList.concatenate (d.header.bytes d.header.wireCksum :: d.payload)) =
      (.noError, ⟨{ d.header with cksum := d.header.wireCksum }, [d.payload.concatenate]⟩) := by
  have hsize : d.payload.concatenate.length = d.payload.size := List.length_flatten
  have hpayload : d.payload.concatenate.length = d.header.payloadLength.toNat := by
    rw [IPv4Header.payloadLength_toNat (by omega)]
    omega
  have hparse := d₀.header.parse_bytes hw d.payload.concatenate (by rw [hsize, hlen])
  have hwhole : BufferList.concatenate (d.header.bytes d.header.wireCksum :: d.payload) =
      d.header.bytes d.header.wireCksum ++ d.payload.concatenate := rfl
  rw [parse, hwhole, hparse]
  refine if_neg (not_not.mpr ?_)
  simpa [BufferList.size, IPv4Header.payloadLength] using hpayload

end IPv4Datagram

namespace TCPHeader

/-- The bytes before the checksum. -/
def front (h : TCPHeader) : Buffer :=
  NetUnparser.u16 h.sport ++ (NetUnparser.u16 h.dport ++ (NetUnparser.u32 h.seqno.rawValue ++
  (NetUnparser.u32 h.ackno.rawValue ++ (NetUnparser.u8 (h.doff <<< 4) ++ (NetUnparser.u8 h.flB ++
  NetUnparser.u16 h.win)))))

/-- The bytes after the checksum, with zeros for the options. -/
def back (h : TCPHeader) : Buffer :=
  NetUnparser.u16 h.uptr ++ List.replicate (4 * h.doff.toNat - 20) 0

def bytes (h : TCPHeader) (cksum : UInt16) : Buffer :=
  h.front ++ (NetUnparser.u16 cksum ++ h.back)

theorem length_front (h : TCPHeader) : h.front.length = 16 := by
  simp [front]

theorem length_bytes {h : TCPHeader} (hdoff : 5 ≤ h.doff.toNat) (cksum : UInt16) :
    (h.bytes cksum).length = 4 * h.doff.toNat := by
  simp [bytes, length_front, back]
  omega

theorem serialize_eq {h : TCPHeader} (hdoff : 5 ≤ h.doff.toNat) (cksum : UInt16) :
    { h with cksum }.serialize = .ok (h.bytes cksum) := by
  rw [serialize, if_neg (not_lt_five hdoff), IPv4Header.resize_of_le (by simp; omega)]
  simp only [bytes, front, back, flB, List.append_assoc, List.length_append,
    NetUnparser.length_u8, NetUnparser.length_u16, NetUnparser.length_u32]

theorem doff_shift {doff : UInt8} (h : doff.toNat ≤ 15) : (doff <<< 4) >>> 4 = doff := by
  rw [← UInt8.toNat_inj]
  simp only [UInt8.toNat_shiftRight, UInt8.toNat_shiftLeft, UInt8.reduceToNat, Nat.reduceMod,
    Nat.shiftLeft_eq, Nat.shiftRight_eq_div_pow]
  omega

/-- The six flags of a byte, each in its place. -/
theorem flags_bits : ∀ urg ack psh rst syn fin : Bool,
    let b : UInt8 := (if urg then 0b00100000 else 0) ||| (if ack then 0b00010000 else 0) |||
      (if psh then 0b00001000 else 0) ||| (if rst then 0b00000100 else 0) |||
      (if syn then 0b00000010 else 0) ||| (if fin then 0b00000001 else 0)
    (b &&& 0b00100000 != 0) = urg ∧ (b &&& 0b00010000 != 0) = ack ∧
    (b &&& 0b00001000 != 0) = psh ∧ (b &&& 0b00000100 != 0) = rst ∧
    (b &&& 0b00000010 != 0) = syn ∧ (b &&& 0b00000001 != 0) = fin := by
  decide

open NetParser in
theorem readFields_bytes {h : TCPHeader} (hdoff : h.doff.toNat ≤ 15) (cksum : UInt16)
    (rest : Buffer) :
    readFields ⟨h.bytes cksum ++ rest, .noError⟩ = ({ h with cksum },
      ⟨List.replicate (4 * h.doff.toNat - 20) 0 ++ rest, .noError⟩) := by
  obtain ⟨hurg, hack, hpsh, hrst, hsyn, hfin⟩ :=
    flags_bits h.urg h.ack h.psh h.rst h.syn h.fin
  simp only [bytes, front, back, flB, List.append_assoc, readFields]
  rw [bind_run (u16_unparse _ _), bind_run (u16_unparse _ _), bind_run (u32_unparse _ _),
    bind_run (u32_unparse _ _), bind_run (u8_unparse _ _), bind_run (u8_unparse _ _),
    bind_run (u16_unparse _ _), bind_run (u16_unparse _ _), bind_run (u16_unparse _ _),
    pure_apply, doff_shift hdoff, hurg, hack, hpsh, hrst, hsyn, hfin]

theorem parse_bytes {h : TCPHeader} (hshort : 5 ≤ h.doff.toNat) (hlong : h.doff.toNat ≤ 15)
    (cksum : UInt16) (rest : Buffer) :
    parse ⟨h.bytes cksum ++ rest, .noError⟩ = (.noError, { h with cksum }, ⟨rest, .noError⟩) := by
  have hoptions : h.doff.toNat * 4 - LENGTH =
      (List.replicate (4 * h.doff.toNat - 20) (0 : Byte)).length := by
    rw [List.length_replicate, LENGTH, Nat.mul_comm]
  simp only [parse, readFields_bytes hlong]
  rw [if_neg (not_lt_five hshort), NetParser.removePrefix_append hoptions]
  rfl

end TCPHeader

theorem IPv4Header.pseudoCksum_lt (h : IPv4Header) : h.pseudoCksum.toNat < 2 ^ 19 := by
  have hsrc := InternetChecksum.carry_toNat h.src
  have hdst := InternetChecksum.carry_toNat h.dst
  have h1 := h.src.toNat_lt
  have h2 := h.dst.toNat_lt
  have h3 := h.proto.toNat_lt
  have h4 := h.payloadLength.toNat_lt
  simp only [pseudoCksum, UInt32.toNat_add, UInt8.toNat_toUInt32, UInt16.toNat_toUInt32] at hsrc hdst ⊢
  omega

namespace TCPSegment

/-- The checksum a segment is written with. -/
def wireCksum (g : TCPSegment) (pseudo : UInt32) : UInt16 :=
  ({ sum := pseudo : InternetChecksum }.add (g.header.bytes 0 ++ g.payload)).value

theorem serialize_eq {g : TCPSegment} (hdoff : 5 ≤ g.header.doff.toNat) (pseudo : UInt32) :
    g.serialize pseudo = .ok [g.header.bytes (g.wireCksum pseudo), g.payload] := by
  simp only [serialize, TCPHeader.serialize_eq hdoff, ok_bind, ← InternetChecksum.add_append]
  rfl

theorem parse_bytes (g₀ : TCPSegment) {g : TCPSegment} (hshort : 5 ≤ g.header.doff.toNat)
    (hlong : g.header.doff.toNat ≤ 15) (hsize : 4 * g.header.doff.toNat + g.payload.length < 2 ^ 16)
    {pseudo : UInt32} (hpseudo : pseudo.toNat < 2 ^ 19) :
    g₀.parse (g.header.bytes (g.wireCksum pseudo) ++ g.payload) pseudo =
      (.noError, { g with header := { g.header with cksum := g.wireCksum pseudo } }) := by
  have hsum := wordSum_le (g.header.bytes 0 ++ g.payload)
  rw [List.length_append, TCPHeader.length_bytes hshort] at hsum
  have hwhole : ∀ cksum, g.header.bytes cksum ++ g.payload =
      g.header.front ++ (NetUnparser.u16 cksum ++ (g.header.back ++ g.payload)) := by
    intro cksum
    simp only [TCPHeader.bytes, List.append_assoc]
  have hvalue : ({ sum := pseudo : InternetChecksum }.add
      (g.header.bytes (g.wireCksum pseudo) ++ g.payload)).value = 0 := by
    rw [hwhole, wireCksum, hwhole]
    refine InternetChecksum.value_cksum rfl (by rw [TCPHeader.length_front]) ?_
    rw [← hwhole]
    show pseudo.toNat + wordSum (g.header.bytes 0 ++ g.payload) + 65535 < 2 ^ 32
    omega
  rw [parse, hvalue]
  simp only [ne_eq, not_true_eq_false, if_false, TCPHeader.parse_bytes hshort hlong]

end TCPSegment

end Sponge
