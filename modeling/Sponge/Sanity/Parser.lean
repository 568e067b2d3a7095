import Sponge.Lib.OnesComplement
import Sponge.Spec.Parser

/-! What the parser's readers return on a buffer that is long enough, and the value
of the checksum. -/

namespace Sponge

namespace NetParser

theorem bind_apply {α β : Type} (x : StateM NetParser α) (f : α → StateM NetParser β)
    (p : NetParser) : (x >>= f) p = f (x p).1 (x p).2 := rfl

theorem pure_apply {α : Type} (a : α) (p : NetParser) :
    (pure a : StateM NetParser α) p = (a, p) := rfl

theorem bind_run {α β : Type} {x : StateM NetParser α} {f : α → StateM NetParser β}
    {p q : NetParser} {v : α} (h : x p = (v, q)) : (x >>= f) p = f v q := by
  rw [bind_apply, h]

theorem parseInt_append (bytes rest : Buffer) :
    parseInt bytes.length ⟨bytes ++ rest, .noError⟩ =
      (bytes.foldl (fun ret b => ret * 256 + b.toNat) 0, ⟨rest, .noError⟩) := by
  simp [parseInt, checkSize]

@[simp] theorem u8_cons (a : Byte) (rest : Buffer) :
    u8 ⟨a :: rest, .noError⟩ = (a, ⟨rest, .noError⟩) := by
  have h := parseInt_append [a] rest
  simp only [List.length_singleton, List.singleton_append, List.foldl_cons, List.foldl_nil] at h
  simp [u8, bind_apply, pure_apply, h]

@[simp] theorem u16_cons (a b : Byte) (rest : Buffer) :
    u16 ⟨a :: b :: rest, .noError⟩ =
      (.ofNat (a.toNat * 256 + b.toNat), ⟨rest, .noError⟩) := by
  have h := parseInt_append [a, b] rest
  simp only [List.length_cons, List.length_nil, List.cons_append, List.nil_append,
    List.foldl_cons, List.foldl_nil, Nat.zero_add, Nat.zero_mul] at h
  simp [u16, bind_apply, pure_apply, h]

@[simp] theorem u32_cons (a b c d : Byte) (rest : Buffer) :
    u32 ⟨a :: b :: c :: d :: rest, .noError⟩ =
      (.ofNat (((a.toNat * 256 + b.toNat) * 256 + c.toNat) * 256 + d.toNat),
        ⟨rest, .noError⟩) := by
  have h := parseInt_append [a, b, c, d] rest
  simp only [List.length_cons, List.length_nil, List.cons_append, List.nil_append,
    List.foldl_cons, List.foldl_nil, Nat.zero_add, Nat.zero_mul] at h
  simp [u32, bind_apply, pure_apply, h]

theorem u8_drop {b : Buffer} {i : ℕ} (h : i < b.length) :
    u8 ⟨b.drop i, .noError⟩ = (b.getD i 0, ⟨b.drop (i + 1), .noError⟩) := by
  rw [List.drop_eq_getElem_cons h, u8_cons]
  simp [h]

theorem u16_drop {b : Buffer} {i : ℕ} (h : i + 1 < b.length) :
    u16 ⟨b.drop i, .noError⟩ =
      (.ofNat ((b.getD i 0).toNat * 256 + (b.getD (i + 1) 0).toNat),
        ⟨b.drop (i + 2), .noError⟩) := by
  have hi : i < b.length := by omega
  rw [List.drop_eq_getElem_cons hi, List.drop_eq_getElem_cons h, u16_cons]
  simp [h, hi]

theorem u32_drop {b : Buffer} {i : ℕ} (h : i + 3 < b.length) :
    ∃ v, u32 ⟨b.drop i, .noError⟩ = (v, ⟨b.drop (i + 4), .noError⟩) := by
  rw [List.drop_eq_getElem_cons (by omega), List.drop_eq_getElem_cons (by omega),
    List.drop_eq_getElem_cons (by omega), List.drop_eq_getElem_cons h, u32_cons]
  exact ⟨_, rfl⟩

theorem removePrefix_run {n : ℕ} {b : Buffer} (h : n ≤ b.length) :
    removePrefix n ⟨b, .noError⟩ = ((), ⟨b.drop n, .noError⟩) := by
  simp [removePrefix, checkSize, Nat.not_lt.mpr h]

theorem removePrefix_append {n : ℕ} {skipped : Buffer} (h : n = skipped.length) (rest : Buffer) :
    removePrefix n ⟨skipped ++ rest, .noError⟩ = ((), ⟨rest, .noError⟩) := by
  rw [h, removePrefix_run (by simp), List.drop_left]

/-- A reader that takes `n` bytes: no error after it means none before, and as many bytes. -/
def Consumes {α : Type} (n : ℕ) (x : StateM NetParser α) : Prop :=
  ∀ p, (x p).2.error = .noError →
    p.error = .noError ∧ p.buffer.length = n + (x p).2.buffer.length

theorem Consumes.pure {α : Type} (a : α) : Consumes 0 (pure a) := by
  intro p hp
  exact ⟨hp, (Nat.zero_add _).symm⟩

theorem Consumes.bind {α β : Type} {m n : ℕ} {x : StateM NetParser α} {f : α → StateM NetParser β}
    (hx : Consumes m x) (hf : ∀ a, Consumes n (f a)) : Consumes (m + n) (x >>= f) := by
  intro p hp
  rw [bind_apply] at hp ⊢
  obtain ⟨herr, hlen⟩ := hf _ _ hp
  obtain ⟨herr', hlen'⟩ := hx _ herr
  exact ⟨herr', by omega⟩

theorem consumes_parseInt (len : ℕ) : Consumes len (parseInt len) := by
  intro p hp
  unfold parseInt checkSize at hp ⊢
  by_cases hshort : p.buffer.length < len
  · simp [hshort] at hp
  · by_cases herr : p.error = .noError
    · simp [hshort, herr]
      omega
    · simp [hshort, herr] at hp

theorem consumes_u8 : Consumes 1 u8 := (consumes_parseInt 1).bind fun _ => .pure _

theorem consumes_u16 : Consumes 2 u16 := (consumes_parseInt 2).bind fun _ => .pure _

theorem consumes_u32 : Consumes 4 u32 := (consumes_parseInt 4).bind fun _ => .pure _

end NetParser

namespace NetUnparser

theorem length_unparseInt (len val : ℕ) : (unparseInt len val).length = len := by
  simp [unparseInt]

/-- The last byte written is the lowest. -/
theorem unparseInt_succ (len val : ℕ) :
    unparseInt (len + 1) val = unparseInt len (val / 256) ++ [.ofNat (val % 256)] := by
  have hlow : val &&& 0xff = val % 256 := Nat.and_two_pow_sub_one_eq_mod _ 8
  simp only [unparseInt, List.range_succ, List.map_append, List.map_singleton]
  congr 1
  · apply List.map_congr_left
    intro k hk
    have hlt := List.mem_range.mp hk
    have hshift : (len + 1 - k - 1) * 8 = 8 + (len - k - 1) * 8 := by omega
    rw [hshift, Nat.shiftRight_add, Nat.shiftRight_eq_div_pow val 8]
  · simp [hlow]

theorem foldl_unparseInt (len val : ℕ) :
    (unparseInt len val).foldl (fun ret b => ret * 256 + b.toNat) 0 = val % 256 ^ len := by
  induction len generalizing val with
  | zero => simp [unparseInt, Nat.mod_one]
  | succ len ih =>
    have hbyte : (UInt8.ofNat (val % 256)).toNat = val % 256 := by simp
    rw [unparseInt_succ, List.foldl_append, ih, List.foldl_cons, List.foldl_nil, hbyte,
      Nat.pow_succ', Nat.mod_mul]
    omega

/-- Any bytes are what the number they read as is written as. -/
theorem unparseInt_foldl (bytes : Buffer) :
    unparseInt bytes.length (bytes.foldl (fun ret b => ret * 256 + b.toNat) 0) = bytes := by
  induction bytes using List.reverseRecOn with
  | nil => rfl
  | append_singleton bytes b ih =>
    have hb := b.toNat_lt
    have hhigh : ∀ n, (n * 256 + b.toNat) / 256 = n := fun n => by omega
    have hlow : ∀ n, (n * 256 + b.toNat) % 256 = b.toNat := fun n => by omega
    rw [List.length_append, List.length_singleton, List.foldl_append, List.foldl_cons,
      List.foldl_nil, unparseInt_succ, hhigh, hlow, ih, UInt8.ofNat_toNat]

theorem foldl_lt (bytes : Buffer) :
    bytes.foldl (fun ret b => ret * 256 + b.toNat) 0 < 256 ^ bytes.length := by
  rw [← unparseInt_foldl bytes, foldl_unparseInt, length_unparseInt]
  exact Nat.mod_lt _ (Nat.pow_pos (by decide))

theorem exists_unparseInt {len : ℕ} {b : Buffer} (h : len ≤ b.length) :
    ∃ val < 256 ^ len, ∃ rest, b = unparseInt len val ++ rest := by
  have hlen : (b.take len).length = len := List.length_take_of_le h
  have hlt := foldl_lt (b.take len)
  have hbytes := unparseInt_foldl (b.take len)
  rw [hlen] at hlt hbytes
  exact ⟨_, hlt, b.drop len, by rw [hbytes, List.take_append_drop]⟩

theorem exists_u8 {b : Buffer} (h : 1 ≤ b.length) : ∃ v rest, b = u8 v ++ rest := by
  obtain ⟨val, hlt, rest, hb⟩ := exists_unparseInt h
  exact ⟨.ofNat val, rest, by rw [u8, UInt8.toNat_ofNat_of_lt' hlt, hb]⟩

theorem exists_u16 {b : Buffer} (h : 2 ≤ b.length) : ∃ v rest, b = u16 v ++ rest := by
  obtain ⟨val, hlt, rest, hb⟩ := exists_unparseInt h
  exact ⟨.ofNat val, rest, by rw [u16, UInt16.toNat_ofNat_of_lt' hlt, hb]⟩

theorem exists_u32 {b : Buffer} (h : 4 ≤ b.length) : ∃ v rest, b = u32 v ++ rest := by
  obtain ⟨val, hlt, rest, hb⟩ := exists_unparseInt h
  exact ⟨.ofNat val, rest, by rw [u32, UInt32.toNat_ofNat_of_lt' hlt, hb]⟩

end NetUnparser

namespace NetParser

theorem parseInt_unparseInt (len val : ℕ) (rest : Buffer) :
    parseInt len ⟨NetUnparser.unparseInt len val ++ rest, .noError⟩ =
      (val % 256 ^ len, ⟨rest, .noError⟩) := by
  have h := parseInt_append (NetUnparser.unparseInt len val) rest
  rwa [NetUnparser.length_unparseInt, NetUnparser.foldl_unparseInt] at h

@[simp] theorem u8_unparse (v : UInt8) (rest : Buffer) :
    u8 ⟨NetUnparser.u8 v ++ rest, .noError⟩ = (v, ⟨rest, .noError⟩) := by
  simp [u8, NetUnparser.u8, bind_apply, pure_apply, parseInt_unparseInt]

@[simp] theorem u16_unparse (v : UInt16) (rest : Buffer) :
    u16 ⟨NetUnparser.u16 v ++ rest, .noError⟩ = (v, ⟨rest, .noError⟩) := by
  have hv : v.toNat % 256 ^ 2 = v.toNat := Nat.mod_eq_of_lt v.toNat_lt
  simp only [u16, NetUnparser.u16, bind_apply, pure_apply, parseInt_unparseInt, hv,
    UInt16.ofNat_toNat]

@[simp] theorem u32_unparse (v : UInt32) (rest : Buffer) :
    u32 ⟨NetUnparser.u32 v ++ rest, .noError⟩ = (v, ⟨rest, .noError⟩) := by
  have hv : v.toNat % 256 ^ 4 = v.toNat := Nat.mod_eq_of_lt v.toNat_lt
  simp only [u32, NetUnparser.u32, bind_apply, pure_apply, parseInt_unparseInt, hv,
    UInt32.ofNat_toNat]

end NetParser

@[simp] theorem NetUnparser.length_u8 (v : UInt8) : (NetUnparser.u8 v).length = 1 :=
  length_unparseInt _ _

@[simp] theorem NetUnparser.length_u16 (v : UInt16) : (NetUnparser.u16 v).length = 2 :=
  length_unparseInt _ _

@[simp] theorem NetUnparser.length_u32 (v : UInt32) : (NetUnparser.u32 v).length = 4 :=
  length_unparseInt _ _

theorem NetUnparser.u8_eq (v : UInt8) : NetUnparser.u8 v = [v] := by
  have hv := unparseInt_foldl [v]
  simpa [NetUnparser.u8] using hv

theorem NetUnparser.u16_eq (v : UInt16) :
    NetUnparser.u16 v = [.ofNat (v.toNat / 256 % 256), .ofNat (v.toNat % 256)] := by
  rw [NetUnparser.u16, unparseInt_succ 1, unparseInt_succ 0]
  rfl

theorem NetUnparser.wordSum_u16 (v : UInt16) : wordSum (NetUnparser.u16 v) = v.toNat := by
  have hv := v.toNat_lt
  rw [u16_eq]
  simp [wordSum]
  omega

namespace InternetChecksum

/-- What a byte adds, by the half of the word it stands in. -/
theorem addByte_sum (c : InternetChecksum) (b : Byte) :
    (c.addByte b).sum.toNat =
      (c.sum.toNat + if c.parity then b.toNat else 256 * b.toNat) % 2 ^ 32 := by
  have hb := b.toNat_lt
  cases c with
  | mk sum parity =>
    cases parity with
    | true => simp [addByte]
    | false =>
      have hhigh : (b.toUInt16 <<< 8).toNat = 256 * b.toNat := by
        simp [UInt16.toNat_shiftLeft, Nat.shiftLeft_eq]
        omega
      simp only [addByte, Bool.false_eq_true, if_false, UInt32.toNat_add, UInt16.toNat_toUInt32,
        hhigh]

theorem add_sum (c : InternetChecksum) (data : Buffer) (h : c.parity = false) :
    (c.add data).sum.toNat = (c.sum.toNat + wordSum data) % 2 ^ 32 := by
  fun_induction wordSum data generalizing c with
  | case1 => simp [add, Nat.mod_eq_of_lt c.sum.toNat_lt]
  | case2 a => simp [add, addByte_sum, h]
  | case3 a b rest ih =>
    have h2 : ((c.addByte a).addByte b).parity = false := by simp [addByte, h]
    have h1 : (c.addByte a).parity = true := by simp [addByte, h]
    have ih := ih _ h2
    simp only [add, List.foldl_cons] at ih ⊢
    rw [ih, addByte_sum, addByte_sum, h1, h]
    simp only [if_true, Bool.false_eq_true, if_false]
    omega

/-- The 32-bit sum of a packet is its plain sum, seeded with that of a pseudo-header. -/
theorem add_exact {seed : UInt32} (hseed : seed.toNat < 2 ^ 19) {data : Buffer}
    (hdata : data.length ≤ 65535) :
    ({ sum := seed : InternetChecksum }.add data).sum.toNat = seed.toNat + wordSum data := by
  have hsum := wordSum_le data
  rw [add_sum _ _ rfl, Nat.mod_eq_of_lt (show seed.toNat + wordSum data < 2 ^ 32 by omega)]

theorem carry_toNat (ret : UInt32) :
    ((ret >>> 16) + (ret &&& 0xffff)).toNat = ret.toNat / 65536 + ret.toNat % 65536 := by
  have hr := ret.toNat_lt
  have hlow : ret.toNat &&& 65535 = ret.toNat % 65536 := Nat.and_two_pow_sub_one_eq_mod _ 16
  simp only [UInt32.toNat_add, UInt32.toNat_shiftRight, UInt32.toNat_and, UInt32.reduceToNat,
    Nat.shiftRight_eq_div_pow, hlow]
  norm_num
  omega

theorem foldCarry_endAround (fuel : ℕ) (ret : UInt32) :
    endAround (foldCarry fuel ret).toNat = endAround ret.toNat := by
  induction fuel generalizing ret with
  | zero => rfl
  | succ fuel ih =>
    unfold foldCarry
    split
    · rw [ih, carry_toNat, endAround_carry]
    · rfl

theorem foldCarry_le (ret : UInt32) : (foldCarry 2 ret).toNat ≤ 65535 := by
  have hr := ret.toNat_lt
  have h1 := carry_toNat ret
  have h2 := carry_toNat ((ret >>> 16) + (ret &&& 0xffff))
  simp only [foldCarry, UInt32.lt_iff_toNat_lt, UInt32.reduceToNat]
  split
  · split
    · omega
    · omega
  · omega

theorem value_toNat (c : InternetChecksum) : c.value.toNat = 65535 - endAround c.sum.toNat := by
  have hle := foldCarry_le c.sum
  have hround := foldCarry_endAround 2 c.sum
  rw [endAround_of_le hle] at hround
  rw [← hround, value]
  simp only [UInt32.toNat_toUInt16, UInt32.toNat_not, UInt32.size]
  omega

/-- The value after one string, as long as the 32-bit sum of its words does not wrap. -/
theorem value_add {data : Buffer} (h : data.length < 2 ^ 16) :
    (({} : InternetChecksum).add data).value.toNat = onesChecksum data := by
  rw [value_toNat, add_exact (by decide) (by omega)]
  simp only [UInt32.toNat_zero, Nat.zero_add, onesChecksum]

theorem value_eq_zero_iff (c : InternetChecksum) : c.value = 0 ↔ endAround c.sum.toNat = 65535 := by
  have hle := endAround_le c.sum.toNat
  rw [← UInt16.toNat_inj, value_toNat, UInt16.toNat_zero]
  omega

theorem value_add_eq_zero_iff {seed : UInt32} (hseed : seed.toNat < 2 ^ 19) {data : Buffer}
    (hdata : data.length ≤ 65535) :
    ({ sum := seed : InternetChecksum }.add data).value = 0 ↔
      endAround (seed.toNat + wordSum data) = 65535 := by
  rw [value_eq_zero_iff, add_exact hseed hdata]

theorem add_append (c : InternetChecksum) (a b : Buffer) : c.add (a ++ b) = (c.add a).add b :=
  List.foldl_append

/-- Bytes with the checksum of themselves in place of a zero word check out. -/
theorem value_cksum {c : InternetChecksum} (hc : c.parity = false) {pre post : Buffer}
    (hpre : pre.length % 2 = 0)
    (hfits : c.sum.toNat + wordSum (pre ++ (NetUnparser.u16 0 ++ post)) + 65535 < 2 ^ 32) :
    (c.add (pre ++ (NetUnparser.u16 (c.add (pre ++ (NetUnparser.u16 0 ++ post))).value ++
      post))).value = 0 := by
  have hword : ∀ v : UInt16, wordSum (pre ++ (NetUnparser.u16 v ++ post)) =
      wordSum pre + (v.toNat + wordSum post) := by
    intro v
    rw [wordSum_append hpre, wordSum_append (by simp), NetUnparser.wordSum_u16]
  have hzero := hword 0
  rw [UInt16.toNat_zero, Nat.zero_add] at hzero
  have hsum : c.sum.toNat + wordSum (pre ++ (NetUnparser.u16 0 ++ post)) < 2 ^ 32 := by omega
  have hcarry := endAround_self (c.sum.toNat + wordSum (pre ++ (NetUnparser.u16 0 ++ post)))
  rw [value_eq_zero_iff, add_sum _ _ hc, hword, value_toNat, add_sum _ _ hc, Nat.mod_eq_of_lt hsum]
  rw [Nat.mod_eq_of_lt (by omega)]
  rw [← hcarry]
  congr 1
  omega

end InternetChecksum

end Sponge
