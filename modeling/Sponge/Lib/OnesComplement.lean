import Mathlib.Tactic

/-! One's-complement sums of 16-bit words, as Internet checksums use them: the sum
of a byte string and its end-around carry. -/

namespace Sponge

/-- The sum of the big-endian 16-bit words; an odd byte at the end is the high half
of one. -/
def wordSum : List UInt8 → ℕ
  | [] => 0
  | [a] => 256 * a.toNat
  | a :: b :: rest => 256 * a.toNat + b.toNat + wordSum rest

/-- A sum with its carries added back in: modulo 2^16 - 1, and zero for zero only. -/
def endAround (s : ℕ) : ℕ := if s = 0 then 0 else (s - 1) % 65535 + 1

/-- The complement of the one's-complement sum. -/
def onesChecksum (data : List UInt8) : ℕ := 65535 - endAround (wordSum data)

theorem wordSum_le (data : List UInt8) : wordSum data ≤ 65535 * ((data.length + 1) / 2) := by
  fun_induction wordSum data with
  | case1 => simp
  | case2 a =>
    have := a.toNat_lt
    simp only [List.length_cons, List.length_nil]
    omega
  | case3 a b rest ih =>
    have := a.toNat_lt
    have := b.toNat_lt
    simp only [List.length_cons]
    omega

theorem wordSum_append {data : List UInt8} (h : data.length % 2 = 0) (rest : List UInt8) :
    wordSum (data ++ rest) = wordSum data + wordSum rest := by
  fun_induction wordSum data with
  | case1 => simp
  | case2 a => simp at h
  | case3 a b data ih =>
    simp only [List.length_cons] at h
    simp only [List.cons_append, wordSum, ih (by omega)]
    omega

/-- One's-complement addition of 16-bit words: the carry comes back in at the low end. -/
def onesAdd (x y : ℕ) : ℕ := (x + y) / 65536 + (x + y) % 65536

/-- A string of odd length gets a zero byte at its end. -/
def padded (data : List UInt8) : List UInt8 := if data.length % 2 = 0 then data else data ++ [0]

/-- The big-endian 16-bit words of a string of even length. -/
def words : List UInt8 → List ℕ
  | a :: b :: rest => (256 * a.toNat + b.toNat) :: words rest
  | _ => []

theorem words_le (data : List UInt8) : ∀ w ∈ words data, w ≤ 65535 := by
  fun_induction words data with
  | case1 a b rest ih =>
    have ha := a.toNat_lt
    have hb := b.toNat_lt
    intro w hw
    rcases List.mem_cons.mp hw with rfl | hw
    · omega
    · exact ih w hw
  | case2 => simp

theorem sum_words {data : List UInt8} (h : data.length % 2 = 0) :
    (words data).sum = wordSum data := by
  fun_induction words data with
  | case1 a b rest ih =>
    simp only [List.length_cons] at h
    rw [List.sum_cons, ih (by omega), wordSum]
  | case2 data hnot =>
    match data, h, hnot with
    | [], _, _ => rfl
    | a :: b :: rest, _, hnot => exact absurd rfl (hnot a b rest)

/-- The odd byte at the end is the high half of the last word of the padded string. -/
theorem wordSum_padded (data : List UInt8) : wordSum (padded data) = wordSum data := by
  unfold padded
  split
  case isTrue => rfl
  case isFalse h =>
    fun_induction wordSum data with
    | case1 => simp at h
    | case2 a => simp [wordSum]
    | case3 a b rest ih =>
      simp only [List.length_cons] at h
      simp only [List.cons_append, wordSum]
      rw [ih (by omega)]

theorem length_padded (data : List UInt8) : (padded data).length % 2 = 0 := by
  unfold padded
  split
  case isTrue h => exact h
  case isFalse h =>
    rw [List.length_append, List.length_singleton]
    omega

theorem endAround_of_le {s : ℕ} (h : s ≤ 65535) : endAround s = s := by
  unfold endAround
  split <;> omega

theorem endAround_le (s : ℕ) : endAround s ≤ 65535 := by
  unfold endAround
  split <;> omega

theorem endAround_eq_iff {s : ℕ} : endAround s = 65535 ↔ s ≠ 0 ∧ s % 65535 = 0 := by
  unfold endAround
  split <;> omega

/-- A sum with the complement of its carried form added is all ones. -/
theorem endAround_self (s : ℕ) : endAround (s + (65535 - endAround s)) = 65535 := by
  unfold endAround
  split
  case isTrue hs =>
    subst hs
    rfl
  case isFalse hs =>
    rw [if_neg (by omega)]
    omega

theorem endAround_carry (s : ℕ) : endAround (s / 65536 + s % 65536) = endAround s := by
  unfold endAround
  split <;> split <;> omega

theorem onesAdd_endAround {s w : ℕ} (hw : w ≤ 65535) :
    onesAdd (endAround s) w = endAround (s + w) := by
  have hs := endAround_le s
  have hsum : endAround (endAround s + w) = endAround (s + w) := by
    unfold endAround
    split <;> split <;> split <;> omega
  have hle : (endAround s + w) / 65536 + (endAround s + w) % 65536 ≤ 65535 := by omega
  rw [← hsum, ← endAround_carry (endAround s + w), onesAdd, endAround_of_le hle]

/-- Adding words one by one with their carries is the plain sum carried at the end. -/
theorem foldl_onesAdd {ws : List ℕ} (h : ∀ w ∈ ws, w ≤ 65535) (s : ℕ) :
    ws.foldl onesAdd (endAround s) = endAround (s + ws.sum) := by
  induction ws generalizing s with
  | nil => rfl
  | cons w ws ih =>
    rw [List.foldl_cons, onesAdd_endAround (h w (by simp)), ih (fun v hv => h v (by simp [hv])),
      List.sum_cons, Nat.add_assoc]

/-- Replacing a byte moves the sum by the change of that byte in its half of the word. -/
theorem wordSum_set {data : List UInt8} {i : ℕ} (hi : i < data.length) (x : UInt8) :
    wordSum (data.set i x) + (if i % 2 = 0 then 256 else 1) * data[i].toNat =
      wordSum data + (if i % 2 = 0 then 256 else 1) * x.toNat := by
  fun_induction wordSum data generalizing i with
  | case1 => simp at hi
  | case2 a =>
    obtain rfl : i = 0 := by simpa using hi
    simp [wordSum]
    omega
  | case3 a b rest ih =>
    match i with
    | 0 =>
      simp [wordSum]
      omega
    | 1 =>
      simp [wordSum]
      omega
    | i + 2 =>
      have ih := ih (i := i) (by simpa using hi)
      simp only [List.set_cons_succ, List.getElem_cons_succ, wordSum, Nat.add_mod_right]
      omega

end Sponge
