import Sponge.Lib.Unsigned

/-! The 32-bit sequence numbers on the wire, from `libsponge/wrapping_integers.cc`.
Absolute sequence numbers are natural numbers below 2^64, and `unwrap` computes
with them modulo 2^64 as the source does. -/

namespace Sponge

structure WrappingInt32 where
  rawValue : UInt32
  deriving DecidableEq, Repr

def wrap (n : ℕ) (isn : WrappingInt32) : WrappingInt32 :=
  ⟨isn.rawValue + UInt32.ofNat n⟩

def unwrap (n isn : WrappingInt32) (checkpoint : ℕ) : ℕ :=
  let num := (n.rawValue - isn.rawValue).toNat
  if num < checkpoint then
    let rank := uadd (checkpoint - num) (2 ^ 31) / 2 ^ 32
    uadd num (rank * 2 ^ 32 % 2 ^ 64)
  else num

/-- `operator-(WrappingInt32 a, uint32_t b)`. -/
def WrappingInt32.sub (a : WrappingInt32) (b : UInt32) : WrappingInt32 := ⟨a.rawValue - b⟩

end Sponge
