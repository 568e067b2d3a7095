import Sponge.Lib.Unsigned
import Sponge.Spec.ByteStream

/-! Packets as bytes: buffer lists, the parser with its sticky error, the
unparser and the Internet checksum. -/

namespace Sponge

/-- The exceptions a call can end with, with their text where the source gives one. -/
inductive Thrown where
  | runtimeError (what : String)
  | outOfRange
  deriving DecidableEq, Repr

abbrev Buffer := List Byte

/-- The chunks of a `BufferList`, in order. -/
abbrev BufferList := List Buffer

namespace BufferList

def size (l : BufferList) : ℕ := (l.map List.length).sum

/-- `BufferList::operator Buffer`, which takes a list of one chunk only. -/
def toBuffer : BufferList → Except Thrown Buffer
  | [] => .ok []
  | [b] => .ok b
  | _ => .error (.runtimeError
      "BufferList: please use concatenate() to combine a multi-Buffer BufferList into one Buffer")

end BufferList

inductive ParseResult where
  | noError
  | badChecksum
  | packetTooShort
  | wrongIPVersion
  | headerTooShort
  | truncatedPacket
  | unsupported
  deriving DecidableEq, Repr

structure NetParser where
  buffer : Buffer
  error : ParseResult := .noError
  deriving DecidableEq, Repr

namespace NetParser

def checkSize (p : NetParser) (size : ℕ) : NetParser :=
  if p.buffer.length < size then { p with error := .packetTooShort } else p

/-- `_parse_int`. The value is built in ℕ: it never has more bits than the type it is read at. -/
def parseInt (len : ℕ) : StateM NetParser ℕ := fun p =>
  let p := p.checkSize len
  if p.error ≠ .noError then (0, p)
  else ((p.buffer.take len).foldl (fun ret b => ret * 256 + b.toNat) 0,
    { p with buffer := p.buffer.drop len })

def u32 : StateM NetParser UInt32 := do return .ofNat (← parseInt 4)

def u16 : StateM NetParser UInt16 := do return .ofNat (← parseInt 2)

def u8 : StateM NetParser UInt8 := do return .ofNat (← parseInt 1)

def removePrefix (n : ℕ) : StateM NetParser Unit := fun p =>
  let p := p.checkSize n
  if p.error ≠ .noError then ((), p) else ((), { p with buffer := p.buffer.drop n })

end NetParser

namespace NetUnparser

/-- The bytes `_unparse_int` appends for a value of `len` bytes. -/
def unparseInt (len val : ℕ) : Buffer :=
  (List.range len).map fun i => .ofNat (val >>> ((len - i - 1) * 8) &&& 0xff)

def u32 (val : UInt32) : Buffer := unparseInt 4 val.toNat

def u16 (val : UInt16) : Buffer := unparseInt 2 val.toNat

def u8 (val : UInt8) : Buffer := unparseInt 1 val.toNat

end NetUnparser

structure InternetChecksum where
  sum : UInt32 := 0
  parity : Bool := false
  deriving DecidableEq, Repr

namespace InternetChecksum

def addByte (c : InternetChecksum) (b : Byte) : InternetChecksum :=
  let val : UInt16 := if c.parity then b.toUInt16 else b.toUInt16 <<< 8
  { sum := c.sum + val.toUInt32, parity := !c.parity }

def add (c : InternetChecksum) (data : Buffer) : InternetChecksum := data.foldl addByte c

/-- The loop of `value`, at most `fuel` times. -/
def foldCarry : ℕ → UInt32 → UInt32
  | 0, ret => ret
  | fuel + 1, ret => if 0xffff < ret then foldCarry fuel ((ret >>> 16) + (ret &&& 0xffff)) else ret

-- Two rounds bring any 32-bit sum down to 16 bits (`foldCarry_le`).
def value (c : InternetChecksum) : UInt16 := (~~~foldCarry 2 c.sum).toUInt16

end InternetChecksum

end Sponge
