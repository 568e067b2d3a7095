import Mathlib.Tactic

/-! `ByteStream`: the flow-controlled in-memory byte stream of
`libsponge/byte_stream.cc`. The two accounting facts of the class are fields, so
every value has them: the buffer fits, and what was written is what was read
plus what is buffered. The two byte counters are natural numbers; a 64-bit
counter differs only after 2^64 bytes. -/

namespace Sponge

abbrev Byte := UInt8

structure ByteStream where
  buffer : List Byte
  capacity : ℕ
  bytesWritten : ℕ
  bytesRead : ℕ
  inputEnded : Bool
  error : Bool
  fits : buffer.length ≤ capacity
  balanced : bytesRead + buffer.length = bytesWritten
  deriving DecidableEq

namespace ByteStream

def new (capacity : ℕ) : ByteStream where
  buffer := []
  capacity := capacity
  bytesWritten := 0
  bytesRead := 0
  inputEnded := false
  error := false
  fits := Nat.zero_le _
  balanced := rfl

def bufferSize (s : ByteStream) : ℕ := s.buffer.length

def bufferEmpty (s : ByteStream) : Bool := s.buffer.isEmpty

def eof (s : ByteStream) : Bool := s.inputEnded && s.bufferEmpty

def remainingCapacity (s : ByteStream) : ℕ := s.capacity - s.buffer.length

/-- Write as many bytes as fit, and say how many; an ended stream takes none. -/
def write (s : ByteStream) (data : List Byte) : ByteStream × ℕ :=
  if s.inputEnded then (s, 0)
  else
    let writtenSize := min data.length (s.capacity - s.buffer.length)
    ({ s with
        buffer := s.buffer ++ data.take writtenSize
        bytesWritten := s.bytesWritten + writtenSize
        fits := by
          have := s.fits
          simp only [List.length_append, List.length_take]
          omega
        balanced := by
          have := s.balanced
          simp only [List.length_append, List.length_take]
          omega },
      writtenSize)

def peekOutput (s : ByteStream) (len : ℕ) : List Byte := s.buffer.take (min len s.buffer.length)

def popOutput (s : ByteStream) (len : ℕ) : ByteStream :=
  let readSize := min len s.buffer.length
  { s with
    buffer := s.buffer.drop readSize
    bytesRead := s.bytesRead + readSize
    fits := by
      have := s.fits
      simp only [List.length_drop]
      omega
    balanced := by
      have := s.balanced
      simp only [List.length_drop]
      omega }

def read (s : ByteStream) (len : ℕ) : ByteStream × List Byte :=
  let readOutput := s.peekOutput len
  (s.popOutput readOutput.length, readOutput)

def endInput (s : ByteStream) : ByteStream := { s with inputEnded := true }

def setError (s : ByteStream) : ByteStream := { s with error := true }

end ByteStream

end Sponge
