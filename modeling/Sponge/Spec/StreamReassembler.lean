import Sponge.Lib.Unsigned
import Sponge.Lib.Chunks
import Sponge.Spec.ByteStream

/-! `StreamReassembler` (`libsponge/stream_reassembler.cc`). The `std::map` from
index to string is the list of its entries in key order. Sums of an index and a
size are 64-bit, and every subtraction is the unsigned one. Each function takes
the overflow mode: `wrap` is the program, `trap` the same text stopped at its
first wrapping subtraction. -/

namespace Sponge

structure StreamReassembler where
  output : ByteStream
  capacity : ℕ
  unassembledBytes : List (ℕ × List Byte)
  unassembledCnt : ℕ
  unassembledIndex : ℕ
  unacceptedIndex : ℕ
  eofIndex : ℕ
  deriving DecidableEq

/-- The variables of `merge_string`'s loop: the string and index it has grown,
the counter, and the map. -/
structure Merge where
  data : List Byte
  index : ℕ
  cnt : ℕ
  map : List (ℕ × List Byte)

namespace StreamReassembler

/-- `numeric_limits<size_t>::max()`, the value of `_eof_index` while no end is known. -/
def noEof : ℕ := 2 ^ 64 - 1

def new (capacity : ℕ) : StreamReassembler where
  output := ByteStream.new capacity
  capacity := capacity
  unassembledBytes := []
  unassembledCnt := 0
  unassembledIndex := 0
  unacceptedIndex := 0
  eofIndex := noEof

/-- `unassembled_bytes()`; the field of that name in the source is the map. -/
def unassembledSize (r : StreamReassembler) : ℕ := r.unassembledCnt

def empty (r : StreamReassembler) : Bool := r.unassembledBytes.isEmpty

/-- The loop of `merge_string` from one iterator position on. Moving past an
entry keeps it in front of what the rest of the loop leaves. -/
def mergeLoop (md : Overflow) (st ed : ℕ) (data : List Byte) (index cnt : ℕ) :
    List (ℕ × List Byte) → Except Fault Merge
  | [] => .ok ⟨data, index, cnt, []⟩
  | (mapSt, subStr) :: rest =>
    if uadd index data.length ≤ mapSt then .ok ⟨data, index, cnt, (mapSt, subStr) :: rest⟩
    else
      let mapEd := uadd mapSt subStr.length
      if st < mapEd ∧ mapSt < ed then
        -- the new string covers the entry
        if st ≤ mapSt ∧ mapEd ≤ ed then do
          let cnt ← usub md cnt subStr.length
          mergeLoop md st ed data index cnt rest
        -- the entry covers the new string
        else if mapSt ≤ st ∧ ed ≤ mapEd then do
          let m ← mergeLoop md st ed [] index cnt rest
          .ok { m with map := (mapSt, subStr) :: m.map }
        -- they cross; the comparison is with the original bounds
        else if st ≤ mapSt then do
          let tail ← substr subStr (← usub md ed mapSt) (← usub md mapEd ed)
          let cnt ← usub md cnt subStr.length
          mergeLoop md st ed (data ++ tail) index cnt rest
        else do
          let head ← substr subStr 0 (← usub md st mapSt)
          let cnt ← usub md cnt subStr.length
          mergeLoop md st ed (head ++ data) mapSt cnt rest
      else do
        let m ← mergeLoop md st ed data index cnt rest
        .ok { m with map := (mapSt, subStr) :: m.map }

/-- `merge_string`, with the caller's string as it is left: the source writes
through the reference it is given. -/
def mergeString (md : Overflow) (r : StreamReassembler) (data : List Byte) (index : ℕ) :
    Except Fault (StreamReassembler × List Byte) := do
  let st := index
  let ed := uadd index data.length
  let m ← mergeLoop md st ed data index r.unassembledCnt r.unassembledBytes
  let r := { r with unassembledBytes := m.map, unassembledCnt := m.cnt }
  if m.data = [] then .ok (r, m.data)
  else
    let unacceptedIndex := uadd r.output.bytesRead r.capacity
    let boundIndex := min (uadd m.index m.data.length) unacceptedIndex
    let insertSize := min (← usub md boundIndex m.index)
      (← usub md (← usub md r.capacity r.output.bufferSize) r.unassembledSize)
    .ok ({ r with
            unacceptedIndex := unacceptedIndex
            unassembledCnt := r.unassembledCnt + insertSize
            unassembledBytes := Chunks.insert m.index (m.data.take insertSize) r.unassembledBytes },
         m.data)

/-- The loop of `push_substring` that writes what the map now continues. -/
def drain (md : Overflow) (output : ByteStream) (index cnt : ℕ) :
    List (ℕ × List Byte) → Except Fault (ByteStream × ℕ × ℕ × List (ℕ × List Byte))
  | [] => .ok (output, index, cnt, [])
  | (mapIndex, mapStr) :: rest =>
    if mapIndex ≤ index then
      if uadd mapIndex mapStr.length > index then do
        let (output, writtenSize) :=
          output.write (← substr mapStr (← usub md index mapIndex) mapStr.length)
        let cnt ← usub md cnt mapStr.length
        drain md output (index + writtenSize) cnt rest
      else do
        let cnt ← usub md cnt mapStr.length
        drain md output index cnt rest
    else .ok (output, index, cnt, (mapIndex, mapStr) :: rest)

/-- The branch of `push_substring` for a string that starts at or before the
next index to assemble. -/
def writeDirect (md : Overflow) (r : StreamReassembler) (data : List Byte) (index : ℕ) :
    Except Fault StreamReassembler := do
  let boundIndex := min (uadd index data.length) r.unacceptedIndex
  let writeData ← substr data (← usub md r.unassembledIndex index)
    (min (← usub md boundIndex r.unassembledIndex)
      (← usub md (← usub md r.capacity r.output.bufferSize) r.unassembledSize))
  let (output, writtenSize) := r.output.write writeData
  let (output, unassembledIndex, cnt, map) ←
    drain md output (r.unassembledIndex + writtenSize) r.unassembledCnt r.unassembledBytes
  .ok { r with
        output := output
        unassembledIndex := unassembledIndex
        unassembledCnt := cnt
        unassembledBytes := map }

/-- `push_substring`, with the caller's string as it is left. -/
def pushSubstring (md : Overflow) (r : StreamReassembler) (data : List Byte) (index : ℕ)
    (eof : Bool) : Except Fault (StreamReassembler × List Byte) := do
  let r := { r with eofIndex := if eof then uadd index data.length else r.eofIndex }
  if r.eofIndex ≤ r.unassembledIndex then
    .ok ({ r with output := r.output.endInput }, data)
  else
    let r := { r with unacceptedIndex := uadd r.output.bytesRead r.capacity }
    if uadd index data.length < r.unassembledIndex ∨ r.unacceptedIndex < index then .ok (r, data)
    else
      let (r, data) ←
        if r.unassembledIndex < index then mergeString md r data index
        else do .ok (← writeDirect md r data index, data)
      if r.eofIndex ≤ r.unassembledIndex then
        .ok ({ r with output := r.output.endInput }, data)
      else .ok (r, data)

end StreamReassembler

end Sponge
