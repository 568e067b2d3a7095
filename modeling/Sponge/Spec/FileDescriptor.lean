import Sponge.Spec.Parser

/-! Descriptors, from `libsponge/util/file_descriptor.cc`, and the list of views a write takes
its bytes from. What the kernel answers to a system call is an argument, `none` for an error. -/

namespace Sponge

/-- How a call on a descriptor ends without returning: with an exception of the program's own,
or with the `unix_error` of a system call. -/
inductive Raised where
  | thrown (e : Thrown)
  | unixError (attempt : String)
  deriving DecidableEq, Repr

/-- `SystemCall`: the wrapper that turns an error into an exception. -/
def systemCall {β : Type} (attempt : String) : Option β → Except Raised β
  | some b => .ok b
  | none => .error (.unixError attempt)

/-- The views of a `BufferViewList`, in order. -/
abbrev BufferViewList := List Buffer

namespace BufferViewList

def size (l : BufferViewList) : ℕ := (l.map List.length).sum

/-- The loop of `remove_prefix`, a view at a time. -/
def removePrefix : BufferViewList → ℕ → Except Thrown BufferViewList
  | [], n => if 0 < n then .error .outOfRange else .ok []
  | v :: l, n =>
    if n = 0 then .ok (v :: l)
    else if n < v.length then .ok (v.drop n :: l)
    else removePrefix l (n - v.length)

end BufferViewList

/-- What the duplicates of a descriptor share. -/
structure FDWrapper where
  eof : Bool := false
  closed : Bool := false
  readCount : UInt32 := 0
  writeCount : UInt32 := 0
  deriving DecidableEq, Repr

namespace FDWrapper

def registerRead (fd : FDWrapper) : FDWrapper := { fd with readCount := fd.readCount + 1 }

def registerWrite (fd : FDWrapper) : FDWrapper := { fd with writeCount := fd.writeCount + 1 }

/-- `Socket::shutdown` of the writing side. -/
def shutdownWrite (fd : FDWrapper) (answer : Option Unit) : Except Raised FDWrapper := do
  systemCall "shutdown" answer
  .ok fd.registerWrite

/-- The maximum size of a read. -/
def BUFFER_SIZE : ℕ := 1024 * 1024

/-- The kernel answers a `read` with the bytes it hands over. -/
def read (fd : FDWrapper) (limit : ℕ) (answer : Option Buffer) :
    Except Raised (Buffer × FDWrapper) := do
  let sizeToRead := min BUFFER_SIZE limit
  let bytes ← systemCall "read" answer
  let fd := if 0 < limit ∧ bytes.length = 0 then { fd with eof := true } else fd
  if sizeToRead < bytes.length then
    .error (.thrown (.runtimeError "read() read more than requested"))
  else .ok (bytes, fd.registerRead)

end FDWrapper

/-- A write under way: the views that are left, the bytes counted so far, and the bytes the
kernel has taken. -/
structure Writing where
  fd : FDWrapper
  buffer : BufferViewList
  totalBytesWritten : ℕ := 0
  taken : Buffer := []

namespace Writing

/-- One `writev`, which the kernel answers with the number of bytes it has taken. -/
def writev (w : Writing) (answer : Option ℕ) : Except Raised Writing := do
  let bytesWritten ← systemCall "writev" answer
  if bytesWritten = 0 ∧ w.buffer.size ≠ 0 then
    .error (.thrown (.runtimeError "write returned 0 given non-empty input buffer"))
  else if w.buffer.size < bytesWritten then
    .error (.thrown (.runtimeError "write wrote more than length of input buffer"))
  else
    match w.buffer.removePrefix bytesWritten with
    | .error e => .error (.thrown e)
    | .ok buffer => .ok {
        fd := w.fd.registerWrite
        buffer
        totalBytesWritten := w.totalBytesWritten + bytesWritten
        taken := w.taken ++ w.buffer.flatten.take bytesWritten }

end Writing

namespace FDWrapper

/-- `write` of a buffer without `write_all`: what the kernel takes of it at once. -/
def writeSome (fd : FDWrapper) (buffer : Buffer) (answer : Option ℕ) :
    Except Raised Writing := ({ fd, buffer := [buffer] } : Writing).writev answer

end FDWrapper

end Sponge
