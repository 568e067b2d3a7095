import Sponge.Spec.StreamReassembler
import Sponge.Lib.Exec

/-! A reassembler in use: substrings are pushed, and its owner reads or pops the
output. The session remembers the bytes taken out of the output so far, so that
`taken` followed by the buffer is everything ever written to it. -/

namespace Sponge

structure Session where
  reassembler : StreamReassembler
  taken : List Byte
  deriving DecidableEq

inductive SessionOp where
  | push (data : List Byte) (index : ℕ) (eof : Bool)
  | read (len : ℕ)
  | pop (len : ℕ)
  deriving DecidableEq

namespace Session

def new (capacity : ℕ) : Session := ⟨StreamReassembler.new capacity, []⟩

/-- The reassembler with its output replaced: `stream_out()` is a reference. -/
def withOutput (s : Session) (output : ByteStream) (out : List Byte) : Session :=
  ⟨{ s.reassembler with output := output }, s.taken ++ out⟩

def step (s : Session) : SessionOp → Except Fault Session
  | .push data index eof => do
    let (r, _) ← s.reassembler.pushSubstring .wrap data index eof
    .ok { s with reassembler := r }
  | .read len =>
    let (output, bytes) := s.reassembler.output.read len
    .ok (s.withOutput output bytes)
  | .pop len =>
    .ok (s.withOutput (s.reassembler.output.popOutput len) (s.reassembler.output.peekOutput len))

/-- Everything ever written to the output. -/
def written (s : Session) : List Byte := s.taken ++ s.reassembler.output.buffer

end Session

/-- The end of the pushed string is a 64-bit index. -/
def SessionOp.InRange : SessionOp → Prop
  | .push data index _ => index + data.length < 2 ^ 64
  | _ => True

/-- A push of `S[i..j)` at `i`, with the end flag only when `j` is the end of `S`. -/
def SessionOp.From (S : List Byte) : SessionOp → Prop
  | .push data index eof =>
    index + data.length ≤ S.length ∧ data = (S.drop index).take data.length ∧
      (eof = true → index + data.length = S.length)
  | _ => True

/-- A condition on the pushes of a session, in the state each one meets. -/
def SessionOp.AtPush (C : StreamReassembler → List Byte → ℕ → Bool → Prop) (s : Session) :
    SessionOp → Prop
  | .push data index eof => C s.reassembler data index eof
  | _ => True

def SessionOp.carriesEof : SessionOp → Bool
  | .push _ _ eof => eof
  | _ => false

instance : (op : SessionOp) → Decidable op.InRange
  | .push _ _ _ => inferInstanceAs (Decidable (_ < _))
  | .read _ => inferInstanceAs (Decidable True)
  | .pop _ => inferInstanceAs (Decidable True)

instance (C : StreamReassembler → List Byte → ℕ → Bool → Prop) [∀ r d i e, Decidable (C r d i e)]
    (s : Session) : (op : SessionOp) → Decidable (op.AtPush C s)
  | .push data index eof => inferInstanceAs (Decidable (C s.reassembler data index eof))
  | .read _ => inferInstanceAs (Decidable True)
  | .pop _ => inferInstanceAs (Decidable True)

instance (S : List Byte) : (op : SessionOp) → Decidable (op.From S)
  | .push _ _ _ => inferInstanceAs (Decidable (_ ∧ _ ∧ _))
  | .read _ => inferInstanceAs (Decidable True)
  | .pop _ => inferInstanceAs (Decidable True)

end Sponge
