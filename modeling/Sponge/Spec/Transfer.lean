import Sponge.Lib.Exec
import Sponge.Spec.SenderRun
import Sponge.Spec.TCPState

/-! One sender and one receiver over a network that may lose, repeat, delay and
reorder what they send, but not change or forge it. Everything ever sent stays
available: an event delivers any segment emitted so far to the receiver, or any
report produced so far to the sender. -/

namespace Sponge

structure Transfer where
  tx : SenderRun
  rx : TCPReceiver
  taken : List Byte
  reports : List (WrappingInt32 × UInt16)
  deriving DecidableEq

inductive TransferEvent where
  | write (data : List Byte)
  | endInput
  | tick (ms : ℕ)
  | deliver (i : ℕ)
  | read (len : ℕ)
  | report
  | acknowledge (j : ℕ)
  deriving DecidableEq

namespace Transfer

def new (sendCapacity retxTimeout : ℕ) (isn : WrappingInt32) (recvCapacity : ℕ) : Transfer :=
  ⟨SenderRun.new sendCapacity retxTimeout isn, TCPReceiver.new recvCapacity, [], []⟩

/-- Every segment the sender has put on its queue. -/
def emitted (s : Transfer) : List TCPSegment := s.tx.sent ++ s.tx.others.map Prod.fst

/-- Everything ever written to the receiver's stream. -/
def written (s : Transfer) : List Byte := s.taken ++ s.rx.streamOut.buffer

def step (s : Transfer) : TransferEvent → Except Fault Transfer
  | .write data => .ok { s with tx := (s.tx.step (.write data)).step .fillWindow }
  | .endInput => .ok { s with tx := (s.tx.step .endInput).step .fillWindow }
  | .tick ms => .ok { s with tx := s.tx.step (.tick ms) }
  | .deliver i =>
    match s.emitted[i]? with
    | none => .ok s
    | some g => do
      let rx ← s.rx.segmentReceived g
      .ok { s with rx := rx }
  | .read len =>
    let (output, bytes) := s.rx.streamOut.read len
    .ok { s with rx := s.rx.withOutput output, taken := s.taken ++ bytes }
  | .report =>
    match s.rx.ackno with
    | none => .ok s
    | some ackno =>
      .ok { s with reports := s.reports ++ [(ackno, UInt16.ofNat (min 65535 s.rx.windowSize))] }
  | .acknowledge j =>
    match s.reports[j]? with
    | none => .ok s
    | some (ackno, windowSize) => .ok { s with tx := s.tx.step (.ackReceived ackno windowSize) }

end Transfer

end Sponge
