import Sponge.Spec.Transfer

/-! A transfer after the last write, watched for rounds of recovery. In a round the
reader empties the stream, then the retransmission timer expires, then the segment
it repeated arrives, then the receiver reports, then this report arrives. Anything
else the network and the parties do may come in between. -/

namespace Sponge

/-- Nothing more is written, and the stream is not ended. -/
def TransferEvent.Quiet : TransferEvent → Prop
  | .write _ => False
  | .endInput => False
  | _ => True

instance : (e : TransferEvent) → Decidable e.Quiet
  | .write _ | .endInput => isFalse id
  | .tick _ | .deliver _ | .read _ | .report | .acknowledge _ => isTrue trivial

/-- What a round waits for. -/
inductive Phase where
  | read
  | expire
  | deliver (g : TCPSegment)
  | report
  | acknowledge (j : ℕ)
  deriving DecidableEq

structure Watch where
  state : Transfer
  phase : Phase
  rounds : ℕ
  deriving DecidableEq

/-- The segment a tick would repeat. -/
def TCPSender.expires (s : TCPSender) (ms : ℕ) : Option TCPSegment :=
  if (s.timer.tick ms).checkExpired then s.segmentsUnackno.head? else none

namespace Phase

/-- What the round waits for after the event; none when this was its last. -/
def after (s : Transfer) : Phase → TransferEvent → Option Phase
  | .read, .read len => some (if s.rx.streamOut.bufferSize ≤ len then .expire else .read)
  | .expire, .tick ms => some ((s.tx.sender.expires ms).elim .expire .deliver)
  | .deliver g, .deliver i => some (if s.emitted[i]? = some g then .report else .deliver g)
  | .report, .report => some (if s.rx.setSyn then .acknowledge s.reports.length else .report)
  | .acknowledge j, .acknowledge i => if i = j then none else some (.acknowledge j)
  | phase, _ => some phase

end Phase

namespace Watch

def new (s : Transfer) : Watch := ⟨s, .read, 0⟩

def step (w : Watch) (e : TransferEvent) : Except Fault Watch := do
  let state ← w.state.step e
  .ok (match w.phase.after w.state e with
    | some phase => ⟨state, phase, w.rounds⟩
    | none => ⟨state, .read, w.rounds + 1⟩)

end Watch

namespace Transfer

/-- A round with nothing in between. -/
def round (s : Transfer) : List TransferEvent :=
  let timer := s.tx.sender.timer
  [.read s.rx.streamOut.bufferSize, .tick (timer.curRTO - timer.elapsedTime),
    .deliver s.emitted.length, .report, .acknowledge s.reports.length]

/-- Everything accepted has reached the receiver's stream and is acknowledged; if the
stream was ended, its end has too. -/
structure Complete (s : Transfer) : Prop where
  delivered : s.written = s.tx.accepted
  acked : s.tx.sender.bytesInFlight = 0
  closed : s.tx.sender.stream.inputEnded = true →
    s.tx.sender.setFin = true ∧ s.rx.streamOut.inputEnded = true

end Transfer

end Sponge
