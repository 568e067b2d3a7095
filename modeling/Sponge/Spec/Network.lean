import Sponge.Lib.Exec
import Sponge.Spec.SenderRun
import Sponge.Spec.TCPConnection

/-! Two connections over a network that may lose, repeat, delay and reorder their
segments, but not change or forge them. What a connection puts on its queue stays
there, available for delivery to the other as often as the network likes: the
connection itself never looks at that queue again. -/

namespace Sponge

/-- A connection, the bytes its `write` has accepted, and those read from its
inbound stream. -/
structure Endpoint where
  conn : TCPConnection
  accepted : List Byte
  taken : List Byte
  deriving DecidableEq

namespace Endpoint

def new (cfg : TCPConfig) (random : WrappingInt32) : Endpoint :=
  ⟨TCPConnection.new cfg random, [], []⟩

/-- Everything ever written to the inbound stream. -/
def written (e : Endpoint) : List Byte := e.taken ++ e.conn.receiver.streamOut.buffer

end Endpoint

inductive EndpointEvent where
  | connect
  | write (data : List Byte)
  | endInputStream
  | tick (ms : ℕ)
  | read (len : ℕ)
  | deliver (i : ℕ)
  deriving DecidableEq

def Endpoint.step (e peer : Endpoint) : EndpointEvent → Except Fault Endpoint
  | .connect => .ok { e with conn := e.conn.connect }
  | .write data =>
    let (conn, len) := e.conn.write data
    .ok { e with conn := conn, accepted := e.accepted ++ data.take len }
  | .endInputStream => .ok { e with conn := e.conn.endInputStream }
  | .tick ms => .ok { e with conn := e.conn.tick ms }
  | .read len =>
    let (conn, bytes) := e.conn.readInbound len
    .ok { e with conn := conn, taken := e.taken ++ bytes }
  | .deliver i =>
    match peer.conn.segmentsOut[i]? with
    | none => .ok e
    | some g => do
      let conn ← e.conn.segmentReceived g
      .ok { e with conn := conn }

inductive Side where
  | left
  | right
  deriving DecidableEq

structure Network where
  left : Endpoint
  right : Endpoint
  deriving DecidableEq

namespace Network

def new (cfg cfg' : TCPConfig) (random random' : WrappingInt32) : Network :=
  ⟨Endpoint.new cfg random, Endpoint.new cfg' random'⟩

/-- The endpoint on a side, and the one across. -/
def here (n : Network) : Side → Endpoint
  | .left => n.left
  | .right => n.right

def across (n : Network) : Side → Endpoint
  | .left => n.right
  | .right => n.left

def step (n : Network) : Side × EndpointEvent → Except Fault Network
  | (.left, ev) => do
    let left ← n.left.step n.right ev
    .ok { n with left := left }
  | (.right, ev) => do
    let right ← n.right.step n.left ev
    .ok { n with right := right }

end Network

end Sponge
