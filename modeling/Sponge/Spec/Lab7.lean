import Sponge.Spec.Router
import Sponge.Spec.SpongeSocket

/-! The program of `apps/lab7.cc`. The frames of a host's socket go to a router of the host's own;
a second thread runs the router, and exchanges frames with the router of the other host in UDP
datagrams. -/

namespace Sponge

open EventLoop

/-- The number of `a.b.c.d`. -/
def ipv4 (a b c d : UInt8) : UInt32 :=
  a.toUInt32 <<< 24 ||| b.toUInt32 <<< 16 ||| c.toUInt32 <<< 8 ||| d.toUInt32

def Address.ip (a : Address) : String :=
  let byte (shift : UInt32) : String := toString (a.ipv4Numeric >>> shift).toUInt8.toNat
  byte 24 ++ "." ++ byte 16 ++ "." ++ byte 8 ++ "." ++ byte 0

def Address.toString (a : Address) : String := a.ip ++ ":" ++ ToString.toString a.port.toNat

/-- The adapter over Ethernet, whose device is here one end of a socket pair. -/
abbrev NetworkInterfaceAdapter := TCPOverIPv4OverEthernetAdapter

def NetworkInterfaceAdapter.new (ethernetAddress : EthernetAddress) (ipAddress nextHop : UInt32) :
    NetworkInterfaceAdapter where
  interface := { ethernetAddress, ipAddress }
  nextHop

structure TCPSocketLab7 where
  adapter : NetworkInterfaceAdapter
  localAddress : Address

namespace TCPSocketLab7

def new (ethernetAddress : EthernetAddress) (ipAddress nextHop : UInt32) : TCPSocketLab7 where
  adapter := NetworkInterfaceAdapter.new ethernetAddress ipAddress nextHop
  localAddress := ⟨ipAddress, 0⟩

def connect (s : TCPSocketLab7) (port : UInt16) (random : WrappingInt32) (address : Address) :
    Except Raised (SocketThread NetworkInterfaceAdapter) :=
  let localAddress : Address := ⟨s.localAddress.ipv4Numeric, port⟩
  SocketThread.connect s.adapter random {} { source := localAddress, destination := address }

def bind (s : TCPSocketLab7) (address : Address) : Except Raised TCPSocketLab7 :=
  if address.ip ≠ s.localAddress.ip then
    .error (.thrown (.runtimeError ("Cannot bind to " ++ address.toString)))
  else .ok { s with localAddress := ⟨s.localAddress.ipv4Numeric, address.port⟩ }

def listenAndAccept (s : TCPSocketLab7) (random : WrappingInt32) :
    SocketThread NetworkInterfaceAdapter :=
  SocketThread.listenAndAccept s.adapter random {} { source := s.localAddress }

end TCPSocketLab7

/-- What the thread of the router works on. -/
structure Lab7Network where
  router : Router
  hostSide : ℕ
  internetSide : ℕ
  frameFd : Device Buffer := {}
  internetSocket : Device (Address × Buffer) := {}
  bounceAddress : Address

/-- What a callback meets: a frame from the host, a packet from the Internet, and whether a write
succeeds. -/
structure NetworkSurroundings where
  frame : Option Buffer := none
  packet : Option Buffer := none
  write : Option Unit := some ()

inductive NetworkRule where
  | hostToRouter
  | routerToHost
  | routerToInternet
  | internetToRouter
  deriving DecidableEq, Repr

/-- The frames waiting at interface `n`. -/
def Router.framesOut (r : Router) (n : ℕ) : List EthernetFrame :=
  (r.interfaces[n]?.map (·.framesOut)).getD []

namespace Lab7Network

/-- What is read at interface `n`, if it is a frame, goes through the router. -/
def receive (n : ℕ) (bytes : Buffer) (s : Lab7Network) : Except Raised Lab7Network :=
  let (result, frame) := ({} : EthernetFrame).parse bytes
  if result ≠ .noError then .ok s
  else do
    let router ← raise (s.router.step (.recvFrame n frame))
    let router ← raise (router.step .route)
    .ok { s with router }

/-- The front of the queue at interface `n`, and the router without it. Nothing is said in the
source about an empty queue. -/
def popFrame (n : ℕ) (s : Lab7Network) : Except Raised (EthernetFrame × Router) := do
  let i ← raise (s.router.interface n)
  match i.framesOut with
  | [] => .error (.thrown .outOfRange)
  | frame :: rest => .ok (frame, s.router.setInterface n { i with framesOut := rest })

def hostToRouter (k : NetworkSurroundings) (s : Lab7Network) : Except Raised Lab7Network := do
  let (bytes, fd) ← s.frameFd.fd.read maxRead k.frame
  receive s.hostSide bytes { s with frameFd := { s.frameFd with fd } }

def routerToHost (k : NetworkSurroundings) (s : Lab7Network) : Except Raised Lab7Network := do
  let (frame, router) ← s.popFrame s.hostSide
  let frameFd ← s.frameFd.write "writev" k.write frame.serialize.concatenate
  .ok { s with frameFd, router }

def routerToInternet (k : NetworkSurroundings) (s : Lab7Network) : Except Raised Lab7Network := do
  let (frame, router) ← s.popFrame s.internetSide
  let internetSocket ←
    s.internetSocket.write "sendmsg" k.write (s.bounceAddress, frame.serialize.concatenate)
  .ok { s with internetSocket, router }

def internetToRouter (k : NetworkSurroundings) (s : Lab7Network) : Except Raised Lab7Network := do
  let (bytes, fd) ← s.internetSocket.fd.read maxRead k.packet
  receive s.internetSide bytes { s with internetSocket := { s.internetSocket with fd } }

def rule : NetworkRule → Rule Lab7Network NetworkSurroundings
  | .hostToRouter => {
      fd := fun s => s.frameFd.fd
      direction := .In
      callback := hostToRouter }
  | .routerToHost => {
      fd := fun s => s.frameFd.fd
      direction := .Out
      callback := routerToHost
      interest := fun s => !(s.router.framesOut s.hostSide).isEmpty }
  | .routerToInternet => {
      fd := fun s => s.internetSocket.fd
      direction := .Out
      callback := routerToInternet
      interest := fun s => !(s.router.framesOut s.internetSide).isEmpty }
  | .internetToRouter => {
      fd := fun s => s.internetSocket.fd
      direction := .In
      callback := internetToRouter }

def rules : List NetworkRule :=
  [.hostToRouter, .routerToHost, .routerToInternet, .internetToRouter]

/-- Time passes for the interfaces of the router. -/
def tick (s : Lab7Network) (ms : ℕ) : Except Raised Lab7Network := do
  let router ← raise (s.router.step (.tick s.hostSide ms))
  let router ← raise (router.step (.tick s.internetSide ms))
  .ok { s with router }

end Lab7Network

structure NetworkInput where
  poll : Poll NetworkSurroundings
  exitFlag : Bool := false

structure NetworkThread where
  network : Lab7Network
  rules : List NetworkRule := Lab7Network.rules
  running : Bool := true

/-- One turn of the thread's loop. -/
def NetworkThread.step (t : NetworkThread) (input : NetworkInput) : Except Raised NetworkThread :=
  if t.running then do
    let (ret, rules, network) ← waitNextEvent Lab7Network.rule input.poll t.rules t.network
    if ret = .exit then .ok { network, rules, running := false }
    else do
      let network ← network.tick 50
      .ok { network, rules, running := !input.exitFlag }
  else .ok t

/-- The two threads of the program. -/
structure Lab7 where
  sock : SocketThread NetworkInterfaceAdapter
  network : NetworkThread

inductive Lab7Input where
  | sock (input : LoopInput Buffer Writes)
  | network (input : NetworkInput)

namespace Lab7

/-- What the program draws at random. -/
structure Draws where
  hostSideAddress : EthernetAddress
  internetSideAddress : EthernetAddress
  hostAddress : EthernetAddress
  port : UInt16
  isn : WrappingInt32

def clientRouter (d : Draws) : Router :=
  ({ interfaces := [
      { ethernetAddress := d.hostSideAddress, ipAddress := ipv4 192 168 0 1 },
      { ethernetAddress := d.internetSideAddress, ipAddress := ipv4 10 0 0 192 }] } : Router).addRoutes [
    ⟨ipv4 192 168 0 0, 16, none, 0⟩,
    ⟨ipv4 10 0 0 0, 8, none, 1⟩,
    ⟨ipv4 172 16 0 0, 12, some (ipv4 10 0 0 172), 1⟩]

def serverRouter (d : Draws) : Router :=
  ({ interfaces := [
      { ethernetAddress := d.hostSideAddress, ipAddress := ipv4 172 16 0 1 },
      { ethernetAddress := d.internetSideAddress, ipAddress := ipv4 10 0 0 172 }] } : Router).addRoutes [
    ⟨ipv4 172 16 0 0, 12, none, 0⟩,
    ⟨ipv4 10 0 0 0, 8, none, 1⟩,
    ⟨ipv4 192 168 0 0, 16, some (ipv4 10 0 0 192), 1⟩]

/-- The address the server listens at. -/
def serverAddress : Address := ⟨ipv4 172 16 0 100, 1234⟩

def clientSocket (d : Draws) : TCPSocketLab7 :=
  .new d.hostAddress (ipv4 192 168 0 50) (ipv4 192 168 0 1)

def serverSocket (d : Draws) : TCPSocketLab7 :=
  .new d.hostAddress (ipv4 172 16 0 100) (ipv4 172 16 0 1)

/-- The client connects; the server binds and listens. -/
def openSocket (isClient : Bool) (d : Draws) :
    Except Raised (SocketThread NetworkInterfaceAdapter) :=
  if isClient then (clientSocket d).connect d.port d.isn serverAddress
  else do
    let s ← (serverSocket d).bind serverAddress
    .ok (s.listenAndAccept d.isn)

/-- `program_body`, up to where the loops of its threads begin. -/
def programBody (isClient : Bool) (bounceAddress : Address) (d : Draws) (writes : Writes) :
    Except Raised Lab7 := do
  -- the bouncer is told three times where we are
  let internetSocket : Device (Address × Buffer) := {}
  let internetSocket ← internetSocket.write "sendmsg" (writes 0) (bounceAddress, [])
  let internetSocket ← internetSocket.write "sendmsg" (writes 1) (bounceAddress, [])
  let internetSocket ← internetSocket.write "sendmsg" (writes 2) (bounceAddress, [])
  let network : Lab7Network := {
    router := if isClient then clientRouter d else serverRouter d
    hostSide := 0
    internetSide := 1
    internetSocket
    bounceAddress }
  let sock ← openSocket isClient d
  .ok { sock, network := { network } }

def step (m : Lab7) : Lab7Input → Except Raised Lab7
  | .sock input => do
    let sock ← m.sock.step input
    .ok { m with sock }
  | .network input => do
    let network ← m.network.step input
    .ok { m with network }

end Lab7

/-- A client and a server. What passes between them is a matter of the bouncer. -/
structure Lab7Pair where
  client : Lab7
  server : Lab7

def Lab7Pair.step (p : Lab7Pair) : Side × Lab7Input → Except Raised Lab7Pair
  | (.left, input) => do
    let client ← p.client.step input
    .ok { p with client }
  | (.right, input) => do
    let server ← p.server.step input
    .ok { p with server }

end Sponge
