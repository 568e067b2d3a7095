import Sponge.Spec.Lab7
import Sponge.Spec.Router

/-! Hosts and routers joined by cables, as the `Network` of `apps/network_simulator.cc`
joins them, with any number of each. Besides the exchange of everything that waits on a
cable, a copy of any one frame may arrive anywhere on its cable, and any frame may be lost. -/

namespace Sponge

/-- Where a cable is plugged in. -/
inductive Port where
  | host (h : ℕ)
  | router (r n : ℕ)
  deriving DecidableEq

structure Host where
  interface : AsyncNetworkInterface
  nextHop : UInt32

namespace Host

/-- The datagram of `send_to`. Its payload is a text with a random number in it. -/
def datagram (host : Host) (destination : UInt32) (ttl : UInt8) (payload : Buffer) :
    IPv4Datagram :=
  let header : IPv4Header := { src := host.interface.ipAddress, dst := destination, ttl }
  { header := { header with len := UInt16.ofNat (header.hlen.toNat * 4 + payload.length) }
    payload := [payload] }

def sendTo (host : Host) (destination : UInt32) (ttl : UInt8) (payload : Buffer) :
    Except Thrown Host := do
  let iface ← host.interface.sendDatagram (host.datagram destination ttl payload) host.nextHop
  return { host with interface := { host.interface with toNetworkInterface := iface } }

end Host

structure Internet where
  routers : List Router := []
  hosts : List Host := []

inductive InternetEvent where
  | sendTo (h : ℕ) (destination : UInt32) (ttl : UInt8) (payload : Buffer)
  | route (r : ℕ)
  | exchange (ports : List Port)
  | tick (p : Port) (ms : ℕ)
  | deliver (p : Port) (k : ℕ) (q : Port)
  | lose (p : Port) (k : ℕ)

namespace Internet

def interface (net : Internet) : Port → Option AsyncNetworkInterface
  | .host h => net.hosts[h]?.map Host.interface
  | .router r n => net.routers[r]?.bind fun router => router.interfaces[n]?

def setInterface (net : Internet) (p : Port) (i : AsyncNetworkInterface) : Internet :=
  match p with
  | .host h => { net with hosts := net.hosts.modify h fun host => { host with interface := i } }
  | .router r n => { net with routers := net.routers.modify r fun router => router.setInterface n i }

def framesOut (net : Internet) (p : Port) : List EthernetFrame :=
  ((net.interface p).map fun i => i.framesOut).getD []

/-- A frame as `deliver` hands it over, with its payload in one buffer. -/
def onCable (f : EthernetFrame) : EthernetFrame := { f with payload := [f.payload.concatenate] }

def receive (q : Port) (net : Internet) (f : EthernetFrame) : Except Thrown Internet :=
  match net.interface q with
  | none => .ok net
  | some i => do return net.setInterface q (← i.recvFrame (onCable f))

def deliver (net : Internet) (src : List EthernetFrame) (q : Port) : Except Thrown Internet :=
  exec (receive q) net src

def clear (net : Internet) (p : Port) (n : ℕ) : Internet :=
  match net.interface p with
  | none => net
  | some i => net.setInterface p { i with framesOut := i.framesOut.drop n }

/-- `exchange_frames`: what waited at each port goes to each of the others, in order; what
came up meanwhile waits for the next time. -/
def exchangeFrames (net : Internet) (ports : List Port) : Except Thrown Internet := do
  let waited := ports.map fun p => (p, net.framesOut p)
  let after ← exec (fun net c => net.deliver c.1 c.2) net
    (waited.flatMap fun c => (ports.filter (· ≠ c.1)).map fun q => (c.2, q))
  return waited.foldl (fun net c => net.clear c.1 c.2.length) after

def step (net : Internet) : InternetEvent → Except Thrown Internet
  | .sendTo h destination ttl payload =>
    match net.hosts[h]? with
    | none => .ok net
    | some host => do
      return { net with hosts := net.hosts.set h (← host.sendTo destination ttl payload) }
  | .route r =>
    match net.routers[r]? with
    | none => .ok net
    | some router => do return { net with routers := net.routers.set r (← router.route) }
  | .exchange ports => net.exchangeFrames ports
  | .tick p ms =>
    match net.interface p with
    | none => .ok net
    | some i => .ok (net.setInterface p { i with toNetworkInterface := i.tick ms })
  | .deliver p k q =>
    match (net.framesOut p)[k]? with
    | none => .ok net
    | some f => net.receive q f
  | .lose p k =>
    match net.interface p with
    | none => .ok net
    | some i => .ok (net.setInterface p { i with framesOut := i.framesOut.eraseIdx k })

/-- The network of the simulator. Its Ethernet addresses are random; host 0 is `applesauce`,
1 `default_router`, 2 `cherrypie`, 3 `hs_router`, 4 `dm42` and 5 `dm43`. -/
def simulator (mac : Port → EthernetAddress) : Internet :=
  let interface (p : Port) (ip : UInt32) : AsyncNetworkInterface :=
    { ethernetAddress := mac p, ipAddress := ip }
  { routers := [({ interfaces := [
        interface (.router 0 0) (ipv4 171 67 76 46), interface (.router 0 1) (ipv4 10 0 0 1),
        interface (.router 0 2) (ipv4 172 16 0 1), interface (.router 0 3) (ipv4 192 168 0 1),
        interface (.router 0 4) (ipv4 198 178 229 1), interface (.router 0 5) (ipv4 143 195 0 2),
        interface (.router 0 6) (ipv4 128 30 76 255)] } : Router).addRoutes [
      ⟨ipv4 0 0 0 0, 0, some (ipv4 171 67 76 1), 0⟩, ⟨ipv4 10 0 0 0, 8, none, 1⟩,
      ⟨ipv4 172 16 0 0, 16, none, 2⟩, ⟨ipv4 192 168 0 0, 24, none, 3⟩,
      ⟨ipv4 198 178 229 0, 24, none, 4⟩, ⟨ipv4 143 195 0 0, 17, some (ipv4 143 195 0 1), 5⟩,
      ⟨ipv4 143 195 128 0, 18, some (ipv4 143 195 0 1), 5⟩,
      ⟨ipv4 143 195 192 0, 19, some (ipv4 143 195 0 1), 5⟩,
      ⟨ipv4 128 30 76 255, 16, some (ipv4 128 30 0 1), 6⟩]]
    hosts := [
      ⟨interface (.host 0) (ipv4 10 0 0 2), ipv4 10 0 0 1⟩,
      ⟨interface (.host 1) (ipv4 171 67 76 1), 0⟩,
      ⟨interface (.host 2) (ipv4 192 168 0 2), ipv4 192 168 0 1⟩,
      ⟨interface (.host 3) (ipv4 143 195 0 1), 0⟩,
      ⟨interface (.host 4) (ipv4 198 178 229 42), ipv4 198 178 229 1⟩,
      ⟨interface (.host 5) (ipv4 198 178 229 43), ipv4 198 178 229 1⟩] }

/-- The cable of each port: the router's ports have one each. -/
def simulatorCable : Port → ℕ
  | .router _ n => n
  | .host 0 => 1
  | .host 1 => 0
  | .host 2 => 3
  | .host 3 => 5
  | .host _ => 4

/-- One round of `simulate`: `route`, then `simulate_physical_connections`. -/
def simulateRound : List InternetEvent :=
  [.route 0, .exchange [.router 0 0, .host 1], .exchange [.router 0 1, .host 0],
    .exchange [.router 0 3, .host 2], .exchange [.router 0 5, .host 3],
    .exchange [.router 0 4, .host 4, .host 5]]

end Internet

end Sponge
