import Sponge.Lib.Exec
import Sponge.Lib.OrderedSet
import Sponge.Spec.NetworkInterface

/-! The router of `libsponge/router.cc`, with the calls made on it and on its
interfaces. -/

namespace Sponge

structure AsyncNetworkInterface extends NetworkInterface where
  datagramsOut : List IPv4Datagram := []

namespace AsyncNetworkInterface

def recvFrame (i : AsyncNetworkInterface) (frame : EthernetFrame) :
    Except Thrown AsyncNetworkInterface := do
  let (dgram, iface) ← i.toNetworkInterface.recvFrame frame
  return { toNetworkInterface := iface, datagramsOut := i.datagramsOut ++ dgram.toList }

end AsyncNetworkInterface

structure RouteEntry where
  routePrefix : UInt32
  prefixLength : UInt8
  nextHop : Option UInt32
  interfaceNum : ℕ
  deriving DecidableEq, Repr

namespace RouteEntry

/-- `operator<`: the longer prefix first; the next hop does not count. -/
def Lt (a b : RouteEntry) : Prop :=
  if a.prefixLength ≠ b.prefixLength then b.prefixLength < a.prefixLength
  else if a.routePrefix ≠ b.routePrefix then a.routePrefix < b.routePrefix
  else a.interfaceNum < b.interfaceNum

instance : DecidableRel Lt := fun a b =>
  inferInstanceAs (Decidable (if a.prefixLength ≠ b.prefixLength then _ else _))

instance : IsTrans RouteEntry Lt where
  trans a b c hab hbc := by
    simp only [Lt, ne_eq, ← UInt8.toNat_inj, ← UInt32.toNat_inj, UInt8.lt_iff_toNat_lt,
      UInt32.lt_iff_toNat_lt] at hab hbc ⊢
    split_ifs at hab hbc ⊢ <;> omega

/-- A length above 32 would be a negative shift; no route has one. -/
def mask (e : RouteEntry) : UInt32 :=
  if e.prefixLength = 0 then 0 else 0xffffffff <<< (32 - e.prefixLength.toUInt32)

/-- The prefix is compared as it was given, the address after the mask. -/
def Matches (e : RouteEntry) (ip : UInt32) : Prop := e.routePrefix ^^^ (e.mask &&& ip) = 0

instance (e : RouteEntry) (ip : UInt32) : Decidable (e.Matches ip) :=
  inferInstanceAs (Decidable (_ = _))

/-- One round of the loop over the table. -/
def better (ip : UInt32) (best : Option RouteEntry) (route : RouteEntry) : Option RouteEntry :=
  if route.Matches ip then
    match best with
    | none => some route
    | some b => if b.prefixLength < route.prefixLength then some route else best
  else best

end RouteEntry

structure Router where
  interfaces : List AsyncNetworkInterface := []
  routeTable : OrderedSet RouteEntry.Lt := .empty _

namespace Router

def interface (r : Router) (n : ℕ) : Except Thrown AsyncNetworkInterface :=
  match r.interfaces[n]? with
  | some i => .ok i
  | none => .error .outOfRange

def setInterface (r : Router) (n : ℕ) (i : AsyncNetworkInterface) : Router :=
  { r with interfaces := r.interfaces.set n i }

def addRoute (r : Router) (routePrefix : UInt32) (prefixLength : UInt8)
    (nextHop : Option UInt32) (interfaceNum : ℕ) : Router :=
  { r with routeTable := r.routeTable.insert _ ⟨routePrefix, prefixLength, nextHop, interfaceNum⟩ }

/-- One `add_route` call for each entry, in order. -/
def addRoutes (r : Router) (routes : List RouteEntry) : Router :=
  routes.foldl (fun r e => r.addRoute e.routePrefix e.prefixLength e.nextHop e.interfaceNum) r

def bestRoute (r : Router) (ip : UInt32) : Option RouteEntry :=
  r.routeTable.entries.foldl (RouteEntry.better ip) none

def routeOneDatagram (r : Router) (dgram : IPv4Datagram) : Except Thrown Router :=
  let ip := dgram.header.dst
  let best := r.bestRoute ip
  if dgram.header.ttl ≤ 1 then .ok r
  else match best with
    | none => .ok r
    | some route => do
      let dgram := { dgram with header := { dgram.header with ttl := dgram.header.ttl - 1 } }
      let next ← r.interface route.interfaceNum
      let iface ← next.sendDatagram dgram (route.nextHop.getD ip)
      return r.setInterface route.interfaceNum { next with toNetworkInterface := iface }

/-- The datagrams waiting at interface `n`. -/
def queue (r : Router) (n : ℕ) : List IPv4Datagram :=
  (r.interfaces[n]?.map (·.datagramsOut)).getD []

def popDatagram (r : Router) (n : ℕ) : Router :=
  { r with interfaces := r.interfaces.modify n fun i =>
      { i with datagramsOut := i.datagramsOut.tail } }

/-- The inner loop of `route` at interface `n`, at most `fuel` times. -/
def routeQueue (n : ℕ) : ℕ → Router → Except Thrown Router
  | 0, r => .ok r
  | fuel + 1, r =>
    match r.queue n with
    | [] => .ok r
    | dgram :: _ => do
      let r ← r.routeOneDatagram dgram
      routeQueue n fuel (r.popDatagram n)

-- The length of the queue is enough: no datagram joins a queue while it is routed.
def route (r : Router) : Except Thrown Router :=
  exec (fun r n => routeQueue n (r.queue n).length r) r (List.range r.interfaces.length)

end Router

inductive RouterOp where
  | recvFrame (n : ℕ) (frame : EthernetFrame)
  | tick (n : ℕ) (ms : ℕ)
  | route

def Router.step (r : Router) : RouterOp → Except Thrown Router
  | .recvFrame n frame => do
    let i ← (← r.interface n).recvFrame frame
    return r.setInterface n i
  | .tick n ms => do
    let i ← r.interface n
    return r.setInterface n { i with toNetworkInterface := i.tick ms }
  | .route => r.route

end Sponge
