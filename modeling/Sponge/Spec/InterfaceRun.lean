import Sponge.Spec.NetworkInterface

/-! An interface in use: datagrams are given to it, frames arrive, time passes. The run
numbers the datagrams in the order they are given and follows each number; it also
remembers, for every address, how long ago the interface last asked for it and last
heard from it. -/

namespace Sponge

inductive InterfaceOp where
  | sendDatagram (dgram : IPv4Datagram) (nextHop : UInt32)
  | recvFrame (frame : EthernetFrame)
  | tick (ms : ℕ)

def EthernetFrame.isIPv4 (f : EthernetFrame) : Bool := f.header.type = EthernetHeader.TYPE_IPv4

/-- The ARP message in a frame, if `ARPMessage::parse` accepts it. -/
def EthernetFrame.arp (f : EthernetFrame) : Option ARPMessage :=
  if f.header.type = EthernetHeader.TYPE_ARP then
    match f.payload.toBuffer with
    | .ok b =>
      if (({} : ARPMessage).parse b).1 = .noError then some (({} : ARPMessage).parse b).2 else none
    | .error _ => none
  else none

/-- The frame is a broadcast that asks for the address `a`. -/
def EthernetFrame.asks (f : EthernetFrame) (a : UInt32) : Bool :=
  f.header.dst = ETHERNET_BROADCAST && f.arp.any fun m =>
    m.opcode = ARPMessage.OPCODE_REQUEST && m.targetIpAddress = a

namespace NetworkInterface

/-- The well-formed ARP message of a frame addressed to this interface or to all. -/
def hears (ethernetAddress : EthernetAddress) (frame : EthernetFrame) : Option ARPMessage :=
  if frame.header.dst = ethernetAddress ∨ frame.header.dst = ETHERNET_BROADCAST then frame.arp
  else none

/-- What the loop over the waiting datagrams has written out when it ends, or when one
of them throws. -/
def written : List IPv4Datagram → List BufferList
  | [] => []
  | d :: ds => match d.serialize with
    | .ok l => l :: written ds
    | .error _ => []

/-- The interface as `recv_frame` leaves it after an ARP message. If a datagram that
waited cannot be written out the loop throws, and the list of those waiting stays. -/
def leftByArp (i : NetworkInterface) (m : ARPMessage) : NetworkInterface :=
  let i := { i with
    arpTable := i.arpTable.insert m.senderIpAddress (m.senderEthernetAddress, 0) }
  let i := (i.answerRequest m).toOption.getD i
  match i.arpWaitIpdata.lookup m.senderIpAddress with
  | none => i
  | some data =>
    let i := (written data).foldl
      (fun i l => i.pushDatagram m.senderEthernetAddress EthernetHeader.TYPE_IPv4 l) i
    if (written data).length = data.length then
      { i with arpWaitIpdata := i.arpWaitIpdata.erase m.senderIpAddress }
    else i

/-- The interface as a call leaves it, whether it returns or throws. But for that loop,
everything that throws does so before anything is changed: a datagram that cannot be
written out to a known address, and a frame whose payload is in several buffers. -/
def left (i : NetworkInterface) : InterfaceOp → NetworkInterface
  | .sendDatagram dgram nextHop => (i.sendDatagram dgram nextHop).toOption.getD i
  | .recvFrame frame => match hears i.ethernetAddress frame with
    | some m => i.leftByArp m
    | none => i
  | .tick ms => i.tick ms

/-- The frames a call puts on the queue. -/
def emitted (i : NetworkInterface) (op : InterfaceOp) : List EthernetFrame :=
  (i.left op).framesOut.drop i.framesOut.length

end NetworkInterface

/-- `sends` are the calls of `send_datagram`, which number their datagrams. `carried` has
the number of the datagram in each IPv4 frame, `queued` those waiting for each next hop,
`dropped` those given up. `asked` is the time since an address was last asked for, and
`heard` the sender of the last ARP message from it with the time since. -/
structure InterfaceRun where
  interface : NetworkInterface
  sends : List (IPv4Datagram × UInt32)
  carried : List ℕ
  queued : UInt32 → List ℕ
  dropped : List ℕ
  asked : UInt32 → Option ℕ
  heard : UInt32 → Option (EthernetAddress × ℕ)

namespace InterfaceRun

def new (ethernetAddress : EthernetAddress) (ipAddress : UInt32) : InterfaceRun where
  interface := { ethernetAddress, ipAddress }
  sends := []
  carried := []
  queued _ := []
  dropped := []
  asked _ := none
  heard _ := none

/-- The numbers of the datagrams that the IPv4 frames of a call can carry, in order. -/
def candidates (r : InterfaceRun) : InterfaceOp → List ℕ
  | .sendDatagram _ _ => [r.sends.length]
  | .recvFrame frame => match NetworkInterface.hears r.interface.ethernetAddress frame with
    | some m => r.queued m.senderIpAddress
    | none => []
  | .tick _ => []

/-- A datagram sent to an unknown address waits; those whose waiting list is gone do not. -/
def queuedAfter (r : InterfaceRun) (op : InterfaceOp) (a : UInt32) : List ℕ :=
  if a ∈ (r.interface.left op).arpWaitIpdata then
    match op with
    | .sendDatagram _ hop =>
      if a = hop ∧ hop ∉ r.interface.arpTable then r.queued a ++ [r.sends.length] else r.queued a
    | _ => r.queued a
  else []

def droppedBy (r : InterfaceRun) : InterfaceOp → List ℕ
  | .tick ms => (r.interface.expired ms).flatMap r.queued
  | _ => []

/-- The time a call lets pass. -/
def passed : InterfaceOp → ℕ
  | .tick ms => ms
  | _ => 0

def askedAfter (r : InterfaceRun) (op : InterfaceOp) (a : UInt32) : Option ℕ :=
  if (r.interface.emitted op).any (·.asks a) then some 0 else (r.asked a).map (· + passed op)

def heardAfter (r : InterfaceRun) (op : InterfaceOp) (a : UInt32) : Option (EthernetAddress × ℕ) :=
  match op with
  | .recvFrame frame => match NetworkInterface.hears r.interface.ethernetAddress frame with
    | some m => if m.senderIpAddress = a then some (m.senderEthernetAddress, 0) else r.heard a
    | none => r.heard a
  | _ => (r.heard a).map fun e => (e.1, e.2 + passed op)

def step (r : InterfaceRun) (op : InterfaceOp) : InterfaceRun where
  interface := r.interface.left op
  sends := match op with
    | .sendDatagram dgram hop => r.sends ++ [(dgram, hop)]
    | _ => r.sends
  carried := r.carried ++
    (r.candidates op).take ((r.interface.emitted op).countP EthernetFrame.isIPv4)
  queued := r.queuedAfter op
  dropped := r.dropped ++ r.droppedBy op
  asked := r.askedAfter op
  heard := r.heardAfter op

def run (r : InterfaceRun) (ops : List InterfaceOp) : InterfaceRun := ops.foldl step r

end InterfaceRun

end Sponge
