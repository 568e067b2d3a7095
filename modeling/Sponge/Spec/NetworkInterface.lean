import Sponge.Lib.Table
import Sponge.Spec.Ethernet
import Sponge.Spec.IPv4

/-! The network interface of `libsponge/network_interface.cc`. IP addresses are the
32-bit numbers `Address::ipv4_numeric` gives. -/

namespace Sponge

structure NetworkInterface where
  ethernetAddress : EthernetAddress
  ipAddress : UInt32
  framesOut : List EthernetFrame := []
  arpTable : Table UInt32 (EthernetAddress × ℕ) := ∅
  arpRequestTime : Table UInt32 ℕ := ∅
  arpWaitIpdata : Table UInt32 (List IPv4Datagram) := ∅

namespace NetworkInterface

def ARP_ENTRY_TTL_MS : ℕ := 30000

def ARP_REPLY_TTL_MS : ℕ := 5000

def pushDatagram (i : NetworkInterface) (dst : EthernetAddress) (type : UInt16)
    (payload : BufferList) : NetworkInterface :=
  { i with framesOut := i.framesOut ++ [⟨⟨dst, i.ethernetAddress, type⟩, payload⟩] }

def arpRequest (i : NetworkInterface) (nextHop : UInt32) : ARPMessage :=
  { opcode := ARPMessage.OPCODE_REQUEST
    senderEthernetAddress := i.ethernetAddress
    senderIpAddress := i.ipAddress
    targetIpAddress := nextHop }

def arpReply (i : NetworkInterface) (m : ARPMessage) : ARPMessage :=
  { opcode := ARPMessage.OPCODE_REPLY
    senderIpAddress := i.ipAddress
    senderEthernetAddress := i.ethernetAddress
    targetIpAddress := m.senderIpAddress
    targetEthernetAddress := m.senderEthernetAddress }

def sendDatagram (i : NetworkInterface) (dgram : IPv4Datagram) (nextHop : UInt32) :
    Except Thrown NetworkInterface :=
  match i.arpTable.lookup nextHop with
  | some (dst, _) => do
    return i.pushDatagram dst EthernetHeader.TYPE_IPv4 (← dgram.serialize)
  | none =>
    match i.arpRequestTime.lookup nextHop with
    | none => do
      let i := i.pushDatagram ETHERNET_BROADCAST EthernetHeader.TYPE_ARP
        [← (i.arpRequest nextHop).serialize]
      return { i with
        arpRequestTime := i.arpRequestTime.emplace nextHop 0
        arpWaitIpdata := i.arpWaitIpdata.emplace nextHop [dgram] }
    | some _ => .ok { i with
        arpWaitIpdata := i.arpWaitIpdata.insert nextHop
          ((i.arpWaitIpdata.lookup nextHop).getD [] ++ [dgram]) }

/-- The datagrams that waited for an address, one frame each. -/
def sendWaiting (dst : EthernetAddress) : NetworkInterface → List IPv4Datagram →
    Except Thrown NetworkInterface
  | i, [] => .ok i
  | i, d :: ds => do
    let i := i.pushDatagram dst EthernetHeader.TYPE_IPv4 (← d.serialize)
    sendWaiting dst i ds

def answerRequest (i : NetworkInterface) (m : ARPMessage) : Except Thrown NetworkInterface :=
  if m.opcode = ARPMessage.OPCODE_REQUEST ∧ m.targetIpAddress = i.ipAddress then do
    let reply ← (i.arpReply m).serialize
    return i.pushDatagram m.senderEthernetAddress EthernetHeader.TYPE_ARP [reply]
  else .ok i

def releaseWaiting (i : NetworkInterface) (m : ARPMessage) : Except Thrown NetworkInterface :=
  match i.arpWaitIpdata.lookup m.senderIpAddress with
  | none => .ok i
  | some data => do
    let i ← i.sendWaiting m.senderEthernetAddress data
    return { i with arpWaitIpdata := i.arpWaitIpdata.erase m.senderIpAddress }

/-- What `recv_frame` does with an ARP message it could parse. -/
def recvArp (i : NetworkInterface) (m : ARPMessage) : Except Thrown NetworkInterface := do
  let i := { i with
    arpTable := i.arpTable.insert m.senderIpAddress (m.senderEthernetAddress, 0) }
  let i ← i.answerRequest m
  i.releaseWaiting m

def recvFrame (i : NetworkInterface) (frame : EthernetFrame) :
    Except Thrown (Option IPv4Datagram × NetworkInterface) :=
  if ¬(frame.header.dst = i.ethernetAddress ∨ frame.header.dst = ETHERNET_BROADCAST) then
    .ok (none, i)
  else if frame.header.type = EthernetHeader.TYPE_IPv4 then do
    let (result, ipData) := ({} : IPv4Datagram).parse (← frame.payload.toBuffer)
    return (if result = .noError then some ipData else none, i)
  else if frame.header.type = EthernetHeader.TYPE_ARP then do
    let (result, arpData) := ({} : ARPMessage).parse (← frame.payload.toBuffer)
    if result ≠ .noError then return (none, i)
    else return (none, ← i.recvArp arpData)
  else .ok (none, i)

/-- The requests that reach their limit in this tick. -/
def expired (i : NetworkInterface) (ms : ℕ) : List UInt32 :=
  (i.arpRequestTime.entries.filter fun e => ARP_REPLY_TTL_MS ≤ uadd e.2 ms).map Sigma.fst

def tick (i : NetworkInterface) (ms : ℕ) : NetworkInterface :=
  { i with
    arpTable := i.arpTable.sweep fun e =>
      if ARP_ENTRY_TTL_MS ≤ uadd e.2 ms then none else some (e.1, uadd e.2 ms)
    arpRequestTime := i.arpRequestTime.sweep fun t =>
      if ARP_REPLY_TTL_MS ≤ uadd t ms then none else some (uadd t ms)
    arpWaitIpdata := i.arpWaitIpdata.eraseAll (i.expired ms) }

end NetworkInterface

end Sponge
