import Sponge.Spec.FileDescriptor
import Sponge.Spec.NetworkInterface
import Sponge.Spec.TCPOverIPv4

/-! The adapters a socket is built over, from `fd_adapter.cc`, `tuntap_adapter.cc` and
`lossy_fd_adapter.hh` of `libsponge/tcp_helpers`: segments in UDP payloads, in IPv4 datagrams on a
TUN device, and in Ethernet frames on a TAP device. A device keeps what was written to it. -/

namespace Sponge

/-- The whole of an `FdAdapterConfig`, with the loss rates. -/
structure AdapterConfig extends FdAdapterConfig where
  lossRateDn : UInt16 := 0
  lossRateUp : UInt16 := 0
  deriving DecidableEq, Repr

/-- What `TCPSpongeSocket` asks of its template parameter. The device carries items of type `ω`;
a call reads from its surroundings a `δ`. -/
class FdAdapter (α : Type) (ω δ : outParam Type) where
  fd : α → FDWrapper
  sent : α → List ω
  configure : α → AdapterConfig → α
  setListening : α → Bool → α
  read : α → δ → Option ω → Except Raised (Option TCPSegment × α)
  write : α → δ → TCPSegment → Except Raised α
  tick : α → δ → ℕ → Except Raised α

/-- The exceptions of the packet formats, as those of a call on a descriptor. -/
def raise {β : Type} (x : Except Thrown β) : Except Raised β := x.mapError .thrown

/-- A descriptor whose writes are whole packets, with the packets written. -/
structure Device (ω : Type) where
  fd : FDWrapper := {}
  sent : List ω := []
  deriving DecidableEq, Repr

/-- The kernel's answers to the writes of one call, in order: it takes a packet whole, or the
call fails. -/
abbrev Writes := ℕ → Option Unit

namespace Device

variable {ω : Type}

def write (d : Device ω) (attempt : String) (answer : Option Unit) (w : ω) :
    Except Raised (Device ω) := do
  systemCall attempt answer
  .ok { fd := d.fd.registerWrite, sent := d.sent ++ [w] }

/-- Packets one after the other, from the `n`th write of the call on. -/
def writeAll (writes : Writes) : ℕ → Device ω → List ω → Except Raised (Device ω)
  | _, d, [] => .ok d
  | n, d, w :: ws => do
    let d ← d.write "writev" (writes n) w
    writeAll writes (n + 1) d ws

end Device

namespace UDPSocket

def MTU : ℕ := 65536

/-- The kernel answers a `recvfrom` with the sender's address and the payload. -/
def recv (fd : FDWrapper) (answer : Option (Address × Buffer)) :
    Except Raised ((Address × Buffer) × FDWrapper) := do
  let datagram ← systemCall "recvfrom" answer
  if MTU < datagram.2.length then .error (.thrown (.runtimeError "recvfrom (oversized datagram)"))
  else .ok (datagram, fd.registerRead)

end UDPSocket

structure TCPOverUDPSocketAdapter where
  config : FdAdapterConfig := {}
  listening : Bool := false
  sock : Device (Address × Buffer) := {}
  deriving DecidableEq, Repr

namespace TCPOverUDPSocketAdapter

def read (a : TCPOverUDPSocketAdapter) (answer : Option (Address × Buffer)) :
    Except Raised (Option TCPSegment × TCPOverUDPSocketAdapter) := do
  let ((sourceAddress, payload), fd) ← UDPSocket.recv a.sock.fd answer
  let a := { a with sock := { a.sock with fd } }
  if !a.listening ∧ sourceAddress ≠ a.config.destination then .ok (none, a)
  else
    let (result, seg) := ({} : TCPSegment).parse payload 0
    if result ≠ .noError then .ok (none, a)
    else if a.listening then
      if seg.header.syn ∧ !seg.header.rst then
        .ok (some seg, { a with
          config := { a.config with destination := sourceAddress }
          listening := false })
      else .ok (none, a)
    else .ok (some seg, a)

def write (a : TCPOverUDPSocketAdapter) (writes : Writes) (seg : TCPSegment) :
    Except Raised TCPOverUDPSocketAdapter := do
  let seg := { seg with header := { seg.header with
    sport := a.config.source.port
    dport := a.config.destination.port } }
  let payload ← raise (seg.serialize 0)
  let sock ← a.sock.write "sendmsg" (writes 0) (a.config.destination, payload.concatenate)
  .ok { a with sock }

instance : FdAdapter TCPOverUDPSocketAdapter (Address × Buffer) Writes where
  fd a := a.sock.fd
  sent a := a.sock.sent
  configure a cfg := { a with config := cfg.toFdAdapterConfig }
  setListening a l := { a with listening := l }
  read a _ := read a
  write := write
  tick a _ _ := .ok a

end TCPOverUDPSocketAdapter

structure TCPOverIPv4OverTunFdAdapter extends TCPOverIPv4Adapter where
  tun : Device Buffer := {}
  deriving DecidableEq, Repr

/-- The default limit of a read. -/
def maxRead : ℕ := 2 ^ 64 - 1

namespace TCPOverIPv4OverTunFdAdapter

def read (a : TCPOverIPv4OverTunFdAdapter) (answer : Option Buffer) :
    Except Raised (Option TCPSegment × TCPOverIPv4OverTunFdAdapter) := do
  let (bytes, fd) ← a.tun.fd.read maxRead answer
  let a := { a with tun := { a.tun with fd } }
  let (result, ipDgram) := ({} : IPv4Datagram).parse bytes
  if result ≠ .noError then .ok (none, a)
  else do
    let (seg, adapter) ← raise (a.unwrapTcpInIp ipDgram)
    .ok (seg, { a with toTCPOverIPv4Adapter := adapter })

def write (a : TCPOverIPv4OverTunFdAdapter) (writes : Writes) (seg : TCPSegment) :
    Except Raised TCPOverIPv4OverTunFdAdapter := do
  let (ipDgram, _) ← raise (a.wrapTcpInIp seg)
  let bytes ← raise ipDgram.serialize
  let tun ← a.tun.write "writev" (writes 0) bytes.concatenate
  .ok { a with tun }

instance : FdAdapter TCPOverIPv4OverTunFdAdapter Buffer Writes where
  fd a := a.tun.fd
  sent a := a.tun.sent
  configure a cfg := { a with config := cfg.toFdAdapterConfig }
  setListening a l := { a with listening := l }
  read a _ := read a
  write := write
  tick a _ _ := .ok a

end TCPOverIPv4OverTunFdAdapter

structure TCPOverIPv4OverEthernetAdapter extends TCPOverIPv4Adapter where
  tap : Device Buffer := {}
  interface : NetworkInterface
  nextHop : UInt32

namespace TCPOverIPv4OverEthernetAdapter

/-- The constructor, which sends a dummy frame. -/
def new (tap : Device Buffer) (ethAddress : EthernetAddress) (ipAddress nextHop : UInt32)
    (writes : Writes) : Except Raised TCPOverIPv4OverEthernetAdapter := do
  let dummyFrame : EthernetFrame := {}
  let tap ← tap.write "writev" (writes 0) dummyFrame.serialize.concatenate
  .ok { tap, interface := { ethernetAddress := ethAddress, ipAddress }, nextHop }

/-- Every frame on the interface's queue goes to the device. -/
def sendPending (a : TCPOverIPv4OverEthernetAdapter) (writes : Writes) :
    Except Raised TCPOverIPv4OverEthernetAdapter := do
  let tap ← Device.writeAll writes 0 a.tap (a.interface.framesOut.map (·.serialize.concatenate))
  .ok { a with tap, interface := { a.interface with framesOut := [] } }

def read (a : TCPOverIPv4OverEthernetAdapter) (writes : Writes) (answer : Option Buffer) :
    Except Raised (Option TCPSegment × TCPOverIPv4OverEthernetAdapter) := do
  let (bytes, fd) ← a.tap.fd.read maxRead answer
  let a := { a with tap := { a.tap with fd } }
  let (result, frame) := ({} : EthernetFrame).parse bytes
  if result ≠ .noError then .ok (none, a)
  else do
    let (ipDgram, interface) ← raise (a.interface.recvFrame frame)
    let a ← { a with interface }.sendPending writes
    match ipDgram with
    | some ipDgram => do
      let (seg, adapter) ← raise (a.unwrapTcpInIp ipDgram)
      .ok (seg, { a with toTCPOverIPv4Adapter := adapter })
    | none => .ok (none, a)

def tick (a : TCPOverIPv4OverEthernetAdapter) (writes : Writes) (ms : ℕ) :
    Except Raised TCPOverIPv4OverEthernetAdapter :=
  { a with interface := a.interface.tick ms }.sendPending writes

def write (a : TCPOverIPv4OverEthernetAdapter) (writes : Writes) (seg : TCPSegment) :
    Except Raised TCPOverIPv4OverEthernetAdapter := do
  let (ipDgram, _) ← raise (a.wrapTcpInIp seg)
  let interface ← raise (a.interface.sendDatagram ipDgram a.nextHop)
  { a with interface }.sendPending writes

instance : FdAdapter TCPOverIPv4OverEthernetAdapter Buffer Writes where
  fd a := a.tap.fd
  sent a := a.tap.sent
  configure a cfg := { a with config := cfg.toFdAdapterConfig }
  setListening a l := { a with listening := l }
  read := read
  write := write
  tick := tick

end TCPOverIPv4OverEthernetAdapter

/-- Each call of the underlying adapter comes with a draw of the generator. -/
structure LossyFdAdapter (α : Type) where
  adapter : α
  lossRateDn : UInt16 := 0
  lossRateUp : UInt16 := 0

namespace LossyFdAdapter

variable {α ω δ : Type} [FdAdapter α ω δ]

def shouldDrop (loss : UInt16) (draw : UInt32) : Bool := loss ≠ 0 && draw.toUInt16 < loss

/-- The datagram is read, and may change the adapter, before it is dropped. -/
def read (a : LossyFdAdapter α) (surroundings : UInt32 × δ) (answer : Option ω) :
    Except Raised (Option TCPSegment × LossyFdAdapter α) := do
  let (ret, adapter) ← FdAdapter.read a.adapter surroundings.2 answer
  .ok (if shouldDrop a.lossRateDn surroundings.1 then none else ret, { a with adapter })

def write (a : LossyFdAdapter α) (surroundings : UInt32 × δ) (seg : TCPSegment) :
    Except Raised (LossyFdAdapter α) :=
  if shouldDrop a.lossRateUp surroundings.1 then .ok a
  else do
    let adapter ← FdAdapter.write a.adapter surroundings.2 seg
    .ok { a with adapter }

def tick (a : LossyFdAdapter α) (surroundings : UInt32 × δ) (ms : ℕ) :
    Except Raised (LossyFdAdapter α) := do
  let adapter ← FdAdapter.tick a.adapter surroundings.2 ms
  .ok { a with adapter }

instance : FdAdapter (LossyFdAdapter α) ω (UInt32 × δ) where
  fd a := FdAdapter.fd a.adapter
  sent a := FdAdapter.sent a.adapter
  configure a cfg := {
    adapter := FdAdapter.configure a.adapter cfg
    lossRateDn := cfg.lossRateDn
    lossRateUp := cfg.lossRateUp }
  setListening a l := { a with adapter := FdAdapter.setListening a.adapter l }
  read := read
  write := write
  tick := tick

end LossyFdAdapter

end Sponge
