import Mathlib.Data.Vector.Basic
import Sponge.Spec.Parser

/-! Ethernet frames and ARP messages of `libsponge/tcp_helpers`. -/

namespace Sponge

abbrev EthernetAddress := List.Vector Byte 6

def ETHERNET_BROADCAST : EthernetAddress := ⟨[0xff, 0xff, 0xff, 0xff, 0xff, 0xff], rfl⟩

/-- The address a value-initialised array holds. -/
def EthernetAddress.zero : EthernetAddress := ⟨[0, 0, 0, 0, 0, 0], rfl⟩

structure EthernetHeader where
  dst : EthernetAddress := .zero
  src : EthernetAddress := .zero
  type : UInt16 := 0
  deriving DecidableEq

namespace EthernetHeader

def TYPE_IPv4 : UInt16 := 0x800

def TYPE_ARP : UInt16 := 0x806

end EthernetHeader

structure EthernetFrame where
  header : EthernetHeader := {}
  payload : BufferList := []
  deriving DecidableEq

namespace ARPMessage

def LENGTH : ℕ := 28

def TYPE_ETHERNET : UInt16 := 1

def OPCODE_REQUEST : UInt16 := 1

def OPCODE_REPLY : UInt16 := 2

end ARPMessage

structure ARPMessage where
  hardwareType : UInt16 := ARPMessage.TYPE_ETHERNET
  protocolType : UInt16 := EthernetHeader.TYPE_IPv4
  hardwareAddressSize : UInt8 := 6
  protocolAddressSize : UInt8 := 4
  opcode : UInt16 := 0
  senderEthernetAddress : EthernetAddress := .zero
  senderIpAddress : UInt32 := 0
  targetEthernetAddress : EthernetAddress := .zero
  targetIpAddress : UInt32 := 0
  deriving DecidableEq

namespace ARPMessage

def supported (m : ARPMessage) : Bool :=
  m.hardwareType = TYPE_ETHERNET && m.protocolType = EthernetHeader.TYPE_IPv4 &&
  m.hardwareAddressSize = 6 && m.protocolAddressSize = 4 &&
  (m.opcode = OPCODE_REQUEST || m.opcode = OPCODE_REPLY)

def readAddress : StateM NetParser EthernetAddress := do
  let b0 ← NetParser.u8
  let b1 ← NetParser.u8
  let b2 ← NetParser.u8
  let b3 ← NetParser.u8
  let b4 ← NetParser.u8
  let b5 ← NetParser.u8
  return ⟨[b0, b1, b2, b3, b4, b5], rfl⟩

/-- The fields `parse` reads before it asks whether it supports them. -/
def readTypes (m : ARPMessage) : StateM NetParser ARPMessage := do
  let hardwareType ← NetParser.u16
  let protocolType ← NetParser.u16
  let hardwareAddressSize ← NetParser.u8
  let protocolAddressSize ← NetParser.u8
  let opcode ← NetParser.u16
  return { m with hardwareType, protocolType, hardwareAddressSize, protocolAddressSize, opcode }

def readAddresses (m : ARPMessage) : StateM NetParser ARPMessage := do
  let senderEthernetAddress ← readAddress
  let senderIpAddress ← NetParser.u32
  let targetEthernetAddress ← readAddress
  let targetIpAddress ← NetParser.u32
  return { m with senderEthernetAddress, senderIpAddress, targetEthernetAddress, targetIpAddress }

def parse (m : ARPMessage) (buffer : Buffer) : ParseResult × ARPMessage :=
  let p : NetParser := { buffer }
  if p.buffer.length < LENGTH then (.packetTooShort, m)
  else
    let (m, p) := m.readTypes p
    if !m.supported then (.unsupported, m)
    else
      let (m, p) := m.readAddresses p
      (p.error, m)

def serialize (m : ARPMessage) : Except Thrown Buffer :=
  if !m.supported then .error (.runtimeError
    "ARPMessage::serialize(): unsupported field combination (must be Ethernet/IP, and request or reply)")
  else .ok (
    NetUnparser.u16 m.hardwareType ++ NetUnparser.u16 m.protocolType ++
    NetUnparser.u8 m.hardwareAddressSize ++ NetUnparser.u8 m.protocolAddressSize ++
    NetUnparser.u16 m.opcode ++
    m.senderEthernetAddress.toList.flatMap NetUnparser.u8 ++ NetUnparser.u32 m.senderIpAddress ++
    m.targetEthernetAddress.toList.flatMap NetUnparser.u8 ++ NetUnparser.u32 m.targetIpAddress)

end ARPMessage

namespace EthernetHeader

def LENGTH : ℕ := 14

/-- Every field, in the order `parse` reads them. -/
def readFields : StateM NetParser EthernetHeader := do
  let dst ← ARPMessage.readAddress
  let src ← ARPMessage.readAddress
  let type ← NetParser.u16
  return { dst, src, type }

/-- A short buffer is refused without an error in the parser. -/
def parse (h : EthernetHeader) (p : NetParser) : ParseResult × EthernetHeader × NetParser :=
  if p.buffer.length < LENGTH then (.packetTooShort, h, p)
  else
    let (h, p) := readFields p
    (p.error, h, p)

def serialize (h : EthernetHeader) : Buffer :=
  h.dst.toList.flatMap NetUnparser.u8 ++ h.src.toList.flatMap NetUnparser.u8 ++
  NetUnparser.u16 h.type

end EthernetHeader

namespace EthernetFrame

/-- What the header's parser returns is dropped. -/
def parse (f : EthernetFrame) (buffer : Buffer) : ParseResult × EthernetFrame :=
  let (_, header, p) := f.header.parse { buffer }
  (p.error, { header, payload := [p.buffer] })

def serialize (f : EthernetFrame) : BufferList := f.header.serialize :: f.payload

end EthernetFrame

end Sponge
