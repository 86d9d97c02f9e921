import AcOpenServer.Binary
import AcOpenServer.Tcp

namespace AcOpenServer
open Library
set_option autoImplicit true

structure SVFWPacketHeader where
  sendCounter : UInt16
  unk02 : UInt16
  payloadLength : UInt32
  unk08 : UInt16
  payloadLengthShort : UInt16
  deriving DecidableEq, Repr

namespace SVFWPacketHeader

def fields : SVFWPacketHeader ≃ UInt16 × UInt16 × UInt32 × UInt16 × UInt16 where
  toFun h := (h.sendCounter, h.unk02, h.payloadLength, h.unk08, h.payloadLengthShort)
  invFun f := ⟨f.1, f.2.1, f.2.2.1, f.2.2.2.1, f.2.2.2.2⟩
  left_inv _ := rfl
  right_inv _ := rfl

instance : Layout SVFWPacketHeader := Layout.ofEquiv fields

instance : Sequential SVFWPacketHeader where
  fieldSizes := [2, 2, 4, 2, 2]
  size_eq := rfl

@[simp] theorem size_eq : Layout.size SVFWPacketHeader = 12 := rfl

def swapEndian (h : SVFWPacketHeader) : SVFWPacketHeader :=
  { h with
    sendCounter := reverseEndianness h.sendCounter
    payloadLength := reverseEndianness h.payloadLength
    payloadLengthShort := reverseEndianness h.payloadLengthShort }

@[simp] theorem swapEndian_swapEndian (h : SVFWPacketHeader) : h.swapEndian.swapEndian = h := by
  simp only [swapEndian, reverseEndianness_reverseEndianness]

end SVFWPacketHeader

structure SVFWPacket where
  header : SVFWPacketHeader
  payload : List UInt8
  deriving DecidableEq, Repr

/-- The state of `SVFWPacketClient`; `sent` are the packets handed to `SendAsync`, with the
header it gave them, and `received` those `Received` was raised with. -/
structure SVFWPacketClient where
  client : NetTcpClient
  receivingPrefix : Bool
  expectingCount : Nat
  packetsSent : UInt16
  disposedValue : Bool
  sent : List SVFWPacket
  received : List SVFWPacket
  deriving DecidableEq, Repr

namespace SVFWPacketClient

def packetHeaderSize : Nat := 12

def new (client : NetTcpClient) : SVFWPacketClient where
  client
  receivingPrefix := true
  expectingCount := 0
  packetsSent := 0
  disposedValue := false
  sent := []
  received := []

/-- `ReceiveAsync` up to the call of the loop in `NetTcpClient.ReceiveAsync`. -/
def startReceive (c : SVFWPacketClient) : SVFWPacketClient :=
  { c with
    expectingCount := 2
    client := { c.client with buffer := some (List.replicate 2 0) } }

def read (buffer : Span) : Codec SVFWPacket := do
  let header := (← BinaryBufferReader.read SVFWPacketHeader buffer 0).swapEndian
  let payload ← (if buffer.length = packetHeaderSize then pure []
    else buffer.sliceFrom packetHeaderSize)
  if payload.length ≠ header.payloadLength.toNat then
    throw (.svfwPacket (s!"Detected invalid payload length; " ++
      s!"Length: {header.payloadLength}; Expected: {payload.length}"))
  else
    return { header, payload }

def write (packet : SVFWPacket) (buffer : List UInt8) (offset : Nat) : Codec (List UInt8) := do
  let header := packet.header.swapEndian
  let buffer ← BinaryBufferWriter.write buffer offset header
  arrayCopy packet.payload 0 buffer (offset + packetHeaderSize) packet.payload.length

/-- The header fields `SendAsync` fills in. -/
def stamp (counter : UInt16) (packet : SVFWPacket) : SVFWPacket :=
  { packet with
    header :=
      { packet.header with
        sendCounter := counter
        payloadLength := UInt32.ofNat packet.payload.length
        payloadLengthShort := UInt16.ofNat packet.payload.length } }

/-- The array `SendAsync` hands to the connection for a packet it has stamped. -/
def serialize (packet : SVFWPacket) : Codec (List UInt8) := do
  let packetSize := packetHeaderSize + packet.payload.length
  let buffer ← newArray (2 + packetSize)
  let packetLengthPrefix : UInt16 := reverseEndianness (UInt16.ofNat packetSize)
  let buffer ← BinaryBufferWriter.write buffer 0 packetLengthPrefix
  write packet buffer 2

def onClient (m : EStateM Exn NetTcpClient α) : EStateM Exn SVFWPacketClient α :=
  zoom (·.client) (fun client c => { c with client }) m

def sendAsync (task : Option WriteTask) (packet : SVFWPacket) :
    EStateM Exn SVFWPacketClient WriteTask := do
  modify fun c => { c with packetsSent := c.packetsSent + 1 }
  let packet := stamp (← get).packetsSent packet
  modify fun c => { c with sent := c.sent ++ [packet] }
  let buffer ← (serialize packet).toAction
  onClient (NetTcpClient.sendAsync task buffer)

/-- `OnReceived`, with `beyond` the memory behind the receive buffer. -/
def onReceived (beyond : Nat → UInt8) (received : Nat) : EStateM Exn SVFWPacketClient Unit := do
  let c ← get
  let buffer : Span := ⟨c.client.buffer.getD [], beyond⟩
  if c.receivingPrefix then
    if received < c.expectingCount then
      throw (.svfwPacket (s!"Packet prefix length too small; " ++
        s!"Received: {received}; Minimum Expected: {c.expectingCount}"))
    else
      let packetLength ← (BinaryBufferReader.readUInt16BigEndian buffer 0).toAction
      if packetLength.toNat < packetHeaderSize then
        throw (.svfwPacket (s!"Packet is too small to contain a header; " ++
          s!"Length: {packetLength}; Minimum Expected: {packetHeaderSize}"))
      else
        let array ← (newArray packetLength.toNat).toAction
        modify fun c => { c with
          expectingCount := packetLength.toNat
          client := { c.client with buffer := some array }
          receivingPrefix := false }
  else
    if received < c.expectingCount then
      throw (.svfwPacket (s!"Packet data length too small; " ++
        s!"Received: {received}; Minimum Expected: {c.expectingCount}"))
    else
      let packet ← (read buffer).toAction
      modify fun c => { c with received := c.received ++ [packet] }
      let array ← (newArray 2).toAction
      modify fun c => { c with
        expectingCount := 2
        client := { c.client with buffer := some array }
        receivingPrefix := true }

/-- One pass through the loop of `NetTcpClient.ReceiveAsync` in which `ReadAsync` returned
the bytes of `segment`. -/
def readAsync (beyond : Nat → UInt8) (segment : List UInt8) :
    EStateM Exn SVFWPacketClient Unit := do
  modify fun c => { c with client := c.client.fill segment }
  if segment.length > 0 then onReceived beyond segment.length else pure ()

/-- The loop itself, over the segments the reads return; it ends at the first exception. -/
def receiveAsync (beyond : Nat → UInt8) : List (List UInt8) → EStateM Exn SVFWPacketClient Unit
  | [] => pure ()
  | segment :: segments => do
    readAsync beyond segment
    receiveAsync beyond segments

/-- Send packets one after another over a stream that completes every write. -/
def sendAll : List SVFWPacket → EStateM Exn SVFWPacketClient Unit
  | [] => pure ()
  | packet :: packets => do
    let _ ← sendAsync (some .completed) packet
    sendAll packets

def dispose (c : SVFWPacketClient) : SVFWPacketClient :=
  if c.disposedValue then c
  else { c with client := c.client.dispose, disposedValue := true }

end SVFWPacketClient

end AcOpenServer
