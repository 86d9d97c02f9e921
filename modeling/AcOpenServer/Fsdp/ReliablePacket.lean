import AcOpenServer.Binary

namespace AcOpenServer
open Library
set_option autoImplicit true

/-- The enumeration is a `byte` that is read from the network, so any value can occur. -/
structure FsdpOpcode where
  value : UInt8
  deriving DecidableEq, Repr

/-- The struct in memory, with the byte of padding that follows its fields. -/
structure FsdpReliablePacketHeader where
  magic : UInt16
  ack1 : UInt8
  ack2 : UInt8
  ack3 : UInt8
  opcode : FsdpOpcode
  unk06 : UInt8
  padding : UInt8
  deriving DecidableEq, Repr

namespace FsdpReliablePacketHeader

/-- The constant `Length`, the sum of the sizes of the fields. -/
def length : Nat := 2 + 1 + 1 + 1 + 1 + 1

def fields : FsdpReliablePacketHeader ≃
    UInt16 × UInt8 × UInt8 × UInt8 × UInt8 × UInt8 × UInt8 where
  toFun h := (h.magic, h.ack1, h.ack2, h.ack3, h.opcode.value, h.unk06, h.padding)
  invFun f := ⟨f.1, f.2.1, f.2.2.1, f.2.2.2.1, ⟨f.2.2.2.2.1⟩, f.2.2.2.2.2.1, f.2.2.2.2.2.2⟩
  left_inv _ := rfl
  right_inv _ := rfl

instance : Layout FsdpReliablePacketHeader := Layout.ofEquiv fields

instance : Sequential FsdpReliablePacketHeader where
  fieldSizes := [2, 1, 1, 1, 1, 1]
  size_eq := rfl

@[simp] theorem size_eq : Layout.size FsdpReliablePacketHeader = 8 := rfl

def localAck (h : FsdpReliablePacketHeader) : Int :=
  let upperNibble := (h.ack2.toUInt32 &&& 0xf0) >>> 4
  (h.ack1.toUInt32 ||| (upperNibble <<< 8)).toNat

def remoteAck (h : FsdpReliablePacketHeader) : Int :=
  let lowerNibble := h.ack2.toUInt32 &&& 0x0f
  (h.ack3.toUInt32 ||| (lowerNibble <<< 8)).toNat

end FsdpReliablePacketHeader

structure FsdpReliablePacket where
  header : FsdpReliablePacketHeader
  localAckCache : Int
  remoteAckCache : Int
  payload : List UInt8
  deriving DecidableEq, Repr

/-- `new FsdpReliablePacket(header, payload)`. -/
def FsdpReliablePacket.new (header : FsdpReliablePacketHeader) (payload : List UInt8) :
    FsdpReliablePacket where
  header
  localAckCache := header.localAck
  remoteAckCache := header.remoteAck
  payload

namespace FsdpReliablePacketClient

def read (buffer : Span) : Codec FsdpReliablePacket := do
  if buffer.length < FsdpReliablePacketHeader.length then
    throw (.fsdpReliable
      "Buffer is too short for required FsdpReliablePacketHeader to exist.")
  else
    let header ← BinaryBufferReader.read FsdpReliablePacketHeader buffer 0
    return .new header (← buffer.sliceFrom FsdpReliablePacketHeader.length)

end FsdpReliablePacketClient

end AcOpenServer
