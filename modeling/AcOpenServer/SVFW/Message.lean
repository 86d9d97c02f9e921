import AcOpenServer.SVFW.Packet

namespace AcOpenServer
open Library
set_option autoImplicit true

/-- The enumeration is an `int` that is read from the network, so any value can occur. -/
structure SVFWMessageType where
  value : UInt32
  deriving DecidableEq, Repr

namespace SVFWMessageType

def reply : SVFWMessageType := ⟨0⟩
def keyMaterial : SVFWMessageType := ⟨1⟩
def ticket : SVFWMessageType := ⟨3⟩
def getServiceStatus : SVFWMessageType := ⟨2⟩
def requestQueryLoginServerInfo : SVFWMessageType := ⟨5⟩
def requestHandshake : SVFWMessageType := ⟨6⟩

end SVFWMessageType

structure SVFWMessageHeader where
  headerSize : UInt32
  messageType : SVFWMessageType
  messageIndex : UInt32
  deriving DecidableEq, Repr

namespace SVFWMessageHeader

def fields : SVFWMessageHeader ≃ UInt32 × UInt32 × UInt32 where
  toFun h := (h.headerSize, h.messageType.value, h.messageIndex)
  invFun f := ⟨f.1, ⟨f.2.1⟩, f.2.2⟩
  left_inv _ := rfl
  right_inv _ := rfl

instance : Layout SVFWMessageHeader := Layout.ofEquiv fields

instance : Sequential SVFWMessageHeader where
  fieldSizes := [4, 4, 4]
  size_eq := rfl

@[simp] theorem size_eq : Layout.size SVFWMessageHeader = 12 := rfl

def new : SVFWMessageHeader := ⟨12, .reply, 0⟩

def swapEndian (h : SVFWMessageHeader) : SVFWMessageHeader where
  headerSize := reverseEndianness h.headerSize
  messageType := ⟨reverseEndianness h.messageType.value⟩
  messageIndex := reverseEndianness h.messageIndex

@[simp] theorem swapEndian_swapEndian (h : SVFWMessageHeader) :
    h.swapEndian.swapEndian = h := by
  simp only [swapEndian, reverseEndianness_reverseEndianness]

end SVFWMessageHeader

structure SVFWMessageResponseHeader where
  unk00 : UInt32
  unk04 : UInt32
  unk08 : UInt32
  unk0C : UInt32
  deriving DecidableEq, Repr

namespace SVFWMessageResponseHeader

def fields : SVFWMessageResponseHeader ≃ UInt32 × UInt32 × UInt32 × UInt32 where
  toFun h := (h.unk00, h.unk04, h.unk08, h.unk0C)
  invFun f := ⟨f.1, f.2.1, f.2.2.1, f.2.2.2⟩
  left_inv _ := rfl
  right_inv _ := rfl

instance : Layout SVFWMessageResponseHeader := Layout.ofEquiv fields

instance : Sequential SVFWMessageResponseHeader where
  fieldSizes := [4, 4, 4, 4]
  size_eq := rfl

@[simp] theorem size_eq : Layout.size SVFWMessageResponseHeader = 16 := rfl

def new : SVFWMessageResponseHeader := ⟨0, 1, 0, 0⟩

def swapEndian (h : SVFWMessageResponseHeader) : SVFWMessageResponseHeader where
  unk00 := reverseEndianness h.unk00
  unk04 := reverseEndianness h.unk04
  unk08 := reverseEndianness h.unk08
  unk0C := reverseEndianness h.unk0C

@[simp] theorem swapEndian_swapEndian (h : SVFWMessageResponseHeader) :
    h.swapEndian.swapEndian = h := by
  simp only [swapEndian, reverseEndianness_reverseEndianness]

end SVFWMessageResponseHeader

structure SVFWMessage where
  header : SVFWMessageHeader
  responseHeader : Option SVFWMessageResponseHeader
  payload : List UInt8
  deriving DecidableEq, Repr

/-- `new SVFWMessage(payload)`. -/
def SVFWMessage.new (payload : List UInt8) : SVFWMessage := ⟨.new, none, payload⟩

/-- `default(SVFWPacketHeader)`. -/
def SVFWPacketHeader.zero : SVFWPacketHeader := ⟨0, 0, 0, 0, 0⟩

namespace SVFWMessageClient

def messageHeaderSize : Nat := 12

def messageResponseHeaderSize : Nat := 16

def read (buffer : Span) : Codec SVFWMessage := do
  if buffer.length < messageHeaderSize then
    throw (.svfwMessage (s!"Message is too small to have a header; " ++
      s!"Size: {buffer.length}; Minimum Expected: {messageHeaderSize}"))
  else
    let header := (← BinaryBufferReader.read SVFWMessageHeader buffer 0).swapEndian
    let payloadOffset :=
      if header.messageType = .reply then messageHeaderSize + messageResponseHeaderSize
      else messageHeaderSize
    let responseHeader ← (if header.messageType = .reply then
      if buffer.length < payloadOffset then
        throw (.svfwMessage (s!"Message is a reply, but is too small to have a response " ++
          s!"header; Size: {buffer.length}; Minimum Expected: {payloadOffset}"))
      else do
        -- `responseHeader.Value.SwapEndian()` swaps a copy that is dropped
        return some (← BinaryBufferReader.read SVFWMessageResponseHeader buffer messageHeaderSize)
    else
      return none)
    let payloadLength := buffer.length - payloadOffset
    let payload ← (if payloadLength = payloadOffset then pure []
      else buffer.sliceFrom payloadOffset)
    return { header, responseHeader, payload }

def write (message : SVFWMessage) : Codec SVFWPacket := do
  let isReply : Bool := message.header.messageType = .reply
  let messageSize := messageHeaderSize
    + (if isReply then messageResponseHeaderSize else 0)
    + message.payload.length
  let buffer ← newArray messageSize
  let header := message.header.swapEndian
  let buffer ← BinaryBufferWriter.write buffer 0 header
  let payloadOffset :=
    if isReply then messageHeaderSize + messageResponseHeaderSize else messageHeaderSize
  let buffer ← (if isReply then
    match message.responseHeader with
    | some responseHeader =>
      BinaryBufferWriter.write buffer messageHeaderSize responseHeader.swapEndian
    | none => throw .invalidOperation
  else
    pure buffer)
  let buffer ← arrayCopy message.payload 0 buffer payloadOffset message.payload.length
  return ⟨.zero, buffer⟩

/-- A message has a response header exactly when it is a reply. -/
def Consistent (header : SVFWMessageHeader)
    (responseHeader : Option SVFWMessageResponseHeader) : Prop :=
  responseHeader.isSome ↔ header.messageType = .reply

def payloadOffset (header : SVFWMessageHeader) : Nat :=
  if header.messageType = .reply then 28 else 12

/-- A message with its response header in the byte order of the machine. -/
def messageBytes (header : SVFWMessageHeader) (responseHeader : Option SVFWMessageResponseHeader)
    (payload : List UInt8) : List UInt8 :=
  Layout.encode header.swapEndian ++ ((responseHeader.map Layout.encode).getD [] ++ payload)

variable {header : SVFWMessageHeader} {responseHeader : Option SVFWMessageResponseHeader}
  {payload : List UInt8} {beyond : Nat → UInt8}

theorem Consistent.eq_some (h : Consistent header responseHeader)
    (hr : header.messageType = .reply) : ∃ r, responseHeader = some r :=
  Option.isSome_iff_exists.1 (h.2 hr)

theorem Consistent.eq_none (h : Consistent header responseHeader)
    (hr : ¬ header.messageType = .reply) : responseHeader = none := by
  cases responseHeader with
  | none => rfl
  | some r => exact (hr (h.1 rfl)).elim

theorem payloadOffset_pos (header : SVFWMessageHeader) : 0 < payloadOffset header := by
  unfold payloadOffset
  split <;> omega

theorem length_messageBytes (payload : List UInt8) (h : Consistent header responseHeader) :
    (messageBytes header responseHeader payload).length =
      payloadOffset header + payload.length := by
  by_cases hr : header.messageType = .reply
  · obtain ⟨r, rfl⟩ := h.eq_some hr
    simp only [messageBytes, Option.map_some, Option.getD_some, List.length_append,
      Layout.length_encode, SVFWMessageHeader.size_eq, SVFWMessageResponseHeader.size_eq,
      payloadOffset, if_pos hr]
    omega
  · rw [h.eq_none hr]
    simp only [messageBytes, Option.map_none, Option.getD_none, List.nil_append,
      List.length_append, Layout.length_encode, SVFWMessageHeader.size_eq, payloadOffset,
      if_neg hr]

theorem messageBytes_injective {r r' : Option SVFWMessageResponseHeader} {p p' : List UInt8}
    (h : Consistent header r) (h' : Consistent header r')
    (he : messageBytes header r p = messageBytes header r' p') : r = r' ∧ p = p' := by
  have hrest := List.append_cancel_left he
  by_cases hr : header.messageType = .reply
  · obtain ⟨a, rfl⟩ := h.eq_some hr
    obtain ⟨b, rfl⟩ := h'.eq_some hr
    simp only [Option.map_some, Option.getD_some] at hrest
    obtain ⟨hab, hp⟩ := List.append_inj hrest
      ((Layout.length_encode a).trans (Layout.length_encode b).symm)
    exact ⟨congrArg some (Layout.encode_injective hab), hp⟩
  · rw [h.eq_none hr, h'.eq_none hr] at hrest
    exact ⟨(h.eq_none hr).trans (h'.eq_none hr).symm, hrest⟩

end SVFWMessageClient

end AcOpenServer
