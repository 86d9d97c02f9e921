import AcOpenServer.SVFW.Packet

namespace AcOpenServer
open Library
set_option autoImplicit true

namespace SVFWPacketClient

/-- The two bytes in front of a packet. -/
def framePrefix (packet : SVFWPacket) : List UInt8 :=
  (Layout.encode (UInt16.ofNat (packetHeaderSize + packet.payload.length))).reverse

def frameBody (packet : SVFWPacket) : List UInt8 :=
  Layout.encode packet.header.swapEndian ++ packet.payload

def frame (packet : SVFWPacket) : List UInt8 := framePrefix packet ++ frameBody packet

@[simp] theorem length_framePrefix (packet : SVFWPacket) : (framePrefix packet).length = 2 := by
  simp only [framePrefix, List.length_reverse, Layout.length_encode, Layout.size_uint16]

@[simp] theorem length_frameBody (packet : SVFWPacket) :
    (frameBody packet).length = 12 + packet.payload.length := by
  simp only [frameBody, List.length_append, Layout.length_encode, SVFWPacketHeader.size_eq]

theorem result_write (packet : SVFWPacket) (start : List UInt8) (h : start.length = 2) :
    (write packet (start ++ List.replicate (12 + packet.payload.length) 0) 2).result =
      .ok (start ++ frameBody packet) := by
  have hsplit : List.replicate (12 + packet.payload.length) (0 : UInt8) =
      List.replicate 12 0 ++ (List.replicate packet.payload.length 0 ++ []) := by
    rw [List.append_nil, List.replicate_append_replicate]
  have hw := BinaryBufferWriter.write_append packet.header.swapEndian
    (c := List.replicate packet.payload.length 0 ++ []) h
    (List.length_replicate (n := 12) (a := (0 : UInt8))) (by simp)
  have hlen : (start ++ Layout.encode packet.header.swapEndian).length =
      2 + packetHeaderSize := by
    simp only [List.length_append, h, Layout.length_encode, SVFWPacketHeader.size_eq,
      packetHeaderSize]
  have hcopy : arrayCopy packet.payload 0 ((start ++ Layout.encode packet.header.swapEndian) ++
      (List.replicate packet.payload.length 0 ++ [])) (2 + packetHeaderSize)
      packet.payload.length = pure (start ++ frameBody packet) := by
    rw [arrayCopy_append packet.payload hlen List.length_replicate, List.append_nil, frameBody,
      List.append_assoc]
  rw [write, hsplit, Traced.bind_of_ok _ (congrArg Traced.result hw), ← List.append_assoc, hcopy]
  rfl

theorem result_serialize (packet : SVFWPacket) (h : packet.payload.length + 14 ≤ maxArrayLength) :
    (serialize packet).result = .ok (frame packet) := by
  have hnew : (newArray (2 + (packetHeaderSize + packet.payload.length))).result =
      .ok ([] ++ (List.replicate 2 0 ++ List.replicate (12 + packet.payload.length) 0)) := by
    rw [newArray_of_le (by simp only [packetHeaderSize]; omega), List.nil_append,
      List.replicate_append_replicate]
    rfl
  have hw := BinaryBufferWriter.write_append
    (reverseEndianness (UInt16.ofNat (packetHeaderSize + packet.payload.length)))
    (c := List.replicate (12 + packet.payload.length) 0) (List.length_nil (α := UInt8))
    (List.length_replicate (n := 2) (a := (0 : UInt8))) (by simp)
  rw [serialize, Traced.result_bind_of_ok _ hnew,
    Traced.result_bind_of_ok _ (congrArg Traced.result hw), encode_reverseEndianness,
    List.nil_append]
  exact result_write packet _ (length_framePrefix packet)

theorem result_read (header : SVFWPacketHeader) (payload : List UInt8) (beyond : Nat → UInt8) :
    (read ⟨Layout.encode header.swapEndian ++ payload, beyond⟩).result =
      if payload.length = header.payloadLength.toNat then .ok ⟨header, payload⟩
      else .error (.svfwPacket (s!"Detected invalid payload length; " ++
        s!"Length: {header.payloadLength}; Expected: {payload.length}")) := by
  generalize hb : (⟨Layout.encode header.swapEndian ++ payload, beyond⟩ : Span) = buffer
  have hlen : buffer.length = 12 + payload.length := by
    rw [← hb]
    simp only [Span.length, List.length_append, Layout.length_encode, SVFWPacketHeader.size_eq]
  have hdrop : buffer.bytes.drop packetHeaderSize = payload := by
    rw [← hb]
    exact List.drop_left' (Layout.length_encode _)
  have htake : buffer.window 0 (Layout.size SVFWPacketHeader) =
      Layout.encode header.swapEndian := by
    rw [Span.window_of_le (by rw [SVFWPacketHeader.size_eq]; omega), List.drop_zero, ← hb]
    exact List.take_left' (Layout.length_encode _)
  have hheader : (BinaryBufferReader.read SVFWPacketHeader buffer 0).result =
      .ok header.swapEndian := by
    rw [BinaryBufferReader.read_of_lt (by omega), htake, Layout.decode_encode]
  have hpayload : (if buffer.length = packetHeaderSize then pure []
      else buffer.sliceFrom packetHeaderSize).result = .ok payload := by
    split
    · rename_i h
      have hnil : payload = [] := by
        apply List.eq_nil_of_length_eq_zero
        simp only [packetHeaderSize] at h
        omega
      rw [hnil]
      rfl
    · rw [Span.sliceFrom_of_le (by rw [hlen]; exact Nat.le_add_right _ _), hdrop]
  rw [read, Traced.result_bind_of_ok _ hheader, Traced.result_bind_of_ok _ hpayload,
    SVFWPacketHeader.swapEndian_swapEndian, ite_not]
  split <;> rfl

end SVFWPacketClient

end AcOpenServer
