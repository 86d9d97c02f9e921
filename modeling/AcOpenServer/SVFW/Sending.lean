import AcOpenServer.Native.Cwc.Wrapper
import AcOpenServer.SVFW.MessageClient

namespace AcOpenServer
open Library
set_option autoImplicit true

namespace SVFWPacketClient

/-- The bytes are a frame around a payload, and each length in it is that of what it counts. -/
structure FrameOf (payload bytes : List UInt8) : Prop where
  announced : (readAt UInt16 bytes).toNat = (bytes.drop 2).length
  contents : bytes.drop 14 = payload
  payloadLength : (readAt UInt32 (bytes.drop 6)).toNat = payload.length
  payloadLengthShort : (readAt UInt16 (bytes.drop 12)).toNat = payload.length

variable {counter : UInt16} {packet : SVFWPacket}

theorem frame_stamp : frame (stamp counter packet) =
    bigEndian (UInt16.ofNat (12 + packet.payload.length)) ++ (bigEndian counter ++
      (Layout.encode packet.header.unk02 ++ (bigEndian (UInt32.ofNat packet.payload.length) ++
        (Layout.encode packet.header.unk08 ++
          (bigEndian (UInt16.ofNat packet.payload.length) ++ packet.payload))))) := by
  have h : frame (stamp counter packet) =
      bigEndian (UInt16.ofNat (12 + packet.payload.length)) ++
        ((Layout.encode (reverseEndianness counter) ++ (Layout.encode packet.header.unk02 ++
          (Layout.encode (reverseEndianness (UInt32.ofNat packet.payload.length)) ++
            (Layout.encode packet.header.unk08 ++
              Layout.encode (reverseEndianness (UInt16.ofNat packet.payload.length)))))) ++
          packet.payload) := rfl
  rw [h]
  simp only [encode_reverseEndianness, bigEndian, List.append_assoc]

theorem length_frame_stamp :
    (frame (stamp counter packet)).length = 14 + packet.payload.length := by
  simp only [frame_stamp, List.length_append, length_bigEndian, Layout.length_encode,
    Layout.size_uint16, Layout.size_uint32]
  omega

theorem readAt_prefix_frame : readAt UInt16 (frame (stamp counter packet)) =
    UInt16.ofNat (12 + packet.payload.length) := by
  rw [frame_stamp, readAt_bigEndian_append]

theorem readAt_payloadLength_frame : readAt UInt32 ((frame (stamp counter packet)).drop 6) =
    UInt32.ofNat packet.payload.length := by
  rw [frame_stamp, ← List.append_assoc, ← List.append_assoc]
  exact readAt_drop_append _ _ (by
    simp only [List.length_append, length_bigEndian, Layout.length_encode, Layout.size_uint16])

theorem readAt_payloadLengthShort_frame :
    readAt UInt16 ((frame (stamp counter packet)).drop 12) =
      UInt16.ofNat packet.payload.length := by
  rw [frame_stamp, ← List.append_assoc, ← List.append_assoc, ← List.append_assoc,
    ← List.append_assoc]
  exact readAt_drop_append _ _ (by
    simp only [List.length_append, length_bigEndian, Layout.length_encode, Layout.size_uint16,
      Layout.size_uint32])

theorem drop_frame : (frame (stamp counter packet)).drop 14 = packet.payload := by
  rw [frame_stamp, ← List.append_assoc, ← List.append_assoc, ← List.append_assoc,
    ← List.append_assoc, ← List.append_assoc]
  exact List.drop_left' (by
    simp only [List.length_append, length_bigEndian, Layout.length_encode, Layout.size_uint16,
      Layout.size_uint32])

/-- The lengths in a frame are right exactly when the one in front of it does not wrap. -/
theorem frameOf_frame_iff :
    FrameOf packet.payload (frame (stamp counter packet)) ↔ packet.payload.length ≤ 65523 := by
  constructor
  · intro h
    have hannounced := h.announced
    rw [readAt_prefix_frame, List.length_drop, length_frame_stamp] at hannounced
    have hlt := (UInt16.ofNat (12 + packet.payload.length)).toNat_lt
    omega
  · intro h
    have hstart : 12 + packet.payload.length < 2 ^ 16 := by omega
    have hlong : packet.payload.length < 2 ^ 32 := by omega
    have hshort : packet.payload.length < 2 ^ 16 := by omega
    constructor
    · rw [readAt_prefix_frame, List.length_drop, length_frame_stamp,
        UInt16.toNat_ofNat_of_lt' hstart]
      omega
    · exact drop_frame
    · rw [readAt_payloadLength_frame, UInt32.toNat_ofNat_of_lt' hlong]
    · rw [readAt_payloadLengthShort_frame, UInt16.toNat_ofNat_of_lt' hshort]

end SVFWPacketClient

namespace SVFWMessageClient

/-- Nothing was given to the connection and no packet was counted. -/
def Untouched (c d : SVFWMessageClient) : Prop :=
  d.client.client.written = c.client.client.written ∧
    d.client.packetsSent = c.client.packetsSent

/-- A send whose task completes has given one frame to the connection, and one that throws or
whose task faults has changed nothing. -/
def SendsFrame (native : CipherNative) (iv : Block 11) (task : Option WriteTask) (late : Bool)
    (message : SVFWMessage) (messageType : SVFWMessageType) (messageIndex : UInt32)
    (c : SVFWMessageClient) : Prop :=
  match (sendAsync native iv task message messageType messageIndex).run c with
  | .ok t d =>
    if t.faults late then Untouched c d
    else ∃ bytes packet,
      d.client.client.written = c.client.client.written ++ [bytes] ∧
      d.client.sent = c.client.sent ++ [packet] ∧ SVFWPacketClient.FrameOf packet.payload bytes
  | .error _ d => Untouched c d

/-- The size of a message with its headers. -/
def messageSize (messageType : SVFWMessageType) (output : List UInt8) : Nat :=
  (if messageType = .reply then 28 else 12) + output.length

/-- The connection is not disposed and its `WriteAsync` returns a task that completes. -/
def TakesFrame (task : Option WriteTask) (late : Bool) (c : SVFWMessageClient) : Prop :=
  c.client.client.disposedValue = false ∧ ∃ t, task = some t ∧ t.faults late = false

/-- The connection takes a frame, and a message that becomes an array fits into one. -/
def FitsFrame (native : CipherNative) (iv : Block 11) (task : Option WriteTask) (late : Bool)
    (payload : List UInt8) (messageType : SVFWMessageType) (c : SVFWMessageClient) : Prop :=
  ∀ output, (encryptPayload native iv c payload).result = .ok output →
    messageSize messageType output ≤ maxArrayLength →
    messageSize messageType output ≤ 65523 ∧ TakesFrame task late c

variable {native : CipherNative} {iv : Block 11} {task : Option WriteTask} {late : Bool}
  {message : SVFWMessage} {messageType : SVFWMessageType} {messageIndex : UInt32}
  {c : SVFWMessageClient}

theorem length_envelope_eq_messageSize (messageType : SVFWMessageType) (messageIndex : UInt32)
    (message : SVFWMessage) (output : List UInt8) :
    (envelope messageType messageIndex message output).payload.length =
      messageSize messageType output := length_envelope _ _ _ _

theorem not_untouched_of_counted {d : SVFWMessageClient}
    (h : d.client.packetsSent = c.client.packetsSent + 1) : ¬ Untouched c d := by
  rintro ⟨_, hcount⟩
  rw [h] at hcount
  have hne : c.client.packetsSent + 1 ≠ c.client.packetsSent := by simp
  exact hne hcount

/-- A message that reaches the packet client becomes a frame exactly when it fits into one and
the connection takes it. -/
theorem sendsFrame_iff_of_encrypted {output : List UInt8}
    (hencrypt : (encryptPayload native iv c message.payload).result = .ok output)
    (hlen : messageSize messageType output ≤ maxArrayLength) :
    SendsFrame native iv task late message messageType messageIndex c ↔
      messageSize messageType output ≤ 65523 ∧ TakesFrame task late c := by
  rw [← length_envelope_eq_messageSize messageType messageIndex message output] at hlen ⊢
  rcases sendAsync_cases native iv task message messageType messageIndex c with
    ⟨output', hencrypt', _, hrun⟩ | ⟨hlong, _⟩
  · cases hencrypt.symm.trans hencrypt'
    rcases SVFWPacketClient.sendAsync_cases task
        (envelope messageType messageIndex message output) c.client with
      ⟨t, rfl, hopen, _, hpacket⟩ | ⟨hfails, e, hpacket⟩
    · rw [SendsFrame, hrun hpacket]
      dsimp only
      split
      · -- the task faults, but the packet has been counted
        rename_i hfaults
        refine iff_of_false (not_untouched_of_counted rfl) ?_
        rintro ⟨_, _, t', ht, hcompletes⟩
        cases ht
        exact Bool.false_ne_true (hcompletes.symm.trans hfaults)
      · rename_i hcompletes
        constructor
        · rintro ⟨bytes, packet, hwritten, hsent, hframe⟩
          cases List.append_cancel_left hwritten
          cases List.append_cancel_left hsent
          exact ⟨SVFWPacketClient.frameOf_frame_iff.1 hframe, hopen, t, rfl,
            Bool.eq_false_iff.2 hcompletes⟩
        · rintro ⟨hfits, _⟩
          exact ⟨_, _, rfl, rfl, SVFWPacketClient.frameOf_frame_iff.2 hfits⟩
    · rw [SendsFrame, hrun hpacket]
      refine iff_of_false (not_untouched_of_counted rfl) ?_
      rintro ⟨hfits, hopen, t, ht, _⟩
      rcases hfails with hnone | hdisposed | hhuge
      · cases ht.symm.trans hnone
      · cases hopen.symm.trans hdisposed
      · simp only [maxArrayLength] at hhuge
        omega
  · exact absurd hlen (Nat.not_le_of_lt (hlong output hencrypt))

/-- Sending puts a frame on the wire or nothing, exactly when every message that reaches the
packet client fits into a frame and the connection takes it. -/
theorem sendsFrame_iff : SendsFrame native iv task late message messageType messageIndex c ↔
    FitsFrame native iv task late message.payload messageType c := by
  constructor
  · intro h output hencrypt hlen
    exact (sendsFrame_iff_of_encrypted hencrypt hlen).1 h
  · intro h
    rcases sendAsync_cases native iv task message messageType messageIndex c with
      ⟨output, hencrypt, hlen, _⟩ | ⟨_, e, hrun⟩
    · rw [length_envelope_eq_messageSize] at hlen
      exact (sendsFrame_iff_of_encrypted hencrypt hlen).2 (h output hencrypt hlen)
    · rw [SendsFrame, hrun]
      exact ⟨rfl, rfl⟩

/-- The CWC library, RSA operations that fail, and a client that does not encrypt. -/
def plainNative : CipherNative where
  cwc := Native.library .littleEndian [] ⟨0, 0⟩
  rsa := ⟨fun _ _ => none, fun _ _ => none, fun _ _ => none, fun _ _ => none⟩

def plainClient : SVFWMessageClient :=
  { new (.new (.accepted false)) (.rsa ⟨false, .x931⟩) (.rsa ⟨false, .oaep⟩) with
    cipherEnabled := false }

/-- The length in front of a frame wraps around when one byte too many is sent. -/
theorem long_message_not_a_frame : ¬ ∀ (native : CipherNative) (iv : Block 11)
    (task : Option WriteTask) (late : Bool) (message : SVFWMessage)
    (messageType : SVFWMessageType) (messageIndex : UInt32) (c : SVFWMessageClient),
    SendsFrame native iv task late message messageType messageIndex c := by
  intro h
  obtain ⟨payload, hpayload⟩ : ∃ payload : List UInt8, payload.length = 65512 :=
    ⟨_, List.length_replicate (a := 0)⟩
  have hencrypt : (encryptPayload plainNative ⟨List.replicate 11 0, rfl⟩ plainClient
      (SVFWMessage.new payload).payload).result = .ok payload :=
    congrArg Traced.result (encryptPayload_of_disabled rfl payload)
  have hsize : messageSize .getServiceStatus payload = 65524 := congrArg (12 + ·) hpayload
  have hframe := (sendsFrame_iff_of_encrypted hencrypt (by rw [hsize]; decide)).1
    (h plainNative ⟨List.replicate 11 0, rfl⟩ (some .completed) false (.new payload)
      .getServiceStatus 0 plainClient)
  rw [hsize] at hframe
  exact absurd hframe.1 (by decide)

end SVFWMessageClient

end AcOpenServer
