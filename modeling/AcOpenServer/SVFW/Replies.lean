import AcOpenServer.SVFW.MessageClient

namespace AcOpenServer
open Library
set_option autoImplicit true

namespace SVFWPacketClient

/-- A packet with a message of type `Reply` that has a response header and this index. -/
def IsReply (messageIndex : UInt32) (packet : SVFWPacket) : Prop :=
  ∃ output, packet.payload = SVFWMessageClient.messageBytes
    { SVFWMessageHeader.new with messageType := .reply, messageIndex }
    (some SVFWMessageResponseHeader.new.swapEndian) output

/-- The packets of a connection are replies to messages with these indices, in order. -/
structure Replies (indices : List UInt32) (packets : List SVFWPacket) : Prop where
  length_eq : packets.length = indices.length
  reply : ∀ k index packet, indices[k]? = some index → packets[k]? = some packet →
    IsReply index packet ∧ packet.header.sendCounter = UInt16.ofNat (k + 1)

variable {indices : List UInt32} {packets : List SVFWPacket}

theorem replies_nil : Replies [] [] := ⟨rfl, nofun⟩

theorem isReply_envelope (messageIndex : UInt32) (payload output : List UInt8) :
    IsReply messageIndex
      (SVFWMessageClient.envelope .reply messageIndex (.new payload) output) := ⟨output, rfl⟩

theorem Replies.snoc {packet : SVFWPacket} (h : Replies indices packets)
    (hreply : IsReply index packet) :
    Replies (indices ++ [index])
      (packets ++ [stamp (UInt16.ofNat (indices.length + 1)) packet]) where
  length_eq := by rw [List.length_append, List.length_append, h.length_eq]; rfl
  reply := by
    intro k i p hi hp
    by_cases hk : k < indices.length
    · rw [List.getElem?_append_left hk] at hi
      rw [List.getElem?_append_left (h.length_eq ▸ hk)] at hp
      exact h.reply k i p hi hp
    · have hlast : k = indices.length := by
        obtain ⟨hlt, _⟩ := List.getElem?_eq_some_iff.1 hi
        rw [List.length_append, List.length_singleton] at hlt
        omega
      subst hlast
      rw [List.getElem?_concat_length] at hi
      rw [← h.length_eq, List.getElem?_concat_length] at hp
      cases hi
      cases hp
      exact ⟨hreply, by rw [h.length_eq]; rfl⟩

end SVFWPacketClient

namespace SVFWMessageClient

open SVFWPacketClient

/-- What a message client that only replies has handed to its packet client. -/
structure HasReplied (indices : List UInt32) (c : SVFWMessageClient) : Prop where
  replies : Replies indices c.client.sent
  packetsSent : c.client.packetsSent = UInt16.ofNat indices.length

variable {native : CipherNative} {iv : Block 11} {task : Option WriteTask} {payload : List UInt8}
  {indices : List UInt32} {c d : SVFWMessageClient}

theorem hasReplied_new (tcp : NetTcpClient) (encryptionCipher decryptionCipher : Cipher) :
    HasReplied [] (.new (.new tcp) encryptionCipher decryptionCipher) := ⟨replies_nil, rfl⟩

theorem HasReplied.handOver {packet : SVFWPacket} (h : HasReplied indices c)
    (hreply : IsReply index packet) : HasReplied (indices ++ [index]) (c.handOver packet) := by
  have hnext : c.client.packetsSent + 1 = UInt16.ofNat (indices.length + 1) := by
    rw [h.packetsSent, UInt16.ofNat_add]
    rfl
  have hsnoc := h.replies.snoc hreply
  rw [← hnext] at hsnoc
  refine ⟨hsnoc, ?_⟩
  rw [List.length_append]
  exact hnext

theorem HasReplied.sendAsync_ok (h : HasReplied indices c)
    (hrun : (sendAsync native iv task (.new payload) .reply index).run c = .ok t d) :
    HasReplied (indices ++ [index]) d := by
  obtain ⟨output, _, _, _, rfl⟩ := SVFWMessageClient.sendAsync_ok hrun
  have hover := h.handOver (isReply_envelope index payload output)
  exact ⟨hover.replies, hover.packetsSent⟩

theorem HasReplied.sendAsync_error (h : HasReplied indices c)
    (hrun : (sendAsync native iv task (.new payload) .reply index).run c = .error e d) :
    HasReplied indices d ∨ HasReplied (indices ++ [index]) d := by
  rcases SVFWMessageClient.sendAsync_error hrun with rfl | ⟨output, _, rfl⟩
  · exact .inl h
  · exact .inr (h.handOver (isReply_envelope index payload output))

theorem HasReplied.dispose (h : HasReplied indices c) : HasReplied indices c.dispose := by
  unfold SVFWMessageClient.dispose
  split
  · exact h
  · unfold SVFWPacketClient.dispose
    split
    · exact ⟨h.replies, h.packetsSent⟩
    · exact ⟨h.replies, h.packetsSent⟩

end SVFWMessageClient

end AcOpenServer
