import AcOpenServer.Auth.Client
import AcOpenServer.Fsdp.ReliablePacket
import AcOpenServer.Library.Trace
import AcOpenServer.SVFW.Delivery

namespace AcOpenServer
open Library
set_option autoImplicit true

def Exn.IsSvfwPacket (e : Exn) : Prop := ∃ message, e = .svfwPacket message

def Exn.IsSvfwMessage (e : Exn) : Prop := ∃ message, e = .svfwMessage message

def Exn.IsFsdpReliable (e : Exn) : Prop := ∃ message, e = .fsdpReliable message

variable {A : Exn → Prop} {buffer : Span}

theorem confined_read [Layout α] (h : offset + Layout.size α ≤ buffer.length)
    (hpos : 0 < Layout.size α) :
    Traced.Confined Access.InBounds A (BinaryBufferReader.read α buffer offset) := by
  rw [BinaryBufferReader.read_of_lt (by omega)]
  refine ⟨?_, nofun⟩
  intro a ha
  cases List.mem_singleton.1 ha
  exact h

theorem confined_sliceFrom (h : start ≤ buffer.length) :
    Traced.Confined Access.InBounds A (buffer.sliceFrom start) := by
  rw [Span.sliceFrom_of_le h]
  refine ⟨?_, nofun⟩
  intro a ha
  cases List.mem_singleton.1 ha
  exact Nat.le_of_eq (Nat.add_sub_cancel' h)

/-- Every access of a computation that may throw whatever it likes is in bounds. -/
abbrev Bounded (m : Codec α) : Prop := Traced.Confined Access.InBounds (fun _ => True) m

theorem bounded_newArray (n : Nat) : Bounded (newArray n) := by
  unfold newArray
  split
  · exact Traced.confined_pure _
  · exact Traced.confined_throw.2 trivial

theorem bounded_arrayCopy (source : List UInt8) (sourceIndex : Nat) (destination : List UInt8)
    (destinationIndex length : Nat) :
    Bounded (arrayCopy source sourceIndex destination destinationIndex length) := by
  unfold arrayCopy
  split
  · exact Traced.confined_pure _
  · exact Traced.confined_throw.2 trivial

theorem bounded_write [Layout α] {buffer : List UInt8} (value : α)
    (h : offset + Layout.size α ≤ buffer.length) :
    Bounded (BinaryBufferWriter.write buffer offset value) := by
  unfold BinaryBufferWriter.write
  split
  · refine ⟨?_, fun _ _ => trivial⟩
    intro a ha
    cases List.mem_singleton.1 ha
    exact h
  · exact Traced.confined_throw.2 trivial

theorem length_of_newArray (h : (newArray n).result = .ok bytes) : bytes.length = n := by
  unfold newArray at h
  by_cases hn : n ≤ maxArrayLength
  · rw [if_pos hn] at h
    cases h
    exact List.length_replicate
  · rw [if_neg hn] at h
    cases h

theorem length_of_write [Layout α] {buffer : List UInt8} {value : α}
    (h : offset + Layout.size α ≤ buffer.length)
    (hwrite : (BinaryBufferWriter.write buffer offset value).result = .ok bytes) :
    bytes.length = buffer.length := by
  unfold BinaryBufferWriter.write at hwrite
  by_cases hlt : offset < buffer.length
  · rw [if_pos hlt] at hwrite
    cases hwrite
    simp only [splice, List.length_append, List.length_take, List.length_drop,
      Layout.length_encode]
    omega
  · rw [if_neg hlt] at hwrite
    cases hwrite

namespace SVFWPacketClient

theorem safe_read (h : packetHeaderSize ≤ buffer.length) :
    Traced.Confined Access.InBounds Exn.IsSvfwPacket (read buffer) := by
  unfold read
  refine Traced.confined_bind.2 ⟨confined_read ?_ ?_, ?_⟩
  · rw [Nat.zero_add, SVFWPacketHeader.size_eq]
    exact h
  · rw [SVFWPacketHeader.size_eq]
    exact Nat.zero_lt_succ 11
  · intro header _
    refine Traced.confined_bind.2 ⟨?_, ?_⟩
    · split
      · exact Traced.confined_pure _
      · exact confined_sliceFrom h
    · intro payload _
      split
      · exact Traced.confined_throw.2 ⟨_, rfl⟩
      · exact Traced.confined_pure _

theorem bounded_serialize (packet : SVFWPacket) : Bounded (serialize packet) := by
  unfold serialize
  refine Traced.confined_bind.2 ⟨bounded_newArray _, ?_⟩
  intro array harray
  have hlength := length_of_newArray harray
  have hstart : 0 + Layout.size UInt16 ≤ array.length := by
    rw [hlength, Layout.size_uint16]
    omega
  refine Traced.confined_bind.2 ⟨bounded_write _ hstart, ?_⟩
  intro written hwritten
  have hheader : 2 + Layout.size SVFWPacketHeader ≤ written.length := by
    rw [length_of_write hstart hwritten, hlength, SVFWPacketHeader.size_eq, packetHeaderSize]
    omega
  exact Traced.confined_bind.2 ⟨bounded_write _ hheader, fun _ _ => bounded_arrayCopy _ _ _ _ _⟩

/-- What can happen to a packet client that has started to receive, in any order. -/
inductive PacketAction where
  | read (beyond : Nat → UInt8) (segment : List UInt8)
  | send (task : Option WriteTask) (packet : SVFWPacket)
  | dispose

/-- A read returns at most what the buffer holds, and an exception of `OnReceived` ends the
loop that reads. -/
def next : PacketAction → SVFWPacketClient → Option SVFWPacketClient
  | .read beyond segment, c =>
    if segment.length ≤ c.client.bufferLength then
      match (readAsync beyond segment).run c with
      | .ok _ d => some d
      | .error _ _ => none
    else none
  | .send task packet, c =>
    match (sendAsync task packet).run c with
    | .ok _ d => some d
    | .error _ d => some d
  | .dispose, c => some c.dispose

/-- The accesses `OnReceived` makes to the buffer after a read. -/
def receiveAccesses (beyond : Nat → UInt8) (segment : List UInt8) (c : SVFWPacketClient) :
    List Access :=
  let buffer : Span := ⟨(c.client.fill segment).buffer.getD [], beyond⟩
  if segment.length < c.expectingCount then []
  else if c.receivingPrefix then (BinaryBufferReader.readUInt16BigEndian buffer 0).events
  else (read buffer).events

/-- The buffer has the size that was announced, which has room for a header. -/
def Receiving (c : SVFWPacketClient) : Prop :=
  AwaitsPrefix c ∨ ∃ n, packetHeaderSize ≤ n ∧ AwaitsBody c n

variable {beyond : Nat → UInt8} {segment : List UInt8} {c d : SVFWPacketClient}

theorem Receiving.expectingCount (h : Receiving c) : c.expectingCount = c.client.bufferLength := by
  rcases h with h | ⟨n, _, h⟩
  · exact h.expectingCount.trans h.bufferLength.symm
  · exact h.expectingCount.trans h.bufferLength.symm

theorem Receiving.congr (h : Receiving c) (hstart : d.receivingPrefix = c.receivingPrefix)
    (hcount : d.expectingCount = c.expectingCount)
    (hlength : d.client.bufferLength = c.client.bufferLength) : Receiving d := by
  rcases h with h | ⟨n, hn, h⟩
  · exact .inl ⟨hstart.trans h.receivingPrefix, hcount.trans h.expectingCount,
      hlength.trans h.bufferLength⟩
  · exact .inr ⟨n, hn, hstart.trans h.receivingPrefix, hcount.trans h.expectingCount,
      hlength.trans h.bufferLength⟩

theorem run_readAsync_empty : (readAsync beyond []).run c =
    .ok () { c with client := c.client.fill [] } := by
  rw [readAsync, run_bind_of_ok _ (EStateM.run_modify _ _)]
  rfl

theorem bufferLength_fill_nil (client : NetTcpClient) :
    (client.fill []).bufferLength = client.bufferLength := by
  unfold NetTcpClient.fill NetTcpClient.bufferLength
  cases client.buffer with
  | none => rfl
  | some buffer => rfl

/-- A read leaves a buffer of the size that was announced, or ends in an exception of the
packet client. -/
theorem Receiving.readAsync (beyond : Nat → UInt8) (h : Receiving c)
    (hle : segment.length ≤ c.client.bufferLength) :
    match (readAsync beyond segment).run c with
    | .ok _ d => Receiving d
    | .error e _ => e.IsSvfwPacket := by
  by_cases hpos : 0 < segment.length
  · by_cases hshort : segment.length < c.expectingCount
    · obtain ⟨message, hrun⟩ := run_readAsync_short beyond hpos hshort
      rw [hrun]
      exact ⟨message, rfl⟩
    · have hcount := h.expectingCount
      rcases h with h | ⟨n, hn, h⟩
      · have htwo : segment.length = 2 := by
          rw [hcount, h.bufferLength] at hshort
          rw [h.bufferLength] at hle
          omega
        have hstart := run_readAsync_prefix beyond h htwo
        dsimp only at hstart
        split at hstart
        · obtain ⟨message, hrun⟩ := hstart
          rw [hrun]
          exact ⟨message, rfl⟩
        · rename_i hbody
          obtain ⟨d, hrun, hd, _⟩ := hstart
          rw [hrun]
          exact .inr ⟨_, Nat.le_of_not_lt hbody, hd⟩
      · have hfull : segment.length = n := by
          rw [hcount, h.bufferLength] at hshort
          rw [h.bufferLength] at hle
          omega
        have hbody := run_readAsync_body beyond h hfull (by unfold packetHeaderSize at hn; omega)
        cases hread : (read ⟨segment, beyond⟩).result with
        | ok packet =>
          simp only [hread] at hbody
          obtain ⟨d, hrun, hd, _⟩ := hbody
          rw [hrun]
          exact .inl hd
        | error e =>
          simp only [hread] at hbody
          rw [hbody]
          have hroom : packetHeaderSize ≤ (⟨segment, beyond⟩ : Span).length :=
            hn.trans_eq hfull.symm
          exact (safe_read hroom).2 e hread
  · have hnil : segment = [] := List.eq_nil_of_length_eq_zero (Nat.eq_zero_of_not_pos hpos)
    subst hnil
    rw [run_readAsync_empty]
    exact h.congr rfl rfl (bufferLength_fill_nil _)

theorem Receiving.next (h : Receiving c) (hnext : next a c = some d) : Receiving d := by
  cases a with
  | read beyond segment =>
    rw [SVFWPacketClient.next] at hnext
    by_cases hle : segment.length ≤ c.client.bufferLength
    · rw [if_pos hle] at hnext
      have hread := h.readAsync beyond hle
      cases hrun : (SVFWPacketClient.readAsync beyond segment).run c with
      | ok u e =>
        simp only [hrun] at hread hnext
        cases hnext
        exact hread
      | error e f =>
        simp only [hrun] at hnext
        cases hnext
    · rw [if_neg hle] at hnext
      cases hnext
  | send task packet =>
    rw [SVFWPacketClient.next] at hnext
    rcases sendAsync_cases task packet c with ⟨t, _, _, _, hrun⟩ | ⟨_, e, hrun⟩
    · rw [hrun] at hnext
      cases hnext
      exact h.congr rfl rfl rfl
    · rw [hrun] at hnext
      cases hnext
      exact h.congr rfl rfl rfl
  | dispose =>
    cases hnext
    unfold dispose
    split
    · exact h
    · exact h.congr rfl rfl rfl

theorem Receiving.receiveAccesses (h : Receiving c)
    (hle : segment.length ≤ c.client.bufferLength) :
    ∀ a ∈ receiveAccesses beyond segment c, a.InBounds := by
  intro a ha
  unfold SVFWPacketClient.receiveAccesses at ha
  by_cases hshort : segment.length < c.expectingCount
  · rw [if_pos hshort] at ha
    cases ha
  · rw [if_neg hshort] at ha
    have hfull : segment.length = c.client.bufferLength := by
      rw [h.expectingCount] at hshort
      omega
    rcases h with h | ⟨n, hn, h⟩
    · have htwo : segment.length = 2 := hfull.trans h.bufferLength
      have hroom : 0 < (⟨segment, beyond⟩ : Span).length := Nat.lt_of_lt_of_eq Nat.two_pos htwo.symm
      rw [if_pos h.receivingPrefix, fill_buffer hfull (by omega),
        BinaryBufferReader.readUInt16BigEndian,
        BinaryBufferReader.readBigEndian_of_lt hroom] at ha
      cases List.mem_singleton.1 ha
      exact Nat.le_of_eq htwo.symm
    · have hlength : segment.length = n := hfull.trans h.bufferLength
      have hroom : packetHeaderSize ≤ (⟨segment, beyond⟩ : Span).length := hn.trans_eq hlength.symm
      rw [if_neg (by rw [h.receivingPrefix]; exact Bool.false_ne_true),
        fill_buffer hfull (by unfold packetHeaderSize at hn; omega)] at ha
      exact (safe_read hroom).1 a ha

theorem receiving_of_runActions {tcp : NetTcpClient}
    (h : runActions next actions (startReceive (new tcp)) = some c) : Receiving c :=
  (trace_of_runActions h).invariant (fun _ _ _ hs hstep => hs.next hstep)
    (.inl (startReceive_awaitsPrefix _ rfl))

end SVFWPacketClient

namespace SVFWMessageClient

theorem safe_readPayload (hoffset : offset ≤ buffer.length) (f : List UInt8 → SVFWMessage) :
    Traced.Confined Access.InBounds Exn.IsSvfwMessage (do
      let payload ← (if buffer.length - offset = offset then pure [] else buffer.sliceFrom offset)
      return f payload) := by
  refine Traced.confined_bind.2 ⟨?_, fun _ _ => Traced.confined_pure _⟩
  split
  · exact Traced.confined_pure _
  · exact confined_sliceFrom hoffset

theorem safe_read (buffer : Span) :
    Traced.Confined Access.InBounds Exn.IsSvfwMessage (read buffer) := by
  unfold read
  split
  · exact Traced.confined_throw.2 ⟨_, rfl⟩
  · rename_i hlong
    have hheader : 0 + Layout.size SVFWMessageHeader ≤ buffer.length := by
      rw [SVFWMessageHeader.size_eq]
      simp only [messageHeaderSize] at hlong
      omega
    refine Traced.confined_bind.2 ⟨confined_read hheader (Nat.zero_lt_succ 11), ?_⟩
    intro header _
    by_cases hreply : header.swapEndian.messageType = .reply
    · simp only [if_pos hreply]
      by_cases hshort : buffer.length < messageHeaderSize + messageResponseHeaderSize
      · rw [if_pos hshort, Traced.throw_bind]
        exact Traced.confined_throw.2 ⟨_, rfl⟩
      · have hresponse : messageHeaderSize + Layout.size SVFWMessageResponseHeader ≤
            buffer.length := Nat.le_of_not_lt hshort
        rw [if_neg hshort]
        refine Traced.confined_bind.2 ⟨?_, ?_⟩
        · exact Traced.confined_bind.2 ⟨confined_read hresponse (Nat.zero_lt_succ 15),
            fun _ _ => Traced.confined_pure _⟩
        · intro responseHeader _
          exact safe_readPayload hresponse _
    · simp only [if_neg hreply, pure_bind]
      exact safe_readPayload (Nat.le_of_not_lt hlong) _

theorem bounded_write (message : SVFWMessage) : Bounded (write message) := by
  unfold write
  refine Traced.confined_bind.2 ⟨bounded_newArray _, ?_⟩
  intro array harray
  have hlength := length_of_newArray harray
  have hheader : 0 + Layout.size SVFWMessageHeader ≤ array.length := by
    rw [hlength, SVFWMessageHeader.size_eq, messageHeaderSize]
    omega
  refine Traced.confined_bind.2 ⟨AcOpenServer.bounded_write _ hheader, ?_⟩
  intro written hwritten
  have hwrittenLength := length_of_write hheader hwritten
  refine Traced.confined_bind.2 ⟨?_, ?_⟩
  · split
    · rename_i hreply
      rw [if_pos hreply] at hlength
      split
      · apply AcOpenServer.bounded_write
        rw [hwrittenLength, hlength, SVFWMessageResponseHeader.size_eq]
        exact Nat.le_add_right _ _
      · exact Traced.confined_throw.2 trivial
    · exact Traced.confined_pure _
  · intro _ _
    exact Traced.confined_bind.2 ⟨bounded_arrayCopy _ _ _ _ _, fun _ _ => Traced.confined_pure _⟩

end SVFWMessageClient

namespace FsdpReliablePacketClient

/-- The constant that is checked does not count the padding of the struct. -/
theorem safe_read_iff : Traced.Confined Access.InBounds Exn.IsFsdpReliable (read buffer) ↔
    buffer.length ≠ 7 := by
  unfold read
  by_cases hshort : buffer.length < FsdpReliablePacketHeader.length
  · rw [if_pos hshort]
    refine iff_of_true (Traced.confined_throw.2 ⟨_, rfl⟩) ?_
    exact Nat.ne_of_lt hshort
  · rw [if_neg hshort]
    have hlong : 7 ≤ buffer.length := Nat.le_of_not_lt hshort
    constructor
    · intro hsafe hseven
      have hread := (Traced.confined_bind.1 hsafe).1
      rw [BinaryBufferReader.read_of_lt (by omega)] at hread
      have hin : 0 + Layout.size FsdpReliablePacketHeader ≤ buffer.length :=
        hread.1 _ List.mem_cons_self
      rw [FsdpReliablePacketHeader.size_eq] at hin
      omega
    · intro hseven
      have hheader : 0 + Layout.size FsdpReliablePacketHeader ≤ buffer.length := by
        rw [FsdpReliablePacketHeader.size_eq]
        omega
      refine Traced.confined_bind.2 ⟨confined_read hheader (Nat.zero_lt_succ 7), ?_⟩
      intro header _
      exact Traced.confined_bind.2 ⟨confined_sliceFrom hlong, fun _ _ => Traced.confined_pure _⟩

end FsdpReliablePacketClient

/-- A call of a codec of the wire: a read of a packet client that has been through these actions,
or the serialization or deserialization of what is given. -/
inductive WireCall where
  | packetReceived (tcp : NetTcpClient) (actions : List SVFWPacketClient.PacketAction)
      (beyond : Nat → UInt8) (segment : List UInt8)
  | packetSent (packet : SVFWPacket)
  | messageRead (buffer : Span)
  | messageWritten (message : SVFWMessage)
  | reliablePacketRead (buffer : Span)
  | serverInfoWritten (config : AuthConfig) (isPrivateNetwork : Bool)

namespace WireCall

/-- The call accesses nothing outside its buffers, and a received buffer that is too short ends
in an exception of its codec. -/
def Safe : WireCall → Prop
  | .packetReceived tcp actions beyond segment => ∀ c,
    runActions SVFWPacketClient.next actions (.startReceive (.new tcp)) = some c →
      segment.length ≤ c.client.bufferLength →
      (∀ a ∈ c.receiveAccesses beyond segment, a.InBounds) ∧
        ∀ e d, (SVFWPacketClient.readAsync beyond segment).run c = .error e d → e.IsSvfwPacket
  | .packetSent packet => Bounded (SVFWPacketClient.serialize packet)
  | .messageRead buffer =>
    Traced.Confined Access.InBounds Exn.IsSvfwMessage (SVFWMessageClient.read buffer)
  | .messageWritten message => Bounded (SVFWMessageClient.write message)
  | .reliablePacketRead buffer =>
    Traced.Confined Access.InBounds Exn.IsFsdpReliable (FsdpReliablePacketClient.read buffer)
  | .serverInfoWritten config isPrivateNetwork =>
    Bounded (BinaryBufferWriter.write (List.replicate 56 0) 0
      (AuthClient.serverInfo config isPrivateNetwork).swapEndian)

/-- A reliable packet is not exactly as long as the fields of its header. -/
def Fits : WireCall → Prop
  | .reliablePacketRead buffer => buffer.length ≠ FsdpReliablePacketHeader.length
  | _ => True

/-- No codec accesses memory outside its buffer, but for a reliable packet that ends where the
padding of its header begins. -/
theorem safe_iff_fits (call : WireCall) : call.Safe ↔ call.Fits := by
  cases call with
  | packetReceived tcp actions beyond segment =>
    refine iff_of_true ?_ trivial
    intro c hrun hle
    have hreceiving := SVFWPacketClient.receiving_of_runActions hrun
    refine ⟨hreceiving.receiveAccesses hle, ?_⟩
    intro e d herror
    have hread := hreceiving.readAsync beyond hle
    rw [herror] at hread
    exact hread
  | packetSent packet => exact iff_of_true (SVFWPacketClient.bounded_serialize packet) trivial
  | messageRead buffer => exact iff_of_true (SVFWMessageClient.safe_read buffer) trivial
  | messageWritten message => exact iff_of_true (SVFWMessageClient.bounded_write message) trivial
  | reliablePacketRead buffer => exact FsdpReliablePacketClient.safe_read_iff
  | serverInfoWritten config isPrivateNetwork =>
    refine iff_of_true (bounded_write _ ?_) trivial
    rw [List.length_replicate, ConnectGameServerPortIdResponse.size_eq]

/-- The fields of a header, and nothing behind them. -/
def headerOnly : Span := ⟨[0xF5, 0x02, 0, 0, 0, 0x05, 0xFF], fun _ => 0⟩

theorem header_read_beyond_datagram : ¬ ∀ call : WireCall, call.Safe := by
  intro h
  exact (safe_iff_fits (.reliablePacketRead headerOnly)).1 (h _) rfl

end WireCall

end AcOpenServer
