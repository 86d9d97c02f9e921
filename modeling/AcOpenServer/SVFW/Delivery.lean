import AcOpenServer.SVFW.Framing

namespace AcOpenServer
open Library
set_option autoImplicit true

namespace SVFWPacketClient

/-- The packets as `SendAsync` leaves them, `counter` being the last counter used before. -/
def stampAll : UInt16 → List SVFWPacket → List SVFWPacket
  | _, [] => []
  | counter, packet :: packets => stamp (counter + 1) packet :: stampAll (counter + 1) packets

/-- The client when `SendAsync` has stamped a packet. -/
def handOver (packet : SVFWPacket) (c : SVFWPacketClient) : SVFWPacketClient :=
  { c with
    packetsSent := c.packetsSent + 1
    sent := c.sent ++ [stamp (c.packetsSent + 1) packet] }

/-- The client when it has also given the frame to the connection. -/
def deliver (packet : SVFWPacket) (c : SVFWPacketClient) : SVFWPacketClient :=
  { c.handOver packet with
    client :=
      { c.client with
        written := c.client.written ++ [frame (stamp (c.packetsSent + 1) packet)] } }

theorem run_sendAsync {c : SVFWPacketClient} (hc : c.client.disposedValue = false)
    (h : packet.payload.length + 14 ≤ maxArrayLength) (task : WriteTask) :
    (sendAsync (some task) packet).run c = .ok task (c.deliver packet) := by
  have hs := result_serialize (stamp (c.packetsSent + 1) packet) h
  simp only [sendAsync, EStateM.run_bind, EStateM.run_modify, EStateM.run_get,
    Traced.run_toAction_of_ok hs]
  exact run_zoom_of_ok (NetTcpClient.run_sendAsync hc task _)

/-- A send that throws has stamped the packet already. -/
theorem sendAsync_cases (task : Option WriteTask) (packet : SVFWPacket) (c : SVFWPacketClient) :
    (∃ t, task = some t ∧ c.client.disposedValue = false ∧
        packet.payload.length + 14 ≤ maxArrayLength ∧
        (sendAsync task packet).run c = .ok t (c.deliver packet)) ∨
      (task = none ∨ c.client.disposedValue = true ∨ maxArrayLength < packet.payload.length + 14) ∧
        ∃ e, (sendAsync task packet).run c = .error e (c.handOver packet) := by
  by_cases hlen : packet.payload.length + 14 ≤ maxArrayLength
  · have hs := result_serialize (stamp (c.packetsSent + 1) packet) hlen
    have hthrows : ∀ {e}, (NetTcpClient.sendAsync task (frame (stamp (c.packetsSent + 1)
        packet))).run c.client = .error e c.client →
          (sendAsync task packet).run c = .error e (c.handOver packet) := by
      intro e he
      simp only [sendAsync, EStateM.run_bind, EStateM.run_modify, EStateM.run_get,
        Traced.run_toAction_of_ok hs]
      exact run_zoom_of_error he
    by_cases hd : c.client.disposedValue = true
    · exact .inr ⟨.inr (.inl hd), _, hthrows (NetTcpClient.run_sendAsync_of_disposed hd)⟩
    · cases task with
      | some t =>
        have hopen := Bool.eq_false_iff.2 hd
        exact .inl ⟨t, rfl, hopen, hlen, run_sendAsync hopen hlen t⟩
      | none =>
        have hopen := Bool.eq_false_iff.2 hd
        exact .inr ⟨.inl rfl, _, hthrows (NetTcpClient.run_sendAsync_none hopen)⟩
  · obtain ⟨e, hnew⟩ : ∃ e, newArray (2 + (packetHeaderSize + packet.payload.length)) = throw e :=
      newArray_of_lt (by simp only [packetHeaderSize]; omega)
    have hs : (serialize (stamp (c.packetsSent + 1) packet)).result = .error e := by
      rw [serialize]
      change (newArray (2 + (packetHeaderSize + packet.payload.length)) >>= _).result = _
      rw [hnew, Traced.throw_bind]
      rfl
    refine .inr ⟨.inr (.inr (Nat.lt_of_not_le hlen)), e, ?_⟩
    simp only [sendAsync, EStateM.run_bind, EStateM.run_modify, EStateM.run_get,
      Traced.run_toAction_of_error hs]
    rfl

theorem run_sendAll {packets : List SVFWPacket} {c : SVFWPacketClient}
    (hc : c.client.disposedValue = false)
    (h : ∀ packet ∈ packets, packet.payload.length + 14 ≤ maxArrayLength) :
    ∃ c', (sendAll packets).run c = .ok () c' ∧
      c'.client.written = c.client.written ++ (stampAll c.packetsSent packets).map frame := by
  induction packets generalizing c with
  | nil => exact ⟨c, rfl, (List.append_nil _).symm⟩
  | cons packet packets ih =>
    have hp := run_sendAsync hc (h packet List.mem_cons_self) .completed
    obtain ⟨c', hrun, hwritten⟩ := ih (c := c.deliver packet) hc
      (fun p hp => h p (List.mem_cons_of_mem _ hp))
    refine ⟨c', ?_, ?_⟩
    · rw [sendAll, run_bind_of_ok _ hp, hrun]
    · rw [hwritten, stampAll, List.map_cons]
      exact List.append_assoc _ _ _

variable {beyond : Nat → UInt8} {segment : List UInt8}

/-- The receiver is between two packets. -/
structure AwaitsPrefix (c : SVFWPacketClient) : Prop where
  receivingPrefix : c.receivingPrefix = true
  expectingCount : c.expectingCount = 2
  bufferLength : c.client.bufferLength = 2

/-- The receiver has read a prefix announcing `n` bytes. -/
structure AwaitsBody (c : SVFWPacketClient) (n : Nat) : Prop where
  receivingPrefix : c.receivingPrefix = false
  expectingCount : c.expectingCount = n
  bufferLength : c.client.bufferLength = n

theorem startReceive_awaitsPrefix (c : SVFWPacketClient) (h : c.receivingPrefix = true) :
    AwaitsPrefix (startReceive c) :=
  ⟨h, rfl, rfl⟩

/-- A read that fills the buffer leaves nothing of its former contents. -/
theorem fill_buffer {c : NetTcpClient} (h : segment.length = c.bufferLength)
    (hpos : 0 < segment.length) : (c.fill segment).buffer.getD [] = segment := by
  unfold NetTcpClient.bufferLength at h
  unfold NetTcpClient.fill
  cases hb : c.buffer with
  | none =>
    rw [hb] at h
    simp only [Option.getD_none, List.length_nil] at h
    omega
  | some buffer =>
    rw [hb] at h
    simp only [Option.getD_some] at h
    simp only [Option.map_some, Option.getD_some, h, List.drop_length, List.append_nil]

theorem run_readAsync {c : SVFWPacketClient} (h : 0 < segment.length) :
    (readAsync beyond segment).run c =
      (onReceived beyond segment.length).run { c with client := c.client.fill segment } := by
  rw [readAsync, run_bind_of_ok _ (EStateM.run_modify _ _), if_pos h]

theorem run_readAsync_short (beyond : Nat → UInt8) {c : SVFWPacketClient} (h : 0 < segment.length)
    (hlt : segment.length < c.expectingCount) : ∃ message, (readAsync beyond segment).run c =
      .error (.svfwPacket message) { c with client := c.client.fill segment } := by
  rw [run_readAsync h, onReceived, run_bind_of_ok _ (EStateM.run_get _)]
  by_cases hp : c.receivingPrefix = true
  · rw [if_pos hp, if_pos hlt]
    exact ⟨_, rfl⟩
  · rw [if_neg hp, if_pos hlt]
    exact ⟨_, rfl⟩

theorem run_readAsync_prefix (beyond : Nat → UInt8) {c : SVFWPacketClient} (hc : AwaitsPrefix c)
    (hs : segment.length = 2) :
    let n := (Layout.decode segment.reverse : UInt16).toNat
    if n < packetHeaderSize then
      ∃ message, (readAsync beyond segment).run c =
        .error (.svfwPacket message) { c with client := c.client.fill segment }
    else
      ∃ c', (readAsync beyond segment).run c = .ok () c' ∧ AwaitsBody c' n ∧
        c'.received = c.received := by
  intro n
  have hbuf := fill_buffer (hs.trans hc.bufferLength.symm) (by omega)
  have hread : (BinaryBufferReader.readUInt16BigEndian ⟨segment, beyond⟩ 0).result =
      .ok (Layout.decode segment.reverse) := by
    have hw : (⟨segment, beyond⟩ : Span).window 0 (Layout.size UInt16) = segment := by
      have htake : (⟨segment, beyond⟩ : Span).window 0 2 = (segment.drop 0).take 2 :=
        Span.window_of_le (by simp only [Span.length]; omega)
      rw [Layout.size_uint16, htake, List.drop_zero, ← hs, List.take_length]
    rw [BinaryBufferReader.readUInt16BigEndian,
      BinaryBufferReader.readBigEndian_of_lt (by simp only [Span.length]; omega),
      BinaryBufferReader.peek, hw]
  have hfull : ¬ segment.length < c.expectingCount := by
    rw [hs, hc.expectingCount]
    exact Nat.lt_irrefl 2
  have hle : n ≤ maxArrayLength := by
    have h16 := (Layout.decode segment.reverse : UInt16).toNat_lt
    simp only [maxArrayLength]
    omega
  rw [run_readAsync (by omega), onReceived, run_bind_of_ok _ (EStateM.run_get _),
    if_pos hc.receivingPrefix, if_neg hfull]
  simp only [hbuf]
  rw [run_bind_of_ok _ (Traced.run_toAction_of_ok hread _)]
  split
  · exact ⟨_, rfl⟩
  · rw [newArray_of_le hle]
    refine ⟨_, rfl, ⟨rfl, rfl, ?_⟩, rfl⟩
    exact List.length_replicate

theorem run_readAsync_body (beyond : Nat → UInt8) {c : SVFWPacketClient} (hc : AwaitsBody c n)
    (hs : segment.length = n) (hpos : 0 < n) :
    match (read ⟨segment, beyond⟩).result with
    | .ok packet => ∃ c', (readAsync beyond segment).run c = .ok () c' ∧ AwaitsPrefix c' ∧
        c'.received = c.received ++ [packet]
    | .error e => (readAsync beyond segment).run c =
        .error e { c with client := c.client.fill segment } := by
  have hbuf := fill_buffer (hs.trans hc.bufferLength.symm) (by omega)
  have hfull : ¬ segment.length < c.expectingCount := by
    rw [hs, hc.expectingCount]
    exact Nat.lt_irrefl n
  rw [run_readAsync (by omega), onReceived, run_bind_of_ok _ (EStateM.run_get _),
    if_neg (by rw [hc.receivingPrefix]; exact Bool.false_ne_true), if_neg hfull]
  simp only [hbuf]
  cases hr : (read ⟨segment, beyond⟩).result with
  | ok packet =>
    rw [run_bind_of_ok _ (Traced.run_toAction_of_ok hr _)]
    exact ⟨_, rfl, ⟨rfl, rfl, rfl⟩, rfl⟩
  | error e => rw [run_bind_of_error _ (Traced.run_toAction_of_error hr _)]

end SVFWPacketClient

end AcOpenServer
