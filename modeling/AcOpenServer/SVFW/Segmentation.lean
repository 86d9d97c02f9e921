import AcOpenServer.SVFW.Delivery

namespace AcOpenServer
open Library
set_option autoImplicit true

namespace SVFWPacketClient

/-- Every read returns at least one byte and at most what the buffer holds, as long as the
loop has not thrown. -/
def Delivers (beyond : Nat → UInt8) : SVFWPacketClient → List (List UInt8) → Prop
  | _, [] => True
  | c, segment :: segments =>
    0 < segment.length ∧ segment.length ≤ c.client.bufferLength ∧
      ∀ c', (readAsync beyond segment).run c = .ok () c' → Delivers beyond c' segments

/-- The header of a packet announces the length of its payload. -/
def Announced (packet : SVFWPacket) : Prop :=
  packet.header.payloadLength.toNat = packet.payload.length

theorem stamp_announced (counter : UInt16) {packet : SVFWPacket}
    (h : packet.payload.length < 2 ^ 32) : Announced (stamp counter packet) := by
  exact UInt32.toNat_ofNat_of_lt' h

theorem decode_framePrefix (packet : SVFWPacket) :
    (Layout.decode (framePrefix packet).reverse : UInt16).toNat =
      (12 + packet.payload.length) % 65536 := by
  rw [framePrefix, List.reverse_reverse, Layout.decode_encode]
  exact UInt16.toNat_ofNat'

variable {beyond : Nat → UInt8} {segment : List UInt8} {segments : List (List UInt8)}

theorem run_receiveAsync_cons (c : SVFWPacketClient) :
    (receiveAsync beyond (segment :: segments)).run c =
      (readAsync beyond segment >>= fun _ => receiveAsync beyond segments).run c := rfl

/-- A packet that fits its prefix is received by two reads that fill the buffer. -/
theorem run_readAsync_frame (beyond : Nat → UInt8) {c : SVFWPacketClient} (hc : AwaitsPrefix c)
    (ha : Announced packet) (hlen : packet.payload.length ≤ 65523) :
    ∃ c₁ c₂, (readAsync beyond (framePrefix packet)).run c = .ok () c₁ ∧
      AwaitsBody c₁ (12 + packet.payload.length) ∧
      (readAsync beyond (frameBody packet)).run c₁ = .ok () c₂ ∧ AwaitsPrefix c₂ ∧
      c₂.received = c.received ++ [packet] := by
  have hn := decode_framePrefix packet
  rw [Nat.mod_eq_of_lt (by omega)] at hn
  have htaken := run_readAsync_prefix beyond hc (length_framePrefix packet)
  simp only [hn] at htaken
  rw [if_neg (by unfold packetHeaderSize; omega)] at htaken
  obtain ⟨c₁, hrun₁, hc₁, hr₁⟩ := htaken
  have hread : (read ⟨frameBody packet, beyond⟩).result = .ok packet := by
    rw [frameBody, result_read, if_pos ha.symm]
  have hbody := run_readAsync_body beyond hc₁ (length_frameBody packet) (by omega)
  simp only [hread] at hbody
  obtain ⟨c₂, hrun₂, hc₂, hr₂⟩ := hbody
  exact ⟨c₁, c₂, hrun₁, hc₁, hrun₂, hc₂, by rw [hr₂, hr₁]⟩

theorem Delivers.cases_first {c : SVFWPacketClient} (hd : Delivers beyond c segments)
    (hflat : segments.flatten = expected ++ rest) (hpos : 0 < expected.length)
    (hcount : c.expectingCount = expected.length)
    (hbuffer : c.client.bufferLength = expected.length)
    (hrun : (readAsync beyond expected).run c = .ok () c') :
    (∃ others, segments = expected :: others ∧ others.flatten = rest ∧
        Delivers beyond c' others) ∨
      (segments.map List.length).head? ≠ some expected.length ∧
        ∀ c'', (receiveAsync beyond segments).run c ≠ .ok () c'' := by
  cases segments with
  | nil =>
    have hl := congrArg List.length hflat
    simp only [List.flatten_nil, List.length_nil, List.length_append] at hl
    omega
  | cons segment others =>
    obtain ⟨hpos', hle, hnext⟩ := hd
    by_cases hfull : segment.length = expected.length
    · obtain ⟨rfl, hothers⟩ := List.append_inj hflat hfull
      exact .inl ⟨others, rfl, hothers, hnext c' hrun⟩
    · obtain ⟨m, hshort⟩ := run_readAsync_short beyond (c := c) hpos' (by omega)
      refine .inr ⟨?_, ?_⟩
      · intro hhead
        exact hfull (Option.some.inj hhead)
      · intro c'' hok
        rw [run_receiveAsync_cons, run_bind_of_error _ hshort] at hok
        cases hok

theorem received_iff_lengths (beyond : Nat → UInt8) {packets : List SVFWPacket}
    {c : SVFWPacketClient}
    (hp : ∀ packet ∈ packets, Announced packet ∧ packet.payload.length ≤ 65523)
    (hc : AwaitsPrefix c) (hflat : segments.flatten = (packets.map frame).flatten)
    (hd : Delivers beyond c segments) :
    (∃ c', (receiveAsync beyond segments).run c = .ok () c' ∧
        c'.received = c.received ++ packets) ↔
      segments.map List.length =
        packets.flatMap fun packet => [2, 12 + packet.payload.length] := by
  induction packets generalizing c segments with
  | nil =>
    cases segments with
    | nil =>
      constructor
      · intro _
        rfl
      · intro _
        exact ⟨c, rfl, (List.append_nil _).symm⟩
    | cons segment segments =>
      have hnil := (List.append_eq_nil_iff.1 hflat).1
      rw [hnil] at hd
      exact (Nat.lt_irrefl 0 hd.1).elim
  | cons packet packets ih =>
    obtain ⟨ha, hlen⟩ := hp packet List.mem_cons_self
    have hpos : 0 < (frameBody packet).length := by
      rw [length_frameBody]
      omega
    rw [List.map_cons, List.flatten_cons, frame, List.append_assoc] at hflat
    obtain ⟨c₁, c₂, hrun₁, hc₁, hrun₂, hc₂, hr₂⟩ :=
      run_readAsync_frame beyond hc ha hlen
    -- the prefix
    rcases hd.cases_first hflat (Nat.two_pos) hc.expectingCount hc.bufferLength hrun₁ with
      ⟨others, rfl, hflat₁, hd₁⟩ | ⟨hhead, hnot⟩
    · -- the body
      rcases hd₁.cases_first hflat₁ hpos (hc₁.expectingCount.trans (length_frameBody _).symm)
        (hc₁.bufferLength.trans (length_frameBody _).symm) hrun₂ with
        ⟨others, rfl, hflat₂, hd₂⟩ | ⟨hhead, hnot⟩
      · have hrest := ih (fun p hp' => hp p (List.mem_cons_of_mem _ hp')) hc₂ hflat₂ hd₂
        rw [run_receiveAsync_cons, run_bind_of_ok _ hrun₁, run_receiveAsync_cons,
          run_bind_of_ok _ hrun₂, List.append_cons, ← hr₂, hrest]
        simp only [List.map_cons, List.flatMap_cons, length_framePrefix, length_frameBody,
          List.cons_append, List.nil_append, List.cons.injEq, true_and]
      · constructor
        · rintro ⟨c', hrun, _⟩
          rw [run_receiveAsync_cons, run_bind_of_ok _ hrun₁] at hrun
          exact (hnot c' hrun).elim
        · intro hl
          simp only [List.map_cons, List.flatMap_cons, List.cons_append, List.nil_append,
            List.cons.injEq] at hl
          rw [hl.2, List.head?_cons, length_frameBody] at hhead
          exact (hhead rfl).elim
    · constructor
      · rintro ⟨c', hrun, _⟩
        exact (hnot c' hrun).elim
      · intro hl
        rw [hl, List.flatMap_cons, List.cons_append, List.head?_cons, length_framePrefix] at hhead
        exact (hhead rfl).elim

theorem mem_stampAll {packets : List SVFWPacket} (h : packet ∈ stampAll counter packets) :
    ∃ source ∈ packets, ∃ n, packet = stamp n source := by
  induction packets generalizing counter with
  | nil => cases h
  | cons source packets ih =>
    rcases List.mem_cons.1 h with rfl | h
    · exact ⟨source, List.mem_cons_self, _, rfl⟩
    · obtain ⟨source', hs, n, he⟩ := ih h
      exact ⟨source', List.mem_cons_of_mem _ hs, n, he⟩

/-- The receiver at the other end of a fresh connection, about to read. -/
def freshReceiver (isPrivateClient : Bool) : SVFWPacketClient :=
  startReceive (new (.accepted isPrivateClient))

def freshSender (isPrivateClient : Bool) : SVFWPacketClient := new (.accepted isPrivateClient)

/-- The frames a sender has written arrive as the packets it sent, without an exception,
exactly when each read returns one whole prefix or one whole body. -/
theorem framing_iff_filled_reads {packets : List SVFWPacket} {sender : SVFWPacketClient}
    (hlen : ∀ packet ∈ packets, packet.payload.length ≤ 65523)
    (hsend : (sendAll packets).run (freshSender isPrivate) = .ok () sender)
    (hstream : segments.flatten = sender.client.written.flatten)
    (hd : Delivers beyond (freshReceiver isPrivate') segments) :
    (∃ c, (receiveAsync beyond segments).run (freshReceiver isPrivate') = .ok () c ∧
        c.received = stampAll 0 packets) ↔
      segments.map List.length =
        packets.flatMap fun packet => [2, 12 + packet.payload.length] := by
  have hfits : ∀ p ∈ packets, p.payload.length + 14 ≤ maxArrayLength := by
    intro p hp
    have hl := hlen p hp
    simp only [maxArrayLength]
    omega
  obtain ⟨sender', hrun, hwritten⟩ := run_sendAll (c := freshSender isPrivate) rfl hfits
  cases hsend.symm.trans hrun
  rw [hwritten] at hstream
  have hannounced : ∀ packet ∈ stampAll 0 packets,
      Announced packet ∧ packet.payload.length ≤ 65523 := by
    intro packet hp
    obtain ⟨source, hs, n, rfl⟩ := mem_stampAll hp
    have hl := hlen source hs
    exact ⟨stamp_announced n (by omega), hl⟩
  have hlengths : ∀ (counter : UInt16) (packets : List SVFWPacket),
      ((stampAll counter packets).flatMap fun packet => [2, 12 + packet.payload.length]) =
        packets.flatMap fun packet => [2, 12 + packet.payload.length] := by
    intro counter packets
    induction packets generalizing counter with
    | nil => rfl
    | cons packet packets ih => simp only [stampAll, stamp, List.flatMap_cons, ih]
  have hiff := received_iff_lengths beyond hannounced
    (startReceive_awaitsPrefix (new (.accepted isPrivate')) rfl) hstream hd
  rw [hlengths] at hiff
  exact hiff

/-- One empty packet and its frame. -/
def emptyPacket : SVFWPacket := ⟨⟨0, 0, 0, 0, 0⟩, []⟩

def emptySender : SVFWPacketClient :=
  { freshSender false with
    packetsSent := 1
    sent := [⟨⟨1, 0, 0, 0, 0⟩, []⟩]
    client :=
      { NetTcpClient.accepted false with
        written := [[0, 12, 0, 1, 0, 0, 0, 0, 0, 0, 0, 0, 0, 0]] } }

/-- Two packets with payloads, the fields the sender does not set being kept, and the reads that
return their prefixes and their bodies. -/
def twoPackets : List SVFWPacket := [⟨⟨0, 5, 0, 9, 0⟩, [65, 66, 67]⟩, ⟨⟨0, 0, 0, 0, 0⟩, [68]⟩]

def twoPacketReads : List (List UInt8) :=
  [[0, 15], [0, 1, 5, 0, 0, 0, 0, 3, 9, 0, 0, 3, 65, 66, 67],
    [0, 13], [0, 2, 0, 0, 0, 0, 0, 1, 0, 0, 0, 1, 68]]

theorem framing_of_twoPackets :
    ∃ c, (receiveAsync (fun _ => 0) twoPacketReads).run (freshReceiver false) = .ok () c ∧
      c.received = stampAll 0 twoPackets := by
  have hlen : ∀ packet ∈ twoPackets, packet.payload.length + 14 ≤ maxArrayLength := by decide
  obtain ⟨sender, hsend, hwritten⟩ := run_sendAll (c := freshSender false) rfl hlen
  have hstream : twoPacketReads.flatten = sender.client.written.flatten := by
    rw [hwritten]
    rfl
  refine (framing_iff_filled_reads (by decide) hsend hstream ?_).2 rfl
  refine ⟨by decide, by decide, ?_⟩
  intro c hc
  cases hc
  refine ⟨by decide, by decide, ?_⟩
  intro c hc
  cases hc
  refine ⟨by decide, by decide, ?_⟩
  intro c hc
  cases hc
  refine ⟨by decide, by decide, ?_⟩
  intro c hc
  trivial

/-- The two bytes of a prefix that arrive in two segments are an exception. -/
theorem split_prefix_not_received : ¬ ∀ (beyond : Nat → UInt8) (isPrivate isPrivate' : Bool)
    (packets : List SVFWPacket) (sender : SVFWPacketClient) (segments : List (List UInt8)),
    (∀ packet ∈ packets, packet.payload.length ≤ 65523) →
    (sendAll packets).run (freshSender isPrivate) = .ok () sender →
    segments.flatten = sender.client.written.flatten →
    Delivers beyond (freshReceiver isPrivate') segments →
    ∃ c, (receiveAsync beyond segments).run (freshReceiver isPrivate') = .ok () c ∧
      c.received = stampAll 0 packets := by
  intro h
  have hd : Delivers (fun _ => 0) (freshReceiver false)
      [[0], [12], [0, 1, 0, 0, 0, 0, 0, 0, 0, 0, 0, 0]] := by
    refine ⟨by decide, by decide, ?_⟩
    intro c hc
    cases hc
  obtain ⟨c, hc, _⟩ := h (fun _ => 0) false false [emptyPacket] emptySender _ (by decide) rfl
    (by rfl) hd
  cases hc

end SVFWPacketClient

end AcOpenServer
