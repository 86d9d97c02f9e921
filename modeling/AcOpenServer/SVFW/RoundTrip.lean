import AcOpenServer.SVFW.Segmentation

namespace AcOpenServer
open Library
set_option autoImplicit true

namespace SVFWPacketClient

/-- Every read fills the buffer, until the loop has thrown or the stream is used up; then
`unread` is what is left of the stream. -/
def FillsBuffer (beyond : Nat → UInt8) :
    SVFWPacketClient → List (List UInt8) → (unread : List UInt8) → Prop
  | _, [], unread => unread = []
  | c, segment :: segments, unread =>
    segment.length = c.client.bufferLength ∧
      match (readAsync beyond segment).run c with
      | .ok _ c' => FillsBuffer beyond c' segments unread
      | .error _ _ => segments = []

/-- The payload is short enough for the length of its packet to fit the prefix. -/
def fits (packet : SVFWPacket) : Bool := packet.payload.length ≤ 65523

variable {beyond : Nat → UInt8} {segments : List (List UInt8)} {unread : List UInt8}

theorem FillsBuffer.first {c : SVFWPacketClient} (hf : FillsBuffer beyond c segments unread)
    (hflat : segments.flatten ++ unread = expected ++ rest) (hpos : 0 < expected.length)
    (hbuffer : c.client.bufferLength = expected.length) :
    ∃ others, segments = expected :: others ∧ others.flatten ++ unread = rest ∧
      match (readAsync beyond expected).run c with
      | .ok _ c' => FillsBuffer beyond c' others unread
      | .error _ _ => others = [] := by
  cases segments with
  | nil =>
    have hnil : unread = [] := hf
    rw [hnil] at hflat
    have hl := congrArg List.length hflat
    simp only [List.flatten_nil, List.nil_append, List.length_nil, List.length_append] at hl
    omega
  | cons segment others =>
    obtain ⟨hfull, hnext⟩ := hf
    rw [List.flatten_cons, List.append_assoc] at hflat
    obtain ⟨rfl, hothers⟩ := List.append_inj hflat (hfull.trans hbuffer)
    exact ⟨others, rfl, hothers, hnext⟩

/-- The bytes of an oversized packet that are read as if they were a packet. -/
def truncated (packet : SVFWPacket) : List UInt8 :=
  (frameBody packet).take ((12 + packet.payload.length) % 65536)

theorem length_truncated (packet : SVFWPacket) :
    (truncated packet).length = (12 + packet.payload.length) % 65536 := by
  have hle := Nat.mod_le (12 + packet.payload.length) 65536
  rw [truncated, List.length_take, length_frameBody, Nat.min_eq_left hle]

/-- A prefix that was truncated is never accepted: either it announces less than a header, or
what it announces is not the length in the header. -/
theorem run_readAsync_oversized (beyond : Nat → UInt8) {c : SVFWPacketClient}
    (hc : AwaitsPrefix c)
    (ha : Announced packet) (hlen : 65523 < packet.payload.length) :
    (∃ message c', (readAsync beyond (framePrefix packet)).run c =
        .error (.svfwPacket message) c' ∧ c'.received = c.received) ∨
      ∃ c₁ message c', (readAsync beyond (framePrefix packet)).run c = .ok () c₁ ∧
        AwaitsBody c₁ (truncated packet).length ∧ 0 < (truncated packet).length ∧
        (readAsync beyond (truncated packet)).run c₁ = .error (.svfwPacket message) c' ∧
        c'.received = c.received := by
  have hn := decode_framePrefix packet
  have htaken := run_readAsync_prefix beyond hc (length_framePrefix packet)
  simp only [hn] at htaken
  rw [← length_truncated] at htaken
  by_cases hsmall : (truncated packet).length < packetHeaderSize
  · rw [if_pos hsmall] at htaken
    obtain ⟨message, hrun⟩ := htaken
    exact .inl ⟨message, _, hrun, rfl⟩
  · rw [if_neg hsmall] at htaken
    obtain ⟨c₁, hrun₁, hc₁, hr₁⟩ := htaken
    unfold packetHeaderSize at hsmall
    have hpos : 0 < (truncated packet).length := by omega
    have hsplit : truncated packet = Layout.encode packet.header.swapEndian ++
        packet.payload.take ((truncated packet).length - 12) := by
      rw [length_truncated] at hsmall ⊢
      rw [truncated, frameBody, List.take_append, Layout.length_encode,
        SVFWPacketHeader.size_eq, List.take_of_length_le]
      rw [Layout.length_encode, SVFWPacketHeader.size_eq]
      omega
    have hshort : (packet.payload.take ((truncated packet).length - 12)).length ≠
        packet.header.payloadLength.toNat := by
      have hlt := Nat.mod_lt (12 + packet.payload.length) (y := 65536) (by omega)
      rw [ha, List.length_take, length_truncated]
      omega
    have hread : ∃ message, (read ⟨truncated packet, beyond⟩).result =
        .error (.svfwPacket message) := by
      rw [hsplit, result_read, if_neg hshort]
      exact ⟨_, rfl⟩
    obtain ⟨message, hread⟩ := hread
    have hbody := run_readAsync_body beyond hc₁ rfl hpos
    simp only [hread] at hbody
    exact .inr ⟨c₁, message, _, hrun₁, hc₁, hpos, hbody, hr₁⟩

/-- What a receiver that reads whole buffers has done with a stream of packets. -/
def Outcome (beyond : Nat → UInt8) (c : SVFWPacketClient) (packets : List SVFWPacket)
    (segments : List (List UInt8)) (unread : List UInt8) : Prop :=
  if ∀ packet ∈ packets, fits packet then
    ∃ c', (receiveAsync beyond segments).run c = .ok () c' ∧
      c'.received = c.received ++ packets ∧ unread = []
  else
    ∃ message c', (receiveAsync beyond segments).run c = .error (.svfwPacket message) c' ∧
      c'.received = c.received ++ packets.takeWhile fits ∧
      (((packets.dropWhile fits).drop 1).map frame).flatten <:+ unread

theorem Outcome.cons_fits {c c₁ c₂ : SVFWPacketClient} (hfits : fits packet = true)
    (hrun₁ : (readAsync beyond (framePrefix packet)).run c = .ok () c₁)
    (hrun₂ : (readAsync beyond (frameBody packet)).run c₁ = .ok () c₂)
    (hr : c₂.received = c.received ++ [packet]) (ho : Outcome beyond c₂ packets segments unread) :
    Outcome beyond c (packet :: packets) (framePrefix packet :: frameBody packet :: segments)
      unread := by
  have hrun : (receiveAsync beyond (framePrefix packet :: frameBody packet :: segments)).run c =
      (receiveAsync beyond segments).run c₂ := by
    rw [run_receiveAsync_cons, run_bind_of_ok _ hrun₁, run_receiveAsync_cons,
      run_bind_of_ok _ hrun₂]
  have hall : (∀ p ∈ packet :: packets, fits p = true) ↔ ∀ p ∈ packets, fits p = true := by
    rw [List.forall_mem_cons]
    exact and_iff_right hfits
  simp only [Outcome, hrun, hall, hr, List.append_assoc, List.singleton_append] at ho ⊢
  rw [List.takeWhile_cons_of_pos hfits, List.dropWhile_cons_of_pos hfits]
  exact ho

theorem Outcome.cons_oversized {c c' : SVFWPacketClient} (hfits : ¬ fits packet = true)
    (hrun : (receiveAsync beyond segments).run c = .error (.svfwPacket message) c')
    (hr : c'.received = c.received) (hunread : (packets.map frame).flatten <:+ unread) :
    Outcome beyond c (packet :: packets) segments unread := by
  have hall : ¬ ∀ p ∈ packet :: packets, fits p = true := by
    intro h
    exact hfits (h packet List.mem_cons_self)
  rw [Outcome, if_neg hall]
  refine ⟨message, c', hrun, ?_, ?_⟩
  · rw [List.takeWhile_cons_of_neg hfits, List.append_nil, hr]
  · rw [List.dropWhile_cons_of_neg hfits, List.drop_one, List.tail_cons]
    exact hunread

theorem frameBody_eq_truncated (packet : SVFWPacket) :
    frameBody packet = truncated packet ++ (frameBody packet).drop (truncated packet).length := by
  have hle := List.length_take_le ((12 + packet.payload.length) % 65536) (frameBody packet)
  rw [truncated] at *
  rw [List.length_take, length_frameBody, Nat.min_eq_left (Nat.mod_le _ _), List.take_append_drop]

theorem outcome_of_fillsBuffer {packets : List SVFWPacket} {c : SVFWPacketClient}
    (hp : ∀ packet ∈ packets, Announced packet) (hc : AwaitsPrefix c)
    (hflat : segments.flatten ++ unread = (packets.map frame).flatten)
    (hf : FillsBuffer beyond c segments unread) : Outcome beyond c packets segments unread := by
  induction packets generalizing c segments with
  | nil =>
    obtain ⟨hsegments, hunread⟩ := List.append_eq_nil_iff.1 hflat
    cases segments with
    | nil =>
      rw [Outcome, if_pos (by intro p hp'; cases hp')]
      exact ⟨c, rfl, (List.append_nil _).symm, hunread⟩
    | cons segment segments =>
      have hnil := (List.append_eq_nil_iff.1 hsegments).1
      have hlen := hf.1.trans hc.bufferLength
      rw [hnil] at hlen
      cases hlen
  | cons packet packets ih =>
    have ha := hp packet List.mem_cons_self
    rw [List.map_cons, List.flatten_cons, frame, List.append_assoc] at hflat
    obtain ⟨others, rfl, hothers, hnext⟩ := hf.first hflat Nat.two_pos hc.bufferLength
    by_cases hlen : packet.payload.length ≤ 65523
    · obtain ⟨c₁, c₂, hrun₁, hc₁, hrun₂, hc₂, hr₂⟩ :=
        run_readAsync_frame beyond hc ha hlen
      rw [hrun₁] at hnext
      have hpos : 0 < (frameBody packet).length := by
        rw [length_frameBody]
        omega
      obtain ⟨others, rfl, hothers, hnext⟩ := hnext.first hothers hpos
        (hc₁.bufferLength.trans (length_frameBody _).symm)
      rw [hrun₂] at hnext
      have hrest := ih (fun p hp' => hp p (List.mem_cons_of_mem _ hp')) hc₂ hothers hnext
      exact .cons_fits (decide_eq_true hlen) hrun₁ hrun₂ hr₂ hrest
    · have hfits : ¬ fits packet = true := fun h => hlen (of_decide_eq_true h)
      rcases run_readAsync_oversized beyond hc ha (by omega) with
        ⟨message, c', hrun, hr⟩ | ⟨c₁, message, c', hrun₁, hc₁, hpos, hrun₂, hr⟩
      · rw [hrun] at hnext
        subst hnext
        have hthrows : (receiveAsync beyond [framePrefix packet]).run c =
            .error (.svfwPacket message) c' := by
          rw [run_receiveAsync_cons, run_bind_of_error _ hrun]
        exact .cons_oversized hfits hthrows hr ⟨frameBody packet, hothers.symm⟩
      · rw [hrun₁] at hnext
        rw [frameBody_eq_truncated, List.append_assoc] at hothers
        obtain ⟨others, rfl, hothers, hnext⟩ := hnext.first hothers hpos hc₁.bufferLength
        rw [hrun₂] at hnext
        subst hnext
        have hthrows : (receiveAsync beyond [framePrefix packet, truncated packet]).run c =
            .error (.svfwPacket message) c' := by
          rw [run_receiveAsync_cons, run_bind_of_ok _ hrun₁, run_receiveAsync_cons,
            run_bind_of_error _ hrun₂]
        exact .cons_oversized hfits hthrows hr ⟨_, hothers.symm⟩

/-- There is a way to read any stream of packets in whole buffers. -/
theorem exists_fillsBuffer {packets : List SVFWPacket} {c : SVFWPacketClient}
    (hp : ∀ packet ∈ packets, Announced packet) (hc : AwaitsPrefix c) :
    ∃ segments unread, segments.flatten ++ unread = (packets.map frame).flatten ∧
      FillsBuffer beyond c segments unread := by
  induction packets generalizing c with
  | nil => exact ⟨[], [], rfl, rfl⟩
  | cons packet packets ih =>
    have ha := hp packet List.mem_cons_self
    by_cases hlen : packet.payload.length ≤ 65523
    · obtain ⟨c₁, c₂, hrun₁, hc₁, hrun₂, hc₂, hr₂⟩ :=
        run_readAsync_frame beyond hc ha hlen
      obtain ⟨segments, unread, hflat, hf⟩ :=
        ih (fun p hp' => hp p (List.mem_cons_of_mem _ hp')) hc₂
      refine ⟨framePrefix packet :: frameBody packet :: segments, unread, ?_, ?_⟩
      · simp only [List.flatten_cons, List.append_assoc, List.map_cons, frame, hflat]
      · refine ⟨hc.bufferLength.symm, ?_⟩
        rw [hrun₁]
        refine ⟨(length_frameBody _).trans hc₁.bufferLength.symm, ?_⟩
        rw [hrun₂]
        exact hf
    · rcases run_readAsync_oversized beyond hc ha (by omega) with
        ⟨message, c', hrun, _⟩ | ⟨c₁, message, c', hrun₁, hc₁, _, hrun₂, _⟩
      · refine ⟨[framePrefix packet], frameBody packet ++ (packets.map frame).flatten, ?_, ?_⟩
        · simp only [List.flatten_cons, List.flatten_nil, List.append_nil, List.map_cons, frame,
            List.append_assoc]
        · refine ⟨hc.bufferLength.symm, ?_⟩
          rw [hrun]
      · refine ⟨[framePrefix packet, truncated packet],
          (frameBody packet).drop (truncated packet).length ++ (packets.map frame).flatten,
          ?_, ?_⟩
        · rw [List.map_cons, List.flatten_cons, frame, frameBody_eq_truncated packet]
          simp only [List.flatten_cons, List.flatten_nil, List.append_nil, List.append_assoc,
            List.drop_left]
        · refine ⟨hc.bufferLength.symm, ?_⟩
          rw [hrun₁]
          refine ⟨hc₁.bufferLength.symm, ?_⟩
          rw [hrun₂]

theorem takeWhile_stampAll (counter : UInt16) (packets : List SVFWPacket) :
    (stampAll counter packets).takeWhile fits = stampAll counter (packets.takeWhile fits) := by
  induction packets generalizing counter with
  | nil => rfl
  | cons packet packets ih =>
    have hstamp : fits (stamp (counter + 1) packet) = fits packet := rfl
    cases hfits : fits packet with
    | true =>
      rw [stampAll, List.takeWhile_cons_of_pos (hstamp.trans hfits), ih,
        List.takeWhile_cons_of_pos hfits, stampAll]
    | false =>
      have hneg : ¬ fits packet = true := by
        rw [hfits]
        exact Bool.false_ne_true
      rw [stampAll, List.takeWhile_cons_of_neg (by rwa [hstamp]),
        List.takeWhile_cons_of_neg hneg, stampAll]

theorem map_payload_stampAll (counter : UInt16) (packets : List SVFWPacket) :
    (stampAll counter packets).map (·.payload) = packets.map (·.payload) := by
  induction packets generalizing counter with
  | nil => rfl
  | cons packet packets ih => rw [stampAll, List.map_cons, ih, stamp, List.map_cons]

theorem getElem?_stampAll (counter : UInt16) (packets : List SVFWPacket) (n : Nat) :
    (stampAll counter packets)[n]? =
      packets[n]?.map (stamp (counter + UInt16.ofNat (n + 1))) := by
  induction packets generalizing counter n with
  | nil => rfl
  | cons packet packets ih =>
    cases n with
    | zero => rfl
    | succ n =>
      have hcounter : counter + 1 + UInt16.ofNat (n + 1) = counter + UInt16.ofNat (n + 1 + 1) := by
        rw [UInt16.ofNat_add (n + 1), UInt16.add_assoc, UInt16.add_comm 1]
        rfl
      rw [stampAll, List.getElem?_cons_succ, ih, List.getElem?_cons_succ, hcounter]

theorem header_stampAll {packets : List SVFWPacket} {n : Nat} {packet : SVFWPacket}
    (hfits : ∀ packet ∈ packets, fits packet)
    (h : (stampAll 0 packets)[n]? = some packet) :
    packet.header.sendCounter.toNat = (n + 1) % 65536 ∧
      packet.header.payloadLength.toNat = packet.payload.length ∧
      packet.header.payloadLengthShort.toNat = packet.payload.length := by
  rw [getElem?_stampAll, Option.map_eq_some_iff] at h
  obtain ⟨source, hsource, rfl⟩ := h
  have hlen : source.payload.length ≤ 65523 :=
    of_decide_eq_true (hfits source (List.mem_of_getElem? hsource))
  refine ⟨?_, UInt32.toNat_ofNat_of_lt' ?_, UInt16.toNat_ofNat_of_lt' ?_⟩
  · change (0 + UInt16.ofNat (n + 1)).toNat = _
    rw [UInt16.zero_add]
    exact UInt16.toNat_ofNat'
  · change source.payload.length < 2 ^ 32
    omega
  · change source.payload.length < 2 ^ 16
    omega

theorem forall_fits_stampAll (counter : UInt16) (packets : List SVFWPacket) :
    (∀ packet ∈ stampAll counter packets, fits packet) ↔
      ∀ packet ∈ packets, packet.payload.length ≤ 65523 := by
  have hpayloads : ∀ packets : List SVFWPacket,
      (∀ payload ∈ packets.map (·.payload), payload.length ≤ 65523) ↔
        ∀ packet ∈ packets, packet.payload.length ≤ 65523 := fun _ => List.forall_mem_map
  simp only [fits, decide_eq_true_eq]
  rw [← hpayloads, map_payload_stampAll, hpayloads]

theorem drop_takeWhile_succ (p : α → Bool) (l : List α) :
    l.drop ((l.takeWhile p).length + 1) = (l.dropWhile p).drop 1 := by
  rw [← List.drop_drop]
  nth_rewrite 2 [← List.takeWhile_append_dropWhile (p := p) (l := l)]
  rw [List.drop_left]

/-- Packets sent over a fresh connection and read in whole buffers arrive unchanged up to the
first one that is too long for its prefix; that one is an exception. -/
def ReceivedUntilOversized (beyond : Nat → UInt8) (isPrivate isPrivate' : Bool)
    (packets : List SVFWPacket) : Prop :=
  ∃ sender, (sendAll packets).run (freshSender isPrivate) = .ok () sender ∧
    (∃ segments unread, segments.flatten ++ unread = sender.client.written.flatten ∧
      FillsBuffer beyond (freshReceiver isPrivate') segments unread) ∧
    ∀ segments unread, segments.flatten ++ unread = sender.client.written.flatten →
      FillsBuffer beyond (freshReceiver isPrivate') segments unread →
      ∃ c : SVFWPacketClient,
        c.received.map (·.payload) = (packets.takeWhile fits).map (·.payload) ∧
        (∀ n packet, c.received[n]? = some packet →
          packet.header.sendCounter.toNat = (n + 1) % 65536 ∧
          packet.header.payloadLength.toNat = packet.payload.length ∧
          packet.header.payloadLengthShort.toNat = packet.payload.length) ∧
        if ∀ packet ∈ packets, packet.payload.length ≤ 65523 then
          (receiveAsync beyond segments).run (freshReceiver isPrivate') = .ok () c ∧
            unread = []
        else
          ∃ message, (receiveAsync beyond segments).run (freshReceiver isPrivate') =
              .error (.svfwPacket message) c ∧
            (sender.client.written.drop (c.received.length + 1)).flatten <:+ unread

theorem received_until_oversized (beyond : Nat → UInt8) (isPrivate isPrivate' : Bool)
    {packets : List SVFWPacket}
    (hlen : ∀ packet ∈ packets, packet.payload.length + 14 ≤ maxArrayLength) :
    ReceivedUntilOversized beyond isPrivate isPrivate' packets := by
  obtain ⟨sender, hsend, hwritten⟩ := run_sendAll (c := freshSender isPrivate) rfl hlen
  have hannounced : ∀ packet ∈ stampAll 0 packets, Announced packet := by
    intro packet hp
    obtain ⟨source, hs, n, rfl⟩ := mem_stampAll hp
    have hl := hlen source hs
    simp only [maxArrayLength] at hl
    exact stamp_announced n (by omega)
  have hawaits : AwaitsPrefix (freshReceiver isPrivate') := startReceive_awaitsPrefix _ rfl
  have hwritten' : sender.client.written = (stampAll 0 packets).map frame := hwritten
  have hfits : ∀ packet ∈ packets.takeWhile fits, fits packet :=
    fun packet hp => List.mem_takeWhile_imp hp
  have hall := forall_fits_stampAll 0 packets
  refine ⟨sender, hsend, ?_⟩
  rw [hwritten']
  refine ⟨exists_fillsBuffer hannounced hawaits, ?_⟩
  intro segments unread hflat hf
  have ho := outcome_of_fillsBuffer hannounced hawaits hflat hf
  simp only [Outcome, hall] at ho
  split at ho
  · rename_i hsmall
    obtain ⟨c, hrun, hreceived, hunread⟩ := ho
    have htake : packets.takeWhile fits = packets := by
      rw [List.takeWhile_eq_self_iff]
      intro packet hp
      exact decide_eq_true (hsmall packet hp)
    rw [htake] at hfits ⊢
    have hr : c.received = stampAll 0 packets := hreceived
    refine ⟨c, ?_, ?_, ?_⟩
    · rw [hr, map_payload_stampAll]
    · intro n packet hn
      rw [hr] at hn
      exact header_stampAll hfits hn
    · rw [if_pos hsmall]
      exact ⟨hrun, hunread⟩
  · rename_i hlarge
    obtain ⟨message, c, hrun, hreceived, hunread⟩ := ho
    have hr : c.received = (stampAll 0 packets).takeWhile fits := hreceived
    refine ⟨c, ?_, ?_, ?_⟩
    · rw [hr, takeWhile_stampAll, map_payload_stampAll]
    · intro n packet hn
      rw [hr, takeWhile_stampAll] at hn
      exact header_stampAll hfits hn
    · rw [if_neg hlarge]
      refine ⟨message, hrun, ?_⟩
      rw [← List.map_drop, hr, drop_takeWhile_succ]
      exact hunread

/-- Two packets that fit, one with a long payload, and another one behind it. -/
def longThird (payload : List UInt8) : List SVFWPacket :=
  twoPackets ++ [⟨⟨0, 0, 0, 0, 0⟩, payload⟩, ⟨⟨0, 0, 0, 0, 0⟩, [69]⟩]

theorem forall_mem_longThird {p : Nat → Prop} : (∀ packet ∈ longThird payload,
    p packet.payload.length) ↔ p 3 ∧ p 1 ∧ p payload.length ∧ p 1 := by
  simp only [longThird, twoPackets, List.cons_append, List.nil_append, List.forall_mem_cons,
    List.length_cons, List.length_nil, List.not_mem_nil, false_implies, implies_true, and_true]

theorem received_of_longThird : ∃ payload sender segments unread c message,
    payload.length = 65524 ∧
      (sendAll (longThird payload)).run (freshSender false) = .ok () sender ∧
      segments.flatten ++ unread = sender.client.written.flatten ∧
      (receiveAsync (fun _ => 0) segments).run (freshReceiver false) =
        .error (.svfwPacket message) c ∧
      c.received.map (·.payload) = [[65, 66, 67], [68]] := by
  obtain ⟨payload, hpayload⟩ : ∃ payload : List UInt8, payload.length = 65524 :=
    ⟨_, List.length_replicate (a := 1)⟩
  have hlen : ∀ packet ∈ longThird payload, packet.payload.length + 14 ≤ maxArrayLength := by
    rw [forall_mem_longThird (p := (· + 14 ≤ maxArrayLength)), hpayload]
    decide
  have hlarge : ¬ ∀ packet ∈ longThird payload, packet.payload.length ≤ 65523 := by
    rw [forall_mem_longThird (p := (· ≤ 65523)), hpayload]
    decide
  have htake : (longThird payload).takeWhile fits = twoPackets := by
    have hfits : fits ⟨⟨0, 0, 0, 0, 0⟩, payload⟩ = false := by
      simp only [fits, hpayload]
      decide
    simp only [longThird, twoPackets, List.cons_append, List.nil_append, List.takeWhile_cons, hfits]
    rfl
  obtain ⟨sender, hsend, ⟨segments, unread, hflat, hfills⟩, h⟩ :=
    received_until_oversized (fun _ => 0) false false hlen
  obtain ⟨c, hpayloads, _, houtcome⟩ := h segments unread hflat hfills
  rw [if_neg hlarge] at houtcome
  obtain ⟨message, hrun, _⟩ := houtcome
  rw [htake] at hpayloads
  exact ⟨payload, sender, segments, unread, c, message, hpayload, hsend, hflat, hrun, hpayloads⟩

/-- A payload that is an array itself but leaves no room for the headers cannot be sent. -/
theorem longest_payload_not_sent : ¬ ∀ (beyond : Nat → UInt8) (isPrivate isPrivate' : Bool)
    (packets : List SVFWPacket), (∀ packet ∈ packets, packet.payload.length + 14 < 2 ^ 31) →
    ReceivedUntilOversized beyond isPrivate isPrivate' packets := by
  intro h
  obtain ⟨payload, hpayload⟩ : ∃ payload : List UInt8, payload.length = maxArrayLength :=
    ⟨_, List.length_replicate (a := 0)⟩
  obtain ⟨sender, hsend, _⟩ := h (fun _ => 0) false false [⟨⟨0, 0, 0, 0, 0⟩, payload⟩] (by
    simp only [List.forall_mem_singleton, hpayload]
    decide)
  rcases sendAsync_cases (some .completed) ⟨⟨0, 0, 0, 0, 0⟩, payload⟩ (freshSender false) with
    ⟨_, _, _, hle, _⟩ | ⟨_, e, hthrows⟩
  · rw [hpayload] at hle
    exact absurd hle (by decide)
  · rw [sendAll, run_bind_of_error _ hthrows] at hsend
    cases hsend

end SVFWPacketClient

end AcOpenServer
