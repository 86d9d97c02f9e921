import AcOpenServer.SVFW.Message

namespace AcOpenServer
open Library
set_option autoImplicit true

namespace SVFWMessageClient

variable {header : SVFWMessageHeader} {responseHeader : Option SVFWMessageResponseHeader}
  {payload : List UInt8} {beyond : Nat → UInt8}

theorem result_read_append [Layout α] (a : List UInt8) (value : α) (b : List UInt8)
    (ha : a.length = n) (hs : 0 < Layout.size α) :
    (BinaryBufferReader.read α ⟨a ++ (Layout.encode value ++ b), beyond⟩ n).result =
      .ok value := by
  have hlen : n + Layout.size α ≤ (⟨a ++ (Layout.encode value ++ b), beyond⟩ : Span).length := by
    simp only [Span.length, List.length_append, Layout.length_encode]
    omega
  have htake : ((a ++ (Layout.encode value ++ b)).drop n).take (Layout.size α) =
      Layout.encode value := by
    rw [List.drop_left' ha, List.take_left' (Layout.length_encode value)]
  rw [BinaryBufferReader.read_of_lt (by omega), Span.window_of_le hlen, htake,
    Layout.decode_encode]

/-- What `Read` makes of the bytes of a message: everything but the payload comes back, and
the payload does unless it is as long as what precedes it. -/
theorem result_read (beyond : Nat → UInt8) (payload : List UInt8)
    (h : Consistent header responseHeader) :
    (read ⟨messageBytes header responseHeader payload, beyond⟩).result =
      .ok ⟨header, responseHeader,
        if payload.length = payloadOffset header then [] else payload⟩ := by
  have hlen := length_messageBytes payload h
  have hheader : (BinaryBufferReader.read SVFWMessageHeader
      ⟨messageBytes header responseHeader payload, beyond⟩ 0).result = .ok header.swapEndian :=
    result_read_append [] header.swapEndian _ rfl (by simp)
  have hsize : ¬ (⟨messageBytes header responseHeader payload, beyond⟩ : Span).length <
      messageHeaderSize := by
    simp only [Span.length, hlen, payloadOffset, messageHeaderSize]
    split <;> omega
  have hoffset : (if header.messageType = .reply then
      messageHeaderSize + messageResponseHeaderSize else messageHeaderSize) =
        payloadOffset header := rfl
  have hpayload : (if (⟨messageBytes header responseHeader payload, beyond⟩ : Span).length -
        payloadOffset header = payloadOffset header then pure []
      else (⟨messageBytes header responseHeader payload, beyond⟩ : Span).sliceFrom
        (payloadOffset header)).result =
      .ok (if payload.length = payloadOffset header then [] else payload) := by
    simp only [Span.length, hlen, Nat.add_sub_cancel_left]
    split
    · rfl
    · have hle : payloadOffset header ≤
          (⟨messageBytes header responseHeader payload, beyond⟩ : Span).length := by
        simp only [Span.length, hlen]
        omega
      have hdrop : (messageBytes header responseHeader payload).drop (payloadOffset header) =
          payload := by
        have hnil : (messageBytes header responseHeader []).length = payloadOffset header :=
          length_messageBytes _ h
        have happend : messageBytes header responseHeader payload =
            messageBytes header responseHeader [] ++ payload := by
          simp only [messageBytes, List.append_nil, List.append_assoc]
        rw [happend, List.drop_left' hnil]
      rw [Span.sliceFrom_of_le hle, hdrop]
  rw [read, if_neg hsize, Traced.result_bind_of_ok _ hheader]
  simp only [SVFWMessageHeader.swapEndian_swapEndian, hoffset]
  by_cases hr : header.messageType = .reply
  · obtain ⟨r, rfl⟩ := h.eq_some hr
    have hresponse : (BinaryBufferReader.read SVFWMessageResponseHeader
        ⟨messageBytes header (some r) payload, beyond⟩ messageHeaderSize).result = .ok r :=
      result_read_append _ r payload (Layout.length_encode _) (by simp)
    have hnot : ¬ (⟨messageBytes header (some r) payload, beyond⟩ : Span).length <
        payloadOffset header := by
      simp only [Span.length, hlen]
      omega
    rw [if_pos hr, if_neg hnot, Traced.result_bind_of_ok (a := some r),
      Traced.result_bind_of_ok _ hpayload]
    · rfl
    · rw [Traced.result_bind_of_ok _ hresponse]
      rfl
  · cases h.eq_none hr
    rw [if_neg hr, Traced.pure_bind, Traced.result_bind_of_ok _ hpayload]
    rfl

theorem result_write_reply (r : SVFWMessageResponseHeader) (payload : List UInt8)
    (hr : header.messageType = .reply) (hlen : 28 + payload.length ≤ maxArrayLength) :
    (write ⟨header, some r, payload⟩).result =
      .ok ⟨.zero, messageBytes header (some r.swapEndian) payload⟩ := by
  have hnew : (newArray (messageHeaderSize + messageResponseHeaderSize + payload.length)).result =
      .ok ([] ++ (List.replicate 12 0 ++
        (List.replicate 16 0 ++ (List.replicate payload.length 0 ++ [])))) := by
    simp only [messageHeaderSize, messageResponseHeaderSize]
    rw [newArray_of_le (by omega), List.nil_append, List.append_nil,
      List.replicate_append_replicate, List.replicate_append_replicate, ← Nat.add_assoc]
    rfl
  have hheader := congrArg Traced.result (BinaryBufferWriter.write_append header.swapEndian
    (c := List.replicate 16 0 ++ (List.replicate payload.length 0 ++ []))
    (List.length_nil (α := UInt8)) (List.length_replicate (n := 12) (a := (0 : UInt8)))
    (by simp))
  have hresponse := congrArg Traced.result (BinaryBufferWriter.write_append r.swapEndian
    (c := List.replicate payload.length 0 ++ []) (n := messageHeaderSize)
    (Layout.length_encode header.swapEndian) (List.length_replicate (n := 16) (a := (0 : UInt8)))
    (by simp))
  have hbytes := arrayCopy_append (c := []) payload
    (a := Layout.encode header.swapEndian ++ Layout.encode r.swapEndian) (n := 28)
    (by simp only [List.length_append, Layout.length_encode, SVFWMessageHeader.size_eq,
      SVFWMessageResponseHeader.size_eq]) (List.length_replicate (a := (0 : UInt8)))
  rw [List.append_assoc, List.append_assoc] at hbytes
  simp only [write, hr, decide_true, if_true]
  rw [Traced.result_bind_of_ok _ hnew, Traced.result_bind_of_ok _ hheader, List.nil_append,
    Traced.result_bind_of_ok _ hresponse]
  simp only [messageHeaderSize, messageResponseHeaderSize]
  rw [hbytes, Traced.pure_bind]
  simp only [Traced.result_pure, messageBytes, Option.map_some, Option.getD_some, List.append_nil]

theorem result_write_of_ne (payload : List UInt8) (hr : header.messageType ≠ .reply)
    (hlen : 12 + payload.length ≤ maxArrayLength) :
    (write ⟨header, none, payload⟩).result = .ok ⟨.zero, messageBytes header none payload⟩ := by
  have hnew : (newArray (messageHeaderSize + 0 + payload.length)).result =
      .ok ([] ++ (List.replicate 12 0 ++ (List.replicate payload.length 0 ++ []))) := by
    simp only [messageHeaderSize]
    rw [newArray_of_le (by omega), List.nil_append, List.append_nil,
      List.replicate_append_replicate]
    rfl
  have hheader := congrArg Traced.result (BinaryBufferWriter.write_append header.swapEndian
    (c := List.replicate payload.length 0 ++ []) (List.length_nil (α := UInt8))
    (List.length_replicate (n := 12) (a := (0 : UInt8))) (by simp))
  have hbytes := arrayCopy_append (c := []) payload (a := Layout.encode header.swapEndian) (n := 12)
    (Layout.length_encode header.swapEndian) (List.length_replicate (a := (0 : UInt8)))
  simp only [write, hr, decide_false, Bool.false_eq_true, if_false]
  rw [Traced.result_bind_of_ok _ hnew, Traced.result_bind_of_ok _ hheader, List.nil_append,
    Traced.pure_bind]
  simp only [messageHeaderSize]
  rw [hbytes, Traced.pure_bind]
  simp only [Traced.result_pure, messageBytes, Option.map_none, Option.getD_none,
    List.nil_append, List.append_nil]

/-- `Write` produces the bytes of the message, with its response header swapped. -/
theorem result_write (payload : List UInt8) (h : Consistent header responseHeader)
    (hlen : payloadOffset header + payload.length ≤ maxArrayLength) :
    (write ⟨header, responseHeader, payload⟩).result =
      .ok ⟨.zero, messageBytes header (responseHeader.map (·.swapEndian)) payload⟩ := by
  by_cases hr : header.messageType = .reply
  · obtain ⟨r, rfl⟩ := h.eq_some hr
    rw [payloadOffset, if_pos hr] at hlen
    exact result_write_reply r payload hr hlen
  · cases h.eq_none hr
    rw [payloadOffset, if_neg hr] at hlen
    exact result_write_of_ne payload hr hlen

theorem result_write_of_lt (header : SVFWMessageHeader)
    (responseHeader : Option SVFWMessageResponseHeader) (payload : List UInt8)
    (hlen : maxArrayLength < payloadOffset header + payload.length) :
    ∃ e, (write ⟨header, responseHeader, payload⟩).result = .error e := by
  obtain ⟨e, hnew⟩ : ∃ e, newArray (messageHeaderSize +
      (if decide (header.messageType = .reply) = true then messageResponseHeaderSize else 0) +
        payload.length) = throw e := by
    apply newArray_of_lt
    refine hlen.trans_eq ?_
    simp only [payloadOffset, messageHeaderSize, messageResponseHeaderSize, decide_eq_true_eq]
    split <;> rfl
  refine ⟨e, ?_⟩
  simp only [write]
  rw [hnew, Traced.throw_bind]
  rfl

def headerOf (bs : List UInt8) : SVFWMessageHeader :=
  (Layout.decode (bs.take 12) : SVFWMessageHeader).swapEndian

def responseHeaderOf (bs : List UInt8) : Option SVFWMessageResponseHeader :=
  if (headerOf bs).messageType = .reply then some (Layout.decode ((bs.drop 12).take 16)) else none

theorem consistent_headerOf (bs : List UInt8) :
    Consistent (headerOf bs) (responseHeaderOf bs) := by
  unfold Consistent responseHeaderOf
  split
  · rename_i h
    exact ⟨fun _ => h, fun _ => rfl⟩
  · rename_i h
    exact ⟨fun h' => Bool.noConfusion h', fun h' => (h h').elim⟩

theorem messageBytes_headerOf {bs : List UInt8} (h : payloadOffset (headerOf bs) ≤ bs.length) :
    messageBytes (headerOf bs) (responseHeaderOf bs) (bs.drop (payloadOffset (headerOf bs))) =
      bs := by
  have hheader : 12 ≤ bs.length → Layout.encode (headerOf bs).swapEndian = bs.take 12 := by
    intro hle
    rw [headerOf, SVFWMessageHeader.swapEndian_swapEndian]
    apply Layout.encode_decode
    rw [List.length_take, Nat.min_eq_left hle, SVFWMessageHeader.size_eq]
  by_cases hr : (headerOf bs).messageType = .reply
  · rw [payloadOffset, if_pos hr] at h ⊢
    have hresponse : Layout.encode (Layout.decode ((bs.drop 12).take 16) :
        SVFWMessageResponseHeader) = (bs.drop 12).take 16 := by
      apply Layout.encode_decode
      rw [List.length_take, List.length_drop, SVFWMessageResponseHeader.size_eq]
      omega
    rw [messageBytes, responseHeaderOf, if_pos hr, Option.map_some, Option.getD_some, hresponse,
      hheader (by omega), ← List.drop_drop (i := 16) (j := 12), List.take_append_drop,
      List.take_append_drop]
  · rw [payloadOffset, if_neg hr] at h ⊢
    rw [messageBytes, responseHeaderOf, if_neg hr, Option.map_none, Option.getD_none,
      List.nil_append, hheader h, List.take_append_drop]

theorem result_read_of_lt (beyond : Nat → UInt8) {bs : List UInt8}
    (h : bs.length < payloadOffset (headerOf bs)) :
    ∃ message, (read ⟨bs, beyond⟩).result = .error (.svfwMessage message) := by
  rw [read]
  split
  · exact ⟨_, rfl⟩
  · rename_i hsize
    simp only [Span.length, messageHeaderSize] at hsize
    have hheader : (BinaryBufferReader.read SVFWMessageHeader ⟨bs, beyond⟩ 0).result =
        .ok (Layout.decode (bs.take 12)) := by
      rw [BinaryBufferReader.read_of_lt (by simp only [Span.length]; omega),
        Span.window_of_le (by simp only [Span.length, SVFWMessageHeader.size_eq]; omega)]
      rfl
    have hr : (headerOf bs).messageType = .reply := by
      by_contra hr
      rw [payloadOffset, if_neg hr] at h
      omega
    rw [payloadOffset, if_pos hr] at h
    unfold headerOf at hr
    rw [Traced.result_bind_of_ok _ hheader]
    simp only [Span.length, messageHeaderSize, messageResponseHeaderSize, hr, if_true, h,
      Traced.throw_bind]
    exact ⟨_, rfl⟩

theorem result_read_of_le {bs : List UInt8} (h : payloadOffset (headerOf bs) ≤ bs.length) :
    (read ⟨bs, beyond⟩).result = .ok ⟨headerOf bs, responseHeaderOf bs,
      if bs.length - payloadOffset (headerOf bs) = payloadOffset (headerOf bs) then []
      else bs.drop (payloadOffset (headerOf bs))⟩ := by
  have hread := result_read beyond (bs.drop (payloadOffset (headerOf bs))) (consistent_headerOf bs)
  rw [messageBytes_headerOf h, List.length_drop] at hread
  exact hread

/-- The message fits an array, its payload is not as long as what precedes it, and the fields
of its response header read the same in both byte orders. -/
def Survives (header : SVFWMessageHeader) (responseHeader : Option SVFWMessageResponseHeader)
    (payloadLength : Nat) : Prop :=
  payloadOffset header + payloadLength ≤ maxArrayLength ∧ payloadLength ≠ payloadOffset header ∧
    ∀ r ∈ responseHeader, r.swapEndian = r

theorem map_swapEndian_eq_self :
    responseHeader.map (·.swapEndian) = responseHeader ↔
      ∀ r ∈ responseHeader, r.swapEndian = r := by
  cases responseHeader with
  | none => simp
  | some r => simp

theorem ite_nil_eq_self (header : SVFWMessageHeader) (payload : List UInt8) :
    (if payload.length = payloadOffset header then [] else payload) = payload ↔
      payload.length ≠ payloadOffset header := by
  have hpos := payloadOffset_pos header
  split
  · rename_i h
    constructor
    · intro hnil
      rw [← hnil, List.length_nil] at h
      omega
    · intro hne
      exact (hne h).elim
  · rename_i h
    exact ⟨fun _ => h, fun _ => rfl⟩

theorem Consistent.map_swapEndian (h : Consistent header responseHeader) :
    Consistent header (responseHeader.map (·.swapEndian)) := by
  rw [Consistent, Option.isSome_map]
  exact h

theorem result_read_write (h : Consistent header responseHeader) :
    (write ⟨header, responseHeader, payload⟩ >>= fun packet =>
        read ⟨packet.payload, beyond⟩).result = .ok ⟨header, responseHeader, payload⟩ ↔
      Survives header responseHeader payload.length := by
  by_cases hlen : payloadOffset header + payload.length ≤ maxArrayLength
  · rw [Traced.result_bind_of_ok _ (result_write _ h hlen), result_read _ _ h.map_swapEndian]
    simp only [Except.ok.injEq, SVFWMessage.mk.injEq, true_and, map_swapEndian_eq_self,
      ite_nil_eq_self, Survives, hlen]
    exact And.comm
  · obtain ⟨e, hwrite⟩ := result_write_of_lt header responseHeader _ (Nat.lt_of_not_le hlen)
    rw [Traced.result_bind_of_error _ hwrite]
    constructor
    · intro he
      cases he
    · intro hs
      exact (hlen hs.1).elim

theorem result_write_headerOf {bs : List UInt8}
    (h : payloadOffset (headerOf bs) ≤ bs.length) :
    (∃ header, (write ⟨headerOf bs, responseHeaderOf bs,
        if bs.length - payloadOffset (headerOf bs) = payloadOffset (headerOf bs) then []
        else bs.drop (payloadOffset (headerOf bs))⟩).result = .ok ⟨header, bs⟩) ↔
      Survives (headerOf bs) (responseHeaderOf bs)
        (bs.length - payloadOffset (headerOf bs)) := by
  have hc := consistent_headerOf bs
  have hself := ite_nil_eq_self (headerOf bs) (bs.drop (payloadOffset (headerOf bs)))
  rw [List.length_drop] at hself
  generalize hp : (if bs.length - payloadOffset (headerOf bs) = payloadOffset (headerOf bs)
    then [] else bs.drop (payloadOffset (headerOf bs))) = payload at hself ⊢
  have hle : payload.length ≤ bs.length - payloadOffset (headerOf bs) := by
    rw [← hp]
    split
    · exact Nat.zero_le _
    · rw [List.length_drop]
  by_cases hlen : payloadOffset (headerOf bs) + payload.length ≤ maxArrayLength
  · rw [result_write _ hc hlen]
    constructor
    · rintro ⟨header, he⟩
      simp only [Except.ok.injEq, SVFWPacket.mk.injEq] at he
      obtain ⟨hmap, hpayload⟩ := messageBytes_injective hc.map_swapEndian hc
        (he.2.trans (messageBytes_headerOf h).symm)
      refine ⟨?_, hself.1 hpayload, map_swapEndian_eq_self.1 hmap⟩
      rw [hpayload, List.length_drop] at hlen
      exact hlen
    · rintro ⟨_, hne, hmap⟩
      rw [map_swapEndian_eq_self.2 hmap, hself.2 hne, messageBytes_headerOf h]
      exact ⟨_, rfl⟩
  · obtain ⟨e, hwrite⟩ := result_write_of_lt (headerOf bs) (responseHeaderOf bs) payload
      (Nat.lt_of_not_le hlen)
    rw [hwrite]
    constructor
    · rintro ⟨header, he⟩
      cases he
    · intro hs
      have hlt := hs.1
      omega

/-- Reading and writing are inverse to each other exactly on the messages that survive. -/
theorem read_write_inverse_iff (beyond : Nat → UInt8) :
    (∀ message : SVFWMessage,
      (message.responseHeader.isSome ↔ message.header.messageType = .reply) →
      ((write message >>= fun packet => read ⟨packet.payload, beyond⟩).result = .ok message ↔
        Survives message.header message.responseHeader message.payload.length)) ∧
    ∀ bs message, (read ⟨bs, beyond⟩).result = .ok message →
      ((∃ header, (write message).result = .ok ⟨header, bs⟩) ↔
        Survives (headerOf bs) (responseHeaderOf bs)
          (bs.length - payloadOffset (headerOf bs))) := by
  refine ⟨?_, ?_⟩
  · intro message h
    exact result_read_write h
  · intro bs message hread
    have hle : payloadOffset (headerOf bs) ≤ bs.length := by
      by_contra hlt
      obtain ⟨m, herror⟩ := result_read_of_lt beyond (Nat.lt_of_not_le hlt)
      rw [herror] at hread
      cases hread
    rw [result_read_of_le hle] at hread
    cases hread
    exact result_write_headerOf hle

/-- A reply with a payload, whose response header reads the same in both byte orders, and the
bytes of it. -/
def sampleReply : SVFWMessage where
  header := ⟨12, .reply, 0x01020304⟩
  responseHeader := some ⟨0x01000001, 0x0A0B0B0A, 0, 0xFF1010FF⟩
  payload := [7, 8, 9]

def sampleReplyBytes : List UInt8 :=
  [0, 0, 0, 12, 0, 0, 0, 0, 1, 2, 3, 4, 1, 0, 0, 1, 10, 11, 11, 10, 0, 0, 0, 0, 255, 16, 16, 255,
    7, 8, 9]

theorem inverse_of_sampleReply :
    (write sampleReply >>= fun packet => read ⟨packet.payload, fun _ => 0⟩).result =
        .ok sampleReply ∧
      ∃ header, (write sampleReply).result = .ok ⟨header, sampleReplyBytes⟩ := by
  refine ⟨((read_write_inverse_iff fun _ => 0).1 sampleReply (by decide)).2 ?_,
    ((read_write_inverse_iff fun _ => 0).2 sampleReplyBytes sampleReply (by rfl)).2 ?_⟩
  · exact ⟨by decide, by decide, by decide⟩
  · exact ⟨by decide, by decide, by decide⟩

/-- The payload of a message that is not a reply is lost when it has twelve bytes. -/
theorem twelve_bytes_lost : ¬ ((∀ message beyond,
      (message.responseHeader.isSome ↔ message.header.messageType = .reply) →
      (write message >>= fun packet => read ⟨packet.payload, beyond⟩).result = .ok message) ∧
    ∀ bs beyond message, (read ⟨bs, beyond⟩).result = .ok message →
      ∃ header, (write message).result = .ok ⟨header, bs⟩) := by
  rintro ⟨h, _⟩
  have hlost := h ⟨⟨12, .getServiceStatus, 1⟩, none, List.replicate 12 1⟩ (fun _ => 0) (by decide)
  exact absurd hlost (by decide)

end SVFWMessageClient

end AcOpenServer
