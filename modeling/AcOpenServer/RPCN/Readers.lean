import AcOpenServer.RPCN.Fields

namespace AcOpenServer
open Library
set_option autoImplicit true

namespace Ticket

open BinaryBufferReader FieldFormat

theorem readsData_word [Layout α] {f : FieldFormat} (hpos : 0 < Layout.size α)
    (hsize : ∀ n, f.size n = Layout.size α) (hvalid : ∀ bs, f.Valid bs) :
    ReadsData f (readAt α) fun payload _ offset => readBigEndianRef α payload offset where
  returns := by
    intro payload length offset _ hfits _
    rw [hsize] at hfits ⊢
    rw [readBigEndianRef_of_lt (by omega), peek_eq_readAt hfits, readAt_take]
    refine ⟨rfl, ?_⟩
    intro a ha
    cases List.mem_singleton.1 ha
    exact hfits
  derails := by
    intro payload length offset _ _ hnot
    rw [hsize] at hnot
    have hlt : payload.length < offset + Layout.size α := by
      by_contra hle
      exact hnot ⟨by omega, hvalid _⟩
    by_cases h : offset < payload.length
    · rw [Derails, readBigEndianRef_of_lt h]
      exact hlt
    · exact (crashes_readBigEndianRef (by omega)).derails

theorem readsData_u32 : ReadsData .u32 (readAt UInt32) fun payload _ offset =>
    readUInt32BigEndianRef payload offset :=
  readsData_word (by decide) (fun _ => rfl) (fun _ => trivial)

theorem readTicketDataU32_reads : Reads .u32 (readAt UInt32) readTicketDataU32 :=
  readsData_u32.reads

theorem readsData_u64 : ReadsData .u64 (readAt UInt64) fun payload _ offset =>
    readUInt64BigEndianRef payload offset :=
  readsData_word (by decide) (fun _ => rfl) (fun _ => trivial)

theorem readTicketDataU64_reads : Reads .u64 (readAt UInt64) readTicketDataU64 :=
  readsData_u64.reads

/-- The time in the data of a field; for data out of range it does not matter. -/
def timeOf (bs : List UInt8) : DateTimeOffset :=
  if h : DateTimeOffset.InRange (readAt UInt64 bs).toInt64.toInt then
    .ofMilliseconds _ h
  else
    ⟨0, Nat.zero_le _⟩

theorem fromUnixTimeMilliseconds_of_inRange {bs : List UInt8}
    (h : DateTimeOffset.InRange (readAt UInt64 bs).toInt64.toInt) :
    DateTimeOffset.fromUnixTimeMilliseconds (readAt UInt64 bs).toInt64 = pure (timeOf bs) := by
  rw [DateTimeOffset.fromUnixTimeMilliseconds, dif_pos h, timeOf, dif_pos h]

theorem fromUnixTimeMilliseconds_of_not_inRange {bs : List UInt8}
    (h : ¬ DateTimeOffset.InRange (readAt UInt64 bs).toInt64.toInt) :
    DateTimeOffset.fromUnixTimeMilliseconds (readAt UInt64 bs).toInt64 =
      throw .argumentOutOfRange := by
  rw [DateTimeOffset.fromUnixTimeMilliseconds, dif_neg h]

theorem readsData_time : ReadsData .time timeOf fun payload _ offset => (do
    let (value, offset) ← readUInt64BigEndianRef payload offset
    return (← DateTimeOffset.fromUnixTimeMilliseconds value.toInt64, offset)) := by
  have hread : ∀ {payload : Span} {offset}, offset < payload.length →
      readUInt64BigEndianRef payload offset =
        ⟨.ok (peek UInt64 payload offset, offset + 8), [⟨offset, 8, payload.length⟩]⟩ :=
    fun h => readBigEndianRef_of_lt h
  have hpeek : ∀ {payload : Span} {offset}, offset + 8 ≤ payload.length →
      peek UInt64 payload offset = readAt UInt64 ((payload.bytes.drop offset).take 8) := by
    intro payload offset hfits
    rw [peek_eq_readAt (by exact hfits), ← readAt_take, Layout.size_uint64]
  refine ⟨?_, ?_⟩
  · intro payload length offset _ hfits hvalid
    simp only [FieldFormat.time] at hfits hvalid ⊢
    rw [hread (by omega), Traced.bind_of_ok _ rfl]
    dsimp only
    rw [hpeek hfits, fromUnixTimeMilliseconds_of_inRange hvalid, Traced.pure_bind]
    refine ⟨rfl, ?_⟩
    intro a ha
    rw [Traced.events_pure, List.append_nil] at ha
    cases List.mem_singleton.1 ha
    exact hfits
  · intro payload length offset _ _ hnot
    simp only [FieldFormat.time] at hnot
    by_cases h : offset < payload.length
    · by_cases hfits : offset + 8 ≤ payload.length
      · have hvalid := fun hvalid => hnot ⟨hfits, hvalid⟩
        refine (Crashes.after (congrArg Traced.result (hread h)) ?_).derails
        dsimp only
        rw [hpeek hfits, fromUnixTimeMilliseconds_of_not_inRange hvalid, Traced.throw_bind]
        exact crashes_throw not_isTicketParse_argumentOutOfRange
      · refine derails_of_access (a := ⟨offset, 8, payload.length⟩) ?_ hfits ?_
        · apply Traced.mem_events_bind
          rw [hread h]
          exact List.mem_singleton_self _
        · intro p hp
          rw [hread h] at hp
          obtain ⟨⟨value, next⟩, hvalue, hrest⟩ := Traced.result_bind_eq_ok.1 hp
          obtain ⟨time, _, hpair⟩ := Traced.result_bind_eq_ok.1 hrest
          have hnext : offset + 8 = next := congrArg Prod.snd (Except.ok.inj hvalue)
          rw [← Except.ok.inj hpair, ← hnext]
          exact Nat.lt_of_not_le hfits
    · exact ((crashes_readBigEndianRef (by omega)).bind _).derails

theorem readTicketDataTime_reads : Reads .time timeOf readTicketDataTime := readsData_time.reads

theorem readsData_binary : ReadsData .binary id fun payload length offset => (do
    let value ← payload.slice offset length
    return (value, offset + length)) := by
  refine ⟨?_, ?_⟩
  · intro payload length offset _ hfits _
    have hfits' : offset + length ≤ payload.length := hfits
    rw [Span.slice_of_le hfits', Traced.bind_of_ok _ rfl]
    refine ⟨rfl, ?_⟩
    intro a ha
    rw [Traced.events_pure, List.append_nil] at ha
    cases List.mem_singleton.1 ha
    exact hfits'
  · intro payload length offset _ _ hnot
    have hlt : payload.length < offset + length := by
      by_contra hle
      exact hnot ⟨Nat.le_of_not_lt hle, trivial⟩
    rw [Span.slice_of_lt hlt, Traced.throw_bind]
    exact (crashes_throw not_isTicketParse_argumentOutOfRange).derails

theorem readTicketDataBinary_reads : Reads .binary id readTicketDataBinary :=
  readsData_binary.reads

theorem readsData_nothing {f : FieldFormat} (hsize : ∀ n, f.size n = 0)
    (hvalid : ∀ bs, f.Valid bs) :
    ReadsData f (fun _ => ()) fun _ _ offset => (pure ((), offset) : Codec (Unit × Nat)) where
  returns := by
    intro payload length offset _ _ _
    rw [hsize]
    refine ⟨rfl, ?_⟩
    intro a ha
    cases ha
  derails := by
    intro payload length offset _ _ hnot
    rw [hsize, Nat.add_zero] at hnot
    rw [Derails, Traced.result_pure]
    by_contra hle
    exact hnot ⟨Nat.le_of_not_lt hle, hvalid _⟩

theorem readTicketDataEmpty_reads : Reads .empty (fun _ => ()) readTicketDataEmpty :=
  (readsData_nothing (f := .empty) (fun _ => rfl) (fun _ => trivial)).reads

theorem readBlobHeader_userdata_reads :
    Reads .blobUserdata (fun _ => ()) (readBlobHeader .blobUserdata) :=
  (readsData_nothing (f := .blobUserdata) (fun _ => rfl) (fun _ => trivial)).reads

theorem readBlobHeader_signature_reads :
    Reads .blobSignature (fun _ => ()) (readBlobHeader .blobSignature) :=
  (readsData_nothing (f := .blobSignature) (fun _ => rfl) (fun _ => trivial)).reads

/-- The string in the data of a field. -/
def stringOf (bs : List UInt8) : String := utf8Decode (bs.takeWhile (· ≠ 0))

theorem readsData_bString : ReadsData .bString stringOf fun payload length offset =>
    readFixedUTF8Ref payload length offset := by
  refine ⟨?_, ?_⟩
  · intro payload length offset _ hfits _
    have hfits' : offset + length ≤ payload.length := hfits
    have hin : 0 + offset + length ≤ payload.length := by omega
    obtain ⟨hresult, hevents⟩ := terminatorIndex_spec payload offset (.inl hin)
    rw [Nat.zero_add, Nat.zero_add] at hresult
    have htaken := List.takeWhile_prefix (l := (payload.bytes.drop offset).take length)
      (fun b => decide (b ≠ 0))
    have hle := htaken.length_le
    have hlength : ((payload.bytes.drop offset).take length).length = length := by
      rw [List.length_take, length_drop_offset]
      omega
    have hslice : offset + (((payload.bytes.drop offset).take length).takeWhile
        (fun b => decide (b ≠ 0))).length ≤ payload.length := by omega
    rw [readFixedUTF8Ref, Nat.min_eq_left (by omega), Traced.bind_of_ok _ hresult]
    dsimp only
    rw [Span.slice_of_le hslice, Traced.bind_of_ok _ rfl]
    refine ⟨?_, ?_⟩
    · rw [Traced.result_pure, take_length_takeWhile]
      rfl
    · intro a ha
      rcases List.mem_append.1 ha with ha | ha
      · exact hevents a ha
      · rw [Traced.events_pure, List.append_nil] at ha
        cases List.mem_singleton.1 ha
        exact hslice
  · intro payload length offset _ hpos hnot
    have hlt : payload.length < offset + length := by
      by_contra hle
      exact hnot ⟨Nat.le_of_not_lt hle, trivial⟩
    rw [readFixedUTF8Ref]
    dsimp only
    cases hindex : (terminatorIndex payload offset (min length payload.length) 0).result with
    | ok index =>
      refine Derails.after hindex ?_
      by_cases hslice : offset + index ≤ payload.length
      · rw [Span.slice_of_le hslice, Derails, Traced.result_bind_of_ok _ rfl]
        change payload.length < offset + min length payload.length
        omega
      · rw [Span.slice_of_lt (by omega), Traced.throw_bind]
        exact (crashes_throw not_isTicketParse_argumentOutOfRange).derails
    | error e =>
      rw [Derails, Traced.result_bind_of_error _ hindex]
      intro hs
      have hparse := hs.2 e (Traced.result_bind_of_error _ hindex)
      rw [result_terminatorIndex_eq_error hindex] at hparse
      exact not_isTicketParse_indexOutOfRange hparse

theorem readTicketDataBString_reads : Reads .bString stringOf readTicketDataBString :=
  readsData_bString.reads

end Ticket

end AcOpenServer
