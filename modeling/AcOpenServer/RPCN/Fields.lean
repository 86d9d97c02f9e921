import AcOpenServer.RPCN.Ticket

namespace AcOpenServer
open Library
set_option autoImplicit true

/-- The only exception `TryParse` catches. -/
def Exn.IsTicketParse (e : Exn) : Prop := ∃ message, e = .ticketParse message

/-- Every access is in bounds, and an exception is one that `TryParse` catches. -/
abbrev Safe (m : Codec α) : Prop := Traced.Confined Access.InBounds Exn.IsTicketParse m

/-- The computation throws, and not safely. -/
def Crashes (m : Codec α) : Prop := (∃ e, m.result = .error e) ∧ ¬ Safe m

/-- A reader that went wrong and could only have returned an offset past the payload. -/
def Derails (length : Nat) (m : Codec (α × Nat)) : Prop :=
  match m.result with
  | .ok p => length < p.2
  | .error _ => ¬ Safe m

theorem crashes_throw {e : Exn} (h : ¬ e.IsTicketParse) : Crashes (throw e : Codec α) :=
  ⟨⟨e, rfl⟩, fun hs => h (Traced.confined_throw.1 hs)⟩

theorem Crashes.derails {m : Codec (α × Nat)} (h : Crashes m) : Derails length m := by
  obtain ⟨⟨e, he⟩, hs⟩ := h
  rw [Derails, he]
  exact hs

theorem Crashes.bind {m : Codec α} (h : Crashes m) (f : α → Codec β) : Crashes (m >>= f) := by
  obtain ⟨⟨e, he⟩, hs⟩ := h
  exact ⟨⟨e, Traced.result_bind_of_error f he⟩, fun hb => hs (Traced.confined_bind.1 hb).1⟩

theorem Crashes.after {m : Codec α} (hm : m.result = .ok a) {f : α → Codec β}
    (h : Crashes (f a)) : Crashes (m >>= f) := by
  obtain ⟨⟨e, he⟩, hs⟩ := h
  refine ⟨⟨e, ?_⟩, fun hb => hs ((Traced.confined_bind.1 hb).2 a hm)⟩
  rw [Traced.result_bind_of_ok f hm, he]

theorem Derails.after {m : Codec α} (hm : m.result = .ok a) {f : α → Codec (β × Nat)}
    (h : Derails length (f a)) : Derails length (m >>= f) := by
  unfold Derails at h ⊢
  rw [Traced.result_bind_of_ok f hm]
  cases hr : (f a).result with
  | ok p =>
    rw [hr] at h
    exact h
  | error e =>
    rw [hr] at h
    exact fun hb => h ((Traced.confined_bind.1 hb).2 a hm)

theorem Derails.crashes_bind {m : Codec (α × Nat)} (hm : Derails length m)
    {f : α × Nat → Codec β} (hf : ∀ a o, length ≤ o → Crashes (f (a, o))) :
    Crashes (m >>= f) := by
  unfold Derails at hm
  cases hr : m.result with
  | ok p =>
    rw [hr] at hm
    exact Crashes.after hr (hf p.1 p.2 hm.le)
  | error e =>
    rw [hr] at hm
    exact Crashes.bind ⟨⟨e, hr⟩, hm⟩ f

theorem crashes_of_access {m : Codec α} {f : α → Codec β} (ha : a ∈ m.events)
    (hout : ¬ a.InBounds) (hf : ∀ v, m.result = .ok v → ∃ e, (f v).result = .error e) :
    Crashes (m >>= f) := by
  refine ⟨?_, fun hb => hout ((Traced.confined_bind.1 hb).1.1 a ha)⟩
  cases hm : m.result with
  | ok v =>
    obtain ⟨e, he⟩ := hf v hm
    exact ⟨e, (Traced.result_bind_of_ok f hm).trans he⟩
  | error e => exact ⟨e, Traced.result_bind_of_error f hm⟩

namespace Ticket

open BinaryBufferReader

/-- A kind of field: its type, the length it must have, how many bytes of data follow a
length, and which data is accepted. -/
structure FieldFormat where
  type : TicketDataType
  expectedLength : Option Nat
  size : Nat → Nat
  Valid : List UInt8 → Prop

namespace FieldFormat

def typeAt (bs : List UInt8) : TicketDataType := ⟨readAt UInt16 bs⟩

def lengthAt (bs : List UInt8) : Nat := (readAt UInt16 (bs.drop 2)).toNat

def Expects (f : FieldFormat) (length : Nat) : Prop :=
  ∀ expected ∈ f.expectedLength, length = expected

def data (f : FieldFormat) (bs : List UInt8) : List UInt8 :=
  (bs.drop 4).take (f.size (lengthAt bs))

def rest (f : FieldFormat) (bs : List UInt8) : List UInt8 :=
  bs.drop (4 + f.size (lengthAt bs))

/-- The bytes begin with such a field. -/
structure Holds (f : FieldFormat) (bs : List UInt8) : Prop where
  header : 4 ≤ bs.length
  type : typeAt bs = f.type
  expects : f.Expects (lengthAt bs)
  fits : 4 + f.size (lengthAt bs) ≤ bs.length
  valid : f.Valid (f.data bs)

/-- The bytes begin with a field of another type, or of a length that is not expected. -/
def Rejects (f : FieldFormat) (bs : List UInt8) : Prop :=
  2 ≤ bs.length ∧ (typeAt bs ≠ f.type ∨ 4 ≤ bs.length ∧ ¬ f.Expects (lengthAt bs))

/-- The field is complete, with something acceptable behind it, unless it is rejected. -/
def Fits (f : FieldFormat) (next : List UInt8 → Prop) (bs : List UInt8) : Prop :=
  f.Rejects bs ∨ f.Holds bs ∧ next (f.rest bs)

def u32 : FieldFormat := ⟨.u32, some 4, fun _ => 4, fun _ => True⟩
def u64 : FieldFormat := ⟨.u64, some 8, fun _ => 8, fun _ => True⟩
def time : FieldFormat :=
  ⟨.time, some 8, fun _ => 8, fun bs => DateTimeOffset.InRange (readAt UInt64 bs).toInt64.toInt⟩
def bString : FieldFormat := ⟨.bString, none, id, fun _ => True⟩
def binary : FieldFormat := ⟨.binary, none, id, fun _ => True⟩
def empty : FieldFormat := ⟨.empty, some 0, fun _ => 0, fun _ => True⟩
def blobUserdata : FieldFormat := ⟨.blobUserdata, none, fun _ => 0, fun _ => True⟩
def blobSignature : FieldFormat := ⟨.blobSignature, none, fun _ => 0, fun _ => True⟩

end FieldFormat

open FieldFormat

theorem not_isTicketParse_indexOutOfRange : ¬ Exn.indexOutOfRange.IsTicketParse := by
  rintro ⟨m, h⟩
  cases h

theorem not_isTicketParse_argumentOutOfRange : ¬ Exn.argumentOutOfRange.IsTicketParse := by
  rintro ⟨m, h⟩
  cases h

theorem crashes_readBigEndianRef [Layout α] {payload : Span} (h : payload.length ≤ offset) :
    Crashes (readBigEndianRef α payload offset) := by
  rw [readBigEndianRef_of_le h]
  exact crashes_throw not_isTicketParse_indexOutOfRange

theorem peek_eq_readAt [Layout α] {payload : Span}
    (h : offset + Layout.size α ≤ payload.length) :
    peek α payload offset = readAt α (payload.bytes.drop offset) := by
  rw [peek, Span.window_of_le h, readAt]

/-- What is known about the part of a reader behind its `Expect`. -/
structure ReadsData (f : FieldFormat) (value : List UInt8 → α)
    (readData : Span → (length offset : Nat) → Codec (α × Nat)) : Prop where
  returns : ∀ {payload : Span} {length offset}, f.Expects length →
    offset + f.size length ≤ payload.length →
    f.Valid ((payload.bytes.drop offset).take (f.size length)) →
    (readData payload length offset).result =
        .ok (value ((payload.bytes.drop offset).take (f.size length)),
          offset + f.size length) ∧
      ∀ a ∈ (readData payload length offset).events, a.InBounds
  derails : ∀ {payload : Span} {length offset}, f.Expects length → 0 < offset →
    ¬ (offset + f.size length ≤ payload.length ∧
      f.Valid ((payload.bytes.drop offset).take (f.size length))) →
    Derails payload.length (readData payload length offset)

/-- What is known about a reader. -/
structure Reads (f : FieldFormat) (value : List UInt8 → α)
    (read : Span → (offset : Nat) → Codec (α × Nat)) : Prop where
  returns : ∀ {payload : Span} {offset}, f.Holds (payload.bytes.drop offset) →
    (read payload offset).result = .ok (value (f.data (payload.bytes.drop offset)),
        offset + (4 + f.size (lengthAt (payload.bytes.drop offset)))) ∧
      ∀ a ∈ (read payload offset).events, a.InBounds
  rejects : ∀ {payload : Span} {offset}, f.Rejects (payload.bytes.drop offset) →
    (∃ e, (read payload offset).result = .error e) ∧ Safe (read payload offset)
  derails : ∀ {payload : Span} {offset}, ¬ f.Holds (payload.bytes.drop offset) →
    ¬ f.Rejects (payload.bytes.drop offset) → Derails payload.length (read payload offset)

theorem derails_of_access {m : Codec (α × Nat)} (ha : a ∈ m.events) (hout : ¬ a.InBounds)
    (hm : ∀ p, m.result = .ok p → length < p.2) : Derails length m := by
  unfold Derails
  cases hr : m.result with
  | ok p => exact hm p hr
  | error e => exact fun hs => hout (hs.1 a ha)

section Expect

variable {payload : Span} {offset : Nat} {type : TicketDataType} {expectedLength : Option Nat}

theorem length_drop_offset (payload : Span) (offset : Nat) :
    (payload.bytes.drop offset).length = payload.length - offset :=
  List.length_drop

theorem result_expectLength_eq_ok
    (h : (expectLength expectedLength payload offset).result = .ok p) :
    (∀ expected ∈ expectedLength, p.1 = expected) ∧ p.2 = offset + 2 := by
  obtain ⟨⟨length, next⟩, hread, hrest⟩ := Traced.result_bind_eq_ok.1 h
  have hnext : next = offset + 2 := by
    obtain ⟨value, _, hpair⟩ := Traced.result_bind_eq_ok.1 hread
    cases hpair
    rfl
  dsimp only at hrest
  split at hrest
  · rename_i hexpects
    cases hrest
    exact ⟨hexpects, hnext⟩
  · cases hrest

theorem crashes_expectLength (expectedLength : Option Nat) (h : payload.length ≤ offset) :
    Crashes (expectLength expectedLength payload offset) :=
  (crashes_readBigEndianRef h).bind _

theorem expectLength_of_lt (h : offset < payload.length) :
    expectLength expectedLength payload offset =
      ⟨if ∀ expected ∈ expectedLength, (peek UInt16 payload offset).toNat = expected then
          .ok ((peek UInt16 payload offset).toNat, offset + 2)
        else .error (unexpectedLength (expectedLength.getD 0) (peek UInt16 payload offset)),
        [⟨offset, 2, payload.length⟩]⟩ := by
  have hread := readBigEndianRef_of_lt (α := UInt16) h
  rw [expectLength, readUInt16BigEndianRef, Traced.bind_of_ok _ (congrArg Traced.result hread),
    hread]
  dsimp only
  split
  · rfl
  · rfl

theorem expect_of_ne (h : offset < payload.length)
    (hne : (⟨peek UInt16 payload offset⟩ : TicketDataType) ≠ type) :
    expect type expectedLength payload offset =
      ⟨.error (unexpectedType type ⟨peek UInt16 payload offset⟩),
        [⟨offset, 2, payload.length⟩]⟩ := by
  have hread := readBigEndianRef_of_lt (α := UInt16) h
  rw [expect, readUInt16BigEndianRef, Traced.bind_of_ok _ (congrArg Traced.result hread), hread]
  dsimp only
  rw [if_pos hne]
  rfl

theorem expect_of_eq (h : offset < payload.length)
    (heq : (⟨peek UInt16 payload offset⟩ : TicketDataType) = type) :
    expect type expectedLength payload offset =
      ⟨(expectLength expectedLength payload (offset + 2)).result,
        ⟨offset, 2, payload.length⟩ ::
          (expectLength expectedLength payload (offset + 2)).events⟩ := by
  have hread := readBigEndianRef_of_lt (α := UInt16) h
  rw [expect, readUInt16BigEndianRef, Traced.bind_of_ok _ (congrArg Traced.result hread), hread]
  dsimp only
  rw [if_neg (not_not_intro heq)]
  rfl

theorem crashes_expect (h : payload.length < offset + 2) :
    Crashes (expect type expectedLength payload offset) := by
  by_cases hlt : offset < payload.length
  · have hread := readBigEndianRef_of_lt (α := UInt16) hlt
    refine crashes_of_access (a := ⟨offset, 2, payload.length⟩) ?_ ?_ ?_
    · rw [readUInt16BigEndianRef, hread]
      exact List.mem_singleton_self _
    · simp only [Access.InBounds]
      omega
    · rintro ⟨type, next⟩ hv
      rw [readUInt16BigEndianRef, hread] at hv
      cases hv
      dsimp only
      split
      · exact ⟨_, rfl⟩
      · exact (crashes_expectLength _ (by rw [Layout.size_uint16]; omega)).1
  · exact (crashes_readBigEndianRef (by omega)).bind _

theorem typeAt_eq (h : offset + 2 ≤ payload.length) :
    (⟨peek UInt16 payload offset⟩ : TicketDataType) = typeAt (payload.bytes.drop offset) := by
  rw [typeAt, peek_eq_readAt h]

theorem lengthAt_eq (h : offset + 4 ≤ payload.length) :
    (peek UInt16 payload (offset + 2)).toNat = lengthAt (payload.bytes.drop offset) := by
  rw [lengthAt, peek_eq_readAt (by rw [Layout.size_uint16]; omega), List.drop_drop]

theorem expect_of_expects (h : offset + 4 ≤ payload.length)
    (htype : typeAt (payload.bytes.drop offset) = type)
    (hexpects : ∀ expected ∈ expectedLength,
      lengthAt (payload.bytes.drop offset) = expected) :
    expect type expectedLength payload offset =
      ⟨.ok (lengthAt (payload.bytes.drop offset), offset + 4),
        [⟨offset, 2, payload.length⟩, ⟨offset + 2, 2, payload.length⟩]⟩ := by
  rw [expect_of_eq (by omega) ((typeAt_eq (by omega)).trans htype),
    expectLength_of_lt (by omega), lengthAt_eq h, if_pos hexpects]

theorem safe_of_events {m : Codec α} (he : ∀ a ∈ m.events, a.InBounds)
    (hm : m.result = .error (.ticketParse message)) : Safe m := by
  refine ⟨he, ?_⟩
  intro e hr
  cases hm.symm.trans hr
  exact ⟨_, rfl⟩

theorem expect_of_rejects {f : FieldFormat} (h : f.Rejects (payload.bytes.drop offset)) :
    (∃ e, (expect f.type f.expectedLength payload offset).result = .error e) ∧
      Safe (expect f.type f.expectedLength payload offset) := by
  have hlen := length_drop_offset payload offset
  obtain ⟨h2, hrejects⟩ := h
  have hin : (⟨offset, 2, payload.length⟩ : Access).InBounds := by
    simp only [Access.InBounds]
    omega
  by_cases htype : typeAt (payload.bytes.drop offset) = f.type
  · obtain ⟨h4, hexpects⟩ := hrejects.resolve_left (not_not_intro htype)
    unfold Expects at hexpects
    rw [expect_of_eq (by omega) ((typeAt_eq (by omega)).trans htype),
      expectLength_of_lt (by omega), lengthAt_eq (by omega), if_neg hexpects]
    refine ⟨⟨_, rfl⟩, safe_of_events ?_ rfl⟩
    intro a ha
    rcases List.mem_cons.1 ha with rfl | ha
    · exact hin
    · cases List.mem_singleton.1 ha
      simp only [Access.InBounds]
      omega
  · rw [expect_of_ne (by omega) (by rwa [typeAt_eq (by omega)])]
    refine ⟨⟨_, rfl⟩, safe_of_events ?_ rfl⟩
    intro a ha
    cases List.mem_singleton.1 ha
    exact hin

theorem expect_of_cut (expectedLength : Option Nat) (h : payload.length < offset + 4)
    (h2 : offset + 2 ≤ payload.length)
    (htype : typeAt (payload.bytes.drop offset) = type) :
    Crashes (expect type expectedLength payload offset) ∨
      (∃ a ∈ (expect type expectedLength payload offset).events, ¬ a.InBounds) ∧
        ∀ p, (expect type expectedLength payload offset).result = .ok p →
          (∀ expected ∈ expectedLength, p.1 = expected) ∧ p.2 = offset + 4 := by
  rw [expect_of_eq (by omega) ((typeAt_eq (by omega)).trans htype)]
  by_cases h3 : offset + 2 < payload.length
  · refine .inr ⟨⟨⟨offset + 2, 2, payload.length⟩, ?_, ?_⟩, ?_⟩
    · rw [expectLength_of_lt h3]
      exact List.mem_cons_of_mem _ (List.mem_singleton_self _)
    · simp only [Access.InBounds]
      omega
    · intro p hp
      exact result_expectLength_eq_ok hp
  · have hout : payload.length ≤ offset + 2 := by omega
    obtain ⟨⟨e, he⟩, hsafe⟩ := crashes_expectLength expectedLength hout
    refine .inl ⟨⟨e, he⟩, fun hs => hsafe ⟨?_, hs.2⟩⟩
    intro a ha
    exact hs.1 a (List.mem_cons_of_mem _ ha)

end Expect

theorem ReadsData.reads {f : FieldFormat} {value : List UInt8 → α}
    {readData : Span → (length offset : Nat) → Codec (α × Nat)} (h : ReadsData f value readData) :
    Reads f value fun payload offset =>
      readTicketData f.type f.expectedLength (readData payload) payload offset where
  returns := by
    intro payload offset hholds
    have hlen := length_drop_offset payload offset
    have hheader := hholds.header
    have hfits := hholds.fits
    have hvalid := hholds.valid
    rw [data, List.drop_drop] at hvalid
    have hexpect := expect_of_expects (by omega) hholds.type hholds.expects
    have hdata : offset + 4 + f.size (lengthAt (payload.bytes.drop offset)) ≤ payload.length := by
      omega
    obtain ⟨hresult, hevents⟩ := h.returns hholds.expects hdata hvalid
    rw [readTicketData, Traced.bind_of_ok _ (congrArg Traced.result hexpect), hexpect]
    refine ⟨?_, ?_⟩
    · dsimp only
      rw [hresult, data, List.drop_drop, Nat.add_assoc]
    · intro a ha
      rcases List.mem_append.1 ha with ha | ha
      · simp only [List.mem_cons, List.not_mem_nil, or_false] at ha
        rcases ha with rfl | rfl
        · simp only [Access.InBounds]
          omega
        · simp only [Access.InBounds]
          omega
      · exact hevents a ha
  rejects := by
    intro payload offset hrejects
    obtain ⟨⟨e, he⟩, hsafe⟩ := expect_of_rejects hrejects
    refine ⟨⟨e, Traced.result_bind_of_error _ he⟩, Traced.confined_bind.2 ⟨hsafe, ?_⟩⟩
    intro v hv
    rw [he] at hv
    cases hv
  derails := by
    intro payload offset hholds hrejects
    have hlen := length_drop_offset payload offset
    by_cases h2 : 2 ≤ (payload.bytes.drop offset).length
    · have htype : typeAt (payload.bytes.drop offset) = f.type := by
        by_contra hne
        exact hrejects ⟨h2, .inl hne⟩
      by_cases h4 : 4 ≤ (payload.bytes.drop offset).length
      · -- the header is there, so it is the data that is not
        have hexpects : f.Expects (lengthAt (payload.bytes.drop offset)) := by
          by_contra hne
          exact hrejects ⟨h2, .inr ⟨h4, hne⟩⟩
        have hexpect := expect_of_expects (by omega) htype hexpects
        refine Derails.after (congrArg Traced.result hexpect) (h.derails hexpects (by omega) ?_)
        rintro ⟨hfits, hvalid⟩
        refine hholds ⟨h4, htype, hexpects, by omega, ?_⟩
        rw [data, List.drop_drop]
        exact hvalid
      · -- the length word is cut off, and the data begins past the end
        rcases expect_of_cut f.expectedLength (by omega) (by omega) htype with
          hcrash | ⟨⟨a, ha, hout⟩, hok⟩
        · exact (hcrash.bind _).derails
        · refine derails_of_access (Traced.mem_events_bind ha) hout ?_
          intro p hp
          obtain ⟨⟨length, next⟩, hexpect, hdata⟩ := Traced.result_bind_eq_ok.1 hp
          obtain ⟨hexpects, hnext⟩ := hok _ hexpect
          have hderails := @h.derails payload length next hexpects (by omega) (by omega)
          rw [Derails, hdata] at hderails
          exact hderails
    · exact ((crashes_expect (by omega)).bind _).derails

end Ticket

end AcOpenServer
