import AcOpenServer.RPCN.Bounds

namespace AcOpenServer
open Library
set_option autoImplicit true

namespace Ticket

open BinaryBufferReader FieldFormat

/-- An exception that `TryParse` does not catch. -/
def Throws (m : Codec α) : Prop := ∃ e, m.result = .error e ∧ ¬ e.IsTicketParse

theorem throws_throw {e : Exn} : Throws (throw e : Codec α) ↔ ¬ e.IsTicketParse := by
  constructor
  · rintro ⟨e', he, hnot⟩
    cases he
    exact hnot
  · intro h
    exact ⟨e, rfl, h⟩

theorem not_throws_pure (a : α) : ¬ Throws (pure a : Codec α) := by
  rintro ⟨e, he, _⟩
  cases he

theorem throws_bind_of_ok {m : Codec α} (f : α → Codec β) (h : m.result = .ok a) :
    Throws (m >>= f) ↔ Throws (f a) := by
  rw [Throws, Throws, Traced.result_bind_of_ok f h]

theorem throws_bind_of_error {m : Codec α} (f : α → Codec β) (h : m.result = .error e) :
    Throws (m >>= f) ↔ ¬ e.IsTicketParse := by
  rw [Throws, Traced.result_bind_of_error f h]
  constructor
  · rintro ⟨e', he, hnot⟩
    cases he
    exact hnot
  · intro hnot
    exact ⟨e, rfl, hnot⟩

theorem isTicketParse_ticketParse (message : String) : (Exn.ticketParse message).IsTicketParse :=
  ⟨message, rfl⟩

/-- The type and the length in a field header, of which only the first byte has to be in the
payload. -/
def typeIn (payload : Span) (offset : Nat) : TicketDataType := ⟨peek UInt16 payload offset⟩

def lengthIn (payload : Span) (offset : Nat) : Nat := (peek UInt16 payload (offset + 2)).toNat

/-- The type of the field begins in the payload. If it is the right one, so does the length,
and if that is an expected one, the data is there and valid, and what follows passes. -/
def FieldFormat.Passes (f : FieldFormat) (payload : Span) (next : Nat → Prop) (offset : Nat) :
    Prop :=
  offset < payload.length ∧ (typeIn payload offset = f.type →
    offset + 2 < payload.length ∧ (f.Expects (lengthIn payload offset) →
      offset + 4 + f.size (lengthIn payload offset) ≤ payload.length ∧
      f.Valid ((payload.bytes.drop (offset + 4)).take (f.size (lengthIn payload offset))) ∧
      next (offset + 4 + f.size (lengthIn payload offset))))

/-- What is left to read from an offset on throws just when it does not pass, in particular
when no bytes remain. -/
structure ThrowsUnless (payload : Span) (passes : Nat → Prop)
    (m : (offset : Nat) → Codec β) : Prop where
  throws_iff : ∀ o, Throws (m o) ↔ ¬ passes o
  not_passes : ∀ o, payload.length ≤ o → ¬ passes o

section

variable {payload : Span} {f : FieldFormat} {value : List UInt8 → α}
  {readData : Span → (length offset : Nat) → Codec (α × Nat)} {next : Nat → Prop}

theorem throws_expect_bind_iff (K : Nat × Nat → Codec β) (offset : Nat) :
    Throws (expect f.type f.expectedLength payload offset >>= K) ↔
      ¬ (offset < payload.length ∧ (typeIn payload offset = f.type →
        offset + 2 < payload.length ∧ (f.Expects (lengthIn payload offset) →
          ¬ Throws (K (lengthIn payload offset, offset + 4))))) := by
  by_cases h : offset < payload.length
  · by_cases htype : typeIn payload offset = f.type
    · rw [and_iff_right h, forall_prop_of_true htype, expect_of_eq h htype]
      by_cases h2 : offset + 2 < payload.length
      · rw [and_iff_right h2, expectLength_of_lt h2]
        by_cases hexpects : ∀ expected ∈ f.expectedLength,
            (peek UInt16 payload (offset + 2)).toNat = expected
        · have hexpects' : f.Expects (lengthIn payload offset) := hexpects
          rw [if_pos hexpects, forall_prop_of_true hexpects', not_not]
          exact throws_bind_of_ok K rfl
        · rw [if_neg hexpects, throws_bind_of_error K rfl]
          refine iff_of_false (not_not_intro (isTicketParse_ticketParse _)) (not_not_intro ?_)
          exact fun hexpects' => (hexpects hexpects').elim
      · have hread := readBigEndianRef_of_le (α := UInt16) (Nat.le_of_not_lt h2)
        rw [expectLength, readUInt16BigEndianRef, hread, Traced.throw_bind,
          throws_bind_of_error K rfl]
        exact iff_of_true not_isTicketParse_indexOutOfRange fun hpasses => h2 hpasses.1
    · rw [expect_of_ne h htype, throws_bind_of_error K rfl]
      refine iff_of_false (not_not_intro (isTicketParse_ticketParse _)) (not_not_intro ⟨h, ?_⟩)
      exact fun htype' => (htype htype').elim
  · have hread := readBigEndianRef_of_le (α := UInt16) (Nat.le_of_not_lt h)
    rw [expect, readUInt16BigEndianRef, hread, Traced.throw_bind, Traced.throw_bind,
      throws_throw]
    exact iff_of_true not_isTicketParse_indexOutOfRange fun hpasses => h hpasses.1

theorem throws_field_iff (hr : ReadsData f value readData)
    (hcaught : ∀ {length offset e}, (readData payload length offset).result = .error e →
      ¬ e.IsTicketParse)
    {K : α × Nat → Codec β}
    (hnext : ∀ v o, o ≤ payload.length → (Throws (K (v, o)) ↔ ¬ next o))
    (hpast : ∀ {length offset v o}, (readData payload length offset).result = .ok (v, o) →
      payload.length < o → Throws (K (v, o))) (offset : Nat) :
    Throws (readTicketData f.type f.expectedLength (readData payload) payload offset >>= K) ↔
      ¬ f.Passes payload next offset := by
  rw [readTicketData, Traced.bind_assoc, throws_expect_bind_iff, FieldFormat.Passes]
  refine not_congr (and_congr_right fun _ => forall_congr' fun _ =>
    and_congr_right fun _ => forall_congr' fun hexpects => ?_)
  dsimp only
  by_cases hfits : offset + 4 + f.size (lengthIn payload offset) ≤ payload.length ∧
      f.Valid ((payload.bytes.drop (offset + 4)).take (f.size (lengthIn payload offset)))
  · obtain ⟨hresult, _⟩ := hr.returns hexpects hfits.1 hfits.2
    rw [throws_bind_of_ok K hresult, hnext _ _ hfits.1, not_not, and_iff_right hfits.1,
      and_iff_right hfits.2]
  · have hderails := hr.derails hexpects (Nat.succ_pos _) hfits
    refine iff_of_false (not_not_intro ?_) fun hpasses => hfits ⟨hpasses.1, hpasses.2.1⟩
    unfold Derails at hderails
    cases hresult : (readData payload (lengthIn payload offset) (offset + 4)).result with
    | ok p =>
      rw [hresult] at hderails
      rw [throws_bind_of_ok K hresult]
      exact hpast hresult hderails
    | error e =>
      rw [throws_bind_of_error K hresult]
      exact hcaught hresult

theorem not_passes_of_le (h : payload.length ≤ offset) : ¬ f.Passes payload next offset :=
  fun hpasses => Nat.not_lt_of_ge h hpasses.1

theorem ReadsData.throwsUnless (hr : ReadsData f value readData)
    (hcaught : ∀ {length offset e}, (readData payload length offset).result = .error e →
      ¬ e.IsTicketParse)
    {K : α × Nat → Codec β} (hK : ∀ v, ThrowsUnless payload next fun o => K (v, o)) :
    ThrowsUnless payload (f.Passes payload next) fun o =>
      readTicketData f.type f.expectedLength (readData payload) payload o >>= K where
  throws_iff := by
    refine throws_field_iff hr hcaught (fun v o _ => (hK v).throws_iff o) ?_
    intro length offset v o _ hpast
    exact ((hK v).throws_iff o).2 ((hK v).not_passes o hpast.le)
  not_passes := fun _ => not_passes_of_le

theorem ReadsData.throwsUnless_bind (hr : ReadsData f value readData)
    (hcaught : ∀ {length offset e}, (readData payload length offset).result = .error e →
      ¬ e.IsTicketParse)
    {g : α × Nat → Codec γ} {K : γ → Codec β}
    (hK : ∀ v, ThrowsUnless payload next fun o => g (v, o) >>= K) :
    ThrowsUnless payload (f.Passes payload next) fun o =>
      readTicketData f.type f.expectedLength (readData payload) payload o >>= g >>= K := by
  simp only [Traced.bind_assoc]
  exact hr.throwsUnless hcaught hK

theorem caught_word [Layout α] {offset : Nat}
    (h : (readBigEndianRef α payload offset).result = .error e) : ¬ e.IsTicketParse := by
  by_cases hlt : offset < payload.length
  · rw [readBigEndianRef_of_lt hlt] at h
    cases h
  · rw [readBigEndianRef_of_le (Nat.le_of_not_lt hlt)] at h
    cases h
    exact not_isTicketParse_indexOutOfRange

theorem caught_slice {offset length : Nat} (h : (payload.slice offset length).result = .error e) :
    ¬ e.IsTicketParse := by
  by_cases hle : offset + length ≤ payload.length
  · rw [Span.slice_of_le hle] at h
    cases h
  · rw [Span.slice_of_lt (Nat.lt_of_not_le hle)] at h
    cases h
    exact not_isTicketParse_argumentOutOfRange

theorem caught_time {offset : Nat} (h : (do
    let (value, offset) ← readUInt64BigEndianRef payload offset
    return (← DateTimeOffset.fromUnixTimeMilliseconds value.toInt64, offset) :
      Codec (DateTimeOffset × Nat)).result = .error e) : ¬ e.IsTicketParse := by
  cases hread : (readUInt64BigEndianRef payload offset).result with
  | error e' =>
    rw [Traced.result_bind_of_error _ hread] at h
    cases h
    exact caught_word hread
  | ok p =>
    rw [Traced.result_bind_of_ok _ hread] at h
    dsimp only at h
    unfold DateTimeOffset.fromUnixTimeMilliseconds at h
    split at h
    · cases h
    · cases h
      exact not_isTicketParse_argumentOutOfRange

theorem caught_binary {offset length : Nat} (h : (do
    let value ← payload.slice offset length
    return (value, offset + length) : Codec (List UInt8 × Nat)).result = .error e) :
    ¬ e.IsTicketParse := by
  cases hslice : (payload.slice offset length).result with
  | error e' =>
    rw [Traced.result_bind_of_error _ hslice] at h
    cases h
    exact caught_slice hslice
  | ok value =>
    rw [Traced.result_bind_of_ok _ hslice] at h
    cases h

theorem caught_bString {offset length : Nat}
    (h : (readFixedUTF8Ref payload length offset).result = .error e) : ¬ e.IsTicketParse := by
  rw [readFixedUTF8Ref] at h
  dsimp only at h
  cases hindex : (terminatorIndex payload offset (min length payload.length) 0).result with
  | error e' =>
    rw [Traced.result_bind_of_error _ hindex] at h
    cases h
    rw [result_terminatorIndex_eq_error hindex]
    exact not_isTicketParse_indexOutOfRange
  | ok index =>
    rw [Traced.result_bind_of_ok _ hindex] at h
    cases hslice : (payload.slice offset index).result with
    | error e' =>
      rw [Traced.result_bind_of_error _ hslice] at h
      cases h
      exact caught_slice hslice
    | ok value =>
      rw [Traced.result_bind_of_ok _ hslice] at h
      cases h

theorem caught_nothing {offset : Nat}
    (h : (pure ((), offset) : Codec (Unit × Nat)).result = .error e) : ¬ e.IsTicketParse := by
  cases h

def CookiePasses (payload : Span) (next : Nat → Prop) (offset : Nat) : Prop :=
  offset < payload.length ∧
    if typeIn payload offset = .empty then next offset
    else FieldFormat.binary.Passes payload next offset

def UserdataPasses (payload : Span) (next : Nat → Prop) : Nat → Prop :=
  blobUserdata.Passes payload <| FieldFormat.binary.Passes payload <|
  FieldFormat.u32.Passes payload <| FieldFormat.time.Passes payload <|
  FieldFormat.time.Passes payload <| FieldFormat.u64.Passes payload <|
  FieldFormat.bString.Passes payload <| FieldFormat.binary.Passes payload <|
  FieldFormat.bString.Passes payload <| FieldFormat.binary.Passes payload <|
  FieldFormat.u32.Passes payload <| CookiePasses payload <|
  FieldFormat.empty.Passes payload <| FieldFormat.empty.Passes payload next

def SignaturePasses (payload : Span) : Nat → Prop :=
  blobSignature.Passes payload <| FieldFormat.binary.Passes payload <|
  FieldFormat.binary.Passes payload fun _ => True

/-- The size begins in the payload and, if it is accepted, the fields pass. -/
def TicketPasses (payload : Span) : Prop :=
  4 < payload.length ∧ (8 ≤ payload.length → SizeAccepted payload.bytes →
    UserdataPasses payload (SignaturePasses payload) 8)

theorem readCookie_throwsUnless {K : List UInt8 × Nat → Codec β}
    (hK : ∀ v, ThrowsUnless payload next fun o => K (v, o)) :
    ThrowsUnless payload (CookiePasses payload next) fun o => readCookie payload o >>= K where
  throws_iff := by
    intro o
    rw [readCookie, Traced.bind_assoc, peekTicketDataType, readUInt16BigEndian, CookiePasses]
    by_cases h : o < payload.length
    · have hread := readBigEndian_of_lt (α := UInt16) h
      rw [and_iff_right h, hread, throws_bind_of_ok _ rfl]
      change Throws ((if typeIn payload o ≠ .empty then _ else _) >>= K) ↔ _
      by_cases htype : typeIn payload o = .empty
      · rw [if_neg (not_not_intro htype), if_pos htype, Traced.pure_bind]
        exact (hK []).throws_iff o
      · rw [if_pos htype, if_neg htype]
        exact (readsData_binary.throwsUnless caught_binary hK).throws_iff o
    · rw [readBigEndian_of_le (Nat.le_of_not_lt h), Traced.throw_bind, Traced.throw_bind,
        throws_throw]
      exact iff_of_true not_isTicketParse_indexOutOfRange fun hpasses => h hpasses.1
  not_passes := fun _ h hpasses => Nat.not_lt_of_ge h hpasses.1

theorem readSignature_throwsUnless {K : (List UInt8 × List UInt8) × Nat → Codec β}
    (hK : ∀ p, ¬ Throws (K p)) :
    ThrowsUnless payload (SignaturePasses payload) fun o => readSignature payload o >>= K := by
  refine ReadsData.throwsUnless_bind (f := .blobSignature)
    (readsData_nothing (fun _ => rfl) (fun _ => trivial)) caught_nothing fun _ => ?_
  refine readsData_binary.throwsUnless_bind caught_binary fun signer => ?_
  simp only [Traced.bind_assoc]
  refine ⟨?_, fun _ => not_passes_of_le⟩
  refine throws_field_iff readsData_binary caught_binary ?_ ?_
  · intro signature o _
    rw [Traced.pure_bind]
    exact iff_of_false (hK _) (not_not_intro trivial)
  · -- a slice does not reach past the end
    intro length offset v o hslice hpast
    obtain ⟨value, hvalue, hpair⟩ := Traced.result_bind_eq_ok.1 hslice
    by_cases hle : offset + length ≤ payload.length
    · cases hpair
      exact (Nat.not_lt_of_ge hle hpast).elim
    · rw [Span.slice_of_lt (Nat.lt_of_not_le hle)] at hvalue
      cases hvalue

theorem readUserdata_throwsUnless {K : Userdata × Nat → Codec β}
    (hK : ∀ v, ThrowsUnless payload next fun o => K (v, o)) :
    ThrowsUnless payload (UserdataPasses payload next) fun o => readUserdata payload o >>= K := by
  refine ReadsData.throwsUnless_bind (f := .blobUserdata)
    (readsData_nothing (fun _ => rfl) (fun _ => trivial)) caught_nothing fun _ => ?_
  refine readsData_binary.throwsUnless_bind caught_binary fun serial => ?_
  refine readsData_u32.throwsUnless_bind caught_word fun issuerID => ?_
  refine readsData_time.throwsUnless_bind caught_time fun issuedDate => ?_
  refine readsData_time.throwsUnless_bind caught_time fun expireDate => ?_
  refine readsData_u64.throwsUnless_bind caught_word fun userID => ?_
  refine readsData_bString.throwsUnless_bind caught_bString fun onlineID => ?_
  refine readsData_binary.throwsUnless_bind caught_binary fun region => ?_
  refine readsData_bString.throwsUnless_bind caught_bString fun domain => ?_
  refine readsData_binary.throwsUnless_bind caught_binary fun serviceID => ?_
  refine readsData_u32.throwsUnless_bind caught_word fun status => ?_
  simp only [Traced.bind_assoc]
  refine readCookie_throwsUnless fun cookie => ?_
  dsimp only
  refine ReadsData.throwsUnless (f := .empty)
    (readsData_nothing (fun _ => rfl) (fun _ => trivial)) caught_nothing fun _ => ?_
  refine ReadsData.throwsUnless (f := .empty)
    (readsData_nothing (fun _ => rfl) (fun _ => trivial)) caught_nothing fun _ => ?_
  simp only [Traced.pure_bind]
  exact hK _

/-- A header that is cut off behind the first byte of the size is still rejected. -/
theorem throws_parse_of_short (h : payload.length < 8) :
    Throws (parse payload) ↔ payload.length ≤ 4 := by
  by_cases h0 : 0 < payload.length
  · have hversion : (readUInt32BigEndianRef payload 0).result =
        .ok (peek UInt32 payload 0, 4) := congrArg Traced.result (readBigEndianRef_of_lt h0)
    rw [parse, throws_bind_of_ok _ hversion]
    dsimp only
    by_cases h4 : 4 < payload.length
    · have hread := readBigEndianRef_of_lt (α := UInt32) h4
      have hsize : (readInt32BigEndianRef payload 4).result =
          .ok ((peek UInt32 payload 4).toInt32, 8) :=
        Traced.result_bind_of_ok _ (congrArg Traced.result hread)
      refine iff_of_false ?_ (Nat.not_le_of_gt h4)
      rw [throws_bind_of_ok _ hsize]
      dsimp only
      split
      · rw [throws_throw, not_not]
        exact isTicketParse_ticketParse _
      · rename_i hneg
        have hpos : 0 ≤ (peek UInt32 payload 4).toInt32.toInt := by
          rw [Int32.lt_iff_toInt_lt] at hneg
          exact Int.not_lt.1 hneg
        rw [if_pos (by omega), throws_throw, not_not]
        exact isTicketParse_ticketParse _
    · have hread := readBigEndianRef_of_le (α := UInt32) (Nat.le_of_not_lt h4)
      rw [readInt32BigEndianRef, hread, Traced.throw_bind, Traced.throw_bind, throws_throw]
      exact iff_of_true not_isTicketParse_indexOutOfRange (Nat.le_of_not_lt h4)
  · have hversion := readBigEndianRef_of_le (α := UInt32) (Nat.le_of_not_lt h0)
    rw [parse, readUInt32BigEndianRef, hversion, Traced.throw_bind, throws_throw]
    exact iff_of_true not_isTicketParse_indexOutOfRange (by omega)

theorem throws_parse_iff : Throws (parse payload) ↔ ¬ TicketPasses payload := by
  by_cases h : 8 ≤ payload.length
  · have h4 : 4 < payload.length := by omega
    rw [TicketPasses, and_iff_right h4, forall_prop_of_true h]
    rcases parse_of_le h with ⟨hconfined, _, hnot⟩ | ⟨hsize, heq⟩
    · refine iff_of_false ?_ (not_not_intro fun hsize => (hnot hsize).elim)
      rintro ⟨e, he, hcaught⟩
      exact hcaught (hconfined.2 e he)
    · have hfields : ThrowsUnless payload (UserdataPasses payload (SignaturePasses payload))
          (parseFields payload (readAt UInt32 payload.bytes)) := by
        refine readUserdata_throwsUnless fun userdata => ?_
        dsimp only
        exact readSignature_throwsUnless fun _ => not_throws_pure _
      rw [forall_prop_of_true hsize, ← hfields.throws_iff 8, heq]
      exact Iff.rfl
  · rw [throws_parse_of_short (Nat.lt_of_not_le h), TicketPasses]
    constructor
    · intro h4 hpasses
      exact Nat.not_lt_of_ge h4 hpasses.1
    · intro hnot
      by_contra h4
      exact hnot ⟨Nat.lt_of_not_le h4, fun h8 => (h h8).elim⟩

theorem tryParse_returns_iff : (∃ r, (tryParse payload).result = .ok r) ↔
    TicketPasses payload := by
  rw [← not_iff_not, ← throws_parse_iff, tryParse_eq]
  dsimp only
  cases hr : (parse payload).result with
  | ok ticket =>
    refine iff_of_false (not_not_intro ⟨_, rfl⟩) ?_
    rintro ⟨e, he, _⟩
    cases hr.symm.trans he
  | error e =>
    constructor
    · intro hnone
      refine ⟨e, hr, ?_⟩
      rintro ⟨message, rfl⟩
      exact hnone ⟨_, rfl⟩
    · rintro ⟨e', he, hnot⟩ ⟨r, hreturn⟩
      cases hr.symm.trans he
      cases e with
      | ticketParse message => exact hnot (isTicketParse_ticketParse message)
      | _ => cases hreturn

end

end Ticket

end AcOpenServer
