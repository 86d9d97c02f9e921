import AcOpenServer.RPCN.Bounds

namespace AcOpenServer
open Library
set_option autoImplicit true

namespace Ticket

open FieldFormat

def fieldBytes (type : TicketDataType) (length : UInt16) (data : List UInt8) : List UInt8 :=
  bigEndian type.value ++ (bigEndian length ++ data)

/-- Data whose length can be declared. -/
abbrev Binary := { bs : List UInt8 // bs.length < 65536 }

/-- A time a ticket can carry. -/
abbrev UnixMilliseconds := { ms : Int64 // DateTimeOffset.InRange ms.toInt }

def UnixMilliseconds.date (ms : UnixMilliseconds) : DateTimeOffset := .ofMilliseconds _ ms.2

/-- What the fields of a ticket hold; `σ` is the type of the strings. -/
structure TicketFields (σ : Type) where
  version : UInt32
  serial : Binary
  issuerID : UInt32
  issuedDate : UnixMilliseconds
  expireDate : UnixMilliseconds
  userID : UInt64
  onlineID : σ
  region : Binary
  domain : σ
  serviceID : Binary
  status : UInt32
  cookie : Option Binary
  signer : Binary
  signature : Binary

def binaryBytes (data : Binary) : List UInt8 :=
  fieldBytes .binary (UInt16.ofNat data.1.length) data.1

def bStringBytes (data : Binary) : List UInt8 :=
  fieldBytes .bString (UInt16.ofNat data.1.length) data.1

def u32Bytes (value : UInt32) : List UInt8 := fieldBytes .u32 4 (bigEndian value)

def u64Bytes (value : UInt64) : List UInt8 := fieldBytes .u64 8 (bigEndian value)

def timeBytes (ms : UnixMilliseconds) : List UInt8 :=
  fieldBytes .time 8 (bigEndian ms.1.toUInt64)

def emptyBytes : List UInt8 := fieldBytes .empty 0 []

def cookieBytes (cookie : Option Binary) : List UInt8 := (cookie.map binaryBytes).getD []

/-- The bytes of a ticket. The size and the lengths of the two blobs are not derived from the
fields. -/
def TicketFields.encode (bytesOf : σ → Binary) (size : Int32)
    (userdataLength signatureLength : UInt16) (t : TicketFields σ) : List UInt8 :=
  bigEndian t.version ++ (bigEndian size.toUInt32 ++
  (fieldBytes .blobUserdata userdataLength [] ++
  (binaryBytes t.serial ++ (u32Bytes t.issuerID ++
  (timeBytes t.issuedDate ++ (timeBytes t.expireDate ++
  (u64Bytes t.userID ++ (bStringBytes (bytesOf t.onlineID) ++ (binaryBytes t.region ++
  (bStringBytes (bytesOf t.domain) ++ (binaryBytes t.serviceID ++ (u32Bytes t.status ++
  (cookieBytes t.cookie ++ (emptyBytes ++ (emptyBytes ++
  (fieldBytes .blobSignature signatureLength [] ++
  (binaryBytes t.signer ++ binaryBytes t.signature)))))))))))))))))

/-- The ticket with these fields. -/
def TicketFields.ticket (textOf : σ → String) (t : TicketFields σ) : Ticket where
  version := t.version
  serial := t.serial.1
  issuerID := t.issuerID
  issuedDate := t.issuedDate.date
  expireDate := t.expireDate.date
  userID := t.userID
  onlineID := textOf t.onlineID
  region := t.region.1
  domain := textOf t.domain
  serviceID := t.serviceID.1
  status := t.status
  cookie := (t.cookie.map (·.1)).getD []
  signer := t.signer.1
  signature := t.signature.1

theorem length_bigEndian_uint16 (n : UInt16) : (bigEndian n).length = 2 := length_bigEndian n

theorem length_fieldBytes (type : TicketDataType) (length : UInt16) (data : List UInt8) :
    (fieldBytes type length data).length = 4 + data.length := by
  simp only [fieldBytes, List.length_append, length_bigEndian, Layout.size_uint16]
  omega

section

variable {β : Type} {x : β} {bs : List UInt8}

theorem yields_iff {f : FieldFormat} {value : List UInt8 → α}
    {next : α → List UInt8 → β → Prop} :
    f.Yields value next bs x ↔ ∃ length data rest, bs = fieldBytes f.type length data ++ rest ∧
      f.Expects length.toNat ∧ data.length = f.size length.toNat ∧ f.Valid data ∧
      next (value data) rest x := by
  constructor
  · rintro ⟨hholds, hnext⟩
    have hheader := hholds.header
    have hfits := hholds.fits
    have htype : bigEndian f.type.value = bs.take 2 := by
      rw [← hholds.type, typeAt, readAt, bigEndian, Layout.encode_decode _ (by
        rw [List.length_reverse, List.length_take, Layout.size_uint16]; omega),
        List.reverse_reverse]
      rfl
    have hlength : bigEndian (readAt UInt16 (bs.drop 2)) = (bs.drop 2).take 2 := by
      rw [readAt, bigEndian, Layout.encode_decode _ (by
        rw [List.length_reverse, List.length_take, List.length_drop, Layout.size_uint16]
        omega), List.reverse_reverse]
      rfl
    refine ⟨readAt UInt16 (bs.drop 2), f.data bs, f.rest bs, ?_, hholds.expects, ?_,
      hholds.valid, hnext⟩
    · rw [fieldBytes, htype, hlength, data, rest, ← List.drop_drop, List.append_assoc,
        List.append_assoc, List.take_append_drop]
      have h4 : bs.drop 4 = (bs.drop 2).drop 2 := by rw [List.drop_drop]
      rw [h4, List.take_append_drop, List.take_append_drop]
    · rw [data, List.length_take, List.length_drop]
      exact Nat.min_eq_left (Nat.le_sub_of_add_le' hfits)
  · rintro ⟨length, data, rest, rfl, hexpects, hdata, hvalid, hnext⟩
    have htype : typeAt (fieldBytes f.type length data ++ rest) = f.type := by
      rw [typeAt, fieldBytes, List.append_assoc, readAt_bigEndian_append]
    have hdrop : (fieldBytes f.type length data ++ rest).drop 2 =
        bigEndian length ++ (data ++ rest) := by
      rw [fieldBytes, List.append_assoc, List.append_assoc,
        List.drop_left' (length_bigEndian_uint16 _)]
    have hdrop4 : (fieldBytes f.type length data ++ rest).drop 4 = data ++ rest := by
      rw [← List.drop_drop (i := 2) (j := 2), hdrop, List.drop_left' (length_bigEndian_uint16 _)]
    have hlength : lengthAt (fieldBytes f.type length data ++ rest) = length.toNat := by
      rw [lengthAt, hdrop, readAt_bigEndian_append]
    have hfdata : f.data (fieldBytes f.type length data ++ rest) = data := by
      rw [FieldFormat.data, hlength, hdrop4, ← hdata, List.take_left]
    have hfrest : f.rest (fieldBytes f.type length data ++ rest) = rest := by
      rw [FieldFormat.rest, hlength, ← List.drop_drop, hdrop4, ← hdata, List.drop_left]
    have hsize : (fieldBytes f.type length data ++ rest).length =
        4 + data.length + rest.length := by
      rw [List.length_append, length_fieldBytes]
    refine ⟨⟨by omega, htype, by rwa [hlength], by rw [hlength]; omega, by rwa [hfdata]⟩, ?_⟩
    rw [hfdata, hfrest]
    exact hnext

theorem toNat_length (data : Binary) : (UInt16.ofNat data.1.length).toNat = data.1.length :=
  UInt16.toNat_ofNat_of_lt' data.2

theorem yields_word_iff [Layout α] {f : FieldFormat} {n : UInt16}
    (hexpected : f.expectedLength = some n.toNat) (hsize : ∀ k, f.size k = Layout.size α)
    (hvalid : ∀ data, f.Valid data)
    {next : α → List UInt8 → β → Prop} :
    f.Yields (readAt α) next bs x ↔
      ∃ v rest, bs = fieldBytes f.type n (bigEndian v) ++ rest ∧ next v rest x := by
  rw [yields_iff]
  constructor
  · rintro ⟨length, data, rest, rfl, hexpects, hdata, _, hnext⟩
    have hlength : length = n := UInt16.toNat_inj.1 (hexpects _ hexpected)
    rw [hsize] at hdata
    refine ⟨readAt α data, rest, ?_, hnext⟩
    rw [hlength, bigEndian_readAt hdata]
  · rintro ⟨v, rest, rfl, hnext⟩
    refine ⟨n, bigEndian v, rest, rfl, ?_, ?_, hvalid _, ?_⟩
    · intro expected he
      rw [hexpected] at he
      exact Option.some.inj he
    · rw [hsize, length_bigEndian]
    · rwa [readAt_bigEndian]

theorem yields_u32_iff {next : UInt32 → List UInt8 → β → Prop} :
    FieldFormat.u32.Yields (readAt UInt32) next bs x ↔
      ∃ v rest, bs = u32Bytes v ++ rest ∧ next v rest x :=
  yields_word_iff (f := FieldFormat.u32) (n := 4) rfl (fun _ => rfl) fun _ => trivial

theorem yields_u64_iff {next : UInt64 → List UInt8 → β → Prop} :
    FieldFormat.u64.Yields (readAt UInt64) next bs x ↔
      ∃ v rest, bs = u64Bytes v ++ rest ∧ next v rest x :=
  yields_word_iff (f := FieldFormat.u64) (n := 8) rfl (fun _ => rfl) fun _ => trivial

theorem timeOf_bigEndian (ms : UnixMilliseconds) :
    timeOf (bigEndian ms.1.toUInt64) = ms.date := by
  have hms : (readAt UInt64 (bigEndian ms.1.toUInt64)).toInt64 = ms.1 := by
    rw [readAt_bigEndian, Int64.toInt64_toUInt64]
  rw [timeOf, dif_pos (by rw [hms]; exact ms.2)]
  simp only [hms]
  rfl

theorem yields_time_iff {next : DateTimeOffset → List UInt8 → β → Prop} :
    FieldFormat.time.Yields timeOf next bs x ↔
      ∃ ms rest, bs = timeBytes ms ++ rest ∧ next ms.date rest x := by
  rw [yields_iff]
  constructor
  · rintro ⟨length, data, rest, rfl, hexpects, hdata, hvalid, hnext⟩
    have hlength : length = 8 := UInt16.toNat_inj.1 (hexpects 8 rfl)
    have hbytes : bigEndian (readAt UInt64 data).toInt64.toUInt64 = data := by
      rw [UInt64.toUInt64_toInt64]
      exact bigEndian_readAt hdata
    refine ⟨⟨(readAt UInt64 data).toInt64, hvalid⟩, rest, ?_, ?_⟩
    · rw [timeBytes, hbytes, hlength]
      rfl
    · rwa [← timeOf_bigEndian, hbytes]
  · rintro ⟨ms, rest, rfl, hnext⟩
    refine ⟨8, bigEndian ms.1.toUInt64, rest, rfl, ?_, length_bigEndian _, ?_, ?_⟩
    · intro expected he
      exact Option.some.inj he
    · change DateTimeOffset.InRange (readAt UInt64 _).toInt64.toInt
      rw [readAt_bigEndian, Int64.toInt64_toUInt64]
      exact ms.2
    · rwa [timeOf_bigEndian]

theorem yields_any_iff {f : FieldFormat} (hexpected : f.expectedLength = none)
    (hsize : ∀ k, f.size k = k) (hvalid : ∀ data, f.Valid data) {value : List UInt8 → α}
    {next : α → List UInt8 → β → Prop} :
    f.Yields value next bs x ↔ ∃ (data : Binary) (rest : List UInt8),
      bs = fieldBytes f.type (UInt16.ofNat data.1.length) data.1 ++ rest ∧
        next (value data.1) rest x := by
  rw [yields_iff]
  constructor
  · rintro ⟨length, data, rest, rfl, _, hdata, _, hnext⟩
    rw [hsize] at hdata
    have hlength : UInt16.ofNat data.length = length := by rw [hdata, UInt16.ofNat_toNat]
    refine ⟨⟨data, by rw [hdata]; exact length.toNat_lt⟩, rest, ?_, hnext⟩
    change _ = fieldBytes f.type (UInt16.ofNat data.length) data ++ rest
    rw [hlength]
  · rintro ⟨data, rest, rfl, hnext⟩
    refine ⟨_, data.1, rest, rfl, ?_, ?_, hvalid _, hnext⟩
    · intro expected he
      rw [hexpected] at he
      cases he
    · rw [hsize, toNat_length]

theorem yields_binary_iff {next : List UInt8 → List UInt8 → β → Prop} :
    FieldFormat.binary.Yields id next bs x ↔
      ∃ (data : Binary) (rest : List UInt8), bs = binaryBytes data ++ rest ∧
        next data.1 rest x :=
  yields_any_iff rfl (fun _ => rfl) fun _ => trivial

theorem yields_bString_iff {next : String → List UInt8 → β → Prop} :
    FieldFormat.bString.Yields stringOf next bs x ↔
      ∃ (data : Binary) (rest : List UInt8), bs = bStringBytes data ++ rest ∧
        next (stringOf data.1) rest x :=
  yields_any_iff rfl (fun _ => rfl) fun _ => trivial

theorem yields_empty_iff {next : Unit → List UInt8 → β → Prop} :
    FieldFormat.empty.Yields (fun _ => ()) next bs x ↔
      ∃ rest, bs = emptyBytes ++ rest ∧ next () rest x := by
  rw [yields_iff]
  constructor
  · rintro ⟨length, data, rest, rfl, hexpects, hdata, _, hnext⟩
    have hlength : length = 0 := UInt16.toNat_inj.1 (hexpects 0 rfl)
    rw [hlength, List.length_eq_zero_iff.1 hdata]
    exact ⟨rest, rfl, hnext⟩
  · rintro ⟨rest, rfl, hnext⟩
    refine ⟨0, [], rest, rfl, ?_, rfl, trivial, hnext⟩
    intro expected he
    exact Option.some.inj he

/-- The header of a blob, which may declare any length. -/
theorem yields_blob_iff {f : FieldFormat} (hexpected : f.expectedLength = none)
    (hsize : ∀ k, f.size k = 0) (hvalid : ∀ data, f.Valid data)
    {next : Unit → List UInt8 → β → Prop} :
    f.Yields (fun _ => ()) next bs x ↔
      ∃ length rest, bs = fieldBytes f.type length [] ++ rest ∧ next () rest x := by
  rw [yields_iff]
  constructor
  · rintro ⟨length, data, rest, rfl, _, hdata, _, hnext⟩
    rw [hsize] at hdata
    rw [List.length_eq_zero_iff.1 hdata]
    exact ⟨length, rest, rfl, hnext⟩
  · rintro ⟨length, rest, rfl, hnext⟩
    refine ⟨length, [], rest, rfl, ?_, (hsize _).symm, hvalid _, hnext⟩
    intro expected he
    rw [hexpected] at he
    cases he

theorem cookieYields_iff {next : List UInt8 → List UInt8 → β → Prop} :
    CookieYields (fun cookie => FieldFormat.empty.Yields (fun _ => ()) fun _ => next cookie)
        bs x ↔
      ∃ (cookie : Option Binary) (rest : List UInt8),
        bs = cookieBytes cookie ++ (emptyBytes ++ rest) ∧
          next ((cookie.map (·.1)).getD []) rest x := by
  have htype : ∀ rest, typeAt (emptyBytes ++ rest) = .empty := by
    intro rest
    rw [typeAt, emptyBytes, fieldBytes, List.append_assoc, readAt_bigEndian_append]
  have htype' : ∀ data rest, typeAt (binaryBytes data ++ rest) = .binary := by
    intro data rest
    rw [typeAt, binaryBytes, fieldBytes, List.append_assoc, readAt_bigEndian_append]
  constructor
  · rintro ⟨_, hy⟩
    split at hy
    · obtain ⟨rest, rfl, hnext⟩ := yields_empty_iff.1 hy
      exact ⟨none, rest, rfl, hnext⟩
    · obtain ⟨data, rest, rfl, hrest⟩ := yields_binary_iff.1 hy
      obtain ⟨rest, rfl, hnext⟩ := yields_empty_iff.1 hrest
      exact ⟨some data, rest, rfl, hnext⟩
  · rintro ⟨cookie, rest, rfl, hnext⟩
    cases cookie with
    | none =>
      have hlen : (emptyBytes ++ rest).length = 4 + rest.length := by
        rw [List.length_append, emptyBytes, length_fieldBytes]
        rfl
      refine ⟨?_, ?_⟩
      · change 2 ≤ (emptyBytes ++ rest).length
        omega
      · change if typeAt (emptyBytes ++ rest) = _ then _ else _
        rw [if_pos (htype rest)]
        exact yields_empty_iff.2 ⟨rest, rfl, hnext⟩
    | some data =>
      have hlen : (binaryBytes data ++ (emptyBytes ++ rest)).length =
          4 + data.1.length + (emptyBytes ++ rest).length := by
        rw [List.length_append, binaryBytes, length_fieldBytes]
      refine ⟨?_, ?_⟩
      · change 2 ≤ (binaryBytes data ++ (emptyBytes ++ rest)).length
        omega
      · change if typeAt (binaryBytes data ++ (emptyBytes ++ rest)) = _ then _ else _
        rw [if_neg (by rw [htype']; decide)]
        exact yields_binary_iff.2 ⟨data, _, rfl, yields_empty_iff.2 ⟨rest, rfl, hnext⟩⟩

theorem signatureYields_iff {next : List UInt8 → List UInt8 → β} :
    SignatureYields next bs x ↔
      ∃ (length : UInt16) (signer signature : Binary) (trailing : List UInt8),
      bs = fieldBytes .blobSignature length [] ++
        (binaryBytes signer ++ (binaryBytes signature ++ trailing)) ∧
        x = next signer.1 signature.1 := by
  constructor
  · intro hy
    obtain ⟨length, _, rfl, hy₁⟩ :=
      (yields_blob_iff (f := blobSignature) rfl (fun _ => rfl) fun _ => trivial).1 hy
    obtain ⟨signer, _, rfl, hy₂⟩ := yields_binary_iff.1 hy₁
    obtain ⟨signature, trailing, rfl, hx⟩ := yields_binary_iff.1 hy₂
    exact ⟨length, signer, signature, trailing, rfl, hx⟩
  · rintro ⟨length, signer, signature, trailing, rfl, hx⟩
    exact (yields_blob_iff (f := blobSignature) rfl (fun _ => rfl) fun _ => trivial).2
      ⟨length, _, rfl, yields_binary_iff.2 ⟨signer, _, rfl,
        yields_binary_iff.2 ⟨signature, trailing, rfl, hx⟩⟩⟩

/-- The bytes of the userdata blob, its header included. -/
def TicketFields.userdataBytes (bytesOf : σ → Binary) (userdataLength : UInt16)
    (t : TicketFields σ) (rest : List UInt8) : List UInt8 :=
  fieldBytes .blobUserdata userdataLength [] ++
  (binaryBytes t.serial ++ (u32Bytes t.issuerID ++
  (timeBytes t.issuedDate ++ (timeBytes t.expireDate ++
  (u64Bytes t.userID ++ (bStringBytes (bytesOf t.onlineID) ++ (binaryBytes t.region ++
  (bStringBytes (bytesOf t.domain) ++ (binaryBytes t.serviceID ++ (u32Bytes t.status ++
  (cookieBytes t.cookie ++ (emptyBytes ++ (emptyBytes ++ rest)))))))))))))

theorem userdataYields_of_fields {next : Userdata → List UInt8 → β → Prop}
    (t : TicketFields Binary) (length : UInt16) (rest : List UInt8)
    (hnext : next (t.ticket fun data => stringOf data.1).toUserdata rest x) :
    UserdataYields next (t.userdataBytes id length rest) x :=
  (yields_blob_iff (f := blobUserdata) rfl (fun _ => rfl) fun _ => trivial).2 ⟨length, _, rfl,
    yields_binary_iff.2 ⟨t.serial, _, rfl, yields_u32_iff.2 ⟨t.issuerID, _, rfl,
    yields_time_iff.2 ⟨t.issuedDate, _, rfl, yields_time_iff.2 ⟨t.expireDate, _, rfl,
    yields_u64_iff.2 ⟨t.userID, _, rfl, yields_bString_iff.2 ⟨t.onlineID, _, rfl,
    yields_binary_iff.2 ⟨t.region, _, rfl, yields_bString_iff.2 ⟨t.domain, _, rfl,
    yields_binary_iff.2 ⟨t.serviceID, _, rfl, yields_u32_iff.2 ⟨t.status, _, rfl,
    cookieYields_iff.2 ⟨t.cookie, _, rfl,
    yields_empty_iff.2 ⟨rest, rfl, hnext⟩⟩⟩⟩⟩⟩⟩⟩⟩⟩⟩⟩⟩

theorem readAt_header {bs : List UInt8} (h : 8 ≤ bs.length) :
    bs = bigEndian (readAt UInt32 bs) ++
      (bigEndian (readAt UInt32 (bs.drop 4)).toInt32.toUInt32 ++ bs.drop 8) := by
  have h0 : bigEndian (readAt UInt32 bs) = bs.take 4 := by
    rw [← readAt_take]
    apply bigEndian_readAt
    rw [List.length_take, Layout.size_uint32]
    omega
  have h4 : bigEndian (readAt UInt32 (bs.drop 4)).toInt32.toUInt32 = (bs.drop 4).take 4 := by
    rw [UInt32.toUInt32_toInt32, ← readAt_take]
    apply bigEndian_readAt
    rw [List.length_take, List.length_drop, Layout.size_uint32]
    omega
  have h8 : bs.drop 8 = (bs.drop 4).drop 4 := by rw [List.drop_drop]
  rw [h0, h4, h8, List.take_append_drop, List.take_append_drop]

theorem encode_append (bytesOf : σ → Binary) (size : Int32)
    (userdataLength signatureLength : UInt16)
    (t : TicketFields σ) (trailing : List UInt8) :
    t.encode bytesOf size userdataLength signatureLength ++ trailing =
      bigEndian t.version ++ (bigEndian size.toUInt32 ++
        t.userdataBytes bytesOf userdataLength (fieldBytes .blobSignature signatureLength [] ++
          (binaryBytes t.signer ++ (binaryBytes t.signature ++ trailing)))) := by
  simp only [TicketFields.encode, TicketFields.userdataBytes, List.append_assoc]

theorem length_bigEndian_uint32 (n : UInt32) : (bigEndian n).length = 4 := length_bigEndian n

theorem declaredSize_append (version : UInt32) (size : Int32) (rest : List UInt8) :
    declaredSize (bigEndian version ++ (bigEndian size.toUInt32 ++ rest)) = size.toInt := by
  rw [declaredSize, List.drop_left' (length_bigEndian_uint32 _), readAt_bigEndian_append,
    Int32.toInt32_toUInt32]

/-- The payloads that are accepted are those of the format with an accepted size. -/
theorem ticketYields_iff : TicketYields bs ticket ↔
    ∃ (t : TicketFields Binary) (size : Int32) (userdataLength signatureLength : UInt16)
      (trailing : List UInt8),
      bs = t.encode id size userdataLength signatureLength ++ trailing ∧
        0 ≤ size.toInt ∧ size.toInt ≤ (bs.length : Int) - 8 ∧
        ticket = t.ticket fun data => stringOf data.1 := by
  constructor
  · rintro ⟨hlen, ⟨hpos, hle⟩, hy⟩
    have hbs := readAt_header hlen
    obtain ⟨userdataLength, _, he, hy₀⟩ :=
      (yields_blob_iff (f := blobUserdata) rfl (fun _ => rfl) fun _ => trivial).1 hy
    obtain ⟨serial, _, rfl, hy₁⟩ := yields_binary_iff.1 hy₀
    obtain ⟨issuerID, _, rfl, hy₂⟩ := yields_u32_iff.1 hy₁
    obtain ⟨issuedDate, _, rfl, hy₃⟩ := yields_time_iff.1 hy₂
    obtain ⟨expireDate, _, rfl, hy₄⟩ := yields_time_iff.1 hy₃
    obtain ⟨userID, _, rfl, hy₅⟩ := yields_u64_iff.1 hy₄
    obtain ⟨onlineID, _, rfl, hy₆⟩ := yields_bString_iff.1 hy₅
    obtain ⟨region, _, rfl, hy₇⟩ := yields_binary_iff.1 hy₆
    obtain ⟨domain, _, rfl, hy₈⟩ := yields_bString_iff.1 hy₇
    obtain ⟨serviceID, _, rfl, hy₉⟩ := yields_binary_iff.1 hy₈
    obtain ⟨status, _, rfl, hy₁₀⟩ := yields_u32_iff.1 hy₉
    obtain ⟨cookie, _, rfl, hy₁₁⟩ := cookieYields_iff.1 hy₁₀
    obtain ⟨_, rfl, hy₁₂⟩ := yields_empty_iff.1 hy₁₁
    obtain ⟨signatureLength, signer, signature, trailing, rfl, hx⟩ := signatureYields_iff.1 hy₁₂
    refine ⟨⟨readAt UInt32 bs, serial, issuerID, issuedDate, expireDate, userID, onlineID,
      region, domain, serviceID, status, cookie, signer, signature⟩,
      (readAt UInt32 (bs.drop 4)).toInt32, userdataLength, signatureLength, trailing, ?_, hpos,
      hle, hx⟩
    rw [encode_append]
    rw [he] at hbs
    exact hbs
  · rintro ⟨t, size, userdataLength, signatureLength, trailing, hbs, hpos, hle, rfl⟩
    rw [encode_append] at hbs
    have hsize : declaredSize bs = size.toInt := by rw [hbs, declaredSize_append]
    have hversion : readAt UInt32 bs = t.version := by rw [hbs, readAt_bigEndian_append]
    have hdrop : bs.drop 8 = t.userdataBytes id userdataLength
        (fieldBytes .blobSignature signatureLength [] ++
          (binaryBytes t.signer ++ (binaryBytes t.signature ++ trailing))) := by
      rw [hbs, ← List.append_assoc, List.drop_left' (by
        rw [List.length_append, length_bigEndian_uint32, length_bigEndian_uint32])]
    refine ⟨by omega, ⟨by rw [hsize]; exact hpos, by rw [hsize]; exact hle⟩, ?_⟩
    rw [hdrop, hversion]
    exact userdataYields_of_fields t userdataLength _ (signatureYields_iff.2
      ⟨signatureLength, t.signer, t.signature, trailing, rfl, rfl⟩)

end

theorem result_parse_fields (t : TicketFields Binary) {size : Int32}
    (userdataLength signatureLength : UInt16) (trailing : List UInt8) (beyond : Nat → UInt8)
    (hpos : 0 ≤ size.toInt)
    (hle : size.toInt ≤
      ((t.encode id size userdataLength signatureLength ++ trailing).length : Int) - 8) :
    (parse ⟨t.encode id size userdataLength signatureLength ++ trailing, beyond⟩).result =
      .ok (t.ticket fun data => stringOf data.1) :=
  result_parse_iff.2 (ticketYields_iff.2
    ⟨t, size, userdataLength, signatureLength, trailing, rfl, hpos, hle, rfl⟩)

/-- A string without the zero character, and the zero bytes it is padded with. -/
structure PaddedString where
  text : String
  padding : Nat
  no_nul : '\x00' ∉ text.toList
  fits : (utf8Encode text).length + padding < 65536

def PaddedString.bytes (s : PaddedString) : Binary :=
  ⟨utf8Encode s.text ++ List.replicate s.padding 0, by
    rw [List.length_append, List.length_replicate]
    exact s.fits⟩

theorem stringOf_bytes (s : PaddedString) : stringOf s.bytes.1 = s.text := by
  have hpos : ∀ b ∈ utf8Encode s.text, decide (b ≠ 0) = true := by
    intro b hb
    refine decide_eq_true fun hz => ?_
    rw [hz] at hb
    exact zero_not_mem_utf8Encode s.no_nul hb
  have hpadding : (List.replicate s.padding (0 : UInt8)).takeWhile (fun b => decide (b ≠ 0)) =
      [] := by
    cases s.padding with
    | zero => rfl
    | succ n => rfl
  have htake : s.bytes.1.takeWhile (fun b => decide (b ≠ 0)) = utf8Encode s.text := by
    rw [PaddedString.bytes, List.takeWhile_append_of_pos hpos, hpadding, List.append_nil]
  rw [stringOf, htake, utf8Decode_encode]

/-- Parsing inverts the reference serialiser, whatever the blobs declare and whatever follows
the signature. -/
theorem parse_encode (t : TicketFields PaddedString) (size : Int32)
    (userdataLength signatureLength : UInt16) (trailing : List UInt8) (beyond : Nat → UInt8)
    (hpos : 0 ≤ size.toInt)
    (hle : size.toInt ≤ ((t.encode PaddedString.bytes size userdataLength signatureLength ++
      trailing).length : Int) - 8) :
    (parse ⟨t.encode PaddedString.bytes size userdataLength signatureLength ++ trailing,
      beyond⟩).result = .ok (t.ticket PaddedString.text) := by
  have hparse := result_parse_fields
    { t with onlineID := t.onlineID.bytes, domain := t.domain.bytes } userdataLength
    signatureLength trailing beyond hpos hle
  simp only [TicketFields.ticket, stringOf_bytes] at hparse
  exact hparse

def noBytes : Binary := ⟨[], by decide⟩

def epoch : UnixMilliseconds := ⟨0, by decide⟩

/-- A ticket with names, padded and not, and a cookie. -/
def sampleFields : TicketFields PaddedString where
  version := 0x21010000
  serial := ⟨[0x10, 0x32, 0x54, 0x76, 0x98], by decide⟩
  issuerID := 0x100
  issuedDate := ⟨1380000000123, by decide⟩
  expireDate := ⟨1380086400123, by decide⟩
  userID := 0x0123456789ABCDEF
  onlineID := ⟨"Migrant_7", 23, by decide, by decide⟩
  region := ⟨[0x75, 0x6B, 0, 1], by decide⟩
  domain := ⟨"b2é", 0, by decide, by decide⟩
  serviceID := ⟨[0x42, 0x4C, 0x45, 0x53, 0, 0], by decide⟩
  status := 3
  cookie := some ⟨[0xC0, 0, 0xFF], by decide⟩
  signer := ⟨[0x71, 0x9F, 0x1D, 0x4A], by decide⟩
  signature := ⟨[0x30, 0x02, 0x05], by decide⟩

theorem parse_encode_sampleFields :
    (parse ⟨sampleFields.encode PaddedString.bytes 144 0x84 0x0F ++ [7, 0, 8],
      fun _ => 0⟩).result = .ok (sampleFields.ticket PaddedString.text) :=
  parse_encode sampleFields 144 0x84 0x0F [7, 0, 8] (fun _ => 0) (by decide) (by decide +kernel)

end Ticket

end AcOpenServer
