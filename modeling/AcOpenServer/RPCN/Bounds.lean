import AcOpenServer.RPCN.Follows

namespace AcOpenServer
open Library
set_option autoImplicit true

namespace Ticket

open BinaryBufferReader FieldFormat

/-- The optional cookie in front of an empty field, which is told from it by its type. -/
def CookieFits (next : List UInt8 → Prop) (bs : List UInt8) : Prop :=
  2 ≤ bs.length ∧ if typeAt bs = .empty then next bs else FieldFormat.binary.Fits next bs

def CookieYields (next : List UInt8 → List UInt8 → β → Prop) (bs : List UInt8) (x : β) : Prop :=
  2 ≤ bs.length ∧
    if typeAt bs = .empty then next [] bs x else FieldFormat.binary.Yields id next bs x

def UserdataFits (next : List UInt8 → Prop) : List UInt8 → Prop :=
  blobUserdata.Fits <| FieldFormat.binary.Fits <| FieldFormat.u32.Fits <|
  FieldFormat.time.Fits <| FieldFormat.time.Fits <| FieldFormat.u64.Fits <|
  FieldFormat.bString.Fits <| FieldFormat.binary.Fits <| FieldFormat.bString.Fits <|
  FieldFormat.binary.Fits <| FieldFormat.u32.Fits <| CookieFits <|
  FieldFormat.empty.Fits <| FieldFormat.empty.Fits next

def SignatureFits : List UInt8 → Prop :=
  blobSignature.Fits <| FieldFormat.binary.Fits <| FieldFormat.binary.Fits fun _ => True

/-- The size in the header of the ticket, an `int`. -/
def declaredSize (bs : List UInt8) : Int := (readAt UInt32 (bs.drop 4)).toInt32.toInt

def SizeAccepted (bs : List UInt8) : Prop :=
  0 ≤ declaredSize bs ∧ declaredSize bs ≤ (bs.length : Int) - 8

/-- The header is complete, and so is every field that is reached. -/
def TicketFits (bs : List UInt8) : Prop :=
  8 ≤ bs.length ∧ (SizeAccepted bs → UserdataFits SignatureFits (bs.drop 8))

def UserdataYields (next : Userdata → List UInt8 → β → Prop) : List UInt8 → β → Prop :=
  blobUserdata.Yields (fun _ => ()) fun _ =>
  FieldFormat.binary.Yields id fun serial =>
  FieldFormat.u32.Yields (readAt UInt32) fun issuerID =>
  FieldFormat.time.Yields timeOf fun issuedDate =>
  FieldFormat.time.Yields timeOf fun expireDate =>
  FieldFormat.u64.Yields (readAt UInt64) fun userID =>
  FieldFormat.bString.Yields stringOf fun onlineID =>
  FieldFormat.binary.Yields id fun region =>
  FieldFormat.bString.Yields stringOf fun domain =>
  FieldFormat.binary.Yields id fun serviceID =>
  FieldFormat.u32.Yields (readAt UInt32) fun status =>
  CookieYields fun cookie =>
  FieldFormat.empty.Yields (fun _ => ()) fun _ =>
  FieldFormat.empty.Yields (fun _ => ()) fun _ =>
  next { serial, issuerID, issuedDate, expireDate, userID, onlineID, region, domain, serviceID,
         status, cookie }

def SignatureYields (next : List UInt8 → List UInt8 → β) : List UInt8 → β → Prop :=
  blobSignature.Yields (fun _ => ()) fun _ =>
  FieldFormat.binary.Yields id fun signer =>
  FieldFormat.binary.Yields id fun signature _ x => x = next signer signature

def TicketYields (bs : List UInt8) (ticket : Ticket) : Prop :=
  8 ≤ bs.length ∧ SizeAccepted bs ∧
    UserdataYields (fun userdata => SignatureYields fun signer signature =>
      { userdata with version := readAt UInt32 bs, signer, signature }) (bs.drop 8) ticket

section

variable {payload : Span} {next : List UInt8 → Prop}

theorem readCookie_follows {yields : List UInt8 → List UInt8 → β → Prop}
    {K : List UInt8 × Nat → Codec β}
    (hK : ∀ v, Follows payload next (yields v) fun o => K (v, o))
    (hshort : ∀ v bs x, bs.length < 2 → ¬ yields v bs x) :
    Follows payload (CookieFits next) (CookieYields yields)
      fun o => readCookie payload o >>= K := by
  have hread : ∀ o, o < payload.length → peekTicketDataType payload o =
      ⟨.ok ⟨peek UInt16 payload o⟩, [⟨o, 2, payload.length⟩]⟩ := by
    intro o ho
    rw [peekTicketDataType, readUInt16BigEndian, readBigEndian_of_lt ho]
    rfl
  have hcookie := readTicketDataBinary_reads.follows hK
  have hcrash : ∀ o, payload.length ≤ o → Crashes (readCookie payload o >>= K) := by
    intro o ho
    refine Crashes.bind (Crashes.bind (Crashes.bind ?_ _) _) _
    rw [readUInt16BigEndian, readBigEndian_of_le ho]
    exact crashes_throw not_isTicketParse_indexOutOfRange
  have hshort' : ∀ o, payload.length < o + 2 →
      ¬ Safe (readCookie payload o >>= K) ∧ ∀ x, (readCookie payload o >>= K).result ≠ .ok x := by
    intro o ho
    by_cases hlt : o < payload.length
    · refine ⟨?_, ?_⟩
      · intro hs
        have hin := hs.1 ⟨o, 2, payload.length⟩ (by
          apply Traced.mem_events_bind
          apply Traced.mem_events_bind
          rw [hread o hlt]
          exact List.mem_singleton_self _)
        simp only [Access.InBounds] at hin
        omega
      · intro x hx
        rw [readCookie, Traced.bind_assoc, hread o hlt, Traced.result_bind_of_ok _ rfl] at hx
        split at hx
        · have hy := (hcookie.returns o x hlt.le).1 hx
          have hheader := hy.1.header
          have hlen := length_drop_offset payload o
          omega
        · rw [Traced.pure_bind] at hx
          refine hshort [] _ x ?_ (((hK []).returns o x hlt.le).1 hx)
          rw [length_drop_offset]
          omega
    · obtain ⟨⟨e, he⟩, hs⟩ := hcrash o (Nat.le_of_not_lt hlt)
      refine ⟨hs, ?_⟩
      intro x hx
      rw [he] at hx
      cases hx
  have hlong : ∀ o, o + 2 ≤ payload.length → readCookie payload o >>= K =
      ⟨(if typeAt (payload.bytes.drop o) = .empty then K ([], o)
          else readTicketDataBinary payload o >>= K).result,
        ⟨o, 2, payload.length⟩ ::
          (if typeAt (payload.bytes.drop o) = .empty then K ([], o)
            else readTicketDataBinary payload o >>= K).events⟩ := by
    intro o ho
    have htype : (⟨peek UInt16 payload o⟩ : TicketDataType) = typeAt (payload.bytes.drop o) :=
      typeAt_eq ho
    rw [readCookie, Traced.bind_assoc, hread o (by omega), Traced.bind_of_ok _ rfl, htype]
    dsimp only
    by_cases he : typeAt (payload.bytes.drop o) = .empty
    · rw [if_neg (not_not_intro he), if_pos he, Traced.pure_bind]
      rfl
    · rw [if_pos he, if_neg he]
      rfl
  have hsafe : ∀ o, o + 2 ≤ payload.length → ∀ m : Codec β,
      Safe ⟨m.result, ⟨o, 2, payload.length⟩ :: m.events⟩ ↔ Safe m := by
    intro o ho m
    have hin : (⟨o, 2, payload.length⟩ : Access).InBounds := ho
    constructor
    · intro hs
      exact ⟨fun a ha => hs.1 a (List.mem_cons_of_mem _ ha), hs.2⟩
    · intro hs
      exact ⟨List.forall_mem_cons.2 ⟨hin, hs.1⟩, hs.2⟩
  refine ⟨?_, ?_, hcrash⟩
  · intro o ho
    by_cases h2 : o + 2 ≤ payload.length
    · have hl : 2 ≤ (payload.bytes.drop o).length := by rw [length_drop_offset]; omega
      rw [hlong o h2, hsafe o h2, CookieFits, and_iff_right hl]
      split
      · exact (hK []).safe o ho
      · exact hcookie.safe o ho
    · refine iff_of_false (hshort' o (by omega)).1 ?_
      rintro ⟨hl, _⟩
      rw [length_drop_offset] at hl
      omega
  · intro o x ho
    by_cases h2 : o + 2 ≤ payload.length
    · have hl : 2 ≤ (payload.bytes.drop o).length := by rw [length_drop_offset]; omega
      rw [hlong o h2, CookieYields, and_iff_right hl]
      dsimp only
      split
      · exact (hK []).returns o x ho
      · exact hcookie.returns o x ho
    · refine iff_of_false ((hshort' o (by omega)).2 x) ?_
      rintro ⟨hl, _⟩
      rw [length_drop_offset] at hl
      omega

theorem readSignature_follows {t : List UInt8 → List UInt8 → β}
    {K : (List UInt8 × List UInt8) × Nat → Codec β}
    (hK : ∀ signer signature o, K ((signer, signature), o) = pure (t signer signature)) :
    Follows payload SignatureFits (SignatureYields t)
      fun o => readSignature payload o >>= K := by
  refine readBlobHeader_signature_reads.follows_bind fun _ => ?_
  refine readTicketDataBinary_reads.follows_bind fun signer => ?_
  simp only [Traced.bind_assoc]
  refine follows_last fun signature o => ?_
  rw [Traced.pure_bind, hK]

theorem not_yields_of_short {f : FieldFormat} {value : List UInt8 → α}
    {yields : α → List UInt8 → β → Prop} (h : bs.length < 2) : ¬ f.Yields value yields bs x := by
  rintro ⟨hholds, _⟩
  have hheader := hholds.header
  omega

theorem readUserdata_follows {yields : Userdata → List UInt8 → β → Prop}
    {K : Userdata × Nat → Codec β}
    (hK : ∀ v, Follows payload next (yields v) fun o => K (v, o)) :
    Follows payload (UserdataFits next) (UserdataYields yields)
      fun o => readUserdata payload o >>= K := by
  refine readBlobHeader_userdata_reads.follows_bind fun _ => ?_
  refine readTicketDataBinary_reads.follows_bind fun serial => ?_
  refine readTicketDataU32_reads.follows_bind fun issuerID => ?_
  refine readTicketDataTime_reads.follows_bind fun issuedDate => ?_
  refine readTicketDataTime_reads.follows_bind fun expireDate => ?_
  refine readTicketDataU64_reads.follows_bind fun userID => ?_
  refine readTicketDataBString_reads.follows_bind fun onlineID => ?_
  refine readTicketDataBinary_reads.follows_bind fun region => ?_
  refine readTicketDataBString_reads.follows_bind fun domain => ?_
  refine readTicketDataBinary_reads.follows_bind fun serviceID => ?_
  refine readTicketDataU32_reads.follows_bind fun status => ?_
  simp only [Traced.bind_assoc]
  refine readCookie_follows (fun cookie => ?_) fun cookie bs x h => not_yields_of_short h
  dsimp only
  refine readTicketDataEmpty_reads.follows fun _ => ?_
  refine readTicketDataEmpty_reads.follows fun _ => ?_
  simp only [Traced.pure_bind]
  exact hK _

theorem crashes_parse (h : payload.length < 8) : Crashes (parse payload) := by
  by_cases h0 : 0 < payload.length
  · have hversion := readBigEndianRef_of_lt (α := UInt32) h0
    by_cases h4 : 4 < payload.length
    · have hsize := readBigEndianRef_of_lt (α := UInt32) h4
      refine Crashes.after (congrArg Traced.result hversion) ?_
      refine crashes_of_access (a := ⟨4, 4, payload.length⟩) ?_ ?_ ?_
      · apply Traced.mem_events_bind
        change _ ∈ (readBigEndianRef UInt32 payload 4).events
        rw [hsize]
        exact List.mem_singleton_self _
      · simp only [Access.InBounds]
        omega
      · rintro ⟨size, offset⟩ _
        dsimp only
        split
        · exact ⟨_, rfl⟩
        · rename_i hneg
          have hpos : 0 ≤ size.toInt := by
            rw [Int32.lt_iff_toInt_lt] at hneg
            exact Int.not_lt.1 hneg
          rw [if_pos (by omega)]
          exact ⟨_, rfl⟩
    · refine Crashes.after (congrArg Traced.result hversion) (Crashes.bind (Crashes.bind ?_ _) _)
      exact crashes_readBigEndianRef (Nat.le_of_not_lt h4)
  · exact (crashes_readBigEndianRef (by omega)).bind _

/-- The part of the constructor behind the header. -/
def parseFields (payload : Span) (version : UInt32) (offset : Nat) : Codec Ticket :=
  readUserdata payload offset >>= fun p => readSignature payload p.2 >>= fun q =>
    pure { p.1 with version, signer := q.1.1, signature := q.1.2 }

theorem parse_of_le (h : 8 ≤ payload.length) :
    Traced.Confined Access.InBounds Exn.IsTicketParse (parse payload) ∧
        (∀ ticket, (parse payload).result ≠ .ok ticket) ∧ ¬ SizeAccepted payload.bytes ∨
      SizeAccepted payload.bytes ∧ parse payload =
        ⟨(parseFields payload (readAt UInt32 payload.bytes) 8).result,
          ⟨0, 4, payload.length⟩ :: ⟨4, 4, payload.length⟩ ::
            (parseFields payload (readAt UInt32 payload.bytes) 8).events⟩ := by
  have hversion : readUInt32BigEndianRef payload 0 =
      ⟨.ok (readAt UInt32 payload.bytes, 4), [⟨0, 4, payload.length⟩]⟩ := by
    rw [readUInt32BigEndianRef, readBigEndianRef_of_lt (by omega), peek_eq_readAt (by
      rw [Layout.size_uint32]; omega)]
    rfl
  have hsize : readInt32BigEndianRef payload 4 =
      ⟨.ok ((readAt UInt32 (payload.bytes.drop 4)).toInt32, 8), [⟨4, 4, payload.length⟩]⟩ := by
    rw [readInt32BigEndianRef, readBigEndianRef_of_lt (by omega), peek_eq_readAt (by
      rw [Layout.size_uint32]; omega)]
    rfl
  have hin : ∀ a ∈ [⟨0, 4, payload.length⟩, (⟨4, 4, payload.length⟩ : Access)], a.InBounds := by
    simp only [List.forall_mem_cons, List.not_mem_nil, false_implies, implies_true, and_true,
      Access.InBounds]
    omega
  have hl : payload.length = payload.bytes.length := rfl
  rw [parse, hversion, Traced.bind_of_ok _ rfl]
  dsimp only
  rw [hsize, Traced.bind_of_ok _ rfl]
  dsimp only
  by_cases hneg : (readAt UInt32 (payload.bytes.drop 4)).toInt32 < 0
  · rw [if_pos hneg]
    refine .inl ⟨safe_of_events hin rfl, ?_, ?_⟩
    · intro ticket ht
      cases ht
    · rintro ⟨hpos, _⟩
      rw [Int32.lt_iff_toInt_lt] at hneg
      exact Int.not_lt.2 hpos hneg
  · rw [if_neg hneg]
    by_cases hlarge : (readAt UInt32 (payload.bytes.drop 4)).toInt32.toInt >
        (payload.length : Int) - 8
    · rw [if_pos hlarge]
      refine .inl ⟨safe_of_events hin rfl, ?_, ?_⟩
      · intro ticket ht
        cases ht
      · rintro ⟨_, hle⟩
        exact Int.not_lt.2 hle hlarge
    · rw [if_neg hlarge]
      refine .inr ⟨⟨?_, Int.not_lt.1 hlarge⟩, rfl⟩
      rw [Int32.lt_iff_toInt_lt] at hneg
      exact Int.not_lt.1 hneg

theorem parseFields_follows (payload : Span) (version : UInt32) :
    Follows payload (UserdataFits SignatureFits)
      (UserdataYields fun userdata => SignatureYields fun signer signature =>
        { userdata with version, signer, signature })
      (parseFields payload version) := by
  refine readUserdata_follows fun userdata => ?_
  dsimp only
  exact readSignature_follows fun _ _ _ => rfl

theorem safe_parse_iff : Safe (parse payload) ↔ TicketFits payload.bytes := by
  have hl : payload.length = payload.bytes.length := rfl
  by_cases h : 8 ≤ payload.length
  · rw [TicketFits, ← hl, and_iff_right h]
    rcases parse_of_le h with ⟨hsafe, _, hnot⟩ | ⟨hsize, heq⟩
    · exact iff_of_true hsafe fun hs => (hnot hs).elim
    · have hfields := (parseFields_follows payload (readAt UInt32 payload.bytes)).safe 8 h
      rw [heq, forall_prop_of_true hsize, ← hfields]
      constructor
      · intro hs
        refine ⟨?_, hs.2⟩
        intro a ha
        exact hs.1 a (List.mem_cons_of_mem _ (List.mem_cons_of_mem _ ha))
      · intro hs
        have h0 : (⟨0, 4, payload.length⟩ : Access).InBounds := by
          simp only [Access.InBounds]
          omega
        have h4 : (⟨4, 4, payload.length⟩ : Access).InBounds := by
          simp only [Access.InBounds]
          omega
        exact ⟨List.forall_mem_cons.2 ⟨h0, List.forall_mem_cons.2 ⟨h4, hs.1⟩⟩, hs.2⟩
  · refine iff_of_false (crashes_parse (by omega)).2 ?_
    rintro ⟨h8, _⟩
    omega

theorem result_parse_iff : (parse payload).result = .ok ticket ↔
    TicketYields payload.bytes ticket := by
  have hl : payload.length = payload.bytes.length := rfl
  by_cases h : 8 ≤ payload.length
  · rw [TicketYields, ← hl, and_iff_right h]
    rcases parse_of_le h with ⟨_, hnone, hnot⟩ | ⟨hsize, heq⟩
    · exact iff_of_false (hnone ticket) fun hs => hnot hs.1
    · have hfields := (parseFields_follows payload (readAt UInt32 payload.bytes)).returns 8 ticket h
      rw [heq, and_iff_right hsize, ← hfields]
  · refine iff_of_false ?_ fun hy => h hy.1
    intro hok
    obtain ⟨⟨e, he⟩, _⟩ := crashes_parse (Nat.lt_of_not_le h)
    rw [he] at hok
    cases hok

/-- `TryParse` makes the accesses of `Parse` and lets through what it does not catch. -/
theorem tryParse_eq : tryParse payload =
    ⟨match (parse payload).result with
      | .ok ticket => .ok (.ok ticket)
      | .error (.ticketParse message) => .ok (.error message)
      | .error e => .error e,
      (parse payload).events⟩ := by
  change Traced.tryCatch _ _ = _
  unfold Traced.tryCatch
  cases hr : (parse payload).result with
  | ok ticket =>
    rw [Traced.bind_of_ok _ hr, Traced.events_pure, List.append_nil]
    rfl
  | error e =>
    rw [Traced.bind_of_error _ hr]
    cases e <;> simp only [Traced.result_pure, Traced.result_throw, Traced.events_pure,
      Traced.events_throw, List.append_nil]

end

/-- `TryParse` returns and stays inside the payload exactly when the payload is not cut off in
the header or in a field that is reached, and the times that are reached are in range. -/
theorem tryParse_safe_iff (bytes : List UInt8) (beyond : Nat → UInt8) :
    ((∃ r, (tryParse ⟨bytes, beyond⟩).result = .ok r) ∧
        ∀ a ∈ (tryParse ⟨bytes, beyond⟩).events, a.InBounds) ↔ TicketFits bytes := by
  have hsafe : Safe (parse ⟨bytes, beyond⟩) ↔ TicketFits bytes := safe_parse_iff
  rw [← hsafe, tryParse_eq]
  dsimp only
  cases hr : (parse ⟨bytes, beyond⟩).result with
  | ok ticket =>
    constructor
    · rintro ⟨_, hevents⟩
      refine ⟨hevents, ?_⟩
      intro e he
      rw [hr] at he
      cases he
    · intro hs
      exact ⟨⟨_, rfl⟩, hs.1⟩
  | error e =>
    constructor
    · rintro ⟨⟨r, hreturn⟩, hevents⟩
      refine ⟨hevents, ?_⟩
      intro e' he
      cases hr.symm.trans he
      cases e with
      | ticketParse message => exact ⟨message, rfl⟩
      | _ => cases hreturn
    · intro hs
      obtain ⟨message, rfl⟩ := hs.2 e hr
      exact ⟨⟨_, rfl⟩, hs.1⟩

/-- An empty payload is an exception that is not caught. -/
theorem tryParse_empty_throws : ¬ ∀ (bytes : List UInt8) (beyond : Nat → UInt8),
    (∃ r, (tryParse ⟨bytes, beyond⟩).result = .ok r) ∧
      ∀ a ∈ (tryParse ⟨bytes, beyond⟩).events, a.InBounds := by
  intro h
  obtain ⟨⟨r, hr⟩, _⟩ := h [] (fun _ => 0)
  cases hr

end Ticket

end AcOpenServer
