import AcOpenServer.RPCN.Format

namespace AcOpenServer
open Library
set_option autoImplicit true

namespace Ticket

open FieldFormat

theorem FieldFormat.Yields.fits {f : FieldFormat} {value : List UInt8 → α}
    {yields : α → List UInt8 → β → Prop} {next : List UInt8 → Prop}
    (h : f.Yields value yields bs x) (hnext : ∀ v rest, yields v rest x → next rest) :
    f.Fits next bs :=
  .inr ⟨h.1, hnext _ _ h.2⟩

theorem CookieYields.fits {yields : List UInt8 → List UInt8 → β → Prop}
    {next : List UInt8 → Prop} (h : CookieYields yields bs x)
    (hnext : ∀ v rest, yields v rest x → next rest) : CookieFits next bs := by
  obtain ⟨hlen, hy⟩ := h
  refine ⟨hlen, ?_⟩
  split at hy
  · rename_i htype
    rw [if_pos htype]
    exact hnext _ _ hy
  · rename_i htype
    rw [if_neg htype]
    exact hy.fits hnext

theorem SignatureYields.fits {next : List UInt8 → List UInt8 → β}
    (h : SignatureYields next bs x) : SignatureFits bs :=
  Yields.fits h fun _ _ h => Yields.fits h fun _ _ h => Yields.fits h fun _ _ _ => trivial

theorem UserdataYields.fits {yields : Userdata → List UInt8 → β → Prop}
    {next : List UInt8 → Prop} (h : UserdataYields yields bs x)
    (hnext : ∀ v rest, yields v rest x → next rest) : UserdataFits next bs :=
  Yields.fits h fun _ _ h => Yields.fits h fun _ _ h => Yields.fits h fun _ _ h =>
  Yields.fits h fun _ _ h => Yields.fits h fun _ _ h => Yields.fits h fun _ _ h =>
  Yields.fits h fun _ _ h => Yields.fits h fun _ _ h => Yields.fits h fun _ _ h =>
  Yields.fits h fun _ _ h => Yields.fits h fun _ _ h => CookieYields.fits h fun _ _ h =>
  Yields.fits h fun _ _ h => Yields.fits h fun _ rest h => hnext _ rest h

theorem TicketYields.fits (h : TicketYields bs ticket) : TicketFits bs :=
  ⟨h.1, fun _ => h.2.2.fits fun _ _ hy => SignatureYields.fits hy⟩

/-- An accepted payload is the fields of its ticket one after another, and neither the size
and lengths it declares nor what follows its last field has a part in the ticket. -/
theorem parse_determined_by_fields {bytes : List UInt8} {beyond : Nat → UInt8} {ticket : Ticket}
    (h : (parse ⟨bytes, beyond⟩).result = .ok ticket) :
    (∀ a ∈ (parse ⟨bytes, beyond⟩).events, a.InBounds) ∧
    ∃ (t : TicketFields Binary) (size : Int32) (userdataLength signatureLength : UInt16)
      (trailing : List UInt8),
      bytes = t.encode id size userdataLength signatureLength ++ trailing ∧
      (∀ size' userdataLength' signatureLength' trailing' beyond', 0 ≤ size'.toInt →
        size'.toInt ≤
          ((t.encode id size' userdataLength' signatureLength' ++ trailing').length : Int) - 8 →
        (parse ⟨t.encode id size' userdataLength' signatureLength' ++ trailing',
          beyond'⟩).result = .ok ticket) ∧
      ∀ bytes' beyond' ticket',
        bytes'.take (t.encode id size userdataLength signatureLength).length =
          bytes.take (t.encode id size userdataLength signatureLength).length →
        (parse ⟨bytes', beyond'⟩).result = .ok ticket' → ticket' = ticket := by
  have hyields := result_parse_iff.1 h
  obtain ⟨t, size, userdataLength, signatureLength, trailing, hbytes, hpos, hle, rfl⟩ :=
    ticketYields_iff.1 hyields
  dsimp only at hbytes hle
  refine ⟨(safe_parse_iff.2 hyields.fits).1, t, size, userdataLength, signatureLength, trailing,
    hbytes, ?_, ?_⟩
  · intro size' userdataLength' signatureLength' trailing' beyond' hpos' hle'
    exact result_parse_fields t userdataLength' signatureLength' trailing' beyond' hpos' hle'
  · intro bytes' beyond' ticket' htake hparse
    have hbytes' : bytes' = t.encode id size userdataLength signatureLength ++
        bytes'.drop (t.encode id size userdataLength signatureLength).length := by
      nth_rewrite 1 [← List.take_append_drop
        (t.encode id size userdataLength signatureLength).length bytes']
      rw [htake, hbytes, List.take_left]
    have hsize : size.toInt ≤ (bytes'.length : Int) - 8 := by
      have hyields' := (result_parse_iff.1 hparse).2.1.2
      dsimp only at hyields'
      rw [hbytes', encode_append, declaredSize_append, ← encode_append, ← hbytes'] at hyields'
      exact hyields'
    rw [hbytes'] at hparse hsize
    have hfields := result_parse_fields t userdataLength signatureLength _ beyond' hpos hsize
    exact Except.ok.inj (hparse.symm.trans hfields)

/-- A ticket with nothing but a status. -/
def statusFields (status : UInt32) : TicketFields Binary where
  version := 0x21010000
  serial := noBytes
  issuerID := 0
  issuedDate := epoch
  expireDate := epoch
  userID := 0
  onlineID := noBytes
  region := noBytes
  domain := noBytes
  serviceID := noBytes
  status
  cookie := none
  signer := noBytes
  signature := noBytes

/-- The fields of the sample ticket, its strings being the bytes that are read. -/
def sampleBytes : TicketFields Binary :=
  { sampleFields with
    onlineID := sampleFields.onlineID.bytes
    domain := sampleFields.domain.bytes }

theorem sampleBytes_inBounds :
    (parse ⟨sampleBytes.encode id 20 0x84 0x0F ++ [7, 0, 8], fun _ => 0⟩).result =
        .ok (sampleBytes.ticket fun data => stringOf data.1) ∧
      ∀ a ∈ (parse ⟨sampleBytes.encode id 20 0x84 0x0F ++ [7, 0, 8], fun _ => 0⟩).events,
        a.InBounds := by
  have hlength : (20 : Int32).toInt ≤
      ((sampleBytes.encode id 20 0x84 0x0F ++ [7, 0, 8]).length : Int) - 8 := by
    decide +kernel
  have hparse := result_parse_fields sampleBytes 0x84 0x0F [7, 0, 8] (fun _ => 0) (by decide)
    hlength
  exact ⟨hparse, (parse_determined_by_fields hparse).1⟩

/-- Two tickets that declare the size 0 and agree on the eight bytes of their headers. -/
theorem declared_size_not_a_bound : ¬ ∀ (bytes bytes' : List UInt8) (beyond : Nat → UInt8)
    (ticket ticket' : Ticket), (parse ⟨bytes, beyond⟩).result = .ok ticket →
    (parse ⟨bytes', beyond⟩).result = .ok ticket' →
    bytes.take (8 + (declaredSize bytes).toNat) = bytes'.take (8 + (declaredSize bytes).toNat) →
    ticket = ticket' := by
  intro h
  have hzero : 0 ≤ (0 : Int32).toInt := by decide
  have hparse := fun status => result_parse_fields (statusFields status) 0 0 [] (fun _ => 0) hzero
  have hequal := h _ _ _ _ _ (hparse 0 (by decide)) (hparse 1 (by decide)) (by decide)
  exact absurd (congrArg (fun ticket => ticket.status) hequal) (by decide)

end Ticket

end AcOpenServer
