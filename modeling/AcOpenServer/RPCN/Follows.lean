import AcOpenServer.RPCN.Readers

namespace AcOpenServer
open Library
set_option autoImplicit true

namespace Ticket

open BinaryBufferReader FieldFormat

/-- What is left to read from an offset on is safe and returns just as the predicates on the
remaining bytes tell, and it crashes when no bytes remain. -/
structure Follows (payload : Span) (fits : List UInt8 → Prop) (yields : List UInt8 → β → Prop)
    (m : (offset : Nat) → Codec β) : Prop where
  safe : ∀ o, o ≤ payload.length → (Safe (m o) ↔ fits (payload.bytes.drop o))
  returns : ∀ o x, o ≤ payload.length →
    ((m o).result = .ok x ↔ yields (payload.bytes.drop o) x)
  crashes : ∀ o, payload.length ≤ o → Crashes (m o)

/-- The bytes begin with the field, and what follows it yields the result from its value. -/
def FieldFormat.Yields (f : FieldFormat) (value : List UInt8 → α)
    (next : α → List UInt8 → β → Prop) (bs : List UInt8) (x : β) : Prop :=
  f.Holds bs ∧ next (value (f.data bs)) (f.rest bs) x

theorem FieldFormat.Holds.not_rejects {f : FieldFormat} (h : f.Holds bs) : ¬ f.Rejects bs := by
  rintro ⟨_, hne | ⟨_, hne⟩⟩
  · exact hne h.type
  · exact hne h.expects

theorem not_holds_of_le {f : FieldFormat} {payload : Span} (h : payload.length ≤ o) :
    ¬ f.Holds (payload.bytes.drop o) ∧ ¬ f.Rejects (payload.bytes.drop o) := by
  have hlen := length_drop_offset payload o
  refine ⟨?_, ?_⟩
  · intro hholds
    have hheader := hholds.header
    omega
  · intro hrejects
    have h2 := hrejects.1
    omega

section

variable {payload : Span} {f : FieldFormat} {value : List UInt8 → α}
  {read : Span → (offset : Nat) → Codec (α × Nat)} {next : List UInt8 → Prop}
  {yields : α → List UInt8 → β → Prop}

/-- The cases in which a field holds or is rejected, and one in which reading it derails. -/
theorem follows_of_derails (hr : Reads f value read) {K : α × Nat → Codec β}
    (hholds : ∀ v o, o ≤ payload.length →
      (Safe (K (v, o)) ↔ next (payload.bytes.drop o)) ∧
        ∀ x, (K (v, o)).result = .ok x ↔ yields v (payload.bytes.drop o) x)
    (hderails : ∀ o, ¬ f.Holds (payload.bytes.drop o) → ¬ f.Rejects (payload.bytes.drop o) →
      Crashes (read payload o >>= K)) :
    Follows payload (f.Fits next) (f.Yields value yields) fun o => read payload o >>= K where
  safe := by
    intro o ho
    by_cases h : f.Holds (payload.bytes.drop o)
    · obtain ⟨hresult, hevents⟩ := hr.returns h
      have hlen := length_drop_offset payload o
      have hfits := h.fits
      have hnext := (hholds (value (f.data (payload.bytes.drop o)))
        (o + (4 + f.size (lengthAt (payload.bytes.drop o)))) (by omega)).1
      have hread : Safe (read payload o) := by
        refine ⟨hevents, ?_⟩
        intro e he
        rw [hresult] at he
        cases he
      rw [Safe, Traced.confined_bind, FieldFormat.Fits, FieldFormat.rest, List.drop_drop]
      constructor
      · rintro ⟨_, hb⟩
        exact .inr ⟨h, hnext.1 (hb _ hresult)⟩
      · rintro (hrej | ⟨_, hn⟩)
        · exact (h.not_rejects hrej).elim
        · refine ⟨hread, ?_⟩
          intro p hp
          cases hresult.symm.trans hp
          exact hnext.2 hn
    · by_cases hrej : f.Rejects (payload.bytes.drop o)
      · obtain ⟨⟨e, he⟩, hsafe⟩ := hr.rejects hrej
        refine iff_of_true (Traced.confined_bind.2 ⟨hsafe, ?_⟩) (.inl hrej)
        intro p hp
        rw [he] at hp
        cases hp
      · refine iff_of_false (hderails o h hrej).2 ?_
        rintro (hrej' | ⟨h', _⟩)
        · exact hrej hrej'
        · exact h h'
  returns := by
    intro o x ho
    by_cases h : f.Holds (payload.bytes.drop o)
    · obtain ⟨hresult, _⟩ := hr.returns h
      have hlen := length_drop_offset payload o
      have hfits := h.fits
      have hnext := (hholds (value (f.data (payload.bytes.drop o)))
        (o + (4 + f.size (lengthAt (payload.bytes.drop o)))) (by omega)).2 x
      rw [Traced.result_bind_of_ok _ hresult, hnext, FieldFormat.Yields, FieldFormat.rest,
        List.drop_drop]
      exact (and_iff_right h).symm
    · refine iff_of_false ?_ fun hy => h hy.1
      intro hok
      by_cases hrej : f.Rejects (payload.bytes.drop o)
      · obtain ⟨⟨e, he⟩, _⟩ := hr.rejects hrej
        rw [Traced.result_bind_of_error _ he] at hok
        cases hok
      · obtain ⟨⟨e, he⟩, _⟩ := hderails o h hrej
        rw [he] at hok
        cases hok
  crashes := by
    intro o ho
    obtain ⟨h, hrej⟩ := not_holds_of_le (f := f) ho
    exact hderails o h hrej

theorem Reads.follows (hr : Reads f value read) {K : α × Nat → Codec β}
    (hK : ∀ v, Follows payload next (yields v) fun o => K (v, o)) :
    Follows payload (f.Fits next) (f.Yields value yields) fun o => read payload o >>= K := by
  refine follows_of_derails hr ?_ ?_
  · intro v o ho
    exact ⟨(hK v).safe o ho, fun x => (hK v).returns o x ho⟩
  · intro o h hrej
    exact (hr.derails h hrej).crashes_bind fun v o' ho' => (hK v).crashes o' ho'

theorem Reads.follows_bind (hr : Reads f value read) {g : α × Nat → Codec γ}
    {K : γ → Codec β} (hK : ∀ v, Follows payload next (yields v) fun o => g (v, o) >>= K) :
    Follows payload (f.Fits next) (f.Yields value yields)
      fun o => read payload o >>= g >>= K := by
  simp only [Traced.bind_assoc]
  exact hr.follows hK

/-- Binary data that is not all there is an exception at once, so it may be the last field. -/
theorem follows_last {K : List UInt8 × Nat → Codec β} {t : List UInt8 → β}
    (hK : ∀ v o, K (v, o) = pure (t v)) :
    Follows payload (FieldFormat.binary.Fits fun _ => True)
      (FieldFormat.binary.Yields id fun v _ x => x = t v)
      fun o => readTicketDataBinary payload o >>= K := by
  refine follows_of_derails readTicketDataBinary_reads ?_ ?_
  · intro v o _
    rw [hK]
    refine ⟨iff_of_true (Traced.confined_pure _) trivial, ?_⟩
    intro x
    rw [Traced.result_pure, Except.ok.injEq]
    exact eq_comm
  · intro o h hrej
    have hderails := readTicketDataBinary_reads.derails h hrej
    unfold Derails at hderails
    cases hr : (readTicketDataBinary payload o).result with
    | error e =>
      rw [hr] at hderails
      exact Crashes.bind ⟨⟨e, hr⟩, hderails⟩ K
    | ok p =>
      rw [hr] at hderails
      obtain ⟨⟨length, next⟩, _, hdata⟩ := Traced.result_bind_eq_ok.1 hr
      by_cases hfits : next + length ≤ payload.length
      · dsimp only at hdata
        rw [Span.slice_of_le hfits, Traced.result_bind_of_ok _ rfl] at hdata
        cases hdata
        exact (Nat.not_lt_of_ge hfits hderails).elim
      · dsimp only at hdata
        rw [Span.slice_of_lt (by omega), Traced.throw_bind] at hdata
        cases hdata

end

end Ticket

end AcOpenServer
