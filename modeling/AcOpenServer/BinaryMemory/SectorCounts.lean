import AcOpenServer.BinaryMemory.SectorStream

namespace AcOpenServer
open Library
set_option autoImplicit true

namespace SectorStream

/-- The property `Length`. -/
def sectorLength : EStateM Exn SectorStream Int := do
  let s ← get
  if s.sectorSize = 0 then throw .divideByZero
  else return wrap64 (((s.baseStream.length : Int) - 1).tdiv s.sectorSize + 1)

/-- `ReadSectors` into an array of this length: the number it returns and the bytes it has read. -/
def readSectors (length : Nat) (offset sectorCount : Int) :
    EStateM Exn SectorStream (Int × List UInt8) := do
  alignSector
  let s ← get
  let bytes ← onBase (BaseStream.readArray length offset (wrap32 (sectorCount * s.sectorSize)))
  return (wrap32 (((bytes.length : Int) - 1).tdiv s.sectorSize + 1), bytes)

/-- A loop that reads a sector at a time until there is none. It returns whether this happens
within a number of calls. -/
def readUntilNone (length : Nat) (offset : Int) : Nat → EStateM Exn SectorStream Bool
  | 0 => return false
  | calls + 1 => do
    let (count, _) ← readSectors length offset 1
    if count = 0 then return true else readUntilNone length offset calls

end SectorStream

variable {n k : Nat}

theorem succ_pred_div_eq_ceilDiv (h : 0 < n) (hk : 0 < k) : (k - 1) / n + 1 = k ⌈/⌉ n := by
  have hshift : k + n - 1 = k - 1 + n := by omega
  rw [Nat.ceilDiv_eq_add_pred_div, hshift, Nat.add_div_right _ h]

/-- What is computed is the ceiling, except that of nothing at all. -/
theorem tdiv_pred_add_one (h : 0 < n) (k : Nat) :
    ((k : Int) - 1).tdiv n + 1 = if 0 < k ∨ n = 1 then ((k ⌈/⌉ n : Nat) : Int) else 1 := by
  rcases Nat.eq_zero_or_pos k with rfl | hk
  · by_cases hone : n = 1
    · subst hone
      rfl
    · have hzero : ((0 : Nat) - 1 : Int).tdiv n = 0 := by
        have hlt : (1 : Int).tdiv n = 0 := Int.tdiv_eq_zero_of_lt (by decide) (by omega)
        rw [Nat.cast_zero, zero_sub, Int.neg_tdiv, hlt, neg_zero]
      rw [if_neg (by omega), hzero, zero_add]
  · have hpred : (k : Int) - 1 = ((k - 1 : Nat) : Int) := by omega
    rw [if_pos (.inl hk), hpred, ← Int.ofNat_tdiv, ← succ_pred_div_eq_ceilDiv h hk]
    rfl

theorem tdiv_pred_add_one_eq_iff (h : 0 < n) (k : Nat) :
    ((k : Int) - 1).tdiv n + 1 = ((k ⌈/⌉ n : Nat) : Int) ↔ 0 < k ∨ n = 1 := by
  rw [tdiv_pred_add_one h]
  by_cases hcond : 0 < k ∨ n = 1
  · rw [if_pos hcond]
    exact iff_of_true rfl hcond
  · have hk : k = 0 := by omega
    subst hk
    rw [if_neg hcond, zero_ceilDiv]
    exact iff_of_false (by decide) hcond

theorem ceilDiv_le_self (h : 0 < n) (k : Nat) : k ⌈/⌉ n ≤ k := by
  rw [ceilDiv_le_iff_le_mul h]
  exact Nat.le_mul_of_pos_left k h

theorem tdiv_pred_add_one_range (h : 0 < n) (k : Nat) :
    0 ≤ ((k : Int) - 1).tdiv n + 1 ∧ ((k : Int) - 1).tdiv n + 1 ≤ max k 1 := by
  have hle := ceilDiv_le_self h k
  rw [tdiv_pred_add_one h]
  split <;> omega

theorem tdiv_pred_add_one_eq_zero_iff (h : 0 < n) (k : Nat) :
    ((k : Int) - 1).tdiv n + 1 = 0 ↔ k = 0 ∧ n = 1 := by
  rw [tdiv_pred_add_one h]
  by_cases hcond : 0 < k ∨ n = 1
  · rw [if_pos hcond]
    have hceil : k ⌈/⌉ n = 0 ↔ k = 0 := by
      rw [← Nat.le_zero, ceilDiv_le_iff_le_mul h, Nat.mul_zero, Nat.le_zero]
    omega
  · rw [if_neg hcond]
    omega

namespace SectorStream

variable {s t : SectorStream}

/-- `Length` is the ceiling of the length of the base stream. -/
def LengthExact (s : SectorStream) (n : Nat) : Prop :=
  sectorLength.run s = .ok ((s.baseStream.length ⌈/⌉ n : Nat) : Int) s

theorem run_sectorLength (h : s.Regular n) :
    sectorLength.run s = .ok (((s.baseStream.length : Int) - 1).tdiv n + 1) s := by
  have hpos := h.positive
  have hfits := h.fits
  have hmaxLength := h.maxLength
  have hmaxPosition := h.maxPosition
  obtain ⟨hlow, hhigh⟩ := tdiv_pred_add_one_range hpos s.baseStream.length
  have hne : ¬ s.sectorSize = 0 := by
    rw [h.size]
    omega
  have hwrap := wrap64_of_range (n := ((s.baseStream.length : Int) - 1).tdiv n + 1) (by omega)
    (by omega)
  rw [sectorLength, run_get_bind, if_neg hne, h.size, hwrap]
  rfl

theorem lengthExact_iff (h : s.Regular n) :
    s.LengthExact n ↔ 0 < s.baseStream.length ∨ n = 1 := by
  rw [LengthExact, run_sectorLength h, ← tdiv_pred_add_one_eq_iff h.positive]
  constructor
  · intro hrun
    exact (EStateM.Result.ok.inj hrun).1
  · intro hexact
    rw [hexact]

/-- What `ReadSectors` is asked for: an array of some length, an offset and a number of sectors. -/
structure SectorRequest where
  length : Nat
  offset : Int32
  sectorCount : Int32

namespace SectorRequest

/-- The product of the sectors and their size in 32 bits, the count of bytes the base stream is
asked for. -/
def count (request : SectorRequest) (n : Nat) : Int := wrap32 (request.sectorCount.toInt * n)

/-- The array has room for the bytes at the offset. -/
def Fits (request : SectorRequest) (n : Nat) : Prop :=
  0 ≤ request.offset.toInt ∧ 0 ≤ request.count n ∧
    request.offset.toInt + request.count n ≤ request.length

instance (request : SectorRequest) (n : Nat) : Decidable (request.Fits n) :=
  inferInstanceAs (Decidable (_ ∧ _ ∧ _))

theorem count_lt (request : SectorRequest) (n : Nat) : request.count n < 2 ^ 31 := by
  unfold count wrap32
  omega

theorem count_one (request : SectorRequest) : request.count 1 = request.sectorCount.toInt := by
  have hlow := request.sectorCount.le_toInt
  have hhigh := request.sectorCount.toInt_lt
  rw [count, Nat.cast_one, mul_one]
  exact wrap32_of_range hlow hhigh

theorem count_of_one {request : SectorRequest} (hone : request.sectorCount = 1)
    (h : n < 2 ^ 31) : request.count n = n := by
  have htoInt : request.sectorCount.toInt = 1 := congrArg Int32.toInt hone
  rw [count, htoInt, one_mul]
  exact wrap32_of_range (by omega) (by omega)

end SectorRequest

/-- The bytes a read of so many bytes gets, which are those behind the first sector. -/
def sectorsRead (s : SectorStream) (n : Nat) (count : Int) : List UInt8 :=
  (s.baseStream.bytes.drop n).take count.toNat

theorem length_sectorsRead (s : SectorStream) (n : Nat) (count : Int) :
    (s.sectorsRead n count).length = min count.toNat (s.baseStream.length - n) := by
  rw [sectorsRead, List.length_take, List.length_drop]
  rfl

theorem length_sectorsRead_pos_iff (s : SectorStream) (n : Nat) (count : Int) :
    0 < (s.sectorsRead n count).length ↔ 0 < count ∧ n < s.baseStream.length := by
  rw [length_sectorsRead]
  omega

/-- The number `ReadSectors` returns when it has read so many bytes. -/
def sectorsOf (n count : Nat) : Int := ((count : Int) - 1).tdiv n + 1

theorem run_readSectors (h : s.Regular n) (hreach : n ≤ s.baseStream.maxPosition)
    {request : SectorRequest} (hfits : request.Fits n) :
    let bytes := s.sectorsRead n (request.count n)
    (readSectors request.length request.offset.toInt request.sectorCount.toInt).run s =
      .ok (sectorsOf n bytes.length, bytes) (s.moveTo (n + bytes.length)) := by
  intro bytes
  obtain ⟨hoffset, hcount, hroom⟩ := hfits
  have hint := request.count_lt n
  have hshort : bytes.length ≤ (request.count n).toNat := by
    rw [length_sectorsRead]
    exact Nat.min_le_left _ _
  obtain ⟨hlow, hhigh⟩ := tdiv_pred_add_one_range h.positive bytes.length
  have halign := (run_alignSector h).trans (run_setPosition hreach)
  have hread : (onBase (BaseStream.readArray request.length request.offset.toInt
      (wrap32 (request.sectorCount.toInt * s.sectorSize)))).run (s.moveTo n) =
        .ok bytes (s.moveTo (n + bytes.length)) := by
    rw [h.size, ← SectorRequest.count, BaseStream.readArray, if_neg (by omega)]
    exact run_zoom_of_ok (m := BaseStream.read (request.count n).toNat) rfl
  have hwrap := wrap32_of_range (n := sectorsOf n bytes.length) (by unfold sectorsOf; omega)
    (by unfold sectorsOf; omega)
  rw [readSectors, run_bind_of_ok _ halign, run_get_bind]
  refine (run_bind_of_ok _ hread).trans ?_
  change EStateM.Result.ok (wrap32 (((bytes.length : Int) - 1).tdiv s.sectorSize + 1), bytes) _ = _
  rw [h.size]
  exact congrArg (fun count => EStateM.Result.ok (count, bytes) _) hwrap

theorem run_readSectors_refused (h : s.Regular n) (hreach : n ≤ s.baseStream.maxPosition)
    {request : SectorRequest} (hfits : ¬ request.Fits n) :
    ∃ e t, (readSectors request.length request.offset.toInt request.sectorCount.toInt).run s =
      .error e t := by
  have halign := (run_alignSector h).trans (run_setPosition hreach)
  have hread : (onBase (BaseStream.readArray request.length request.offset.toInt
      (wrap32 (request.sectorCount.toInt * s.sectorSize)))).run (s.moveTo n) =
        .error .argumentOutOfRange (s.moveTo n) := by
    have hcond : request.offset.toInt < 0 ∨ request.count n < 0 ∨
        request.length < request.offset.toInt + request.count n := by
      unfold SectorRequest.Fits at hfits
      omega
    rw [h.size, ← SectorRequest.count, BaseStream.readArray, if_pos hcond]
    rfl
  refine ⟨.argumentOutOfRange, s.moveTo n, ?_⟩
  rw [readSectors, run_bind_of_ok _ halign, run_get_bind]
  exact run_bind_of_error _ hread

theorem run_alignSector_refused (h : s.Regular n) (hlimit : ¬ n ≤ s.baseStream.maxPosition) :
    ∃ e, alignSector.run s = .error e s := by
  obtain ⟨e, hrefused⟩ := run_setPosition_refused (s := s) (Nat.not_le.1 hlimit)
  exact ⟨e, (run_alignSector h).trans hrefused⟩

/-- `ReadSectors` returns the ceiling of the number of bytes it has read, which is zero, if any
sectors are requested, exactly when it has started to read at the end of the data. -/
def ReadsSectors (s : SectorStream) (n : Nat) (request : SectorRequest) : Prop :=
  ∃ u count bytes t, alignSector.run s = .ok () u ∧
    (readSectors request.length request.offset.toInt request.sectorCount.toInt).run s =
      .ok (count, bytes) t ∧
    count = ((bytes.length ⌈/⌉ n : Nat) : Int) ∧
    (0 < request.sectorCount.toInt → (count = 0 ↔ u.baseStream.length ≤ u.baseStream.position))

theorem readsSectors_iff (h : s.Regular n) (request : SectorRequest) :
    s.ReadsSectors n request ↔ n ≤ s.baseStream.maxPosition ∧ request.Fits n ∧
      (n = 1 ∨ 0 < request.count n ∧ n < s.baseStream.length) := by
  have hpos := length_sectorsRead_pos_iff s n (request.count n)
  have hceil := tdiv_pred_add_one_eq_iff h.positive (s.sectorsRead n (request.count n)).length
  have hzero := tdiv_pred_add_one_eq_zero_iff h.positive
    (s.sectorsRead n (request.count n)).length
  by_cases hreach : n ≤ s.baseStream.maxPosition
  · rw [and_iff_right hreach]
    by_cases hfits : request.Fits n
    · have halign := (run_alignSector h).trans (run_setPosition hreach)
      have hread := run_readSectors h hreach hfits
      rw [and_iff_right hfits]
      constructor
      · rintro ⟨u, count, bytes, t, -, hrun, hexact, -⟩
        cases hread.symm.trans hrun
        rcases hceil.1 hexact with hsome | hone
        · exact .inr (hpos.1 hsome)
        · exact .inl hone
      · intro hcond
        refine ⟨_, _, _, _, halign, hread, hceil.2 (hcond.symm.imp_left hpos.2), ?_⟩
        intro hsectors
        change sectorsOf n _ = 0 ↔ s.baseStream.length ≤ n
        rw [sectorsOf, hzero]
        rcases hcond with rfl | hcond
        · rw [← request.count_one] at hsectors
          omega
        · omega
    · obtain ⟨e, t, hrefused⟩ := run_readSectors_refused h hreach hfits
      constructor
      · rintro ⟨u, count, bytes, t', -, hrun, -⟩
        cases hrefused.symm.trans hrun
      · intro hcond
        exact absurd hcond.1 hfits
  · obtain ⟨e, hrefused⟩ := run_alignSector_refused h hreach
    constructor
    · rintro ⟨u, count, bytes, t, halign, -⟩
      cases hrefused.symm.trans halign
    · intro hcond
      exact absurd hcond.1 hreach

/-- The loop reads until there is nothing, in as many calls as there are sectors and one more. -/
def ReadsToEnd (s : SectorStream) (n : Nat) (request : SectorRequest) : Prop :=
  ∃ t, (readUntilNone request.length request.offset.toInt
    (s.baseStream.length ⌈/⌉ n + 1)).run s = .ok true t

/-- A round of the loop finds nothing only in sectors of one byte, and ends where it started. -/
theorem run_readSectors_one (h : s.Regular n) (hreach : n ≤ s.baseStream.maxPosition)
    {request : SectorRequest} (hfits : request.Fits n) (hone : request.sectorCount = 1) :
    ∃ count bytes t,
      (readSectors request.length request.offset.toInt 1).run s = .ok (count, bytes) t ∧
      (count = 0 ↔ s.baseStream.length ≤ n ∧ n = 1) ∧ t.Regular n ∧
      t.baseStream.bytes = s.baseStream.bytes ∧
      t.baseStream.maxPosition = s.baseStream.maxPosition := by
  have hread := run_readSectors h hreach hfits
  have hlength := length_sectorsRead s n (request.count n)
  have hlimit := h.fits.trans h.maxLength
  have htoInt : request.sectorCount.toInt = 1 := congrArg Int32.toInt hone
  rw [htoInt] at hread
  have hcount := SectorRequest.count_of_one hone h.int
  have hpositive := h.positive
  refine ⟨_, _, _, hread, ?_, regular_moveTo h (by omega), rfl, rfl⟩
  rw [sectorsOf, tdiv_pred_add_one_eq_zero_iff h.positive]
  omega

theorem run_readUntilNone (h : s.Regular n) (hreach : n ≤ s.baseStream.maxPosition)
    {request : SectorRequest} (hfits : request.Fits n) (hone : request.sectorCount = 1)
    (calls : Nat) :
    ∃ found t, (readUntilNone request.length request.offset.toInt calls).run s = .ok found t ∧
      (found = true ↔ 0 < calls ∧ s.baseStream.length ≤ n ∧ n = 1) := by
  induction calls generalizing s with
  | zero =>
    refine ⟨false, s, rfl, ?_⟩
    exact iff_of_false Bool.false_ne_true fun hcond => absurd hcond.1 (Nat.lt_irrefl 0)
  | succ calls ih =>
    obtain ⟨count, bytes, t, hread, hcount, ht, hbytes, hmax⟩ :=
      run_readSectors_one h hreach hfits hone
    rw [readUntilNone, run_bind_of_ok _ hread]
    dsimp only
    by_cases hzero : count = 0
    · rw [if_pos hzero]
      exact ⟨true, t, rfl, iff_of_true rfl ⟨Nat.succ_pos calls, hcount.1 hzero⟩⟩
    · obtain ⟨found, u, hrest, hfound⟩ := ih ht (by rwa [hmax])
      rw [if_neg hzero]
      refine ⟨found, u, hrest, ?_⟩
      rw [hfound, BaseStream.length, hbytes, ← BaseStream.length]
      rw [hcount] at hzero
      exact iff_of_false (fun hcond => hzero hcond.2) fun hcond => hzero hcond.2

theorem readsToEnd_iff (h : s.Regular n) (request : SectorRequest)
    (hone : request.sectorCount = 1) :
    s.ReadsToEnd n request ↔ n ≤ s.baseStream.maxPosition ∧ request.Fits n ∧
      s.baseStream.length ≤ n ∧ n = 1 := by
  have htoInt : request.sectorCount.toInt = 1 := congrArg Int32.toInt hone
  by_cases hreach : n ≤ s.baseStream.maxPosition
  · rw [and_iff_right hreach]
    by_cases hfits : request.Fits n
    · obtain ⟨found, t, hrun, hfound⟩ :=
        run_readUntilNone h hreach hfits hone (s.baseStream.length ⌈/⌉ n + 1)
      rw [and_iff_right hfits]
      constructor
      · rintro ⟨u, hends⟩
        cases hrun.symm.trans hends
        exact (hfound.1 rfl).2
      · intro hcond
        cases hfound.2 ⟨Nat.succ_pos _, hcond⟩
        exact ⟨t, hrun⟩
    · obtain ⟨e, t, hrefused⟩ := run_readSectors_refused h hreach hfits
      rw [htoInt] at hrefused
      constructor
      · rintro ⟨u, hends⟩
        rw [readUntilNone, run_bind_of_error _ hrefused] at hends
        cases hends
      · intro hcond
        exact absurd hcond.1 hfits
  · obtain ⟨e, hrefused⟩ := run_alignSector_refused h hreach
    constructor
    · rintro ⟨u, hends⟩
      rw [readUntilNone, readSectors, bind_assoc, run_bind_of_error _ hrefused] at hends
      cases hends
    · intro hcond
      exact absurd hcond.1 hreach

theorem sectorCounts_iff (h : s.Regular n) :
    (s.LengthExact n ↔ 0 < s.baseStream.length ∨ n = 1) ∧
      ∀ request : SectorRequest,
        (s.ReadsSectors n request ↔ n ≤ s.baseStream.maxPosition ∧ request.Fits n ∧
          (n = 1 ∨ 0 < request.count n ∧ n < s.baseStream.length)) ∧
        (request.sectorCount = 1 →
          (s.ReadsToEnd n request ↔ n ≤ s.baseStream.maxPosition ∧ request.Fits n ∧
            s.baseStream.length ≤ n ∧ n = 1)) := by
  refine ⟨lengthExact_iff h, ?_⟩
  intro request
  exact ⟨readsSectors_iff h request, readsToEnd_iff h request⟩

/-- Sectors into an array of so many bytes. -/
def sampleRequest (length : Nat) (sectorCount : Int32) : SectorRequest where
  length
  offset := 0
  sectorCount

theorem sectorCounts_iff_sample :
    (ofBytes [1, 2, 3, 4, 5] 0).LengthExact 4 ∧
      (ofBytes [1, 2, 3, 4, 5] 0).ReadsSectors 4 (sampleRequest 4 1) ∧
        ¬ (ofBytes [1, 2, 3, 4, 5] 0).ReadsToEnd 4 (sampleRequest 4 1) := by
  have hfive : (ofBytes [1, 2, 3, 4, 5] 0).Regular 4 := regular_ofBytes (by decide) (by decide)
  obtain ⟨hlength, hrequests⟩ := sectorCounts_iff hfive
  obtain ⟨hreads, hends⟩ := hrequests (sampleRequest 4 1)
  refine ⟨hlength.2 (by decide), hreads.2 (by decide), ?_⟩
  rw [hends rfl]
  decide

/-- An empty stream has a sector, a read that finds nothing has found one, so has a read of so many
sectors that their bytes are none in 32 bits, and the loop goes on for ever in the second of two
sectors. -/
theorem sectorCounts_disagree :
    ¬ (ofBytes [] 0).LengthExact 4 ∧
      ¬ (ofBytes [1, 2, 3, 4] 0).ReadsSectors 4 (sampleRequest 4 1) ∧
      ¬ (ofBytes [1, 2, 3, 4, 5, 6, 7, 8] 0).ReadsSectors 4 (sampleRequest 8 0x40000000) ∧
      ¬ (ofBytes [1, 2, 3, 4, 5, 6, 7, 8] 0).ReadsToEnd 4 (sampleRequest 4 1) := by
  have hempty : (ofBytes [] 0).Regular 4 := regular_ofBytes (by decide) (by decide)
  have hone : (ofBytes [1, 2, 3, 4] 0).Regular 4 := regular_ofBytes (by decide) (by decide)
  have htwo : (ofBytes [1, 2, 3, 4, 5, 6, 7, 8] 0).Regular 4 :=
    regular_ofBytes (by decide) (by decide)
  refine ⟨?_, ?_, ?_, ?_⟩
  · rw [lengthExact_iff hempty]
    decide
  · rw [readsSectors_iff hone]
    decide
  · rw [readsSectors_iff htwo]
    decide
  · rw [readsToEnd_iff htwo _ rfl]
    decide

end SectorStream

end AcOpenServer
