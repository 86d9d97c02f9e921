import AcOpenServer.BinaryMemory.BaseStream

namespace AcOpenServer
open Library
set_option autoImplicit true

/-- A stream whose reads and writes can be aligned to sectors. -/
structure SectorStream where
  baseStream : BaseStream
  sectorSize : Int
  padding : UInt8
  deriving DecidableEq, Repr

namespace SectorStream

/-- Use the base stream. -/
def onBase (m : EStateM Exn BaseStream α) : EStateM Exn SectorStream α :=
  zoom baseStream (fun baseStream s => { s with baseStream }) m

/-- `BaseStream.Position % SectorSize` -/
def remainder : EStateM Exn SectorStream Int := do
  let s ← get
  if s.sectorSize = 0 then throw .divideByZero
  else return (s.baseStream.position : Int).tmod s.sectorSize

def alignSector : EStateM Exn SectorStream Unit := do
  let remainder ← remainder
  onBase (BaseStream.setPosition (remainder + ((← get).sectorSize - remainder)))

/-- The array of the padding is taken to be there for every size, also above `maxArrayLength`. -/
def padSector : EStateM Exn SectorStream Unit := do
  let remainder ← remainder
  let s ← get
  let remaining := wrap32 (s.sectorSize - remainder)
  let nextPosition := wrap64 (s.baseStream.position + remaining)
  if s.baseStream.length ≤ nextPosition then
    if remaining < 0 then throw .overflow
    else onBase (BaseStream.write (List.replicate remaining.toNat s.padding))
  onBase (BaseStream.setPosition nextPosition)

def writeAligned (bytes : List UInt8) : EStateM Exn SectorStream Unit := do
  padSector
  onBase (BaseStream.write bytes)

/-- `ReadAligned` into a span of this length. -/
def readAligned (length : Nat) : EStateM Exn SectorStream (List UInt8) := do
  alignSector
  onBase (BaseStream.read length)

def writeAll : List (List UInt8) → EStateM Exn SectorStream Unit
  | [] => pure ()
  | chunk :: chunks => do
    writeAligned chunk
    writeAll chunks

def readAll : List Nat → EStateM Exn SectorStream (List (List UInt8))
  | [] => return []
  | length :: lengths => do
    let bytes ← readAligned length
    return bytes :: (← readAll lengths)

end SectorStream

/-- The next multiple behind a number, which is another one even for a multiple. -/
def nextMultiple (e n : Nat) : Nat := e + (n - e % n)

theorem nextMultiple_eq (h : 0 < n) (e : Nat) : nextMultiple e n = (e / n + 1) * n := by
  have hmod := Nat.mod_lt e h
  have hdiv := Nat.div_add_mod' e n
  rw [nextMultiple, Nat.succ_mul]
  omega

theorem isLeast_nextMultiple_iff (h : 0 < n) (e : Nat) :
    IsLeast {m | n ∣ m ∧ e ≤ m} (nextMultiple e n) ↔ ¬ n ∣ e := by
  have hmod := Nat.mod_lt e h
  refine ⟨?_, ?_⟩
  · rintro ⟨-, hleast⟩ hdvd
    have hle := hleast ⟨hdvd, Nat.le_refl e⟩
    rw [nextMultiple] at hle
    omega
  · intro hdvd
    refine ⟨⟨?_, Nat.le_add_right _ _⟩, ?_⟩
    · rw [nextMultiple_eq h]
      exact Nat.dvd_mul_left n _
    · rintro m ⟨⟨k, rfl⟩, hle⟩
      rw [nextMultiple_eq h, Nat.mul_comm n]
      apply Nat.mul_le_mul_right
      rw [Nat.succ_le_iff, Nat.div_lt_iff_lt_mul h, Nat.mul_comm k]
      exact Nat.lt_of_le_of_ne hle fun heq => hdvd ⟨k, heq⟩

theorem add_le_nextMultiple (h : 0 < n) (hm : IsLeast {m | n ∣ m ∧ e ≤ m} m) (hle : e + n ≤ e') :
    m + n ≤ nextMultiple e' n := by
  have hmod := Nat.mod_lt e' h
  have hdiv := Nat.div_add_mod' e' n
  have hbelow := hm.2 ⟨Nat.dvd_mul_left n (e' / n), by omega⟩
  rw [nextMultiple_eq h, Nat.succ_mul]
  omega

namespace SectorStream

/-- A sector size of at least one and a base stream within its limits. -/
structure Regular (n : Nat) (s : SectorStream) : Prop where
  size : s.sectorSize = n
  positive : 0 < n
  int : n < 2 ^ 31
  fits : s.baseStream.length ≤ s.baseStream.maxLength
  position : s.baseStream.position ≤ s.baseStream.maxPosition
  maxLength : s.baseStream.maxLength ≤ s.baseStream.maxPosition
  maxPosition : s.baseStream.maxPosition < 2 ^ 63

/-- The stream when its base stream has moved. -/
def moveTo (s : SectorStream) (position : Nat) : SectorStream :=
  { s with baseStream := { s.baseStream with position } }

/-- The stream when bytes have been written to its base stream. -/
def append (s : SectorStream) (bytes : List UInt8) : SectorStream :=
  { s with baseStream := { s.baseStream with
    toMemoryStream := s.baseStream.toMemoryStream.write bytes } }

variable {s : SectorStream} {n : Nat}

theorem run_remainder (h : s.Regular n) :
    remainder.run s = .ok ((s.baseStream.position % n : Nat) : Int) s := by
  have hne : ¬ s.sectorSize = 0 := by
    rw [h.size]
    have hpos := h.positive
    omega
  rw [remainder, run_get_bind, if_neg hne, h.size, Int.ofNat_tmod]
  rfl

theorem run_setPosition {position : Nat} (h : position ≤ s.baseStream.maxPosition) :
    (onBase (BaseStream.setPosition position)).run s = .ok () (s.moveTo position) := by
  refine run_zoom_of_ok (t := { s.baseStream with position }) ?_
  rw [BaseStream.setPosition, run_get_bind, if_neg (by omega)]
  rfl

theorem run_setPosition_refused {position : Nat} (h : s.baseStream.maxPosition < position) :
    ∃ e, (onBase (BaseStream.setPosition position)).run s = .error e s := by
  refine ⟨.argumentOutOfRange, run_zoom_of_error ?_⟩
  rw [BaseStream.setPosition, run_get_bind, if_pos (by omega)]
  rfl

theorem run_write (bytes : List UInt8)
    (h : s.baseStream.position + bytes.length ≤ s.baseStream.maxLength) :
    (onBase (BaseStream.write bytes)).run s = .ok () (s.append bytes) := by
  refine run_zoom_of_ok (t := { s.baseStream with
    toMemoryStream := s.baseStream.toMemoryStream.write bytes }) ?_
  rw [BaseStream.write, run_get_bind, if_neg (Nat.not_lt.2 h)]
  rfl

theorem run_write_refused (bytes : List UInt8)
    (h : s.baseStream.maxLength < s.baseStream.position + bytes.length) :
    ∃ e, (onBase (BaseStream.write bytes)).run s = .error e s := by
  refine ⟨.io, run_zoom_of_error ?_⟩
  rw [BaseStream.write, run_get_bind, if_pos h]
  rfl

/-- Wherever the stream is, it goes to the end of the first sector. -/
theorem run_alignSector (h : s.Regular n) :
    alignSector.run s = (onBase (BaseStream.setPosition n)).run s := by
  rw [alignSector, run_bind_of_ok _ (run_remainder h), run_get_bind, h.size, add_sub_cancel]

/-- The bytes to the next sector. -/
def remaining (n : Nat) (s : SectorStream) : Nat := n - s.baseStream.position % n

theorem position_add_remaining (n : Nat) (s : SectorStream) :
    s.baseStream.position + s.remaining n = nextMultiple s.baseStream.position n := rfl

/-- The stream when it has been padded. -/
def padded (n : Nat) (s : SectorStream) : SectorStream :=
  s.append (List.replicate (s.remaining n) s.padding)

theorem position_padded (n : Nat) (s : SectorStream) :
    (s.padded n).baseStream.position = nextMultiple s.baseStream.position n :=
  congrArg (s.baseStream.position + ·) List.length_replicate

theorem run_padSector_bind (h : s.Regular n) :
    padSector.run s =
      (do
        if s.baseStream.length ≤ wrap64 (nextMultiple s.baseStream.position n) then
          onBase (BaseStream.write (List.replicate (s.remaining n) s.padding))
        onBase (BaseStream.setPosition (wrap64 (nextMultiple s.baseStream.position n))) :
        EStateM Exn SectorStream Unit).run s := by
  have hmod := Nat.mod_lt s.baseStream.position h.positive
  have hint := h.int
  have hremaining : wrap32 (s.sectorSize - (s.baseStream.position % n : Nat)) = s.remaining n := by
    rw [h.size, remaining, wrap32_of_range (by omega) (by omega)]
    omega
  have hnext : (s.baseStream.position : Int) + s.remaining n =
      nextMultiple s.baseStream.position n := by
    rw [← position_add_remaining, Int.natCast_add]
  rw [padSector, run_bind_of_ok _ (run_remainder h), run_get_bind]
  dsimp only
  rw [hremaining, hnext, Int.toNat_natCast, if_neg (Int.not_lt.2 (Int.natCast_nonneg _))]

/-- A stream that ends before the next sector, or with it, is overwritten up to there. -/
theorem run_padSector_short (h : s.Regular n)
    (hshort : s.baseStream.length ≤ nextMultiple s.baseStream.position n)
    (hfits : nextMultiple s.baseStream.position n ≤ s.baseStream.maxLength) :
    padSector.run s = .ok () (s.padded n) := by
  have hmaxLength := h.maxLength
  have hmaxPosition := h.maxPosition
  have hwrap : wrap64 (nextMultiple s.baseStream.position n) =
      nextMultiple s.baseStream.position n := wrap64_of_range (by omega) (by omega)
  have hlength : (List.replicate (s.remaining n) s.padding).length = s.remaining n :=
    List.length_replicate
  have hwrite := run_write (List.replicate (s.remaining n) s.padding)
    (by rwa [hlength, position_add_remaining])
  have hmove : (onBase (BaseStream.setPosition (nextMultiple s.baseStream.position n))).run
      (s.padded n) = .ok () (s.padded n) := by
    rw [← position_padded n s, run_setPosition]
    · rfl
    · rw [position_padded]
      exact hfits.trans hmaxLength
  rw [run_padSector_bind h, hwrap, if_pos (by omega), run_bind_of_ok _ hwrite]
  exact hmove

theorem run_padSector_refused (h : s.Regular n)
    (hshort : s.baseStream.length ≤ nextMultiple s.baseStream.position n)
    (hlong : s.baseStream.maxLength < nextMultiple s.baseStream.position n) :
    ∃ e, padSector.run s = .error e s := by
  rw [run_padSector_bind h]
  have hlength : (List.replicate (s.remaining n) s.padding).length = s.remaining n :=
    List.length_replicate
  have hposition := h.position
  have hmaxPosition := h.maxPosition
  have hint := h.int
  have hstep := position_add_remaining n s
  have hremaining : s.remaining n ≤ n := Nat.sub_le _ _
  by_cases hsmall : nextMultiple s.baseStream.position n < 2 ^ 63
  · rw [wrap64_of_range (by omega) (by omega), if_pos (by omega)]
    obtain ⟨e, hrun⟩ := run_write_refused (List.replicate (s.remaining n) s.padding)
      (by rwa [hlength, position_add_remaining])
    exact ⟨e, run_bind_of_error _ hrun⟩
  · have hnegative : wrap64 (nextMultiple s.baseStream.position n) < 0 := by
      unfold wrap64
      omega
    rw [if_neg (by omega)]
    refine ⟨.argumentOutOfRange, run_zoom_of_error ?_⟩
    rw [BaseStream.setPosition, run_get_bind, if_pos (.inl hnegative)]
    rfl

theorem run_padSector_long (h : s.Regular n)
    (hlong : nextMultiple s.baseStream.position n < s.baseStream.length) :
    padSector.run s = .ok () (s.moveTo (nextMultiple s.baseStream.position n)) := by
  have hfits := h.fits
  have hmaxLength := h.maxLength
  have hmaxPosition := h.maxPosition
  rw [run_padSector_bind h, wrap64_of_range (by omega) (by omega), if_neg (by omega)]
  exact run_setPosition (by omega)

/-- `AlignSector` goes to the least multiple of the sector size from the position on, and writes
nothing. -/
def Aligns (s : SectorStream) (n : Nat) : Prop :=
  ∃ t, alignSector.run s = .ok () t ∧
    IsLeast {m | n ∣ m ∧ s.baseStream.position ≤ m} t.baseStream.position ∧
      t.baseStream.bytes = s.baseStream.bytes

/-- `PadSector` goes there and changes no byte there is. -/
def Pads (s : SectorStream) (n : Nat) : Prop :=
  ∃ t, padSector.run s = .ok () t ∧
    IsLeast {m | n ∣ m ∧ s.baseStream.position ≤ m} t.baseStream.position ∧
      ∀ i < s.baseStream.length, t.baseStream.bytes[i]? = s.baseStream.bytes[i]?

theorem aligns_iff (h : s.Regular n) :
    s.Aligns n ↔ 0 < s.baseStream.position ∧ s.baseStream.position ≤ n ∧
      n ≤ s.baseStream.maxPosition := by
  by_cases hreach : n ≤ s.baseStream.maxPosition
  · have hrun := (run_alignSector h).trans (run_setPosition hreach)
    refine ⟨?_, ?_⟩
    · rintro ⟨t, hrun', ⟨⟨-, hle⟩, hleast⟩, -⟩
      rw [hrun] at hrun'
      cases hrun'
      refine ⟨?_, hle, hreach⟩
      by_contra hzero
      have hle' := hleast ⟨Nat.dvd_zero n, Nat.not_lt.1 hzero⟩
      have hpos := h.positive
      exact absurd hle' (Nat.not_le.2 hpos)
    · rintro ⟨hpos, hle, -⟩
      refine ⟨_, hrun, ⟨⟨Nat.dvd_refl n, hle⟩, ?_⟩, rfl⟩
      rintro m ⟨hdvd, hm⟩
      exact Nat.le_of_dvd (hpos.trans_le hm) hdvd
  · obtain ⟨e, hrefused⟩ := run_setPosition_refused (s := s) (Nat.not_le.1 hreach)
    have hrun := (run_alignSector h).trans hrefused
    refine ⟨?_, fun hcond => absurd hcond.2.2 hreach⟩
    rintro ⟨t, hrun', -⟩
    rw [hrun] at hrun'
    cases hrun'

/-- The condition under which padding is right: the position is not a multiple, and what it writes,
if the stream does not go beyond the next sector, fits and is there already. -/
def Paddable (s : SectorStream) (n : Nat) : Prop :=
  ¬ n ∣ s.baseStream.position ∧
    (s.baseStream.length ≤ nextMultiple s.baseStream.position n →
      nextMultiple s.baseStream.position n ≤ s.baseStream.maxLength ∧
        ∀ i, s.baseStream.position ≤ i → i < s.baseStream.length →
          s.baseStream.bytes[i]? = some s.padding)

theorem pads_bytes_iff (hshort : s.baseStream.length ≤ nextMultiple s.baseStream.position n) :
    (∀ i < s.baseStream.length,
        (s.padded n).baseStream.bytes[i]? =
          s.baseStream.bytes[i]?) ↔
      ∀ i, s.baseStream.position ≤ i → i < s.baseStream.length →
        s.baseStream.bytes[i]? = some s.padding := by
  have hstep := position_add_remaining n s
  have hget : ∀ i < s.baseStream.length,
      (s.padded n).baseStream.bytes[i]? =
        if s.baseStream.position ≤ i then some s.padding else s.baseStream.bytes[i]? := by
    intro i hi
    have hwrite := MemoryStream.getElem?_write (s := s.baseStream.toMemoryStream)
      (List.replicate (s.remaining n) s.padding) hi
    rw [List.length_replicate] at hwrite
    by_cases hafter : s.baseStream.position ≤ i
    · rw [if_pos hafter]
      rw [if_pos ⟨hafter, by omega⟩, List.getElem?_replicate_of_lt (by omega)] at hwrite
      exact hwrite
    · rw [if_neg hafter]
      rw [if_neg fun hin => hafter hin.1] at hwrite
      exact hwrite
  refine ⟨?_, ?_⟩
  · intro hsame i hafter hi
    rw [← hsame i hi, hget i hi, if_pos hafter]
  · intro hpadding i hi
    rw [hget i hi]
    by_cases hafter : s.baseStream.position ≤ i
    · rw [if_pos hafter, hpadding i hafter hi]
    · rw [if_neg hafter]

theorem pads_iff (h : s.Regular n) : s.Pads n ↔ s.Paddable n := by
  by_cases hshort : s.baseStream.length ≤ nextMultiple s.baseStream.position n
  · by_cases hfits : nextMultiple s.baseStream.position n ≤ s.baseStream.maxLength
    · have hrun := run_padSector_short h hshort hfits
      refine ⟨?_, ?_⟩
      · rintro ⟨t, hrun', hleast, hbytes⟩
        rw [hrun] at hrun'
        cases hrun'
        rw [position_padded] at hleast
        exact ⟨(isLeast_nextMultiple_iff h.positive _).1 hleast,
          fun _ => ⟨hfits, (pads_bytes_iff hshort).1 hbytes⟩⟩
      · rintro ⟨hdvd, hcond⟩
        refine ⟨_, hrun, ?_, (pads_bytes_iff hshort).2 (hcond hshort).2⟩
        rw [position_padded]
        exact (isLeast_nextMultiple_iff h.positive _).2 hdvd
    · obtain ⟨e, hrun⟩ := run_padSector_refused h hshort (Nat.not_le.1 hfits)
      refine ⟨?_, fun hcond => absurd (hcond.2 hshort).1 hfits⟩
      rintro ⟨t, hrun', -⟩
      rw [hrun] at hrun'
      cases hrun'
  · have hrun := run_padSector_long h (Nat.not_le.1 hshort)
    refine ⟨?_, ?_⟩
    · rintro ⟨t, hrun', hleast, -⟩
      rw [hrun] at hrun'
      cases hrun'
      exact ⟨(isLeast_nextMultiple_iff h.positive _).1 hleast, fun hle => absurd hle hshort⟩
    · rintro ⟨hdvd, -⟩
      exact ⟨_, hrun, (isLeast_nextMultiple_iff h.positive _).2 hdvd, fun i hi => rfl⟩

/-- Each chunk at the least multiple of the sector size from the end of the one before on, and only
padding in between. -/
inductive Lays (n : Nat) (padding : UInt8) : Nat → List (List UInt8) → List UInt8 → Prop where
  | nil (e : Nat) : Lays n padding e [] []
  | cons {e m : Nat} {chunk : List UInt8} {chunks : List (List UInt8)} {bytes : List UInt8} :
      IsLeast {m | n ∣ m ∧ e ≤ m} m → Lays n padding (m + chunk.length) chunks bytes →
        Lays n padding e (chunk :: chunks) (List.replicate (m - e) padding ++ chunk ++ bytes)

/-- What is there behind `e` bytes after the chunks have been written: a multiple is padded up to
the next one. -/
def laidOut (n : Nat) (padding : UInt8) : Nat → List (List UInt8) → List UInt8
  | _, [] => []
  | e, chunk :: chunks =>
    List.replicate (n - e % n) padding ++ chunk ++
      laidOut n padding (nextMultiple e n + chunk.length) chunks

variable {padding : UInt8} {chunk bytes : List UInt8} {chunks : List (List UInt8)}

/-- Behind a sector too much there is no way back. -/
theorem length_le_of_lays (h : 0 < n) (hlays : Lays n padding e chunks bytes) {e' : Nat}
    (hle : e + n ≤ e') :
    e + bytes.length + n ≤ e' + (laidOut n padding e' chunks).length := by
  induction hlays generalizing e' with
  | nil => exact hle
  | @cons e m chunk chunks bytes hm hrest ih =>
    have hnext := add_le_nextMultiple h hm hle
    have hfurther : m + chunk.length + n ≤ nextMultiple e' n + chunk.length := by omega
    have hle := ih hfurther
    have hstep : e' + (n - e' % n) = nextMultiple e' n := rfl
    have habove := hm.1.2
    rw [laidOut]
    simp only [List.length_append, List.length_replicate]
    omega

theorem lays_laidOut_iff (h : 0 < n) :
    Lays n padding 0 chunks (laidOut n padding 0 chunks) ↔ chunks = [] := by
  refine ⟨?_, ?_⟩
  · intro hlays
    generalize hbytes : laidOut n padding 0 chunks = bytes at hlays
    cases hlays with
    | nil => rfl
    | @cons _ m chunk chunks bytes hm hrest =>
      have hzero : m = 0 := Nat.le_zero.1 (hm.2 ⟨Nat.dvd_zero n, Nat.le_refl 0⟩)
      have hstep : nextMultiple 0 n = n := by
        rw [nextMultiple, Nat.zero_mod, Nat.sub_zero, Nat.zero_add]
      have hfurther : m + chunk.length + n ≤ nextMultiple 0 n + chunk.length := by omega
      have hle := length_le_of_lays h hrest hfurther
      have hlength := congrArg List.length hbytes
      rw [laidOut] at hlength
      simp only [List.length_append, List.length_replicate, Nat.zero_mod] at hlength
      omega
  · rintro rfl
    exact .nil 0

/-- The stream ends where it is. -/
def AtEnd (s : SectorStream) : Prop := s.baseStream.position = s.baseStream.length

theorem append_nil (h : s.AtEnd) : s.append [] = s := by
  have hnil := MemoryStream.write_nil (s := s.baseStream.toMemoryStream) (Nat.le_of_eq h)
  rw [append, hnil]

theorem append_append (s : SectorStream) (a b : List UInt8) :
    (s.append a).append b = s.append (a ++ b) := by
  have hwrite := MemoryStream.write_append s.baseStream.toMemoryStream a b
  simp only [append, hwrite]

theorem bytes_append (h : s.AtEnd) (bytes : List UInt8) :
    (s.append bytes).baseStream.bytes = s.baseStream.bytes ++ bytes := by
  have hwrite := MemoryStream.bytes_write (s := s.baseStream.toMemoryStream) (Nat.le_of_eq h) bytes
  rw [h, BaseStream.length, List.take_length, List.drop_of_length_le (Nat.le_add_right _ _),
    List.append_nil] at hwrite
  exact hwrite

theorem atEnd_append (h : s.AtEnd) (bytes : List UInt8) : (s.append bytes).AtEnd := by
  rw [AtEnd, BaseStream.length, bytes_append h, List.length_append]
  exact congrArg (· + bytes.length) h

theorem regular_append (h : s.Regular n) (hend : s.AtEnd)
    (hfits : s.baseStream.position + bytes.length ≤ s.baseStream.maxLength) :
    (s.append bytes).Regular n where
  size := h.size
  positive := h.positive
  int := h.int
  fits := by
    rw [← atEnd_append hend bytes]
    exact hfits
  position := hfits.trans h.maxLength
  maxLength := h.maxLength
  maxPosition := h.maxPosition

theorem position_append_chunk (n : Nat) (s : SectorStream) (chunk : List UInt8) :
    (s.append (List.replicate (s.remaining n) s.padding ++ chunk)).baseStream.position =
      nextMultiple s.baseStream.position n + chunk.length := by
  have hlength : (List.replicate (s.remaining n) s.padding ++ chunk).length =
      s.remaining n + chunk.length := by
    rw [List.length_append, List.length_replicate]
  rw [← position_add_remaining, Nat.add_assoc, ← hlength]
  rfl

theorem run_writeAligned (chunk : List UInt8) (h : s.Regular n) (hend : s.AtEnd)
    (hfits : nextMultiple s.baseStream.position n + chunk.length ≤ s.baseStream.maxLength) :
    (writeAligned chunk).run s =
      .ok () (s.append (List.replicate (s.remaining n) s.padding ++ chunk)) := by
  have hstep := position_add_remaining n s
  have hpad := run_padSector_short h (by rw [← hend]; omega) (by omega)
  rw [writeAligned, run_bind_of_ok _ hpad, run_write chunk, padded, append_append s]
  rw [position_padded]
  exact hfits

theorem run_writeAligned_refused (h : s.Regular n) (hend : s.AtEnd)
    (hlong : s.baseStream.maxLength < nextMultiple s.baseStream.position n + chunk.length) :
    ∃ e t, (writeAligned chunk).run s = .error e t := by
  have hstep := position_add_remaining n s
  have hshort : s.baseStream.length ≤ nextMultiple s.baseStream.position n := by
    rw [← hend]
    omega
  by_cases hfits : nextMultiple s.baseStream.position n ≤ s.baseStream.maxLength
  · obtain ⟨e, hrun⟩ := run_write_refused (s := s.padded n) chunk (by
      rw [position_padded]
      exact hlong)
    refine ⟨e, s.padded n, ?_⟩
    rw [writeAligned, run_bind_of_ok _ (run_padSector_short h hshort hfits), hrun]
  · obtain ⟨e, hrun⟩ := run_padSector_refused h hshort (Nat.not_le.1 hfits)
    exact ⟨e, s, run_bind_of_error _ hrun⟩

theorem run_writeAll (h : s.Regular n) (hend : s.AtEnd)
    (hfits : s.baseStream.position + (laidOut n s.padding s.baseStream.position chunks).length ≤
      s.baseStream.maxLength) :
    (writeAll chunks).run s =
      .ok () (s.append (laidOut n s.padding s.baseStream.position chunks)) := by
  induction chunks generalizing s with
  | nil =>
    rw [laidOut, append_nil hend]
    rfl
  | cons chunk chunks ih =>
    have hposition := position_append_chunk n s chunk
    have hnext := position_add_remaining n s
    rw [remaining] at hnext
    rw [laidOut] at hfits ⊢
    simp only [List.length_append, List.length_replicate] at hfits
    have hwrite := run_writeAligned chunk h hend (by omega)
    have hroom : s.baseStream.position +
        (List.replicate (s.remaining n) s.padding ++ chunk).length ≤ s.baseStream.maxLength := by
      rw [List.length_append, List.length_replicate, remaining]
      omega
    have hrest := ih (regular_append h hend hroom) (atEnd_append hend _) (by
      rw [hposition]
      change _ + (laidOut n s.padding
        (nextMultiple s.baseStream.position n + chunk.length) chunks).length ≤
          s.baseStream.maxLength
      omega)
    rw [writeAll, run_bind_of_ok _ hwrite, hrest, hposition, append_append s]
    rfl

theorem run_writeAll_refused (h : s.Regular n) (hend : s.AtEnd)
    (hlong : s.baseStream.maxLength <
      s.baseStream.position + (laidOut n s.padding s.baseStream.position chunks).length) :
    ∃ e t, (writeAll chunks).run s = .error e t := by
  induction chunks generalizing s with
  | nil =>
    have hfits := h.fits
    rw [← hend] at hfits
    exact absurd hfits (Nat.not_le.2 hlong)
  | cons chunk chunks ih =>
    have hposition := position_append_chunk n s chunk
    have hnext := position_add_remaining n s
    rw [remaining] at hnext
    rw [laidOut] at hlong
    simp only [List.length_append, List.length_replicate] at hlong
    by_cases hfits : nextMultiple s.baseStream.position n + chunk.length ≤ s.baseStream.maxLength
    · have hroom : s.baseStream.position +
          (List.replicate (s.remaining n) s.padding ++ chunk).length ≤
            s.baseStream.maxLength := by
        rw [List.length_append, List.length_replicate, remaining]
        omega
      obtain ⟨e, t, hrest⟩ := ih (regular_append h hend hroom) (atEnd_append hend _) (by
        rw [hposition]
        change s.baseStream.maxLength < _ + (laidOut n s.padding
          (nextMultiple s.baseStream.position n + chunk.length) chunks).length
        omega)
      refine ⟨e, t, ?_⟩
      rw [writeAll, run_bind_of_ok _ (run_writeAligned chunk h hend hfits), hrest]
    · obtain ⟨e, t, hrun⟩ := run_writeAligned_refused h hend (Nat.not_le.1 hfits)
      exact ⟨e, t, run_bind_of_error _ hrun⟩

theorem run_readAligned (h : s.Regular n) (hreach : n ≤ s.baseStream.maxPosition) (length : Nat) :
    (readAligned length).run s =
      .ok ((s.baseStream.bytes.drop n).take length)
        (s.moveTo (n + ((s.baseStream.bytes.drop n).take length).length)) := by
  have halign := (run_alignSector h).trans (run_setPosition hreach)
  rw [readAligned, run_bind_of_ok _ halign]
  exact run_zoom_of_ok (m := BaseStream.read length) rfl

theorem regular_moveTo (h : s.Regular n) (hposition : position ≤ s.baseStream.maxPosition) :
    (s.moveTo position).Regular n where
  size := h.size
  positive := h.positive
  int := h.int
  fits := h.fits
  position := hposition
  maxLength := h.maxLength
  maxPosition := h.maxPosition

theorem run_readAll (h : s.Regular n) (hreach : n ≤ s.baseStream.maxPosition)
    (lengths : List Nat) :
    ∃ t, (readAll lengths).run s =
      .ok (lengths.map ((s.baseStream.bytes.drop n).take ·)) t := by
  induction lengths generalizing s with
  | nil => exact ⟨s, rfl⟩
  | cons length lengths ih =>
    have hread := run_readAligned h hreach length
    have hwithin : n + ((s.baseStream.bytes.drop n).take length).length ≤
        s.baseStream.maxPosition := by
      have hfits := h.fits.trans h.maxLength
      rw [BaseStream.length] at hfits
      rw [List.length_take, List.length_drop]
      omega
    obtain ⟨t, hrest⟩ := ih (regular_moveTo h hwithin) hreach
    refine ⟨t, ?_⟩
    rw [readAll, run_bind_of_ok _ hread, run_bind_of_ok _ hrest]
    rfl

/-- What `WriteAligned` should do with chunks on an empty stream. -/
def WritesSectors (s : SectorStream) (n : Nat) (chunks : List (List UInt8)) : Prop :=
  ∃ t, (writeAll chunks).run s = .ok () t ∧ Lays n s.padding 0 chunks t.baseStream.bytes

/-- Write chunks, go back to the start and read as many bytes for each of them. -/
def writeRead (chunks : List (List UInt8)) : EStateM Exn SectorStream (List (List UInt8)) := do
  writeAll chunks
  onBase (BaseStream.setPosition 0)
  readAll (chunks.map List.length)

def ReadsBack (s : SectorStream) (chunks : List (List UInt8)) : Prop :=
  ∃ t, (writeRead chunks).run s = .ok chunks t

/-- Every chunk is what stands first behind the first sector. -/
def Repeats (n : Nat) (padding : UInt8) (chunks : List (List UInt8)) : Prop :=
  ∀ chunk ∈ chunks, chunk <+: (laidOut n padding 0 chunks).drop n

theorem run_writeAll_empty (h : s.Regular n) (hempty : s.baseStream.toMemoryStream = ⟨[], 0⟩)
    (hfits : (laidOut n s.padding 0 chunks).length ≤ s.baseStream.maxLength) :
    ∃ t, (writeAll chunks).run s = .ok () t ∧ t.Regular n ∧
      t.baseStream.bytes = laidOut n s.padding 0 chunks ∧
        t.baseStream.maxPosition = s.baseStream.maxPosition := by
  have hbytes : s.baseStream.bytes = [] := congrArg MemoryStream.bytes hempty
  have hposition : s.baseStream.position = 0 := congrArg MemoryStream.position hempty
  have hend : s.AtEnd := by
    rw [AtEnd, hposition, BaseStream.length, hbytes, List.length_nil]
  have hroom : s.baseStream.position +
      (laidOut n s.padding s.baseStream.position chunks).length ≤ s.baseStream.maxLength := by
    rwa [hposition, Nat.zero_add]
  refine ⟨_, run_writeAll h hend hroom, regular_append h hend hroom, ?_, rfl⟩
  rw [bytes_append hend, hbytes, hposition, List.nil_append]

theorem run_writeAll_empty_refused (h : s.Regular n)
    (hempty : s.baseStream.toMemoryStream = ⟨[], 0⟩)
    (hlong : ¬ (laidOut n s.padding 0 chunks).length ≤ s.baseStream.maxLength) :
    ∃ e t, (writeAll chunks).run s = .error e t := by
  have hbytes : s.baseStream.bytes = [] := congrArg MemoryStream.bytes hempty
  have hposition : s.baseStream.position = 0 := congrArg MemoryStream.position hempty
  apply run_writeAll_refused h
  · rw [AtEnd, hposition, BaseStream.length, hbytes, List.length_nil]
  · rw [hposition, Nat.zero_add]
    exact Nat.not_le.1 hlong

theorem writesSectors_iff (h : s.Regular n) (hempty : s.baseStream.toMemoryStream = ⟨[], 0⟩) :
    s.WritesSectors n chunks ↔ chunks = [] := by
  by_cases hfits : (laidOut n s.padding 0 chunks).length ≤ s.baseStream.maxLength
  · obtain ⟨t, hrun, -, hbytes, -⟩ := run_writeAll_empty h hempty hfits
    rw [← lays_laidOut_iff h.positive, ← hbytes]
    refine ⟨?_, fun hlays => ⟨t, hrun, hlays⟩⟩
    rintro ⟨t', hrun', hlays⟩
    rw [hrun] at hrun'
    cases hrun'
    exact hlays
  · obtain ⟨e, t, hrun⟩ := run_writeAll_empty_refused h hempty hfits
    refine ⟨?_, ?_⟩
    · rintro ⟨t', hrun', -⟩
      rw [hrun] at hrun'
      cases hrun'
    · rintro rfl
      exact absurd (Nat.zero_le _) hfits

theorem repeats_iff :
    Repeats n padding chunks ↔
      (chunks.map List.length).map (((laidOut n padding 0 chunks).drop n).take ·) = chunks := by
  have hself : chunks = chunks.map id := (List.map_id chunks).symm
  rw [List.map_map]
  nth_rewrite 4 [hself]
  rw [List.map_inj_left]
  refine forall₂_congr fun chunk _ => ?_
  rw [List.prefix_iff_eq_take, eq_comm]
  rfl

theorem readsBack_of_write {t : SectorStream} (hwrite : (writeAll chunks).run s = .ok () t)
    (h : t.Regular n) (hbytes : t.baseStream.bytes = laidOut n s.padding 0 chunks)
    (hreach : n ≤ t.baseStream.maxPosition) :
    s.ReadsBack chunks ↔ Repeats n s.padding chunks := by
  have hmove : (onBase (BaseStream.setPosition (0 : Nat))).run t = .ok () (t.moveTo 0) :=
    run_setPosition (Nat.zero_le _)
  obtain ⟨u, hread⟩ := run_readAll (regular_moveTo h (Nat.zero_le _)) hreach
    (chunks.map List.length)
  have hrun : (writeRead chunks).run s = .ok ((chunks.map List.length).map
      (((laidOut n s.padding 0 chunks).drop n).take ·)) u := by
    rw [← hbytes, writeRead, run_bind_of_ok _ hwrite]
    exact (run_bind_of_ok _ hmove).trans hread
  rw [repeats_iff, ReadsBack, hrun]
  refine ⟨?_, ?_⟩
  · rintro ⟨t', hresult⟩
    exact (EStateM.Result.ok.inj hresult).1
  · intro hsame
    rw [hsame]
    exact ⟨u, rfl⟩

theorem readsBack_iff (h : s.Regular n) (hempty : s.baseStream.toMemoryStream = ⟨[], 0⟩) :
    s.ReadsBack chunks ↔
      (laidOut n s.padding 0 chunks).length ≤ s.baseStream.maxLength ∧
        Repeats n s.padding chunks := by
  by_cases hfits : (laidOut n s.padding 0 chunks).length ≤ s.baseStream.maxLength
  · obtain ⟨t, hrun, ht, hbytes, hmaxPosition⟩ := run_writeAll_empty h hempty hfits
    rw [and_iff_right hfits]
    cases chunks with
    | nil =>
      have hmove : (onBase (BaseStream.setPosition (0 : Nat))).run s = .ok () (s.moveTo 0) :=
        run_setPosition (Nat.zero_le _)
      refine ⟨fun _ chunk hmem => absurd hmem List.not_mem_nil, fun _ => ⟨s.moveTo 0, ?_⟩⟩
      have hwrite : (writeAll []).run s = .ok () s := rfl
      exact (run_bind_of_ok _ hwrite).trans (run_bind_of_ok _ hmove)
    | cons chunk chunks =>
      apply readsBack_of_write hrun ht hbytes
      rw [hmaxPosition]
      apply Nat.le_trans _ (hfits.trans h.maxLength)
      rw [laidOut, List.length_append, List.length_append, List.length_replicate, Nat.zero_mod]
      omega
  · obtain ⟨e, t, hrun⟩ := run_writeAll_empty_refused h hempty hfits
    refine ⟨?_, fun hcond => absurd hcond.1 hfits⟩
    rintro ⟨t', hread⟩
    rw [writeRead, run_bind_of_error _ hrun] at hread
    cases hread

theorem sectors_iff (h : s.Regular n) :
    (s.baseStream.toMemoryStream = ⟨[], 0⟩ → ∀ chunks,
      (s.WritesSectors n chunks ↔ chunks = []) ∧
        (s.ReadsBack chunks ↔
          (laidOut n s.padding 0 chunks).length ≤ s.baseStream.maxLength ∧
            Repeats n s.padding chunks)) ∧
      (s.Aligns n ↔ 0 < s.baseStream.position ∧ s.baseStream.position ≤ n ∧
        n ≤ s.baseStream.maxPosition) ∧
      (s.Pads n ↔ s.Paddable n) := by
  refine ⟨?_, aligns_iff h, pads_iff h⟩
  intro hempty chunks
  exact ⟨writesSectors_iff h hempty, readsBack_iff h hempty⟩

/-- Sectors of four bytes over a stream in memory. -/
def ofBytes (bytes : List UInt8) (position : Nat) : SectorStream where
  baseStream := { bytes, position, maxPosition := 2 ^ 31 - 1, maxLength := 2 ^ 31 - 1 }
  sectorSize := 4
  padding := 0xFF

theorem regular_ofBytes {bytes : List UInt8} {position : Nat} (hbytes : bytes.length < 2 ^ 31)
    (hposition : position < 2 ^ 31) : (ofBytes bytes position).Regular 4 where
  size := rfl
  positive := by decide
  int := by decide
  fits := Nat.le_sub_one_of_lt hbytes
  position := Nat.le_sub_one_of_lt hposition
  maxLength := Nat.le_refl _
  maxPosition := by
    change 2 ^ 31 - 1 < 2 ^ 63
    decide

theorem sectors_iff_sample :
    (ofBytes [] 0).ReadsBack [[1], [1]] ∧ (ofBytes [1, 2, 3] 3).Aligns 4 ∧
      (ofBytes [1, 2, 3] 3).Pads 4 := by
  have hempty : (ofBytes [] 0).Regular 4 := regular_ofBytes (by decide) (by decide)
  have hthree : (ofBytes [1, 2, 3] 3).Regular 4 := regular_ofBytes (by decide) (by decide)
  obtain ⟨-, haligns, hpads⟩ := sectors_iff hthree
  refine ⟨((sectors_iff hempty).1 rfl _).2.2 ⟨?_, ?_⟩, haligns.2 ?_, hpads.2 ?_⟩
  · decide
  · unfold Repeats
    decide
  · decide
  · refine ⟨by decide, fun _ => ⟨by decide, ?_⟩⟩
    intro i hfrom hto
    exact absurd (hfrom.trans_lt hto) (Nat.lt_irrefl 3)

/-- The first of the sectors stays empty, the second chunk is never read, the sixth byte is aligned
to the fourth, and the ninth is overwritten. -/
theorem sectors_disagree :
    ¬ (ofBytes [] 0).WritesSectors 4 [[1]] ∧ ¬ (ofBytes [] 0).ReadsBack [[1], [2]] ∧
      ¬ (ofBytes [1, 2, 3, 4, 5] 5).Aligns 4 ∧
        ¬ (ofBytes [1, 2, 3, 4, 5, 6, 7, 8, 9] 8).Pads 4 := by
  have hempty : (ofBytes [] 0).Regular 4 := regular_ofBytes (by decide) (by decide)
  have hfive : (ofBytes [1, 2, 3, 4, 5] 5).Regular 4 := regular_ofBytes (by decide) (by decide)
  have hnine : (ofBytes [1, 2, 3, 4, 5, 6, 7, 8, 9] 8).Regular 4 :=
    regular_ofBytes (by decide) (by decide)
  refine ⟨?_, ?_, ?_, ?_⟩
  · rw [writesSectors_iff hempty rfl]
    exact List.cons_ne_nil _ _
  · rw [readsBack_iff hempty rfl]
    unfold Repeats
    decide
  · rw [aligns_iff hfive]
    decide
  · rw [pads_iff hnine]
    rintro ⟨hdvd, -⟩
    exact hdvd ⟨2, rfl⟩

end SectorStream

end AcOpenServer
