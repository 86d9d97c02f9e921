import AcOpenServer.BinaryMemory.CharWidth

namespace AcOpenServer
open Library
set_option autoImplicit true

namespace StringHelper

/-- The loop of the methods, which goes back to the byte in front of a terminator. -/
def strlenLoop (w : CharWidth) (buffer : List UInt8) (runLength : Int) (i offsetIndex : Nat) :
    Except Exn Int :=
  if _h : (offsetIndex : Int) < runLength then
    match allZero buffer w.size offsetIndex with
    | .error e => .error e
    | .ok true => .ok ((i : Int) + (w.size - 1) - w.size)
    | .ok false => strlenLoop w buffer runLength (i + w.size) (offsetIndex + w.size)
  else .ok i
termination_by (runLength - offsetIndex).toNat
decreasing_by
  have hpos := w.size_pos
  omega

def strlenOffsetOf (w : CharWidth) (buffer : List UInt8) (offset : Int) : Except Exn Int :=
  if offset < 0 then .error .argumentOutOfRange
  else if buffer.length < offset then .error .argumentOutOfRange
  else strlenLoop w buffer ((buffer.length : Int) - (w.size - 1)) 0 offset.toNat

def strlenOffsetFixedOf (w : CharWidth) (buffer : List UInt8) (offset limit : Int) :
    Except Exn Int :=
  let trueLimit := wrap32 (limit * w.size)
  if trueLimit < 0 then .error .argumentOutOfRange
  else if buffer.length < trueLimit then .error .argumentOutOfRange
  else if offset < 0 then .error .argumentOutOfRange
  else if trueLimit < offset then .error .argumentOutOfRange
  else strlenLoop w buffer (trueLimit - (w.size - 1)) 0 offset.toNat

def strlenOffset : List UInt8 → Int → Except Exn Int := strlenOffsetOf .eightBit
def wStrlenOffset : List UInt8 → Int → Except Exn Int := strlenOffsetOf .sixteenBit
def dwStrlenOffset : List UInt8 → Int → Except Exn Int := strlenOffsetOf .thirtyTwoBit

def strlenOffsetFixed : List UInt8 → Int → Int → Except Exn Int := strlenOffsetFixedOf .eightBit

def wStrlenOffsetFixed : List UInt8 → Int → Int → Except Exn Int :=
  strlenOffsetFixedOf .sixteenBit

def dwStrlenOffsetFixed : List UInt8 → Int → Int → Except Exn Int :=
  strlenOffsetFixedOf .thirtyTwoBit

end StringHelper

/-- `ReadOnlySpan<byte>.Slice`, which is bounds checked. -/
def sliceSpan (buffer : List UInt8) (start length : Int) : Except Exn (List UInt8) :=
  if 0 ≤ start ∧ start ≤ buffer.length ∧ 0 ≤ length ∧ length ≤ buffer.length - start then
    .ok ((buffer.drop start.toNat).take length.toNat)
  else .error .argumentOutOfRange

structure BinarySpanReader where
  buffer : List UInt8
  bufferOffset : Int
  deriving DecidableEq, Repr

namespace BinarySpanReader

open StringHelper

/-- `Read8BitStringSpan` and the like, given the length and the size of a terminator. -/
def readStringSpan (strlen : List UInt8 → Int → Except Exn Int) (size : Int) :
    EStateM Exn BinarySpanReader (List UInt8) := do
  let s ← MonadState.get
  let strLen ← ofExcept (strlen s.buffer s.bufferOffset)
  let slice ← ofExcept (sliceSpan s.buffer s.bufferOffset strLen)
  modify fun s => { s with bufferOffset := wrap32 (s.bufferOffset + strLen) }
  if strLen < s.buffer.length then
    modify fun s => { s with bufferOffset := wrap32 (s.bufferOffset + size) }
  return slice

/-- Their overloads for a field. -/
def readStringSpanFixed (strlen : List UInt8 → Int → Int → Except Exn Int) (size length : Int) :
    EStateM Exn BinarySpanReader (List UInt8) := do
  let s ← MonadState.get
  let strLen ← ofExcept (strlen s.buffer s.bufferOffset length)
  let slice ← ofExcept (sliceSpan s.buffer s.bufferOffset strLen)
  modify fun s => { s with bufferOffset := wrap32 (s.bufferOffset + wrap32 (length * size)) }
  return slice

/-- `Get8BitStringSpan` and the like, given the length. -/
def getStringSpan (strlen : List UInt8 → Int → Except Exn Int) (position : Int) :
    EStateM Exn BinarySpanReader (List UInt8) := do
  let s ← MonadState.get
  let strLen ← ofExcept (strlen s.buffer position)
  ofExcept (sliceSpan s.buffer position strLen)

/-- `Peek8BitStringSpan` and the like. -/
def peekStringSpan (strlen : List UInt8 → Int → Except Exn Int) :
    EStateM Exn BinarySpanReader (List UInt8) := do
  let s ← MonadState.get
  let strLen ← ofExcept (strlen s.buffer s.bufferOffset)
  ofExcept (sliceSpan s.buffer s.bufferOffset strLen)

def read8BitStringSpan := readStringSpan strlenOffset 1
def read16BitStringSpan := readStringSpan wStrlenOffset 2
def read32BitStringSpan := readStringSpan dwStrlenOffset 4

def read8BitStringSpanFixed := readStringSpanFixed strlenOffsetFixed 1
def read16BitStringSpanFixed := readStringSpanFixed wStrlenOffsetFixed 2
def read32BitStringSpanFixed := readStringSpanFixed dwStrlenOffsetFixed 4

def get8BitStringSpan := getStringSpan strlenOffset
def get16BitStringSpan := getStringSpan wStrlenOffset
def get32BitStringSpan := getStringSpan dwStrlenOffset

def get8BitStringSpanFixed (position length : Int) :=
  getStringSpan (strlenOffsetFixed · · length) position

def get16BitStringSpanFixed (position length : Int) :=
  getStringSpan (wStrlenOffsetFixed · · length) position

def get32BitStringSpanFixed (position length : Int) :=
  getStringSpan (dwStrlenOffsetFixed · · length) position

def peek8BitStringSpan := peekStringSpan strlenOffset
def peek16BitStringSpan := peekStringSpan wStrlenOffset
def peek32BitStringSpan := peekStringSpan dwStrlenOffset

def peek8BitStringSpanFixed (length : Int) := peekStringSpan (strlenOffsetFixed · · length)
def peek16BitStringSpanFixed (length : Int) := peekStringSpan (wStrlenOffsetFixed · · length)
def peek32BitStringSpanFixed (length : Int) := peekStringSpan (dwStrlenOffsetFixed · · length)

end BinarySpanReader

namespace StringHelper

open CharWidth

variable {w : CharWidth} {buffer : List UInt8} {runLength : Int} {p count n : Nat}

theorem strlenLoop_eq (hrun : ∀ k : Nat, ((p + k * w.size : Nat) : Int) < runLength ↔ k < n)
    (hfits : p + n * w.size ≤ buffer.length) (i : Nat) :
    strlenLoop w buffer runLength i p =
      .ok (if w.textLength buffer p n < n then
          ((i + w.textLength buffer p n * w.size : Nat) : Int) - 1
        else ((i + n * w.size : Nat) : Int)) := by
  induction n generalizing i p with
  | zero =>
    have hnot : ¬ (p : Int) < runLength := by
      have hzero := hrun 0
      omega
    rw [strlenLoop, dif_neg hnot, if_neg (Nat.not_lt_zero _), Nat.zero_mul, Nat.add_zero]
  | succ n ih =>
    have hlt : (p : Int) < runLength := by
      have hzero := hrun 0
      omega
    have hrun' (k : Nat) : ((p + w.size + k * w.size : Nat) : Int) < runLength ↔ k < n := by
      have hsucc := hrun (k + 1)
      rw [Nat.succ_mul] at hsucc
      omega
    rw [Nat.succ_mul] at hfits
    rw [strlenLoop, dif_pos hlt, allZero_eq (by omega), textLength_succ]
    by_cases hzero : w.IsZeroAt buffer p
    · have htrue : decide ((buffer.drop p).take w.size = List.replicate w.size 0) = true :=
        decide_eq_true hzero
      rw [htrue, if_pos hzero, if_pos (Nat.succ_pos n), Nat.zero_mul, Nat.add_zero]
      exact congrArg Except.ok (by omega)
    · have hfalse : decide ((buffer.drop p).take w.size = List.replicate w.size 0) = false :=
        decide_eq_false hzero
      have hshift (m : Nat) : i + w.size + m * w.size = i + (m + 1) * w.size := by
        rw [Nat.succ_mul]
        omega
      rw [hfalse, if_neg hzero]
      dsimp only
      rw [ih hrun' (by omega)]
      simp only [hshift, Nat.add_lt_add_iff_right]

theorem lt_runLength_iff (w : CharWidth) (p limit k : Nat) :
    ((p + k * w.size : Nat) : Int) < (limit : Int) - (w.size - 1) ↔ k < (limit - p) / w.size := by
  have hpos := w.size_pos
  rw [Nat.lt_iff_add_one_le, Nat.le_div_iff_mul_le hpos, Nat.succ_mul]
  omega

/-- The length that is found: one byte too short at a terminator. -/
def foundLength (w : CharWidth) (buffer : List UInt8) (p n : Nat) : Int :=
  if w.textLength buffer p n < n then ((w.textLength buffer p n * w.size : Nat) : Int) - 1
  else ((n * w.size : Nat) : Int)

theorem strlenLoop_eq_foundLength (w : CharWidth) {limit : Nat} (hlimit : limit ≤ buffer.length)
    (p : Nat) (hp : p ≤ limit) :
    strlenLoop w buffer ((limit : Int) - (w.size - 1)) 0 p =
      .ok (foundLength w buffer p ((limit - p) / w.size)) := by
  have hle := Nat.div_mul_le_self (limit - p) w.size
  rw [strlenLoop_eq (lt_runLength_iff w p limit) (by omega), Nat.zero_add, Nat.zero_add]
  rfl

theorem strlenOffsetOf_eq (w : CharWidth) (hp : p ≤ buffer.length) :
    strlenOffsetOf w buffer p = .ok (foundLength w buffer p (w.wholeChars buffer p)) := by
  rw [strlenOffsetOf, if_neg (by omega), if_neg (by omega), Int.toNat_natCast,
    strlenLoop_eq_foundLength w (Nat.le_refl _) p hp]
  rfl

theorem trueLimit_eq (hsmall : buffer.length < 2 ^ 31) (hlimit : n * w.size ≤ buffer.length) :
    wrap32 ((n : Int) * w.size) = (n * w.size : Nat) := by
  rw [Nat.cast_mul]
  exact wrap32_of_range (by omega) (by omega)

theorem strlenOffsetFixedOf_eq (w : CharWidth) (hsmall : buffer.length < 2 ^ 31)
    (hlimit : n * w.size ≤ buffer.length) (hp : p ≤ n * w.size) :
    strlenOffsetFixedOf w buffer p n =
      .ok (foundLength w buffer p ((n * w.size - p) / w.size)) := by
  have htrue := trueLimit_eq hsmall hlimit
  rw [strlenOffsetFixedOf, htrue, if_neg (by omega), if_neg (by omega), if_neg (by omega),
    if_neg (by omega), Int.toNat_natCast, strlenLoop_eq_foundLength w hlimit p hp]

theorem strlenOffsetFixedOf_refused (w : CharWidth) (hsmall : buffer.length < 2 ^ 31)
    (hlimit : n * w.size ≤ buffer.length) (hp : n * w.size < p) :
    strlenOffsetFixedOf w buffer p n = .error .argumentOutOfRange := by
  have htrue := trueLimit_eq hsmall hlimit
  rw [strlenOffsetFixedOf, htrue, if_neg (by omega), if_neg (by omega), if_neg (by omega),
    if_pos (by omega)]

/-- What a slice of the length that is found gives is the text exactly if there is no terminator
among the characters that are looked at and no further character in the text. -/
theorem sliceSpan_foundLength_iff (w : CharWidth) {m : Nat} (hm : m ≤ n)
    (hfits : p + n * w.size ≤ buffer.length) :
    sliceSpan buffer p (foundLength w buffer p m) = .ok (w.text buffer p n) ↔
      w.textLength buffer p n = m := by
  have hmin := textLength_eq_min w buffer p hm
  have hpos := w.size_pos
  have hlength := length_text hfits
  have hle := Nat.mul_le_mul_right w.size hm
  rw [foundLength, hmin]
  by_cases hlt : w.textLength buffer p n < m
  · have hle' := Nat.mul_le_mul_right w.size hlt
    rw [Nat.succ_mul] at hle'
    rw [if_pos (by omega), Nat.min_eq_left hlt.le]
    refine iff_of_false ?_ hlt.ne
    rw [sliceSpan]
    intro heq
    by_cases hnegative : w.textLength buffer p n * w.size = 0
    · rw [if_neg (by omega)] at heq
      cases heq
    · rw [if_pos (by omega), Except.ok.injEq] at heq
      rw [← heq, List.length_take, List.length_drop] at hlength
      omega
  · have hslice : sliceSpan buffer p ((m * w.size : Nat) : Int) =
        .ok ((buffer.drop p).take (m * w.size)) := by
      rw [sliceSpan, if_pos (by omega)]
      rfl
    rw [if_neg (by omega), hslice, Except.ok.injEq]
    constructor
    · intro heq
      rw [← heq, List.length_take, List.length_drop, Nat.min_eq_left (by omega)] at hlength
      exact (Nat.eq_of_mul_eq_mul_right hpos hlength).symm
    · intro heq
      rw [text, heq]

end StringHelper

namespace BinarySpanReader

open StringHelper CharWidth

def readText : CharWidth → EStateM Exn BinarySpanReader (List UInt8)
  | .eightBit => read8BitStringSpan
  | .sixteenBit => read16BitStringSpan
  | .thirtyTwoBit => read32BitStringSpan

def getText : CharWidth → Int → EStateM Exn BinarySpanReader (List UInt8)
  | .eightBit => get8BitStringSpan
  | .sixteenBit => get16BitStringSpan
  | .thirtyTwoBit => get32BitStringSpan

def peekText : CharWidth → EStateM Exn BinarySpanReader (List UInt8)
  | .eightBit => peek8BitStringSpan
  | .sixteenBit => peek16BitStringSpan
  | .thirtyTwoBit => peek32BitStringSpan

def readField : CharWidth → Int → EStateM Exn BinarySpanReader (List UInt8)
  | .eightBit => read8BitStringSpanFixed
  | .sixteenBit => read16BitStringSpanFixed
  | .thirtyTwoBit => read32BitStringSpanFixed

def getField : CharWidth → Int → Int → EStateM Exn BinarySpanReader (List UInt8)
  | .eightBit => get8BitStringSpanFixed
  | .sixteenBit => get16BitStringSpanFixed
  | .thirtyTwoBit => get32BitStringSpanFixed

def peekField : CharWidth → Int → EStateM Exn BinarySpanReader (List UInt8)
  | .eightBit => peek8BitStringSpanFixed
  | .sixteenBit => peek16BitStringSpanFixed
  | .thirtyTwoBit => peek32BitStringSpanFixed

theorem readText_eq (w : CharWidth) : readText w = readStringSpan (strlenOffsetOf w) w.size := by
  cases w <;> rfl

theorem getText_eq (w : CharWidth) : getText w = getStringSpan (strlenOffsetOf w) := by
  cases w <;> rfl

theorem peekText_eq (w : CharWidth) : peekText w = peekStringSpan (strlenOffsetOf w) := by
  cases w <;> rfl

theorem readField_eq (w : CharWidth) :
    readField w = readStringSpanFixed (strlenOffsetFixedOf w) w.size := by
  cases w <;> rfl

theorem getField_eq (w : CharWidth) (position length : Int) :
    getField w position length = getStringSpan (strlenOffsetFixedOf w · · length) position := by
  cases w <;> rfl

theorem peekField_eq (w : CharWidth) (length : Int) :
    peekField w length = peekStringSpan (strlenOffsetFixedOf w · · length) := by
  cases w <;> rfl

variable {w : CharWidth} {buffer bytes : List UInt8} {p n : Nat} {position found : Int}
  {s : BinarySpanReader}

theorem run_ofExcept_bind_ok {x : Except Exn α} (hx : x = .ok a)
    (f : α → EStateM Exn BinarySpanReader β) (s : BinarySpanReader) :
    (ofExcept x >>= f).run s = (f a).run s := by
  rw [hx]
  rfl

theorem run_ofExcept_bind_error {x : Except Exn α} (hx : x = .error e)
    (f : α → EStateM Exn BinarySpanReader β) (s : BinarySpanReader) :
    (ofExcept x >>= f).run s = .error e s := by
  rw [hx]
  rfl

theorem eq_ok_of_run_ofExcept_bind {x : Except Exn α} {f : α → EStateM Exn BinarySpanReader β}
    {b : β} {t : BinarySpanReader} (h : (ofExcept x >>= f).run s = .ok b t) :
    ∃ a, x = .ok a := by
  cases x with
  | ok a => exact ⟨a, rfl⟩
  | error e =>
    rw [run_ofExcept_bind_error rfl] at h
    cases h

theorem run_getStringSpan_iff (strlen : List UInt8 → Int → Except Exn Int)
    (hfound : strlen s.buffer position = .ok found) :
    (getStringSpan strlen position).run s = .ok bytes s ↔
      sliceSpan s.buffer position found = .ok bytes := by
  rw [getStringSpan, run_get_bind, run_ofExcept_bind_ok hfound]
  cases hslice : sliceSpan s.buffer position found with
  | ok slice =>
    constructor
    · intro hrun
      exact congrArg Except.ok (EStateM.Result.ok.inj hrun).1
    · intro hsame
      cases hsame
      rfl
  | error e =>
    constructor
    · intro hrun
      cases hrun
    · intro hsame
      cases hsame

theorem run_getStringSpan_refused (strlen : List UInt8 → Int → Except Exn Int)
    (hrefused : strlen s.buffer position = .error e) :
    (getStringSpan strlen position).run s = .error e s := by
  rw [getStringSpan, run_get_bind, run_ofExcept_bind_error hrefused]

theorem run_peekStringSpan (strlen : List UInt8 → Int → Except Exn Int) (s : BinarySpanReader) :
    (peekStringSpan strlen).run s = (getStringSpan strlen s.bufferOffset).run s := rfl

/-- `Read8BitStringSpan` and the like return the text in front of the first terminator and go behind
it. -/
def ReadsText (w : CharWidth) (buffer : List UInt8) (p : Nat) : Prop :=
  ∃ t, (readText w).run ⟨buffer, p⟩ = .ok (w.text buffer p (w.wholeChars buffer p)) t ∧
    t.buffer = buffer ∧ t.bufferOffset = w.textEnd buffer p ∧ t.bufferOffset ≤ buffer.length

/-- `Get8BitStringSpan` and the like return it and stay where they are. -/
def GetsText (w : CharWidth) (s : BinarySpanReader) (p : Nat) : Prop :=
  (getText w p).run s = .ok (w.text s.buffer p (w.wholeChars s.buffer p)) s

def PeeksText (w : CharWidth) (buffer : List UInt8) (p : Nat) : Prop :=
  (peekText w).run ⟨buffer, p⟩ = .ok (w.text buffer p (w.wholeChars buffer p)) ⟨buffer, p⟩

/-- The overloads for a field of `n` characters return the text in it, and a read goes behind the
field. -/
def ReadsField (w : CharWidth) (buffer : List UInt8) (p n : Nat) : Prop :=
  ∃ t, (readField w n).run ⟨buffer, p⟩ = .ok (w.text buffer p n) t ∧
    t.buffer = buffer ∧ t.bufferOffset = (p + n * w.size : Nat)

def GetsField (w : CharWidth) (s : BinarySpanReader) (p n : Nat) : Prop :=
  (getField w p n).run s = .ok (w.text s.buffer p n) s

def PeeksField (w : CharWidth) (buffer : List UInt8) (p n : Nat) : Prop :=
  (peekField w n).run ⟨buffer, p⟩ = .ok (w.text buffer p n) ⟨buffer, p⟩

theorem getsText_iff (w : CharWidth) (hp : p ≤ s.buffer.length) :
    GetsText w s p ↔ w.NoTerminator s.buffer p (w.wholeChars s.buffer p) := by
  rw [GetsText, getText_eq, run_getStringSpan_iff _ (strlenOffsetOf_eq w hp),
    sliceSpan_foundLength_iff w (Nat.le_refl _) (add_wholeChars_le hp), textLength_eq_iff]

theorem peeksText_iff (w : CharWidth) (hp : p ≤ buffer.length) :
    PeeksText w buffer p ↔ w.NoTerminator buffer p (w.wholeChars buffer p) := by
  rw [← getsText_iff (s := ⟨buffer, p⟩) w hp, PeeksText, GetsText, peekText_eq, getText_eq,
    run_peekStringSpan]

/-- The condition under which the text in a field is right: the length of the field, taken from the
start of the buffer, is not in front of the field, there is no terminator before it, and what the
field has behind it starts with a terminator. -/
def FieldReadable (w : CharWidth) (buffer : List UInt8) (p n : Nat) : Prop :=
  p ≤ n * w.size ∧ w.NoTerminator buffer p ((n * w.size - p) / w.size) ∧
    ((n * w.size - p) / w.size < n →
      w.IsZeroAt buffer (p + (n * w.size - p) / w.size * w.size))

instance (w : CharWidth) (buffer : List UInt8) (p n : Nat) :
    Decidable (FieldReadable w buffer p n) :=
  inferInstanceAs (Decidable (_ ∧ _ ∧ _))

theorem sub_div_le (w : CharWidth) (p n : Nat) : (n * w.size - p) / w.size ≤ n := by
  apply Nat.div_le_of_le_mul
  rw [Nat.mul_comm w.size]
  exact Nat.sub_le _ _

theorem getsField_iff (w : CharWidth) (hsmall : s.buffer.length < 2 ^ 31)
    (hfits : p + n * w.size ≤ s.buffer.length) :
    GetsField w s p n ↔ FieldReadable w s.buffer p n := by
  have hlimit : n * w.size ≤ s.buffer.length := by omega
  rw [GetsField, getField_eq, FieldReadable]
  by_cases hp : p ≤ n * w.size
  · have hfound := strlenOffsetFixedOf_eq w hsmall hlimit hp
    rw [and_iff_right hp, run_getStringSpan_iff (strlenOffsetFixedOf w · · n) hfound,
      sliceSpan_foundLength_iff w (sub_div_le w p n) hfits,
      textLength_eq_iff_of_le (sub_div_le w p n)]
  · have hrefused := strlenOffsetFixedOf_refused w hsmall hlimit (Nat.not_le.1 hp)
    refine iff_of_false ?_ fun hcond => hp hcond.1
    rw [run_getStringSpan_refused (strlenOffsetFixedOf w · · n) hrefused]
    intro hrun
    cases hrun

theorem peeksField_iff (w : CharWidth) (hsmall : buffer.length < 2 ^ 31)
    (hfits : p + n * w.size ≤ buffer.length) :
    PeeksField w buffer p n ↔ FieldReadable w buffer p n := by
  rw [← getsField_iff (s := ⟨buffer, p⟩) w hsmall hfits, PeeksField, GetsField, peekField_eq,
    getField_eq, run_peekStringSpan]

/-- A read returns what its slice is, and goes on by the size of a terminator unless it is at the
end of a text that is as long as the buffer. -/
theorem run_readStringSpan {strlen : List UInt8 → Int → Except Exn Int} (size : Int)
    (hfound : strlen s.buffer s.bufferOffset = .ok found)
    (hslice : sliceSpan s.buffer s.bufferOffset found = .ok bytes) :
    (readStringSpan strlen size).run s = .ok bytes { s with
      bufferOffset :=
        if found < s.buffer.length then wrap32 (wrap32 (s.bufferOffset + found) + size)
        else wrap32 (s.bufferOffset + found) } := by
  rw [readStringSpan, run_get_bind, run_ofExcept_bind_ok hfound, run_ofExcept_bind_ok hslice,
    run_modify_bind]
  by_cases hlt : found < s.buffer.length
  · rw [if_pos hlt, if_pos hlt]
    rfl
  · rw [if_neg hlt, if_neg hlt]
    rfl

theorem run_readStringSpanFixed {strlen : List UInt8 → Int → Int → Except Exn Int}
    (size length : Int) (hfound : strlen s.buffer s.bufferOffset length = .ok found)
    (hslice : sliceSpan s.buffer s.bufferOffset found = .ok bytes) :
    (readStringSpanFixed strlen size length).run s = .ok bytes { s with
      bufferOffset := wrap32 (s.bufferOffset + wrap32 (length * size)) } := by
  rw [readStringSpanFixed, run_get_bind, run_ofExcept_bind_ok hfound, run_ofExcept_bind_ok hslice]
  rfl

theorem sliceSpan_of_run {strlen : List UInt8 → Int → Except Exn Int} {size : Int}
    {t : BinarySpanReader} (hfound : strlen s.buffer s.bufferOffset = .ok found)
    (hrun : (readStringSpan strlen size).run s = .ok bytes t) :
    sliceSpan s.buffer s.bufferOffset found = .ok bytes := by
  have hbind := hrun
  rw [readStringSpan, run_get_bind, run_ofExcept_bind_ok hfound] at hbind
  obtain ⟨slice, hslice⟩ := eq_ok_of_run_ofExcept_bind hbind
  rw [run_readStringSpan size hfound hslice] at hrun
  rw [hslice, (EStateM.Result.ok.inj hrun).1]

theorem sliceSpan_of_runFixed {strlen : List UInt8 → Int → Int → Except Exn Int} {size length : Int}
    {t : BinarySpanReader} (hfound : strlen s.buffer s.bufferOffset length = .ok found)
    (hrun : (readStringSpanFixed strlen size length).run s = .ok bytes t) :
    sliceSpan s.buffer s.bufferOffset found = .ok bytes := by
  have hbind := hrun
  rw [readStringSpanFixed, run_get_bind, run_ofExcept_bind_ok hfound] at hbind
  obtain ⟨slice, hslice⟩ := eq_ok_of_run_ofExcept_bind hbind
  rw [run_readStringSpanFixed size length hfound hslice] at hrun
  rw [hslice, (EStateM.Result.ok.inj hrun).1]

theorem wholeChars_mul_eq_iff (w : CharWidth) (hp : p ≤ buffer.length) :
    w.wholeChars buffer p * w.size = buffer.length ↔ p = 0 ∧ w.size ∣ buffer.length := by
  have hwhole := add_wholeChars_le (w := w) hp
  constructor
  · intro hfull
    exact ⟨by omega, Dvd.intro_left _ hfull⟩
  · rintro ⟨rfl, hdvd⟩
    exact Nat.div_mul_cancel hdvd

theorem textEnd_of_noTerminator (hnone : w.textLength buffer p (w.wholeChars buffer p) =
    w.wholeChars buffer p) : w.textEnd buffer p = p + w.wholeChars buffer p * w.size := by
  rw [textEnd, hnone, if_neg (Nat.lt_irrefl _), Nat.add_zero]

theorem foundLength_of_noTerminator (hnone : w.textLength buffer p n = n) :
    foundLength w buffer p n = (n * w.size : Nat) := by
  rw [foundLength, hnone, if_neg (Nat.lt_irrefl n)]

/-- It goes on only if the text is shorter than the buffer. -/
theorem readEnd_eq_iff (w : CharWidth) (hsmall : buffer.length < 2 ^ 31)
    (hfits : p + n * w.size ≤ buffer.length) :
    (if ((n * w.size : Nat) : Int) < buffer.length then
        wrap32 (wrap32 (p + (n * w.size : Nat)) + w.size)
      else wrap32 (p + (n * w.size : Nat))) = ((p + n * w.size : Nat) : Int) ↔
      n * w.size = buffer.length := by
  have hpos := w.size_pos
  have hfour : w.size ≤ 4 := by cases w <;> decide
  have hend : wrap32 (p + (n * w.size : Nat)) = p + (n * w.size : Nat) :=
    wrap32_of_range (by omega) (by omega)
  rw [hend]
  by_cases hlt : ((n * w.size : Nat) : Int) < buffer.length
  · rw [if_pos hlt]
    unfold wrap32
    omega
  · rw [if_neg hlt]
    omega

theorem readsText_iff (w : CharWidth) (hsmall : buffer.length < 2 ^ 31) (hp : p ≤ buffer.length) :
    ReadsText w buffer p ↔ w.NoTerminator buffer p (w.wholeChars buffer p) ∧
      p = 0 ∧ w.size ∣ buffer.length := by
  have hwhole := add_wholeChars_le (w := w) hp
  have hfound : strlenOffsetOf w buffer p = _ := strlenOffsetOf_eq w hp
  have hslice := sliceSpan_foundLength_iff (n := w.wholeChars buffer p) w (Nat.le_refl _) hwhole
  have hends := readEnd_eq_iff w hsmall hwhole
  rw [ReadsText, readText_eq, ← wholeChars_mul_eq_iff w hp, ← textLength_eq_iff, ← hends]
  constructor
  · rintro ⟨t, hrun, -, hend, -⟩
    have hsame := sliceSpan_of_run (s := ⟨buffer, p⟩) hfound hrun
    have hnone := hslice.1 hsame
    rw [run_readStringSpan (s := ⟨buffer, p⟩) _ hfound hsame] at hrun
    cases hrun
    rw [textEnd_of_noTerminator hnone, foundLength_of_noTerminator hnone] at hend
    exact ⟨hnone, hend⟩
  · rintro ⟨hnone, hend⟩
    have hrun := run_readStringSpan (s := ⟨buffer, p⟩) w.size hfound (hslice.2 hnone)
    refine ⟨_, hrun, rfl, ?_, ?_⟩
    · rw [textEnd_of_noTerminator hnone, foundLength_of_noTerminator hnone]
      exact hend
    · rw [foundLength_of_noTerminator hnone]
      exact hend.trans_le (by omega)

theorem readsField_iff (w : CharWidth) (hsmall : buffer.length < 2 ^ 31)
    (hfits : p + n * w.size ≤ buffer.length) :
    ReadsField w buffer p n ↔ FieldReadable w buffer p n := by
  have hlimit : n * w.size ≤ buffer.length := by omega
  have hend : wrap32 (p + wrap32 (n * w.size)) = (p + n * w.size : Nat) := by
    rw [trueLimit_eq hsmall hlimit]
    exact wrap32_of_range (by omega) (by omega)
  have hslice := sliceSpan_foundLength_iff w (sub_div_le w p n) hfits
  rw [ReadsField, readField_eq, FieldReadable]
  by_cases hp : p ≤ n * w.size
  · have hfound : strlenOffsetFixedOf w buffer p n = _ :=
      strlenOffsetFixedOf_eq w hsmall hlimit hp
    rw [and_iff_right hp, ← textLength_eq_iff_of_le (sub_div_le w p n), ← hslice]
    constructor
    · rintro ⟨t, hrun, -, -⟩
      exact sliceSpan_of_runFixed (s := ⟨buffer, p⟩) hfound hrun
    · intro hsame
      exact ⟨_, run_readStringSpanFixed (s := ⟨buffer, p⟩) _ _ hfound hsame, rfl, hend⟩
  · have hrefused := strlenOffsetFixedOf_refused w hsmall hlimit (Nat.not_le.1 hp)
    refine iff_of_false ?_ fun hcond => hp hcond.1
    rintro ⟨t, hrun, -, -⟩
    rw [readStringSpanFixed, run_get_bind, run_ofExcept_bind_error hrefused] at hrun
    cases hrun

theorem stringSpans_iff (w : CharWidth) (s : BinarySpanReader)
    (hsmall : s.buffer.length < 2 ^ 31) (p : Nat) (hp : p ≤ s.buffer.length) :
    (ReadsText w s.buffer p ↔ w.NoTerminator s.buffer p (w.wholeChars s.buffer p) ∧
        p = 0 ∧ w.size ∣ s.buffer.length) ∧
      (GetsText w s p ↔ w.NoTerminator s.buffer p (w.wholeChars s.buffer p)) ∧
      (PeeksText w s.buffer p ↔ w.NoTerminator s.buffer p (w.wholeChars s.buffer p)) ∧
      ∀ n, p + n * w.size ≤ s.buffer.length →
        (ReadsField w s.buffer p n ↔ FieldReadable w s.buffer p n) ∧
          (GetsField w s p n ↔ FieldReadable w s.buffer p n) ∧
          (PeeksField w s.buffer p n ↔ FieldReadable w s.buffer p n) := by
  refine ⟨readsText_iff w hsmall hp, getsText_iff w hp, peeksText_iff w hp, ?_⟩
  intro n hfits
  exact ⟨readsField_iff w hsmall hfits, getsField_iff w hsmall hfits,
    peeksField_iff w hsmall hfits⟩

theorem stringSpans_iff_sample :
    ReadsText .sixteenBit [0x41, 0, 0x42, 0] 0 ∧
      GetsText .sixteenBit ⟨[0x41, 0, 0x42, 0], 4⟩ 0 ∧
        ReadsField .sixteenBit [0x41, 0, 0x42, 0] 0 2 := by
  obtain ⟨hreads, hgets, -, hfields⟩ := stringSpans_iff .sixteenBit ⟨[0x41, 0, 0x42, 0], 4⟩
    (by decide) 0 (by decide)
  refine ⟨hreads.2 (by decide), hgets.2 (by decide), ?_⟩
  exact (hfields 2 (by decide)).1.2 (by decide)

/-- The last character in front of a terminator is lost, a read without one goes behind the end, and
a field is cut off where its length ends from the start of the buffer. -/
theorem stringSpans_disagree :
    ¬ GetsText .eightBit ⟨[0x41, 0], 0⟩ 0 ∧ ¬ ReadsText .eightBit [0x41, 0x42] 1 ∧
      ¬ ReadsField .eightBit [0x41, 0x42] 1 1 := by
  refine ⟨?_, ?_, ?_⟩
  · rw [getsText_iff _ (by decide)]
    decide
  · rw [readsText_iff _ (by decide) (by decide)]
    decide
  · rw [readsField_iff _ (by decide) (by decide)]
    decide

end BinarySpanReader

end AcOpenServer
