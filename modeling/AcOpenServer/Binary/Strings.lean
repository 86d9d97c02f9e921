import AcOpenServer.Binary
import AcOpenServer.Library.Utf8Prefix

namespace AcOpenServer
open Library
set_option autoImplicit true

namespace BinaryBufferReader

/-- The steps of a loop `for (i = 0; i + offset < count + offset; i++)`, whose bound is an
`int`. -/
def loopSteps (count offset : Nat) : Nat := (wrap32 (count + offset) - offset).toNat

def readUTF8At (buffer : Span) (offset : Nat) : Codec String := do
  let strLen ← terminatorIndex buffer offset (loopSteps buffer.length offset) 0
  return utf8Decode (← buffer.slice offset strLen)

def readUTF8Ref (buffer : Span) (offset : Nat) : Codec (String × Nat) := do
  let strLen ← terminatorIndex buffer offset (loopSteps buffer.length offset) 0
  let offset := offset + strLen
  let offset := if strLen < buffer.length then offset + 1 else offset
  return (utf8Decode (← buffer.slice offset strLen), offset)

def readFixedUTF8 (buffer : Span) (length : Nat) : Codec String := do
  let minLength := min length buffer.length
  let strLen ← terminatorIndex buffer 0 minLength 0
  if strLen = minLength then return utf8Decode buffer.bytes
  else return utf8Decode (← buffer.slice 0 strLen)

def readFixedUTF8At (buffer : Span) (length offset : Nat) : Codec String := do
  let minLength := min length buffer.length
  let index ← terminatorIndex buffer offset (loopSteps minLength offset) 0
  return utf8Decode (← buffer.slice offset index)

/-- `readFixedUTF8Ref` with the bound of its loop and the offset it returns as `int`s. -/
def readFixedUTF8RefInt (buffer : Span) (length offset : Nat) : Codec (String × Int) := do
  let minLength := min length buffer.length
  let index ← terminatorIndex buffer offset (loopSteps minLength offset) 0
  let value := utf8Decode (← buffer.slice offset index)
  return (value, wrap32 (offset + minLength))

/-- The span `buffer[offset..]`. -/
def rest (buffer : Span) (offset : Nat) : Span := ⟨buffer.bytes.drop offset, buffer.beyond⟩

/-- A reader returns a value and touches only bytes of its buffer. -/
def Yields (m : Codec α) (a : α) : Prop := m.result = .ok a ∧ ∀ e ∈ m.events, e.InBounds

/-- The readers of a fixed length return the string in front of the first zero byte. -/
def FixedUTF8Agrees (buffer : Span) (length offset : Nat) : Prop :=
  let text := utf8Decode (((buffer.bytes.drop offset).take length).takeWhile (· ≠ 0))
  Yields (readFixedUTF8At buffer length offset) text ∧
    Yields (readFixedUTF8RefInt buffer length offset)
      (text, (offset + min length (buffer.length - offset) : Nat)) ∧
    Yields (readFixedUTF8 (rest buffer offset) length) text

/-- The readers of a terminated string return it and move behind its terminator. -/
def UTF8Agrees (buffer : Span) (offset : Nat) : Prop :=
  let bytes := (buffer.bytes.drop offset).takeWhile (· ≠ 0)
  let past := offset + bytes.length + if 0 ∈ buffer.bytes.drop offset then 1 else 0
  Yields (readUTF8At buffer offset) (utf8Decode bytes) ∧
    Yields (readUTF8Ref buffer offset) (utf8Decode bytes, past) ∧ past ≤ buffer.length ∧
    Yields (readUTF8 (rest buffer offset)) (utf8Decode bytes)

/-- Behind the terminator of the first string follows another of the same length and text. -/
def FollowedByItself (buffer : Span) (offset : Nat) : Prop :=
  let bytes := buffer.bytes.drop offset
  let size := (bytes.takeWhile (· ≠ 0)).length
  0 ∈ bytes ∧ (buffer.length + offset < 2 ^ 31 ∨ size = 0) ∧
    offset + 2 * size + 1 ≤ buffer.length ∧
    utf8Decode ((bytes.drop (size + 1)).take size) = utf8Decode (bytes.take size)

variable {buffer : Span} {offset length : Nat}

theorem loopSteps_of_lt (h : count + offset < 2 ^ 31) : loopSteps count offset = count := by
  rw [loopSteps, wrap32_of_range (by omega) (by omega)]
  omega

theorem loopSteps_of_le (hcount : count < 2 ^ 31) (hoffset : offset < 2 ^ 31)
    (h : 2 ^ 31 ≤ count + offset) : loopSteps count offset = 0 := by
  rw [loopSteps, wrap32]
  omega

/-- Where nothing overflows the reader is the one of the tickets. -/
theorem readFixedUTF8RefInt_eq (h : min length buffer.length + offset < 2 ^ 31) :
    readFixedUTF8RefInt buffer length offset =
      (fun p : String × Nat => (p.1, (p.2 : Int))) <$> readFixedUTF8Ref buffer length offset := by
  have hwrap : wrap32 (offset + min length buffer.length : Nat) =
      (offset + min length buffer.length : Nat) := wrap32_of_range (by omega) (by omega)
  rw [Nat.cast_add] at hwrap
  simp only [readFixedUTF8RefInt, readFixedUTF8Ref, loopSteps_of_lt h, map_eq_pure_bind,
    bind_assoc, pure_bind, hwrap, Nat.cast_add]

theorem yields_pure (a : α) : Yields (pure a) a := by
  refine ⟨rfl, ?_⟩
  intro e he
  cases he

theorem Yields.bind (hm : Yields m a) (hf : Yields (f a) b) : Yields (m >>= f) b := by
  rw [Yields, Traced.bind_of_ok f hm.1]
  refine ⟨hf.1, ?_⟩
  intro e he
  rcases List.mem_append.1 he with he | he
  · exact hm.2 e he
  · exact hf.2 e he

theorem yields_slice (h : offset + size ≤ buffer.length) :
    Yields (buffer.slice offset size) ((buffer.bytes.drop offset).take size) := by
  rw [Span.slice_of_le h]
  refine ⟨rfl, ?_⟩
  intro e he
  cases List.mem_singleton.1 he
  exact h

theorem yields_terminatorIndex
    (h : offset + remaining ≤ buffer.length ∨ 0 ∈ buffer.bytes.drop offset) :
    Yields (terminatorIndex buffer offset remaining 0)
      (((buffer.bytes.drop offset).take remaining).takeWhile (· ≠ 0)).length := by
  have hspec := terminatorIndex_spec buffer offset
    (by rwa [Nat.zero_add] : 0 + offset + remaining ≤ buffer.length ∨
      0 ∈ buffer.bytes.drop (0 + offset))
  simp only [Nat.zero_add] at hspec
  exact hspec

theorem length_rest (buffer : Span) (offset : Nat) :
    (rest buffer offset).length = buffer.length - offset := List.length_drop

theorem take_min_length (buffer : Span) (offset n : Nat) :
    (buffer.bytes.drop offset).take (min n (buffer.length - offset)) =
      (buffer.bytes.drop offset).take n := by
  rw [← length_rest]
  exact List.take_eq_take_min.symm

theorem yields_text (h : offset + remaining ≤ buffer.length) :
    ∃ index, Yields (terminatorIndex buffer offset remaining 0) index ∧
      Yields (buffer.slice offset index)
        (((buffer.bytes.drop offset).take remaining).takeWhile (· ≠ 0)) := by
  have hle : (((buffer.bytes.drop offset).take remaining).takeWhile (· ≠ 0)).length ≤
      remaining :=
    (List.takeWhile_prefix _).length_le.trans (List.length_take_le _ _)
  have hslice := yields_slice (Nat.le_trans (Nat.add_le_add_left hle offset) h)
  rw [take_length_takeWhile] at hslice
  exact ⟨_, yields_terminatorIndex (.inl h), hslice⟩

theorem min_length_of_fits (hoffset : offset ≤ buffer.length)
    (h : length ≤ buffer.length - offset ∨ offset = 0) :
    min length buffer.length = min length (buffer.length - offset) := by
  rcases h with h | h
  · omega
  · rw [h, Nat.sub_zero]

theorem yields_fixedText (hlength : buffer.length < 2 ^ 31) (hoffset : offset ≤ buffer.length)
    (h : length ≤ buffer.length - offset ∨ offset = 0) :
    ∃ index, Yields (terminatorIndex buffer offset
        (loopSteps (min length buffer.length) offset) 0) index ∧
      Yields (buffer.slice offset index)
        (((buffer.bytes.drop offset).take length).takeWhile (· ≠ 0)) := by
  have hsteps : loopSteps (min length buffer.length) offset =
      min length (buffer.length - offset) := by
    rw [min_length_of_fits hoffset h]
    exact loopSteps_of_lt (by omega)
  rw [hsteps, ← take_min_length]
  exact yields_text (by omega)

theorem yields_readFixedUTF8At (hlength : buffer.length < 2 ^ 31)
    (hoffset : offset ≤ buffer.length) (h : length ≤ buffer.length - offset ∨ offset = 0) :
    Yields (readFixedUTF8At buffer length offset)
      (utf8Decode (((buffer.bytes.drop offset).take length).takeWhile (· ≠ 0))) := by
  obtain ⟨index, hindex, hslice⟩ := yields_fixedText hlength hoffset h
  exact hindex.bind (hslice.bind (yields_pure _))

theorem yields_readFixedUTF8RefInt (hlength : buffer.length < 2 ^ 31)
    (hoffset : offset ≤ buffer.length) (h : length ≤ buffer.length - offset ∨ offset = 0) :
    Yields (readFixedUTF8RefInt buffer length offset)
      (utf8Decode (((buffer.bytes.drop offset).take length).takeWhile (· ≠ 0)),
        (offset + min length (buffer.length - offset) : Nat)) := by
  have hwrap : wrap32 (offset + (min length buffer.length : Nat)) =
      (offset + min length (buffer.length - offset) : Nat) := by
    rw [min_length_of_fits hoffset h, ← Nat.cast_add]
    exact wrap32_of_range (by omega) (by omega)
  obtain ⟨index, hindex, hslice⟩ := yields_fixedText hlength hoffset h
  rw [← hwrap]
  exact hindex.bind (hslice.bind (yields_pure _))

/-- A field that does not fit moves the offset behind the buffer, or before it on overflow. -/
theorem fits_of_readFixedUTF8RefInt (hlength : buffer.length < 2 ^ 31)
    (hoffset : offset ≤ buffer.length)
    (h : (readFixedUTF8RefInt buffer length offset).result =
      .ok (text, (offset + min length (buffer.length - offset) : Nat))) :
    length ≤ buffer.length - offset ∨ offset = 0 := by
  obtain ⟨index, _, hrest⟩ := Traced.result_bind_eq_ok.1 h
  obtain ⟨bytes, _, hpair⟩ := Traced.result_bind_eq_ok.1 hrest
  simp only [Traced.result_pure, Except.ok.injEq, Prod.mk.injEq] at hpair
  have hmoved := hpair.2
  rw [wrap32] at hmoved
  omega

theorem takeWhile_ne_zero_eq_self {bs : List UInt8} :
    bs.takeWhile (· ≠ 0) = bs ↔ 0 ∉ bs := by
  rw [List.takeWhile_eq_self_iff]
  constructor
  · intro h hzero
    exact of_decide_eq_true (h 0 hzero) rfl
  · intro h b hb
    exact decide_eq_true fun hzero => h (hzero ▸ hb)

theorem length_takeWhile_lt {bs : List UInt8} (h : 0 ∈ bs) :
    (bs.takeWhile (· ≠ 0)).length < bs.length := by
  have hfront := List.takeWhile_prefix (l := bs) fun b => decide (b ≠ 0)
  apply Nat.lt_of_le_of_ne hfront.length_le
  intro hlength
  exact takeWhile_ne_zero_eq_self.1 (hfront.eq_of_length hlength) h

theorem yields_readFixedUTF8 (buffer : Span) (length : Nat) :
    Yields (readFixedUTF8 buffer length) (utf8Decode
      (if 0 ∈ buffer.bytes.take length then (buffer.bytes.take length).takeWhile (· ≠ 0)
      else buffer.bytes)) := by
  have hl : buffer.length = buffer.bytes.length := rfl
  have hindex := yields_terminatorIndex
    (.inl (by omega : 0 + min length buffer.length ≤ buffer.length))
  have htake := List.take_eq_take_min (l := buffer.bytes) (i := length)
  have hlength : (buffer.bytes.take length).length = min length buffer.length :=
    List.length_take
  rw [List.drop_zero, hl, ← htake] at hindex
  refine hindex.bind ?_
  by_cases hzero : 0 ∈ buffer.bytes.take length
  · have hlt := length_takeWhile_lt hzero
    have hslice := yields_slice (by omega : 0 +
      ((buffer.bytes.take length).takeWhile (· ≠ 0)).length ≤ buffer.length)
    rw [List.drop_zero, take_length_takeWhile] at hslice
    rw [if_pos hzero, if_neg (by omega)]
    exact hslice.bind (yields_pure _)
  · rw [if_neg hzero, takeWhile_ne_zero_eq_self.2 hzero, hlength, if_pos rfl]
    exact yields_pure _

/-- In the span overload a field without a terminator must reach the end of the span, or be
followed by nothing but the end of the replacement character it ends with. -/
theorem readFixedUTF8_iff (buffer : Span) (length : Nat) :
    Yields (readFixedUTF8 buffer length)
        (utf8Decode ((buffer.bytes.take length).takeWhile (· ≠ 0))) ↔
      0 ∈ buffer.bytes.take length ∨ buffer.length ≤ length ∨
        EndsReplaced buffer.bytes length := by
  have hspan := yields_readFixedUTF8 buffer length
  by_cases hzero : 0 ∈ buffer.bytes.take length
  · rw [if_pos hzero] at hspan
    exact iff_of_true hspan (.inl hzero)
  rw [if_neg hzero] at hspan
  rw [takeWhile_ne_zero_eq_self.2 hzero]
  by_cases hle : buffer.length ≤ length
  · rw [List.take_of_length_le hle]
    exact iff_of_true hspan (.inr (.inl hle))
  · rw [or_iff_right hzero, or_iff_right hle, ← utf8Decode_take (Nat.lt_of_not_le hle)]
    constructor
    · intro hfield
      exact Except.ok.inj (hfield.1.symm.trans hspan.1)
    · intro hsame
      rw [hsame]
      exact hspan

theorem fixedUTF8_agrees_iff (hlength : buffer.length < 2 ^ 31)
    (hoffset : offset ≤ buffer.length) :
    FixedUTF8Agrees buffer length offset ↔
      (length ≤ buffer.length - offset ∨ offset = 0) ∧
        (0 ∈ (buffer.bytes.drop offset).take length ∨ buffer.length - offset ≤ length ∨
          EndsReplaced (buffer.bytes.drop offset) length) := by
  have hspan := readFixedUTF8_iff (rest buffer offset) length
  rw [length_rest] at hspan
  constructor
  · rintro ⟨_, hmoved, hfield⟩
    exact ⟨fits_of_readFixedUTF8RefInt hlength hoffset hmoved.1, hspan.1 hfield⟩
  · rintro ⟨hfits, hfield⟩
    exact ⟨yields_readFixedUTF8At hlength hoffset hfits,
      yields_readFixedUTF8RefInt hlength hoffset hfits, hspan.2 hfield⟩

theorem fixedUTF8_agrees_terminated :
    FixedUTF8Agrees ⟨[0x41, 0x42, 0x00, 0x43], fun _ => 0⟩ 3 0 :=
  (fixedUTF8_agrees_iff (by decide) (by decide)).2 ⟨by decide, .inl (by decide)⟩

/-- Of `ABC` the first byte is read as `ABC`, and a field of two bytes of which the buffer has
one moves the offset behind the buffer. -/
theorem fixedUTF8_disagrees :
    ¬ FixedUTF8Agrees ⟨[0x41, 0x42, 0x43], fun _ => 0⟩ 1 0 ∧
      ¬ FixedUTF8Agrees ⟨[0x41, 0x00], fun _ => 0⟩ 2 1 := by
  constructor
  · rintro ⟨_, _, hfield⟩
    exact absurd hfield.1 (by decide)
  · rintro ⟨_, hmoved, _⟩
    exact absurd hmoved.1 (by decide)

theorem yields_readUTF8 (buffer : Span) :
    Yields (readUTF8 buffer) (utf8Decode (buffer.bytes.takeWhile (· ≠ 0))) :=
  readUTF8_spec buffer

theorem past_le_length (hoffset : offset ≤ buffer.length) :
    offset + ((buffer.bytes.drop offset).takeWhile (· ≠ 0)).length +
      (if 0 ∈ buffer.bytes.drop offset then 1 else 0) ≤ buffer.length := by
  have hrest : (buffer.bytes.drop offset).length = buffer.length - offset := List.length_drop
  have hle := (List.takeWhile_prefix (l := buffer.bytes.drop offset)
    fun b => decide (b ≠ 0)).length_le
  by_cases hzero : 0 ∈ buffer.bytes.drop offset
  · have hlt := length_takeWhile_lt hzero
    rw [if_pos hzero]
    omega
  · rw [if_neg hzero]
    omega

theorem yields_terminator (hlength : buffer.length < 2 ^ 31) (hoffset : offset ≤ buffer.length)
    (hzero : 0 ∈ buffer.bytes.drop offset)
    (h : buffer.length + offset < 2 ^ 31 ∨
      ((buffer.bytes.drop offset).takeWhile (· ≠ 0)).length = 0) :
    Yields (terminatorIndex buffer offset (loopSteps buffer.length offset) 0)
      ((buffer.bytes.drop offset).takeWhile (· ≠ 0)).length := by
  have hindex : Yields (terminatorIndex buffer offset (loopSteps buffer.length offset) 0) _ :=
    yields_terminatorIndex (.inr hzero)
  by_cases hfits : buffer.length + offset < 2 ^ 31
  · have hall : (buffer.bytes.drop offset).length ≤ buffer.length := by
      rw [List.length_drop]
      exact Nat.sub_le _ _
    rw [loopSteps_of_lt hfits, List.take_of_length_le hall] at hindex
    rw [loopSteps_of_lt hfits]
    exact hindex
  · rw [h.resolve_left hfits]
    rw [loopSteps_of_le hlength (by omega) (by omega)] at hindex ⊢
    exact hindex

theorem slice_eq_ok (h : (buffer.slice offset size).result = .ok bs) :
    offset + size ≤ buffer.length ∧ bs = (buffer.bytes.drop offset).take size := by
  by_cases hle : offset + size ≤ buffer.length
  · rw [Span.slice_of_le hle] at h
    exact ⟨hle, (Except.ok.inj h).symm⟩
  · rw [Span.slice_of_lt (Nat.lt_of_not_le hle)] at h
    cases h

theorem take_length_takeWhile_self (bs : List UInt8) :
    bs.take (bs.takeWhile (· ≠ 0)).length = bs.takeWhile (· ≠ 0) :=
  (List.prefix_iff_eq_take.1 (List.takeWhile_prefix _)).symm

/-- Where the overload with a `ref` offset leaves it, after a loop of `n` steps. -/
def moved (buffer : Span) (offset n : Nat) : Nat :=
  if n < buffer.length then offset + n + 1 else offset + n

theorem yields_readUTF8At
    (hindex : Yields (terminatorIndex buffer offset (loopSteps buffer.length offset) 0) n)
    (hslice : Yields (buffer.slice offset n) bytes) :
    Yields (readUTF8At buffer offset) (utf8Decode bytes) :=
  hindex.bind (hslice.bind (yields_pure _))

theorem yields_readUTF8Ref
    (hindex : Yields (terminatorIndex buffer offset (loopSteps buffer.length offset) 0) n)
    (hslice : Yields (buffer.slice (moved buffer offset n) n) bytes) :
    Yields (readUTF8Ref buffer offset) (utf8Decode bytes, moved buffer offset n) :=
  hindex.bind (hslice.bind (yields_pure _))

theorem readUTF8Ref_eq_ok (h : (readUTF8Ref buffer offset).result = .ok (text, next)) :
    ∃ n, (terminatorIndex buffer offset (loopSteps buffer.length offset) 0).result = .ok n ∧
      moved buffer offset n + n ≤ buffer.length ∧
      utf8Decode ((buffer.bytes.drop (moved buffer offset n)).take n) = text := by
  obtain ⟨n, hindex, hrest⟩ := Traced.result_bind_eq_ok.1 h
  obtain ⟨bytes, hslice, hpair⟩ := Traced.result_bind_eq_ok.1 hrest
  obtain ⟨hle, rfl⟩ := slice_eq_ok hslice
  exact ⟨n, hindex, hle, congrArg Prod.fst (Except.ok.inj hpair)⟩

theorem UTF8Agrees.of_followed (hlength : buffer.length < 2 ^ 31)
    (hoffset : offset ≤ buffer.length) (h : FollowedByItself buffer offset) :
    UTF8Agrees buffer offset := by
  obtain ⟨hzero, hfits, hroom, hsame⟩ := h
  have hindex := yields_terminator hlength hoffset hzero hfits
  have htext := yields_slice (by omega : offset +
    ((buffer.bytes.drop offset).takeWhile (· ≠ 0)).length ≤ buffer.length)
  have hbehind := yields_slice (by omega : offset +
    ((buffer.bytes.drop offset).takeWhile (· ≠ 0)).length + 1 +
      ((buffer.bytes.drop offset).takeWhile (· ≠ 0)).length ≤ buffer.length)
  have hmoved : moved buffer offset ((buffer.bytes.drop offset).takeWhile (· ≠ 0)).length =
      offset + ((buffer.bytes.drop offset).takeWhile (· ≠ 0)).length + 1 :=
    if_pos (by omega)
  rw [← hmoved] at hbehind
  have hmove := yields_readUTF8Ref hindex hbehind
  rw [hmoved, Nat.add_assoc offset, ← List.drop_drop, hsame, ← Nat.add_assoc] at hmove
  rw [take_length_takeWhile_self] at htext hmove
  refine ⟨yields_readUTF8At hindex htext, ?_, past_le_length hoffset, yields_readUTF8 _⟩
  rw [if_pos hzero]
  exact hmove

theorem UTF8Agrees.of_empty (beyond : Nat → UInt8) : UTF8Agrees ⟨[], beyond⟩ 0 := by
  have hindex : Yields (terminatorIndex ⟨[], beyond⟩ 0 (loopSteps 0 0) 0) 0 := yields_pure 0
  have hslice : Yields (Span.slice ⟨[], beyond⟩ 0 0) [] := yields_slice (Nat.le_refl 0)
  exact ⟨yields_readUTF8At hindex hslice, yields_readUTF8Ref hindex hslice, Nat.le_refl 0,
    yields_readUTF8 ⟨[], beyond⟩⟩

/-- A loop that an overflow keeps from starting returns an empty string. -/
theorem length_takeWhile_of_overflow (hlength : buffer.length < 2 ^ 31)
    (hoffset : offset ≤ buffer.length) (hover : 2 ^ 31 ≤ buffer.length + offset)
    (hindex : (terminatorIndex buffer offset (loopSteps buffer.length offset) 0).result = .ok n)
    (htext : utf8Decode ((buffer.bytes.drop (moved buffer offset n)).take n) =
      utf8Decode ((buffer.bytes.drop offset).takeWhile (· ≠ 0))) :
    n = 0 ∧ (buffer.bytes.drop offset).takeWhile (· ≠ 0) = [] := by
  rw [loopSteps_of_le hlength (by omega) hover] at hindex
  obtain rfl : 0 = n := Except.ok.inj hindex
  exact ⟨rfl, utf8Decode_eq_empty.1 htext.symm⟩

theorem followedByItself_of_readUTF8Ref (hlength : buffer.length < 2 ^ 31)
    (hoffset : offset ≤ buffer.length) (hne : 0 < buffer.length)
    (h : (readUTF8Ref buffer offset).result =
      .ok (utf8Decode ((buffer.bytes.drop offset).takeWhile (· ≠ 0)), next)) :
    FollowedByItself buffer offset := by
  obtain ⟨n, hindex, hroom, htext⟩ := readUTF8Ref_eq_ok h
  have hrest : (buffer.bytes.drop offset).length = buffer.length - offset := List.length_drop
  by_cases hzero : 0 ∈ buffer.bytes.drop offset
  · have hfits : buffer.length + offset < 2 ^ 31 ∨
        ((buffer.bytes.drop offset).takeWhile (· ≠ 0)).length = 0 := by
      by_cases hlt : buffer.length + offset < 2 ^ 31
      · exact .inl hlt
      · obtain ⟨_, hnil⟩ :=
          length_takeWhile_of_overflow hlength hoffset (Nat.le_of_not_lt hlt) hindex htext
        exact .inr (congrArg List.length hnil)
    have hspec := (yields_terminator hlength hoffset hzero hfits).1
    rw [hindex] at hspec
    obtain rfl := Except.ok.inj hspec
    have hlt := length_takeWhile_lt hzero
    have hmoved : moved buffer offset ((buffer.bytes.drop offset).takeWhile (· ≠ 0)).length =
        offset + ((buffer.bytes.drop offset).takeWhile (· ≠ 0)).length + 1 :=
      if_pos (by omega)
    rw [hmoved] at hroom htext
    refine ⟨hzero, hfits, by omega, ?_⟩
    rw [take_length_takeWhile_self, List.drop_drop, ← Nat.add_assoc]
    exact htext
  · exfalso
    by_cases hfits : buffer.length + offset < 2 ^ 31
    · rw [loopSteps_of_lt hfits] at hindex
      by_cases hstart : offset = 0
      · subst hstart
        have htake : buffer.bytes.take buffer.length = buffer.bytes := List.take_length
        have hspec := (yields_terminatorIndex
          (.inl (Nat.zero_add buffer.length).le) : Yields (terminatorIndex buffer 0 _ 0) _).1
        rw [List.drop_zero] at hzero
        rw [hindex, List.drop_zero, htake, takeWhile_ne_zero_eq_self.2 hzero] at hspec
        obtain rfl := Except.ok.inj hspec
        have hmoved : moved buffer 0 buffer.bytes.length = 0 + buffer.bytes.length :=
          if_neg (Nat.lt_irrefl _)
        rw [hmoved] at hroom
        change 0 + buffer.length + buffer.length ≤ buffer.length at hroom
        omega
      · rw [terminatorIndex_overrun buffer offset (by omega) (by omega)
          (by rwa [Nat.zero_add])] at hindex
        cases hindex
    · obtain ⟨rfl, hnil⟩ :=
        length_takeWhile_of_overflow hlength hoffset (Nat.le_of_not_lt hfits) hindex htext
      have hmoved : moved buffer offset 0 = offset + 1 := if_pos hne
      rw [takeWhile_ne_zero_eq_self.2 hzero] at hnil
      rw [hnil, List.length_nil] at hrest
      omega

theorem utf8_agrees_iff (hlength : buffer.length < 2 ^ 31) (hoffset : offset ≤ buffer.length) :
    UTF8Agrees buffer offset ↔ buffer.length = 0 ∨ FollowedByItself buffer offset := by
  constructor
  · rintro ⟨_, hmove, _⟩
    obtain hempty | hne := Nat.eq_zero_or_pos buffer.length
    · exact .inl hempty
    · exact .inr (followedByItself_of_readUTF8Ref hlength hoffset hne hmove.1)
  · rintro (hempty | hfollowed)
    · obtain ⟨bytes, beyond⟩ := buffer
      obtain rfl : bytes = [] := List.length_eq_zero_iff.1 hempty
      obtain rfl : offset = 0 := Nat.le_zero.1 hoffset
      exact .of_empty beyond
    · exact .of_followed hlength hoffset hfollowed

theorem utf8_agrees_repeated : UTF8Agrees ⟨[0x41, 0x00, 0x41], fun _ => 0⟩ 0 :=
  (utf8_agrees_iff (by decide) (by decide)).2
    (.inr ⟨by decide, .inl (by decide), by decide, by decide⟩)

/-- The string `A` is read as the `B` behind its terminator, and in front of the end of the
buffer it is not read at all. -/
theorem utf8_disagrees :
    ¬ UTF8Agrees ⟨[0x41, 0x00, 0x42], fun _ => 0⟩ 0 ∧
      ¬ UTF8Agrees ⟨[0x00, 0x41], fun _ => 0⟩ 1 := by
  constructor
  · rintro ⟨_, hmove, _⟩
    exact absurd hmove.1 (by decide)
  · rintro ⟨hread, _⟩
    exact absurd hread.1 (by decide)

end BinaryBufferReader

end AcOpenServer
