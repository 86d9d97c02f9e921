import AcOpenServer.Library.Utf8
import AcOpenServer.Runtime

namespace AcOpenServer
open Library
set_option autoImplicit true

namespace BinaryBufferReader

/-- `Unsafe.ReadUnaligned<T>(ref buffer[offset])`: only the first byte is bounds checked. -/
def read (α : Type) [Layout α] (buffer : Span) (offset : Nat) : Codec α :=
  if offset < buffer.length then do
    Traced.emit ⟨offset, Layout.size α, buffer.length⟩
    return Layout.decode (buffer.window offset (Layout.size α))
  else
    throw .indexOutOfRange

/-- The readers that swap the value they read, on a little-endian machine. -/
def readBigEndian (α : Type) [Layout α] (buffer : Span) (offset : Nat) : Codec α := do
  return reverseEndianness (← read α buffer offset)

/-- Their overloads with a `ref offset`, which return the advanced offset. -/
def readBigEndianRef (α : Type) [Layout α] (buffer : Span) (offset : Nat) :
    Codec (α × Nat) := do
  return (← readBigEndian α buffer offset, offset + Layout.size α)

def readUInt16BigEndian (buffer : Span) (offset : Nat) : Codec UInt16 :=
  readBigEndian UInt16 buffer offset

def readUInt16BigEndianRef (buffer : Span) (offset : Nat) : Codec (UInt16 × Nat) :=
  readBigEndianRef UInt16 buffer offset

def readUInt32BigEndianRef (buffer : Span) (offset : Nat) : Codec (UInt32 × Nat) :=
  readBigEndianRef UInt32 buffer offset

def readInt32BigEndianRef (buffer : Span) (offset : Nat) : Codec (Int32 × Nat) := do
  let (value, offset) ← readBigEndianRef UInt32 buffer offset
  return (value.toInt32, offset)

def readUInt64BigEndianRef (buffer : Span) (offset : Nat) : Codec (UInt64 × Nat) :=
  readBigEndianRef UInt64 buffer offset

/-- The loop of the string readers: the index of the first zero byte after `offset`, or the
bound of the loop, of which `remaining` steps are left. -/
def terminatorIndex (buffer : Span) (offset : Nat) : (remaining : Nat) → Nat → Codec Nat
  | 0, i => return i
  | remaining + 1, i => do
    if (← buffer.index (i + offset)) = 0 then return i
    else terminatorIndex buffer offset remaining (i + 1)

def readUTF8 (buffer : Span) : Codec String := do
  let strLen ← terminatorIndex buffer 0 buffer.length 0
  if strLen = buffer.length then return utf8Decode buffer.bytes
  else return utf8Decode (← buffer.slice 0 strLen)

def readFixedUTF8Ref (buffer : Span) (length offset : Nat) : Codec (String × Nat) := do
  let minLength := min length buffer.length
  let index ← terminatorIndex buffer offset minLength 0
  let value := utf8Decode (← buffer.slice offset index)
  return (value, offset + minLength)

variable {buffer : Span} {offset : Nat} [Layout α]

theorem read_of_lt (h : offset < buffer.length) :
    read α buffer offset = ⟨.ok (Layout.decode (buffer.window offset (Layout.size α))),
      [⟨offset, Layout.size α, buffer.length⟩]⟩ := if_pos h

theorem read_of_le (h : buffer.length ≤ offset) :
    read α buffer offset = throw .indexOutOfRange := if_neg (by omega)

/-- The value a big-endian reader finds at an offset. -/
def peek (α : Type) [Layout α] (buffer : Span) (offset : Nat) : α :=
  Layout.decode (buffer.window offset (Layout.size α)).reverse

theorem readBigEndian_of_lt (h : offset < buffer.length) :
    readBigEndian α buffer offset = ⟨.ok (peek α buffer offset),
      [⟨offset, Layout.size α, buffer.length⟩]⟩ := by
  rw [readBigEndian, read_of_lt h, peek, ← reverseEndianness_decode _ (by simp)]
  rfl

theorem readBigEndian_of_le (h : buffer.length ≤ offset) :
    readBigEndian α buffer offset = throw .indexOutOfRange := by
  rw [readBigEndian, read_of_le h, Traced.throw_bind]

theorem readBigEndianRef_of_lt (h : offset < buffer.length) :
    readBigEndianRef α buffer offset = ⟨.ok (peek α buffer offset, offset + Layout.size α),
      [⟨offset, Layout.size α, buffer.length⟩]⟩ := by
  rw [readBigEndianRef, readBigEndian_of_lt h]
  rfl

theorem readBigEndianRef_of_le (h : buffer.length ≤ offset) :
    readBigEndianRef α buffer offset = throw .indexOutOfRange := by
  rw [readBigEndianRef, readBigEndian_of_le h, Traced.throw_bind]

theorem result_terminatorIndex_eq_error {remaining i : Nat}
    (h : (terminatorIndex buffer offset remaining i).result = .error e) :
    e = .indexOutOfRange := by
  induction remaining generalizing i with
  | zero => cases h
  | succ remaining ih =>
    by_cases hi : i + offset < buffer.length
    · rw [terminatorIndex, Span.index, if_pos hi, Traced.result_bind_of_ok _ rfl] at h
      split at h
      · cases h
      · exact ih h
    · rw [terminatorIndex, Span.index, if_neg hi, Traced.throw_bind] at h
      cases h
      rfl

theorem index_of_lt {i : Nat} (h : i < buffer.bytes.length) :
    buffer.index i = ⟨.ok buffer.bytes[i], [⟨i, 1, buffer.length⟩]⟩ := by
  have hbyte : buffer.byteAt i = buffer.bytes[i] := by
    rw [Span.byteAt, List.getElem?_eq_getElem h, Option.getD_some]
  have hlength : i < buffer.length := h
  rw [Span.index, if_pos hlength, hbyte]
  rfl

/-- The loop stops at the first zero byte or at its bound, whichever comes first, and every
byte it looks at is in the buffer. -/
theorem terminatorIndex_spec (buffer : Span) (offset : Nat) {remaining i : Nat}
    (h : i + offset + remaining ≤ buffer.length ∨ 0 ∈ buffer.bytes.drop (i + offset)) :
    (terminatorIndex buffer offset remaining i).result =
        .ok (i + (((buffer.bytes.drop (i + offset)).take remaining).takeWhile (· ≠ 0)).length) ∧
      ∀ a ∈ (terminatorIndex buffer offset remaining i).events, a.InBounds := by
  have hl : buffer.length = buffer.bytes.length := rfl
  induction remaining generalizing i with
  | zero =>
    refine ⟨rfl, ?_⟩
    intro a ha
    cases ha
  | succ remaining ih =>
    have hi : i + offset < buffer.bytes.length := by
      rcases h with h | h
      · omega
      · by_contra hle
        rw [List.drop_of_length_le (by omega)] at h
        cases h
    have hnext : i + 1 + offset = i + offset + 1 := by omega
    rw [terminatorIndex, index_of_lt hi, Traced.bind_of_ok _ rfl, List.drop_eq_getElem_cons hi,
      List.take_succ_cons]
    dsimp only
    by_cases hz : buffer.bytes[i + offset] = 0
    · rw [if_pos hz, List.takeWhile_cons_of_neg (by simp [hz])]
      refine ⟨rfl, ?_⟩
      intro a ha
      rw [Traced.events_pure, List.append_nil] at ha
      cases List.mem_singleton.1 ha
      exact hi
    · have hrest : i + 1 + offset + remaining ≤ buffer.length ∨
          0 ∈ buffer.bytes.drop (i + 1 + offset) := by
        rcases h with h | h
        · exact .inl (by omega)
        · rw [List.drop_eq_getElem_cons hi] at h
          rw [hnext]
          exact .inr ((List.mem_cons.1 h).resolve_left fun h0 => hz h0.symm)
      obtain ⟨hresult, hevents⟩ := ih hrest
      rw [if_neg hz, List.takeWhile_cons_of_pos (by simp [hz]), hresult, hnext]
      refine ⟨?_, ?_⟩
      · rw [List.length_cons]
        congr 1
        omega
      · intro a ha
        rcases List.mem_append.1 ha with ha | ha
        · cases List.mem_singleton.1 ha
          exact hi
        · exact hevents a ha

/-- Without a zero byte, a bound behind the buffer makes the loop index outside of it. -/
theorem terminatorIndex_overrun (buffer : Span) (offset : Nat) {remaining i : Nat}
    (h : buffer.length < i + offset + remaining) (hle : i + offset ≤ buffer.length)
    (hzero : 0 ∉ buffer.bytes.drop (i + offset)) :
    (terminatorIndex buffer offset remaining i).result = .error .indexOutOfRange := by
  have hl : buffer.length = buffer.bytes.length := rfl
  induction remaining generalizing i with
  | zero => omega
  | succ remaining ih =>
    by_cases hi : i + offset < buffer.bytes.length
    · have hnext : i + 1 + offset = i + offset + 1 := by omega
      rw [List.drop_eq_getElem_cons hi, List.mem_cons, not_or] at hzero
      rw [terminatorIndex, index_of_lt hi, Traced.result_bind_of_ok _ rfl,
        if_neg fun hz => hzero.1 hz.symm]
      exact ih (by omega) (by omega) (by rw [hnext]; exact hzero.2)
    · rw [terminatorIndex, Span.index, if_neg (by omega), Traced.throw_bind]
      rfl

theorem take_length_takeWhile (bs : List UInt8) (p : UInt8 → Bool) (n : Nat) :
    bs.take ((bs.take n).takeWhile p).length = (bs.take n).takeWhile p := by
  have hfront := (List.takeWhile_prefix p).trans (List.take_prefix n bs)
  exact (List.prefix_iff_eq_take.1 hfront).symm

theorem readUTF8_spec (buffer : Span) :
    (readUTF8 buffer).result = .ok (utf8Decode (buffer.bytes.takeWhile (· ≠ 0))) ∧
      ∀ a ∈ (readUTF8 buffer).events, a.InBounds := by
  have hl : buffer.length = buffer.bytes.length := rfl
  obtain ⟨hindex, hevents⟩ :=
    terminatorIndex_spec buffer 0 (.inl (by omega : 0 + 0 + buffer.length ≤ buffer.length))
  have htake := take_length_takeWhile buffer.bytes (fun b => decide (b ≠ 0)) buffer.length
  have htext : buffer.bytes.take buffer.length = buffer.bytes := List.take_length
  simp only [Nat.zero_add, List.drop_zero, htext] at hindex htake
  have hle := (List.takeWhile_prefix (l := buffer.bytes) fun b => decide (b ≠ 0)).length_le
  rw [readUTF8, Traced.bind_of_ok _ hindex]
  dsimp only
  by_cases hall : (buffer.bytes.takeWhile fun b => decide (b ≠ 0)).length = buffer.length
  · rw [if_pos hall, ← htake, hall, htext]
    refine ⟨rfl, ?_⟩
    rw [Traced.events_pure, List.append_nil]
    exact hevents
  · rw [if_neg hall, Span.slice_of_le (by omega), Traced.bind_of_ok _ rfl, List.drop_zero, htake]
    refine ⟨rfl, ?_⟩
    intro a ha
    rcases List.mem_append.1 ha with ha | ha
    · exact hevents a ha
    · rw [Traced.events_pure, List.append_nil] at ha
      cases List.mem_singleton.1 ha
      simp only [Access.InBounds]
      omega

end BinaryBufferReader

namespace BinaryBufferWriter

/-- `Unsafe.WriteUnaligned(ref buffer[offset], value)`: only the first byte is bounds
checked. -/
def write [Layout α] (buffer : List UInt8) (offset : Nat) (value : α) : Codec (List UInt8) :=
  if offset < buffer.length then do
    Traced.emit ⟨offset, Layout.size α, buffer.length⟩
    return splice buffer offset (Layout.encode value)
  else
    throw .indexOutOfRange

variable [Layout α]

theorem write_append {a b c : List UInt8} (value : α) (ha : a.length = n)
    (hb : b.length = Layout.size α) (hs : 0 < Layout.size α) :
    write (a ++ (b ++ c)) n value = ⟨.ok (a ++ (Layout.encode value ++ c)),
      [⟨n, Layout.size α, (a ++ (b ++ c)).length⟩]⟩ := by
  have hlt : n < (a ++ (b ++ c)).length := by
    simp only [List.length_append]
    omega
  rw [write, if_pos hlt, splice_append _ _ _ _ ha (by rw [hb, Layout.length_encode])]
  rfl

end BinaryBufferWriter

end AcOpenServer
