import AcOpenServer.Library.Layout
import AcOpenServer.Library.Machine

namespace AcOpenServer
open Library
set_option autoImplicit true

/-- The exceptions the modelled code can throw. The repository's own exceptions keep their
message; `svfwMessageFrom` also keeps the exception its message quotes. -/
inductive Exn where
  | indexOutOfRange
  | argument
  | argumentOutOfRange
  | divideByZero
  | overflow
  | outOfMemory
  | format
  | invalidOperation
  | notSupported (message : String)
  | objectDisposed
  | io
  | openSsl
  | exception (message : String)
  | svfwPacket (message : String)
  | svfwMessage (message : String)
  | svfwMessageFrom (message : String) (inner : Exn)
  | fsdpReliable (message : String)
  | invalidData (message : String)
  | endOfStream
  | ticketParse (message : String)
  | cwcCipher (message : String)
  | cwc (message : String)
  deriving DecidableEq, Repr

/-- A string of .NET, as its UTF-16 code units. -/
abbrev Utf16 := List UInt16

/-- A string literal whose characters are ASCII. -/
def ascii (s : String) : Utf16 := s.toList.map fun c => UInt16.ofNat c.toNat

/-- The `int` an unchecked computation wraps to. -/
def wrap32 (n : Int) : Int := (n + 2 ^ 31) % 2 ^ 32 - 2 ^ 31

/-- The `long` an unchecked computation wraps to. -/
def wrap64 (n : Int) : Int := (n + 2 ^ 63) % 2 ^ 64 - 2 ^ 63

theorem wrap32_of_range (h : -2 ^ 31 ≤ n) (h' : n < 2 ^ 31) : wrap32 n = n := by
  unfold wrap32
  omega

theorem wrap64_of_range (h : -2 ^ 63 ≤ n) (h' : n < 2 ^ 63) : wrap64 n = n := by
  unfold wrap64
  omega

/-- A byte string of a fixed length. -/
abbrev Block (n : Nat) := { bs : List UInt8 // bs.length = n }

/-- A byte array or a span, with the memory that lies behind it. -/
structure Span where
  bytes : List UInt8
  beyond : Nat → UInt8

/-- One access to a buffer of `length` bytes. -/
structure Access where
  offset : Nat
  size : Nat
  length : Nat
  deriving DecidableEq, Repr

def Access.InBounds (a : Access) : Prop := a.offset + a.size ≤ a.length

/-- A computation over buffers: it may throw, and it leaves a trace of its accesses. -/
abbrev Codec := Traced Access Exn

namespace Span

def length (s : Span) : Nat := s.bytes.length

/-- The byte of memory at an index counted from the start of the span. -/
def byteAt (s : Span) (i : Nat) : UInt8 := s.bytes[i]?.getD (s.beyond (i - s.length))

/-- The bytes of memory an unchecked access at `offset` touches. -/
def window (s : Span) (offset size : Nat) : List UInt8 :=
  (List.range size).map fun i => s.byteAt (offset + i)

@[simp] theorem length_window (s : Span) (offset size : Nat) :
    (s.window offset size).length = size := by
  simp only [window, List.length_map, List.length_range]

theorem window_of_le {s : Span} (h : offset + size ≤ s.length) :
    s.window offset size = (s.bytes.drop offset).take size := by
  have hl : s.length = s.bytes.length := rfl
  apply List.ext_getElem
  · rw [length_window, List.length_take, List.length_drop]
    omega
  · intro i h₁ h₂
    rw [length_window] at h₁
    have hi : offset + i < s.bytes.length := by omega
    simp only [window, Span.byteAt, List.getElem_map, List.getElem_range, List.getElem_take,
      List.getElem_drop, List.getElem?_eq_getElem hi, Option.getD_some]

/-- `s[i]`, which is bounds checked. -/
def index (s : Span) (i : Nat) : Codec UInt8 :=
  if i < s.length then do
    Traced.emit ⟨i, 1, s.length⟩
    return s.byteAt i
  else
    throw .indexOutOfRange

/-- `Span.Slice`, which is bounds checked. -/
def slice (s : Span) (offset size : Nat) : Codec (List UInt8) :=
  if offset + size ≤ s.length then do
    Traced.emit ⟨offset, size, s.length⟩
    return (s.bytes.drop offset).take size
  else
    throw .argumentOutOfRange

/-- The array `s[start..]`. -/
def sliceFrom (s : Span) (start : Nat) : Codec (List UInt8) := s.slice start (s.length - start)

theorem slice_of_le {s : Span} (h : offset + size ≤ s.length) :
    s.slice offset size =
      ⟨.ok ((s.bytes.drop offset).take size), [⟨offset, size, s.length⟩]⟩ := if_pos h

theorem slice_of_lt {s : Span} (h : s.length < offset + size) :
    s.slice offset size = throw .argumentOutOfRange := if_neg (by omega)

theorem sliceFrom_of_le {s : Span} (h : start ≤ s.length) :
    s.sliceFrom start =
      ⟨.ok (s.bytes.drop start), [⟨start, s.length - start, s.length⟩]⟩ := by
  have hlen : (s.bytes.drop start).length = s.length - start := List.length_drop
  rw [sliceFrom, slice_of_le (by omega), ← hlen, List.take_length]

end Span

/-- The longest array of bytes there can be. -/
def maxArrayLength : Nat := 0x7FFFFFC7

/-- `new byte[n]`; a 32-bit size that has overflowed is negative. -/
def newArray (n : Nat) : Codec (List UInt8) :=
  if n ≤ maxArrayLength then return List.replicate n 0
  else throw (if n < 2 ^ 31 then .outOfMemory else .overflow)

theorem newArray_of_le (h : n ≤ maxArrayLength) : newArray n = pure (List.replicate n 0) :=
  if_pos h

theorem newArray_of_lt (h : maxArrayLength < n) : ∃ e, newArray n = throw e :=
  ⟨_, if_neg (Nat.not_le_of_lt h)⟩

/-- The array after `bs` has been written at `offset`. Bytes past the end of the array go to
the memory behind it. -/
def splice (buffer : List UInt8) (offset : Nat) (bs : List UInt8) : List UInt8 :=
  buffer.take offset ++ bs.take (buffer.length - offset) ++ buffer.drop (offset + bs.length)

theorem splice_append (a b c d : List UInt8) (ha : a.length = n) (hb : b.length = d.length) :
    splice (a ++ (b ++ c)) n d = a ++ (d ++ c) := by
  subst ha
  have htake : d.take (b.length + c.length) = d := List.take_of_length_le (by omega)
  have hdrop : (a ++ (b ++ c)).drop (a.length + d.length) = c := by
    rw [← List.append_assoc, ← hb, ← List.length_append, List.drop_left]
  simp only [splice, List.take_left, List.length_append, Nat.add_sub_cancel_left, htake, hdrop,
    List.append_assoc]

/-- `Array.Copy(source, sourceIndex, destination, destinationIndex, length)`, returning the
new contents of the destination. -/
def arrayCopy (source : List UInt8) (sourceIndex : Nat) (destination : List UInt8)
    (destinationIndex length : Nat) : Codec (List UInt8) :=
  if sourceIndex + length ≤ source.length ∧ destinationIndex + length ≤ destination.length then
    return splice destination destinationIndex ((source.drop sourceIndex).take length)
  else
    throw .argument

theorem arrayCopy_of_le (h : sourceIndex + length ≤ source.length)
    (h' : destinationIndex + length ≤ destination.length) :
    arrayCopy source sourceIndex destination destinationIndex length =
      pure (splice destination destinationIndex ((source.drop sourceIndex).take length)) :=
  if_pos ⟨h, h'⟩

theorem arrayCopy_of_short (h : source.length < sourceIndex + length) :
    arrayCopy source sourceIndex destination destinationIndex length = throw .argument :=
  if_neg (by omega)

theorem arrayCopy_append {a b c : List UInt8} (d : List UInt8) (ha : a.length = n)
    (hb : b.length = d.length) :
    arrayCopy d 0 (a ++ (b ++ c)) n d.length = pure (a ++ (d ++ c)) := by
  rw [arrayCopy_of_le (by omega) (by simp only [List.length_append]; omega), List.drop_zero,
    List.take_length, splice_append _ _ _ _ ha hb]

theorem arrayCopy_read {source destination : List UInt8} (h : offset + n ≤ source.length)
    (hd : destination.length = n) :
    arrayCopy source offset destination 0 n = pure ((source.drop offset).take n) := by
  have hlen : ((source.drop offset).take n).length = n := by
    rw [List.length_take, List.length_drop]
    omega
  have hrest : destination.drop (0 + ((source.drop offset).take n).length) = [] :=
    List.drop_of_length_le (by omega)
  rw [arrayCopy_of_le h (by omega), splice, hrest, List.take_zero, List.nil_append,
    List.take_of_length_le (by omega), List.append_nil]

theorem arrayCopy_whole {source destination : List UInt8}
    (h : destination.length = source.length) :
    arrayCopy source 0 destination 0 source.length = pure source := by
  rw [arrayCopy_read (by omega) h, List.drop_zero, List.take_length]

end AcOpenServer
