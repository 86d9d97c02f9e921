import AcOpenServer.BinaryMemory.Typed

namespace AcOpenServer
open Library
set_option autoImplicit true

/-- A `MemoryStream` that is given its length by its contents. -/
@[ext]
structure MemoryStream where
  bytes : List UInt8
  position : Nat
  deriving DecidableEq, Repr

namespace MemoryStream

/-- Writing behind the end fills the gap with zeros. -/
def write (buffer : List UInt8) (s : MemoryStream) : MemoryStream where
  bytes :=
    s.bytes.take s.position ++ List.replicate (s.position - s.bytes.length) 0 ++ buffer ++
      s.bytes.drop (s.position + buffer.length)
  position := s.position + buffer.length

variable {s : MemoryStream}

theorem bytes_write (h : s.position ≤ s.bytes.length) (buffer : List UInt8) :
    (s.write buffer).bytes =
      s.bytes.take s.position ++ (buffer ++ s.bytes.drop (s.position + buffer.length)) := by
  rw [write, Nat.sub_eq_zero_of_le h, List.replicate_zero, List.append_nil, List.append_assoc]

theorem write_nil (h : s.position ≤ s.bytes.length) : s.write [] = s := by
  have hbytes : (s.write []).bytes = s.bytes := by
    rw [bytes_write h, List.nil_append, List.length_nil, Nat.add_zero, List.take_append_drop]
  exact congrArg (MemoryStream.mk · s.position) hbytes

theorem length_take_position (h : s.position ≤ s.bytes.length) :
    (s.bytes.take s.position).length = s.position := by
  rw [List.length_take]
  exact Nat.min_eq_left h

/-- The stream when it has been filled up with zeros as far as its position. -/
def extended (s : MemoryStream) : MemoryStream :=
  { s with bytes := s.bytes ++ List.replicate (s.position - s.bytes.length) 0 }

theorem position_extended_le (s : MemoryStream) :
    s.extended.position ≤ s.extended.bytes.length := by
  rw [extended, List.length_append, List.length_replicate]
  dsimp only
  omega

theorem write_extended (s : MemoryStream) (buffer : List UInt8) :
    s.extended.write buffer = s.write buffer := by
  apply MemoryStream.ext
  · rw [bytes_write s.position_extended_le, write, extended]
    by_cases h : s.position ≤ s.bytes.length
    · rw [Nat.sub_eq_zero_of_le h, List.replicate_zero, List.append_nil, List.append_nil,
        List.append_assoc]
    · have hlength : (s.bytes ++ List.replicate (s.position - s.bytes.length) (0 : UInt8)).length =
          s.position := by
        rw [List.length_append, List.length_replicate]
        omega
      dsimp only
      rw [List.take_of_length_le hlength.le, List.take_of_length_le (by omega),
        List.drop_eq_nil_of_le (by omega), List.drop_eq_nil_of_le (by omega), List.append_assoc,
        List.append_assoc, List.append_assoc]
  · rfl

theorem position_write_le (s : MemoryStream) (buffer : List UInt8) :
    (s.write buffer).position ≤ (s.write buffer).bytes.length := by
  have h := s.position_extended_le
  rw [← write_extended, bytes_write h, List.length_append, List.length_append,
    length_take_position h]
  have hposition : (s.extended.write buffer).position = s.extended.position + buffer.length := rfl
  omega

theorem write_append_of_le (h : s.position ≤ s.bytes.length) (a b : List UInt8) :
    (s.write a).write b = s.write (a ++ b) := by
  have hposition : (s.write a).position = (s.bytes.take s.position ++ a).length := by
    rw [List.length_append, length_take_position h]
    rfl
  apply MemoryStream.ext
  · rw [bytes_write (s.position_write_le a), hposition, bytes_write h, bytes_write h,
      ← List.append_assoc (s.bytes.take s.position) a, List.take_left, List.drop_append,
      List.drop_eq_nil_of_le (Nat.le_add_right _ _), Nat.add_sub_cancel_left, List.nil_append,
      List.drop_drop, List.length_append, Nat.add_assoc, List.append_assoc, List.append_assoc]
  · have hlength : (a ++ b).length = a.length + b.length := List.length_append
    exact (Nat.add_assoc _ _ _).trans (congrArg (s.position + ·) hlength.symm)

theorem write_append (s : MemoryStream) (a b : List UInt8) :
    (s.write a).write b = s.write (a ++ b) := by
  rw [← write_extended s a, write_append_of_le s.position_extended_le, write_extended]

theorem drop_write (s : MemoryStream) (buffer : List UInt8) :
    (s.write buffer).bytes.drop s.position =
      buffer ++ s.extended.bytes.drop (s.position + buffer.length) := by
  have h := s.position_extended_le
  have hposition : s.extended.position = s.position := rfl
  rw [← write_extended, bytes_write h]
  nth_rewrite 1 [← hposition, ← length_take_position h]
  rw [List.drop_left, hposition]

/-- Among the bytes there were, only those that are written over change. -/
theorem getElem?_write (bytes : List UInt8) {i : Nat} (hi : i < s.bytes.length) :
    (s.write bytes).bytes[i]? =
      if s.position ≤ i ∧ i < s.position + bytes.length then bytes[i - s.position]?
      else s.bytes[i]? := by
  by_cases hposition : s.position ≤ s.bytes.length
  · rw [bytes_write hposition, List.getElem?_append, length_take_position hposition,
      List.getElem?_append, List.getElem?_drop]
    by_cases hbefore : i < s.position
    · rw [if_pos hbefore, if_neg (by omega), List.getElem?_take_of_lt hbefore]
    · by_cases hover : i - s.position < bytes.length
      · rw [if_neg hbefore, if_pos hover, if_pos (by omega)]
      · have hindex : s.position + bytes.length + (i - s.position - bytes.length) = i := by omega
        rw [if_neg hbefore, if_neg hover, if_neg (by omega), hindex]
  · rw [if_neg (by omega), write]
    dsimp only
    rw [List.take_of_length_le (by omega), List.append_assoc, List.append_assoc,
      List.getElem?_append_left hi]

end MemoryStream

/-- The state of a `BinaryStreamReader` or a `BinaryStreamWriter` over a `MemoryStream`. -/
structure StreamCursor where
  stream : MemoryStream
  bigEndian : Bool
  deriving DecidableEq, Repr

abbrev BinaryStreamReader := StreamCursor

abbrev BinaryStreamWriter := StreamCursor

namespace StreamCursor

/-- Over a new stream that has these contents. -/
def new (bytes : List UInt8) (bigEndian : Bool) : StreamCursor where
  stream := ⟨bytes, 0⟩
  bigEndian

/-- The property `Position` of the stream. -/
def setPosition (value : Int) : EStateM Exn StreamCursor Unit :=
  if value < 0 ∨ 2 ^ 31 ≤ value then throw .argumentOutOfRange
  else modify fun c => { c with stream := { c.stream with position := value.toNat } }

def setValueEndianness [Layout α] (value : α) : EStateM Exn StreamCursor α := do
  if (← get).bigEndian then return reverseEndianness value else return value

end StreamCursor

namespace BinaryStreamReader

open StreamCursor

/-- The bytes `BinaryReader` takes from the stream for a value of this size. At the end of the
stream there are not enough of them. -/
def internalRead (size : Nat) : EStateM Exn BinaryStreamReader (List UInt8) := do
  let c ← get
  if c.stream.position + size ≤ c.stream.bytes.length then
    set { c with stream := { c.stream with position := c.stream.position + size } }
    return (c.stream.bytes.drop c.stream.position).take size
  else
    set { c with stream := { c.stream with position := c.stream.bytes.length } }
    throw .endOfStream

/-- The methods of `BinaryReader` for a type, which read in little-endian byte order. -/
def readLittleEndian (α : Type) [Layout α] : EStateM Exn BinaryStreamReader α := do
  return Layout.decode (← internalRead (Layout.size α))

def readEndian (α : Type) [Layout α] : EStateM Exn BinaryStreamReader α := do
  setValueEndianness (← readLittleEndian α)

/-- The methods for a single byte, which stay where they are at the end of the stream. -/
def internalReadByte (α : Type) [Layout α] : EStateM Exn BinaryStreamReader α := do
  let c ← get
  if c.stream.position < c.stream.bytes.length then
    set { c with stream := { c.stream with position := c.stream.position + 1 } }
    return Layout.decode ((c.stream.bytes.drop c.stream.position).take 1)
  else throw .endOfStream

def readSByte : EStateM Exn BinaryStreamReader Int8 := internalReadByte Int8
def readByte : EStateM Exn BinaryStreamReader UInt8 := internalReadByte UInt8
def readInt16 : EStateM Exn BinaryStreamReader Int16 := readEndian Int16
def readUInt16 : EStateM Exn BinaryStreamReader UInt16 := readEndian UInt16
def readInt32 : EStateM Exn BinaryStreamReader Int32 := readEndian Int32
def readUInt32 : EStateM Exn BinaryStreamReader UInt32 := readEndian UInt32
def readInt64 : EStateM Exn BinaryStreamReader Int64 := readEndian Int64
def readUInt64 : EStateM Exn BinaryStreamReader UInt64 := readEndian UInt64

def readSingle : EStateM Exn BinaryStreamReader Single := do return ⟨← readEndian UInt32⟩

def readDouble : EStateM Exn BinaryStreamReader Double := do return ⟨← readEndian UInt64⟩

/-- Two hexadecimal digits. -/
def hexByte (b : UInt8) : String :=
  String.ofList ([b.toNat / 16, b.toNat % 16].map fun d => (Nat.digitChar d).toUpper)

def readBoolean : EStateM Exn BinaryStreamReader Bool := do
  let value ← readByte
  if value = 0 then return false
  else if value = 1 then return true
  else throw (.invalidData s!"ReadBoolean encountered non-boolean value: 0x{hexByte value}")

end BinaryStreamReader

namespace BinaryStreamWriter

open StreamCursor

/-- The methods of `BinaryWriter` for a type, which write in little-endian byte order. -/
def writeLittleEndian [Layout α] (value : α) : EStateM Exn BinaryStreamWriter Unit :=
  modify fun c => { c with stream := c.stream.write (Layout.encode value) }

def writeEndian [Layout α] (value : α) : EStateM Exn BinaryStreamWriter Unit := do
  writeLittleEndian (← setValueEndianness value)

def writeSByte (value : Int8) : EStateM Exn BinaryStreamWriter Unit := writeLittleEndian value
def writeByte (value : UInt8) : EStateM Exn BinaryStreamWriter Unit := writeLittleEndian value
def writeInt16 (value : Int16) : EStateM Exn BinaryStreamWriter Unit := writeEndian value
def writeUInt16 (value : UInt16) : EStateM Exn BinaryStreamWriter Unit := writeEndian value
def writeInt32 (value : Int32) : EStateM Exn BinaryStreamWriter Unit := writeEndian value
def writeUInt32 (value : UInt32) : EStateM Exn BinaryStreamWriter Unit := writeEndian value
def writeInt64 (value : Int64) : EStateM Exn BinaryStreamWriter Unit := writeEndian value
def writeUInt64 (value : UInt64) : EStateM Exn BinaryStreamWriter Unit := writeEndian value
def writeSingle (value : Single) : EStateM Exn BinaryStreamWriter Unit := writeEndian value.bits
def writeDouble (value : Double) : EStateM Exn BinaryStreamWriter Unit := writeEndian value.bits

def writeBoolean (value : Bool) : EStateM Exn BinaryStreamWriter Unit :=
  writeLittleEndian (if value then 1 else 0 : UInt8)

/-- The loop of `WriteBytes`. -/
def writeBytes : List UInt8 → EStateM Exn BinaryStreamWriter Unit
  | [] => pure ()
  | value :: values => do
    writeByte value
    writeBytes values

end BinaryStreamWriter

end AcOpenServer
