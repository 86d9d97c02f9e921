import AcOpenServer.BinaryMemory.Cursor
import AcOpenServer.Library.Layout

namespace AcOpenServer
open Library
set_option autoImplicit true

structure Int128 where
  bits : BitVec 128
  deriving DecidableEq, Repr

structure UInt128 where
  bits : BitVec 128
  deriving DecidableEq, Repr

/-- The floating-point types are their bit patterns. -/
structure Half where
  bits : UInt16
  deriving DecidableEq, Repr

structure Single where
  bits : UInt32
  deriving DecidableEq, Repr

structure Double where
  bits : UInt64
  deriving DecidableEq, Repr

instance : Layout Int128 := Layout.ofEquiv ⟨Int128.bits, Int128.mk, fun _ => rfl, fun _ => rfl⟩

instance : Layout UInt128 := Layout.ofEquiv ⟨UInt128.bits, UInt128.mk, fun _ => rfl, fun _ => rfl⟩

instance : Layout Half := Layout.ofEquiv ⟨Half.bits, Half.mk, fun _ => rfl, fun _ => rfl⟩

instance : Layout Single := Layout.ofEquiv ⟨Single.bits, Single.mk, fun _ => rfl, fun _ => rfl⟩

instance : Layout Double := Layout.ofEquiv ⟨Double.bits, Double.mk, fun _ => rfl, fun _ => rfl⟩

structure Vector2 where
  x : Single
  y : Single
  deriving DecidableEq, Repr

structure Vector3 where
  x : Single
  y : Single
  z : Single
  deriving DecidableEq, Repr

structure Vector4 where
  x : Single
  y : Single
  z : Single
  w : Single
  deriving DecidableEq, Repr

structure Quaternion where
  x : Single
  y : Single
  z : Single
  w : Single
  deriving DecidableEq, Repr

def Vector2.fields : Vector2 ≃ Single × Single where
  toFun v := (v.x, v.y)
  invFun f := ⟨f.1, f.2⟩
  left_inv _ := rfl
  right_inv _ := rfl

def Vector3.fields : Vector3 ≃ Single × Single × Single where
  toFun v := (v.x, v.y, v.z)
  invFun f := ⟨f.1, f.2.1, f.2.2⟩
  left_inv _ := rfl
  right_inv _ := rfl

def Vector4.fields : Vector4 ≃ Single × Single × Single × Single where
  toFun v := (v.x, v.y, v.z, v.w)
  invFun f := ⟨f.1, f.2.1, f.2.2.1, f.2.2.2⟩
  left_inv _ := rfl
  right_inv _ := rfl

def Quaternion.fields : Quaternion ≃ Single × Single × Single × Single where
  toFun q := (q.x, q.y, q.z, q.w)
  invFun f := ⟨f.1, f.2.1, f.2.2.1, f.2.2.2⟩
  left_inv _ := rfl
  right_inv _ := rfl

instance : Layout Vector2 := Layout.ofEquiv Vector2.fields

instance : Layout Vector3 := Layout.ofEquiv Vector3.fields

instance : Layout Vector4 := Layout.ofEquiv Vector4.fields

instance : Layout Quaternion := Layout.ofEquiv Quaternion.fields

namespace BinaryMemoryWriter

open MemoryCursor

def write [Layout α] (value : α) : EStateM Exn BinaryMemoryWriter Unit :=
  writeValue (Layout.encode value)

/-- The byte order is that of a little-endian machine unless `BigEndian` is set. -/
def writeEndian [Layout α] (value : α) : EStateM Exn BinaryMemoryWriter Unit := do
  if (← get).bigEndian then write (reverseEndianness value) else write value

def writeSByte (value : Int8) : EStateM Exn BinaryMemoryWriter Unit := write value
def writeByte (value : UInt8) : EStateM Exn BinaryMemoryWriter Unit := write value
def writeInt16 (value : Int16) : EStateM Exn BinaryMemoryWriter Unit := writeEndian value
def writeUInt16 (value : UInt16) : EStateM Exn BinaryMemoryWriter Unit := writeEndian value
def writeInt32 (value : Int32) : EStateM Exn BinaryMemoryWriter Unit := writeEndian value
def writeUInt32 (value : UInt32) : EStateM Exn BinaryMemoryWriter Unit := writeEndian value
def writeInt64 (value : Int64) : EStateM Exn BinaryMemoryWriter Unit := writeEndian value
def writeUInt64 (value : UInt64) : EStateM Exn BinaryMemoryWriter Unit := writeEndian value
def writeInt128 (value : Int128) : EStateM Exn BinaryMemoryWriter Unit := writeEndian value
def writeUInt128 (value : UInt128) : EStateM Exn BinaryMemoryWriter Unit := writeEndian value
def writeHalf (value : Half) : EStateM Exn BinaryMemoryWriter Unit := writeEndian value.bits
def writeSingle (value : Single) : EStateM Exn BinaryMemoryWriter Unit := writeEndian value.bits
def writeDouble (value : Double) : EStateM Exn BinaryMemoryWriter Unit := writeEndian value.bits

def writeBoolean (value : Bool) : EStateM Exn BinaryMemoryWriter Unit :=
  write (if value then 1 else 0 : UInt8)

def writeVector2 (value : Vector2) : EStateM Exn BinaryMemoryWriter Unit := do
  if (← get).bigEndian then
    writeSingle value.x
    writeSingle value.y
  else write value

def writeVector3 (value : Vector3) : EStateM Exn BinaryMemoryWriter Unit := do
  if (← get).bigEndian then
    writeSingle value.x
    writeSingle value.y
    writeSingle value.z
  else write value

def writeVector4 (value : Vector4) : EStateM Exn BinaryMemoryWriter Unit := do
  if (← get).bigEndian then
    writeSingle value.x
    writeSingle value.y
    writeSingle value.z
    writeSingle value.w
  else write value

def writeQuaternion (value : Quaternion) : EStateM Exn BinaryMemoryWriter Unit := do
  if (← get).bigEndian then
    writeSingle value.x
    writeSingle value.y
    writeSingle value.z
    writeSingle value.w
  else write value

def writeArray [Layout α] (values : List α) : EStateM Exn BinaryMemoryWriter Unit :=
  each write values

def writeArrayEndian [Layout α] (values : List α) : EStateM Exn BinaryMemoryWriter Unit := do
  if (← get).bigEndian then each (fun value => write (reverseEndianness value)) values
  else each write values

def writeArrayConvertEndian [Layout α] [Layout β] (convert : α → β) (values : List α) :
    EStateM Exn BinaryMemoryWriter Unit := do
  if (← get).bigEndian then each (fun value => write (reverseEndianness (convert value))) values
  else each write values

def writeSBytes (values : List Int8) : EStateM Exn BinaryMemoryWriter Unit := writeArray values
def writeBytes (values : List UInt8) : EStateM Exn BinaryMemoryWriter Unit := writeArray values

def writeInt16s (values : List Int16) : EStateM Exn BinaryMemoryWriter Unit :=
  writeArrayEndian values

def writeUInt16s (values : List UInt16) : EStateM Exn BinaryMemoryWriter Unit :=
  writeArrayEndian values

def writeInt32s (values : List Int32) : EStateM Exn BinaryMemoryWriter Unit :=
  writeArrayEndian values

def writeUInt32s (values : List UInt32) : EStateM Exn BinaryMemoryWriter Unit :=
  writeArrayEndian values

def writeInt64s (values : List Int64) : EStateM Exn BinaryMemoryWriter Unit :=
  writeArrayEndian values

def writeUInt64s (values : List UInt64) : EStateM Exn BinaryMemoryWriter Unit :=
  writeArrayEndian values

def writeInt128s (values : List Int128) : EStateM Exn BinaryMemoryWriter Unit :=
  writeArrayEndian values

def writeUInt128s (values : List UInt128) : EStateM Exn BinaryMemoryWriter Unit :=
  writeArrayEndian values

def writeHalfs (values : List Half) : EStateM Exn BinaryMemoryWriter Unit :=
  writeArrayConvertEndian Half.bits values

def writeSingles (values : List Single) : EStateM Exn BinaryMemoryWriter Unit :=
  writeArrayConvertEndian Single.bits values

def writeDoubles (values : List Double) : EStateM Exn BinaryMemoryWriter Unit :=
  writeArrayConvertEndian Double.bits values

def writeBooleans (values : List Bool) : EStateM Exn BinaryMemoryWriter Unit :=
  each writeBoolean values

end BinaryMemoryWriter

namespace BinaryMemoryReader

open MemoryCursor

def read (α : Type) [Layout α] : EStateM Exn BinaryMemoryReader α := do
  return Layout.decode (← readValue (Layout.size α))

def readEndian (α : Type) [Layout α] : EStateM Exn BinaryMemoryReader α := do
  let value ← read α
  if (← get).bigEndian then return reverseEndianness value else return value

def readEndianConvert (α : Type) [Layout α] [Layout β] (convert : α → β) :
    EStateM Exn BinaryMemoryReader β := do
  if (← get).bigEndian then return convert (reverseEndianness (← read α)) else read β

def readSByte : EStateM Exn BinaryMemoryReader Int8 := read Int8
def readByte : EStateM Exn BinaryMemoryReader UInt8 := read UInt8
def readInt16 : EStateM Exn BinaryMemoryReader Int16 := readEndian Int16
def readUInt16 : EStateM Exn BinaryMemoryReader UInt16 := readEndian UInt16
def readInt32 : EStateM Exn BinaryMemoryReader Int32 := readEndian Int32
def readUInt32 : EStateM Exn BinaryMemoryReader UInt32 := readEndian UInt32
def readInt64 : EStateM Exn BinaryMemoryReader Int64 := readEndian Int64
def readUInt64 : EStateM Exn BinaryMemoryReader UInt64 := readEndian UInt64
def readInt128 : EStateM Exn BinaryMemoryReader Int128 := readEndian Int128
def readUInt128 : EStateM Exn BinaryMemoryReader UInt128 := readEndian UInt128
def readHalf : EStateM Exn BinaryMemoryReader Half := readEndianConvert UInt16 Half.mk
def readSingle : EStateM Exn BinaryMemoryReader Single := readEndianConvert UInt32 Single.mk
def readDouble : EStateM Exn BinaryMemoryReader Double := readEndianConvert UInt64 Double.mk

def readBoolean : EStateM Exn BinaryMemoryReader Bool := do
  let value ← readByte
  if value = 0 then return false
  else if value = 1 then return true
  else throw (.invalidData s!"ReadBoolean read invalid Boolean value: {value}")

/-- A component of a vector in the opposite byte order. -/
def readComponent : EStateM Exn BinaryMemoryReader Single := do
  return ⟨reverseEndianness (← read UInt32)⟩

def readVector2 : EStateM Exn BinaryMemoryReader Vector2 := do
  if (← get).bigEndian then
    let x ← readComponent
    let y ← readComponent
    return ⟨x, y⟩
  else read Vector2

def readVector3 : EStateM Exn BinaryMemoryReader Vector3 := do
  if (← get).bigEndian then
    let x ← readComponent
    let y ← readComponent
    let z ← readComponent
    return ⟨x, y, z⟩
  else read Vector3

def readVector4 : EStateM Exn BinaryMemoryReader Vector4 := do
  if (← get).bigEndian then
    let x ← readComponent
    let y ← readComponent
    let z ← readComponent
    let w ← readComponent
    return ⟨x, y, z, w⟩
  else read Vector4

def readQuaternion : EStateM Exn BinaryMemoryReader Quaternion := do
  if (← get).bigEndian then
    let x ← readComponent
    let y ← readComponent
    let z ← readComponent
    let w ← readComponent
    return ⟨x, y, z, w⟩
  else read Quaternion

/-- The loops that fill an array one value after another. -/
def fillArray (read : EStateM Exn BinaryMemoryReader α) :
    Nat → EStateM Exn BinaryMemoryReader (List α)
  | 0 => return []
  | count + 1 => do
    let value ← read
    return value :: (← fillArray read count)

/-- A new array of this length, filled by a loop. It is taken to be there for every length, also for
one above `maxArrayLength`. -/
def readEach (read : EStateM Exn BinaryMemoryReader α) (count : Int) :
    EStateM Exn BinaryMemoryReader (List α) :=
  if count < 0 then throw .overflow else fillArray read count.toNat

/-- `ReadArray<T>(count)`, a copy of the span the memory is cast to, which is taken to fit an
array. -/
def readArray (α : Type) [Layout α] (count : Int) : EStateM Exn BinaryMemoryReader (List α) := do
  let bytes ← readSpan (Layout.size α) count
  return Layout.decodeAll α (bytes.length / Layout.size α) bytes

def readArrayEndian (α : Type) [Layout α] (count : Int) :
    EStateM Exn BinaryMemoryReader (List α) := do
  if (← get).bigEndian then readEach (do return reverseEndianness (← read α)) count
  else readArray α count

def readArrayEndianConvert (α : Type) [Layout α] [Layout β] (convert : α → β) (count : Int) :
    EStateM Exn BinaryMemoryReader (List β) := do
  if (← get).bigEndian then readEach (do return convert (reverseEndianness (← read α))) count
  else readArray β count

def readSBytes (count : Int) : EStateM Exn BinaryMemoryReader (List Int8) := readArray Int8 count

def readBytes (count : Int) : EStateM Exn BinaryMemoryReader (List UInt8) :=
  readArray UInt8 count

def readInt16s (count : Int) : EStateM Exn BinaryMemoryReader (List Int16) :=
  readArrayEndian Int16 count

def readUInt16s (count : Int) : EStateM Exn BinaryMemoryReader (List UInt16) :=
  readArrayEndian UInt16 count

def readInt32s (count : Int) : EStateM Exn BinaryMemoryReader (List Int32) :=
  readArrayEndian Int32 count

def readUInt32s (count : Int) : EStateM Exn BinaryMemoryReader (List UInt32) :=
  readArrayEndian UInt32 count

def readInt64s (count : Int) : EStateM Exn BinaryMemoryReader (List Int64) :=
  readArrayEndian Int64 count

def readUInt64s (count : Int) : EStateM Exn BinaryMemoryReader (List UInt64) :=
  readArrayEndian UInt64 count

def readInt128s (count : Int) : EStateM Exn BinaryMemoryReader (List Int128) :=
  readArrayEndian Int128 count

def readUInt128s (count : Int) : EStateM Exn BinaryMemoryReader (List UInt128) :=
  readArrayEndian UInt128 count

def readHalfs (count : Int) : EStateM Exn BinaryMemoryReader (List Half) :=
  readArrayEndianConvert UInt16 Half.mk count

def readSingles (count : Int) : EStateM Exn BinaryMemoryReader (List Single) :=
  readArrayEndianConvert UInt32 Single.mk count

def readDoubles (count : Int) : EStateM Exn BinaryMemoryReader (List Double) :=
  readArrayEndianConvert UInt64 Double.mk count

def readBooleans (count : Int) : EStateM Exn BinaryMemoryReader (List Bool) :=
  readEach readBoolean count

end BinaryMemoryReader

/-- The types an array can have. -/
inductive ElementType where
  | sbyte
  | byte
  | int16
  | uint16
  | int32
  | uint32
  | int64
  | uint64
  | int128
  | uint128
  | half
  | single
  | double
  | boolean
  deriving DecidableEq, Repr

def ElementType.Value : ElementType → Type
  | sbyte => Int8
  | byte => UInt8
  | int16 => Int16
  | uint16 => UInt16
  | int32 => Int32
  | uint32 => UInt32
  | int64 => Int64
  | uint64 => UInt64
  | int128 => Int128
  | uint128 => UInt128
  | half => Half
  | single => Single
  | double => Double
  | boolean => Bool

namespace BinaryMemoryWriter

/-- The method that writes a single value. -/
def writeElement : (type : ElementType) → type.Value → EStateM Exn BinaryMemoryWriter Unit
  | .sbyte => writeSByte
  | .byte => writeByte
  | .int16 => writeInt16
  | .uint16 => writeUInt16
  | .int32 => writeInt32
  | .uint32 => writeUInt32
  | .int64 => writeInt64
  | .uint64 => writeUInt64
  | .int128 => writeInt128
  | .uint128 => writeUInt128
  | .half => writeHalf
  | .single => writeSingle
  | .double => writeDouble
  | .boolean => writeBoolean

/-- The method that writes an array. -/
def writeElements : (type : ElementType) → List type.Value → EStateM Exn BinaryMemoryWriter Unit
  | .sbyte => writeSBytes
  | .byte => writeBytes
  | .int16 => writeInt16s
  | .uint16 => writeUInt16s
  | .int32 => writeInt32s
  | .uint32 => writeUInt32s
  | .int64 => writeInt64s
  | .uint64 => writeUInt64s
  | .int128 => writeInt128s
  | .uint128 => writeUInt128s
  | .half => writeHalfs
  | .single => writeSingles
  | .double => writeDoubles
  | .boolean => writeBooleans

end BinaryMemoryWriter

namespace BinaryMemoryReader

def readElement : (type : ElementType) → EStateM Exn BinaryMemoryReader type.Value
  | .sbyte => readSByte
  | .byte => readByte
  | .int16 => readInt16
  | .uint16 => readUInt16
  | .int32 => readInt32
  | .uint32 => readUInt32
  | .int64 => readInt64
  | .uint64 => readUInt64
  | .int128 => readInt128
  | .uint128 => readUInt128
  | .half => readHalf
  | .single => readSingle
  | .double => readDouble
  | .boolean => readBoolean

def readElements : (type : ElementType) → Int → EStateM Exn BinaryMemoryReader (List type.Value)
  | .sbyte => readSBytes
  | .byte => readBytes
  | .int16 => readInt16s
  | .uint16 => readUInt16s
  | .int32 => readInt32s
  | .uint32 => readUInt32s
  | .int64 => readInt64s
  | .uint64 => readUInt64s
  | .int128 => readInt128s
  | .uint128 => readUInt128s
  | .half => readHalfs
  | .single => readSingles
  | .double => readDoubles
  | .boolean => readBooleans

end BinaryMemoryReader

/-- A value that is written by one call, and what is needed to read it back. -/
inductive TypedValue where
  | element (type : ElementType) (value : type.Value)
  | vector2 (value : Vector2)
  | vector3 (value : Vector3)
  | vector4 (value : Vector4)
  | quaternion (value : Quaternion)
  | array (type : ElementType) (values : List type.Value)

inductive ValueKind where
  | element (type : ElementType)
  | vector2
  | vector3
  | vector4
  | quaternion
  | array (type : ElementType) (count : Nat)

namespace TypedValue

open BinaryMemoryReader BinaryMemoryWriter

def kind : TypedValue → ValueKind
  | element type _ => .element type
  | vector2 _ => .vector2
  | vector3 _ => .vector3
  | vector4 _ => .vector4
  | quaternion _ => .quaternion
  | array type values => .array type values.length

def write : TypedValue → EStateM Exn BinaryMemoryWriter Unit
  | element type value => writeElement type value
  | vector2 value => writeVector2 value
  | vector3 value => writeVector3 value
  | vector4 value => writeVector4 value
  | quaternion value => writeQuaternion value
  | array type values => writeElements type values

def read : ValueKind → EStateM Exn BinaryMemoryReader TypedValue
  | .element type => do return element type (← readElement type)
  | .vector2 => do return vector2 (← readVector2)
  | .vector3 => do return vector3 (← readVector3)
  | .vector4 => do return vector4 (← readVector4)
  | .quaternion => do return quaternion (← readQuaternion)
  | .array type count => do return array type (← readElements type count)

end TypedValue

/-- Set `BigEndian`, then make the call. -/
def withBigEndian (bigEndian : Bool) (m : EStateM Exn MemoryCursor α) :
    EStateM Exn MemoryCursor α := do
  modify fun c => { c with bigEndian }
  m

def writeAll : List (Bool × TypedValue) → EStateM Exn BinaryMemoryWriter Unit
  | [] => pure ()
  | (bigEndian, value) :: rest => do
    withBigEndian bigEndian value.write
    writeAll rest

def readAll : List (Bool × ValueKind) → EStateM Exn BinaryMemoryReader (List TypedValue)
  | [] => return []
  | (bigEndian, kind) :: rest => do
    let value ← withBigEndian bigEndian (TypedValue.read kind)
    return value :: (← readAll rest)

end AcOpenServer
