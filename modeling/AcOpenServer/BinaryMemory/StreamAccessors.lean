import AcOpenServer.BinaryMemory.MemoryAccessors

namespace AcOpenServer
open Library
set_option autoImplicit true

namespace BinaryStreamReader

open StreamCursor

/-- `Peek`, given what to read. -/
def peekWith (read : EStateM Exn BinaryStreamReader α) : EStateM Exn BinaryStreamReader α := do
  let startPosition := (← get).stream.position
  let value ← read
  setPosition startPosition
  return value

/-- `Get`, given what to read. -/
def getWith (read : EStateM Exn BinaryStreamReader α) (position : Int) :
    EStateM Exn BinaryStreamReader α := do
  let oldpos := (← get).stream.position
  setPosition position
  let value ← read
  setPosition oldpos
  return value

def readHalf : EStateM Exn BinaryStreamReader Half := do return ⟨← readEndian UInt16⟩

/-- `GetInt32` reads an `Int16`. -/
def getScalar : (type : ScalarType) → Int → EStateM Exn BinaryStreamReader type.element.Value
  | .sbyte => getWith readSByte
  | .byte => getWith readByte
  | .int16 => getWith readInt16
  | .uint16 => getWith readUInt16
  | .int32 => fun position => do return (← getWith readInt16 position).toInt32
  | .uint32 => getWith readUInt32
  | .int64 => getWith readInt64
  | .uint64 => getWith readUInt64
  | .single => getWith readSingle
  | .double => getWith readDouble
  | .boolean => getWith readBoolean

def peekScalar : (type : ScalarType) → EStateM Exn BinaryStreamReader type.element.Value
  | .sbyte => peekWith readSByte
  | .byte => peekWith readByte
  | .int16 => peekWith readInt16
  | .uint16 => peekWith readUInt16
  | .int32 => peekWith readInt32
  | .uint32 => peekWith readUInt32
  | .int64 => peekWith readInt64
  | .uint64 => peekWith readUInt64
  | .single => peekWith readSingle
  | .double => peekWith readDouble
  | .boolean => peekWith readBoolean

def getHalf : Int → EStateM Exn BinaryStreamReader Half := getWith readHalf

def peekHalf : EStateM Exn BinaryStreamReader Half := peekWith readHalf

def readVector2 : EStateM Exn BinaryStreamReader Vector2 := do
  let x ← readSingle
  let y ← readSingle
  return ⟨x, y⟩

def readVector3 : EStateM Exn BinaryStreamReader Vector3 := do
  let x ← readSingle
  let y ← readSingle
  let z ← readSingle
  return ⟨x, y, z⟩

def readVector4 : EStateM Exn BinaryStreamReader Vector4 := do
  let x ← readSingle
  let y ← readSingle
  let z ← readSingle
  let w ← readSingle
  return ⟨x, y, z, w⟩

def readQuaternion : EStateM Exn BinaryStreamReader Quaternion := do
  let x ← readSingle
  let y ← readSingle
  let z ← readSingle
  let w ← readSingle
  return ⟨x, y, z, w⟩

def readVector : (type : VectorType) → EStateM Exn BinaryStreamReader type.Value
  | .vector2 => readVector2
  | .vector3 => readVector3
  | .vector4 => readVector4
  | .quaternion => readQuaternion

def getVector : (type : VectorType) → Int → EStateM Exn BinaryStreamReader type.Value
  | .vector2 => getWith readVector2
  | .vector3 => getWith readVector3
  | .vector4 => getWith readVector4
  | .quaternion => getWith readQuaternion

def peekVector : (type : VectorType) → EStateM Exn BinaryStreamReader type.Value
  | .vector2 => peekWith readVector2
  | .vector3 => peekWith readVector3
  | .vector4 => peekWith readVector4
  | .quaternion => peekWith readQuaternion

def readRawColor3 : EStateM Exn BinaryStreamReader (List UInt8) := readBytes 3

def readColorRGB : EStateM Exn BinaryStreamReader Color := do
  let r ← readByte
  let g ← readByte
  let b ← readByte
  return ⟨255, r, g, b⟩

def readColorBGR : EStateM Exn BinaryStreamReader Color := do
  let bytes ← readBytes 3
  return ⟨255, byteOf bytes 2, byteOf bytes 1, byteOf bytes 0⟩

def readRawColor4 : EStateM Exn BinaryStreamReader (List UInt8) := readBytes 4

def readColorRGBA : EStateM Exn BinaryStreamReader Color := do
  let bytes ← readBytes 4
  return ⟨byteOf bytes 3, byteOf bytes 0, byteOf bytes 1, byteOf bytes 2⟩

def readColorBGRA : EStateM Exn BinaryStreamReader Color := do
  let bytes ← readBytes 4
  return ⟨byteOf bytes 3, byteOf bytes 2, byteOf bytes 1, byteOf bytes 0⟩

def readColorARGB : EStateM Exn BinaryStreamReader Color := do
  let a ← readByte
  let r ← readByte
  let g ← readByte
  let b ← readByte
  return ⟨a, r, g, b⟩

def readColorABGR : EStateM Exn BinaryStreamReader Color := do
  let bytes ← readBytes 4
  return ⟨byteOf bytes 0, byteOf bytes 3, byteOf bytes 2, byteOf bytes 1⟩

def readColor : (type : ColorType) → EStateM Exn BinaryStreamReader type.Value
  | .color3 => readRawColor3
  | .rgb => readColorRGB
  | .bgr => readColorBGR
  | .color4 => readRawColor4
  | .rgba => readColorRGBA
  | .bgra => readColorBGRA
  | .argb => readColorARGB
  | .abgr => readColorABGR

def getColor : (type : ColorType) → Int → EStateM Exn BinaryStreamReader type.Value
  | .color3 => getWith readRawColor3
  | .rgb => getWith readColorRGB
  | .bgr => getWith readColorBGR
  | .color4 => getWith readRawColor4
  | .rgba => getWith readColorRGBA
  | .bgra => getWith readColorBGRA
  | .argb => getWith readColorARGB
  | .abgr => getWith readColorABGR

def peekColor : (type : ColorType) → EStateM Exn BinaryStreamReader type.Value
  | .color3 => peekWith readRawColor3
  | .rgb => peekWith readColorRGB
  | .bgr => peekWith readColorBGR
  | .color4 => peekWith readRawColor4
  | .rgba => peekWith readColorRGBA
  | .bgra => peekWith readColorBGRA
  | .argb => peekWith readColorARGB
  | .abgr => peekWith readColorABGR

section
variable (native : AccessNative)

def read32BitTerminatedStringBytes : EStateM Exn BinaryStreamReader (List UInt8) := do
  readTerminated (read32BitCharacter readByte) ((← get).stream.bytes.length + 1)

def readEucJP : EStateM Exn BinaryStreamReader Utf16 := do
  return native.eucJP.getString (← read8BitTerminatedStringBytes)

def readEucCN : EStateM Exn BinaryStreamReader Utf16 := do
  return native.eucCN.getString (← read8BitTerminatedStringBytes)

def readEucKR : EStateM Exn BinaryStreamReader Utf16 := do
  return native.eucKR.getString (← read8BitTerminatedStringBytes)

def readUTF16LittleEndian : EStateM Exn BinaryStreamReader Utf16 := do
  return native.utf16LE.getString (← read16BitTerminatedStringBytes)

def readUTF16BigEndian : EStateM Exn BinaryStreamReader Utf16 := do
  return native.utf16BE.getString (← read16BitTerminatedStringBytes)

def readUTF32 : EStateM Exn BinaryStreamReader Utf16 := do
  if (← get).bigEndian then
    return native.utf32BE.getString (← read32BitTerminatedStringBytes)
  else return native.utf32LE.getString (← read32BitTerminatedStringBytes)

def readUTF32LittleEndian : EStateM Exn BinaryStreamReader Utf16 := do
  return native.utf32LE.getString (← read32BitTerminatedStringBytes)

def readUTF32BigEndian : EStateM Exn BinaryStreamReader Utf16 := do
  return native.utf32BE.getString (← read32BitTerminatedStringBytes)

def readText : TextType → EStateM Exn BinaryStreamReader Utf16
  | .utf8 => readUTF8 native.toTextNative
  | .ascii => readASCII native.toTextNative
  | .shiftJIS => readShiftJIS native.toTextNative
  | .eucJP => readEucJP native
  | .eucCN => readEucCN native
  | .eucKR => readEucKR native
  | .utf16 => readUTF16 native.toTextNative
  | .utf16LittleEndian => readUTF16LittleEndian native
  | .utf16BigEndian => readUTF16BigEndian native
  | .utf32 => readUTF32 native
  | .utf32LittleEndian => readUTF32LittleEndian native
  | .utf32BigEndian => readUTF32BigEndian native

def getText : TextType → Int → EStateM Exn BinaryStreamReader Utf16
  | .utf8 => getWith (readUTF8 native.toTextNative)
  | .ascii => getWith (readASCII native.toTextNative)
  | .shiftJIS => getWith (readShiftJIS native.toTextNative)
  | .eucJP => getWith (readEucJP native)
  | .eucCN => getWith (readEucCN native)
  | .eucKR => getWith (readEucKR native)
  | .utf16 => getWith (readUTF16 native.toTextNative)
  | .utf16LittleEndian => getWith (readUTF16LittleEndian native)
  | .utf16BigEndian => getWith (readUTF16BigEndian native)
  | .utf32 => getWith (readUTF32 native)
  | .utf32LittleEndian => getWith (readUTF32LittleEndian native)
  | .utf32BigEndian => getWith (readUTF32BigEndian native)

def peekText : TextType → EStateM Exn BinaryStreamReader Utf16
  | .utf8 => peekWith (readUTF8 native.toTextNative)
  | .ascii => peekWith (readASCII native.toTextNative)
  | .shiftJIS => peekWith (readShiftJIS native.toTextNative)
  | .eucJP => peekWith (readEucJP native)
  | .eucCN => peekWith (readEucCN native)
  | .eucKR => peekWith (readEucKR native)
  | .utf16 => peekWith (readUTF16 native.toTextNative)
  | .utf16LittleEndian => peekWith (readUTF16LittleEndian native)
  | .utf16BigEndian => peekWith (readUTF16BigEndian native)
  | .utf32 => peekWith (readUTF32 native)
  | .utf32LittleEndian => peekWith (readUTF32LittleEndian native)
  | .utf32BigEndian => peekWith (readUTF32BigEndian native)

variable (length : Int)

def readEucJPFixed : EStateM Exn BinaryStreamReader Utf16 :=
  readFixedTerminatedString native.eucJP length

def readEucCNFixed : EStateM Exn BinaryStreamReader Utf16 :=
  readFixedTerminatedString native.eucCN length

def readEucKRFixed : EStateM Exn BinaryStreamReader Utf16 :=
  readFixedTerminatedString native.eucKR length

def readTextFixed : TextType → Int → EStateM Exn BinaryStreamReader Utf16
  | .utf8 => readUTF8Fixed native.toFieldNative
  | .ascii => readASCIIFixed native.toFieldNative
  | .shiftJIS => readShiftJISFixed native.toFieldNative
  | .eucJP => readEucJPFixed native
  | .eucCN => readEucCNFixed native
  | .eucKR => readEucKRFixed native
  | .utf16 => readUTF16Fixed native.toFieldNative
  | .utf16LittleEndian => readUTF16LittleEndianFixed native.toFieldNative
  | .utf16BigEndian => readUTF16BigEndianFixed native.toFieldNative
  | .utf32 => readUTF32Fixed native.toFieldNative
  | .utf32LittleEndian => readUTF32LittleEndianFixed native.toFieldNative
  | .utf32BigEndian => readUTF32BigEndianFixed native.toFieldNative

/-- The overloads of `getText` that are given a length. -/
def getTextFixed (type : TextType) (position length : Int) : EStateM Exn BinaryStreamReader Utf16 :=
  match type with
  | .utf8 => getWith (readUTF8Fixed native.toFieldNative length) position
  | .ascii => getWith (readASCIIFixed native.toFieldNative length) position
  | .shiftJIS => getWith (readShiftJISFixed native.toFieldNative length) position
  | .eucJP => getWith (readEucJPFixed native length) position
  | .eucCN => getWith (readEucCNFixed native length) position
  | .eucKR => getWith (readEucKRFixed native length) position
  | .utf16 => getWith (readUTF16Fixed native.toFieldNative length) position
  | .utf16LittleEndian => getWith (readUTF16LittleEndianFixed native.toFieldNative length) position
  | .utf16BigEndian => getWith (readUTF16BigEndianFixed native.toFieldNative length) position
  | .utf32 => getWith (readUTF32Fixed native.toFieldNative length) position
  | .utf32LittleEndian => getWith (readUTF32LittleEndianFixed native.toFieldNative length) position
  | .utf32BigEndian => getWith (readUTF32BigEndianFixed native.toFieldNative length) position

def peekTextFixed (type : TextType) (length : Int) : EStateM Exn BinaryStreamReader Utf16 :=
  match type with
  | .utf8 => peekWith (readUTF8Fixed native.toFieldNative length)
  | .ascii => peekWith (readASCIIFixed native.toFieldNative length)
  | .shiftJIS => peekWith (readShiftJISFixed native.toFieldNative length)
  | .eucJP => peekWith (readEucJPFixed native length)
  | .eucCN => peekWith (readEucCNFixed native length)
  | .eucKR => peekWith (readEucKRFixed native length)
  | .utf16 => peekWith (readUTF16Fixed native.toFieldNative length)
  | .utf16LittleEndian => peekWith (readUTF16LittleEndianFixed native.toFieldNative length)
  | .utf16BigEndian => peekWith (readUTF16BigEndianFixed native.toFieldNative length)
  | .utf32 => peekWith (readUTF32Fixed native.toFieldNative length)
  | .utf32LittleEndian => peekWith (readUTF32LittleEndianFixed native.toFieldNative length)
  | .utf32BigEndian => peekWith (readUTF32BigEndianFixed native.toFieldNative length)

end

def readSBytes (count : Int) : EStateM Exn BinaryStreamReader (List Int8) :=
  readArray readSByte count

def readInt16s (count : Int) : EStateM Exn BinaryStreamReader (List Int16) :=
  readArray readInt16 count

def readUInt16s (count : Int) : EStateM Exn BinaryStreamReader (List UInt16) :=
  readArray readUInt16 count

def readInt32s (count : Int) : EStateM Exn BinaryStreamReader (List Int32) :=
  readArray readInt32 count

def readUInt32s (count : Int) : EStateM Exn BinaryStreamReader (List UInt32) :=
  readArray readUInt32 count

def readInt64s (count : Int) : EStateM Exn BinaryStreamReader (List Int64) :=
  readArray readInt64 count

def readUInt64s (count : Int) : EStateM Exn BinaryStreamReader (List UInt64) :=
  readArray readUInt64 count

def readHalfs (count : Int) : EStateM Exn BinaryStreamReader (List Half) :=
  readArray readHalf count

def readSingles (count : Int) : EStateM Exn BinaryStreamReader (List Single) :=
  readArray readSingle count

def readDoubles (count : Int) : EStateM Exn BinaryStreamReader (List Double) :=
  readArray readDouble count

def readBooleans (count : Int) : EStateM Exn BinaryStreamReader (List Bool) :=
  readArray readBoolean count

def readScalars (type : ScalarType) (count : Int) :
    EStateM Exn BinaryStreamReader (List type.element.Value) :=
  match type with
  | .sbyte => readSBytes count
  | .byte => readBytes count
  | .int16 => readInt16s count
  | .uint16 => readUInt16s count
  | .int32 => readInt32s count
  | .uint32 => readUInt32s count
  | .int64 => readInt64s count
  | .uint64 => readUInt64s count
  | .single => readSingles count
  | .double => readDoubles count
  | .boolean => readBooleans count

def getScalars (type : ScalarType) (position count : Int) :
    EStateM Exn BinaryStreamReader (List type.element.Value) :=
  match type with
  | .sbyte => getWith (readSBytes count) position
  | .byte => getWith (readBytes count) position
  | .int16 => getWith (readInt16s count) position
  | .uint16 => getWith (readUInt16s count) position
  | .int32 => getWith (readInt32s count) position
  | .uint32 => getWith (readUInt32s count) position
  | .int64 => getWith (readInt64s count) position
  | .uint64 => getWith (readUInt64s count) position
  | .single => getWith (readSingles count) position
  | .double => getWith (readDoubles count) position
  | .boolean => getWith (readBooleans count) position

def peekScalars (type : ScalarType) (count : Int) :
    EStateM Exn BinaryStreamReader (List type.element.Value) :=
  match type with
  | .sbyte => peekWith (readSBytes count)
  | .byte => peekWith (readBytes count)
  | .int16 => peekWith (readInt16s count)
  | .uint16 => peekWith (readUInt16s count)
  | .int32 => peekWith (readInt32s count)
  | .uint32 => peekWith (readUInt32s count)
  | .int64 => peekWith (readInt64s count)
  | .uint64 => peekWith (readUInt64s count)
  | .single => peekWith (readSingles count)
  | .double => peekWith (readDoubles count)
  | .boolean => peekWith (readBooleans count)

def getHalfs (position count : Int) : EStateM Exn BinaryStreamReader (List Half) :=
  getWith (readHalfs count) position

def peekHalfs (count : Int) : EStateM Exn BinaryStreamReader (List Half) :=
  peekWith (readHalfs count)

/-- `ReadArrayEndianConvert` of `float`. -/
def readVectorComponents (vectorCount componentCount : Int) :
    EStateM Exn BinaryStreamReader (List Single) := do
  if (← get).bigEndian then
    readArray (do return ⟨reverseEndianness (← readLittleEndian UInt32)⟩)
      (wrap32 (vectorCount * componentCount))
  else readArray (readLittleEndian Single) (wrap32 (vectorCount * componentCount))

def readVector2s (count : Int) : EStateM Exn BinaryStreamReader (List Vector2) := do
  return castVector2s (← readVectorComponents count 2)

def readVector3s (count : Int) : EStateM Exn BinaryStreamReader (List Vector3) := do
  return castVector3s (← readVectorComponents count 3)

def readVector4s (count : Int) : EStateM Exn BinaryStreamReader (List Vector4) := do
  return castVector4s (← readVectorComponents count 4)

def readQuaternions (count : Int) : EStateM Exn BinaryStreamReader (List Quaternion) := do
  return castQuaternions (← readVectorComponents count 4)

def readVectors : (type : VectorType) → Int → EStateM Exn BinaryStreamReader (List type.Value)
  | .vector2 => readVector2s
  | .vector3 => readVector3s
  | .vector4 => readVector4s
  | .quaternion => readQuaternions

def getVectors (type : VectorType) (position count : Int) :
    EStateM Exn BinaryStreamReader (List type.Value) :=
  match type with
  | .vector2 => getWith (readVector2s count) position
  | .vector3 => getWith (readVector3s count) position
  | .vector4 => getWith (readVector4s count) position
  | .quaternion => getWith (readQuaternions count) position

def peekVectors (type : VectorType) (count : Int) :
    EStateM Exn BinaryStreamReader (List type.Value) :=
  match type with
  | .vector2 => peekWith (readVector2s count)
  | .vector3 => peekWith (readVector3s count)
  | .vector4 => peekWith (readVector4s count)
  | .quaternion => peekWith (readQuaternions count)

end BinaryStreamReader

/-- What there is a read, a `Get` and a `Peek` of in `BinaryStreamReader`. -/
inductive StreamAccessor where
  | scalar (type : ScalarType)
  | half
  | vector (type : VectorType)
  | color (type : ColorType)
  | text (type : TextType)
  | textFixed (type : TextType) (length : Int)
  | scalars (type : ScalarType) (count : Int)
  | halfs (count : Int)
  | vectors (type : VectorType) (count : Int)

namespace StreamAccessor

open BinaryStreamReader

def Value : StreamAccessor → Type
  | scalar type => type.element.Value
  | half => Half
  | vector type => type.Value
  | color type => type.Value
  | text _ | textFixed _ _ => Utf16
  | scalars type _ => List type.element.Value
  | halfs _ => List Half
  | vectors type _ => List type.Value

variable (native : AccessNative)

def read : (a : StreamAccessor) → EStateM Exn BinaryStreamReader a.Value
  | scalar type => readScalar type
  | half => readHalf
  | vector type => readVector type
  | color type => readColor type
  | text type => readText native type
  | textFixed type length => readTextFixed native type length
  | scalars type count => readScalars type count
  | halfs count => readHalfs count
  | vectors type count => readVectors type count

def getAt (position : Int) : (a : StreamAccessor) → EStateM Exn BinaryStreamReader a.Value
  | scalar type => getScalar type position
  | half => getHalf position
  | vector type => getVector type position
  | color type => getColor type position
  | text type => getText native type position
  | textFixed type length => getTextFixed native type position length
  | scalars type count => getScalars type position count
  | halfs count => getHalfs position count
  | vectors type count => getVectors type position count

def peek : (a : StreamAccessor) → EStateM Exn BinaryStreamReader a.Value
  | scalar type => peekScalar type
  | half => peekHalf
  | vector type => peekVector type
  | color type => peekColor type
  | text type => peekText native type
  | textFixed type length => peekTextFixed native type length
  | scalars type count => peekScalars type count
  | halfs count => peekHalfs count
  | vectors type count => peekVectors type count

end StreamAccessor

end AcOpenServer
