import AcOpenServer.BinaryMemory.Containment
import AcOpenServer.BinaryMemory.FixedText

namespace AcOpenServer
open Library
set_option autoImplicit true

/-- The encodings of all the string methods. -/
structure AccessNative extends FieldNative where
  eucJP : Encoding
  eucCN : Encoding
  eucKR : Encoding

inductive TextType where
  | utf8
  | ascii
  | shiftJIS
  | eucJP
  | eucCN
  | eucKR
  | utf16
  | utf16LittleEndian
  | utf16BigEndian
  | utf32
  | utf32LittleEndian
  | utf32BigEndian
  deriving DecidableEq, Repr

inductive VectorType where
  | vector2
  | vector3
  | vector4
  | quaternion
  deriving DecidableEq, Repr

def VectorType.Value : VectorType → Type
  | vector2 => Vector2
  | vector3 => Vector3
  | vector4 => Vector4
  | quaternion => Quaternion

/-- `System.Drawing.Color`. -/
structure Color where
  a : UInt8
  r : UInt8
  g : UInt8
  b : UInt8
  deriving DecidableEq, Repr

inductive ColorType where
  | color3
  | rgb
  | bgr
  | color4
  | rgba
  | bgra
  | argb
  | abgr
  deriving DecidableEq, Repr

def ColorType.Value : ColorType → Type
  | color3 | color4 => List UInt8
  | _ => Color

inductive VarValType where
  | signed
  | unsigned
  | precise
  deriving DecidableEq, Repr

def VarValType.Value : VarValType → Type
  | signed => Int64
  | unsigned => UInt64
  | precise => Double

/-- A byte of as many as a read returns. -/
def byteOf (bytes : List UInt8) (i : Nat) : UInt8 := bytes[i]?.getD 0

/-- `MemoryMarshal.Cast`, which leaves out the components of a vector that is not whole. -/
def castVector2s : List Single → List Vector2
  | x :: y :: rest => ⟨x, y⟩ :: castVector2s rest
  | _ => []

def castVector3s : List Single → List Vector3
  | x :: y :: z :: rest => ⟨x, y, z⟩ :: castVector3s rest
  | _ => []

def castVector4s : List Single → List Vector4
  | x :: y :: z :: w :: rest => ⟨x, y, z, w⟩ :: castVector4s rest
  | _ => []

def castQuaternions : List Single → List Quaternion
  | x :: y :: z :: w :: rest => ⟨x, y, z, w⟩ :: castQuaternions rest
  | _ => []

/-- The `double` of a smaller floating-point number that has these many bits for its exponent and
its significand. A signaling NaN becomes a quiet one. -/
def widen (exponentBits significandBits bits : Nat) : Double :=
  let bias := 2 ^ (exponentBits - 1) - 1
  let sign := bits / 2 ^ (exponentBits + significandBits) % 2
  let exponent := bits / 2 ^ significandBits % 2 ^ exponentBits
  let significand := bits % 2 ^ significandBits
  let shifted := significand * 2 ^ (52 - significandBits)
  let magnitude :=
    if exponent = 2 ^ exponentBits - 1 then
      0x7FF * 2 ^ 52 + if significand = 0 then 0 else shifted ||| 2 ^ 51
    else if exponent = 0 then
      let top := significand.log2
      if significand = 0 then 0
      else (1024 + top - bias - significandBits) * 2 ^ 52 +
        (significand - 2 ^ top) * 2 ^ (52 - top)
    else (exponent + 1023 - bias) * 2 ^ 52 + shifted
  ⟨UInt64.ofNat (sign * 2 ^ 63 + magnitude)⟩

def Half.toDouble (value : Half) : Double := widen 5 10 value.bits.toNat

def Single.toDouble (value : Single) : Double := widen 8 23 value.bits.toNat

/-- The largest subnormal numbers, minus one and a NaN. -/
example : (Half.mk 0x03FF).toDouble = ⟨0x3F0FF80000000000⟩ ∧
    (Half.mk 0xBC00).toDouble = ⟨0xBFF0000000000000⟩ ∧
      (Single.mk 0x7FFFFF).toDouble = ⟨0x380FFFFFC0000000⟩ ∧
        (Single.mk 0x7F800001).toDouble = ⟨0x7FF8000020000000⟩ := by
  decide

/-- A round of `Read32BitTerminatedStringBytes`, which ends at the terminator. -/
def read32BitCharacter (readByte : EStateM Exn σ UInt8) :
    EStateM Exn σ (Option (List UInt8)) := do
  let a ← readByte
  let b ← readByte
  let c ← readByte
  let d ← readByte
  return if a ||| b ||| c ||| d = 0 then none else some [a, b, c, d]

namespace BinaryMemoryReader

open MemoryCursor

/-- The bytes of `PeekSpan<T>`. -/
def peekSpan (size : Nat) (count : Int) : EStateM Exn BinaryMemoryReader (List UInt8) := do
  let c ← get
  let spanSize := wrap32 (size * count)
  if c.memory.length < wrap32 (c.position + spanSize) then throw .invalidOperation
  else if 0 ≤ c.position ∧ c.position ≤ c.memory.length ∧ 0 ≤ spanSize ∧
      spanSize ≤ c.memory.length - c.position then
    set (c.touch spanSize.toNat)
    return peekBytes c.memory c.outside c.position spanSize.toNat
  else throw .argumentOutOfRange

/-- `Get<T>`. -/
def getUnmanaged (α : Type) [Layout α] (position : Int) : EStateM Exn BinaryMemoryReader α :=
  getWith (read α) position

/-- `Peek<T>`. -/
def peekUnmanaged (α : Type) [Layout α] : EStateM Exn BinaryMemoryReader α := do
  return Layout.decode (← peekValue (Layout.size α))

def getArray (α : Type) [Layout α] (position count : Int) :
    EStateM Exn BinaryMemoryReader (List α) :=
  getWith (readArray α count) position

def peekArray (α : Type) [Layout α] (count : Int) : EStateM Exn BinaryMemoryReader (List α) := do
  let bytes ← peekSpan (Layout.size α) count
  return Layout.decodeAll α (bytes.length / Layout.size α) bytes

def getElement : (type : ElementType) → Int → EStateM Exn BinaryMemoryReader type.Value
  | .sbyte => getUnmanaged Int8
  | .byte => getUnmanaged UInt8
  | .int16 => getWith readInt16
  | .uint16 => getWith readUInt16
  | .int32 => getWith readInt32
  | .uint32 => getWith readUInt32
  | .int64 => getWith readInt64
  | .uint64 => getWith readUInt64
  | .int128 => getWith readInt128
  | .uint128 => getWith readUInt128
  | .half => getWith readHalf
  | .single => getWith readSingle
  | .double => getWith readDouble
  | .boolean => getWith readBoolean

def peekElement : (type : ElementType) → EStateM Exn BinaryMemoryReader type.Value
  | .sbyte => peekUnmanaged Int8
  | .byte => peekUnmanaged UInt8
  | .int16 => peekWith readInt16
  | .uint16 => peekWith readUInt16
  | .int32 => peekWith readInt32
  | .uint32 => peekWith readUInt32
  | .int64 => peekWith readInt64
  | .uint64 => peekWith readUInt64
  | .int128 => peekWith readInt128
  | .uint128 => peekWith readUInt128
  | .half => peekWith readHalf
  | .single => peekWith readSingle
  | .double => peekWith readDouble
  | .boolean => peekWith readBoolean

def readVector : (type : VectorType) → EStateM Exn BinaryMemoryReader type.Value
  | .vector2 => readVector2
  | .vector3 => readVector3
  | .vector4 => readVector4
  | .quaternion => readQuaternion

def getVector : (type : VectorType) → Int → EStateM Exn BinaryMemoryReader type.Value
  | .vector2 => getWith readVector2
  | .vector3 => getWith readVector3
  | .vector4 => getWith readVector4
  | .quaternion => getWith readQuaternion

def peekVector : (type : VectorType) → EStateM Exn BinaryMemoryReader type.Value
  | .vector2 => peekWith readVector2
  | .vector3 => peekWith readVector3
  | .vector4 => peekWith readVector4
  | .quaternion => peekWith readQuaternion

def readColor3 : EStateM Exn BinaryMemoryReader (List UInt8) := readBytes 3

def readColorRGB : EStateM Exn BinaryMemoryReader Color := do
  let bytes ← readSpan 1 3
  return ⟨255, byteOf bytes 0, byteOf bytes 1, byteOf bytes 2⟩

def readColorBGR : EStateM Exn BinaryMemoryReader Color := do
  let bytes ← readSpan 1 3
  return ⟨255, byteOf bytes 2, byteOf bytes 1, byteOf bytes 0⟩

def readColor4 : EStateM Exn BinaryMemoryReader (List UInt8) := readBytes 4

def readColorRGBA : EStateM Exn BinaryMemoryReader Color := do
  let bytes ← readSpan 1 4
  return ⟨byteOf bytes 3, byteOf bytes 0, byteOf bytes 1, byteOf bytes 2⟩

def readColorBGRA : EStateM Exn BinaryMemoryReader Color := do
  let bytes ← readSpan 1 4
  return ⟨byteOf bytes 3, byteOf bytes 2, byteOf bytes 1, byteOf bytes 0⟩

def readColorARGB : EStateM Exn BinaryMemoryReader Color := do
  let bytes ← readSpan 1 4
  return ⟨byteOf bytes 0, byteOf bytes 1, byteOf bytes 2, byteOf bytes 3⟩

def readColorABGR : EStateM Exn BinaryMemoryReader Color := do
  let bytes ← readSpan 1 4
  return ⟨byteOf bytes 0, byteOf bytes 3, byteOf bytes 2, byteOf bytes 1⟩

def readColor : (type : ColorType) → EStateM Exn BinaryMemoryReader type.Value
  | .color3 => readColor3
  | .rgb => readColorRGB
  | .bgr => readColorBGR
  | .color4 => readColor4
  | .rgba => readColorRGBA
  | .bgra => readColorBGRA
  | .argb => readColorARGB
  | .abgr => readColorABGR

def getColor : (type : ColorType) → Int → EStateM Exn BinaryMemoryReader type.Value
  | .color3 => getWith readColor3
  | .rgb => getWith readColorRGB
  | .bgr => getWith readColorBGR
  | .color4 => getWith readColor4
  | .rgba => getWith readColorRGBA
  | .bgra => getWith readColorBGRA
  | .argb => getWith readColorARGB
  | .abgr => getWith readColorABGR

def peekColor : (type : ColorType) → EStateM Exn BinaryMemoryReader type.Value
  | .color3 => peekWith readColor3
  | .rgb => peekWith readColorRGB
  | .bgr => peekWith readColorBGR
  | .color4 => peekWith readColor4
  | .rgba => peekWith readColorRGBA
  | .bgra => peekWith readColorBGRA
  | .argb => peekWith readColorARGB
  | .abgr => peekWith readColorABGR

section
variable (variableValueSize : Int)

def readSignedVarVal : EStateM Exn BinaryMemoryReader Int64 :=
  if variableValueSize = 1 then do return (← readSByte).toInt64
  else if variableValueSize = 2 then do return (← readInt16).toInt64
  else if variableValueSize = 4 then do return (← readInt32).toInt64
  else if variableValueSize = 8 then readInt64
  else throw (.notSupported
    s!"VariableValueSize {variableValueSize} is not supported for ReadSignedVarVal")

def readUnsignedVarVal : EStateM Exn BinaryMemoryReader UInt64 :=
  if variableValueSize = 1 then do return (← readByte).toUInt64
  else if variableValueSize = 2 then do return (← readUInt16).toUInt64
  else if variableValueSize = 4 then do return (← readUInt32).toUInt64
  else if variableValueSize = 8 then readUInt64
  else throw (.notSupported
    s!"VariableValueSize {variableValueSize} is not supported for ReadUnsignedVarVal")

def readPreciseVarVal : EStateM Exn BinaryMemoryReader Double :=
  if variableValueSize = 2 then do return (← readHalf).toDouble
  else if variableValueSize = 4 then do return (← readSingle).toDouble
  else if variableValueSize = 8 then readDouble
  else throw (.notSupported
    s!"VariableValueSize {variableValueSize} is not supported for ReadPreciseVarVal")

def readVarVal : (type : VarValType) → EStateM Exn BinaryMemoryReader type.Value
  | .signed => readSignedVarVal variableValueSize
  | .unsigned => readUnsignedVarVal variableValueSize
  | .precise => readPreciseVarVal variableValueSize

def getVarVal : (type : VarValType) → Int → EStateM Exn BinaryMemoryReader type.Value
  | .signed => getWith (readSignedVarVal variableValueSize)
  | .unsigned => getWith (readUnsignedVarVal variableValueSize)
  | .precise => getWith (readPreciseVarVal variableValueSize)

def peekVarVal : (type : VarValType) → EStateM Exn BinaryMemoryReader type.Value
  | .signed => peekWith (readSignedVarVal variableValueSize)
  | .unsigned => peekWith (readUnsignedVarVal variableValueSize)
  | .precise => peekWith (readPreciseVarVal variableValueSize)

end

section
variable (native : AccessNative)

def read32BitTerminatedStringBytes : EStateM Exn BinaryMemoryReader (List UInt8) :=
  readTerminated (read32BitCharacter readByte) positionCount

def readEucJP : EStateM Exn BinaryMemoryReader Utf16 := do
  return native.eucJP.getString (← read8BitTerminatedStringBytes)

def readEucCN : EStateM Exn BinaryMemoryReader Utf16 := do
  return native.eucCN.getString (← read8BitTerminatedStringBytes)

def readEucKR : EStateM Exn BinaryMemoryReader Utf16 := do
  return native.eucKR.getString (← read8BitTerminatedStringBytes)

def readUTF16LittleEndian : EStateM Exn BinaryMemoryReader Utf16 := do
  return native.utf16LE.getString (← read16BitTerminatedStringBytes)

def readUTF16BigEndian : EStateM Exn BinaryMemoryReader Utf16 := do
  return native.utf16BE.getString (← read16BitTerminatedStringBytes)

def readUTF32 : EStateM Exn BinaryMemoryReader Utf16 := do
  if (← get).bigEndian then
    return native.utf32BE.getString (← read32BitTerminatedStringBytes)
  else return native.utf32LE.getString (← read32BitTerminatedStringBytes)

def readUTF32LittleEndian : EStateM Exn BinaryMemoryReader Utf16 := do
  return native.utf32LE.getString (← read32BitTerminatedStringBytes)

def readUTF32BigEndian : EStateM Exn BinaryMemoryReader Utf16 := do
  return native.utf32BE.getString (← read32BitTerminatedStringBytes)

def readText : TextType → EStateM Exn BinaryMemoryReader Utf16
  | .utf8 => readUTF8 native.toTextNative
  | .ascii => readASCII native.toTextNative
  | .shiftJIS => readShiftJIS native.toTextNative
  | .eucJP => readEucJP native
  | .eucCN => readEucCN native
  | .eucKR => readEucKR native
  | .utf16 => readUTF16 native.toTextNative
  | .utf16LittleEndian => readUTF16LittleEndian native
  | .utf16BigEndian => readUTF16BigEndian native
  | .utf32 => readUTF32 native
  | .utf32LittleEndian => readUTF32LittleEndian native
  | .utf32BigEndian => readUTF32BigEndian native

def getText : TextType → Int → EStateM Exn BinaryMemoryReader Utf16
  | .utf8 => getWith (readUTF8 native.toTextNative)
  | .ascii => getWith (readASCII native.toTextNative)
  | .shiftJIS => getWith (readShiftJIS native.toTextNative)
  | .eucJP => getWith (readEucJP native)
  | .eucCN => getWith (readEucCN native)
  | .eucKR => getWith (readEucKR native)
  | .utf16 => getWith (readUTF16 native.toTextNative)
  | .utf16LittleEndian => getWith (readUTF16LittleEndian native)
  | .utf16BigEndian => getWith (readUTF16BigEndian native)
  | .utf32 => getWith (readUTF32 native)
  | .utf32LittleEndian => getWith (readUTF32LittleEndian native)
  | .utf32BigEndian => getWith (readUTF32BigEndian native)

def peekText : TextType → EStateM Exn BinaryMemoryReader Utf16
  | .utf8 => peekWith (readUTF8 native.toTextNative)
  | .ascii => peekWith (readASCII native.toTextNative)
  | .shiftJIS => peekWith (readShiftJIS native.toTextNative)
  | .eucJP => peekWith (readEucJP native)
  | .eucCN => peekWith (readEucCN native)
  | .eucKR => peekWith (readEucKR native)
  | .utf16 => peekWith (readUTF16 native.toTextNative)
  | .utf16LittleEndian => peekWith (readUTF16LittleEndian native)
  | .utf16BigEndian => peekWith (readUTF16BigEndian native)
  | .utf32 => peekWith (readUTF32 native)
  | .utf32LittleEndian => peekWith (readUTF32LittleEndian native)
  | .utf32BigEndian => peekWith (readUTF32BigEndian native)

/-- A string that takes all the bytes it is given. -/
def readString (encoding : Encoding) (byteCount : Int) : EStateM Exn BinaryMemoryReader Utf16 := do
  return encoding.getString (← readBytes byteCount)

variable (length : Int)

def readUTF8Fixed : EStateM Exn BinaryMemoryReader Utf16 := readString native.utf8 length

def readASCIIFixed : EStateM Exn BinaryMemoryReader Utf16 := readString native.ascii length

def readShiftJISFixed : EStateM Exn BinaryMemoryReader Utf16 := readString native.shiftJIS length

def readEucJPFixed : EStateM Exn BinaryMemoryReader Utf16 := readString native.eucJP length

def readEucCNFixed : EStateM Exn BinaryMemoryReader Utf16 := readString native.eucCN length

def readEucKRFixed : EStateM Exn BinaryMemoryReader Utf16 := readString native.eucKR length

def readUTF16Fixed : EStateM Exn BinaryMemoryReader Utf16 := do
  if (← get).bigEndian then readString native.utf16BE (wrap32 (length * 2))
  else readString native.utf16LE (wrap32 (length * 2))

def readUTF16LittleEndianFixed : EStateM Exn BinaryMemoryReader Utf16 :=
  readString native.utf16LE (wrap32 (length * 2))

def readUTF16BigEndianFixed : EStateM Exn BinaryMemoryReader Utf16 :=
  readString native.utf16BE (wrap32 (length * 2))

def readUTF32Fixed : EStateM Exn BinaryMemoryReader Utf16 := do
  if (← get).bigEndian then readString native.utf32BE (wrap32 (length * 4))
  else readString native.utf32LE (wrap32 (length * 4))

def readUTF32LittleEndianFixed : EStateM Exn BinaryMemoryReader Utf16 :=
  readString native.utf32LE (wrap32 (length * 4))

def readUTF32BigEndianFixed : EStateM Exn BinaryMemoryReader Utf16 :=
  readString native.utf32BE (wrap32 (length * 4))

def readTextFixed : TextType → Int → EStateM Exn BinaryMemoryReader Utf16
  | .utf8 => readUTF8Fixed native
  | .ascii => readASCIIFixed native
  | .shiftJIS => readShiftJISFixed native
  | .eucJP => readEucJPFixed native
  | .eucCN => readEucCNFixed native
  | .eucKR => readEucKRFixed native
  | .utf16 => readUTF16Fixed native
  | .utf16LittleEndian => readUTF16LittleEndianFixed native
  | .utf16BigEndian => readUTF16BigEndianFixed native
  | .utf32 => readUTF32Fixed native
  | .utf32LittleEndian => readUTF32LittleEndianFixed native
  | .utf32BigEndian => readUTF32BigEndianFixed native

/-- The overloads of `getText` that are given a length. -/
def getTextFixed (type : TextType) (position length : Int) : EStateM Exn BinaryMemoryReader Utf16 :=
  match type with
  | .utf8 => getWith (readUTF8Fixed native length) position
  | .ascii => getWith (readASCIIFixed native length) position
  | .shiftJIS => getWith (readShiftJISFixed native length) position
  | .eucJP => getWith (readEucJPFixed native length) position
  | .eucCN => getWith (readEucCNFixed native length) position
  | .eucKR => getWith (readEucKRFixed native length) position
  | .utf16 => getWith (readUTF16Fixed native length) position
  | .utf16LittleEndian => getWith (readUTF16LittleEndianFixed native length) position
  | .utf16BigEndian => getWith (readUTF16BigEndianFixed native length) position
  | .utf32 => getWith (readUTF32Fixed native length) position
  | .utf32LittleEndian => getWith (readUTF32LittleEndianFixed native length) position
  | .utf32BigEndian => getWith (readUTF32BigEndianFixed native length) position

def peekTextFixed (type : TextType) (length : Int) : EStateM Exn BinaryMemoryReader Utf16 :=
  match type with
  | .utf8 => peekWith (readUTF8Fixed native length)
  | .ascii => peekWith (readASCIIFixed native length)
  | .shiftJIS => peekWith (readShiftJISFixed native length)
  | .eucJP => peekWith (readEucJPFixed native length)
  | .eucCN => peekWith (readEucCNFixed native length)
  | .eucKR => peekWith (readEucKRFixed native length)
  | .utf16 => peekWith (readUTF16Fixed native length)
  | .utf16LittleEndian => peekWith (readUTF16LittleEndianFixed native length)
  | .utf16BigEndian => peekWith (readUTF16BigEndianFixed native length)
  | .utf32 => peekWith (readUTF32Fixed native length)
  | .utf32LittleEndian => peekWith (readUTF32LittleEndianFixed native length)
  | .utf32BigEndian => peekWith (readUTF32BigEndianFixed native length)

end

def getElements (type : ElementType) (position count : Int) :
    EStateM Exn BinaryMemoryReader (List type.Value) :=
  match type with
  | .sbyte => getArray Int8 position count
  | .byte => getArray UInt8 position count
  | .int16 => getWith (readInt16s count) position
  | .uint16 => getWith (readUInt16s count) position
  | .int32 => getWith (readInt32s count) position
  | .uint32 => getWith (readUInt32s count) position
  | .int64 => getWith (readInt64s count) position
  | .uint64 => getWith (readUInt64s count) position
  | .int128 => getWith (readInt128s count) position
  | .uint128 => getWith (readUInt128s count) position
  | .half => getWith (readHalfs count) position
  | .single => getWith (readSingles count) position
  | .double => getWith (readDoubles count) position
  | .boolean => getWith (readBooleans count) position

def peekElements (type : ElementType) (count : Int) :
    EStateM Exn BinaryMemoryReader (List type.Value) :=
  match type with
  | .sbyte => peekArray Int8 count
  | .byte => peekArray UInt8 count
  | .int16 => peekWith (readInt16s count)
  | .uint16 => peekWith (readUInt16s count)
  | .int32 => peekWith (readInt32s count)
  | .uint32 => peekWith (readUInt32s count)
  | .int64 => peekWith (readInt64s count)
  | .uint64 => peekWith (readUInt64s count)
  | .int128 => peekWith (readInt128s count)
  | .uint128 => peekWith (readUInt128s count)
  | .half => peekWith (readHalfs count)
  | .single => peekWith (readSingles count)
  | .double => peekWith (readDoubles count)
  | .boolean => peekWith (readBooleans count)

def readVector2s (count : Int) : EStateM Exn BinaryMemoryReader (List Vector2) := do
  if (← get).bigEndian then
    return castVector2s (← readEach readComponent (wrap32 (count * 2)))
  else readArray Vector2 count

def readVector3s (count : Int) : EStateM Exn BinaryMemoryReader (List Vector3) := do
  if (← get).bigEndian then
    return castVector3s (← readEach readComponent (wrap32 (count * 3)))
  else readArray Vector3 count

def readVector4s (count : Int) : EStateM Exn BinaryMemoryReader (List Vector4) := do
  if (← get).bigEndian then
    return castVector4s (← readEach readComponent (wrap32 (count * 4)))
  else readArray Vector4 count

def readQuaternions (count : Int) : EStateM Exn BinaryMemoryReader (List Quaternion) := do
  if (← get).bigEndian then
    return castQuaternions (← readEach readComponent (wrap32 (count * 4)))
  else readArray Quaternion count

def readVectors : (type : VectorType) → Int → EStateM Exn BinaryMemoryReader (List type.Value)
  | .vector2 => readVector2s
  | .vector3 => readVector3s
  | .vector4 => readVector4s
  | .quaternion => readQuaternions

def getVectors (type : VectorType) (position count : Int) :
    EStateM Exn BinaryMemoryReader (List type.Value) :=
  match type with
  | .vector2 => getWith (readVector2s count) position
  | .vector3 => getWith (readVector3s count) position
  | .vector4 => getWith (readVector4s count) position
  | .quaternion => getWith (readQuaternions count) position

def peekVectors (type : VectorType) (count : Int) :
    EStateM Exn BinaryMemoryReader (List type.Value) :=
  match type with
  | .vector2 => peekWith (readVector2s count)
  | .vector3 => peekWith (readVector3s count)
  | .vector4 => peekWith (readVector4s count)
  | .quaternion => peekWith (readQuaternions count)

def readArrayCast (α : Type) [Layout α] (cast : α → β) (count : Int) :
    EStateM Exn BinaryMemoryReader (List β) :=
  readEach (do return cast (← read α)) count

def readArrayEndianCast (α : Type) [Layout α] (cast : α → β) (count : Int) :
    EStateM Exn BinaryMemoryReader (List β) := do
  if (← get).bigEndian then readEach (do return cast (reverseEndianness (← read α))) count
  else readEach (do return cast (← read α)) count

def readArrayEndianConvertCast (α : Type) [Layout α] (convert : α → β) (cast : β → γ)
    (count : Int) : EStateM Exn BinaryMemoryReader (List γ) := do
  if (← get).bigEndian then
    readEach (do return cast (convert (reverseEndianness (← read α)))) count
  else readEach (do return cast (convert (← read α))) count

section
variable (variableValueSize count : Int)

/-- The message names the type of the method, which it is given in place of a name. -/
def readSignedVarVals : EStateM Exn BinaryMemoryReader (List Int64) :=
  if variableValueSize = 1 then readArrayCast Int8 Int8.toInt64 count
  else if variableValueSize = 2 then readArrayEndianCast Int16 Int16.toInt64 count
  else if variableValueSize = 4 then readArrayEndianCast Int32 Int32.toInt64 count
  else if variableValueSize = 8 then readInt64s count
  else throw (.notSupported (s!"VariableValueSize {variableValueSize} is not supported for " ++
    "System.Func`2[System.Int32,System.Int64[]]"))

def readUnsignedVarVals : EStateM Exn BinaryMemoryReader (List UInt64) :=
  if variableValueSize = 1 then readArrayCast UInt8 UInt8.toUInt64 count
  else if variableValueSize = 2 then readArrayEndianCast UInt16 UInt16.toUInt64 count
  else if variableValueSize = 4 then readArrayEndianCast UInt32 UInt32.toUInt64 count
  else if variableValueSize = 8 then readUInt64s count
  else throw (.notSupported (s!"VariableValueSize {variableValueSize} is not supported for " ++
    "System.Func`2[System.Int32,System.UInt64[]]"))

def readPreciseVarVals : EStateM Exn BinaryMemoryReader (List Double) :=
  if variableValueSize = 2 then readArrayEndianConvertCast UInt16 Half.mk Half.toDouble count
  else if variableValueSize = 4 then
    readArrayEndianConvertCast UInt32 Single.mk Single.toDouble count
  else if variableValueSize = 8 then readDoubles count
  else throw (.notSupported (s!"VariableValueSize {variableValueSize} is not supported for " ++
    "System.Func`2[System.Int32,System.Double[]]"))

def readVarVals : (type : VarValType) → EStateM Exn BinaryMemoryReader (List type.Value)
  | .signed => readSignedVarVals variableValueSize count
  | .unsigned => readUnsignedVarVals variableValueSize count
  | .precise => readPreciseVarVals variableValueSize count

def getVarVals (type : VarValType) (position : Int) :
    EStateM Exn BinaryMemoryReader (List type.Value) :=
  match type with
  | .signed => getWith (readSignedVarVals variableValueSize count) position
  | .unsigned => getWith (readUnsignedVarVals variableValueSize count) position
  | .precise => getWith (readPreciseVarVals variableValueSize count) position

def peekVarVals : (type : VarValType) → EStateM Exn BinaryMemoryReader (List type.Value)
  | .signed => peekWith (readSignedVarVals variableValueSize count)
  | .unsigned => peekWith (readUnsignedVarVals variableValueSize count)
  | .precise => peekWith (readPreciseVarVals variableValueSize count)

end

end BinaryMemoryReader

/-- What there is a read, a `Get` and a `Peek` of in `BinaryMemoryReader`. The generic ones are
those of the bytes of a value. -/
inductive MemoryAccessor where
  | value (size : TypeSize)
  | element (type : ElementType)
  | vector (type : VectorType)
  | color (type : ColorType)
  | varVal (type : VarValType)
  | text (type : TextType)
  | textFixed (type : TextType) (length : Int)
  | span (size : TypeSize) (count : Int)
  | elements (type : ElementType) (count : Int)
  | vectors (type : VectorType) (count : Int)
  | varVals (type : VarValType) (count : Int)

namespace MemoryAccessor

open BinaryMemoryReader MemoryCursor

def Value : MemoryAccessor → Type
  | value _ | span _ _ => List UInt8
  | element type => type.Value
  | vector type => type.Value
  | color type => type.Value
  | varVal type => type.Value
  | text _ | textFixed _ _ => Utf16
  | elements type _ => List type.Value
  | vectors type _ => List type.Value
  | varVals type _ => List type.Value

variable (native : AccessNative) (variableValueSize : Int)

def read : (a : MemoryAccessor) → EStateM Exn BinaryMemoryReader a.Value
  | value size => readValue size.1
  | element type => readElement type
  | vector type => readVector type
  | color type => readColor type
  | varVal type => readVarVal variableValueSize type
  | text type => readText native type
  | textFixed type length => readTextFixed native type length
  | span size count => readSpan size.1 count
  | elements type count => readElements type count
  | vectors type count => readVectors type count
  | varVals type count => readVarVals variableValueSize count type

def getAt (position : Int) : (a : MemoryAccessor) → EStateM Exn BinaryMemoryReader a.Value
  | value size => getWith (readValue size.1) position
  | element type => getElement type position
  | vector type => getVector type position
  | color type => getColor type position
  | varVal type => getVarVal variableValueSize type position
  | text type => getText native type position
  | textFixed type length => getTextFixed native type position length
  | span size count => getWith (readSpan size.1 count) position
  | elements type count => getElements type position count
  | vectors type count => getVectors type position count
  | varVals type count => getVarVals variableValueSize count type position

def peek : (a : MemoryAccessor) → EStateM Exn BinaryMemoryReader a.Value
  | value size => peekValue size.1
  | element type => peekElement type
  | vector type => peekVector type
  | color type => peekColor type
  | varVal type => peekVarVal variableValueSize type
  | text type => peekText native type
  | textFixed type length => peekTextFixed native type length
  | span size count => peekSpan size.1 count
  | elements type count => peekElements type count
  | vectors type count => peekVectors type count
  | varVals type count => peekVarVals variableValueSize count type

end MemoryAccessor

end AcOpenServer
