import AcOpenServer.BinaryMemory.Stream
import AcOpenServer.Library.Agreement

namespace AcOpenServer
open Library
set_option autoImplicit true

/-- An `Encoding` of .NET. -/
structure Encoding where
  getBytes : Utf16 → List UInt8
  getString : List UInt8 → Utf16

/-- The encodings of .NET. `decodeChar` is what `BinaryReader` does to read a `char` in UTF-8:
the character these bytes start with, if it is a single `char`, and how many of them it takes
from the stream. -/
structure TextNative where
  utf8 : Encoding
  ascii : Encoding
  shiftJIS : Encoding
  utf16LE : Encoding
  utf16BE : Encoding
  decodeChar : List UInt8 → Option UInt16 × Nat

/-- `value + '\0'` when a string is to be terminated. -/
def terminated (value : Utf16) (terminate : Bool) : Utf16 :=
  if terminate then value ++ [0] else value

/-- A round of `Read8BitTerminatedStringBytes`, which ends at the terminator. -/
def read8BitCharacter (readByte : EStateM Exn σ UInt8) : EStateM Exn σ (Option (List UInt8)) := do
  let b ← readByte
  return if b = 0 then none else some [b]

/-- A round of `Read16BitTerminatedStringBytes`, which ends at the terminator. -/
def read16BitCharacter (readByte : EStateM Exn σ UInt8) :
    EStateM Exn σ (Option (List UInt8)) := do
  let a ← readByte
  let b ← readByte
  return if a ||| b = 0 then none else some [a, b]

/-- The loops of both, with a limit on the rounds. -/
def readTerminated (character : EStateM Exn σ (Option (List UInt8))) (limit : Nat) :
    EStateM Exn σ (List UInt8) := do
  return (← collect .endOfStream character limit).flatten

namespace BinaryMemoryWriter

def writeChar (value : UInt16) : EStateM Exn BinaryMemoryWriter Unit := write value

def writeString (value : Utf16) (encoding : Encoding) (terminate : Bool) :
    EStateM Exn BinaryMemoryWriter Unit :=
  writeBytes (encoding.getBytes (terminated value terminate))

variable (native : TextNative)

def writeUTF8 (value : Utf16) (terminate : Bool) : EStateM Exn BinaryMemoryWriter Unit :=
  writeString value native.utf8 terminate

def writeASCII (value : Utf16) (terminate : Bool) : EStateM Exn BinaryMemoryWriter Unit :=
  writeString value native.ascii terminate

def writeShiftJIS (value : Utf16) (terminate : Bool) : EStateM Exn BinaryMemoryWriter Unit :=
  writeString value native.shiftJIS terminate

def writeUTF16 (value : Utf16) (terminate : Bool) : EStateM Exn BinaryMemoryWriter Unit := do
  writeString value (if (← get).bigEndian then native.utf16BE else native.utf16LE) terminate

end BinaryMemoryWriter

namespace BinaryStreamWriter

variable (native : TextNative)

/-- `BinaryWriter` writes a `char` in UTF-8, and half of a surrogate pair not at all. -/
def writeChar (value : UInt16) : EStateM Exn BinaryStreamWriter Unit :=
  if 0xD800 ≤ value ∧ value ≤ 0xDFFF then throw .argument
  else modify fun c => { c with stream := c.stream.write (native.utf8.getBytes [value]) }

def writeString (value : Utf16) (encoding : Encoding) (terminate : Bool) :
    EStateM Exn BinaryStreamWriter Unit :=
  writeBytes (encoding.getBytes (terminated value terminate))

def writeUTF8 (value : Utf16) (terminate : Bool) : EStateM Exn BinaryStreamWriter Unit :=
  writeString value native.utf8 terminate

def writeASCII (value : Utf16) (terminate : Bool) : EStateM Exn BinaryStreamWriter Unit :=
  writeString value native.ascii terminate

def writeShiftJIS (value : Utf16) (terminate : Bool) : EStateM Exn BinaryStreamWriter Unit :=
  writeString value native.shiftJIS terminate

def writeUTF16 (value : Utf16) (terminate : Bool) : EStateM Exn BinaryStreamWriter Unit := do
  writeString value (if (← get).bigEndian then native.utf16BE else native.utf16LE) terminate

end BinaryStreamWriter

/-- As many positions as there are in an `int`. A loop that has gone on for longer never ends. -/
def positionCount : Nat := 2 ^ 32

namespace BinaryMemoryReader

variable (native : TextNative)

def readChar : EStateM Exn BinaryMemoryReader UInt16 := read UInt16

def read8BitTerminatedStringBytes : EStateM Exn BinaryMemoryReader (List UInt8) :=
  readTerminated (read8BitCharacter readByte) positionCount

def read16BitTerminatedStringBytes : EStateM Exn BinaryMemoryReader (List UInt8) :=
  readTerminated (read16BitCharacter readByte) positionCount

def readUTF8 : EStateM Exn BinaryMemoryReader Utf16 := do
  return native.utf8.getString (← read8BitTerminatedStringBytes)

def readASCII : EStateM Exn BinaryMemoryReader Utf16 := do
  return native.ascii.getString (← read8BitTerminatedStringBytes)

def readShiftJIS : EStateM Exn BinaryMemoryReader Utf16 := do
  return native.shiftJIS.getString (← read8BitTerminatedStringBytes)

def readUTF16 : EStateM Exn BinaryMemoryReader Utf16 := do
  if (← get).bigEndian then
    return native.utf16BE.getString (← read16BitTerminatedStringBytes)
  else return native.utf16LE.getString (← read16BitTerminatedStringBytes)

end BinaryMemoryReader

namespace BinaryStreamReader

variable (native : TextNative)

def readChar : EStateM Exn BinaryStreamReader UInt16 := do
  let c ← get
  let (value, taken) := native.decodeChar (c.stream.bytes.drop c.stream.position)
  set { c with stream := { c.stream with position := c.stream.position + taken } }
  match value with
  | some value => return value
  | none => throw .endOfStream

def read8BitTerminatedStringBytes : EStateM Exn BinaryStreamReader (List UInt8) := do
  readTerminated (read8BitCharacter readByte) ((← get).stream.bytes.length + 1)

def read16BitTerminatedStringBytes : EStateM Exn BinaryStreamReader (List UInt8) := do
  readTerminated (read16BitCharacter readByte) ((← get).stream.bytes.length + 1)

def readUTF8 : EStateM Exn BinaryStreamReader Utf16 := do
  return native.utf8.getString (← read8BitTerminatedStringBytes)

def readASCII : EStateM Exn BinaryStreamReader Utf16 := do
  return native.ascii.getString (← read8BitTerminatedStringBytes)

def readShiftJIS : EStateM Exn BinaryStreamReader Utf16 := do
  return native.shiftJIS.getString (← read8BitTerminatedStringBytes)

def readUTF16 : EStateM Exn BinaryStreamReader Utf16 := do
  if (← get).bigEndian then
    return native.utf16BE.getString (← read16BitTerminatedStringBytes)
  else return native.utf16LE.getString (← read16BitTerminatedStringBytes)

end BinaryStreamReader

end AcOpenServer
