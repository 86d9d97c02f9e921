import AcOpenServer.BinaryMemory.Stream

namespace AcOpenServer
open Library
set_option autoImplicit true

/-- A stream that can seek, with the last position and the greatest length it can have. -/
structure BaseStream extends MemoryStream where
  maxPosition : Nat
  maxLength : Nat
  deriving DecidableEq, Repr

inductive SeekOrigin where
  | begin
  | current
  | end
  | other
  deriving DecidableEq, Repr

namespace BaseStream

def length (s : BaseStream) : Nat := s.bytes.length

def setPosition (value : Int) : EStateM Exn BaseStream Unit := do
  if value < 0 ∨ (← get).maxPosition < value then throw .argumentOutOfRange
  else modify fun s => { s with position := value.toNat }

def seek (offset : Int) (origin : SeekOrigin) : EStateM Exn BaseStream Unit := do
  let s ← get
  match origin with
  | .begin => setPosition offset
  | .current => setPosition (s.position + offset)
  | .end => setPosition (s.length + offset)
  | .other => throw .argument

/-- The bytes that are read into a span of this length. -/
def read (count : Nat) : EStateM Exn BaseStream (List UInt8) := do
  let s ← get
  let bytes := (s.bytes.drop s.position).take count
  set { s with position := s.position + bytes.length }
  return bytes

/-- The bytes that are read into a part of an array of this length. -/
def readArray (length : Nat) (offset count : Int) : EStateM Exn BaseStream (List UInt8) :=
  if offset < 0 ∨ count < 0 ∨ length < offset + count then throw .argumentOutOfRange
  else read count.toNat

def write (buffer : List UInt8) : EStateM Exn BaseStream Unit := do
  let s ← get
  if s.maxLength < s.position + buffer.length then throw .io
  else set { s with toMemoryStream := s.toMemoryStream.write buffer }

def writeArray (buffer : List UInt8) (offset count : Int) : EStateM Exn BaseStream Unit :=
  if offset < 0 ∨ count < 0 ∨ buffer.length < offset + count then throw .argumentOutOfRange
  else write ((buffer.drop offset.toNat).take count.toNat)

/-- A stream that becomes longer is filled up with zeros. -/
def setLength (value : Int) : EStateM Exn BaseStream Unit := do
  let s ← get
  if value < 0 ∨ s.maxLength < value then throw .argumentOutOfRange
  else
    set { s with
      bytes := s.bytes.take value.toNat ++ List.replicate (value.toNat - s.length) 0
      position := min s.position value.toNat }

end BaseStream

end AcOpenServer
