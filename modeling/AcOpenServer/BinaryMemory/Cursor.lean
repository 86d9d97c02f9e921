import AcOpenServer.Library.Trace
import AcOpenServer.Runtime

namespace AcOpenServer
open Library
set_option autoImplicit true

/-- An access to memory, at an offset from the start of a region. -/
structure MemoryAccess where
  offset : Int
  size : Nat
  deriving DecidableEq, Repr

/-- The access touches only the `n` bytes of the region. -/
def MemoryAccess.Inside (n : Nat) (a : MemoryAccess) : Prop :=
  0 ≤ a.offset ∧ a.offset + a.size ≤ n

/-- The bytes from an offset on, those outside of the region being given. -/
def peekBytes (memory : List UInt8) (outside : Int → UInt8) (offset : Int) (size : Nat) :
    List UInt8 :=
  (List.range size).map fun (i : Nat) =>
    if 0 ≤ offset + i then memory[(offset + i).toNat]?.getD (outside (offset + i))
    else outside (offset + i)

/-- The region after bytes have been written from an offset on. -/
def pokeBytes (memory : List UInt8) (offset : Int) (bytes : List UInt8) : List UInt8 :=
  memory.mapIdx fun (i : Nat) b => if offset ≤ i then bytes[(i - offset).toNat]?.getD b else b

/-- The state of a `BinaryMemoryReader` or a `BinaryMemoryWriter`, with the unchecked accesses it
has made to its memory. -/
structure MemoryCursor where
  memory : List UInt8
  outside : Int → UInt8
  position : Int
  steps : List Int
  bigEndian : Bool
  accesses : List MemoryAccess

abbrev BinaryMemoryReader := MemoryCursor

abbrev BinaryMemoryWriter := MemoryCursor

namespace MemoryCursor

def new (memory : List UInt8) (outside : Int → UInt8) (bigEndian : Bool) : MemoryCursor where
  memory
  outside
  position := 0
  steps := []
  bigEndian
  accesses := []

/-- The property `Position`, whose setter compares the low 32 bits of the value. -/
def setPosition (value : Int) : EStateM Exn MemoryCursor Unit := do
  if (← get).memory.length < value % 2 ^ 32 then throw .argumentOutOfRange
  else modify fun c => { c with position := wrap32 value }

def advance (count : Int) : EStateM Exn MemoryCursor Unit :=
  modify fun c => { c with position := wrap32 (c.position + count) }

def rewind (count : Int) : EStateM Exn MemoryCursor Unit :=
  modify fun c => { c with position := wrap32 (c.position - count) }

def gotoStart : EStateM Exn MemoryCursor Unit := modify fun c => { c with position := 0 }

def gotoEnd : EStateM Exn MemoryCursor Unit :=
  modify fun c => { c with position := c.memory.length }

def align (alignment : Int) : EStateM Exn MemoryCursor Unit := do
  if alignment = 0 then throw .divideByZero
  else
    modify fun c =>
      let remainder := c.position.tmod alignment
      if 0 < remainder then { c with position := wrap32 (c.position + (alignment - remainder)) }
      else c

def alignFrom (position alignment : Int) : EStateM Exn MemoryCursor Unit := do
  if alignment = 0 then throw .divideByZero
  else
    let remainder := position.tmod alignment
    setPosition (if 0 < remainder then wrap64 (position + (alignment - remainder)) else position)

def stepIn (position : Int) : EStateM Exn MemoryCursor Unit := do
  modify fun c => { c with steps := c.position :: c.steps }
  setPosition position

def stepOut : EStateM Exn MemoryCursor Unit := do
  match (← get).steps with
  | [] => throw .invalidOperation
  | position :: steps => modify fun c => { c with position, steps }

/-- The cursor when it has accessed its memory at its position. -/
def touch (size : Nat) (c : MemoryCursor) : MemoryCursor :=
  { c with accesses := c.accesses ++ [⟨c.position, size⟩] }

/-- What `Read<T>` and `Write<T>` have in common: the check of the end of the value, the access
and the move behind it. It returns where the value starts. -/
def access (size : Nat) : EStateM Exn MemoryCursor Int := do
  let c ← get
  let endPosition := wrap32 (c.position + size)
  if c.memory.length < endPosition then throw .invalidOperation
  else
    set { c.touch size with position := endPosition }
    return c.position

/-- The bytes of the value that `Read<T>` returns for a type of this size. -/
def readValue (size : Nat) : EStateM Exn MemoryCursor (List UInt8) := do
  let offset ← access size
  let c ← get
  return peekBytes c.memory c.outside offset size

/-- `Write<T>` of a value that has these bytes. -/
def writeValue (bytes : List UInt8) : EStateM Exn MemoryCursor Unit := do
  let offset ← access bytes.length
  modify fun c => { c with memory := pokeBytes c.memory offset bytes }

/-- The loops that do the same for one value after another. -/
def each (f : ι → EStateM Exn MemoryCursor α) : List ι → EStateM Exn MemoryCursor Unit
  | [] => pure ()
  | i :: is => do
    let _ ← f i
    each f is

/-- `Peek<T>`, which reads without moving. -/
def peekValue (size : Nat) : EStateM Exn MemoryCursor (List UInt8) := do
  let c ← get
  if c.memory.length < wrap32 (c.position + size) then throw .invalidOperation
  else
    set (c.touch size)
    return peekBytes c.memory c.outside c.position size

/-- `Peek`, given what to read. -/
def peekWith (read : EStateM Exn MemoryCursor α) : EStateM Exn MemoryCursor α := do
  let startPosition := (← get).position
  let value ← read
  modify fun c => { c with position := startPosition }
  return value

/-- `Get`, given what to read. -/
def getWith (read : EStateM Exn MemoryCursor α) (position : Int) :
    EStateM Exn MemoryCursor α := do
  let returnPosition := (← get).position
  setPosition position
  let value ← read
  modify fun c => { c with position := returnPosition }
  return value

/-- The bytes of `ReadSpan<T>`, whose slice of the memory is checked once more. -/
def readSpan (size : Nat) (count : Int) : EStateM Exn MemoryCursor (List UInt8) := do
  let c ← get
  let spanSize := wrap32 (size * count)
  let endPosition := wrap32 (c.position + spanSize)
  if c.memory.length < endPosition then throw .invalidOperation
  else if 0 ≤ c.position ∧ c.position ≤ c.memory.length ∧ 0 ≤ spanSize ∧
      spanSize ≤ c.memory.length - c.position then
    set { c.touch spanSize.toNat with position := endPosition }
    return peekBytes c.memory c.outside c.position spanSize.toNat
  else throw .argumentOutOfRange

variable {size : Nat} {c : MemoryCursor}

theorem run_access (hsmall : c.memory.length < 2 ^ 31) (hstart : 0 ≤ c.position)
    (hfits : c.position + size ≤ c.memory.length) :
    (access size).run c =
      .ok c.position { c.touch size with position := c.position + size } := by
  have hwrap : wrap32 (c.position + size) = c.position + size :=
    wrap32_of_range (by omega) (by omega)
  have hnot : ¬ (c.memory.length : Int) < wrap32 (c.position + size) := by
    rw [hwrap]
    omega
  rw [access, run_get_bind, if_neg hnot, hwrap]
  rfl

end MemoryCursor

end AcOpenServer
