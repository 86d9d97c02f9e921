import AcOpenServer.BinaryMemory.MemoryWalks
import AcOpenServer.BinaryMemory.StreamAccessors

namespace AcOpenServer
open Library
set_option autoImplicit true

/-- What a `BinaryStreamReader` has besides its position. -/
structure StreamContents where
  bytes : List UInt8
  bigEndian : Bool

namespace StreamContents

variable (k : StreamContents)

def goTo (value : Int) : Walk Nat Unit := fun p =>
  if value < 0 ∨ 2 ^ 31 ≤ value then .error p else .ok ((), value.toNat)

/-- Over a value of more than one byte. Where it is not whole, the walk stops at the end. -/
def value (size : Nat) : Walk Nat Unit := fun p =>
  if p + size ≤ k.bytes.length then .ok ((), p + size) else .error k.bytes.length

/-- Over a byte, which stops where it starts. -/
def byte : Walk Nat UInt8 := fun p =>
  if p < k.bytes.length then .ok (Layout.decode ((k.bytes.drop p).take 1), p + 1) else .error p

def scalar : ScalarType → Walk Nat Unit
  | .sbyte | .byte => k.byte.unseen
  | .boolean => walkBoolean k.byte
  | type => k.value type.element.size

def text (type : TextType) : Walk Nat Unit :=
  (walkCharacter k.byte type.width).untilLast (k.bytes.length + 1)

def bytesOf (count : Int) : Walk Nat (List UInt8) :=
  if count < 0 then Walk.halt else k.byte.replicate count.toNat

/-- It stops as well when the terminator is looked for beyond the bytes that have been read. -/
def field (w : CharWidth) (count length : Int) : Walk Nat Unit := do
  let bytes ← k.bytesOf count
  match BinaryStreamReader.terminatorIndex w bytes length 0 with
  | .ok _ => return ()
  | .error _ => Walk.halt

end StreamContents

def StreamCursor.places : Places StreamCursor StreamContents Nat where
  contents c := ⟨c.stream.bytes, c.bigEndian⟩
  place c := c.stream.position

/-- Where the read moves to, over these contents. -/
def StreamAccessor.walk (k : StreamContents) : StreamAccessor → Walk Nat Unit
  | scalar type => k.scalar type
  | half => k.value 2
  | vector type => (k.value 4).times type.components
  | color type => k.byte.unseen.times type.size
  | text type => k.text type
  | textFixed type length => k.field type.width (type.byteCount length) length
  | scalars type count => walkArray (k.scalar type) count
  | halfs count => walkArray (k.value 2) count
  | vectors type count => walkArray (k.value 4) (wrap32 (count * type.components))

namespace BinaryStreamReader

open StreamCursor

variable {k : StreamContents}

theorem walks_setPosition (value : Int) :
    Walks places k (setPosition value) (fun _ => ()) (StreamContents.goTo value) := by
  intro c hc
  subst hc
  rw [setPosition, StateT.run, StreamContents.goTo]
  by_cases hrefused : value < 0 ∨ 2 ^ 31 ≤ value
  · rw [if_pos hrefused, if_pos hrefused]
    exact rfl
  · rw [if_neg hrefused, if_neg hrefused]
    exact ⟨rfl, rfl, rfl⟩

theorem walks_internalRead (size : Nat) :
    Walks places k (internalRead size) (fun _ => ()) (k.value size) := by
  intro c hc
  have hplace : places.place c = c.stream.position := rfl
  obtain ⟨bytes, bigEndian⟩ := k
  obtain ⟨rfl, rfl⟩ := StreamContents.mk.inj hc
  rw [internalRead, run_get_bind, StateT.run, StreamContents.value, hplace]
  dsimp only
  by_cases hfits : c.stream.position + size ≤ c.stream.bytes.length
  · rw [if_pos hfits, if_pos hfits]
    exact ⟨rfl, rfl, rfl⟩
  · rw [if_neg hfits, if_neg hfits]
    exact rfl

theorem walks_readByte : Walks places k readByte id k.byte := by
  intro c hc
  have hplace : places.place c = c.stream.position := rfl
  obtain ⟨bytes, bigEndian⟩ := k
  obtain ⟨rfl, rfl⟩ := StreamContents.mk.inj hc
  rw [readByte, internalReadByte, run_get_bind, StateT.run, StreamContents.byte, hplace]
  dsimp only
  by_cases hlt : c.stream.position < c.stream.bytes.length
  · rw [if_pos hlt, if_pos hlt]
    exact ⟨rfl, rfl, rfl⟩
  · rw [if_neg hlt, if_neg hlt]
    exact rfl

theorem walks_readSByte : Walks places k readSByte (fun _ => ()) k.byte.unseen := by
  have hsame : readSByte = do return (← readByte).toInt8 := by
    funext c
    change readSByte.run c = (do return (← readByte).toInt8 : EStateM Exn _ Int8).run c
    rw [readSByte, readByte, internalReadByte, internalReadByte, bind_assoc, run_get_bind,
      run_get_bind]
    by_cases hlt : c.stream.position < c.stream.bytes.length
    · rw [if_pos hlt, if_pos hlt]
      rfl
    · rw [if_neg hlt, if_neg hlt]
      rfl
  rw [hsame]
  exact walks_readByte.unseen.map fun _ => rfl

theorem walks_bigEndian {m m' : EStateM Exn BinaryStreamReader α} {see : α → β}
    {w : Walk Nat β} (hm : Walks places k m see w) (hm' : Walks places k m' see w) :
    Walks places k (do if (← get).bigEndian then m else m') see w := by
  apply walks_get_bind
  intro c hc
  have h := hm.ite (c := c.bigEndian = true) hm'
  rwa [ite_self] at h

theorem walks_readLittleEndian (α : Type) [Layout α] :
    Walks places k (readLittleEndian α) (fun _ => ()) (k.value (Layout.size α)) :=
  (walks_internalRead (Layout.size α)).map fun _ => rfl

theorem walks_readEndian (α : Type) [Layout α] :
    Walks places k (readEndian α) (fun _ => ()) (k.value (Layout.size α)) := by
  apply (walks_readLittleEndian α).bind_still
  intro value
  exact walks_bigEndian (walks_pure rfl) (walks_pure rfl)

theorem walks_readSingle : Walks places k readSingle (fun _ => ()) (k.value 4) :=
  (walks_readEndian UInt32).map fun _ => rfl

theorem walks_readScalar (type : ScalarType) :
    Walks places k (readScalar type) (fun _ => ()) (k.scalar type) := by
  cases type with
  | sbyte => exact walks_readSByte
  | byte => exact walks_readByte.unseen
  | int16 => exact walks_readEndian Int16
  | uint16 => exact walks_readEndian UInt16
  | int32 => exact walks_readEndian Int32
  | uint32 => exact walks_readEndian UInt32
  | int64 => exact walks_readEndian Int64
  | uint64 => exact walks_readEndian UInt64
  | single => exact walks_readSingle
  | double => exact (walks_readEndian UInt64).map fun _ => rfl
  | boolean => exact walks_boolean walks_readByte _

theorem walks_readHalf : Walks places k readHalf (fun _ => ()) (k.value 2) :=
  (walks_readEndian UInt16).map fun _ => rfl

theorem walks_readVector (type : VectorType) :
    Walks places k (readVector type) (fun _ => ()) ((k.value 4).times type.components) := by
  have h := walks_readSingle (k := k)
  cases type with
  | vector2 => exact h.bind fun x => h.bind fun y => walks_pure rfl
  | vector3 => exact h.bind fun x => h.bind fun y => h.bind fun z => walks_pure rfl
  | vector4 => exact h.bind fun x => h.bind fun y => h.bind fun z => h.bind fun w => walks_pure rfl
  | quaternion =>
    exact h.bind fun x => h.bind fun y => h.bind fun z => h.bind fun w => walks_pure rfl

theorem walks_readArray {m : EStateM Exn BinaryStreamReader α} {w : Walk Nat Unit}
    (hm : Walks places k m (fun _ => ()) w) (count : Int) :
    Walks places k (readArray m count) (fun _ => ()) (walkArray w count) :=
  Walks.ite (walks_throw _) (hm.times rfl (fun _ => rfl) _)

theorem walks_readScalars (type : ScalarType) (count : Int) :
    Walks places k (readScalars type count) (fun _ => ()) (walkArray (k.scalar type) count) := by
  cases type <;> exact walks_readArray (walks_readScalar _) count

theorem walks_readVectors (type : VectorType) (count : Int) :
    Walks places k (readVectors type count) (fun _ => ())
      (walkArray (k.value 4) (wrap32 (count * type.components))) := by
  have hcomponents : Walks places k (readVectorComponents count type.components) (fun _ => ())
      (walkArray (k.value 4) (wrap32 (count * type.components))) := by
    apply walks_bigEndian
    · exact walks_readArray ((walks_readLittleEndian UInt32).map fun _ => rfl) _
    · exact walks_readArray (walks_readLittleEndian Single) _
  cases type with
  | vector2 => exact hcomponents.map fun _ => rfl
  | vector3 => exact hcomponents.map fun _ => rfl
  | vector4 => exact hcomponents.map fun _ => rfl
  | quaternion => exact hcomponents.map fun _ => rfl

theorem walks_readColor (type : ColorType) :
    Walks places k (readColor type) (fun _ => ()) (k.byte.unseen.times type.size) := by
  have h := (walks_readByte (k := k)).unseen
  have hbytes (n : Nat) : Walks places k (readBytes n) (fun _ => ()) (k.byte.unseen.times n) := by
    have harray := walks_readArray h n
    rwa [walkArray, if_neg (by omega), Int.toNat_natCast] at harray
  cases type with
  | color3 => exact hbytes 3
  | rgb => exact h.bind fun r => h.bind fun g => h.bind fun b => walks_pure rfl
  | bgr => exact (hbytes 3).map fun _ => rfl
  | color4 => exact hbytes 4
  | rgba => exact (hbytes 4).map fun _ => rfl
  | bgra => exact (hbytes 4).map fun _ => rfl
  | argb => exact h.bind fun a => h.bind fun r => h.bind fun g => h.bind fun b => walks_pure rfl
  | abgr => exact (hbytes 4).map fun _ => rfl

theorem walks_read8Bit : Walks places k read8BitTerminatedStringBytes (fun _ => ())
    ((walkCharacter k.byte .eightBit).untilLast (k.bytes.length + 1)) := by
  apply walks_get_bind
  rintro c rfl
  exact walks_readTerminated (walks_read8BitCharacter walks_readByte) _

theorem walks_read16Bit : Walks places k read16BitTerminatedStringBytes (fun _ => ())
    ((walkCharacter k.byte .sixteenBit).untilLast (k.bytes.length + 1)) := by
  apply walks_get_bind
  rintro c rfl
  exact walks_readTerminated (walks_read16BitCharacter walks_readByte) _

theorem walks_read32Bit : Walks places k read32BitTerminatedStringBytes (fun _ => ())
    ((walkCharacter k.byte .thirtyTwoBit).untilLast (k.bytes.length + 1)) := by
  apply walks_get_bind
  rintro c rfl
  exact walks_readTerminated (walks_read32BitCharacter walks_readByte) _

theorem walks_readText (native : AccessNative) (type : TextType) :
    Walks places k (readText native type) (fun _ => ()) (k.text type) := by
  cases type with
  | utf8 => exact walks_read8Bit.map fun _ => rfl
  | ascii => exact walks_read8Bit.map fun _ => rfl
  | shiftJIS => exact walks_read8Bit.map fun _ => rfl
  | eucJP => exact walks_read8Bit.map fun _ => rfl
  | eucCN => exact walks_read8Bit.map fun _ => rfl
  | eucKR => exact walks_read8Bit.map fun _ => rfl
  | utf16 =>
    apply walks_bigEndian
    · exact walks_read16Bit.map fun _ => rfl
    · exact walks_read16Bit.map fun _ => rfl
  | utf16LittleEndian => exact walks_read16Bit.map fun _ => rfl
  | utf16BigEndian => exact walks_read16Bit.map fun _ => rfl
  | utf32 =>
    apply walks_bigEndian
    · exact walks_read32Bit.map fun _ => rfl
    · exact walks_read32Bit.map fun _ => rfl
  | utf32LittleEndian => exact walks_read32Bit.map fun _ => rfl
  | utf32BigEndian => exact walks_read32Bit.map fun _ => rfl

theorem walks_readBytes (count : Int) :
    Walks places k (readBytes count) id (k.bytesOf count) := by
  have hfill : Walks places k (fillArray readByte count.toNat) (List.map id)
      (k.byte.replicate count.toNat) := walks_readByte.replicate rfl (fun _ => rfl) _
  rw [List.map_id_fun] at hfill
  exact Walks.ite (walks_throw _) hfill

theorem walks_readField (encoding : Encoding) (w : CharWidth) (count length : Int) :
    Walks places k (do
      let bytes ← readBytes count
      let index ← ofExcept (terminatorIndex w bytes length 0)
      return encoding.getString (bytes.take index)) (fun _ => ()) (k.field w count length) := by
  apply (walks_readBytes count).bind
  intro bytes
  rw [id_eq]
  cases terminatorIndex w bytes length 0 with
  | ok index => exact walks_pure rfl
  | error e => exact walks_throw e

theorem walks_readTextFixed (native : AccessNative) (type : TextType) (length : Int) :
    Walks places k (readTextFixed native type length) (fun _ => ())
      (k.field type.width (type.byteCount length) length) := by
  cases type with
  | utf16 =>
    apply walks_bigEndian
    · exact walks_readField native.utf16BE .sixteenBit _ length
    · exact walks_readField native.utf16LE .sixteenBit _ length
  | utf32 =>
    apply walks_bigEndian
    · exact walks_readField native.utf32BE .thirtyTwoBit _ length
    · exact walks_readField native.utf32LE .thirtyTwoBit _ length
  | _ => exact walks_readField _ _ _ length

end BinaryStreamReader

namespace StreamAccessor

open BinaryStreamReader StreamCursor

variable (native : AccessNative)

theorem walks_read (k : StreamContents) (a : StreamAccessor) :
    Walks places k (a.read native) (fun _ => ()) (a.walk k) := by
  cases a with
  | scalar type => exact walks_readScalar type
  | half => exact walks_readHalf
  | vector type => exact walks_readVector type
  | color type => exact walks_readColor type
  | text type => exact walks_readText native type
  | textFixed type length => exact walks_readTextFixed native type length
  | scalars type count => exact walks_readScalars type count
  | halfs count => exact walks_readArray walks_readHalf count
  | vectors type count => exact walks_readVectors type count

/-- Every `Get` but one is passed the read of its own type. -/
theorem getAt_eq {a : StreamAccessor} (h : a ≠ scalar .int32) (position : Int) :
    a.getAt native position = getWith (a.read native) position := by
  cases a with
  | scalar type =>
    cases type with
    | int32 => exact absurd rfl h
    | _ => rfl
  | half => rfl
  | vector type => cases type <;> rfl
  | color type => cases type <;> rfl
  | text type => cases type <;> rfl
  | textFixed type length => cases type <;> rfl
  | scalars type count => cases type <;> rfl
  | halfs count => rfl
  | vectors type count => cases type <;> rfl

theorem peek_eq (a : StreamAccessor) : a.peek native = peekWith (a.read native) := by
  cases a with
  | scalar type => cases type <;> rfl
  | half => rfl
  | vector type => cases type <;> rfl
  | color type => cases type <;> rfl
  | text type => cases type <;> rfl
  | textFixed type length => cases type <;> rfl
  | scalars type count => cases type <;> rfl
  | halfs count => rfl
  | vectors type count => cases type <;> rfl

end StreamAccessor

end AcOpenServer
