import AcOpenServer.Library.Walk
import AcOpenServer.BinaryMemory.MemoryAccessors

namespace AcOpenServer
open Library
set_option autoImplicit true

def ElementType.size : ElementType → Nat
  | sbyte | byte | boolean => 1
  | int16 | uint16 | half => 2
  | int32 | uint32 | single => 4
  | int64 | uint64 | double => 8
  | int128 | uint128 => 16

def VectorType.components : VectorType → Nat
  | vector2 => 2
  | vector3 => 3
  | vector4 | quaternion => 4

def ColorType.size : ColorType → Nat
  | color3 | rgb | bgr => 3
  | color4 | rgba | bgra | argb | abgr => 4

def TextType.width : TextType → CharWidth
  | utf8 | ascii | shiftJIS | eucJP | eucCN | eucKR => .eightBit
  | utf16 | utf16LittleEndian | utf16BigEndian => .sixteenBit
  | utf32 | utf32LittleEndian | utf32BigEndian => .thirtyTwoBit

/-- How many bytes a string of a fixed length is read from. -/
def TextType.byteCount (type : TextType) (length : Int) : Int :=
  match type.width with
  | .eightBit => length
  | .sixteenBit => wrap32 (length * 2)
  | .thirtyTwoBit => wrap32 (length * 4)

section
variable {π : Type} (byte : Walk π UInt8)

/-- Behind a byte that is no boolean it stops. -/
def walkBoolean : Walk π Unit := do
  let b ← byte
  if b = 0 then return ()
  else if b = 1 then return ()
  else Walk.halt

/-- Over a character, of which it is seen whether it is zero. -/
def walkCharacter : CharWidth → Walk π Bool
  | .eightBit => do
    let b ← byte
    return decide (b = 0)
  | .sixteenBit => do
    let a ← byte
    let b ← byte
    return decide (a ||| b = 0)
  | .thirtyTwoBit => do
    let a ← byte
    let b ← byte
    let c ← byte
    let d ← byte
    return decide (a ||| b ||| c ||| d = 0)

/-- Over a new array of this length. -/
def walkArray (w : Walk π Unit) (count : Int) : Walk π Unit :=
  if count < 0 then Walk.halt else w.times count.toNat

end

section
variable {σ κ π : Type} {P : Places σ κ π} {k : κ} {byte : Walk π UInt8}
  {readByte : EStateM Exn σ UInt8}

theorem walks_boolean (h : Walks P k readByte id byte) (e : UInt8 → Exn) :
    Walks P k (do
      let value ← readByte
      if value = 0 then return false
      else if value = 1 then return true
      else throw (e value)) (fun _ => ()) (walkBoolean byte) := by
  apply h.bind
  intro b
  refine Walks.ite (walks_pure rfl) (Walks.ite (walks_pure rfl) (walks_throw _))

theorem isNone_ite (c : Prop) [Decidable c] (bytes : List UInt8) :
    (if c then none else some bytes).isNone = decide c := by
  by_cases hc : c
  · rw [if_pos hc, decide_eq_true hc]
    rfl
  · rw [if_neg hc, decide_eq_false hc]
    rfl

theorem walks_read8BitCharacter (h : Walks P k readByte id byte) :
    Walks P k (read8BitCharacter readByte) Option.isNone (walkCharacter byte .eightBit) := by
  apply h.bind
  intro b
  exact walks_pure (isNone_ite _ _)

theorem walks_read16BitCharacter (h : Walks P k readByte id byte) :
    Walks P k (read16BitCharacter readByte) Option.isNone (walkCharacter byte .sixteenBit) := by
  refine h.bind fun a => h.bind fun b => ?_
  exact walks_pure (isNone_ite _ _)

theorem walks_read32BitCharacter (h : Walks P k readByte id byte) :
    Walks P k (read32BitCharacter readByte) Option.isNone (walkCharacter byte .thirtyTwoBit) := by
  refine h.bind fun a => h.bind fun b => h.bind fun c => h.bind fun d => ?_
  exact walks_pure (isNone_ite _ _)

theorem walks_readTerminated {character : EStateM Exn σ (Option (List UInt8))} {last : Walk π Bool}
    (h : Walks P k character Option.isNone last) (limit : Nat) :
    Walks P k (readTerminated character limit) (fun _ => ()) (last.untilLast limit) :=
  Walks.map (h.collect .endOfStream limit) fun _ => rfl

end

/-- What a `BinaryMemoryReader` has besides its position. -/
structure MemoryContents where
  memory : List UInt8
  outside : Int → UInt8
  bigEndian : Bool

namespace MemoryContents

variable (k : MemoryContents)

/-- To the position that is set, unless it is refused. -/
def goTo (value : Int) : Walk Int Unit := fun p =>
  if k.memory.length < value % 2 ^ 32 then .error p else .ok ((), wrap32 value)

def bytes (size : Nat) : Walk Int (List UInt8) := fun p =>
  if k.memory.length < wrap32 (p + size) then .error p
  else .ok (peekBytes k.memory k.outside p size, wrap32 (p + size))

def value (size : Nat) : Walk Int Unit := (k.bytes size).unseen

def byte : Walk Int UInt8 := do return Layout.decode (← k.bytes 1)

def span (size : Nat) (count : Int) : Walk Int Unit := fun p =>
  let spanSize := wrap32 (size * count)
  if k.memory.length < wrap32 (p + spanSize) then .error p
  else if 0 ≤ p ∧ p ≤ k.memory.length ∧ 0 ≤ spanSize ∧ spanSize ≤ k.memory.length - p then
    .ok ((), wrap32 (p + spanSize))
  else .error p

def element : ElementType → Walk Int Unit
  | .boolean => walkBoolean k.byte
  | type => k.value type.size

def vector (type : VectorType) : Walk Int Unit :=
  if k.bigEndian then (k.value 4).times type.components else k.value (4 * type.components)

def text (type : TextType) : Walk Int Unit :=
  (walkCharacter k.byte type.width).untilLast positionCount

def elements (type : ElementType) (count : Int) : Walk Int Unit :=
  match type with
  | .sbyte | .byte => k.span 1 count
  | .boolean => walkArray (walkBoolean k.byte) count
  | type =>
    if k.bigEndian then walkArray (k.value type.size) count else k.span type.size count

def vectors (type : VectorType) (count : Int) : Walk Int Unit :=
  if k.bigEndian then walkArray (k.value 4) (wrap32 (count * type.components))
  else k.span (4 * type.components) count

variable (variableValueSize : Int)

def varVal : VarValType → Walk Int Unit
  | .signed | .unsigned =>
    if variableValueSize = 1 then k.value 1
    else if variableValueSize = 2 then k.value 2
    else if variableValueSize = 4 then k.value 4
    else if variableValueSize = 8 then k.value 8
    else Walk.halt
  | .precise =>
    if variableValueSize = 2 then k.value 2
    else if variableValueSize = 4 then k.value 4
    else if variableValueSize = 8 then k.value 8
    else Walk.halt

def varVals (type : VarValType) (count : Int) : Walk Int Unit :=
  match type with
  | .signed | .unsigned =>
    if variableValueSize = 1 then walkArray (k.value 1) count
    else if variableValueSize = 2 then walkArray (k.value 2) count
    else if variableValueSize = 4 then walkArray (k.value 4) count
    else if variableValueSize = 8 then k.elements .int64 count
    else Walk.halt
  | .precise =>
    if variableValueSize = 2 then walkArray (k.value 2) count
    else if variableValueSize = 4 then walkArray (k.value 4) count
    else if variableValueSize = 8 then k.elements .double count
    else Walk.halt

end MemoryContents

def MemoryCursor.places : Places MemoryCursor MemoryContents Int where
  contents c := ⟨c.memory, c.outside, c.bigEndian⟩
  place := position

/-- Where the read moves to, over these contents. -/
def MemoryAccessor.walk (k : MemoryContents) (variableValueSize : Int) :
    MemoryAccessor → Walk Int Unit
  | value size => k.value size.1
  | element type => k.element type
  | vector type => k.vector type
  | color type => k.span 1 type.size
  | varVal type => k.varVal variableValueSize type
  | text type => k.text type
  | textFixed type length => k.span 1 (type.byteCount length)
  | span size count => k.span size.1 count
  | elements type count => k.elements type count
  | vectors type count => k.vectors type count
  | varVals type count => k.varVals variableValueSize type count

namespace BinaryMemoryReader

open MemoryCursor

variable {k : MemoryContents}

theorem walks_setPosition (value : Int) :
    Walks places k (setPosition value) (fun _ => ()) (k.goTo value) := by
  intro c hc
  obtain ⟨memory, outside, bigEndian⟩ := k
  obtain ⟨rfl, rfl, rfl⟩ := MemoryContents.mk.inj hc
  rw [setPosition, run_get_bind, StateT.run, MemoryContents.goTo]
  dsimp only
  by_cases hlong : c.memory.length < value % 2 ^ 32
  · rw [if_pos hlong, if_pos hlong]
    exact rfl
  · rw [if_neg hlong, if_neg hlong]
    exact ⟨rfl, rfl, rfl⟩

theorem walks_readValue (size : Nat) :
    Walks places k (readValue size) id (k.bytes size) := by
  intro c hc
  have hplace : places.place c = c.position := rfl
  obtain ⟨memory, outside, bigEndian⟩ := k
  obtain ⟨rfl, rfl, rfl⟩ := MemoryContents.mk.inj hc
  rw [readValue, access, bind_assoc, run_get_bind, StateT.run, MemoryContents.bytes, hplace]
  dsimp only
  by_cases hlong : (c.memory.length : Int) < wrap32 (c.position + size)
  · rw [if_pos hlong, if_pos hlong]
    exact rfl
  · rw [if_neg hlong, if_neg hlong]
    exact ⟨rfl, rfl, rfl⟩

theorem walks_readSpan (size : Nat) (count : Int) :
    Walks places k (readSpan size count) (fun _ => ()) (k.span size count) := by
  intro c hc
  have hplace : places.place c = c.position := rfl
  obtain ⟨memory, outside, bigEndian⟩ := k
  obtain ⟨rfl, rfl, rfl⟩ := MemoryContents.mk.inj hc
  rw [readSpan, run_get_bind, StateT.run, MemoryContents.span, hplace]
  dsimp only
  by_cases hlong : (c.memory.length : Int) < wrap32 (c.position + wrap32 (size * count))
  · rw [if_pos hlong, if_pos hlong]
    exact rfl
  · rw [if_neg hlong, if_neg hlong]
    by_cases hslice : 0 ≤ c.position ∧ c.position ≤ c.memory.length ∧
        0 ≤ wrap32 (size * count) ∧ wrap32 (size * count) ≤ c.memory.length - c.position
    · rw [if_pos hslice, if_pos hslice]
      exact ⟨rfl, rfl, rfl⟩
    · rw [if_neg hslice, if_neg hslice]
      exact rfl

theorem walks_bigEndian {m m' : EStateM Exn BinaryMemoryReader α} {see : α → β}
    {w w' : Walk Int β} (hm : Walks places k m see w) (hm' : Walks places k m' see w') :
    Walks places k (do if (← get).bigEndian then m else m') see
      (if k.bigEndian then w else w') := by
  apply walks_get_bind
  intro c hc
  have hbig : c.bigEndian = k.bigEndian := congrArg MemoryContents.bigEndian hc
  rw [hbig]
  exact hm.ite hm'

theorem walks_eitherEndian {m m' : EStateM Exn BinaryMemoryReader α} {see : α → β}
    {w : Walk Int β} (hm : Walks places k m see w) (hm' : Walks places k m' see w) :
    Walks places k (do if (← get).bigEndian then m else m') see w := by
  have h := walks_bigEndian hm hm'
  rwa [ite_self] at h

section
variable (α β : Type) [Layout α] [Layout β]

theorem walks_read : Walks places k (read α) (fun _ => ()) (k.value (Layout.size α)) :=
  (walks_readValue (Layout.size α)).unseen.map fun _ => rfl

theorem walks_readEndian :
    Walks places k (readEndian α) (fun _ => ()) (k.value (Layout.size α)) := by
  apply (walks_read α).bind_still
  intro value
  exact walks_eitherEndian (walks_pure rfl) (walks_pure rfl)

theorem walks_readEndianConvert (convert : α → β) (hsame : Layout.size β = Layout.size α) :
    Walks places k (readEndianConvert α convert) (fun _ => ()) (k.value (Layout.size α)) := by
  apply walks_eitherEndian
  · exact (walks_read α).map fun _ => rfl
  · rw [← hsame]
    exact walks_read β

end

theorem walks_readByte : Walks places k readByte id k.byte := by
  apply (walks_readValue 1).bind
  intro bytes
  exact walks_pure rfl

theorem walks_readElement (type : ElementType) :
    Walks places k (readElement type) (fun _ => ()) (k.element type) := by
  cases type with
  | sbyte => exact walks_read Int8
  | byte => exact walks_read UInt8
  | int16 => exact walks_readEndian Int16
  | uint16 => exact walks_readEndian UInt16
  | int32 => exact walks_readEndian Int32
  | uint32 => exact walks_readEndian UInt32
  | int64 => exact walks_readEndian Int64
  | uint64 => exact walks_readEndian UInt64
  | int128 => exact walks_readEndian Int128
  | uint128 => exact walks_readEndian UInt128
  | half => exact walks_readEndianConvert UInt16 Half Half.mk rfl
  | single => exact walks_readEndianConvert UInt32 Single Single.mk rfl
  | double => exact walks_readEndianConvert UInt64 Double Double.mk rfl
  | boolean => exact walks_boolean walks_readByte _

theorem walks_readComponent : Walks places k readComponent (fun _ => ()) (k.value 4) :=
  (walks_read UInt32).map fun _ => rfl

theorem walks_readVector (type : VectorType) :
    Walks places k (readVector type) (fun _ => ()) (k.vector type) := by
  have h := walks_readComponent (k := k)
  cases type with
  | vector2 =>
    refine walks_bigEndian ?_ (walks_read Vector2)
    exact h.bind fun x => h.bind fun y => walks_pure rfl
  | vector3 =>
    refine walks_bigEndian ?_ (walks_read Vector3)
    exact h.bind fun x => h.bind fun y => h.bind fun z => walks_pure rfl
  | vector4 =>
    refine walks_bigEndian ?_ (walks_read Vector4)
    exact h.bind fun x => h.bind fun y => h.bind fun z => h.bind fun w => walks_pure rfl
  | quaternion =>
    refine walks_bigEndian ?_ (walks_read Quaternion)
    exact h.bind fun x => h.bind fun y => h.bind fun z => h.bind fun w => walks_pure rfl

theorem walks_readArray (α : Type) [Layout α] (count : Int) :
    Walks places k (readArray α count) (fun _ => ()) (k.span (Layout.size α) count) :=
  (walks_readSpan (Layout.size α) count).map fun _ => rfl

theorem walks_readColor (type : ColorType) :
    Walks places k (readColor type) (fun _ => ()) (k.span 1 type.size) := by
  cases type with
  | color3 => exact walks_readArray UInt8 3
  | rgb => exact (walks_readSpan 1 3).map fun _ => rfl
  | bgr => exact (walks_readSpan 1 3).map fun _ => rfl
  | color4 => exact walks_readArray UInt8 4
  | rgba => exact (walks_readSpan 1 4).map fun _ => rfl
  | bgra => exact (walks_readSpan 1 4).map fun _ => rfl
  | argb => exact (walks_readSpan 1 4).map fun _ => rfl
  | abgr => exact (walks_readSpan 1 4).map fun _ => rfl

theorem walks_readVarVal (variableValueSize : Int) (type : VarValType) :
    Walks places k (readVarVal variableValueSize type) (fun _ => ())
      (k.varVal variableValueSize type) := by
  cases type with
  | signed =>
    refine Walks.ite ((walks_read Int8).map fun _ => rfl) ?_
    refine Walks.ite ((walks_readEndian Int16).map fun _ => rfl) ?_
    refine Walks.ite ((walks_readEndian Int32).map fun _ => rfl) ?_
    exact Walks.ite (walks_readEndian Int64) (walks_throw _)
  | unsigned =>
    refine Walks.ite ((walks_read UInt8).map fun _ => rfl) ?_
    refine Walks.ite ((walks_readEndian UInt16).map fun _ => rfl) ?_
    refine Walks.ite ((walks_readEndian UInt32).map fun _ => rfl) ?_
    exact Walks.ite (walks_readEndian UInt64) (walks_throw _)
  | precise =>
    refine Walks.ite ((walks_readElement .half).map fun _ => rfl) ?_
    refine Walks.ite ((walks_readElement .single).map fun _ => rfl) ?_
    exact Walks.ite (walks_readElement .double) (walks_throw _)

theorem walks_read8Bit : Walks places k read8BitTerminatedStringBytes (fun _ => ())
    ((walkCharacter k.byte .eightBit).untilLast positionCount) :=
  walks_readTerminated (walks_read8BitCharacter walks_readByte) positionCount

theorem walks_read16Bit : Walks places k read16BitTerminatedStringBytes (fun _ => ())
    ((walkCharacter k.byte .sixteenBit).untilLast positionCount) :=
  walks_readTerminated (walks_read16BitCharacter walks_readByte) positionCount

theorem walks_read32Bit : Walks places k read32BitTerminatedStringBytes (fun _ => ())
    ((walkCharacter k.byte .thirtyTwoBit).untilLast positionCount) :=
  walks_readTerminated (walks_read32BitCharacter walks_readByte) positionCount

theorem walks_readText (native : AccessNative) (type : TextType) :
    Walks places k (readText native type) (fun _ => ()) (k.text type) := by
  cases type with
  | utf8 => exact walks_read8Bit.map fun _ => rfl
  | ascii => exact walks_read8Bit.map fun _ => rfl
  | shiftJIS => exact walks_read8Bit.map fun _ => rfl
  | eucJP => exact walks_read8Bit.map fun _ => rfl
  | eucCN => exact walks_read8Bit.map fun _ => rfl
  | eucKR => exact walks_read8Bit.map fun _ => rfl
  | utf16 =>
    apply walks_eitherEndian
    · exact walks_read16Bit.map fun _ => rfl
    · exact walks_read16Bit.map fun _ => rfl
  | utf16LittleEndian => exact walks_read16Bit.map fun _ => rfl
  | utf16BigEndian => exact walks_read16Bit.map fun _ => rfl
  | utf32 =>
    apply walks_eitherEndian
    · exact walks_read32Bit.map fun _ => rfl
    · exact walks_read32Bit.map fun _ => rfl
  | utf32LittleEndian => exact walks_read32Bit.map fun _ => rfl
  | utf32BigEndian => exact walks_read32Bit.map fun _ => rfl

theorem walks_readString (encoding : Encoding) (byteCount : Int) :
    Walks places k (readString encoding byteCount) (fun _ => ()) (k.span 1 byteCount) :=
  (walks_readArray UInt8 byteCount).map fun _ => rfl

theorem walks_readTextFixed (native : AccessNative) (type : TextType) (length : Int) :
    Walks places k (readTextFixed native type length) (fun _ => ())
      (k.span 1 (type.byteCount length)) := by
  cases type with
  | utf16 =>
    apply walks_eitherEndian
    · exact walks_readString native.utf16BE _
    · exact walks_readString native.utf16LE _
  | utf32 =>
    apply walks_eitherEndian
    · exact walks_readString native.utf32BE _
    · exact walks_readString native.utf32LE _
  | _ => exact walks_readString _ _

theorem walks_readEach {m : EStateM Exn BinaryMemoryReader α} {w : Walk Int Unit}
    (hm : Walks places k m (fun _ => ()) w) (count : Int) :
    Walks places k (readEach m count) (fun _ => ()) (walkArray w count) :=
  Walks.ite (walks_throw _) (hm.times rfl (fun _ => rfl) _)

section
variable (α β : Type) [Layout α] [Layout β] (count : Int)

theorem walks_readArrayEndian : Walks places k (readArrayEndian α count) (fun _ => ())
    (if k.bigEndian then walkArray (k.value (Layout.size α)) count
      else k.span (Layout.size α) count) :=
  walks_bigEndian (walks_readEach ((walks_read α).map fun _ => rfl) count) (walks_readArray α count)

theorem walks_readArrayEndianConvert (convert : α → β) (hsame : Layout.size β = Layout.size α) :
    Walks places k (readArrayEndianConvert α convert count) (fun _ => ())
      (if k.bigEndian then walkArray (k.value (Layout.size α)) count
        else k.span (Layout.size α) count) := by
  apply walks_bigEndian
  · exact walks_readEach ((walks_read α).map fun _ => rfl) count
  · rw [← hsame]
    exact walks_readArray β count

end

theorem walks_readElements (type : ElementType) (count : Int) :
    Walks places k (readElements type count) (fun _ => ()) (k.elements type count) := by
  cases type with
  | sbyte => exact walks_readArray Int8 count
  | byte => exact walks_readArray UInt8 count
  | int16 => exact walks_readArrayEndian Int16 count
  | uint16 => exact walks_readArrayEndian UInt16 count
  | int32 => exact walks_readArrayEndian Int32 count
  | uint32 => exact walks_readArrayEndian UInt32 count
  | int64 => exact walks_readArrayEndian Int64 count
  | uint64 => exact walks_readArrayEndian UInt64 count
  | int128 => exact walks_readArrayEndian Int128 count
  | uint128 => exact walks_readArrayEndian UInt128 count
  | half => exact walks_readArrayEndianConvert UInt16 Half count Half.mk rfl
  | single => exact walks_readArrayEndianConvert UInt32 Single count Single.mk rfl
  | double => exact walks_readArrayEndianConvert UInt64 Double count Double.mk rfl
  | boolean => exact walks_readEach (walks_readElement .boolean) count

theorem walks_readVectors (type : VectorType) (count : Int) :
    Walks places k (readVectors type count) (fun _ => ()) (k.vectors type count) := by
  have h := walks_readEach (walks_readComponent (k := k)) (wrap32 (count * type.components))
  cases type with
  | vector2 => exact walks_bigEndian (h.map fun _ => rfl) (walks_readArray Vector2 count)
  | vector3 => exact walks_bigEndian (h.map fun _ => rfl) (walks_readArray Vector3 count)
  | vector4 => exact walks_bigEndian (h.map fun _ => rfl) (walks_readArray Vector4 count)
  | quaternion => exact walks_bigEndian (h.map fun _ => rfl) (walks_readArray Quaternion count)

theorem walks_readCast {α : Type} [Layout α] (f : α → β) (count : Int) :
    Walks places k (readEach (do return f (← read α)) count) (fun _ => ())
      (walkArray (k.value (Layout.size α)) count) :=
  walks_readEach ((walks_read α).map fun _ => rfl) count

theorem walks_readVarVals (variableValueSize count : Int) (type : VarValType) :
    Walks places k (readVarVals variableValueSize count type) (fun _ => ())
      (k.varVals variableValueSize type count) := by
  cases type with
  | signed =>
    refine Walks.ite (walks_readCast Int8.toInt64 count) ?_
    refine Walks.ite (walks_eitherEndian (walks_readCast _ count) (walks_readCast _ count)) ?_
    refine Walks.ite (walks_eitherEndian (walks_readCast _ count) (walks_readCast _ count)) ?_
    exact Walks.ite (walks_readElements .int64 count) (walks_throw _)
  | unsigned =>
    refine Walks.ite (walks_readCast UInt8.toUInt64 count) ?_
    refine Walks.ite (walks_eitherEndian (walks_readCast _ count) (walks_readCast _ count)) ?_
    refine Walks.ite (walks_eitherEndian (walks_readCast _ count) (walks_readCast _ count)) ?_
    exact Walks.ite (walks_readElements .uint64 count) (walks_throw _)
  | precise =>
    refine Walks.ite (walks_eitherEndian (walks_readCast _ count) (walks_readCast _ count)) ?_
    refine Walks.ite (walks_eitherEndian (walks_readCast _ count) (walks_readCast _ count)) ?_
    exact Walks.ite (walks_readElements .double count) (walks_throw _)

theorem peekWith_map (m : EStateM Exn BinaryMemoryReader α) (f : α → β) :
    peekWith (do return f (← m)) = do return f (← peekWith m) := by
  simp only [peekWith, bind_assoc, pure_bind]

theorem peekValue_eq (size : Nat) : peekValue size = peekWith (readValue size) := by
  funext c
  change (peekValue size).run c = (peekWith (readValue size)).run c
  rw [peekValue, run_get_bind, peekWith, run_get_bind, readValue, EStateM.run_bind,
    EStateM.run_bind, access, run_get_bind]
  by_cases hlong : (c.memory.length : Int) < wrap32 (c.position + size)
  · rw [if_pos hlong, if_pos hlong]
    rfl
  · rw [if_neg hlong, if_neg hlong]
    rfl

theorem peekSpan_eq (size : Nat) (count : Int) :
    peekSpan size count = peekWith (readSpan size count) := by
  funext c
  change (peekSpan size count).run c = (peekWith (readSpan size count)).run c
  rw [peekSpan, run_get_bind, peekWith, run_get_bind, readSpan, EStateM.run_bind, run_get_bind]
  by_cases hlong : (c.memory.length : Int) < wrap32 (c.position + wrap32 (size * count))
  · rw [if_pos hlong, if_pos hlong]
    rfl
  · rw [if_neg hlong, if_neg hlong]
    by_cases hslice : 0 ≤ c.position ∧ c.position ≤ c.memory.length ∧
        0 ≤ wrap32 (size * count) ∧ wrap32 (size * count) ≤ c.memory.length - c.position
    · rw [if_pos hslice, if_pos hslice]
      rfl
    · rw [if_neg hslice, if_neg hslice]
      rfl

theorem peekUnmanaged_eq (α : Type) [Layout α] : peekUnmanaged α = peekWith (read α) := by
  rw [peekUnmanaged, peekValue_eq, read, peekWith_map]

theorem peekArray_eq (α : Type) [Layout α] (count : Int) :
    peekArray α count = peekWith (readArray α count) := by
  rw [peekArray, peekSpan_eq, readArray]
  exact (peekWith_map _ _).symm

end BinaryMemoryReader

namespace MemoryAccessor

open BinaryMemoryReader MemoryCursor

variable (native : AccessNative) (variableValueSize : Int)

theorem walks_read (k : MemoryContents) (a : MemoryAccessor) :
    Walks places k (a.read native variableValueSize) (fun _ => ())
      (a.walk k variableValueSize) := by
  cases a with
  | value size => exact (walks_readValue size.1).unseen
  | element type => exact walks_readElement type
  | vector type => exact walks_readVector type
  | color type => exact walks_readColor type
  | varVal type => exact walks_readVarVal variableValueSize type
  | text type => exact walks_readText native type
  | textFixed type length => exact walks_readTextFixed native type length
  | span size count => exact walks_readSpan size.1 count
  | elements type count => exact walks_readElements type count
  | vectors type count => exact walks_readVectors type count
  | varVals type count => exact walks_readVarVals variableValueSize count type

/-- Every `Get` is passed the read of its own type. -/
theorem getAt_eq (position : Int) (a : MemoryAccessor) :
    a.getAt native variableValueSize position =
      getWith (a.read native variableValueSize) position := by
  cases a with
  | value size => rfl
  | element type => cases type <;> rfl
  | vector type => cases type <;> rfl
  | color type => cases type <;> rfl
  | varVal type => cases type <;> rfl
  | text type => cases type <;> rfl
  | textFixed type length => cases type <;> rfl
  | span size count => rfl
  | elements type count => cases type <;> rfl
  | vectors type count => cases type <;> rfl
  | varVals type count => cases type <;> rfl

theorem peekElement_eq (type : ElementType) : peekElement type = peekWith (readElement type) := by
  cases type with
  | sbyte => exact peekUnmanaged_eq Int8
  | byte => exact peekUnmanaged_eq UInt8
  | _ => rfl

theorem peekElements_eq (type : ElementType) (count : Int) :
    peekElements type count = peekWith (readElements type count) := by
  cases type with
  | sbyte => exact peekArray_eq Int8 count
  | byte => exact peekArray_eq UInt8 count
  | _ => rfl

theorem peek_eq (a : MemoryAccessor) :
    a.peek native variableValueSize = peekWith (a.read native variableValueSize) := by
  cases a with
  | value size => exact peekValue_eq size.1
  | element type => exact peekElement_eq type
  | vector type => cases type <;> rfl
  | color type => cases type <;> rfl
  | varVal type => cases type <;> rfl
  | text type => cases type <;> rfl
  | textFixed type length => cases type <;> rfl
  | span size count => exact peekSpan_eq size.1 count
  | elements type count => exact peekElements_eq type count
  | vectors type count => cases type <;> rfl
  | varVals type count => cases type <;> rfl

end MemoryAccessor

end AcOpenServer
