import AcOpenServer.BinaryMemory.RoundTrip
import AcOpenServer.Library.Keeps
import AcOpenServer.Library.Trace

namespace AcOpenServer
open Library
set_option autoImplicit true

/-- A `BinaryMemoryWriter` with its reservations, the positions that are to be filled later. -/
structure ReservingWriter where
  cursor : BinaryMemoryWriter
  reservations : Utf16 → Option Int

namespace ReservingWriter

def onCursor (m : EStateM Exn BinaryMemoryWriter α) : EStateM Exn ReservingWriter α :=
  zoom cursor (fun cursor w => { w with cursor }) m

def key (name : Utf16) (typeName : String) : Utf16 := name ++ ascii ":" ++ ascii typeName

def reserve (name : Utf16) (typeName : String) (length : Nat) :
    EStateM Exn ReservingWriter Unit := do
  let w ← get
  if (w.reservations (key name typeName)).isSome then throw .argument
  else
    set { w with
      reservations :=
        Function.update w.reservations (key name typeName) (some w.cursor.position) }
    onCursor (MemoryCursor.each (fun _ => BinaryMemoryWriter.writeByte 0xFE) (List.range length))

def takeReservation (name : Utf16) (typeName : String) : EStateM Exn ReservingWriter Int := do
  let w ← get
  match w.reservations (key name typeName) with
  | none => throw .argument
  | some jump =>
    set { w with reservations := Function.update w.reservations (key name typeName) none }
    return jump

def fill (name : Utf16) (typeName : String) (write : α → EStateM Exn BinaryMemoryWriter Unit)
    (value : α) : EStateM Exn ReservingWriter Unit := do
  let returnPosition := (← get).cursor.position
  let jump ← takeReservation name typeName
  modify fun w => { w with cursor := { w.cursor with position := jump } }
  onCursor (write value)
  modify fun w => { w with cursor := { w.cursor with position := returnPosition } }

section
variable (name : Utf16)

def reserveUnmanaged (α : Type) [Layout α] : EStateM Exn ReservingWriter Unit :=
  reserve name "unmanaged" (Layout.size α)

def reserveSByte : EStateM Exn ReservingWriter Unit := reserve name "SByte" 1
def reserveByte : EStateM Exn ReservingWriter Unit := reserve name "Byte" 1
def reserveInt16 : EStateM Exn ReservingWriter Unit := reserve name "Int16" 2
def reserveUInt16 : EStateM Exn ReservingWriter Unit := reserve name "UInt16" 2
def reserveInt32 : EStateM Exn ReservingWriter Unit := reserve name "Int32" 4
def reserveUInt32 : EStateM Exn ReservingWriter Unit := reserve name "UInt32" 4
def reserveInt64 : EStateM Exn ReservingWriter Unit := reserve name "Int64" 8
def reserveUInt64 : EStateM Exn ReservingWriter Unit := reserve name "UInt64" 8
def reserveInt128 : EStateM Exn ReservingWriter Unit := reserve name "Int128" 16
def reserveUInt128 : EStateM Exn ReservingWriter Unit := reserve name "UInt128" 16
def reserveHalf : EStateM Exn ReservingWriter Unit := reserve name "Half" 2
def reserveSingle : EStateM Exn ReservingWriter Unit := reserve name "Single" 4
def reserveDouble : EStateM Exn ReservingWriter Unit := reserve name "Double" 8
def reserveBoolean : EStateM Exn ReservingWriter Unit := reserve name "Boolean" 1
def reserveVector2 : EStateM Exn ReservingWriter Unit := reserve name "Vector2" 8
def reserveVector3 : EStateM Exn ReservingWriter Unit := reserve name "Vector3" 12
def reserveVector4 : EStateM Exn ReservingWriter Unit := reserve name "Vector4" 16
def reserveQuaternion : EStateM Exn ReservingWriter Unit := reserve name "Quaternion" 16

def fillUnmanaged [Layout α] (value : α) : EStateM Exn ReservingWriter Unit :=
  fill name "unmanaged" BinaryMemoryWriter.write value

def fillSByte (value : Int8) : EStateM Exn ReservingWriter Unit :=
  fill name "SByte" BinaryMemoryWriter.writeSByte value

def fillByte (value : UInt8) : EStateM Exn ReservingWriter Unit :=
  fill name "Byte" BinaryMemoryWriter.writeByte value

def fillInt16 (value : Int16) : EStateM Exn ReservingWriter Unit :=
  fill name "Int16" BinaryMemoryWriter.writeInt16 value

def fillUInt16 (value : UInt16) : EStateM Exn ReservingWriter Unit :=
  fill name "UInt16" BinaryMemoryWriter.writeUInt16 value

def fillInt32 (value : Int32) : EStateM Exn ReservingWriter Unit :=
  fill name "Int32" BinaryMemoryWriter.writeInt32 value

def fillUInt32 (value : UInt32) : EStateM Exn ReservingWriter Unit :=
  fill name "UInt32" BinaryMemoryWriter.writeUInt32 value

def fillInt64 (value : Int64) : EStateM Exn ReservingWriter Unit :=
  fill name "Int64" BinaryMemoryWriter.writeInt64 value

def fillUInt64 (value : UInt64) : EStateM Exn ReservingWriter Unit :=
  fill name "UInt64" BinaryMemoryWriter.writeUInt64 value

def fillInt128 (value : Int128) : EStateM Exn ReservingWriter Unit :=
  fill name "Int64" BinaryMemoryWriter.writeInt128 value

def fillUInt128 (value : UInt128) : EStateM Exn ReservingWriter Unit :=
  fill name "UInt128" BinaryMemoryWriter.writeUInt128 value

def fillHalf (value : Half) : EStateM Exn ReservingWriter Unit :=
  fill name "Half" BinaryMemoryWriter.writeHalf value

def fillSingle (value : Single) : EStateM Exn ReservingWriter Unit :=
  fill name "Single" BinaryMemoryWriter.writeSingle value

def fillDouble (value : Double) : EStateM Exn ReservingWriter Unit :=
  fill name "Double" BinaryMemoryWriter.writeDouble value

def fillBoolean (value : Bool) : EStateM Exn ReservingWriter Unit :=
  fill name "Boolean" BinaryMemoryWriter.writeBoolean value

def fillVector2 (value : Vector2) : EStateM Exn ReservingWriter Unit :=
  fill name "Vector2" BinaryMemoryWriter.writeVector2 value

def fillVector3 (value : Vector3) : EStateM Exn ReservingWriter Unit :=
  fill name "Vector3" BinaryMemoryWriter.writeVector3 value

def fillVector4 (value : Vector4) : EStateM Exn ReservingWriter Unit :=
  fill name "Vector4" BinaryMemoryWriter.writeVector4 value

def fillQuaternion (value : Quaternion) : EStateM Exn ReservingWriter Unit :=
  fill name "Quaternion" BinaryMemoryWriter.writeQuaternion value

end

end ReservingWriter

/-- An unmanaged type that a caller may give for `T`, and the number of its bytes. -/
structure UnmanagedType where
  name : String
  size : Nat
  pos : 0 < size
  lt : size < 2 ^ 31
  deriving DecidableEq, Repr

def UnmanagedType.Value (type : UnmanagedType) : Type := Block type.size

instance (type : UnmanagedType) : Layout type.Value where
  size := type.size
  encode value := value.1
  decode bytes :=
    if h : bytes.length = type.size then ⟨bytes, h⟩
    else ⟨List.replicate type.size 0, List.length_replicate⟩
  length_encode value := value.2
  decode_encode value := dif_pos value.2
  encode_decode _ h := congrArg Subtype.val (dif_pos h)

/-- The types there are reservations for. -/
inductive ReservedType where
  | unmanaged (type : UnmanagedType)
  | element (type : ElementType)
  | vector2
  | vector3
  | vector4
  | quaternion
  deriving DecidableEq, Repr

namespace ReservedType

def Value : ReservedType → Type
  | unmanaged type => type.Value
  | element type => type.Value
  | vector2 => Vector2
  | vector3 => Vector3
  | vector4 => Vector4
  | quaternion => Quaternion

/-- The name the type has in the keys of its reservations. -/
def typeName : ReservedType → String
  | .unmanaged _ => "unmanaged"
  | .element .sbyte => "SByte"
  | .element .byte => "Byte"
  | .element .int16 => "Int16"
  | .element .uint16 => "UInt16"
  | .element .int32 => "Int32"
  | .element .uint32 => "UInt32"
  | .element .int64 => "Int64"
  | .element .uint64 => "UInt64"
  | .element .int128 => "Int128"
  | .element .uint128 => "UInt128"
  | .element .half => "Half"
  | .element .single => "Single"
  | .element .double => "Double"
  | .element .boolean => "Boolean"
  | .vector2 => "Vector2"
  | .vector3 => "Vector3"
  | .vector4 => "Vector4"
  | .quaternion => "Quaternion"

/-- How many bytes are reserved. -/
def size : ReservedType → Nat
  | .unmanaged type => type.size
  | .element .sbyte => 1
  | .element .byte => 1
  | .element .int16 => 2
  | .element .uint16 => 2
  | .element .int32 => 4
  | .element .uint32 => 4
  | .element .int64 => 8
  | .element .uint64 => 8
  | .element .int128 => 16
  | .element .uint128 => 16
  | .element .half => 2
  | .element .single => 4
  | .element .double => 8
  | .element .boolean => 1
  | .vector2 => 8
  | .vector3 => 12
  | .vector4 => 16
  | .quaternion => 16

/-- The method that writes a value. -/
def write (type : ReservedType) : type.Value → EStateM Exn BinaryMemoryWriter Unit :=
  match type with
  | .unmanaged type => BinaryMemoryWriter.write (α := type.Value)
  | .element type => BinaryMemoryWriter.writeElement type
  | .vector2 => BinaryMemoryWriter.writeVector2
  | .vector3 => BinaryMemoryWriter.writeVector3
  | .vector4 => BinaryMemoryWriter.writeVector4
  | .quaternion => BinaryMemoryWriter.writeQuaternion

open ReservingWriter

/-- The method that reserves the bytes of a value. -/
def reserve (type : ReservedType) (name : Utf16) : EStateM Exn ReservingWriter Unit :=
  match type with
  | .unmanaged type => reserveUnmanaged name type.Value
  | .element .sbyte => reserveSByte name
  | .element .byte => reserveByte name
  | .element .int16 => reserveInt16 name
  | .element .uint16 => reserveUInt16 name
  | .element .int32 => reserveInt32 name
  | .element .uint32 => reserveUInt32 name
  | .element .int64 => reserveInt64 name
  | .element .uint64 => reserveUInt64 name
  | .element .int128 => reserveInt128 name
  | .element .uint128 => reserveUInt128 name
  | .element .half => reserveHalf name
  | .element .single => reserveSingle name
  | .element .double => reserveDouble name
  | .element .boolean => reserveBoolean name
  | .vector2 => reserveVector2 name
  | .vector3 => reserveVector3 name
  | .vector4 => reserveVector4 name
  | .quaternion => reserveQuaternion name

/-- The method that fills them. -/
def fill (type : ReservedType) (name : Utf16) : type.Value → EStateM Exn ReservingWriter Unit :=
  match type with
  | .unmanaged type => fillUnmanaged name (α := type.Value)
  | .element .sbyte => fillSByte name
  | .element .byte => fillByte name
  | .element .int16 => fillInt16 name
  | .element .uint16 => fillUInt16 name
  | .element .int32 => fillInt32 name
  | .element .uint32 => fillUInt32 name
  | .element .int64 => fillInt64 name
  | .element .uint64 => fillUInt64 name
  | .element .int128 => fillInt128 name
  | .element .uint128 => fillUInt128 name
  | .element .half => fillHalf name
  | .element .single => fillSingle name
  | .element .double => fillDouble name
  | .element .boolean => fillBoolean name
  | .vector2 => fillVector2 name
  | .vector3 => fillVector3 name
  | .vector4 => fillVector4 name
  | .quaternion => fillQuaternion name

end ReservedType

/-- The operations between which reservations are pending. -/
inductive ReservingOp where
  | write (value : TypedValue)
  | writeUnmanaged (type : UnmanagedType) (value : type.Value)
  | bigEndian (value : Bool)
  | position (value : Int64)
  | reserve (type : ReservedType) (name : Utf16)
  | fill (type : ReservedType) (name : Utf16) (value : type.Value)

def ReservingOp.run : ReservingOp → EStateM Exn ReservingWriter Unit
  | write value => ReservingWriter.onCursor value.write
  | writeUnmanaged _ value => ReservingWriter.onCursor (BinaryMemoryWriter.write value)
  | bigEndian value => modify fun w => { w with cursor := { w.cursor with bigEndian := value } }
  | position value => ReservingWriter.onCursor (MemoryCursor.setPosition value.toInt)
  | reserve type name => type.reserve name
  | fill type name value => type.fill name value

/-- A writer, and what has been reserved by type and name and has not been filled yet. -/
structure Account where
  writer : ReservingWriter
  pending : ReservedType → Utf16 → Option Int

namespace Account

/-- What is reserved for one type and name is now this. -/
def enter (type : ReservedType) (name : Utf16) (position : Option Int) (a : Account) :
    ReservedType → Utf16 → Option Int := fun type' name' =>
  if type' = type ∧ name' = name then position else a.pending type' name'

/-- What is reserved after an operation: one that throws reserves and fills nothing. -/
def settle (op : ReservingOp) (a : Account) : ReservedType → Utf16 → Option Int :=
  match op, op.run.run a.writer with
  | .reserve type name, .ok _ _ => a.enter type name (some a.writer.cursor.position)
  | .fill type name _, .ok _ _ => a.enter type name none
  | _, _ => a.pending

def step (op : ReservingOp) (a : Account) : Account where
  writer := stateAfter op.run a.writer
  pending := a.settle op

/-- Neither the reservations nor the bytes nor the position have changed. -/
structure Unchanged (w t : ReservingWriter) : Prop where
  reservations : t.reservations = w.reservations
  memory : t.cursor.memory = w.cursor.memory
  position : t.cursor.position = w.cursor.position

/-- The bytes reserved at `p` are filled with what the type's own method writes there, and nothing
else is changed. -/
structure Fills (type : ReservedType) (name : Utf16) (value : type.Value) (p : Int)
    (w t : ReservingWriter) : Prop where
  written : ∃ c, (type.write value).run { w.cursor with position := p } = .ok () c ∧
    t.cursor.memory = c.memory
  outside : ∀ j : Nat, j < p ∨ p + type.size ≤ j → t.cursor.memory[j]? = w.cursor.memory[j]?
  position : t.cursor.position = w.cursor.position
  others : ∀ k, k ≠ ReservingWriter.key name type.typeName → t.reservations k = w.reservations k

/-- The operation treats the reservations as it should. -/
def Faithful : ReservingOp → Account → Prop
  | .reserve type name, a =>
    ∀ ⦃e t⦄, (type.reserve name).run a.writer = .error e t → Unchanged a.writer t
  | .fill type name value, a =>
    match a.pending type name with
    | some p => ∃ t, (type.fill name value).run a.writer = .ok () t ∧
        Fills type name value p a.writer t
    | none => ∃ e t, (type.fill name value).run a.writer = .error e t ∧ Unchanged a.writer t
  | _, _ => True

/-- All checks of writes of so many bytes from a position on let them through. -/
def Room (n : Nat) (position : Int) (size : Nat) : Prop :=
  ∀ i : Nat, 0 < i → i ≤ size → wrap32 (position + i) ≤ n

/-- The condition on the state under which it does: a reservation fits or is refused for its
name, no 128-bit integer is filled for which, or for a 64-bit one, the name is reserved, and no
`T` for which the name is reserved as another one. -/
def Permitted : ReservingOp → Account → Prop
  | .reserve type name, a =>
    (∃ type', type'.typeName = type.typeName ∧ a.pending type' name ≠ none) ∨
      Room a.writer.cursor.memory.length a.writer.cursor.position type.size
  | .fill (.unmanaged type) name _, a =>
    ∀ type', type' ≠ type → a.pending (.unmanaged type') name = none
  | .fill (.element .int128) name _, a =>
    a.pending (.element .int128) name = none ∧ a.pending (.element .int64) name = none
  | _, _ => True

end Account

namespace ReservingWriter

theorem key_injective {name name' : Utf16} {typeName typeName' : String}
    (h : key name typeName = key name' typeName') (hno : (58 : UInt16) ∉ ascii typeName)
    (hno' : (58 : UInt16) ∉ ascii typeName') : name = name' ∧ ascii typeName = ascii typeName' := by
  have hrev := congrArg List.reverse h
  have hlast : ∀ (name : Utf16) (typeName : String), (58 : UInt16) ∉ ascii typeName →
      (key name typeName).reverse.takeWhile (fun c => c ≠ 58) = (ascii typeName).reverse := by
    intro name typeName hno
    have hreverse : (key name typeName).reverse =
        (ascii typeName).reverse ++ (58 :: name.reverse) := by
      rw [key, List.reverse_append, List.reverse_append, List.append_cancel_left_eq]
      rfl
    rw [hreverse, List.takeWhile_append_of_pos]
    · rw [List.takeWhile_cons_of_neg (by decide), List.append_nil]
    · intro c hc
      rw [List.mem_reverse] at hc
      exact decide_eq_true fun heq => hno (heq ▸ hc)
  have htypes : ascii typeName = ascii typeName' := by
    have htake := congrArg (List.takeWhile fun c => c ≠ (58 : UInt16)) hrev
    rw [hlast name typeName hno, hlast name' typeName' hno'] at htake
    exact List.reverse_injective htake
  refine ⟨?_, htypes⟩
  rw [key, key, htypes] at h
  exact List.append_cancel_right (List.append_cancel_right h)

end ReservingWriter

namespace ReservedType

/-- The name in the key a method to fill looks for. -/
def fillName (type : ReservedType) : String :=
  if type = .element .int128 then "Int64" else type.typeName

theorem reserve_eq (type : ReservedType) (name : Utf16) :
    type.reserve name = ReservingWriter.reserve name type.typeName type.size := by
  cases type with
  | element type => cases type <;> rfl
  | unmanaged | vector2 | vector3 | vector4 | quaternion => rfl

theorem fill_eq (type : ReservedType) (name : Utf16) (value : type.Value) :
    type.fill name value = ReservingWriter.fill name type.fillName type.write value := by
  cases type with
  | element type => cases type <;> rfl
  | unmanaged | vector2 | vector3 | vector4 | quaternion => rfl

/-- The types that have a name of their own. -/
def all : List ReservedType :=
  [.element .sbyte, .element .byte, .element .int16, .element .uint16, .element .int32,
    .element .uint32, .element .int64, .element .uint64, .element .int128, .element .uint128,
    .element .half, .element .single, .element .double, .element .boolean, .vector2, .vector3,
    .vector4, .quaternion]

def named : ReservedType → Option ReservedType
  | .unmanaged _ => none
  | type => some type

theorem find_typeName (type : ReservedType) :
    all.find? (fun t => ascii t.typeName = ascii type.typeName) = type.named := by
  cases type with
  | element type => cases type <;> decide
  | unmanaged type =>
    have hnone : all.find? (fun t => ascii t.typeName = ascii "unmanaged") = none := by decide
    exact hnone
  | vector2 | vector3 | vector4 | quaternion => decide

theorem named_eq_of_typeName {type type' : ReservedType}
    (h : ascii type.typeName = ascii type'.typeName) : type.named = type'.named := by
  rw [← find_typeName type, h, find_typeName type']

theorem typeName_eq_of_named {type type' : ReservedType} (h : type.named = type'.named) :
    type.typeName = type'.typeName := by
  cases type with
  | unmanaged =>
    cases type' with
    | unmanaged => rfl
    | _ => cases h
  | _ =>
    cases type' with
    | unmanaged => cases h
    | _ => exact congrArg typeName (Option.some.inj h)

theorem eq_of_named {type type' : ReservedType} (h : type'.named = some type) : type' = type := by
  cases type' with
  | unmanaged => cases h
  | _ => exact Option.some.inj h

theorem colon_notMem (type : ReservedType) : (58 : UInt16) ∉ ascii type.typeName := by
  cases type with
  | element type => cases type <;> decide
  | unmanaged type =>
    have hunmanaged : (58 : UInt16) ∉ ascii "unmanaged" := by decide
    exact hunmanaged
  | vector2 | vector3 | vector4 | quaternion => decide

theorem key_injective {type type' : ReservedType} {name name' : Utf16}
    (h : ReservingWriter.key name type.typeName = ReservingWriter.key name' type'.typeName) :
    type.typeName = type'.typeName ∧ name = name' := by
  obtain ⟨hname, htype⟩ :=
    ReservingWriter.key_injective h (colon_notMem type) (colon_notMem type')
  exact ⟨typeName_eq_of_named (named_eq_of_typeName htype), hname⟩

end ReservedType

namespace Account

variable {n k l : Nat} {p : Int}

theorem wrap32_wrap32_add (p q : Int) : wrap32 (wrap32 p + q) = wrap32 (p + q) := by
  unfold wrap32
  omega

theorem wrap32_range (p : Int) : -2 ^ 31 ≤ wrap32 p ∧ wrap32 p < 2 ^ 31 := by
  unfold wrap32
  omega

theorem room_add : Room n p (k + l) ↔ Room n p k ∧ Room n (wrap32 (p + k)) l := by
  refine ⟨fun h => ⟨fun i hi hle => h i hi (by omega), fun i hi hle => ?_⟩, ?_⟩
  · have hroom := h (k + i) (by omega) (by omega)
    rwa [Int.natCast_add, ← Int.add_assoc, ← wrap32_wrap32_add] at hroom
  · rintro ⟨hfirst, hrest⟩ i hi hle
    by_cases hle' : i ≤ k
    · exact hfirst i hi hle'
    · have hroom := hrest (i - k) (by omega) (by omega)
      rw [wrap32_wrap32_add, Int.add_assoc, Int.natCast_sub (by omega)] at hroom
      rwa [add_sub_cancel] at hroom

/-- An operation that writes so many bytes wherever the checks let it, even where the position
wraps around. -/
def Pokes (size : Nat) (m : EStateM Exn BinaryMemoryWriter Unit) : Prop :=
  ∀ ⦃c⦄, -2 ^ 31 ≤ c.position ∧ c.position < 2 ^ 31 → Room c.memory.length c.position size →
    ∃ d, m.run c = .ok () d ∧ d.memory.length = c.memory.length ∧
      d.position = wrap32 (c.position + size) ∧
        ∀ j : Nat, j < c.position ∨ c.position + size ≤ j → d.memory[j]? = c.memory[j]?

theorem getElem?_pokeBytes {memory bytes : List UInt8} {offset : Int} {j : Nat}
    (h : j < offset ∨ offset + bytes.length ≤ j) :
    (pokeBytes memory offset bytes)[j]? = memory[j]? := by
  rw [pokeBytes, List.getElem?_mapIdx]
  cases hj : memory[j]? with
  | none => rfl
  | some b =>
    rw [Option.map_some]
    rcases h with hbefore | hafter
    · rw [if_neg (by omega)]
    · rw [List.getElem?_eq_none (by omega), Option.getD_none, ite_self]

theorem pokes_writeValue {bytes : List UInt8} (hpos : 0 < bytes.length) :
    Pokes bytes.length (MemoryCursor.writeValue bytes) := by
  intro c _ hroom
  have hcheck := hroom bytes.length hpos (Nat.le_refl _)
  have hrun : (MemoryCursor.access bytes.length).run c = .ok c.position
      { c.touch bytes.length with position := wrap32 (c.position + bytes.length) } := by
    rw [MemoryCursor.access, run_get_bind, if_neg (Int.not_lt.2 hcheck)]
    rfl
  rw [MemoryCursor.writeValue, run_bind_of_ok _ hrun]
  exact ⟨_, rfl, List.length_mapIdx, rfl, fun j hj => getElem?_pokeBytes hj⟩

theorem run_writeValue_refused {bytes : List UInt8} {c : BinaryMemoryWriter}
    (h : (c.memory.length : Int) < wrap32 (c.position + bytes.length)) :
    (MemoryCursor.writeValue bytes).run c = .error .invalidOperation c := by
  have hrun : (MemoryCursor.access bytes.length).run c = .error .invalidOperation c := by
    rw [MemoryCursor.access, run_get_bind, if_pos h]
    rfl
  rw [MemoryCursor.writeValue, run_bind_of_error _ hrun]

theorem Pokes.bind {m m' : EStateM Exn BinaryMemoryWriter Unit} (hm : Pokes k m)
    (hm' : Pokes l m') (hsmall : k + l < 2 ^ 31) : Pokes (k + l) (m >>= fun _ => m') := by
  intro c hc hroom
  obtain ⟨hfirst, hrest⟩ := room_add.1 hroom
  obtain ⟨d, hrun, hlength, hposition, hsame⟩ := hm hc hfirst
  have hd := wrap32_range (c.position + k)
  obtain ⟨e, hrun', hlength', hposition', hsame'⟩ :=
    hm' (by rwa [hposition]) (by rwa [hlength, hposition])
  refine ⟨e, ?_, hlength'.trans hlength, ?_, fun j hj => ?_⟩
  · rw [run_bind_of_ok _ hrun, hrun']
  · rw [hposition', hposition, wrap32_wrap32_add, Int.natCast_add, Int.add_assoc]
  · have hout : j < d.position ∨ d.position + l ≤ j := by
      rw [hposition, wrap32]
      omega
    rw [hsame' j hout, hsame j (by omega)]

theorem pokes_ite {m m' : EStateM Exn BinaryMemoryWriter Unit} (hm : Pokes k m)
    (hm' : Pokes k m') : Pokes k (do if (← get).bigEndian then m else m') := by
  intro c hc hroom
  rw [run_get_bind]
  cases c.bigEndian with
  | true => exact hm hc hroom
  | false => exact hm' hc hroom

theorem pokes_write [Layout α] (value : α) (hpos : 0 < Layout.size α) :
    Pokes (Layout.size α) (BinaryMemoryWriter.write value) := by
  rw [← Layout.length_encode value] at hpos ⊢
  exact pokes_writeValue hpos

theorem pokes_writeEndian [Layout α] (value : α) (hpos : 0 < Layout.size α) :
    Pokes (Layout.size α) (BinaryMemoryWriter.writeEndian value) :=
  pokes_ite (pokes_write _ hpos) (pokes_write _ hpos)

theorem pokes_writeSingle (value : Single) : Pokes 4 (BinaryMemoryWriter.writeSingle value) :=
  pokes_writeEndian value.bits (by decide)

/-- The method of a type writes as many bytes as are reserved for it. -/
theorem pokes_write_type (type : ReservedType) (value : type.Value) :
    Pokes type.size (type.write value) := by
  cases type with
  | unmanaged type => exact pokes_write (α := type.Value) value type.pos
  | element type =>
    cases type with
    | sbyte => exact pokes_write (α := Int8) value (by decide)
    | byte => exact pokes_write (α := UInt8) value (by decide)
    | int16 => exact pokes_writeEndian (α := Int16) value (by decide)
    | uint16 => exact pokes_writeEndian (α := UInt16) value (by decide)
    | int32 => exact pokes_writeEndian (α := Int32) value (by decide)
    | uint32 => exact pokes_writeEndian (α := UInt32) value (by decide)
    | int64 => exact pokes_writeEndian (α := Int64) value (by decide)
    | uint64 => exact pokes_writeEndian (α := UInt64) value (by decide)
    | int128 => exact pokes_writeEndian (α := Int128) value (by decide)
    | uint128 => exact pokes_writeEndian (α := UInt128) value (by decide)
    | half => exact pokes_writeEndian (α := UInt16) (Half.bits value) (by decide)
    | single => exact pokes_writeSingle value
    | double => exact pokes_writeEndian (α := UInt64) (Double.bits value) (by decide)
    | boolean => exact pokes_write (α := UInt8) _ (by decide)
  | vector2 =>
    exact pokes_ite ((pokes_writeSingle _).bind (pokes_writeSingle _) (by decide))
      (pokes_write (α := Vector2) value (by decide))
  | vector3 =>
    exact pokes_ite ((pokes_writeSingle _).bind
      ((pokes_writeSingle _).bind (pokes_writeSingle _) (by decide)) (by decide))
      (pokes_write (α := Vector3) value (by decide))
  | vector4 =>
    exact pokes_ite ((pokes_writeSingle _).bind ((pokes_writeSingle _).bind
      ((pokes_writeSingle _).bind (pokes_writeSingle _) (by decide)) (by decide)) (by decide))
      (pokes_write (α := Vector4) value (by decide))
  | quaternion =>
    exact pokes_ite ((pokes_writeSingle _).bind ((pokes_writeSingle _).bind
      ((pokes_writeSingle _).bind (pokes_writeSingle _) (by decide)) (by decide)) (by decide))
      (pokes_write (α := Quaternion) value (by decide))

theorem pokes_placeholder (is : List ι) (hsmall : is.length < 2 ^ 31) :
    Pokes is.length (MemoryCursor.each (fun _ => BinaryMemoryWriter.writeByte 0xFE) is) := by
  induction is with
  | nil =>
    intro c hc _
    have hposition : c.position = wrap32 (c.position + (0 : Nat)) := by
      unfold wrap32
      omega
    exact ⟨c, rfl, rfl, hposition, fun _ _ => rfl⟩
  | cons i is ih =>
    rw [List.length_cons] at hsmall
    have hbyte : Pokes 1 (BinaryMemoryWriter.writeByte 0xFE) :=
      pokes_write (α := UInt8) 0xFE (by decide)
    have hboth := hbyte.bind (ih (by omega)) (by omega)
    rwa [Nat.add_comm] at hboth

theorem run_placeholder_refused (is : List ι) {c : BinaryMemoryWriter}
    (hc : -2 ^ 31 ≤ c.position ∧ c.position < 2 ^ 31)
    (hroom : ¬ Room c.memory.length c.position is.length) :
    ∃ e d, (MemoryCursor.each (fun _ => BinaryMemoryWriter.writeByte 0xFE) is).run c =
      .error e d := by
  induction is generalizing c with
  | nil => exact absurd (fun i hi hle => absurd hi (Nat.not_lt.2 hle)) hroom
  | cons i is ih =>
    by_cases hfirst : Room c.memory.length c.position 1
    · obtain ⟨d, hrun, hlength, hposition, -⟩ :=
        pokes_write (α := UInt8) 0xFE (by decide) hc hfirst
      have hrest : ¬ Room d.memory.length d.position is.length := by
        intro hrest
        rw [hlength, hposition] at hrest
        apply hroom
        rw [List.length_cons, Nat.add_comm]
        exact room_add.2 ⟨hfirst, hrest⟩
      obtain ⟨e, d', hrun'⟩ := ih (by rw [hposition]; exact wrap32_range _) hrest
      exact ⟨e, d', (run_bind_of_ok _ hrun).trans hrun'⟩
    · have hcheck : (c.memory.length : Int) < wrap32 (c.position + (1 : Nat)) := by
        by_contra hle
        apply hfirst
        intro j hj hle'
        have hone : j = 1 := by omega
        rw [hone]
        exact Int.not_lt.1 hle
      have hrun : (BinaryMemoryWriter.writeByte 0xFE).run c = .error .invalidOperation c :=
        run_writeValue_refused hcheck
      exact ⟨_, _, run_bind_of_error _ hrun⟩

/-- The memory has this length, and the position is an `int`. -/
def Steady (n : Nat) (c : BinaryMemoryWriter) : Prop :=
  c.memory.length = n ∧ -2 ^ 31 ≤ c.position ∧ c.position < 2 ^ 31

theorem keeps_writeValue (bytes : List UInt8) :
    Keeps (Steady n) (MemoryCursor.writeValue bytes) := by
  apply Keeps.bind
  · apply keeps_get_bind
    intro c hc
    apply keeps_unless
    intro _
    exact (keeps_set ⟨hc.1, wrap32_range _⟩).bind fun _ => keeps_pure _
  · intro offset
    exact keeps_modify fun c hc => ⟨List.length_mapIdx.trans hc.1, hc.2⟩

theorem keeps_bigEndian {m m' : EStateM Exn BinaryMemoryWriter Unit} (hm : Keeps (Steady n) m)
    (hm' : Keeps (Steady n) m') : Keeps (Steady n) (do if (← get).bigEndian then m else m') :=
  keeps_get_bind fun _ _ => keeps_ite (fun _ => hm) fun _ => hm'

theorem keeps_writeEndian [Layout α] (value : α) :
    Keeps (Steady n) (BinaryMemoryWriter.writeEndian value) :=
  keeps_bigEndian (keeps_writeValue _) (keeps_writeValue _)

theorem keeps_each {f : ι → EStateM Exn BinaryMemoryWriter Unit} (hf : ∀ i, Keeps (Steady n) (f i))
    (is : List ι) : Keeps (Steady n) (MemoryCursor.each f is) := by
  induction is with
  | nil => exact keeps_pure ()
  | cons i is ih => exact (hf i).bind fun _ => ih

theorem keeps_writeElement (type : ElementType) (value : type.Value) :
    Keeps (Steady n) (BinaryMemoryWriter.writeElement type value) := by
  cases type with
  | sbyte | byte | boolean => exact keeps_writeValue _
  | _ => exact keeps_writeEndian _

theorem keeps_writeElements (type : ElementType) (values : List type.Value) :
    Keeps (Steady n) (BinaryMemoryWriter.writeElements type values) := by
  intro c hc
  rw [stateAfter, BinaryMemoryWriter.run_writeElements]
  exact keeps_each (keeps_writeElement type) values c hc

theorem keeps_typed_write (value : TypedValue) : Keeps (Steady n) value.write := by
  have hsingle (x : Single) : Keeps (Steady n) (BinaryMemoryWriter.writeSingle x) :=
    keeps_writeEndian x.bits
  cases value with
  | element type value => exact keeps_writeElement type value
  | vector2 v =>
    exact keeps_bigEndian ((hsingle v.x).bind fun _ => hsingle v.y) (keeps_writeValue _)
  | vector3 v =>
    exact keeps_bigEndian ((hsingle v.x).bind fun _ => (hsingle v.y).bind fun _ => hsingle v.z)
      (keeps_writeValue _)
  | vector4 v =>
    exact keeps_bigEndian ((hsingle v.x).bind fun _ => (hsingle v.y).bind fun _ =>
      (hsingle v.z).bind fun _ => hsingle v.w) (keeps_writeValue _)
  | quaternion v =>
    exact keeps_bigEndian ((hsingle v.x).bind fun _ => (hsingle v.y).bind fun _ =>
      (hsingle v.z).bind fun _ => hsingle v.w) (keeps_writeValue _)
  | array type values => exact keeps_writeElements type values

theorem keeps_setPosition (value : Int) : Keeps (Steady n) (MemoryCursor.setPosition value) := by
  apply keeps_get_bind
  intro c _
  apply keeps_unless
  intro _
  exact keeps_modify fun c hc => ⟨hc.1, wrap32_range _⟩

/-- The table is what the account says, and what is pending fits where it has been reserved. -/
structure Sound (a : Account) : Prop where
  position : -2 ^ 31 ≤ a.writer.cursor.position ∧ a.writer.cursor.position < 2 ^ 31
  table : ∀ (type : ReservedType) name p,
    a.writer.reservations (ReservingWriter.key name type.typeName) = some p ↔
      ∃ type', type'.typeName = type.typeName ∧ a.pending type' name = some p
  unique : ∀ (type type' : ReservedType) name, type.typeName = type'.typeName →
    a.pending type name ≠ none → a.pending type' name ≠ none → type = type'
  room : ∀ type name p, a.pending type name = some p → (-2 ^ 31 ≤ p ∧ p < 2 ^ 31) ∧
    Room a.writer.cursor.memory.length p type.size

variable {w : ReservingWriter} {name : Utf16} {typeName : String}

theorem run_reserve_taken {length : Nat}
    (h : w.reservations (ReservingWriter.key name typeName) = some p) :
    (ReservingWriter.reserve name typeName length).run w = .error .argument w := by
  rw [ReservingWriter.reserve, run_get_bind, h]
  rfl

theorem run_reserve_of_room {length : Nat} (hsmall : length < 2 ^ 31)
    (hw : -2 ^ 31 ≤ w.cursor.position ∧ w.cursor.position < 2 ^ 31)
    (h : w.reservations (ReservingWriter.key name typeName) = none)
    (hroom : Room w.cursor.memory.length w.cursor.position length) :
    ∃ c, (ReservingWriter.reserve name typeName length).run w =
        .ok () ⟨c, Function.update w.reservations (ReservingWriter.key name typeName)
          (some w.cursor.position)⟩ ∧
      Steady w.cursor.memory.length c := by
  have hlength : (List.range length).length = length := List.length_range
  obtain ⟨c, hrun, hmemory, hposition, -⟩ := pokes_placeholder (List.range length)
    (by rwa [hlength]) hw (by rwa [hlength])
  refine ⟨c, ?_, hmemory, ?_⟩
  · rw [ReservingWriter.reserve, run_get_bind, h]
    exact run_zoom_of_ok hrun
  · rw [hposition]
    exact wrap32_range _

theorem run_reserve_refused {length : Nat}
    (hw : -2 ^ 31 ≤ w.cursor.position ∧ w.cursor.position < 2 ^ 31)
    (h : w.reservations (ReservingWriter.key name typeName) = none)
    (hroom : ¬ Room w.cursor.memory.length w.cursor.position length) :
    ∃ e c, (ReservingWriter.reserve name typeName length).run w =
      .error e ⟨c, Function.update w.reservations (ReservingWriter.key name typeName)
        (some w.cursor.position)⟩ := by
  have hlength : (List.range length).length = length := List.length_range
  obtain ⟨e, c, hrun⟩ := run_placeholder_refused (List.range length) hw (by rwa [hlength])
  refine ⟨e, c, ?_⟩
  rw [ReservingWriter.reserve, run_get_bind, h]
  exact run_zoom_of_error hrun

theorem run_fill_none {write : α → EStateM Exn BinaryMemoryWriter Unit}
    (h : w.reservations (ReservingWriter.key name typeName) = none) (value : α) :
    (ReservingWriter.fill name typeName write value).run w = .error .argument w := by
  have htake : (ReservingWriter.takeReservation name typeName).run w = .error .argument w := by
    rw [ReservingWriter.takeReservation, run_get_bind, h]
    rfl
  rw [ReservingWriter.fill, run_get_bind, run_bind_of_error _ htake]

/-- A filled reservation is taken out of the table before anything is written. -/
theorem run_fill_some {write : α → EStateM Exn BinaryMemoryWriter Unit}
    (h : w.reservations (ReservingWriter.key name typeName) = some p) (value : α) :
    (ReservingWriter.fill name typeName write value).run w =
      match (write value).run { w.cursor with position := p } with
      | .ok _ c => .ok () ⟨{ c with position := w.cursor.position },
          Function.update w.reservations (ReservingWriter.key name typeName) none⟩
      | .error e c => .error e ⟨c,
          Function.update w.reservations (ReservingWriter.key name typeName) none⟩ := by
  have htake : (ReservingWriter.takeReservation name typeName).run w = .ok p { w with
      reservations :=
        Function.update w.reservations (ReservingWriter.key name typeName) none } := by
    rw [ReservingWriter.takeReservation, run_get_bind, h]
    rfl
  rw [ReservingWriter.fill, run_get_bind, run_bind_of_ok _ htake, run_modify_bind]
  cases hrun : (write value).run { w.cursor with position := p } with
  | ok u c =>
    have hcursor : (ReservingWriter.onCursor (write value)).run
        ⟨{ w.cursor with position := p },
          Function.update w.reservations (ReservingWriter.key name typeName) none⟩ =
        .ok u ⟨c, Function.update w.reservations (ReservingWriter.key name typeName) none⟩ :=
      run_zoom_of_ok hrun
    rw [run_bind_of_ok _ hcursor]
    rfl
  | error e c =>
    have hcursor : (ReservingWriter.onCursor (write value)).run
        ⟨{ w.cursor with position := p },
          Function.update w.reservations (ReservingWriter.key name typeName) none⟩ =
        .error e ⟨c, Function.update w.reservations (ReservingWriter.key name typeName) none⟩ :=
      run_zoom_of_error hrun
    rw [run_bind_of_error _ hcursor]

theorem reservations_fill (write : α → EStateM Exn BinaryMemoryWriter Unit)
    (h : w.reservations (ReservingWriter.key name typeName) = some p) (value : α) :
    (stateAfter (ReservingWriter.fill name typeName write value) w).reservations
      (ReservingWriter.key name typeName) = none := by
  rw [stateAfter, run_fill_some h]
  cases (write value).run { w.cursor with position := p } with
  | ok u c => exact Function.update_self _ _ _
  | error e c => exact Function.update_self _ _ _

theorem step_of_error {op : ReservingOp} {a : Account} (h : op.run.run a.writer = .error e t) :
    step op a = ⟨t, a.pending⟩ := by
  have hstate : stateAfter op.run a.writer = t := by rw [stateAfter, h]
  have hpending : a.settle op = a.pending := by
    rw [settle.eq_def, h]
    cases op with
    | _ => rfl
  rw [step, hstate, hpending]

theorem step_reserve {type : ReservedType} {a : Account}
    (h : (type.reserve name).run a.writer = .ok u t) :
    step (.reserve type name) a = ⟨t, a.enter type name (some a.writer.cursor.position)⟩ := by
  have hrun : (ReservingOp.reserve type name).run.run a.writer = .ok u t := h
  rw [step, settle.eq_def, hrun, stateAfter_of_ok hrun]

theorem step_fill {type : ReservedType} {value : type.Value} {a : Account}
    (h : (type.fill name value).run a.writer = .ok u t) :
    step (.fill type name value) a = ⟨t, a.enter type name none⟩ := by
  have hrun : (ReservingOp.fill type name value).run.run a.writer = .ok u t := h
  rw [step, settle.eq_def, hrun, stateAfter_of_ok hrun]

theorem Unchanged.refl (w : ReservingWriter) : Unchanged w w := ⟨rfl, rfl, rfl⟩

section
variable {a : Account} {type : ReservedType}

theorem size_lt (type : ReservedType) : type.size < 2 ^ 31 := by
  cases type with
  | element type => cases type <;> decide
  | unmanaged type => exact type.lt
  | vector2 | vector3 | vector4 | quaternion => decide

theorem update_ne (w : ReservingWriter) (k : Utf16) {position position' : Option Int}
    (h : w.reservations k = position') (hne : position ≠ position') :
    Function.update w.reservations k position ≠ w.reservations := by
  intro heq
  have hk := congrFun heq k
  rw [Function.update_self, h] at hk
  exact hne hk

/-- No other type with the same name in its keys is pending under this name. -/
def Alone (a : Account) (type : ReservedType) (name : Utf16) : Prop :=
  ∀ type', type'.typeName = type.typeName → type' ≠ type → a.pending type' name = none

theorem alone_of_named (a : Account) (name : Utf16) (h : type.named = some type) :
    Alone a type name := by
  intro type' htypeName hne
  have hnamed := ReservedType.named_eq_of_typeName (congrArg ascii htypeName)
  exact absurd (ReservedType.eq_of_named (hnamed.trans h)) hne

theorem Sound.alone_of_pending (h : a.Sound) (hpending : a.pending type name = some p) :
    Alone a type name := by
  intro type' htypeName hne
  by_contra hsome
  have hsome' : a.pending type name ≠ none := hpending ▸ Option.some_ne_none p
  exact hne (h.unique type' type name htypeName hsome hsome')

theorem Sound.reservations_of_pending (h : a.Sound) (hpending : a.pending type name = some p) :
    a.writer.reservations (ReservingWriter.key name type.typeName) = some p :=
  (h.table type name p).2 ⟨type, rfl, hpending⟩

theorem Sound.reservations_of_alone (h : a.Sound) (halone : Alone a type name) :
    a.writer.reservations (ReservingWriter.key name type.typeName) = a.pending type name := by
  cases hpending : a.pending type name with
  | some p => exact h.reservations_of_pending hpending
  | none =>
    by_contra hne
    obtain ⟨p, hkey⟩ := Option.ne_none_iff_exists'.1 hne
    obtain ⟨type', htypeName, hsome⟩ := (h.table type name p).1 hkey
    by_cases htype : type' = type
    · subst htype
      cases hpending.symm.trans hsome
    · cases (halone type' htypeName htype).symm.trans hsome

theorem Sound.alone_of_reservations (h : a.Sound)
    (hkey : a.writer.reservations (ReservingWriter.key name type.typeName) = none) :
    Alone a type name ∧ a.pending type name = none := by
  have hnone : ∀ type', type'.typeName = type.typeName → a.pending type' name = none := by
    intro type' htypeName
    by_contra hne
    obtain ⟨p, hsome⟩ := Option.ne_none_iff_exists'.1 hne
    cases hkey.symm.trans ((h.table type name p).2 ⟨type', htypeName, hsome⟩)
  exact ⟨fun type' htypeName _ => hnone type' htypeName, hnone type rfl⟩

theorem faithful_reserve_iff (h : a.Sound) (name : Utf16) :
    Faithful (.reserve type name) a ↔ Permitted (.reserve type name) a := by
  rw [Faithful, Permitted, ReservedType.reserve_eq]
  cases hkey : a.writer.reservations (ReservingWriter.key name type.typeName) with
  | some p =>
    obtain ⟨type', htypeName, hpending⟩ := (h.table type name p).1 hkey
    have hne : a.pending type' name ≠ none := hpending ▸ Option.some_ne_none p
    refine ⟨fun _ => .inl ⟨type', htypeName, hne⟩, fun _ e t hrun => ?_⟩
    rw [run_reserve_taken hkey] at hrun
    cases hrun
    exact Unchanged.refl a.writer
  | none =>
    by_cases hroom : Room a.writer.cursor.memory.length a.writer.cursor.position type.size
    · obtain ⟨c, hok, -⟩ := run_reserve_of_room (size_lt type) h.position hkey hroom
      refine ⟨fun _ => .inr hroom, fun _ e t hrun => ?_⟩
      rw [hok] at hrun
      cases hrun
    · obtain ⟨e, c, hrun⟩ := run_reserve_refused h.position hkey hroom
      refine ⟨fun hfaithful => ?_, fun hpermitted => ?_⟩
      · exact absurd (hfaithful hrun).reservations
          (update_ne a.writer _ hkey (Option.some_ne_none _))
      · rcases hpermitted with ⟨type', htypeName, hne⟩ | hroom'
        · obtain ⟨p, hpending⟩ := Option.ne_none_iff_exists'.1 hne
          cases hkey.symm.trans ((h.table type name p).2 ⟨type', htypeName, hpending⟩)
        · exact absurd hroom' hroom

theorem run_fill_pending (h : a.Sound) (hname : type.fillName = type.typeName)
    (hpending : a.pending type name = some p) (value : type.Value) :
    ∃ c, (type.write value).run { a.writer.cursor with position := p } = .ok () c ∧
      (type.fill name value).run a.writer =
        .ok () ⟨{ c with position := a.writer.cursor.position }, Function.update
          a.writer.reservations (ReservingWriter.key name type.typeName) none⟩ ∧
      c.memory.length = a.writer.cursor.memory.length ∧
      ∀ j : Nat, j < p ∨ p + type.size ≤ j → c.memory[j]? = a.writer.cursor.memory[j]? := by
  have hkey := h.reservations_of_pending hpending
  obtain ⟨hp, hroom⟩ := h.room type name p hpending
  obtain ⟨c, hrun, hlength, -, hsame⟩ := pokes_write_type type value
    (c := { a.writer.cursor with position := p }) hp hroom
  refine ⟨c, hrun, ?_, hlength, hsame⟩
  rw [ReservedType.fill_eq, hname, run_fill_some hkey, hrun]

theorem faithful_fill (h : a.Sound) (hname : type.fillName = type.typeName) {name : Utf16}
    (halone : Alone a type name) (value : type.Value) :
    Faithful (.fill type name value) a := by
  have hkey := h.reservations_of_alone halone
  rw [Faithful]
  cases hpending : a.pending type name with
  | none =>
    rw [hpending, ← hname] at hkey
    refine ⟨.argument, a.writer, ?_, Unchanged.refl a.writer⟩
    rw [ReservedType.fill_eq, run_fill_none hkey]
  | some p =>
    obtain ⟨c, hwrite, hfill, -, hsame⟩ := run_fill_pending h hname hpending value
    refine ⟨_, hfill, ⟨c, hwrite, rfl⟩, hsame, rfl, fun k hk => ?_⟩
    exact Function.update_of_ne hk none a.writer.reservations

/-- A key that is found though nothing is pending for the type is lost to the one it is of. -/
theorem not_faithful_of_found {value : type.Value} (hpending : a.pending type name = none)
    (hfound : a.writer.reservations (ReservingWriter.key name type.fillName) = some p) :
    ¬ Faithful (.fill type name value) a := by
  intro hfaithful
  rw [Faithful, hpending] at hfaithful
  obtain ⟨e, t, hrun, hunchanged⟩ := hfaithful
  have htaken := reservations_fill type.write hfound value
  rw [← ReservedType.fill_eq, stateAfter, hrun, hunchanged.reservations, hfound] at htaken
  cases htaken

/-- A value of one type is filled in where another one has been reserved under the name that all
of them have. -/
theorem faithful_fill_unmanaged_iff (h : a.Sound) (type : UnmanagedType) (name : Utf16)
    (value : ReservedType.Value (.unmanaged type)) :
    Faithful (.fill (.unmanaged type) name value) a ↔
      Permitted (.fill (.unmanaged type) name value) a := by
  have halone : Permitted (.fill (.unmanaged type) name value) a ↔
      Alone a (.unmanaged type) name := by
    constructor
    · intro hpermitted type' htypeName hne
      have hnamed := ReservedType.named_eq_of_typeName (congrArg ascii htypeName)
      cases type' with
      | unmanaged type' =>
        exact hpermitted type' fun heq => hne (congrArg ReservedType.unmanaged heq)
      | _ => cases hnamed
    · intro halone type' hne
      exact halone (.unmanaged type') rfl fun heq => hne (ReservedType.unmanaged.inj heq)
  rw [halone]
  refine ⟨fun hfaithful => ?_, fun halone => faithful_fill h rfl halone value⟩
  cases hpending : a.pending (.unmanaged type) name with
  | some p => exact h.alone_of_pending hpending
  | none =>
    have hkey : a.writer.reservations (ReservingWriter.key name
        (ReservedType.fillName (.unmanaged type))) = none := by
      by_contra hne
      obtain ⟨p, hfound⟩ := Option.ne_none_iff_exists'.1 hne
      exact not_faithful_of_found hpending hfound hfaithful
    exact (h.alone_of_reservations hkey).1

/-- A 128-bit integer is filled in where a 64-bit one has been reserved. -/
theorem faithful_fill_int128_iff (h : a.Sound) (name : Utf16)
    (value : ReservedType.Value (.element .int128)) :
    Faithful (.fill (.element .int128) name value) a ↔
      Permitted (.fill (.element .int128) name value) a := by
  have hkey := h.reservations_of_alone (alone_of_named a name
    (rfl : ReservedType.named (.element .int64) = _))
  simp only [Permitted]
  cases hlong : a.pending (.element .int64) name with
  | none =>
    rw [hlong] at hkey
    have hrun : (ReservedType.fill (.element .int128) name value).run a.writer =
        .error .argument a.writer := by
      rw [ReservedType.fill_eq]
      exact run_fill_none hkey value
    simp only [Faithful]
    cases hpending : a.pending (.element .int128) name with
    | none => exact ⟨fun _ => ⟨rfl, trivial⟩, fun _ => ⟨_, _, hrun, Unchanged.refl a.writer⟩⟩
    | some p =>
      refine ⟨fun hfaithful => ?_, fun hpermitted => absurd hpermitted.1 (Option.some_ne_none p)⟩
      obtain ⟨t, hok, -⟩ := hfaithful
      rw [hrun] at hok
      cases hok
  | some q =>
    rw [hlong] at hkey
    refine ⟨fun hfaithful => ?_, fun hpermitted => absurd hpermitted.2 (Option.some_ne_none q)⟩
    cases hpending : a.pending (.element .int128) name with
    | none => exact absurd hfaithful (not_faithful_of_found hpending hkey)
    | some p =>
      rw [Faithful, hpending] at hfaithful
      obtain ⟨t, hrun, hfills⟩ := hfaithful
      have htaken := reservations_fill (ReservedType.write (.element .int128)) hkey value
      have hother : ReservingWriter.key name (ReservedType.typeName (.element .int64)) ≠
          ReservingWriter.key name (ReservedType.typeName (.element .int128)) := by
        intro heq
        exact absurd (ReservedType.key_injective heq).1 (by decide)
      have hkept := (hfills.others _ hother).trans hkey
      rw [← stateAfter_of_ok hrun, ReservedType.fill_eq] at hkept
      cases htaken.symm.trans hkept

theorem faithful_iff_permitted (op : ReservingOp) (a : Account) (h : a.Sound) :
    Faithful op a ↔ Permitted op a := by
  cases op with
  | write | writeUnmanaged | bigEndian | position => rfl
  | reserve type name => exact faithful_reserve_iff h name
  | fill type name value =>
    cases type with
    | unmanaged type => exact faithful_fill_unmanaged_iff h type name value
    | element type =>
      cases type with
      | int128 => exact faithful_fill_int128_iff h name value
      | _ => exact iff_of_true (faithful_fill h rfl (alone_of_named a name rfl) value) trivial
    | _ => exact iff_of_true (faithful_fill h rfl (alone_of_named a name rfl) value) trivial

theorem Sound.onCursor {m : EStateM Exn BinaryMemoryWriter Unit}
    (hm : ∀ n, Keeps (Steady n) m) (h : a.Sound) :
    Sound ⟨stateAfter (ReservingWriter.onCursor m) a.writer, a.pending⟩ := by
  refine keeps_zoom (P := fun w => Sound ⟨w, a.pending⟩) (fun w hw => ?_) a.writer h
  obtain ⟨hlength, hposition⟩ := hm w.cursor.memory.length w.cursor ⟨rfl, hw.position⟩
  refine ⟨hposition, hw.table, hw.unique, fun type name p hp => ?_⟩
  obtain ⟨hrange, hroom⟩ := hw.room type name p hp
  exact ⟨hrange, by rwa [hlength]⟩

theorem enter_self (type : ReservedType) (name : Utf16) (position : Option Int) (a : Account) :
    a.enter type name position type name = position := if_pos ⟨rfl, rfl⟩

theorem enter_of_ne {name name' : Utf16} {type' : ReservedType} (position : Option Int)
    (hne : ¬ (type'.typeName = type.typeName ∧ name' = name)) :
    a.enter type name position type' name' = a.pending type' name' :=
  if_neg fun heq => hne ⟨congrArg ReservedType.typeName heq.1, heq.2⟩

theorem Alone.enter {name : Utf16} (h : Alone a type name) (position : Option Int) {type'}
    (htypeName : type'.typeName = type.typeName) (hne : type' ≠ type) :
    a.enter type name position type' name = none := by
  rw [Account.enter, if_neg fun heq => hne heq.1]
  exact h type' htypeName hne

theorem Sound.enter_table {name : Utf16} {position : Option Int} (h : a.Sound)
    (halone : Alone a type name) (type' : ReservedType) (name' : Utf16) (p : Int) :
    Function.update a.writer.reservations (ReservingWriter.key name type.typeName) position
        (ReservingWriter.key name' type'.typeName) = some p ↔
      ∃ type'', type''.typeName = type'.typeName ∧
        a.enter type name position type'' name' = some p := by
  by_cases hkey : type'.typeName = type.typeName ∧ name' = name
  · obtain ⟨htypeName, rfl⟩ := hkey
    rw [htypeName, Function.update_self]
    constructor
    · intro hp
      exact ⟨type, rfl, (enter_self ..).trans hp⟩
    · rintro ⟨type'', htypeName', hp⟩
      by_cases htype : type'' = type
      · subst htype
        exact (enter_self ..).symm.trans hp
      · cases (halone.enter position htypeName' htype).symm.trans hp
  · have hne : ReservingWriter.key name' type'.typeName ≠
        ReservingWriter.key name type.typeName :=
      fun heq => hkey (ReservedType.key_injective heq)
    rw [Function.update_of_ne hne, h.table]
    refine exists_congr fun type'' => and_congr_right fun htypeName => ?_
    rw [enter_of_ne position (by rwa [htypeName])]

theorem Sound.enter_unique {name name' : Utf16} {position : Option Int} (h : a.Sound)
    (halone : Alone a type name) {type₁ type₂ : ReservedType}
    (htypeName : type₁.typeName = type₂.typeName)
    (h₁ : a.enter type name position type₁ name' ≠ none)
    (h₂ : a.enter type name position type₂ name' ≠ none) : type₁ = type₂ := by
  by_cases hkey : type₁.typeName = type.typeName ∧ name' = name
  · obtain ⟨htype₁, rfl⟩ := hkey
    have heq₁ : type₁ = type := by
      by_contra hne
      exact h₁ (halone.enter position htype₁ hne)
    have heq₂ : type₂ = type := by
      by_contra hne
      exact h₂ (halone.enter position (htypeName.symm.trans htype₁) hne)
    rw [heq₁, heq₂]
  · rw [enter_of_ne position hkey] at h₁
    rw [enter_of_ne position (by rwa [← htypeName])] at h₂
    exact h.unique type₁ type₂ name' htypeName h₁ h₂

/-- What is entered in the account and in the table at once. -/
theorem Sound.enter {c : BinaryMemoryWriter} {name : Utf16} {position : Option Int} (h : a.Sound)
    (halone : Alone a type name) (hc : Steady a.writer.cursor.memory.length c)
    (hroom : ∀ p, position = some p → (-2 ^ 31 ≤ p ∧ p < 2 ^ 31) ∧
      Room a.writer.cursor.memory.length p type.size) :
    Sound ⟨⟨c, Function.update a.writer.reservations
      (ReservingWriter.key name type.typeName) position⟩, a.enter type name position⟩ := by
  obtain ⟨hlength, hposition⟩ := hc
  refine ⟨hposition, h.enter_table halone, fun _ _ _ => h.enter_unique halone, ?_⟩
  intro type' name' p hp
  dsimp only [Account.enter] at hp ⊢
  rw [hlength]
  by_cases hsame : type' = type ∧ name' = name
  · rw [if_pos hsame] at hp
    rw [hsame.1]
    exact hroom p hp
  · rw [if_neg hsame] at hp
    exact h.room type' name' p hp

theorem Sound.of_unchanged {t : ReservingWriter} (h : a.Sound) (hunchanged : Unchanged a.writer t) :
    Sound ⟨t, a.pending⟩ := by
  refine ⟨?_, ?_, h.unique, ?_⟩
  · dsimp only
    rw [hunchanged.position]
    exact h.position
  · dsimp only
    rw [hunchanged.reservations]
    exact h.table
  · dsimp only
    rw [hunchanged.memory]
    exact h.room

theorem keeps_sound (op : ReservingOp) (a : Account) (h : a.Sound) (hop : Permitted op a) :
    Sound (step op a) := by
  cases op with
  | write value => exact h.onCursor fun n => keeps_typed_write value
  | writeUnmanaged type value => exact h.onCursor fun n => keeps_writeValue _
  | bigEndian value => exact ⟨h.position, h.table, h.unique, h.room⟩
  | position value => exact h.onCursor fun n => keeps_setPosition value.toInt
  | reserve type name =>
    cases hkey : a.writer.reservations (ReservingWriter.key name type.typeName) with
    | some p =>
      have hrun : (ReservingOp.reserve type name).run.run a.writer = .error .argument a.writer := by
        rw [ReservingOp.run, ReservedType.reserve_eq, run_reserve_taken hkey]
      rw [step_of_error hrun]
      exact h
    | none =>
      have hroom : Room a.writer.cursor.memory.length a.writer.cursor.position type.size := by
        refine hop.resolve_left ?_
        rintro ⟨type', htypeName, hne⟩
        obtain ⟨p, hpending⟩ := Option.ne_none_iff_exists'.1 hne
        cases hkey.symm.trans ((h.table type name p).2 ⟨type', htypeName, hpending⟩)
      obtain ⟨c, hrun, hc⟩ := run_reserve_of_room (size_lt type) h.position hkey hroom
      rw [← ReservedType.reserve_eq] at hrun
      rw [step_reserve hrun]
      apply h.enter (h.alone_of_reservations hkey).1 hc
      intro p hp
      cases hp
      exact ⟨h.position, hroom⟩
  | fill type name value =>
    have hfaithful := (faithful_iff_permitted (.fill type name value) a h).2 hop
    simp only [Faithful] at hfaithful
    cases hpending : a.pending type name with
    | none =>
      rw [hpending] at hfaithful
      obtain ⟨e, t, hrun, hunchanged⟩ := hfaithful
      have hrun' : (ReservingOp.fill type name value).run.run a.writer = .error e t := hrun
      rw [step_of_error hrun']
      exact h.of_unchanged hunchanged
    | some p =>
      have htype : type ≠ .element .int128 := by
        rintro rfl
        rw [hop.1] at hpending
        cases hpending
      obtain ⟨c, -, hrun, hlength, -⟩ := run_fill_pending h (if_neg htype) hpending value
      rw [step_fill hrun]
      apply h.enter (h.alone_of_pending hpending)
        (c := { c with position := a.writer.cursor.position }) ⟨hlength, h.position⟩
      intro p hp
      cases hp

theorem not_filled_int128 {name : Utf16} (h : a.Sound)
    (hpending : a.pending (.element .int128) name = none)
    (hroom : Room a.writer.cursor.memory.length a.writer.cursor.position 16)
    (value : ReservedType.Value (.element .int128)) :
    ¬ AllSteps step Faithful
      [.reserve (.element .int128) name, .fill (.element .int128) name value] a := by
  have hkey := h.reservations_of_alone (alone_of_named a name
    (rfl : ReservedType.named (.element .int128) = _))
  rw [hpending] at hkey
  have hint : 16 < 2 ^ 31 := by decide
  obtain ⟨c, hrun, hc⟩ := run_reserve_of_room hint h.position hkey hroom
  have hstep : step (.reserve (.element .int128) name) a = _ := step_reserve hrun
  have hsound := keeps_sound (.reserve (.element .int128) name) a h (.inr hroom)
  rintro ⟨-, hfill, -⟩
  have hpermitted := (faithful_iff_permitted _ _ hsound).1 hfill
  rw [hstep] at hpermitted
  cases (enter_self ..).symm.trans hpermitted.1

theorem not_filled_unmanaged {name : Utf16} {type type' : UnmanagedType} (h : a.Sound)
    (hne : type ≠ type')
    (hfree : a.writer.reservations (ReservingWriter.key name "unmanaged") = none)
    (hroom : Room a.writer.cursor.memory.length a.writer.cursor.position type.size)
    (value : type'.Value) : ¬ AllSteps step Faithful
      [.reserve (.unmanaged type) name, .fill (.unmanaged type') name value] a := by
  obtain ⟨c, hrun, hc⟩ := run_reserve_of_room type.lt h.position hfree hroom
  have hstep : step (.reserve (.unmanaged type) name) a = _ := step_reserve hrun
  have hsound := keeps_sound (.reserve (.unmanaged type) name) a h (.inr hroom)
  rintro ⟨-, hfill, -⟩
  have hpermitted := (faithful_iff_permitted _ _ hsound).1 hfill
  rw [hstep] at hpermitted
  cases (enter_self ..).symm.trans (hpermitted type hne)

/-- In every run each reservation is filled once and with its own value only, and nothing else is
touched, exactly if each operation meets its condition. -/
theorem fills_exactly_iff (a : Account) (h : a.Sound) (ops : List ReservingOp) :
    AllSteps step Faithful ops a ↔ AllSteps step Permitted ops a :=
  allSteps_iff faithful_iff_permitted
    (fun op a ha hop => keeps_sound op a ha ((faithful_iff_permitted op a ha).1 hop)) h

end

/-- A new writer over a region of zeros. -/
def sampleAccount (length : Nat) : Account where
  writer := ⟨MemoryCursor.new (List.replicate length 0) (fun _ => 0) false, fun _ => none⟩
  pending _ _ := none

theorem sound_sampleAccount (length : Nat) : (sampleAccount length).Sound where
  position := (by decide : -2 ^ 31 ≤ (0 : Int) ∧ (0 : Int) < 2 ^ 31)
  table type name p := by
    constructor
    · intro h
      cases h
    · rintro ⟨type', -, h⟩
      cases h
  unique _ _ _ _ h := absurd rfl h
  room _ _ _ h := by cases h

def sampleType (name : String) (last : UInt8) : UnmanagedType :=
  ⟨name, last.toNat + 1, Nat.succ_pos last.toNat,
    Nat.lt_of_lt_of_le (Nat.succ_lt_succ last.toNat_lt) (by decide)⟩

/-- Two reservations that are filled in the other order and in the other byte order. -/
def sampleReservingOps : List ReservingOp :=
  [.reserve (.element .int32) (ascii "size"), .reserve (.unmanaged (sampleType "Color" 3))
      (ascii "size"), .bigEndian true,
    .fill (.unmanaged (sampleType "Color" 3)) (ascii "size") ⟨[1, 2, 3, 255], rfl⟩,
    .fill (.element .int32) (ascii "size") (258 : Int32)]

theorem fills_exactly_sample :
    AllSteps step Faithful sampleReservingOps (sampleAccount 8) ↔
      AllSteps step Permitted sampleReservingOps (sampleAccount 8) :=
  fills_exactly_iff (sampleAccount 8) (sound_sampleAccount 8) sampleReservingOps

/-- The reservation of a 128-bit integer cannot be filled, one that is for a byte is filled with
eight bytes, and one that does not fit is registered although it throws. -/
theorem int128_is_not_filled :
    ¬ AllSteps step Faithful
        [.reserve (.element .int128) [], .fill (.element .int128) [] (⟨0⟩ : Int128)]
        (sampleAccount 16) ∧
      ¬ AllSteps step Faithful
        [.reserve (.unmanaged (sampleType "byte" 0)) [],
          .fill (.unmanaged (sampleType "long" 7)) [] ⟨List.replicate 8 1, rfl⟩]
        (sampleAccount 16) ∧
      ¬ Faithful (.reserve (.element .int32) []) (sampleAccount 2) := by
  refine ⟨?_, ?_, ?_⟩
  · have hroom : Room 16 0 16 := by
      intro i _ hle
      rw [wrap32_of_range (by omega) (by omega)]
      omega
    exact not_filled_int128 (sound_sampleAccount 16) rfl hroom (⟨0⟩ : Int128)
  · have hroom : Room 16 0 (sampleType "byte" 0).size := by
      intro i _ hle
      have hone : (sampleType "byte" 0).size = 1 := rfl
      rw [hone] at hle
      rw [wrap32_of_range (by omega) (by omega)]
      omega
    exact not_filled_unmanaged (sound_sampleAccount 16) (by decide) rfl hroom _
  · intro h
    have hunchanged := h (e := .invalidOperation) rfl
    have hkey := congrFun hunchanged.reservations (ReservingWriter.key [] "Int32")
    exact absurd hkey (by decide)

end Account

end AcOpenServer
