import AcOpenServer.BinaryMemory.Text
import AcOpenServer.BinaryMemory.RoundTrip

namespace AcOpenServer
open Library
set_option autoImplicit true

/-- The types `IBinaryReader` and `IBinaryWriter` have methods for, besides characters and
strings. -/
inductive ScalarType where
  | sbyte
  | byte
  | int16
  | uint16
  | int32
  | uint32
  | int64
  | uint64
  | single
  | double
  | boolean
  deriving DecidableEq, Repr

def ScalarType.element : ScalarType → ElementType
  | sbyte => .sbyte
  | byte => .byte
  | int16 => .int16
  | uint16 => .uint16
  | int32 => .int32
  | uint32 => .uint32
  | int64 => .int64
  | uint64 => .uint64
  | single => .single
  | double => .double
  | boolean => .boolean

/-- The operations of `IBinaryWriter`. -/
inductive WriterOp where
  | position (value : Int64)
  | scalar (type : ScalarType) (value : type.element.Value)
  | char (value : UInt16)
  | utf8 (value : Utf16) (terminate : Bool)
  | ascii (value : Utf16) (terminate : Bool)
  | shiftJIS (value : Utf16) (terminate : Bool)
  | utf16 (value : Utf16) (terminate : Bool)

/-- The operations of `IBinaryReader`. -/
inductive ReaderOp where
  | position (value : Int64)
  | length
  | remaining
  | scalar (type : ScalarType)
  | char
  | utf8
  | ascii
  | shiftJIS
  | utf16
  deriving DecidableEq, Repr

/-- What an operation of `IBinaryReader` returns. -/
inductive ReaderValue where
  | none
  | number (value : Int)
  | scalar (type : ScalarType) (value : type.element.Value)
  | char (value : UInt16)
  | string (value : Utf16)

namespace BinaryStreamWriter

def writeScalar : (type : ScalarType) → type.element.Value → EStateM Exn BinaryStreamWriter Unit
  | .sbyte => writeSByte
  | .byte => writeByte
  | .int16 => writeInt16
  | .uint16 => writeUInt16
  | .int32 => writeInt32
  | .uint32 => writeUInt32
  | .int64 => writeInt64
  | .uint64 => writeUInt64
  | .single => writeSingle
  | .double => writeDouble
  | .boolean => writeBoolean

end BinaryStreamWriter

namespace BinaryStreamReader

def readScalar : (type : ScalarType) → EStateM Exn BinaryStreamReader type.element.Value
  | .sbyte => readSByte
  | .byte => readByte
  | .int16 => readInt16
  | .uint16 => readUInt16
  | .int32 => readInt32
  | .uint32 => readUInt32
  | .int64 => readInt64
  | .uint64 => readUInt64
  | .single => readSingle
  | .double => readDouble
  | .boolean => readBoolean

end BinaryStreamReader

variable (native : TextNative)

/-- `BinaryMemoryWriter` as an `IBinaryWriter`. -/
def WriterOp.onMemory : WriterOp → EStateM Exn BinaryMemoryWriter Unit
  | position value => MemoryCursor.setPosition value.toInt
  | scalar type value => BinaryMemoryWriter.writeElement type.element value
  | char value => BinaryMemoryWriter.writeChar value
  | utf8 value terminate => BinaryMemoryWriter.writeUTF8 native value terminate
  | ascii value terminate => BinaryMemoryWriter.writeASCII native value terminate
  | shiftJIS value terminate => BinaryMemoryWriter.writeShiftJIS native value terminate
  | utf16 value terminate => BinaryMemoryWriter.writeUTF16 native value terminate

/-- `BinaryStreamWriter` as an `IBinaryWriter`. -/
def WriterOp.onStream : WriterOp → EStateM Exn BinaryStreamWriter Unit
  | position value => StreamCursor.setPosition value.toInt
  | scalar type value => BinaryStreamWriter.writeScalar type value
  | char value => BinaryStreamWriter.writeChar native value
  | utf8 value terminate => BinaryStreamWriter.writeUTF8 native value terminate
  | ascii value terminate => BinaryStreamWriter.writeASCII native value terminate
  | shiftJIS value terminate => BinaryStreamWriter.writeShiftJIS native value terminate
  | utf16 value terminate => BinaryStreamWriter.writeUTF16 native value terminate

/-- `BinaryMemoryReader` as an `IBinaryReader`. -/
def ReaderOp.onMemory : ReaderOp → EStateM Exn BinaryMemoryReader ReaderValue
  | position value => do
    MemoryCursor.setPosition value.toInt
    return .none
  | length => do return .number (← get).memory.length
  | remaining => do
    let c ← get
    return .number (wrap32 (c.memory.length - c.position))
  | scalar type => do return .scalar type (← BinaryMemoryReader.readElement type.element)
  | char => do return .char (← BinaryMemoryReader.readChar)
  | utf8 => do return .string (← BinaryMemoryReader.readUTF8 native)
  | ascii => do return .string (← BinaryMemoryReader.readASCII native)
  | shiftJIS => do return .string (← BinaryMemoryReader.readShiftJIS native)
  | utf16 => do return .string (← BinaryMemoryReader.readUTF16 native)

/-- `BinaryStreamReader` as an `IBinaryReader`. -/
def ReaderOp.onStream : ReaderOp → EStateM Exn BinaryStreamReader ReaderValue
  | position value => do
    StreamCursor.setPosition value.toInt
    return .none
  | length => do return .number (← get).stream.bytes.length
  | remaining => do
    let c ← get
    return .number (c.stream.bytes.length - c.stream.position)
  | scalar type => do return .scalar type (← BinaryStreamReader.readScalar type)
  | char => do return .char (← BinaryStreamReader.readChar native)
  | utf8 => do return .string (← BinaryStreamReader.readUTF8 native)
  | ascii => do return .string (← BinaryStreamReader.readASCII native)
  | shiftJIS => do return .string (← BinaryStreamReader.readShiftJIS native)
  | utf16 => do return .string (← BinaryStreamReader.readUTF16 native)

/-- Both readers have the same bytes and stand at the same one. -/
structure SameReader (bytes : List UInt8) (c : BinaryMemoryReader) (d : BinaryStreamReader) :
    Prop where
  memory : c.memory = bytes
  stream : d.stream.bytes = bytes
  position : c.position = d.stream.position
  inside : d.stream.position ≤ bytes.length
  bigEndian : c.bigEndian = d.bigEndian
  short : bytes.length ≤ maxArrayLength

theorem peekBytes_inside {memory : List UInt8} (outside : Int → UInt8)
    (h : position + size ≤ memory.length) :
    peekBytes memory outside position size = (memory.drop position).take size := by
  have hbefore : (memory.take position).length = position := by
    rw [List.length_take]
    omega
  have hsize : ((memory.drop position).take size).length = size := by
    rw [List.length_take, List.length_drop]
    omega
  have hpeek := peekBytes_append (memory.take position) ((memory.drop position).take size)
    ((memory.drop position).drop size) outside
  rwa [List.take_append_drop, List.take_append_drop, hbefore, hsize] at hpeek

namespace SameReader

variable {bytes : List UInt8} {c : BinaryMemoryReader} {d : BinaryStreamReader}

theorem moved (h : SameReader bytes c d) (hsize : d.stream.position + size ≤ bytes.length) :
    SameReader bytes { c.touch size with position := c.position + size }
      { d with stream := { d.stream with position := d.stream.position + size } } where
  memory := h.memory
  stream := h.stream
  position := by
    have hposition := h.position
    dsimp only
    omega
  inside := hsize
  bigEndian := h.bigEndian
  short := h.short

theorem run_readValue (h : SameReader bytes c d)
    (hsize : d.stream.position + size ≤ bytes.length) :
    (MemoryCursor.readValue size).run c =
      .ok ((bytes.drop d.stream.position).take size)
        { c.touch size with position := c.position + size } := by
  have hmemory := congrArg List.length h.memory
  have hposition := h.position
  have hshort := h.short
  rw [maxArrayLength] at hshort
  have hfits : c.position + (size : Int) ≤ c.memory.length := by omega
  have hrun := MemoryCursor.run_access (by omega) (by omega) hfits
  rw [MemoryCursor.readValue, run_bind_of_ok _ hrun, ← peekBytes_inside c.outside hsize,
    ← h.memory, ← hposition]
  rfl

theorem run_readValue_end (h : SameReader bytes c d) (hsize : size ≤ 8)
    (hend : bytes.length < d.stream.position + size) :
    ∃ e c', (MemoryCursor.readValue size).run c = .error e c' := by
  have hmemory := congrArg List.length h.memory
  have hposition := h.position
  have hinside := h.inside
  have hshort := h.short
  rw [maxArrayLength] at hshort
  have hwrap : wrap32 (c.position + size) = c.position + size :=
    wrap32_of_range (by omega) (by omega)
  have hrun : (MemoryCursor.access size).run c = .error .invalidOperation c := by
    rw [MemoryCursor.access, run_get_bind, if_pos (by omega)]
    rfl
  exact ⟨_, _, run_bind_of_error _ hrun⟩

end SameReader

variable {bytes : List UInt8}

section
variable (α β : Type) [Layout α] [Layout β]

theorem agrees_read (hsize : Layout.size α ≤ 8) :
    Agrees (SameReader bytes) (BinaryMemoryReader.read α)
      (BinaryStreamReader.readLittleEndian α) := by
  intro c d h
  by_cases hfits : d.stream.position + Layout.size α ≤ bytes.length
  · refine .inl ⟨_, _, _, run_bind_of_ok _ (h.run_readValue hfits), ?_, h.moved hfits⟩
    rw [BinaryStreamReader.readLittleEndian, BinaryStreamReader.internalRead, bind_assoc,
      run_get_bind, h.stream, if_pos hfits]
    rfl
  · obtain ⟨e, c', hrun⟩ := h.run_readValue_end hsize (Nat.lt_of_not_le hfits)
    refine .inr ⟨⟨e, c', run_bind_of_error _ hrun⟩, ?_⟩
    rw [BinaryStreamReader.readLittleEndian, BinaryStreamReader.internalRead, bind_assoc,
      run_get_bind, h.stream, if_neg hfits]
    exact ⟨_, _, rfl⟩

theorem agrees_internalReadByte (hsize : Layout.size α = 1) :
    Agrees (SameReader bytes) (BinaryMemoryReader.read α)
      (BinaryStreamReader.internalReadByte α) := by
  intro c d h
  by_cases hfits : d.stream.position < bytes.length
  · have hone : d.stream.position + 1 ≤ bytes.length := hfits
    rw [BinaryMemoryReader.read, hsize]
    refine .inl ⟨_, _, _, run_bind_of_ok _ (h.run_readValue hone), ?_, h.moved hone⟩
    rw [BinaryStreamReader.internalReadByte, run_get_bind, h.stream, if_pos hfits]
    rfl
  · have hend : bytes.length < d.stream.position + 1 := by omega
    obtain ⟨e, c', hrun⟩ := h.run_readValue_end (Nat.le_of_ble_eq_true rfl) hend
    rw [BinaryMemoryReader.read, hsize]
    refine .inr ⟨⟨e, c', run_bind_of_error _ hrun⟩, ?_⟩
    rw [BinaryStreamReader.internalReadByte, run_get_bind, h.stream, if_neg hfits]
    exact ⟨_, _, rfl⟩

theorem agrees_readEndian (hsize : Layout.size α ≤ 8) :
    Agrees (SameReader bytes) (BinaryMemoryReader.readEndian α)
      (BinaryStreamReader.readEndian α) := by
  apply (agrees_read α hsize).bind
  intro value
  apply agrees_get_bind
  intro c d h
  rw [h.bigEndian]
  cases d.bigEndian with
  | true => exact agrees_pure (reverseEndianness value)
  | false => exact agrees_pure value

theorem bigEndian_of_read {c c' : BinaryMemoryReader} {value : α}
    (h : (BinaryMemoryReader.read α).run c = .ok value c') : c'.bigEndian = c.bigEndian := by
  rw [BinaryMemoryReader.read, MemoryCursor.readValue, MemoryCursor.access, bind_assoc, bind_assoc,
    run_get_bind] at h
  by_cases hlong : (c.memory.length : Int) < wrap32 (c.position + Layout.size α)
  · rw [if_pos hlong] at h
    cases h
  · rw [if_neg hlong] at h
    cases h
    rfl

theorem run_readEndian (c : BinaryMemoryReader) :
    (BinaryMemoryReader.readEndian α).run c =
      (do
        let value ← BinaryMemoryReader.read α
        return if c.bigEndian then reverseEndianness value else value : EStateM Exn _ α).run c := by
  rw [BinaryMemoryReader.readEndian]
  cases hrun : (BinaryMemoryReader.read α).run c with
  | error e c' => rw [run_bind_of_error _ hrun, run_bind_of_error _ hrun]
  | ok value c' =>
    rw [run_bind_of_ok _ hrun, run_bind_of_ok _ hrun, run_get_bind, bigEndian_of_read α hrun]
    cases c.bigEndian with
    | true => rfl
    | false => rfl

/-- The memory reader reads a type that has the layout of another one as that one only when it
swaps the bytes. -/
theorem agrees_readEndianConvert {convert : α → β} (hsize : Layout.size α ≤ 8)
    (hsame : Layout.size β = Layout.size α)
    (hdecode : ∀ bs, Layout.decode bs = convert (Layout.decode bs)) :
    Agrees (SameReader bytes) (BinaryMemoryReader.readEndianConvert α convert)
      (do return convert (← BinaryStreamReader.readEndian α)) := by
  intro c d h
  have hread : BinaryMemoryReader.read β = do return convert (← BinaryMemoryReader.read α) := by
    rw [BinaryMemoryReader.read, BinaryMemoryReader.read, bind_assoc, hsame]
    exact bind_congr fun bs => congrArg pure (hdecode bs)
  have hagrees := (agrees_readEndian α hsize).map convert c d h
  have hrun : (BinaryMemoryReader.readEndianConvert α convert).run c =
      (do return convert (← BinaryMemoryReader.readEndian α) : EStateM Exn _ β).run c := by
    rw [BinaryMemoryReader.readEndianConvert, run_get_bind, EStateM.run_bind, run_readEndian]
    cases c.bigEndian with
    | true =>
      rw [← EStateM.run_bind, bind_assoc]
      rfl
    | false =>
      rw [← EStateM.run_bind, bind_assoc, if_neg Bool.false_ne_true, hread]
      rfl
  rwa [hrun]

end

theorem agrees_readByte :
    Agrees (SameReader bytes) BinaryMemoryReader.readByte BinaryStreamReader.readByte :=
  agrees_internalReadByte UInt8 rfl

theorem agrees_readBoolean :
    Agrees (SameReader bytes) BinaryMemoryReader.readBoolean BinaryStreamReader.readBoolean := by
  apply agrees_readByte.bind
  intro value
  by_cases hzero : value = 0
  · rw [if_pos hzero, if_pos hzero]
    exact agrees_pure false
  · rw [if_neg hzero, if_neg hzero]
    by_cases hone : value = 1
    · rw [if_pos hone, if_pos hone]
      exact agrees_pure true
    · rw [if_neg hone, if_neg hone]
      exact agrees_throw _ _

theorem agrees_readScalar (type : ScalarType) :
    Agrees (SameReader bytes) (BinaryMemoryReader.readElement type.element)
      (BinaryStreamReader.readScalar type) := by
  cases type with
  | sbyte => exact agrees_internalReadByte Int8 rfl
  | byte => exact agrees_readByte
  | int16 => exact agrees_readEndian Int16 (by decide)
  | uint16 => exact agrees_readEndian UInt16 (by decide)
  | int32 => exact agrees_readEndian Int32 (by decide)
  | uint32 => exact agrees_readEndian UInt32 (by decide)
  | int64 => exact agrees_readEndian Int64 (by decide)
  | uint64 => exact agrees_readEndian UInt64 (by decide)
  | single => exact agrees_readEndianConvert UInt32 Single (by decide) rfl fun _ => rfl
  | double => exact agrees_readEndianConvert UInt64 Double (by decide) rfl fun _ => rfl
  | boolean => exact agrees_readBoolean

theorem agrees_readTerminated {character : EStateM Exn σ (Option (List UInt8))}
    {character' : EStateM Exn τ (Option (List UInt8))} {R : σ → τ → Prop}
    (h : Agrees R character character') (limit : Nat) :
    Agrees R (readTerminated character limit) (readTerminated character' limit) :=
  (agrees_collect h limit).map List.flatten

-- The loops over the bytes of a string never reach their limit, as each round takes a byte of what
-- is left.
section
variable {σ : Type} {readByte : EStateM Exn σ UInt8} {P : σ → Prop} {left : σ → Nat}

theorem read8BitCharacter_takes
    (hbyte : ∀ s b t, P s → readByte.run s = .ok b t → P t ∧ left t < left s) (s : σ)
    (a : List UInt8) (t : σ) (hs : P s) (h : (read8BitCharacter readByte).run s = .ok (some a) t) :
    P t ∧ left t < left s := by
  cases hrun : readByte.run s with
  | error e u =>
    rw [read8BitCharacter, run_bind_of_error _ hrun] at h
    cases h
  | ok b u =>
    rw [read8BitCharacter, run_bind_of_ok _ hrun] at h
    obtain ⟨-, rfl⟩ := EStateM.Result.ok.inj h
    exact hbyte s b _ hs hrun

theorem read16BitCharacter_takes
    (hbyte : ∀ s b t, P s → readByte.run s = .ok b t → P t ∧ left t < left s) (s : σ)
    (a : List UInt8) (t : σ) (hs : P s) (h : (read16BitCharacter readByte).run s = .ok (some a) t) :
    P t ∧ left t < left s := by
  cases hrun : readByte.run s with
  | error e u =>
    rw [read16BitCharacter, run_bind_of_error _ hrun] at h
    cases h
  | ok b u =>
    obtain ⟨hu, hless⟩ := hbyte s b u hs hrun
    rw [read16BitCharacter, run_bind_of_ok _ hrun] at h
    cases hrun' : readByte.run u with
    | error e v =>
      rw [run_bind_of_error _ hrun'] at h
      cases h
    | ok b' v =>
      rw [run_bind_of_ok _ hrun'] at h
      obtain ⟨-, rfl⟩ := EStateM.Result.ok.inj h
      obtain ⟨ht, hless'⟩ := hbyte u b' _ hu hrun'
      exact ⟨ht, hless'.trans hless⟩

theorem run_readTerminated_of_lt {character : EStateM Exn σ (Option (List UInt8))}
    (hcharacter : ∀ s a t, P s → character.run s = .ok (some a) t → P t ∧ left t < left s)
    (hs : P s) (h : left s < limit) (h' : left s < limit') :
    (readTerminated character limit).run s = (readTerminated character limit').run s := by
  rw [readTerminated, readTerminated, EStateM.run_bind, EStateM.run_bind,
    run_collect_of_lt hcharacter hs h h']

end

theorem BinaryStreamReader.readByte_takes (d : BinaryStreamReader) (b : UInt8)
    (d' : BinaryStreamReader) (h : BinaryStreamReader.readByte.run d = .ok b d') :
    d'.stream.bytes = d.stream.bytes ∧ d'.stream.position = d.stream.position + 1 ∧
      d.stream.position < d.stream.bytes.length := by
  rw [BinaryStreamReader.readByte, BinaryStreamReader.internalReadByte, run_get_bind] at h
  by_cases hleft : d.stream.position < d.stream.bytes.length
  · rw [if_pos hleft] at h
    cases h
    exact ⟨rfl, rfl, hleft⟩
  · rw [if_neg hleft] at h
    cases h

theorem BinaryMemoryReader.readByte_takes (c : BinaryMemoryReader) (b : UInt8)
    (c' : BinaryMemoryReader) (hc : ∃ d, SameReader bytes c d)
    (h : BinaryMemoryReader.readByte.run c = .ok b c') :
    (∃ d, SameReader bytes c' d) ∧
      bytes.length - c'.position.toNat < bytes.length - c.position.toNat := by
  obtain ⟨d, hsame⟩ := hc
  rcases agrees_readByte c d hsame with ⟨b', c'', d', hrun, hrun', hsame'⟩ | ⟨⟨e, c'', hrun⟩, _⟩
  · rw [h] at hrun
    cases hrun
    obtain ⟨-, hposition, hleft⟩ := BinaryStreamReader.readByte_takes d b d' hrun'
    have hbefore := hsame.position
    have hafter := hsame'.position
    rw [hsame.stream] at hleft
    exact ⟨⟨d', hsame'⟩, by omega⟩
  · rw [h] at hrun
    cases hrun

theorem run_readTerminated_memory {c : BinaryMemoryReader} (hc : ∃ d, SameReader bytes c d)
    (hlimit : bytes.length < limit) :
    (readTerminated (read8BitCharacter BinaryMemoryReader.readByte) limit).run c =
        BinaryMemoryReader.read8BitTerminatedStringBytes.run c ∧
      (readTerminated (read16BitCharacter BinaryMemoryReader.readByte) limit).run c =
        BinaryMemoryReader.read16BitTerminatedStringBytes.run c := by
  have hshort : bytes.length ≤ maxArrayLength := by
    obtain ⟨d, hsame⟩ := hc
    exact hsame.short
  rw [maxArrayLength] at hshort
  have h : bytes.length - c.position.toNat < limit := by omega
  have h' : bytes.length - c.position.toNat < positionCount := by
    rw [positionCount]
    omega
  have hbyte : ∀ (c : BinaryMemoryReader) (b : UInt8) (c' : BinaryMemoryReader),
      (∃ d, SameReader bytes c d) → BinaryMemoryReader.readByte.run c = .ok b c' →
        (∃ d, SameReader bytes c' d) ∧
          bytes.length - c'.position.toNat < bytes.length - c.position.toNat :=
    BinaryMemoryReader.readByte_takes
  constructor
  · exact run_readTerminated_of_lt (read8BitCharacter_takes hbyte) hc h h'
  · exact run_readTerminated_of_lt (read16BitCharacter_takes hbyte) hc h h'

theorem agrees_read8Bit :
    Agrees (SameReader bytes) BinaryMemoryReader.read8BitTerminatedStringBytes
      BinaryStreamReader.read8BitTerminatedStringBytes := by
  intro c d h
  have hlimit := run_readTerminated_memory ⟨d, h⟩ (Nat.lt_succ_self bytes.length)
  rw [← hlimit.1, BinaryStreamReader.read8BitTerminatedStringBytes, run_get_bind, h.stream]
  exact agrees_readTerminated (agrees_readByte.map _) _ c d h

theorem agrees_read16Bit :
    Agrees (SameReader bytes) BinaryMemoryReader.read16BitTerminatedStringBytes
      BinaryStreamReader.read16BitTerminatedStringBytes := by
  intro c d h
  have hlimit := run_readTerminated_memory ⟨d, h⟩ (Nat.lt_succ_self bytes.length)
  rw [← hlimit.2, BinaryStreamReader.read16BitTerminatedStringBytes, run_get_bind, h.stream]
  apply agrees_readTerminated
  · apply agrees_readByte.bind
    intro a
    exact agrees_readByte.map _
  · exact h

/-- A new position that both readers accept, or both refuse. -/
def SamePosition (length : Nat) (value : Int) : Prop :=
  0 ≤ value ∧ value ≤ length ∨ (value < 0 ∨ 2 ^ 31 ≤ value) ∧ length < value % 2 ^ 32

theorem agrees_setPosition {value : Int} (h : SamePosition bytes.length value) :
    Agrees (SameReader bytes) (MemoryCursor.setPosition value)
      (StreamCursor.setPosition value) := by
  intro c d hsame
  have hmemory := congrArg List.length hsame.memory
  have hshort := hsame.short
  rw [maxArrayLength] at hshort
  rcases h with ⟨hnonneg, hle⟩ | ⟨hout, hlarge⟩
  · have hmod : value % 2 ^ 32 = value := Int.emod_eq_of_lt hnonneg (by omega)
    have hwrap : wrap32 value = value := wrap32_of_range (by omega) (by omega)
    refine .inl ⟨(), { c with position := value },
      { d with stream := { d.stream with position := value.toNat } }, ?_, ?_, ?_⟩
    · rw [MemoryCursor.setPosition, run_get_bind, if_neg (by omega), hwrap]
      rfl
    · rw [StreamCursor.setPosition, if_neg (by omega)]
      rfl
    · refine ⟨hsame.memory, hsame.stream, ?_, ?_, hsame.bigEndian, hsame.short⟩
      · exact (Int.toNat_of_nonneg hnonneg).symm
      · dsimp only
        omega
  · refine .inr ⟨⟨.argumentOutOfRange, c, ?_⟩, .argumentOutOfRange, d, ?_⟩
    · rw [MemoryCursor.setPosition, run_get_bind, if_pos (by omega)]
      rfl
    · rw [StreamCursor.setPosition, if_pos hout]
      rfl

/-- The operations both readers do alike on so many bytes. -/
def ReaderOp.Shared (length : Nat) : ReaderOp → Prop
  | position value => SamePosition length value.toInt
  | char => False
  | _ => True

theorem ReaderOp.agrees (op : ReaderOp) (h : op.Shared bytes.length) :
    Agrees (SameReader bytes) (op.onMemory native) (op.onStream native) := by
  cases op with
  | position value => exact (agrees_setPosition h).map fun _ => ReaderValue.none
  | length =>
    apply agrees_get_bind
    intro c d hsame
    rw [hsame.memory, hsame.stream]
    exact agrees_pure _
  | remaining =>
    apply agrees_get_bind
    intro c d hsame
    have hposition := hsame.position
    have hinside := hsame.inside
    have hshort := hsame.short
    rw [maxArrayLength] at hshort
    have hwrap : wrap32 (bytes.length - c.position) = bytes.length - d.stream.position := by
      rw [hposition]
      exact wrap32_of_range (by omega) (by omega)
    rw [hsame.memory, hsame.stream, hwrap]
    exact agrees_pure _
  | scalar type => exact (agrees_readScalar type).map (ReaderValue.scalar type)
  | char => exact h.elim
  | utf8 => exact (agrees_read8Bit.map native.utf8.getString).map ReaderValue.string
  | ascii => exact (agrees_read8Bit.map native.ascii.getString).map ReaderValue.string
  | shiftJIS => exact (agrees_read8Bit.map native.shiftJIS.getString).map ReaderValue.string
  | utf16 =>
    refine Agrees.map (agrees_get_bind fun c d hsame => ?_) ReaderValue.string
    rw [hsame.bigEndian]
    cases d.bigEndian with
    | true => exact agrees_read16Bit.map native.utf16BE.getString
    | false => exact agrees_read16Bit.map native.utf16LE.getString

/-- An operation that writes these bytes to a stream where it stands. -/
def StreamWrites (bigEndian : Bool) (bytes : List UInt8) (m : EStateM Exn BinaryStreamWriter Unit) :
    Prop :=
  ∀ ⦃d⦄, d.bigEndian = bigEndian → d.stream.position ≤ d.stream.bytes.length →
    m.run d = .ok () { d with stream := d.stream.write bytes }

section
variable {bigEndian : Bool}

theorem streamWrites_writeLittleEndian [Layout α] (value : α) :
    StreamWrites bigEndian (Layout.encode value) (BinaryStreamWriter.writeLittleEndian value) :=
  fun _ _ _ => rfl

theorem streamWrites_byte [Layout α] {value : α} (h : Layout.encode value = [b]) :
    StreamWrites bigEndian (order bigEndian (Layout.encode value))
      (BinaryStreamWriter.writeLittleEndian value) := by
  rw [h, order_singleton, ← h]
  exact streamWrites_writeLittleEndian value

theorem streamWrites_writeEndian [Layout α] (value : α) :
    StreamWrites bigEndian (order bigEndian (Layout.encode value))
      (BinaryStreamWriter.writeEndian value) := by
  rintro ⟨stream, bigEndian⟩ rfl hinside
  rw [BinaryStreamWriter.writeEndian, StreamCursor.setValueEndianness, bind_assoc, run_get_bind]
  cases bigEndian with
  | true =>
    rw [if_pos rfl, pure_bind, order, if_pos rfl, ← encode_reverseEndianness]
    rfl
  | false =>
    rw [if_neg Bool.false_ne_true, pure_bind]
    rfl

theorem streamWrites_writeScalar (type : ScalarType) (value : type.element.Value) :
    StreamWrites bigEndian (order bigEndian (type.element.encode value))
      (BinaryStreamWriter.writeScalar type value) := by
  cases type with
  | sbyte => exact streamWrites_byte (α := Int8) rfl
  | byte => exact streamWrites_byte (α := UInt8) rfl
  | int16 => exact streamWrites_writeEndian (α := Int16) value
  | uint16 => exact streamWrites_writeEndian (α := UInt16) value
  | int32 => exact streamWrites_writeEndian (α := Int32) value
  | uint32 => exact streamWrites_writeEndian (α := UInt32) value
  | int64 => exact streamWrites_writeEndian (α := Int64) value
  | uint64 => exact streamWrites_writeEndian (α := UInt64) value
  | single => exact streamWrites_writeEndian (α := UInt32) (Single.bits value)
  | double => exact streamWrites_writeEndian (α := UInt64) (Double.bits value)
  | boolean => exact streamWrites_byte (α := UInt8) rfl

theorem streamWrites_writeBytes (values : List UInt8) :
    StreamWrites bigEndian values (BinaryStreamWriter.writeBytes values) := by
  induction values with
  | nil =>
    intro d hbig hinside
    rw [MemoryStream.write_nil hinside]
    rfl
  | cons value values ih =>
    intro d hbig hinside
    have hfirst : (BinaryStreamWriter.writeByte value).run d =
        .ok () { d with stream := d.stream.write [value] } := rfl
    have hrest := ih (d := { d with stream := d.stream.write [value] }) hbig
      (d.stream.position_write_le [value])
    rw [BinaryStreamWriter.writeBytes, run_bind_of_ok _ hfirst, hrest]
    exact congrArg (fun t => EStateM.Result.ok () { d with stream := t })
      (d.stream.write_append [value] values)

end

/-- The memory holds what the stream holds and zeros behind it, and both stand at the same
place of what is written. -/
structure SameWriter (n : Nat) (c : BinaryMemoryWriter) (d : BinaryStreamWriter) : Prop where
  memory : c.memory = d.stream.bytes ++ List.replicate (n - d.stream.bytes.length) 0
  position : c.position = d.stream.position
  inside : d.stream.position ≤ d.stream.bytes.length
  room : d.stream.bytes.length ≤ n
  bigEndian : c.bigEndian = d.bigEndian
  small : n < 2 ^ 31

namespace SameWriter

variable {n : Nat} {c : BinaryMemoryWriter} {d : BinaryStreamWriter}

theorem length_memory (h : SameWriter n c d) : c.memory.length = n := by
  have hroom := h.room
  rw [h.memory, List.length_append, List.length_replicate]
  omega

theorem write {m : EStateM Exn BinaryMemoryWriter Unit}
    (hm : MemoryCursor.Writes d.bigEndian bytes m) (h : SameWriter n c d)
    (hfits : (d.stream.write bytes).bytes.length ≤ n) :
    ∃ c', m.run c = .ok () c' ∧ SameWriter n c' { d with stream := d.stream.write bytes } := by
  have hinside := h.inside
  have hroom := h.room
  have hbefore := MemoryStream.length_take_position hinside
  have hbytes := MemoryStream.bytes_write hinside bytes
  have hlength : (d.stream.write bytes).bytes.length =
      d.stream.position + (bytes.length +
        (d.stream.bytes.length - (d.stream.position + bytes.length))) := by
    rw [hbytes, List.length_append, List.length_append, hbefore, List.length_drop]
  let rest := d.stream.bytes.drop d.stream.position ++
    List.replicate (n - d.stream.bytes.length) 0
  have hrest : rest.drop bytes.length = d.stream.bytes.drop (d.stream.position + bytes.length) ++
      List.replicate (n - (d.stream.write bytes).bytes.length) 0 := by
    rw [List.drop_append, List.drop_drop, List.drop_replicate, List.length_drop]
    congr 2
    omega
  have hmemory : c.memory = d.stream.bytes.take d.stream.position ++
      (rest.take bytes.length ++ rest.drop bytes.length) := by
    rw [List.take_append_drop, ← List.append_assoc, List.take_append_drop, h.memory]
  have hat : MemoryCursor.At d.bigEndian (d.stream.bytes.take d.stream.position)
      (rest.take bytes.length ++ rest.drop bytes.length) c := by
    refine ⟨hmemory, ?_, h.bigEndian, ?_⟩
    · rw [hbefore, h.position]
    · rw [h.length_memory]
      exact h.small
  obtain ⟨c', hrun, hc'⟩ := hm hat (by
    rw [List.length_take, List.length_append, List.length_drop, List.length_replicate]
    omega)
  refine ⟨c', hrun, ?_, ?_, d.stream.position_write_le bytes, hfits, hc'.bigEndian,
    h.small⟩
  · rw [hc'.memory, hrest, hbytes, List.append_assoc, List.append_assoc, List.append_assoc]
  · rw [hc'.position, List.length_append, hbefore]
    rfl

end SameWriter

/-- The operations within what is written, none of them for a character. -/
def WriterOp.Shared (d : BinaryStreamWriter) : WriterOp → Prop
  | position value => 0 ≤ value.toInt ∧ value.toInt ≤ d.stream.bytes.length
  | char _ => False
  | _ => True

/-- Those of them after which the contents of the stream are at most `n` bytes. -/
def WriterOp.Within (n : Nat) (op : WriterOp) (d : BinaryStreamWriter) : Prop :=
  op.Shared d ∧ (stateAfter (op.onStream native) d).stream.bytes.length ≤ n

section
variable {n : Nat} {c : BinaryMemoryWriter} {d : BinaryStreamWriter}

theorem SameWriter.setPosition {value : Int} (h : SameWriter n c d) (hnonneg : 0 ≤ value)
    (hle : value ≤ d.stream.bytes.length) :
    ∃ c' d', (MemoryCursor.setPosition value).run c = .ok () c' ∧
      (StreamCursor.setPosition value).run d = .ok () d' ∧ SameWriter n c' d' := by
  have hlength := h.length_memory
  have hroom := h.room
  have hsmall := h.small
  have hmod : value % 2 ^ 32 = value := Int.emod_eq_of_lt hnonneg (by omega)
  have hwrap : wrap32 value = value := wrap32_of_range (by omega) (by omega)
  refine ⟨{ c with position := value },
    { d with stream := { d.stream with position := value.toNat } }, ?_, ?_, ?_⟩
  · rw [MemoryCursor.setPosition, run_get_bind, if_neg (by omega), hwrap]
    rfl
  · rw [StreamCursor.setPosition, if_neg (by omega)]
    rfl
  · refine ⟨h.memory, (Int.toNat_of_nonneg hnonneg).symm, ?_, h.room, h.bigEndian, h.small⟩
    dsimp only
    omega

theorem SameWriter.run_writes {m : EStateM Exn BinaryMemoryWriter Unit}
    {m' : EStateM Exn BinaryStreamWriter Unit} (h : SameWriter n c d)
    (hm : MemoryCursor.Writes d.bigEndian bytes m) (hm' : StreamWrites d.bigEndian bytes m')
    (hfits : (stateAfter m' d).stream.bytes.length ≤ n) :
    ∃ c' d', m.run c = .ok () c' ∧ m'.run d = .ok () d' ∧ SameWriter n c' d' := by
  have hrun := hm' rfl h.inside
  rw [stateAfter_of_ok hrun] at hfits
  obtain ⟨c', hrun', hsame⟩ := h.write hm hfits
  exact ⟨c', _, hrun', hrun, hsame⟩

theorem writes_writeBytes (bigEndian : Bool) (values : List UInt8) :
    MemoryCursor.Writes bigEndian values (BinaryMemoryWriter.writeBytes values) := by
  have hwrites : MemoryCursor.Writes bigEndian (values.flatMap fun b => [b])
      (BinaryMemoryWriter.writeBytes values) :=
    MemoryCursor.writes_each (fun b => MemoryCursor.writes_writeValue bigEndian [b]) values
  rwa [List.flatMap_singleton'] at hwrites

/-- The encoding the byte order picks. -/
def TextNative.utf16 (bigEndian : Bool) : Encoding :=
  if bigEndian then native.utf16BE else native.utf16LE

theorem writes_writeUTF16 (bigEndian : Bool) (value : Utf16) (terminate : Bool) :
    MemoryCursor.Writes bigEndian
      ((native.utf16 bigEndian).getBytes (terminated value terminate))
      (BinaryMemoryWriter.writeUTF16 native value terminate) := by
  intro before room after c h hroom
  rw [BinaryMemoryWriter.writeUTF16, run_get_bind, h.bigEndian]
  exact writes_writeBytes bigEndian _ h hroom

theorem streamWrites_writeUTF16 (bigEndian : Bool) (value : Utf16) (terminate : Bool) :
    StreamWrites bigEndian ((native.utf16 bigEndian).getBytes (terminated value terminate))
      (BinaryStreamWriter.writeUTF16 native value terminate) := by
  rintro d rfl hinside
  exact streamWrites_writeBytes _ rfl hinside

theorem SameWriter.run (op : WriterOp) (h : SameWriter n c d) (hop : op.Within native n d) :
    ∃ (u : Unit) (c' : _) (d' : _), (op.onMemory native).run c = .ok u c' ∧
      (op.onStream native).run d = .ok u d' ∧ SameWriter n c' d' := by
  obtain ⟨hshared, hfits⟩ := hop
  refine ⟨(), ?_⟩
  cases op with
  | position value => exact h.setPosition hshared.1 hshared.2
  | scalar type value =>
    exact h.run_writes (BinaryMemoryWriter.writes_writeElement type.element value)
      (streamWrites_writeScalar type value) hfits
  | char value => exact hshared.elim
  | utf8 value terminate =>
    exact h.run_writes (writes_writeBytes _ _) (streamWrites_writeBytes _) hfits
  | ascii value terminate =>
    exact h.run_writes (writes_writeBytes _ _) (streamWrites_writeBytes _) hfits
  | shiftJIS value terminate =>
    exact h.run_writes (writes_writeBytes _ _) (streamWrites_writeBytes _) hfits
  | utf16 value terminate =>
    exact h.run_writes (writes_writeUTF16 native _ value terminate)
      (streamWrites_writeUTF16 native _ value terminate) hfits

end

/-- What is seen of a memory writer: its bytes and its position. -/
def seeMemory (c : MemoryCursor) : List UInt8 × Int := (c.memory, c.position)

/-- What is seen of a stream writer, the bytes it has not written being zeros. -/
def seeStream (n : Nat) (d : StreamCursor) : List UInt8 × Int :=
  (d.stream.bytes ++ List.replicate (n - d.stream.bytes.length) 0, d.stream.position)

/-- Calls through the interfaces have the same outcomes on memory and on a stream: readers return
equal values at equal positions until they fail at the same call, and writers write the same bytes
and are at the same position after each call, none of which fails. A stream is taken to grow to the
length of any region, also beyond `maxArrayLength`. -/
theorem interchangeable (bigEndian : Bool) (outside : Int → UInt8) :
    (∀ (bytes : List UInt8) (ops : List ReaderOp), bytes.length ≤ maxArrayLength →
      (∀ op ∈ ops, op.Shared bytes.length) →
        outcomes (ReaderOp.onMemory native) (fun c => c.position) ops
            (MemoryCursor.new bytes outside bigEndian) =
          outcomes (ReaderOp.onStream native) (fun d => (d.stream.position : Int)) ops
            (StreamCursor.new bytes bigEndian)) ∧
      ∀ (n : Nat) (ops : List WriterOp), n < 2 ^ 31 →
        AllSteps (fun op => stateAfter (op.onStream native)) (WriterOp.Within native n) ops
            (StreamCursor.new [] bigEndian) →
          outcomes (WriterOp.onMemory native) seeMemory ops
              (MemoryCursor.new (List.replicate n 0) outside bigEndian) =
            outcomes (WriterOp.onStream native) (seeStream n) ops (StreamCursor.new [] bigEndian) ∧
          none ∉ outcomes (WriterOp.onMemory native) seeMemory ops
              (MemoryCursor.new (List.replicate n 0) outside bigEndian) := by
  refine ⟨?_, ?_⟩
  · intro bytes ops hshort hshared
    have hsame : SameReader bytes (MemoryCursor.new bytes outside bigEndian)
        (StreamCursor.new bytes bigEndian) := ⟨rfl, rfl, rfl, Nat.zero_le _, rfl, hshort⟩
    exact outcomes_eq (fun op hop => ReaderOp.agrees native op (hshared op hop))
      (fun c d h => h.position) hsame
  · intro n ops hsmall hwithin
    have hsame : SameWriter n (MemoryCursor.new (List.replicate n 0) outside bigEndian)
        (StreamCursor.new [] bigEndian) :=
      ⟨rfl, rfl, Nat.le_refl 0, Nat.zero_le n, rfl, hsmall⟩
    exact outcomes_eq_of_guarded (fun op c d h hop => h.run native op hop)
      (fun c d h => Prod.ext h.memory h.position) hsame hwithin

/-- The encodings, as they are for text in ASCII. -/
def asciiNative : TextNative where
  utf8 := ⟨List.map UInt16.toUInt8, List.map UInt8.toUInt16⟩
  ascii := ⟨List.map UInt16.toUInt8, List.map UInt8.toUInt16⟩
  shiftJIS := ⟨List.map UInt16.toUInt8, List.map UInt8.toUInt16⟩
  utf16LE := ⟨List.flatMap Layout.encode, fun bs => Layout.decodeAll UInt16 (bs.length / 2) bs⟩
  utf16BE :=
    ⟨List.flatMap fun c => Layout.encode (reverseEndianness c),
      fun bs => (Layout.decodeAll UInt16 (bs.length / 2) bs).map reverseEndianness⟩
  decodeChar
    | [] => (none, 0)
    | b :: _ => (some b.toUInt16, 1)

def sampleReads : List ReaderOp := [.position 1, .utf16, .scalar .int32]

def sampleWrites : List WriterOp := [.utf16 (ascii "a") true, .position 1, .scalar .boolean true]

theorem interchangeable_sample :
    outcomes (ReaderOp.onMemory asciiNative) (fun c => c.position) sampleReads
        (MemoryCursor.new [7, 0, 97, 0, 0] (fun _ => 0) true) =
      outcomes (ReaderOp.onStream asciiNative) (fun d => (d.stream.position : Int)) sampleReads
        (StreamCursor.new [7, 0, 97, 0, 0] true) ∧
      outcomes (WriterOp.onMemory asciiNative) seeMemory sampleWrites
          (MemoryCursor.new (List.replicate 4 0) (fun _ => 0) true) =
        outcomes (WriterOp.onStream asciiNative) (seeStream 4) sampleWrites
          (StreamCursor.new [] true) ∧
      none ∉ outcomes (WriterOp.onMemory asciiNative) seeMemory sampleWrites
          (MemoryCursor.new (List.replicate 4 0) (fun _ => 0) true) := by
  have hreads : ∀ op ∈ sampleReads, op.Shared 5 := by
    intro op hop
    simp only [sampleReads, List.mem_cons, List.not_mem_nil, or_false] at hop
    rcases hop with rfl | rfl | rfl
    · exact .inl (by decide)
    · trivial
    · trivial
  have hwrites : AllSteps (fun op => stateAfter (op.onStream asciiNative))
      (WriterOp.Within asciiNative 4) sampleWrites (StreamCursor.new [] true) :=
    ⟨⟨trivial, by decide⟩, ⟨⟨by decide, by decide⟩, by decide⟩, ⟨trivial, by decide⟩, trivial⟩
  exact ⟨(interchangeable asciiNative true (fun _ => 0)).1 [7, 0, 97, 0, 0] sampleReads
      (by decide) hreads,
    (interchangeable asciiNative true (fun _ => 0)).2 4 sampleWrites (by decide) hwrites⟩

/-- A character is two bytes of memory but one byte of a stream, a position is narrowed to 32 bits
only for memory, and what fails moves to the end of the stream only. -/
theorem not_interchangeable :
    outcomes (WriterOp.onMemory asciiNative) seeMemory [.char 0x41]
        (MemoryCursor.new [0, 0] (fun _ => 0) false) ≠
      outcomes (WriterOp.onStream asciiNative) (seeStream 2) [.char 0x41]
        (StreamCursor.new [] false) ∧
      (outcomes (ReaderOp.onMemory asciiNative) (fun c => c.position) [.char]
          (MemoryCursor.new [0x41, 0x42] (fun _ => 0) false)).map (·.map (·.2)) ≠
        (outcomes (ReaderOp.onStream asciiNative) (fun d => (d.stream.position : Int)) [.char]
          (StreamCursor.new [0x41, 0x42] false)).map (·.map (·.2)) ∧
      (outcomes (ReaderOp.onMemory asciiNative) (fun c => c.position) [.position (2 ^ 32)]
          (MemoryCursor.new [] (fun _ => 0) false)).map (·.map (·.2)) ≠
        (outcomes (ReaderOp.onStream asciiNative) (fun d => (d.stream.position : Int))
          [.position (2 ^ 32)] (StreamCursor.new [] false)).map (·.map (·.2)) ∧
      (stateAfter (ReaderOp.onMemory asciiNative (.scalar .int32))
          (MemoryCursor.new [1] (fun _ => 0) false)).position ≠
        (stateAfter (ReaderOp.onStream asciiNative (.scalar .int32))
          (StreamCursor.new [1] false)).stream.position := by
  decide

end AcOpenServer
