import AcOpenServer.BinaryMemory.Typed

namespace AcOpenServer
open Library
set_option autoImplicit true

theorem pokeBytes_append (before after : List UInt8) {room bytes : List UInt8}
    (h : room.length = bytes.length) :
    pokeBytes (before ++ (room ++ after)) before.length bytes = before ++ (bytes ++ after) := by
  have hbefore : (before.mapIdx fun i b =>
      if (before.length : Int) ≤ i then bytes[(i - before.length : Int).toNat]?.getD b else b) =
        before := by
    apply List.ext_getElem List.length_mapIdx
    intro i hi _
    rw [List.length_mapIdx] at hi
    rw [List.getElem_mapIdx, if_neg (by omega)]
  rw [pokeBytes, List.mapIdx_append, hbefore, List.mapIdx_append]
  congr 2
  · apply List.ext_getElem (List.length_mapIdx.trans h)
    intro i hi hi'
    rw [List.getElem_mapIdx, if_pos (by omega)]
    have hindex : ((i + before.length : Nat) - before.length : Int).toNat = i := by omega
    rw [hindex, List.getElem?_eq_getElem hi', Option.getD_some]
  · apply List.ext_getElem List.length_mapIdx
    intro i hi _
    rw [List.getElem_mapIdx]
    have hindex : bytes.length ≤
        ((i + room.length + before.length : Nat) - before.length : Int).toNat := by omega
    rw [List.getElem?_eq_none hindex, Option.getD_none, ite_self]

theorem peekBytes_append (before bytes after : List UInt8) (outside : Int → UInt8) :
    peekBytes (before ++ (bytes ++ after)) outside before.length bytes.length = bytes := by
  apply List.ext_getElem
  · rw [peekBytes, List.length_map, List.length_range]
  · intro i hi hi'
    have hindex : ((before.length : Int) + i).toNat = before.length + i := by omega
    have hmem : (before ++ (bytes ++ after))[before.length + i]? = some bytes[i] := by
      rw [List.getElem?_append_right (Nat.le_add_right _ _), Nat.add_sub_cancel_left,
        List.getElem?_append_left hi', List.getElem?_eq_getElem hi']
    simp only [peekBytes, List.getElem_map, List.getElem_range]
    rw [if_pos (by omega), hindex, hmem, Option.getD_some]

namespace MemoryCursor

/-- The cursor stands between these parts of its memory. -/
structure At (bigEndian : Bool) (before rest : List UInt8) (c : MemoryCursor) : Prop where
  memory : c.memory = before ++ rest
  position : c.position = before.length
  bigEndian : c.bigEndian = bigEndian
  small : c.memory.length < 2 ^ 31

/-- An operation that writes these bytes wherever there is room for them. -/
def Writes (bigEndian : Bool) (bytes : List UInt8) (m : EStateM Exn MemoryCursor Unit) : Prop :=
  ∀ ⦃before room after c⦄, At bigEndian before (room ++ after) c → room.length = bytes.length →
    ∃ d, m.run c = .ok () d ∧ At bigEndian (before ++ bytes) after d

/-- An operation that reads these bytes as a value wherever they are. -/
def Reads (bigEndian : Bool) (bytes : List UInt8) (value : α) (m : EStateM Exn MemoryCursor α) :
    Prop :=
  ∀ ⦃before after c⦄, At bigEndian before (bytes ++ after) c →
    ∃ d, m.run c = .ok value d ∧ At bigEndian (before ++ bytes) after d

variable {bigEndian : Bool} {bytes bytes' : List UInt8} {c : MemoryCursor}

theorem At.run_access {before room after : List UInt8}
    (h : At bigEndian before (room ++ after) c) :
    (access room.length).run c = .ok before.length
      { c.touch room.length with position := (before ++ room).length } := by
  have hlength : c.memory.length = before.length + (room.length + after.length) := by
    rw [h.memory, List.length_append, List.length_append]
  have hposition := h.position
  have hfits : c.position + (room.length : Int) ≤ c.memory.length := by omega
  have hrun := MemoryCursor.run_access h.small (by omega) hfits
  rw [hrun, hposition, List.length_append, Int.natCast_add]

theorem writes_writeValue (bigEndian : Bool) (bytes : List UInt8) :
    Writes bigEndian bytes (writeValue bytes) := by
  intro before room after c h hroom
  have hrun := h.run_access
  rw [hroom] at hrun
  rw [writeValue, run_bind_of_ok _ hrun]
  have hmemory : pokeBytes c.memory before.length bytes = (before ++ bytes) ++ after := by
    rw [h.memory, pokeBytes_append before after hroom, List.append_assoc]
  refine ⟨_, rfl, hmemory, ?_, h.bigEndian, ?_⟩
  · dsimp only
    rw [List.length_append, List.length_append, hroom]
  · exact List.length_mapIdx.trans_lt h.small

theorem reads_readValue (bigEndian : Bool) (bytes : List UInt8) :
    Reads bigEndian bytes bytes (readValue bytes.length) := by
  intro before after c h
  rw [readValue, run_bind_of_ok _ h.run_access, run_get_bind]
  have hvalue : peekBytes c.memory c.outside before.length bytes.length = bytes := by
    rw [h.memory, peekBytes_append]
  refine ⟨{ c.touch bytes.length with position := (before ++ bytes).length }, ?_, ?_, rfl,
    h.bigEndian, h.small⟩
  · exact congrArg (EStateM.Result.ok · _) hvalue
  · exact h.memory.trans (List.append_assoc _ _ _).symm

theorem writes_pure : Writes bigEndian [] (pure ()) := by
  intro before room after c h hroom
  have hnil : room = [] := List.eq_nil_of_length_eq_zero hroom
  subst hnil
  exact ⟨c, rfl, by rw [List.append_nil]; exact h⟩

theorem Writes.bind {m m' : EStateM Exn MemoryCursor Unit} (hm : Writes bigEndian bytes m)
    (hm' : Writes bigEndian bytes' m') :
    Writes bigEndian (bytes ++ bytes') (m >>= fun _ => m') := by
  intro before room after c h hroom
  rw [List.length_append] at hroom
  have htake : (room.take bytes.length).length = bytes.length := by
    rw [List.length_take]
    omega
  have hdrop : (room.drop bytes.length).length = bytes'.length := by
    rw [List.length_drop]
    omega
  rw [← List.take_append_drop bytes.length room, List.append_assoc] at h
  obtain ⟨d, hrun, hd⟩ := hm h htake
  obtain ⟨e, hrun', he⟩ := hm' hd hdrop
  refine ⟨e, ?_, ?_⟩
  · rw [run_bind_of_ok _ hrun, hrun']
  · rwa [List.append_assoc] at he

theorem writes_each {f : α → EStateM Exn MemoryCursor Unit} {bytesOf : α → List UInt8}
    (hf : ∀ a, Writes bigEndian (bytesOf a) (f a)) (as : List α) :
    Writes bigEndian (as.flatMap bytesOf) (each f as) := by
  induction as with
  | nil => exact writes_pure
  | cons a as ih => exact (hf a).bind ih

theorem writes_ite {m m' : EStateM Exn MemoryCursor Unit}
    (hm : bigEndian = true → Writes bigEndian bytes m)
    (hm' : bigEndian = false → Writes bigEndian bytes m') :
    Writes bigEndian bytes (do if (← get).bigEndian then m else m') := by
  intro before room after c h hroom
  rw [run_get_bind, h.bigEndian]
  cases bigEndian with
  | true => exact hm rfl h hroom
  | false => exact hm' rfl h hroom

theorem reads_pure (value : α) : Reads bigEndian [] value (pure value) := by
  intro before after c h
  exact ⟨c, rfl, by rw [List.append_nil]; exact h⟩

theorem Reads.bind {m : EStateM Exn MemoryCursor α} {f : α → EStateM Exn MemoryCursor β}
    (hm : Reads bigEndian bytes a m) (hf : Reads bigEndian bytes' b (f a)) :
    Reads bigEndian (bytes ++ bytes') b (m >>= f) := by
  intro before after c h
  rw [List.append_assoc] at h
  obtain ⟨d, hrun, hd⟩ := hm h
  obtain ⟨e, hrun', he⟩ := hf hd
  refine ⟨e, ?_, ?_⟩
  · rw [run_bind_of_ok _ hrun, hrun']
  · rwa [List.append_assoc] at he

theorem Reads.map {m : EStateM Exn MemoryCursor α} (hm : Reads bigEndian bytes a m) (f : α → β) :
    Reads bigEndian bytes (f a) (do return f (← m)) := by
  have hreads : Reads bigEndian (bytes ++ []) (f a) (m >>= fun a => pure (f a)) :=
    hm.bind (reads_pure (f a))
  rwa [List.append_nil] at hreads

theorem reads_ite {m m' : EStateM Exn MemoryCursor α}
    (hm : bigEndian = true → Reads bigEndian bytes a m)
    (hm' : bigEndian = false → Reads bigEndian bytes a m') :
    Reads bigEndian bytes a (do if (← get).bigEndian then m else m') := by
  intro before after c h
  rw [run_get_bind, h.bigEndian]
  cases bigEndian with
  | true => exact hm rfl h
  | false => exact hm' rfl h

theorem reads_readSpan {size : Nat} {count : Int} (hsize : size * count = bytes.length) :
    Reads bigEndian bytes bytes (readSpan size count) := by
  intro before after c h
  have hlength : c.memory.length = before.length + (bytes.length + after.length) := by
    rw [h.memory, List.length_append, List.length_append]
  have hposition := h.position
  have hsmall := h.small
  have hspan : wrap32 (size * count) = bytes.length := by
    rw [hsize]
    exact wrap32_of_range (by omega) (by omega)
  have hend : wrap32 (c.position + bytes.length) = (before ++ bytes).length := by
    rw [hposition, List.length_append, Int.natCast_add]
    exact wrap32_of_range (by omega) (by omega)
  have hnot : ¬ (c.memory.length : Int) < (before ++ bytes).length := by
    rw [List.length_append]
    omega
  have hslice : 0 ≤ c.position ∧ c.position ≤ c.memory.length ∧ 0 ≤ (bytes.length : Int) ∧
      bytes.length ≤ c.memory.length - c.position := by omega
  have hvalue : peekBytes c.memory c.outside c.position bytes.length = bytes := by
    rw [h.memory, hposition, peekBytes_append]
  rw [readSpan, run_get_bind]
  simp only [hspan, hend]
  rw [if_neg hnot, if_pos hslice]
  refine ⟨{ c.touch bytes.length with position := (before ++ bytes).length }, ?_, ?_, rfl,
    h.bigEndian, h.small⟩
  · exact congrArg (EStateM.Result.ok · _) hvalue
  · exact h.memory.trans (List.append_assoc _ _ _).symm

end MemoryCursor

/-- The bytes of a value in the byte order that is chosen. -/
def order (bigEndian : Bool) (bytes : List UInt8) : List UInt8 :=
  if bigEndian then bytes.reverse else bytes

theorem order_singleton (bigEndian : Bool) (b : UInt8) : order bigEndian [b] = [b] := by
  cases bigEndian with
  | true => rfl
  | false => rfl

namespace BinaryMemoryWriter

open MemoryCursor

variable {bigEndian : Bool}

theorem writes_writeEndian [Layout α] (value : α) :
    Writes bigEndian (order bigEndian (Layout.encode value)) (writeEndian value) := by
  apply writes_ite
  · rintro rfl
    rw [write, encode_reverseEndianness]
    exact writes_writeValue true (Layout.encode value).reverse
  · rintro rfl
    exact writes_writeValue false (Layout.encode value)

theorem writes_writeSingle (value : Single) :
    Writes bigEndian (order bigEndian (Layout.encode value)) (writeSingle value) :=
  writes_writeEndian value.bits

theorem writes_write_byte [Layout α] {value : α} (h : Layout.encode value = [b]) :
    Writes bigEndian (order bigEndian (Layout.encode value)) (write value) := by
  rw [h, order_singleton, ← h]
  exact writes_writeValue bigEndian (Layout.encode value)

theorem bigEndian_of_writeValue (h : (writeValue bytes).run c = .ok () d) :
    d.bigEndian = c.bigEndian := by
  rw [writeValue, EStateM.run_bind, access, run_get_bind] at h
  by_cases hlong : (c.memory.length : Int) < wrap32 (c.position + bytes.length)
  · rw [if_pos hlong] at h
    cases h
  · rw [if_neg hlong] at h
    cases h
    rfl

theorem run_writeEndian_true [Layout α] (value : α) (h : c.bigEndian = true) :
    (writeEndian value).run c = (write (reverseEndianness value)).run c := by
  rw [writeEndian, run_get_bind, h, if_pos rfl]

theorem run_writeEndian_false [Layout α] (value : α) (h : c.bigEndian = false) :
    (writeEndian value).run c = (write value).run c := by
  rw [writeEndian, run_get_bind, h, if_neg Bool.false_ne_true]

theorem each_congr {f : β → List UInt8} {g : β → EStateM Exn MemoryCursor Unit}
    (hfg : ∀ value c, c.bigEndian = bigEndian → (g value).run c = (writeValue (f value)).run c)
    (values : List β) (hc : c.bigEndian = bigEndian) :
    (each (fun value => writeValue (f value)) values).run c = (each g values).run c := by
  induction values generalizing c with
  | nil => rfl
  | cons value values ih =>
    have hsame := hfg value c hc
    cases hrun : (writeValue (f value)).run c with
    | ok u d =>
      rw [each, each, run_bind_of_ok _ hrun, run_bind_of_ok _ (hsame.trans hrun)]
      exact ih ((bigEndian_of_writeValue hrun).trans hc)
    | error e d =>
      rw [each, each, run_bind_of_error _ hrun, run_bind_of_error _ (hsame.trans hrun)]

/-- An array is written as its elements are, whatever the type they are converted to. -/
theorem run_writeArrayConvertEndian [Layout α] [Layout β] (convert : α → β)
    (hconvert : ∀ value, Layout.encode (convert value) = Layout.encode value) (values : List α)
    (c : MemoryCursor) : (writeArrayConvertEndian convert values).run c =
      (each (fun value => writeEndian (convert value)) values).run c := by
  rw [writeArrayConvertEndian, run_get_bind]
  cases hbig : c.bigEndian with
  | true =>
    rw [if_pos rfl]
    exact each_congr (fun value c hc => run_writeEndian_true (convert value) hc) values hbig
  | false =>
    rw [if_neg Bool.false_ne_true]
    refine each_congr (fun value c hc => ?_) values hbig
    rw [run_writeEndian_false (convert value) hc, write, hconvert]

theorem run_writeArrayEndian [Layout α] (values : List α) (c : MemoryCursor) :
    (writeArrayEndian values).run c = (each writeEndian values).run c :=
  run_writeArrayConvertEndian id (fun _ => rfl) values c

/-- The array methods write what the methods for single values write. -/
theorem run_writeElements (type : ElementType) (values : List type.Value) (c : MemoryCursor) :
    (writeElements type values).run c = (each (writeElement type) values).run c := by
  cases type with
  | sbyte | byte | boolean => rfl
  | int16 => exact run_writeArrayEndian (α := Int16) values c
  | uint16 => exact run_writeArrayEndian (α := UInt16) values c
  | int32 => exact run_writeArrayEndian (α := Int32) values c
  | uint32 => exact run_writeArrayEndian (α := UInt32) values c
  | int64 => exact run_writeArrayEndian (α := Int64) values c
  | uint64 => exact run_writeArrayEndian (α := UInt64) values c
  | int128 => exact run_writeArrayEndian (α := Int128) values c
  | uint128 => exact run_writeArrayEndian (α := UInt128) values c
  | half => exact run_writeArrayConvertEndian Half.bits (fun _ => rfl) values c
  | single => exact run_writeArrayConvertEndian Single.bits (fun _ => rfl) values c
  | double => exact run_writeArrayConvertEndian Double.bits (fun _ => rfl) values c

end BinaryMemoryWriter

/-- The bytes of a single value on a little-endian machine. -/
def ElementType.encode : (type : ElementType) → type.Value → List UInt8
  | .sbyte => Layout.encode (α := Int8)
  | .byte => Layout.encode (α := UInt8)
  | .int16 => Layout.encode (α := Int16)
  | .uint16 => Layout.encode (α := UInt16)
  | .int32 => Layout.encode (α := Int32)
  | .uint32 => Layout.encode (α := UInt32)
  | .int64 => Layout.encode (α := Int64)
  | .uint64 => Layout.encode (α := UInt64)
  | .int128 => Layout.encode (α := Int128)
  | .uint128 => Layout.encode (α := UInt128)
  | .half => Layout.encode (α := Half)
  | .single => Layout.encode (α := Single)
  | .double => Layout.encode (α := Double)
  | .boolean => fun (value : Bool) => [if value then 1 else 0]

namespace TypedValue

/-- The bytes of a value, each of its parts in the byte order that is chosen. -/
def bytes (bigEndian : Bool) : TypedValue → List UInt8
  | element type value => order bigEndian (type.encode value)
  | vector2 v => order bigEndian (Layout.encode v.x) ++ order bigEndian (Layout.encode v.y)
  | vector3 v => order bigEndian (Layout.encode v.x) ++ (order bigEndian (Layout.encode v.y) ++
      order bigEndian (Layout.encode v.z))
  | vector4 v => order bigEndian (Layout.encode v.x) ++ (order bigEndian (Layout.encode v.y) ++
      (order bigEndian (Layout.encode v.z) ++ order bigEndian (Layout.encode v.w)))
  | quaternion v => order bigEndian (Layout.encode v.x) ++ (order bigEndian (Layout.encode v.y) ++
      (order bigEndian (Layout.encode v.z) ++ order bigEndian (Layout.encode v.w)))
  | array type values => values.flatMap fun value => order bigEndian (type.encode value)

end TypedValue

namespace BinaryMemoryWriter

open MemoryCursor

variable {bigEndian : Bool}

theorem writes_writeElement (type : ElementType) (value : type.Value) :
    Writes bigEndian (order bigEndian (type.encode value)) (writeElement type value) := by
  cases type with
  | sbyte => exact writes_write_byte (α := Int8) rfl
  | byte => exact writes_write_byte (α := UInt8) rfl
  | int16 => exact writes_writeEndian (α := Int16) value
  | uint16 => exact writes_writeEndian (α := UInt16) value
  | int32 => exact writes_writeEndian (α := Int32) value
  | uint32 => exact writes_writeEndian (α := UInt32) value
  | int64 => exact writes_writeEndian (α := Int64) value
  | uint64 => exact writes_writeEndian (α := UInt64) value
  | int128 => exact writes_writeEndian (α := Int128) value
  | uint128 => exact writes_writeEndian (α := UInt128) value
  | half => exact writes_writeEndian (α := UInt16) (Half.bits value)
  | single => exact writes_writeSingle value
  | double => exact writes_writeEndian (α := UInt64) (Double.bits value)
  | boolean => exact writes_write_byte (α := UInt8) rfl

theorem writes_writeElements (type : ElementType) (values : List type.Value) :
    Writes bigEndian (values.flatMap fun value => order bigEndian (type.encode value))
      (writeElements type values) := by
  intro before room after c h hroom
  rw [run_writeElements]
  exact writes_each (writes_writeElement type) values h hroom

theorem writes_write (value : TypedValue) :
    Writes bigEndian (value.bytes bigEndian) value.write := by
  cases value with
  | element type value => exact writes_writeElement type value
  | vector2 v =>
    apply writes_ite
    · intro _
      exact (writes_writeSingle v.x).bind (writes_writeSingle v.y)
    · rintro rfl
      exact writes_writeValue false (Layout.encode v)
  | vector3 v =>
    apply writes_ite
    · intro _
      exact (writes_writeSingle v.x).bind ((writes_writeSingle v.y).bind (writes_writeSingle v.z))
    · rintro rfl
      exact writes_writeValue false (Layout.encode v)
  | vector4 v =>
    apply writes_ite
    · intro _
      exact (writes_writeSingle v.x).bind ((writes_writeSingle v.y).bind
        ((writes_writeSingle v.z).bind (writes_writeSingle v.w)))
    · rintro rfl
      exact writes_writeValue false (Layout.encode v)
  | quaternion v =>
    apply writes_ite
    · intro _
      exact (writes_writeSingle v.x).bind ((writes_writeSingle v.y).bind
        ((writes_writeSingle v.z).bind (writes_writeSingle v.w)))
    · rintro rfl
      exact writes_writeValue false (Layout.encode v)
  | array type values => exact writes_writeElements type values

end BinaryMemoryWriter

namespace BinaryMemoryReader

open MemoryCursor

variable {bigEndian : Bool} {bytes : List UInt8}

theorem reads_decode [Layout α] (h : bytes.length = Layout.size α) :
    Reads bigEndian bytes (Layout.decode bytes : α) (read α) := by
  have hreads := (reads_readValue bigEndian bytes).map (Layout.decode : List UInt8 → α)
  rwa [h] at hreads

theorem reads_read [Layout α] (value : α) :
    Reads bigEndian (Layout.encode value) value (read α) := by
  have hreads : Reads bigEndian (Layout.encode value)
      (Layout.decode (Layout.encode value) : α) (read α) :=
    reads_decode (Layout.length_encode value)
  rwa [Layout.decode_encode] at hreads

theorem reverseEndianness_decode_reverse [Layout α] (value : α) :
    reverseEndianness (Layout.decode (Layout.encode value).reverse : α) = value := by
  rw [reverseEndianness_decode _ (by rw [List.length_reverse, Layout.length_encode]),
    List.reverse_reverse, Layout.decode_encode]

theorem reads_read_byte [Layout α] {value : α} (h : Layout.encode value = [b]) :
    Reads bigEndian (order bigEndian (Layout.encode value)) value (read α) := by
  rw [h, order_singleton, ← h]
  exact reads_read value

theorem reads_reverse [Layout α] (value : α) (f : α → β) :
    Reads bigEndian (Layout.encode value).reverse (f value)
      (do return f (reverseEndianness (← read α))) := by
  have hdecode : Reads bigEndian (Layout.encode value).reverse
      (Layout.decode (Layout.encode value).reverse : α) (read α) :=
    reads_decode (List.length_reverse.trans (Layout.length_encode value))
  have hreads := hdecode.map fun v => f (reverseEndianness v)
  rwa [reverseEndianness_decode_reverse] at hreads

theorem reads_readEndian [Layout α] (value : α) :
    Reads bigEndian (order bigEndian (Layout.encode value)) value (readEndian α) := by
  intro before after c h
  cases bigEndian with
  | true =>
    have hlength : (Layout.encode value).reverse.length = Layout.size α :=
      List.length_reverse.trans (Layout.length_encode value)
    obtain ⟨d, hrun, hd⟩ := reads_decode (α := α) hlength h
    refine ⟨d, ?_, hd⟩
    rw [readEndian, run_bind_of_ok _ hrun, run_get_bind, hd.bigEndian, if_pos rfl,
      reverseEndianness_decode_reverse]
    rfl
  | false =>
    obtain ⟨d, hrun, hd⟩ := reads_read value h
    refine ⟨d, ?_, hd⟩
    rw [readEndian, run_bind_of_ok _ hrun, run_get_bind, hd.bigEndian,
      if_neg Bool.false_ne_true]
    rfl

theorem reads_readEndianConvert [Layout α] [Layout β] {convert : α → β} (value : β) (a : α)
    (hconvert : convert a = value) (hencode : Layout.encode a = Layout.encode value) :
    Reads bigEndian (order bigEndian (Layout.encode value)) value
      (readEndianConvert α convert) := by
  apply reads_ite
  · rintro rfl
    rw [← hencode, ← hconvert]
    exact reads_reverse a convert
  · rintro rfl
    exact reads_read value

theorem reads_readBoolean (value : Bool) :
    Reads bigEndian (order bigEndian (ElementType.boolean.encode value)) value readBoolean := by
  intro before after c h
  cases value with
  | true =>
    rw [ElementType.encode, order_singleton] at h ⊢
    obtain ⟨d, hrun, hd⟩ := reads_read (1 : UInt8) h
    refine ⟨d, ?_, hd⟩
    rw [readBoolean, readByte, run_bind_of_ok _ hrun]
    rfl
  | false =>
    rw [ElementType.encode, order_singleton] at h ⊢
    obtain ⟨d, hrun, hd⟩ := reads_read (0 : UInt8) h
    refine ⟨d, ?_, hd⟩
    rw [readBoolean, readByte, run_bind_of_ok _ hrun]
    rfl

theorem reads_readElement (type : ElementType) (value : type.Value) :
    Reads bigEndian (order bigEndian (type.encode value)) value (readElement type) := by
  cases type with
  | sbyte => exact reads_read_byte (α := Int8) rfl
  | byte => exact reads_read_byte (α := UInt8) rfl
  | int16 => exact reads_readEndian (α := Int16) value
  | uint16 => exact reads_readEndian (α := UInt16) value
  | int32 => exact reads_readEndian (α := Int32) value
  | uint32 => exact reads_readEndian (α := UInt32) value
  | int64 => exact reads_readEndian (α := Int64) value
  | uint64 => exact reads_readEndian (α := UInt64) value
  | int128 => exact reads_readEndian (α := Int128) value
  | uint128 => exact reads_readEndian (α := UInt128) value
  | half => exact reads_readEndianConvert (β := Half) value (Half.bits value) rfl rfl
  | single => exact reads_readEndianConvert (β := Single) value (Single.bits value) rfl rfl
  | double => exact reads_readEndianConvert (β := Double) value (Double.bits value) rfl rfl
  | boolean => exact reads_readBoolean value

theorem reads_readEach {m : EStateM Exn MemoryCursor α} {bytesOf : α → List UInt8}
    (hm : ∀ value, Reads bigEndian (bytesOf value) value m) (values : List α) :
    Reads bigEndian (values.flatMap bytesOf) values (readEach m values.length) := by
  rw [readEach, if_neg (by omega), Int.toNat_natCast]
  induction values with
  | nil => exact reads_pure []
  | cons value values ih => exact (hm value).bind (ih.map (value :: ·))

theorem reads_readArray [Layout α] (hsize : 0 < Layout.size α) (values : List α) :
    Reads bigEndian (values.flatMap Layout.encode) values (readArray α values.length) := by
  have hlength := Layout.length_flatMap_encode values
  have hspan : Reads bigEndian (values.flatMap Layout.encode) (values.flatMap Layout.encode)
      (readSpan (Layout.size α) values.length) :=
    reads_readSpan (by rw [hlength, Int.natCast_mul])
  have hreads := hspan.map fun bytes =>
    Layout.decodeAll α (bytes.length / Layout.size α) bytes
  rwa [hlength, Nat.mul_div_cancel_left _ hsize, Layout.decodeAll_flatMap_encode] at hreads

theorem reads_readArrayEndianConvert [Layout α] [Layout β] (convert : α → β) (back : β → α)
    (hback : ∀ value, convert (back value) = value)
    (hencode : ∀ value, Layout.encode (back value) = Layout.encode value)
    (hsize : 0 < Layout.size β) (values : List β) :
    Reads bigEndian (values.flatMap fun value => order bigEndian (Layout.encode value)) values
      (readArrayEndianConvert α convert values.length) := by
  apply reads_ite
  · rintro rfl
    apply reads_readEach
    intro value
    have hreads : Reads true (Layout.encode (back value)).reverse (convert (back value))
        (do return convert (reverseEndianness (← read α))) :=
      reads_reverse (back value) convert
    rwa [hback, hencode] at hreads
  · rintro rfl
    exact reads_readArray hsize values

theorem reads_readArrayEndian [Layout α] (hsize : 0 < Layout.size α) (values : List α) :
    Reads bigEndian (values.flatMap fun value => order bigEndian (Layout.encode value)) values
      (readArrayEndian α values.length) :=
  reads_readArrayEndianConvert id id (fun _ => rfl) (fun _ => rfl) hsize values

theorem reads_readBytes [Layout α] (hsize : 0 < Layout.size α)
    (hbyte : ∀ value : α, ∃ b, Layout.encode value = [b]) (values : List α) :
    Reads bigEndian (values.flatMap fun value => order bigEndian (Layout.encode value)) values
      (readArray α values.length) := by
  have hsame : (fun value : α => order bigEndian (Layout.encode value)) = Layout.encode := by
    funext value
    obtain ⟨b, hb⟩ := hbyte value
    rw [hb, order_singleton]
  rw [hsame]
  exact reads_readArray hsize values

theorem reads_readElements (type : ElementType) (values : List type.Value) :
    Reads bigEndian (values.flatMap fun value => order bigEndian (type.encode value)) values
      (readElements type values.length) := by
  cases type with
  | sbyte => exact reads_readBytes (α := Int8) (by decide) (fun value => ⟨_, rfl⟩) values
  | byte => exact reads_readBytes (α := UInt8) (by decide) (fun value => ⟨_, rfl⟩) values
  | int16 => exact reads_readArrayEndian (α := Int16) (by decide) values
  | uint16 => exact reads_readArrayEndian (α := UInt16) (by decide) values
  | int32 => exact reads_readArrayEndian (α := Int32) (by decide) values
  | uint32 => exact reads_readArrayEndian (α := UInt32) (by decide) values
  | int64 => exact reads_readArrayEndian (α := Int64) (by decide) values
  | uint64 => exact reads_readArrayEndian (α := UInt64) (by decide) values
  | int128 => exact reads_readArrayEndian (α := Int128) (by decide) values
  | uint128 => exact reads_readArrayEndian (α := UInt128) (by decide) values
  | half =>
    exact reads_readArrayEndianConvert _ Half.bits (fun _ => rfl) (fun _ => rfl) (by decide) values
  | single =>
    exact reads_readArrayEndianConvert _ Single.bits (fun _ => rfl) (fun _ => rfl) (by decide)
      values
  | double =>
    exact reads_readArrayEndianConvert _ Double.bits (fun _ => rfl) (fun _ => rfl) (by decide)
      values
  | boolean => exact reads_readEach reads_readBoolean values

theorem reads_readComponent (value : Single) :
    Reads true (order true (Layout.encode value)) value readComponent :=
  reads_reverse value.bits Single.mk

theorem reads_read_kind (value : TypedValue) :
    Reads bigEndian (value.bytes bigEndian) value (TypedValue.read value.kind) := by
  cases value with
  | element type value => exact (reads_readElement type value).map (TypedValue.element type)
  | vector2 v =>
    refine Reads.map (reads_ite ?_ ?_) TypedValue.vector2
    · rintro rfl
      exact (reads_readComponent v.x).bind ((reads_readComponent v.y).map (Vector2.mk v.x))
    · rintro rfl
      exact reads_read v
  | vector3 v =>
    refine Reads.map (reads_ite ?_ ?_) TypedValue.vector3
    · rintro rfl
      exact (reads_readComponent v.x).bind ((reads_readComponent v.y).bind
        ((reads_readComponent v.z).map (Vector3.mk v.x v.y)))
    · rintro rfl
      exact reads_read v
  | vector4 v =>
    refine Reads.map (reads_ite ?_ ?_) TypedValue.vector4
    · rintro rfl
      exact (reads_readComponent v.x).bind ((reads_readComponent v.y).bind
        ((reads_readComponent v.z).bind
          ((reads_readComponent v.w).map (Vector4.mk v.x v.y v.z))))
    · rintro rfl
      exact reads_read v
  | quaternion v =>
    refine Reads.map (reads_ite ?_ ?_) TypedValue.quaternion
    · rintro rfl
      exact (reads_readComponent v.x).bind ((reads_readComponent v.y).bind
        ((reads_readComponent v.z).bind
          ((reads_readComponent v.w).map (Quaternion.mk v.x v.y v.z))))
    · rintro rfl
      exact reads_read v
  | array type values => exact (reads_readElements type values).map (TypedValue.array type)

end BinaryMemoryReader

namespace TypedValue

open MemoryCursor

/-- The bytes of the values, each in the byte order set before it. -/
def bytesOf (ops : List (Bool × TypedValue)) : List UInt8 := ops.flatMap fun op => op.2.bytes op.1

/-- The reads that match these writes. -/
def matching (ops : List (Bool × TypedValue)) : List (Bool × ValueKind) :=
  ops.map fun op => (op.1, op.2.kind)

variable {bigEndian : Bool} {before room after : List UInt8} {c : MemoryCursor}

theorem run_writeAll (ops : List (Bool × TypedValue)) (h : At bigEndian before (room ++ after) c)
    (hroom : room.length = (bytesOf ops).length) :
    ∃ d last, (writeAll ops).run c = .ok () d ∧ At last (before ++ bytesOf ops) after d := by
  induction ops generalizing before room c bigEndian with
  | nil =>
    have hnil : room = [] := List.eq_nil_of_length_eq_zero hroom
    subst hnil
    exact ⟨c, bigEndian, rfl, by rw [bytesOf, List.flatMap_nil, List.append_nil]; exact h⟩
  | cons op ops ih =>
    obtain ⟨order, value⟩ := op
    have hlength : room.length = (value.bytes order).length + (bytesOf ops).length :=
      hroom.trans List.length_append
    have hset : At order before
        (room.take (value.bytes order).length ++ (room.drop (value.bytes order).length ++ after))
        { c with bigEndian := order } := by
      rw [← List.append_assoc, List.take_append_drop]
      exact ⟨h.memory, h.position, rfl, h.small⟩
    obtain ⟨d, hrun, hd⟩ := BinaryMemoryWriter.writes_write value hset (by
      rw [List.length_take]
      omega)
    obtain ⟨e, last, hrest, he⟩ := ih hd (by
      rw [List.length_drop]
      omega)
    refine ⟨e, last, ?_, ?_⟩
    · have hrun' : (withBigEndian order value.write).run c = .ok () d := hrun
      rw [writeAll, run_bind_of_ok _ hrun', hrest]
    · rwa [List.append_assoc] at he

theorem run_readAll (ops : List (Bool × TypedValue))
    (h : At bigEndian before (bytesOf ops ++ after) c) :
    ∃ d last, (readAll (matching ops)).run c = .ok (ops.map (·.2)) d ∧
      At last (before ++ bytesOf ops) after d := by
  induction ops generalizing before c bigEndian with
  | nil => exact ⟨c, bigEndian, rfl, by rw [bytesOf, List.flatMap_nil, List.append_nil]; exact h⟩
  | cons op ops ih =>
    obtain ⟨order, value⟩ := op
    rw [bytesOf, List.flatMap_cons, List.append_assoc] at h
    have hset : At order before (value.bytes order ++ (bytesOf ops ++ after))
        { c with bigEndian := order } := ⟨h.memory, h.position, rfl, h.small⟩
    obtain ⟨d, hrun, hd⟩ := BinaryMemoryReader.reads_read_kind value hset
    obtain ⟨e, last, hrest, he⟩ := ih hd
    refine ⟨e, last, ?_, ?_⟩
    · have hrun' : (withBigEndian order (TypedValue.read value.kind)).run c = .ok value d := hrun
      rw [matching, List.map_cons, readAll, run_bind_of_ok _ hrun']
      exact (run_bind_of_ok _ hrest).trans rfl
    · rwa [List.append_assoc] at he

/-- What is written into a region that is large enough is read back by the matching calls, which
end where the writes ended, and an array is written as its elements are. -/
theorem read_undoes_write (ops : List (Bool × TypedValue)) (w : BinaryMemoryWriter)
    (hsmall : w.memory.length < 2 ^ 31) (hstart : 0 ≤ w.position)
    (hfits : w.position + (bytesOf ops).length ≤ w.memory.length) :
    (∃ w', (writeAll ops).run w = .ok () w' ∧
        ∀ r : BinaryMemoryReader, r.memory = w'.memory → r.position = w.position →
          ∃ r', (readAll (matching ops)).run r = .ok (ops.map (·.2)) r' ∧
            r'.position = w'.position) ∧
      ∀ type values (c : BinaryMemoryWriter),
        (BinaryMemoryWriter.writeElements type values).run c =
          (each (BinaryMemoryWriter.writeElement type) values).run c := by
  refine ⟨?_, BinaryMemoryWriter.run_writeElements⟩
  have hbefore : (w.memory.take w.position.toNat).length = w.position.toNat := by
    rw [List.length_take]
    omega
  have hat : At w.bigEndian (w.memory.take w.position.toNat)
      ((w.memory.drop w.position.toNat).take (bytesOf ops).length ++
        (w.memory.drop w.position.toNat).drop (bytesOf ops).length) w := by
    refine ⟨?_, ?_, rfl, hsmall⟩
    · rw [List.take_append_drop, List.take_append_drop]
    · omega
  obtain ⟨w', last, hrun, hw'⟩ := run_writeAll ops hat (by
    rw [List.length_take, List.length_drop]
    omega)
  refine ⟨w', hrun, ?_⟩
  intro r hmemory hposition
  have hread : At r.bigEndian (w.memory.take w.position.toNat)
      (bytesOf ops ++ (w.memory.drop w.position.toNat).drop (bytesOf ops).length) r := by
    refine ⟨?_, hposition.trans hat.position, rfl, ?_⟩
    · rw [hmemory, hw'.memory, List.append_assoc]
    · rw [hmemory]
      exact hw'.small
  obtain ⟨r', last', hrun', hr'⟩ := run_readAll ops hread
  exact ⟨r', hrun', hr'.position.trans hw'.position.symm⟩

/-- A number and an array, in one byte order and the other. -/
def sampleOps : List (Bool × TypedValue) :=
  [(true, .element .uint16 (0x0102 : UInt16)), (false, .array .single [(⟨0x3F800000⟩ : Single)])]

theorem read_undoes_write_sampleOps :
    (∃ w', (writeAll sampleOps).run (.new (List.replicate 8 0) (fun _ => 0) false) = .ok () w' ∧
        ∀ r : BinaryMemoryReader, r.memory = w'.memory → r.position = 0 →
          ∃ r', (readAll (matching sampleOps)).run r = .ok (sampleOps.map (·.2)) r' ∧
            r'.position = w'.position) ∧
      ∀ type values (c : BinaryMemoryWriter),
        (BinaryMemoryWriter.writeElements type values).run c =
          (each (BinaryMemoryWriter.writeElement type) values).run c :=
  read_undoes_write sampleOps (.new (List.replicate 8 0) (fun _ => 0) false) (by decide)
    (by decide) (by decide)

end TypedValue

end AcOpenServer
