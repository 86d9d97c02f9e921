import Mathlib

namespace Library
set_option autoImplicit true

/-- The `k` low-order bytes of a natural number, least significant byte first. -/
def toLE : Nat → Nat → List UInt8
  | 0, _ => []
  | k + 1, n => UInt8.ofNat n :: toLE k (n / 256)

/-- The natural number whose bytes are given, least significant byte first. -/
def ofLE : List UInt8 → Nat
  | [] => 0
  | b :: bs => b.toNat + 256 * ofLE bs

@[simp] theorem length_toLE (k n : Nat) : (toLE k n).length = k := by
  induction k generalizing n with
  | zero => rfl
  | succ k ih => simp only [toLE, List.length_cons, ih]

theorem ofLE_toLE (k n : Nat) : ofLE (toLE k n) = n % 256 ^ k := by
  induction k generalizing n with
  | zero => simp only [toLE, ofLE, Nat.pow_zero, Nat.mod_one]
  | succ k ih =>
    have hb : (UInt8.ofNat n).toNat = n % 256 := UInt8.toNat_ofNat'
    rw [toLE, ofLE, ih, hb, Nat.pow_succ', Nat.mod_mul]

theorem ofLE_toLE_of_lt (h : n < 256 ^ k) : ofLE (toLE k n) = n := by
  rw [ofLE_toLE, Nat.mod_eq_of_lt h]

theorem ofLE_lt (bs : List UInt8) : ofLE bs < 256 ^ bs.length := by
  induction bs with
  | nil => simp only [ofLE, List.length_nil, Nat.pow_zero, Nat.lt_one_iff]
  | cons b bs ih =>
    have hb : b.toNat < 256 := b.toNat_lt
    rw [ofLE, List.length_cons, Nat.pow_succ]
    omega

theorem toLE_ofLE (bs : List UInt8) : toLE bs.length (ofLE bs) = bs := by
  induction bs with
  | nil => rfl
  | cons b bs ih =>
    have hb : b.toNat < 256 := b.toNat_lt
    have hlow : UInt8.ofNat (b.toNat + 256 * ofLE bs) = b := by
      apply UInt8.toNat_inj.1
      rw [UInt8.toNat_ofNat', Nat.add_mul_mod_self_left, Nat.mod_eq_of_lt hb]
    have hhigh : (b.toNat + 256 * ofLE bs) / 256 = ofLE bs := by omega
    rw [List.length_cons, ofLE, toLE, hlow, hhigh, ih]

/-- A type whose values are exactly the byte strings of one length. -/
class Layout (α : Type) where
  size : Nat
  encode : α → List UInt8
  decode : List UInt8 → α
  length_encode : ∀ a, (encode a).length = size
  decode_encode : ∀ a, decode (encode a) = a
  encode_decode : ∀ bs, bs.length = size → encode (decode bs) = bs

namespace Layout

attribute [simp] length_encode decode_encode

instance : Layout UInt8 where
  size := 1
  encode b := [b]
  decode bs := bs.headD 0
  length_encode _ := rfl
  decode_encode _ := rfl
  encode_decode bs h := by
    obtain ⟨b, rfl⟩ := List.length_eq_one_iff.1 h
    rfl

instance : Layout UInt16 where
  size := 2
  encode n := toLE 2 n.toNat
  decode bs := UInt16.ofNat (ofLE bs)
  length_encode _ := length_toLE _ _
  decode_encode n := by
    rw [ofLE_toLE_of_lt n.toNat_lt, UInt16.ofNat_toNat]
  encode_decode bs h := by
    have hlt : ofLE bs < 2 ^ 16 := (ofLE_lt bs).trans_eq (by rw [h]; rfl)
    rw [UInt16.toNat_ofNat_of_lt' hlt, ← h, toLE_ofLE]

instance : Layout UInt32 where
  size := 4
  encode n := toLE 4 n.toNat
  decode bs := UInt32.ofNat (ofLE bs)
  length_encode _ := length_toLE _ _
  decode_encode n := by
    rw [ofLE_toLE_of_lt n.toNat_lt, UInt32.ofNat_toNat]
  encode_decode bs h := by
    have hlt : ofLE bs < 2 ^ 32 := (ofLE_lt bs).trans_eq (by rw [h]; rfl)
    rw [UInt32.toNat_ofNat_of_lt' hlt, ← h, toLE_ofLE]

instance : Layout UInt64 where
  size := 8
  encode n := toLE 8 n.toNat
  decode bs := UInt64.ofNat (ofLE bs)
  length_encode _ := length_toLE _ _
  decode_encode n := by
    rw [ofLE_toLE_of_lt n.toNat_lt, UInt64.ofNat_toNat]
  encode_decode bs h := by
    have hlt : ofLE bs < 2 ^ 64 := (ofLE_lt bs).trans_eq (by rw [h]; rfl)
    rw [UInt64.toNat_ofNat_of_lt' hlt, ← h, toLE_ofLE]

@[simp] theorem size_uint16 : size UInt16 = 2 := rfl

@[simp] theorem size_uint32 : size UInt32 = 4 := rfl

@[simp] theorem size_uint64 : size UInt64 = 8 := rfl

/-- Two fields one after the other, without padding. -/
instance [Layout α] [Layout β] : Layout (α × β) where
  size := size α + size β
  encode p := encode p.1 ++ encode p.2
  decode bs := (decode (bs.take (size α)), decode (bs.drop (size α)))
  length_encode p := by simp only [List.length_append, length_encode]
  decode_encode p := by
    have hl : size α = (encode p.1).length := (length_encode p.1).symm
    rw [hl, List.take_left, List.drop_left, decode_encode, decode_encode]
  encode_decode bs h := by
    have h₁ : (bs.take (size α)).length = size α := by rw [List.length_take]; omega
    have h₂ : (bs.drop (size α)).length = size β := by rw [List.length_drop]; omega
    rw [encode_decode _ h₁, encode_decode _ h₂, List.take_append_drop]

/-- A record laid out as the fields it is equivalent to. -/
@[reducible] def ofEquiv [Layout β] (e : α ≃ β) : Layout α where
  size := size β
  encode a := encode (e a)
  decode bs := e.symm (decode bs)
  length_encode a := length_encode (e a)
  decode_encode a := by rw [decode_encode, Equiv.symm_apply_apply]
  encode_decode bs h := by rw [Equiv.apply_symm_apply, encode_decode bs h]

/-- The signed integers, in two's complement. -/
instance : Layout Int8 := ofEquiv ⟨Int8.toUInt8, UInt8.toInt8, fun _ => rfl, fun _ => rfl⟩

instance : Layout Int16 := ofEquiv ⟨Int16.toUInt16, UInt16.toInt16, fun _ => rfl, fun _ => rfl⟩

instance : Layout Int32 := ofEquiv ⟨Int32.toUInt32, UInt32.toInt32, fun _ => rfl, fun _ => rfl⟩

instance : Layout Int64 := ofEquiv ⟨Int64.toUInt64, UInt64.toInt64, fun _ => rfl, fun _ => rfl⟩

instance : Layout (BitVec 128) where
  size := 16
  encode n := toLE 16 n.toNat
  decode bs := BitVec.ofNat 128 (ofLE bs)
  length_encode _ := length_toLE _ _
  decode_encode n := by
    rw [ofLE_toLE_of_lt n.isLt, BitVec.ofNat_toNat, BitVec.setWidth_eq]
  encode_decode bs h := by
    have hlt : ofLE bs < 2 ^ 128 := (ofLE_lt bs).trans_eq (by rw [h]; rfl)
    rw [BitVec.toNat_ofNat, Nat.mod_eq_of_lt hlt, ← h, toLE_ofLE]

/-- The values in an array, which lie one behind another. -/
def decodeAll (α : Type) [Layout α] : Nat → List UInt8 → List α
  | 0, _ => []
  | count + 1, bs => decode (bs.take (size α)) :: decodeAll α count (bs.drop (size α))

@[simp] theorem length_decodeAll [Layout α] (count : Nat) (bs : List UInt8) :
    (decodeAll α count bs).length = count := by
  induction count generalizing bs with
  | zero => rfl
  | succ count ih => rw [decodeAll, List.length_cons, ih]

theorem decodeAll_flatMap_encode [Layout α] (values : List α) :
    decodeAll α values.length (values.flatMap encode) = values := by
  induction values with
  | nil => rfl
  | cons a values ih =>
    rw [List.length_cons, List.flatMap_cons, decodeAll, List.take_left' (length_encode a),
      List.drop_left' (length_encode a), decode_encode, ih]

theorem length_flatMap_encode [Layout α] (values : List α) :
    (values.flatMap encode).length = size α * values.length := by
  induction values with
  | nil => rfl
  | cons a values ih =>
    rw [List.flatMap_cons, List.length_append, length_encode, ih, List.length_cons, Nat.mul_succ,
      Nat.add_comm]

theorem encode_injective [Layout α] {a b : α} (h : encode a = encode b) : a = b := by
  rw [← decode_encode a, h, decode_encode]

end Layout

/-- The value with its bytes in the opposite order. -/
def reverseEndianness [Layout α] (a : α) : α := Layout.decode (Layout.encode a).reverse

@[simp] theorem encode_reverseEndianness [Layout α] (a : α) :
    Layout.encode (reverseEndianness a) = (Layout.encode a).reverse := by
  apply Layout.encode_decode
  rw [List.length_reverse, Layout.length_encode]

@[simp] theorem reverseEndianness_reverseEndianness [Layout α] (a : α) :
    reverseEndianness (reverseEndianness a) = a := by
  apply Layout.encode_injective
  rw [encode_reverseEndianness, encode_reverseEndianness, List.reverse_reverse]

theorem reverseEndianness_decode [Layout α] (bs : List UInt8)
    (h : bs.length = Layout.size α) :
    reverseEndianness (Layout.decode bs : α) = Layout.decode bs.reverse := by
  rw [reverseEndianness, Layout.encode_decode bs h]

/-- The value of the first bytes, most significant byte first. -/
def readAt (α : Type) [Layout α] (bs : List UInt8) : α :=
  Layout.decode (bs.take (Layout.size α)).reverse

/-- The bytes of a value, most significant byte first. -/
def bigEndian [Layout α] (a : α) : List UInt8 := (Layout.encode a).reverse

theorem readAt_bigEndian_append [Layout α] (a : α) (rest : List UInt8) :
    readAt α (bigEndian a ++ rest) = a := by
  have hlen : (bigEndian a).length = Layout.size α := by
    rw [bigEndian, List.length_reverse, Layout.length_encode]
  rw [readAt, List.take_left' hlen, bigEndian, List.reverse_reverse, Layout.decode_encode]

theorem readAt_bigEndian [Layout α] (a : α) : readAt α (bigEndian a) = a := by
  rw [← List.append_nil (bigEndian a), readAt_bigEndian_append]

theorem bigEndian_readAt [Layout α] {bs : List UInt8} (h : bs.length = Layout.size α) :
    bigEndian (readAt α bs) = bs := by
  rw [bigEndian, readAt, Layout.encode_decode _ (by rw [List.length_reverse, List.length_take]
                                                    omega), List.reverse_reverse, ← h,
    List.take_length]

@[simp] theorem length_bigEndian [Layout α] (a : α) :
    (bigEndian a).length = Layout.size α := by
  rw [bigEndian, List.length_reverse, Layout.length_encode]

theorem readAt_drop_append [Layout α] {before : List UInt8} (a : α) (rest : List UInt8)
    (h : before.length = n) : readAt α ((before ++ (bigEndian a ++ rest)).drop n) = a := by
  rw [List.drop_left' h, readAt_bigEndian_append]

theorem readAt_take [Layout α] (bs : List UInt8) :
    readAt α (bs.take (Layout.size α)) = readAt α bs := by
  rw [readAt, readAt, List.take_take, Nat.min_self]

/-- The least multiple of `n` that is not below an offset. -/
def alignUp (offset n : Nat) : Nat := (offset + n - 1) / n * n

/-- The size of a struct whose fields lie one after another, each aligned to its size, and whose
end is aligned to its largest field. -/
def sequentialSize (fieldSizes : List Nat) : Nat :=
  alignUp (fieldSizes.foldl (fun offset size => alignUp offset size + size) 0)
    (fieldSizes.foldl max 1)

/-- A struct in this layout. -/
class Sequential (α : Type) [Layout α] where
  fieldSizes : List Nat
  size_eq : Layout.size α = sequentialSize fieldSizes

end Library
