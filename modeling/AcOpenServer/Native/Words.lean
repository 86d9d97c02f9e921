import AcOpenServer.Library.Layout

namespace AcOpenServer
open Library
set_option autoImplicit true

namespace Native

/-- `PLATFORM_BYTE_ORDER`. -/
inductive ByteOrder where
  | littleEndian
  | bigEndian
  deriving DecidableEq, Repr

/-- An array of `n` machine words. -/
abbrev Words (n : Nat) := Vector UInt32 n

-- the sizes of the arrays that are read at a fixed index
scoped instance neZeroFour : NeZero 4 := ⟨Nat.succ_ne_zero 3⟩

scoped instance neZeroSix : NeZero 6 := ⟨Nat.succ_ne_zero 5⟩

scoped instance neZeroEight : NeZero 8 := ⟨Nat.succ_ne_zero 7⟩

scoped instance neZeroSixty : NeZero 60 := ⟨Nat.succ_ne_zero 59⟩

def rotr32 (x n : UInt32) : UInt32 := x >>> n ||| x <<< (32 - n)

def bswap32 (x : UInt32) : UInt32 :=
  rotr32 x 24 &&& 0x00ff00ff ||| rotr32 x 8 &&& 0xff00ff00

def bytes2word (order : ByteOrder) (b0 b1 b2 b3 : UInt8) : UInt32 :=
  match order with
  | .littleEndian =>
    b3.toUInt32 <<< 24 ||| b2.toUInt32 <<< 16 ||| b1.toUInt32 <<< 8 ||| b0.toUInt32
  | .bigEndian =>
    b0.toUInt32 <<< 24 ||| b1.toUInt32 <<< 16 ||| b2.toUInt32 <<< 8 ||| b3.toUInt32

/-- The byte of a word with index `n < 4`. -/
def bval (order : ByteOrder) (x n : UInt32) : UInt8 :=
  match order with
  | .littleEndian => (x >>> (8 * n)).toUInt8
  | .bigEndian => (x >>> (24 - 8 * n)).toUInt8

/-- The word at a byte address. -/
def loadWord (order : ByteOrder) (bytes : List UInt8) (offset : Nat) : UInt32 :=
  bytes2word order (bytes.getD offset 0) (bytes.getD (offset + 1) 0) (bytes.getD (offset + 2) 0)
    (bytes.getD (offset + 3) 0)

/-- The bytes of a word in memory. -/
def storeWord (order : ByteOrder) (x : UInt32) : List UInt8 :=
  [bval order x 0, bval order x 1, bval order x 2, bval order x 3]

theorem toBitVec_bytes2word_littleEndian (b0 b1 b2 b3 : UInt8) :
    (bytes2word .littleEndian b0 b1 b2 b3).toBitVec =
      b3.toBitVec ++ b2.toBitVec ++ b1.toBitVec ++ b0.toBitVec := by
  simp only [bytes2word, UInt32.toBitVec_or, UInt32.toBitVec_shiftLeft,
    UInt8.toBitVec_toUInt32]
  apply BitVec.eq_of_getLsbD_eq
  intro i hi
  simp
  grind

theorem toNat_bytes2word_littleEndian (b0 b1 b2 b3 : UInt8) :
    (bytes2word .littleEndian b0 b1 b2 b3).toNat = ofLE [b0, b1, b2, b3] := by
  have hb (b : UInt8) : b.toBitVec.toNat < 2 ^ 8 := b.toBitVec.isLt
  rw [← UInt32.toNat_toBitVec, toBitVec_bytes2word_littleEndian, BitVec.toNat_append,
    BitVec.toNat_append, BitVec.toNat_append, ← Nat.shiftLeft_add_eq_or_of_lt (hb b2),
    ← Nat.shiftLeft_add_eq_or_of_lt (hb b1), ← Nat.shiftLeft_add_eq_or_of_lt (hb b0)]
  simp only [Nat.shiftLeft_eq, ofLE, UInt8.toNat_toBitVec]
  omega

/-- The two orders read the same bytes the other way round. -/
theorem bytes2word_bigEndian (b0 b1 b2 b3 : UInt8) :
    bytes2word .bigEndian b0 b1 b2 b3 = bytes2word .littleEndian b3 b2 b1 b0 := rfl

theorem exists_bytes2word_littleEndian (x : UInt32) :
    ∃ b0 b1 b2 b3, x = bytes2word .littleEndian b0 b1 b2 b3 := by
  refine ⟨x.toUInt8, (x >>> 8).toUInt8, (x >>> 16).toUInt8, (x >>> 24).toUInt8, ?_⟩
  apply UInt32.toBitVec_inj.1
  rw [toBitVec_bytes2word_littleEndian]
  apply BitVec.eq_of_getLsbD_eq
  intro i hi
  simp
  grind

theorem exists_bytes2word (order : ByteOrder) (x : UInt32) :
    ∃ b0 b1 b2 b3, x = bytes2word order b0 b1 b2 b3 := by
  obtain ⟨b0, b1, b2, b3, h⟩ := exists_bytes2word_littleEndian x
  cases order with
  | littleEndian => exact ⟨b0, b1, b2, b3, h⟩
  | bigEndian => exact ⟨b3, b2, b1, b0, h⟩

theorem bval_littleEndian (b0 b1 b2 b3 : UInt8) :
    bval .littleEndian (bytes2word .littleEndian b0 b1 b2 b3) 0 = b0 ∧
    bval .littleEndian (bytes2word .littleEndian b0 b1 b2 b3) 1 = b1 ∧
    bval .littleEndian (bytes2word .littleEndian b0 b1 b2 b3) 2 = b2 ∧
    bval .littleEndian (bytes2word .littleEndian b0 b1 b2 b3) 3 = b3 := by
  simp only [bval, ← UInt8.toBitVec_inj, UInt32.toBitVec_toUInt8, UInt32.toBitVec_shiftRight,
    toBitVec_bytes2word_littleEndian]
  refine ⟨?_, ?_, ?_, ?_⟩ <;> apply BitVec.eq_of_getLsbD_eq <;> intro i hi <;> simp <;> grind

@[simp] theorem bval_zero (order : ByteOrder) (b0 b1 b2 b3 : UInt8) :
    bval order (bytes2word order b0 b1 b2 b3) 0 = b0 := by
  cases order with
  | littleEndian => exact (bval_littleEndian b0 b1 b2 b3).1
  | bigEndian => exact (bval_littleEndian b3 b2 b1 b0).2.2.2

@[simp] theorem bval_one (order : ByteOrder) (b0 b1 b2 b3 : UInt8) :
    bval order (bytes2word order b0 b1 b2 b3) 1 = b1 := by
  cases order with
  | littleEndian => exact (bval_littleEndian b0 b1 b2 b3).2.1
  | bigEndian => exact (bval_littleEndian b3 b2 b1 b0).2.2.1

@[simp] theorem bval_two (order : ByteOrder) (b0 b1 b2 b3 : UInt8) :
    bval order (bytes2word order b0 b1 b2 b3) 2 = b2 := by
  cases order with
  | littleEndian => exact (bval_littleEndian b0 b1 b2 b3).2.2.1
  | bigEndian => exact (bval_littleEndian b3 b2 b1 b0).2.1

@[simp] theorem bval_three (order : ByteOrder) (b0 b1 b2 b3 : UInt8) :
    bval order (bytes2word order b0 b1 b2 b3) 3 = b3 := by
  cases order with
  | littleEndian => exact (bval_littleEndian b0 b1 b2 b3).2.2.2
  | bigEndian => exact (bval_littleEndian b3 b2 b1 b0).1

@[simp] theorem bytes2word_bval (order : ByteOrder) (x : UInt32) :
    bytes2word order (bval order x 0) (bval order x 1) (bval order x 2) (bval order x 3) = x := by
  obtain ⟨b0, b1, b2, b3, rfl⟩ := exists_bytes2word order x
  rw [bval_zero, bval_one, bval_two, bval_three]

theorem word_ext (order : ByteOrder) {x y : UInt32} (h0 : bval order x 0 = bval order y 0)
    (h1 : bval order x 1 = bval order y 1) (h2 : bval order x 2 = bval order y 2)
    (h3 : bval order x 3 = bval order y 3) : x = y := by
  rw [← bytes2word_bval order x, h0, h1, h2, h3, bytes2word_bval]

@[simp] theorem bval_xor (order : ByteOrder) (x y n : UInt32) :
    bval order (x ^^^ y) n = bval order x n ^^^ bval order y n := by
  cases order with
  | littleEndian => simp only [bval, UInt32.shiftRight_xor, UInt32.toUInt8_xor]
  | bigEndian => simp only [bval, UInt32.shiftRight_xor, UInt32.toUInt8_xor]

@[simp] theorem bval_and (order : ByteOrder) (x y n : UInt32) :
    bval order (x &&& y) n = bval order x n &&& bval order y n := by
  cases order with
  | littleEndian => simp only [bval, UInt32.shiftRight_and, UInt32.toUInt8_and]
  | bigEndian => simp only [bval, UInt32.shiftRight_and, UInt32.toUInt8_and]

@[simp] theorem bval_or (order : ByteOrder) (x y n : UInt32) :
    bval order (x ||| y) n = bval order x n ||| bval order y n := by
  cases order with
  | littleEndian => simp only [bval, UInt32.shiftRight_or, UInt32.toUInt8_or]
  | bigEndian => simp only [bval, UInt32.shiftRight_or, UInt32.toUInt8_or]

theorem bytes2word_xor (order : ByteOrder) (a0 a1 a2 a3 b0 b1 b2 b3 : UInt8) :
    bytes2word order a0 a1 a2 a3 ^^^ bytes2word order b0 b1 b2 b3 =
      bytes2word order (a0 ^^^ b0) (a1 ^^^ b1) (a2 ^^^ b2) (a3 ^^^ b3) := by
  apply word_ext order <;> simp only [bval_xor, bval_zero, bval_one, bval_two, bval_three]

theorem rotr32_littleEndian (b0 b1 b2 b3 : UInt8) :
    rotr32 (bytes2word .littleEndian b0 b1 b2 b3) 24 = bytes2word .littleEndian b3 b0 b1 b2 ∧
    rotr32 (bytes2word .littleEndian b0 b1 b2 b3) 16 = bytes2word .littleEndian b2 b3 b0 b1 ∧
    rotr32 (bytes2word .littleEndian b0 b1 b2 b3) 8 = bytes2word .littleEndian b1 b2 b3 b0 := by
  simp only [rotr32, ← UInt32.toBitVec_inj, UInt32.toBitVec_or, UInt32.toBitVec_shiftLeft,
    UInt32.toBitVec_shiftRight, toBitVec_bytes2word_littleEndian]
  refine ⟨?_, ?_, ?_⟩ <;> apply BitVec.eq_of_getLsbD_eq <;> intro i hi <;> simp <;> grind

theorem bswap32_bytes2word (order : ByteOrder) (b0 b1 b2 b3 : UInt8) :
    bswap32 (bytes2word order b0 b1 b2 b3) = bytes2word order b3 b2 b1 b0 := by
  have h (b0 b1 b2 b3 : UInt8) : bswap32 (bytes2word .littleEndian b0 b1 b2 b3) =
      bytes2word .littleEndian b3 b2 b1 b0 := by
    obtain ⟨h24, _, h8⟩ := rotr32_littleEndian b0 b1 b2 b3
    have hlow : (0x00ff00ff : UInt32) = bytes2word .littleEndian 0xff 0 0xff 0 := by decide
    have hhigh : (0xff00ff00 : UInt32) = bytes2word .littleEndian 0 0xff 0 0xff := by decide
    have hones (b : UInt8) : b &&& 0xff = b := UInt8.and_neg_one
    rw [bswap32, h24, h8, hlow, hhigh]
    apply word_ext .littleEndian <;>
      simp only [bval_or, bval_and, bval_zero, bval_one, bval_two, bval_three, hones,
        UInt8.and_zero, UInt8.or_zero, UInt8.zero_or]
  cases order with
  | littleEndian => exact h b0 b1 b2 b3
  | bigEndian => exact h b3 b2 b1 b0

end Native

end AcOpenServer
