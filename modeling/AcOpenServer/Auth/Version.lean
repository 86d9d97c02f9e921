import AcOpenServer.Runtime

namespace AcOpenServer
open Library
set_option autoImplicit true

namespace ByteHelper

def toUInt32 (b1 b2 b3 b4 : UInt8) : UInt32 :=
  b1.toUInt32 <<< 24 ||| b2.toUInt32 <<< 16 ||| b3.toUInt32 <<< 8 ||| b4.toUInt32

def toInt32 (b1 b2 b3 b4 : UInt8) : Int32 := (toUInt32 b1 b2 b3 b4).toInt32

theorem toNat_toUInt32 (b1 b2 b3 b4 : UInt8) : (toUInt32 b1 b2 b3 b4).toNat =
    b1.toNat * 2 ^ 24 + b2.toNat * 2 ^ 16 + b3.toNat * 2 ^ 8 + b4.toNat := by
  have h1 := b1.toNat_lt
  have h2 := b2.toNat_lt
  have h3 := b3.toNat_lt
  have h4 := b4.toNat_lt
  have hshift : ∀ (b : UInt8) (k : UInt32), k.toNat ≤ 24 →
      (b.toUInt32 <<< k).toNat = b.toNat * 2 ^ k.toNat := by
    intro b k hk
    have hb := b.toNat_lt
    have hpow : (2 : Nat) ^ k.toNat ≤ 2 ^ 24 := Nat.pow_le_pow_right (by decide) hk
    have hlt : b.toNat * 2 ^ k.toNat < 2 ^ 32 := by
      calc b.toNat * 2 ^ k.toNat ≤ 255 * 2 ^ 24 := Nat.mul_le_mul (by omega) hpow
        _ < 2 ^ 32 := by decide
    rw [UInt32.toNat_shiftLeft, UInt8.toNat_toUInt32, Nat.mod_eq_of_lt (a := k.toNat) (by omega),
      Nat.shiftLeft_eq, Nat.mod_eq_of_lt hlt]
  have hor : ∀ a b i, b < 2 ^ i → a * 2 ^ i ||| b = a * 2 ^ i + b := by
    intro a b i hb
    rw [Nat.mul_comm, Nat.two_pow_add_eq_or_of_lt hb]
  have h24 := hshift b1 24 (by decide)
  have h16 := hshift b2 16 (by decide)
  have h8 := hshift b3 8 (by decide)
  have e24 : (24 : UInt32).toNat = 24 := rfl
  have e16 : (16 : UInt32).toNat = 16 := rfl
  have e8 : (8 : UInt32).toNat = 8 := rfl
  rw [e24] at h24
  rw [e16] at h16
  rw [e8] at h8
  rw [toUInt32, UInt32.toNat_or, UInt32.toNat_or, UInt32.toNat_or, h24, h16, h8,
    UInt8.toNat_toUInt32, hor b1.toNat _ 24 (by omega)]
  have hhigh : b1.toNat * 2 ^ 24 + b2.toNat * 2 ^ 16 = (b1.toNat * 2 ^ 8 + b2.toNat) * 2 ^ 16 := by
    omega
  rw [hhigh, hor _ _ 16 (by omega)]
  have hmiddle : (b1.toNat * 2 ^ 8 + b2.toNat) * 2 ^ 16 + b3.toNat * 2 ^ 8 =
      ((b1.toNat * 2 ^ 8 + b2.toNat) * 2 ^ 8 + b3.toNat) * 2 ^ 8 := by
    ring
  rw [hmiddle, hor _ _ 8 h4]

end ByteHelper

structure AcvVersion where
  release : UInt8
  major : UInt8
  minor : UInt8
  patch : UInt8
  deriving DecidableEq, Repr

namespace AcvVersion

def toInt32 (v : AcvVersion) : Int32 := ByteHelper.toInt32 v.release v.major v.minor v.patch

def toUInt32 (v : AcvVersion) : UInt32 := ByteHelper.toUInt32 v.release v.major v.minor v.patch

def lt (a b : AcvVersion) : Bool := a.toInt32 < b.toInt32

def gt (a b : AcvVersion) : Bool := a.toInt32 > b.toInt32

end AcvVersion

structure AcvAppVersion where
  unk00 : UInt32
  version : AcvVersion
  deriving DecidableEq, Repr

namespace AcvAppVersion

/-- The eight bytes of a version, most significant byte first. -/
def ofBytes (bytes : List UInt8) : AcvAppVersion where
  unk00 := ByteHelper.toUInt32 (bytes.getD 0 0) (bytes.getD 1 0) (bytes.getD 2 0) (bytes.getD 3 0)
  version := ⟨bytes.getD 4 0, bytes.getD 5 0, bytes.getD 6 0, bytes.getD 7 0⟩

def new (appVersion : UInt64) : AcvAppVersion :=
  ofBytes (Layout.encode (reverseEndianness appVersion))

def lt (a b : AcvAppVersion) : Bool := a.unk00 < b.unk00 && a.version.lt b.version

def gt (a b : AcvAppVersion) : Bool := a.unk00 > b.unk00 && a.version.gt b.version

/-- The 64-bit number a version was made from. -/
def number (a : AcvAppVersion) : Nat := a.unk00.toNat * 2 ^ 32 + a.version.toUInt32.toNat

theorem number_new (appVersion : UInt64) : (new appVersion).number = appVersion.toNat := by
  have hlt := appVersion.toNat_lt
  have hbyte : ∀ n, (UInt8.ofNat n).toNat = n % 256 := fun n => UInt8.toNat_ofNat'
  have hencode : Layout.encode (reverseEndianness appVersion) =
      (toLE 8 appVersion.toNat).reverse := encode_reverseEndianness appVersion
  rw [number, new, hencode]
  simp only [ofBytes, AcvVersion.toUInt32, ByteHelper.toNat_toUInt32, toLE, List.reverse_cons,
    List.reverse_nil, List.nil_append, List.cons_append, List.getD_cons_zero,
    List.getD_cons_succ, hbyte, Nat.div_div_eq_div_mul]
  omega

theorem number_lt_of_unk00_lt {a b : AcvAppVersion} (h : a.unk00 < b.unk00) :
    a.number < b.number := by
  have ha := a.version.toUInt32.toNat_lt
  rw [UInt32.lt_iff_toNat_lt] at h
  unfold number
  omega

theorem number_lt_of_lt {a b : AcvAppVersion} (h : a.lt b = true) : a.number < b.number :=
  number_lt_of_unk00_lt (of_decide_eq_true (Bool.and_eq_true_iff.1 h).1)

theorem number_lt_of_gt {a b : AcvAppVersion} (h : a.gt b = true) : b.number < a.number :=
  number_lt_of_unk00_lt (of_decide_eq_true (Bool.and_eq_true_iff.1 h).1)

end AcvAppVersion

end AcOpenServer
