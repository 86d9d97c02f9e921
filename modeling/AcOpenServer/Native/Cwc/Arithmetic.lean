import AcOpenServer.Native.Words
import AcOpenServer.Library.Limbs
import AcOpenServer.Library.Mersenne

namespace AcOpenServer
open Library
set_option autoImplicit true

namespace Native

/-- One word of `add_4`: the sum with a carry, and the carry it leaves. -/
def addWord (l r cc : UInt32) : UInt32 × UInt32 :=
  let ss := l + r + cc
  (ss, if ss < l then 1 else if ss > l then 0 else cc)

def add4 (l r : Words 4) : Words 4 :=
  let ss3 := l[3] + r[3]
  let cc : UInt32 := if ss3 < l[3] then 1 else 0
  let (ss2, cc) := addWord l[2] r[2] cc
  let (ss1, cc) := addWord l[1] r[1] cc
  #v[l[0] + (r[0] + cc), ss1, ss2, ss3]

/-- One term of the sum in column `i` of `mlt_4`. -/
def mltTerm (a b : Words 4) (i : Nat) (s : UInt64 × UInt64) (j : Nat) : UInt64 × UInt64 :=
  let sm := (a.get (Fin.ofNat 4 (3 - j))).toUInt64 * (b.get (Fin.ofNat 4 (3 + j - i))).toUInt64
  (s.1 + sm.toUInt32.toUInt64, s.2 + sm >>> 32)

/-- The inner loop of `mlt_4` for column `i`, from the `cl` that is carried into it. -/
def mltColumn (a b : Words 4) (i : Nat) (cl : UInt64) : UInt64 × UInt64 :=
  let k := if i < 3 then 0 else i - 3
  (List.range' k (i + 1 - 2 * k)).foldl (mltTerm a b i) (cl, 0)

/-- `cl` when the outer loop of `mlt_4` comes to column `i`. -/
def mltCarry (a b : Words 4) : Nat → UInt64
  | 0 => 0
  | i + 1 =>
    let (cl, ch) := mltColumn a b i (mltCarry a b i)
    cl >>> 32 + ch

/-- `r[7 - i]`. -/
def mltWord (a b : Words 4) (i : Nat) : UInt32 := (mltColumn a b i (mltCarry a b i)).1.toUInt32

/-- The upper and the lower four words of the product. -/
def mlt4 (a b : Words 4) : Words 4 × Words 4 :=
  (#v[mltWord a b 7, mltWord a b 6, mltWord a b 5, mltWord a b 4],
    #v[mltWord a b 3, mltWord a b 2, mltWord a b 1, mltWord a b 0])

/-- `be_inc` on an array of words. -/
def beIncWords (x : Words 4) : Words 4 :=
  if x[3] + 1 ≠ 0 then #v[x[0], x[1], x[2], x[3] + 1]
  else if x[2] + 1 ≠ 0 then #v[x[0], x[1], x[2] + 1, x[3] + 1]
  else if x[1] + 1 ≠ 0 then #v[x[0], x[1] + 1, x[2] + 1, x[3] + 1]
  else #v[x[0] + 1, x[1] + 1, x[2] + 1, x[3] + 1]

/-- The reduction that follows when the top bit of the hash is set. -/
def reduceTop (hash : Words 4) : Words 4 :=
  if hash[0] &&& 0x80000000 ≠ 0 then
    beIncWords #v[hash[0] &&& 0x7fffffff, hash[1], hash[2], hash[3]]
  else hash

/-- The step of `do_cwc` that doubles the upper words of the product and moves the top bit of
the lower ones to them. -/
def doubleHigh (high pt : Words 4) : Words 4 × Words 4 :=
  let high := add4 high high
  if pt[0] &&& 0x80000000 ≠ 0 then
    (#v[high[0], high[1], high[2], high[3] + 1], #v[pt[0] &&& 0x7fffffff, pt[1], pt[2], pt[3]])
  else (high, pt)

/-- The eight words of the running hash; `pt` are those behind the first four. -/
structure Hash where
  hash : Words 4
  pt : Words 4
  deriving DecidableEq

/-- The words of the buffer that are added to the hash. -/
def cwcData (order : ByteOrder) (buffer : List UInt8) : Words 4 :=
  match order with
  | .bigEndian =>
    #v[0, bswap32 (loadWord order buffer 0), bswap32 (loadWord order buffer 4),
      bswap32 (loadWord order buffer 8)]
  | .littleEndian =>
    #v[0, loadWord order buffer 0, loadWord order buffer 4, loadWord order buffer 8]

/-- `do_cwc`, on the words of the context it reads and writes. -/
def cwcIterate (order : ByteOrder) (buffer : List UInt8) (zval : Words 4) (hash : Hash) :
    Hash :=
  let data := add4 (cwcData order buffer) hash.hash
  let (high, pt) := mlt4 data zval
  let (high, pt) := doubleHigh high pt
  ⟨reduceTop (add4 high pt), pt⟩

/-- The number four words stand for, the most significant first. -/
def value (w : Words 4) : Nat :=
  w[0].toNat * 2 ^ 96 + w[1].toNat * 2 ^ 64 + w[2].toNat * 2 ^ 32 + w[3].toNat

theorem value_vec (a b c d : UInt32) :
    value #v[a, b, c, d] = a.toNat * 2 ^ 96 + b.toNat * 2 ^ 64 + c.toNat * 2 ^ 32 + d.toNat := rfl

theorem value_lt (w : Words 4) : value w < 2 ^ 128 := by
  have h0 := w[0].toNat_lt
  have h1 := w[1].toNat_lt
  have h2 := w[2].toNat_lt
  have h3 := w[3].toNat_lt
  unfold value
  omega

theorem addWord_spec {l r cc : UInt32} (h : cc.toNat ≤ 1) :
    (addWord l r cc).1.toNat + 2 ^ 32 * (addWord l r cc).2.toNat =
      l.toNat + r.toNat + cc.toNat ∧ (addWord l r cc).2.toNat ≤ 1 := by
  have hl := l.toNat_lt
  have hr := r.toNat_lt
  have hzero : (0 : UInt32).toNat = 0 := rfl
  have hone : (1 : UInt32).toNat = 1 := rfl
  have hss : (l + r + cc).toNat = ((l.toNat + r.toNat) % 2 ^ 32 + cc.toNat) % 2 ^ 32 := by
    rw [UInt32.toNat_add, UInt32.toNat_add]
  simp only [addWord, gt_iff_lt, UInt32.lt_iff_toNat_lt]
  split
  · omega
  · split <;> omega

/-- The first carry of `add_4` is that of a word without one. -/
theorem firstCarry_eq (l r : UInt32) :
    ((l + r, if l + r < l then 1 else 0) : UInt32 × UInt32) = addWord l r 0 := by
  simp only [addWord, UInt32.add_zero, gt_iff_lt, ite_self]

/-- `add_4` is addition modulo `2 ^ 128`. -/
theorem value_add4 (l r : Words 4) : value (add4 l r) = (value l + value r) % 2 ^ 128 := by
  obtain ⟨h3, hle3⟩ := addWord_spec (l := l[3]) (r := r[3])
    (show (0 : UInt32).toNat ≤ 1 from Nat.zero_le 1)
  rw [← firstCarry_eq] at h3 hle3
  dsimp only at h3 hle3
  obtain ⟨h2, hle2⟩ := addWord_spec (l := l[2]) (r := r[2]) hle3
  obtain ⟨h1, hle1⟩ := addWord_spec (l := l[1]) (r := r[1]) hle2
  have hlt := value_lt (add4 l r)
  simp only [add4, value_vec] at hlt ⊢
  generalize (if l[3] + r[3] < l[3] then 1 else 0 : UInt32) = cc at *
  generalize addWord l[1] r[1] (addWord l[2] r[2] cc).2 = w1 at *
  generalize addWord l[2] r[2] cc = w2 at *
  have h0 : (l[0] + (r[0] + w1.2)).toNat = (l[0].toNat + r[0].toNat + w1.2.toNat) % 2 ^ 32 := by
    rw [UInt32.toNat_add, UInt32.toNat_add]
    omega
  have hzero : (0 : UInt32).toNat = 0 := rfl
  have htop := Nat.mod_add_div (l[0].toNat + r[0].toNat + w1.2.toNat) (2 ^ 32)
  rw [h0] at hlt ⊢
  generalize (l[0].toNat + r[0].toNat + w1.2.toNat) / 2 ^ 32 = carry at *
  generalize (l[0].toNat + r[0].toNat + w1.2.toNat) % 2 ^ 32 = ss0 at *
  have hsum : value l + value r =
      ss0 * 2 ^ 96 + w1.1.toNat * 2 ^ 64 + w2.1.toNat * 2 ^ 32 + (l[3] + r[3]).toNat +
        2 ^ 128 * carry := by
    unfold value
    omega
  rw [hsum, Nat.add_mul_mod_self_left, Nat.mod_eq_of_lt hlt]

theorem toNat_addProduct (x y : UInt32) {cl ch : UInt64} (hcl : cl.toNat + 2 ^ 32 ≤ 2 ^ 64)
    (hch : ch.toNat + 2 ^ 32 ≤ 2 ^ 64) :
    (cl + (x.toUInt64 * y.toUInt64).toUInt32.toUInt64).toNat =
        cl.toNat + x.toNat * y.toNat % 2 ^ 32 ∧
      (ch + (x.toUInt64 * y.toUInt64) >>> 32).toNat = ch.toNat + x.toNat * y.toNat / 2 ^ 32 := by
  have hx := x.toNat_lt
  have hy := y.toNat_lt
  have hxy : x.toNat * y.toNat < 2 ^ 64 := by
    calc x.toNat * y.toNat < 2 ^ 32 * 2 ^ 32 := Nat.mul_lt_mul'' hx hy
      _ = 2 ^ 64 := by norm_num
  have hsm : (x.toUInt64 * y.toUInt64).toNat = x.toNat * y.toNat := by
    rw [UInt64.toNat_mul, UInt32.toNat_toUInt64, UInt32.toNat_toUInt64, Nat.mod_eq_of_lt hxy]
  have hdiv : x.toNat * y.toNat / 2 ^ 32 < 2 ^ 32 := by omega
  constructor
  · rw [UInt64.toNat_add, UInt32.toNat_toUInt64, UInt64.toNat_toUInt32, hsm]
    omega
  · rw [UInt64.toNat_add, UInt64.toNat_shiftRight, hsm]
    have h32 : (32 : UInt64).toNat % 64 = 32 := rfl
    rw [h32, Nat.shiftRight_eq_div_pow]
    omega

/-- The digits of an array of words, the least significant first. -/
def limb (w : Words 4) (i : Nat) : Nat := (w.get (Fin.ofNat 4 (3 - i))).toNat

theorem number_limb (w : Words 4) : Limbs.number (2 ^ 32) 4 (limb w) = value w := by
  rw [Limbs.number, Finset.sum_range_succ, Finset.sum_range_succ, Finset.sum_range_succ,
    Finset.sum_range_one, value]
  show w[3].toNat * _ + w[2].toNat * _ + w[1].toNat * _ + w[0].toNat * _ = _
  ring

/-- The products that a run of the inner loop adds up. -/
def products (a b : Words 4) (i : Nat) (js : List Nat) : Nat :=
  (js.map fun j =>
    (a.get (Fin.ofNat 4 (3 - j))).toNat * (b.get (Fin.ofNat 4 (3 + j - i))).toNat).sum

/-- The inner loop keeps the low halves and the high halves of the products apart. -/
theorem mltTerm_foldl (a b : Words 4) (i : Nat) (js : List Nat) (s : UInt64 × UInt64)
    (hcl : s.1.toNat + js.length * 2 ^ 32 ≤ 2 ^ 64)
    (hch : s.2.toNat + js.length * 2 ^ 32 ≤ 2 ^ 64) :
    (js.foldl (mltTerm a b i) s).1.toNat + 2 ^ 32 * (js.foldl (mltTerm a b i) s).2.toNat =
        s.1.toNat + 2 ^ 32 * s.2.toNat + products a b i js ∧
      (js.foldl (mltTerm a b i) s).1.toNat ≤ s.1.toNat + js.length * 2 ^ 32 ∧
      (js.foldl (mltTerm a b i) s).2.toNat ≤ s.2.toNat + js.length * 2 ^ 32 := by
  induction js generalizing s with
  | nil => simp [products]
  | cons j js ih =>
    rw [List.length_cons] at hcl hch
    obtain ⟨h1, h2⟩ := toNat_addProduct (a.get (Fin.ofNat 4 (3 - j)))
      (b.get (Fin.ofNat 4 (3 + j - i)))
      (show s.1.toNat + 2 ^ 32 ≤ 2 ^ 64 by omega) (show s.2.toNat + 2 ^ 32 ≤ 2 ^ 64 by omega)
    have hx := (a.get (Fin.ofNat 4 (3 - j))).toNat_lt
    have hy := (b.get (Fin.ofNat 4 (3 + j - i))).toNat_lt
    have hxy := Nat.mul_lt_mul'' hx hy
    have hstep1 : (mltTerm a b i s j).1.toNat = _ := h1
    have hstep2 : (mltTerm a b i s j).2.toNat = _ := h2
    obtain ⟨hsum, hle1, hle2⟩ := ih (mltTerm a b i s j) (by omega) (by omega)
    have hproducts : products a b i (j :: js) = (a.get (Fin.ofNat 4 (3 - j))).toNat *
      (b.get (Fin.ofNat 4 (3 + j - i))).toNat + products a b i js := List.sum_cons
    rw [List.foldl_cons, List.length_cons, hproducts]
    omega

theorem products_eq_column (a b : Words 4) (hi : i < 8) :
    products a b i (List.range' (if i < 3 then 0 else i - 3)
      (i + 1 - 2 * (if i < 3 then 0 else i - 3))) =
      Limbs.column 4 (limb a) (limb b) i := by
  interval_cases i <;>
    simp [products, Limbs.column, limb, Finset.sum_filter, Finset.sum_range_succ, List.range',
      Nat.add_assoc]

theorem mltColumn_spec (a b : Words 4) (hi : i < 8) {cl : UInt64} (hcl : cl.toNat ≤ 2 ^ 35) :
    (mltColumn a b i cl).1.toNat + 2 ^ 32 * (mltColumn a b i cl).2.toNat =
        cl.toNat + Limbs.column 4 (limb a) (limb b) i ∧
      (mltColumn a b i cl).1.toNat ≤ cl.toNat + 4 * 2 ^ 32 ∧
      (mltColumn a b i cl).2.toNat ≤ 4 * 2 ^ 32 := by
  have hlen : i + 1 - 2 * (if i < 3 then 0 else i - 3) ≤ 4 := by split <;> omega
  have hzero : (0 : UInt64).toNat = 0 := rfl
  obtain ⟨hsum, hle1, hle2⟩ := mltTerm_foldl a b i (List.range' (if i < 3 then 0 else i - 3)
    (i + 1 - 2 * (if i < 3 then 0 else i - 3))) (cl, 0)
    (by rw [List.length_range']; dsimp only; omega) (by rw [List.length_range']; dsimp only; omega)
  rw [products_eq_column a b hi] at hsum
  rw [List.length_range'] at hle1 hle2
  dsimp only at hsum hle1 hle2
  rw [mltColumn]
  omega

/-- The carry of the outer loop is that of the columns. -/
theorem mltCarry_spec (a b : Words 4) (hi : i ≤ 8) :
    (mltCarry a b i).toNat = Limbs.carry (2 ^ 32) (Limbs.column 4 (limb a) (limb b)) i ∧
      (mltCarry a b i).toNat ≤ 2 ^ 35 := by
  induction i with
  | zero => exact ⟨rfl, Nat.zero_le _⟩
  | succ i ih =>
    obtain ⟨hcarry, hle⟩ := ih (by omega)
    obtain ⟨hsum, hle1, hle2⟩ := mltColumn_spec a b (by omega : i < 8) hle
    have h32 : (32 : UInt64).toNat % 64 = 32 := rfl
    have hnext : (mltCarry a b (i + 1)).toNat =
        (mltColumn a b i (mltCarry a b i)).1.toNat / 2 ^ 32 +
          (mltColumn a b i (mltCarry a b i)).2.toNat := by
      rw [mltCarry, UInt64.toNat_add, UInt64.toNat_shiftRight, h32, Nat.shiftRight_eq_div_pow]
      omega
    rw [Limbs.carry, ← hcarry, hnext]
    omega

theorem toNat_mltWord (a b : Words 4) (hi : i < 8) :
    (mltWord a b i).toNat = Limbs.digit (2 ^ 32) (Limbs.column 4 (limb a) (limb b)) i := by
  obtain ⟨hcarry, hle⟩ := mltCarry_spec a b hi.le
  obtain ⟨hsum, _⟩ := mltColumn_spec a b hi hle
  rw [mltWord, UInt64.toNat_toUInt32, Limbs.digit, ← hcarry, ← hsum]
  omega

/-- `mlt_4` gives the eight words of the product. -/
theorem value_mlt4 (a b : Words 4) :
    value (mlt4 a b).1 * 2 ^ 128 + value (mlt4 a b).2 = value a * value b := by
  have hmul := Limbs.number_mul (2 ^ 32) 4 (limb a) (limb b)
  rw [number_limb, number_limb] at hmul
  have hlt : Limbs.number (2 ^ 32) 8 (Limbs.column 4 (limb a) (limb b)) < (2 ^ 32) ^ 8 := by
    calc Limbs.number (2 ^ 32) (2 * 4) (Limbs.column 4 (limb a) (limb b))
        = value a * value b := hmul.symm
      _ < 2 ^ 128 * 2 ^ 128 := Nat.mul_lt_mul'' (value_lt a) (value_lt b)
      _ = (2 ^ 32) ^ 8 := by norm_num
  rw [hmul, ← Limbs.number_digit_of_lt hlt,
    ← Limbs.number_congr fun i hi => toNat_mltWord a b hi]
  simp only [mlt4, value_vec, Limbs.number, Finset.sum_range_succ, Finset.sum_range_zero]
  ring

theorem and_topBit (x : UInt32) : x &&& 0x80000000 ≠ 0 ↔ 2 ^ 31 ≤ x.toNat := by
  have hx := x.toNat_lt
  have hmask : (0x80000000 : UInt32).toNat = 2 ^ 31 := rfl
  rw [ne_eq, ← UInt32.toNat_inj, UInt32.toNat_and, hmask, Nat.and_two_pow,
    Nat.testBit_eq_decide_div_mod_eq]
  have hzero : (0 : UInt32).toNat = 0 := rfl
  rw [hzero]
  by_cases h : x.toNat / 2 ^ 31 % 2 = 1
  · rw [decide_eq_true h]
    simp only [Bool.toNat_true]
    omega
  · rw [decide_eq_false h]
    simp only [Bool.toNat_false]
    omega

theorem toNat_and_lowBits (x : UInt32) : (x &&& 0x7fffffff).toNat = x.toNat % 2 ^ 31 := by
  have hmask : (0x7fffffff : UInt32).toNat = 2 ^ 31 - 1 := rfl
  rw [UInt32.toNat_and, hmask, Nat.and_two_pow_sub_one_eq_mod]

theorem value_clearTop (w : Words 4) :
    value #v[w[0] &&& 0x7fffffff, w[1], w[2], w[3]] = value w % 2 ^ 127 := by
  have h0 := w[0].toNat_lt
  have h1 := w[1].toNat_lt
  have h2 := w[2].toNat_lt
  have h3 := w[3].toNat_lt
  rw [value_vec, toNat_and_lowBits, value]
  omega

theorem topBit_iff (w : Words 4) : w[0] &&& 0x80000000 ≠ 0 ↔ 2 ^ 127 ≤ value w := by
  have h1 := w[1].toNat_lt
  have h2 := w[2].toNat_lt
  have h3 := w[3].toNat_lt
  rw [and_topBit, value]
  omega

/-- `be_inc` counts modulo `2 ^ 128`. -/
theorem value_beIncWords (w : Words 4) : value (beIncWords w) = (value w + 1) % 2 ^ 128 := by
  have hinc (x : UInt32) : (x + 1).toNat = (x.toNat + 1) % 2 ^ 32 := UInt32.toNat_add x 1
  have hne (x : UInt32) : x + 1 ≠ 0 ↔ x.toNat + 1 ≠ 2 ^ 32 := by
    have hx := x.toNat_lt
    have hzero : (0 : UInt32).toNat = 0 := rfl
    rw [ne_eq, ← UInt32.toNat_inj, hinc, hzero]
    omega
  have h0 := w[0].toNat_lt
  have h1 := w[1].toNat_lt
  have h2 := w[2].toNat_lt
  have h3 := w[3].toNat_lt
  simp only [beIncWords, hne]
  split
  · rw [value_vec, hinc, value]
    omega
  · split
    · rw [value_vec, hinc, hinc, value]
      omega
    · split
      · rw [value_vec, hinc, hinc, hinc, value]
        omega
      · rw [value_vec, hinc, hinc, hinc, hinc, value]
        omega

theorem value_reduceTop (w : Words 4) : value (reduceTop w) = Mersenne.fold 127 (value w) := by
  have hlt := value_lt w
  rw [Mersenne.fold_eq_ite hlt, reduceTop]
  by_cases htop : w[0] &&& 0x80000000 ≠ 0
  · have hle := (topBit_iff w).1 htop
    rw [if_pos htop, if_neg (by omega), value_beIncWords, value_clearTop]
    omega
  · have hle := mt (topBit_iff w).2 htop
    rw [if_neg htop, if_pos (by omega)]

theorem cwcData_eq (order : ByteOrder) (buffer : List UInt8) :
    cwcData order buffer = cwcData .littleEndian buffer := by
  cases order with
  | littleEndian => rfl
  | bigEndian => simp only [cwcData, loadWord, bswap32_bytes2word, bytes2word_bigEndian]

/-- The number a block of the buffer is hashed as. -/
def blockValue (buffer : List UInt8) : Nat := value (cwcData .littleEndian buffer)

theorem blockValue_lt (buffer : List UInt8) : blockValue buffer < 2 ^ 96 := by
  have h0 := (loadWord .littleEndian buffer 0).toNat_lt
  have h1 := (loadWord .littleEndian buffer 4).toNat_lt
  have h2 := (loadWord .littleEndian buffer 8).toNat_lt
  have hzero : (0 : UInt32).toNat = 0 := rfl
  rw [blockValue, cwcData, value_vec, hzero]
  omega

theorem value_doubleHigh {high : Words 4} (h : value high < 2 ^ 127) (pt : Words 4) :
    value (doubleHigh high pt).1 = (value high * 2 ^ 128 + value pt) / 2 ^ 127 ∧
      value (doubleHigh high pt).2 = (value high * 2 ^ 128 + value pt) % 2 ^ 127 := by
  have hdouble := value_add4 high high
  have hpt := value_lt pt
  rw [doubleHigh]
  split
  · next htop =>
    have hle := (topBit_iff pt).1 htop
    have hinc : ((add4 high high)[3] + 1).toNat = (add4 high high)[3].toNat + 1 := by
      have h3 := (add4 high high)[3].toNat_lt
      rw [value] at hdouble
      rw [UInt32.toNat_add, UInt32.toNat_one]
      omega
    have hsucc : value #v[(add4 high high)[0], (add4 high high)[1], (add4 high high)[2],
        (add4 high high)[3] + 1] = value (add4 high high) + 1 := by
      rw [value_vec, hinc, ← Nat.add_assoc]
      rfl
    dsimp only
    rw [hsucc, value_clearTop]
    omega
  · next htop =>
    have hle := mt (topBit_iff pt).2 htop
    dsimp only
    omega

/-- The product is folded, cut to the four words that hold it, and folded again. -/
theorem value_cwcIterate (order : ByteOrder) (buffer : List UInt8) {zval : Words 4}
    {hash : Hash} (hhash : value hash.hash ≤ 2 ^ 127) (hz : value zval < 2 ^ 127) :
    value (cwcIterate order buffer zval hash).hash = Mersenne.fold 127
      (Mersenne.fold 127 ((blockValue buffer + value hash.hash) * value zval) % 2 ^ 128) := by
  have hblock := blockValue_lt buffer
  have hdata : value (add4 (cwcData order buffer) hash.hash) =
      blockValue buffer + value hash.hash := by
    rw [cwcData_eq, value_add4, ← blockValue, Nat.mod_eq_of_lt (by omega)]
  have hproduct := value_mlt4 (add4 (cwcData order buffer) hash.hash) zval
  rw [hdata] at hproduct
  have hlt : (blockValue buffer + value hash.hash) * value zval < 2 ^ 128 * 2 ^ 127 :=
    Nat.mul_lt_mul'' (by omega) hz
  rw [← hproduct] at hlt ⊢
  have hhigh : value (mlt4 (add4 (cwcData order buffer) hash.hash) zval).1 < 2 ^ 127 := by omega
  obtain ⟨hhigh, hlow⟩ := value_doubleHigh hhigh
    (mlt4 (add4 (cwcData order buffer) hash.hash) zval).2
  simp only [cwcIterate]
  rw [value_reduceTop, value_add4, hhigh, hlow]
  rfl

/-- The hash never needs more than 127 bits, but for `2 ^ 127` itself. -/
theorem value_cwcIterate_le (order : ByteOrder) (buffer : List UInt8) {zval : Words 4}
    {hash : Hash} (hhash : value hash.hash ≤ 2 ^ 127) (hz : value zval < 2 ^ 127) :
    value (cwcIterate order buffer zval hash).hash ≤ 2 ^ 127 := by
  rw [value_cwcIterate order buffer hhash hz]
  exact Mersenne.fold_le (Nat.mod_lt _ (Nat.two_pow_pos 128))

/-- The second addition of `do_cwc` does not leave its four words. -/
def FoldsInto128 (data z : Nat) : Prop := Mersenne.fold 127 (data * z) < 2 ^ 128

instance (data z : Nat) : Decidable (FoldsInto128 data z) := inferInstanceAs (Decidable (_ < _))

theorem cwcIterate_modEq (order : ByteOrder) (buffer : List UInt8) {zval : Words 4}
    {hash : Hash} (hhash : value hash.hash ≤ 2 ^ 127) (hz : value zval < 2 ^ 127)
    (hfold : FoldsInto128 (blockValue buffer + value hash.hash) (value zval)) :
    value (cwcIterate order buffer zval hash).hash ≡
      (blockValue buffer + value hash.hash) * value zval [MOD mersenne 127] := by
  rw [value_cwcIterate order buffer hhash hz, Nat.mod_eq_of_lt hfold]
  exact (Mersenne.fold_modEq 127 _).trans (Mersenne.fold_modEq 127 _)

/-- A hash key whose first word is not all ones never makes that carry. -/
theorem foldsInto128_of_lt {hash : Hash} {buffer : List UInt8} {zval : Words 4}
    (hhash : value hash.hash ≤ 2 ^ 127) (hz : value zval < 2 ^ 127 - 2 ^ 96) :
    FoldsInto128 (blockValue buffer + value hash.hash) (value zval) := by
  have hblock := blockValue_lt buffer
  have hlt : (blockValue buffer + value hash.hash) * value zval <
      (2 ^ 127 + 2 ^ 96) * (2 ^ 127 - 2 ^ 96) := Nat.mul_lt_mul'' (by omega) hz
  rw [FoldsInto128, Mersenne.fold]
  omega

/-- A carry out of the four words is lost, which takes two from the hash. -/
theorem cwcIterate_add_two_modEq (order : ByteOrder) (buffer : List UInt8) {zval : Words 4}
    {hash : Hash} (hhash : value hash.hash ≤ 2 ^ 127) (hz : value zval < 2 ^ 127)
    (hfold : ¬FoldsInto128 (blockValue buffer + value hash.hash) (value zval)) :
    2 ^ 127 - 2 ^ 96 ≤ value zval ∧
      value (cwcIterate order buffer zval hash).hash + 2 ≡
        (blockValue buffer + value hash.hash) * value zval [MOD mersenne 127] := by
  refine ⟨Nat.not_lt.1 fun hlt => hfold (foldsInto128_of_lt hhash hlt), ?_⟩
  have hblock := blockValue_lt buffer
  have hlt : (blockValue buffer + value hash.hash) * value zval < 2 ^ 128 * 2 ^ 127 :=
    Nat.mul_lt_mul'' (by omega) hz
  rw [FoldsInto128, Mersenne.fold] at hfold
  rw [value_cwcIterate order buffer hhash hz]
  generalize (blockValue buffer + value hash.hash) * value zval = n at *
  have hsplit : Mersenne.fold 127 n = Mersenne.fold 127 n % 2 ^ 128 + 2 ^ 128 := by
    rw [Mersenne.fold]
    omega
  have hpow : 2 ≡ 2 ^ 128 [MOD mersenne 127] := by decide
  calc Mersenne.fold 127 (Mersenne.fold 127 n % 2 ^ 128) + 2
      ≡ Mersenne.fold 127 n % 2 ^ 128 + 2 ^ 128 [MOD mersenne 127] :=
        (Mersenne.fold_modEq 127 _).add hpow
    _ = Mersenne.fold 127 n := hsplit.symm
    _ ≡ n [MOD mersenne 127] := Mersenne.fold_modEq 127 n

theorem cwcIterate_add_two_modEq_sample :
    2 ^ 127 - 2 ^ 96 ≤ value #v[0x7fffffff, 0xffffffff, 0xffffffff, 0] ∧
      value (cwcIterate .littleEndian [0, 0, 0, 0x80, 0, 0, 0, 0, 1, 0, 0, 0]
        #v[0x7fffffff, 0xffffffff, 0xffffffff, 0]
        ⟨#v[0x80000000, 0, 0, 0], #v[0, 0, 0, 0]⟩).hash + 2 ≡
        (2 ^ 95 + 1 + 2 ^ 127) * (2 ^ 127 - 2 ^ 32) [MOD mersenne 127] :=
  cwcIterate_add_two_modEq .littleEndian _ (by decide) (by decide) (by decide)

end Native

end AcOpenServer
