import Mathlib

namespace Library
set_option autoImplicit true

namespace Rijndael

abbrev Column := Fin 4 → UInt8

/-- The bytes of a block, by their column and their row. -/
abbrev State := Fin 4 → Column

/-- Multiplication by `x` in the field of 256 elements. -/
def xtime (b : UInt8) : UInt8 := (b <<< 1) ^^^ if b &&& 0x80 = 0 then 0 else 0x1b

def mul3 (b : UInt8) : UInt8 := xtime b ^^^ b

def mul9 (b : UInt8) : UInt8 := xtime (xtime (xtime b)) ^^^ b

def mul11 (b : UInt8) : UInt8 := xtime (xtime (xtime b)) ^^^ xtime b ^^^ b

def mul13 (b : UInt8) : UInt8 := xtime (xtime (xtime b)) ^^^ xtime (xtime b) ^^^ b

def mul14 (b : UInt8) : UInt8 := xtime (xtime (xtime b)) ^^^ xtime (xtime b) ^^^ xtime b

def mixColumn (a : Column) : Column :=
  fun r => xtime (a r) ^^^ mul3 (a (r + 1)) ^^^ a (r + 2) ^^^ a (r + 3)

def invMixColumn (a : Column) : Column :=
  fun r => mul14 (a r) ^^^ mul11 (a (r + 1)) ^^^ mul13 (a (r + 2)) ^^^ mul9 (a (r + 3))

/-- The bytes of two columns, added. -/
def addColumn (a b : Column) : Column := fun r => a r ^^^ b r

def shiftRows (s : State) : State := fun c r => s (c + r) r

def invShiftRows (s : State) : State := fun c r => s (c - r) r

def addRoundKey (k s : State) : State := fun c => addColumn (s c) (k c)

section Cipher

-- the substitution of the bytes
variable (sub : Equiv.Perm UInt8)

def subBytes (s : State) : State := fun c r => sub (s c r)

def round (k s : State) : State :=
  addRoundKey k fun c => mixColumn (shiftRows (subBytes sub s) c)

def finalRound (k s : State) : State := addRoundKey k (shiftRows (subBytes sub s))

/-- `n` rounds, the first of them with the round key behind `i`. -/
def rounds (k : Nat → State) (i : Nat) : Nat → State → State
  | 0, s => s
  | n + 1, s => rounds k (i + 1) n (round sub (k (i + 1)) s)

/-- The cipher of `n + 1` rounds. -/
def cipher (k : Nat → State) (n : Nat) (s : State) : State :=
  finalRound sub (k (n + 1)) (rounds sub k 0 n (addRoundKey (k 0) s))

/-- A round of the equivalent inverse cipher, which adds a key that went through the inverse
column mix. -/
def invRound (k s : State) : State :=
  addRoundKey (fun c => invMixColumn (k c))
    fun c => invMixColumn (subBytes sub.symm (invShiftRows s) c)

def invFinalRound (k s : State) : State := addRoundKey k (subBytes sub.symm (invShiftRows s))

/-- `n` inverse rounds, the first of them with the round key `i + n`. -/
def invRounds (k : Nat → State) (i : Nat) : Nat → State → State
  | 0, s => s
  | n + 1, s => invRounds k i n (invRound sub (k (i + n + 1)) s)

def invCipher (k : Nat → State) (n : Nat) (s : State) : State :=
  invFinalRound sub (k 0) (invRounds sub k 0 n (addRoundKey (k (n + 1)) s))

end Cipher

section KeyExpansion

variable (sub : Equiv.Perm UInt8)

def subWord (a : Column) : Column := fun r => sub (a r)

def rotWord (a : Column) : Column := fun r => a (r + 1)

/-- The round constants, the powers of `x`. -/
def rcon : Nat → UInt8
  | 0 => 1
  | i + 1 => xtime (rcon i)

/-- What is added to the word `nk` places before word `i`, from the word just before it. -/
def scheduleTerm (nk i : Nat) (previous : Column) : Column :=
  if i % nk = 0 then
    addColumn (subWord sub (rotWord previous)) ![rcon (i / nk - 1), 0, 0, 0]
  else if 6 < nk ∧ i % nk = 4 then subWord sub previous
  else previous

/-- Word `i` of the schedule for a key of `nk` words. -/
def expandKey (nk : Nat) (key : Nat → Column) (i : Nat) : Column :=
  if h : i < nk ∨ nk = 0 then key i
  else addColumn (expandKey nk key (i - nk))
    (scheduleTerm sub nk i (expandKey nk key (i - 1)))
  termination_by i

/-- The round keys of the schedule for a key of `nk` words. -/
def roundKeys (nk : Nat) (key : Nat → Column) (n : Nat) : State :=
  fun c => expandKey sub nk key (4 * n + c.val)

theorem expandKey_of_lt {nk : Nat} {key : Nat → Column} (h : i < nk) :
    expandKey sub nk key i = key i := by
  rw [expandKey, dif_pos (.inl h)]

theorem expandKey_of_le {nk : Nat} {key : Nat → Column} (hnk : 0 < nk) (h : nk ≤ i) :
    expandKey sub nk key i = addColumn (expandKey sub nk key (i - nk))
      (scheduleTerm sub nk i (expandKey sub nk key (i - 1))) := by
  rw [expandKey, dif_neg (by omega)]

end KeyExpansion

theorem forall_byte {P : UInt8 → Prop} (h : ∀ i : Fin 256, P (UInt8.ofFin i)) (b : UInt8) :
    P b :=
  UInt8.ofFin_toFin b ▸ h b.toFin

theorem and_topBit_cases : ∀ b : UInt8, b &&& 0x80 = 0 ∨ b &&& 0x80 = 0x80 :=
  forall_byte (by decide +kernel)

theorem xor_and_distrib (a b c : UInt8) : (a ^^^ b) &&& c = (a &&& c) ^^^ (b &&& c) := by
  apply UInt8.toBitVec_inj.1
  apply BitVec.eq_of_getLsbD_eq
  intro i hi
  simp [Bool.and_xor_distrib_right]

theorem xtime_xor (a b : UInt8) : xtime (a ^^^ b) = xtime a ^^^ xtime b := by
  have hne : (0x80 : UInt8) ≠ 0 := by decide
  rw [xtime, xtime, xtime, UInt8.shiftLeft_xor, xor_and_distrib]
  generalize a <<< 1 = x
  generalize b <<< 1 = y
  rcases and_topBit_cases a with ha | ha <;> rcases and_topBit_cases b with hb | hb <;>
    simp only [ha, hb, UInt8.xor_self, UInt8.xor_zero, UInt8.zero_xor, hne, if_true, if_false]
  · ac_rfl
  · ac_rfl
  · calc x ^^^ y = x ^^^ y ^^^ (0x1b ^^^ 0x1b) := by rw [UInt8.xor_self, UInt8.xor_zero]
      _ = x ^^^ 0x1b ^^^ (y ^^^ 0x1b) := by ac_rfl

theorem mul9_xor (a b : UInt8) : mul9 (a ^^^ b) = mul9 a ^^^ mul9 b := by
  simp only [mul9, xtime_xor]
  ac_rfl

theorem mul11_xor (a b : UInt8) : mul11 (a ^^^ b) = mul11 a ^^^ mul11 b := by
  simp only [mul11, xtime_xor]
  ac_rfl

theorem mul13_xor (a b : UInt8) : mul13 (a ^^^ b) = mul13 a ^^^ mul13 b := by
  simp only [mul13, xtime_xor]
  ac_rfl

theorem mul14_xor (a b : UInt8) : mul14 (a ^^^ b) = mul14 a ^^^ mul14 b := by
  simp only [mul14, xtime_xor]
  ac_rfl

theorem mix_coefficients : ∀ x,
    mul14 (xtime x) ^^^ mul11 x ^^^ mul13 x ^^^ mul9 (mul3 x) = x ∧
    mul14 (mul3 x) ^^^ mul11 (xtime x) ^^^ mul13 x ^^^ mul9 x = 0 ∧
    mul14 x ^^^ mul11 (mul3 x) ^^^ mul13 (xtime x) ^^^ mul9 x = 0 ∧
    mul14 x ^^^ mul11 x ^^^ mul13 (mul3 x) ^^^ mul9 (xtime x) = 0 :=
  forall_byte (by decide +kernel)

theorem invMix_row (a b c d : UInt8) :
    mul14 (xtime a ^^^ mul3 b ^^^ c ^^^ d) ^^^ mul11 (xtime b ^^^ mul3 c ^^^ d ^^^ a) ^^^
      mul13 (xtime c ^^^ mul3 d ^^^ a ^^^ b) ^^^ mul9 (xtime d ^^^ mul3 a ^^^ b ^^^ c) = a := by
  simp only [mul9_xor, mul11_xor, mul13_xor, mul14_xor]
  calc _ = (mul14 (xtime a) ^^^ mul11 a ^^^ mul13 a ^^^ mul9 (mul3 a)) ^^^
          (mul14 (mul3 b) ^^^ mul11 (xtime b) ^^^ mul13 b ^^^ mul9 b) ^^^
          (mul14 c ^^^ mul11 (mul3 c) ^^^ mul13 (xtime c) ^^^ mul9 c) ^^^
          (mul14 d ^^^ mul11 d ^^^ mul13 (mul3 d) ^^^ mul9 (xtime d)) := by ac_rfl
    _ = a := by
      rw [(mix_coefficients a).1, (mix_coefficients b).2.1, (mix_coefficients c).2.2.1,
        (mix_coefficients d).2.2.2, UInt8.xor_zero, UInt8.xor_zero, UInt8.xor_zero]

theorem invMixColumn_mixColumn (a : Column) : invMixColumn (mixColumn a) = a := by
  funext r
  have h := invMix_row (a r) (a (r + 1)) (a (r + 2)) (a (r + 3))
  match r with
  | 0 | 1 | 2 | 3 => exact h

theorem invMixColumn_addColumn (a b : Column) :
    invMixColumn (addColumn a b) = addColumn (invMixColumn a) (invMixColumn b) := by
  funext r
  simp only [invMixColumn, addColumn, mul9_xor, mul11_xor, mul13_xor, mul14_xor]
  ac_rfl

theorem addColumn_cancel (a b : Column) : addColumn (addColumn a b) b = a := by
  funext r
  simp only [addColumn, UInt8.xor_assoc, UInt8.xor_self, UInt8.xor_zero]

@[simp] theorem addRoundKey_cancel (k s : State) : addRoundKey k (addRoundKey k s) = s :=
  funext fun c => addColumn_cancel (s c) (k c)

@[simp] theorem invShiftRows_shiftRows (s : State) : invShiftRows (shiftRows s) = s := by
  funext c r
  rw [invShiftRows, shiftRows, sub_add_cancel]

/-- The column mix as a sum of what each byte contributes. -/
theorem mixColumn_eq_sum (a : Column) :
    mixColumn a = addColumn (addColumn (addColumn ![xtime (a 0), a 0, a 0, mul3 (a 0)]
      ![mul3 (a 1), xtime (a 1), a 1, a 1]) ![a 2, mul3 (a 2), xtime (a 2), a 2])
      ![a 3, a 3, mul3 (a 3), xtime (a 3)] := by
  funext r
  match r with
  | 0 => rfl
  | 1 =>
    show xtime (a 1) ^^^ mul3 (a 2) ^^^ a 3 ^^^ a 0 = a 0 ^^^ xtime (a 1) ^^^ mul3 (a 2) ^^^ a 3
    ac_rfl
  | 2 =>
    show xtime (a 2) ^^^ mul3 (a 3) ^^^ a 0 ^^^ a 1 = a 0 ^^^ a 1 ^^^ xtime (a 2) ^^^ mul3 (a 3)
    ac_rfl
  | 3 =>
    show xtime (a 3) ^^^ mul3 (a 0) ^^^ a 1 ^^^ a 2 = mul3 (a 0) ^^^ a 1 ^^^ a 2 ^^^ xtime (a 3)
    ac_rfl

section Inverse

variable (sub : Equiv.Perm UInt8)

@[simp] theorem subBytes_symm_subBytes (s : State) :
    subBytes sub.symm (subBytes sub s) = s :=
  funext fun c => funext fun r => sub.symm_apply_apply (s c r)

/-- An inverse round undoes a round, each seen before the key is added. -/
theorem invRound_round (k s : State) :
    invRound sub k (shiftRows (subBytes sub (round sub k s))) = shiftRows (subBytes sub s) := by
  rw [invRound, invShiftRows_shiftRows, subBytes_symm_subBytes]
  funext c
  rw [addRoundKey, round, addRoundKey, ← invMixColumn_addColumn, addColumn_cancel,
    invMixColumn_mixColumn]

theorem rounds_succ (k : Nat → State) (i n : Nat) (s : State) :
    rounds sub k i (n + 1) s = round sub (k (i + n + 1)) (rounds sub k i n s) := by
  induction n generalizing i s with
  | zero => rfl
  | succ n ih =>
    rw [rounds, ih, Nat.add_right_comm i 1 n]
    rfl

theorem rounds_congr {k k' : Nat → State} {i n : Nat} (h : ∀ j ≤ i + n, k j = k' j) (s : State) :
    rounds sub k i n s = rounds sub k' i n s := by
  induction n generalizing i s with
  | zero => rfl
  | succ n ih =>
    rw [rounds, rounds, h (i + 1) (by omega), ih]
    intro j hj
    exact h j (by omega)

theorem cipher_congr {k k' : Nat → State} {n : Nat} (h : ∀ j ≤ n + 1, k j = k' j) (s : State) :
    cipher sub k n s = cipher sub k' n s := by
  rw [cipher, cipher, h (n + 1) le_rfl, h 0 (Nat.zero_le _), rounds_congr]
  intro j hj
  exact h j (by omega)

theorem rounds_add (k : Nat → State) (i m n : Nat) (s : State) :
    rounds sub k i (m + n) s = rounds sub k (i + m) n (rounds sub k i m s) := by
  induction m generalizing i s with
  | zero => rw [Nat.zero_add, Nat.add_zero]; rfl
  | succ m ih => rw [Nat.add_right_comm, rounds, ih, rounds, Nat.add_assoc, Nat.add_comm 1]

theorem invRounds_rounds (k : Nat → State) (i n : Nat) (s : State) :
    invRounds sub k i n (shiftRows (subBytes sub (rounds sub k i n s))) =
      shiftRows (subBytes sub s) := by
  induction n with
  | zero => rfl
  | succ n ih => rw [invRounds, rounds_succ, invRound_round, ih]

theorem invCipher_cipher (k : Nat → State) (n : Nat) (s : State) :
    invCipher sub k n (cipher sub k n s) = s := by
  rw [invCipher, cipher, finalRound, addRoundKey_cancel, invRounds_rounds, invFinalRound,
    invShiftRows_shiftRows, subBytes_symm_subBytes, addRoundKey_cancel]

theorem cipher_injective (k : Nat → State) (n : Nat) : Function.Injective (cipher sub k n) :=
  Function.LeftInverse.injective (invCipher_cipher sub k n)

end Inverse

end Rijndael

end Library
