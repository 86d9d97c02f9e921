import AcOpenServer.Native.Aes.AesNi

namespace AcOpenServer
open Library
set_option autoImplicit true

namespace Native

@[simp] theorem column_bytes2word (order : ByteOrder) (b0 b1 b2 b3 : UInt8) :
    column order (bytes2word order b0 b1 b2 b3) = ![b0, b1, b2, b3] := by
  funext r
  match r with
  | 0 => exact bval_zero order b0 b1 b2 b3
  | 1 => exact bval_one order b0 b1 b2 b3
  | 2 => exact bval_two order b0 b1 b2 b3
  | 3 => exact bval_three order b0 b1 b2 b3

@[simp] theorem column_xor (order : ByteOrder) (x y : UInt32) :
    column order (x ^^^ y) = Rijndael.addColumn (column order x) (column order y) :=
  funext fun _ => bval_xor order x y _

@[simp] theorem column_ofColumn (order : ByteOrder) (a : Rijndael.Column) :
    column order (ofColumn order a) = a := by
  rw [ofColumn, column_bytes2word]
  funext r
  match r with
  | 0 | 1 | 2 | 3 => rfl

@[simp] theorem ofColumn_column (order : ByteOrder) (x : UInt32) :
    ofColumn order (column order x) = x := bytes2word_bval order x

theorem stateOf_apply (order : ByteOrder) (x : Words 4) (c : Fin 4) :
    stateOf order x c = column order (x.get c) := rfl

@[simp] theorem stateOf_ofState (s : Rijndael.State) : stateOf .littleEndian (ofState s) = s := by
  funext c
  rw [stateOf_apply, ofState, Vector.get_ofFn, column_ofColumn]

theorem f2_f3 : ∀ p : UInt8, (f2 p.toUInt32).toUInt8 = Rijndael.xtime p ∧
    (f3 p.toUInt32).toUInt8 = Rijndael.mul3 p :=
  Rijndael.forall_byte (by decide +kernel)

theorem column_tFn (order : ByteOrder) (b : UInt8) :
    column order (tFn order 0 b) = ![Rijndael.xtime (sBox b), sBox b, sBox b, Rijndael.mul3 (sBox b)] ∧
    column order (tFn order 1 b) = ![Rijndael.mul3 (sBox b), Rijndael.xtime (sBox b), sBox b, sBox b] ∧
    column order (tFn order 2 b) = ![sBox b, Rijndael.mul3 (sBox b), Rijndael.xtime (sBox b), sBox b] ∧
    column order (tFn order 3 b) = ![sBox b, sBox b, Rijndael.mul3 (sBox b), Rijndael.xtime (sBox b)] := by
  obtain ⟨h2, h3⟩ := f2_f3 (sBox b)
  rw [← h2, ← h3]
  exact ⟨column_bytes2word .., column_bytes2word .., column_bytes2word .., column_bytes2word ..⟩

theorem column_tFl (order : ByteOrder) (b : UInt8) :
    column order (tFl order 0 b) = ![sBox b, 0, 0, 0] ∧
    column order (tFl order 1 b) = ![0, sBox b, 0, 0] ∧
    column order (tFl order 2 b) = ![0, 0, sBox b, 0] ∧
    column order (tFl order 3 b) = ![0, 0, 0, sBox b] :=
  ⟨column_bytes2word .., column_bytes2word .., column_bytes2word .., column_bytes2word ..⟩

/-- The four tables of a round substitute the bytes of a column and mix them. -/
theorem column_fourTables_tFn (order : ByteOrder) (vf : Fin 4 → UInt32) (rf : Fin 4 → UInt32) :
    column order (fourTables order (tFn order) vf rf) =
      Rijndael.mixColumn fun r => sBox (bval order (vf r) (rf r)) := by
  obtain ⟨h0, -⟩ := column_tFn order (bval order (vf 0) (rf 0))
  obtain ⟨-, h1, -⟩ := column_tFn order (bval order (vf 1) (rf 1))
  obtain ⟨-, -, h2, -⟩ := column_tFn order (bval order (vf 2) (rf 2))
  obtain ⟨-, -, -, h3⟩ := column_tFn order (bval order (vf 3) (rf 3))
  rw [fourTables, column_xor, column_xor, column_xor, h0, h1, h2, h3, Rijndael.mixColumn_eq_sum]

theorem column_fourTables_tFl (order : ByteOrder) (vf : Fin 4 → UInt32) (rf : Fin 4 → UInt32) :
    column order (fourTables order (tFl order) vf rf) = fun r => sBox (bval order (vf r) (rf r)) := by
  obtain ⟨h0, -⟩ := column_tFl order (bval order (vf 0) (rf 0))
  obtain ⟨-, h1, -⟩ := column_tFl order (bval order (vf 1) (rf 1))
  obtain ⟨-, -, h2, -⟩ := column_tFl order (bval order (vf 2) (rf 2))
  obtain ⟨-, -, -, h3⟩ := column_tFl order (bval order (vf 3) (rf 3))
  rw [fourTables, column_xor, column_xor, column_xor, h0, h1, h2, h3]
  funext r
  match r with
  | 0 | 1 | 2 | 3 => simp [Rijndael.addColumn]

/-- A round of the code is a round of the cipher. -/
theorem stateOf_fwdRnd (order : ByteOrder) (x k : Words 4) :
    stateOf order (fwdRnd order x k) =
      Rijndael.round sBox (stateOf order k) (stateOf order x) := by
  funext c
  rw [stateOf_apply, fwdRnd, Vector.get_ofFn, column_xor, column_fourTables_tFn]
  funext r
  exact UInt8.xor_comm ..

theorem stateOf_fwdLrnd (order : ByteOrder) (x k : Words 4) :
    stateOf order (fwdLrnd order x k) =
      Rijndael.finalRound sBox (stateOf order k) (stateOf order x) := by
  funext c
  rw [stateOf_apply, fwdLrnd, Vector.get_ofFn, column_xor, column_fourTables_tFl]
  funext r
  exact UInt8.xor_comm ..

/-- The round keys of a schedule. -/
def keyState (order : ByteOrder) (ks : Words 60) (n : Nat) : Rijndael.State :=
  stateOf order (roundKey ks n)

theorem stateOf_fwdRounds (order : ByteOrder) (ks : Words 60) (kp n : Nat) (x : Words 4) :
    stateOf order (fwdRounds order ks kp n x) =
      Rijndael.rounds sBox (keyState order ks) kp n (stateOf order x) := by
  induction n generalizing kp x with
  | zero => rfl
  | succ n ih => rw [fwdRounds, ih, stateOf_fwdRnd, Rijndael.rounds, keyState]

theorem stateOf_aesencRounds (ks : Words 60) (key n : Nat) (t : Words 4) :
    stateOf .littleEndian (aesencRounds ks key n t) =
      Rijndael.rounds sBox (keyState .littleEndian ks) key n (stateOf .littleEndian t) := by
  induction n generalizing key t with
  | zero => rfl
  | succ n ih =>
    rw [aesencRounds, ih, mmAesencSi128, stateOf_ofState, Rijndael.rounds, keyState]

/-- The bytes of a block as the state of the cipher. -/
def blockState (x : Block 16) : Rijndael.State := fun c r => x.1.getD (4 * c.val + r.val) 0

def stateBlock (s : Rijndael.State) : Block 16 :=
  ⟨[s 0 0, s 0 1, s 0 2, s 0 3, s 1 0, s 1 1, s 1 2, s 1 3,
    s 2 0, s 2 1, s 2 2, s 2 3, s 3 0, s 3 1, s 3 2, s 3 3], rfl⟩

theorem stateOf_blockIn (order : ByteOrder) (x : Block 16) :
    stateOf order (blockIn order x.1) = blockState x := by
  funext c
  rw [stateOf_apply, blockIn, Vector.get_ofFn, loadWord, column_bytes2word]
  funext r
  match r with
  | 0 | 1 | 2 | 3 => rfl

theorem stateOut_eq (order : ByteOrder) (x : Words 4) :
    stateOut order x = stateBlock (stateOf order x) := rfl

theorem stateOf_stateIn (order : ByteOrder) (x : Block 16) (k : Words 4) :
    stateOf order (stateIn order x.1 k) =
      Rijndael.addRoundKey (stateOf order k) (blockState x) := by
  rw [← stateOf_blockIn order x]
  funext c
  rw [stateOf_apply, stateIn, Vector.get_ofFn, column_xor]
  rfl

/-- The number of rounds a context is for. -/
def roundsOf (cx : AesCtx) : Nat := (cx.inf.get 0).toNat / 16

theorem validRounds_cases {cx : AesCtx} (h : validRounds cx = true) :
    cx.inf.get 0 = 10 * aesBlockSize ∨ cx.inf.get 0 = 12 * aesBlockSize ∨
      cx.inf.get 0 = 14 * aesBlockSize := by
  rw [validRounds, Bool.or_eq_true, Bool.or_eq_true, beq_iff_eq, beq_iff_eq, beq_iff_eq,
    or_assoc] at h
  exact h

theorem switch_cases :
    ((10 * aesBlockSize == 14 * aesBlockSize) = false ∧
      (10 * aesBlockSize == 10 * aesBlockSize) = true) ∧
    ((12 * aesBlockSize == 14 * aesBlockSize) = false ∧
      (12 * aesBlockSize == 10 * aesBlockSize) = false) ∧
    ((14 * aesBlockSize == 14 * aesBlockSize) = true ∧
      (14 * aesBlockSize == 10 * aesBlockSize) = false) := by decide

variable {cx : AesCtx}

theorem aesXiEncrypt_eq (order : ByteOrder) (h : validRounds cx = true) (input out : Block 16) :
    aesXiEncrypt order cx input out = (exitSuccess, stateBlock
      (Rijndael.cipher sBox (keyState order cx.ks) (roundsOf cx - 1) (blockState input))) := by
  obtain ⟨⟨h10, h10'⟩, ⟨h12, h12'⟩, h14, h14'⟩ := switch_cases
  rw [aesXiEncrypt, h]
  rcases validRounds_cases h with hinf | hinf | hinf
  · have hrounds : roundsOf cx - 1 = 9 := by rw [roundsOf, hinf]; rfl
    simp only [hinf, h10, h10', Bool.not_true, Bool.false_eq_true, if_true, if_false]
    rw [hrounds, stateOut_eq, stateOf_fwdLrnd, stateOf_fwdRounds, stateOf_stateIn]
    rfl
  · have hrounds : roundsOf cx - 1 = 2 + 9 := by rw [roundsOf, hinf]; rfl
    simp only [hinf, h12, h12', Bool.not_true, Bool.false_eq_true, if_false]
    rw [hrounds, stateOut_eq, stateOf_fwdLrnd, stateOf_fwdRounds, stateOf_fwdRounds,
      stateOf_stateIn, Rijndael.cipher, Rijndael.rounds_add]
    rfl
  · have hrounds : roundsOf cx - 1 = 2 + (2 + 9) := by rw [roundsOf, hinf]; rfl
    simp only [hinf, h14, h14', Bool.not_true, Bool.false_eq_true, if_true, if_false]
    rw [hrounds, stateOut_eq, stateOf_fwdLrnd, stateOf_fwdRounds, stateOf_fwdRounds,
      stateOf_fwdRounds, stateOf_stateIn, Rijndael.cipher, Rijndael.rounds_add,
      Rijndael.rounds_add]
    rfl

theorem stateOf_mmXorSi128 (order : ByteOrder) (a b : Words 4) :
    stateOf order (mmXorSi128 a b) = Rijndael.addRoundKey (stateOf order b) (stateOf order a) := by
  funext c
  have hget : (mmXorSi128 a b).get c = a.get c ^^^ b.get c := Vector.getElem_zipWith c.isLt
  rw [stateOf_apply, hget, column_xor]
  rfl

theorem aesNiEncrypt_eq (h : validRounds cx = true) (input out : Block 16) :
    aesNiEncrypt cx input out = (exitSuccess, stateBlock
      (Rijndael.cipher sBox (keyState .littleEndian cx.ks) (roundsOf cx - 1)
        (blockState input))) := by
  obtain ⟨⟨h10, h10'⟩, ⟨h12, h12'⟩, h14, h14'⟩ := switch_cases
  rw [aesNiEncrypt, h, mmLoaduSi128]
  rcases validRounds_cases h with hinf | hinf | hinf
  · have hrounds : roundsOf cx - 1 = 9 := by rw [roundsOf, hinf]; rfl
    simp only [hinf, h10, h10', Bool.not_true, Bool.false_eq_true, if_true, if_false]
    rw [hrounds, stateOut_eq, mmAesenclastSi128, stateOf_ofState, stateOf_aesencRounds,
      stateOf_mmXorSi128, stateOf_blockIn]
    rfl
  · have hrounds : roundsOf cx - 1 = 2 + 9 := by rw [roundsOf, hinf]; rfl
    simp only [hinf, h12, h12', Bool.not_true, Bool.false_eq_true, if_false]
    rw [hrounds, stateOut_eq, mmAesenclastSi128, stateOf_ofState, stateOf_aesencRounds,
      stateOf_aesencRounds, stateOf_mmXorSi128, stateOf_blockIn, Rijndael.cipher,
      Rijndael.rounds_add]
    rfl
  · have hrounds : roundsOf cx - 1 = 2 + (2 + 9) := by rw [roundsOf, hinf]; rfl
    simp only [hinf, h14, h14', Bool.not_true, Bool.false_eq_true, if_true, if_false]
    rw [hrounds, stateOut_eq, mmAesenclastSi128, stateOf_ofState, stateOf_aesencRounds,
      stateOf_aesencRounds, stateOf_aesencRounds, stateOf_mmXorSi128, stateOf_blockIn,
      Rijndael.cipher, Rijndael.rounds_add, Rijndael.rounds_add]
    rfl

/-- On every platform, a block is encrypted as the cipher says, with the round keys of the
context. -/
theorem aesEncrypt_eq (platform : Platform) (h : validRounds cx = true) (input out : Block 16) :
    aesEncrypt platform cx input out = (exitSuccess, stateBlock
      (Rijndael.cipher sBox (keyState platform.order cx.ks) (roundsOf cx - 1)
        (blockState input))) := by
  rw [aesEncrypt]
  split
  · next hni =>
    rw [hni]
    exact aesNiEncrypt_eq h input out
  · exact aesXiEncrypt_eq platform.order h input out

theorem blockState_injective : Function.Injective blockState := by
  intro x y h
  apply Subtype.ext
  apply List.ext_getElem (by rw [x.2, y.2])
  intro i hx hy
  have hi : i < 16 := x.2 ▸ hx
  have hbyte := congrFun (congrFun h ⟨i / 4, by omega⟩) ⟨i % 4, by omega⟩
  dsimp only [blockState] at hbyte
  rw [Nat.div_add_mod, List.getD_eq_getElem _ _ hx, List.getD_eq_getElem _ _ hy] at hbyte
  exact hbyte

theorem blockState_stateBlock (s : Rijndael.State) : blockState (stateBlock s) = s := by
  funext c r
  fin_cases c <;> fin_cases r <;> rfl

/-- No two blocks are encrypted to the same one. -/
theorem aesEncrypt_injective (platform : Platform) (h : validRounds cx = true) (out : Block 16) :
    Function.Injective fun input => (aesEncrypt platform cx input out).2 := by
  intro x y hxy
  simp only [aesEncrypt_eq platform h] at hxy
  have hstate := Function.LeftInverse.injective blockState_stateBlock hxy
  exact blockState_injective (Rijndael.cipher_injective _ _ _ hstate)

theorem aesEncrypt_injective_sample :
    Function.Injective fun input => (aesEncrypt .littleEndian
      (aesXiEncryptKey128 .littleEndian (List.replicate 16 0x2b)
        ⟨Vector.replicate 60 0, Vector.replicate 4 0⟩).2 input
      ⟨List.replicate 16 0, rfl⟩).2 :=
  aesEncrypt_injective .littleEndian rfl _

end Native

end AcOpenServer
