import AcOpenServer.Library.Keystream
import AcOpenServer.Native.Cwc.Context

namespace AcOpenServer
open Library
set_option autoImplicit true

namespace Native

variable (platform : Platform)

/-- A byte with the next byte of the key stream, of which a new block is made at position 0. -/
def CwcCtx.cryptByte (s : (CwcCtx × Nat) × List UInt8) (b : UInt8) :
    (CwcCtx × Nat) × List UInt8 :=
  let ctx := if s.1.2 = 0 then s.1.1.nextBlock platform else s.1.1
  ((ctx, (s.1.2 + 1) % cblkLen), s.2 ++ [b ^^^ ctx.encCtr.1.getD s.1.2 0])

namespace Crypting

/-- The state the data that is left leads to. -/
def total (s : Crypting) : (CwcCtx × Nat) × List UInt8 :=
  s.rest.foldl (CwcCtx.cryptByte platform) ((s.ctx, s.bPos % cblkLen), s.done)

/-- Bytes added to a block, from a position of it on. -/
def xorFrom (encCtr : List UInt8) (bPos : Nat) (data : List UInt8) : List UInt8 :=
  List.zipWith (· ^^^ ·) data (encCtr.drop bPos)

variable {platform}

theorem drop_eq_getD_cons {x : Block n} (h : i < n) :
    x.1.drop i = x.1.getD i 0 :: x.1.drop (i + 1) := by
  have hlen : i < x.1.length := by rw [x.2]; exact h
  rw [List.drop_eq_getElem_cons hlen, List.getD_eq_getElem?_getD, List.getElem?_eq_getElem hlen,
    Option.getD_some]

theorem xorFrom_cons {x : Block n} {bPos : Nat} (h : bPos < n) (b : UInt8) (data : List UInt8) :
    xorFrom x.1 bPos (b :: data) = (b ^^^ x.1.getD bPos 0) :: xorFrom x.1 (bPos + 1) data := by
  rw [xorFrom, xorFrom, drop_eq_getD_cons h, List.zipWith_cons_cons]

theorem xorFrom_append (x : Block n) {bPos : Nat} (as bs : List UInt8)
    (h : bPos + as.length ≤ n) :
    xorFrom x.1 bPos (as ++ bs) = xorFrom x.1 bPos as ++ xorFrom x.1 (bPos + as.length) bs := by
  induction as generalizing bPos with
  | nil => rfl
  | cons a as ih =>
    rw [List.length_cons] at h
    rw [List.cons_append, xorFrom_cons (by omega), xorFrom_cons (by omega), ih (by omega),
      List.length_cons, List.cons_append, Nat.add_assoc, Nat.add_comm 1]

theorem cryptByte_within (ctx : CwcCtx) {bPos : Nat} (h : 0 < bPos) (done : List UInt8)
    (b : UInt8) : CwcCtx.cryptByte platform ((ctx, bPos), done) b =
      ((ctx, (bPos + 1) % cblkLen), done ++ [b ^^^ ctx.encCtr.1.getD bPos 0]) := by
  simp only [CwcCtx.cryptByte, if_neg h.ne']

variable (platform) in
theorem foldl_within (ctx : CwcCtx) {bPos : Nat} (h : 0 < bPos) (data done : List UInt8)
    (hle : bPos + data.length ≤ cblkLen) :
    data.foldl (CwcCtx.cryptByte platform) ((ctx, bPos % cblkLen), done) =
      ((ctx, (bPos + data.length) % cblkLen), done ++ xorFrom ctx.encCtr.1 bPos data) := by
  induction data generalizing bPos done with
  | nil => rw [xorFrom, List.zipWith_nil_left, List.append_nil]; rfl
  | cons b data ih =>
    rw [List.length_cons] at hle
    have hlt : bPos < cblkLen := by omega
    rw [List.foldl_cons, Nat.mod_eq_of_lt hlt, cryptByte_within ctx h, ih (by omega) _ (by omega),
      List.length_cons, xorFrom_cons (x := ctx.encCtr) hlt, List.append_assoc,
      List.singleton_append, Nat.add_assoc, Nat.add_comm 1]

variable (platform) in
theorem foldl_next (ctx : CwcCtx) (data done : List UInt8) (hne : data ≠ [])
    (hle : data.length ≤ cblkLen) :
    data.foldl (CwcCtx.cryptByte platform) ((ctx, 0), done) =
      ((ctx.nextBlock platform, data.length % cblkLen),
        done ++ xorFrom (ctx.nextBlock platform).encCtr.1 0 data) := by
  cases data with
  | nil => exact (hne rfl).elim
  | cons b data =>
    rw [List.length_cons] at hle
    have hwithin := foldl_within platform (ctx.nextBlock platform) one_pos data
      (done ++ [b ^^^ (ctx.nextBlock platform).encCtr.1.getD 0 0]) (by omega)
    rw [List.foldl_cons, List.length_cons, xorFrom_cons (by decide : 0 < 16),
      ← List.singleton_append, ← List.append_assoc, Nat.add_comm data.length]
    exact hwithin

theorem xorUnit_eq (order : ByteOrder) (b0 b1 b2 b3 : UInt8) (more : List UInt8) (x : Block 16)
    {bPos : Nat} (h : bPos + 4 ≤ 16) :
    xorUnit order (b0 :: b1 :: b2 :: b3 :: more) x.1 bPos = xorFrom x.1 bPos [b0, b1, b2, b3] := by
  rw [xorFrom_cons (by omega), xorFrom_cons (by omega), xorFrom_cons (by omega),
    xorFrom_cons (by omega), xorUnit, loadWord, loadWord, bytes2word_xor, storeWord]
  simp only [bval_zero, bval_one, bval_two, bval_three, List.getD_cons_zero, List.getD_cons_succ]
  rfl

variable (platform) in
theorem bytesToUnit_spec (s : Crypting) (h : 0 < s.bPos) (hle : s.bPos ≤ cblkLen)
    (data : List UInt8) :
    (s.bytesToUnit data).total platform = total platform { s with rest := data } ∧
      0 < (s.bytesToUnit data).bPos ∧ (s.bytesToUnit data).bPos ≤ cblkLen ∧
      ((s.bytesToUnit data).rest = [] ∨ (s.bytesToUnit data).bPos % bufInc = 0) := by
  induction data generalizing s with
  | nil => exact ⟨rfl, h, hle, .inl rfl⟩
  | cons b rest ih =>
    rw [bytesToUnit]
    split
    · next hunit =>
      have hlt : s.bPos < cblkLen := by
        unfold cblkLen bufInc at *
        omega
      obtain ⟨htotal, hpos, hend⟩ := ih (s.xorByte b rest) (Nat.succ_pos _) hlt
      refine ⟨htotal.trans ?_, hpos, hend⟩
      simp only [total, xorByte, List.foldl_cons]
      rw [Nat.mod_eq_of_lt hlt, cryptByte_within s.ctx h]
    · next hunit => exact ⟨rfl, h, hle, .inr (not_ne_iff.1 hunit)⟩

variable (platform) in
theorem units_spec (s : Crypting) (h : 0 < s.bPos) (hle : s.bPos ≤ cblkLen) (data : List UInt8) :
    (s.units platform data).total platform = total platform { s with rest := data } ∧
      (s.units platform data).bPos ≤ cblkLen ∧
      ((s.units platform data).rest.length < bufInc ∨
        cblkLen < (s.units platform data).bPos + bufInc) ∧
      (s.units platform data).bPos % bufInc = s.bPos % bufInc := by
  induction s, data using units.induct platform with
  | case1 s b0 b1 b2 b3 rest hroom ih =>
    rw [units, if_pos hroom]
    have hlen : s.bPos + 4 ≤ cblkLen := Nat.add_le_of_le_sub (by decide) hroom
    obtain ⟨htotal, hpos, hend, hmod⟩ := ih (Nat.add_pos_left h _) hlen
    refine ⟨htotal.trans ?_, hpos, hend, hmod.trans (Nat.add_mod_right ..)⟩
    have hwithin := foldl_within platform s.ctx h [b0, b1, b2, b3] s.done hlen
    simp only [total]
    rw [xorUnit_eq platform.order b0 b1 b2 b3 [] s.ctx.encCtr hlen]
    exact congrArg (List.foldl _ · rest) hwithin.symm
  | case2 s b0 b1 b2 b3 rest hroom =>
    rw [units, if_neg hroom]
    refine ⟨rfl, hle, .inr ?_, rfl⟩
    unfold cblkLen bufInc at *
    dsimp only
    omega
  | case3 s data hdata =>
    rw [units]
    · refine ⟨rfl, hle, .inl ?_, rfl⟩
      match data with
      | [] => exact (by decide : 0 < 4)
      | [_] => exact (by decide : 1 < 4)
      | [_, _] => exact (by decide : 2 < 4)
      | [_, _, _] => exact (by decide : 3 < 4)
      | b0 :: b1 :: b2 :: b3 :: rest => exact (hdata b0 b1 b2 b3 rest rfl).elim
    · exact hdata

variable (platform) in
theorem bytesToEnd_spec (s : Crypting) (h : 0 < s.bPos) (hle : s.bPos ≤ cblkLen)
    (data : List UInt8) :
    (s.bytesToEnd data).total platform = total platform { s with rest := data } ∧
      (s.bytesToEnd data).bPos ≤ cblkLen ∧
      ((s.bytesToEnd data).rest = [] ∨ (s.bytesToEnd data).bPos = cblkLen) := by
  induction data generalizing s with
  | nil => exact ⟨rfl, hle, .inl rfl⟩
  | cons b rest ih =>
    rw [bytesToEnd]
    split
    · next hlt =>
      obtain ⟨htotal, hpos, hend⟩ := ih (s.xorByte b rest) (Nat.succ_pos _) hlt
      refine ⟨htotal.trans ?_, hpos, hend⟩
      simp only [total, xorByte, List.foldl_cons]
      rw [Nat.mod_eq_of_lt hlt, cryptByte_within s.ctx h]
    · next hlt => exact ⟨rfl, hle, .inr (by dsimp only; omega)⟩

theorem xorBlock_eq (data encCtr : List UInt8) : xorBlock data encCtr = xorFrom encCtr 0 data := by
  rw [xorBlock, xorFrom, List.drop_zero]

/-- The aligned path adds the block unit by unit. -/
theorem xorBlockAligned_eq (order : ByteOrder) (data : List UInt8) (x : Block 16)
    (h : data.length = cblkLen) : xorBlockAligned order data x.1 = xorFrom x.1 0 data := by
  match data, h with
  | [b0, b1, b2, b3, b4, b5, b6, b7, b8, b9, b10, b11, b12, b13, b14, b15], _ =>
    simp only [xorBlockAligned, List.drop_succ_cons, List.drop_zero]
    rw [xorUnit_eq order b0 b1 b2 b3 _ x (by decide), xorUnit_eq order b4 b5 b6 b7 _ x (by decide),
      xorUnit_eq order b8 b9 b10 b11 _ x (by decide),
      xorUnit_eq order b12 b13 b14 b15 _ x (by decide)]
    exact ((xorFrom_append x [b0, b1, b2, b3] _ (by decide : 0 + 4 ≤ 16)).trans (congrArg _
      ((xorFrom_append x [b4, b5, b6, b7] _ (by decide : 4 + 4 ≤ 16)).trans (congrArg _
        (xorFrom_append x [b8, b9, b10, b11] [b12, b13, b14, b15]
          (by decide : 8 + 4 ≤ 16)))))).symm

theorem blocks_spec {xor : List UInt8 → List UInt8 → List UInt8}
    (hxor : ∀ data (x : Block 16), data.length = cblkLen → xor data x.1 = xorFrom x.1 0 data)
    (s : Crypting) (h : s.bPos % cblkLen = 0 ∨ s.rest.length < cblkLen) :
    (s.blocks platform xor).total platform = s.total platform ∧
      (s.blocks platform xor).bPos = s.bPos := by
  induction s using blocks.induct platform xor with
  | case1 s hle ctx ih =>
    have hpos : s.bPos % cblkLen = 0 := by omega
    have hlen : (s.rest.take cblkLen).length = cblkLen := by
      rw [List.length_take, Nat.min_eq_left hle]
    obtain ⟨htotal, hsame⟩ := ih (.inl hpos)
    have hnext := foldl_next platform s.ctx (s.rest.take cblkLen) s.done
      (fun h => by rw [h] at hlen; cases hlen) hlen.le
    rw [hlen, Nat.mod_self] at hnext
    rw [blocks, if_pos hle]
    refine ⟨htotal.trans ?_, hsame⟩
    simp only [total]
    rw [hpos, hxor _ _ hlen, ← hnext, ← List.foldl_append, List.take_append_drop]
  | case2 s hlt =>
    rw [blocks, if_neg hlt]
    exact ⟨rfl, rfl⟩

variable (platform) in
theorem tail_spec (s : Crypting) (h : s.bPos ≤ cblkLen) (data : List UInt8) :
    (((s.tail platform data).ctx, (s.tail platform data).bPos % cblkLen),
        (s.tail platform data).done) = total platform { s with rest := data } := by
  induction data generalizing s with
  | nil => rfl
  | cons b rest ih =>
    rw [tail]
    split
    · next hfull =>
      have hzero : s.bPos % cblkLen = 0 := by
        rcases hfull with hfull | hfull
        · rw [hfull, Nat.mod_self]
        · rw [hfull, Nat.zero_mod]
      refine (ih _ (by decide : 1 ≤ cblkLen)).trans ?_
      simp only [total, xorByte, List.foldl_cons, CwcCtx.cryptByte]
      rw [hzero, if_pos rfl, Nat.zero_add]
    · next hfull =>
      have hlt : s.bPos < cblkLen := by omega
      have hpos : 0 < s.bPos := by omega
      refine (ih (s.xorByte b rest) hlt).trans ?_
      simp only [total, xorByte, List.foldl_cons]
      rw [Nat.mod_eq_of_lt hlt, cryptByte_within s.ctx hpos]

end Crypting

/-- Whichever way it goes through the data, the code adds it to the key stream byte by byte. -/
theorem cwcCryptData_eq (addr : Int) (data : List UInt8) (ctx : CwcCtx) :
    cwcCryptData platform addr data ctx =
      let s := data.foldl (CwcCtx.cryptByte platform) ((ctx, ctx.txtCcnt.toNat % cblkLen), [])
      (s.2, { s.1.1 with txtCcnt := s.1.1.txtCcnt + count data }) := by
  have hlt : ctx.txtCcnt.toNat % cblkLen < cblkLen := Nat.mod_lt _ (by decide)
  have hstart : Crypting.total platform ⟨ctx, ctx.txtCcnt.toNat % cblkLen, [], data⟩ =
      data.foldl (CwcCtx.cryptByte platform) ((ctx, ctx.txtCcnt.toNat % cblkLen), []) := by
    rw [Crypting.total, Nat.mod_mod]
  have hrun (xor : List UInt8 → List UInt8 → List UInt8)
      (hxor : ∀ data (x : Block 16), data.length = cblkLen →
        xor data x.1 = Crypting.xorFrom x.1 0 data) (s : Crypting)
      (hs : s.total platform =
        Crypting.total platform ⟨ctx, ctx.txtCcnt.toNat % cblkLen, [], data⟩)
      (hle : s.bPos ≤ cblkLen) (hblocks : s.bPos % cblkLen = 0 ∨ s.rest.length < cblkLen) :
      let e := (s.blocks platform xor).tail platform (s.blocks platform xor).rest
      let t := data.foldl (CwcCtx.cryptByte platform) ((ctx, ctx.txtCcnt.toNat % cblkLen), [])
      (e.done, { e.ctx with txtCcnt := e.ctx.txtCcnt + count data }) =
        (t.2, { t.1.1 with txtCcnt := t.1.1.txtCcnt + count data }) := by
    obtain ⟨htotal, hsame⟩ := Crypting.blocks_spec hxor s hblocks
    have htail := Crypting.tail_spec platform (s.blocks platform xor)
      (by rw [hsame]; exact hle) (s.blocks platform xor).rest
    rw [htotal, hs, hstart] at htail
    rw [← htail]
  rw [cwcCryptData]
  split
  · next hnil => 
    rw [List.length_eq_zero_iff.1 hnil]
    show _ = (([] : List UInt8), { ctx with txtCcnt := ctx.txtCcnt + 0 })
    rw [UInt32.add_zero]
  · next hne =>
    rcases Nat.eq_zero_or_pos (ctx.txtCcnt.toNat % cblkLen) with hzero | hpos
    · simp only [hzero, ne_eq, not_true_eq_false, if_false]
      rw [← hzero]
      split
      · exact hrun _ (Crypting.xorBlockAligned_eq platform.order) _ rfl hlt.le
          (.inl (by rw [hzero, Nat.zero_mod]))
      · exact hrun _ (fun data x _ => Crypting.xorBlock_eq data x.1) _ rfl hlt.le
          (.inl (by rw [hzero, Nat.zero_mod]))
    · simp only [ne_eq, hpos.ne', not_false_eq_true, if_true]
      split
      · obtain ⟨h1, hpos1, hle1, hend1⟩ := Crypting.bytesToUnit_spec platform
          ⟨ctx, ctx.txtCcnt.toNat % cblkLen, [], data⟩ hpos hlt.le data
        obtain ⟨h2, hle2, hend2, hmod⟩ := Crypting.units_spec platform _ hpos1 hle1
          (Crypting.bytesToUnit ⟨ctx, ctx.txtCcnt.toNat % cblkLen, [], data⟩ data).rest
        apply hrun _ (Crypting.xorBlockAligned_eq platform.order) _ (h2.trans h1) hle2
        rcases hend1 with hnil | hunit
        · right
          rw [hnil, Crypting.units]
          · exact (by decide : 0 < cblkLen)
          · intro b0 b1 b2 b3 rest h
            cases h
        · unfold bufInc at *
          unfold cblkLen at *
          omega
      · obtain ⟨h1, hle1, hend1⟩ := Crypting.bytesToEnd_spec platform
          ⟨ctx, ctx.txtCcnt.toNat % cblkLen, [], data⟩ hpos hlt.le data
        apply hrun _ (fun data x _ => Crypting.xorBlock_eq data x.1) _ h1 hle1
        rcases hend1 with hnil | hfull
        · right
          rw [hnil]
          exact (by decide : 0 < cblkLen)
        · left
          rw [hfull, Nat.mod_self]

/-- The block whose last four bytes are a count. -/
def counterBlock (x : Block 16) (k : Nat) : Block 16 :=
  setBytes x ctrPos
    [UInt8.ofNat (k / 2 ^ 24), UInt8.ofNat (k / 2 ^ 16), UInt8.ofNat (k / 2 ^ 8), UInt8.ofNat k]

theorem setBytes_setBytes (x : Block 16) (a b c d a' b' c' d' : UInt8) :
    setBytes (setBytes x ctrPos [a, b, c, d]) ctrPos [a', b', c', d'] =
      setBytes x ctrPos [a', b', c', d'] := by
  match x with
  | ⟨[_, _, _, _, _, _, _, _, _, _, _, _, _, _, _, _], _⟩ => rfl

theorem incByte_setBytes (x : Block 16) (a b c d : UInt8) :
    let y := setBytes x ctrPos [a, b, c, d]
    (y.1.getD (ctrPos + 3) 0 = d ∧ incByte y (ctrPos + 3) = setBytes x ctrPos [a, b, c, d + 1]) ∧
      (y.1.getD (ctrPos + 2) 0 = c ∧
        incByte y (ctrPos + 2) = setBytes x ctrPos [a, b, c + 1, d]) ∧
      (y.1.getD (ctrPos + 1) 0 = b ∧
        incByte y (ctrPos + 1) = setBytes x ctrPos [a, b + 1, c, d]) ∧
      incByte y ctrPos = setBytes x ctrPos [a + 1, b, c, d] := by
  match x with
  | ⟨[_, _, _, _, _, _, _, _, _, _, _, _, _, _, _, _], _⟩ =>
    exact ⟨⟨rfl, rfl⟩, ⟨rfl, rfl⟩, ⟨rfl, rfl⟩, rfl⟩

theorem beInc_setBytes (x : Block 16) (a b c d : UInt8) :
    beInc (setBytes x ctrPos [a, b, c, d]) ctrPos = setBytes x ctrPos
      (if d + 1 ≠ 0 then [a, b, c, d + 1]
        else if c + 1 ≠ 0 then [a, b, c + 1, d + 1]
        else if b + 1 ≠ 0 then [a, b + 1, c + 1, d + 1]
        else [a + 1, b + 1, c + 1, d + 1]) := by
  have h3 := (incByte_setBytes x a b c d).1.2
  have g3 := (incByte_setBytes x a b c (d + 1)).1.1
  have h2 := (incByte_setBytes x a b c (d + 1)).2.1.2
  have g2 := (incByte_setBytes x a b (c + 1) (d + 1)).2.1.1
  have h1 := (incByte_setBytes x a b (c + 1) (d + 1)).2.2.1.2
  have g1 := (incByte_setBytes x a (b + 1) (c + 1) (d + 1)).2.2.1.1
  have h0 := (incByte_setBytes x a (b + 1) (c + 1) (d + 1)).2.2.2
  simp only [beInc, h3, g3, h2, g2, h1, g1, h0, apply_ite (setBytes x ctrPos)]

theorem ofNat_succ (k : Nat) : UInt8.ofNat (k + 1) = UInt8.ofNat k + 1 := UInt8.ofNat_add k 1

theorem succ_div_byte (k : Nat) :
    (UInt8.ofNat k + 1 ≠ 0 ∧ (k + 1) / 256 = k / 256) ∨
      (UInt8.ofNat k + 1 = 0 ∧ (k + 1) / 256 = k / 256 + 1) := by
  have hzero : UInt8.ofNat k + 1 = 0 ↔ 256 ∣ k + 1 := by
    rw [← ofNat_succ, ← UInt8.toNat_inj, UInt8.toNat_ofNat', UInt8.toNat_zero]
    exact (Nat.dvd_iff_mod_eq_zero ..).symm
  rw [Nat.succ_div]
  by_cases h : 256 ∣ k + 1
  · exact .inr ⟨hzero.2 h, by rw [if_pos h]⟩
  · exact .inl ⟨mt hzero.1 h, by rw [if_neg h, Nat.add_zero]⟩

theorem counterBlock_eq (x : Block 16) (k : Nat) :
    counterBlock x k = setBytes x ctrPos [UInt8.ofNat (k / 256 / 256 / 256),
      UInt8.ofNat (k / 256 / 256), UInt8.ofNat (k / 256), UInt8.ofNat k] := by
  rw [Nat.div_div_eq_div_mul k, Nat.div_div_eq_div_mul k]
  rfl

theorem beInc_counterBlock (x : Block 16) (k : Nat) :
    beInc (counterBlock x k) ctrPos = counterBlock x (k + 1) := by
  rw [counterBlock_eq, counterBlock_eq, beInc_setBytes, ofNat_succ]
  rcases succ_div_byte k with ⟨h0, h⟩ | ⟨h0, h⟩
  · rw [if_pos h0, h]
  rw [if_neg (not_not.2 h0), h, ofNat_succ]
  rcases succ_div_byte (k / 256) with ⟨h1, h⟩ | ⟨h1, h⟩
  · rw [if_pos h1, h]
  rw [if_neg (not_not.2 h1), h, ofNat_succ]
  rcases succ_div_byte (k / 256 / 256) with ⟨h2, h⟩ | ⟨h2, h⟩
  · rw [if_pos h2, h]
  · rw [if_neg (not_not.2 h2), h, ofNat_succ]

/-- `aes_encrypt`, when the context was keyed. -/
def encryptBlock (cx : AesCtx) (x : Block 16) : Block 16 := (aesEncrypt platform cx x x).2

theorem aesEncrypt_of_validRounds {cx : AesCtx} (h : validRounds cx = true) (x out : Block 16) :
    aesEncrypt platform cx x out = (exitSuccess, encryptBlock platform cx x) := by
  rw [encryptBlock, aesEncrypt, aesEncrypt]
  split
  · rw [aesNiEncrypt, aesNiEncrypt, h]
    rfl
  · rw [aesXiEncrypt, aesXiEncrypt, h]
    rfl

/-- The key stream behind a counter block. -/
def keyStream (cx : AesCtx) (x : Block 16) (n : Nat) : UInt8 :=
  (encryptBlock platform cx (counterBlock x (n / cblkLen + 1))).1.getD (n % cblkLen) 0

/-- A context that added `n` bytes to the key stream since its counter was `base`. -/
structure Streamed (base : Block 16) (n : Nat) (ctx : CwcCtx) : Prop where
  ctrVal : ctx.ctrVal = counterBlock base ((n + 15) / cblkLen)
  encCtr : n % cblkLen ≠ 0 →
    ctx.encCtr = encryptBlock platform ctx.encCtx (counterBlock base (n / cblkLen + 1))

variable {platform}

theorem cryptByte_spec {base : Block 16} {ctx : CwcCtx} (hvalid : validRounds ctx.encCtx = true)
    (h : Streamed platform base n ctx) (done : List UInt8) (b : UInt8) :
    ∃ ctrVal encCtr, CwcCtx.cryptByte platform ((ctx, n % cblkLen), done) b =
        (({ ctx with ctrVal := ctrVal, encCtr := encCtr }, (n + 1) % cblkLen),
          done ++ [b ^^^ keyStream platform ctx.encCtx base n]) ∧
      Streamed platform base (n + 1) { ctx with ctrVal := ctrVal, encCtr := encCtr } := by
  have hmod : (n % cblkLen + 1) % cblkLen = (n + 1) % cblkLen := Nat.mod_add_mod ..
  by_cases hn : n % cblkLen = 0
  · refine ⟨beInc ctx.ctrVal ctrPos,
      encryptBlock platform ctx.encCtx (beInc ctx.ctrVal ctrPos), ?_⟩
    have hctr : beInc ctx.ctrVal ctrPos = counterBlock base (n / cblkLen + 1) := by
      rw [h.ctrVal, beInc_counterBlock]
      congr 1
      unfold cblkLen at *
      omega
    refine ⟨?_, ?_, fun _ => ?_⟩
    · simp only [CwcCtx.cryptByte, if_pos hn, CwcCtx.nextBlock, keyStream,
        aesEncrypt_of_validRounds platform hvalid, hmod, hctr]
    · dsimp only
      rw [hctr]
      congr 1
      unfold cblkLen at *
      omega
    · dsimp only
      rw [hctr]
      congr 2
      unfold cblkLen at *
      omega
  · refine ⟨ctx.ctrVal, ctx.encCtr, ?_, ?_, fun hnext => ?_⟩
    · simp only [CwcCtx.cryptByte, if_neg hn, keyStream, hmod]
      rw [← h.encCtr hn]
    · rw [h.ctrVal]
      congr 1
      unfold cblkLen at *
      omega
    · rw [h.encCtr hn]
      congr 2
      unfold cblkLen at *
      omega

theorem foldl_cryptByte_spec {base : Block 16} {ctx : CwcCtx}
    (hvalid : validRounds ctx.encCtx = true) (h : Streamed platform base n ctx)
    (done data : List UInt8) :
    ∃ ctrVal encCtr, data.foldl (CwcCtx.cryptByte platform) ((ctx, n % cblkLen), done) =
        (({ ctx with ctrVal := ctrVal, encCtr := encCtr }, (n + data.length) % cblkLen),
          done ++ xorStream (keyStream platform ctx.encCtx base) n data) ∧
      Streamed platform base (n + data.length)
        { ctx with ctrVal := ctrVal, encCtr := encCtr } := by
  induction data generalizing n ctx done with
  | nil => exact ⟨ctx.ctrVal, ctx.encCtr, by rw [xorStream, List.append_nil]; rfl, h⟩
  | cons b data ih =>
    obtain ⟨ctrVal, encCtr, heq, hstep⟩ := cryptByte_spec hvalid h done b
    obtain ⟨ctrVal', encCtr', hrun, hstream⟩ :=
      ih (show validRounds ({ ctx with ctrVal := ctrVal, encCtr := encCtr } : CwcCtx).encCtx = true
          from hvalid) hstep
        (done ++ [b ^^^ keyStream platform ctx.encCtx base n])
    refine ⟨ctrVal', encCtr', ?_, ?_⟩
    · rw [List.foldl_cons, heq, hrun, xorStream, List.length_cons, List.append_assoc,
        List.singleton_append, Nat.add_assoc, Nat.add_comm 1]
    · rw [List.length_cons, Nat.add_comm data.length, ← Nat.add_assoc]
      exact hstream

/-- Data of a call is added to the key stream from where the last call left it. -/
theorem cwcCryptData_spec {base : Block 16} {ctx : CwcCtx}
    (hvalid : validRounds ctx.encCtx = true) (h : Streamed platform base n ctx)
    (hcount : ctx.txtCcnt = UInt32.ofNat n) (addr : Int) (data : List UInt8) :
    ∃ ctrVal encCtr, cwcCryptData platform addr data ctx =
        (xorStream (keyStream platform ctx.encCtx base) n data,
          { ctx with
            ctrVal := ctrVal
            encCtr := encCtr
            txtCcnt := UInt32.ofNat (n + data.length) }) ∧
      Streamed platform base (n + data.length)
        { ctx with
          ctrVal := ctrVal
          encCtr := encCtr
          txtCcnt := UInt32.ofNat (n + data.length) } := by
  have hpos : ctx.txtCcnt.toNat % cblkLen = n % cblkLen := by
    rw [hcount, UInt32.toNat_ofNat']
    exact Nat.mod_mod_of_dvd n (by decide)
  obtain ⟨ctrVal, encCtr, hrun, hstream⟩ := foldl_cryptByte_spec hvalid h [] data
  refine ⟨ctrVal, encCtr, ?_, hstream.ctrVal, hstream.encCtr⟩
  rw [cwcCryptData_eq, hpos, hrun]
  dsimp only
  rw [hcount, count, ← UInt32.ofNat_add, List.nil_append]

end Native

end AcOpenServer
