import AcOpenServer.Library.Mealy
import AcOpenServer.Native.Cwc.Absorb
import AcOpenServer.Native.Cwc.Stream

namespace AcOpenServer
open Library
set_option autoImplicit true

namespace Native

def Hash.zero : Hash := ⟨Vector.replicate 4 0, Vector.replicate 4 0⟩

/-- What the library was given of a message so far: the header, the text for the tag, and how
much text was added to the key stream. -/
structure Message where
  hdr : List UInt8
  text : List UInt8
  crypted : Nat
  deriving DecidableEq, Repr

namespace Message

def empty : Message := ⟨[], [], 0⟩

/-- The bytes that were hashed or wait in the buffer: the text starts a new block. -/
def absorbed (m : Message) : List UInt8 :=
  if m.text = [] then m.hdr else padTo ablkLen 0 m.hdr ++ m.text

/-- The bytes that are hashed in all, apart from the lengths. -/
def padded (m : Message) : List UInt8 := padTo ablkLen 0 m.hdr ++ padTo ablkLen 0 m.text

end Message

/-- The calls that give data to a message, with the distance of the data from the context. -/
inductive MessageCall where
  | authHeader (addr : Int) (hdr : List UInt8)
  | authData (addr : Int) (data : List UInt8)
  | cryptData (addr : Int) (data : List UInt8)
  | encrypt (addr : Int) (data : List UInt8)
  | decrypt (addr : Int) (data : List UInt8)
  deriving DecidableEq, Repr

namespace MessageCall

/-- What a call does to a message, and the bytes it returns, over a key stream. -/
def apply (ks : Nat → UInt8) (m : Message) : MessageCall → List UInt8 × Message
  | authHeader _ hdr => ([], { m with hdr := m.hdr ++ hdr })
  | authData _ data => ([], { m with text := m.text ++ data })
  | cryptData _ data =>
    (xorStream ks m.crypted data, { m with crypted := m.crypted + data.length })
  | encrypt _ data =>
    let out := xorStream ks m.crypted data
    (out, { m with text := m.text ++ out, crypted := m.crypted + data.length })
  | decrypt _ data =>
    (xorStream ks m.crypted data,
      { m with text := m.text ++ data, crypted := m.crypted + data.length })

def data : MessageCall → List UInt8
  | authHeader _ data | authData _ data | cryptData _ data | encrypt _ data | decrypt _ data => data

/-- Headers come before the text, and nothing outgrows the counts of the library. -/
def Fits (m : Message) (call : MessageCall) : Prop :=
  call.data.length < 2 ^ 31 ∧
    match call with
    | authHeader _ hdr => m.text = [] ∧ m.hdr.length + hdr.length < 2 ^ 32
    | authData _ data | encrypt _ data | decrypt _ data => m.text.length + data.length < 2 ^ 32
    | cryptData _ _ => True

instance (m : Message) (call : MessageCall) : Decidable (call.Fits m) := by
  unfold Fits
  cases call <;> infer_instance

variable (platform : Platform)

def exec (ctx : CwcCtx) : MessageCall → List UInt8 × CwcCtx
  | authHeader addr hdr => ([], cwcAuthHeader platform addr hdr ctx)
  | authData addr data => ([], cwcAuthData platform addr data ctx)
  | cryptData addr data => cwcCryptData platform addr data ctx
  | encrypt addr data => cwcEncrypt platform addr data ctx
  | decrypt addr data => cwcDecrypt platform addr data ctx

end MessageCall

variable (platform : Platform)

/-- A context hashed the whole blocks of some bytes, and has the others in its buffer. -/
structure Absorbed (bs : List UInt8) (ctx : CwcCtx) : Prop where
  buffer : ctx.cwcBuf.1.take (bs.length % ablkLen) = (cutInto ablkLen bs).rest
  hash : ctx.hash = hashBlocks platform.order ctx.zval .zero (cutInto ablkLen bs).blocks

/-- A context stands for a message, under a key and the first bytes of the counter block. -/
structure Represents (encCtx : AesCtx) (zval : Words 4) (base : Block 16) (m : Message)
    (ctx : CwcCtx) : Prop where
  encCtx : ctx.encCtx = encCtx
  zval : ctx.zval = zval
  hdr_lt : m.hdr.length < 2 ^ 32
  text_lt : m.text.length < 2 ^ 32
  hdrCnt : ctx.hdrCnt = count m.hdr
  txtAcnt : ctx.txtAcnt = count m.text
  txtCcnt : ctx.txtCcnt = UInt32.ofNat m.crypted
  absorbed : Absorbed platform m.absorbed ctx
  streamed : Streamed platform base m.crypted ctx

variable {platform}

theorem Absorbed.fed {ctx : CwcCtx} (h : Absorbed platform bs ctx) :
    Fed platform { ctx with hash := .zero } bs (ctx, bs.length % ablkLen) :=
  ⟨(length_rest_cut (by decide) bs).symm, h.buffer, by rw [← h.hash]⟩

theorem Fed.absorbed {ctx next : CwcCtx} {pos : Nat}
    (h : Fed platform { ctx with hash := .zero } bs (next, pos)) :
    Absorbed platform bs next ∧ next = { ctx with cwcBuf := next.cwcBuf, hash := next.hash } := by
  have hpos : pos = bs.length % ablkLen := h.pos.trans (length_rest_cut (by decide) bs)
  have hctx := h.ctx
  have hzval := congrArg CwcCtx.zval hctx
  have hhash := congrArg CwcCtx.hash hctx
  dsimp only at hctx hzval hhash
  rw [← hhash] at hctx
  rw [← hzval] at hhash
  exact ⟨⟨hpos ▸ h.buffer, hhash⟩, hctx⟩

theorem absorbData_spec {ctx : CwcCtx} (h : Absorbed platform bs ctx) (addr : Int)
    (data : List UInt8) :
    ∃ cwcBuf hash, absorbData platform addr data (bs.length % ablkLen) ctx =
        { ctx with cwcBuf := cwcBuf, hash := hash } ∧
      Absorbed platform (bs ++ data) { ctx with cwcBuf := cwcBuf, hash := hash } := by
  obtain ⟨next, hfed⟩ := h.fed.absorbData addr data
  obtain ⟨habsorbed, heq⟩ := hfed.absorbed
  exact ⟨_, _, heq, heq ▸ habsorbed⟩

theorem padBlock_spec {ctx : CwcCtx} (h : Absorbed platform bs ctx) :
    ∃ cwcBuf hash, ctx.padBlock platform (bs.length % ablkLen) =
        { ctx with cwcBuf := cwcBuf, hash := hash } ∧
      Absorbed platform (padTo ablkLen 0 bs) { ctx with cwcBuf := cwcBuf, hash := hash } := by
  obtain ⟨habsorbed, heq⟩ := h.fed.padBlock.absorbed
  exact ⟨_, _, heq, heq ▸ habsorbed⟩

theorem count_append (as bs : List UInt8) : count (as ++ bs) = count as + count bs := by
  rw [count, count, count, List.length_append, UInt32.ofNat_add]

theorem toNat_count {bs : List UInt8} (h : bs.length < 2 ^ 32) : (count bs).toNat = bs.length :=
  UInt32.toNat_ofNat_of_lt' h

theorem count_eq_zero {bs : List UInt8} (h : bs.length < 2 ^ 32) : count bs = 0 ↔ bs = [] := by
  rw [← UInt32.toNat_inj, toNat_count h, UInt32.toNat_zero, List.length_eq_zero_iff]

namespace Represents

variable {encCtx : AesCtx} {zval : Words 4} {base : Block 16} {m : Message} {ctx : CwcCtx}

theorem authHeader (h : Represents platform encCtx zval base m ctx) (htext : m.text = [])
    (addr : Int) (hdr : List UInt8) (hlen : m.hdr.length + hdr.length < 2 ^ 32) :
    Represents platform encCtx zval base { m with hdr := m.hdr ++ hdr }
      (cwcAuthHeader platform addr hdr ctx) := by
  have habsorbed (bs : List UInt8) : ({ m with hdr := bs } : Message).absorbed = bs := if_pos htext
  rw [cwcAuthHeader]
  split
  · next hnil =>
    rw [List.length_eq_zero_iff.1 hnil, List.append_nil]
    exact h
  · have hstart : Absorbed platform m.hdr ctx := by
      rw [← habsorbed m.hdr]
      exact h.absorbed
    obtain ⟨cwcBuf, hash, heq, hnext⟩ := absorbData_spec hstart addr hdr
    have hpos : ctx.hdrCnt.toNat % ablkLen = m.hdr.length % ablkLen := by
      rw [h.hdrCnt, toNat_count (by omega)]
    rw [hpos, heq]
    refine ⟨h.encCtx, h.zval, ?_, h.text_lt, ?_, h.txtAcnt, h.txtCcnt, ?_,
      ⟨h.streamed.ctrVal, h.streamed.encCtr⟩⟩
    · rw [List.length_append]
      exact hlen
    · dsimp only
      rw [h.hdrCnt, count_append]
    · rw [habsorbed]
      exact ⟨hnext.buffer, hnext.hash⟩

theorem startText (h : Represents platform encCtx zval base m ctx) :
    ∃ cwcBuf hash, (if ctx.txtAcnt = 0 then ctx.padBlock platform (ctx.hdrCnt.toNat % ablkLen)
        else ctx) = { ctx with cwcBuf := cwcBuf, hash := hash } ∧
      Absorbed platform (padTo ablkLen 0 m.hdr ++ m.text)
        { ctx with cwcBuf := cwcBuf, hash := hash } := by
  have hzero : ctx.txtAcnt = 0 ↔ m.text = [] := by rw [h.txtAcnt, count_eq_zero h.text_lt]
  have hpos : ctx.hdrCnt.toNat = m.hdr.length := by rw [h.hdrCnt, toNat_count h.hdr_lt]
  have hstart := h.absorbed
  rw [Message.absorbed] at hstart
  split at hstart
  · next hnil =>
    rw [if_pos (hzero.2 hnil), hnil, List.append_nil, hpos]
    exact padBlock_spec hstart
  · next hnil =>
    rw [if_neg (mt hzero.1 hnil)]
    exact ⟨ctx.cwcBuf, ctx.hash, rfl, hstart⟩

theorem authData (h : Represents platform encCtx zval base m ctx) (addr : Int) (data : List UInt8)
    (hlen : m.text.length + data.length < 2 ^ 32) :
    Represents platform encCtx zval base { m with text := m.text ++ data }
      (cwcAuthData platform addr data ctx) := by
  rw [cwcAuthData]
  split
  · next hnil =>
    rw [List.length_eq_zero_iff.1 hnil, List.append_nil]
    exact h
  · next hne =>
    obtain ⟨_, _, heq, hstart⟩ := h.startText
    obtain ⟨cwcBuf, hash, hrun, hnext⟩ := absorbData_spec hstart addr data
    have hpos : ctx.txtAcnt.toNat % ablkLen =
        (padTo ablkLen 0 m.hdr ++ m.text).length % ablkLen := by
      obtain ⟨k, hk⟩ := dvd_length_padTo (by decide : 0 < ablkLen) 0 m.hdr
      rw [h.txtAcnt, toNat_count (by omega), List.length_append, hk, Nat.mul_add_mod]
    dsimp only
    rw [heq, hpos, hrun]
    refine ⟨h.encCtx, h.zval, h.hdr_lt, ?_, h.hdrCnt, ?_, h.txtCcnt, ?_,
      ⟨h.streamed.ctrVal, h.streamed.encCtr⟩⟩
    · rw [List.length_append]
      exact hlen
    · dsimp only
      rw [h.txtAcnt, count_append]
    · have habsorbed : ({ m with text := m.text ++ data } : Message).absorbed =
          padTo ablkLen 0 m.hdr ++ m.text ++ data := by
        rw [Message.absorbed, if_neg, List.append_assoc]
        intro hnil
        exact hne (List.length_eq_zero_iff.2 (List.append_eq_nil_iff.1 hnil).2)
      rw [habsorbed]
      exact ⟨hnext.buffer, hnext.hash⟩

theorem cryptData (h : Represents platform encCtx zval base m ctx)
    (hvalid : validRounds encCtx = true) (addr : Int) (data : List UInt8) :
    (cwcCryptData platform addr data ctx).1 =
        xorStream (keyStream platform encCtx base) m.crypted data ∧
      Represents platform encCtx zval base { m with crypted := m.crypted + data.length }
        (cwcCryptData platform addr data ctx).2 := by
  rw [← h.encCtx] at hvalid
  obtain ⟨ctrVal, encCtr, heq, hstream⟩ := cwcCryptData_spec hvalid h.streamed h.txtCcnt addr data
  rw [heq]
  exact ⟨by rw [h.encCtx], h.encCtx, h.zval, h.hdr_lt, h.text_lt, h.hdrCnt, h.txtAcnt, rfl,
    ⟨h.absorbed.buffer, h.absorbed.hash⟩, hstream⟩

/-- Every call does to the context what it does to the message. -/
theorem exec (h : Represents platform encCtx zval base m ctx) (hvalid : validRounds encCtx = true)
    (call : MessageCall) (hfits : call.Fits m) :
    (call.exec platform ctx).1 = (call.apply (keyStream platform encCtx base) m).1 ∧
      Represents platform encCtx zval base (call.apply (keyStream platform encCtx base) m).2
        (call.exec platform ctx).2 := by
  obtain ⟨-, hfits⟩ := hfits
  cases call with
  | authHeader addr hdr => exact ⟨rfl, h.authHeader hfits.1 addr hdr hfits.2⟩
  | authData addr data => exact ⟨rfl, h.authData addr data hfits⟩
  | cryptData addr data => exact h.cryptData hvalid addr data
  | encrypt addr data =>
    obtain ⟨hout, hcrypt⟩ := h.cryptData hvalid addr data
    have hauth := hcrypt.authData addr (cwcCryptData platform addr data ctx).1
      (by rw [hout, length_xorStream]; exact hfits)
    rw [hout] at hauth
    refine ⟨hout, ?_⟩
    show Represents platform encCtx zval base _ (cwcAuthData platform addr
      (cwcCryptData platform addr data ctx).1 (cwcCryptData platform addr data ctx).2)
    rw [hout]
    exact hauth
  | decrypt addr data => exact (h.authData addr data hfits).cryptData hvalid addr data

end Represents

/-- The counter block of a message before its count. -/
def counterBase (iv : List UInt8) : Block 16 :=
  setBytes (setByte (Block.zeros 16) 0 0x80) 1 (iv.take 11)

theorem val_setBytes (x : Block n) {i : Nat} (bs : List UInt8) (h : i + bs.length ≤ n) :
    (setBytes x i bs).1 = x.1.take i ++ (bs ++ x.1.drop (i + bs.length)) := by
  induction bs generalizing x i with
  | nil => exact (List.take_append_drop i x.1).symm
  | cons b bs ih =>
    rw [List.length_cons] at h
    have hdrop : (setByte x i b).1.drop (i + 1 + bs.length) = x.1.drop (i + (bs.length + 1)) := by
      rw [Nat.add_assoc, Nat.add_comm 1]
      exact List.drop_set_of_lt (by omega)
    rw [setBytes, ih _ (by omega), take_setByte (by omega), hdrop, List.length_cons,
      List.append_assoc, List.singleton_append, List.cons_append]

theorem val_counter (x : Block 16) {iv : List UInt8} (hiv : 11 ≤ iv.length) (counter : List UInt8)
    (hcounter : counter.length = 4) :
    (setBytes (setBytes (setByte x 0 0x80) 1 (iv.take 11)) ctrPos counter).1 =
      0x80 :: iv.take 11 ++ counter := by
  have hlen : (iv.take 11).length = 11 := by rw [List.length_take, Nat.min_eq_left hiv]
  have hfirst : (setByte x 0 0x80).1.take 1 = [0x80] := take_setByte (by decide) _
  have hinner := val_setBytes (setByte x 0 0x80) (i := 1) (iv.take 11) (by rw [hlen]; decide)
  rw [hfirst, hlen, ← List.append_assoc] at hinner
  have houter := val_setBytes (setBytes (setByte x 0 0x80) 1 (iv.take 11)) (i := ctrPos) counter
    (by rw [hcounter]; decide)
  rw [houter, hinner, List.take_left' (by rw [List.length_append, hlen]; rfl), hcounter,
    List.drop_of_length_le, List.append_nil]
  · rfl
  · rw [← hinner]
    exact (setBytes (setByte x 0 0x80) 1 (iv.take 11)).2.le

variable (platform) in
/-- Nothing of an earlier message is left. -/
theorem represents_cwcInitMessage (ctx : CwcCtx) {iv : List UInt8} (hiv : 11 ≤ iv.length) :
    Represents platform ctx.encCtx ctx.zval (counterBase iv) .empty (cwcInitMessage iv ctx) :=
  ⟨rfl, rfl, (by decide : 0 < 2 ^ 32), (by decide : 0 < 2 ^ 32), rfl, rfl, rfl, ⟨rfl, rfl⟩,
    Subtype.ext ((val_counter ctx.ctrVal hiv _ rfl).trans
      (val_counter (Block.zeros 16) hiv [0, 0, 0, 0] rfl).symm), fun h => (h rfl).elim⟩

theorem hashBlocks_order (order : ByteOrder) (zval : Words 4) (hash : Hash)
    (blocks : List (List UInt8)) :
    hashBlocks order zval hash blocks = hashBlocks .littleEndian zval hash blocks := by
  have hstep (order : ByteOrder) (block : List UInt8) (hash : Hash) :
      cwcIterate order block zval hash = cwcIterate .littleEndian block zval hash := by
    rw [cwcIterate, cwcIterate, cwcData_eq]
  simp only [hashBlocks, hstep order]

theorem value_zero : value Hash.zero.hash = 0 := by decide

/-- The polynomial with the numbers of the blocks as its coefficients, at the hash key. -/
def hashNumber (z : Nat) (blocks : List (List UInt8)) : Nat :=
  blocks.foldl (fun h block => (blockValue block + h) * z) 0

/-- Hashing blocks evaluates their polynomial, for a hash key that never makes the lost carry. -/
theorem hashBlocks_modEq (order : ByteOrder) {zval : Words 4}
    (hz : value zval < 2 ^ 127 - 2 ^ 96) (blocks : List (List UInt8)) :
    value (hashBlocks order zval .zero blocks).hash ≤ 2 ^ 127 ∧
      value (hashBlocks order zval .zero blocks).hash ≡
        hashNumber (value zval) blocks [MOD mersenne 127] := by
  induction blocks using List.reverseRecOn with
  | nil =>
    rw [hashBlocks, hashNumber, List.foldl_nil, List.foldl_nil, value_zero]
    exact ⟨Nat.zero_le _, Nat.ModEq.refl 0⟩
  | append_singleton blocks block ih =>
    obtain ⟨hle, hmod⟩ := ih
    have hz' : value zval < 2 ^ 127 := by omega
    rw [hashBlocks, hashNumber, List.foldl_append, List.foldl_append, List.foldl_cons,
      List.foldl_cons, List.foldl_nil, List.foldl_nil, ← hashBlocks, ← hashNumber]
    refine ⟨value_cwcIterate_le order block hle hz', ?_⟩
    calc value (cwcIterate order block zval (hashBlocks order zval .zero blocks)).hash
        ≡ (blockValue block + value (hashBlocks order zval .zero blocks).hash) * value zval
            [MOD mersenne 127] :=
          cwcIterate_modEq order block hle hz' (foldsInto128_of_lt hle hz)
      _ ≡ (blockValue block + hashNumber (value zval) blocks) * value zval [MOD mersenne 127] :=
          (hmod.add_left _).mul_right _

namespace Message

/-- The hash of a message with its lengths. -/
def hash (zval : Words 4) (m : Message) : Words 4 :=
  reduceTop (add4 (hashBlocks .littleEndian zval .zero (cutInto ablkLen m.padded).blocks).hash
    #v[0, count m.hdr, 0, count m.text])

theorem hash_modEq {zval : Words 4} (hz : value zval < 2 ^ 127 - 2 ^ 96) {m : Message}
    (hhdr : m.hdr.length < 2 ^ 32) (htext : m.text.length < 2 ^ 32) :
    value (m.hash zval) ≡ hashNumber (value zval) (cutInto ablkLen m.padded).blocks +
      (m.hdr.length * 2 ^ 64 + m.text.length) [MOD mersenne 127] := by
  obtain ⟨hle, hmod⟩ := hashBlocks_modEq .littleEndian hz (cutInto ablkLen m.padded).blocks
  have hlengths : value #v[0, count m.hdr, 0, count m.text] =
      m.hdr.length * 2 ^ 64 + m.text.length := by
    rw [value_vec, toNat_count hhdr, toNat_count htext, UInt32.toNat_zero]
    omega
  rw [hash, value_reduceTop, value_add4, hlengths, Nat.mod_eq_of_lt (by omega)]
  exact (Mersenne.fold_modEq 127 _).trans (hmod.add_right _)

variable (platform) in
/-- The tag of a message, before it is cut to the length that is asked for. -/
def tag (encCtx : AesCtx) (zval : Words 4) (base : Block 16) (m : Message) : List UInt8 :=
  List.zipWith (· ^^^ ·) (encryptBlock platform encCtx (beBytes platform.order (m.hash zval))).1
    (encryptBlock platform encCtx (counterBlock base 0)).1

/-- The code of `cwc_compute_tag`: a tag without a ciphertext is only worth a warning. -/
def code (m : Message) : RetType :=
  if m.crypted = m.text.length then .good else if m.crypted = 0 then .warn else .error

end Message

theorem map_range_getD (x y : Block 16) (h : n ≤ 16) :
    ((List.range n).map fun pos => x.1.getD pos 0 ^^^ y.1.getD pos 0) =
      (List.zipWith (· ^^^ ·) x.1 y.1).take n := by
  apply List.ext_getElem
  · rw [List.length_map, List.length_range, List.length_take, List.length_zipWith, x.2, y.2]
    omega
  · intro i hi _
    rw [List.length_map, List.length_range] at hi
    have hx : i < x.1.length := by rw [x.2]; omega
    have hy : i < y.1.length := by rw [y.2]; omega
    rw [List.getElem_map, List.getElem_range, List.getElem_take, List.getElem_zipWith,
      List.getD_eq_getElem _ _ hx, List.getD_eq_getElem _ _ hy]

/-- The block of the tag is hashed to the end, whether there is text or not. -/
theorem Represents.finish {encCtx : AesCtx} {zval : Words 4} {base : Block 16} {m : Message}
    {ctx : CwcCtx} (h : Represents platform encCtx zval base m ctx) :
    ∃ cwcBuf hash,
      (let first :=
        if ctx.txtAcnt = 0 then ctx.padBlock platform (ctx.hdrCnt.toNat % ablkLen) else ctx
      first.padBlock platform (first.txtAcnt.toNat % ablkLen)) =
        { ctx with cwcBuf := cwcBuf, hash := hash } ∧
      hash = hashBlocks .littleEndian zval .zero (cutInto ablkLen m.padded).blocks := by
  obtain ⟨_, _, hstart, habsorbed⟩ := h.startText
  have hpos : ctx.txtAcnt.toNat % ablkLen = (padTo ablkLen 0 m.hdr ++ m.text).length % ablkLen := by
    obtain ⟨k, hk⟩ := dvd_length_padTo (by decide : 0 < ablkLen) 0 m.hdr
    rw [h.txtAcnt, toNat_count h.text_lt, List.length_append, hk, Nat.mul_add_mod]
  obtain ⟨cwcBuf, hash, hpad, hlast⟩ := padBlock_spec habsorbed
  dsimp only
  rw [hstart, hpos]
  refine ⟨cwcBuf, hash, hpad, ?_⟩
  have hhash := hlast.hash
  rw [padTo_append_of_dvd (dvd_length_padTo (by decide) _ _), ← Message.padded,
    hashBlocks_order] at hhash
  dsimp only at hhash
  rw [hhash, h.zval]

theorem Represents.counts {encCtx : AesCtx} {zval : Words 4} {base : Block 16} {m : Message}
    {ctx : CwcCtx} (h : Represents platform encCtx zval base m ctx)
    (hcrypted : m.crypted < 2 ^ 32) :
    (ctx.txtCcnt = ctx.txtAcnt ↔ m.crypted = m.text.length) ∧
      (0 < ctx.txtCcnt ↔ 0 < m.crypted) := by
  have hccnt : ctx.txtCcnt.toNat = m.crypted := by
    rw [h.txtCcnt, UInt32.toNat_ofNat_of_lt' hcrypted]
  have hacnt : ctx.txtAcnt.toNat = m.text.length := by rw [h.txtAcnt, toNat_count h.text_lt]
  rw [← UInt32.toNat_inj, hccnt, hacnt, UInt32.lt_iff_toNat_lt, hccnt]
  exact ⟨.rfl, .rfl⟩

theorem Represents.computeTag_of_counts {encCtx : AesCtx} {zval : Words 4} {base : Block 16}
    {m : Message} {ctx : CwcCtx} (h : Represents platform encCtx zval base m ctx)
    (hvalid : validRounds encCtx = true) {tag : List UInt8} (htag : tag.length ≤ 16)
    (hcounts : ¬(ctx.txtAcnt ≠ ctx.txtCcnt ∧ 0 < ctx.txtCcnt)) :
    ∃ next, cwcComputeTag platform tag ctx =
        (if ctx.txtCcnt = ctx.txtAcnt then .good else .warn,
          (m.tag platform encCtx zval base).take tag.length, next) ∧
      next.encCtx = encCtx ∧ next.zval = zval := by
  obtain ⟨cwcBuf, hash, hfinish, hhash⟩ := h.finish
  have hctr : setBytes ctx.ctrVal ctrPos [0, 0, 0, 0] = counterBlock base 0 := by
    rw [h.streamed.ctrVal, counterBlock, setBytes_setBytes]
    rfl
  have hsum : reduceTop (add4 hash.hash #v[0, ctx.hdrCnt, 0, ctx.txtAcnt]) = m.hash zval := by
    rw [hhash, h.hdrCnt, h.txtAcnt]
    rfl
  have hvalid' : validRounds ctx.encCtx = true := by rw [h.encCtx]; exact hvalid
  rw [cwcComputeTag, if_neg hcounts]
  dsimp only at hfinish ⊢
  rw [hfinish]
  dsimp only
  rw [hsum, hctr]
  simp only [aesEncrypt_of_validRounds platform hvalid']
  refine ⟨_, Prod.ext rfl (Prod.ext ?_ rfl), h.encCtx, h.zval⟩
  dsimp only
  rw [map_range_getD _ _ htag, h.encCtx]
  rfl

/-- A refused tag leaves everything as it was. -/
theorem Represents.computeTag {encCtx : AesCtx} {zval : Words 4} {base : Block 16} {m : Message}
    {ctx : CwcCtx} (h : Represents platform encCtx zval base m ctx)
    (hvalid : validRounds encCtx = true) (hcrypted : m.crypted < 2 ^ 32) {tag : List UInt8}
    (htag : tag.length ≤ 16) :
    ∃ next, cwcComputeTag platform tag ctx = (m.code,
        if m.code = .error then tag else (m.tag platform encCtx zval base).take tag.length, next) ∧
      next.encCtx = encCtx ∧ next.zval = zval ∧ (m.code = .error → next = ctx) := by
  obtain ⟨hsame, hpos⟩ := h.counts hcrypted
  rw [Message.code]
  by_cases heq : m.crypted = m.text.length
  · have hcounts := h.computeTag_of_counts hvalid htag fun hne => hne.1 (hsame.2 heq).symm
    rw [if_pos (hsame.2 heq)] at hcounts
    obtain ⟨next, hrun, hcx, hz⟩ := hcounts
    rw [if_pos heq, if_neg (by decide)]
    exact ⟨next, hrun, hcx, hz, fun hcode => by cases hcode⟩
  · by_cases hzero : m.crypted = 0
    · have hcounts := h.computeTag_of_counts hvalid htag fun hne =>
        (hpos.1 hne.2).ne' hzero
      rw [if_neg (mt hsame.1 heq)] at hcounts
      obtain ⟨next, hrun, hcx, hz⟩ := hcounts
      rw [if_neg heq, if_pos hzero, if_neg (by decide)]
      exact ⟨next, hrun, hcx, hz, fun hcode => by cases hcode⟩
    · have herror : ctx.txtAcnt ≠ ctx.txtCcnt ∧ 0 < ctx.txtCcnt :=
        ⟨fun hsum => heq (hsame.1 hsum.symm), hpos.2 (Nat.pos_of_ne_zero hzero)⟩
      rw [cwcComputeTag, if_pos herror, if_neg heq, if_neg hzero]
      exact ⟨ctx, rfl, h.encCtx, h.zval, fun _ => rfl⟩

end Native

end AcOpenServer
