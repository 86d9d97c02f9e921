import AcOpenServer.Crypto.Cipher
import AcOpenServer.Native.Aes.AesNi
import AcOpenServer.Native.Cwc.Arithmetic

namespace AcOpenServer
open Library
set_option autoImplicit true

namespace Native

/-- `RETURN_GOOD`, `RETURN_WARN` and `RETURN_ERROR`. -/
inductive RetType where
  | good
  | warn
  | error
  deriving DecidableEq, Repr

def RetType.toInt : RetType → Int
  | .good => 0
  | .warn => 1
  | .error => -1

/-- `cwc_ctx`. -/
structure CwcCtx where
  ctrVal : Block 16
  encCtr : Block 16
  cwcBuf : Block 16
  encCtx : AesCtx
  zval : Words 4
  hash : Hash
  hdrCnt : UInt32
  txtCcnt : UInt32
  txtAcnt : UInt32
  deriving DecidableEq

def cblkLen : Nat := 16

def ablkLen : Nat := 12

def ctrPos : Nat := 12

/-- `BUF_INC`, the bytes of a `cwc_unit_t`. -/
def bufInc : Nat := 4

/-- A byte of a buffer overwritten. -/
def setByte (x : Block n) (i : Nat) (b : UInt8) : Block n :=
  ⟨x.1.set i b, (List.length_set ..).trans x.2⟩

/-- Bytes of a buffer overwritten one after another from index `i` on. -/
def setBytes (x : Block n) (i : Nat) : List UInt8 → Block n
  | [] => x
  | b :: bs => setBytes (setByte x i b) (i + 1) bs

def incByte (x : Block 16) (i : Nat) : Block 16 := setByte x i (x.1.getD i 0 + 1)

/-- `be_inc` on an array of bytes. -/
def beInc (x : Block 16) (n : Nat) : Block 16 :=
  let x := incByte x (n + 3)
  if x.1.getD (n + 3) 0 ≠ 0 then x
  else
    let x := incByte x (n + 2)
    if x.1.getD (n + 2) 0 ≠ 0 then x
    else
      let x := incByte x (n + 1)
      if x.1.getD (n + 1) 0 ≠ 0 then x else incByte x n

/-- The words of a buffer in big-endian order, as `bswap32_block` leaves them on a
little-endian platform. -/
def beWords (order : ByteOrder) (bytes : List UInt8) : Words 4 :=
  match order with
  | .littleEndian => Vector.ofFn fun i => bswap32 ((blockIn order bytes).get i)
  | .bigEndian => blockIn order bytes

/-- The bytes of words in big-endian order. -/
def beBytes (order : ByteOrder) (w : Words 4) : Block 16 :=
  match order with
  | .littleEndian => stateOut order (Vector.ofFn fun i => bswap32 (w.get i))
  | .bigEndian => stateOut order w

/-- The pointer to the data, as far as the loops look at it: its distance from a buffer of the
context. -/
def isAligned (addr : Int) (bPos : Nat) : Bool := (addr - bPos) % bufInc = 0

variable (platform : Platform)

namespace CwcCtx

def zero : CwcCtx where
  ctrVal := Block.zeros 16
  encCtr := Block.zeros 16
  cwcBuf := Block.zeros 16
  encCtx := ⟨Vector.replicate 60 0, Vector.replicate 4 0⟩
  zval := Vector.replicate 4 0
  hash := ⟨Vector.replicate 4 0, Vector.replicate 4 0⟩
  hdrCnt := 0
  txtCcnt := 0
  txtAcnt := 0

/-- `do_cwc` on the buffer of the context. -/
def doCwc (ctx : CwcCtx) : CwcCtx :=
  { ctx with hash := cwcIterate platform.order ctx.cwcBuf.1 ctx.zval ctx.hash }

/-- A byte written to the buffer of the context. -/
def putByte (ctx : CwcCtx) (bPos : Nat) (b : UInt8) : CwcCtx :=
  { ctx with cwcBuf := setByte ctx.cwcBuf bPos b }

/-- Bytes written to the buffer of the context. -/
def putBytes (ctx : CwcCtx) (bPos : Nat) (bs : List UInt8) : CwcCtx :=
  { ctx with cwcBuf := setBytes ctx.cwcBuf bPos bs }

/-- The loops that pad the buffer with zeros and hash it. -/
def padBlock (ctx : CwcCtx) (pos : Nat) : CwcCtx :=
  if pos = 0 then ctx
  else (ctx.putBytes pos (List.replicate (ablkLen - pos) 0)).doCwc platform

/-- The counter moved on, and encrypted. -/
def nextBlock (ctx : CwcCtx) : CwcCtx :=
  let ctrVal := beInc ctx.ctrVal ctrPos
  { ctx with
    ctrVal := ctrVal
    encCtr := (aesEncrypt platform ctx.encCtx ctrVal ctx.encCtr).2 }

end CwcCtx

/-- `beyond` is what lies behind the key in memory. -/
def cwcInitAndKey (beyond key : List UInt8) (ctx : CwcCtx) : RetType × CwcCtx :=
  if key.length ≠ 16 ∧ key.length ≠ 24 ∧ key.length ≠ 32 then (.error, ctx)
  else
    let ctx := CwcCtx.zero
    let encCtx := (aesEncryptKey platform beyond key key.length ctx.encCtx).2
    let zv := setByte (Block.zeros 16) 0 0xc0
    let zv := (aesEncrypt platform encCtx zv zv).2
    let zv := setByte zv 0 (zv.1.getD 0 0 &&& 0x7f)
    (.good, { ctx with encCtx := encCtx, zval := beWords platform.order zv.1 })

def cwcInitMessage (iv : List UInt8) (ctx : CwcCtx) : CwcCtx :=
  let ctrVal := setByte ctx.ctrVal 0 0x80
  let ctrVal := setBytes ctrVal 1 (iv.take 11)
  let ctrVal := setBytes ctrVal ctrPos [0, 0, 0, 0]
  { ctx with
    ctrVal := ctrVal
    cwcBuf := Block.zeros 16
    hdrCnt := 0
    txtAcnt := 0
    txtCcnt := 0
    hash := ⟨Vector.replicate 4 0, Vector.replicate 4 0⟩ }

/-- The variables of the loops that fill the buffer, with the bytes behind `cnt`. -/
structure Filling where
  ctx : CwcCtx
  bPos : Nat
  rest : List UInt8

namespace Filling

/-- Bytes one by one, up to the next unit of the buffer. -/
def bytesToUnit (ctx : CwcCtx) (bPos : Nat) : List UInt8 → Filling
  | [] => ⟨ctx, bPos, []⟩
  | b :: rest =>
    if bPos % bufInc ≠ 0 then bytesToUnit (ctx.putByte bPos b) (bPos + 1) rest
    else ⟨ctx, bPos, b :: rest⟩

/-- Whole units, up to the end of the buffer. -/
def units (ctx : CwcCtx) (bPos : Nat) : List UInt8 → Filling
  | b0 :: b1 :: b2 :: b3 :: rest =>
    if bPos ≤ ablkLen - bufInc then
      units (ctx.putBytes bPos
        (storeWord platform.order (loadWord platform.order [b0, b1, b2, b3] 0)))
        (bPos + bufInc) rest
    else ⟨ctx, bPos, b0 :: b1 :: b2 :: b3 :: rest⟩
  | rest => ⟨ctx, bPos, rest⟩

/-- Bytes one by one, up to the end of the buffer. -/
def bytesToEnd (ctx : CwcCtx) (bPos : Nat) : List UInt8 → Filling
  | [] => ⟨ctx, bPos, []⟩
  | b :: rest =>
    if bPos < ablkLen then bytesToEnd (ctx.putByte bPos b) (bPos + 1) rest
    else ⟨ctx, bPos, b :: rest⟩

/-- Whole blocks: the buffer is hashed and filled again. -/
def blocks (s : Filling) : Filling :=
  if ablkLen ≤ s.rest.length then
    blocks ⟨(s.ctx.doCwc platform).putBytes 0 (s.rest.take ablkLen), s.bPos,
      s.rest.drop ablkLen⟩
  else s
  termination_by s.rest.length
  decreasing_by
    rw [List.length_drop]
    unfold ablkLen at *
    omega

/-- The bytes that are left. -/
def tail (ctx : CwcCtx) (bPos : Nat) : List UInt8 → CwcCtx × Nat
  | [] => (ctx, bPos)
  | b :: rest =>
    if bPos = ablkLen then tail ((ctx.doCwc platform).putByte 0 b) 1 rest
    else tail (ctx.putByte bPos b) (bPos + 1) rest

end Filling

/-- What `cwc_auth_header` and `cwc_auth_data` do with their data. -/
def absorbData (addr : Int) (data : List UInt8) (bPos : Nat) (ctx : CwcCtx) : CwcCtx :=
  let s :=
    if isAligned addr bPos then
      let s := Filling.bytesToUnit ctx bPos data
      let s := Filling.units platform s.ctx s.bPos s.rest
      s.blocks platform
    else
      let s := Filling.bytesToEnd ctx bPos data
      s.blocks platform
  let (ctx, bPos) := Filling.tail platform s.ctx s.bPos s.rest
  if bPos = ablkLen then ctx.doCwc platform else ctx

/-- `cnt` when all of the data is done. -/
def count (data : List UInt8) : UInt32 := UInt32.ofNat data.length

def cwcAuthHeader (addr : Int) (hdr : List UInt8) (ctx : CwcCtx) : CwcCtx :=
  if hdr.length = 0 then ctx
  else
    let ctx := absorbData platform addr hdr (ctx.hdrCnt.toNat % ablkLen) ctx
    { ctx with hdrCnt := ctx.hdrCnt + count hdr }

def cwcAuthData (addr : Int) (data : List UInt8) (ctx : CwcCtx) : CwcCtx :=
  if data.length = 0 then ctx
  else
    let bPos := ctx.txtAcnt.toNat % ablkLen
    let ctx :=
      if ctx.txtAcnt = 0 then ctx.padBlock platform (ctx.hdrCnt.toNat % ablkLen) else ctx
    let ctx := absorbData platform addr data bPos ctx
    { ctx with txtAcnt := ctx.txtAcnt + count data }

/-- The variables of the loops of `cwc_crypt_data`: `done` are the new bytes before `cnt`. -/
structure Crypting where
  ctx : CwcCtx
  bPos : Nat
  done : List UInt8
  rest : List UInt8

namespace Crypting

/-- `data[cnt++] ^= enc_ctr[b_pos++]`. -/
def xorByte (s : Crypting) (b : UInt8) (rest : List UInt8) : Crypting :=
  { s with bPos := s.bPos + 1, done := s.done ++ [b ^^^ s.ctx.encCtr.1.getD s.bPos 0], rest := rest }

def bytesToUnit (s : Crypting) : List UInt8 → Crypting
  | [] => { s with rest := [] }
  | b :: rest =>
    if s.bPos % bufInc ≠ 0 then bytesToUnit (s.xorByte b rest) rest
    else { s with rest := b :: rest }

/-- A unit of the data, with a unit of `enc_ctr`. -/
def xorUnit (order : ByteOrder) (data encCtr : List UInt8) (bPos : Nat) : List UInt8 :=
  storeWord order (loadWord order data 0 ^^^ loadWord order encCtr bPos)

def units (s : Crypting) : List UInt8 → Crypting
  | b0 :: b1 :: b2 :: b3 :: rest =>
    if s.bPos ≤ cblkLen - bufInc then
      units { s with
        bPos := s.bPos + bufInc
        done := s.done ++ xorUnit platform.order [b0, b1, b2, b3] s.ctx.encCtr.1 s.bPos } rest
    else { s with rest := b0 :: b1 :: b2 :: b3 :: rest }
  | rest => { s with rest := rest }

def bytesToEnd (s : Crypting) : List UInt8 → Crypting
  | [] => { s with rest := [] }
  | b :: rest =>
    if s.bPos < cblkLen then bytesToEnd (s.xorByte b rest) rest
    else { s with rest := b :: rest }

def xorBlock (data encCtr : List UInt8) : List UInt8 := List.zipWith (· ^^^ ·) data encCtr

def xorBlockAligned (order : ByteOrder) (data encCtr : List UInt8) : List UInt8 :=
  xorUnit order data encCtr 0 ++ (xorUnit order (data.drop 4) encCtr 4 ++
    (xorUnit order (data.drop 8) encCtr 8 ++ xorUnit order (data.drop 12) encCtr 12))

/-- Whole blocks, each with a new block of the key stream. -/
def blocks (xor : List UInt8 → List UInt8 → List UInt8) (s : Crypting) : Crypting :=
  if cblkLen ≤ s.rest.length then
    let ctx := s.ctx.nextBlock platform
    blocks xor { s with
      ctx := ctx
      done := s.done ++ xor (s.rest.take cblkLen) ctx.encCtr.1
      rest := s.rest.drop cblkLen }
  else s
  termination_by s.rest.length
  decreasing_by
    rw [List.length_drop]
    unfold cblkLen at *
    omega

def tail (s : Crypting) : List UInt8 → Crypting
  | [] => { s with rest := [] }
  | b :: rest =>
    let s :=
      if s.bPos = cblkLen ∨ s.bPos = 0 then
        { s with ctx := s.ctx.nextBlock platform, bPos := 0 }
      else s
    tail (s.xorByte b rest) rest

end Crypting

/-- `cwc_crypt_data`, with the new bytes of the data. -/
def cwcCryptData (addr : Int) (data : List UInt8) (ctx : CwcCtx) : List UInt8 × CwcCtx :=
  if data.length = 0 then (data, ctx)
  else
    let s : Crypting := ⟨ctx, ctx.txtCcnt.toNat % cblkLen, [], data⟩
    let s :=
      if isAligned addr s.bPos then
        let s := if s.bPos ≠ 0 then (s.bytesToUnit data).units platform (s.bytesToUnit data).rest
          else s
        s.blocks platform (Crypting.xorBlockAligned platform.order)
      else
        let s := if s.bPos ≠ 0 then s.bytesToEnd data else s
        s.blocks platform Crypting.xorBlock
    let s := s.tail platform s.rest
    (s.done, { s.ctx with txtCcnt := s.ctx.txtCcnt + count data })

/-- `cwc_compute_tag`, with the new bytes of the tag. -/
def cwcComputeTag (tag : List UInt8) (ctx : CwcCtx) : RetType × List UInt8 × CwcCtx :=
  if ctx.txtAcnt ≠ ctx.txtCcnt ∧ 0 < ctx.txtCcnt then (.error, tag, ctx)
  else
    let ctx :=
      if ctx.txtAcnt = 0 then ctx.padBlock platform (ctx.hdrCnt.toNat % ablkLen) else ctx
    let ctx := ctx.padBlock platform (ctx.txtAcnt.toNat % ablkLen)
    let ctx := { ctx with
      hash := ⟨reduceTop (add4 ctx.hash.hash #v[0, ctx.hdrCnt, 0, ctx.txtAcnt]), ctx.hash.pt⟩ }
    let hh := beBytes platform.order ctx.hash.hash
    let hh := (aesEncrypt platform ctx.encCtx hh hh).2
    let encCtr := setBytes ctx.ctrVal ctrPos [0, 0, 0, 0]
    let encCtr := (aesEncrypt platform ctx.encCtx encCtr encCtr).2
    let ctx := { ctx with encCtr := encCtr }
    (if ctx.txtCcnt = ctx.txtAcnt then .good else .warn,
      (List.range tag.length).map fun pos => hh.1.getD pos 0 ^^^ encCtr.1.getD pos 0, ctx)

def cwcEncrypt (addr : Int) (data : List UInt8) (ctx : CwcCtx) : List UInt8 × CwcCtx :=
  let (data, ctx) := cwcCryptData platform addr data ctx
  (data, cwcAuthData platform addr data ctx)

def cwcDecrypt (addr : Int) (data : List UInt8) (ctx : CwcCtx) : List UInt8 × CwcCtx :=
  let ctx := cwcAuthData platform addr data ctx
  cwcCryptData platform addr data ctx

/-- The addresses of a message's buffers relative to the context's. -/
structure Addresses where
  hdr : Int
  msg : Int
  deriving DecidableEq, Repr

/-- `cwc_encrypt_message`, with the new bytes of the message and of the tag. -/
def cwcEncryptMessage (addr : Addresses) (iv hdr msg tag : List UInt8) (ctx : CwcCtx) :
    RetType × (List UInt8 × List UInt8) × CwcCtx :=
  let ctx := cwcInitMessage iv ctx
  let ctx := cwcAuthHeader platform addr.hdr hdr ctx
  let (msg, ctx) := cwcEncrypt platform addr.msg msg ctx
  let (code, tag, ctx) := cwcComputeTag platform tag ctx
  (if code ≠ .good then .error else .good, (msg, tag), ctx)

/-- `cwc_decrypt_message`, with the new bytes of the message. -/
def cwcDecryptMessage (addr : Addresses) (iv hdr msg tag : List UInt8) (ctx : CwcCtx) :
    RetType × List UInt8 × CwcCtx :=
  let ctx := cwcInitMessage iv ctx
  let ctx := cwcAuthHeader platform addr.hdr hdr ctx
  let (msg, ctx) := cwcDecrypt platform addr.msg msg ctx
  let (rr, localTag, ctx) := cwcComputeTag platform (List.replicate tag.length 0) ctx
  (if rr ≠ .good ∨ tag ≠ localTag then .error else .good, msg, ctx)

end Native

end AcOpenServer
