import AcOpenServer.Native.Aes.Encrypt

namespace AcOpenServer
open Library
set_option autoImplicit true

namespace Native

/-- The bytes of a word as a column of the cipher. -/
def column (order : ByteOrder) (x : UInt32) : Rijndael.Column :=
  fun r => bval order x (UInt32.ofNat r.val)

/-- The word with the bytes of a column. -/
def ofColumn (order : ByteOrder) (a : Rijndael.Column) : UInt32 :=
  bytes2word order (a 0) (a 1) (a 2) (a 3)

/-- Four words as the state of the cipher. -/
def stateOf (order : ByteOrder) (x : Words 4) : Rijndael.State := fun c => column order (x.get c)

/-- An `__m128i` as its four words, the least significant first. -/
def ofState (s : Rijndael.State) : Words 4 := Vector.ofFn fun c => ofColumn .littleEndian (s c)

def mmXorSi128 (a b : Words 4) : Words 4 := Vector.zipWith (· ^^^ ·) a b

/-- `_mm_slli_si128` by four bytes. -/
def mmSlliSi128 (a : Words 4) : Words 4 := #v[0, a.get 0, a.get 1, a.get 2]

def mmShuffleEpi32 (a : Words 4) (imm : Nat) : Words 4 :=
  Vector.ofFn fun c => a.get (Fin.ofNat 4 (imm / 4 ^ c.val))

def mmShufflePd (a b : Words 4) (imm : Nat) : Words 4 :=
  let low := if imm % 2 = 0 then (a.get 0, a.get 1) else (a.get 2, a.get 3)
  let high := if imm / 2 % 2 = 0 then (b.get 0, b.get 1) else (b.get 2, b.get 3)
  #v[low.1, low.2, high.1, high.2]

def mmAesencSi128 (a k : Words 4) : Words 4 :=
  ofState (Rijndael.round sBox (stateOf .littleEndian k) (stateOf .littleEndian a))

def mmAesenclastSi128 (a k : Words 4) : Words 4 :=
  ofState (Rijndael.finalRound sBox (stateOf .littleEndian k) (stateOf .littleEndian a))

def subWord (x : UInt32) : UInt32 :=
  ofColumn .littleEndian (Rijndael.subWord sBox (column .littleEndian x))

def mmAeskeygenassistSi128 (a : Words 4) (rcon : UInt32) : Words 4 :=
  #v[subWord (a.get 1), rotr32 (subWord (a.get 1)) 8 ^^^ rcon, subWord (a.get 3),
    rotr32 (subWord (a.get 3)) 8 ^^^ rcon]

/-- `ks[i] = t`. -/
def writeKey (ks : Words 60) (i : Nat) (t : Words 4) : Words 60 := writeWords ks (4 * i) t.toList

/-- The three shifted copies that the assist functions add. -/
def addShifted (t1 : Words 4) : Words 4 :=
  let t3 := mmSlliSi128 t1
  let t1 := mmXorSi128 t1 t3
  let t3 := mmSlliSi128 t3
  let t1 := mmXorSi128 t1 t3
  let t3 := mmSlliSi128 t3
  mmXorSi128 t1 t3

def aes128Assist (t1 t2 : Words 4) : Words 4 :=
  mmXorSi128 (addShifted t1) (mmShuffleEpi32 t2 0xff)

/-- A round of the key expansion with its constant, which writes round key `i`. -/
def aesNiStep128 (s : Words 4 × Words 60) (rcon : UInt32) (i : Nat) : Words 4 × Words 60 :=
  let t2 := mmAeskeygenassistSi128 s.1 rcon
  let t1 := aes128Assist s.1 t2
  (t1, writeKey s.2 i t1)

/-- The context `aes_ni(encrypt_key)` leaves, which it does not mark. -/
def aesNiCtx (ks : Words 60) (rounds : UInt8) : AesCtx := ⟨ks, #v[rounds * aesBlockSize, 0, 0, 0]⟩

/-- The unaligned load of 16 bytes. -/
def mmLoaduSi128 (bytes : List UInt8) : Words 4 := blockIn .littleEndian bytes

def aesNiEncryptKey128 (key : List UInt8) (cx : AesCtx) : Int × AesCtx :=
  let t1 := mmLoaduSi128 key
  let s := (t1, writeKey cx.ks 0 t1)
  let s := aesNiStep128 s 0x1 1
  let s := aesNiStep128 s 0x2 2
  let s := aesNiStep128 s 0x4 3
  let s := aesNiStep128 s 0x8 4
  let s := aesNiStep128 s 0x10 5
  let s := aesNiStep128 s 0x20 6
  let s := aesNiStep128 s 0x40 7
  let s := aesNiStep128 s 0x80 8
  let s := aesNiStep128 s 0x1b 9
  let s := aesNiStep128 s 0x36 10
  (exitSuccess, aesNiCtx s.2 10)

/-- The new `t1` and `t3`. -/
def aes192Assist (t1 t2 t3 : Words 4) : Words 4 × Words 4 :=
  let t2 := mmShuffleEpi32 t2 0x55
  let t1 := mmXorSi128 (addShifted t1) t2
  let t2 := mmShuffleEpi32 t1 0xff
  let t3 := mmXorSi128 t3 (mmSlliSi128 t3)
  (t1, mmXorSi128 t3 t2)

/-- The steps of the key expansion that move six new words over two round keys: round key `i`
has its lower half already. -/
def aesNiHalfStep192 (s : (Words 4 × Words 4) × Words 60) (rcon : UInt32) (i : Nat) :
    (Words 4 × Words 4) × Words 60 :=
  let ((t1, t3), ks) := s
  let t2 := mmAeskeygenassistSi128 t3 rcon
  let (t1, t3) := aes192Assist t1 t2 t3
  let ks := writeKey ks i (mmShufflePd (roundKey ks i) t1 0)
  ((t1, t3), writeKey ks (i + 1) (mmShufflePd t1 t3 1))

/-- The steps that write six new words to round key `i` and half of the next. -/
def aesNiStep192 (s : (Words 4 × Words 4) × Words 60) (rcon : UInt32) (i : Nat) :
    (Words 4 × Words 4) × Words 60 :=
  let ((t1, t3), ks) := s
  let t2 := mmAeskeygenassistSi128 t3 rcon
  let (t1, t3) := aes192Assist t1 t2 t3
  ((t1, t3), writeKey (writeKey ks i t1) (i + 1) t3)

/-- `beyond` is what lies behind the 24 bytes of the key, which the second load reads. -/
def aesNiEncryptKey192 (beyond key : List UInt8) (cx : AesCtx) : Int × AesCtx :=
  let t1 := mmLoaduSi128 key
  let t3 := mmLoaduSi128 ((key ++ beyond).drop 16)
  let s := ((t1, t3), writeKey (writeKey cx.ks 0 t1) 1 t3)
  let s := aesNiHalfStep192 s 0x1 1
  let s := aesNiStep192 s 0x2 3
  let s := aesNiHalfStep192 s 0x4 4
  let s := aesNiStep192 s 0x8 6
  let s := aesNiHalfStep192 s 0x10 7
  let s := aesNiStep192 s 0x20 9
  let s := aesNiHalfStep192 s 0x40 10
  let ((t1, t3), ks) := s
  let t2 := mmAeskeygenassistSi128 t3 0x80
  let (t1, _) := aes192Assist t1 t2 t3
  (exitSuccess, aesNiCtx (writeKey ks 12 t1) 12)

def aes256Assist1 (t1 t2 : Words 4) : Words 4 :=
  mmXorSi128 (addShifted t1) (mmShuffleEpi32 t2 0xff)

def aes256Assist2 (t1 t3 : Words 4) : Words 4 :=
  mmXorSi128 (addShifted t3) (mmShuffleEpi32 (mmAeskeygenassistSi128 t1 0) 0xaa)

def aesNiStep256 (s : (Words 4 × Words 4) × Words 60) (rcon : UInt32) (i : Nat) :
    (Words 4 × Words 4) × Words 60 :=
  let ((t1, t3), ks) := s
  let t1 := aes256Assist1 t1 (mmAeskeygenassistSi128 t3 rcon)
  let t3 := aes256Assist2 t1 t3
  ((t1, t3), writeKey (writeKey ks i t1) (i + 1) t3)

def aesNiEncryptKey256 (key : List UInt8) (cx : AesCtx) : Int × AesCtx :=
  let t1 := mmLoaduSi128 key
  let t3 := mmLoaduSi128 (key.drop 16)
  let s := ((t1, t3), writeKey (writeKey cx.ks 0 t1) 1 t3)
  let s := aesNiStep256 s 0x01 2
  let s := aesNiStep256 s 0x02 4
  let s := aesNiStep256 s 0x04 6
  let s := aesNiStep256 s 0x08 8
  let s := aesNiStep256 s 0x10 10
  let s := aesNiStep256 s 0x20 12
  let ((t1, t3), ks) := s
  let t1 := aes256Assist1 t1 (mmAeskeygenassistSi128 t3 0x40)
  (exitSuccess, aesNiCtx (writeKey ks 14 t1) 14)

/-- `n` calls of `_mm_aesenc_si128` with the keys behind `key`. -/
def aesencRounds (ks : Words 60) (key : Nat) : Nat → Words 4 → Words 4
  | 0, t => t
  | n + 1, t => aesencRounds ks (key + 1) n (mmAesencSi128 t (roundKey ks (key + 1)))

def aesNiEncrypt (cx : AesCtx) (input out : Block 16) : Int × Block 16 :=
  if !validRounds cx then (exitFailure, out)
  else
    let t := mmXorSi128 (mmLoaduSi128 input.1) (roundKey cx.ks 0)
    let (t, key) :=
      if cx.inf.get 0 == 14 * aesBlockSize then (aesencRounds cx.ks 0 2 t, 2) else (t, 0)
    let (t, key) :=
      if cx.inf.get 0 == 10 * aesBlockSize then (t, key)
      else (aesencRounds cx.ks key 2 t, key + 2)
    let t := aesencRounds cx.ks key 9 t
    (exitSuccess, stateOut .littleEndian (mmAesenclastSi128 t (roundKey cx.ks (key + 10))))

/-- The builds of the library: for either byte order without the new instructions, and with
them for a processor that has them. -/
inductive Platform where
  | bigEndian
  | littleEndian
  | aesNi
  deriving DecidableEq, Repr

def Platform.order : Platform → ByteOrder
  | .bigEndian => .bigEndian
  | .littleEndian | .aesNi => .littleEndian

/-- `aes_encrypt_key`, with what lies behind the key in memory. -/
def aesEncryptKey (platform : Platform) (beyond key : List UInt8) (keyLen : Nat) (cx : AesCtx) :
    Int × AesCtx :=
  match keyLen with
  | 16 | 128 =>
    if platform = .aesNi then aesNiEncryptKey128 key cx
    else aesXiEncryptKey128 platform.order key cx
  | 24 | 192 =>
    if platform = .aesNi then aesNiEncryptKey192 beyond key cx
    else aesXiEncryptKey192 platform.order key cx
  | 32 | 256 =>
    if platform = .aesNi then aesNiEncryptKey256 key cx
    else aesXiEncryptKey256 platform.order key cx
  | _ => (exitFailure, cx)

/-- `aes_encrypt`. -/
def aesEncrypt (platform : Platform) (cx : AesCtx) (input out : Block 16) : Int × Block 16 :=
  if platform = .aesNi then aesNiEncrypt cx input out
  else aesXiEncrypt platform.order cx input out

end Native

end AcOpenServer
