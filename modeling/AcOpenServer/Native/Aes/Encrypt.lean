import AcOpenServer.Runtime
import AcOpenServer.Native.Aes.Tables

namespace AcOpenServer
open Library
set_option autoImplicit true

namespace Native

variable (order : ByteOrder)

/-- The words of a schedule from round `n` on, `kp + n * N_COLS`. -/
def roundKey (ks : Words 60) (n : Nat) : Words 4 :=
  Vector.ofFn fun c => ks.get (Fin.ofNat 60 (4 * n + c.val))

/-- The words of a block of memory. -/
def blockIn (bytes : List UInt8) : Words 4 :=
  Vector.ofFn fun c => loadWord order bytes (4 * c.val)

def stateIn (bytes : List UInt8) (k : Words 4) : Words 4 :=
  Vector.ofFn fun c => (blockIn order bytes).get c ^^^ k.get c

def stateOut (x : Words 4) : Block 16 :=
  ⟨storeWord order (x.get 0) ++ (storeWord order (x.get 1) ++
    (storeWord order (x.get 2) ++ storeWord order (x.get 3))), rfl⟩

/-- `fwd_var`: the column with row `r` of column `c` after the shift of the rows. -/
def fwdVar (x : Words 4) (c r : Fin 4) : UInt32 := x.get (c + r)

def fwdRnd (x k : Words 4) : Words 4 :=
  Vector.ofFn fun c => k.get c ^^^ fourTables order (tFn order) (fwdVar x c) rf1

def fwdLrnd (x k : Words 4) : Words 4 :=
  Vector.ofFn fun c => k.get c ^^^ fourTables order (tFl order) (fwdVar x c) rf1

/-- `n` normal rounds one after another, from the round key behind `kp` on. -/
def fwdRounds (ks : Words 60) (kp : Nat) : Nat → Words 4 → Words 4
  | 0, x => x
  | n + 1, x => fwdRounds ks (kp + 1) n (fwdRnd order x (roundKey ks (kp + 1)))

/-- The context is one of the three key sizes. -/
def validRounds (cx : AesCtx) : Bool :=
  cx.inf.get 0 == 10 * aesBlockSize || cx.inf.get 0 == 12 * aesBlockSize ||
    cx.inf.get 0 == 14 * aesBlockSize

/-- `aes_xi(encrypt)`, with its code and the new contents of `out`. -/
def aesXiEncrypt (cx : AesCtx) (input out : Block 16) : Int × Block 16 :=
  if !validRounds cx then (exitFailure, out)
  else
    let b := stateIn order input.1 (roundKey cx.ks 0)
    -- the cases of the `switch` fall through into the next one
    let (b, kp) :=
      if cx.inf.get 0 == 14 * aesBlockSize then (fwdRounds order cx.ks 0 2 b, 2) else (b, 0)
    let (b, kp) :=
      if cx.inf.get 0 == 10 * aesBlockSize then (b, kp)
      else (fwdRounds order cx.ks kp 2 b, kp + 2)
    let b := fwdRounds order cx.ks kp 9 b
    (exitSuccess, stateOut order (fwdLrnd order b (roundKey cx.ks (kp + 10))))

/-- Words written one after another from index `i` on. -/
def writeWords (k : Words 60) (i : Nat) : List UInt32 → Words 60
  | [] => k
  | w :: ws => writeWords (k.set (Fin.ofNat 60 i) w) (i + 1) ws

def ke4 (s : Words 4 × Words 60) (i : Nat) : Words 4 × Words 60 :=
  let (ss, k) := s
  let s0 := ss.get 0 ^^^ (lsBox order (ss.get 3) 3 ^^^ tRc order i)
  let s1 := ss.get 1 ^^^ s0
  let s2 := ss.get 2 ^^^ s1
  let s3 := ss.get 3 ^^^ s2
  (#v[s0, s1, s2, s3], writeWords k (4 * i + 4) [s0, s1, s2, s3])

def kef6 (s : Words 6 × Words 60) (i : Nat) : Words 6 × Words 60 :=
  let (ss, k) := s
  let s0 := ss.get 0 ^^^ (lsBox order (ss.get 5) 3 ^^^ tRc order i)
  let s1 := ss.get 1 ^^^ s0
  let s2 := ss.get 2 ^^^ s1
  let s3 := ss.get 3 ^^^ s2
  (#v[s0, s1, s2, s3, ss.get 4, ss.get 5], writeWords k (6 * i + 6) [s0, s1, s2, s3])

def ke6 (s : Words 6 × Words 60) (i : Nat) : Words 6 × Words 60 :=
  let (ss, k) := kef6 order s i
  let s4 := ss.get 4 ^^^ ss.get 3
  let s5 := ss.get 5 ^^^ s4
  (#v[ss.get 0, ss.get 1, ss.get 2, ss.get 3, s4, s5], writeWords k (6 * i + 10) [s4, s5])

def kef8 (s : Words 8 × Words 60) (i : Nat) : Words 8 × Words 60 :=
  let (ss, k) := s
  let s0 := ss.get 0 ^^^ (lsBox order (ss.get 7) 3 ^^^ tRc order i)
  let s1 := ss.get 1 ^^^ s0
  let s2 := ss.get 2 ^^^ s1
  let s3 := ss.get 3 ^^^ s2
  (#v[s0, s1, s2, s3, ss.get 4, ss.get 5, ss.get 6, ss.get 7],
    writeWords k (8 * i + 8) [s0, s1, s2, s3])

def ke8 (s : Words 8 × Words 60) (i : Nat) : Words 8 × Words 60 :=
  let (ss, k) := kef8 order s i
  let s4 := ss.get 4 ^^^ lsBox order (ss.get 3) 0
  let s5 := ss.get 5 ^^^ s4
  let s6 := ss.get 6 ^^^ s5
  let s7 := ss.get 7 ^^^ s6
  (#v[ss.get 0, ss.get 1, ss.get 2, ss.get 3, s4, s5, s6, s7],
    writeWords k (8 * i + 12) [s4, s5, s6, s7])

/-- The words of a key. -/
def keyWords (n : Nat) (key : List UInt8) : Words n :=
  Vector.ofFn fun i => loadWord order key (4 * i.val)

/-- The context with its schedule, as an encryption context of `rounds` rounds. -/
def encryptionCtx (ks : Words 60) (rounds : UInt8) : AesCtx :=
  ⟨ks, #v[rounds * aesBlockSize, 0, 0x01, 0]⟩

def aesXiEncryptKey128 (key : List UInt8) (cx : AesCtx) : Int × AesCtx :=
  let ss := keyWords order 4 key
  let s := (ss, writeWords cx.ks 0 ss.toList)
  let s := (List.range 9).foldl (ke4 order) s
  let s := ke4 order s 9
  (exitSuccess, encryptionCtx s.2 10)

def aesXiEncryptKey192 (key : List UInt8) (cx : AesCtx) : Int × AesCtx :=
  let ss := keyWords order 6 key
  let s := (ss, writeWords cx.ks 0 ss.toList)
  let s := (List.range 7).foldl (ke6 order) s
  let s := kef6 order s 7
  (exitSuccess, encryptionCtx s.2 12)

def aesXiEncryptKey256 (key : List UInt8) (cx : AesCtx) : Int × AesCtx :=
  let ss := keyWords order 8 key
  let s := (ss, writeWords cx.ks 0 ss.toList)
  let s := (List.range 6).foldl (ke8 order) s
  let s := kef8 order s 6
  (exitSuccess, encryptionCtx s.2 14)

end Native

end AcOpenServer
