import AcOpenServer.Runtime

namespace AcOpenServer
open Library
set_option autoImplicit true

/-- A byte string as a block of its own length. -/
def Block.ofBytes (bs : List UInt8) : Block bs.length := ⟨bs, rfl⟩

def Block.zeros (n : Nat) : Block n := ⟨List.replicate n 0, List.length_replicate⟩

/-- The functions of the native library, which return a code and overwrite the message and
the tag in place. -/
structure CwcNative where
  cwcInitAndKey : (key : List UInt8) → Int
  cwcEncryptMessage : (key iv header message tag : List UInt8) →
    Int × Block message.length × Block tag.length
  cwcDecryptMessage : (key iv header message tag : List UInt8) → Int × Block message.length

def CwcNative.returnGood : Int := 0

/-- A context of the native library, which is determined by its key. -/
structure CWC where
  key : List UInt8
  deriving DecidableEq, Repr

namespace CWC

variable (native : CwcNative)

def new (key : List UInt8) : Codec CWC :=
  if native.cwcInitAndKey key ≠ CwcNative.returnGood then
    throw (.cwc "A native library error occurred.")
  else
    return ⟨key⟩

/-- `Encrypt`, with the new contents of the message and of the tag. -/
def encrypt (cwc : CWC) (iv header message tag : List UInt8) :
    Bool × List UInt8 × List UInt8 :=
  let (code, message, tag) := native.cwcEncryptMessage cwc.key iv header message tag
  (code == CwcNative.returnGood, message.1, tag.1)

/-- `Decrypt`, with the new contents of the message. -/
def decrypt (cwc : CWC) (iv header message tag : List UInt8) : Bool × List UInt8 :=
  let (code, message) := native.cwcDecryptMessage cwc.key iv header message tag
  (code == CwcNative.returnGood, message.1)

end CWC

namespace CWCCipher

def ivLength : Nat := 11

def tagLength : Nat := 16

variable (native : CwcNative)

def decrypt (cwc : CWC) (input : List UInt8) : Codec (List UInt8) := do
  let iv := List.replicate ivLength 0
  let tag := List.replicate tagLength 0
  let messageOffset := ivLength + tagLength
  if messageOffset ≥ input.length then
    throw (.cwcCipher "Input to decrypt is too small to contain any data.")
  else
    let output := List.replicate (input.length - messageOffset) 0
    let tagOffset := iv.length
    let iv ← arrayCopy input 0 iv 0 iv.length
    let tag ← arrayCopy input tagOffset tag 0 tag.length
    let output ← arrayCopy input messageOffset output 0 output.length
    let (good, output) := cwc.decrypt native iv iv output tag
    if good then return output else throw (.cwcCipher "Failed to decrypt input.")

/-- `iv` are the random bytes; the input is overwritten as well. -/
def encrypt (cwc : CWC) (iv : Block 11) (input : List UInt8) :
    Codec (List UInt8 × List UInt8) := do
  let tag := List.replicate tagLength 0
  let (good, message, tag) := cwc.encrypt native iv.1 iv.1 input tag
  if good then
    let tagOffset := iv.1.length
    let messageOffset := tagOffset + tag.length
    let length := messageOffset + message.length
    let output ← newArray length
    let output ← arrayCopy iv.1 0 output 0 iv.1.length
    let output ← arrayCopy tag 0 output tagOffset tag.length
    let output ← arrayCopy message 0 output messageOffset message.length
    return (output, message)
  else
    throw (.cwcCipher "Failed to encrypt input.")

end CWCCipher

/-- The paddings the server uses. -/
inductive Padding where
  | oaep
  | x931
  deriving DecidableEq, Repr

/-- The operations with an RSA key; those that fail throw. -/
structure RsaNative where
  publicEncrypt : Padding → List UInt8 → Option (List UInt8)
  publicDecrypt : Padding → List UInt8 → Option (List UInt8)
  privateEncrypt : Padding → List UInt8 → Option (List UInt8)
  privateDecrypt : Padding → List UInt8 → Option (List UInt8)

structure RSACipher where
  isPublicKey : Bool
  paddingMode : Padding
  deriving DecidableEq, Repr

namespace RSACipher

variable (native : RsaNative)

def orThrow (output : Option (List UInt8)) : Codec (List UInt8) :=
  match output with
  | some output => return output
  | none => throw .openSsl

def decrypt (cipher : RSACipher) (input : List UInt8) : Codec (List UInt8) :=
  if cipher.isPublicKey then orThrow (native.publicDecrypt cipher.paddingMode input)
  else orThrow (native.privateDecrypt cipher.paddingMode input)

def encrypt (cipher : RSACipher) (input : List UInt8) : Codec (List UInt8) :=
  if cipher.isPublicKey then orThrow (native.publicEncrypt cipher.paddingMode input)
  else orThrow (native.privateEncrypt cipher.paddingMode input)

end RSACipher

/-- The implementations of `ICipher` a message client is given. -/
inductive Cipher where
  | rsa (cipher : RSACipher)
  | cwc (key : CWC)
  deriving DecidableEq, Repr

namespace Cipher

variable (cwc : CwcNative) (rsa : RsaNative)

def encrypt (iv : Block 11) (input : List UInt8) : Cipher → Codec (List UInt8)
  | .rsa cipher => cipher.encrypt rsa input
  | .cwc key => do return (← CWCCipher.encrypt cwc key iv input).1

def decrypt (input : List UInt8) : Cipher → Codec (List UInt8)
  | .rsa cipher => cipher.decrypt rsa input
  | .cwc key => CWCCipher.decrypt cwc key input

end Cipher

/-- The native library accepts the key sizes of AES, and encryption does not fail. -/
structure CwcNative.Good (native : CwcNative) : Prop where
  initAndKey : ∀ key, native.cwcInitAndKey key = CwcNative.returnGood ↔
    key.length = 16 ∨ key.length = 24 ∨ key.length = 32
  encryptMessage : ∀ key iv header message tag,
    (native.cwcEncryptMessage key iv header message tag).1 = CwcNative.returnGood

/-- Decryption with the same bytes undoes an encryption that succeeded. -/
def CwcNative.Inverts (native : CwcNative) : Prop :=
  ∀ (cwc : CWC) (iv header message tag : List UInt8),
    (cwc.encrypt native iv header message tag).1 = true →
    cwc.decrypt native iv header (cwc.encrypt native iv header message tag).2.1
      (cwc.encrypt native iv header message tag).2.2 = (true, message)

namespace CWC

variable (cwc : CWC) (native : CwcNative) (iv header message tag : List UInt8)

theorem length_encrypt_message :
    (cwc.encrypt native iv header message tag).2.1.length = message.length :=
  (native.cwcEncryptMessage cwc.key iv header message tag).2.1.2

theorem length_encrypt_tag :
    (cwc.encrypt native iv header message tag).2.2.length = tag.length :=
  (native.cwcEncryptMessage cwc.key iv header message tag).2.2.2

end CWC

namespace CWCCipher

theorem assemble_bind (iv : Block 11) {tag message : List UInt8} (htag : tag.length = 16)
    (hlen : message.length + 27 ≤ maxArrayLength) (f : List UInt8 → Codec α) :
    (do
      let output ← newArray (iv.1.length + tag.length + message.length)
      let output ← arrayCopy iv.1 0 output 0 iv.1.length
      let output ← arrayCopy tag 0 output iv.1.length tag.length
      let output ← arrayCopy message 0 output (iv.1.length + tag.length) message.length
      f output) = f (iv.1 ++ (tag ++ message)) := by
  have hnew : newArray (iv.1.length + tag.length + message.length) =
      pure ([] ++ (List.replicate 11 0 ++
        (List.replicate 16 0 ++ (List.replicate message.length 0 ++ [])))) := by
    rw [newArray_of_le (by rw [iv.2, htag]; omega), iv.2, htag, List.nil_append, List.append_nil,
      List.replicate_append_replicate, List.replicate_append_replicate, Nat.add_assoc]
  have hiv := arrayCopy_append (a := []) (b := List.replicate 11 0)
    (c := List.replicate 16 0 ++ (List.replicate message.length 0 ++ [])) (n := 0) iv.1 rfl
    (List.length_replicate.trans iv.2.symm)
  have htags := arrayCopy_append (a := iv.1) (b := List.replicate 16 0)
    (c := List.replicate message.length 0 ++ []) tag rfl
    (List.length_replicate.trans htag.symm)
  have hmessage := arrayCopy_append (a := iv.1 ++ tag) (b := List.replicate message.length 0)
    (c := []) message List.length_append List.length_replicate
  rw [List.append_assoc, List.append_assoc] at hmessage
  rw [hnew, Traced.pure_bind, hiv, Traced.pure_bind, List.nil_append, htags, Traced.pure_bind,
    hmessage, Traced.pure_bind, List.append_nil]

/-- An encryption returns exactly when the library succeeds and the output fits an array. -/
theorem result_encrypt_iff {native : CwcNative} {cwc : CWC} {iv : Block 11}
    {input : List UInt8} :
    (encrypt native cwc iv input).result = .ok r ↔
      (cwc.encrypt native iv.1 iv.1 input (List.replicate tagLength 0)).1 = true ∧
      input.length + 27 ≤ maxArrayLength ∧
      r = (iv.1 ++ ((cwc.encrypt native iv.1 iv.1 input (List.replicate tagLength 0)).2.2 ++
          (cwc.encrypt native iv.1 iv.1 input (List.replicate tagLength 0)).2.1),
        (cwc.encrypt native iv.1 iv.1 input (List.replicate tagLength 0)).2.1) := by
  have htag := cwc.length_encrypt_tag native iv.1 iv.1 input (List.replicate tagLength 0)
  have hmessage := cwc.length_encrypt_message native iv.1 iv.1 input
    (List.replicate tagLength 0)
  rw [List.length_replicate] at htag
  simp only [encrypt]
  generalize cwc.encrypt native iv.1 iv.1 input (List.replicate tagLength 0) = result at *
  obtain ⟨good, message, tag⟩ := result
  dsimp only at htag hmessage ⊢
  cases good with
  | false => exact iff_of_false (fun h => by cases h) fun h => by cases h.1
  | true =>
    by_cases hlen : input.length + 27 ≤ maxArrayLength
    · rw [if_pos rfl, assemble_bind iv htag (by omega)]
      constructor
      · intro h
        cases h
        exact ⟨rfl, hlen, rfl⟩
      · rintro ⟨_, _, rfl⟩
        rfl
    · obtain ⟨e, hnew⟩ : ∃ e, newArray (iv.1.length + tag.length + message.length) = throw e := by
        apply newArray_of_lt
        rw [iv.2, htag, hmessage]
        simp only [tagLength]
        omega
      rw [if_pos rfl, hnew, Traced.throw_bind]
      exact iff_of_false (fun h => by cases h) fun h => (hlen h.2.1).elim

theorem result_encrypt {native : CwcNative} (h : native.Good) (cwc : CWC) (iv : Block 11)
    {input : List UInt8} (hlen : input.length + 27 ≤ maxArrayLength) :
    ∃ (tag : Block 16) (message : Block input.length),
      (encrypt native cwc iv input).result = .ok (iv.1 ++ (tag.1 ++ message.1), message.1) := by
  have hgood := h.encryptMessage cwc.key iv.1 iv.1 input (List.replicate tagLength 0)
  exact ⟨⟨_, (cwc.length_encrypt_tag ..).trans List.length_replicate⟩,
    ⟨_, cwc.length_encrypt_message ..⟩, result_encrypt_iff.2 ⟨beq_iff_eq.2 hgood, hlen, rfl⟩⟩

end CWCCipher

end AcOpenServer
