import AcOpenServer.Native.Cwc.Wrapper

namespace AcOpenServer
open Library
set_option autoImplicit true

structure CWCUdpClientCipher where
  key : CWC
  authTokenBytes : List UInt8
  packetType : UInt8
  isConnectionPrefixed : Bool
  deriving DecidableEq, Repr

namespace CWCUdpClientCipher

def authTokenLength : Nat := 8
def ivLength : Nat := 11
def tagLength : Nat := 16
def packetTypeLength : Nat := 1
def headerLength : Nat := 20

def new (key : CWC) (authToken : UInt64) : CWCUdpClientCipher where
  key
  authTokenBytes := Layout.encode authToken
  packetType := 0
  isConnectionPrefixed := false

def setConnectionPrefixed (value : Bool) (cipher : CWCUdpClientCipher) : CWCUdpClientCipher :=
  { cipher with isConnectionPrefixed := value, packetType := if value then 1 else 0 }

variable (native : CwcNative)

def decrypt (cipher : CWCUdpClientCipher) (input : List UInt8) : Codec (List UInt8) := do
  let messageOffset := authTokenLength + ivLength + tagLength + packetTypeLength
  if messageOffset ≥ input.length then
    throw (.cwcCipher "Input to decrypt is too small to contain any data.")
  else
    let output := List.replicate (input.length - messageOffset) 0
    let ivOffset := authTokenLength
    let tagOffset := ivOffset + ivLength
    let packetTypeOffset := tagOffset + tagLength
    let authTokenBytes ←
      arrayCopy input 0 (List.replicate authTokenLength 0) 0 authTokenLength
    let iv ← arrayCopy input ivOffset (List.replicate ivLength 0) 0 ivLength
    let tag ← arrayCopy input tagOffset (List.replicate tagLength 0) 0 tagLength
    let packetType := input.getD packetTypeOffset 0
    let output ← arrayCopy input messageOffset output 0 output.length
    let authTokenHeaderOffset := ivLength
    let packetTypeHeaderOffset := authTokenHeaderOffset + authTokenLength
    let header := List.replicate headerLength 0
    let header ← arrayCopy iv 0 header 0 iv.length
    let header ← arrayCopy authTokenBytes 0 header authTokenHeaderOffset authTokenBytes.length
    let header := header.set packetTypeHeaderOffset packetType
    let (good, output) := cipher.key.decrypt native iv header output tag
    if good then return output else throw (.cwcCipher "Failed to decrypt input.")

/-- `iv` are the random bytes. -/
def encrypt (cipher : CWCUdpClientCipher) (iv : Block 11) (input : List UInt8) :
    Codec (List UInt8) := do
  let authTokenBytes := cipher.authTokenBytes
  let tag := List.replicate tagLength 0
  let authTokenHeaderOffset := ivLength
  let packetTypeHeaderOffset := authTokenHeaderOffset + authTokenLength
  let header := List.replicate headerLength 0
  let header ← arrayCopy iv.1 0 header 0 iv.1.length
  -- the length of the token would be `authTokenBytes.length`
  let header ← arrayCopy authTokenBytes 0 header authTokenHeaderOffset iv.1.length
  let _header := header.set packetTypeHeaderOffset cipher.packetType
  let (good, message, tag) := cipher.key.encrypt native iv.1 iv.1 input tag
  if good then
    let tagOffset := iv.1.length
    let messageOffset := tagOffset + tag.length
    let length := messageOffset + message.length
    let output ← newArray length
    let output ← arrayCopy iv.1 0 output 0 iv.1.length
    let output ← arrayCopy tag 0 output tagOffset tag.length
    arrayCopy message 0 output messageOffset message.length
  else
    throw (.cwcCipher "Failed to encrypt input.")

/-- `Decrypt` returns what was given to `Encrypt`. -/
def RoundTrips (cipher : CWCUdpClientCipher) (iv : Block 11) (plaintext : List UInt8) : Prop :=
  ∃ output, (cipher.encrypt native iv plaintext).result = .ok output ∧
    (cipher.decrypt native output).result = .ok plaintext

/-- Eleven bytes cannot be copied from a token of eight. -/
theorem result_encrypt (cipher : CWCUdpClientCipher)
    (h : cipher.authTokenBytes.length = authTokenLength) (iv : Block 11)
    (plaintext : List UInt8) :
    (cipher.encrypt native iv plaintext).result = .error .argument := by
  have hiv : (arrayCopy iv.1 0 (List.replicate headerLength 0) 0 iv.1.length).result =
      .ok _ := congrArg Traced.result (arrayCopy_of_le (by omega) (by
        rw [iv.2, List.length_replicate]
        decide))
  have htoken : cipher.authTokenBytes.length < 0 + iv.1.length := by
    rw [h, iv.2]
    decide
  simp only [encrypt]
  rw [Traced.result_bind_of_ok _ hiv, arrayCopy_of_short htoken, Traced.throw_bind]
  rfl

/-- `Encrypt` throws for every plaintext, so it never makes a round trip, whatever the native
library does. -/
theorem never_roundTrips (key : CWC) (authToken : UInt64) (connectionPrefixed : Bool)
    (iv : Block 11) (plaintext : List UInt8) :
    ¬ RoundTrips native ((new key authToken).setConnectionPrefixed connectionPrefixed) iv
      plaintext := by
  rintro ⟨output, he, _⟩
  rw [result_encrypt native _ (Layout.length_encode authToken) iv plaintext] at he
  cases he

theorem one_byte_not_roundTrips : ¬ ∀ native : CwcNative,
    (∀ (key : CWC) (iv header message tag : List UInt8),
      key.decrypt native iv header (key.encrypt native iv header message tag).2.1
        (key.encrypt native iv header message tag).2.2 = (true, message)) →
    ∀ (key : CWC) (authToken : UInt64) (connectionPrefixed : Bool) (iv : Block 11)
      (plaintext : List UInt8), plaintext ≠ [] →
      RoundTrips native ((new key authToken).setConnectionPrefixed connectionPrefixed) iv
        plaintext := by
  intro h
  obtain ⟨output, he, _⟩ := h _ (Native.library_decrypt_encrypt .littleEndian [] ⟨0, 0⟩)
    ⟨List.replicate 16 0⟩ 0 false ⟨List.replicate 11 0, rfl⟩ [1] (by decide)
  rw [result_encrypt _ _ (Layout.length_encode _)] at he
  cases he

end CWCUdpClientCipher

end AcOpenServer
