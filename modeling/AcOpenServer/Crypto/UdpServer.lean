import AcOpenServer.Crypto.UdpClient

namespace AcOpenServer
open Library
set_option autoImplicit true

namespace CWCUdpServerCipher

def ivLength : Nat := 11

def tagLength : Nat := 16

variable (native : CwcNative)

def decrypt (cwc : CWC) (input : List UInt8) : Codec (List UInt8) := do
  let iv := List.replicate ivLength 0
  let tag := List.replicate tagLength 0
  let messageOffset := ivLength + tagLength
  if messageOffset ≥ input.length then
    throw (.cwcCipher "Input to decrypt is too small to contain any data.")
  else
    let output := List.replicate (input.length - messageOffset) 0
    let tagOffset := iv.length
    let iv ← arrayCopy input 0 iv 0 iv.length
    let tag ← arrayCopy input tagOffset tag 0 tag.length
    let output ← arrayCopy input messageOffset output 0 output.length
    let header := List.replicate ivLength 0
    let header ← arrayCopy iv 0 header 0 ivLength
    let (good, output) := cwc.decrypt native iv header output tag
    if good then return output else throw (.cwcCipher "Failed to decrypt input.")

/-- `iv` are the random bytes; the input is overwritten as well. -/
def encrypt (cwc : CWC) (iv : Block 11) (input : List UInt8) :
    Codec (List UInt8 × List UInt8) := do
  let tag := List.replicate tagLength 0
  let header := List.replicate ivLength 0
  let header ← arrayCopy iv.1 0 header 0 ivLength
  let (good, message, tag) := cwc.encrypt native iv.1 header input tag
  if good then
    let tagOffset := iv.1.length
    let messageOffset := tagOffset + tag.length
    let length := messageOffset + message.length
    let output ← newArray length
    let output ← arrayCopy iv.1 0 output 0 iv.1.length
    let output ← arrayCopy tag 0 output tagOffset tag.length
    let output ← arrayCopy message 0 output messageOffset message.length
    return (output, message)
  else
    throw (.cwcCipher "Failed to encrypt input.")

theorem arrayCopy_header {iv : List UInt8} (h : iv.length = ivLength) :
    arrayCopy iv 0 (List.replicate ivLength 0) 0 ivLength = pure iv := by
  have hlen : (List.replicate ivLength (0 : UInt8)).length = iv.length :=
    List.length_replicate.trans h.symm
  have hcopy := arrayCopy_whole hlen
  rwa [h] at hcopy

/-- The header is a copy of the random bytes, which the other class passes twice. -/
theorem encrypt_eq (cwc : CWC) (iv : Block 11) (input : List UInt8) :
    encrypt native cwc iv input = CWCCipher.encrypt native cwc iv input := by
  rw [encrypt, arrayCopy_header iv.2, Traced.pure_bind]
  rfl

theorem decrypt_eq (cwc : CWC) (input : List UInt8) :
    decrypt native cwc input = CWCCipher.decrypt native cwc input := by
  by_cases h : 11 + 16 ≥ input.length
  · have hshort : decrypt native cwc input =
        throw (.cwcCipher "Input to decrypt is too small to contain any data.") := if_pos h
    rw [hshort]
    exact (if_pos h).symm
  · have hiv : arrayCopy input 0 (List.replicate 11 0) 0 11 = pure ((input.drop 0).take 11) :=
      arrayCopy_read (by omega) rfl
    have hlen : ((input.drop 0).take 11).length = ivLength := by
      rw [List.drop_zero, List.length_take, Nat.min_eq_left (by omega), ivLength]
    have hheader := arrayCopy_header hlen
    have hshort : ¬ ivLength + tagLength ≥ input.length := h
    have hshort' : ¬ CWCCipher.ivLength + CWCCipher.tagLength ≥ input.length := h
    simp only [decrypt, CWCCipher.decrypt]
    rw [if_neg hshort, if_neg hshort']
    simp only [ivLength, tagLength, CWCCipher.ivLength, CWCCipher.tagLength,
      List.length_replicate] at hheader ⊢
    rw [hiv, Traced.pure_bind, Traced.pure_bind, hheader]
    rfl

end CWCUdpServerCipher

namespace CWCCipher

variable {native : CwcNative} {cwc : CWC}

theorem decrypt_of_le {input : List UInt8} (h : input.length ≤ 27) :
    decrypt native cwc input =
      throw (.cwcCipher "Input to decrypt is too small to contain any data.") := if_pos h

theorem decrypt_of_lt {input : List UInt8} (h : 27 < input.length) :
    decrypt native cwc input =
      let (good, output) := cwc.decrypt native (input.take 11) (input.take 11) (input.drop 27)
        ((input.drop 11).take 16)
      if good then pure output else throw (.cwcCipher "Failed to decrypt input.") := by
  have hcopy : ∀ {offset n}, offset + n ≤ input.length →
      arrayCopy input offset (List.replicate n 0) 0 (List.replicate n (0 : UInt8)).length =
        pure ((input.drop offset).take n) := by
    intro offset n hle
    rw [List.length_replicate]
    exact arrayCopy_read hle List.length_replicate
  have hmessage : (input.drop 27).take (input.length - 27) = input.drop 27 :=
    List.take_of_length_le (List.length_drop).le
  have hlong : ¬ ivLength + tagLength ≥ input.length := Nat.not_le_of_lt h
  simp only [decrypt]
  rw [if_neg hlong]
  simp only [ivLength, tagLength]
  rw [hcopy (by omega), Traced.pure_bind, List.length_replicate,
    hcopy (by omega), Traced.pure_bind, hcopy (by omega), Traced.pure_bind, List.drop_zero,
    hmessage]

/-- What decryption returns for an encrypted plaintext, which is rejected when it is empty. -/
def opened (plaintext : List UInt8) : Except Exn (List UInt8) :=
  if plaintext = [] then .error (.cwcCipher "Input to decrypt is too small to contain any data.")
  else .ok plaintext

theorem result_decrypt_encrypt (hinverts : native.Inverts) {iv : Block 11}
    {plaintext output message : List UInt8}
    (h : (encrypt native cwc iv plaintext).result = .ok (output, message)) :
    (decrypt native cwc output).result = opened plaintext := by
  obtain ⟨hgood, _, hr⟩ := result_encrypt_iff.1 h
  have hmessage := cwc.length_encrypt_message native iv.1 iv.1 plaintext
    (List.replicate tagLength 0)
  have htag := (cwc.length_encrypt_tag native iv.1 iv.1 plaintext
    (List.replicate tagLength 0)).trans List.length_replicate
  have hinverse := hinverts cwc iv.1 iv.1 plaintext (List.replicate tagLength 0) hgood
  obtain ⟨rfl, _⟩ := Prod.mk.inj hr
  generalize cwc.encrypt native iv.1 iv.1 plaintext (List.replicate tagLength 0) = result at *
  rw [tagLength] at htag
  have hlen : (iv.1 ++ (result.2.2 ++ result.2.1)).length = 27 + plaintext.length := by
    rw [List.length_append, List.length_append, iv.2, htag, hmessage, ← Nat.add_assoc]
  unfold opened
  split
  · rename_i hempty
    rw [hempty, List.length_nil] at hlen
    rw [decrypt_of_le hlen.le]
    rfl
  · rename_i hne
    have hpos := List.length_pos_of_ne_nil hne
    have hiv : (iv.1 ++ (result.2.2 ++ result.2.1)).take 11 = iv.1 := List.take_left' iv.2
    have htags : ((iv.1 ++ (result.2.2 ++ result.2.1)).drop 11).take 16 = result.2.2 := by
      rw [List.drop_left' iv.2, List.take_left' htag]
    have hrest : (iv.1 ++ (result.2.2 ++ result.2.1)).drop 27 = result.2.1 := by
      rw [← List.append_assoc]
      exact List.drop_left' (by rw [List.length_append, iv.2, htag])
    rw [decrypt_of_lt (by omega), hiv, htags, hrest, hinverse]
    rfl

end CWCCipher

/-- The two classes that put random bytes and a tag in front of a message. -/
inductive EnvelopeCipher where
  | cwcCipher
  | cwcUdpServerCipher
  deriving DecidableEq, Repr

namespace EnvelopeCipher

variable (native : CwcNative) (key : CWC)

def encrypt (iv : Block 11) (input : List UInt8) :
    EnvelopeCipher → Codec (List UInt8 × List UInt8)
  | .cwcCipher => CWCCipher.encrypt native key iv input
  | .cwcUdpServerCipher => CWCUdpServerCipher.encrypt native key iv input

def decrypt (input : List UInt8) : EnvelopeCipher → Codec (List UInt8)
  | .cwcCipher => CWCCipher.decrypt native key input
  | .cwcUdpServerCipher => CWCUdpServerCipher.decrypt native key input

theorem encrypt_eq (iv : Block 11) (input : List UInt8) (sender : EnvelopeCipher) :
    sender.encrypt native key iv input = CWCCipher.encrypt native key iv input := by
  cases sender with
  | cwcCipher => rfl
  | cwcUdpServerCipher => exact CWCUdpServerCipher.encrypt_eq native key iv input

theorem decrypt_eq (input : List UInt8) (receiver : EnvelopeCipher) :
    receiver.decrypt native key input = CWCCipher.decrypt native key input := by
  cases receiver with
  | cwcCipher => rfl
  | cwcUdpServerCipher => exact CWCUdpServerCipher.decrypt_eq native key input

/-- Each class opens what either of them sealed under the same key, except that an empty
plaintext is rejected as too small. -/
theorem decrypt_encrypt {native : CwcNative} (hinverts : native.Inverts) {key : CWC}
    {iv : Block 11} {plaintext output message : List UInt8} {sender : EnvelopeCipher}
    (h : (sender.encrypt native key iv plaintext).result = .ok (output, message))
    (receiver : EnvelopeCipher) :
    (receiver.decrypt native key output).result =
      if plaintext = [] then
        .error (.cwcCipher "Input to decrypt is too small to contain any data.")
      else .ok plaintext := by
  rw [encrypt_eq] at h
  rw [decrypt_eq]
  exact CWCCipher.result_decrypt_encrypt hinverts h

theorem decrypt_encrypt_sample : ∃ output message,
    (cwcCipher.encrypt (Native.library .aesNi [] ⟨0, 3⟩) ⟨List.replicate 24 7⟩
      ⟨List.replicate 11 1, rfl⟩ [80, 73, 78, 71, 33]).result = .ok (output, message) ∧
    (cwcUdpServerCipher.decrypt (Native.library .aesNi [] ⟨0, 3⟩) ⟨List.replicate 24 7⟩
      output).result = .ok [80, 73, 78, 71, 33] := by
  have hgood := Native.library_good .aesNi [] ⟨0, 3⟩
  have hinverts := Native.library_inverts .aesNi [] ⟨0, 3⟩
  have hlength : ([80, 73, 78, 71, 33] : List UInt8).length + 27 ≤ maxArrayLength := by decide
  obtain ⟨tag, message, hencrypt⟩ := CWCCipher.result_encrypt hgood ⟨List.replicate 24 7⟩
    ⟨List.replicate 11 1, rfl⟩ hlength
  have hsealed : (cwcCipher.encrypt (Native.library .aesNi [] ⟨0, 3⟩) ⟨List.replicate 24 7⟩
      ⟨List.replicate 11 1, rfl⟩ [80, 73, 78, 71, 33]).result = _ := hencrypt
  exact ⟨_, _, hsealed, decrypt_encrypt hinverts hsealed cwcUdpServerCipher⟩

/-- What is sealed around an empty plaintext cannot be opened. -/
theorem empty_not_decrypted : ¬ ∀ native : CwcNative, native.Inverts →
    ∀ (key : CWC) (iv : Block 11) (plaintext output message : List UInt8)
      (sender receiver : EnvelopeCipher),
      (sender.encrypt native key iv plaintext).result = .ok (output, message) →
      (receiver.decrypt native key output).result = .ok plaintext := by
  intro h
  have hgood := Native.library_good .littleEndian [] ⟨0, 0⟩
  have hlength : ([] : List UInt8).length + 27 ≤ maxArrayLength := by decide
  obtain ⟨tag, message, hencrypt⟩ := CWCCipher.result_encrypt hgood ⟨List.replicate 16 0⟩
    ⟨List.replicate 11 0, rfl⟩ hlength
  have hinverts := Native.library_inverts .littleEndian [] ⟨0, 0⟩
  have hopened := h _ hinverts _ _ [] _ _ .cwcCipher .cwcCipher hencrypt
  have hrefused := CWCCipher.result_decrypt_encrypt hinverts hencrypt
  cases hopened.symm.trans hrefused

end EnvelopeCipher

end AcOpenServer
