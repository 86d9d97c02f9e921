import AcOpenServer.Native.Cwc.Calls

namespace AcOpenServer
open Library
set_option autoImplicit true

namespace Native

/-- The lengths a call has that the wrapper makes on a context it could key. -/
structure Callable (key iv hdr msg tag : List UInt8) : Prop where
  key : key.length = 16 ∨ key.length = 24 ∨ key.length = 32
  iv : 11 ≤ iv.length
  hdr : hdr.length < 2 ^ 31
  msg : msg.length < 2 ^ 31
  tag : tag.length ≤ 16

instance : Decidable (Callable key iv hdr msg tag) :=
  decidable_of_iff ((key.length = 16 ∨ key.length = 24 ∨ key.length = 32) ∧ 11 ≤ iv.length ∧
      hdr.length < 2 ^ 31 ∧ msg.length < 2 ^ 31 ∧ tag.length ≤ 16)
    ⟨fun h => ⟨h.1, h.2.1, h.2.2.1, h.2.2.2.1, h.2.2.2.2⟩,
      fun h => ⟨h.key, h.iv, h.hdr, h.msg, h.tag⟩⟩

variable (platform : Platform) (beyond : List UInt8) (addr : Addresses)

/-- The context of a key. -/
def keyedContext (key : List UInt8) : CwcCtx := (cwcInitAndKey platform beyond key .zero).2

/-- `cwc_encrypt_message` on the context of a key, up to the context it leaves. -/
def sealMessage (key iv hdr msg tag : List UInt8) : RetType × List UInt8 × List UInt8 :=
  let (code, out, _) := cwcEncryptMessage platform addr iv hdr msg tag
    (keyedContext platform beyond key)
  (code, out)

/-- `cwc_decrypt_message`, the same way. -/
def openMessage (key iv hdr msg tag : List UInt8) : RetType × List UInt8 :=
  let (code, out, _) := cwcDecryptMessage platform addr iv hdr msg tag
    (keyedContext platform beyond key)
  (code, out)

variable {platform beyond addr} {key iv hdr msg tag : List UInt8}

variable (platform beyond) in
theorem validRounds_keyedContext (hkey : key.length = 16 ∨ key.length = 24 ∨ key.length = 32) :
    validRounds (keyedContext platform beyond key).encCtx = true := by
  have hlength : ¬(key.length ≠ 16 ∧ key.length ≠ 24 ∧ key.length ≠ 32) := by omega
  rw [keyedContext, cwcInitAndKey, if_neg hlength]
  exact validRounds_aesEncryptKey platform beyond hkey _

variable (platform beyond addr) in
theorem sealMessage_eq (h : Callable key iv hdr msg tag) : ∃ ciphertext mac : List UInt8,
    sealMessage platform beyond addr key iv hdr msg tag = (.good, ciphertext, mac) ∧
      ciphertext.length = msg.length ∧ mac.length = tag.length ∧
      openMessage platform beyond addr key iv hdr ciphertext mac = (.good, msg) := by
  have hvalid := validRounds_keyedContext platform beyond h.key
  obtain ⟨_, hseal, -⟩ := cwcEncryptMessage_eq platform hvalid addr h.iv h.hdr h.msg h.tag
  generalize hc : xorStream (keyStream platform (keyedContext platform beyond key).encCtx
    (counterBase iv)) 0 msg = ciphertext at hseal
  generalize hmac : (sealTag platform (keyedContext platform beyond key).encCtx
    (keyedContext platform beyond key).zval iv hdr ciphertext).take tag.length = mac at hseal
  have hlength : ciphertext.length = msg.length := by rw [← hc, length_xorStream]
  have hmacLength : mac.length = tag.length := by
    rw [← hmac, List.length_take, length_sealTag, Nat.min_eq_left h.tag]
  obtain ⟨_, hopen, -⟩ := cwcDecryptMessage_eq platform hvalid addr h.iv h.hdr
    (hlength ▸ h.msg) (hmacLength ▸ h.tag)
  refine ⟨ciphertext, mac, ?_, hlength, hmacLength, ?_⟩
  · rw [sealMessage, hseal]
  · rw [openMessage, hopen, hmacLength, hmac, if_pos rfl, ← hc, xorStream_xorStream]

theorem length_sealMessage_message (h : Callable key iv hdr msg tag) :
    (sealMessage platform beyond addr key iv hdr msg tag).2.1.length = msg.length := by
  obtain ⟨ciphertext, mac, hseal, hlength, _⟩ := sealMessage_eq platform beyond addr h
  rw [hseal]
  exact hlength

theorem length_sealMessage_tag (h : Callable key iv hdr msg tag) :
    (sealMessage platform beyond addr key iv hdr msg tag).2.2.length = tag.length := by
  obtain ⟨ciphertext, mac, hseal, _, hmac, _⟩ := sealMessage_eq platform beyond addr h
  rw [hseal]
  exact hmac

theorem length_openMessage (h : Callable key iv hdr msg tag) :
    (openMessage platform beyond addr key iv hdr msg tag).2.length = msg.length := by
  have hvalid := validRounds_keyedContext platform beyond h.key
  obtain ⟨_, hopen, -⟩ := cwcDecryptMessage_eq platform hvalid addr h.iv h.hdr h.msg h.tag
  rw [openMessage, hopen]
  exact length_xorStream ..

variable (platform beyond addr)

/-- The library behind the functions the wrapper declares; on lengths the wrapper never passes it
leaves its buffers alone. -/
def library : CwcNative where
  cwcInitAndKey key := (cwcInitAndKey platform beyond key .zero).1.toInt
  cwcEncryptMessage key iv hdr msg tag :=
    if h : Callable key iv hdr msg tag then
      ((sealMessage platform beyond addr key iv hdr msg tag).1.toInt,
        ⟨(sealMessage platform beyond addr key iv hdr msg tag).2.1, length_sealMessage_message h⟩,
        ⟨(sealMessage platform beyond addr key iv hdr msg tag).2.2, length_sealMessage_tag h⟩)
    else (CwcNative.returnGood, Block.ofBytes msg, Block.ofBytes tag)
  cwcDecryptMessage key iv hdr msg tag :=
    if h : Callable key iv hdr msg tag then
      ((openMessage platform beyond addr key iv hdr msg tag).1.toInt,
        ⟨(openMessage platform beyond addr key iv hdr msg tag).2, length_openMessage h⟩)
    else (CwcNative.returnGood, Block.ofBytes msg)

variable {platform beyond addr} in
theorem library_encrypt_eq (h : Callable key iv hdr msg tag) :
    CWC.encrypt (library platform beyond addr) ⟨key⟩ iv hdr msg tag =
      ((sealMessage platform beyond addr key iv hdr msg tag).1.toInt == CwcNative.returnGood,
        (sealMessage platform beyond addr key iv hdr msg tag).2) := by
  simp only [CWC.encrypt, library, dif_pos h]

variable {platform beyond addr} in
theorem library_decrypt_eq (h : Callable key iv hdr msg tag) :
    CWC.decrypt (library platform beyond addr) ⟨key⟩ iv hdr msg tag =
      ((openMessage platform beyond addr key iv hdr msg tag).1.toInt == CwcNative.returnGood,
        (openMessage platform beyond addr key iv hdr msg tag).2) := by
  simp only [CWC.decrypt, library, dif_pos h]

/-- The library does what the ciphers of the server rely on. -/
theorem library_good : (library platform beyond addr).Good where
  initAndKey key := by
    simp only [library, cwcInitAndKey]
    split
    · rename_i h
      exact iff_of_false (by decide) (by omega)
    · rename_i h
      exact iff_of_true rfl (by omega)
  encryptMessage key iv hdr msg tag := by
    simp only [library]
    split
    · rename_i h
      obtain ⟨_, _, hseal, _⟩ := sealMessage_eq platform beyond addr h
      show (sealMessage platform beyond addr key iv hdr msg tag).1.toInt = _
      rw [hseal]
      rfl
    · rfl

theorem library_decrypt_encrypt (cwc : CWC) (iv hdr msg tag : List UInt8) :
    cwc.decrypt (library platform beyond addr) iv hdr
      (cwc.encrypt (library platform beyond addr) iv hdr msg tag).2.1
      (cwc.encrypt (library platform beyond addr) iv hdr msg tag).2.2 = (true, msg) := by
  obtain ⟨key⟩ := cwc
  by_cases h : Callable key iv hdr msg tag
  · obtain ⟨ciphertext, mac, hseal, hlength, hmac, hopen⟩ := sealMessage_eq platform beyond addr h
    have hcallable : Callable key iv hdr ciphertext mac :=
      ⟨h.key, h.iv, h.hdr, hlength ▸ h.msg, hmac ▸ h.tag⟩
    rw [library_encrypt_eq h, hseal, library_decrypt_eq hcallable, hopen]
    rfl
  · have hencrypt : CWC.encrypt (library platform beyond addr) ⟨key⟩ iv hdr msg tag =
        (true, msg, tag) := by
      simp only [CWC.encrypt, library, dif_neg h]
      rfl
    rw [hencrypt]
    simp only [CWC.decrypt, library, dif_neg h]
    rfl

theorem library_inverts : (library platform beyond addr).Inverts :=
  fun cwc iv hdr msg tag _ => library_decrypt_encrypt platform beyond addr cwc iv hdr msg tag

end Native

end AcOpenServer
