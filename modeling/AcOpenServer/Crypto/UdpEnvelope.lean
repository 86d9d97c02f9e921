import AcOpenServer.Crypto.UdpClient

namespace AcOpenServer
open Library
set_option autoImplicit true

/-- What the native library is given for a decryption. -/
structure CwcCall where
  iv : List UInt8
  header : List UInt8
  message : List UInt8
  tag : List UInt8
  deriving DecidableEq, Repr

def CwcCall.run (native : CwcNative) (key : CWC) (call : CwcCall) :
    Int × Block call.message.length :=
  native.cwcDecryptMessage key.key call.iv call.header call.message call.tag

namespace CWCUdpClientCipher

/-- `Decrypt` up to the call of the native library. -/
def nativeCall (input : List UInt8) : Codec CwcCall := do
  let messageOffset := authTokenLength + ivLength + tagLength + packetTypeLength
  if messageOffset ≥ input.length then
    throw (.cwcCipher "Input to decrypt is too small to contain any data.")
  else
    let output := List.replicate (input.length - messageOffset) 0
    let ivOffset := authTokenLength
    let tagOffset := ivOffset + ivLength
    let packetTypeOffset := tagOffset + tagLength
    let authTokenBytes ←
      arrayCopy input 0 (List.replicate authTokenLength 0) 0 authTokenLength
    let iv ← arrayCopy input ivOffset (List.replicate ivLength 0) 0 ivLength
    let tag ← arrayCopy input tagOffset (List.replicate tagLength 0) 0 tagLength
    let packetType := input.getD packetTypeOffset 0
    let message ← arrayCopy input messageOffset output 0 output.length
    let authTokenHeaderOffset := ivLength
    let packetTypeHeaderOffset := authTokenHeaderOffset + authTokenLength
    let header := List.replicate headerLength 0
    let header ← arrayCopy iv 0 header 0 iv.length
    let header ← arrayCopy authTokenBytes 0 header authTokenHeaderOffset authTokenBytes.length
    let header := header.set packetTypeHeaderOffset packetType
    return { iv, header, message, tag }

variable {native : CwcNative} {cipher : CWCUdpClientCipher}

theorem decrypt_eq_call (native : CwcNative) (cipher : CWCUdpClientCipher) (input : List UInt8) :
    cipher.decrypt native input = (do
      let call ← nativeCall input
      let (code, output) := call.run native cipher.key
      if code == CwcNative.returnGood then return output.1
      else throw (.cwcCipher "Failed to decrypt input.")) := by
  simp only [decrypt, nativeCall]
  by_cases hshort : authTokenLength + ivLength + tagLength + packetTypeLength ≥ input.length
  · rw [if_pos hshort, if_pos hshort, Traced.throw_bind]
  · rw [if_neg hshort, if_neg hshort]
    simp only [bind_assoc, pure_bind]
    rfl

theorem nativeCall_of_le {input : List UInt8} (h : input.length ≤ 36) :
    nativeCall input =
      throw (.cwcCipher "Input to decrypt is too small to contain any data.") := if_pos h

/-- The fields of a datagram that has a message. -/
structure Datagram where
  authToken : Block 8
  iv : Block 11
  tag : Block 16
  packetType : UInt8
  message : List UInt8
  nonempty : message ≠ []

namespace Datagram

def bytes (d : Datagram) : List UInt8 :=
  d.authToken.1 ++ (d.iv.1 ++ (d.tag.1 ++ ([d.packetType] ++ d.message)))

def call (d : Datagram) : CwcCall where
  iv := d.iv.1
  header := d.iv.1 ++ (d.authToken.1 ++ [d.packetType])
  message := d.message
  tag := d.tag.1

theorem call_injective {d e : Datagram} (h : d.call = e.call) : d.bytes = e.bytes := by
  obtain ⟨hiv, hheader, hmessage, htag⟩ := CwcCall.mk.inj h
  rw [hiv] at hheader
  have hrest := List.append_cancel_left hheader
  have hlength : d.authToken.1.length = e.authToken.1.length :=
    d.authToken.2.trans e.authToken.2.symm
  obtain ⟨hauthToken, hpacketType⟩ := List.append_inj hrest hlength
  rw [bytes, bytes, hauthToken, hiv, htag, hpacketType, hmessage]

theorem length_bytes (d : Datagram) : d.bytes.length = 36 + d.message.length := by
  rw [bytes, List.length_append, List.length_append, List.length_append, List.length_append,
    d.authToken.2, d.iv.2, d.tag.2, List.length_singleton]
  omega

theorem exists_bytes {input : List UInt8} (h : 36 < input.length) :
    ∃ d : Datagram, d.bytes = input := by
  have htoken : (input.take 8).length = 8 := by
    rw [List.length_take]
    omega
  have hiv : ((input.drop 8).take 11).length = 11 := by
    rw [List.length_take, List.length_drop]
    omega
  have htag : ((input.drop 19).take 16).length = 16 := by
    rw [List.length_take, List.length_drop]
    omega
  have hmessage : input.drop 36 ≠ [] := by
    intro hnil
    have hlength := congrArg List.length hnil
    rw [List.length_drop, List.length_nil] at hlength
    omega
  have hpacketType : [input[35]] ++ input.drop 36 = input.drop 35 :=
    (List.drop_eq_getElem_cons (by omega)).symm
  have htokens := List.take_append_drop 8 input
  have hivs := List.take_append_drop 11 (input.drop 8)
  have htags := List.take_append_drop 16 (input.drop 19)
  rw [List.drop_drop] at hivs htags
  refine ⟨⟨⟨_, htoken⟩, ⟨_, hiv⟩, ⟨_, htag⟩, input[35], _, hmessage⟩, ?_⟩
  rw [bytes, hpacketType, htags, hivs, htokens]

end Datagram

theorem arrayCopy_middle {a b c destination : List UInt8} (ha : a.length = offset)
    (hb : b.length = n) (hd : destination.length = n) :
    arrayCopy (a ++ (b ++ c)) offset destination 0 n = pure b := by
  have hfits : offset + n ≤ (a ++ (b ++ c)).length := by
    rw [List.length_append, List.length_append]
    omega
  rw [arrayCopy_read hfits hd, List.drop_left' ha, List.take_left' hb]

theorem header_bind (iv : Block 11) (authToken : Block 8) (packetType : UInt8)
    (f : List UInt8 → Codec α) :
    (do
      let header ← arrayCopy iv.1 0 (List.replicate headerLength 0) 0 iv.1.length
      let header ← arrayCopy authToken.1 0 header ivLength authToken.1.length
      f (header.set (ivLength + authTokenLength) packetType)) =
        f (iv.1 ++ (authToken.1 ++ [packetType])) := by
  have hiv := arrayCopy_append (a := []) (b := List.replicate 11 0) (c := List.replicate 9 0)
    (n := 0) iv.1 rfl (List.length_replicate.trans iv.2.symm)
  have htoken := arrayCopy_append (a := iv.1) (b := List.replicate 8 0) (c := [0])
    authToken.1 iv.2 (List.length_replicate.trans authToken.2.symm)
  have hset : (iv.1 ++ (authToken.1 ++ [0])).set 19 packetType =
      iv.1 ++ (authToken.1 ++ [packetType]) := by
    rw [List.set_append_right _ _ (by rw [iv.2]; decide),
      List.set_append_right _ _ (by rw [iv.2, authToken.2]), iv.2, authToken.2]
    rfl
  rw [← hset]
  exact (congrArg (· >>= _) hiv).trans
    ((Traced.pure_bind _ _).trans ((congrArg (· >>= _) htoken).trans (Traced.pure_bind _ _)))

theorem nativeCall_bytes (d : Datagram) : nativeCall d.bytes = pure d.call := by
  have hlong : ¬ 36 ≥ d.bytes.length := by
    have hpos := List.length_pos_of_ne_nil d.nonempty
    rw [d.length_bytes]
    omega
  have htoken : arrayCopy d.bytes 0 (List.replicate 8 0) 0 8 = pure d.authToken.1 :=
    arrayCopy_middle (a := []) rfl d.authToken.2 List.length_replicate
  have hiv : arrayCopy d.bytes 8 (List.replicate 11 0) 0 11 = pure d.iv.1 :=
    arrayCopy_middle d.authToken.2 d.iv.2 List.length_replicate
  have htag : arrayCopy d.bytes 19 (List.replicate 16 0) 0 16 = pure d.tag.1 := by
    rw [Datagram.bytes, ← List.append_assoc]
    apply arrayCopy_middle _ d.tag.2 List.length_replicate
    rw [List.length_append, d.authToken.2, d.iv.2]
  have hfront : (d.authToken.1 ++ (d.iv.1 ++ d.tag.1)).length = 35 := by
    rw [List.length_append, List.length_append, d.authToken.2, d.iv.2, d.tag.2]
  have htype : d.bytes.getD 35 0 = d.packetType := by
    have hbytes : d.bytes =
        (d.authToken.1 ++ (d.iv.1 ++ d.tag.1)) ++ d.packetType :: d.message := by
      simp only [Datagram.bytes, List.append_assoc, List.singleton_append]
    rw [hbytes, ← hfront, List.getD_append_right _ _ _ _ (Nat.le_refl _), Nat.sub_self]
    rfl
  have hmessage : ∀ destination : List UInt8, destination.length = d.message.length →
      arrayCopy d.bytes 36 destination 0 destination.length = pure d.message := by
    intro destination hlength
    have hbytes : d.bytes =
        (d.authToken.1 ++ (d.iv.1 ++ d.tag.1) ++ [d.packetType]) ++ (d.message ++ []) := by
      simp only [Datagram.bytes, List.append_assoc, List.append_nil]
    rw [hbytes, hlength]
    apply arrayCopy_middle _ rfl hlength
    rw [List.length_append, hfront, List.length_singleton]
  have hcall : nativeCall d.bytes = (do
      let authTokenBytes ← arrayCopy d.bytes 0 (List.replicate 8 0) 0 8
      let iv ← arrayCopy d.bytes 8 (List.replicate 11 0) 0 11
      let tag ← arrayCopy d.bytes 19 (List.replicate 16 0) 0 16
      let message ← arrayCopy d.bytes 36 (List.replicate (d.bytes.length - 36) 0) 0
        (List.replicate (d.bytes.length - 36) (0 : UInt8)).length
      let header ← arrayCopy iv 0 (List.replicate headerLength 0) 0 iv.length
      let header ← arrayCopy authTokenBytes 0 header ivLength authTokenBytes.length
      let header := header.set (ivLength + authTokenLength) (d.bytes.getD 35 0)
      return { iv, header, message, tag }) := if_neg hlong
  have houtput : (List.replicate (d.bytes.length - 36) (0 : UInt8)).length = d.message.length := by
    rw [List.length_replicate, d.length_bytes]
    omega
  rw [hcall, htoken, Traced.pure_bind, hiv, Traced.pure_bind, htag, Traced.pure_bind,
    hmessage _ houtput, Traced.pure_bind, htype]
  exact header_bind d.iv d.authToken d.packetType fun header =>
    pure ({ iv := d.iv.1, header, message := d.message, tag := d.tag.1 } : CwcCall)

/-- What is opened was accepted by the native library. -/
theorem accepted_of_decrypts {input output : List UInt8}
    (h : (cipher.decrypt native input).result = .ok output) :
    ∃ call, (nativeCall input).result = .ok call ∧
      (call.run native cipher.key).1 = CwcNative.returnGood := by
  rw [decrypt_eq_call] at h
  obtain ⟨call, hcall, hrest⟩ := Traced.result_bind_eq_ok.1 h
  refine ⟨call, hcall, ?_⟩
  by_contra hbad
  dsimp only at hrest
  rw [if_neg fun hgood => hbad (beq_iff_eq.1 hgood)] at hrest
  cases hrest

theorem nativeCall_injective {a b : List UInt8} {call : CwcCall}
    (ha : (nativeCall a).result = .ok call) (hb : (nativeCall b).result = .ok call) : a = b := by
  have hlong : ∀ {input : List UInt8}, (nativeCall input).result = .ok call →
      36 < input.length := by
    intro input hcall
    by_contra hshort
    rw [nativeCall_of_le (Nat.not_lt.1 hshort)] at hcall
    cases hcall
  obtain ⟨d, rfl⟩ := Datagram.exists_bytes (hlong ha)
  obtain ⟨e, rfl⟩ := Datagram.exists_bytes (hlong hb)
  rw [nativeCall_bytes] at ha hb
  apply Datagram.call_injective
  exact Except.ok.inj (ha.trans hb.symm)

/-- Every byte of a datagram is given to the native library in one of the fields of its call, and
a datagram that is opened is one of those whose calls the library accepts. -/
theorem datagram_authenticated (native : CwcNative) (cipher : CWCUdpClientCipher) :
    (∀ input, cipher.decrypt native input = (do
      let call ← nativeCall input
      let (code, output) := native.cwcDecryptMessage cipher.key.key call.iv call.header
        call.message call.tag
      if code == CwcNative.returnGood then return output.1
      else throw (.cwcCipher "Failed to decrypt input."))) ∧
      (∀ input, input.length ≤ 36 → nativeCall input =
        throw (.cwcCipher "Input to decrypt is too small to contain any data.")) ∧
      (∀ input, 36 < input.length → ∃ d : Datagram, d.bytes = input) ∧
      (∀ d : Datagram, nativeCall d.bytes = pure d.call) ∧
      (∀ a b call, (nativeCall a).result = .ok call → (nativeCall b).result = .ok call → a = b) ∧
      ∀ sent : Set (List UInt8),
        (∀ call : CwcCall, (native.cwcDecryptMessage cipher.key.key call.iv call.header
            call.message call.tag).1 = CwcNative.returnGood →
          ∃ input ∈ sent, (nativeCall input).result = .ok call) →
        ∀ input output, (cipher.decrypt native input).result = .ok output → input ∈ sent := by
  refine ⟨decrypt_eq_call native cipher, fun _ => nativeCall_of_le,
    fun _ => Datagram.exists_bytes, nativeCall_bytes, fun _ _ _ => nativeCall_injective, ?_⟩
  intro sent hunforgeable input output hdecrypts
  obtain ⟨call, hcall, hgood⟩ := accepted_of_decrypts hdecrypts
  obtain ⟨input', hsent, hcall'⟩ := hunforgeable call hgood
  obtain rfl := nativeCall_injective hcall hcall'
  exact hsent

end CWCUdpClientCipher

end AcOpenServer
