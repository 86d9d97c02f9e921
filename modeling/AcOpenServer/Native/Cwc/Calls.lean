import AcOpenServer.Native.Aes.Keyed
import AcOpenServer.Native.Cwc.Message

namespace AcOpenServer
open Library
set_option autoImplicit true

namespace Native

/-- The calls of the library on a keyed context. -/
inductive ContextCall where
  | initMessage (iv : List UInt8)
  | data (call : MessageCall)
  | computeTag (tag : List UInt8)
  deriving DecidableEq, Repr

/-- A key and a message with its initialisation vector, if one was started. -/
abbrev Started := Option (List UInt8 × Message)

namespace ContextCall

variable (platform : Platform)

/-- What a call returns, and what it leaves in the buffer it writes. -/
def exec (ctx : CwcCtx) : ContextCall → (RetType × List UInt8) × CwcCtx
  | initMessage iv => ((.good, []), cwcInitMessage iv ctx)
  | data call =>
    let (out, ctx) := call.exec platform ctx
    ((.good, out), ctx)
  | computeTag tag =>
    let (code, tag, ctx) := cwcComputeTag platform tag ctx
    ((code, tag), ctx)

/-- The same for a message: one that has its tag is over, unless the counts were refused. -/
def apply (encCtx : AesCtx) (zval : Words 4) (started : Started) :
    ContextCall → (RetType × List UInt8) × Started
  | initMessage iv => ((.good, []), some (iv, .empty))
  | data call =>
    match started with
    | none => ((.good, []), none)
    | some (iv, m) =>
      let (out, m) := call.apply (keyStream platform encCtx (counterBase iv)) m
      ((.good, out), some (iv, m))
  | computeTag tag =>
    match started with
    | none => ((.error, tag), none)
    | some (iv, m) =>
      if m.code = .error then ((.error, tag), some (iv, m))
      else ((m.code, (m.tag platform encCtx zval (counterBase iv)).take tag.length), none)

/-- The calls come in the order that the library asks for, with what its counts can hold. -/
def Fits : Started → ContextCall → Prop
  | _, initMessage iv => 11 ≤ iv.length
  | none, data _ => False
  | some (_, m), data call => call.Fits m
  | none, computeTag _ => False
  | some (_, m), computeTag tag => tag.length ≤ 16 ∧ m.crypted < 2 ^ 32

instance : (started : Started) → (call : ContextCall) → Decidable (Fits started call)
  | _, initMessage iv => inferInstanceAs (Decidable (11 ≤ iv.length))
  | none, data _ => .isFalse fun h => h
  | some (_, m), data call => inferInstanceAs (Decidable (call.Fits m))
  | none, computeTag _ => .isFalse fun h => h
  | some (_, m), computeTag tag =>
    inferInstanceAs (Decidable (tag.length ≤ 16 ∧ m.crypted < 2 ^ 32))

end ContextCall

variable (platform : Platform)

/-- A context stands for the message that was started, and keeps its key between messages. -/
structure Keyed (encCtx : AesCtx) (zval : Words 4) (started : Started) (ctx : CwcCtx) :
    Prop where
  encCtx_eq : ctx.encCtx = encCtx
  zval_eq : ctx.zval = zval
  message : ∀ iv m, started = some (iv, m) →
    Represents platform encCtx zval (counterBase iv) m ctx

variable {platform} {encCtx : AesCtx} {zval : Words 4}

theorem Keyed.none {ctx : CwcCtx} (hencCtx : ctx.encCtx = encCtx) (hzval : ctx.zval = zval) :
    Keyed platform encCtx zval none ctx :=
  ⟨hencCtx, hzval, fun _ _ h => by cases h⟩

theorem Represents.keyed {m : Message} {ctx : CwcCtx}
    (h : Represents platform encCtx zval (counterBase iv) m ctx) :
    Keyed platform encCtx zval (some (iv, m)) ctx := by
  refine ⟨h.encCtx, h.zval, ?_⟩
  rintro _ _ hsome
  cases hsome
  exact h

theorem Keyed.exec {started : Started} {ctx : CwcCtx}
    (h : Keyed platform encCtx zval started ctx) (hvalid : validRounds encCtx = true)
    (call : ContextCall) (hfits : call.Fits started) :
    (call.exec platform ctx).1 = (call.apply platform encCtx zval started).1 ∧
      Keyed platform encCtx zval (call.apply platform encCtx zval started).2
        (call.exec platform ctx).2 := by
  cases call with
  | initMessage iv =>
    have hinit := represents_cwcInitMessage platform ctx hfits
    rw [h.encCtx_eq, h.zval_eq] at hinit
    exact ⟨rfl, hinit.keyed⟩
  | data call =>
    match started, h, hfits with
    | some (iv, m), h, hfits =>
      obtain ⟨hout, hnext⟩ := (h.message iv m rfl).exec hvalid call hfits
      exact ⟨Prod.ext rfl hout, hnext.keyed⟩
  | computeTag tag =>
    match started, h, hfits with
    | some (iv, m), h, hfits =>
      obtain ⟨next, hrun, hencCtx, hzval, hsame⟩ :=
        (h.message iv m rfl).computeTag hvalid hfits.2 hfits.1
      simp only [ContextCall.exec, ContextCall.apply, hrun]
      by_cases herror : m.code = .error
      · rw [if_pos herror, if_pos herror, herror, hsame herror]
        exact ⟨rfl, h⟩
      · rw [if_neg herror, if_neg herror]
        exact ⟨rfl, .none hencCtx hzval⟩

/-- Over any calls in the order it asks for, on however many messages, a context returns what
the key and the messages determine. -/
theorem runMealy_contextCall {started : Started} {ctx : CwcCtx}
    (h : Keyed platform encCtx zval started ctx) (hvalid : validRounds encCtx = true)
    {calls : List ContextCall}
    (hfits : AllMeet (ContextCall.apply platform encCtx zval) (fun s c => c.Fits s) started
      calls) :
    (runMealy (ContextCall.exec platform) ctx calls).1 =
        (runMealy (ContextCall.apply platform encCtx zval) started calls).1 ∧
      Keyed platform encCtx zval (runMealy (ContextCall.apply platform encCtx zval) started calls).2
        (runMealy (ContextCall.exec platform) ctx calls).2 :=
  runMealy_refines (ContextCall.exec platform) (R := Keyed platform encCtx zval)
    (fun call _ _ hkeyed hcall => hkeyed.exec hvalid call hcall) h hfits

theorem runMealy_contextCall_sample :
    let ctx := (cwcInitAndKey .littleEndian [] (List.replicate 16 7) .zero).2
    let calls := [ContextCall.initMessage (List.replicate 11 1), .data (.authHeader 0 [2, 3]),
      .data (.encrypt 3 [4, 5, 6]), .computeTag (List.replicate 16 0)]
    (runMealy (ContextCall.exec .littleEndian) ctx calls).1 =
      (runMealy (ContextCall.apply .littleEndian ctx.encCtx ctx.zval) none calls).1 :=
  (runMealy_contextCall (.none rfl rfl) rfl
    (by exact ⟨by decide, by decide, by decide, by decide, trivial⟩)).1

section Keying

theorem value_beWords_lt (order : ByteOrder) {bytes : List UInt8}
    (h : (bytes.getD 0 0).toNat < 2 ^ 7) : value (beWords order bytes) < 2 ^ 127 := by
  have hfirst : (beWords order bytes).get 0 = bytes2word .littleEndian (bytes.getD 3 0)
      (bytes.getD 2 0) (bytes.getD 1 0) (bytes.getD 0 0) := by
    cases order with
    | littleEndian =>
      rw [beWords, Vector.get_ofFn, blockIn, Vector.get_ofFn]
      exact bswap32_bytes2word .littleEndian _ _ _ _
    | bigEndian =>
      rw [beWords, blockIn, Vector.get_ofFn]
      exact bytes2word_bigEndian _ _ _ _
  have hlt : (beWords order bytes)[0].toNat < 2 ^ 31 := by
    show ((beWords order bytes).get 0).toNat < 2 ^ 31
    have h1 := (bytes.getD 1 0).toNat_lt
    have h2 := (bytes.getD 2 0).toNat_lt
    have h3 := (bytes.getD 3 0).toNat_lt
    rw [hfirst, toNat_bytes2word_littleEndian]
    simp only [ofLE]
    omega
  have h1 := (beWords order bytes)[1].toNat_lt
  have h2 := (beWords order bytes)[2].toNat_lt
  have h3 := (beWords order bytes)[3].toNat_lt
  rw [value]
  omega

theorem getD_setByte (x : Block 16) (b : UInt8) : (setByte x 0 b).1.getD 0 0 = b := by
  have hlen : 0 < x.1.length := by rw [x.2]; decide
  show (x.1.set 0 b).getD 0 0 = b
  rw [List.getD_eq_getElem _ _ (by rw [List.length_set]; exact hlen), List.getElem_set_self]

/-- Keying makes a context that every result about messages holds for, and a hash key that the
arithmetic is made for. -/
theorem cwcInitAndKey_keyed (platform : Platform) (beyond : List UInt8) {key : List UInt8}
    (hkey : key.length = 16 ∨ key.length = 24 ∨ key.length = 32) (ctx : CwcCtx) :
    let keyed := cwcInitAndKey platform beyond key ctx
    keyed.1 = .good ∧ validRounds keyed.2.encCtx = true ∧ value keyed.2.zval < 2 ^ 127 ∧
      Keyed platform keyed.2.encCtx keyed.2.zval none keyed.2 := by
  have hlength : ¬(key.length ≠ 16 ∧ key.length ≠ 24 ∧ key.length ≠ 32) := by omega
  dsimp only
  rw [cwcInitAndKey, if_neg hlength]
  refine ⟨rfl, validRounds_aesEncryptKey platform beyond hkey _, value_beWords_lt _ ?_, .none rfl rfl⟩
  rw [getD_setByte, UInt8.toNat_and]
  exact Nat.lt_of_le_of_lt Nat.and_le_right (by decide)

theorem cwcInitAndKey_keyed_sample :
    let keyed := cwcInitAndKey .aesNi [8, 9] (List.replicate 24 7) .zero
    keyed.1 = .good ∧ validRounds keyed.2.encCtx = true ∧ value keyed.2.zval < 2 ^ 127 ∧
      Keyed .aesNi keyed.2.encCtx keyed.2.zval none keyed.2 :=
  cwcInitAndKey_keyed .aesNi [8, 9] (.inr (.inl rfl)) .zero

end Keying

variable (platform encCtx zval) in
/-- The tag of a header and a ciphertext. -/
def sealTag (iv hdr ciphertext : List UInt8) : List UInt8 :=
  Message.tag platform encCtx zval (counterBase iv) ⟨hdr, ciphertext, ciphertext.length⟩

theorem length_sealTag (iv hdr ciphertext : List UInt8) :
    (sealTag platform encCtx zval iv hdr ciphertext).length = 16 := by
  have hlen (x y : Block 16) : (List.zipWith (· ^^^ ·) x.1 y.1).length = 16 := by
    rw [List.length_zipWith, x.2, y.2, Nat.min_self]
  exact hlen _ _

section OneShot

variable {ctx : CwcCtx} {iv hdr msg tag : List UInt8}

variable (platform ctx) in
theorem represents_cwcAuthHeader (hiv : 11 ≤ iv.length) (hhdr : hdr.length < 2 ^ 31) (addr : Int) :
    Represents platform ctx.encCtx ctx.zval (counterBase iv) ⟨hdr, [], 0⟩
      (cwcAuthHeader platform addr hdr (cwcInitMessage iv ctx)) :=
  (represents_cwcInitMessage platform ctx hiv).authHeader rfl addr hdr (by
    show 0 + hdr.length < 2 ^ 32
    omega)

variable (platform) in
theorem cwcEncryptMessage_eq (hvalid : validRounds ctx.encCtx = true) (addr : Addresses)
    (hiv : 11 ≤ iv.length) (hhdr : hdr.length < 2 ^ 31) (hmsg : msg.length < 2 ^ 31)
    (htag : tag.length ≤ 16) :
    let ciphertext := xorStream (keyStream platform ctx.encCtx (counterBase iv)) 0 msg
    ∃ next, cwcEncryptMessage platform addr iv hdr msg tag ctx =
        (.good, (ciphertext,
          (sealTag platform ctx.encCtx ctx.zval iv hdr ciphertext).take tag.length), next) ∧
      next.encCtx = ctx.encCtx ∧ next.zval = ctx.zval := by
  intro ciphertext
  have hheader := represents_cwcAuthHeader platform ctx hiv hhdr addr.hdr
  obtain ⟨hout, hnext⟩ := hheader.exec hvalid (.encrypt addr.msg msg)
    ⟨hmsg, by show 0 + msg.length < 2 ^ 32; omega⟩
  have hmessage : ((MessageCall.encrypt addr.msg msg).apply
      (keyStream platform ctx.encCtx (counterBase iv)) ⟨hdr, [], 0⟩).2 =
        ⟨hdr, ciphertext, ciphertext.length⟩ := by
    rw [MessageCall.apply, length_xorStream]
    exact congrArg (Message.mk hdr ciphertext) (Nat.zero_add _)
  rw [hmessage] at hnext
  obtain ⟨next, hrun, hencCtx, hzval, -⟩ := hnext.computeTag hvalid
    (by show ciphertext.length < 2 ^ 32; rw [length_xorStream]; omega) htag
  rw [show (⟨hdr, ciphertext, ciphertext.length⟩ : Message).code = .good from if_pos rfl] at hrun
  refine ⟨next, ?_, hencCtx, hzval⟩
  simp only [MessageCall.exec] at hout hrun
  simp only [cwcEncryptMessage, hout, hrun]
  rfl

variable (platform) in
theorem cwcDecryptMessage_eq (hvalid : validRounds ctx.encCtx = true) (addr : Addresses)
    (hiv : 11 ≤ iv.length) (hhdr : hdr.length < 2 ^ 31) (hmsg : msg.length < 2 ^ 31)
    (htag : tag.length ≤ 16) :
    ∃ next, cwcDecryptMessage platform addr iv hdr msg tag ctx =
        (if tag = (sealTag platform ctx.encCtx ctx.zval iv hdr msg).take tag.length then .good
          else .error,
          xorStream (keyStream platform ctx.encCtx (counterBase iv)) 0 msg, next) ∧
      next.encCtx = ctx.encCtx ∧ next.zval = ctx.zval := by
  have hheader := represents_cwcAuthHeader platform ctx hiv hhdr addr.hdr
  obtain ⟨hout, hnext⟩ := hheader.exec hvalid (.decrypt addr.msg msg)
    ⟨hmsg, by show 0 + msg.length < 2 ^ 32; omega⟩
  have hmessage : ((MessageCall.decrypt addr.msg msg).apply
      (keyStream platform ctx.encCtx (counterBase iv)) ⟨hdr, [], 0⟩).2 =
        ⟨hdr, msg, msg.length⟩ := by
    rw [MessageCall.apply]
    exact congrArg (Message.mk hdr msg) (Nat.zero_add _)
  rw [hmessage] at hnext
  have hlen : (List.replicate tag.length (0 : UInt8)).length = tag.length := List.length_replicate
  obtain ⟨next, hrun, hencCtx, hzval, -⟩ := hnext.computeTag hvalid
    (by show msg.length < 2 ^ 32; omega) (hlen.le.trans htag)
  rw [show (⟨hdr, msg, msg.length⟩ : Message).code = .good from if_pos rfl, hlen] at hrun
  refine ⟨next, ?_, hencCtx, hzval⟩
  simp only [MessageCall.exec] at hout hrun
  have hgood : ∀ p : Prop, [Decidable p] →
      (if RetType.good ≠ .good ∨ ¬p then RetType.error else .good) = if p then .good else .error := by
    intro p _
    by_cases hp : p
    · rw [if_pos hp, if_neg (by simp [hp])]
    · rw [if_neg hp, if_pos (.inr hp)]
  simp only [cwcDecryptMessage, hout, hrun]
  exact Prod.ext (hgood _) rfl

/-- What is encrypted comes back under the same key, header and vector, wherever the buffers
are, and whatever the contexts did before. -/
theorem cwcDecryptMessage_cwcEncryptMessage {ctx' : CwcCtx} (hvalid : validRounds ctx.encCtx = true)
    (hencCtx : ctx'.encCtx = ctx.encCtx) (hzval : ctx'.zval = ctx.zval) (addr addr' : Addresses)
    (hiv : 11 ≤ iv.length) (hhdr : hdr.length < 2 ^ 31) (hmsg : msg.length < 2 ^ 31)
    (htag : tag.length ≤ 16) :
    let encrypted := cwcEncryptMessage platform addr iv hdr msg tag ctx
    let decrypted := cwcDecryptMessage platform addr' iv hdr encrypted.2.1.1 encrypted.2.1.2 ctx'
    encrypted.1 = .good ∧ decrypted.1 = .good ∧ decrypted.2.1 = msg := by
  obtain ⟨_, hrun, -⟩ := cwcEncryptMessage_eq platform hvalid addr hiv
    hhdr hmsg htag
  dsimp only at hrun ⊢
  rw [hrun]
  dsimp only
  generalize hc : xorStream (keyStream platform ctx.encCtx (counterBase iv)) 0 msg = ciphertext
  have hlen : ((sealTag platform ctx.encCtx ctx.zval iv hdr ciphertext).take tag.length).length =
      tag.length := by
    rw [List.length_take, length_sealTag, Nat.min_eq_left htag]
  obtain ⟨_, hback, -⟩ := cwcDecryptMessage_eq platform
    (show validRounds ctx'.encCtx = true by rw [hencCtx]; exact hvalid) addr' hiv hhdr
    (show ciphertext.length < 2 ^ 31 by rw [← hc, length_xorStream]; exact hmsg)
    (hlen.le.trans htag)
  rw [hback, hencCtx, hzval, hlen, if_pos rfl, ← hc, xorStream_xorStream]
  exact ⟨rfl, rfl, rfl⟩

theorem cwcDecryptMessage_cwcEncryptMessage_sample :
    let ctx := (cwcInitAndKey .littleEndian [] (List.replicate 16 7) .zero).2
    let encrypted := cwcEncryptMessage .littleEndian ⟨0, 3⟩ (List.replicate 11 1) [2, 3] [4, 5, 6]
      (List.replicate 16 0) ctx
    let decrypted := cwcDecryptMessage .littleEndian ⟨1, 2⟩ (List.replicate 11 1) [2, 3]
      encrypted.2.1.1 encrypted.2.1.2 ctx
    encrypted.1 = .good ∧ decrypted.1 = .good ∧ decrypted.2.1 = [4, 5, 6] :=
  cwcDecryptMessage_cwcEncryptMessage rfl rfl rfl ⟨0, 3⟩ ⟨1, 2⟩ (by decide) (by decide)
    (by decide) (by decide)

/-- A message is accepted exactly if it is what encrypting the text that it decrypts to gives. -/
theorem cwcDecryptMessage_good_iff (hvalid : validRounds ctx.encCtx = true) (addr addr' : Addresses)
    (hiv : 11 ≤ iv.length) (hhdr : hdr.length < 2 ^ 31) (hmsg : msg.length < 2 ^ 31)
    (htag : tag.length ≤ 16) (old : List UInt8) (hold : old.length = tag.length) :
    (cwcDecryptMessage platform addr iv hdr msg tag ctx).1 = .good ↔
      (cwcEncryptMessage platform addr' iv hdr
        (cwcDecryptMessage platform addr iv hdr msg tag ctx).2.1 old ctx).2.1 = (msg, tag) := by
  obtain ⟨_, hrun, -⟩ := cwcDecryptMessage_eq platform hvalid addr hiv
    hhdr hmsg htag
  obtain ⟨_, hback, -⟩ := cwcEncryptMessage_eq platform hvalid addr' hiv
    hhdr (show (xorStream (keyStream platform ctx.encCtx (counterBase iv)) 0 msg).length < 2 ^ 31 by
      rw [length_xorStream]; exact hmsg) (hold.le.trans htag)
  rw [hrun, hback, xorStream_xorStream, hold]
  dsimp only
  constructor
  · intro hgood
    split at hgood
    · next h => rw [← h]
    · cases hgood
  · intro heq
    rw [if_pos (Prod.mk.inj heq).2.symm]

theorem cwcDecryptMessage_good_iff_sample :
    let ctx := (cwcInitAndKey .bigEndian [] (List.replicate 24 7) .zero).2
    let decrypted := cwcDecryptMessage .bigEndian ⟨0, 3⟩ (List.replicate 11 1) [2, 3] [4, 5, 6]
      [7, 8] ctx
    decrypted.1 = .good ↔ (cwcEncryptMessage .bigEndian ⟨1, 2⟩ (List.replicate 11 1) [2, 3]
      decrypted.2.1 [0, 0] ctx).2.1 = ([4, 5, 6], [7, 8]) :=
  cwcDecryptMessage_good_iff rfl ⟨0, 3⟩ ⟨1, 2⟩ (by decide) (by decide) (by decide) (by decide)
    [0, 0] rfl

/-- The tag is made of the polynomial of the header and the ciphertext, at the hash key. -/
theorem cwcEncryptMessage_tag (hvalid : validRounds ctx.encCtx = true)
    (hz : value ctx.zval < 2 ^ 127 - 2 ^ 96) (addr : Addresses) (hiv : 11 ≤ iv.length)
    (hhdr : hdr.length < 2 ^ 31) (hmsg : msg.length < 2 ^ 31) (htag : tag.length ≤ 16) :
    let encrypted := (cwcEncryptMessage platform addr iv hdr msg tag ctx).2.1
    ∃ hash, value hash ≡ hashNumber (value ctx.zval)
          (cutInto ablkLen (padTo ablkLen 0 hdr ++ padTo ablkLen 0 encrypted.1)).blocks +
        (hdr.length * 2 ^ 64 + msg.length) [MOD mersenne 127] ∧
      encrypted.2 = (List.zipWith (· ^^^ ·)
        (encryptBlock platform ctx.encCtx (beBytes platform.order hash)).1
        (encryptBlock platform ctx.encCtx (counterBlock (counterBase iv) 0)).1).take tag.length := by
  obtain ⟨_, hrun, -⟩ := cwcEncryptMessage_eq platform hvalid addr hiv hhdr hmsg htag
  dsimp only at hrun ⊢
  rw [hrun]
  dsimp only
  generalize hc : xorStream (keyStream platform ctx.encCtx (counterBase iv)) 0 msg = ciphertext
  have hlen : ciphertext.length = msg.length := by rw [← hc, length_xorStream]
  have hhash : value (Message.hash ctx.zval ⟨hdr, ciphertext, ciphertext.length⟩) ≡ _
      [MOD mersenne 127] :=
    Message.hash_modEq hz (show hdr.length < 2 ^ 32 by omega)
      (show ciphertext.length < 2 ^ 32 by omega)
  dsimp only [Message.padded] at hhash
  rw [hlen] at hhash
  exact ⟨_, hhash, by rw [sealTag, Message.tag, hlen]⟩

theorem cwcEncryptMessage_tag_sample :
    let ctx : CwcCtx := { CwcCtx.zero with
      encCtx := (aesEncryptKey .aesNi [] (List.replicate 32 7) 32 CwcCtx.zero.encCtx).2
      zval := #v[1, 2, 3, 4] }
    let iv : List UInt8 := List.replicate 11 1
    let hdr : List UInt8 := [2, 3]
    let msg : List UInt8 := [4, 5, 6]
    let tag : List UInt8 := List.replicate 16 0
    let encrypted := (cwcEncryptMessage .aesNi ⟨0, 3⟩ iv hdr msg tag ctx).2.1
    ∃ hash, value hash ≡ hashNumber (value ctx.zval)
          (cutInto ablkLen (padTo ablkLen 0 hdr ++ padTo ablkLen 0 encrypted.1)).blocks +
        (hdr.length * 2 ^ 64 + msg.length) [MOD mersenne 127] ∧
      encrypted.2 = (List.zipWith (· ^^^ ·)
        (encryptBlock .aesNi ctx.encCtx (beBytes Platform.aesNi.order hash)).1
        (encryptBlock .aesNi ctx.encCtx (counterBlock (counterBase iv) 0)).1).take tag.length :=
  cwcEncryptMessage_tag rfl (by decide) ⟨0, 3⟩ (by decide) (by decide) (by decide) (by decide)

end OneShot

section Chunks

variable {ctx : CwcCtx} {iv tag : List UInt8}

theorem runMealy_authHeaders (ks : Nat → UInt8) (m : Message) (hdrs : List (Int × List UInt8)) :
    runMealy (MessageCall.apply ks) m (hdrs.map fun c => .authHeader c.1 c.2) =
      (hdrs.map fun _ => [], { m with hdr := m.hdr ++ (hdrs.map Prod.snd).flatten }) := by
  induction hdrs generalizing m with
  | nil => rw [List.map_nil, List.map_nil, List.map_nil, List.flatten_nil, List.append_nil]; rfl
  | cons c hdrs ih =>
    rw [List.map_cons, runMealy_cons, MessageCall.apply, ih, List.map_cons, List.map_cons,
      List.flatten_cons, List.append_assoc]

theorem runMealy_encrypts (ks : Nat → UInt8) (m : Message) (texts : List (Int × List UInt8)) :
    let ran := runMealy (MessageCall.apply ks) m (texts.map fun c => .encrypt c.1 c.2)
    let out := xorStream ks m.crypted (texts.map Prod.snd).flatten
    ran.1.flatten = out ∧
      ran.2 = { m with text := m.text ++ out, crypted := m.crypted + out.length } := by
  induction texts generalizing m with
  | nil =>
    show [] = [] ∧ m = { m with text := m.text ++ [], crypted := m.crypted + 0 }
    rw [List.append_nil]
    exact ⟨rfl, rfl⟩
  | cons c texts ih =>
    dsimp only at ih ⊢
    rw [List.map_cons, runMealy_cons, MessageCall.apply, List.map_cons, List.flatten_cons,
      List.flatten_cons, xorStream_append]
    obtain ⟨hout, hlast⟩ := ih _
    rw [hout, hlast, List.append_assoc, List.length_append, length_xorStream, length_xorStream,
      Nat.add_assoc]
    exact ⟨rfl, rfl⟩

theorem runMealy_message (ks : Nat → UInt8) (hdrs texts : List (Int × List UInt8)) :
    let ran := runMealy (MessageCall.apply ks) .empty
      ((hdrs.map fun c => .authHeader c.1 c.2) ++ texts.map fun c => .encrypt c.1 c.2)
    let out := xorStream ks 0 (texts.map Prod.snd).flatten
    ran.1.flatten = out ∧ ran.2 = ⟨(hdrs.map Prod.snd).flatten, out, out.length⟩ := by
  have hnil : (hdrs.map fun _ => ([] : List UInt8)).flatten = [] := by simp
  obtain ⟨htexts, hlast⟩ := runMealy_encrypts ks ⟨(hdrs.map Prod.snd).flatten, [], 0⟩ texts
  have hheaders := runMealy_authHeaders ks .empty hdrs
  dsimp only [Message.empty, List.nil_append] at htexts hlast hheaders ⊢
  rw [runMealy_append, hheaders, List.flatten_append, hnil, htexts, hlast, Nat.zero_add]
  exact ⟨rfl, rfl⟩

theorem allMeet_authHeaders (ks : Nat → UInt8) (m : Message) (hdrs : List (Int × List UInt8))
    (htext : m.text = []) (hlen : (hdrs.map Prod.snd).flatten.length < 2 ^ 31)
    (hsum : m.hdr.length + (hdrs.map Prod.snd).flatten.length < 2 ^ 32) :
    AllMeet (MessageCall.apply ks) MessageCall.Fits m (hdrs.map fun c => .authHeader c.1 c.2) := by
  induction hdrs generalizing m with
  | nil => trivial
  | cons c hdrs ih =>
    rw [List.map_cons, List.flatten_cons, List.length_append] at hlen hsum
    refine ⟨⟨?_, htext, by omega⟩, ih _ htext (by omega) ?_⟩
    · show c.2.length < 2 ^ 31
      omega
    · show (m.hdr ++ c.2).length + _ < _
      rw [List.length_append]
      omega

theorem allMeet_encrypts (ks : Nat → UInt8) (m : Message) (texts : List (Int × List UInt8))
    (hlen : (texts.map Prod.snd).flatten.length < 2 ^ 31)
    (hsum : m.text.length + (texts.map Prod.snd).flatten.length < 2 ^ 32) :
    AllMeet (MessageCall.apply ks) MessageCall.Fits m (texts.map fun c => .encrypt c.1 c.2) := by
  induction texts generalizing m with
  | nil => trivial
  | cons c texts ih =>
    rw [List.map_cons, List.flatten_cons, List.length_append] at hlen hsum
    refine ⟨⟨?_, by omega⟩, ih _ (by omega) ?_⟩
    · show c.2.length < 2 ^ 31
      omega
    · show (m.text ++ xorStream ks m.crypted c.2).length + _ < _
      rw [List.length_append, length_xorStream]
      omega

/-- However a header and a text are split over calls, and wherever the pieces are in memory,
the ciphertext and the tag are those of one call. -/
theorem runMealy_chunks (hvalid : validRounds ctx.encCtx = true) (hiv : 11 ≤ iv.length)
    (hdrs texts : List (Int × List UInt8)) (hhdr : (hdrs.map Prod.snd).flatten.length < 2 ^ 31)
    (hmsg : (texts.map Prod.snd).flatten.length < 2 ^ 31) (htag : tag.length ≤ 16)
    (addr : Addresses) :
    let ran := runMealy (MessageCall.exec platform) (cwcInitMessage iv ctx)
      ((hdrs.map fun c => .authHeader c.1 c.2) ++ texts.map fun c => .encrypt c.1 c.2)
    let whole := cwcEncryptMessage platform addr iv (hdrs.map Prod.snd).flatten
      (texts.map Prod.snd).flatten tag ctx
    ran.1.flatten = whole.2.1.1 ∧ (cwcComputeTag platform tag ran.2).1 = whole.1 ∧
      (cwcComputeTag platform tag ran.2).2.1 = whole.2.1.2 := by
  generalize hks : keyStream platform ctx.encCtx (counterBase iv) = ks
  have hmeet : AllMeet (MessageCall.apply ks) MessageCall.Fits .empty
      ((hdrs.map fun c => .authHeader c.1 c.2) ++ texts.map fun c => .encrypt c.1 c.2) := by
    rw [allMeet_append, runMealy_authHeaders]
    refine ⟨allMeet_authHeaders ks .empty hdrs rfl hhdr ?_, allMeet_encrypts ks _ texts hmsg ?_⟩
    · show 0 + _ < _
      omega
    · show 0 + _ < _
      omega
  obtain ⟨hanswers, hfinal⟩ := runMealy_refines (MessageCall.exec platform)
    (R := fun m c => Represents platform ctx.encCtx ctx.zval (counterBase iv) m c)
    (fun call c m hc hfits => hks ▸ hc.exec hvalid call hfits)
    (represents_cwcInitMessage platform ctx hiv) hmeet
  obtain ⟨hout, hmessage⟩ := runMealy_message ks hdrs texts
  obtain ⟨_, hwhole, -⟩ := cwcEncryptMessage_eq platform hvalid addr hiv
    hhdr hmsg htag
  dsimp only at hout hmessage hwhole ⊢
  rw [hks] at hwhole
  rw [hmessage] at hfinal
  obtain ⟨_, htagRun, -⟩ := hfinal.computeTag hvalid
    (by show (xorStream _ _ _).length < _; rw [length_xorStream]; omega) htag
  rw [hanswers, hout, htagRun, hwhole, Message.code, if_pos rfl]
  exact ⟨rfl, rfl, rfl⟩

theorem runMealy_chunks_sample :
    let ctx := (cwcInitAndKey .littleEndian [] (List.replicate 16 7) .zero).2
    let ran := runMealy (MessageCall.exec .littleEndian)
      (cwcInitMessage (List.replicate 11 1) ctx)
      [.authHeader 0 [2], .authHeader 5 [3], .encrypt 3 [4], .encrypt 0 [5, 6]]
    let whole := cwcEncryptMessage .littleEndian ⟨0, 0⟩ (List.replicate 11 1) [2, 3] [4, 5, 6]
      (List.replicate 16 0) ctx
    ran.1.flatten = whole.2.1.1 ∧
      (cwcComputeTag .littleEndian (List.replicate 16 0) ran.2).1 = whole.1 ∧
      (cwcComputeTag .littleEndian (List.replicate 16 0) ran.2).2.1 = whole.2.1.2 :=
  runMealy_chunks rfl (by decide) [(0, [2]), (5, [3])] [(3, [4]), (0, [5, 6])] (by decide)
    (by decide) (by decide) ⟨0, 0⟩

end Chunks

end Native

end AcOpenServer
