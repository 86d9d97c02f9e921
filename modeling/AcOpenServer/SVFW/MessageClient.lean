import AcOpenServer.Crypto.Cipher
import AcOpenServer.SVFW.Delivery
import AcOpenServer.SVFW.Inverse

namespace AcOpenServer
open Library
set_option autoImplicit true

structure SVFWMessageClient where
  client : SVFWPacketClient
  encryptionCipher : Cipher
  decryptionCipher : Cipher
  cipherEnabled : Bool
  disposedValue : Bool
  deriving DecidableEq, Repr

/-- The libraries the ciphers call. -/
structure CipherNative where
  cwc : CwcNative
  rsa : RsaNative

namespace SVFWMessageClient

def new (client : SVFWPacketClient) (encryptionCipher decryptionCipher : Cipher) :
    SVFWMessageClient where
  client
  encryptionCipher
  decryptionCipher
  cipherEnabled := true
  disposedValue := false

def setCipher (encryptionCipher decryptionCipher : Cipher) (c : SVFWMessageClient) :
    SVFWMessageClient :=
  { c with encryptionCipher, decryptionCipher }

def isPrivateNetwork (c : SVFWMessageClient) : Bool := c.client.client.isPrivateNetwork

def dispose (c : SVFWMessageClient) : SVFWMessageClient :=
  if c.disposedValue then c
  else { c with client := c.client.dispose, disposedValue := true }

def onClient (m : EStateM Exn SVFWPacketClient α) : EStateM Exn SVFWMessageClient α :=
  zoom (·.client) (fun client c => { c with client }) m

/-- The message `SendAsync` writes, before its payload is encrypted. -/
def address (messageType : SVFWMessageType) (messageIndex : UInt32) (message : SVFWMessage) :
    SVFWMessage :=
  { message with
    header := { message.header with messageType, messageIndex }
    responseHeader := if messageType = .reply then some .new else none }

/-- The exceptions of a cipher are wrapped in one that quotes them. -/
def wrap (message : String) (m : Codec α) : Codec α :=
  tryCatch m fun e => throw (.svfwMessageFrom message e)

def encryptPayload (native : CipherNative) (iv : Block 11) (c : SVFWMessageClient)
    (payload : List UInt8) : Codec (List UInt8) :=
  if c.cipherEnabled then
    wrap "Failed to encrypt message payload:"
      (c.encryptionCipher.encrypt native.cwc native.rsa iv payload)
  else
    return payload

def sendAsync (native : CipherNative) (iv : Block 11) (task : Option WriteTask)
    (message : SVFWMessage) (messageType : SVFWMessageType) (messageIndex : UInt32) :
    EStateM Exn SVFWMessageClient WriteTask := do
  let message := address messageType messageIndex message
  let payload ← (encryptPayload native iv (← get) message.payload).toAction
  let packet ← (write { message with payload }).toAction
  onClient (SVFWPacketClient.sendAsync task packet)

/-- `OnReceived`, up to the call of `Received` with the message it returns. -/
def onReceived (native : CipherNative) (beyond : Nat → UInt8) (packet : SVFWPacket) :
    EStateM Exn SVFWMessageClient SVFWMessage := do
  let message ← (read ⟨packet.payload, beyond⟩).toAction
  let c ← get
  if c.cipherEnabled then
    let payload ← (wrap "Failed to decrypt message payload:"
      (c.decryptionCipher.decrypt native.cwc native.rsa message.payload)).toAction
    return { message with payload }
  else
    return message

variable {native : CipherNative} {iv : Block 11} {c : SVFWMessageClient}

/-- What the client needs for a send not to fail: a connection that is not disposed and, if it
encrypts, the CWC cipher. -/
structure CanSend (c : SVFWMessageClient) : Prop where
  connected : c.client.client.disposedValue = false
  cipher : c.cipherEnabled = true → ∃ key, c.encryptionCipher = .cwc key

theorem result_wrap_eq_ok {m : Codec α} : (wrap message m).result = .ok a ↔ m.result = .ok a := by
  change (Traced.tryCatch m _).result = _ ↔ _
  cases hm : m.result with
  | ok b => simp only [Traced.tryCatch, hm]
  | error e =>
    rw [Traced.tryCatch, hm]
    exact iff_of_false (fun h => nomatch h) fun h => nomatch h

theorem encryptPayload_of_disabled (h : c.cipherEnabled = false) (payload : List UInt8) :
    encryptPayload native iv c payload = pure payload :=
  if_neg (by rw [h]; exact Bool.false_ne_true)

theorem result_encryptPayload_cwc (henabled : c.cipherEnabled = true)
    (hcipher : c.encryptionCipher = .cwc key) {payload output : List UInt8} :
    (encryptPayload native iv c payload).result = .ok output ↔
      ∃ message, (CWCCipher.encrypt native.cwc key iv payload).result = .ok (output, message) := by
  rw [encryptPayload, if_pos henabled, result_wrap_eq_ok, hcipher, Cipher.encrypt,
    Traced.result_bind_eq_ok]
  constructor
  · rintro ⟨⟨bytes, message⟩, hencrypt, hbytes⟩
    cases hbytes
    exact ⟨message, hencrypt⟩
  · rintro ⟨message, hencrypt⟩
    exact ⟨(output, message), hencrypt, rfl⟩

theorem result_encryptPayload (iv : Block 11) (hc : CanSend c) (hgood : native.cwc.Good)
    {payload : List UInt8} (hlen : payload.length + 27 ≤ maxArrayLength) :
    ∃ output, (encryptPayload native iv c payload).result = .ok output ∧
      output.length ≤ payload.length + 27 := by
  by_cases henabled : c.cipherEnabled = true
  · obtain ⟨key, hkey⟩ := hc.cipher henabled
    obtain ⟨tag, message, hencrypt⟩ := CWCCipher.result_encrypt hgood key iv hlen
    refine ⟨iv.1 ++ (tag.1 ++ message.1),
      (result_encryptPayload_cwc henabled hkey).2 ⟨message.1, hencrypt⟩, ?_⟩
    simp only [List.length_append, iv.2, tag.2, message.2]
    omega
  · rw [encryptPayload_of_disabled (Bool.eq_false_iff.2 henabled)]
    exact ⟨payload, rfl, Nat.le_add_right _ _⟩

theorem consistent_address (messageType : SVFWMessageType) (messageIndex : UInt32)
    (message : SVFWMessage) :
    Consistent (address messageType messageIndex message).header
      (address messageType messageIndex message).responseHeader := by
  change (if messageType = .reply then some SVFWMessageResponseHeader.new else none).isSome ↔
    messageType = .reply
  split
  · rename_i h
    exact iff_of_true rfl h
  · rename_i h
    exact iff_of_false Bool.false_ne_true h

/-- The packet of a message whose payload was encrypted to these bytes. -/
def envelope (messageType : SVFWMessageType) (messageIndex : UInt32) (message : SVFWMessage)
    (output : List UInt8) : SVFWPacket where
  header := .zero
  payload := messageBytes (address messageType messageIndex message).header
    ((address messageType messageIndex message).responseHeader.map (·.swapEndian)) output

theorem length_envelope (messageType : SVFWMessageType) (messageIndex : UInt32)
    (message : SVFWMessage) (output : List UInt8) :
    (envelope messageType messageIndex message output).payload.length =
      payloadOffset (address messageType messageIndex message).header + output.length :=
  length_messageBytes output (consistent_address messageType messageIndex message).map_swapEndian

def deliver (packet : SVFWPacket) (c : SVFWMessageClient) : SVFWMessageClient :=
  { c with client := c.client.deliver packet }

def handOver (packet : SVFWPacket) (c : SVFWMessageClient) : SVFWMessageClient :=
  { c with client := c.client.handOver packet }

/-- The connection is open and the packet fits an array. -/
structure Takes (packet : SVFWPacket) (c : SVFWMessageClient) : Prop where
  connected : c.client.client.disposedValue = false
  short : packet.payload.length + 14 ≤ maxArrayLength

/-- A send throws before it reaches the packet client when the payload cannot be encrypted or
is too long for an array, and else does what the packet client does. -/
theorem sendAsync_cases (native : CipherNative) (iv : Block 11) (task : Option WriteTask)
    (message : SVFWMessage) (messageType : SVFWMessageType) (messageIndex : UInt32)
    (c : SVFWMessageClient) :
    (∃ output, (encryptPayload native iv c message.payload).result = .ok output ∧
        (envelope messageType messageIndex message output).payload.length ≤ maxArrayLength ∧
        ∀ {result}, (SVFWPacketClient.sendAsync task
              (envelope messageType messageIndex message output)).run c.client = result →
          (sendAsync native iv task message messageType messageIndex).run c =
            match result with
            | .ok t client => .ok t { c with client }
            | .error e client => .error e { c with client }) ∨
      (∀ output, (encryptPayload native iv c message.payload).result = .ok output →
          maxArrayLength < (envelope messageType messageIndex message output).payload.length) ∧
        ∃ e, (sendAsync native iv task message messageType messageIndex).run c = .error e c := by
  cases hencrypt : (encryptPayload native iv c message.payload).result with
  | error e =>
    refine .inr ⟨fun _ ho => (nomatch ho), e, ?_⟩
    rw [sendAsync, run_get_bind]
    exact run_bind_of_error _ (Traced.run_toAction_of_error hencrypt c)
  | ok output =>
    have hlength := length_envelope messageType messageIndex message output
    by_cases hlen :
        (envelope messageType messageIndex message output).payload.length ≤ maxArrayLength
    · have hwrite := result_write output
        (consistent_address messageType messageIndex message) (by omega)
      refine .inl ⟨output, rfl, hlen, ?_⟩
      intro result hrun
      have hsend : (sendAsync native iv task message messageType messageIndex).run c =
          (onClient (SVFWPacketClient.sendAsync task
            (envelope messageType messageIndex message output))).run c := by
        rw [sendAsync, run_get_bind]
        refine (run_bind_of_ok _ (Traced.run_toAction_of_ok hencrypt c)).trans ?_
        exact run_bind_of_ok _ (Traced.run_toAction_of_ok hwrite c)
      cases result with
      | ok t client => exact hsend.trans (run_zoom_of_ok hrun)
      | error e client => exact hsend.trans (run_zoom_of_error hrun)
    · obtain ⟨e, hwrite⟩ := result_write_of_lt
        (address messageType messageIndex message).header
        (address messageType messageIndex message).responseHeader output (by omega)
      refine .inr ⟨?_, e, ?_⟩
      · intro output' ho
        cases ho
        exact Nat.lt_of_not_le hlen
      · rw [sendAsync, run_get_bind]
        refine (run_bind_of_ok _ (Traced.run_toAction_of_ok hencrypt c)).trans ?_
        exact run_bind_of_error _ (Traced.run_toAction_of_error hwrite c)

/-- A send that returns has delivered the packet, and one that throws may have handed it
over. -/
theorem sendAsync_ok {message : SVFWMessage} {d : SVFWMessageClient}
    (h : (sendAsync native iv task message messageType messageIndex).run c = .ok t d) :
    ∃ output, (encryptPayload native iv c message.payload).result = .ok output ∧
      task = some t ∧ c.Takes (envelope messageType messageIndex message output) ∧
      d = c.deliver (envelope messageType messageIndex message output) := by
  rcases sendAsync_cases native iv task message messageType messageIndex c with
    ⟨output, hencrypt, _, hrun⟩ | ⟨_, e, hrun⟩
  · rcases SVFWPacketClient.sendAsync_cases task
        (envelope messageType messageIndex message output) c.client with
      ⟨t', htask, hconnected, hshort, hpacket⟩ | ⟨_, e, hpacket⟩
    · cases (hrun hpacket).symm.trans h
      exact ⟨output, hencrypt, htask, ⟨hconnected, hshort⟩, rfl⟩
    · cases (hrun hpacket).symm.trans h
  · cases hrun.symm.trans h

theorem sendAsync_error {message : SVFWMessage} {d : SVFWMessageClient}
    (h : (sendAsync native iv task message messageType messageIndex).run c = .error e d) :
    d = c ∨ ∃ output, (encryptPayload native iv c message.payload).result = .ok output ∧
      d = c.handOver (envelope messageType messageIndex message output) := by
  rcases sendAsync_cases native iv task message messageType messageIndex c with
    ⟨output, hencrypt, _, hrun⟩ | ⟨_, e', hrun⟩
  · rcases SVFWPacketClient.sendAsync_cases task
        (envelope messageType messageIndex message output) c.client with
      ⟨t', _, _, _, hpacket⟩ | ⟨_, e', hpacket⟩
    · cases (hrun hpacket).symm.trans h
    · cases (hrun hpacket).symm.trans h
      exact .inr ⟨output, hencrypt, rfl⟩
  · cases hrun.symm.trans h
    exact .inl rfl

theorem run_sendAsync_of_takes {message : SVFWMessage} {output : List UInt8} (task : WriteTask)
    (hencrypt : (encryptPayload native iv c message.payload).result = .ok output)
    (htakes : c.Takes (envelope messageType messageIndex message output)) :
    (sendAsync native iv (some task) message messageType messageIndex).run c = .ok task
      (c.deliver (envelope messageType messageIndex message output)) := by
  have hpacket := SVFWPacketClient.run_sendAsync htakes.connected htakes.short task
  rcases sendAsync_cases native iv (some task) message messageType messageIndex c with
    ⟨output', hencrypt', _, hrun⟩ | ⟨hlong, _⟩
  · cases hencrypt.symm.trans hencrypt'
    exact hrun hpacket
  · have hlong' := hlong output hencrypt
    have hshort := htakes.short
    omega

theorem run_sendAsync (hc : CanSend c) (hgood : native.cwc.Good) (task : WriteTask)
    (message : SVFWMessage) (hlen : message.payload.length + 69 ≤ maxArrayLength)
    (messageType : SVFWMessageType) (messageIndex : UInt32) :
    ∃ output, (encryptPayload native iv c message.payload).result = .ok output ∧
      c.Takes (envelope messageType messageIndex message output) ∧
      (sendAsync native iv (some task) message messageType messageIndex).run c = .ok task
        (c.deliver (envelope messageType messageIndex message output)) := by
  have hshort : message.payload.length + 27 ≤ maxArrayLength := by omega
  obtain ⟨output, hencrypt, hle⟩ := result_encryptPayload iv hc hgood hshort
  have hlength := length_envelope messageType messageIndex message output
  have hoffset : payloadOffset (address messageType messageIndex message).header ≤ 28 := by
    unfold payloadOffset
    split <;> omega
  have hfits : (envelope messageType messageIndex message output).payload.length + 14 ≤
      maxArrayLength := by
    omega
  have htakes : c.Takes (envelope messageType messageIndex message output) :=
    ⟨hc.connected, hfits⟩
  exact ⟨output, hencrypt, htakes, run_sendAsync_of_takes task hencrypt htakes⟩

end SVFWMessageClient

end AcOpenServer
