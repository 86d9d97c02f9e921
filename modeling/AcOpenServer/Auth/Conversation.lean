import AcOpenServer.Auth.Ready

namespace AcOpenServer
open Library
set_option autoImplicit true

namespace AuthClient

/-- A request that was answered, the plaintext of its reply and the key the plaintext was
encrypted with, if it was. -/
structure Exchange where
  event : AuthEvent
  plaintext : List UInt8
  key : Option CWC

/-- The bytes behind the headers of the reply. -/
def Exchange.Seals (native : AuthNative) (x : Exchange) (output : List UInt8) : Prop :=
  match x.key with
  | none => output = x.plaintext
  | some key => ∃ message,
    (CWCCipher.encrypt native.cipher.cwc key x.event.iv x.plaintext).result = .ok (output, message)

/-- What has been said when the server is in a state; `key` is the one of the handshake. -/
inductive Conversation (native : AuthNative) (config : AuthConfig) (isPrivateNetwork : Bool) :
    AuthClientState → Option CWC → List Exchange → Prop
  | start : Conversation native config isPrivateNetwork .waitingForHandshakeRequest none []
  | handshake (type : e.message.header.messageType = .requestHandshake)
      (parsed : native.parseRequestHandshake e.message.payload = .ok handshake)
      (keyed : (CWC.new native.cipher.cwc handshake.aesCwcKey).result = .ok key) :
      Conversation native config isPrivateNetwork .waitingForServiceStatusRequest (some key)
        [⟨e, handshakeResponse e, none⟩]
  | serviceStatus
      (said : Conversation native config isPrivateNetwork .waitingForServiceStatusRequest
        (some key) log)
      (type : e.message.header.messageType = .getServiceStatus)
      (parsed : native.parseGetServiceStatus e.message.payload = .ok serviceStatus)
      (admitted : ¬ Rejects config serviceStatus) :
      Conversation native config isPrivateNetwork .waitingForKeyMaterial (some key)
        (log ++ [⟨e, (serviceStatusResponse serviceStatus).toByteArray, some key⟩])
  | rejected
      (said : Conversation native config isPrivateNetwork .waitingForServiceStatusRequest
        (some key) log)
      (type : e.message.header.messageType = .getServiceStatus)
      (parsed : native.parseGetServiceStatus e.message.payload = .ok serviceStatus)
      (rejected : Rejects config serviceStatus) :
      Conversation native config isPrivateNetwork .disconnected (some key)
        (log ++ [⟨e, emptyStatusResponse.toByteArray, some key⟩])
  | keyMaterial
      (said : Conversation native config isPrivateNetwork .waitingForKeyMaterial (some key) log)
      (type : e.message.header.messageType = .keyMaterial) :
      Conversation native config isPrivateNetwork .waitingForTicket (some key)
        (log ++ [⟨e, generatedKey e, some key⟩])
  | ticket
      (said : Conversation native config isPrivateNetwork .waitingForTicket (some key) log) :
      Conversation native config isPrivateNetwork .complete (some key)
        (log ++ [⟨e, serverInfoBytes config isPrivateNetwork, some key⟩])
  | refused (said : Conversation native config isPrivateNetwork state key log) :
      Conversation native config isPrivateNetwork .disconnected key log

/-- The packets handed to the packet client carry these replies, one after another. -/
inductive Sent (native : AuthNative) : List Exchange → List SVFWPacket → Prop
  | nil : Sent native [] []
  | snoc (sent : Sent native log packets) (seals : Exchange.Seals native x output) :
      Sent native (log ++ [x]) (packets ++ [SVFWPacketClient.stamp
        (UInt16.ofNat (log.length + 1)) (replyPacket x.event.message.header.messageIndex output)])

/-- A client on a connection that was just accepted. -/
def accepted (tcp : NetTcpClient) (encryptionCipher decryptionCipher : Cipher) : AuthClient :=
  new (.new (.new tcp) encryptionCipher decryptionCipher)

/-- What a client has said and what it encrypts with. -/
structure Accounts (native : AuthNative) (config : AuthConfig) (start : AuthClient)
    (key : Option CWC) (log : List Exchange) (c : AuthClient) : Prop where
  said : Conversation native config start.client.isPrivateNetwork c.authState key log
  sent : Sent native log c.client.client.sent
  packetsSent : c.client.client.packetsSent = UInt16.ofNat log.length
  cipherEnabled : c.client.cipherEnabled = true
  encryptionCipher : c.client.encryptionCipher =
    (key.map Cipher.cwc).getD start.client.encryptionCipher
  decryptionCipher : c.client.decryptionCipher =
    (key.map Cipher.cwc).getD start.client.decryptionCipher
  isPrivateNetwork : c.client.isPrivateNetwork = start.client.isPrivateNetwork

variable {native : AuthNative} {config : AuthConfig} {e : AuthEvent} {c c' start : AuthClient}
  {log : List Exchange} {packets : List SVFWPacket} {client client' : SVFWMessageClient}
  {isPrivateNetwork : Bool}

theorem Sent.length_eq (h : Sent native log packets) : packets.length = log.length := by
  induction h with
  | nil => rfl
  | snoc _ _ ih => rw [List.length_append, List.length_append, ih]; rfl

theorem Sent.getElem? {k : Nat} {x : Exchange} (h : Sent native log packets)
    (hx : log[k]? = some x) :
    ∃ output, x.Seals native output ∧ packets[k]? = some (SVFWPacketClient.stamp
      (UInt16.ofNat (k + 1)) (replyPacket x.event.message.header.messageIndex output)) := by
  induction h with
  | nil => cases hx
  | @snoc log packets y output sent seals ih =>
    have hlen := sent.length_eq
    by_cases hk : k < log.length
    · rw [List.getElem?_append_left hk] at hx
      obtain ⟨output', hseals, hpacket⟩ := ih hx
      exact ⟨output', hseals, (List.getElem?_append_left (by omega)).trans hpacket⟩
    · rw [List.getElem?_append_right (Nat.le_of_not_lt hk)] at hx
      have hlast : k = log.length := by
        obtain ⟨hlt, _⟩ := List.getElem?_eq_some_iff.1 hx
        rw [List.length_singleton] at hlt
        omega
      subst hlast
      rw [Nat.sub_self] at hx
      cases hx
      refine ⟨output, seals, ?_⟩
      rw [← hlen, List.getElem?_concat_length]

theorem Conversation.key_of_ne (h : Conversation native config isPrivateNetwork state key log)
    (hstate : state ≠ .waitingForHandshakeRequest) (hstate' : state ≠ .disconnected) :
    ∃ cwc, key = some cwc := by
  cases h with
  | start => exact (hstate rfl).elim
  | handshake _ _ _ => exact ⟨_, rfl⟩
  | serviceStatus _ _ _ _ => exact ⟨_, rfl⟩
  | rejected _ _ _ _ => exact (hstate' rfl).elim
  | keyMaterial _ _ => exact ⟨_, rfl⟩
  | ticket _ => exact ⟨_, rfl⟩
  | refused _ => exact (hstate' rfl).elim

theorem Conversation.eq_start
    (h : Conversation native config isPrivateNetwork .waitingForHandshakeRequest key log) :
    key = none ∧ log = [] := by
  cases h with
  | start => exact ⟨rfl, rfl⟩

theorem Conversation.ne_nil
    (h : Conversation native config isPrivateNetwork state (some key) log) : log ≠ [] := by
  generalize hkey : some key = key' at h
  induction h with
  | start => cases hkey
  | handshake _ _ _ => exact List.cons_ne_nil _ _
  | serviceStatus _ _ _ _ _ => exact List.append_ne_nil_of_right_ne_nil _ nofun
  | rejected _ _ _ _ _ => exact List.append_ne_nil_of_right_ne_nil _ nofun
  | keyMaterial _ _ _ => exact List.append_ne_nil_of_right_ne_nil _ nofun
  | ticket _ _ => exact List.append_ne_nil_of_right_ne_nil _ nofun
  | refused _ ih => exact ih hkey

theorem accounts_accepted (tcp : NetTcpClient) (encryptionCipher decryptionCipher : Cipher) :
    Accounts native config (accepted tcp encryptionCipher decryptionCipher) none []
      (accepted tcp encryptionCipher decryptionCipher) where
  said := .start
  sent := .nil
  packetsSent := rfl
  cipherEnabled := rfl
  encryptionCipher := rfl
  decryptionCipher := rfl
  isPrivateNetwork := rfl

/-- A client that encrypts, and one that does not. -/
def EncryptsWith (client : SVFWMessageClient) : Option CWC → Prop
  | none => client.cipherEnabled = false
  | some key => client.cipherEnabled = true ∧ client.encryptionCipher = .cwc key

theorem seals_of_encrypts (hkey : EncryptsWith client key)
    (h : Encrypts native e client plaintext output) :
    Exchange.Seals native ⟨e, plaintext, key⟩ output := by
  cases key with
  | none =>
    rw [Encrypts, SVFWMessageClient.encryptPayload_of_disabled hkey] at h
    cases h
    rfl
  | some key => exact (SVFWMessageClient.result_encryptPayload_cwc hkey.1 hkey.2).1 h

/-- The packet client was given a reply. -/
def HandedOver (native : AuthNative) (e : AuthEvent) (client : SVFWMessageClient)
    (plaintext : List UInt8) (client' : SVFWMessageClient) : Prop :=
  ∃ output, Encrypts native e client plaintext output ∧
    (client' = client.deliver (replyPacket e.message.header.messageIndex output) ∨
      client' = client.handOver (replyPacket e.message.header.messageIndex output))

theorem Replied.handedOver (h : Replied native e client plaintext client') :
    HandedOver native e client plaintext client' := by
  obtain ⟨output, hencrypts, _, rfl⟩ := h
  exact ⟨output, hencrypts, .inl rfl⟩

theorem Attempted.handedOver (h : Attempted native e client plaintext client') :
    client' = client ∨ HandedOver native e client plaintext client' := by
  rcases h with rfl | ⟨output, hencrypts, rfl⟩
  · exact .inl rfl
  · exact .inr ⟨output, hencrypts, .inr rfl⟩

theorem HandedOver.sent (h : HandedOver native e client plaintext client')
    (hsent : Sent native log client.client.sent)
    (hcount : client.client.packetsSent = UInt16.ofNat log.length)
    (hkey : EncryptsWith client key) :
    Sent native (log ++ [⟨e, plaintext, key⟩]) client'.client.sent ∧
      client'.client.packetsSent = UInt16.ofNat (log.length + 1) := by
  obtain ⟨output, hencrypts, hclient⟩ := h
  have hnext : client.client.packetsSent + 1 = UInt16.ofNat (log.length + 1) := by
    rw [hcount, UInt16.ofNat_add]
    rfl
  have hsnoc := hsent.snoc (seals_of_encrypts hkey hencrypts)
  rw [← hnext] at hsnoc
  rcases hclient with rfl | rfl
  · exact ⟨hsnoc, hnext⟩
  · exact ⟨hsnoc, hnext⟩

theorem HandedOver.unchanged (h : HandedOver native e client plaintext client') :
    client'.cipherEnabled = client.cipherEnabled ∧
      client'.encryptionCipher = client.encryptionCipher ∧
      client'.decryptionCipher = client.decryptionCipher ∧
      client'.isPrivateNetwork = client.isPrivateNetwork := by
  obtain ⟨output, _, rfl | rfl⟩ := h
  · exact ⟨rfl, rfl, rfl, rfl⟩
  · exact ⟨rfl, rfl, rfl, rfl⟩

theorem Accounts.dispose (h : Accounts native config start key log c) :
    Accounts native config start key log (dispose c) := by
  obtain ⟨tcp, packets, messages, hclient⟩ := client_dispose c
  constructor
  · rw [authState_dispose]
    exact h.said
  all_goals rw [hclient]
  · exact h.sent
  · exact h.packetsSent
  · exact h.cipherEnabled
  · exact h.encryptionCipher
  · exact h.decryptionCipher
  · exact h.isPrivateNetwork

theorem Accounts.encryptsWith (h : Accounts native config start (some key) log c) :
    EncryptsWith c.client (some key) := ⟨h.cipherEnabled, h.encryptionCipher⟩

theorem Accounts.handedOver {d : AuthClient} (h : Accounts native config start (some key) log c)
    (hover : HandedOver native e c.client plaintext d.client)
    (said : Conversation native config start.client.isPrivateNetwork d.authState (some key)
      (log ++ [⟨e, plaintext, some key⟩])) :
    Accounts native config start (some key) (log ++ [⟨e, plaintext, some key⟩]) d := by
  obtain ⟨hsent, hcount⟩ := hover.sent h.sent h.packetsSent h.encryptsWith
  obtain ⟨henabled, hencryption, hdecryption, hprivate⟩ := hover.unchanged
  constructor
  · exact said
  · exact hsent
  · rw [hcount, List.length_append]
    rfl
  · exact henabled.trans h.cipherEnabled
  · exact hencryption.trans h.encryptionCipher
  · exact hdecryption.trans h.decryptionCipher
  · exact hprivate.trans h.isPrivateNetwork

theorem Accounts.handshake {d : AuthClient} {handshake : RequestHandshake}
    (h : Accounts native config start key log c)
    (state : c.authState = .waitingForHandshakeRequest)
    (type : e.message.header.messageType = .requestHandshake)
    (parsed : native.parseRequestHandshake e.message.payload = .ok handshake)
    (keyed : (CWC.new native.cipher.cwc handshake.aesCwcKey).result = .ok cwc)
    (hover : HandedOver native e (c.keyedClient cwc) (handshakeResponse e) client)
    (hd : d.client = { client with cipherEnabled := true })
    (hstate : d.authState = .waitingForServiceStatusRequest) :
    Accounts native config start (some cwc) (log ++ [⟨e, handshakeResponse e, none⟩]) d := by
  have said := h.said
  rw [state] at said
  obtain ⟨rfl, rfl⟩ := said.eq_start
  obtain ⟨hsent, hcount⟩ := hover.sent h.sent h.packetsSent (show EncryptsWith _ none from rfl)
  obtain ⟨_, hencryption, hdecryption, hprivate⟩ := hover.unchanged
  constructor
  · rw [hstate]
    exact .handshake type parsed keyed
  all_goals rw [hd]
  · exact hsent
  · exact hcount
  · exact hencryption
  · exact hdecryption
  · exact hprivate.trans h.isPrivateNetwork

theorem Accounts.disconnected {d : AuthClient} (h : Accounts native config start key log c)
    (hd : d.client = c.client) (hstate : d.authState = .disconnected) :
    Accounts native config start key log d := by
  constructor
  · rw [hstate]
    exact .refused h.said
  all_goals rw [hd]
  · exact h.sent
  · exact h.packetsSent
  · exact h.cipherEnabled
  · exact h.encryptionCipher
  · exact h.decryptionCipher
  · exact h.isPrivateNetwork

/-- The request has a version that is rejected. -/
def VersionRejected (native : AuthNative) (config : AuthConfig) (e : AuthEvent)
    (c : AuthClient) : Prop :=
  c.authState = .waitingForServiceStatusRequest ∧
    e.message.header.messageType = .getServiceStatus ∧
    ∃ serviceStatus, native.parseGetServiceStatus e.message.payload = .ok serviceStatus ∧
      Rejects config serviceStatus

def Advances (c c' : AuthClient) : Prop :=
  c'.authState ≠ c.authState ∧ c'.authState ≠ .disconnected

/-- The key in a handshake, if it is accepted. -/
def offeredKey (native : AuthNative) (e : AuthEvent) : Option CWC :=
  if e.message.header.messageType = .requestHandshake then
    match native.parseRequestHandshake e.message.payload with
    | .ok handshake => (CWC.new native.cipher.cwc handshake.aesCwcKey).result.toOption
    | .error _ => none
  else none

/-- The key of the conversation after a call that returned. -/
def nextKey (native : AuthNative) (e : AuthEvent) (key : Option CWC) (c : AuthClient) :
    Option CWC :=
  if c.authState = .waitingForHandshakeRequest then offeredKey native e else key

theorem offeredKey_eq_some {handshake : RequestHandshake}
    (type : e.message.header.messageType = .requestHandshake)
    (parsed : native.parseRequestHandshake e.message.payload = .ok handshake)
    (keyed : (CWC.new native.cipher.cwc handshake.aesCwcKey).result = .ok cwc) :
    offeredKey native e = some cwc := by
  simp only [offeredKey, if_pos type, parsed, keyed]
  rfl

theorem offeredKey_append {hist rest : List AuthEvent}
    (h : hist.head?.bind (offeredKey native) = some key) :
    (hist ++ rest).head?.bind (offeredKey native) = some key := by
  obtain ⟨m, hhead, hoffered⟩ := Option.bind_eq_some_iff.1 h
  rw [List.head?_append, hhead]
  exact hoffered

theorem offeredKey_eq_none (h : e.message.header.messageType = .requestHandshake →
    ∃ error, native.parseRequestHandshake e.message.payload = .error error) :
    offeredKey native e = none := by
  unfold offeredKey
  split
  · rename_i htype
    obtain ⟨error, herror⟩ := h htype
    rw [herror]
  · rfl

theorem Accounts.nextKey_of_refused (h : Accounts native config start key log c)
    (hrefused : Refused native e c) : nextKey native e key c = key := by
  unfold nextKey
  split
  · rename_i hstate
    rw [Refused, hstate] at hrefused
    have said := h.said
    rw [hstate] at said
    rw [said.eq_start.1]
    exact offeredKey_eq_none hrefused
  · rfl

theorem nextKey_of_ne (hstate : c.authState = state) (h : state ≠ .waitingForHandshakeRequest) :
    nextKey native e key c = key := if_neg (hstate ▸ h)

/-- A call that returns adds its reply, if it answered or rejected the request. -/
theorem Outcome.accounts (h : Outcome native config e c (.ok () c'))
    (hc : Accounts native config start key log c) :
    Accounts native config start (nextKey native e key c) log c' ∧
        c'.authState = .disconnected ∨
      ∃ x, Accounts native config start (nextKey native e key c) (log ++ [x]) c' ∧
        x.event = e ∧ (log = [] → c.authState = .waitingForHandshakeRequest) ∧
        (Advances c c' ∨ VersionRejected native config e c) := by
  have hsome : ∀ {state}, c.authState = state → state ≠ .waitingForHandshakeRequest →
      state ≠ .disconnected → ∃ cwc, key = some cwc := by
    rintro state rfl hne hne'
    exact hc.said.key_of_ne hne hne'
  have said := hc.said
  cases h with
  | refused refused =>
    have hrefused : Accounts native config start key log
        { c with authState := .disconnected } := hc.disconnected rfl rfl
    rw [hc.nextKey_of_refused refused]
    exact .inl ⟨hrefused.dispose, authState_dispose _⟩
  | ignored state =>
    rw [nextKey_of_ne state (by decide)]
    exact .inl ⟨hc, state⟩
  | handshake state type parsed keyed write replied =>
    rw [nextKey, if_pos state, offeredKey_eq_some type parsed keyed]
    exact .inr ⟨_, hc.handshake state type parsed keyed replied.handedOver rfl rfl, rfl,
      fun _ => state, .inl ⟨by rw [state]; exact nofun, nofun⟩⟩
  | serviceStatus state type parsed admitted write replied =>
    obtain ⟨cwc, rfl⟩ := hsome state (by decide) (by decide)
    rw [state] at said
    rw [nextKey_of_ne state (by decide)]
    exact .inr ⟨_, hc.handedOver replied.handedOver
      (.serviceStatus said type parsed admitted), rfl, fun h => (said.ne_nil h).elim,
      .inl ⟨by rw [state]; exact nofun, nofun⟩⟩
  | rejected state type parsed rejected dropped =>
    obtain ⟨cwc, rfl⟩ := hsome state (by decide) (by decide)
    rw [state] at said
    rw [nextKey_of_ne state (by decide)]
    have hrejected := Conversation.rejected said type parsed rejected
    have hversion : VersionRejected native config e c := ⟨state, type, _, parsed, rejected⟩
    cases dropped with
    | threw attempted =>
      rcases attempted.handedOver with hclient | hover
      · exact .inl ⟨hc.disconnected hclient rfl, rfl⟩
      · exact .inr ⟨_, hc.handedOver hover hrejected, rfl, fun h => (said.ne_nil h).elim,
          .inr hversion⟩
    | completed write replied =>
      exact .inr ⟨_, (hc.handedOver replied.handedOver hrejected).dispose, rfl,
        fun h => (said.ne_nil h).elim, .inr hversion⟩
    | unfinished write replied =>
      exact .inr ⟨_, hc.handedOver replied.handedOver hrejected, rfl,
        fun h => (said.ne_nil h).elim, .inr hversion⟩
  | keyMaterial state type long stored keyed write replied =>
    obtain ⟨cwc, rfl⟩ := hsome state (by decide) (by decide)
    rw [state] at said
    rw [nextKey_of_ne state (by decide)]
    exact .inr ⟨_, hc.handedOver replied.handedOver (.keyMaterial said type), rfl,
      fun h => (said.ne_nil h).elim, .inl ⟨by rw [state]; exact nofun, nofun⟩⟩
  | ticket state parsed presentable long same write replied =>
    obtain ⟨cwc, rfl⟩ := hsome state (by decide) (by decide)
    rw [state] at said
    rw [hc.isPrivateNetwork] at replied
    rw [nextKey_of_ne state (by decide)]
    exact .inr ⟨_, hc.handedOver replied.handedOver (.ticket said), rfl,
      fun h => (said.ne_nil h).elim, .inl ⟨by rw [state]; exact nofun, nofun⟩⟩

/-- The packets after a call that threw, which may have handed its reply over. -/
def SentOnError (native : AuthNative) (config : AuthConfig) (start : AuthClient)
    (key : Option CWC) (log : List Exchange) (e : AuthEvent) (c c' : AuthClient) : Prop :=
  Sent native log c'.client.client.sent ∨ ∃ state x,
    Conversation native config start.client.isPrivateNetwork state key (log ++ [x]) ∧
      Sent native (log ++ [x]) c'.client.client.sent ∧ x.event = e ∧
      (log = [] → c.authState = .waitingForHandshakeRequest)

theorem Accounts.attempted {d : AuthClient} (h : Accounts native config start (some key) log c)
    (hattempted : Attempted native e c.client plaintext d.client)
    (said : Conversation native config start.client.isPrivateNetwork state (some key)
      (log ++ [⟨e, plaintext, some key⟩])) :
    SentOnError native config start (some key) log e c d := by
  rcases hattempted.handedOver with hclient | hover
  · rw [SentOnError, hclient]
    exact .inl h.sent
  · obtain ⟨hsent, _⟩ := hover.sent h.sent h.packetsSent h.encryptsWith
    exact .inr ⟨_, _, said, hsent, rfl, fun hlog => (h.said.ne_nil hlog).elim⟩

theorem Outcome.sent_of_error (h : Outcome native config e c (.error ex c'))
    (hc : Accounts native config start key log c) :
    SentOnError native config start (nextKey native e key c) log e c c' := by
  have hsome : ∀ {state}, c.authState = state → state ≠ .waitingForHandshakeRequest →
      state ≠ .disconnected → ∃ cwc, key = some cwc := by
    rintro state rfl hne hne'
    exact hc.said.key_of_ne hne hne'
  have said := hc.said
  cases h with
  | threw _ _ => exact .inl hc.sent
  | handshakeThrew state type parsed keyed attempted =>
    rw [state] at said
    obtain ⟨rfl, rfl⟩ := said.eq_start
    rw [nextKey, if_pos state, offeredKey_eq_some type parsed keyed]
    rcases attempted.handedOver with rfl | hover
    · exact .inl hc.sent
    · obtain ⟨hsent, _⟩ := hover.sent hc.sent hc.packetsSent (show EncryptsWith _ none from rfl)
      exact .inr ⟨_, _, .handshake type parsed keyed, hsent, rfl, fun _ => state⟩
  | serviceStatusThrew state type parsed admitted attempted =>
    obtain ⟨cwc, rfl⟩ := hsome state (by decide) (by decide)
    rw [state] at said
    rw [nextKey_of_ne state (by decide)]
    exact hc.attempted attempted (.serviceStatus said type parsed admitted)
  | keyMaterialThrew state type attempted =>
    obtain ⟨cwc, rfl⟩ := hsome state (by decide) (by decide)
    rw [state] at said
    rw [nextKey_of_ne state (by decide)]
    exact hc.attempted attempted (.keyMaterial said type)
  | ticketThrew state _ _ _ _ attempted =>
    obtain ⟨cwc, rfl⟩ := hsome state (by decide) (by decide)
    rw [state] at said
    rw [hc.isPrivateNetwork] at attempted
    rw [nextKey_of_ne state (by decide)]
    exact hc.attempted attempted (.ticket said)

theorem Outcome.not_waitingForHandshake (h : Outcome native config e c (.ok () c')) :
    c'.authState ≠ .waitingForHandshakeRequest := by
  cases h with
  | refused _ => rw [authState_dispose]; exact nofun
  | ignored state => rw [state]; exact nofun
  | handshake _ _ _ _ _ _ => exact nofun
  | serviceStatus _ _ _ _ _ _ => exact nofun
  | rejected _ _ _ _ dropped => rw [dropped.disconnected]; exact nofun
  | keyMaterial _ _ _ _ _ _ _ => exact nofun
  | ticket _ _ _ _ _ _ _ => exact nofun

/-- What the messages handled so far have to do with what has been said. -/
structure Recorded (native : AuthNative) (config : AuthConfig) (start : AuthClient)
    (hist : List AuthEvent) (log : List Exchange) (c : AuthClient) : Prop where
  accounts : Accounts native config start (hist.head?.bind (offeredKey native)) log c
  events : (log.map (·.event)).Sublist hist
  first : ∀ x ∈ log.head?, hist.head? = some x.event
  waiting : c.authState = .waitingForHandshakeRequest ↔ hist = []

theorem recorded_accepted (tcp : NetTcpClient) (encryptionCipher decryptionCipher : Cipher) :
    Recorded native config (accepted tcp encryptionCipher decryptionCipher) [] []
      (accepted tcp encryptionCipher decryptionCipher) where
  accounts := accounts_accepted tcp encryptionCipher decryptionCipher
  events := .slnil
  first := nofun
  waiting := iff_of_true rfl rfl

theorem Recorded.nextKey_eq {hist : List AuthEvent}
    (h : Recorded native config start hist log c) :
    nextKey native e (hist.head?.bind (offeredKey native)) c =
      (hist ++ [e]).head?.bind (offeredKey native) := by
  cases hist with
  | nil => exact if_pos (h.waiting.2 rfl)
  | cons m hist => exact if_neg fun hstate => List.cons_ne_nil m hist (h.waiting.1 hstate)

theorem Recorded.first_append {hist : List AuthEvent} {x : Exchange}
    (h : Recorded native config start hist log c)
    (hlog : log = [] → c.authState = .waitingForHandshakeRequest) :
    ∀ y ∈ (log ++ [x]).head?, (hist ++ [x.event]).head? = some y.event := by
  intro y hy
  cases log with
  | nil =>
    rw [h.waiting.1 (hlog rfl)]
    cases hy
    rfl
  | cons z log =>
    cases hy
    rw [List.head?_append, h.first _ rfl]
    rfl

theorem Recorded.service {hist : List AuthEvent} (h : Recorded native config start hist log c)
    (hrun : (service native config e).run c = .ok () c') :
    Recorded native config start (hist ++ [e]) log c' ∧ c'.authState = .disconnected ∨
      ∃ x, Recorded native config start (hist ++ [e]) (log ++ [x]) c' ∧ x.event = e ∧
        (Advances c c' ∨ VersionRejected native config e c) := by
  have houtcome := service_ok hrun
  have hwaiting : c'.authState = .waitingForHandshakeRequest ↔ hist ++ [e] = [] :=
    iff_of_false houtcome.not_waitingForHandshake (List.append_ne_nil_of_right_ne_nil _ nofun)
  rcases houtcome.accounts h.accounts with ⟨hc', hstate⟩ | ⟨x, hc', rfl, hlog, hanswers⟩
  · rw [h.nextKey_eq] at hc'
    refine .inl ⟨⟨hc', h.events.trans (List.sublist_append_left _ _), ?_, hwaiting⟩, hstate⟩
    intro y hy
    rw [List.head?_append, h.first y hy]
    rfl
  · rw [h.nextKey_eq] at hc'
    refine .inr ⟨x, ⟨hc', ?_, h.first_append hlog, hwaiting⟩, rfl, hanswers⟩
    rw [List.map_append]
    exact h.events.append (.refl _)

theorem recorded_of_steps {events : List AuthEvent} {tcp : NetTcpClient}
    {encryptionCipher decryptionCipher : Cipher}
    (h : Steps (AuthClient.service native config)
      (accepted tcp encryptionCipher decryptionCipher) events c) :
    ∃ log,
      Recorded native config (accepted tcp encryptionCipher decryptionCipher) events log c := by
  refine h.history (P := fun hist c => ∃ log, Recorded native config _ hist log c) ?_
    ⟨[], recorded_accepted tcp encryptionCipher decryptionCipher⟩
  rintro hist e c c' ⟨log, hc⟩ hrun
  rcases hc.service hrun with ⟨hc', _⟩ | ⟨x, hc', _, _⟩
  · exact ⟨log, hc'⟩
  · exact ⟨_, hc'⟩

end AuthClient

end AcOpenServer
