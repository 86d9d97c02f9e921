import AcOpenServer.Auth.Buffers
import AcOpenServer.Auth.Totality

namespace AcOpenServer
open Library
set_option autoImplicit true

namespace AuthClient

/-- A ticket in the documented format that is valid when it arrives, for a known title and with
these bytes at the start of its cookie. -/
structure PresentsTicket (keyBytes : List UInt8) (e : AuthEvent)
    (t : Ticket.TicketFields Ticket.Binary) (cookie : Ticket.Binary) : Prop where
  format : ∃ (size : Int32) (userdataLength signatureLength : UInt16) (trailing : List UInt8),
    e.message.payload = t.encode id size userdataLength signatureLength ++ trailing ∧
      0 ≤ size.toInt ∧ size.toInt ≤ (e.message.payload.length : Int) - 8
  issued : t.issuedDate.date.utcTicks ≤ e.issuedNow.utcTicks
  notExpired : e.expiredNow.utcTicks < t.expireDate.date.utcTicks
  knownTitle : Ticket.stringOf t.serviceID.1 ∈ knownTitleIDs
  hasCookie : t.cookie = some cookie
  long : 16 ≤ cookie.1.length
  same : cookie.1.take 16 = keyBytes

/-- Four messages as the game sends them. -/
structure Conforms (native : AuthNative) (config : AuthConfig) (e₁ e₂ e₃ e₄ : AuthEvent) :
    Prop where
  handshakeType : e₁.message.header.messageType = .requestHandshake
  handshake : ∃ handshake, native.parseRequestHandshake e₁.message.payload = .ok handshake ∧
    KeySize handshake.aesCwcKey.length
  serviceStatusType : e₂.message.header.messageType = .getServiceStatus
  serviceStatus : ∃ serviceStatus,
    native.parseGetServiceStatus e₂.message.payload = .ok serviceStatus ∧
      config.minimumVersion = .new serviceStatus.appVersion ∧
      config.maximumVersion = .new serviceStatus.appVersion
  keyMaterialType : e₃.message.header.messageType = .keyMaterial
  keyMaterial : 16 ≤ e₃.message.payload.length
  ticketType : e₄.message.header.messageType = .ticket
  ticket : ∃ t cookie, PresentsTicket (generatedKey e₃) e₄ t cookie

/-- The fields of the last reply, as the game reads them. -/
structure Connects (config : AuthConfig) (isPrivateNetwork : Bool) (bytes : List UInt8) : Prop where
  length : bytes.length = 56
  authToken : readAt UInt64 bytes = 0
  address : readAt UInt32 (bytes.drop 8) =
    if isPrivateNetwork then config.privateIP else config.publicIP
  gamePort : readAt UInt16 (bytes.drop 12) = config.gamePort
  sendBufferSize : readAt UInt32 (bytes.drop 16) = 0x8000
  receiveBufferSize : readAt UInt32 (bytes.drop 20) = 0x8000

/-- The client is complete and has queued these tasks, one for each reply. -/
structure Completes (native : AuthNative) (config : AuthConfig) (isPrivateNetwork : Bool)
    (e₁ e₂ e₃ e₄ : AuthEvent) (tasks : List WriteTask) (c : AuthClient) : Prop where
  complete : c.authState = .complete
  queued : c.sendQueue = tasks
  sent : c.client.client.sent.length = 4
  keyReply : CarriesReply native [e₁, e₂, e₃, e₄] 2 e₃ (generatedKey e₃) c.client.client.sent
  serverInfo : ∃ bytes, CarriesReply native [e₁, e₂, e₃, e₄] 3 e₄ bytes c.client.client.sent ∧
    Connects config isPrivateNetwork bytes

variable {native : AuthNative} {config : AuthConfig} {e e₁ e₂ e₃ e₄ : AuthEvent}
  {c c' : AuthClient} {tcp : NetTcpClient}

/-- The words in front of the unnamed ones. -/
def leadingWords (r : ConnectGameServerPortIdResponse) (rest : List UInt8) : List UInt8 :=
  bigEndian r.authToken ++ (bigEndian r.address ++
    (bigEndian r.gamePort ++ (Layout.encode r.padding ++
      (bigEndian r.sendBufferSize ++ (bigEndian r.receiveBufferSize ++ rest)))))

theorem encode_fields (r : ConnectGameServerPortIdResponse) :
    Layout.encode r = Layout.encode (ConnectGameServerPortIdResponse.fields r) := rfl

theorem encode_pair {α β : Type} [Layout α] [Layout β] (a : α) (b : β) :
    Layout.encode (a, b) = Layout.encode a ++ Layout.encode b := rfl

theorem encode_words {α β γ : Type} [Layout α] [Layout β] [Layout γ]
    (token : UInt64) (address : UInt32) (port : UInt16) (padding : α)
    (sendSize receiveSize : UInt32) (b : β) (c : γ) :
    Layout.encode ((token, address, port, padding), (sendSize, receiveSize, b), c) =
      Layout.encode token ++ (Layout.encode address ++ (Layout.encode port ++
        (Layout.encode padding ++ (Layout.encode sendSize ++ (Layout.encode receiveSize ++
          (Layout.encode b ++ Layout.encode c)))))) := by
  simp only [encode_pair, List.append_assoc]

theorem encode_swapEndian (r : ConnectGameServerPortIdResponse) :
    ∃ rest, Layout.encode r.swapEndian = leadingWords r rest := by
  have hfields : ConnectGameServerPortIdResponse.fields r.swapEndian =
      ((reverseEndianness r.authToken, reverseEndianness r.address, reverseEndianness r.gamePort,
          r.padding),
        (reverseEndianness r.sendBufferSize, reverseEndianness r.receiveBufferSize,
          r.swapEndian.unk18, r.swapEndian.unk1C, r.swapEndian.unk20),
        r.swapEndian.unk24, r.swapEndian.unk28, r.swapEndian.unk2C, r.swapEndian.unk30,
        r.swapEndian.unk34) := by
    -- without this `rfl` compares the swapped fields byte by byte
    rw [ConnectGameServerPortIdResponse.swapEndian]
    rfl
  refine ⟨Layout.encode (r.swapEndian.unk18, r.swapEndian.unk1C, r.swapEndian.unk20) ++
    Layout.encode (r.swapEndian.unk24, r.swapEndian.unk28, r.swapEndian.unk2C,
      r.swapEndian.unk30, r.swapEndian.unk34), ?_⟩
  rw [encode_fields, hfields, encode_words]
  simp only [encode_reverseEndianness, leadingWords, bigEndian]

theorem connects_serverInfoBytes (config : AuthConfig) (isPrivateNetwork : Bool) :
    Connects config isPrivateNetwork (serverInfoBytes config isPrivateNetwork) := by
  obtain ⟨rest, hwords⟩ := encode_swapEndian (serverInfo config isPrivateNetwork)
  rw [serverInfoBytes]
  constructor
  · exact Layout.length_encode _
  all_goals rw [hwords, leadingWords]
  · exact readAt_bigEndian_append _ _
  · exact readAt_drop_append _ _ (length_bigEndian _)
  all_goals rw [← List.append_assoc]
  · exact readAt_drop_append _ _ (by
      rw [List.length_append, length_bigEndian, length_bigEndian]
      rfl)
  all_goals rw [← List.append_assoc, ← List.append_assoc]
  · exact readAt_drop_append _ _ (by
      simp only [List.length_append, length_bigEndian, Layout.length_encode]
      rfl)
  · rw [← List.append_assoc]
    exact readAt_drop_append _ _ (by
      simp only [List.length_append, length_bigEndian, Layout.length_encode]
      rfl)

theorem Outcome.queued (h : Outcome native config e c (.ok () c'))
    (hstate : c.authState ≠ .disconnected) (hrefused : ¬ Refused native e c)
    (hversion : ¬ VersionRejected native config e c) (hwrite : e.write = some task) :
    c'.authState = c.authState.successor ∧ c'.sendQueue = c.sendQueue ++ [task] := by
  cases h with
  | refused refused => exact (hrefused refused).elim
  | ignored state => exact (hstate state).elim
  | handshake state _ _ _ write _ =>
    rw [state]
    cases hwrite.symm.trans write
    exact ⟨rfl, rfl⟩
  | serviceStatus state _ _ _ write _ =>
    rw [state]
    cases hwrite.symm.trans write
    exact ⟨rfl, rfl⟩
  | rejected state type parsed rejected _ =>
    exact (hversion ⟨state, type, _, parsed, rejected⟩).elim
  | keyMaterial state _ _ _ _ write _ =>
    rw [state]
    cases hwrite.symm.trans write
    exact ⟨rfl, rfl⟩
  | ticket state _ _ _ _ write _ =>
    rw [state]
    cases hwrite.symm.trans write
    exact ⟨rfl, rfl⟩

/-- A client that has queued these tasks and waits for the message of a state. -/
structure Waits (state : AuthClientState) (tasks : List WriteTask) (c : AuthClient) : Prop where
  authState : c.authState = state
  ready : Ready c
  sendQueue : c.sendQueue = tasks

theorem Waits.service {state : AuthClientState} {tasks : List WriteTask}
    (hc : Waits state tasks c) (hgood : native.cipher.cwc.Good) (hwrite : e.write = some task)
    (hnext : state.successor ≠ .disconnected) (hsufficient : Sufficient native e c)
    (hrefused : ¬ Refused native e c) (hversion : ¬ VersionRejected native config e c) :
    ∃ c', (AuthClient.service native config e).run c = .ok () c' ∧
      Waits state.successor (tasks ++ [task]) c' := by
  obtain ⟨c', hrun⟩ := returns_of_sufficient config hgood hc.ready hwrite hsufficient
  have hstate : c.authState ≠ .disconnected := by
    intro hd
    rw [← hc.authState, hd] at hnext
    exact hnext rfl
  obtain ⟨hsuccessor, hqueue⟩ := (service_ok hrun).queued hstate hrefused hversion hwrite
  rw [hc.authState] at hsuccessor
  rw [hc.sendQueue] at hqueue
  exact ⟨c', hrun, hsuccessor, (service_ok hrun).ready (fun _ => hc.ready)
    (by rw [hsuccessor]; exact hnext), hqueue⟩

theorem waits_accepted (h : tcp.disposedValue = false)
    (encryptionCipher decryptionCipher : Cipher) :
    Waits .waitingForHandshakeRequest [] (accepted tcp encryptionCipher decryptionCipher) :=
  ⟨rfl, ready_new h, rfl⟩

theorem not_versionRejected_of_ne (h : c.authState ≠ .waitingForServiceStatusRequest) :
    ¬ VersionRejected native config e c := fun hversion => h hversion.1

theorem not_rejects_of_eq {serviceStatus : GetServiceStatus}
    (hmin : config.minimumVersion = .new serviceStatus.appVersion)
    (hmax : config.maximumVersion = .new serviceStatus.appVersion) :
    ¬ Rejects config serviceStatus := by
  rintro (hlt | hgt)
  · rw [hmin] at hlt
    exact Nat.lt_irrefl _ (AcvAppVersion.number_lt_of_lt hlt)
  · rw [hmax] at hgt
    exact Nat.lt_irrefl _ (AcvAppVersion.number_lt_of_gt hgt)

theorem Conforms.handshake_waits (h : Conforms native config e₁ e₂ e₃ e₄)
    (hgood : native.cipher.cwc.Good) (hwrite : e₁.write = some task)
    (hc : Waits .waitingForHandshakeRequest tasks c) :
    ∃ c', (AuthClient.service native config e₁).run c = .ok () c' ∧
      Waits .waitingForServiceStatusRequest (tasks ++ [task]) c' := by
  obtain ⟨handshake, hparsed, hsize⟩ := h.handshake
  refine hc.service hgood hwrite (fun hstate => by cases hstate) ?_ ?_
    (not_versionRejected_of_ne ?_)
  · rw [Sufficient, hc.authState]
    intro _ handshake' hparsed'
    cases hparsed.symm.trans hparsed'
    exact hsize
  · rw [Refused, hc.authState]
    intro hrefused
    obtain ⟨error, herror⟩ := hrefused h.handshakeType
    cases hparsed.symm.trans herror
  · rw [hc.authState]
    intro heq
    cases heq

theorem Conforms.serviceStatus_waits (h : Conforms native config e₁ e₂ e₃ e₄)
    (hgood : native.cipher.cwc.Good) (hwrite : e₂.write = some task)
    (hc : Waits .waitingForServiceStatusRequest tasks c) :
    ∃ c', (AuthClient.service native config e₂).run c = .ok () c' ∧
      Waits .waitingForKeyMaterial (tasks ++ [task]) c' := by
  obtain ⟨serviceStatus, hparsed, hmin, hmax⟩ := h.serviceStatus
  refine hc.service hgood hwrite (fun hstate => by cases hstate) ?_ ?_ ?_
  · rw [Sufficient, hc.authState]
    exact trivial
  · rw [Refused, hc.authState]
    intro hrefused
    obtain ⟨error, herror⟩ := hrefused h.serviceStatusType
    cases hparsed.symm.trans herror
  · rintro ⟨_, _, serviceStatus', hparsed', hrejects⟩
    cases hparsed.symm.trans hparsed'
    exact not_rejects_of_eq hmin hmax hrejects

theorem Conforms.keyMaterial_waits (h : Conforms native config e₁ e₂ e₃ e₄)
    (hgood : native.cipher.cwc.Good) (hwrite : e₃.write = some task)
    (hc : Waits .waitingForKeyMaterial tasks c) :
    ∃ c', (AuthClient.service native config e₃).run c = .ok () c' ∧
      Waits .waitingForTicket (tasks ++ [task]) c' := by
  refine hc.service hgood hwrite (fun hstate => by cases hstate) ?_ ?_
    (not_versionRejected_of_ne ?_)
  · rw [Sufficient, hc.authState]
    exact fun _ => h.keyMaterial
  · rw [Refused, hc.authState]
    exact fun hrefused => hrefused h.keyMaterialType
  · rw [hc.authState]
    intro heq
    cases heq

theorem PresentsTicket.result_tryParse {keyBytes : List UInt8}
    {t : Ticket.TicketFields Ticket.Binary} {cookie : Ticket.Binary}
    (h : PresentsTicket keyBytes e t cookie) :
    (Ticket.tryParse ⟨e.message.payload, e.beyond⟩).result =
      .ok (.ok (t.ticket fun data => Ticket.stringOf data.1)) := by
  obtain ⟨size, userdataLength, signatureLength, trailing, hpayload, hpos, hle⟩ := h.format
  exact result_tryParse_eq_ok.2 (Ticket.ticketYields_iff.2
    ⟨t, size, userdataLength, signatureLength, trailing, hpayload, hpos, hle, rfl⟩)

theorem PresentsTicket.cookie_eq {keyBytes : List UInt8}
    {t : Ticket.TicketFields Ticket.Binary} {cookie : Ticket.Binary}
    (h : PresentsTicket keyBytes e t cookie) :
    (t.ticket fun data => Ticket.stringOf data.1).cookie = cookie.1 := by
  rw [Ticket.TicketFields.ticket, h.hasCookie]
  rfl

theorem PresentsTicket.presentable {keyBytes : List UInt8}
    {t : Ticket.TicketFields Ticket.Binary} {cookie : Ticket.Binary}
    (h : PresentsTicket keyBytes e t cookie) :
    Presentable e (t.ticket fun data => Ticket.stringOf data.1) where
  issued := decide_eq_false (Nat.not_lt_of_le h.issued)
  notExpired := decide_eq_false (Nat.not_le_of_lt h.notExpired)
  knownTitle := ⟨_, result_getServiceIdString _, h.knownTitle⟩

theorem PresentsTicket.waits {keyBytes : List UInt8} {t : Ticket.TicketFields Ticket.Binary}
    {cookie : Ticket.Binary} (h : PresentsTicket keyBytes e t cookie)
    (hgood : native.cipher.cwc.Good) (hwrite : e.write = some task)
    (hc : Waits .waitingForTicket tasks c) (hkey : c.gameCwcKeyBytes = keyBytes) :
    ∃ c', (AuthClient.service native config e).run c = .ok () c' ∧
      Waits .complete (tasks ++ [task]) c' := by
  have htry := h.result_tryParse
  refine hc.service hgood hwrite (fun hstate => by cases hstate) ?_ ?_
    (not_versionRejected_of_ne ?_)
  · rw [Sufficient, hc.authState]
    refine ⟨Ticket.tryParse_returns_iff.1 ⟨_, htry⟩, ?_⟩
    intro ticket hyields _
    cases htry.symm.trans (result_tryParse_eq_ok.2 hyields)
    rw [h.cookie_eq]
    exact h.long
  · rw [Refused, hc.authState]
    rintro (⟨error, herror⟩ | ⟨ticket, hparsed, hrefused⟩)
    · cases htry.symm.trans herror
    · cases htry.symm.trans hparsed
      obtain ⟨_, hne⟩ := hrefused h.presentable
      rw [h.cookie_eq] at hne
      exact hne (hkey.trans h.same.symm)
  · rw [hc.authState]
    intro heq
    cases heq

theorem completes_of_steps {encryptionCipher decryptionCipher : Cipher} {tasks : List WriteTask}
    (hsteps : Steps (service native config) (accepted tcp encryptionCipher decryptionCipher)
      [e₁, e₂, e₃, e₄] c) (hc : Waits .complete tasks c) :
    Completes native config tcp.isPrivateClient e₁ e₂ e₃ e₄ tasks c := by
  obtain ⟨log, hrecorded⟩ := recorded_of_steps hsteps
  have said := hrecorded.accounts.said
  have hlength := hrecorded.accounts.sent.length_eq
  have hevents := hrecorded.events
  rw [hc.authState] at said
  obtain ⟨cwc, x₁, x₂, m, e, hkey, rfl⟩ := said.complete_inv
  cases hevents.eq_of_length rfl
  exact ⟨hc.authState, hc.sendQueue, hlength, hrecorded.carriesReply hkey rfl, _,
    hrecorded.carriesReply hkey rfl, connects_serverInfoBytes config tcp.isPrivateClient⟩

theorem exists_completes (encryptionCipher decryptionCipher : Cipher)
    (hgood : native.cipher.cwc.Good) (hconnected : tcp.disposedValue = false)
    (h : Conforms native config e₁ e₂ e₃ e₄) (hwrite₁ : e₁.write = some t₁)
    (hwrite₂ : e₂.write = some t₂) (hwrite₃ : e₃.write = some t₃) (hwrite₄ : e₄.write = some t₄) :
    ∃ c, Steps (service native config) (accepted tcp encryptionCipher decryptionCipher)
        [e₁, e₂, e₃, e₄] c ∧
      Completes native config tcp.isPrivateClient e₁ e₂ e₃ e₄ [t₁, t₂, t₃, t₄] c := by
  obtain ⟨c₁, hrun₁, hc₁⟩ := h.handshake_waits hgood hwrite₁
    (waits_accepted hconnected encryptionCipher decryptionCipher)
  obtain ⟨c₂, hrun₂, hc₂⟩ := h.serviceStatus_waits hgood hwrite₂ hc₁
  obtain ⟨c₃, hrun₃, hc₃⟩ := h.keyMaterial_waits hgood hwrite₃ hc₂
  have hfields := keyFields_of_steps (.cons hrun₁ (.cons hrun₂ (.cons hrun₃ .nil)))
  rw [KeyFields, hc₃.authState] at hfields
  obtain ⟨m₁, m₂, m₃, hevents, _, hkey, _⟩ := hfields
  cases hevents
  obtain ⟨t, cookie, hticket⟩ := h.ticket
  obtain ⟨c₄, hrun₄, hc₄⟩ := hticket.waits hgood hwrite₄ hc₃ hkey
  have hsteps := Steps.cons hrun₁ (.cons hrun₂ (.cons hrun₃ (.cons hrun₄ .nil)))
  exact ⟨c₄, hsteps, completes_of_steps hsteps hc₄⟩

end AuthClient

namespace AuthObject

open AuthClient (Conforms Completes sampleNative sampleNative_good sampleConfig sampleEvent
  sampleStatus sampleEvents sampleFields)

variable {native : AuthNative} {config : AuthConfig} {e₁ e₂ e₃ e₄ : AuthEvent}
  {tcp : NetTcpClient}

/-- A client whose four messages are as they should be always completes: its replies are queued,
the third one holds the key and the last one the address to connect to. -/
theorem completes_of_conforms (encryptionCipher decryptionCipher : Cipher)
    (hgood : native.cipher.cwc.Good) (hconnected : tcp.disposedValue = false)
    (h : Conforms native config e₁ e₂ e₃ e₄) (hwrite₁ : e₁.write = some t₁)
    (hwrite₂ : e₂.write = some t₂) (hwrite₃ : e₃.write = some t₃) (hwrite₄ : e₄.write = some t₄) :
    ∃ o, Steps (service native config) (accepted tcp encryptionCipher decryptionCipher)
        [e₁, e₂, e₃, e₄] o ∧
      Completes native config tcp.isPrivateClient e₁ e₂ e₃ e₄ [t₁, t₂, t₃, t₄] (view o) := by
  obtain ⟨c, hsteps, hc⟩ := AuthClient.exists_completes encryptionCipher decryptionCipher hgood
    hconnected h hwrite₁ hwrite₂ hwrite₃ hwrite₄
  have hview : Steps (AuthClient.service native config)
      (view (accepted tcp encryptionCipher decryptionCipher)) [e₁, e₂, e₃, e₄] c := hsteps
  obtain ⟨o, ho, rfl⟩ := hview.exists_of_simulates (simulates_service native config)
    (allocated_accepted tcp encryptionCipher decryptionCipher)
  exact ⟨o, ho, hc⟩

/-- The configuration admits the version of the sample only. -/
def sampleVersionConfig : AuthConfig :=
  { sampleConfig with minimumVersion := .new 0x202000000, maximumVersion := .new 0x202000000 }

theorem completes_sampleEvents : ∃ o, Steps (service sampleNative sampleVersionConfig)
      sampleObject sampleEvents o ∧
    Completes sampleNative sampleVersionConfig false
      (sampleEvent .requestHandshake (0x0A :: 0x10 :: List.replicate 16 0))
      sampleStatus
      (sampleEvent .keyMaterial (List.replicate 16 1))
      (sampleEvent .ticket (sampleFields.encode id 0 0 0))
      [.completed, .completed, .completed, .completed] (view o) := by
  refine completes_of_conforms _ _ sampleNative_good rfl ?_ rfl rfl rfl rfl
  constructor
  · rfl
  · exact ⟨⟨List.replicate 16 0⟩, rfl, .inl rfl⟩
  · rfl
  · exact ⟨⟨2, "", "", 0x202000000⟩, by decide, by decide, by decide⟩
  · rfl
  · decide
  · rfl
  · refine ⟨sampleFields, ⟨List.replicate 16 1, by decide⟩, ?_⟩
    constructor
    · exact ⟨0, 0, 0, [], (List.append_nil _).symm, by decide, by decide +kernel⟩
    · decide
    · decide
    · decide +kernel
    · rfl
    · decide
    · decide

end AuthObject

end AcOpenServer
