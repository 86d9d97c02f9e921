import AcOpenServer.Auth.Secrecy

namespace AcOpenServer
open Library
set_option autoImplicit true

namespace AuthClient

/-- The packet at an index carries these bytes as the reply to a message, encrypted with the key
of the handshake. -/
def CarriesReply (native : AuthNative) (events : List AuthEvent) (k : Nat) (e : AuthEvent)
    (bytes : List UInt8) (packets : List SVFWPacket) : Prop :=
  ∃ key output message packet, events.head?.bind (offeredKey native) = some key ∧
    (CWCCipher.encrypt native.cipher.cwc key e.iv bytes).result = .ok (output, message) ∧
    packets[k]? = some packet ∧
    packet.payload = (replyPacket e.message.header.messageIndex output).payload

/-- The third packet carries these bytes as the reply to the key material `m`. -/
def KeyReply (native : AuthNative) (events : List AuthEvent) (m : AuthEvent)
    (bytes : List UInt8) (packets : List SVFWPacket) : Prop :=
  m ∈ events ∧ m.message.header.messageType = .keyMaterial ∧
    CarriesReply native events 2 m bytes packets

/-- The bytes, the key built from them and the reply to the key material agree, and the bytes
are cleared when the client is complete. -/
structure KeyAgreed (native : AuthNative) (events : List AuthEvent) (c : AuthClient) : Prop where
  waiting : c.authState = .waitingForTicket →
    c.gameCwcKeyBytes.length = 16 ∧ c.gameCwcKey = some ⟨c.gameCwcKeyBytes⟩ ∧
      ∃ m, KeyReply native events m c.gameCwcKeyBytes c.client.client.sent ∧
        c.gameCwcKeyBytes.take 8 = (m.message.payload.drop 8).take 8
  complete : c.authState = .complete →
    c.gameCwcKeyBytes = List.replicate 16 0 ∧
      ∃ m bytes, KeyReply native events m bytes c.client.client.sent ∧
        c.gameCwcKey = some ⟨bytes⟩

variable {native : AuthNative} {config : AuthConfig} {e : AuthEvent} {c c' : AuthClient}
  {isPrivateNetwork : Bool} {log : List Exchange}

theorem Conversation.waitingForTicket_inv
    (h : Conversation native config isPrivateNetwork .waitingForTicket key log) :
    ∃ cwc x₁ x₂ m, key = some cwc ∧ log = [x₁, x₂, ⟨m, generatedKey m, some cwc⟩] := by
  cases h with
  | keyMaterial said _ =>
    cases said with
    | serviceStatus said _ _ _ =>
      cases said with
      | handshake _ _ _ => exact ⟨_, _, _, _, rfl, rfl⟩

theorem Conversation.complete_inv
    (h : Conversation native config isPrivateNetwork .complete key log) :
    ∃ cwc x₁ x₂ m e, key = some cwc ∧ log = [x₁, x₂, ⟨m, generatedKey m, some cwc⟩,
      ⟨e, serverInfoBytes config isPrivateNetwork, some cwc⟩] := by
  cases h with
  | ticket said =>
    obtain ⟨cwc, x₁, x₂, m, hkey, rfl⟩ := said.waitingForTicket_inv
    cases hkey
    exact ⟨_, _, _, _, _, rfl, rfl⟩

/-- What the fields with the key hold. -/
def KeyFields (hist : List AuthEvent) (c : AuthClient) : Prop :=
  match c.authState with
  | .waitingForTicket => ∃ m₁ m₂ m₃, hist = [m₁, m₂, m₃] ∧ KeyMaterialAccepted m₃ ∧
      c.gameCwcKeyBytes = generatedKey m₃ ∧ c.gameCwcKey = some ⟨generatedKey m₃⟩
  | .complete => ∃ m₁ m₂ m₃ m₄, hist = [m₁, m₂, m₃, m₄] ∧ KeyMaterialAccepted m₃ ∧
      c.gameCwcKeyBytes = List.replicate 16 0 ∧ c.gameCwcKey = some ⟨generatedKey m₃⟩
  | _ => True

theorem keyFields_of_ne {hist : List AuthEvent} (h : c.authState ≠ .waitingForTicket)
    (h' : c.authState ≠ .complete) : KeyFields hist c := by
  unfold KeyFields
  split
  · rename_i hstate
    exact (h hstate).elim
  · rename_i hstate
    exact (h' hstate).elim
  · exact trivial

theorem eq_of_new_eq_ok {cwc : CwcNative} {bytes : List UInt8} {key : CWC}
    (h : (CWC.new cwc bytes).result = .ok key) : key = ⟨bytes⟩ := by
  unfold CWC.new at h
  split at h
  · cases h
  · cases h
    rfl

theorem Outcome.keyFields {hist : List AuthEvent} (h : Outcome native config e c (.ok () c'))
    (hhist : History native config hist c) (hkey : KeyFields hist c) :
    KeyFields (hist ++ [e]) c' := by
  have hdisconnected : c'.authState = .disconnected → KeyFields (hist ++ [e]) c' := by
    intro hstate
    refine keyFields_of_ne ?_ ?_ <;> rw [hstate] <;> exact nofun
  cases h with
  | refused _ => exact hdisconnected (authState_dispose _)
  | ignored state => exact hdisconnected state
  | handshake _ _ _ _ _ _ => exact trivial
  | serviceStatus _ _ _ _ _ _ => exact trivial
  | rejected _ _ _ _ dropped => exact hdisconnected dropped.disconnected
  | keyMaterial state type long stored keyed _ _ =>
    rw [History, state] at hhist
    obtain ⟨m₁, m₂, rfl, _, _, hlen⟩ := hhist
    cases eq_of_new_eq_ok keyed
    exact ⟨m₁, m₂, e, rfl, ⟨type, long⟩, stored hlen, rfl⟩
  | ticket state _ _ _ _ _ _ =>
    rw [KeyFields, state] at hkey
    obtain ⟨m₁, m₂, m₃, rfl, haccepted, hbytes, hkey⟩ := hkey
    refine ⟨m₁, m₂, m₃, e, rfl, haccepted, ?_, hkey⟩
    have hlen := length_generatedKey haccepted.2
    rw [← hbytes] at hlen
    exact congrArg (List.replicate · 0) hlen

theorem keyFields_of_steps {client : SVFWMessageClient} {events : List AuthEvent}
    (h : Steps (service native config) (new client) events c) : KeyFields events c :=
  (h.history (P := fun hist c => History native config hist c ∧ KeyFields hist c)
    (fun _ _ _ _ hc hrun =>
      ⟨(service_ok hrun).history hc.1, (service_ok hrun).keyFields hc.1 hc.2⟩)
    ⟨history_new client, trivial⟩).2

theorem Recorded.carriesReply {start : AuthClient} {events : List AuthEvent} {k : Nat}
    (h : Recorded native config start events log c)
    (hkey : events.head?.bind (offeredKey native) = some cwc)
    (hx : log[k]? = some ⟨e, plaintext, some cwc⟩) :
    CarriesReply native events k e plaintext c.client.client.sent := by
  obtain ⟨output, ⟨message, hencrypt⟩, hpacket⟩ := h.accounts.sent.getElem? hx
  exact ⟨cwc, output, message, _, hkey, hencrypt, hpacket, rfl⟩

theorem take_generatedKey (h : KeyMaterialAccepted e) :
    (generatedKey e).take 8 = (e.message.payload.drop 8).take 8 := by
  have hlen := h.2
  refine List.take_left' ?_
  rw [List.length_take, List.length_drop]
  omega

theorem keyAgreed_of_steps {tcp : NetTcpClient} {encryptionCipher decryptionCipher : Cipher}
    {events : List AuthEvent}
    (h : Steps (service native config) (accepted tcp encryptionCipher decryptionCipher) events c) :
    KeyAgreed native events c := by
  obtain ⟨log, hrecorded⟩ := recorded_of_steps h
  have hfields := keyFields_of_steps h
  have said := hrecorded.accounts.said
  have hsublist := hrecorded.events
  constructor
  · intro hstate
    rw [KeyFields, hstate] at hfields
    obtain ⟨m₁, m₂, m₃, rfl, haccepted, hbytes, hkey⟩ := hfields
    rw [hstate] at said
    obtain ⟨cwc, x₁, x₂, m, hcwc, rfl⟩ := said.waitingForTicket_inv
    have hevents := hsublist.eq_of_length rfl
    cases hevents
    have hreply := hrecorded.carriesReply (k := 2) hcwc rfl
    rw [hbytes]
    exact ⟨length_generatedKey haccepted.2, hkey, _, ⟨by simp, haccepted.1, hreply⟩,
      take_generatedKey haccepted⟩
  · intro hstate
    rw [KeyFields, hstate] at hfields
    obtain ⟨m₁, m₂, m₃, m₄, rfl, haccepted, hbytes, hkey⟩ := hfields
    rw [hstate] at said
    obtain ⟨cwc, x₁, x₂, m, x₄, hcwc, rfl⟩ := said.complete_inv
    have hevents := hsublist.eq_of_length rfl
    cases hevents
    have hreply := hrecorded.carriesReply (k := 2) hcwc rfl
    exact ⟨hbytes, _, _, ⟨by simp, haccepted.1, hreply⟩, hkey⟩

theorem CarriesReply.append {hist rest : List AuthEvent} {k : Nat} {bytes : List UInt8}
    {packets : List SVFWPacket} (h : CarriesReply native hist k e bytes packets) :
    CarriesReply native (hist ++ rest) k e bytes packets := by
  obtain ⟨key, output, message, packet, hkey, hreply⟩ := h
  exact ⟨key, output, message, packet, offeredKey_append hkey, hreply⟩

theorem KeyReply.append {hist rest : List AuthEvent} {m : AuthEvent} {bytes : List UInt8}
    {packets : List SVFWPacket} (h : KeyReply native hist m bytes packets) :
    KeyReply native (hist ++ rest) m bytes packets :=
  ⟨List.mem_append_left _ h.1, h.2.1, h.2.2.append⟩

theorem KeyAgreed.append {hist rest : List AuthEvent} (h : KeyAgreed native hist c) :
    KeyAgreed native (hist ++ rest) c where
  waiting hstate := by
    obtain ⟨hlen, hkey, m, hreply, htake⟩ := h.waiting hstate
    exact ⟨hlen, hkey, m, hreply.append, htake⟩
  complete hstate := by
    obtain ⟨hbytes, m, bytes, hreply, hkey⟩ := h.complete hstate
    exact ⟨hbytes, m, bytes, hreply.append, hkey⟩

/-- The bytes of the key were cleared for a ticket that was accepted, but the client does not
go on. -/
structure Cleared (e : AuthEvent) (c c' : AuthClient) : Prop where
  waiting : c.authState = .waitingForTicket
  ticketAccepted : TicketAccepted c.gameCwcKeyBytes e
  authState : c'.authState = .waitingForTicket
  keyBytes : c'.gameCwcKeyBytes = List.replicate 16 0
  key : c'.gameCwcKey = c.gameCwcKey

theorem keyAgreed_of_error {tcp : NetTcpClient} {encryptionCipher decryptionCipher : Cipher}
    {events : List AuthEvent}
    (h : Steps (service native config) (accepted tcp encryptionCipher decryptionCipher) events c)
    (herror : (service native config e).run c = .error ex c') :
    KeyAgreed native (events ++ [e]) c' ∨ Cleared e c c' := by
  have hother : ∀ {state}, c'.authState = state → state ≠ .waitingForTicket →
      state ≠ .complete → KeyAgreed native (events ++ [e]) c' := by
    rintro state rfl hne hne'
    exact ⟨fun h => (hne h).elim, fun h => (hne' h).elim⟩
  have hagreed := keyAgreed_of_steps h
  cases service_error herror with
  | threw _ _ => exact .inl hagreed.append
  | handshakeThrew state _ _ _ _ => exact .inl (hother state nofun nofun)
  | serviceStatusThrew state _ _ _ _ => exact .inl (hother state nofun nofun)
  | keyMaterialThrew state _ _ => exact .inl (hother state nofun nofun)
  | ticketThrew state parsed presentable long same _ =>
    obtain ⟨hlen, _⟩ := hagreed.waiting state
    refine .inr ⟨state, ?_, state, congrArg (List.replicate · 0) hlen, rfl⟩
    rw [same]
    exact ticketAccepted parsed presentable long

end AuthClient

end AcOpenServer
