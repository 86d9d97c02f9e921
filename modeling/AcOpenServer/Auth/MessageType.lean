import AcOpenServer.Auth.Conversation
import AcOpenServer.Auth.Totality

namespace AcOpenServer
open Library
set_option autoImplicit true

/-- The kind of message a step is for. -/
def AuthClientState.messageType : AuthClientState → Option SVFWMessageType
  | .waitingForHandshakeRequest => some .requestHandshake
  | .waitingForServiceStatusRequest => some .getServiceStatus
  | .waitingForKeyMaterial => some .keyMaterial
  | .waitingForTicket => some .ticket
  | .complete => none
  | .disconnected => none

namespace AuthClient

/-- `Service` disconnects the client, without a reply and with the ciphers and keys it had. -/
def TurnsAway (native : AuthNative) (config : AuthConfig) (e : AuthEvent) (c : AuthClient) : Prop :=
  ∃ c', (service native config e).run c = .ok () c' ∧ c'.authState = .disconnected ∧
    c'.client.client.sent = c.client.client.sent ∧ c'.sendQueue.Sublist c.sendQueue ∧
    c'.client.cipherEnabled = c.client.cipherEnabled ∧
    c'.client.encryptionCipher = c.client.encryptionCipher ∧
    c'.client.decryptionCipher = c.client.decryptionCipher ∧
    c'.gameCwcKeyBytes = c.gameCwcKeyBytes ∧ c'.gameCwcKey = c.gameCwcKey

/-- The payload can be read as a ticket without an exception, and if it is one, it does not pass
the checks. -/
def TicketRefused (e : AuthEvent) (c : AuthClient) : Prop :=
  Ticket.TicketPasses ⟨e.message.payload, e.beyond⟩ ∧
    ∀ ticket, Ticket.TicketYields e.message.payload ticket → Presentable e ticket →
      16 ≤ ticket.cookie.length ∧ c.gameCwcKeyBytes ≠ ticket.cookie.take 16

variable {native : AuthNative} {config : AuthConfig} {e : AuthEvent} {c c' : AuthClient}

theorem run_disconnect (c : AuthClient) :
    disconnect.run c = .ok () (dispose { c with authState := .disconnected }) := rfl

theorem run_service_of_refused (config : AuthConfig) (h : Refused native e c) :
    (service native config e).run c = .ok () (dispose { c with authState := .disconnected }) := by
  rw [service, run_get_bind]
  unfold Refused at h
  cases hstate : c.authState with
  | waitingForHandshakeRequest =>
    rw [hstate] at h
    dsimp only at h ⊢
    rw [handleWaitingForHandshakeRequest]
    split
    · exact run_disconnect c
    · rename_i htype
      obtain ⟨error, herror⟩ := h (not_not.1 htype)
      rw [herror]
      exact run_disconnect c
  | waitingForServiceStatusRequest =>
    rw [hstate] at h
    dsimp only at h ⊢
    rw [handleWaitingForServiceStatusRequest]
    split
    · exact run_disconnect c
    · rename_i htype
      obtain ⟨error, herror⟩ := h (not_not.1 htype)
      rw [herror]
      exact run_disconnect c
  | waitingForKeyMaterial =>
    rw [hstate] at h
    dsimp only at h ⊢
    rw [handleWaitingForKeyMaterial, if_pos h]
    exact run_disconnect c
  | waitingForTicket =>
    rw [hstate] at h
    dsimp only at h ⊢
    rw [handleWaitingForTicket]
    rcases h with ⟨error, htry⟩ | ⟨ticket, htry, hcookie⟩
    · rw [run_bind_of_ok _ (Traced.run_toAction_of_ok htry c)]
      exact run_disconnect c
    · rw [run_bind_of_ok _ (Traced.run_toAction_of_ok htry c)]
      dsimp only
      split
      · exact run_disconnect c
      · rename_i hissued
        split
        · exact run_disconnect c
        · rename_i hexpired
          have htitle := result_getServiceIdString ticket
          rw [run_bind_of_ok _ (Traced.run_toAction_of_ok htitle c)]
          split
          · exact run_disconnect c
          · rename_i hknown
            obtain ⟨hlong, hne⟩ := hcookie ⟨Bool.eq_false_iff.2 hissued,
              Bool.eq_false_iff.2 hexpired, _, htitle, not_not.1 hknown⟩
            have hslice := result_slice_cookie hlong
            rw [run_bind_of_ok _ (Traced.run_toAction_of_ok hslice c), run_get_bind, if_pos hne]
            exact run_disconnect c
  | complete => exact run_disconnect c
  | disconnected =>
    rw [hstate] at h
    exact h.elim

theorem dispose_keeps (c : AuthClient) : (dispose c).gameCwcKeyBytes = c.gameCwcKeyBytes ∧
    (dispose c).gameCwcKey = c.gameCwcKey ∧ (dispose c).sendQueue.Sublist c.sendQueue := by
  unfold dispose
  split
  · exact ⟨rfl, rfl, .refl _⟩
  · exact ⟨rfl, rfl, List.nil_sublist _⟩

theorem turnsAway_of_refused (config : AuthConfig) (h : Refused native e c) :
    TurnsAway native config e c := by
  obtain ⟨tcp, packets, messages, hclient⟩ :=
    client_dispose { c with authState := .disconnected }
  obtain ⟨hbytes, hkey, hqueue⟩ := dispose_keeps { c with authState := .disconnected }
  refine ⟨_, run_service_of_refused config h, authState_dispose _, ?_, hqueue, ?_, ?_, ?_, hbytes,
    hkey⟩
  all_goals rw [hclient]

/-- In front of the ticket a message of another type is refused. -/
theorem refused_of_wrong_type {expected : SVFWMessageType}
    (hexpected : c.authState.messageType = some expected)
    (htype : e.message.header.messageType ≠ expected)
    (hstate : c.authState ≠ .waitingForTicket) : Refused native e c := by
  unfold Refused
  split
  · rename_i h
    rw [h] at hexpected
    cases hexpected
    exact fun heq => (htype heq).elim
  · rename_i h
    rw [h] at hexpected
    cases hexpected
    exact fun heq => (htype heq).elim
  · rename_i h
    rw [h] at hexpected
    cases hexpected
    exact htype
  · rename_i h
    exact (hstate h).elim
  · exact trivial
  · rename_i h
    rw [h] at hexpected
    cases hexpected

theorem refused_ticket_iff (hstate : c.authState = .waitingForTicket) :
    Refused native e c ↔ TicketRefused e c := by
  rw [Refused, hstate]
  constructor
  · rintro (⟨error, htry⟩ | ⟨ticket, htry, hcookie⟩)
    · refine ⟨Ticket.tryParse_returns_iff.1 ⟨_, htry⟩, ?_⟩
      intro ticket hyields _
      cases htry.symm.trans (result_tryParse_eq_ok.2 hyields)
    · refine ⟨Ticket.tryParse_returns_iff.1 ⟨_, htry⟩, ?_⟩
      intro ticket' hyields hpresentable
      cases htry.symm.trans (result_tryParse_eq_ok.2 hyields)
      exact hcookie hpresentable
  · rintro ⟨hpasses, hcookie⟩
    obtain ⟨parsed, htry⟩ := Ticket.tryParse_returns_iff.2 hpasses
    cases parsed with
    | error error => exact .inl ⟨error, htry⟩
    | ok ticket =>
      exact .inr ⟨ticket, htry, hcookie ticket (result_tryParse_eq_ok.1 htry)⟩

theorem refused_of_turnsAway (hstate : c.authState = .waitingForTicket)
    (h : TurnsAway native config e c) : Refused native e c := by
  obtain ⟨c', hrun, hdisconnected, _⟩ := h
  cases service_ok hrun with
  | refused refused => exact refused
  | ignored state => cases hstate.symm.trans state
  | handshake state _ _ _ _ _ => cases hstate.symm.trans state
  | serviceStatus state _ _ _ _ _ => cases hstate.symm.trans state
  | rejected state _ _ _ _ => cases hstate.symm.trans state
  | keyMaterial state _ _ _ _ _ _ => cases hstate.symm.trans state
  | ticket _ _ _ _ _ _ _ => cases hdisconnected

/-- A message of another type than the one a step is for is turned away, unless the step is the
one for the ticket and the payload is not refused as one. -/
theorem turnsAway_iff {expected : SVFWMessageType}
    (hexpected : c.authState.messageType = some expected)
    (htype : e.message.header.messageType ≠ expected) :
    TurnsAway native config e c ↔ (c.authState = .waitingForTicket → TicketRefused e c) := by
  constructor
  · intro h hstate
    exact (refused_ticket_iff hstate).1 (refused_of_turnsAway hstate h)
  · intro h
    apply turnsAway_of_refused
    by_cases hstate : c.authState = .waitingForTicket
    · exact (refused_ticket_iff hstate).2 (h hstate)
    · exact refused_of_wrong_type hexpected htype hstate

/-- A ticket that was issued to someone else. -/
def foreignFields : Ticket.TicketFields Ticket.Binary :=
  { sampleFields with cookie := some ⟨List.replicate 16 2, by decide⟩ }

def foreignTicket : AuthEvent := sampleEvent .keyMaterial (foreignFields.encode id 0 0 0)

theorem turnsAway_foreignTicket :
    ∃ c, Steps (service sampleNative sampleConfig) (new sampleClient) (sampleEvents.take 3) c ∧
      c.authState = .waitingForTicket ∧ TurnsAway sampleNative sampleConfig foreignTicket c := by
  have hrun : (runAll (service sampleNative sampleConfig) (sampleEvents.take 3)
      (new sampleClient)).map (fun c => (c.authState, c.gameCwcKeyBytes)) =
      some (.waitingForTicket, List.replicate 16 1) := by decide +kernel
  obtain ⟨c, hc, hfields⟩ := Option.map_eq_some_iff.1 hrun
  obtain ⟨hstate, hbytes⟩ := Prod.mk.inj hfields
  have hyields : Ticket.TicketYields foreignTicket.message.payload
      (foreignFields.ticket fun data => Ticket.stringOf data.1) :=
    Ticket.ticketYields_iff.2
      ⟨foreignFields, 0, 0, 0, [], (List.append_nil _).symm, by decide,
        by decide +kernel, rfl⟩
  have hrefused : Refused sampleNative foreignTicket c := by
    rw [Refused, hstate]
    dsimp only
    refine .inr ⟨_, result_tryParse_eq_ok.2 hyields, fun _ => ?_⟩
    rw [hbytes]
    decide
  have hexpected : c.authState.messageType = some .ticket := by
    rw [hstate]
    rfl
  have hother : foreignTicket.message.header.messageType ≠ .ticket := by decide
  exact ⟨c, steps_of_runAll hc, hstate,
    (turnsAway_iff hexpected hother).2 fun _ => (refused_ticket_iff hstate).1 hrefused⟩

/-- The bytes of a ticket complete the authentication in a message of any type. -/
theorem misnamed_ticket_not_turned_away : ¬ ∀ (native : AuthNative) (config : AuthConfig)
    (tcp : NetTcpClient) (encryptionCipher decryptionCipher : Cipher) (events : List AuthEvent)
    (c : AuthClient) (e : AuthEvent) (expected : SVFWMessageType),
    Steps (service native config) (accepted tcp encryptionCipher decryptionCipher) events c →
    c.authState.messageType = some expected → e.message.header.messageType ≠ expected →
    TurnsAway native config e c := by
  intro h
  have hrun : (runAll (service sampleNative sampleConfig) (sampleEvents.take 3)
      (new sampleClient)).map (fun c => (c.authState,
        (runAll (service sampleNative sampleConfig)
          [sampleEvent .keyMaterial (sampleFields.encode id 0 0 0)] c).map (·.authState))) =
      some (.waitingForTicket, some .complete) := by
    decide +kernel
  obtain ⟨c, hc, hstates⟩ := Option.map_eq_some_iff.1 hrun
  obtain ⟨hstate, hnext⟩ := Prod.mk.inj hstates
  obtain ⟨d, hd, hcomplete⟩ := Option.map_eq_some_iff.1 hnext
  obtain ⟨c', hc', hdisconnected, _⟩ := h sampleNative sampleConfig _ _ _ _ c
    (sampleEvent .keyMaterial (sampleFields.encode id 0 0 0)) .ticket (steps_of_runAll hc)
    (by rw [hstate]; rfl) nofun
  have hservice := steps_of_runAll hd
  cases hservice with
  | cons hfirst hrest =>
    cases hrest
    cases hfirst.symm.trans hc'
    cases hcomplete.symm.trans hdisconnected

end AuthClient

end AcOpenServer
