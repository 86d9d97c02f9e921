import AcOpenServer.Auth.Ready
import AcOpenServer.Auth.Soundness
import AcOpenServer.RPCN.Exceptions

namespace AcOpenServer
open Library
set_option autoImplicit true

namespace AuthClientState

def successor : AuthClientState → AuthClientState
  | .waitingForHandshakeRequest => .waitingForServiceStatusRequest
  | .waitingForServiceStatusRequest => .waitingForKeyMaterial
  | .waitingForKeyMaterial => .waitingForTicket
  | .waitingForTicket => .complete
  | .complete => .disconnected
  | .disconnected => .disconnected

end AuthClientState

namespace AuthClient

/-- `Service` returns, and has gone on to the next state or disconnected the client. -/
def Handles (native : AuthNative) (config : AuthConfig) (e : AuthEvent) (c : AuthClient) : Prop :=
  ∃ c', (service native config e).run c = .ok () c' ∧
    (c'.authState = c.authState.successor ∨ c'.authState = .disconnected)

/-- The key sizes of AES. -/
def KeySize (n : Nat) : Prop := n = 16 ∨ n = 24 ∨ n = 32

/-- The bytes a handler takes from a message are there. -/
def Sufficient (native : AuthNative) (e : AuthEvent) (c : AuthClient) : Prop :=
  match c.authState with
  | .waitingForHandshakeRequest =>
    e.message.header.messageType = .requestHandshake →
      ∀ handshake, native.parseRequestHandshake e.message.payload = .ok handshake →
        KeySize handshake.aesCwcKey.length
  | .waitingForKeyMaterial =>
    e.message.header.messageType = .keyMaterial → 16 ≤ e.message.payload.length
  | .waitingForTicket =>
    Ticket.TicketPasses ⟨e.message.payload, e.beyond⟩ ∧
      ∀ ticket, Ticket.TicketYields e.message.payload ticket → Presentable e ticket →
        16 ≤ ticket.cookie.length
  | _ => True

variable {native : AuthNative} {config : AuthConfig} {e : AuthEvent} {c c' : AuthClient}

theorem Outcome.next (h : Outcome native config e c (.ok () c')) :
    c'.authState = c.authState.successor ∨ c'.authState = .disconnected := by
  cases h with
  | refused _ => exact .inr (authState_dispose _)
  | ignored state => exact .inr state
  | handshake state _ _ _ _ _ =>
    rw [state]
    exact .inl rfl
  | serviceStatus state _ _ _ _ _ =>
    rw [state]
    exact .inl rfl
  | rejected _ _ _ _ dropped => exact .inr dropped.disconnected
  | keyMaterial state _ _ _ _ _ _ =>
    rw [state]
    exact .inl rfl
  | ticket state _ _ _ _ _ _ =>
    rw [state]
    exact .inl rfl

theorem handles_iff_returns :
    Handles native config e c ↔ ∃ c', (service native config e).run c = .ok () c' := by
  constructor
  · rintro ⟨c', hrun, _⟩
    exact ⟨c', hrun⟩
  · rintro ⟨c', hrun⟩
    exact ⟨c', hrun, (service_ok hrun).next⟩

theorem new_returns_iff (hgood : native.cipher.cwc.Good) {key : List UInt8} :
    (∃ cwc, (CWC.new native.cipher.cwc key).result = .ok cwc) ↔ KeySize key.length := by
  rw [KeySize, ← hgood.initAndKey, CWC.new]
  split
  · rename_i hne
    refine iff_of_false ?_ hne
    rintro ⟨cwc, hcwc⟩
    cases hcwc
  · rename_i heq
    exact iff_of_true ⟨_, rfl⟩ (not_not.1 heq)

theorem result_tryParse_eq_ok {payload : Span} {ticket : Ticket} :
    (Ticket.tryParse payload).result = .ok (.ok ticket) ↔
      Ticket.TicketYields payload.bytes ticket := by
  rw [← Ticket.result_parse_iff, Ticket.tryParse_eq]
  dsimp only
  cases hr : (Ticket.parse payload).result with
  | ok ticket' => simp only [Except.ok.injEq]
  | error error =>
    refine iff_of_false ?_ fun h => by cases h
    cases error <;> (intro h; cases h)

theorem sufficient_of_returns (hgood : native.cipher.cwc.Good)
    (hrun : (service native config e).run c = .ok () c') : Sufficient native e c := by
  cases service_ok hrun with
  | handshake state _ parsed keyed _ _ =>
    rw [Sufficient, state]
    intro _ handshake hparsed
    cases parsed.symm.trans hparsed
    exact (new_returns_iff hgood).1 ⟨_, keyed⟩
  | serviceStatus state _ _ _ _ _ =>
    rw [Sufficient, state]
    exact trivial
  | rejected state _ _ _ _ =>
    rw [Sufficient, state]
    exact trivial
  | keyMaterial state _ long _ _ _ _ =>
    rw [Sufficient, state]
    exact fun _ => long
  | ticket state parsed _ long _ _ _ =>
    rw [Sufficient, state]
    refine ⟨Ticket.tryParse_returns_iff.1 ⟨_, parsed⟩, ?_⟩
    intro ticket hyields _
    cases parsed.symm.trans (result_tryParse_eq_ok.2 hyields)
    exact long
  | refused refused =>
    unfold Refused at refused
    unfold Sufficient
    split at refused
    · rename_i state
      rw [state]
      intro htype handshake hparsed
      obtain ⟨error, herror⟩ := refused htype
      cases herror.symm.trans hparsed
    · rename_i state
      rw [state]
      exact trivial
    · rename_i state
      rw [state]
      exact fun htype => (refused htype).elim
    · rename_i state
      rw [state]
      rcases refused with ⟨error, htry⟩ | ⟨ticket, htry, hcookie⟩
      · refine ⟨Ticket.tryParse_returns_iff.1 ⟨_, htry⟩, ?_⟩
        intro ticket hyields _
        cases htry.symm.trans (result_tryParse_eq_ok.2 hyields)
      · refine ⟨Ticket.tryParse_returns_iff.1 ⟨_, htry⟩, ?_⟩
        intro ticket' hyields hpresentable
        cases htry.symm.trans (result_tryParse_eq_ok.2 hyields)
        exact (hcookie hpresentable).1
    · rename_i state
      rw [state]
      exact trivial
    · exact refused.elim
  | ignored state =>
    rw [Sufficient, state]
    exact trivial

theorem returns_handshakeRequest (hgood : native.cipher.cwc.Good) (hc : Ready c)
    (hwrite : e.write = some task)
    (h : e.message.header.messageType = .requestHandshake →
      ∀ handshake, native.parseRequestHandshake e.message.payload = .ok handshake →
        KeySize handshake.aesCwcKey.length) :
    ∃ c', (handleWaitingForHandshakeRequest native e).run c = .ok () c' := by
  unfold handleWaitingForHandshakeRequest
  split
  · exact ⟨_, rfl⟩
  · rename_i htype
    split
    · exact ⟨_, rfl⟩
    · rename_i handshake hparsed
      obtain ⟨key, hkey⟩ := (new_returns_iff hgood).2 (h (not_not.1 htype) handshake hparsed)
      rw [run_bind_of_ok _ (Traced.run_toAction_of_ok hkey c), run_modify_bind, run_modify_bind]
      refine returns_enqueue_reply ?_ hgood hwrite ?_ _
      · refine ⟨hc.connected, ?_⟩
        intro henabled
        cases henabled
      · rw [List.length_append, List.length_take, e.responseBytes.2, List.length_replicate]
        decide

theorem length_toByteArray_le {r : GetServiceStatusResponse} (h : r.playerName = "") :
    r.toByteArray.length ≤ 40 := by
  have hid := length_varint_le 10 r.id.toNat
  have hname := length_varint_le 10 (utf8Encode r.playerName).length
  have hversion := length_varint_le 10 r.appVersion.toInt64.toUInt64.toNat
  have hempty : (utf8Encode r.playerName).length = 0 := by
    rw [h]
    rfl
  simp only [GetServiceStatusResponse.toByteArray, List.length_append, List.length_cons]
  omega

theorem returns_serviceStatusRequest (hgood : native.cipher.cwc.Good)
    (hc : SVFWMessageClient.CanSend c.client) (hwrite : e.write = some task) :
    ∃ c', (handleWaitingForServiceStatusRequest native config e).run c = .ok () c' := by
  unfold handleWaitingForServiceStatusRequest
  split
  · exact ⟨_, rfl⟩
  · split
    · exact ⟨_, rfl⟩
    · rename_i serviceStatus hparsed
      rw [run_modify_bind]
      dsimp only
      split
      · rw [sendThenDisconnect, run_modify_bind]
        exact returns_ignoreErrors _ _
      · refine returns_enqueue_reply ?_ hgood hwrite ?_ _
        · exact hc
        · exact le_trans (Nat.add_le_add_right (length_toByteArray_le rfl) 69) (by decide)

theorem returns_keyMaterial (hgood : native.cipher.cwc.Good)
    (hkey : c.gameCwcKeyBytes.length = 16)
    (hc : SVFWMessageClient.CanSend c.client) (hwrite : e.write = some task)
    (h : e.message.header.messageType = .keyMaterial → 16 ≤ e.message.payload.length) :
    ∃ c', (handleWaitingForKeyMaterial native e).run c = .ok () c' := by
  unfold handleWaitingForKeyMaterial
  split
  · exact ⟨_, rfl⟩
  · rename_i htype
    have hlong := h (not_not.1 htype)
    have hlen := length_generatedKey hlong
    have hcopy := congrArg Traced.result (arrayCopy_keyMaterial hlong)
    have hstore := congrArg Traced.result (arrayCopy_whole (hkey.trans hlen.symm))
    obtain ⟨key, hkeyed⟩ := (new_returns_iff hgood).2 (.inl hlen)
    rw [run_bind_of_ok _ (Traced.run_toAction_of_ok hcopy c), run_get_bind,
      run_bind_of_ok _ (Traced.run_toAction_of_ok hstore c), run_modify_bind,
      run_bind_of_ok _ (Traced.run_toAction_of_ok hkeyed _), run_modify_bind]
    refine returns_enqueue_reply ?_ hgood hwrite ?_ _
    · exact hc
    · rw [hlen]
      decide

theorem result_getServiceIdString (ticket : Ticket) :
    ticket.getServiceIdString.result = .ok (Ticket.stringOf ticket.serviceID) :=
  (BinaryBufferReader.readUTF8_spec ⟨ticket.serviceID, fun _ => 0⟩).1

theorem returns_ticket (hgood : native.cipher.cwc.Good)
    (hc : SVFWMessageClient.CanSend c.client) (hwrite : e.write = some task)
    (hpasses : Ticket.TicketPasses ⟨e.message.payload, e.beyond⟩)
    (hcookie : ∀ ticket, Ticket.TicketYields e.message.payload ticket → Presentable e ticket →
      16 ≤ ticket.cookie.length) :
    ∃ c', (handleWaitingForTicket native config e).run c = .ok () c' := by
  unfold handleWaitingForTicket
  obtain ⟨parsed, htry⟩ := Ticket.tryParse_returns_iff.2 hpasses
  rw [run_bind_of_ok _ (Traced.run_toAction_of_ok htry c)]
  cases parsed with
  | error error => exact ⟨_, rfl⟩
  | ok ticket =>
    dsimp only
    split
    · exact ⟨_, rfl⟩
    · rename_i hissued
      split
      · exact ⟨_, rfl⟩
      · rename_i hexpired
        have htitle := result_getServiceIdString ticket
        rw [run_bind_of_ok _ (Traced.run_toAction_of_ok htitle c)]
        split
        · exact ⟨_, rfl⟩
        · rename_i hknown
          have hlong := hcookie ticket (result_tryParse_eq_ok.1 htry)
            ⟨Bool.eq_false_iff.2 hissued, Bool.eq_false_iff.2 hexpired, _, htitle,
              not_not.1 hknown⟩
          have hslice := result_slice_cookie hlong
          rw [run_bind_of_ok _ (Traced.run_toAction_of_ok hslice c), run_get_bind]
          split
          · exact ⟨_, rfl⟩
          · have hbytes := result_serverInfo
              (serverInfo config c.client.isPrivateNetwork).swapEndian
            rw [run_modify_bind, run_get_bind]
            dsimp only
            rw [run_bind_of_ok _ (Traced.run_toAction_of_ok hbytes _)]
            refine returns_enqueue_reply ?_ hgood hwrite ?_ _
            · exact hc
            · rw [Layout.length_encode]
              decide

theorem returns_of_sufficient (config : AuthConfig) (hgood : native.cipher.cwc.Good) (hc : Ready c)
    (hwrite : e.write = some task) (h : Sufficient native e c) :
    ∃ c', (service native config e).run c = .ok () c' := by
  rw [service, run_get_bind]
  unfold Sufficient at h
  split
  · rename_i state
    rw [state] at h
    exact returns_handshakeRequest hgood hc hwrite h
  · rename_i state
    exact returns_serviceStatusRequest hgood (hc.canSend (by rw [state]; decide)) hwrite
  · rename_i state
    rw [state] at h
    exact returns_keyMaterial hgood hc.keyBytes (hc.canSend (by rw [state]; decide)) hwrite h
  · rename_i state
    rw [state] at h
    exact returns_ticket hgood (hc.canSend (by rw [state]; decide)) hwrite h.1 h.2
  · exact ⟨_, rfl⟩
  · exact ⟨_, rfl⟩

/-- A client that is not disconnected handles a message whose sends do not fail exactly when
the key, the key material or the ticket in it has the bytes that are taken from it. -/
theorem handles_iff_sufficient {client : SVFWMessageClient} {events : List AuthEvent}
    (hgood : native.cipher.cwc.Good) (hclient : client.client.client.disposedValue = false)
    (hsteps : Steps (service native config) (new client) events c)
    (hstate : c.authState ≠ .disconnected) (hwrite : e.write = some task) :
    Handles native config e c ↔ Sufficient native e c := by
  rw [handles_iff_returns]
  constructor
  · rintro ⟨c', hrun⟩
    exact sufficient_of_returns hgood hrun
  · exact returns_of_sufficient config hgood (ready_of_steps hclient hsteps hstate) hwrite

theorem handles_sampleHandshake :
    Handles sampleNative sampleConfig
        (sampleEvent .requestHandshake (0x0A :: 0x10 :: List.replicate 16 0)) (new sampleClient) ↔
      Sufficient sampleNative
        (sampleEvent .requestHandshake (0x0A :: 0x10 :: List.replicate 16 0)) (new sampleClient) :=
  handles_iff_sufficient sampleNative_good rfl .nil (by decide) rfl

/-- A key of one byte is an exception. -/
theorem short_key_not_handled : ¬ ∀ (native : AuthNative) (config : AuthConfig)
    (client : SVFWMessageClient) (events : List AuthEvent) (e : AuthEvent) (c : AuthClient)
    (task : WriteTask), native.cipher.cwc.Good → client.client.client.disposedValue = false →
    Steps (service native config) (new client) events c → c.authState ≠ .disconnected →
    e.write = some task → Handles native config e c := by
  intro h
  obtain ⟨c', hrun, _⟩ := h sampleNative sampleConfig sampleClient []
    (sampleEvent .requestHandshake [0x0A, 0x01, 0x00]) (new sampleClient) .completed
    sampleNative_good rfl .nil (by decide) rfl
  have hsize := sufficient_of_returns sampleNative_good hrun rfl ⟨[0x00]⟩ rfl
  rcases hsize with h | h | h
  · cases h
  · cases h
  · cases h

end AuthClient

end AcOpenServer
