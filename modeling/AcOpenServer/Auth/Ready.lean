import AcOpenServer.Auth.Outcome

namespace AcOpenServer
open Library
set_option autoImplicit true

namespace AuthClient

/-- What holds of a client that is not disconnected: its connection is open, and from the
handshake on it encrypts with the key of the user. -/
structure Ready (c : AuthClient) : Prop where
  keyBytes : c.gameCwcKeyBytes.length = 16
  connected : c.client.client.client.disposedValue = false
  keyed : c.authState ≠ .waitingForHandshakeRequest → ∃ key, c.client.encryptionCipher = .cwc key

variable {native : AuthNative} {config : AuthConfig} {e : AuthEvent} {c c' : AuthClient}

theorem ready_new {client : SVFWMessageClient} (h : client.client.client.disposedValue = false) :
    Ready (new client) where
  keyBytes := List.length_replicate
  connected := h
  keyed := fun hne => (hne rfl).elim

theorem Replied.connected {client client' : SVFWMessageClient}
    (h : Replied native e client plaintext client') :
    client'.client.client.disposedValue = client.client.client.disposedValue := by
  obtain ⟨output, _, _, rfl⟩ := h
  rfl

theorem Replied.encryptionCipher {client client' : SVFWMessageClient}
    (h : Replied native e client plaintext client') :
    client'.encryptionCipher = client.encryptionCipher := by
  obtain ⟨output, _, _, rfl⟩ := h
  rfl

theorem Outcome.ready (h : Outcome native config e c (.ok () c'))
    (hc : c.authState ≠ .disconnected → Ready c) (hc' : c'.authState ≠ .disconnected) :
    Ready c' := by
  have hready : ∀ {state}, c.authState = state → state ≠ .disconnected → Ready c := by
    intro state hstate hne
    exact hc (hstate ▸ hne)
  cases h with
  | refused _ => exact (hc' (authState_dispose _)).elim
  | ignored state => exact (hc' state).elim
  | handshake state _ _ _ _ replied =>
    have hr := hready state (by decide)
    exact ⟨hr.keyBytes, replied.connected.trans hr.connected,
      fun _ => ⟨_, replied.encryptionCipher⟩⟩
  | serviceStatus state _ _ _ _ replied =>
    have hr := hready state (by decide)
    refine ⟨hr.keyBytes, replied.connected.trans hr.connected, ?_⟩
    intro _
    rw [replied.encryptionCipher]
    exact hr.keyed (by rw [state]; decide)
  | rejected _ _ _ _ dropped => exact (hc' dropped.disconnected).elim
  | keyMaterial state _ long stored _ _ replied =>
    have hr := hready state (by decide)
    refine ⟨?_, replied.connected.trans hr.connected, ?_⟩
    · rw [stored hr.keyBytes]
      exact length_generatedKey long
    · intro _
      rw [replied.encryptionCipher]
      exact hr.keyed (by rw [state]; decide)
  | ticket state _ _ _ _ _ replied =>
    have hr := hready state (by decide)
    refine ⟨?_, replied.connected.trans hr.connected, ?_⟩
    · exact List.length_replicate.trans hr.keyBytes
    · intro _
      rw [replied.encryptionCipher]
      exact hr.keyed (by rw [state]; decide)

theorem ready_of_steps {client : SVFWMessageClient} {events : List AuthEvent}
    (hclient : client.client.client.disposedValue = false)
    (h : Steps (service native config) (new client) events c)
    (hstate : c.authState ≠ .disconnected) : Ready c :=
  h.invariant (P := fun c => c.authState ≠ .disconnected → Ready c)
    (fun _ _ _ hc hrun => (service_ok hrun).ready hc) (fun _ => ready_new hclient) hstate

theorem Ready.canSend (h : Ready c) (hstate : c.authState ≠ .waitingForHandshakeRequest) :
    SVFWMessageClient.CanSend c.client := ⟨h.connected, fun _ => h.keyed hstate⟩

theorem run_reply (hc : SVFWMessageClient.CanSend c.client) (hgood : native.cipher.cwc.Good)
    (hwrite : e.write = some task) {plaintext : List UInt8}
    (hlen : plaintext.length + 69 ≤ maxArrayLength) :
    ∃ client, Replied native e c.client plaintext client ∧
      (reply native e plaintext).run c = .ok task { c with client } := by
  have hsend : ∃ output, (SVFWMessageClient.encryptPayload native.cipher e.iv c.client
      plaintext).result = .ok output ∧
        c.client.Takes (replyPacket e.message.header.messageIndex output) ∧
        (SVFWMessageClient.sendAsync native.cipher e.iv (some task) (.new plaintext) .reply
          e.message.header.messageIndex).run c.client = .ok task (c.client.deliver
            (SVFWMessageClient.envelope .reply e.message.header.messageIndex (.new plaintext)
              output)) :=
    SVFWMessageClient.run_sendAsync hc hgood task (.new plaintext) hlen _ _
  obtain ⟨output, hencrypt, htakes, hrun⟩ := hsend
  refine ⟨_, ⟨output, hencrypt, htakes, rfl⟩, ?_⟩
  rw [reply, hwrite]
  exact run_zoom_of_ok hrun

theorem returns_enqueue_reply (hc : SVFWMessageClient.CanSend c.client)
    (hgood : native.cipher.cwc.Good) (hwrite : e.write = some task) {plaintext : List UInt8}
    (hlen : plaintext.length + 69 ≤ maxArrayLength) (g : AuthClient → AuthClient) :
    ∃ c', (do
      enqueue (← reply native e plaintext)
      modify g).run c = .ok () c' := by
  obtain ⟨client, _, hrun⟩ := run_reply hc hgood hwrite hlen
  refine ⟨g { c with client, sendQueue := c.sendQueue ++ [task] }, ?_⟩
  rw [run_bind_of_ok _ hrun]
  rfl

end AuthClient

end AcOpenServer
