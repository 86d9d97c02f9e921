import AcOpenServer.Auth.Conversation
import AcOpenServer.SVFW.Replies

namespace AcOpenServer
open Library
set_option autoImplicit true

namespace AuthClient

/-- The request advances the state or is rejected for its version. -/
def Answers (native : AuthNative) (config : AuthConfig) (e : AuthEvent) (c c' : AuthClient) :
    Prop :=
  Advances c c' ∨ VersionRejected native config e c

variable {native : AuthNative} {config : AuthConfig} {e : AuthEvent} {c c' start : AuthClient}
  {hist : List AuthEvent} {log : List Exchange} {packets : List SVFWPacket}

instance : Decidable (VersionRejected native config e c) :=
  match h : native.parseGetServiceStatus e.message.payload with
  | .ok serviceStatus => decidable_of_iff (c.authState = .waitingForServiceStatusRequest ∧
        e.message.header.messageType = .getServiceStatus ∧
        ((AcvAppVersion.new serviceStatus.appVersion).lt config.minimumVersion = true ∨
          (AcvAppVersion.new serviceStatus.appVersion).gt config.maximumVersion = true)) <| by
      constructor
      · rintro ⟨state, type, rejects⟩
        exact ⟨state, type, serviceStatus, h, rejects⟩
      · rintro ⟨state, type, _, parsed, rejects⟩
        cases h.symm.trans parsed
        exact ⟨state, type, rejects⟩
  | .error _ => isFalse fun ⟨_, _, _, parsed, _⟩ => nomatch h.symm.trans parsed

instance : Decidable (Answers native config e c c') :=
  inferInstanceAs (Decidable ((c'.authState ≠ c.authState ∧ c'.authState ≠ .disconnected) ∨
    VersionRejected native config e c))

open SVFWPacketClient

theorem Sent.replies (h : Sent native log packets) :
    Replies ((log.map (·.event)).map (·.message.header.messageIndex)) packets := by
  induction h with
  | nil => exact replies_nil
  | @snoc log packets x output _ _ ih =>
    have hsnoc := ih.snoc (isReply_envelope x.event.message.header.messageIndex [] output)
    rw [List.length_map, List.length_map] at hsnoc
    rw [List.map_append, List.map_append]
    exact hsnoc

/-- A reply that can be encrypted is handed over, whether its sending returns or throws. -/
theorem reply_of_encrypts (hencrypts : Encrypts native e c.client plaintext output)
    (hlen : (replyPacket e.message.header.messageIndex output).payload.length ≤ maxArrayLength) :
    ∃ client, HandedOver native e c.client plaintext client ∧
      ((∃ task, (reply native e plaintext).run c = .ok task { c with client }) ∨
        ∃ ex, (reply native e plaintext).run c = .error ex { c with client }) := by
  rcases SVFWMessageClient.sendAsync_cases native.cipher e.iv e.write (.new plaintext) .reply
      e.message.header.messageIndex c.client with
    ⟨output', hencrypts', _, hsend⟩ | ⟨hlong, _⟩
  · cases hencrypts.symm.trans hencrypts'
    rcases sendAsync_cases e.write (replyPacket e.message.header.messageIndex output)
        c.client.client with
      ⟨task, _, _, _, hrun⟩ | ⟨_, ex, hrun⟩
    · exact ⟨_, ⟨output, hencrypts, .inl rfl⟩, .inl ⟨task, run_zoom_of_ok (hsend hrun)⟩⟩
    · exact ⟨_, ⟨output, hencrypts, .inr rfl⟩, .inr ⟨ex, run_zoom_of_error (hsend hrun)⟩⟩
  · have hle : maxArrayLength < (replyPacket e.message.header.messageIndex output).payload.length :=
      hlong output hencrypts
    omega

theorem sent_afterWrite (task : WriteTask) (c : AuthClient) :
    (afterWrite task c).client.client.sent = c.client.client.sent := by
  obtain ⟨_, _, _, hclient⟩ := client_afterWrite task c
  rw [hclient]

theorem sendThenDisconnect_handsOver (hencrypts : Encrypts native e c.client plaintext output)
    (hlen : (replyPacket e.message.header.messageIndex output).payload.length ≤ maxArrayLength) :
    ∃ c' client, (sendThenDisconnect native e plaintext).run c = .ok () c' ∧
      HandedOver native e c.client plaintext client ∧
      c'.client.client.sent = client.client.sent := by
  obtain ⟨client, hover, ⟨task, hrun⟩ | ⟨ex, hrun⟩⟩ :=
    reply_of_encrypts (c := { c with authState := .disconnected }) hencrypts hlen
  · exact ⟨_, client, run_sendThenDisconnect_of_ok hrun, hover, sent_afterWrite _ _⟩
  · exact ⟨_, client, run_sendThenDisconnect_of_error hrun, hover, rfl⟩

theorem Accounts.encrypts (h : Accounts native config start (some key) log c)
    (hgood : native.cipher.cwc.Good) (hlen : plaintext.length + 27 ≤ maxArrayLength) :
    ∃ output, Encrypts native e c.client plaintext output ∧
      output.length = plaintext.length + 27 := by
  obtain ⟨henabled, hcipher⟩ := h.encryptsWith
  obtain ⟨tag, message, hencrypt⟩ := CWCCipher.result_encrypt hgood key e.iv hlen
  refine ⟨_, (SVFWMessageClient.result_encryptPayload_cwc henabled hcipher).2
    ⟨_, hencrypt⟩, ?_⟩
  rw [List.length_append, List.length_append, e.iv.2, tag.2, message.2]
  omega

theorem Recorded.length_sent_of_versionRejected (h : Recorded native config start hist log c)
    (hgood : native.cipher.cwc.Good) (hversion : VersionRejected native config e c)
    (hrun : (AuthClient.service native config e).run c = .ok () c') :
    c'.client.client.sent.length = log.length + 1 := by
  obtain ⟨state, type, serviceStatus, parsed, rejects⟩ := hversion
  have haccounts := h.accounts
  obtain ⟨key, hkey⟩ := haccounts.said.key_of_ne (by rw [state]; decide) (by rw [state]; decide)
  rw [hkey] at haccounts
  have hshort : emptyStatusResponse.toByteArray.length + 27 ≤ maxArrayLength := by decide
  obtain ⟨output, hencrypts, hlength⟩ := haccounts.encrypts (e := e) hgood hshort
  have hplaintext : emptyStatusResponse.toByteArray.length = 8 := rfl
  have hpacket : (replyPacket e.message.header.messageIndex output).payload.length =
      28 + output.length :=
    SVFWMessageClient.length_envelope .reply e.message.header.messageIndex (.new []) output
  have hlen : (replyPacket e.message.header.messageIndex output).payload.length ≤
      maxArrayLength := by
    simp only [maxArrayLength]
    omega
  obtain ⟨d, client, hsend, hover, hsent⟩ := sendThenDisconnect_handsOver
    (c := { c with playerName := serviceStatus.playerName }) hencrypts hlen
  rw [run_service_of_rejects state type parsed rejects] at hrun
  cases hsend.symm.trans hrun
  obtain ⟨hsnoc, _⟩ := hover.sent haccounts.sent haccounts.packetsSent haccounts.encryptsWith
  rw [hsent, hsnoc.length_eq, List.length_append]
  rfl

theorem Recorded.answers (h : Recorded native config start hist log c)
    (hgood : native.cipher.cwc.Good)
    (hrun : (AuthClient.service native config e).run c = .ok () c')
    (hanswers : Answers native config e c c') :
    ∃ x, Recorded native config start (hist ++ [e]) (log ++ [x]) c' ∧ x.event = e := by
  rcases h.service hrun with ⟨hc', hdisconnected⟩ | ⟨x, hc', hx, _⟩
  · rcases hanswers with hadvances | hversion
    · exact (hadvances.2 hdisconnected).elim
    · have hmore := h.length_sent_of_versionRejected hgood hversion hrun
      rw [hc'.accounts.sent.length_eq] at hmore
      omega
  · exact ⟨x, hc', hx⟩

theorem Recorded.not_answers (h : Recorded native config start hist log c)
    (hrun : (AuthClient.service native config e).run c = .ok () c')
    (hanswers : ¬ Answers native config e c c') :
    Recorded native config start (hist ++ [e]) log c' := by
  rcases h.service hrun with ⟨hc', _⟩ | ⟨_, _, _, hadvances⟩
  · exact hc'
  · exact (hanswers hadvances).elim

end AuthClient

end AcOpenServer
