import AcOpenServer.Auth.Replies
import AcOpenServer.Auth.Totality
import AcOpenServer.Services.Login

namespace AcOpenServer
open Library SVFWPacketClient
set_option autoImplicit true

/-- In a run the requests that were answered, and no others, got one reply each, in their order.
When the last handler threw, the reply to its request may have been handed over before. -/
inductive Corresponds (step : ι → EStateM Exn σ Unit) (answers : ι → σ → σ → Prop)
    [∀ i s t, Decidable (answers i s t)] (index : ι → UInt32) (sent : σ → List SVFWPacket) :
    σ → List ι → σ → Prop
  | returned (steps : Steps step s is t)
      (replies : Replies ((picks step answers is s).map index) (sent t)) :
      Corresponds step answers index sent s is t
  | threw (steps : Steps step s is t) (error : (step i).run t = .error e u)
      (replies : Replies ((picks step answers is s).map index) (sent u) ∨
        Replies ((picks step answers is s ++ [i]).map index) (sent u)) :
      Corresponds step answers index sent s (is ++ [i]) u

section

variable {step : ι → EStateM Exn σ Unit} {answers : ι → σ → σ → Prop}
  [∀ i s t, Decidable (answers i s t)] {index : ι → UInt32} {sent : σ → List SVFWPacket}
  {P : List ι → List ι → σ → Prop}

/-- Requests and replies correspond in a run of a machine that replies to those it answers. -/
theorem corresponds_of_run {is : List ι}
    (hanswer : ∀ hist js i s t, P hist js s → (step i).run s = .ok () t → answers i s t →
      P (hist ++ [i]) (js ++ [i]) t)
    (hskip : ∀ hist js i s t, P hist js s → (step i).run s = .ok () t → ¬ answers i s t →
      P (hist ++ [i]) js t)
    (hreplies : ∀ hist js s, P hist js s → Replies (js.map index) (sent s))
    (hthrew : ∀ hist js i s e t, P hist js s → (step i).run s = .error e t →
      Replies (js.map index) (sent t) ∨ Replies ((js ++ [i]).map index) (sent t))
    (hs : P [] [] s) (h : Run step s is t) : Corresponds step answers index sent s is t := by
  cases h with
  | returned hsteps =>
    exact .returned hsteps (hreplies _ _ _ (hsteps.history_picks hanswer hskip hs))
  | threw hsteps herror =>
    exact .threw hsteps herror (hthrew _ _ _ _ _ _ (hsteps.history_picks hanswer hskip hs) herror)

end

theorem AuthClient.corresponds {native : AuthNative} {config : AuthConfig} {tcp : NetTcpClient}
    {encryptionCipher decryptionCipher : Cipher} {events : List AuthEvent} {c : AuthClient}
    (hgood : native.cipher.cwc.Good)
    (h : Run (service native config) (accepted tcp encryptionCipher decryptionCipher) events c) :
    Corresponds (service native config) (Answers native config)
      (·.message.header.messageIndex) (·.client.client.sent)
      (accepted tcp encryptionCipher decryptionCipher) events c := by
  refine corresponds_of_run (P := fun hist js c => ∃ log, Recorded native config
    (accepted tcp encryptionCipher decryptionCipher) hist log c ∧ log.map (·.event) = js)
    ?_ ?_ ?_ ?_ ⟨[], recorded_accepted tcp encryptionCipher decryptionCipher, rfl⟩ h
  · rintro hist _ e c c' ⟨log, hc, rfl⟩ hrun hanswers
    obtain ⟨x, hc', rfl⟩ := hc.answers hgood hrun hanswers
    exact ⟨_, hc', List.map_append⟩
  · rintro hist _ e c c' ⟨log, hc, rfl⟩ hrun hanswers
    exact ⟨log, hc.not_answers hrun hanswers, rfl⟩
  · rintro hist _ c ⟨log, hc, rfl⟩
    exact hc.accounts.sent.replies
  · rintro hist _ e c ex c' ⟨log, hc, rfl⟩ hrun
    rcases (service_error hrun).sent_of_error hc.accounts with
      hsent | ⟨_, x, _, hsent, rfl, _⟩
    · exact .inl hsent.replies
    · have hreplies := hsent.replies
      rw [List.map_append] at hreplies
      exact .inr hreplies

theorem LoginClient.corresponds {native : LoginNative} {config : LoginConfig}
    {tcp : NetTcpClient} {encryptionCipher decryptionCipher : Cipher} {events : List LoginEvent}
    {c : LoginClient}
    (h : Run (service native config) (accepted tcp encryptionCipher decryptionCipher) events c) :
    Corresponds (service native config) (fun e _ _ => Answers native e)
      (·.message.header.messageIndex) (·.client.client.sent)
      (accepted tcp encryptionCipher decryptionCipher) events c := by
  refine corresponds_of_run (P := fun _ (js : List LoginEvent) (c : LoginClient) =>
    SVFWMessageClient.HasReplied (js.map (·.message.header.messageIndex)) c.client) ?_ ?_ ?_ ?_
    (SVFWMessageClient.hasReplied_new tcp encryptionCipher decryptionCipher) h
  · intro hist js e c c' hc hrun hanswers
    rw [List.map_append]
    exact hasReplied_service hc hanswers hrun
  · intro hist js e c c' hc hrun hanswers
    cases (run_service_of_not_answers hanswers).symm.trans hrun
    exact hasReplied_dispose hc
  · intro hist js c hc
    exact hc.replies
  · intro hist js e c ex c' hc hrun
    rw [List.map_append]
    rcases hasReplied_service_of_error hc hrun with hc' | hc'
    · exact .inl hc'.replies
    · exact .inr hc'.replies

/-- Requests and replies correspond one to one in every run of either client. -/
theorem requests_correspond :
    (∀ (native : AuthNative) (config : AuthConfig) (tcp : NetTcpClient)
      (encryptionCipher decryptionCipher : Cipher) (events : List AuthEvent) (c : AuthClient),
      native.cipher.cwc.Good →
      Run (AuthClient.service native config)
        (AuthClient.accepted tcp encryptionCipher decryptionCipher) events c →
      Corresponds (AuthClient.service native config) (AuthClient.Answers native config)
        (·.message.header.messageIndex) (·.client.client.sent)
        (AuthClient.accepted tcp encryptionCipher decryptionCipher) events c) ∧
    ∀ (native : LoginNative) (config : LoginConfig) (tcp : NetTcpClient)
      (encryptionCipher decryptionCipher : Cipher) (events : List LoginEvent) (c : LoginClient),
      Run (LoginClient.service native config)
        (LoginClient.accepted tcp encryptionCipher decryptionCipher) events c →
      Corresponds (LoginClient.service native config) (fun e _ _ => LoginClient.Answers native e)
        (·.message.header.messageIndex) (·.client.client.sent)
        (LoginClient.accepted tcp encryptionCipher decryptionCipher) events c := by
  constructor
  · intro native config tcp encryptionCipher decryptionCipher events c hgood h
    exact AuthClient.corresponds hgood h
  · intro native config tcp encryptionCipher decryptionCipher events c h
    exact LoginClient.corresponds h

/-- The ciphers of the other sample, and a parser that accepts every request. -/
def sampleLoginNative : LoginNative where
  cipher := AuthClient.sampleNative.cipher
  parseRequestQueryLoginServerInfo _ := .ok ⟨"", "", 0⟩

def sampleCipher : Cipher := .cwc ⟨List.replicate 16 5⟩

def sampleLogin : LoginEvent where
  message := ⟨⟨12, .requestQueryLoginServerInfo, 7⟩, none, []⟩
  iv := Block.zeros 11
  write := some .completed

theorem requests_correspond_sampleEvents : ∃ (c : AuthClient) (d : LoginClient),
    c.client.client.sent.length = 4 ∧ d.client.client.sent.length = 2 ∧
    Corresponds (AuthClient.service AuthClient.sampleNative AuthClient.sampleConfig)
      (AuthClient.Answers AuthClient.sampleNative AuthClient.sampleConfig)
      (·.message.header.messageIndex) (·.client.client.sent)
      (AuthClient.new AuthClient.sampleClient) AuthClient.sampleEvents c ∧
    Corresponds (LoginClient.service sampleLoginNative ⟨8081⟩)
      (fun e _ _ => LoginClient.Answers sampleLoginNative e)
      (·.message.header.messageIndex) (·.client.client.sent)
      (LoginClient.accepted (.accepted false) sampleCipher sampleCipher)
      [sampleLogin, sampleLogin] d := by
  have hauth : (runUntilError (AuthClient.service AuthClient.sampleNative AuthClient.sampleConfig)
      AuthClient.sampleEvents (AuthClient.new AuthClient.sampleClient)).map
        (·.client.client.sent.length) = some 4 := by decide +kernel
  have hlogin : (runUntilError (LoginClient.service sampleLoginNative ⟨8081⟩)
      [sampleLogin, sampleLogin]
      (LoginClient.accepted (.accepted false) sampleCipher sampleCipher)).map
        (·.client.client.sent.length) = some 2 := by decide +kernel
  obtain ⟨c, hc, hsent⟩ := Option.map_eq_some_iff.1 hauth
  obtain ⟨d, hd, hsent'⟩ := Option.map_eq_some_iff.1 hlogin
  exact ⟨c, d, hsent, hsent',
    requests_correspond.1 _ _ _ _ _ _ _ AuthClient.sampleNative_good (run_of_runUntilError hc),
    requests_correspond.2 _ _ _ _ _ _ _ (run_of_runUntilError hd)⟩

/-- A reply that the stream fails to write has been given to the packet client. -/
theorem unwritten_reply_handed_over : ¬ ∀ (native : AuthNative) (config : AuthConfig)
    (tcp : NetTcpClient) (encryptionCipher decryptionCipher : Cipher) (events : List AuthEvent)
    (c : AuthClient), native.cipher.cwc.Good →
    Run (AuthClient.service native config)
      (AuthClient.accepted tcp encryptionCipher decryptionCipher) events c →
    Replies ((picks (AuthClient.service native config) (AuthClient.Answers native config) events
      (AuthClient.accepted tcp encryptionCipher decryptionCipher)).map
        (·.message.header.messageIndex)) c.client.client.sent := by
  intro h
  have hrun : (runUntilError (AuthClient.service AuthClient.sampleNative AuthClient.sampleConfig)
      [{ AuthClient.sampleEvent .requestHandshake (0x0A :: 0x10 :: List.replicate 16 0) with
        write := none }] (AuthClient.new AuthClient.sampleClient)).map
        (·.client.client.sent.length) = some 1 := by decide +kernel
  have hpicks : (picks (AuthClient.service AuthClient.sampleNative AuthClient.sampleConfig)
      (AuthClient.Answers AuthClient.sampleNative AuthClient.sampleConfig)
      [{ AuthClient.sampleEvent .requestHandshake (0x0A :: 0x10 :: List.replicate 16 0) with
        write := none }] (AuthClient.new AuthClient.sampleClient)).length = 0 := by decide +kernel
  obtain ⟨c, hc, hsent⟩ := Option.map_eq_some_iff.1 hrun
  have hreplies := h _ _ _ _ _ _ c AuthClient.sampleNative_good (run_of_runUntilError hc)
  have hlength := hreplies.length_eq
  rw [List.length_map, hsent] at hlength
  exact absurd (hlength.trans hpicks) (by decide)

end AcOpenServer
