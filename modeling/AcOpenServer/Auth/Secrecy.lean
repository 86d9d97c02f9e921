import AcOpenServer.Auth.Conversation
import AcOpenServer.Auth.Soundness

namespace AcOpenServer
open Library
set_option autoImplicit true

namespace AuthClient

/-- The plaintexts the handlers build for a reply, apart from the one to a handshake. -/
inductive Builds (native : AuthNative) (config : AuthConfig) (isPrivateNetwork : Bool)
    (e : AuthEvent) : List UInt8 → Prop
  | serviceStatus (type : e.message.header.messageType = .getServiceStatus)
      (parsed : native.parseGetServiceStatus e.message.payload = .ok serviceStatus)
      (admitted : ¬ Rejects config serviceStatus) :
      Builds native config isPrivateNetwork e (serviceStatusResponse serviceStatus).toByteArray
  | rejected (type : e.message.header.messageType = .getServiceStatus)
      (parsed : native.parseGetServiceStatus e.message.payload = .ok serviceStatus)
      (rejected : Rejects config serviceStatus) :
      Builds native config isPrivateNetwork e emptyStatusResponse.toByteArray
  | keyMaterial (type : e.message.header.messageType = .keyMaterial) :
      Builds native config isPrivateNetwork e (generatedKey e)
  | ticket : Builds native config isPrivateNetwork e (serverInfoBytes config isPrivateNetwork)

/-- The clear reply to a handshake with this key. -/
def ClearReply (native : AuthNative) (key : Option CWC) (x : Exchange) : Prop :=
  x.key = none ∧ x.plaintext = handshakeResponse x.event ∧ offeredKey native x.event = key ∧
    key ≠ none

/-- A reply that is encrypted with this key. -/
def SealedReply (native : AuthNative) (config : AuthConfig) (isPrivateNetwork : Bool)
    (key : Option CWC) (x : Exchange) : Prop :=
  x.key = key ∧ key ≠ none ∧ Builds native config isPrivateNetwork x.event x.plaintext

variable {native : AuthNative} {config : AuthConfig} {isPrivateNetwork : Bool}
  {log : List Exchange} {c : AuthClient}

/-- The first reply is clear and all others are encrypted with the same key. -/
def OnlyFirstClear (native : AuthNative) (config : AuthConfig) (isPrivateNetwork : Bool)
    (key : Option CWC) (log : List Exchange) : Prop :=
  ∀ k x, log[k]? = some x →
    k = 0 ∧ ClearReply native key x ∨ 0 < k ∧ SealedReply native config isPrivateNetwork key x

theorem OnlyFirstClear.snoc {y : Exchange}
    (h : OnlyFirstClear native config isPrivateNetwork (some key) log) (hlog : log ≠ [])
    (hkey : y.key = some key)
    (hbuilds : Builds native config isPrivateNetwork y.event y.plaintext) :
    OnlyFirstClear native config isPrivateNetwork (some key) (log ++ [y]) := by
  intro k x hx
  by_cases hk : k < log.length
  · rw [List.getElem?_append_left hk] at hx
    exact h k x hx
  · rw [List.getElem?_append_right (Nat.le_of_not_lt hk), List.getElem?_singleton] at hx
    split at hx
    · cases hx
      have hpos := List.length_pos_of_ne_nil hlog
      exact .inr ⟨by omega, hkey, nofun, hbuilds⟩
    · cases hx

theorem Conversation.onlyFirstClear
    (h : Conversation native config isPrivateNetwork state key log) :
    OnlyFirstClear native config isPrivateNetwork key log := by
  induction h with
  | start =>
    intro k x hx
    cases hx
  | handshake type parsed keyed =>
    intro k x hx
    rw [List.getElem?_singleton] at hx
    split at hx
    · rename_i hk
      cases hx
      exact .inl ⟨hk, rfl, rfl, offeredKey_eq_some type parsed keyed, nofun⟩
    · cases hx
  | serviceStatus said type parsed admitted ih =>
    exact ih.snoc said.ne_nil rfl (.serviceStatus type parsed admitted)
  | rejected said type parsed rejected ih =>
    exact ih.snoc said.ne_nil rfl (.rejected type parsed rejected)
  | keyMaterial said type ih => exact ih.snoc said.ne_nil rfl (.keyMaterial type)
  | ticket said ih => exact ih.snoc said.ne_nil rfl .ticket
  | refused said ih => exact ih

/-- The ciphers of a client: those it was made with before a handshake is accepted, and the key
of the handshake for both afterwards. -/
structure Ciphers (native : AuthNative) (start : AuthClient) (hist : List AuthEvent)
    (c : AuthClient) : Prop where
  cipherEnabled : c.client.cipherEnabled = true
  encryptionCipher : c.client.encryptionCipher =
    ((hist.head?.bind (offeredKey native)).map Cipher.cwc).getD start.client.encryptionCipher
  decryptionCipher : c.client.decryptionCipher =
    ((hist.head?.bind (offeredKey native)).map Cipher.cwc).getD start.client.decryptionCipher

/-- The packet carries the plaintext that was built for a message, encrypted with the key. -/
def CarriesSealed (native : AuthNative) (config : AuthConfig) (isPrivateNetwork : Bool)
    (events : List AuthEvent) (packet : SVFWPacket) : Prop :=
  ∃ e ∈ events, ∃ key plaintext output message,
    events.head?.bind (offeredKey native) = some key ∧
    Builds native config isPrivateNetwork e plaintext ∧
    (CWCCipher.encrypt native.cipher.cwc key e.iv plaintext).result = .ok (output, message) ∧
    packet.payload = (replyPacket e.message.header.messageIndex output).payload

/-- The packet is the clear reply to the handshake the run begins with. -/
def CarriesClear (native : AuthNative) (events : List AuthEvent) (packet : SVFWPacket) : Prop :=
  ∃ e key, events.head? = some e ∧ offeredKey native e = some key ∧
    packet.payload = (replyPacket e.message.header.messageIndex (handshakeResponse e)).payload

theorem OnlyFirstClear.carries {events : List AuthEvent} {packets : List SVFWPacket}
    (h : OnlyFirstClear native config isPrivateNetwork (events.head?.bind (offeredKey native)) log)
    (hsent : Sent native log packets) (hevents : ∀ x ∈ log, x.event ∈ events)
    (hfirst : ∀ x ∈ log.head?, events.head? = some x.event) {k : Nat} {packet : SVFWPacket}
    (hpacket : packets[k]? = some packet) :
    k = 0 ∧ CarriesClear native events packet ∨
      0 < k ∧ CarriesSealed native config isPrivateNetwork events packet := by
  obtain ⟨hk, _⟩ := List.getElem?_eq_some_iff.1 hpacket
  rw [hsent.length_eq] at hk
  have hx := List.getElem?_eq_getElem hk
  generalize log[k] = x at hx
  obtain ⟨output, hseals, hstamped⟩ := hsent.getElem? hx
  cases hpacket.symm.trans hstamped
  rcases h k x hx with ⟨rfl, hclear, hplaintext, hoffered, hkey⟩ | ⟨hpos, hsealed, hkey, hbuilds⟩
  · have hhead := hfirst x (List.head?_eq_getElem?.trans hx)
    obtain ⟨key, hsome⟩ := Option.ne_none_iff_exists'.1 hkey
    rw [Exchange.Seals, hclear] at hseals
    refine .inl ⟨rfl, x.event, key, hhead, hoffered.trans hsome, ?_⟩
    rw [← hplaintext, ← hseals]
    rfl
  · obtain ⟨key, hsome⟩ := Option.ne_none_iff_exists'.1 hkey
    rw [hsome] at hsealed
    rw [Exchange.Seals, hsealed] at hseals
    obtain ⟨message, hencrypt⟩ := hseals
    exact .inr ⟨hpos, x.event, hevents x (List.mem_of_getElem? hx), key, x.plaintext, output,
      message, hsome, hbuilds, hencrypt, rfl⟩

theorem Recorded.carries {start : AuthClient} {hist : List AuthEvent}
    (h : Recorded native config start hist log c) {k : Nat} {packet : SVFWPacket}
    (hpacket : c.client.client.sent[k]? = some packet) :
    k = 0 ∧ CarriesClear native hist packet ∨
      0 < k ∧ CarriesSealed native config start.client.isPrivateNetwork hist packet :=
  h.accounts.said.onlyFirstClear.carries h.accounts.sent
    (fun _ hx => h.events.subset (List.mem_map_of_mem hx)) h.first hpacket

theorem CarriesClear.append {hist rest : List AuthEvent} {packet : SVFWPacket}
    (h : CarriesClear native hist packet) : CarriesClear native (hist ++ rest) packet := by
  obtain ⟨e, key, hhead, hoffered, hpayload⟩ := h
  refine ⟨e, key, ?_, hoffered, hpayload⟩
  rw [List.head?_append, hhead]
  rfl

theorem CarriesSealed.append {hist rest : List AuthEvent} {packet : SVFWPacket}
    (h : CarriesSealed native config isPrivateNetwork hist packet) :
    CarriesSealed native config isPrivateNetwork (hist ++ rest) packet := by
  obtain ⟨e, he, key, plaintext, output, message, hkey, hrest⟩ := h
  exact ⟨e, List.mem_append_left _ he, key, plaintext, output, message, offeredKey_append hkey,
    hrest⟩

/-- Between two messages the ciphers are those the client was made with or, after a handshake,
its key. Of the packets that were handed over, all but the first carry a plaintext the handlers
built, encrypted with that key; the first is the reply to the handshake. -/
theorem only_handshake_in_clear {tcp : NetTcpClient} {encryptionCipher decryptionCipher : Cipher}
    {events : List AuthEvent}
    (hrun : Run (service native config) (accepted tcp encryptionCipher decryptionCipher) events c) :
    (∀ hist rest d, events = hist ++ rest →
        Steps (service native config) (accepted tcp encryptionCipher decryptionCipher) hist d →
        Ciphers native (accepted tcp encryptionCipher decryptionCipher) hist d) ∧
      ∀ k packet, c.client.client.sent[k]? = some packet →
        k = 0 ∧ CarriesClear native events packet ∨
          0 < k ∧ CarriesSealed native config tcp.isPrivateClient events packet := by
  refine ⟨?_, ?_⟩
  · intro hist rest d _ hsteps
    obtain ⟨log, hrecorded⟩ := recorded_of_steps hsteps
    have haccounts := hrecorded.accounts
    exact ⟨haccounts.cipherEnabled, haccounts.encryptionCipher, haccounts.decryptionCipher⟩
  · intro k packet hpacket
    cases hrun with
    | returned hsteps =>
      obtain ⟨log, hrecorded⟩ := recorded_of_steps hsteps
      exact hrecorded.carries hpacket
    | @threw is t e ex u hsteps herror =>
      obtain ⟨log, hrecorded⟩ := recorded_of_steps hsteps
      have hsent := (service_error herror).sent_of_error hrecorded.accounts
      rw [hrecorded.nextKey_eq] at hsent
      rcases hsent with hsent | ⟨state, x, said, hsent, rfl, hlog⟩
      · have hcarries := hrecorded.accounts.said.onlyFirstClear.carries hsent
          (fun _ hx => hrecorded.events.subset (List.mem_map_of_mem hx)) hrecorded.first hpacket
        rcases hcarries with ⟨hzero, hclear⟩ | ⟨hpos, hsealed⟩
        · exact .inl ⟨hzero, hclear.append⟩
        · exact .inr ⟨hpos, hsealed.append⟩
      · refine said.onlyFirstClear.carries hsent ?_ (hrecorded.first_append hlog) hpacket
        intro y hy
        rcases List.mem_append.1 hy with hy | hy
        · exact List.mem_append_left _ (hrecorded.events.subset (List.mem_map_of_mem hy))
        · rw [List.mem_singleton.1 hy]
          exact List.mem_append_right _ (List.mem_singleton.2 rfl)

theorem only_handshake_in_clear_sampleEvents : ∃ c : AuthClient, c.authState = .complete ∧
    (∀ hist rest d, sampleEvents = hist ++ rest →
        Steps (service sampleNative sampleConfig) (new sampleClient) hist d →
        Ciphers sampleNative (new sampleClient) hist d) ∧
      ∀ k packet, c.client.client.sent[k]? = some packet →
        k = 0 ∧ CarriesClear sampleNative sampleEvents packet ∨
          0 < k ∧ CarriesSealed sampleNative sampleConfig false sampleEvents packet := by
  have hrun : (runUntilError (service sampleNative sampleConfig) sampleEvents
      (new sampleClient)).map (·.authState) = some .complete := by decide +kernel
  obtain ⟨c, hc, hstate⟩ := Option.map_eq_some_iff.1 hrun
  exact ⟨c, hstate, only_handshake_in_clear (run_of_runUntilError hc)⟩

end AuthClient

end AcOpenServer
