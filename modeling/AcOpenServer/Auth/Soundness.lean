import AcOpenServer.Auth.Outcome
import AcOpenServer.Native.Cwc.Wrapper
import AcOpenServer.RPCN.Format

namespace AcOpenServer
open Library
set_option autoImplicit true

namespace AuthClient

def HandshakeAccepted (native : AuthNative) (e : AuthEvent) : Prop :=
  e.message.header.messageType = .requestHandshake ∧
    ∃ handshake, native.parseRequestHandshake e.message.payload = .ok handshake

def ServiceStatusAccepted (native : AuthNative) (config : AuthConfig) (e : AuthEvent) : Prop :=
  e.message.header.messageType = .getServiceStatus ∧
    ∃ serviceStatus, native.parseGetServiceStatus e.message.payload = .ok serviceStatus ∧
      ¬ Rejects config serviceStatus

def KeyMaterialAccepted (e : AuthEvent) : Prop :=
  e.message.header.messageType = .keyMaterial ∧ 16 ≤ e.message.payload.length

/-- The payload is a ticket that is valid now, for a known title and with these bytes in its
cookie. -/
def TicketAccepted (keyBytes : List UInt8) (e : AuthEvent) : Prop :=
  ∃ ticket, (Ticket.tryParse ⟨e.message.payload, e.beyond⟩).result = .ok (.ok ticket) ∧
    ticket.issuedDate.utcTicks ≤ e.issuedNow.utcTicks ∧
    e.expiredNow.utcTicks < ticket.expireDate.utcTicks ∧
    (∃ titleID, ticket.getServiceIdString.result = .ok titleID ∧ titleID ∈ knownTitleIDs) ∧
    16 ≤ ticket.cookie.length ∧ ticket.cookie.take 16 = keyBytes

/-- What the messages handled so far have to do with the state they lead to. -/
def History (native : AuthNative) (config : AuthConfig) (hist : List AuthEvent)
    (c : AuthClient) : Prop :=
  match c.authState with
  | .waitingForHandshakeRequest => hist = [] ∧ c.gameCwcKeyBytes.length = 16
  | .waitingForServiceStatusRequest =>
    ∃ m₁, hist = [m₁] ∧ HandshakeAccepted native m₁ ∧ c.gameCwcKeyBytes.length = 16
  | .waitingForKeyMaterial =>
    ∃ m₁ m₂, hist = [m₁, m₂] ∧ HandshakeAccepted native m₁ ∧
      ServiceStatusAccepted native config m₂ ∧ c.gameCwcKeyBytes.length = 16
  | .waitingForTicket =>
    ∃ m₁ m₂ m₃, hist = [m₁, m₂, m₃] ∧ HandshakeAccepted native m₁ ∧
      ServiceStatusAccepted native config m₂ ∧ KeyMaterialAccepted m₃ ∧
      c.gameCwcKeyBytes = generatedKey m₃
  | .complete =>
    ∃ m₁ m₂ m₃ m₄, hist = [m₁, m₂, m₃, m₄] ∧ HandshakeAccepted native m₁ ∧
      ServiceStatusAccepted native config m₂ ∧ KeyMaterialAccepted m₃ ∧
      TicketAccepted (generatedKey m₃) m₄
  | .disconnected => True

variable {native : AuthNative} {config : AuthConfig} {e : AuthEvent} {c c' : AuthClient}

theorem history_new (client : SVFWMessageClient) : History native config [] (new client) :=
  ⟨rfl, List.length_replicate⟩

theorem history_of_disconnected (h : c.authState = .disconnected) :
    History native config hist c := by
  rw [History, h]
  exact trivial

theorem ticketAccepted {ticket : Ticket}
    (htry : (Ticket.tryParse ⟨e.message.payload, e.beyond⟩).result = .ok (.ok ticket))
    (h : Presentable e ticket) (hlong : 16 ≤ ticket.cookie.length) :
    TicketAccepted (ticket.cookie.take 16) e := by
  have hissued := of_decide_eq_false h.issued
  have hexpired := of_decide_eq_false h.notExpired
  exact ⟨ticket, htry, Nat.le_of_not_lt hissued, Nat.lt_of_not_le hexpired, h.knownTitle, hlong,
    rfl⟩

theorem Outcome.history (h : Outcome native config e c (.ok () c'))
    (hist : History native config events c) : History native config (events ++ [e]) c' := by
  cases h with
  | refused _ => exact history_of_disconnected (authState_dispose _)
  | ignored state => exact history_of_disconnected state
  | handshake state type parsed _ _ _ =>
    rw [History, state] at hist
    obtain ⟨rfl, hlen⟩ := hist
    exact ⟨e, rfl, ⟨type, _, parsed⟩, hlen⟩
  | serviceStatus state type parsed admitted _ _ =>
    rw [History, state] at hist
    obtain ⟨m₁, rfl, h₁, hlen⟩ := hist
    exact ⟨m₁, e, rfl, h₁, ⟨type, _, parsed, admitted⟩, hlen⟩
  | rejected _ _ _ _ dropped => exact history_of_disconnected dropped.disconnected
  | keyMaterial state type long stored _ _ _ =>
    rw [History, state] at hist
    obtain ⟨m₁, m₂, rfl, h₁, h₂, hlen⟩ := hist
    exact ⟨m₁, m₂, e, rfl, h₁, h₂, ⟨type, long⟩, stored hlen⟩
  | ticket state parsed presentable long same _ _ =>
    rw [History, state] at hist
    obtain ⟨m₁, m₂, m₃, rfl, h₁, h₂, h₃, hkey⟩ := hist
    refine ⟨m₁, m₂, m₃, e, rfl, h₁, h₂, h₃, ?_⟩
    rw [← hkey, same]
    exact ticketAccepted parsed presentable long

theorem history_of_steps {client : SVFWMessageClient}
    (h : Steps (service native config) (new client) events c) :
    History native config events c :=
  h.history (fun _ _ _ _ hist hrun => (service_ok hrun).history hist) (history_new client)

/-- A client that is complete has sent a handshake, an accepted version, key material and a
ticket with the key made from it, and nothing else. -/
theorem authenticated_of_complete {client : SVFWMessageClient} {events : List AuthEvent}
    (hrun : Run (service native config) (new client) events c) (hc : c.authState = .complete) :
    ∃ m₁ m₂ m₃ m₄, events = [m₁, m₂, m₃, m₄] ∧ HandshakeAccepted native m₁ ∧
      ServiceStatusAccepted native config m₂ ∧ KeyMaterialAccepted m₃ ∧
      TicketAccepted (generatedKey m₃) m₄ := by
  cases hrun with
  | returned hsteps =>
    have hist := history_of_steps hsteps
    rw [History, hc] at hist
    exact hist
  | threw hsteps herror =>
    obtain ⟨hsame, hne, _⟩ := (service_error herror).authState_of_error
    exact (hne (hsame.symm.trans hc)).elim

/-- The CWC library, RSA operations that fail, and parsers of the shortest messages. -/
def sampleNative : AuthNative where
  cipher :=
    { cwc := Native.library .littleEndian [] ⟨0, 0⟩
      rsa := ⟨fun _ _ => none, fun _ _ => none, fun _ _ => none, fun _ _ => none⟩ }
  parseRequestHandshake
    | 0x0A :: length :: key =>
      if length.toNat = key.length ∧ length < 0x80 then .ok ⟨key⟩ else .error "Truncated."
    | _ => .error "Malformed."
  parseGetServiceStatus
    | [0x08, 0x02, 0x12, 0x00] => .ok ⟨2, "", "", 0⟩
    | 0x08 :: 0x02 :: 0x12 :: 0x00 :: 0x20 :: version =>
      .ok ⟨2, "", "", UInt64.ofNat (Nat.ofDigits 128 (version.map (·.toNat % 128)))⟩
    | _ => .error "Malformed."

theorem sampleNative_good : sampleNative.cipher.cwc.Good := Native.library_good ..

def sampleConfig : AuthConfig where
  publicIP := 0x0100007F
  privateIP := 0x0100007F
  gamePort := 8080
  minimumVersion := .new 0x101000000
  maximumVersion := .new 0x303000000

def sampleClient : SVFWMessageClient :=
  .new (.new (.accepted false)) (.rsa ⟨false, .x931⟩) (.rsa ⟨false, .oaep⟩)

def sampleFields : Ticket.TicketFields Ticket.Binary where
  version := 0x21010000
  serial := Ticket.noBytes
  issuerID := 0x100
  issuedDate := Ticket.epoch
  expireDate := ⟨1, by decide⟩
  userID := 1
  onlineID := Ticket.noBytes
  region := Ticket.noBytes
  domain := Ticket.noBytes
  serviceID := ⟨utf8Encode "UP0700-BLUS31194_00", by decide⟩
  status := 0
  cookie := some ⟨List.replicate 16 1, by decide⟩
  signer := Ticket.noBytes
  signature := Ticket.noBytes

/-- Messages are received in the first moment of the year 1970. -/
def sampleEvent (messageType : SVFWMessageType) (payload : List UInt8) : AuthEvent where
  message := ⟨⟨12, messageType, 0⟩, none, payload⟩
  beyond _ := 0
  iv := Block.zeros 11
  responseBytes := Block.zeros 27
  keyBytes := ⟨List.replicate 16 1, rfl⟩
  issuedNow := .ofMilliseconds 0 (by decide)
  expiredNow := .ofMilliseconds 0 (by decide)
  write := some .completed

/-- A version between the two configured ones. -/
def sampleStatus : AuthEvent :=
  sampleEvent .getServiceStatus (0x08 :: 0x02 :: 0x12 :: 0x00 :: 0x20 :: varint 10 0x202000000)

def sampleEvents : List AuthEvent :=
  [sampleEvent .requestHandshake (0x0A :: 0x10 :: List.replicate 16 0),
    sampleStatus,
    sampleEvent .keyMaterial (List.replicate 16 1),
    sampleEvent .ticket (sampleFields.encode id 0 0 0)]

theorem authenticated_sampleEvents : ∃ m₁ m₂ m₃ m₄, sampleEvents = [m₁, m₂, m₃, m₄] ∧
    HandshakeAccepted sampleNative m₁ ∧ ServiceStatusAccepted sampleNative sampleConfig m₂ ∧
    KeyMaterialAccepted m₃ ∧ TicketAccepted (generatedKey m₃) m₄ := by
  have hrun : (runAll (service sampleNative sampleConfig) sampleEvents (new sampleClient)).map
      (·.authState) = some .complete := by decide +kernel
  obtain ⟨c, hc, hstate⟩ := Option.map_eq_some_iff.1 hrun
  exact authenticated_of_complete (.returned (steps_of_runAll hc)) hstate

end AuthClient

end AcOpenServer
