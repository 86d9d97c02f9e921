import AcOpenServer.Auth.Client

namespace AcOpenServer
open Library
set_option autoImplicit true

namespace AuthClient

/-- The plaintext of the reply to a handshake. -/
def handshakeResponse (e : AuthEvent) : List UInt8 :=
  e.responseBytes.1.take 11 ++ List.replicate 16 0

def serviceStatusResponse (serviceStatus : GetServiceStatus) : GetServiceStatusResponse :=
  ⟨2, "", false, serviceStatus.appVersion.toUInt32.toInt32⟩

/-- The sixteen bytes that end up in `cwcKeyBytes`. -/
def generatedKey (e : AuthEvent) : List UInt8 :=
  (e.message.payload.drop 8).take 8 ++ e.keyBytes.1.drop 8

def serverInfoBytes (config : AuthConfig) (isPrivateNetwork : Bool) : List UInt8 :=
  Layout.encode (serverInfo config isPrivateNetwork).swapEndian

def Rejects (config : AuthConfig) (serviceStatus : GetServiceStatus) : Prop :=
  (AcvAppVersion.new serviceStatus.appVersion).lt config.minimumVersion = true ∨
    (AcvAppVersion.new serviceStatus.appVersion).gt config.maximumVersion = true

/-- The ticket passes the checks in front of the one of its cookie. -/
structure Presentable (e : AuthEvent) (ticket : Ticket) : Prop where
  issued : ticket.notIssuedYet e.issuedNow = false
  notExpired : ticket.isExpired e.expiredNow = false
  knownTitle : ∃ titleID, ticket.getServiceIdString.result = .ok titleID ∧
    titleID ∈ knownTitleIDs

/-- Why a client is disconnected without a reply. -/
def Refused (native : AuthNative) (e : AuthEvent) (c : AuthClient) : Prop :=
  match c.authState with
  | .waitingForHandshakeRequest =>
    e.message.header.messageType = .requestHandshake →
      ∃ error, native.parseRequestHandshake e.message.payload = .error error
  | .waitingForServiceStatusRequest =>
    e.message.header.messageType = .getServiceStatus →
      ∃ error, native.parseGetServiceStatus e.message.payload = .error error
  | .waitingForKeyMaterial => e.message.header.messageType ≠ .keyMaterial
  | .waitingForTicket =>
    (∃ error, (Ticket.tryParse ⟨e.message.payload, e.beyond⟩).result = .ok (.error error)) ∨
      ∃ ticket, (Ticket.tryParse ⟨e.message.payload, e.beyond⟩).result = .ok (.ok ticket) ∧
        (Presentable e ticket → 16 ≤ ticket.cookie.length ∧
          c.gameCwcKeyBytes ≠ ticket.cookie.take 16)
  | .complete => True
  | .disconnected => False

/-- The packet of a reply whose payload was encrypted to these bytes. -/
def replyPacket (messageIndex : UInt32) (output : List UInt8) : SVFWPacket :=
  SVFWMessageClient.envelope .reply messageIndex (.new []) output

def Encrypts (native : AuthNative) (e : AuthEvent) (client : SVFWMessageClient)
    (plaintext output : List UInt8) : Prop :=
  (SVFWMessageClient.encryptPayload native.cipher e.iv client plaintext).result = .ok output

/-- The message client after a reply. -/
def Replied (native : AuthNative) (e : AuthEvent) (client : SVFWMessageClient)
    (plaintext : List UInt8) (client' : SVFWMessageClient) : Prop :=
  ∃ output, Encrypts native e client plaintext output ∧
    client.Takes (replyPacket e.message.header.messageIndex output) ∧
    client' = client.deliver (replyPacket e.message.header.messageIndex output)

/-- The message client after a reply that threw, which may have been handed over. -/
def Attempted (native : AuthNative) (e : AuthEvent) (client : SVFWMessageClient)
    (plaintext : List UInt8) (client' : SVFWMessageClient) : Prop :=
  client' = client ∨ ∃ output, Encrypts native e client plaintext output ∧
    client' = client.handOver (replyPacket e.message.header.messageIndex output)

variable {native : AuthNative} {config : AuthConfig} {e : AuthEvent} {c c' : AuthClient}

theorem reply_cases (native : AuthNative) (e : AuthEvent) (plaintext : List UInt8)
    (c : AuthClient) :
    (∃ task client, e.write = some task ∧ Replied native e c.client plaintext client ∧
        (reply native e plaintext).run c = .ok task { c with client }) ∨
      ∃ ex client, Attempted native e c.client plaintext client ∧
        (reply native e plaintext).run c = .error ex { c with client } := by
  cases hrun : (SVFWMessageClient.sendAsync native.cipher e.iv e.write (.new plaintext) .reply
      e.message.header.messageIndex).run c.client with
  | ok task client =>
    obtain ⟨output, hencrypt, hwrite, htakes, hclient⟩ := SVFWMessageClient.sendAsync_ok hrun
    exact .inl ⟨task, client, hwrite, ⟨output, hencrypt, htakes, hclient⟩, run_zoom_of_ok hrun⟩
  | error ex client =>
    exact .inr ⟨ex, client, SVFWMessageClient.sendAsync_error hrun, run_zoom_of_error hrun⟩

theorem authState_dispose (c : AuthClient) : (dispose c).authState = c.authState := by
  unfold dispose
  split
  · rfl
  · rfl

theorem client_dispose (c : AuthClient) : ∃ tcp packets messages, (dispose c).client =
    { c.client with
      client :=
        { c.client.client with
          client := { c.client.client.client with disposedValue := tcp }
          disposedValue := packets }
      disposedValue := messages } := by
  unfold dispose
  split
  · exact ⟨_, _, _, rfl⟩
  · change ∃ tcp packets messages, SVFWMessageClient.dispose c.client = _
    unfold SVFWMessageClient.dispose
    split
    · exact ⟨_, _, _, rfl⟩
    · change ∃ tcp packets messages,
        { c.client with
          client := SVFWPacketClient.dispose c.client.client
          disposedValue := true } = _
      unfold SVFWPacketClient.dispose
      split
      · exact ⟨_, _, _, rfl⟩
      · exact ⟨_, _, _, rfl⟩

/-- The client when `SendThenDisconnect` has gone as far as its write allows. -/
def afterWrite (task : WriteTask) (c : AuthClient) : AuthClient :=
  if task = .completed then dispose c else c

theorem authState_afterWrite (task : WriteTask) (c : AuthClient) :
    (afterWrite task c).authState = c.authState := by
  unfold afterWrite
  split
  · exact authState_dispose c
  · rfl

theorem client_afterWrite (task : WriteTask) (c : AuthClient) :
    ∃ tcp packets messages, (afterWrite task c).client =
      { c.client with
        client :=
          { c.client.client with
            client := { c.client.client.client with disposedValue := tcp }
            disposedValue := packets }
        disposedValue := messages } := by
  unfold afterWrite
  split
  · exact client_dispose c
  · exact ⟨_, _, _, rfl⟩

theorem run_sendThenDisconnect_of_ok {d : AuthClient}
    (h : (reply native e plaintext).run { c with authState := .disconnected } = .ok task d) :
    (sendThenDisconnect native e plaintext).run c = .ok () (afterWrite task d) := by
  rw [sendThenDisconnect, run_modify_bind]
  cases task with
  | completed =>
    apply run_ignoreErrors_of_ok
    rw [run_bind_of_ok _ h]
    rfl
  | pending =>
    apply run_ignoreErrors_of_ok
    rw [run_bind_of_ok _ h]
    rfl
  | faulted =>
    apply run_ignoreErrors_of_error (e := .io)
    rw [run_bind_of_ok _ h]
    rfl

theorem run_sendThenDisconnect_of_error {d : AuthClient}
    (h : (reply native e plaintext).run { c with authState := .disconnected } = .error ex d) :
    (sendThenDisconnect native e plaintext).run c = .ok () d := by
  rw [sendThenDisconnect, run_modify_bind]
  exact run_ignoreErrors_of_error (run_bind_of_error _ h)

/-- What `SendThenDisconnect` leaves. -/
inductive Dropped (native : AuthNative) (e : AuthEvent) (plaintext : List UInt8)
    (c : AuthClient) : AuthClient → Prop
  | threw {client : SVFWMessageClient} (attempted : Attempted native e c.client plaintext client) :
      Dropped native e plaintext c { c with client, authState := .disconnected }
  | completed {client : SVFWMessageClient} (write : e.write = some .completed)
      (replied : Replied native e c.client plaintext client) :
      Dropped native e plaintext c (dispose { c with client, authState := .disconnected })
  | unfinished {client : SVFWMessageClient} (write : e.write ≠ some .completed)
      (replied : Replied native e c.client plaintext client) :
      Dropped native e plaintext c { c with client, authState := .disconnected }

theorem sendThenDisconnect_cases (native : AuthNative) (e : AuthEvent) (plaintext : List UInt8)
    (c : AuthClient) : ∃ c', (sendThenDisconnect native e plaintext).run c = .ok () c' ∧
      Dropped native e plaintext c c' := by
  rcases reply_cases native e plaintext { c with authState := .disconnected } with
    ⟨task, client, hwrite, hreplied, hrun⟩ | ⟨ex, client, hattempted, hrun⟩
  · refine ⟨_, run_sendThenDisconnect_of_ok hrun, ?_⟩
    cases task with
    | completed => exact .completed hwrite hreplied
    | pending => exact .unfinished (by rw [hwrite]; decide) hreplied
    | faulted => exact .unfinished (by rw [hwrite]; decide) hreplied
  · exact ⟨_, run_sendThenDisconnect_of_error hrun, .threw hattempted⟩

/-- The message client while it replies to a handshake. -/
def keyedClient (c : AuthClient) (key : CWC) : SVFWMessageClient :=
  { c.client.setCipher (.cwc key) (.cwc key) with cipherEnabled := false }

/-- What a call of `Service` has done when it returns or throws. -/
inductive Outcome (native : AuthNative) (config : AuthConfig) (e : AuthEvent) (c : AuthClient) :
    EStateM.Result Exn AuthClient Unit → Prop
  | refused (refused : Refused native e c) :
      Outcome native config e c (.ok () (dispose { c with authState := .disconnected }))
  | ignored (state : c.authState = .disconnected) : Outcome native config e c (.ok () c)
  | threw (complete : c.authState ≠ .complete) (disconnected : c.authState ≠ .disconnected) :
      Outcome native config e c (.error ex c)
  | handshake {client : SVFWMessageClient} (state : c.authState = .waitingForHandshakeRequest)
      (type : e.message.header.messageType = .requestHandshake)
      (parsed : native.parseRequestHandshake e.message.payload = .ok handshake)
      (keyed : (CWC.new native.cipher.cwc handshake.aesCwcKey).result = .ok key)
      (write : e.write = some task)
      (replied : Replied native e (c.keyedClient key) (handshakeResponse e) client) :
      Outcome native config e c (.ok () { c with
        client := { client with cipherEnabled := true }
        sendQueue := c.sendQueue ++ [task]
        authState := .waitingForServiceStatusRequest })
  | handshakeThrew {client : SVFWMessageClient}
      (state : c.authState = .waitingForHandshakeRequest)
      (type : e.message.header.messageType = .requestHandshake)
      (parsed : native.parseRequestHandshake e.message.payload = .ok handshake)
      (keyed : (CWC.new native.cipher.cwc handshake.aesCwcKey).result = .ok key)
      (attempted : Attempted native e (c.keyedClient key) (handshakeResponse e) client) :
      Outcome native config e c (.error ex { c with client })
  | serviceStatus {client : SVFWMessageClient}
      (state : c.authState = .waitingForServiceStatusRequest)
      (type : e.message.header.messageType = .getServiceStatus)
      (parsed : native.parseGetServiceStatus e.message.payload = .ok serviceStatus)
      (admitted : ¬ Rejects config serviceStatus) (write : e.write = some task)
      (replied : Replied native e c.client (serviceStatusResponse serviceStatus).toByteArray
        client) :
      Outcome native config e c (.ok () { c with
        client
        playerName := serviceStatus.playerName
        sendQueue := c.sendQueue ++ [task]
        authState := .waitingForKeyMaterial })
  | serviceStatusThrew {client : SVFWMessageClient}
      (state : c.authState = .waitingForServiceStatusRequest)
      (type : e.message.header.messageType = .getServiceStatus)
      (parsed : native.parseGetServiceStatus e.message.payload = .ok serviceStatus)
      (admitted : ¬ Rejects config serviceStatus)
      (attempted : Attempted native e c.client
        (serviceStatusResponse serviceStatus).toByteArray client) :
      Outcome native config e c (.error ex { c with
        client
        playerName := serviceStatus.playerName })
  | rejected {d : AuthClient} (state : c.authState = .waitingForServiceStatusRequest)
      (type : e.message.header.messageType = .getServiceStatus)
      (parsed : native.parseGetServiceStatus e.message.payload = .ok serviceStatus)
      (rejected : Rejects config serviceStatus)
      (dropped : Dropped native e emptyStatusResponse.toByteArray
        { c with playerName := serviceStatus.playerName } d) :
      Outcome native config e c (.ok () d)
  | keyMaterial {client : SVFWMessageClient} {gameCwcKeyBytes : List UInt8}
      (state : c.authState = .waitingForKeyMaterial)
      (type : e.message.header.messageType = .keyMaterial)
      (long : 16 ≤ e.message.payload.length)
      (stored : c.gameCwcKeyBytes.length = 16 → gameCwcKeyBytes = generatedKey e)
      (keyed : (CWC.new native.cipher.cwc (generatedKey e)).result = .ok key)
      (write : e.write = some task)
      (replied : Replied native e c.client (generatedKey e) client) :
      Outcome native config e c (.ok () { c with
        client
        gameCwcKeyBytes
        gameCwcKey := some key
        sendQueue := c.sendQueue ++ [task]
        authState := .waitingForTicket })
  | keyMaterialThrew {client : SVFWMessageClient} {gameCwcKeyBytes : List UInt8}
      {gameCwcKey : Option CWC} (state : c.authState = .waitingForKeyMaterial)
      (type : e.message.header.messageType = .keyMaterial)
      (attempted : Attempted native e c.client (generatedKey e) client) :
      Outcome native config e c (.error ex { c with client, gameCwcKeyBytes, gameCwcKey })
  | ticket {client : SVFWMessageClient} (state : c.authState = .waitingForTicket)
      (parsed : (Ticket.tryParse ⟨e.message.payload, e.beyond⟩).result = .ok (.ok ticket))
      (presentable : Presentable e ticket) (long : 16 ≤ ticket.cookie.length)
      (same : c.gameCwcKeyBytes = ticket.cookie.take 16) (write : e.write = some task)
      (replied : Replied native e c.client
        (serverInfoBytes config c.client.isPrivateNetwork) client) :
      Outcome native config e c (.ok () { c with
        client
        gameCwcKeyBytes := List.replicate c.gameCwcKeyBytes.length 0
        sendQueue := c.sendQueue ++ [task]
        authState := .complete })
  | ticketThrew {client : SVFWMessageClient} (state : c.authState = .waitingForTicket)
      (parsed : (Ticket.tryParse ⟨e.message.payload, e.beyond⟩).result = .ok (.ok ticket))
      (presentable : Presentable e ticket) (long : 16 ≤ ticket.cookie.length)
      (same : c.gameCwcKeyBytes = ticket.cookie.take 16)
      (attempted : Attempted native e c.client
        (serverInfoBytes config c.client.isPrivateNetwork) client) :
      Outcome native config e c (.error ex { c with
        client
        gameCwcKeyBytes := List.replicate c.gameCwcKeyBytes.length 0 })

theorem Outcome.of_eq {r r' : EStateM.Result Exn AuthClient Unit} (h : r = r')
    (ho : Outcome native config e c r') : Outcome native config e c r := h ▸ ho

theorem Outcome.of_threw (hstate : c.authState = state) (hcomplete : state ≠ .complete)
    (hdisconnected : state ≠ .disconnected) : Outcome native config e c (.error ex c) :=
  .threw (hstate ▸ hcomplete) (hstate ▸ hdisconnected)

theorem enqueue_reply_cases (native : AuthNative) (e : AuthEvent) (plaintext : List UInt8)
    (g : AuthClient → AuthClient) (c : AuthClient) :
    (∃ task client, e.write = some task ∧ Replied native e c.client plaintext client ∧
        (do
          enqueue (← reply native e plaintext)
          modify g).run c =
          .ok () (g { c with client, sendQueue := c.sendQueue ++ [task] })) ∨
      ∃ ex client, Attempted native e c.client plaintext client ∧
        (do
          enqueue (← reply native e plaintext)
          modify g).run c = .error ex { c with client } := by
  rcases reply_cases native e plaintext c with
    ⟨task, client, hwrite, hreplied, hrun⟩ | ⟨ex, client, hattempted, hrun⟩
  · refine .inl ⟨task, client, hwrite, hreplied, ?_⟩
    rw [run_bind_of_ok _ hrun]
    rfl
  · exact .inr ⟨ex, client, hattempted, run_bind_of_error _ hrun⟩

theorem handleWaitingForHandshakeRequest_outcome
    (hstate : c.authState = .waitingForHandshakeRequest) :
    Outcome native config e c ((handleWaitingForHandshakeRequest native e).run c) := by
  have hrefused : (e.message.header.messageType = .requestHandshake →
      ∃ error, native.parseRequestHandshake e.message.payload = .error error) →
        Refused native e c := by
    intro h
    rw [Refused, hstate]
    exact h
  unfold handleWaitingForHandshakeRequest
  split
  · rename_i htype
    exact .refused (hrefused fun h => (htype h).elim)
  · rename_i htype
    split
    · rename_i error hparsed
      exact .refused (hrefused fun _ => ⟨error, hparsed⟩)
    · rename_i handshake hparsed
      cases hkeyed : (CWC.new native.cipher.cwc handshake.aesCwcKey).result with
      | error ex =>
        rw [run_bind_of_error _ (Traced.run_toAction_of_error hkeyed c)]
        exact .of_threw hstate (by decide) (by decide)
      | ok key =>
        rw [run_bind_of_ok _ (Traced.run_toAction_of_ok hkeyed c), run_modify_bind,
          run_modify_bind]
        rcases enqueue_reply_cases native e (handshakeResponse e) (fun c => { c with
            client := { c.client with cipherEnabled := true }
            authState := .waitingForServiceStatusRequest })
            { c with client := c.keyedClient key } with
          ⟨task, client, hwrite, hreplied, hrun⟩ | ⟨ex, client, hattempted, hrun⟩
        · exact Outcome.of_eq hrun
            (.handshake hstate (not_not.1 htype) hparsed hkeyed hwrite hreplied)
        · exact Outcome.of_eq hrun
            (.handshakeThrew hstate (not_not.1 htype) hparsed hkeyed hattempted)

theorem handleWaitingForServiceStatusRequest_outcome
    (hstate : c.authState = .waitingForServiceStatusRequest) :
    Outcome native config e c ((handleWaitingForServiceStatusRequest native config e).run c) := by
  have hrefused : (e.message.header.messageType = .getServiceStatus →
      ∃ error, native.parseGetServiceStatus e.message.payload = .error error) →
        Refused native e c := by
    intro h
    rw [Refused, hstate]
    exact h
  unfold handleWaitingForServiceStatusRequest
  split
  · rename_i htype
    exact .refused (hrefused fun h => (htype h).elim)
  · rename_i htype
    split
    · rename_i error hparsed
      exact .refused (hrefused fun _ => ⟨error, hparsed⟩)
    · rename_i serviceStatus hparsed
      rw [run_modify_bind]
      dsimp only
      split
      · rename_i hrejects
        rw [Bool.or_eq_true] at hrejects
        obtain ⟨d, hrun, hdropped⟩ := sendThenDisconnect_cases native e
          emptyStatusResponse.toByteArray { c with playerName := serviceStatus.playerName }
        exact Outcome.of_eq hrun
          (.rejected hstate (not_not.1 htype) hparsed hrejects hdropped)
      · rename_i hadmitted
        rw [Bool.or_eq_true] at hadmitted
        rcases enqueue_reply_cases native e (serviceStatusResponse serviceStatus).toByteArray
            (fun c => { c with authState := .waitingForKeyMaterial })
            { c with playerName := serviceStatus.playerName } with
          ⟨task, client, hwrite, hreplied, hrun⟩ | ⟨ex, client, hattempted, hrun⟩
        · exact Outcome.of_eq hrun
            (.serviceStatus hstate (not_not.1 htype) hparsed hadmitted hwrite hreplied)
        · exact Outcome.of_eq hrun
            (.serviceStatusThrew hstate (not_not.1 htype) hparsed hadmitted hattempted)

theorem length_generatedKey (h : 16 ≤ e.message.payload.length) :
    (generatedKey e).length = 16 := by
  have hkey := e.keyBytes.2
  rw [generatedKey, List.length_append, List.length_take, List.length_drop, List.length_drop]
  omega

theorem arrayCopy_keyMaterial (h : 16 ≤ e.message.payload.length) :
    arrayCopy e.message.payload 8 e.keyBytes.1 0 8 = pure (generatedKey e) := by
  have hkey := e.keyBytes.2
  have hlen : ((e.message.payload.drop 8).take 8).length = 8 := by
    rw [List.length_take, List.length_drop]
    omega
  rw [arrayCopy_of_le h (by omega), splice, List.take_zero, List.nil_append,
    List.take_of_length_le (by omega), hlen]
  rfl

theorem handleWaitingForKeyMaterial_outcome (hstate : c.authState = .waitingForKeyMaterial) :
    Outcome native config e c ((handleWaitingForKeyMaterial native e).run c) := by
  unfold handleWaitingForKeyMaterial
  split
  · rename_i htype
    refine .refused ?_
    rw [Refused, hstate]
    exact htype
  · rename_i htype
    by_cases hlong : 16 ≤ e.message.payload.length
    · have hcopy := congrArg Traced.result (arrayCopy_keyMaterial hlong)
      have hlen := length_generatedKey hlong
      rw [run_bind_of_ok _ (Traced.run_toAction_of_ok hcopy c), run_get_bind]
      cases hstore : (arrayCopy (generatedKey e) 0 c.gameCwcKeyBytes 0
          (generatedKey e).length).result with
      | error ex =>
        rw [run_bind_of_error _ (Traced.run_toAction_of_error hstore c)]
        exact .of_threw hstate (by decide) (by decide)
      | ok gameCwcKeyBytes =>
        have hstored : c.gameCwcKeyBytes.length = 16 → gameCwcKeyBytes = generatedKey e := by
          intro hold
          rw [arrayCopy_whole (hold.trans hlen.symm)] at hstore
          cases hstore
          rfl
        rw [run_bind_of_ok _ (Traced.run_toAction_of_ok hstore c), run_modify_bind]
        cases hkeyed : (CWC.new native.cipher.cwc (generatedKey e)).result with
        | error ex =>
          rw [run_bind_of_error _ (Traced.run_toAction_of_error hkeyed _)]
          exact .keyMaterialThrew hstate (not_not.1 htype) (.inl rfl)
        | ok key =>
          rw [run_bind_of_ok _ (Traced.run_toAction_of_ok hkeyed _), run_modify_bind]
          rcases enqueue_reply_cases native e (generatedKey e)
              (fun c => { c with authState := .waitingForTicket })
              { c with gameCwcKeyBytes, gameCwcKey := some key } with
            ⟨task, client, hwrite, hreplied, hrun⟩ | ⟨ex, client, hattempted, hrun⟩
          · exact Outcome.of_eq hrun
              (.keyMaterial hstate (not_not.1 htype) hlong hstored hkeyed hwrite hreplied)
          · exact Outcome.of_eq hrun (.keyMaterialThrew hstate (not_not.1 htype) hattempted)
    · have hcopy : (arrayCopy e.message.payload 8 e.keyBytes.1 0 8).result = .error .argument :=
        congrArg Traced.result (arrayCopy_of_short (by omega))
      rw [run_bind_of_error _ (Traced.run_toAction_of_error hcopy c)]
      exact .of_threw hstate (by decide) (by decide)

theorem result_slice_cookie {cookie : List UInt8} (h : 16 ≤ cookie.length) :
    ((⟨cookie, fun _ => 0⟩ : Span).slice 0 16).result = .ok (cookie.take 16) :=
  congrArg Traced.result (Span.slice_of_le (by rw [Nat.zero_add]; exact h))

theorem result_serverInfo (serverInfo : ConnectGameServerPortIdResponse) :
    (BinaryBufferWriter.write (List.replicate 56 0) 0 serverInfo).result =
      .ok (Layout.encode serverInfo) := by
  have hwrite := BinaryBufferWriter.write_append (a := []) (b := List.replicate 56 0) (c := [])
    (n := 0) serverInfo rfl List.length_replicate (by decide)
  rw [List.nil_append, List.append_nil, List.nil_append, List.append_nil] at hwrite
  exact congrArg Traced.result hwrite

theorem handleWaitingForTicket_outcome (hstate : c.authState = .waitingForTicket) :
    Outcome native config e c ((handleWaitingForTicket native config e).run c) := by
  unfold handleWaitingForTicket
  cases htry : (Ticket.tryParse ⟨e.message.payload, e.beyond⟩).result with
  | error ex =>
    rw [run_bind_of_error _ (Traced.run_toAction_of_error htry c)]
    exact .of_threw hstate (by decide) (by decide)
  | ok parsed =>
    rw [run_bind_of_ok _ (Traced.run_toAction_of_ok htry c)]
    cases parsed with
    | error error =>
      refine .refused ?_
      rw [Refused, hstate]
      exact .inl ⟨error, htry⟩
    | ok ticket =>
      have hrefused : (Presentable e ticket → 16 ≤ ticket.cookie.length ∧
          c.gameCwcKeyBytes ≠ ticket.cookie.take 16) → Refused native e c := by
        intro hpresentable
        rw [Refused, hstate]
        exact .inr ⟨ticket, htry, hpresentable⟩
      dsimp only
      split
      · rename_i hissued
        exact .refused (hrefused fun hp => (Bool.eq_false_iff.1 hp.issued hissued).elim)
      · rename_i hissued
        split
        · rename_i hexpired
          exact .refused (hrefused fun hp => (Bool.eq_false_iff.1 hp.notExpired hexpired).elim)
        · rename_i hexpired
          cases htitle : ticket.getServiceIdString.result with
          | error ex =>
            rw [run_bind_of_error _ (Traced.run_toAction_of_error htitle c)]
            exact .of_threw hstate (by decide) (by decide)
          | ok titleID =>
            rw [run_bind_of_ok _ (Traced.run_toAction_of_ok htitle c)]
            split
            · rename_i hunknown
              refine .refused (hrefused fun hp => ?_)
              obtain ⟨titleID', htitle', hknown⟩ := hp.knownTitle
              cases htitle.symm.trans htitle'
              exact (hunknown hknown).elim
            · rename_i hknown
              have hpresentable : Presentable e ticket := ⟨Bool.eq_false_iff.2 hissued,
                Bool.eq_false_iff.2 hexpired, titleID, htitle, not_not.1 hknown⟩
              by_cases hlong : 16 ≤ ticket.cookie.length
              · have hslice := result_slice_cookie hlong
                rw [run_bind_of_ok _ (Traced.run_toAction_of_ok hslice c), run_get_bind]
                split
                · rename_i hne
                  exact .refused (hrefused fun _ => ⟨hlong, hne⟩)
                · rename_i hsame
                  have hbytes := result_serverInfo
                    (serverInfo config c.client.isPrivateNetwork).swapEndian
                  rw [run_modify_bind, run_get_bind]
                  dsimp only
                  rw [run_bind_of_ok _ (Traced.run_toAction_of_ok hbytes _)]
                  rcases enqueue_reply_cases native e
                      (serverInfoBytes config c.client.isPrivateNetwork)
                      (fun c => { c with authState := .complete })
                      { c with
                        gameCwcKeyBytes := List.replicate c.gameCwcKeyBytes.length 0 } with
                    ⟨task, client, hwrite, hreplied, hrun⟩ | ⟨ex, client, hattempted, hrun⟩
                  · exact Outcome.of_eq hrun (.ticket hstate htry hpresentable hlong
                      (not_not.1 hsame) hwrite hreplied)
                  · exact Outcome.of_eq hrun (.ticketThrew hstate htry hpresentable hlong
                      (not_not.1 hsame) hattempted)
              · have hslice : ((⟨ticket.cookie, fun _ => 0⟩ : Span).slice 0 16).result =
                    .error .argumentOutOfRange :=
                  congrArg Traced.result (Span.slice_of_lt (Nat.lt_of_not_le hlong))
                rw [run_bind_of_error _ (Traced.run_toAction_of_error hslice c)]
                exact .of_threw hstate (by decide) (by decide)

theorem service_outcome (native : AuthNative) (config : AuthConfig) (e : AuthEvent)
    (c : AuthClient) : Outcome native config e c ((service native config e).run c) := by
  rw [service, run_get_bind]
  split
  · rename_i hstate
    exact handleWaitingForHandshakeRequest_outcome hstate
  · rename_i hstate
    exact handleWaitingForServiceStatusRequest_outcome hstate
  · rename_i hstate
    exact handleWaitingForKeyMaterial_outcome hstate
  · rename_i hstate
    exact handleWaitingForTicket_outcome hstate
  · rename_i hstate
    refine .refused ?_
    rw [Refused, hstate]
    exact trivial
  · rename_i hstate
    exact .ignored hstate

theorem service_ok (h : (service native config e).run c = .ok () c') :
    Outcome native config e c (.ok () c') := h ▸ service_outcome native config e c

theorem service_error (h : (service native config e).run c = .error ex c') :
    Outcome native config e c (.error ex c') := h ▸ service_outcome native config e c

theorem run_service_of_rejects (hstate : c.authState = .waitingForServiceStatusRequest)
    (htype : e.message.header.messageType = .getServiceStatus)
    (hparsed : native.parseGetServiceStatus e.message.payload = .ok serviceStatus)
    (hrejects : Rejects config serviceStatus) : (service native config e).run c =
      (sendThenDisconnect native e emptyStatusResponse.toByteArray).run
        { c with playerName := serviceStatus.playerName } := by
  have hservice : (service native config e).run c =
      (handleWaitingForServiceStatusRequest native config e).run c := by
    rw [service, run_get_bind, hstate]
  rw [hservice, handleWaitingForServiceStatusRequest, if_neg (not_not_intro htype), hparsed]
  dsimp only
  rw [run_modify_bind, if_pos (Bool.or_eq_true_iff.2 hrejects)]

theorem Dropped.disconnected (h : Dropped native e plaintext c c') :
    c'.authState = .disconnected := by
  cases h with
  | threw _ => rfl
  | completed _ _ => exact authState_dispose _
  | unfinished _ _ => rfl

/-- A call of `Service` that throws leaves the state as it was, and has not been made on a
client that is done. -/
theorem Outcome.authState_of_error (h : Outcome native config e c (.error ex c')) :
    c'.authState = c.authState ∧ c.authState ≠ .complete ∧ c.authState ≠ .disconnected := by
  cases h with
  | threw complete disconnected => exact ⟨rfl, complete, disconnected⟩
  | handshakeThrew state _ _ _ _ => exact ⟨rfl, by rw [state]; decide, by rw [state]; decide⟩
  | serviceStatusThrew state _ _ _ _ => exact ⟨rfl, by rw [state]; decide, by rw [state]; decide⟩
  | keyMaterialThrew state _ _ => exact ⟨rfl, by rw [state]; decide, by rw [state]; decide⟩
  | ticketThrew state _ _ _ _ _ => exact ⟨rfl, by rw [state]; decide, by rw [state]; decide⟩

end AuthClient

end AcOpenServer
