import AcOpenServer.Library.Trace
import AcOpenServer.Auth.Conversation
import AcOpenServer.Auth.Totality

namespace AcOpenServer
open Library
set_option autoImplicit true

/-- A client with the tasks that run on its behalf: its receive loop and a `SendThenDisconnect`
that awaits its write. Those of the other sends are in its queue. -/
structure AuthSession where
  client : AuthClient
  receiving : Bool
  disconnecting : Bool

inductive AuthAction where
  | receive (e : AuthEvent)
  | stopReceiving
  | queuedSend (k : Nat) (task : WriteTask)
  | disconnectSend (task : WriteTask)

namespace AuthSession

open AuthClient

def new (tcp : NetTcpClient) (encryptionCipher decryptionCipher : Cipher) : AuthSession :=
  ⟨accepted tcp encryptionCipher decryptionCipher, true, false⟩

/-- The receive loop runs, and reads from a connection that was not disposed of. -/
def canReceive (s : AuthSession) : Bool :=
  s.receiving && !s.client.client.client.client.disposedValue

variable (native : AuthNative) (config : AuthConfig)

/-- A call of `Service` leaves a `SendThenDisconnect` that awaits its write. -/
def awaitsWrite (e : AuthEvent) (c : AuthClient) : Bool :=
  if c.authState = .waitingForServiceStatusRequest ∧
      e.message.header.messageType = .getServiceStatus then
    match native.parseGetServiceStatus e.message.payload with
    | .ok serviceStatus =>
      ((AcvAppVersion.new serviceStatus.appVersion).lt config.minimumVersion ||
        (AcvAppVersion.new serviceStatus.appVersion).gt config.maximumVersion) &&
      match (reply native e emptyStatusResponse.toByteArray).run c with
      | .ok .pending _ => true
      | _ => false
    | .error _ => false
  else false

/-- An exception in `Service` ends the receive loop. A write that completes or fails changes its
task and, if it is the one of `SendThenDisconnect`, lets that go on. -/
def next : AuthAction → AuthSession → Option AuthSession
  | .receive e, s =>
    if s.canReceive then
      match (service native config e).run s.client with
      | .ok _ client => some ⟨client, true, s.disconnecting || awaitsWrite native config e s.client⟩
      | .error _ client => some ⟨client, false, s.disconnecting⟩
    else none
  | .stopReceiving, s => some { s with receiving := false }
  | .queuedSend k task, s =>
    if s.client.sendQueue[k]? = some .pending then
      some { s with client := { s.client with sendQueue := s.client.sendQueue.set k task } }
    else none
  | .disconnectSend task, s =>
    if s.disconnecting then
      match task with
      | .completed => some { s with client := dispose s.client, disconnecting := false }
      | .pending => none
      | .faulted => some { s with disconnecting := false }
    else none

/-- No message can be delivered to a client that is disconnected. -/
def NotServiced (s : AuthSession) : Prop :=
  s.canReceive = true → s.client.authState ≠ .disconnected

/-- The reply to a version that is rejected has been written when `SendAsync` returns. -/
def RejectsAtOnce (native : AuthNative) (config : AuthConfig) : AuthAction → AuthSession → Prop
  | .receive e, s => VersionRejected native config e s.client →
    ∃ c', (reply native e emptyStatusResponse.toByteArray).run s.client = .ok .completed c'
  | _, _ => True

variable {native : AuthNative} {config : AuthConfig} {e : AuthEvent} {c c' : AuthClient}
  {s t : AuthSession}

/-- Nothing of the client was disposed of. -/
structure Open (c : AuthClient) : Prop where
  auth : c.disposedValue = false
  messages : c.client.disposedValue = false
  packets : c.client.client.disposedValue = false

theorem Open.dispose (h : Open c) : (dispose c).client.client.client.disposedValue = true := by
  have hmessages : c.client.dispose = { c.client with
      client := c.client.client.dispose, disposedValue := true } :=
    if_neg (Bool.eq_false_iff.1 h.messages)
  have hpackets : c.client.client.dispose = { c.client.client with
      client := c.client.client.client.dispose, disposedValue := true } :=
    if_neg (Bool.eq_false_iff.1 h.packets)
  rw [AuthClient.dispose, if_neg (Bool.eq_false_iff.1 h.auth), hmessages, hpackets]
  rfl

theorem open_of_outcome (h : Outcome native config e c (.ok () c')) (ho : Open c)
    (hversion : ¬ VersionRejected native config e c) (hstate : c.authState ≠ .disconnected) :
    c'.client.client.client.disposedValue = true ∨
      c'.authState ≠ .disconnected ∧ Open c' := by
  cases h with
  | refused _ =>
    have hclosed : Open { c with authState := .disconnected } := ⟨ho.auth, ho.messages, ho.packets⟩
    exact .inl hclosed.dispose
  | ignored state => exact (hstate state).elim
  | handshake _ _ _ _ _ replied =>
    obtain ⟨output, _, _, rfl⟩ := replied
    exact .inr ⟨nofun, ho.auth, ho.messages, ho.packets⟩
  | serviceStatus _ _ _ _ _ replied =>
    obtain ⟨output, _, _, rfl⟩ := replied
    exact .inr ⟨nofun, ho.auth, ho.messages, ho.packets⟩
  | rejected state type parsed rejected _ =>
    exact (hversion ⟨state, type, _, parsed, rejected⟩).elim
  | keyMaterial _ _ _ _ _ _ replied =>
    obtain ⟨output, _, _, rfl⟩ := replied
    exact .inr ⟨nofun, ho.auth, ho.messages, ho.packets⟩
  | ticket _ _ _ _ _ _ replied =>
    obtain ⟨output, _, _, rfl⟩ := replied
    exact .inr ⟨nofun, ho.auth, ho.messages, ho.packets⟩

/-- A reply does not depend on what is not in the message client. -/
theorem run_reply_of_client_eq {d : AuthClient} (hclient : d.client = c.client)
    (h : (reply native e plaintext).run c = .ok task c') :
    ∃ client, Replied native e c.client plaintext client ∧
      (reply native e plaintext).run d = .ok task { d with client } := by
  cases hsend : (SVFWMessageClient.sendAsync native.cipher e.iv e.write (.new plaintext) .reply
      e.message.header.messageIndex).run c.client with
  | ok task' client =>
    have hrun : (reply native e plaintext).run c = .ok task' { c with client } :=
      run_zoom_of_ok hsend
    cases h.symm.trans hrun
    obtain ⟨output, hencrypt, _, htakes, hdelivered⟩ := SVFWMessageClient.sendAsync_ok hsend
    exact ⟨client, ⟨output, hencrypt, htakes, hdelivered⟩, run_zoom_of_ok (hclient ▸ hsend)⟩
  | error ex client =>
    have hrun : (reply native e plaintext).run c = .error ex { c with client } :=
      run_zoom_of_error hsend
    cases h.symm.trans hrun

theorem service_of_versionRejected (ho : Open c) (hversion : VersionRejected native config e c)
    (hsend : (reply native e emptyStatusResponse.toByteArray).run c = .ok .completed c') :
    ∃ d, (service native config e).run c = .ok () d ∧
      d.client.client.client.disposedValue = true := by
  obtain ⟨state, type, serviceStatus, parsed, rejects⟩ := hversion
  obtain ⟨client, ⟨output, _, _, rfl⟩, hrun⟩ := run_reply_of_client_eq (c := c)
    (d := { c with playerName := serviceStatus.playerName, authState := .disconnected }) rfl hsend
  have hopen : Open { c with
      playerName := serviceStatus.playerName
      authState := .disconnected
      client := c.client.deliver (replyPacket e.message.header.messageIndex output) } :=
    ⟨ho.auth, ho.messages, ho.packets⟩
  refine ⟨_, ?_, hopen.dispose⟩
  rw [run_service_of_rejects state type parsed rejects]
  exact run_sendThenDisconnect_of_ok (c := { c with playerName := serviceStatus.playerName }) hrun

theorem awaitsWrite_eq_true (h : awaitsWrite native config e c = true) :
    VersionRejected native config e c ∧
      ∃ c', (reply native e emptyStatusResponse.toByteArray).run c = .ok .pending c' := by
  unfold awaitsWrite at h
  split at h
  · rename_i hstate
    split at h
    · rename_i serviceStatus hparsed
      obtain ⟨hrejects, hsend⟩ := Bool.and_eq_true_iff.1 h
      refine ⟨⟨hstate.1, hstate.2, serviceStatus, hparsed, Bool.or_eq_true_iff.1 hrejects⟩, ?_⟩
      split at hsend
      · rename_i c' hrun
        exact ⟨c', hrun⟩
      · cases hsend
    · cases h
  · cases h

/-- What holds of a session whose rejections are sent at once. -/
structure Undisturbed (s : AuthSession) : Prop where
  idle : s.disconnecting = false
  open_of_canReceive : s.canReceive = true →
    s.client.authState ≠ .disconnected ∧ Open s.client

theorem undisturbed_new (tcp : NetTcpClient) (encryptionCipher decryptionCipher : Cipher) :
    Undisturbed (new tcp encryptionCipher decryptionCipher) where
  idle := rfl
  open_of_canReceive _ := ⟨nofun, rfl, rfl, rfl⟩

theorem undisturbed_of_not_canReceive (hidle : s.disconnecting = false)
    (h : s.canReceive = true → False) : Undisturbed s :=
  ⟨hidle, fun hreceive => (h hreceive).elim⟩

theorem not_canReceive_of_disposed (h : s.client.client.client.client.disposedValue = true)
    (hreceive : s.canReceive = true) : False := by
  rw [canReceive, h, Bool.not_true, Bool.and_false] at hreceive
  cases hreceive

theorem Undisturbed.receive (h : Undisturbed s)
    (hguard : RejectsAtOnce native config (.receive e) s)
    (hnext : AuthSession.next native config (.receive e) s = some t) : Undisturbed t := by
  rw [AuthSession.next] at hnext
  split at hnext
  · rename_i hreceive
    obtain ⟨hstate, hopen⟩ := h.open_of_canReceive hreceive
    have hawaits : awaitsWrite native config e s.client = false := by
      rw [Bool.eq_false_iff]
      intro hawaits
      obtain ⟨hversion, c', hpending⟩ := awaitsWrite_eq_true hawaits
      obtain ⟨d, hcompleted⟩ := hguard hversion
      cases hpending.symm.trans hcompleted
    rw [hawaits, h.idle] at hnext
    by_cases hversion : VersionRejected native config e s.client
    · obtain ⟨c', hsend⟩ := hguard hversion
      obtain ⟨d, hrun, hdisposed⟩ := service_of_versionRejected hopen hversion hsend
      rw [hrun] at hnext
      cases hnext
      exact undisturbed_of_not_canReceive rfl (not_canReceive_of_disposed hdisposed)
    · cases hrun : (service native config e).run s.client with
      | ok _ client =>
        rw [hrun] at hnext
        cases hnext
        rcases open_of_outcome (service_ok hrun) hopen hversion hstate with hdisposed | hgoesOn
        · exact undisturbed_of_not_canReceive rfl (not_canReceive_of_disposed hdisposed)
        · exact ⟨rfl, fun _ => hgoesOn⟩
      | error ex client =>
        rw [hrun] at hnext
        cases hnext
        exact undisturbed_of_not_canReceive rfl nofun
  · cases hnext

/-- No step breaks the invariant if rejections are sent at once. -/
theorem Undisturbed.next {action : AuthAction} (h : Undisturbed s)
    (hguard : RejectsAtOnce native config action s)
    (hnext : AuthSession.next native config action s = some t) : Undisturbed t := by
  cases action with
  | receive e => exact h.receive hguard hnext
  | stopReceiving =>
    cases hnext
    exact undisturbed_of_not_canReceive h.idle nofun
  | queuedSend k task =>
    rw [AuthSession.next] at hnext
    split at hnext
    · cases hnext
      refine ⟨h.idle, fun hreceive => ?_⟩
      obtain ⟨hstate, hopen⟩ := h.open_of_canReceive hreceive
      exact ⟨hstate, hopen.auth, hopen.messages, hopen.packets⟩
    · cases hnext
  | disconnectSend task =>
    unfold AuthSession.next at hnext
    dsimp only at hnext
    rw [h.idle] at hnext
    cases hnext

/-- A disconnected client is never serviced in a run in which the reply to every version that is
rejected has been written when `SendAsync` returns. -/
theorem notServiced_of_rejectsAtOnce {tcp : NetTcpClient}
    {encryptionCipher decryptionCipher : Cipher}
    {actions : List AuthAction}
    (h : Trace (GuardedStepOf (AuthSession.next native config) (RejectsAtOnce native config))
      (new tcp encryptionCipher decryptionCipher) actions s) : NotServiced s := by
  have hundisturbed : Undisturbed s :=
    h.invariant (fun _ _ _ hs hstep => hs.next hstep.1 hstep.2)
      (undisturbed_new tcp encryptionCipher decryptionCipher)
  exact fun hreceive => (hundisturbed.open_of_canReceive hreceive).1

def newerConfig : AuthConfig :=
  { sampleConfig with minimumVersion := .new 0x100000001, maximumVersion := .new 0x100000001 }

/-- A request for the service status with a version that is too old. -/
def outdatedEvent (write : WriteTask) : AuthEvent :=
  { sampleEvent .getServiceStatus [0x08, 0x02, 0x12, 0x00] with write := some write }

def sampleHandshake : AuthEvent :=
  sampleEvent .requestHandshake (0x0A :: 0x10 :: List.replicate 16 0)

def sampleSession : AuthSession :=
  new (.accepted false) (.rsa ⟨false, .x931⟩) (.rsa ⟨false, .oaep⟩)

theorem notServiced_outdated : ∃ s : AuthSession, s.client.authState = .disconnected ∧
    NotServiced s := by
  have hrun : (AuthSession.next sampleNative newerConfig (.receive sampleHandshake)
      sampleSession).map (fun s => ((s.client.client.client.client.disposedValue,
        s.client.client.encryptionCipher), (AuthSession.next sampleNative newerConfig
          (.receive (outdatedEvent .completed)) s).map (·.client.authState))) =
      some ((false, .cwc ⟨List.replicate 16 0⟩), some .disconnected) := by
    decide +kernel
  obtain ⟨s, hs, hfields⟩ := Option.map_eq_some_iff.1 hrun
  obtain ⟨hclient, hnext⟩ := Prod.mk.inj hfields
  obtain ⟨hconnected, hcipher⟩ := Prod.mk.inj hclient
  obtain ⟨t, ht, hstate⟩ := Option.map_eq_some_iff.1 hnext
  have hsend : SVFWMessageClient.CanSend s.client.client := ⟨hconnected, fun _ => ⟨_, hcipher⟩⟩
  have hshort : emptyStatusResponse.toByteArray.length + 69 ≤ maxArrayLength := by decide
  obtain ⟨client, _, hreply⟩ := run_reply (e := outdatedEvent .completed) hsend
    sampleNative_good rfl hshort
  refine ⟨t, hstate, notServiced_of_rejectsAtOnce (.cons ⟨?_, hs⟩ (.cons ⟨?_, ht⟩ .nil))⟩
  · rintro ⟨hwaiting, _⟩
    cases hwaiting
  · exact fun _ => ⟨_, hreply⟩

/-- The receive loop goes on while the reply to a version that was rejected is being written. -/
theorem disconnected_client_serviced : ¬ ∀ (native : AuthNative) (config : AuthConfig)
    (tcp : NetTcpClient) (encryptionCipher decryptionCipher : Cipher) (actions : List AuthAction)
    (s : AuthSession), Trace (StepOf (AuthSession.next native config))
      (new tcp encryptionCipher decryptionCipher) actions s → NotServiced s := by
  intro h
  have hrun : (runActions (AuthSession.next sampleNative newerConfig)
      [.receive sampleHandshake, .receive (outdatedEvent .pending)] sampleSession).map
      (fun s => (s.canReceive, s.client.authState)) = some (true, .disconnected) := by
    decide +kernel
  obtain ⟨s, hs, hfields⟩ := Option.map_eq_some_iff.1 hrun
  obtain ⟨hreceive, hstate⟩ := Prod.mk.inj hfields
  exact h sampleNative newerConfig _ _ _ _ s (trace_of_runActions hs) hreceive hstate

end AuthSession

end AcOpenServer
