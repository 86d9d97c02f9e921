import AcOpenServer.Auth.Session
import AcOpenServer.Services.Correspondence
import AcOpenServer.Services.SendLoop

namespace AcOpenServer
open Library
set_option autoImplicit true

namespace AuthClient

/-- The payload of the reply can be encrypted, the connection is open and its `WriteAsync` returns
this task. -/
def Sends (native : AuthNative) (e : AuthEvent) (client : SVFWMessageClient)
    (plaintext : List UInt8) (task : WriteTask) : Prop :=
  e.write = some task ∧ ∃ output, Encrypts native e client plaintext output ∧
    client.Takes (replyPacket e.message.header.messageIndex output)

/-- The message is the next one of the protocol, and its reply can be sent. -/
inductive Queues (native : AuthNative) (config : AuthConfig) (e : AuthEvent) (c : AuthClient) :
    Prop
  | handshake (state : c.authState = .waitingForHandshakeRequest)
      (type : e.message.header.messageType = .requestHandshake)
      (parsed : native.parseRequestHandshake e.message.payload = .ok handshake)
      (keyed : (CWC.new native.cipher.cwc handshake.aesCwcKey).result = .ok key)
      (sends : Sends native e (c.keyedClient key) (handshakeResponse e) task)
  | serviceStatus (state : c.authState = .waitingForServiceStatusRequest)
      (type : e.message.header.messageType = .getServiceStatus)
      (parsed : native.parseGetServiceStatus e.message.payload = .ok serviceStatus)
      (admitted : ¬ Rejects config serviceStatus)
      (sends : Sends native e c.client (serviceStatusResponse serviceStatus).toByteArray task)
  | keyMaterial (state : c.authState = .waitingForKeyMaterial)
      (type : e.message.header.messageType = .keyMaterial)
      (long : 16 ≤ e.message.payload.length)
      (keyed : (CWC.new native.cipher.cwc (generatedKey e)).result = .ok key)
      (sends : Sends native e c.client (generatedKey e) task)
  | ticket (state : c.authState = .waitingForTicket)
      (parsed : (Ticket.tryParse ⟨e.message.payload, e.beyond⟩).result = .ok (.ok ticket))
      (presentable : Presentable e ticket) (long : 16 ≤ ticket.cookie.length)
      (same : c.gameCwcKeyBytes = ticket.cookie.take 16)
      (sends : Sends native e c.client (serverInfoBytes config c.client.isPrivateNetwork) task)

/-- The version is rejected with a reply that cannot be sent, or whose write fails at once. -/
def RejectionFails (native : AuthNative) (config : AuthConfig) (e : AuthEvent) (c : AuthClient) :
    Prop :=
  VersionRejected native config e c ∧
    ∀ task, Sends native e c.client emptyStatusResponse.toByteArray task → task = .faulted

/-- The task of `SendThenDisconnect` as it stands when `Service` drops it; an exception in front
of its `await` is in the task, too. -/
def rejectionTask (native : AuthNative) (config : AuthConfig) (e : AuthEvent) (c : AuthClient) :
    Option WriteTask :=
  if c.authState = .waitingForServiceStatusRequest ∧
      e.message.header.messageType = .getServiceStatus then
    match native.parseGetServiceStatus e.message.payload with
    | .ok serviceStatus =>
      if (AcvAppVersion.new serviceStatus.appVersion).lt config.minimumVersion ||
          (AcvAppVersion.new serviceStatus.appVersion).gt config.maximumVersion then
        match (reply native e emptyStatusResponse.toByteArray).run c with
        | .ok task _ => some task
        | .error _ _ => some .faulted
      else none
    | .error _ => none
  else none

variable {native : AuthNative} {config : AuthConfig} {e : AuthEvent} {c c' : AuthClient}

theorem Replied.sends {client client' : SVFWMessageClient} (hwrite : e.write = some task)
    (h : Replied native e client plaintext client') : Sends native e client plaintext task := by
  obtain ⟨output, hencrypts, htakes, _⟩ := h
  exact ⟨hwrite, output, hencrypts, htakes⟩

/-- A reply returns a task exactly when it can be sent. -/
theorem reply_ok_iff {plaintext : List UInt8} : (∃ c', (reply native e plaintext).run c =
    .ok task c') ↔ Sends native e c.client plaintext task := by
  constructor
  · rintro ⟨c', hrun⟩
    rcases reply_cases native e plaintext c with ⟨task', client, hwrite, hreplied, hok⟩ |
      ⟨ex, client, _, herror⟩
    · cases hok.symm.trans hrun
      exact hreplied.sends hwrite
    · cases herror.symm.trans hrun
  · rintro ⟨hwrite, output, hencrypts, htakes⟩
    have hsend : (SVFWMessageClient.sendAsync native.cipher e.iv (some task) (.new plaintext)
        .reply e.message.header.messageIndex).run c.client = .ok task
          (c.client.deliver (replyPacket e.message.header.messageIndex output)) :=
      SVFWMessageClient.run_sendAsync_of_takes task hencrypts htakes
    refine ⟨{ c with
      client := c.client.deliver (replyPacket e.message.header.messageIndex output) }, ?_⟩
    rw [reply, hwrite]
    exact run_zoom_of_ok hsend

theorem rejectionTask_of_versionRejected (h : VersionRejected native config e c) :
    rejectionTask native config e c =
      match (reply native e emptyStatusResponse.toByteArray).run c with
      | .ok task _ => some task
      | .error _ _ => some .faulted := by
  obtain ⟨state, type, serviceStatus, parsed, rejects⟩ := h
  rw [rejectionTask, if_pos ⟨state, type⟩, parsed]
  dsimp only
  rw [if_pos (Bool.or_eq_true_iff.2 rejects)]

theorem versionRejected_of_rejectionTask (h : rejectionTask native config e c = some task) :
    VersionRejected native config e c := by
  unfold rejectionTask at h
  split at h
  · rename_i hstate
    split at h
    · rename_i serviceStatus hparsed
      split at h
      · rename_i hrejects
        exact ⟨hstate.1, hstate.2, serviceStatus, hparsed, Bool.or_eq_true_iff.1 hrejects⟩
      · cases h
    · cases h
  · cases h

theorem rejectionTask_iff :
    rejectionTask native config e c = some .faulted ↔ RejectionFails native config e c := by
  constructor
  · intro h
    have hversion := versionRejected_of_rejectionTask h
    refine ⟨hversion, fun task hsends => ?_⟩
    obtain ⟨c', hrun⟩ := reply_ok_iff.2 hsends
    rw [rejectionTask_of_versionRejected hversion, hrun] at h
    exact Option.some.inj h
  · rintro ⟨hversion, hfails⟩
    rw [rejectionTask_of_versionRejected hversion]
    cases hrun : (reply native e emptyStatusResponse.toByteArray).run c with
    | ok task c' => exact congrArg some (hfails task (reply_ok_iff.1 ⟨c', hrun⟩))
    | error ex c' => rfl

theorem disposedValue_dispose (c : AuthClient) : (dispose c).disposedValue = true := by
  unfold dispose
  split
  · rename_i hdisposed
    exact hdisposed
  · rfl

theorem length_sendQueue_dispose (c : AuthClient) :
    (dispose c).sendQueue.length ≤ c.sendQueue.length := by
  unfold dispose
  split
  · exact Nat.le_refl _
  · exact Nat.zero_le _

/-- The client when a call has returned or thrown. -/
def after : EStateM.Result Exn AuthClient Unit → AuthClient
  | .ok _ c => c
  | .error _ c => c

theorem serviced_of_outcome {r : EStateM.Result Exn AuthClient Unit}
    (h : Outcome native config e c r) :
    Serviced (·.disposedValue) (·.sendQueue) (Queues native config e c) c (after r) := by
  cases h with
  | refused refused =>
    exact .disposed (disposedValue_dispose _)
      (length_sendQueue_dispose { c with authState := .disconnected })
  | ignored state => exact .kept rfl rfl
  | threw complete disconnected => exact .kept rfl rfl
  | handshake state type parsed keyed write replied =>
    exact .queued _ (.handshake state type parsed keyed (replied.sends write)) rfl rfl
  | handshakeThrew state type parsed keyed attempted => exact .kept rfl rfl
  | serviceStatus state type parsed admitted write replied =>
    exact .queued _ (.serviceStatus state type parsed admitted (replied.sends write)) rfl rfl
  | serviceStatusThrew state type parsed admitted attempted => exact .kept rfl rfl
  | rejected state type parsed rejected dropped =>
    cases dropped with
    | threw attempted => exact .kept rfl rfl
    | completed write replied =>
      exact .disposed (disposedValue_dispose _) (length_sendQueue_dispose _)
    | unfinished write replied => exact .kept rfl rfl
  | keyMaterial state type long stored keyed write replied =>
    exact .queued _ (.keyMaterial state type long keyed (replied.sends write)) rfl rfl
  | keyMaterialThrew state type attempted => exact .kept rfl rfl
  | ticket state parsed presentable long same write replied =>
    exact .queued _ (.ticket state parsed presentable long same (replied.sends write)) rfl rfl
  | ticketThrew state parsed presentable long same attempted => exact .kept rfl rfl

theorem serviced_ok (h : (service native config e).run c = .ok () c') :
    Serviced (·.disposedValue) (·.sendQueue) (Queues native config e c) c c' :=
  serviced_of_outcome (service_ok h)

theorem serviced_error (h : (service native config e).run c = .error ex c') :
    Serviced (·.disposedValue) (·.sendQueue) (Queues native config e c) c c' :=
  serviced_of_outcome (service_error h)

/-- The client as its service starts it. -/
def queueing (native : AuthNative) (config : AuthConfig) : QueueingClient AuthEvent AuthClient where
  service := service native config
  dispose := dispose
  disposedValue := (·.disposedValue)
  sendQueue := (·.sendQueue)
  setSendQueue := fun sendQueue c => { c with sendQueue }
  drops := rejectionTask native config
  Queues := Queues native config
  FailsUnseen := RejectionFails native config
  sendQueue_set := fun _ _ => rfl
  disposedValue_set := fun _ _ => rfl
  disposed_dispose := disposedValue_dispose
  drops_iff := rejectionTask_iff
  serviced_ok := serviced_ok
  serviced_error := serviced_error

end AuthClient

namespace LoginClient

/-- The request is one for the login server, the payload of its reply can be encrypted, the
connection is open and its `WriteAsync` returns a task. -/
structure Queues (native : LoginNative) (config : LoginConfig) (e : LoginEvent) (c : LoginClient) :
    Prop where
  answers : Answers native e
  write : ∃ task, e.write = some task
  sends : ∃ output, (SVFWMessageClient.encryptPayload native.cipher e.iv c.client
    (loginResponse config).toByteArray).result = .ok output ∧
      c.client.Takes (SVFWMessageClient.envelope .reply e.message.header.messageIndex
        (.new (loginResponse config).toByteArray) output)

variable {native : LoginNative} {config : LoginConfig} {e : LoginEvent} {c c' : LoginClient}

theorem disposedValue_dispose (c : LoginClient) : (dispose c).disposedValue = true := by
  unfold dispose
  split
  · rename_i hdisposed
    exact hdisposed
  · rfl

theorem length_sendQueue_dispose (c : LoginClient) :
    (dispose c).sendQueue.length ≤ c.sendQueue.length := by
  unfold dispose
  split
  · exact Nat.le_refl _
  · exact Nat.zero_le _

theorem serviced_ok (h : (service native config e).run c = .ok () c') :
    Serviced (·.disposedValue) (·.sendQueue) (Queues native config e c) c c' := by
  by_cases hanswers : Answers native e
  · rw [run_service_of_answers hanswers] at h
    cases hreply : (reply native config e).run c.client with
    | ok task client =>
      rw [hreply] at h
      cases h
      obtain ⟨output, hencrypts, hwrite, htakes, _⟩ := SVFWMessageClient.sendAsync_ok hreply
      exact .queued task ⟨hanswers, ⟨task, hwrite⟩, output, hencrypts, htakes⟩ rfl rfl
    | error ex client =>
      rw [hreply] at h
      cases h
  · rw [run_service_of_not_answers hanswers] at h
    cases h
    exact .disposed (disposedValue_dispose c) (length_sendQueue_dispose c)

theorem serviced_error (h : (service native config e).run c = .error ex c') :
    Serviced (·.disposedValue) (·.sendQueue) (Queues native config e c) c c' := by
  by_cases hanswers : Answers native e
  · rw [run_service_of_answers hanswers] at h
    cases hreply : (reply native config e).run c.client with
    | ok task client =>
      rw [hreply] at h
      cases h
    | error ex client =>
      rw [hreply] at h
      cases h
      exact .kept rfl rfl
  · rw [run_service_of_not_answers hanswers] at h
    cases h

/-- The client as its service starts it. -/
def queueing (native : LoginNative) (config : LoginConfig) :
    QueueingClient LoginEvent LoginClient where
  service := service native config
  dispose := dispose
  disposedValue := (·.disposedValue)
  sendQueue := (·.sendQueue)
  setSendQueue := fun sendQueue c => { c with sendQueue }
  drops _ _ := none
  Queues := Queues native config
  FailsUnseen _ _ := False
  sendQueue_set := fun _ _ => rfl
  disposedValue_set := fun _ _ => rfl
  disposed_dispose := disposedValue_dispose
  drops_iff := iff_of_false nofun id
  serviced_ok := serviced_ok
  serviced_error := serviced_error

end LoginClient

namespace SendSession

/-- One message is serviced before `SendAsync` is called, and another one while it awaits the
first reply. -/
def sampleActions (e e' : ι) : List (SendAction ι) :=
  [.receive e, .startSend, .dequeue, .receive e', .resume, .dequeue, .resume, .dequeue]

end SendSession

end AcOpenServer
