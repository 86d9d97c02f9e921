import AcOpenServer.SVFW.Replies
import AcOpenServer.SVFW.RequestMessage

namespace AcOpenServer
open Library
set_option autoImplicit true

structure LoginConfig where
  authPort : UInt32
  deriving DecidableEq, Repr

structure LoginClient where
  client : SVFWMessageClient
  sendQueue : List WriteTask
  disposedValue : Bool
  deriving DecidableEq, Repr

/-- The libraries the client calls: those of the ciphers and the generated parser. -/
structure LoginNative where
  cipher : CipherNative
  parseRequestQueryLoginServerInfo : List UInt8 → Except String RequestQueryLoginServerInfo

/-- A message and what else a call of `Service` takes from its surroundings: random bytes and
what the stream does with a write. -/
structure LoginEvent where
  message : SVFWMessage
  iv : Block 11
  write : Option WriteTask

namespace LoginClient

def new (client : SVFWMessageClient) : LoginClient := ⟨client, [], false⟩

/-- A client on a connection that was just accepted. -/
def accepted (tcp : NetTcpClient) (encryptionCipher decryptionCipher : Cipher) : LoginClient :=
  new (.new (.new tcp) encryptionCipher decryptionCipher)

def onClient (m : EStateM Exn SVFWMessageClient α) : EStateM Exn LoginClient α :=
  zoom (·.client) (fun client c => { c with client }) m

def dispose (c : LoginClient) : LoginClient :=
  if c.disposedValue then c
  else { client := c.client.dispose, sendQueue := [], disposedValue := true }

def disconnect : EStateM Exn LoginClient Unit := modify dispose

variable (native : LoginNative) (config : LoginConfig)

def loginResponse : RequestQueryLoginServerInfoResponse := ⟨config.authPort⟩

def reply (e : LoginEvent) : EStateM Exn SVFWMessageClient WriteTask :=
  SVFWMessageClient.sendAsync native.cipher e.iv e.write (.new (loginResponse config).toByteArray)
    .reply e.message.header.messageIndex

def service (e : LoginEvent) : EStateM Exn LoginClient Unit := do
  if e.message.header.messageType ≠ .requestQueryLoginServerInfo then
    disconnect
  else
    match native.parseRequestQueryLoginServerInfo e.message.payload with
    | .error _ => disconnect
    | .ok _ =>
      let task ← onClient (reply native config e)
      modify fun c => { c with sendQueue := c.sendQueue ++ [task] }

/-- The request is answered with a login response. -/
def Answers (native : LoginNative) (e : LoginEvent) : Prop :=
  e.message.header.messageType = .requestQueryLoginServerInfo ∧
    ∃ request, native.parseRequestQueryLoginServerInfo e.message.payload = .ok request

variable {native : LoginNative} {config : LoginConfig} {e : LoginEvent} {c c' : LoginClient}
  {indices : List UInt32}

instance : Decidable (Answers native e) :=
  match h : native.parseRequestQueryLoginServerInfo e.message.payload with
  | .ok request => decidable_of_iff
      (e.message.header.messageType = .requestQueryLoginServerInfo)
      ⟨fun htype => ⟨htype, request, h⟩, And.left⟩
  | .error error => isFalse fun hanswers => by
      obtain ⟨_, request, hparsed⟩ := hanswers
      cases h.symm.trans hparsed

theorem run_service_of_not_answers (h : ¬ Answers native e) :
    (service native config e).run c = .ok () (dispose c) := by
  unfold service
  by_cases htype : e.message.header.messageType = .requestQueryLoginServerInfo
  · rw [if_neg (not_not_intro htype)]
    cases hparsed : native.parseRequestQueryLoginServerInfo e.message.payload with
    | error _ => rfl
    | ok request => exact (h ⟨htype, request, hparsed⟩).elim
  · rw [if_pos htype]
    rfl

theorem run_service_of_answers (h : Answers native e) : (service native config e).run c =
    match (reply native config e).run c.client with
    | .ok task client => .ok () { c with client, sendQueue := c.sendQueue ++ [task] }
    | .error ex client => .error ex { c with client } := by
  obtain ⟨htype, request, hparsed⟩ := h
  rw [service, if_neg (not_not_intro htype), hparsed]
  dsimp only
  cases hrun : (reply native config e).run c.client with
  | ok task client =>
    have hzoom : (onClient (reply native config e)).run c = .ok task { c with client } :=
      run_zoom_of_ok hrun
    rw [run_bind_of_ok _ hzoom]
    rfl
  | error ex client =>
    have hzoom : (onClient (reply native config e)).run c = .error ex { c with client } :=
      run_zoom_of_error hrun
    exact run_bind_of_error _ hzoom

open SVFWMessageClient

theorem hasReplied_service (hc : HasReplied indices c.client) (h : Answers native e)
    (hrun : (service native config e).run c = .ok () c') :
    HasReplied (indices ++ [e.message.header.messageIndex]) c'.client := by
  rw [run_service_of_answers h] at hrun
  cases hreply : (reply native config e).run c.client with
  | ok task client =>
    rw [hreply] at hrun
    cases hrun
    exact hc.sendAsync_ok hreply
  | error ex client =>
    rw [hreply] at hrun
    cases hrun

theorem hasReplied_dispose (hc : HasReplied indices c.client) :
    HasReplied indices (dispose c).client := by
  unfold dispose
  split
  · exact hc
  · exact HasReplied.dispose hc

theorem hasReplied_service_of_error (hc : HasReplied indices c.client)
    (hrun : (service native config e).run c = .error ex c') :
    HasReplied indices c'.client ∨
      HasReplied (indices ++ [e.message.header.messageIndex]) c'.client := by
  by_cases h : Answers native e
  · rw [run_service_of_answers h] at hrun
    cases hreply : (reply native config e).run c.client with
    | ok task client =>
      rw [hreply] at hrun
      cases hrun
    | error ex client =>
      rw [hreply] at hrun
      cases hrun
      exact hc.sendAsync_error hreply
  · rw [run_service_of_not_answers h] at hrun
    cases hrun

end LoginClient

end AcOpenServer
