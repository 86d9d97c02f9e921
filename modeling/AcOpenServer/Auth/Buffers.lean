import AcOpenServer.Library.Heap
import AcOpenServer.Library.Simulation
import AcOpenServer.Auth.GameKey

namespace AcOpenServer
open Library
set_option autoImplicit true

/-- An `AuthClient` with the arrays it makes. `gameCwcKeyBytes` is a reference to one of them,
and the native library encrypts the array of a reply in place. -/
structure AuthObject where
  heap : Heap UInt8
  client : SVFWMessageClient
  sendQueue : List WriteTask
  gameCwcKeyBytes : Nat
  authState : AuthClientState
  playerName : String
  gameCwcKey : Option CWC
  disposedValue : Bool
  deriving DecidableEq, Repr

namespace AuthObject

/-- A client on a connection that was just accepted. -/
def accepted (tcp : NetTcpClient) (encryptionCipher decryptionCipher : Cipher) : AuthObject where
  heap := ⟨[List.replicate 16 0]⟩
  client := .new (.new tcp) encryptionCipher decryptionCipher
  sendQueue := []
  gameCwcKeyBytes := 0
  authState := .waitingForHandshakeRequest
  playerName := ""
  gameCwcKey := none
  disposedValue := false

def allocate (bytes : List UInt8) : EStateM Exn AuthObject Nat := do
  let r := (← get).heap.next
  modify fun o => { o with heap := o.heap.alloc bytes }
  return r

/-- `Array.Copy` to an array of the client. -/
def copyTo (source : List UInt8) (sourceIndex destination destinationIndex length : Nat) :
    EStateM Exn AuthObject Unit := do
  let bytes ← (arrayCopy source sourceIndex ((← get).heap.get destination) destinationIndex
    length).toAction
  modify fun o => { o with heap := o.heap.set destination bytes }

def onClient (m : EStateM Exn SVFWMessageClient α) : EStateM Exn AuthObject α :=
  zoom (·.client) (fun client o => { o with client }) m

def dispose (o : AuthObject) : AuthObject :=
  if o.disposedValue then o
  else { o with client := o.client.dispose, sendQueue := [], disposedValue := true }

def disconnect : EStateM Exn AuthObject Unit :=
  modify fun o => dispose { o with authState := .disconnected }

def enqueue (task : WriteTask) : EStateM Exn AuthObject Unit :=
  modify fun o => { o with sendQueue := o.sendQueue ++ [task] }

/-- What a send leaves in the array of the payload. -/
def overwritten (native : CipherNative) (iv : Block 11) (client : SVFWMessageClient)
    (payload : List UInt8) : List UInt8 :=
  if client.cipherEnabled then
    match client.encryptionCipher with
    | .cwc key =>
      (key.encrypt native.cwc iv.1 iv.1 payload (List.replicate CWCCipher.tagLength 0)).2.1
    | .rsa _ => payload
  else payload

variable (native : AuthNative) (config : AuthConfig)

/-- `Client.SendAsync` of a reply with this array as its payload. -/
def reply (e : AuthEvent) (payload : Nat) : EStateM Exn AuthObject WriteTask := do
  let o ← get
  let bytes := o.heap.get payload
  modify fun o => { o with
    heap := o.heap.set payload (overwritten native.cipher e.iv o.client bytes) }
  onClient (SVFWMessageClient.sendAsync native.cipher e.iv e.write (.new bytes) .reply
    e.message.header.messageIndex)

def sendThenDisconnect (e : AuthEvent) (payload : List UInt8) :
    EStateM Exn AuthObject Unit := do
  modify fun o => { o with authState := .disconnected }
  ignoreErrors do
    let payload ← allocate payload
    match ← reply native e payload with
    | .completed => modify dispose
    | .pending => pure ()
    | .faulted => throw .io

def handleWaitingForHandshakeRequest (e : AuthEvent) : EStateM Exn AuthObject Unit := do
  if e.message.header.messageType ≠ .requestHandshake then
    disconnect
  else
    match native.parseRequestHandshake e.message.payload with
    | .error _ => disconnect
    | .ok handshake =>
      let key ← (CWC.new native.cipher.cwc handshake.aesCwcKey).toAction
      modify fun o => { o with client := o.client.setCipher (.cwc key) (.cwc key) }
      modify fun o => { o with client := { o.client with cipherEnabled := false } }
      let responseBuffer ← allocate (e.responseBytes.1.take 11 ++ List.replicate 16 0)
      enqueue (← reply native e responseBuffer)
      modify fun o => { o with
        client := { o.client with cipherEnabled := true }
        authState := .waitingForServiceStatusRequest }

def handleWaitingForServiceStatusRequest (e : AuthEvent) : EStateM Exn AuthObject Unit := do
  if e.message.header.messageType ≠ .getServiceStatus then
    disconnect
  else
    match native.parseGetServiceStatus e.message.payload with
    | .error _ => disconnect
    | .ok serviceStatus =>
      modify fun o => { o with playerName := serviceStatus.playerName }
      let userAppVersion := AcvAppVersion.new serviceStatus.appVersion
      let belowMinimumVersion := userAppVersion.lt config.minimumVersion
      let aboveMaximumVersion := userAppVersion.gt config.maximumVersion
      if belowMinimumVersion || aboveMaximumVersion then
        sendThenDisconnect native e AuthClient.emptyStatusResponse.toByteArray
      else
        let serviceStatusResponse : GetServiceStatusResponse :=
          ⟨2, "", false, serviceStatus.appVersion.toUInt32.toInt32⟩
        let payload ← allocate serviceStatusResponse.toByteArray
        enqueue (← reply native e payload)
        modify fun o => { o with authState := .waitingForKeyMaterial }

def handleWaitingForKeyMaterial (e : AuthEvent) : EStateM Exn AuthObject Unit := do
  if e.message.header.messageType ≠ .keyMaterial then
    disconnect
  else
    let cwcKeyBytes ← allocate e.keyBytes.1
    copyTo e.message.payload 8 cwcKeyBytes 0 8
    let o ← get
    copyTo (o.heap.get cwcKeyBytes) 0 o.gameCwcKeyBytes 0 (o.heap.get cwcKeyBytes).length
    let gameCwcKey ← (CWC.new native.cipher.cwc ((← get).heap.get cwcKeyBytes)).toAction
    modify fun o => { o with gameCwcKey := some gameCwcKey }
    enqueue (← reply native e cwcKeyBytes)
    modify fun o => { o with authState := .waitingForTicket }

def handleWaitingForTicket (e : AuthEvent) : EStateM Exn AuthObject Unit := do
  match ← (Ticket.tryParse ⟨e.message.payload, e.beyond⟩).toAction with
  | .error _ => disconnect
  | .ok ticket =>
    if ticket.notIssuedYet e.issuedNow then
      disconnect
    else if ticket.isExpired e.expiredNow then
      disconnect
    else
      let titleID ← ticket.getServiceIdString.toAction
      if titleID ∉ AuthClient.knownTitleIDs then
        disconnect
      else
        let ticketCwcBytes ← ((⟨ticket.cookie, fun _ => 0⟩ : Span).slice 0 16).toAction
        let o ← get
        if o.heap.get o.gameCwcKeyBytes ≠ ticketCwcBytes then
          disconnect
        else
          let cleared := List.replicate (o.heap.get o.gameCwcKeyBytes).length 0
          modify fun o => { o with heap := o.heap.set o.gameCwcKeyBytes cleared }
          let serverInfo :=
            (AuthClient.serverInfo config (← get).client.isPrivateNetwork).swapEndian
          let serverInfoBytes ←
            (BinaryBufferWriter.write (List.replicate 56 0) 0 serverInfo).toAction
          let payload ← allocate serverInfoBytes
          enqueue (← reply native e payload)
          modify fun o => { o with authState := .complete }

def service (e : AuthEvent) : EStateM Exn AuthObject Unit := do
  match (← get).authState with
  | .waitingForHandshakeRequest => handleWaitingForHandshakeRequest native e
  | .waitingForServiceStatusRequest => handleWaitingForServiceStatusRequest native config e
  | .waitingForKeyMaterial => handleWaitingForKeyMaterial native e
  | .waitingForTicket => handleWaitingForTicket native config e
  | .complete => disconnect
  | .disconnected => return

def view (o : AuthObject) : AuthClient where
  client := o.client
  sendQueue := o.sendQueue
  gameCwcKeyBytes := o.heap.get o.gameCwcKeyBytes
  authState := o.authState
  playerName := o.playerName
  gameCwcKey := o.gameCwcKey
  disposedValue := o.disposedValue

def Allocated (o : AuthObject) : Prop := o.gameCwcKeyBytes < o.heap.next

/-- An array of the client other than the one of its key. -/
structure Holds (r : Nat) (bytes : List UInt8) (o : AuthObject) : Prop where
  allocated : Allocated o
  lt : r < o.heap.next
  ne : r ≠ o.gameCwcKeyBytes
  get_eq : o.heap.get r = bytes

variable {native : AuthNative} {config : AuthConfig} {e : AuthEvent} {o : AuthObject}
  {P : AuthObject → Prop}

theorem view_dispose (o : AuthObject) : view (dispose o) = (view o).dispose := by
  unfold dispose AuthClient.dispose
  change view (if o.disposedValue = true then _ else _) = if o.disposedValue = true then _ else _
  split
  · rfl
  · rfl

theorem allocated_dispose (h : Allocated o) : Allocated (dispose o) := by
  unfold dispose
  split
  · exact h
  · exact h

theorem simulates_disconnect :
    Simulates view Allocated Allocated (fun _ _ => Allocated) disconnect AuthClient.disconnect :=
  simulates_modify (fun _ _ => view_dispose _) fun _ h => allocated_dispose h

theorem run_allocate (bytes : List UInt8) (h : Allocated o) :
    ∃ r o', (allocate bytes).run o = .ok r o' ∧ view o' = view o ∧ Holds r bytes o' := by
  refine ⟨o.heap.next, { o with heap := o.heap.alloc bytes }, rfl, ?_, ?_, ?_, ?_, ?_⟩
  · rw [view, Heap.get_alloc_of_lt h]
    rfl
  · exact lt_trans h (by rw [Heap.next_alloc]; omega)
  · rw [Heap.next_alloc]
    omega
  · exact (Nat.ne_of_gt h)
  · exact Heap.get_alloc_next bytes

theorem view_set (h : Holds r bytes o) (bytes' : List UInt8) :
    view { o with heap := o.heap.set r bytes' } = view o := by
  rw [view, Heap.get_set_of_ne h.ne.symm]
  rfl

theorem Holds.set (h : Holds r bytes o) (bytes' : List UInt8) :
    Holds r bytes' { o with heap := o.heap.set r bytes' } where
  allocated := lt_of_lt_of_eq h.allocated (Heap.next_set r bytes').symm
  lt := lt_of_lt_of_eq h.lt (Heap.next_set r bytes').symm
  ne := h.ne
  get_eq := Heap.get_set_self h.lt bytes'

theorem simulates_onClient (m : EStateM Exn SVFWMessageClient α) :
    Simulates view Allocated Allocated (fun a b o => a = b ∧ Allocated o) (onClient m)
      (AuthClient.onClient m) := by
  apply simulates_zoom
  · exact fun _ => rfl
  · exact fun _ _ => rfl
  · exact fun _ _ h => h
  · exact fun _ h => h

theorem simulates_reply (native : AuthNative) (e : AuthEvent) (r : Nat) (bytes : List UInt8) :
    Simulates view Allocated (Holds r bytes) (fun task task' o => task = task' ∧ Allocated o)
      (reply native e r) (AuthClient.reply native e bytes) := by
  intro o ho
  have hget := ho.get_eq
  have hwritten := ho.set (overwritten native.cipher e.iv o.client bytes)
  have hreply : (reply native e r).run o = (onClient (SVFWMessageClient.sendAsync native.cipher
      e.iv e.write (.new bytes) .reply e.message.header.messageIndex)).run
        { o with heap := o.heap.set r (overwritten native.cipher e.iv o.client bytes) } := by
    rw [reply, run_get_bind, run_modify_bind, hget]
  rw [hreply, ← view_set ho (overwritten native.cipher e.iv o.client bytes)]
  exact simulates_onClient _ _ hwritten.allocated

theorem simulates_enqueue_reply (native : AuthNative) (e : AuthEvent) (r : Nat)
    (bytes : List UInt8) {g : AuthObject → AuthObject} {g' : AuthClient → AuthClient}
    (hview : ∀ o, view (g o) = g' (view o)) (hg : ∀ o, Allocated o → Allocated (g o)) :
    Simulates view Allocated (Holds r bytes) (fun _ _ => Allocated)
      (do
        enqueue (← reply native e r)
        modify g)
      (do
        AuthClient.enqueue (← AuthClient.reply native e bytes)
        modify g') := by
  apply (simulates_reply native e r bytes).bind_same
  intro task
  apply Simulates.bind (Q := fun _ _ => Allocated)
  · exact simulates_modify (fun _ _ => rfl) fun _ h => h
  · intro _ _
    exact simulates_modify (fun o _ => hview o) hg

theorem simulates_sendThenDisconnect (native : AuthNative) (e : AuthEvent)
    (payload : List UInt8) : Simulates view Allocated Allocated (fun _ _ => Allocated)
      (sendThenDisconnect native e payload) (AuthClient.sendThenDisconnect native e payload) := by
  apply Simulates.bind (Q := fun _ _ => Allocated)
  · exact simulates_modify (fun _ _ => rfl) fun _ h => h
  · intro _ _
    apply Simulates.ignoreErrors
    · apply Simulates.bind_left fun o h => run_allocate payload h
      intro r
      apply (simulates_reply native e r payload).bind_same
      intro task
      cases task with
      | completed => exact simulates_modify (fun o _ => view_dispose o) fun _ => allocated_dispose
      | pending => exact simulates_pure fun _ h => h
      | faulted => exact simulates_throw _ fun _ h => h
    · exact fun _ h => h

theorem simulates_handleWaitingForHandshakeRequest (native : AuthNative) (e : AuthEvent) :
    Simulates view Allocated Allocated (fun _ _ => Allocated)
      (handleWaitingForHandshakeRequest native e)
      (AuthClient.handleWaitingForHandshakeRequest native e) := by
  unfold handleWaitingForHandshakeRequest AuthClient.handleWaitingForHandshakeRequest
  split
  · exact simulates_disconnect
  · cases native.parseRequestHandshake e.message.payload with
    | error error => exact simulates_disconnect
    | ok handshake =>
      apply (simulates_toAction _ fun _ h => h).bind_same
      intro key
      apply Simulates.bind (Q := fun _ _ => Allocated)
      · exact simulates_modify (fun _ _ => rfl) fun _ h => h
      · intro _ _
        apply Simulates.bind (Q := fun _ _ => Allocated)
        · exact simulates_modify (fun _ _ => rfl) fun _ h => h
        · intro _ _
          apply Simulates.bind_left fun o h => run_allocate _ h
          intro r
          exact simulates_enqueue_reply native e r _ (fun _ => rfl) fun _ h => h

theorem simulates_handleWaitingForServiceStatusRequest (native : AuthNative)
    (config : AuthConfig) (e : AuthEvent) :
    Simulates view Allocated Allocated (fun _ _ => Allocated)
      (handleWaitingForServiceStatusRequest native config e)
      (AuthClient.handleWaitingForServiceStatusRequest native config e) := by
  unfold handleWaitingForServiceStatusRequest AuthClient.handleWaitingForServiceStatusRequest
  split
  · exact simulates_disconnect
  · cases native.parseGetServiceStatus e.message.payload with
    | error error => exact simulates_disconnect
    | ok serviceStatus =>
      apply Simulates.bind (Q := fun _ _ => Allocated)
      · exact simulates_modify (fun _ _ => rfl) fun _ h => h
      · intro _ _
        dsimp only
        split
        · exact simulates_sendThenDisconnect native e _
        · apply Simulates.bind_left fun o h => run_allocate _ h
          intro r
          exact simulates_enqueue_reply native e r _ (fun _ => rfl) fun _ h => h

theorem simulates_copyTo (source bytes : List UInt8) (i r j n : Nat) :
    Simulates view Allocated (Holds r bytes) (fun _ bytes' => Holds r bytes')
      (copyTo source i r j n) (arrayCopy source i bytes j n).toAction := by
  apply Simulates.get_left
  intro o ho
  rw [ho.get_eq]
  rintro o rfl
  cases hcopy : (arrayCopy source i bytes j n).result with
  | ok bytes' =>
    refine .inl ⟨⟨⟩, bytes', _, run_bind_of_ok _ (Traced.run_toAction_of_ok hcopy o), ?_,
      ho.set bytes'⟩
    rw [view_set ho]
    exact Traced.run_toAction_of_ok hcopy _
  | error e =>
    exact .inr ⟨e, o, run_bind_of_error _ (Traced.run_toAction_of_error hcopy o),
      Traced.run_toAction_of_error hcopy _, ho.allocated⟩

theorem view_set_key (h : Allocated o) (bytes : List UInt8) :
    view { o with heap := o.heap.set o.gameCwcKeyBytes bytes } =
      { view o with gameCwcKeyBytes := bytes } := by
  rw [view, Heap.get_set_self h]
  rfl

theorem Holds.set_key (h : Holds r bytes o) (bytes' : List UInt8) :
    Holds r bytes { o with heap := o.heap.set o.gameCwcKeyBytes bytes' } where
  allocated := lt_of_lt_of_eq h.allocated (Heap.next_set _ bytes').symm
  lt := lt_of_lt_of_eq h.lt (Heap.next_set _ bytes').symm
  ne := h.ne
  get_eq := (Heap.get_set_of_ne h.ne bytes').trans h.get_eq

/-- The key is stored and scheduled before its first array is overwritten by the send. -/
theorem simulates_handleWaitingForKeyMaterial (native : AuthNative) (e : AuthEvent) :
    Simulates view Allocated Allocated (fun _ _ => Allocated)
      (handleWaitingForKeyMaterial native e)
      (AuthClient.handleWaitingForKeyMaterial native e) := by
  unfold handleWaitingForKeyMaterial AuthClient.handleWaitingForKeyMaterial
  split
  · exact simulates_disconnect
  · apply Simulates.bind_left fun o h => run_allocate _ h
    intro r
    apply (simulates_copyTo _ _ _ _ _ _).bind
    intro _ bytes
    apply Simulates.get_bind
    intro o ho
    simp only [copyTo, bind_assoc]
    apply Simulates.get_left
    rintro o rfl
    rw [ho.get_eq]
    apply (simulates_toAction (P := (· = o)) _ fun _ h => h ▸ ho.allocated).bind_same
    intro stored
    apply Simulates.bind (Q := fun _ _ => Holds r bytes)
    · apply simulates_modify
      · rintro _ rfl
        exact view_set_key ho.allocated stored
      · rintro _ rfl
        exact ho.set_key stored
    · intro _ _
      apply Simulates.get_left
      intro o ho
      rw [ho.get_eq]
      apply (simulates_toAction (P := (· = o)) _ fun _ h => h ▸ ho.allocated).bind_same
      intro key
      apply Simulates.bind (Q := fun _ _ => Holds r bytes)
      · apply simulates_modify
        · exact fun _ _ => rfl
        · rintro _ rfl
          exact ⟨ho.allocated, ho.lt, ho.ne, ho.get_eq⟩
      · intro _ _
        exact simulates_enqueue_reply native e r bytes (fun _ => rfl) fun _ h => h

theorem simulates_handleWaitingForTicket (native : AuthNative) (config : AuthConfig)
    (e : AuthEvent) :
    Simulates view Allocated Allocated (fun _ _ => Allocated)
      (handleWaitingForTicket native config e)
      (AuthClient.handleWaitingForTicket native config e) := by
  apply (simulates_toAction _ fun _ h => h).bind_same
  intro parsed
  cases parsed with
  | error error => exact simulates_disconnect
  | ok ticket =>
    dsimp only
    split
    · exact simulates_disconnect
    · split
      · exact simulates_disconnect
      · apply (simulates_toAction _ fun _ h => h).bind_same
        intro titleID
        split
        · exact simulates_disconnect
        · apply (simulates_toAction _ fun _ h => h).bind_same
          intro ticketCwcBytes
          apply Simulates.get_bind
          intro o ho
          have hsame : ∀ {o'}, o' = o → Allocated o' := fun h => h ▸ ho
          by_cases hkey : o.heap.get o.gameCwcKeyBytes ≠ ticketCwcBytes
          · have hkey' : (view o).gameCwcKeyBytes ≠ ticketCwcBytes := hkey
            rw [if_pos hkey, if_pos hkey']
            exact simulates_disconnect.mono (fun _ => hsame) fun _ _ _ h => h
          · have hkey' : ¬ (view o).gameCwcKeyBytes ≠ ticketCwcBytes := hkey
            rw [if_neg hkey, if_neg hkey']
            apply Simulates.bind (Q := fun _ _ => Allocated)
            · apply simulates_modify
              · rintro _ rfl
                exact view_set_key ho _
              · rintro _ rfl
                exact lt_of_lt_of_eq ho (Heap.next_set _ _).symm
            · intro _ _
              apply Simulates.get_bind
              intro o ho
              apply (simulates_toAction (P := (· = o)) _ fun _ h => h ▸ ho).bind_same
              intro serverInfoBytes
              apply Simulates.bind_left fun o' (h : o' = o) => run_allocate _ (h ▸ ho)
              intro r
              exact simulates_enqueue_reply native e r _ (fun _ => rfl) fun _ h => h

/-- A call of `Service` on the arrays is one on their contents. -/
theorem simulates_service (native : AuthNative) (config : AuthConfig) (e : AuthEvent) :
    Simulates view Allocated Allocated (fun _ _ => Allocated) (service native config e)
      (AuthClient.service native config e) := by
  apply Simulates.get_bind
  intro o ho
  have hview : (view o).authState = o.authState := rfl
  refine Simulates.mono (P := Allocated) ?_ (fun _ h => h ▸ ho) fun _ _ _ h => h
  rw [hview]
  cases o.authState with
  | waitingForHandshakeRequest => exact simulates_handleWaitingForHandshakeRequest native e
  | waitingForServiceStatusRequest =>
    exact simulates_handleWaitingForServiceStatusRequest native config e
  | waitingForKeyMaterial => exact simulates_handleWaitingForKeyMaterial native e
  | waitingForTicket => exact simulates_handleWaitingForTicket native config e
  | complete => exact simulates_disconnect
  | disconnected => exact simulates_pure fun _ h => h

theorem allocated_accepted (tcp : NetTcpClient) (encryptionCipher decryptionCipher : Cipher) :
    Allocated (accepted tcp encryptionCipher decryptionCipher) := Nat.zero_lt_one

open AuthClient in
/-- The last call cleared the bytes for a ticket whose reply it could not send. -/
def ClearedUnsent (native : AuthNative) (config : AuthConfig) (start : AuthObject)
    (events : List AuthEvent) (o : AuthObject) : Prop :=
  ∃ hist e o' ex, events = hist ++ [e] ∧ Steps (AuthObject.service native config) start hist o' ∧
    (AuthObject.service native config e).run o' = .error ex o ∧ Cleared e (view o') (view o)

/-- Both parties hold the same key from the reply to the key material until it is cleared, and a
client that is complete holds the key that was agreed on. -/
theorem keyAgreed_of_run {tcp : NetTcpClient} {encryptionCipher decryptionCipher : Cipher}
    {events : List AuthEvent}
    (hrun : Run (service native config) (accepted tcp encryptionCipher decryptionCipher) events o) :
    AuthClient.KeyAgreed native events (view o) ∨
      ClearedUnsent native config (accepted tcp encryptionCipher decryptionCipher) events o := by
  have hstep := simulates_service native config
  have hstart := allocated_accepted tcp encryptionCipher decryptionCipher
  cases hrun with
  | returned hsteps =>
    obtain ⟨hview, _⟩ := hsteps.of_simulates hstep hstart
    exact .inl (AuthClient.keyAgreed_of_steps hview)
  | @threw is t e ex u hsteps herror =>
    obtain ⟨hview, ht⟩ := hsteps.of_simulates hstep hstart
    rcases AuthClient.keyAgreed_of_error hview ((hstep e).run_eq_error ht herror) with
      hagreed | hcleared
    · exact .inl hagreed
    · exact .inr ⟨is, e, t, ex, rfl, hsteps, herror, hcleared⟩

def sampleObject : AuthObject :=
  accepted (.accepted false) (.rsa ⟨false, .x931⟩) (.rsa ⟨false, .oaep⟩)

open AuthClient in
theorem keyAgreed_sampleEvents : ∃ o, o.authState = .complete ∧
    (KeyAgreed sampleNative sampleEvents (view o) ∨
      ClearedUnsent sampleNative sampleConfig sampleObject sampleEvents o) := by
  have hrun : (runUntilError (AuthObject.service sampleNative sampleConfig) sampleEvents
      sampleObject).map (·.authState) = some .complete := by decide +kernel
  obtain ⟨o, ho, hstate⟩ := Option.map_eq_some_iff.1 hrun
  exact ⟨o, hstate, AuthObject.keyAgreed_of_run (run_of_runUntilError ho)⟩

open AuthClient in
/-- Writing the reply to the ticket throws. -/
def unsentEvents : List AuthEvent :=
  sampleEvents.take 3 ++ (sampleEvents.drop 3).map fun e => { e with write := none }

open AuthClient in
theorem cleared_before_sent : ¬ ∀ (native : AuthNative) (config : AuthConfig) (tcp : NetTcpClient)
    (encryptionCipher decryptionCipher : Cipher) (events : List AuthEvent) (o : AuthObject),
    Run (AuthObject.service native config)
      (AuthObject.accepted tcp encryptionCipher decryptionCipher) events o →
    KeyAgreed native events (view o) := by
  intro h
  have hrun : (runUntilError (AuthObject.service sampleNative sampleConfig) unsentEvents
      sampleObject).map (fun o => (o.authState, o.heap.get o.gameCwcKeyBytes, o.gameCwcKey)) =
      some (.waitingForTicket, List.replicate 16 0, some ⟨List.replicate 16 1⟩) := by
    decide +kernel
  obtain ⟨o, ho, hfields⟩ := Option.map_eq_some_iff.1 hrun
  obtain ⟨hstate, hrest⟩ := Prod.mk.inj hfields
  obtain ⟨hbytes, hkey⟩ := Prod.mk.inj hrest
  obtain ⟨_, hagreed, _⟩ := (h sampleNative sampleConfig _ _ _ unsentEvents o
    (run_of_runUntilError ho)).waiting hstate
  have hbytes' : (view o).gameCwcKeyBytes = List.replicate 16 0 := hbytes
  have hkey' : (view o).gameCwcKey = some ⟨List.replicate 16 1⟩ := hkey
  rw [hbytes', hkey'] at hagreed
  exact absurd hagreed (by decide)

end AuthObject

end AcOpenServer
