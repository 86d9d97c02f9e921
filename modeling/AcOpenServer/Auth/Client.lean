import AcOpenServer.Auth.Version
import AcOpenServer.RPCN.Ticket
import AcOpenServer.SVFW.MessageClient
import AcOpenServer.SVFW.RequestMessage

namespace AcOpenServer
open Library
set_option autoImplicit true

structure ConnectGameServerPortIdResponse where
  authToken : UInt64
  address : UInt32
  gamePort : UInt16
  padding : UInt16
  sendBufferSize : UInt32
  receiveBufferSize : UInt32
  unk18 : UInt32
  unk1C : UInt32
  unk20 : UInt32
  unk24 : UInt32
  unk28 : UInt32
  unk2C : UInt32
  unk30 : UInt32
  unk34 : UInt32
  deriving DecidableEq, Repr

namespace ConnectGameServerPortIdResponse

def fields : ConnectGameServerPortIdResponse ≃ (UInt64 × UInt32 × UInt16 × UInt16) ×
    (UInt32 × UInt32 × UInt32 × UInt32 × UInt32) × (UInt32 × UInt32 × UInt32 × UInt32 × UInt32)
    where
  toFun r := ((r.authToken, r.address, r.gamePort, r.padding),
    (r.sendBufferSize, r.receiveBufferSize, r.unk18, r.unk1C, r.unk20),
    (r.unk24, r.unk28, r.unk2C, r.unk30, r.unk34))
  invFun f := ⟨f.1.1, f.1.2.1, f.1.2.2.1, f.1.2.2.2,
    f.2.1.1, f.2.1.2.1, f.2.1.2.2.1, f.2.1.2.2.2.1, f.2.1.2.2.2.2,
    f.2.2.1, f.2.2.2.1, f.2.2.2.2.1, f.2.2.2.2.2.1, f.2.2.2.2.2.2⟩
  left_inv _ := rfl
  right_inv _ := rfl

instance : Layout ConnectGameServerPortIdResponse := Layout.ofEquiv fields

instance : Sequential ConnectGameServerPortIdResponse where
  fieldSizes := [8, 4, 2, 2, 4, 4, 4, 4, 4, 4, 4, 4, 4, 4]
  size_eq := rfl

@[simp] theorem size_eq : Layout.size ConnectGameServerPortIdResponse = 56 := rfl

def swapEndian (r : ConnectGameServerPortIdResponse) : ConnectGameServerPortIdResponse :=
  { r with
    authToken := reverseEndianness r.authToken
    address := reverseEndianness r.address
    gamePort := reverseEndianness r.gamePort
    sendBufferSize := reverseEndianness r.sendBufferSize
    receiveBufferSize := reverseEndianness r.receiveBufferSize
    unk18 := reverseEndianness r.unk18
    unk1C := reverseEndianness r.unk1C
    unk20 := reverseEndianness r.unk20
    unk24 := reverseEndianness r.unk24
    unk28 := reverseEndianness r.unk28
    unk2C := reverseEndianness r.unk2C
    unk30 := reverseEndianness r.unk30
    unk34 := reverseEndianness r.unk34 }

end ConnectGameServerPortIdResponse

inductive AuthClientState where
  | waitingForHandshakeRequest
  | waitingForServiceStatusRequest
  | waitingForKeyMaterial
  | waitingForTicket
  | complete
  | disconnected
  deriving DecidableEq, Repr

structure AuthConfig where
  publicIP : UInt32
  privateIP : UInt32
  gamePort : UInt16
  minimumVersion : AcvAppVersion
  maximumVersion : AcvAppVersion
  deriving DecidableEq, Repr

structure AuthClient where
  client : SVFWMessageClient
  sendQueue : List WriteTask
  gameCwcKeyBytes : List UInt8
  authState : AuthClientState
  playerName : String
  gameCwcKey : Option CWC
  disposedValue : Bool
  deriving DecidableEq, Repr

/-- The libraries the client calls: those of the ciphers and the generated parsers, whose
exceptions `ProtobufHelper.TryParse` turns into a message. -/
structure AuthNative where
  cipher : CipherNative
  parseRequestHandshake : List UInt8 → Except String RequestHandshake
  parseGetServiceStatus : List UInt8 → Except String GetServiceStatus

/-- A message and what else a call of `Service` takes from its surroundings: the memory behind
the payload, random bytes, the readings of the clock in `NotIssuedYet` and `IsExpired`, and
what the stream does with a write. -/
structure AuthEvent where
  message : SVFWMessage
  beyond : Nat → UInt8
  iv : Block 11
  responseBytes : Block 27
  keyBytes : Block 16
  issuedNow : DateTimeOffset
  expiredNow : DateTimeOffset
  write : Option WriteTask

namespace AuthClient

def knownTitleIDs : List String := ["UP0700-BLUS31194_00"]

def new (client : SVFWMessageClient) : AuthClient where
  client
  sendQueue := []
  gameCwcKeyBytes := List.replicate 16 0
  authState := .waitingForHandshakeRequest
  playerName := ""
  gameCwcKey := none
  disposedValue := false

def onClient (m : EStateM Exn SVFWMessageClient α) : EStateM Exn AuthClient α :=
  zoom (·.client) (fun client c => { c with client }) m

def dispose (c : AuthClient) : AuthClient :=
  if c.disposedValue then c
  else { c with client := c.client.dispose, sendQueue := [], disposedValue := true }

def disconnect : EStateM Exn AuthClient Unit :=
  modify fun c => dispose { c with authState := .disconnected }

variable (native : AuthNative) (config : AuthConfig)

/-- `Client.SendAsync` of a reply to the message of an event. -/
def reply (e : AuthEvent) (payload : List UInt8) : EStateM Exn AuthClient WriteTask :=
  onClient (SVFWMessageClient.sendAsync native.cipher e.iv e.write (.new payload) .reply
    e.message.header.messageIndex)

def enqueue (task : WriteTask) : EStateM Exn AuthClient Unit :=
  modify fun c => { c with sendQueue := c.sendQueue ++ [task] }

/-- The task of `SendThenDisconnect` is dropped with its exceptions. The client is disposed of
when the write has completed; if it is pending, that is after `Service` has returned. -/
def sendThenDisconnect (e : AuthEvent) (payload : List UInt8) :
    EStateM Exn AuthClient Unit := do
  modify fun c => { c with authState := .disconnected }
  ignoreErrors do
    match ← reply native e payload with
    | .completed => modify dispose
    | .pending => pure ()
    | .faulted => throw .io

def handleWaitingForHandshakeRequest (e : AuthEvent) : EStateM Exn AuthClient Unit := do
  if e.message.header.messageType ≠ .requestHandshake then
    disconnect
  else
    match native.parseRequestHandshake e.message.payload with
    | .error _ => disconnect
    | .ok handshake =>
      let key ← (CWC.new native.cipher.cwc handshake.aesCwcKey).toAction
      modify fun c => { c with client := c.client.setCipher (.cwc key) (.cwc key) }
      modify fun c => { c with client := { c.client with cipherEnabled := false } }
      let responseBuffer := e.responseBytes.1.take 11 ++ List.replicate 16 0
      enqueue (← reply native e responseBuffer)
      modify fun c => { c with
        client := { c.client with cipherEnabled := true }
        authState := .waitingForServiceStatusRequest }

def emptyStatusResponse : GetServiceStatusResponse := ⟨0, "", false, 0⟩

def handleWaitingForServiceStatusRequest (e : AuthEvent) : EStateM Exn AuthClient Unit := do
  if e.message.header.messageType ≠ .getServiceStatus then
    disconnect
  else
    match native.parseGetServiceStatus e.message.payload with
    | .error _ => disconnect
    | .ok serviceStatus =>
      modify fun c => { c with playerName := serviceStatus.playerName }
      let userAppVersion := AcvAppVersion.new serviceStatus.appVersion
      let belowMinimumVersion := userAppVersion.lt config.minimumVersion
      let aboveMaximumVersion := userAppVersion.gt config.maximumVersion
      if belowMinimumVersion || aboveMaximumVersion then
        sendThenDisconnect native e emptyStatusResponse.toByteArray
      else
        let serviceStatusResponse : GetServiceStatusResponse :=
          ⟨2, "", false, serviceStatus.appVersion.toUInt32.toInt32⟩
        enqueue (← reply native e serviceStatusResponse.toByteArray)
        modify fun c => { c with authState := .waitingForKeyMaterial }

def handleWaitingForKeyMaterial (e : AuthEvent) : EStateM Exn AuthClient Unit := do
  if e.message.header.messageType ≠ .keyMaterial then
    disconnect
  else
    let cwcKeyBytes ← (arrayCopy e.message.payload 8 e.keyBytes.1 0 8).toAction
    let gameCwcKeyBytes ←
      (arrayCopy cwcKeyBytes 0 (← get).gameCwcKeyBytes 0 cwcKeyBytes.length).toAction
    modify fun c => { c with gameCwcKeyBytes }
    let gameCwcKey ← (CWC.new native.cipher.cwc cwcKeyBytes).toAction
    modify fun c => { c with gameCwcKey := some gameCwcKey }
    enqueue (← reply native e cwcKeyBytes)
    modify fun c => { c with authState := .waitingForTicket }

def serverInfo (isPrivateNetwork : Bool) : ConnectGameServerPortIdResponse where
  authToken := 0
  address := if isPrivateNetwork then config.privateIP else config.publicIP
  gamePort := config.gamePort
  padding := 0
  sendBufferSize := 0x8000
  receiveBufferSize := 0x8000
  unk18 := 0xA000
  unk1C := 0xA000
  unk20 := 0x80
  unk24 := 0x8000
  unk28 := 0xA000
  unk2C := 0x493E0
  unk30 := 0x61A8
  unk34 := 0xC

def handleWaitingForTicket (e : AuthEvent) : EStateM Exn AuthClient Unit := do
  match ← (Ticket.tryParse ⟨e.message.payload, e.beyond⟩).toAction with
  | .error _ => disconnect
  | .ok ticket =>
    if ticket.notIssuedYet e.issuedNow then
      disconnect
    else if ticket.isExpired e.expiredNow then
      disconnect
    else
      let titleID ← ticket.getServiceIdString.toAction
      if titleID ∉ knownTitleIDs then
        disconnect
      else
        let ticketCwcBytes ← ((⟨ticket.cookie, fun _ => 0⟩ : Span).slice 0 16).toAction
        if (← get).gameCwcKeyBytes ≠ ticketCwcBytes then
          disconnect
        else
          modify fun c => { c with
            gameCwcKeyBytes := List.replicate c.gameCwcKeyBytes.length 0 }
          let serverInfo := (serverInfo config (← get).client.isPrivateNetwork).swapEndian
          let serverInfoBytes ←
            (BinaryBufferWriter.write (List.replicate 56 0) 0 serverInfo).toAction
          enqueue (← reply native e serverInfoBytes)
          modify fun c => { c with authState := .complete }

def service (e : AuthEvent) : EStateM Exn AuthClient Unit := do
  match (← get).authState with
  | .waitingForHandshakeRequest => handleWaitingForHandshakeRequest native e
  | .waitingForServiceStatusRequest => handleWaitingForServiceStatusRequest native config e
  | .waitingForKeyMaterial => handleWaitingForKeyMaterial native e
  | .waitingForTicket => handleWaitingForTicket native config e
  | .complete => disconnect
  | .disconnected => return

end AuthClient

end AcOpenServer
