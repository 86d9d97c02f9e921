import AcOpenServer.Auth.Ready
import AcOpenServer.Auth.Soundness
import AcOpenServer.Auth.Totality

namespace AcOpenServer
open Library
set_option autoImplicit true

namespace AuthClient

def written (c : AuthClient) : List (List UInt8) := c.client.client.client.written

/-- The configured range of versions, as numbers. -/
def InRange (config : AuthConfig) (appVersion : UInt64) : Prop :=
  config.minimumVersion.number ≤ appVersion.toNat ∧
    appVersion.toNat ≤ config.maximumVersion.number

/-- The connection was given one frame, the encrypted empty response. -/
def SendsEmptyResponse (native : AuthNative) (e : AuthEvent) (c c' : AuthClient) : Prop :=
  ∃ output, Encrypts native e c.client emptyStatusResponse.toByteArray output ∧
    written c' = written c ++ [SVFWPacketClient.frame (SVFWPacketClient.stamp
      (c.client.client.packetsSent + 1) (replyPacket e.message.header.messageIndex output))]

/-- `Service` goes on to the key material exactly when the version is in range, and otherwise
sends the empty response and disconnects. -/
def Gates (native : AuthNative) (config : AuthConfig) (e : AuthEvent) (c : AuthClient)
    (appVersion : UInt64) : Prop :=
  ∃ c', (service native config e).run c = .ok () c' ∧
    (c'.authState = .waitingForKeyMaterial ↔ InRange config appVersion) ∧
    (¬ InRange config appVersion →
      SendsEmptyResponse native e c c' ∧ c'.authState = .disconnected)

/-- Both parts of a version out of range are out of range on the same side; the second parts
are compared as signed numbers. -/
def BothPartsOut (config : AuthConfig) (appVersion : UInt64) : Prop :=
  (appVersion.toNat < config.minimumVersion.number →
      (AcvAppVersion.new appVersion).unk00 < config.minimumVersion.unk00 ∧
      (AcvAppVersion.new appVersion).version.toInt32 < config.minimumVersion.version.toInt32) ∧
    (config.maximumVersion.number < appVersion.toNat →
      config.maximumVersion.unk00 < (AcvAppVersion.new appVersion).unk00 ∧
      config.maximumVersion.version.toInt32 < (AcvAppVersion.new appVersion).version.toInt32)

variable {native : AuthNative} {config : AuthConfig} {e : AuthEvent} {c c' : AuthClient}

theorem lt_iff {a b : AcvAppVersion} :
    a.lt b = true ↔ a.unk00 < b.unk00 ∧ a.version.toInt32 < b.version.toInt32 := by
  rw [AcvAppVersion.lt, Bool.and_eq_true, AcvVersion.lt, decide_eq_true_eq, decide_eq_true_eq]

theorem gt_iff {a b : AcvAppVersion} :
    a.gt b = true ↔ b.unk00 < a.unk00 ∧ b.version.toInt32 < a.version.toInt32 := by
  rw [AcvAppVersion.gt, Bool.and_eq_true, AcvVersion.gt, decide_eq_true_eq, decide_eq_true_eq]

theorem not_inRange_of_rejects {serviceStatus : GetServiceStatus}
    (h : Rejects config serviceStatus) : ¬ InRange config serviceStatus.appVersion := by
  rintro ⟨hmin, hmax⟩
  rcases h with hlt | hgt
  · have hn := AcvAppVersion.number_lt_of_lt hlt
    rw [AcvAppVersion.number_new] at hn
    omega
  · have hn := AcvAppVersion.number_lt_of_gt hgt
    rw [AcvAppVersion.number_new] at hn
    omega

/-- What is out of range is rejected exactly when both parts are out. -/
theorem rejects_iff_bothPartsOut {serviceStatus : GetServiceStatus}
    (hconfig : config.minimumVersion.number ≤ config.maximumVersion.number) :
    (¬ InRange config serviceStatus.appVersion → Rejects config serviceStatus) ↔
      BothPartsOut config serviceStatus.appVersion := by
  have hnumber := AcvAppVersion.number_new serviceStatus.appVersion
  constructor
  · intro h
    refine ⟨?_, ?_⟩
    · intro hbelow
      rcases h (fun hin => by have hle := hin.1; omega) with hlt | hgt
      · exact lt_iff.1 hlt
      · have hn := AcvAppVersion.number_lt_of_gt hgt
        omega
    · intro habove
      rcases h (fun hin => by have hle := hin.2; omega) with hlt | hgt
      · have hn := AcvAppVersion.number_lt_of_lt hlt
        omega
      · exact gt_iff.1 hgt
  · rintro ⟨hbelow, habove⟩ hout
    by_cases hmin : config.minimumVersion.number ≤ serviceStatus.appVersion.toNat
    · have hmax : config.maximumVersion.number < serviceStatus.appVersion.toNat := by
        by_contra hle
        exact hout ⟨hmin, Nat.le_of_not_lt hle⟩
      exact .inr (gt_iff.2 (habove hmax))
    · exact .inl (lt_iff.2 (hbelow (Nat.lt_of_not_le hmin)))

theorem written_afterWrite (task : WriteTask) (c : AuthClient) :
    written (afterWrite task c) = written c := by
  obtain ⟨_, _, _, hclient⟩ := client_afterWrite task c
  rw [written, hclient]
  rfl

theorem sendThenDisconnect_sends {plaintext : List UInt8}
    (hc : SVFWMessageClient.CanSend c.client) (hgood : native.cipher.cwc.Good)
    (hwrite : e.write = some task) (hlen : plaintext.length + 69 ≤ maxArrayLength) :
    ∃ c' client, (sendThenDisconnect native e plaintext).run c = .ok () c' ∧
      c'.authState = .disconnected ∧ Replied native e c.client plaintext client ∧
      written c' = client.client.client.written := by
  obtain ⟨client, hreplied, hrun⟩ := run_reply (c := { c with authState := .disconnected }) hc
    hgood hwrite hlen
  exact ⟨_, client, run_sendThenDisconnect_of_ok hrun, authState_afterWrite _ _, hreplied,
    written_afterWrite _ _⟩

theorem service_version (config : AuthConfig) (hgood : native.cipher.cwc.Good) (hc : Ready c)
    (hstate : c.authState = .waitingForServiceStatusRequest)
    (htype : e.message.header.messageType = .getServiceStatus)
    (hparsed : native.parseGetServiceStatus e.message.payload = .ok serviceStatus)
    (hwrite : e.write = some task) :
    ∃ c', (service native config e).run c = .ok () c' ∧
      (¬ Rejects config serviceStatus → c'.authState = .waitingForKeyMaterial) ∧
      (Rejects config serviceStatus →
        SendsEmptyResponse native e c c' ∧ c'.authState = .disconnected) := by
  have hsend := hc.canSend (by rw [hstate]; decide)
  by_cases hrejects : Rejects config serviceStatus
  · obtain ⟨c', client, hrun, hdisconnected, ⟨output, hencrypt, _, rfl⟩, hwritten⟩ :=
      sendThenDisconnect_sends (c := { c with playerName := serviceStatus.playerName })
        hsend hgood hwrite
        (le_trans (Nat.add_le_add_right (length_toByteArray_le (r := emptyStatusResponse)
          rfl) 69) (by decide))
    refine ⟨c', ?_, fun h => (h hrejects).elim, fun _ => ⟨⟨output, hencrypt, hwritten⟩,
      hdisconnected⟩⟩
    rw [run_service_of_rejects hstate htype hparsed hrejects, hrun]
  · obtain ⟨c', hrun⟩ := returns_of_sufficient config hgood hc hwrite (by
      rw [Sufficient, hstate]
      exact trivial)
    refine ⟨c', hrun, fun _ => ?_, fun h => (hrejects h).elim⟩
    cases service_ok hrun with
    | refused refused =>
      rw [Refused, hstate] at refused
      obtain ⟨error, herror⟩ := refused htype
      cases hparsed.symm.trans herror
    | ignored state => cases hstate.symm.trans state
    | handshake state _ _ _ _ _ => cases hstate.symm.trans state
    | serviceStatus _ _ _ _ _ _ => rfl
    | rejected _ _ parsed rejected _ =>
      cases hparsed.symm.trans parsed
      exact (hrejects rejected).elim
    | keyMaterial state _ _ _ _ _ _ => cases hstate.symm.trans state
    | ticket state _ _ _ _ _ _ => cases hstate.symm.trans state

/-- The gate admits exactly the versions in range when a version out of range is out of it in
both of its parts. -/
theorem gates_iff_bothPartsOut {client : SVFWMessageClient} {events : List AuthEvent}
    (hconfig : config.minimumVersion.number ≤ config.maximumVersion.number)
    (hgood : native.cipher.cwc.Good) (hclient : client.client.client.disposedValue = false)
    (hsteps : Steps (service native config) (new client) events c)
    (hstate : c.authState = .waitingForServiceStatusRequest)
    (htype : e.message.header.messageType = .getServiceStatus)
    (hparsed : native.parseGetServiceStatus e.message.payload = .ok serviceStatus)
    (hwrite : e.write = some task) :
    Gates native config e c serviceStatus.appVersion ↔
      BothPartsOut config serviceStatus.appVersion := by
  have hready := ready_of_steps hclient hsteps (by rw [hstate]; decide)
  obtain ⟨c', hrun, hadmitted, hrejected⟩ := service_version config hgood hready
    hstate htype hparsed hwrite
  rw [← rejects_iff_bothPartsOut hconfig]
  constructor
  · rintro ⟨d, hrun', hiff, _⟩ hout
    cases hrun.symm.trans hrun'
    by_contra hnot
    exact hout (hiff.1 (hadmitted hnot))
  · intro h
    refine ⟨c', hrun, ⟨?_, ?_⟩, fun hout => hrejected (h hout)⟩
    · intro hmaterial
      by_contra hout
      cases hmaterial.symm.trans (hrejected (h hout)).2
    · intro hin
      exact hadmitted fun hrejects => not_inRange_of_rejects hrejects hin

theorem gates_sampleServiceStatus :
    ∃ c, Steps (service sampleNative sampleConfig) (new sampleClient) (sampleEvents.take 1) c ∧
      (Gates sampleNative sampleConfig sampleStatus c 0x202000000 ↔
        BothPartsOut sampleConfig 0x202000000) := by
  have hrun : (runAll (service sampleNative sampleConfig) (sampleEvents.take 1)
      (new sampleClient)).map (·.authState) = some .waitingForServiceStatusRequest := by
    decide +kernel
  obtain ⟨c, hc, hstate⟩ := Option.map_eq_some_iff.1 hrun
  have hparsed : sampleNative.parseGetServiceStatus sampleStatus.message.payload =
      .ok ⟨2, "", "", 0x202000000⟩ := by
    decide
  have hgates := gates_iff_bothPartsOut (by decide) sampleNative_good rfl (steps_of_runAll hc)
    hstate rfl hparsed rfl
  exact ⟨c, steps_of_runAll hc, hgates⟩

def laterConfig : AuthConfig :=
  { sampleConfig with minimumVersion := .new 1, maximumVersion := .new 1 }

/-- A version one below the only configured one is admitted. -/
theorem lower_version_admitted : ¬ ∀ (native : AuthNative) (config : AuthConfig)
    (client : SVFWMessageClient) (events : List AuthEvent) (e : AuthEvent) (c : AuthClient)
    (serviceStatus : GetServiceStatus) (task : WriteTask),
    config.minimumVersion.number ≤ config.maximumVersion.number → native.cipher.cwc.Good →
    client.client.client.disposedValue = false →
    Steps (service native config) (new client) events c →
    c.authState = .waitingForServiceStatusRequest →
    e.message.header.messageType = .getServiceStatus →
    native.parseGetServiceStatus e.message.payload = .ok serviceStatus → e.write = some task →
    Gates native config e c serviceStatus.appVersion := by
  intro h
  have hrun : (runAll (service sampleNative laterConfig) (sampleEvents.take 1)
      (new sampleClient)).map (fun c => (c.authState,
        (runAll (service sampleNative laterConfig)
          [sampleEvent .getServiceStatus [0x08, 0x02, 0x12, 0x00]] c).map (·.authState))) =
      some (.waitingForServiceStatusRequest, some .waitingForKeyMaterial) := by
    decide +kernel
  obtain ⟨c, hc, hstates⟩ := Option.map_eq_some_iff.1 hrun
  obtain ⟨hstate, hnext⟩ := Prod.mk.inj hstates
  obtain ⟨d, hd, hadmitted⟩ := Option.map_eq_some_iff.1 hnext
  obtain ⟨c', hc', hiff, _⟩ := h sampleNative laterConfig sampleClient _
    (sampleEvent .getServiceStatus [0x08, 0x02, 0x12, 0x00]) c ⟨2, "", "", 0⟩ .completed
    (by decide) sampleNative_good rfl (steps_of_runAll hc) hstate rfl rfl rfl
  have hservice := steps_of_runAll hd
  cases hservice with
  | cons hfirst hrest =>
    cases hrest
    cases hfirst.symm.trans hc'
    have hin := (hiff.1 hadmitted).1
    revert hin
    decide

end AuthClient

end AcOpenServer
