import AcOpenServer.Fsdp.Acks
import AcOpenServer.Library.Keeps

namespace AcOpenServer
open Library
set_option autoImplicit true

/-- The names are fixed-length text, of which only the bytes matter here. -/
structure FsdpReliablePacketInitialData where
  playerName : Block 17
  unk12 : UInt8
  playerNameCopy : Block 17
  deriving DecidableEq

namespace FsdpReliablePacketInitialData

def length : Nat := 17 + 1 + 17

def bytes (d : FsdpReliablePacketInitialData) : List UInt8 :=
  d.playerName.1 ++ d.unk12 :: d.playerNameCopy.1

theorem length_bytes (d : FsdpReliablePacketInitialData) : d.bytes.length = 35 := by
  rw [bytes, List.length_append, List.length_cons, d.playerName.2, d.playerNameCopy.2]

end FsdpReliablePacketInitialData

/-- The handler of the next datagram, which is another one for the first, and what the last packet
has left. -/
structure FsdpReliablePacketClient where
  initial : Bool
  lastPacketLocalAck : Int
  lastPacketRemoteAck : Int
  deriving DecidableEq, Repr

namespace FsdpReliablePacketClient

/-- A client that has started to receive. -/
def started : FsdpReliablePacketClient where
  initial := true
  lastPacketLocalAck := 0
  lastPacketRemoteAck := 0

def handleIncoming (packet : FsdpReliablePacket) (c : FsdpReliablePacketClient) :
    FsdpReliablePacketClient :=
  { c with lastPacketLocalAck := packet.localAck, lastPacketRemoteAck := packet.remoteAck }

/-- The packet that is handled. -/
def onReceived (beyond : Nat → UInt8) (buffer : List UInt8) :
    EStateM Exn FsdpReliablePacketClient FsdpReliablePacket := do
  let packet ← (read ⟨buffer, beyond⟩).toAction
  modify (handleIncoming packet)
  return packet

def onInitialReceived (beyond : Nat → UInt8) (buffer : List UInt8) :
    EStateM Exn FsdpReliablePacketClient FsdpReliablePacket := do
  modify fun c => { c with initial := false }
  if FsdpReliablePacketInitialData.length < buffer.length ∧ buffer.getD 0 0 ≠ 0xF5 ∧
      buffer.getD 0 0 ≠ 0x25 then
    onReceived beyond (buffer.drop FsdpReliablePacketInitialData.length)
  else onReceived beyond buffer

def received (beyond : Nat → UInt8) (buffer : List UInt8) :
    EStateM Exn FsdpReliablePacketClient FsdpReliablePacket := do
  if (← get).initial then onInitialReceived beyond buffer else onReceived beyond buffer

variable {beyond beyond' : Nat → UInt8} {buffer : List UInt8} {c : FsdpReliablePacketClient}

/-- What is parsed of a datagram that is long enough for the struct. -/
def parsed (buffer : List UInt8) : FsdpReliablePacket :=
  .new (Layout.decode (buffer.take 8)) (buffer.drop 7)

theorem result_read (h : 8 ≤ buffer.length) :
    (read ⟨buffer, beyond⟩).result = .ok (parsed buffer) := by
  have hlong : ¬ Span.length ⟨buffer, beyond⟩ < FsdpReliablePacketHeader.length :=
    Nat.not_lt.2 (Nat.le_of_succ_le h)
  have hpos : 0 < Span.length ⟨buffer, beyond⟩ := Nat.lt_of_lt_of_le (by decide) h
  have hwindow : Span.window ⟨buffer, beyond⟩ 0 (Layout.size FsdpReliablePacketHeader) =
      buffer.take 8 :=
    Span.window_of_le h
  have hheader := BinaryBufferReader.read_of_lt (α := FsdpReliablePacketHeader) hpos
  rw [hwindow] at hheader
  have hslice : (Span.sliceFrom ⟨buffer, beyond⟩ FsdpReliablePacketHeader.length).result =
      .ok (buffer.drop 7) :=
    congrArg Traced.result (Span.sliceFrom_of_le (Nat.le_of_succ_le h))
  rw [read, if_neg hlong, hheader, Traced.result_bind_of_ok _ rfl,
    Traced.result_bind_of_ok _ hslice]
  rfl

theorem run_onReceived (h : 8 ≤ buffer.length) :
    (onReceived beyond buffer).run c = .ok (parsed buffer) (handleIncoming (parsed buffer) c) := by
  rw [onReceived, run_bind_of_ok _ (Traced.run_toAction_of_ok (result_read h) c)]
  rfl

/-- The first datagram, from where the packet is taken to start. -/
def stripped (buffer : List UInt8) : List UInt8 :=
  if FsdpReliablePacketInitialData.length < buffer.length ∧ buffer.getD 0 0 ≠ 0xF5 ∧
      buffer.getD 0 0 ≠ 0x25 then buffer.drop FsdpReliablePacketInitialData.length
  else buffer

theorem run_received_started (buffer : List UInt8) :
    (received beyond buffer).run started =
      (onReceived beyond (stripped buffer)).run { started with initial := false } := by
  have hinitial : started.initial = true := rfl
  rw [received, run_get_bind, if_pos hinitial, onInitialReceived, run_modify_bind, stripped]
  by_cases hstrip : FsdpReliablePacketInitialData.length < buffer.length ∧
      buffer.getD 0 0 ≠ 0xF5 ∧ buffer.getD 0 0 ≠ 0x25
  · rw [if_pos hstrip, if_pos hstrip]
  · rw [if_neg hstrip, if_neg hstrip]

/-- What a packet says. -/
def fields (packet : FsdpReliablePacket) : Int × Int × FsdpOpcode × UInt8 × List UInt8 :=
  (packet.localAck, packet.remoteAck, packet.opcode, packet.unk06, packet.payload)

/-- Both are parsed as the first datagram of a client, and to the same packet. -/
def ParsesAlike (beyond beyond' : Nat → UInt8) (a b : List UInt8) : Prop :=
  ∃ packet packet' c c', (received beyond a).run started = .ok packet c ∧
    (received beyond' b).run started = .ok packet' c' ∧ fields packet = fields packet'

theorem parsesAlike_iff {a b : List UInt8} (ha : 8 ≤ (stripped a).length)
    (hb : 8 ≤ (stripped b).length) :
    ParsesAlike beyond beyond' a b ↔
      fields (parsed (stripped a)) = fields (parsed (stripped b)) := by
  have hruna : (received beyond a).run started = .ok (parsed (stripped a)) _ :=
    (run_received_started a).trans (run_onReceived ha)
  have hrunb : (received beyond' b).run started = .ok (parsed (stripped b)) _ :=
    (run_received_started b).trans (run_onReceived hb)
  constructor
  · rintro ⟨packet, packet', c, c', hpacket, hpacket', hsame⟩
    rw [hruna] at hpacket
    rw [hrunb] at hpacket'
    cases hpacket
    cases hpacket'
    exact hsame
  · intro hsame
    exact ⟨_, _, _, _, hruna, hrunb, hsame⟩

/-- A packet in front of which nothing stands is left as it is. -/
theorem stripped_of_magic {p : List UInt8} (h : [0xF5, 0x02] <+: p) : stripped p = p := by
  obtain ⟨rest, rfl⟩ := h
  apply if_neg
  rintro ⟨-, hfirst, -⟩
  exact hfirst rfl

theorem getD_append (d : FsdpReliablePacketInitialData) (p : List UInt8) :
    (d.bytes ++ p).getD 0 0 = d.bytes.getD 0 0 := by
  apply List.getD_append
  rw [d.length_bytes]
  decide

theorem stripped_append {d : FsdpReliablePacketInitialData} {p : List UInt8} (hp : 8 ≤ p.length) :
    stripped (d.bytes ++ p) =
      if d.bytes.getD 0 0 ≠ 0xF5 ∧ d.bytes.getD 0 0 ≠ 0x25 then p else d.bytes ++ p := by
  have hlong : FsdpReliablePacketInitialData.length < (d.bytes ++ p).length := by
    rw [List.length_append, d.length_bytes, FsdpReliablePacketInitialData.length]
    omega
  rw [stripped, getD_append]
  apply if_congr (and_iff_right hlong) _ rfl
  exact List.drop_left' d.length_bytes

theorem fields_append_ne (d : FsdpReliablePacketInitialData) {p : List UInt8} (hp : 8 ≤ p.length) :
    fields (parsed (d.bytes ++ p)) ≠ fields (parsed p) := by
  intro hsame
  have hpayload : (d.bytes ++ p).drop 7 = p.drop 7 := congrArg (·.2.2.2.2) hsame
  have hlength := congrArg List.length hpayload
  rw [List.length_drop, List.length_drop, List.length_append, d.length_bytes] at hlength
  omega

theorem parsesAlike_append_iff (d : FsdpReliablePacketInitialData) {p : List UInt8}
    (hp : 8 ≤ p.length) (hmagic : [0xF5, 0x02] <+: p) :
    ParsesAlike beyond beyond' (d.bytes ++ p) p ↔
      d.bytes.getD 0 0 ≠ 0xF5 ∧ d.bytes.getD 0 0 ≠ 0x25 := by
  have hbare := stripped_of_magic hmagic
  have hdata := stripped_append (d := d) hp
  by_cases hfirst : d.bytes.getD 0 0 ≠ 0xF5 ∧ d.bytes.getD 0 0 ≠ 0x25
  · rw [if_pos hfirst] at hdata
    rw [parsesAlike_iff (by rwa [hdata]) (by rwa [hbare]), hdata, hbare]
    exact iff_of_true rfl hfirst
  · rw [if_neg hfirst] at hdata
    have hlong : 8 ≤ (d.bytes ++ p).length := by
      rw [List.length_append]
      omega
    rw [parsesAlike_iff (by rwa [hdata]) (by rwa [hbare]), hdata, hbare]
    exact iff_of_false (fields_append_ne d hp) hfirst

/-- The state after a datagram, whether it was parsed or refused. -/
def next (beyond : Nat → UInt8) (buffer : List UInt8) (c : FsdpReliablePacketClient) :
    FsdpReliablePacketClient :=
  stateAfter (received beyond buffer) c

theorem keeps_onReceived (beyond : Nat → UInt8) (buffer : List UInt8) :
    Keeps (fun c => c.initial = false) (onReceived beyond buffer) := by
  refine Keeps.bind (keeps_toAction _) fun packet => Keeps.bind ?_ fun _ => keeps_pure packet
  apply keeps_modify
  intro c hc
  exact hc

/-- Only one datagram is the first, even if it was refused. -/
theorem initial_next (beyond : Nat → UInt8) (buffer : List UInt8) (c : FsdpReliablePacketClient) :
    (next beyond buffer c).initial = false := by
  rw [next, stateAfter, received, run_get_bind]
  by_cases hinitial : c.initial = true
  · rw [if_pos hinitial, onInitialReceived, run_modify_bind]
    by_cases hstrip : FsdpReliablePacketInitialData.length < buffer.length ∧
        buffer.getD 0 0 ≠ 0xF5 ∧ buffer.getD 0 0 ≠ 0x25
    · rw [if_pos hstrip]
      exact keeps_onReceived beyond _ _ rfl
    · rw [if_neg hstrip]
      exact keeps_onReceived beyond _ _ rfl
  · rw [if_neg hinitial]
    exact keeps_onReceived beyond _ _ (Bool.eq_false_iff.2 hinitial)

theorem run_received_later (h : c.initial = false) (buffer : List UInt8) :
    (received beyond buffer).run c = (onReceived beyond buffer).run c := by
  have hinitial : ¬ c.initial = true := Bool.eq_false_iff.1 h
  rw [received, run_get_bind, if_neg hinitial]

theorem initial_run (beyond : Nat → UInt8) (first : List UInt8) (rest : List (List UInt8))
    (c : FsdpReliablePacketClient) :
    (runTotal (next beyond) (first :: rest) c).initial = false := by
  have hkeeps : ∀ buffer c, c.initial = false → (next beyond buffer c).initial = false :=
    fun buffer c _ => initial_next beyond buffer c
  change (runTotal (next beyond) rest (next beyond first c)).initial = false
  exact runTotal_invariant (P := fun c : FsdpReliablePacketClient => c.initial = false) hkeeps
    (initial_next beyond first c)

end FsdpReliablePacketClient

theorem prefix_stripped_iff (beyond beyond' : Nat → UInt8) (d : FsdpReliablePacketInitialData)
    (p : List UInt8) (hp : 8 ≤ p.length) (hmagic : [0xF5, 0x02] <+: p) :
    (FsdpReliablePacketClient.ParsesAlike beyond beyond' (d.bytes ++ p) p ↔
        d.bytes.getD 0 0 ≠ 0xF5 ∧ d.bytes.getD 0 0 ≠ 0x25) ∧
      ∀ first rest later,
        (FsdpReliablePacketClient.received beyond later).run
            (runTotal (FsdpReliablePacketClient.next beyond) (first :: rest) .started) =
          (FsdpReliablePacketClient.onReceived beyond later).run
            (runTotal (FsdpReliablePacketClient.next beyond) (first :: rest) .started) := by
  refine ⟨FsdpReliablePacketClient.parsesAlike_append_iff d hp hmagic, ?_⟩
  intro first rest later
  apply FsdpReliablePacketClient.run_received_later
  exact FsdpReliablePacketClient.initial_run beyond first rest _

/-- Names of 17 times one character. -/
def initialDataOf (character : UInt8) : FsdpReliablePacketInitialData where
  playerName := ⟨List.replicate 17 character, rfl⟩
  unk12 := character
  playerNameCopy := ⟨List.replicate 17 character, rfl⟩

def samplePacket : List UInt8 := [0xF5, 0x02, 0, 0, 0, 5, 0xFF, 7]

theorem prefix_stripped_named :
    FsdpReliablePacketClient.ParsesAlike (fun _ => 0) (fun _ => 0)
      ((initialDataOf 0x41).bytes ++ samplePacket) samplePacket :=
  (prefix_stripped_iff (fun _ => 0) (fun _ => 0) (initialDataOf 0x41) samplePacket (by decide)
    ⟨[0, 0, 0, 5, 0xFF, 7], rfl⟩).1.2 (by decide)

/-- The name of the player starts with a percent sign. -/
theorem prefix_not_stripped :
    ¬ FsdpReliablePacketClient.ParsesAlike (fun _ => 0) (fun _ => 0)
      ((initialDataOf 0x25).bytes ++ samplePacket) samplePacket := by
  have hmagic : [0xF5, 0x02] <+: samplePacket := ⟨[0, 0, 0, 5, 0xFF, 7], rfl⟩
  intro halike
  have hfirst :=
    (FsdpReliablePacketClient.parsesAlike_append_iff (initialDataOf 0x25) (by decide) hmagic).1
      halike
  exact hfirst.2 rfl

end AcOpenServer
