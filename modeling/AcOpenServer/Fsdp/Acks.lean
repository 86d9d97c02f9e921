import AcOpenServer.Fsdp.ReliablePacket
import AcOpenServer.Library.Trace

namespace AcOpenServer
open Library
set_option autoImplicit true

namespace FsdpReliablePacketHeader

def setAckCounters (localAck remoteAck : Int32) (h : FsdpReliablePacketHeader) :
    FsdpReliablePacketHeader :=
  let upperNibble := ((localAck >>> 8) &&& 0xF).toUInt32
  let lowerNibble := ((remoteAck >>> 8) &&& 0xF).toUInt32
  { h with
    ack1 := (localAck &&& 0xFF).toUInt32.toUInt8
    ack2 := ((upperNibble <<< 4) ||| lowerNibble).toUInt8
    ack3 := (remoteAck &&& 0xFF).toUInt32.toUInt8 }

def setLocalAck (value : Int32) (h : FsdpReliablePacketHeader) : FsdpReliablePacketHeader :=
  h.setAckCounters value (Int32.ofInt h.remoteAck)

def setRemoteAck (value : Int32) (h : FsdpReliablePacketHeader) : FsdpReliablePacketHeader :=
  h.setAckCounters (Int32.ofInt h.localAck) value

def createDefault : FsdpReliablePacketHeader where
  magic := 0x02F5
  ack1 := 0
  ack2 := 0
  ack3 := 0
  opcode := ⟨0⟩
  unk06 := 0xFF
  padding := 0

theorem toNat_byte (x : Int32) : (x &&& 0xFF).toUInt32.toUInt8.toNat = x.toUInt32.toNat % 256 := by
  have hand : (x &&& 0xFF).toUInt32.toNat = x.toUInt32.toNat &&& (2 ^ 8 - 1) := BitVec.toNat_and _ _
  rw [UInt32.toNat_toUInt8, hand, Nat.and_two_pow_sub_one_eq_mod, Nat.mod_mod]

/-- The sign does not reach the nibble behind the lowest byte. -/
theorem toNat_nibble (x : Int32) :
    ((x >>> 8) &&& 0xF).toUInt32.toNat = x.toUInt32.toNat / 256 % 16 := by
  have hsmall := x.toUInt32.toNat_lt
  have hand : ((x >>> 8) &&& 0xF).toUInt32.toNat =
      (x.toBitVec.sshiftRight 8).toNat &&& (2 ^ 4 - 1) :=
    BitVec.toNat_and _ _
  have hshift : (x.toBitVec.sshiftRight 8).toNat =
      if x.toBitVec.msb then 2 ^ 32 - 1 - (2 ^ 32 - 1 - x.toUInt32.toNat) >>> 8
      else x.toUInt32.toNat >>> 8 :=
    BitVec.toNat_sshiftRight
  rw [hand, hshift, Nat.and_two_pow_sub_one_eq_mod, Nat.shiftRight_eq_div_pow,
    Nat.shiftRight_eq_div_pow]
  cases x.toBitVec.msb with
  | false => rfl
  | true =>
    rw [if_pos rfl]
    omega

theorem toNat_nibbles {upper lower : UInt32} (hupper : upper.toNat < 16)
    (hlower : lower.toNat < 16) :
    ((upper <<< 4) ||| lower).toUInt8.toNat = upper.toNat * 16 + lower.toNat := by
  have hshift : (upper <<< 4).toNat = upper.toNat * 2 ^ 4 := by
    rw [UInt32.toNat_shiftLeft]
    have hfour : (4 : UInt32).toNat % 32 = 4 := rfl
    rw [hfour, Nat.shiftLeft_eq]
    omega
  have hor : upper.toNat * 2 ^ 4 ||| lower.toNat = upper.toNat * 2 ^ 4 + lower.toNat := by
    rw [Nat.mul_comm, Nat.two_pow_add_eq_or_of_lt hlower]
  rw [UInt32.toNat_toUInt8, UInt32.toNat_or, hshift, hor]
  omega

theorem toNat_twelve {byte : UInt8} {nibble : UInt32} (hnibble : nibble.toNat < 16) :
    (byte.toUInt32 ||| (nibble <<< 8)).toNat = byte.toNat + nibble.toNat * 256 := by
  have hbyte := byte.toNat_lt
  have hshift : (nibble <<< 8).toNat = nibble.toNat * 2 ^ 8 := by
    rw [UInt32.toNat_shiftLeft]
    have height : (8 : UInt32).toNat % 32 = 8 := rfl
    rw [height, Nat.shiftLeft_eq]
    omega
  have hor : nibble.toNat * 2 ^ 8 ||| byte.toNat = nibble.toNat * 2 ^ 8 + byte.toNat := by
    rw [Nat.mul_comm, Nat.two_pow_add_eq_or_of_lt hbyte]
  rw [UInt32.toNat_or, hshift, UInt8.toNat_toUInt32, Nat.or_comm, hor, Nat.add_comm]
  rfl

theorem toNat_upper (byte : UInt8) : ((byte.toUInt32 &&& 0xf0) >>> 4).toNat = byte.toNat / 16 := by
  have hbyte := byte.toNat_lt
  have hand : (byte.toUInt32 &&& 0xf0).toNat = byte.toNat &&& 240 := BitVec.toNat_and _ _
  have hfour : (4 : UInt32).toNat % 32 = 4 := rfl
  have hmask : 240 >>> 4 = 2 ^ 4 - 1 := rfl
  rw [UInt32.toNat_shiftRight, hand, hfour, Nat.shiftRight_and_distrib, hmask,
    Nat.and_two_pow_sub_one_eq_mod, Nat.shiftRight_eq_div_pow]
  omega

theorem toNat_lower (byte : UInt8) : (byte.toUInt32 &&& 0x0f).toNat = byte.toNat % 16 := by
  have hand : (byte.toUInt32 &&& 0x0f).toNat = byte.toNat &&& (2 ^ 4 - 1) := BitVec.toNat_and _ _
  rw [hand, Nat.and_two_pow_sub_one_eq_mod]

theorem localAck_eq (h : FsdpReliablePacketHeader) :
    h.localAck = (h.ack1.toNat + h.ack2.toNat / 16 * 256 : Nat) := by
  have hupper := toNat_upper h.ack2
  have hbyte := h.ack2.toNat_lt
  rw [localAck, toNat_twelve (by omega), hupper]

theorem remoteAck_eq (h : FsdpReliablePacketHeader) :
    h.remoteAck = (h.ack3.toNat + h.ack2.toNat % 16 * 256 : Nat) := by
  have hlower := toNat_lower h.ack2
  rw [remoteAck, toNat_twelve (by omega), hlower]

theorem localAck_range (h : FsdpReliablePacketHeader) : 0 ≤ h.localAck ∧ h.localAck < 4096 := by
  have h1 := h.ack1.toNat_lt
  have h2 := h.ack2.toNat_lt
  rw [localAck_eq]
  omega

theorem remoteAck_range (h : FsdpReliablePacketHeader) :
    0 ≤ h.remoteAck ∧ h.remoteAck < 4096 := by
  have h3 := h.ack3.toNat_lt
  rw [remoteAck_eq]
  omega

theorem toNat_emod (x : Int32) : ((x.toUInt32.toNat % 4096 : Nat) : Int) = x.toInt % 4096 := by
  have hcond : x.toInt = if 2 * x.toUInt32.toNat < 2 ^ 32 then (x.toUInt32.toNat : Int)
      else x.toUInt32.toNat - (2 ^ 32 : Nat) :=
    BitVec.toInt_eq_toNat_cond _
  rw [hcond]
  by_cases hsign : 2 * x.toUInt32.toNat < 2 ^ 32
  · rw [if_pos hsign]
    omega
  · rw [if_neg hsign]
    omega

theorem toNat_ack2 (x y : Int32) (h : FsdpReliablePacketHeader) :
    (h.setAckCounters x y).ack2.toNat =
      x.toUInt32.toNat / 256 % 16 * 16 + y.toUInt32.toNat / 256 % 16 := by
  have hx := toNat_nibble x
  have hy := toNat_nibble y
  rw [← hx, ← hy]
  exact toNat_nibbles (by omega) (by omega)

theorem localAck_setAckCounters (x y : Int32) (h : FsdpReliablePacketHeader) :
    (h.setAckCounters x y).localAck = x.toInt % 4096 := by
  have h1 : (h.setAckCounters x y).ack1.toNat = x.toUInt32.toNat % 256 := toNat_byte x
  rw [localAck_eq, h1, toNat_ack2, ← toNat_emod]
  omega

theorem remoteAck_setAckCounters (x y : Int32) (h : FsdpReliablePacketHeader) :
    (h.setAckCounters x y).remoteAck = y.toInt % 4096 := by
  have h3 : (h.setAckCounters x y).ack3.toNat = y.toUInt32.toNat % 256 := toNat_byte y
  rw [remoteAck_eq, h3, toNat_ack2, ← toNat_emod]
  omega

theorem toInt_ofInt_emod {ack : Int} (h : 0 ≤ ack ∧ ack < 4096) :
    (Int32.ofInt ack).toInt % 4096 = ack := by
  rw [Int32.toInt_ofInt_of_le (by omega) (by omega), Int.emod_eq_of_lt h.1 h.2]

variable (value : Int32) (h : FsdpReliablePacketHeader)

@[simp] theorem localAck_setLocalAck : (h.setLocalAck value).localAck = value.toInt % 4096 :=
  localAck_setAckCounters _ _ h

@[simp] theorem remoteAck_setLocalAck : (h.setLocalAck value).remoteAck = h.remoteAck := by
  rw [setLocalAck, remoteAck_setAckCounters, toInt_ofInt_emod h.remoteAck_range]

@[simp] theorem localAck_setRemoteAck : (h.setRemoteAck value).localAck = h.localAck := by
  rw [setRemoteAck, localAck_setAckCounters, toInt_ofInt_emod h.localAck_range]

@[simp] theorem remoteAck_setRemoteAck : (h.setRemoteAck value).remoteAck = value.toInt % 4096 :=
  remoteAck_setAckCounters _ _ h

end FsdpReliablePacketHeader

inductive AckAssignment where
  | localAck (value : Int32)
  | remoteAck (value : Int32)
  deriving DecidableEq, Repr

namespace AckAssignment

def assign : AckAssignment → FsdpReliablePacketHeader → FsdpReliablePacketHeader
  | .localAck value, h => h.setLocalAck value
  | .remoteAck value, h => h.setRemoteAck value

def localValue : AckAssignment → Option Int32
  | .localAck value => some value
  | .remoteAck _ => none

def remoteValue : AckAssignment → Option Int32
  | .localAck _ => none
  | .remoteAck value => some value

/-- The twelve bits of the last value, or those there were. -/
def remains (initial : Int) (values : List Int32) : Int :=
  values.getLast?.elim initial fun value => value.toInt % 4096

theorem remains_cons (initial : Int) (value : Int32) (values : List Int32) :
    remains initial (value :: values) = remains (value.toInt % 4096) values := by
  rw [remains, remains, List.getLast?_cons]
  cases values.getLast? with
  | none => rfl
  | some last => rfl

theorem localAck_run (as : List AckAssignment) (h : FsdpReliablePacketHeader) :
    (runTotal assign as h).localAck = remains h.localAck (as.filterMap localValue) := by
  induction as generalizing h with
  | nil => rfl
  | cons a as ih =>
    apply (ih (assign a h)).trans
    cases a with
    | localAck value =>
      have hcons := remains_cons h.localAck value (as.filterMap localValue)
      rw [← FsdpReliablePacketHeader.localAck_setLocalAck value h] at hcons
      exact hcons.symm
    | remoteAck value =>
      have hother := FsdpReliablePacketHeader.localAck_setRemoteAck value h
      exact congrArg (remains · _) hother

theorem remoteAck_run (as : List AckAssignment) (h : FsdpReliablePacketHeader) :
    (runTotal assign as h).remoteAck = remains h.remoteAck (as.filterMap remoteValue) := by
  induction as generalizing h with
  | nil => rfl
  | cons a as ih =>
    apply (ih (assign a h)).trans
    cases a with
    | localAck value =>
      have hother := FsdpReliablePacketHeader.remoteAck_setLocalAck value h
      exact congrArg (remains · _) hother
    | remoteAck value =>
      have hcons := remains_cons h.remoteAck value (as.filterMap remoteValue)
      rw [← FsdpReliablePacketHeader.remoteAck_setRemoteAck value h] at hcons
      exact hcons.symm

theorem fields_run (as : List AckAssignment) (h : FsdpReliablePacketHeader) :
    (runTotal assign as h).opcode = h.opcode ∧ (runTotal assign as h).unk06 = h.unk06 ∧
      (runTotal assign as h).magic = h.magic := by
  induction as generalizing h with
  | nil => exact ⟨rfl, rfl, rfl⟩
  | cons a as ih =>
    have hrest := ih (assign a h)
    cases a with
    | localAck value => exact hrest
    | remoteAck value => exact hrest

end AckAssignment

namespace FsdpReliablePacketHeader

/-- The header with other bytes for the acknowledgements. -/
def withAcks (h : FsdpReliablePacketHeader) (acks : UInt8 × UInt8 × UInt8) :
    FsdpReliablePacketHeader :=
  { h with ack1 := acks.1, ack2 := acks.2.1, ack3 := acks.2.2 }

/-- The pairs of twelve bits are the triples of bytes. -/
theorem acks_bijOn (h : FsdpReliablePacketHeader) :
    Set.BijOn (fun acks => ((h.withAcks acks).localAck, (h.withAcks acks).remoteAck)) Set.univ
      (Set.Ico 0 4096 ×ˢ Set.Ico 0 4096) := by
  refine ⟨?_, ?_, ?_⟩
  · intro acks _
    exact ⟨localAck_range _, remoteAck_range _⟩
  · rintro ⟨a1, a2, a3⟩ _ ⟨b1, b2, b3⟩ _ hsame
    obtain ⟨hlocal, hremote⟩ := Prod.mk.inj hsame
    have h1 := a1.toNat_lt
    have h1' := b1.toNat_lt
    have h3 := a3.toNat_lt
    have h3' := b3.toNat_lt
    simp only [localAck_eq, remoteAck_eq, withAcks, Int.natCast_inj] at hlocal hremote
    have e1 : a1.toNat = b1.toNat := by omega
    have e2 : a2.toNat = b2.toNat := by omega
    have e3 : a3.toNat = b3.toNat := by omega
    rw [UInt8.toNat_inj.1 e1, UInt8.toNat_inj.1 e2, UInt8.toNat_inj.1 e3]
  · rintro ⟨x, y⟩ ⟨hx, hy⟩
    let set := h.setAckCounters (Int32.ofInt x) (Int32.ofInt y)
    refine ⟨(set.ack1, set.ack2, set.ack3), trivial, ?_⟩
    have hlocal := localAck_setAckCounters (Int32.ofInt x) (Int32.ofInt y) h
    have hremote := remoteAck_setAckCounters (Int32.ofInt x) (Int32.ofInt y) h
    rw [toInt_ofInt_emod hx] at hlocal
    rw [toInt_ofInt_emod hy] at hremote
    exact Prod.ext hlocal hremote

end FsdpReliablePacketHeader

theorem acks_faithful (h : FsdpReliablePacketHeader) (as : List AckAssignment) :
    (runTotal AckAssignment.assign as h).localAck =
        AckAssignment.remains h.localAck (as.filterMap AckAssignment.localValue) ∧
      (runTotal AckAssignment.assign as h).localAck ∈ Set.Ico 0 4096 ∧
      (runTotal AckAssignment.assign as h).remoteAck =
        AckAssignment.remains h.remoteAck (as.filterMap AckAssignment.remoteValue) ∧
      (runTotal AckAssignment.assign as h).remoteAck ∈ Set.Ico 0 4096 ∧
      (runTotal AckAssignment.assign as h).opcode = h.opcode ∧
      (runTotal AckAssignment.assign as h).unk06 = h.unk06 ∧
      (runTotal AckAssignment.assign as h).magic = h.magic ∧
      Set.BijOn (fun acks => ((h.withAcks acks).localAck, (h.withAcks acks).remoteAck)) Set.univ
        (Set.Ico 0 4096 ×ˢ Set.Ico 0 4096) := by
  obtain ⟨hopcode, hunk06, hmagic⟩ := AckAssignment.fields_run as h
  exact ⟨AckAssignment.localAck_run as h, FsdpReliablePacketHeader.localAck_range _,
    AckAssignment.remoteAck_run as h, FsdpReliablePacketHeader.remoteAck_range _, hopcode, hunk06,
    hmagic, h.acks_bijOn⟩

namespace FsdpReliablePacket

def maxAckValue : Int := 2 ^ 12

def localAck (p : FsdpReliablePacket) : Int := p.localAckCache

def remoteAck (p : FsdpReliablePacket) : Int := p.remoteAckCache

def opcode (p : FsdpReliablePacket) : FsdpOpcode := p.header.opcode

def unk06 (p : FsdpReliablePacket) : UInt8 := p.header.unk06

def setLocalAck (value : Int32) (p : FsdpReliablePacket) : FsdpReliablePacket :=
  { p with
    header := p.header.setLocalAck value
    localAckCache := value.toInt.tmod maxAckValue }

def setRemoteAck (value : Int32) (p : FsdpReliablePacket) : FsdpReliablePacket :=
  { p with
    header := p.header.setRemoteAck value
    remoteAckCache := value.toInt.tmod maxAckValue }

def setOpcode (value : FsdpOpcode) (p : FsdpReliablePacket) : FsdpReliablePacket :=
  { p with header := { p.header with opcode := value } }

def setUnk06 (value : UInt8) (p : FsdpReliablePacket) : FsdpReliablePacket :=
  { p with header := { p.header with unk06 := value } }

/-- What is read from the properties of the acknowledgements is what the header says. -/
structure Fresh (p : FsdpReliablePacket) : Prop where
  localAck : p.localAck = p.header.localAck
  remoteAck : p.remoteAck = p.header.remoteAck
  localRange : p.localAck ∈ Set.Ico 0 4096
  remoteRange : p.remoteAck ∈ Set.Ico 0 4096

theorem fresh_iff {p : FsdpReliablePacket} :
    p.Fresh ↔ p.localAck = p.header.localAck ∧ p.remoteAck = p.header.remoteAck := by
  constructor
  · intro h
    exact ⟨h.localAck, h.remoteAck⟩
  · rintro ⟨hlocal, hremote⟩
    refine ⟨hlocal, hremote, ?_, ?_⟩
    · rw [hlocal]
      exact p.header.localAck_range
    · rw [hremote]
      exact p.header.remoteAck_range

end FsdpReliablePacket

inductive PacketAssignment where
  | header (value : FsdpReliablePacketHeader)
  | localAck (value : Int32)
  | remoteAck (value : Int32)
  | opcode (value : FsdpOpcode)
  | unk06 (value : UInt8)
  deriving DecidableEq, Repr

namespace PacketAssignment

def assign : PacketAssignment → FsdpReliablePacket → FsdpReliablePacket
  | .header value, p => { p with header := value }
  | .localAck value, p => p.setLocalAck value
  | .remoteAck value, p => p.setRemoteAck value
  | .opcode value, p => p.setOpcode value
  | .unk06 value, p => p.setUnk06 value

/-- The properties that are not assigned read the same, apart from the header. -/
def OthersUnchanged : PacketAssignment → FsdpReliablePacket → FsdpReliablePacket → Prop
  | .header _, _, _ => True
  | .localAck _, p, q => q.remoteAck = p.remoteAck ∧ q.opcode = p.opcode ∧ q.unk06 = p.unk06
  | .remoteAck _, p, q => q.localAck = p.localAck ∧ q.opcode = p.opcode ∧ q.unk06 = p.unk06
  | .opcode _, p, q => q.localAck = p.localAck ∧ q.remoteAck = p.remoteAck ∧ q.unk06 = p.unk06
  | .unk06 _, p, q => q.localAck = p.localAck ∧ q.remoteAck = p.remoteAck ∧ q.opcode = p.opcode

/-- What an assignment should do. -/
def Caches (a : PacketAssignment) (p : FsdpReliablePacket) : Prop :=
  (a.assign p).Fresh ∧ a.OthersUnchanged p (a.assign p)

/-- A header is replaced by one with the same acknowledgements, and a negative acknowledgement
counts as zero. -/
def Permitted : PacketAssignment → FsdpReliablePacket → Prop
  | .header value, p => value.localAck = p.localAck ∧ value.remoteAck = p.remoteAck
  | .localAck value, _ => 0 ≤ value.toInt ∨ 4096 ∣ value.toInt
  | .remoteAck value, _ => 0 ≤ value.toInt ∨ 4096 ∣ value.toInt
  | .opcode _, _ => True
  | .unk06 _, _ => True

theorem othersUnchanged (a : PacketAssignment) (p : FsdpReliablePacket) :
    a.OthersUnchanged p (a.assign p) := by
  cases a with
  | header value => trivial
  | localAck value => exact ⟨rfl, rfl, rfl⟩
  | remoteAck value => exact ⟨rfl, rfl, rfl⟩
  | opcode value => exact ⟨rfl, rfl, rfl⟩
  | unk06 value => exact ⟨rfl, rfl, rfl⟩

/-- The remainder of the cache is the twelve bits of the header. -/
theorem tmod_eq_iff (value : Int) :
    value.tmod FsdpReliablePacket.maxAckValue = value % 4096 ↔ 0 ≤ value ∨ 4096 ∣ value := by
  change value.tmod 4096 = value % 4096 ↔ _
  rw [Int.tmod_eq_emod]
  by_cases h : 0 ≤ value ∨ 4096 ∣ value
  · rw [if_pos h]
    exact iff_of_true (Int.sub_zero _) h
  · rw [if_neg h]
    apply iff_of_false _ h
    change ¬ value % 4096 - 4096 = value % 4096
    omega

theorem caches_iff_permitted {p : FsdpReliablePacket} (a : PacketAssignment) (hp : p.Fresh) :
    a.Caches p ↔ a.Permitted p := by
  rw [Caches, FsdpReliablePacket.fresh_iff, and_iff_left (othersUnchanged a p)]
  cases a with
  | header value =>
    exact and_congr eq_comm eq_comm
  | localAck value =>
    have hlocal := FsdpReliablePacketHeader.localAck_setLocalAck value p.header
    have hremote := FsdpReliablePacketHeader.remoteAck_setLocalAck value p.header
    have hiff := tmod_eq_iff value.toInt
    rw [← hlocal] at hiff
    exact (and_iff_left (hp.remoteAck.trans hremote.symm)).trans hiff
  | remoteAck value =>
    have hlocal := FsdpReliablePacketHeader.localAck_setRemoteAck value p.header
    have hremote := FsdpReliablePacketHeader.remoteAck_setRemoteAck value p.header
    have hiff := tmod_eq_iff value.toInt
    rw [← hremote] at hiff
    exact (and_iff_right (hp.localAck.trans hlocal.symm)).trans hiff
  | opcode value =>
    exact iff_of_true ⟨hp.localAck, hp.remoteAck⟩ trivial
  | unk06 value =>
    exact iff_of_true ⟨hp.localAck, hp.remoteAck⟩ trivial

theorem fresh_new (header : FsdpReliablePacketHeader) (payload : List UInt8) :
    (FsdpReliablePacket.new header payload).Fresh :=
  FsdpReliablePacket.fresh_iff.2 ⟨rfl, rfl⟩

theorem acks_cached_iff (header : FsdpReliablePacketHeader) (payload : List UInt8)
    (as : List PacketAssignment) :
    (FsdpReliablePacket.new header payload).Fresh ∧
      (AllSteps assign Caches as (.new header payload) ↔
        AllSteps assign Permitted as (.new header payload)) := by
  refine ⟨fresh_new header payload, ?_⟩
  apply allSteps_iff (P := FsdpReliablePacket.Fresh)
  · intro a p hp
    exact caches_iff_permitted a hp
  · intro a p hp hcaches
    exact hcaches.1
  · exact fresh_new header payload

/-- A new header leaves the cache as it was, and the cache keeps the sign of minus one. -/
theorem acks_not_cached :
    ¬ AllSteps assign Caches [.header (FsdpReliablePacketHeader.createDefault.setLocalAck 1)]
        (.new .createDefault []) ∧
      ¬ AllSteps assign Caches [.localAck (-1)] (.new .createDefault []) := by
  constructor
  · rintro ⟨h, -⟩
    exact absurd h.1.localAck (by decide)
  · rintro ⟨h, -⟩
    exact absurd h.1.localAck (by decide)

end PacketAssignment

end AcOpenServer
