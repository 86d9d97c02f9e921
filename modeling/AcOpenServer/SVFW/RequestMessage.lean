import AcOpenServer.Library.Utf8

namespace AcOpenServer
open Library
set_option autoImplicit true

structure RequestHandshake where
  aesCwcKey : List UInt8
  deriving DecidableEq, Repr

/-- `appVersion` is zero when the message has none. -/
structure GetServiceStatus where
  id : UInt32
  playerName : String
  unk3 : String
  appVersion : UInt64
  deriving DecidableEq, Repr

structure GetServiceStatusResponse where
  id : UInt32
  playerName : String
  unk3 : Bool
  appVersion : Int32
  deriving DecidableEq, Repr

/-- A variable-length integer of at most `groups` groups of seven bits. -/
def varint : (groups : Nat) → Nat → List UInt8
  | 0, _ => []
  | groups + 1, n =>
    if n < 128 then [UInt8.ofNat n]
    else UInt8.ofNat (n % 128 + 128) :: varint groups (n / 128)

theorem length_varint_le (groups n : Nat) : (varint groups n).length ≤ groups := by
  induction groups generalizing n with
  | zero => exact Nat.le_refl 0
  | succ groups ih =>
    rw [varint]
    split
    · exact Nat.le_add_left _ _
    · exact Nat.succ_le_succ (ih _)

/-- `ToByteArray` of a response all of whose fields were set. -/
def GetServiceStatusResponse.toByteArray (r : GetServiceStatusResponse) : List UInt8 :=
  0x08 :: varint 10 r.id.toNat ++
  (0x12 :: varint 10 (utf8Encode r.playerName).length ++ (utf8Encode r.playerName ++
  (0x18 :: (if r.unk3 then 1 else 0) ::
  (0x20 :: varint 10 r.appVersion.toInt64.toUInt64.toNat))))

structure RequestQueryLoginServerInfo where
  playerName : String
  f2 : String
  appVersion : UInt64
  deriving DecidableEq, Repr

structure RequestQueryLoginServerInfoResponse where
  port : UInt32
  deriving DecidableEq, Repr

def RequestQueryLoginServerInfoResponse.toByteArray
    (r : RequestQueryLoginServerInfoResponse) : List UInt8 := 0x08 :: varint 10 r.port.toNat

end AcOpenServer
