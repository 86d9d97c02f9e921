import AcOpenServer.Binary

namespace AcOpenServer
open Library
set_option autoImplicit true

/-- A point in time, as its number of 100 ns ticks in UTC since the year 1. -/
structure DateTimeOffset where
  utcTicks : Nat
  le_max : utcTicks ≤ 3155378975999999999
  deriving DecidableEq, Repr

namespace DateTimeOffset

/-- The milliseconds `FromUnixTimeMilliseconds` accepts. -/
def InRange (milliseconds : Int) : Prop :=
  -62135596800000 ≤ milliseconds ∧ milliseconds ≤ 253402300799999

instance : Decidable (InRange milliseconds) := by
  unfold InRange
  infer_instance

def ofMilliseconds (milliseconds : Int) (h : InRange milliseconds) : DateTimeOffset where
  utcTicks := ((milliseconds + 62135596800000) * 10000).toNat
  le_max := by
    have hmax := h.2
    omega

def fromUnixTimeMilliseconds (milliseconds : Int64) : Codec DateTimeOffset :=
  if h : InRange milliseconds.toInt then return ofMilliseconds milliseconds.toInt h
  else throw .argumentOutOfRange

end DateTimeOffset

structure TicketDataType where
  value : UInt16
  deriving DecidableEq, Repr

namespace TicketDataType

def empty : TicketDataType := ⟨0⟩
def u32 : TicketDataType := ⟨1⟩
def u64 : TicketDataType := ⟨2⟩
def bString : TicketDataType := ⟨4⟩
def time : TicketDataType := ⟨7⟩
def binary : TicketDataType := ⟨8⟩
def blobUserdata : TicketDataType := ⟨0x3000 ||| 0⟩
def blobSignature : TicketDataType := ⟨0x3000 ||| 2⟩

def toString (type : TicketDataType) : String :=
  if type = .empty then "Empty"
  else if type = .u32 then "U32"
  else if type = .u64 then "U64"
  else if type = .bString then "BString"
  else if type = .time then "Time"
  else if type = .binary then "Binary"
  else if type = .blobUserdata then "BlobUserdata"
  else if type = .blobSignature then "BlobSignature"
  else s!"{type.value}"

end TicketDataType

structure Userdata where
  serial : List UInt8
  issuerID : UInt32
  issuedDate : DateTimeOffset
  expireDate : DateTimeOffset
  userID : UInt64
  onlineID : String
  region : List UInt8
  domain : String
  serviceID : List UInt8
  status : UInt32
  cookie : List UInt8
  deriving DecidableEq

/-- A ticket for netplay. -/
structure Ticket extends Userdata where
  version : UInt32
  signer : List UInt8
  signature : List UInt8
  deriving DecidableEq

namespace Ticket

open BinaryBufferReader

def unexpectedType (expected received : TicketDataType) : Exn :=
  .ticketParse (s!"Unexpected TicketDataType; " ++
    s!"Expected: {expected.toString}, Received: {received.toString}")

def unexpectedLength (expected : Nat) (received : UInt16) : Exn :=
  .ticketParse (s!"Unexpected TicketDataType length; " ++
    s!"Expected: {expected}, Received: {received}")

/-- The part of `Expect` behind the type. Only one of its overloads is given a length to
expect. -/
def expectLength (expectedLength : Option Nat) (payload : Span) (offset : Nat) :
    Codec (Nat × Nat) := do
  let (length, offset) ← readUInt16BigEndianRef payload offset
  if ∀ expected ∈ expectedLength, length.toNat = expected then
    return (length.toNat, offset)
  else
    throw (unexpectedLength (expectedLength.getD 0) length)

def expect (expectedType : TicketDataType) (expectedLength : Option Nat) (payload : Span)
    (offset : Nat) : Codec (Nat × Nat) := do
  let (type, offset) ← readUInt16BigEndianRef payload offset
  if (⟨type⟩ : TicketDataType) ≠ expectedType then
    throw (unexpectedType expectedType ⟨type⟩)
  else
    expectLength expectedLength payload offset

/-- The readers of the ticket: an `Expect`, then the data. -/
def readTicketData (type : TicketDataType) (expectedLength : Option Nat)
    (readData : (length offset : Nat) → Codec (α × Nat)) (payload : Span) (offset : Nat) :
    Codec (α × Nat) := do
  let (length, offset) ← expect type expectedLength payload offset
  readData length offset

def readTicketDataU32 (payload : Span) (offset : Nat) : Codec (UInt32 × Nat) :=
  readTicketData .u32 (some 4) (fun _ offset => readUInt32BigEndianRef payload offset)
    payload offset

def readTicketDataU64 (payload : Span) (offset : Nat) : Codec (UInt64 × Nat) :=
  readTicketData .u64 (some 8) (fun _ offset => readUInt64BigEndianRef payload offset)
    payload offset

def readTicketDataTime (payload : Span) (offset : Nat) : Codec (DateTimeOffset × Nat) :=
  readTicketData .time (some 8)
    (fun _ offset => do
      let (value, offset) ← readUInt64BigEndianRef payload offset
      return (← DateTimeOffset.fromUnixTimeMilliseconds value.toInt64, offset))
    payload offset

def readTicketDataBString (payload : Span) (offset : Nat) : Codec (String × Nat) :=
  readTicketData .bString none (fun length offset => readFixedUTF8Ref payload length offset)
    payload offset

def readTicketDataBinary (payload : Span) (offset : Nat) : Codec (List UInt8 × Nat) :=
  readTicketData .binary none
    (fun length offset => do
      let value ← payload.slice offset length
      return (value, offset + length))
    payload offset

def readTicketDataEmpty (payload : Span) (offset : Nat) : Codec (Unit × Nat) :=
  readTicketData .empty (some 0) (fun _ offset => return ((), offset)) payload offset

/-- The header of a blob, whose length is discarded. -/
def readBlobHeader (type : TicketDataType) (payload : Span) (offset : Nat) :
    Codec (Unit × Nat) :=
  readTicketData type none (fun _ offset => return ((), offset)) payload offset

def peekTicketDataType (payload : Span) (offset : Nat) : Codec TicketDataType := do
  return ⟨← readUInt16BigEndian payload offset⟩

def readCookie (payload : Span) (offset : Nat) : Codec (List UInt8 × Nat) := do
  if (← peekTicketDataType payload offset) ≠ .empty then
    readTicketDataBinary payload offset
  else
    return ([], offset)

def readUserdata (payload : Span) (offset : Nat) : Codec (Userdata × Nat) := do
  let (_, offset) ← readBlobHeader .blobUserdata payload offset
  let (serial, offset) ← readTicketDataBinary payload offset
  let (issuerID, offset) ← readTicketDataU32 payload offset
  let (issuedDate, offset) ← readTicketDataTime payload offset
  let (expireDate, offset) ← readTicketDataTime payload offset
  let (userID, offset) ← readTicketDataU64 payload offset
  let (onlineID, offset) ← readTicketDataBString payload offset
  let (region, offset) ← readTicketDataBinary payload offset
  let (domain, offset) ← readTicketDataBString payload offset
  let (serviceID, offset) ← readTicketDataBinary payload offset
  let (status, offset) ← readTicketDataU32 payload offset
  let (cookie, offset) ← readCookie payload offset
  let (_, offset) ← readTicketDataEmpty payload offset
  let (_, offset) ← readTicketDataEmpty payload offset
  return ({ serial, issuerID, issuedDate, expireDate, userID, onlineID, region, domain,
            serviceID, status, cookie }, offset)

def readSignature (payload : Span) (offset : Nat) :
    Codec ((List UInt8 × List UInt8) × Nat) := do
  let (_, offset) ← readBlobHeader .blobSignature payload offset
  let (signer, offset) ← readTicketDataBinary payload offset
  let (signature, offset) ← readTicketDataBinary payload offset
  return ((signer, signature), offset)

/-- The constructor of `Ticket`. -/
def parse (payload : Span) : Codec Ticket := do
  let (version, offset) ← readUInt32BigEndianRef payload 0
  let (size, offset) ← readInt32BigEndianRef payload offset
  if size < 0 then
    throw (.ticketParse (s!"Payloads bigger than 2147483647 are not supported; " ++
      s!"Size: {size.toUInt32}"))
  else if size.toInt > (payload.length : Int) - 8 then
    throw (.ticketParse (s!"Payload buffer is too small for the specified data size; " ++
      s!"Minimum Expected: {size}, Remaining: {(payload.length : Int) - 8}"))
  else
    let (userdata, offset) ← readUserdata payload offset
    let ((signer, signature), _) ← readSignature payload offset
    return { userdata with version, signer, signature }

/-- `TryParse`; its result is the ticket or the error. -/
def tryParse (payload : Span) : Codec (Except String Ticket) :=
  tryCatch (do return .ok (← parse payload)) fun
    | .ticketParse message => return .error message
    | e => throw e

def notIssuedYet (now : DateTimeOffset) (ticket : Ticket) : Bool :=
  now.utcTicks < ticket.issuedDate.utcTicks

def isExpired (now : DateTimeOffset) (ticket : Ticket) : Bool :=
  ticket.expireDate.utcTicks ≤ now.utcTicks

def getServiceIdString (ticket : Ticket) : Codec String :=
  readUTF8 ⟨ticket.serviceID, fun _ => 0⟩

end Ticket

end AcOpenServer
