import Csqtt.StunCodec

/-!
# The messages of the TURN core

What the core builds and what it reads from responses: requests with padded attributes, integrity
and fingerprint, XOR addresses, error codes and lifetimes. The digests are parameters.
-/

namespace Csqtt
namespace Turn

open Buffer Stun

structure Primitives where
  md5 : Bytes → Bytes
  hmacSha1 : Bytes → Bytes → Bytes
  crc32 : Bytes → UInt32
  md5_length : ∀ message, (md5 message).length = 16
  hmacSha1_length : ∀ key message, (hmacSha1 key message).length = 20

def attrUsername : UInt16 := 0x0006
def attrMessageIntegrity : UInt16 := 0x0008
def attrErrorCode : UInt16 := 0x0009
def attrChannelNumber : UInt16 := 0x000c
def attrLifetime : UInt16 := 0x000d
def attrXorPeerAddress : UInt16 := 0x0012
def attrRealm : UInt16 := 0x0014
def attrNonce : UInt16 := 0x0015
def attrXorRelayedAddress : UInt16 := 0x0016
def attrRequestedAddressFamily : UInt16 := 0x0017
def attrRequestedTransport : UInt16 := 0x0019

inductive Family
  | v4
  | v6
  deriving DecidableEq

def Family.octets : Family → ℕ
  | .v4 => 4
  | .v6 => 16

structure SocketAddr where
  family : Family
  ip : Bytes
  port : UInt16
  ip_length : ip.length = family.octets
  deriving DecidableEq

/-- What the functions of the core fail with. -/
inductive TurnError
  | refused (operation : String) (status : ℤ)
  | incompleteAuthentication
  | missingKey
  | messageTooLarge
  | noRelayedAddress
  | invalidRelayedAddress
  | zeroAllocateLifetime
  | zeroRefreshLifetime
  | nonzeroDeallocationLifetime
  | malformedXorAddress
  | invalidXorFamily
  deriving DecidableEq

def Family.code : Family → UInt8
  | .v4 => 1
  | .v6 => 2

def addressMask (transaction : TransactionId) : Bytes :=
  BigEndian.encode 4 magicCookie ++ transaction.bytes

def encodeXorAddress (a : SocketAddr) (transaction : TransactionId) : Bytes :=
  [0, a.family.code] ++ BigEndian.encode 2 (a.port.toNat ^^^ magicCookie >>> 16) ++
    match a.family with
    | .v4 => BigEndian.encode 4 (BigEndian.value a.ip ^^^ magicCookie)
    | .v6 => List.zipWith (· ^^^ ·) a.ip (addressMask transaction)

theorem length_addressMask (transaction : TransactionId) :
    (addressMask transaction).length = 16 := by
  rw [addressMask, List.length_append, BigEndian.length_encode, transaction.length_eq]

def decodeXorAddress (value : Bytes) (transaction : TransactionId) : Except TurnError SocketAddr :=
  if value.length < 4 ∨ value.getD 0 0 ≠ 0 then .error .malformedXorAddress
  else
    let port := UInt16.ofNat (u16At value 2 ^^^ magicCookie >>> 16)
    if value.getD 1 0 = 1 ∧ value.length = 8 then
      .ok ⟨.v4, BigEndian.encode 4 (BigEndian.value (slice value 4 8) ^^^ magicCookie), port,
        BigEndian.length_encode ..⟩
    else if h : value.getD 1 0 = 2 ∧ value.length = 20 then
      .ok ⟨.v6, List.zipWith (· ^^^ ·) (value.drop 4) (addressMask transaction), port, by
        rw [List.length_zipWith, length_addressMask, List.length_drop, h.2]
        rfl⟩
    else .error .invalidXorFamily

/-- `bytes[2..4]` becomes the length of the message with `trailing` more bytes. -/
def setMessageLength (bytes : Bytes) (trailing : ℕ) : Except TurnError Bytes :=
  let length := bytes.length - 20 + trailing
  if length < 2 ^ 16 then .ok (overwrite bytes 2 (BigEndian.encode 2 length))
  else .error .messageTooLarge

structure MessageBuilder where
  bytes : Bytes
  transaction : TransactionId

namespace MessageBuilder

def withTransaction (kind : ℕ) (transaction : TransactionId) : MessageBuilder :=
  ⟨BigEndian.encode 2 kind ++ BigEndian.encode 2 0 ++ BigEndian.encode 4 magicCookie ++
    transaction.bytes, transaction⟩

/-- The loop pads the whole message to a multiple of four. -/
def push (b : MessageBuilder) (kind : UInt16) (value : Bytes) : MessageBuilder :=
  let bytes := b.bytes ++ BigEndian.encode 2 kind.toNat ++ BigEndian.encode 2 value.length ++ value
  { b with bytes := bytes ++ List.replicate ((4 - bytes.length % 4) % 4) 0 }

def pushXorAddress (b : MessageBuilder) (kind : UInt16) (a : SocketAddr) : MessageBuilder :=
  b.push kind (encodeXorAddress a b.transaction)

def finish (prims : Primitives) (b : MessageBuilder) : Except TurnError Bytes :=
  (setMessageLength b.bytes 8).map fun bytes =>
    ({ b with bytes }.push attrFingerprint
      (BigEndian.encode 4 (prims.crc32 bytes ^^^ fingerprintXor).toNat)).bytes

def finishAuthenticated (prims : Primitives) (b : MessageBuilder) (key : Bytes) :
    Except TurnError Bytes :=
  match setMessageLength b.bytes 24 with
  | .error e => .error e
  | .ok bytes => ({ b with bytes }.push attrMessageIntegrity (prims.hmacSha1 key bytes)).finish
      prims

end MessageBuilder

/-- The bytes of a packet that its integrity covers, with the length they had when it was made. -/
def signedPart (packet : Bytes) (headerStart : ℕ) : Bytes :=
  overwrite (packet.take headerStart) 2 (BigEndian.encode 2 (headerStart + 24 - 20))

def verifyIntegrity (prims : Primitives) (packet : Bytes) (m : Message) (key : Option Bytes) :
    Bool :=
  match key, m.attributeOf attrMessageIntegrity with
  | some key, some integrity =>
    if integrity.value.length ≠ 20 ∨ integrity.headerStart < 20 then false
    else if 2 ^ 16 ≤ integrity.headerStart + 24 - 20 then false
    else prims.hmacSha1 key (signedPart packet integrity.headerStart) = integrity.value
  | _, _ => false

def errorCode (m : Message) : Option ℕ :=
  (m.attributeOf attrErrorCode).bind fun a =>
    if a.value.length < 4 ∨ 6 < a.value.getD 2 0 ∨ 99 < a.value.getD 3 0 then none
    else some ((a.value.getD 2 0).toNat * 100 + (a.value.getD 3 0).toNat)

def responseRequiresIntegrity (m : Message) : Bool :=
  match m.messageClass with
  | .success => true
  | .error => errorCode m ∉ [some 400, some 401, some 420, some 438]
  | _ => false

def isFingerprintedAllocationMismatch (prims : Primitives) (m : Message) : Bool :=
  m.messageClass = .error ∧ errorCode m = some 437 ∧ m.fingerprintValid prims.crc32 = some true

def valueU32 (a : Attribute) : Option ℕ :=
  if a.value.length = 4 then some (BigEndian.value a.value) else none

def attributeU32 (m : Message) (kind : UInt16) : Option ℕ := (m.attributeOf kind).bind valueU32

end Turn
end Csqtt
