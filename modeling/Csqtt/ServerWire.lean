import Csqtt.ClientObfs

/-!
# The server's packet codec

`wrap_legacy_into` and `unwrap_legacy_in_place`. The server writes a packet into a buffer from its
beginning and decodes one where it lies. It can be told which of the two modes to expect or try the
video mode first, and it cuts a video payload after the DTLS records it starts with.
-/

namespace Csqtt

open Buffer

def serverPacketCapacity : ℕ := 1600

inductive WireError
  | invalidPacket
  | shortExtension
  | shortHeader
  | unsupportedPayloadType
  | srtpPadding
  | srtpBounds
  | srtpAuthentication
  | srtpTooShort
  | missingPadding
  | padding
  | emptyPayload
  | expectedAudio
  | authentication
  | srtpCapacity
  | aeadCapacity
  deriving DecidableEq

abbrev WireResult (α : Type) := Except (Fault WireError) α

namespace ServerWire

def refuse {α : Type} (e : WireError) : WireResult α := .error (.refused e)

def checkHeaderLen (wire : Bytes) (headerLen : ℕ) : WireResult ℕ :=
  if wire.length < headerLen then refuse .shortHeader else .ok headerLen

def rtpHeaderLen (wire : Bytes) : WireResult ℕ :=
  if wire.length < 13 then refuse .invalidPacket
  else do
    let first ← readByte wire 0
    if first >>> 6 ≠ 2 then refuse .invalidPacket
    else if first &&& 0x10 ≠ 0 then
      if wire.length < 16 then refuse .shortExtension
      else
        let words ← readSlice wire 14 16
        checkHeaderLen wire (12 + (4 + BigEndian.value words * 4))
    else checkHeaderLen wire 12

def rtpFields (wire : Bytes) : WireResult RtpFields := do
  let headerLen ← rtpHeaderLen wire
  let second ← readByte wire 1
  let payloadType := second &&& 0x7f
  if supportedPayloadType payloadType then
    let seq ← readSlice wire 2 4
    let timestamp ← readSlice wire 4 8
    let ssrc ← readSlice wire 8 12
    .ok ⟨headerLen, payloadType, UInt16.ofNat (BigEndian.value seq),
      UInt32.ofNat (BigEndian.value timestamp), UInt32.ofNat (BigEndian.value ssrc)⟩
  else refuse .unsupportedPayloadType

structure DecodedPacket where
  start : ℕ
  stop : ℕ
  seq : UInt16
  payloadType : UInt8
  isSrtp : Bool
  deriving DecidableEq

def srtpVerified (c : Cipher) (wire : Bytes) : WireResult Bool := do
  let messageLen ← minus wire.length 10
  let message ← readSlice wire 0 messageLen
  let expected ← readSlice (c.mac message) 0 10
  let tag ← readSlice wire messageLen wire.length
  .ok (expected == tag)

def srtpEnd (wire : Bytes) (headerLen : ℕ) : WireResult ℕ := do
  let messageLen ← minus wire.length 10
  let first ← readByte wire 0
  let stop ←
    if first &&& 0x20 ≠ 0 then do
      let last ← minus messageLen 1
      let padding ← readByte wire last
      if padding = 0 ∨ messageLen - headerLen < padding.toNat then refuse .srtpPadding
      else minus messageLen padding.toNat
    else .ok messageLen
  if stop < headerLen then refuse .srtpBounds else .ok stop

def isDtlsKind (kind : UInt8) : Bool := 20 ≤ kind && kind ≤ 23

/-- The end of the whole DTLS records from `offset` on. -/
def dtlsLoop (wire : Bytes) (stop offset : ℕ) : WireResult ℕ :=
  if _h : offset + 13 ≤ stop then do
    let kind ← readByte wire offset
    let version ← readByte wire (offset + 1)
    if !isDtlsKind kind ∨ version ≠ 0xfe then .ok offset
    else
      let high ← readByte wire (offset + 11)
      let low ← readByte wire (offset + 12)
      let recordLen := 13 + (high.toNat * 256 + low.toNat)
      if stop < offset + recordLen then .ok offset
      else dtlsLoop wire stop (offset + recordLen)
  else .ok offset
termination_by stop - offset
decreasing_by omega

def dtlsEnd (wire : Bytes) (headerLen stop : ℕ) : WireResult ℕ :=
  if 13 ≤ stop - headerLen then do
    let first ← readByte wire headerLen
    if isDtlsKind first then
      let offset ← dtlsLoop wire stop headerLen
      .ok (if headerLen < offset then offset else stop)
    else .ok stop
  else .ok stop

def srtpDecrypt (c : Cipher) (wire : Bytes) (f : RtpFields) (stop : ℕ) :
    WireResult (Bytes × ℕ) := do
  let body ← readSlice wire f.headerLen stop
  let wire ← writeAt wire f.headerLen (c.ctr (srtpIv f.ssrc f.seq f.timestamp) body)
  let stop ← dtlsEnd wire f.headerLen stop
  .ok (wire, stop)

def aeadEnd (wire : Bytes) (f : RtpFields) : WireResult ℕ := do
  let first ← readByte wire 0
  let stop ←
    if first &&& 0x20 ≠ 0 then
      match wire.getLast? with
      | none => refuse .missingPadding
      | some padding =>
        if padding = 0 ∨ wire.length - f.headerLen < padding.toNat then refuse .padding
        else minus wire.length padding.toNat
    else .ok wire.length
  if stop ≤ f.headerLen + 16 then refuse .emptyPayload
  else if f.payloadType ≠ 111 then refuse .expectedAudio
  else .ok stop

/-- The opened body is written even if it does not verify. -/
def aeadDecrypt (c : Cipher) (wire : Bytes) (f : RtpFields) (stop : ℕ) :
    WireResult (Bytes × ℕ × Bool) := do
  let tagOffset ← minus stop 16
  let tag ← readSlice wire tagOffset stop
  let aad ← readSlice wire 0 f.headerLen
  let body ← readSlice wire f.headerLen tagOffset
  let opened := c.openInPlace (rtpNonce f.ssrc f.seq f.timestamp) aad tag body
  let wire ← writeAt wire f.headerLen opened.1
  .ok (wire, tagOffset, opened.2)

def unwrapSrtp (c : Cipher) (wire : Bytes) (f : RtpFields) : Bytes × WireResult DecodedPacket :=
  match srtpEnd wire f.headerLen >>= srtpDecrypt c wire f with
  | .error e => (wire, .error e)
  | .ok (decrypted, stop) => (decrypted, .ok ⟨f.headerLen, stop, f.seq, f.payloadType, true⟩)

def unwrapAead (c : Cipher) (wire : Bytes) (f : RtpFields) : Bytes × WireResult DecodedPacket :=
  match aeadEnd wire f >>= aeadDecrypt c wire f with
  | .error e => (wire, .error e)
  | .ok (opened, _, false) => (opened, refuse .authentication)
  | .ok (opened, tagOffset, true) =>
    (opened, .ok ⟨f.headerLen, tagOffset, f.seq, f.payloadType, false⟩)

/-- The packet after decoding and what is returned; no expectation means to try both modes. -/
def unwrapLegacyInPlace (c : Cipher) (wire : Bytes) (expectedSrtp : Option Bool) :
    Bytes × WireResult DecodedPacket :=
  match rtpFields wire with
  | .error e => (wire, .error e)
  | .ok f =>
    if expectedSrtp ≠ some false ∧ f.headerLen + 10 ≤ wire.length then
      match srtpVerified c wire with
      | .error e => (wire, .error e)
      | .ok true => unwrapSrtp c wire f
      | .ok false =>
        if expectedSrtp = some true then (wire, refuse .srtpAuthentication)
        else unwrapAead c wire f
    else if expectedSrtp = some true then (wire, refuse .srtpTooShort)
    else unwrapAead c wire f

/-- The sender state of a session. -/
structure OutState where
  ssrc : UInt32
  initialSeq : UInt16
  initialTs : UInt32
  initialAbsSendTime : UInt32
  started : ℕ
  count : UInt64
  payloadType : UInt8
  transportSeq : UInt16

def OutState.timestamp (out : OutState) (now : ℕ) : UInt32 :=
  out.initialTs + durationTicks (now - out.started) (rtpClockRate out.payloadType)

def OutState.absSendTime (out : OutState) (now : ℕ) : UInt32 :=
  (out.initialAbsSendTime + durationTicks (now - out.started) 262144) &&& 0x00ffffff

def OutState.next (out : OutState) : OutState :=
  { out with count := out.count + 1, transportSeq := out.transportSeq + 1 }

def serverHeader (out : OutState) (now : ℕ) (d : Draws) : RtpHeader where
  marks := payloadMarks out.payloadType d
  seq := out.initialSeq + out.count.toUInt16
  timestamp := out.timestamp now
  ssrc := out.ssrc
  absSendTime := (BigEndian.encode 4 (out.absSendTime now).toNat).drop 1
  transportSeq := out.transportSeq
  absSendTime_length := rfl

/-- A buffer and how much of it the packet takes. -/
structure OutputBuf where
  storage : Bytes
  len : ℕ
  capacity : storage.length = serverPacketCapacity
  bounded : len ≤ serverPacketCapacity

def OutputBuf.asSlice (b : OutputBuf) : Bytes := b.storage.take b.len

def randomPadding (isSrtp : Bool) (payloadType : UInt8) (d : Draws) : ℕ :=
  if isSrtp then d.padding % (if payloadType = 96 then 60 else 24)
  else d.padding % (if payloadType = 111 then 24 else 60)

def wrapSrtp (c : Cipher) (storage : Bytes) (h : RtpHeader) (plain padding : Bytes) :
    WireResult Bytes :=
  let ciphertextLen := plain.length + (padding.length + 1)
  if storage.length < 24 + ciphertextLen + 10 then refuse .srtpCapacity
  else do
    let storage ← writeAt storage 0 h.bytes
    let storage ← writeAt storage 24 plain
    let body ← readSlice storage 24 (24 + plain.length)
    let storage ← writeAt storage 24 (c.ctr h.iv body)
    let storage ← writeAt storage (24 + plain.length) padding
    let storage ← writeAt storage (24 + ciphertextLen - 1) [UInt8.ofNat (padding.length + 1)]
    let message ← readSlice storage 0 (24 + ciphertextLen)
    writeAt storage (24 + ciphertextLen) ((c.mac message).take 10)

def wrapAead (c : Cipher) (storage : Bytes) (h : RtpHeader) (plain padding : Bytes) :
    WireResult Bytes :=
  let total := 24 + plain.length + 16 + (padding.length + 1)
  if storage.length < total then refuse .aeadCapacity
  else do
    let storage ← writeAt storage 0 h.bytes
    let storage ← writeAt storage 24 plain
    let body ← readSlice storage 24 (24 + plain.length)
    let sealed := c.sealInPlace h.nonce h.bytes body
    let storage ← writeAt storage 24 sealed.1
    let storage ← writeAt storage (24 + plain.length) sealed.2
    let storage ← writeAt storage (24 + plain.length + 16) padding
    writeAt storage (total - 1) [UInt8.ofNat (padding.length + 1)]

def wireLen (isSrtp : Bool) (plain : Bytes) (padding : ℕ) : ℕ :=
  if isSrtp then 24 + (plain.length + (padding + 1)) + 10
    else 24 + plain.length + 16 + (padding + 1)

def setLen (storage : Bytes) (len : ℕ) : WireResult OutputBuf :=
  if h : storage.length = serverPacketCapacity ∧ len ≤ serverPacketCapacity then
    .ok ⟨storage, len, h.1, h.2⟩
  else .error .outOfRange

/-- The sender state counts the packet even if it does not fit. -/
def wrapLegacyInto (c : Cipher) (isSrtp : Bool) (out : OutState) (plain : Bytes) (d : Draws)
    (output : OutputBuf) (now : ℕ) : OutState × WireResult OutputBuf :=
  let h := serverHeader out now d
  let padding := d.fillBytes (randomPadding isSrtp out.payloadType d)
  let written :=
    if isSrtp then wrapSrtp c output.storage h plain padding
    else wrapAead c output.storage h plain padding
  (out.next, written >>= fun storage => setLen storage (wireLen isSrtp plain padding.length))

end ServerWire
end Csqtt
