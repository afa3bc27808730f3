import Csqtt.RtpFormat

/-!
# The client's packet codec

`ObfsCipher::wrap` and `ObfsCipher::unwrap` on the buffer the packet lies in: `wrap` grows the
packet at both ends, `unwrap` decrypts in place and shrinks it. What random numbers and clocks give
are arguments.
-/

namespace Csqtt

open Buffer

def packetHeadroom : ℕ := 64

def packetCapacity : ℕ := 2304

inductive ObfsMode
  | audio
  | video
  deriving DecidableEq

def ObfsMode.isVideo (mode : ObfsMode) : Bool := mode = .video

inductive ObfsError
  | emptyPayload
  | capacity
  | prependHeadroom
  | tailCapacity
  | invalidRange
  | notRtp
  | unsupportedPayloadType (payloadType : UInt8)
  | shortExtension
  | shortHeader
  | missingTag
  | srtpAuthentication
  | srtpPadding (padding : UInt8)
  | expectedAudio
  | padding (padding : UInt8)
  | emptyBody
  | authentication
  deriving DecidableEq

abbrev ObfsResult (α : Type) := Except (Fault ObfsError) α

def refuse {α : Type} (e : ObfsError) : ObfsResult α := .error (.refused e)

/-- A buffer and the range of it that the packet takes. -/
structure PacketBuf where
  storage : Bytes
  start : ℕ
  stop : ℕ
  capacity : storage.length = packetCapacity
  ordered : start ≤ stop
  bounded : stop ≤ packetCapacity

namespace PacketBuf

def len (p : PacketBuf) : ℕ := p.stop - p.start

def asSlice (p : PacketBuf) : Bytes := slice p.storage p.start p.stop

def prepend (p : PacketBuf) (n : ℕ) : ObfsResult PacketBuf :=
  if n ≤ p.start then
    .ok { p with start := p.start - n, ordered := (Nat.sub_le _ _).trans p.ordered }
  else refuse .prependHeadroom

def extendTail (p : PacketBuf) (n : ℕ) : ObfsResult PacketBuf :=
  if h : p.stop + n ≤ packetCapacity then
    .ok { p with
      stop := p.stop + n
      ordered := p.ordered.trans (Nat.le_add_right _ _)
      bounded := h }
  else refuse .tailCapacity

def setRange (p : PacketBuf) (start stop : ℕ) : ObfsResult PacketBuf :=
  if h : start ≤ stop ∧ stop ≤ packetCapacity then
    .ok { p with start, stop, ordered := h.1, bounded := h.2 }
  else refuse .invalidRange

def write (p : PacketBuf) (i : ℕ) (bytes : Bytes) : ObfsResult PacketBuf :=
  if h : i + bytes.length ≤ p.storage.length then
    .ok { p with
      storage := overwrite p.storage i bytes
      capacity := (length_overwrite h).trans p.capacity }
  else .error .outOfRange

end PacketBuf

structure ObfsConfig where
  paddingMax : ℕ
  ssrc : UInt32
  payloadType : UInt8
  mode : ObfsMode

def ObfsConfig.new (mode : ObfsMode) (ssrc : UInt32) : ObfsConfig :=
  match mode with
  | .audio => ⟨24, ssrc, 111, .audio⟩
  | .video => ⟨60, ssrc, 96, .video⟩

structure ObfsState where
  count : UInt64
  initialTimestamp : UInt32
  initialAbsSendTime : UInt32
  initialSequence : UInt16
  transportSequence : UInt16
  started : ℕ

/-- What the random number generator gives for one packet. A number below a bound is the remainder
of the number drawn. -/
structure Draws where
  padding : ℕ
  marker : ℕ
  fill : ℕ → UInt8

def Draws.fillBytes (d : Draws) (n : ℕ) : Bytes := (List.range n).map d.fill

def ObfsConfig.paddingRandom (config : ObfsConfig) (d : Draws) : ℕ :=
  if config.paddingMax = 0 then 0 else d.padding % config.paddingMax

/-- What is added after the payload. -/
def ObfsConfig.tail (config : ObfsConfig) (d : Draws) : ℕ :=
  let paddingTotal := config.paddingRandom d + 1
  if config.mode = .video then paddingTotal + 10 else paddingTotal + 16

def ObfsState.next (s : ObfsState) : ObfsState × UInt64 × UInt16 :=
  ({ s with count := s.count + 1, transportSequence := s.transportSequence + 1 }, s.count,
    s.transportSequence)

def rtpClockRate (payloadType : UInt8) : ℕ := if payloadType = 96 then 90000 else 48000

/-- Clock ticks of a time in nanoseconds, computed in 64 bits and cut to 32. -/
def durationTicks (elapsed clockRate : ℕ) : UInt32 :=
  let seconds := elapsed / 1000000000
  let nanos := elapsed % 1000000000
  UInt32.ofNat ((seconds * clockRate % 2 ^ 64 + nanos * clockRate % 2 ^ 64 / 1000000000) % 2 ^ 64)

def ObfsState.sequence (s : ObfsState) (count : UInt64) : UInt16 :=
  s.initialSequence + count.toUInt16

def ObfsState.timestamp (s : ObfsState) (payloadType : UInt8) (elapsed : ℕ) : UInt32 :=
  s.initialTimestamp + durationTicks elapsed (rtpClockRate payloadType)

def ObfsState.absSendTime (s : ObfsState) (elapsed : ℕ) : UInt32 :=
  (s.initialAbsSendTime + durationTicks elapsed 262144) &&& 0x00ffffff

/-- The payload type byte, with the marker bit on every fifth video packet. -/
def payloadMarks (payloadType : UInt8) (d : Draws) : UInt8 :=
  if payloadType = 96 ∧ d.marker % 5 = 0 then (payloadType &&& 0x7f) ||| 0x80
  else payloadType &&& 0x7f

def clientHeader (config : ObfsConfig) (s : ObfsState) (count : UInt64) (transport : UInt16)
    (elapsed : ℕ) (d : Draws) : RtpHeader where
  marks := payloadMarks config.payloadType d
  seq := s.sequence count
  timestamp := s.timestamp config.payloadType elapsed
  ssrc := config.ssrc
  absSendTime :=
    let time := s.absSendTime elapsed
    [(time >>> 16).toUInt8, (time >>> 8).toUInt8, time.toUInt8]
  transportSeq := transport
  absSendTime_length := rfl

namespace PacketBuf

def wrapVideo (c : Cipher) (p : PacketBuf) (h : RtpHeader) (payloadStart payloadEnd : ℕ)
    (padding : Bytes) : ObfsResult PacketBuf := do
  let p ← p.extendTail (padding.length + 1 + 10)
  let payload ← readSlice p.storage payloadStart payloadEnd
  let p ← p.write payloadStart (c.ctr h.iv payload)
  let p ← p.write payloadEnd padding
  let p ← p.write (payloadEnd + padding.length) [UInt8.ofNat (padding.length + 1)]
  let tagStart := payloadEnd + padding.length + 1
  let message ← readSlice p.storage p.start tagStart
  p.write tagStart ((c.mac message).take 10)

def wrapAudio (c : Cipher) (p : PacketBuf) (h : RtpHeader) (payloadStart payloadEnd : ℕ)
    (padding : Bytes) : ObfsResult PacketBuf := do
  let p ← p.extendTail (16 + (padding.length + 1))
  let aad ← readSlice p.storage p.start payloadStart
  let payload ← readSlice p.storage payloadStart payloadEnd
  let sealed := c.sealInPlace h.nonce aad payload
  let p ← p.write payloadStart sealed.1
  let p ← p.write payloadEnd sealed.2
  let p ← p.write (payloadEnd + 16) padding
  p.write (payloadEnd + 16 + padding.length) [UInt8.ofNat (padding.length + 1)]

def wrapBody (c : Cipher) (p : PacketBuf) (mode : ObfsMode) (h : RtpHeader) (payloadLen : ℕ)
    (padding : Bytes) : ObfsResult PacketBuf := do
  let p ← p.prepend 24
  let p ← p.write p.start h.bytes
  let payloadStart := p.start + 24
  let payloadEnd := payloadStart + payloadLen
  match mode with
  | .video => p.wrapVideo c h payloadStart payloadEnd padding
  | .audio => p.wrapAudio c h payloadStart payloadEnd padding

/-- The sender state counts the packet even if it does not fit. -/
def wrap (c : Cipher) (p : PacketBuf) (config : ObfsConfig) (s : ObfsState) (now : ℕ) (d : Draws) :
    ObfsState × ObfsResult PacketBuf :=
  if p.len = 0 then (s, refuse .emptyPayload)
  else
    let (s', count, transport) := s.next
    let elapsed := now - s.started
    if p.start < 24 ∨ packetCapacity < p.stop + config.tail d then (s', refuse .capacity)
    else
      (s', p.wrapBody c config.mode (clientHeader config s' count transport elapsed d) p.len
        (d.fillBytes (config.paddingRandom d)))

end PacketBuf

structure RtpFields where
  headerLen : ℕ
  payloadType : UInt8
  seq : UInt16
  timestamp : UInt32
  ssrc : UInt32

namespace PacketBuf

def extensionLen (wire : Bytes) (first : UInt8) : ObfsResult ℕ :=
  if first &&& 0x10 ≠ 0 then
    if wire.length < 16 then refuse .shortExtension
    else do
      let words ← readSlice wire 14 16
      .ok (12 + (4 + BigEndian.value words * 4))
  else .ok 12

def rtpFields (wire : Bytes) : ObfsResult RtpFields :=
  if wire.length < 13 then refuse .notRtp
  else do
    let first ← readByte wire 0
    if first >>> 6 ≠ 2 then refuse .notRtp
    else
      let second ← readByte wire 1
      let payloadType := second &&& 0x7f
      if supportedPayloadType payloadType then
        let seq ← readSlice wire 2 4
        let timestamp ← readSlice wire 4 8
        let ssrc ← readSlice wire 8 12
        let headerLen ← extensionLen wire first
        if wire.length < headerLen then refuse .shortHeader
        else
          .ok ⟨headerLen, payloadType, UInt16.ofNat (BigEndian.value seq),
            UInt32.ofNat (BigEndian.value timestamp), UInt32.ofNat (BigEndian.value ssrc)⟩
      else refuse (.unsupportedPayloadType payloadType)

def withoutPadding (p : PacketBuf) (headerLen payloadEnd : ℕ) (invalid : UInt8 → ObfsError) :
    ObfsResult ℕ := do
  let first ← readByte p.storage p.start
  if first &&& 0x20 ≠ 0 then
    let last ← minus payloadEnd 1
    let padding ← readByte p.storage last
    let body ← minus payloadEnd p.start
    let room ← minus body headerLen
    if padding = 0 ∨ room < padding.toNat then refuse (invalid padding)
    else minus payloadEnd padding.toNat
  else .ok payloadEnd

def videoEnd (c : Cipher) (p : PacketBuf) (f : RtpFields) : ObfsResult ℕ :=
  if p.len < f.headerLen + 10 then refuse .missingTag
  else do
    let tagStart ← minus p.stop 10
    let message ← readSlice p.storage p.start tagStart
    let tag ← readSlice p.storage tagStart p.stop
    let expected ← readSlice (c.mac message) 0 tag.length
    if expected ≠ tag then refuse .srtpAuthentication
    else p.withoutPadding f.headerLen tagStart .srtpPadding

def audioEnd (p : PacketBuf) (f : RtpFields) : ObfsResult ℕ :=
  if f.payloadType ≠ 111 then refuse .expectedAudio
  else do
    let payloadEnd ← p.withoutPadding f.headerLen p.stop .padding
    if payloadEnd ≤ p.start + f.headerLen + 16 then refuse .emptyBody else .ok payloadEnd

def decryptVideo (c : Cipher) (p : PacketBuf) (f : RtpFields) (payloadEnd : ℕ) :
    ObfsResult PacketBuf := do
  let payloadStart := p.start + f.headerLen
  let body ← readSlice p.storage payloadStart payloadEnd
  let p ← p.write payloadStart (c.ctr (srtpIv f.ssrc f.seq f.timestamp) body)
  p.setRange payloadStart payloadEnd

/-- The opened body is written even if it does not verify. -/
def decryptAudio (c : Cipher) (p : PacketBuf) (f : RtpFields) (payloadEnd : ℕ) :
    ObfsResult (PacketBuf × Bool) := do
  let payloadStart := p.start + f.headerLen
  let tagStart ← minus payloadEnd 16
  let tag ← readSlice p.storage tagStart payloadEnd
  let aad ← readSlice p.storage p.start payloadStart
  let body ← readSlice p.storage payloadStart tagStart
  let opened := c.openInPlace (rtpNonce f.ssrc f.seq f.timestamp) aad tag body
  let p ← p.write payloadStart opened.1
  if opened.2 then
    let p ← p.setRange payloadStart tagStart
    .ok (p, true)
  else .ok (p, false)

/-- The packet after `unwrap` and what it returns. -/
def unwrap (c : Cipher) (p : PacketBuf) (mode : ObfsMode) : PacketBuf × ObfsResult UInt16 :=
  match rtpFields p.asSlice with
  | .error e => (p, .error e)
  | .ok f =>
    match mode with
    | .video =>
      match p.videoEnd c f >>= p.decryptVideo c f with
      | .error e => (p, .error e)
      | .ok q => (q, .ok f.seq)
    | .audio =>
      match p.audioEnd f >>= p.decryptAudio c f with
      | .error e => (p, .error e)
      | .ok (q, false) => (q, refuse .authentication)
      | .ok (q, true) => (q, .ok f.seq)

section Wrap

variable {p : PacketBuf} {a done rest : Bytes} {i : ℕ}

theorem write_next (bytes : Bytes) (hs : p.storage = a ++ (done ++ rest))
    (hi : i = a.length + done.length) (hf : bytes.length ≤ rest.length) :
    ∃ q, p.write i bytes = .ok q ∧ q.storage = a ++ ((done ++ bytes) ++ rest.drop bytes.length) ∧
      q.start = p.start ∧ q.stop = p.stop := by
  have hl : i + bytes.length ≤ p.storage.length := by
    rw [hs, List.length_append, List.length_append]
    omega
  refine ⟨_, dif_pos hl, ?_, rfl, rfl⟩
  dsimp only
  rw [hs, hi, overwrite_next]

/-- The packet stands in the storage after `a` and before the rest. -/
theorem asSlice_eq (hs : p.storage = a ++ (done ++ rest)) (hstart : p.start = a.length)
    (hstop : p.stop = a.length + done.length) : p.asSlice = done := by
  rw [asSlice, hs, hstart, hstop, slice_middle]

theorem storage_split (p : PacketBuf) :
    p.storage = p.storage.take p.start ++ (p.asSlice ++ p.storage.drop p.stop) := by
  have ht : (p.storage.take p.stop).take p.start = p.storage.take p.start := by
    rw [List.take_take, Nat.min_eq_left p.ordered]
  rw [asSlice, slice, ← List.append_assoc, ← ht, List.take_append_drop,
    List.take_append_drop]

theorem extendTail_of_le {n : ℕ} (h : p.stop + n ≤ packetCapacity) :
    ∃ q, p.extendTail n = .ok q ∧ q.storage = p.storage ∧ q.start = p.start ∧ q.stop = p.stop + n :=
  ⟨_, dif_pos h, rfl, rfl, rfl⟩

variable (c : Cipher) {h : RtpHeader} {payload tail padding : Bytes}
  (hs : p.storage = a ++ (h.bytes ++ (payload ++ tail))) (hstart : p.start = a.length)
  (hstop : p.stop = a.length + 24 + payload.length)
include hs hstart hstop

/-- Both modes read the header and the payload and put the ciphertext in the payload's place. -/
theorem wrap_begin {n : ℕ} (hf : p.stop + n ≤ packetCapacity) :
    n ≤ tail.length ∧ ∃ p₁, p.extendTail n = .ok p₁ ∧
      (readSlice p₁.storage p₁.start (a.length + 24) : ObfsResult Bytes) = .ok h.bytes ∧
      (readSlice p₁.storage (a.length + 24) (a.length + 24 + payload.length) : ObfsResult Bytes) =
        .ok payload ∧
      ∀ body : Bytes, body.length = payload.length → ∃ p₂, p₁.write (a.length + 24) body = .ok p₂ ∧
        p₂.storage = a ++ ((h.bytes ++ body) ++ tail) ∧ p₂.start = a.length ∧
        p₂.stop = p.stop + n := by
  have hr : n ≤ tail.length := by
    have hl := p.capacity
    simp only [hs, List.length_append, RtpHeader.length_bytes] at hl
    omega
  obtain ⟨p₁, hp₁, hs₁, hstart₁, hstop₁⟩ := extendTail_of_le hf
  rw [hs] at hs₁
  have hl₁ : p₁.storage.length = a.length + (24 + (payload.length + tail.length)) := by
    rw [hs₁]
    simp only [List.length_append, RtpHeader.length_bytes]
  refine ⟨hr, p₁, hp₁, ?_, ?_, fun body hb => ?_⟩
  · have hslice := slice_middle a h.bytes (payload ++ tail)
    rw [RtpHeader.length_bytes, ← hs₁] at hslice
    rw [hstart₁, hstart, readSlice_of_le (Nat.le_add_right _ _) (by omega), hslice]
  · have hslice := slice_middle (a ++ h.bytes) payload tail
    rw [List.length_append, RtpHeader.length_bytes, List.append_assoc, ← hs₁] at hslice
    rw [readSlice_of_le (Nat.le_add_right _ _) (by omega), hslice]
  · obtain ⟨p₂, hp₂, hs₂, hstart₂, hstop₂⟩ := write_next (i := a.length + 24) body hs₁
      (by simp) (by rw [List.length_append]; omega)
    rw [hb, List.drop_left' rfl] at hs₂
    exact ⟨p₂, hp₂, hs₂, hstart₂.trans (hstart₁.trans hstart), hstop₂.trans hstop₁⟩

theorem wrapVideo_spec (hfit : p.stop + (padding.length + 1 + 10) ≤ packetCapacity) :
    ∃ q, p.wrapVideo c h (a.length + 24) (a.length + 24 + payload.length) padding = .ok q ∧
      q.asSlice = encodeVideo c h payload padding := by
  have hcipher : (c.ctr h.iv payload).length = payload.length := c.ctr_length _ _
  obtain ⟨hroom, p₁, hp₁, -, hpay, hbody⟩ := wrap_begin hs hstart hstop hfit
  obtain ⟨p₂, hp₂, hs₂, hstart₂, hstop₂⟩ := hbody _ hcipher
  obtain ⟨p₃, hp₃, hs₃, hstart₃, hstop₃⟩ := write_next (i := a.length + 24 + payload.length)
    padding hs₂ (by rw [List.length_append, RtpHeader.length_bytes]; omega) (by omega)
  obtain ⟨p₄, hp₄, hs₄, hstart₄, hstop₄⟩ := write_next
    (i := a.length + 24 + payload.length + padding.length)
    [UInt8.ofNat (padding.length + 1)] hs₃
    (by simp only [List.length_append, RtpHeader.length_bytes, hcipher]; omega)
    (by rw [List.length_drop, List.length_singleton]; omega)
  set message := ((h.bytes ++ c.ctr h.iv payload) ++ padding) ++ [UInt8.ofNat (padding.length + 1)]
    with hmsg
  have hlen : message.length = 24 + payload.length + padding.length + 1 := by
    simp only [hmsg, List.length_append, RtpHeader.length_bytes, hcipher,
      List.length_singleton]
  have hread : (readSlice p₄.storage p₄.start
    (a.length + 24 + payload.length + padding.length + 1) :
      ObfsResult Bytes) = .ok message := by
    have hend : a.length + 24 + payload.length + padding.length + 1 = a.length +
      message.length := by
      omega
    rw [hstart₄, hstart₃, hstart₂, hend, readSlice_of_le (Nat.le_add_right _ _), hs₄, slice_middle]
    rw [hs₄]
    simp only [List.length_append]
    omega
  have htag : ((c.mac message).take 10).length = 10 := by
    rw [List.length_take, c.mac_length]
    rfl
  obtain ⟨p₅, hp₅, hs₅, hstart₅, hstop₅⟩ := write_next
    (i := a.length + 24 + payload.length + padding.length + 1) ((c.mac message).take 10) hs₄
    (by omega) (by simp only [List.length_drop, htag, List.length_singleton]; omega)
  refine ⟨p₅, ?_, ?_⟩
  · simp only [wrapVideo, hp₁, hpay, hp₂, hp₃, hp₄, hread, hp₅, ok_bind]
  · have henc : encodeVideo c h payload padding = message ++ (c.mac message).take 10 := by
      simp only [encodeVideo, hmsg, List.append_assoc]
    rw [henc, asSlice_eq hs₅ (by omega)]
    rw [List.length_append]
    omega

theorem wrapAudio_spec (hf : p.stop + (16 + (padding.length + 1)) ≤ packetCapacity) :
    ∃ q, p.wrapAudio c h (a.length + 24) (a.length + 24 + payload.length) padding = .ok q ∧
      q.asSlice = encodeAudio c h payload padding := by
  set sealed := c.sealInPlace h.nonce h.bytes payload with hseal
  have hc : sealed.1.length = payload.length := c.seal_length _ _ _
  have ht : sealed.2.length = 16 := c.tag_length _ _ _
  obtain ⟨hr, p₁, hp₁, ha, hp, hb⟩ := wrap_begin hs hstart hstop hf
  obtain ⟨p₂, hp₂, hs₂, hstep₂, hsome₂⟩ := hb _ hc
  obtain ⟨p₃, hp₃, hs₃, hstep₃, hsome₃⟩ := write_next (i := a.length + 24 + payload.length)
    sealed.2 hs₂ (by rw [List.length_append, RtpHeader.length_bytes]; omega)
    (by omega)
  obtain ⟨p₄, hp₄, hs₄, hstep₄, hsome₄⟩ := write_next (i := a.length + 24 + payload.length + 16)
    padding hs₃ (by simp only [List.length_append, RtpHeader.length_bytes, hc, ht]; omega)
    (by rw [List.length_drop]; omega)
  obtain ⟨p₅, hp₅, hs₅, hstep₅, hsome₅⟩ := write_next
    (i := a.length + 24 + payload.length + 16 + padding.length)
    [UInt8.ofNat (padding.length + 1)] hs₄
    (by simp only [List.length_append, RtpHeader.length_bytes, hc, ht]; omega)
    (by simp only [List.length_drop, List.length_singleton]; omega)
  refine ⟨p₅, ?_, ?_⟩
  · simp only [wrapAudio, hp₁, ha, hp, ← hseal, hp₂, hp₃, hp₄, hp₅, ok_bind]
  · have he : encodeAudio c h payload padding =
        (((h.bytes ++ sealed.1) ++ sealed.2) ++ padding) ++ [UInt8.ofNat (padding.length + 1)] := by
      simp only [encodeAudio, hseal, List.append_assoc]
    rw [he, asSlice_eq hs₅ (by omega)]
    simp only [List.length_append, RtpHeader.length_bytes, hc, ht, List.length_singleton]
    omega

end Wrap

theorem length_asSlice (p : PacketBuf) : p.asSlice.length = p.len :=
  length_slice (p.bounded.trans p.capacity.ge)

theorem wrapBody_spec (c : Cipher) {p : PacketBuf} (mode : ObfsMode) (h : RtpHeader)
    {padding : Bytes} (hstart : 24 ≤ p.start)
    (hfit : p.stop + (padding.length + 1 + if mode = .video then 10 else 16) ≤ packetCapacity) :
    ∃ q, p.wrapBody c mode h p.len padding = .ok q ∧
      q.asSlice = encode c mode.isVideo h p.asSlice padding := by
  have hcap := p.capacity
  have horder := p.ordered
  have hlen := p.length_asSlice
  set a := p.storage.take (p.start - 24)
  set front := (p.storage.take p.start).drop (p.start - 24)
  have halen : a.length = p.start - 24 := by
    rw [List.length_take]
    omega
  have hfrontlen : front.length = 24 := by
    rw [List.length_drop, List.length_take]
    omega
  have hsplit : p.storage = a ++ ([] ++ (front ++ (p.asSlice ++ p.storage.drop p.stop))) := by
    have hjoin : a ++ front = p.storage.take p.start := by
      have htake : a = (p.storage.take p.start).take (p.start - 24) := by
        rw [List.take_take, Nat.min_eq_left (Nat.sub_le _ _)]
      rw [htake, List.take_append_drop]
    rw [List.nil_append, ← List.append_assoc, hjoin]
    exact p.storage_split
  obtain ⟨p₁, hp₁, hs₁, hstart₁, hstop₁⟩ : ∃ q, p.prepend 24 = .ok q ∧
      q.storage = p.storage ∧ q.start = a.length ∧ q.stop = p.stop :=
    ⟨_, if_pos hstart, rfl, halen.symm, rfl⟩
  obtain ⟨p₂, hp₂, hs₂, hstart₂, hstop₂⟩ := write_next (i := p₁.start) h.bytes (hs₁.trans hsplit)
    hstart₁ (by rw [List.length_append, RtpHeader.length_bytes]; omega)
  rw [RtpHeader.length_bytes, List.drop_left' hfrontlen] at hs₂
  have hstop : p₂.stop = a.length + 24 + p.asSlice.length := by
    rw [hstop₂, hlen, len]
    omega
  rw [wrapBody, hp₁, ok_bind, hp₂, ok_bind, hstart₂, hstart₁, ← hlen]
  cases mode with
  | video =>
    exact wrapVideo_spec c hs₂ (hstart₂.trans hstart₁) hstop (by
      rw [hstop₂, hstop₁]
      simpa using hfit)
  | audio =>
    exact wrapAudio_spec c hs₂ (hstart₂.trans hstart₁) hstop (by
      simp at hfit
      omega)

theorem wrap_spec (c : Cipher) {p : PacketBuf} {config : ObfsConfig} {d : Draws} (s : ObfsState)
    (now : ℕ) (hl : p.len ≠ 0) (hstart : 24 ≤ p.start)
    (hstop : p.stop + config.tail d ≤ packetCapacity) : ∃ q, (p.wrap c config s now d).2 = .ok q ∧
      q.asSlice = encode c config.mode.isVideo
        (clientHeader config s s.count s.transportSequence (now - s.started) d) p.asSlice
        (d.fillBytes (config.paddingRandom d)) := by
  have hp : (d.fillBytes (config.paddingRandom d)).length = config.paddingRandom d := by
    simp [Draws.fillBytes]
  have hw : (p.wrap c config s now d).2 = p.wrapBody c config.mode
      (clientHeader config s s.count s.transportSequence (now - s.started) d) p.len
      (d.fillBytes (config.paddingRandom d)) := by
    rw [wrap, if_neg hl]
    dsimp only [ObfsState.next]
    rw [if_neg (by omega)]
    rfl
  rw [hw]
  apply wrapBody_spec c config.mode _ hstart
  rw [hp]
  unfold ObfsConfig.tail at hstop
  split_ifs at hstop ⊢ <;> omega

end PacketBuf
end Csqtt
