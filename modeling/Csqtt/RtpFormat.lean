import Mathlib.Data.List.GetD
import Csqtt.Buffer
import Csqtt.ProxySequence

/-!
# The packet format

A packet has an RTP header of 24 bytes and a body. In video mode the body is the payload under a
stream cipher, padding and the first ten bytes of an authentication code; in audio mode it is the
payload sealed with the header as associated data, its tag and padding. What a type promises of the
ciphers is a field of `Cipher`, what the algorithms promise is `Cipher.Lawful`.
-/

namespace Csqtt

open Buffer

/-- The ciphers of one key. The two in-place operations keep the length, an authentication code has
20 bytes and a tag has 16. -/
structure Cipher where
  ctr : Bytes → Bytes → Bytes
  mac : Bytes → Bytes
  sealInPlace : Bytes → Bytes → Bytes → Bytes × Bytes
  openInPlace : Bytes → Bytes → Bytes → Bytes → Bytes × Bool
  ctr_length : ∀ iv data, (ctr iv data).length = data.length
  mac_length : ∀ message, (mac message).length = 20
  seal_length : ∀ nonce aad data, (sealInPlace nonce aad data).1.length = data.length
  tag_length : ∀ nonce aad data, (sealInPlace nonce aad data).2.length = 16
  open_length : ∀ nonce aad tag data, (openInPlace nonce aad tag data).1.length = data.length

structure Cipher.Lawful (c : Cipher) : Prop where
  ctr_ctr : ∀ iv data, c.ctr iv (c.ctr iv data) = data
  open_seal : ∀ nonce aad data,
    c.openInPlace nonce aad (c.sealInPlace nonce aad data).2 (c.sealInPlace nonce aad data).1 =
      (data, true)

/-- AES-128 in counter mode, HMAC-SHA1 and ChaCha20-Poly1305. The first argument is the key. -/
structure Primitives where
  aesCtr : Bytes → Bytes → Bytes → Bytes
  hmacSha1 : Bytes → Bytes → Bytes
  chachaSeal : Bytes → Bytes → Bytes → Bytes → Bytes × Bytes
  chachaOpen : Bytes → Bytes → Bytes → Bytes → Bytes → Bytes × Bool
  aesCtr_length : ∀ key iv data, (aesCtr key iv data).length = data.length
  hmacSha1_length : ∀ key message, (hmacSha1 key message).length = 20
  chachaSeal_length : ∀ key nonce aad data, (chachaSeal key nonce aad data).1.length = data.length
  chachaTag_length : ∀ key nonce aad data, (chachaSeal key nonce aad data).2.length = 16
  chachaOpen_length : ∀ key nonce aad tag data,
    (chachaOpen key nonce aad tag data).1.length = data.length

/-- The ciphers of a key of 32 bytes: its first half is the AES key, its second half the HMAC key
and all of it the ChaCha20 key. -/
def Primitives.keyed (p : Primitives) (key : Bytes) : Cipher where
  ctr := p.aesCtr (key.take 16)
  mac := p.hmacSha1 (key.drop 16)
  sealInPlace := p.chachaSeal key
  openInPlace := p.chachaOpen key
  ctr_length := p.aesCtr_length _
  mac_length := p.hmacSha1_length _
  seal_length := p.chachaSeal_length _
  tag_length := p.chachaTag_length _
  open_length := p.chachaOpen_length _

def rtpNonce (ssrc : UInt32) (seq : UInt16) (timestamp : UInt32) : Bytes :=
  BigEndian.encode 4 ssrc.toNat ++ BigEndian.encode 2 seq.toNat ++ [0, 0] ++
    BigEndian.encode 4 timestamp.toNat

def srtpIv (ssrc : UInt32) (seq : UInt16) (timestamp : UInt32) : Bytes :=
  BigEndian.encode 4 ssrc.toNat ++ BigEndian.encode 2 seq.toNat ++ [0, 0] ++
    BigEndian.encode 4 timestamp.toNat ++ [0, 0, 0, 0]

/-- The header both senders write; `marks` are the payload type with the marker bit. -/
structure RtpHeader where
  marks : UInt8
  seq : UInt16
  timestamp : UInt32
  ssrc : UInt32
  absSendTime : Bytes
  transportSeq : UInt16
  absSendTime_length : absSendTime.length = 3

namespace RtpHeader

def bytes (h : RtpHeader) : Bytes :=
  0xb0 :: h.marks :: (BigEndian.encode 2 h.seq.toNat ++ (BigEndian.encode 4 h.timestamp.toNat ++
    (BigEndian.encode 4 h.ssrc.toNat ++ ([0xbe, 0xde] ++ ([0, 2] ++
      (0x32 :: (h.absSendTime ++ (0x51 :: (BigEndian.encode 2 h.transportSeq.toNat ++ [0])))))))))

def nonce (h : RtpHeader) : Bytes := rtpNonce h.ssrc h.seq h.timestamp

def iv (h : RtpHeader) : Bytes := srtpIv h.ssrc h.seq h.timestamp

@[simp] theorem length_bytes (h : RtpHeader) : h.bytes.length = 24 := by
  simp [bytes, h.absSendTime_length]

end RtpHeader

def encodeVideo (c : Cipher) (h : RtpHeader) (payload padding : Bytes) : Bytes :=
  let message := h.bytes ++ (c.ctr h.iv payload ++ (padding ++ [UInt8.ofNat (padding.length + 1)]))
  message ++ (c.mac message).take 10

def encodeAudio (c : Cipher) (h : RtpHeader) (payload padding : Bytes) : Bytes :=
  let sealed := c.sealInPlace h.nonce h.bytes payload
  h.bytes ++ (sealed.1 ++ (sealed.2 ++ (padding ++ [UInt8.ofNat (padding.length + 1)])))

def encode (c : Cipher) (video : Bool) (h : RtpHeader) (payload padding : Bytes) : Bytes :=
  if video then encodeVideo c h payload padding else encodeAudio c h payload padding

def headerLen? (wire : Bytes) : Option ℕ :=
  if wire.length < 13 ∨ wire.getD 0 0 >>> 6 ≠ 2 then none
  else if wire.getD 0 0 &&& 0x10 = 0 then some 12
  else if wire.length < 16 then none
  else
    let headerLen := 12 + (4 + BigEndian.value (slice wire 14 16) * 4)
    if wire.length < headerLen then none else some headerLen

@[simp] theorem headerLen?_header (h : RtpHeader) (rest : Bytes) :
    headerLen? (h.bytes ++ rest) = some 24 := by
  have hl : (h.bytes ++ rest).length = 24 + rest.length := by simp
  have hb : slice (h.bytes ++ rest) 14 16 = [0, 2] := rfl
  have hw : BigEndian.value [0, 2] = 2 := by decide
  have hf : (h.bytes ++ rest).getD 0 0 = 0xb0 := rfl
  have hv : ¬ (24 + rest.length < 13 ∨ (0xb0 : UInt8) >>> 6 ≠ 2) := by
    rw [not_or]
    exact ⟨by omega, by decide⟩
  rw [headerLen?, hl, hb, hw, hf, if_neg hv, if_neg (by decide),
    if_neg (by omega)]
  rw [if_neg (by omega)]

variable {padding wire payload : Bytes}

theorem headerLen?_bounds {n : ℕ} (h : headerLen? wire = some n) :
    13 ≤ wire.length ∧ 12 ≤ n ∧ n ≤ wire.length := by
  unfold headerLen? at h
  dsimp only at h
  split_ifs at h with hs hp he hl
  · obtain rfl := Option.some.inj h
    omega
  · obtain rfl := Option.some.inj h
    omega

def payloadType (wire : Bytes) : UInt8 := wire.getD 1 0 &&& 0x7f

def supportedPayloadType (t : UInt8) : Bool := t = 111 || t = 96 || t = 6

def wireSeq (wire : Bytes) : UInt16 := UInt16.ofNat (BigEndian.value (slice wire 2 4))

def wireTimestamp (wire : Bytes) : UInt32 := UInt32.ofNat (BigEndian.value (slice wire 4 8))

def wireSsrc (wire : Bytes) : UInt32 := UInt32.ofNat (BigEndian.value (slice wire 8 12))

def wireNonce (wire : Bytes) : Bytes :=
  rtpNonce (wireSsrc wire) (wireSeq wire) (wireTimestamp wire)

def wireIv (wire : Bytes) : Bytes := srtpIv (wireSsrc wire) (wireSeq wire) (wireTimestamp wire)

section Header

variable (h : RtpHeader) (rest : Bytes)

@[simp] theorem wireSeq_header : wireSeq (h.bytes ++ rest) = h.seq := by
  have hb : slice (h.bytes ++ rest) 2 4 = BigEndian.encode 2 h.seq.toNat := rfl
  rw [wireSeq, hb, BigEndian.value_encode_of_lt h.seq.toNat_lt, UInt16.ofNat_toNat]

@[simp] theorem wireTimestamp_header : wireTimestamp (h.bytes ++ rest) = h.timestamp := by
  have hb : slice (h.bytes ++ rest) 4 8 = BigEndian.encode 4 h.timestamp.toNat := rfl
  rw [wireTimestamp, hb, BigEndian.value_encode_of_lt h.timestamp.toNat_lt,
    UInt32.ofNat_toNat]

@[simp] theorem wireSsrc_header : wireSsrc (h.bytes ++ rest) = h.ssrc := by
  have hb : slice (h.bytes ++ rest) 8 12 = BigEndian.encode 4 h.ssrc.toNat := rfl
  rw [wireSsrc, hb, BigEndian.value_encode_of_lt h.ssrc.toNat_lt, UInt32.ofNat_toNat]

@[simp] theorem wireNonce_header : wireNonce (h.bytes ++ rest) = h.nonce := by
  rw [wireNonce, wireSsrc_header, wireSeq_header, wireTimestamp_header, RtpHeader.nonce]

@[simp] theorem wireIv_header : wireIv (h.bytes ++ rest) = h.iv := by
  rw [wireIv, wireSsrc_header, wireSeq_header, wireTimestamp_header, RtpHeader.iv]

@[simp] theorem payloadType_header : payloadType (h.bytes ++ rest) = h.marks &&& 0x7f := rfl

end Header

/-- Where the body ends when the padding before `stop` is taken off. -/
def unpadded (wire : Bytes) (headerLen stop : ℕ) : Option ℕ :=
  if wire.getD 0 0 &&& 0x20 = 0 then some stop
  else
    let padding := (wire.getD (stop - 1) 0).toNat
    if padding = 0 ∨ stop - headerLen < padding then none else some (stop - padding)

theorem unpadded_bounds {headerLen stop n : ℕ} (hs : headerLen ≤ stop)
    (h : unpadded wire headerLen stop = some n) : headerLen ≤ n ∧ n ≤ stop := by
  unfold unpadded at h
  dsimp only at h
  split_ifs at h
  · obtain rfl := Option.some.inj h
    exact ⟨hs, le_rfl⟩
  · obtain rfl := Option.some.inj h
    omega

/-- The decoded payload and where it stands in the packet. -/
structure Decoded where
  seq : UInt16
  start : ℕ
  payload : Bytes

def decodeVideo (c : Cipher) (wire : Bytes) (headerLen : ℕ) : Option Decoded :=
  if wire.length < headerLen + 10 then none
  else
    let tagStart := wire.length - 10
    if (c.mac (wire.take tagStart)).take 10 ≠ wire.drop tagStart then none
    else
      (unpadded wire headerLen tagStart).map fun stop =>
        ⟨wireSeq wire, headerLen, c.ctr (wireIv wire) (slice wire headerLen stop)⟩

def decodeAudio (c : Cipher) (wire : Bytes) (headerLen : ℕ) : Option Decoded :=
  if payloadType wire ≠ 111 then none
  else
    (unpadded wire headerLen wire.length).bind fun stop =>
      if stop ≤ headerLen + 16 then none
      else
        let opened := c.openInPlace (wireNonce wire) (wire.take headerLen)
          (slice wire (stop - 16) stop) (slice wire headerLen (stop - 16))
        if opened.2 then some ⟨wireSeq wire, headerLen, opened.1⟩ else none

def decode (c : Cipher) (video : Bool) (wire : Bytes) : Option Decoded :=
  (headerLen? wire).bind fun headerLen =>
    if supportedPayloadType (payloadType wire) then
      if video then decodeVideo c wire headerLen else decodeAudio c wire headerLen
    else none

theorem unpadded_padding (h : RtpHeader) (body padding tail : Bytes) (hp : padding.length < 255) :
    unpadded (h.bytes ++ (body ++ (padding ++ [UInt8.ofNat (padding.length + 1)])) ++ tail) 24
      (24 + body.length + padding.length + 1) = some (24 + body.length) := by
  have hl : (h.bytes ++ (body ++ (padding ++ [UInt8.ofNat (padding.length + 1)])) ++ tail).getD
      (24 + body.length + padding.length) 0 = UInt8.ofNat (padding.length + 1) := by
    have hs : h.bytes ++ (body ++ (padding ++ [UInt8.ofNat (padding.length + 1)])) ++ tail =
        (h.bytes ++ (body ++ padding)) ++ (UInt8.ofNat (padding.length + 1) :: tail) := by simp
    have hle : (h.bytes ++ (body ++ padding)).length = 24 + body.length + padding.length := by
      simp only [List.length_append, RtpHeader.length_bytes]
      omega
    rw [hs, ← hle, List.getD_append_right _ _ _ _ le_rfl, Nat.sub_self]
    rfl
  have hf : (h.bytes ++ (body ++ (padding ++ [UInt8.ofNat (padding.length + 1)])) ++
      tail).getD 0 0 = 0xb0 := rfl
  have hb : (UInt8.ofNat (padding.length + 1)).toNat = padding.length + 1 := by
    rw [UInt8.toNat_ofNat']
    omega
  rw [unpadded, hf, if_neg (by decide), Nat.add_sub_cancel, hl]
  rw [if_neg (by omega)]
  congr 1
  omega

variable {c : Cipher}

theorem decode_encodeVideo (hc : c.Lawful) {h : RtpHeader} (payload : Bytes)
    (hp : padding.length < 255) (ht : supportedPayloadType (h.marks &&& 0x7f) = true) :
    decode c true (encodeVideo c h payload padding) = some ⟨h.seq, 24, payload⟩ := by
  set body := c.ctr h.iv payload
  set rest := body ++ (padding ++ [UInt8.ofNat (padding.length + 1)]) with hr
  set tag := (c.mac (h.bytes ++ rest)).take 10 with htag
  have hw : encodeVideo c h payload padding = h.bytes ++ rest ++ tag := rfl
  have htaglen : tag.length = 10 := by rw [List.length_take, c.mac_length]; rfl
  have hrestlen : rest.length = body.length + padding.length + 1 := by
    simp only [hr, List.length_append, List.length_singleton]
    omega
  have hl : (h.bytes ++ rest ++ tag).length = 24 + body.length + padding.length + 1 + 10 := by
    simp only [List.length_append, RtpHeader.length_bytes, htaglen, hrestlen]
    omega
  have hs : (h.bytes ++ rest).length = 24 + body.length + padding.length + 1 := by
    simp only [List.length_append, RtpHeader.length_bytes, hrestlen]
    omega
  have hpay : slice (h.bytes ++ rest ++ tag) 24 (24 + body.length) = body := by
    have hm := slice_middle h.bytes body
      (padding ++ [UInt8.ofNat (padding.length + 1)] ++ tag)
    simpa [hr] using hm
  rw [hw, decode, List.append_assoc, headerLen?_header, Option.bind_some, payloadType_header,
    if_pos ht, if_pos rfl, decodeVideo, wireIv_header, wireSeq_header, ← List.append_assoc,
    hl, if_neg (by omega)]
  dsimp only
  rw [Nat.add_sub_cancel, ← hs, List.take_left' rfl, List.drop_left' rfl, ← htag,
    if_neg (by simp), hs, unpadded_padding h body padding tag hp, Option.map_some,
    hpay, hc.ctr_ctr]

theorem decode_encodeAudio (hc : c.Lawful) {h : RtpHeader} (hpay : payload ≠ [])
    (hpad : padding.length < 255) (htype : h.marks &&& 0x7f = 111) :
    decode c false (encodeAudio c h payload padding) = some ⟨h.seq, 24, payload⟩ := by
  set sealed := c.sealInPlace h.nonce h.bytes payload
  set rest := sealed.1 ++ (sealed.2 ++ (padding ++ [UInt8.ofNat (padding.length + 1)])) with hrest
  have hwire : encodeAudio c h payload padding = h.bytes ++ rest := rfl
  have hdata : sealed.1.length = payload.length := c.seal_length _ _ _
  have htag : sealed.2.length = 16 := c.tag_length _ _ _
  have hpos : 0 < payload.length := List.length_pos_of_ne_nil hpay
  have hlen : (h.bytes ++ rest).length = 24 + (sealed.1 ++ sealed.2).length +
    padding.length + 1 := by
    simp only [hrest, List.length_append, RtpHeader.length_bytes, List.length_singleton]
    omega
  have hstop : unpadded (h.bytes ++ rest) 24
      (24 + (sealed.1 ++ sealed.2).length + padding.length + 1) =
      some (24 + (sealed.1 ++ sealed.2).length) := by
    have := unpadded_padding h (sealed.1 ++ sealed.2) padding [] hpad
    simpa [hrest] using this
  have hbody : (sealed.1 ++ sealed.2).length = payload.length + 16 := by
    rw [List.length_append, hdata, htag]
  have hcipher : slice (h.bytes ++ rest) 24 (24 + payload.length) = sealed.1 := by
    have hmid := slice_middle h.bytes sealed.1
      (sealed.2 ++ (padding ++ [UInt8.ofNat (padding.length + 1)]))
    rw [RtpHeader.length_bytes, hdata] at hmid
    exact hmid
  have htagslice : slice (h.bytes ++ rest) (24 + payload.length) (24 + payload.length + 16) =
      sealed.2 := by
    have hmid := slice_middle (h.bytes ++ sealed.1) sealed.2
      (padding ++ [UInt8.ofNat (padding.length + 1)])
    rw [List.length_append, hdata, htag] at hmid
    simpa [hrest] using hmid
  have hhead : (h.bytes ++ rest).take 24 = h.bytes := List.take_left' (by simp)
  have hsupport : supportedPayloadType (h.marks &&& 0x7f) = true := by
    rw [htype]
    decide
  have hopen := hc.open_seal h.nonce h.bytes payload
  rw [hwire, decode, headerLen?_header, Option.bind_some, payloadType_header, if_pos hsupport,
    if_neg (by simp), decodeAudio, if_neg (by simp [htype]), hlen, hstop,
    Option.bind_some, if_neg (by omega), wireNonce_header, wireSeq_header, hhead, hbody,
    ← Nat.add_assoc, Nat.add_sub_cancel, hcipher, htagslice, hopen]
  rfl

/-- Decoding gives the payload back in both modes, under the payload type of the mode. -/
theorem decode_encode (hc : c.Lawful) {video : Bool} {h : RtpHeader} (hpay : payload ≠ [])
    (hp : padding.length < 255) (ht : h.marks &&& 0x7f = if video then 96 else 111) :
    decode c video (encode c video h payload padding) = some ⟨h.seq, 24, payload⟩ := by
  cases video with
  | true => exact decode_encodeVideo hc payload hp (by rw [ht]; decide)
  | false => exact decode_encodeAudio hc hpay hp ht

end Csqtt
