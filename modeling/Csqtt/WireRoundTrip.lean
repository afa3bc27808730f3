import Csqtt.ClientUnwrap
import Csqtt.ServerUnwrap

/-!
# The two codecs together

What one side wraps the other side decodes, and the two decoders accept the same packets.
-/

namespace Csqtt

open Buffer

theorem Draws.length_fillBytes (d : Draws) (n : ℕ) : (d.fillBytes n).length = n := by
  simp [Draws.fillBytes]

namespace ServerWire

section Wrap

variable (c : Cipher) {storage : Bytes} (h : RtpHeader) {plain padding : Bytes}

theorem write_header_plain (hf : 24 + plain.length ≤ storage.length) :
    ∃ rest : Bytes, rest.length + (24 + plain.length) = storage.length ∧
      (writeAt storage 0 h.bytes : WireResult Bytes) = .ok (h.bytes ++ storage.drop 24) ∧
      (writeAt (h.bytes ++ storage.drop 24) 24 plain : WireResult Bytes) =
        .ok (h.bytes ++ plain ++ rest) ∧
      (readSlice (h.bytes ++ plain ++ rest) 24 (24 + plain.length) : WireResult Bytes) =
        .ok plain := by
  refine ⟨(storage.drop 24).drop plain.length, ?_, ?_, ?_, ?_⟩
  · simp only [List.length_drop]
    omega
  · have := writeAt_next (ε := WireError) h.bytes (List.nil_append storage).symm rfl
      (by rw [RtpHeader.length_bytes]; omega)
    rwa [RtpHeader.length_bytes] at this
  · exact writeAt_next plain rfl (by simp) (by rw [List.length_drop]; omega)
  · have hs := slice_middle h.bytes plain ((storage.drop 24).drop plain.length)
    rw [RtpHeader.length_bytes, ← List.append_assoc] at hs
    rw [readSlice_of_le (Nat.le_add_right _ _), hs]
    simp only [List.length_append, RtpHeader.length_bytes]
    omega

theorem write_body {body rest : Bytes} (hb : body.length = plain.length) :
    (writeAt (h.bytes ++ plain ++ rest) 24 body : WireResult Bytes) =
      .ok (h.bytes ++ body ++ rest) := by
  have hf : body.length ≤ (plain ++ rest).length := by
    rw [List.length_append]
    omega
  rw [writeAt_next body (List.append_assoc h.bytes plain rest) (by simp) hf, hb,
    List.drop_left' rfl]

theorem wrapSrtp_spec (hfit : 24 + (plain.length + (padding.length + 1)) + 10 ≤ storage.length) :
    ∃ rest, wrapSrtp c storage h plain padding = .ok (encodeVideo c h plain padding ++ rest) ∧
      (encodeVideo c h plain padding).length = 24 + (plain.length + (padding.length + 1)) + 10 ∧
      rest.length + (24 + (plain.length + (padding.length + 1)) + 10) = storage.length := by
  obtain ⟨rest, hrest, hhead, hplain, hread⟩ :=
    write_header_plain h (by omega : 24 + plain.length ≤ storage.length)
  have hcipher : (c.ctr h.iv plain).length = plain.length := c.ctr_length _ _
  have hpad := writeAt_next (ε := WireError) (i := 24 + plain.length) padding
    (Eq.refl (h.bytes ++ c.ctr h.iv plain ++ rest)) (by simp [hcipher]) (by omega)
  have hlast := writeAt_next (ε := WireError)
    (i := 24 + (plain.length + (padding.length + 1)) - 1) [UInt8.ofNat (padding.length + 1)]
    (Eq.refl (h.bytes ++ c.ctr h.iv plain ++ padding ++ rest.drop padding.length))
    (by simp only [List.length_append, RtpHeader.length_bytes, hcipher]; omega)
    (by rw [List.length_drop, List.length_singleton]; omega)
  set message := h.bytes ++ c.ctr h.iv plain ++ padding ++ [UInt8.ofNat (padding.length + 1)]
    with hmsg
  have hlen : message.length = 24 + (plain.length + (padding.length + 1)) := by
    simp only [hmsg, List.length_append, RtpHeader.length_bytes, hcipher,
      List.length_singleton]
    omega
  set rest' := (rest.drop padding.length).drop [UInt8.ofNat (padding.length + 1)].length with hrest'
  have hrest'len : rest'.length + (padding.length + 1) = rest.length := by
    simp only [hrest', List.length_drop, List.length_singleton]
    omega
  have hsign : (readSlice (message ++ rest') 0 (24 + (plain.length + (padding.length + 1))) :
      WireResult Bytes) = .ok message := by
    rw [readSlice_of_le (Nat.zero_le _) (by rw [List.length_append]; omega), slice_zero,
      List.take_left' hlen]
  have htag : ((c.mac message).take 10).length = 10 := by
    rw [List.length_take, c.mac_length]
    rfl
  have hdone := writeAt_next (ε := WireError) ((c.mac message).take 10)
    (Eq.refl (message ++ rest')) hlen.symm (by omega)
  have henc : encodeVideo c h plain padding = message ++ (c.mac message).take 10 := by
    simp only [encodeVideo, hmsg, List.append_assoc]
  refine ⟨rest'.drop ((c.mac message).take 10).length, ?_, ?_, ?_⟩
  · rw [wrapSrtp, henc, if_neg (by omega)]
    simp only [hhead, hplain, hread, write_body h hcipher, hpad, hlast, hsign, hdone,
      ok_bind]
  · rw [henc, List.length_append, htag, hlen]
  · rw [List.length_drop]
    omega

theorem wrapAead_spec (hfit : 24 + plain.length + 16 + (padding.length + 1) ≤ storage.length) :
    ∃ rest, wrapAead c storage h plain padding = .ok (encodeAudio c h plain padding ++ rest) ∧
      (encodeAudio c h plain padding).length = 24 + plain.length + 16 + (padding.length + 1) ∧
      rest.length + (24 + plain.length + 16 + (padding.length + 1)) = storage.length := by
  obtain ⟨rest, hrest, hhead, hplain, hread⟩ :=
    write_header_plain h (by omega : 24 + plain.length ≤ storage.length)
  set sealed := c.sealInPlace h.nonce h.bytes plain with hseal
  have hcipher : sealed.1.length = plain.length := c.seal_length _ _ _
  have htaglen : sealed.2.length = 16 := c.tag_length _ _ _
  have htag := writeAt_next (ε := WireError) (i := 24 + plain.length) sealed.2
    (Eq.refl (h.bytes ++ sealed.1 ++ rest)) (by simp [hcipher]) (by omega)
  have hpad := writeAt_next (ε := WireError) (i := 24 + plain.length + 16) padding
    (Eq.refl (h.bytes ++ sealed.1 ++ sealed.2 ++ rest.drop sealed.2.length))
    (by simp only [List.length_append, RtpHeader.length_bytes, hcipher, htaglen])
    (by rw [List.length_drop]; omega)
  have hlast := writeAt_next (ε := WireError)
    (i := 24 + plain.length + 16 + (padding.length + 1) - 1) [UInt8.ofNat (padding.length + 1)]
    (Eq.refl (h.bytes ++ sealed.1 ++ sealed.2 ++ padding ++
      (rest.drop sealed.2.length).drop padding.length))
    (by simp only [List.length_append, RtpHeader.length_bytes, hcipher, htaglen]; omega)
    (by simp only [List.length_drop, List.length_singleton]; omega)
  have henc : encodeAudio c h plain padding = h.bytes ++ sealed.1 ++ sealed.2 ++ padding ++
      [UInt8.ofNat (padding.length + 1)] := by
    simp only [encodeAudio, ← hseal, List.append_assoc]
  refine ⟨((rest.drop sealed.2.length).drop padding.length).drop
    [UInt8.ofNat (padding.length + 1)].length, ?_, ?_, ?_⟩
  · rw [wrapAead, henc, if_neg (by omega)]
    simp only [hhead, hplain, hread, ← hseal, write_body h hcipher, htag, hpad, hlast,
      ok_bind]
  · simp only [henc, List.length_append, RtpHeader.length_bytes, hcipher, htaglen,
      List.length_singleton]
    omega
  · simp only [List.length_drop, List.length_singleton]
    omega

end Wrap

theorem wireLen_encode (c : Cipher) (h : RtpHeader) (isSrtp : Bool) (plain padding storage : Bytes)
    (hf : wireLen isSrtp plain padding.length ≤ storage.length) :
    ∃ rest, (if isSrtp then wrapSrtp c storage h plain padding
        else wrapAead c storage h plain padding) = .ok (encode c isSrtp h plain padding ++ rest) ∧
      (encode c isSrtp h plain padding).length = wireLen isSrtp plain padding.length ∧
      rest.length + wireLen isSrtp plain padding.length = storage.length := by
  cases isSrtp with
  | true => exact wrapSrtp_spec c h hf
  | false => exact wrapAead_spec c h hf

theorem wrapLegacyInto_spec (c : Cipher) (isSrtp : Bool) (out : OutState) (plain : Bytes)
    (d : Draws) (output : OutputBuf) (now : ℕ)
    (hf : wireLen isSrtp plain (randomPadding isSrtp out.payloadType d) ≤ serverPacketCapacity) :
    ∃ b, (wrapLegacyInto c isSrtp out plain d output now).2 = .ok b ∧
      b.asSlice = encode c isSrtp (serverHeader out now d) plain
        (d.fillBytes (randomPadding isSrtp out.payloadType d)) := by
  set padding := d.fillBytes (randomPadding isSrtp out.payloadType d)
  have hl : padding.length = randomPadding isSrtp out.payloadType d := d.length_fillBytes _
  obtain ⟨rest, hw, hp, hr⟩ := wireLen_encode c (serverHeader out now d) isSrtp plain
    padding output.storage (by rw [hl, output.capacity]; exact hf)
  have hs : (encode c isSrtp (serverHeader out now d) plain padding ++ rest).length =
      serverPacketCapacity := by
    rw [List.length_append, hp, Nat.add_comm, hr, output.capacity]
  refine ⟨⟨_, wireLen isSrtp plain padding.length, hs, by rwa [hl]⟩, ?_, ?_⟩
  · rw [wrapLegacyInto]
    rw [hw, ok_bind, setLen, dif_pos ⟨hs, by rwa [hl]⟩]
  · exact List.take_left' hp

/-- The sequence number and the payload the server reads from a packet. -/
def received (c : Cipher) (wire : Bytes) (isSrtp : Bool) : Option (UInt16 × Bytes) :=
  match unwrapLegacyInPlace c wire (some isSrtp) with
  | (_, .error _) => none
  | (wire, .ok packet) => some (packet.seq, slice wire packet.start packet.stop)

/-- A packet that decodes is read whole, unless it is a video packet with DTLS records. -/
theorem received_of_decode {c : Cipher} {wire : Bytes} {isSrtp : Bool} {d : Decoded}
    (hd : decode c isSrtp wire = some d)
    (hk : isSrtp = true → isDtlsKind (d.payload.getD 0 0) = false) :
    received c wire isSrtp = some (d.seq, d.payload) := by
  obtain ⟨buffer, packet, n, hu, hs, hslice, hw | ⟨hsrtp, -, hdtls⟩⟩ :=
    unwrapped_of_decode hd
  · rw [received, hu]
    dsimp only
    rw [hslice, hs, hw, List.take_length]
  · rw [hk hsrtp] at hdtls
    cases hdtls

end ServerWire

namespace PacketBuf

/-- The sequence number and the payload the client reads from a packet. -/
def received (c : Cipher) (p : PacketBuf) (mode : ObfsMode) : Option (UInt16 × Bytes) :=
  match p.unwrap c mode with
  | (_, .error _) => none
  | (q, .ok seq) => some (seq, q.asSlice)

theorem received_of_decode {c : Cipher} {p : PacketBuf} {mode : ObfsMode} {d : Decoded}
    (hd : decode c mode.isVideo p.asSlice = some d) :
    p.received c mode = some (d.seq, d.payload) := by
  obtain ⟨hok, -, -, -, hs⟩ := (p.unwrap_spec c mode).accepts d hd
  rw [received, ← Prod.mk.eta (p := p.unwrap c mode), hok]
  dsimp only
  rw [hs]

end PacketBuf

theorem payloadMarks_type {t : UInt8} (ht : supportedPayloadType t = true) (d : Draws) :
    payloadMarks t d &&& 0x7f = t := by
  rw [payloadMarks]
  simp only [supportedPayloadType, Bool.or_eq_true, decide_eq_true_eq] at ht
  obtain (rfl | rfl) | rfl := ht
  · rw [if_neg (fun h => absurd h.1 (by decide))]
    decide
  · split_ifs <;> decide
  · rw [if_neg (fun h => absurd h.1 (by decide))]
    decide

def ObfsMode.payloadType (mode : ObfsMode) : UInt8 := if mode = .video then 96 else 111

theorem ObfsMode.payloadMarks_payloadType (mode : ObfsMode) (d : Draws) :
    payloadMarks mode.payloadType d &&& 0x7f = if mode.isVideo then 96 else 111 := by
  cases mode with
  | audio | video => exact payloadMarks_type (by decide) d

theorem ObfsConfig.paddingRandom_new_lt (mode : ObfsMode) (ssrc : UInt32) (d : Draws) :
    (ObfsConfig.new mode ssrc).paddingRandom d < 255 := by
  cases mode with
  | audio => exact (Nat.mod_lt d.padding (by decide : 0 < 24)).trans (by decide)
  | video => exact (Nat.mod_lt d.padding (by decide : 0 < 60)).trans (by decide)

theorem ServerWire.randomPadding_lt (isSrtp : Bool) (payloadType : UInt8) (d : Draws) :
    ServerWire.randomPadding isSrtp payloadType d < 255 := by
  unfold ServerWire.randomPadding
  split_ifs <;> omega

/-- What the client wraps the server decodes, and what the server wraps the client decodes. -/
theorem wire_round_trip (prims : Primitives) (hlaw : ∀ key, (prims.keyed key).Lawful)
    (key : Bytes) :
    (∀ (p : PacketBuf) (mode : ObfsMode) (ssrc : UInt32) (s : ObfsState) (now : ℕ) (d : Draws),
      p.len ≠ 0 → 24 ≤ p.start → p.stop + (ObfsConfig.new mode ssrc).tail d ≤ packetCapacity →
      (mode = .video → ServerWire.isDtlsKind (p.asSlice.getD 0 0) = false) →
      ∃ q, (p.wrap (prims.keyed key) (ObfsConfig.new mode ssrc) s now d).2 = .ok q ∧
        ServerWire.received (prims.keyed key) q.asSlice mode.isVideo =
          some (s.sequence s.count, p.asSlice)) ∧
    (∀ (mode : ObfsMode) (out : ServerWire.OutState) (plain : Bytes) (d : Draws)
      (output : ServerWire.OutputBuf) (now : ℕ), out.payloadType = mode.payloadType → plain ≠ [] →
      ServerWire.wireLen mode.isVideo plain
        (ServerWire.randomPadding mode.isVideo out.payloadType d) ≤ serverPacketCapacity →
      ∃ b, (ServerWire.wrapLegacyInto (prims.keyed key) mode.isVideo out plain d output now).2 =
          .ok b ∧ ∀ p : PacketBuf, p.asSlice = b.asSlice → p.received (prims.keyed key) mode =
          some (out.initialSeq + out.count.toUInt16, plain)) := by
  constructor
  · intro p mode ssrc s now d hlen hstart hstop hkind
    have hmode : (ObfsConfig.new mode ssrc).mode = mode := by cases mode <;> rfl
    have htype : (ObfsConfig.new mode ssrc).payloadType = mode.payloadType := by cases mode <;> rfl
    obtain ⟨q, hq, hpacket⟩ := p.wrap_spec (prims.keyed key) s now hlen hstart hstop
    refine ⟨q, hq, ?_⟩
    rw [hmode] at hpacket
    have hne : p.asSlice ≠ [] := by
      rw [← List.length_pos_iff, p.length_asSlice]
      omega
    have hdec : decode (prims.keyed key) mode.isVideo q.asSlice =
        some ⟨s.sequence s.count, 24, p.asSlice⟩ := by
      rw [hpacket]
      apply decode_encode (hlaw key) hne
      · rw [Draws.length_fillBytes]
        exact ObfsConfig.paddingRandom_new_lt mode ssrc d
      · rw [← mode.payloadMarks_payloadType d, ← htype]
        rfl
    refine ServerWire.received_of_decode hdec fun hvideo => hkind ?_
    simpa [ObfsMode.isVideo] using hvideo
  · intro mode out plain d output now htype hplain hfit
    obtain ⟨b, hb, hpacket⟩ := ServerWire.wrapLegacyInto_spec (prims.keyed key) mode.isVideo out
      plain d output now hfit
    refine ⟨b, hb, fun p hp => ?_⟩
    have hdec : decode (prims.keyed key) mode.isVideo p.asSlice =
        some ⟨out.initialSeq + out.count.toUInt16, 24, plain⟩ := by
      rw [hp, hpacket]
      apply decode_encode (hlaw key) hplain
      · rw [Draws.length_fillBytes]
        exact ServerWire.randomPadding_lt mode.isVideo out.payloadType d
      · rw [← mode.payloadMarks_payloadType d, ← htype]
        rfl
    exact PacketBuf.received_of_decode hdec

namespace CrossLanguage

def xorWith (stream data : Bytes) : Bytes := data.mapIdx fun i b => b ^^^ stream.getD i 0

theorem xorWith_xorWith (stream data : Bytes) : xorWith stream (xorWith stream data) = data := by
  rw [xorWith, xorWith, List.mapIdx_mapIdx]
  have hid : (fun i => (fun b => b ^^^ stream.getD i 0) ∘ fun b : UInt8 => b ^^^ stream.getD i 0) =
      fun _ b => b := by
    funext i b
    rw [Function.comp_apply, UInt8.xor_assoc, UInt8.xor_self, UInt8.xor_zero]
  rw [hid]
  simp [List.mapIdx_eq_zipIdx_map]

def aesStream : Bytes :=
  [0x29, 0xde, 0x10, 0x35, 0xdf, 0xba, 0x9f, 0x8e, 0xeb, 0x45, 0xd6, 0xce, 0x4c, 0xee, 0x66, 0x23,
    0x0a, 0xb9, 0xdf, 0x2d, 0xb4, 0x03]

def chachaStream : Bytes :=
  [0x8c, 0x4e, 0x6a, 0x60, 0x88, 0x42, 0x6f, 0x66, 0x1f, 0x08, 0x31, 0xc3, 0xc8, 0x76, 0x09, 0xdf,
    0x0a, 0x40, 0x9f, 0xde, 0x04, 0x8c]

def authenticationCode : Bytes :=
  [0x38, 0xca, 0x98, 0x9c, 0xda, 0x17, 0x71, 0x75, 0xab, 0x00, 0x3f, 0x8b, 0xdb, 0x3a, 0x08, 0x30,
    0x82, 0x0b, 0xef, 0x7f]

def tag : Bytes :=
  [0x1c, 0x75, 0x2b, 0xe4, 0x99, 0x13, 0x91, 0x1a, 0xd0, 0xfd, 0x78, 0x26, 0x49, 0xa5, 0x4c, 0xc4]

/-- The ciphers on the packets that the test `unwraps_go_audio_and_video_vectors` decodes: the
keystreams, the authentication code and the tag are those of these packets. -/
def primitives : Primitives where
  aesCtr _ _ data := xorWith aesStream data
  hmacSha1 _ _ := authenticationCode
  chachaSeal _ _ _ data := (xorWith chachaStream data, tag)
  chachaOpen _ _ _ t data := (xorWith chachaStream data, t = tag)
  aesCtr_length _ _ _ := List.length_mapIdx
  hmacSha1_length _ _ := rfl
  chachaSeal_length _ _ _ _ := List.length_mapIdx
  chachaTag_length _ _ _ _ := rfl
  chachaOpen_length _ _ _ _ _ := List.length_mapIdx

theorem primitives_lawful (key : Bytes) : (primitives.keyed key).Lawful where
  ctr_ctr _ data := xorWith_xorWith aesStream data
  open_seal _ _ data := by
    have hd := xorWith_xorWith chachaStream data
    simp only [Primitives.keyed, primitives, hd, decide_true]

def key : Bytes :=
  [0x9b, 0x7d, 0x44, 0xe0, 0xfe, 0x04, 0xa3, 0x04, 0xf8, 0x43, 0x0d, 0x87, 0x39, 0x1d, 0x44, 0xf7,
    0xa2, 0x90, 0x6a, 0x80, 0xe3, 0x45, 0x15, 0x61, 0x7c, 0xdf, 0xac, 0x1b, 0x97, 0x47, 0x22, 0xa2]

def payload : Bytes := "cross-language-payload".toUTF8.toList

def packet : PacketBuf where
  storage := List.replicate 24 0 ++ payload ++ List.replicate 2258 0
  start := 24
  stop := 46
  capacity := by decide +kernel
  ordered := by decide
  bounded := by decide

def videoState : ObfsState := ⟨0, 0x7b25bb36, 0x11eb85, 0xcb1b, 0x2bb6, 0⟩

def videoDraws : Draws where
  padding := 11
  marker := 1
  fill i := [0xaa, 0x5f, 0xaa, 0x2e, 0xa4, 0xec, 0xb0, 0x7d, 0x22, 0xda, 0xf2].getD i 0

def audioState : ServerWire.OutState :=
  ⟨0x8b6fe47d, 0x9e52, 0x43e8f72f, 0x11eb85, 0, 0, 111, 0xbeef⟩

def audioDraws : Draws where
  padding := 20
  marker := 1
  fill i := [0xf9, 0x84, 0xce, 0xf0, 0x50, 0xcc, 0xe1, 0xb4, 0xd5, 0x09, 0xcb, 0xae, 0x4d, 0x6e,
    0x93, 0x59, 0xb5, 0x7e, 0x0b, 0x96].getD i 0

def output : ServerWire.OutputBuf := ⟨List.replicate 1600 0, 0, by decide +kernel, by decide⟩

example : encode (primitives.keyed key) true
    (clientHeader (.new .video 0x709a0949) videoState 0 0x2bb6 0 videoDraws) payload
    (videoDraws.fillBytes 11) =
    [0xb0, 0x60, 0xcb, 0x1b, 0x7b, 0x25, 0xbb, 0x36, 0x70, 0x9a, 0x09, 0x49, 0xbe, 0xde,
      0x00, 0x02, 0x32, 0x11, 0xeb, 0x85, 0x51, 0x2b, 0xb6, 0x00, 0x4a, 0xac, 0x7f, 0x46,
      0xac, 0x97, 0xf3, 0xef, 0x85, 0x22, 0xa3, 0xaf, 0x2b, 0x8b, 0x4b, 0x53, 0x6b, 0xc0,
      0xb3, 0x42, 0xd5, 0x67, 0xaa, 0x5f, 0xaa, 0x2e, 0xa4, 0xec, 0xb0, 0x7d, 0x22, 0xda,
      0xf2, 0x0c, 0x38, 0xca, 0x98, 0x9c, 0xda, 0x17, 0x71, 0x75, 0xab, 0x00] := by
  decide +kernel

end CrossLanguage

/-- The two packets of the test, one in each direction. -/
theorem wire_round_trip_vectors :
    (∃ q, (CrossLanguage.packet.wrap (CrossLanguage.primitives.keyed CrossLanguage.key)
          (.new .video 0x709a0949) CrossLanguage.videoState 0 CrossLanguage.videoDraws).2 = .ok q ∧
        ServerWire.received (CrossLanguage.primitives.keyed CrossLanguage.key) q.asSlice true =
          some (0xcb1b, CrossLanguage.payload)) ∧
    (∃ b, (ServerWire.wrapLegacyInto (CrossLanguage.primitives.keyed CrossLanguage.key) false
          CrossLanguage.audioState CrossLanguage.payload CrossLanguage.audioDraws
          CrossLanguage.output 0).2 = .ok b ∧ ∀ p : PacketBuf, p.asSlice = b.asSlice →
          p.received (CrossLanguage.primitives.keyed CrossLanguage.key) .audio =
            some (0x9e52, CrossLanguage.payload)) := by
  obtain ⟨hc, hs⟩ := wire_round_trip CrossLanguage.primitives
    CrossLanguage.primitives_lawful CrossLanguage.key
  have hp : CrossLanguage.packet.asSlice = CrossLanguage.payload := by decide +kernel
  constructor
  · rw [← hp]
    exact hc CrossLanguage.packet .video 0x709a0949 CrossLanguage.videoState 0
      CrossLanguage.videoDraws (by decide) (by decide) (by decide +kernel)
      (fun _ => by decide +kernel)
  · exact hs .audio CrossLanguage.audioState CrossLanguage.payload CrossLanguage.audioDraws
      CrossLanguage.output 0 rfl (by decide +kernel) (by decide +kernel)

structure DecodersAgree (p : PacketBuf) (mode : ObfsMode) (client : PacketBuf × ObfsResult UInt16)
    (server : Bytes × WireResult ServerWire.DecodedPacket) : Prop where
  accepted : (∃ packet, server.2 = .ok packet) ↔ ∃ seq, client.2 = .ok seq
  same : ∀ packet seq, server.2 = .ok packet → client.2 = .ok seq →
    packet.seq = seq ∧ (slice server.1 packet.start packet.stop = client.1.asSlice ∨
      mode = .video ∧ ∃ n, 0 < n ∧ DtlsRecords (client.1.asSlice.take n) ∧
        slice server.1 packet.start packet.stop = client.1.asSlice.take n)
  server_range : ∀ packet, server.2 = .ok packet →
    packet.start ≤ packet.stop ∧ packet.stop ≤ p.asSlice.length
  client_range : ∀ seq, client.2 = .ok seq →
    p.start ≤ client.1.start ∧ client.1.start ≤ client.1.stop ∧ client.1.stop ≤ p.stop
  server_in_range : server.2 ≠ .error .outOfRange
  client_in_range : client.2 ≠ .error .outOfRange
  unchanged : mode = .video → (∀ packet, server.2 ≠ .ok packet) →
    server.1 = p.asSlice ∧ client.1 = p

variable {server : Bytes × WireResult ServerWire.DecodedPacket}

theorem decodersAgree_none {p : PacketBuf} {mode : ObfsMode}
    {client : PacketBuf × ObfsResult UInt16} (hclient : PacketBuf.Unwraps p mode none client)
    (hserver : ServerWire.Unwraps p.asSlice mode.isVideo none server) :
    DecodersAgree p mode client server := by
  obtain ⟨⟨e, he⟩, hcs⟩ := hclient.refuses rfl
  obtain ⟨⟨e', he'⟩, hssame⟩ := hserver.refuses rfl
  have hc : ∀ seq, client.2 ≠ .ok seq := by
    rw [he]
    exact nofun
  have hs : ∀ packet, server.2 ≠ .ok packet := by
    rw [he']
    exact nofun
  exact {
    accepted := ⟨fun ⟨packet, h⟩ => absurd h (hs packet), fun ⟨seq, h⟩ => absurd h (hc seq)⟩
    same := fun packet _ h => absurd h (hs packet)
    server_range := fun packet h => absurd h (hs packet)
    client_range := fun seq h => absurd h (hc seq)
    server_in_range := by rw [he']; exact nofun
    client_in_range := by rw [he]; exact nofun
    unchanged := fun hm _ => ⟨hssame (by rw [hm]; rfl), hcs hm⟩ }

theorem decodersAgree_some {p : PacketBuf} {mode : ObfsMode} {d : Decoded}
    {client : PacketBuf × ObfsResult UInt16} (hclient : PacketBuf.Unwraps p mode (some d) client)
    (hserver : ServerWire.Unwraps p.asSlice mode.isVideo (some d) server) :
    DecodersAgree p mode client server := by
  obtain ⟨hok, hstart, hstop, hin, hslice⟩ := hclient.accepts d rfl
  obtain ⟨n, hn, hok', hfit, hbuffer, hcut⟩ := hserver.accepts d rfl
  have hread : slice server.1 d.start (d.start + n) = d.payload.take n := by
    have hself := slice_overwrite_self hfit
    rw [← hbuffer] at hself
    rw [← hself, ← slice_zero, slice_slice _ (by omega), Nat.add_zero]
  refine ⟨⟨fun _ => ⟨_, hok⟩, fun _ => ⟨_, hok'⟩⟩, ?_, ?_, ?_, ?_, ?_, ?_⟩
  · intro packet seq hp hseq
    obtain rfl := Except.ok.inj (hok'.symm.trans hp)
    obtain rfl := Except.ok.inj (hok.symm.trans hseq)
    refine ⟨rfl, ?_⟩
    rw [hread, hslice]
    obtain rfl | ⟨hvideo, hpos, hrecords⟩ := hcut
    · exact .inl List.take_length
    · exact .inr ⟨by simpa [ObfsMode.isVideo] using hvideo, n, hpos, hrecords, rfl⟩
  · intro packet hp
    obtain rfl := Except.ok.inj (hok'.symm.trans hp)
    dsimp only
    omega
  · omega
  · rw [hok']
    exact nofun
  · rw [hok]
    exact nofun
  · intro _ h
    exact absurd hok' (h _)

/-- The two decoders accept the same packets and read the same from them. -/
theorem decoders_agree (prims : Primitives) (key : Bytes) (p : PacketBuf) (mode : ObfsMode) :
    DecodersAgree p mode (p.unwrap (prims.keyed key) mode)
      (ServerWire.unwrapLegacyInPlace (prims.keyed key) p.asSlice (some mode.isVideo)) := by
  have hc := p.unwrap_spec (prims.keyed key) mode
  have hs := ServerWire.unwrapLegacyInPlace_spec (prims.keyed key) p.asSlice mode.isVideo
  cases hd : decode (prims.keyed key) mode.isVideo p.asSlice with
  | none =>
    rw [hd] at hc hs
    exact decodersAgree_none hc hs
  | some =>
    rw [hd] at hc hs
    exact decodersAgree_some hc hs

end Csqtt
