import Mathlib.Data.List.TakeDrop
import Csqtt.ServerEngineRuns
import Csqtt.WireRoundTrip

/-!
# Datagrams sent back to the server

Both directions of a session use one key, one format and nonces that are built alike, so the server
decodes its own datagrams. What keeps such a datagram out is the replay window alone: it is refused
if the window refuses its sequence number, and taken as input of the client otherwise.
-/

namespace Csqtt

open Buffer

/-- What a replay window knows, apart from whether its bits were allocated. -/
def ReplayState.window (s : ReplayState) : Bool × UInt16 × BitWindow.Bits 256 :=
  (s.initialized, s.highest, s.bitmap.getD .empty)

theorem ReplayState.window_of_refused {s : ReplayState} {seq : UInt16}
    (h : (s.accept seq).2 = false) : (s.accept seq).1.window = s.window := by
  unfold accept at h ⊢
  dsimp only at h ⊢
  split_ifs at h ⊢
  rfl

theorem ReplayState.window_of_accepted {s : ReplayState} {seq : UInt16}
    (h : (s.accept seq).2 = true) : (s.accept seq).1.window ≠ s.window := by
  unfold accept at h ⊢
  by_cases hin : (!s.initialized) = true
  · rw [if_pos hin]
    intro heq
    have hn : true = s.initialized := congrArg Prod.fst heq
    rw [← hn] at hin
    cases hin
  rw [if_neg hin] at h ⊢
  by_cases hf : seq - s.highest ≠ 0 ∧ seq - s.highest < 32768
  · rw [if_pos hf]
    intro heq
    have hs : seq = s.highest := congrArg (·.2.1) heq
    rw [hs, UInt16.sub_self] at hf
    exact hf.1 rfl
  rw [if_neg hf] at h ⊢
  by_cases hb : s.highest - seq ≥ 16384 ∨ (s.bitmap.getD .empty).test seq.toNat = true
  · rw [if_pos hb] at h
    cases h
  rw [if_neg hb]
  intro heq
  have hset : (s.bitmap.getD .empty).set seq.toNat = s.bitmap.getD .empty :=
    congrArg (·.2.2) heq
  apply hb
  rw [← hset, BitWindow.Bits.test_set]
  simp

theorem decode_encodeAudio_nil (c : Cipher) (h : RtpHeader) {padding : Bytes}
    (hp : padding.length < 255) : decode c false (encodeAudio c h [] padding) = none := by
  set sealed := c.sealInPlace h.nonce h.bytes [] with hseal
  have hw : encodeAudio c h [] padding =
      h.bytes ++ ((sealed.1 ++ sealed.2) ++ (padding ++ [UInt8.ofNat (padding.length + 1)])) := by
    simp [encodeAudio, hseal]
  have hb : (sealed.1 ++ sealed.2).length = 16 := by
    rw [List.length_append, c.seal_length, c.tag_length]
    rfl
  have hl : (h.bytes ++ ((sealed.1 ++ sealed.2) ++
      (padding ++ [UInt8.ofNat (padding.length + 1)]))).length = 24 + 16 + padding.length + 1 := by
    simp only [List.length_append, RtpHeader.length_bytes, List.length_singleton] at hb ⊢
    omega
  have hs := unpadded_padding h (sealed.1 ++ sealed.2) padding [] hp
  rw [List.append_nil, hb] at hs
  rw [hw, decode, headerLen?_header, Option.bind_some]
  split_ifs with ht hf
  · cases hf
  · rw [decodeAudio, hl, hs]
    split_ifs
    · rfl
    · rfl
  · rfl

namespace ServerWire

variable {c : Cipher} {isSrtp : Bool} {out : OutState} {plain : Bytes} {d : Draws}
  {output b : OutputBuf} {now : ℕ}

theorem fits_of_wrapped (h : (wrapLegacyInto c isSrtp out plain d output now).2 = .ok b) :
    wireLen isSrtp plain (randomPadding isSrtp out.payloadType d) ≤ serverPacketCapacity := by
  by_contra hl
  have hp := d.length_fillBytes (randomPadding isSrtp out.payloadType d)
  have hs := output.capacity
  unfold wrapLegacyInto at h
  dsimp only at h
  cases isSrtp with
  | true =>
    rw [wireLen, if_pos rfl] at hl
    rw [if_pos rfl, wrapSrtp, if_pos (by omega)] at h
    cases h
  | false =>
    rw [wireLen, if_neg (by simp)] at hl
    rw [if_neg (by simp), wrapAead, if_pos (by omega)] at h
    cases h

theorem asSlice_of_wrapped (h : (wrapLegacyInto c isSrtp out plain d output now).2 = .ok b) :
    b.asSlice = encode c isSrtp (serverHeader out now d) plain
      (d.fillBytes (randomPadding isSrtp out.payloadType d)) := by
  obtain ⟨b', hb', hs⟩ := wrapLegacyInto_spec c isSrtp out plain d output now (fits_of_wrapped h)
  rw [h] at hb'
  cases hb'
  exact hs

/-- The server decodes what it wrapped for a session, except an empty payload in audio mode. -/
theorem decode_wrapped (hc : c.Lawful) (ht : supportedPayloadType out.payloadType = true)
    (ha : isSrtp = false → out.payloadType = 111)
    (h : (wrapLegacyInto c isSrtp out plain d output now).2 = .ok b) : decode c isSrtp b.asSlice =
      if isSrtp = false ∧ plain = [] then none
      else some ⟨(serverHeader out now d).seq, 24, plain⟩ := by
  have hp : (d.fillBytes (randomPadding isSrtp out.payloadType d)).length < 255 := by
    rw [d.length_fillBytes]
    exact randomPadding_lt isSrtp out.payloadType d
  have hm : (serverHeader out now d).marks &&& 0x7f = out.payloadType :=
    payloadMarks_type ht d
  rw [asSlice_of_wrapped h]
  cases isSrtp with
  | true =>
    exact decode_encodeVideo hc plain hp (by rw [hm]; exact ht)
  | false =>
    by_cases he : plain = []
    · rw [he]
      exact decode_encodeAudio_nil c _ hp
    · rw [if_neg (fun hb => he hb.2)]
      exact decode_encodeAudio hc he hp (hm.trans (ha rfl))

end ServerWire

theorem isGetconf_first {payload : Bytes} (h : isGetconf payload = true) :
    payload.getD 0 0 = 0x47 := by
  cases payload with
  | nil => exact absurd h (by decide)
  | cons =>
    have hs : getconfStart = 0x47 :: getconfStart.tail := by decide
    rw [isGetconf, hs, List.isPrefixOf_cons_cons, Bool.and_eq_true, beq_iff_eq] at h
    exact h.1.symm

theorem take_eq_of_isGetconf {plain : Bytes} {n : ℕ}
    (hc : n = plain.length ∨ 0 < n ∧ ServerWire.isDtlsKind (plain.getD 0 0) = true)
    (h : isGetconf (plain.take n) = true) : plain.take n = plain := by
  obtain hw | ⟨hp, hk⟩ := hc
  · rw [hw, List.take_length]
  · have hf := isGetconf_first h
    rw [List.getD_eq_getElem?_getD, List.getElem?_take_of_lt hp,
      ← List.getD_eq_getElem?_getD] at hf
    rw [hf] at hk
    exact absurd hk (by decide)

namespace Engine

variable (cfg : ServerConfig)

/-- A datagram was not taken as input of the session: nothing went to the TUN or to the control
plane, and the session's window and the time of its last input are what they were. -/
structure NotAccepted (slot : ℕ) (s : HotSession) (e e' : Engine) : Prop where
  written : e'.written = e.written
  events : e'.events = e.events
  session : ∃ s', e'.sessions.get slot = some s' ∧ s'.replay.window = s.replay.window ∧
    s'.lastInboundMs = s.lastInboundMs

variable {e e' : Engine} {slot : ℕ} {s : HotSession}

theorem notAccepted_refl (hs : e.sessions.get slot = some s) : NotAccepted slot s e e :=
  ⟨rfl, rfl, s, hs, rfl, rfl⟩

def Replaces (e : Engine) (s : HotSession) (plain : Bytes) : Prop :=
  isGetconf plain = true ∧ ∃ incoming, parseGetconfEpoch plain = some incoming ∧
    getconfReconnectActionHot (e.epochs.lookup incoming.deviceId) s.identity incoming = .replace

variable {seq : UInt16}

theorem notAccepted_receive (hs : e.sessions.get slot = some s)
    (hr : (s.replay.accept seq).2 = false) (localIp : Option IpAddr) (plain : Bytes) (io : UdpIo) :
    NotAccepted slot s e (e.receive cfg slot s localIp seq plain io) := by
  have hw := ReplayState.window_of_refused hr
  unfold receive
  split
  · rename_i replay heq
    rw [heq] at hw
    exact ⟨rfl, rfl, { s with replay }, get_setSession_self hs _, hw, rfl⟩
  · rename_i replay heq
    rw [heq] at hr
    cases hr

theorem get_sendPlain (hs : e.sessions.get slot = some s) (plain : Bytes) (io : SendIo) :
    ∃ s', (e.sendPlain cfg slot plain io).1.sessions.get slot = some s' ∧ s'.id = s.id ∧
      s'.replay = s.replay := by
  unfold sendPlain
  rw [hs]
  dsimp only
  split_ifs
  · split
    · exact ⟨_, get_setSession_self hs _, rfl, rfl⟩
    · exact ⟨_, get_setSession_self hs _, rfl, rfl⟩
  · exact ⟨s, hs, rfl, rfl⟩

section

variable (hs : e.sessions.get slot = some s)
include hs

theorem get_dispatch (plain : Bytes) (io : UdpIo) :
    ∃ s', (e.dispatch cfg slot s plain io).sessions.get slot = some s' ∧ s'.id = s.id ∧
      s'.replay = s.replay := by
  unfold dispatch
  split_ifs
  · exact ⟨s, hs, rfl, rfl⟩
  · exact get_sendPlain cfg hs readyOk io.send
  · exact ⟨s, hs, rfl, rfl⟩
  · exact ⟨s, get_queueEvent hs _, rfl, rfl⟩
  · unfold writeTun
    split_ifs
    · exact ⟨_, get_setSession_self hs _, rfl, rfl⟩
    · exact ⟨s, hs, rfl, rfl⟩
  · exact ⟨s, hs, rfl, rfl⟩
  · exact ⟨_, get_setSession_self (get_queueEvent hs _) _, rfl, rfl⟩

theorem get_receive (ha : (s.replay.accept seq).2 = true) (localIp : Option IpAddr)
    (plain : Bytes) (io : UdpIo) :
    ∃ s', (e.receive cfg slot s localIp seq plain io).sessions.get slot = some s' ∧ s'.id = s.id ∧
      s'.replay = (s.replay.accept seq).1 := by
  unfold receive
  split
  · rename_i replay heq
    rw [heq] at ha
    cases ha
  · rename_i replay heq
    rw [heq]
    have hseen : { e.setSession slot (s.seen replay e.monotonicMs localIp) with
        byPeer := rekey e.byPeer s localIp slot }.sessions.get slot =
          some (s.seen replay e.monotonicMs localIp) := get_setSession_self hs _
    exact get_dispatch cfg hseen plain io

theorem not_notAccepted_receive (ha : (s.replay.accept seq).2 = true) (localIp : Option IpAddr)
    (plain : Bytes) (io : UdpIo) :
    ¬ NotAccepted slot s e (e.receive cfg slot s localIp seq plain io) := by
  intro h
  obtain ⟨s', hs', hw, -⟩ := h.session
  obtain ⟨t, ht, -, hr⟩ := get_receive cfg hs ha localIp plain io
  cases hs'.symm.trans ht
  rw [hr] at hw
  exact ReplayState.window_of_accepted ha hw

end

theorem action_touchEpoch (e : Engine) (session incoming : Identity) :
    getconfReconnectActionHot ((e.touchEpoch incoming.deviceId).epochs.lookup incoming.deviceId)
      session incoming =
    getconfReconnectActionHot (e.epochs.lookup incoming.deviceId) session incoming := by
  unfold touchEpoch
  split
  · rfl
  · rename_i epoch he
    rw [AList.lookup_insert, he]
    rfl

theorem notAccepted_touchEpoch {deviceId : Text}
    (h : NotAccepted slot s (e.touchEpoch deviceId) e') : NotAccepted slot s e e' := by
  have he : (e.touchEpoch deviceId).events = e.events := by
    unfold touchEpoch
    split <;> rfl
  exact ⟨h.written.trans (sameTables_touchEpoch e deviceId).written, h.events.trans he, h.session⟩

theorem notAccepted_handleGetconf
    (hs : e.sessions.get slot = some s) {packet : ServerWire.DecodedPacket}
    (hr : (s.replay.accept packet.seq).2 = false) {incoming : Identity}
    (hk : getconfReconnectActionHot (e.epochs.lookup incoming.deviceId) s.identity incoming ≠
      .replace) (localIp : Option IpAddr) (plain : Bytes) (io : UdpIo) :
    NotAccepted slot s e (e.handleGetconf cfg slot s localIp packet incoming plain io) := by
  unfold handleGetconf
  split
  · exact notAccepted_refl hs
  · rename_i hreplace
    exact absurd hreplace hk
  · exact notAccepted_receive cfg hs hr localIp plain io

theorem handleExisting_of_unwrapped (hs : e.sessions.get slot = some s) {wire buffer plain : Bytes}
    {packet : ServerWire.DecodedPacket}
    (hunwrap : ServerWire.unwrapLegacyInPlace (cfg.prims.keyed s.key) wire (some s.isSrtp) =
      (buffer, .ok packet)) (hslice : slice buffer packet.start packet.stop = plain)
    (localIp : Option IpAddr) (io : UdpIo) :
    ((s.replay.accept packet.seq).2 = false → ¬ e.Replaces s plain →
      NotAccepted slot s e (e.handleExisting cfg slot localIp wire io)) ∧
    ((s.replay.accept packet.seq).2 = true → isGetconf plain = false →
      ¬ NotAccepted slot s e (e.handleExisting cfg slot localIp wire io)) := by
  rw [handleExisting, hs]
  dsimp only
  rw [hunwrap]
  dsimp only
  rw [hslice]
  constructor
  · intro hrefuse hreplaces
    split_ifs with hgetconf
    · cases hparse : parseGetconfEpoch plain with
      | none => exact notAccepted_refl hs
      | some incoming =>
        apply notAccepted_touchEpoch
        apply notAccepted_handleGetconf cfg
          ((sameTables_touchEpoch e incoming.deviceId).sessions ▸ hs) hrefuse
        rw [action_touchEpoch]
        exact fun hreplace => hreplaces ⟨hgetconf, incoming, hparse, hreplace⟩
    · exact notAccepted_receive cfg hs hrefuse localIp plain io
  · intro hacc hplain
    rw [if_neg (by simp [hplain])]
    exact not_notAccepted_receive cfg hs hacc localIp plain io

/-- A datagram of the server that comes back to it is refused if the window refuses its number,
unless it is a GETCONF that replaces the session, and taken if the window accepts it. -/
theorem reflected_datagram (hlaw : ∀ key, (cfg.prims.keyed key).Lawful)
    (credentials : List Credential) (wallNow : ℕ) (inputs : List Input) (endpoint : EndpointKey)
    (io : UdpIo) (slot : ℕ) (s : HotSession)
    (hslot : (inputs.foldl (step cfg) (start credentials wallNow)).slotFor endpoint = some slot)
    (hs : (inputs.foldl (step cfg) (start credentials wallNow)).sessions.get slot = some s)
    (out : ServerWire.OutState) (hout : out.payloadType = s.output.payloadType) (plain : Bytes)
    (d : Draws) (output b : ServerWire.OutputBuf) (now : ℕ)
    (hb : (ServerWire.wrapLegacyInto (cfg.prims.keyed s.key) s.isSrtp out plain d output now).2 =
      .ok b) : ((s.replay.accept (ServerWire.serverHeader out now d).seq).2 = false →
      ¬ (inputs.foldl (step cfg) (start credentials wallNow)).Replaces s plain →
      NotAccepted slot s (inputs.foldl (step cfg) (start credentials wallNow))
        ((inputs.foldl (step cfg) (start credentials wallNow)).onUdp cfg endpoint b.asSlice io)) ∧
    ((s.replay.accept (ServerWire.serverHeader out now d).seq).2 = true →
      plain ≠ [] → isGetconf plain = false →
      ¬ NotAccepted slot s (inputs.foldl (step cfg) (start credentials wallNow))
        ((inputs.foldl (step cfg) (start credentials wallNow)).onUdp cfg endpoint b.asSlice
          io)) := by
  have hfits := (run_indexed_fits cfg credentials wallNow inputs).2 slot s hs
  generalize inputs.foldl (step cfg) (start credentials wallNow) = e at hslot hs
  have hdec := ServerWire.decode_wrapped (hlaw s.key) (hout ▸ hfits.1)
    (fun h => hout.trans (hfits.2 h)) hb
  have hudp : e.onUdp cfg endpoint b.asSlice io =
      e.handleExisting cfg slot endpoint.localIp b.asSlice io := by
    rw [onUdp, hslot]
  rw [hudp]
  by_cases hempty : s.isSrtp = false ∧ plain = []
  · rw [if_pos hempty] at hdec
    obtain ⟨⟨error, herr⟩, -⟩ :=
      (ServerWire.unwrapLegacyInPlace_spec (cfg.prims.keyed s.key) b.asSlice s.isSrtp).refuses hdec
    refine ⟨fun _ _ => ?_, fun _ hplain => absurd hempty.2 hplain⟩
    rw [handleExisting, hs]
    dsimp only
    split
    · exact notAccepted_refl hs
    · rename_i buffer packet hunwrap
      rw [hunwrap] at herr
      cases herr
  · rw [if_neg hempty] at hdec
    obtain ⟨buffer, packet, n, hunwrap, hseq, hslice, hcut⟩ :=
      ServerWire.unwrapped_of_decode hdec
    obtain ⟨hrefuse, hacc⟩ := handleExisting_of_unwrapped cfg hs hunwrap hslice
      endpoint.localIp io
    have hwhole := take_eq_of_isGetconf (hcut.imp_right And.right)
    rw [hseq] at hrefuse hacc
    refine ⟨fun h hreplace => hrefuse h ?_, fun h _ hplain => hacc h ?_⟩
    · intro hreplaced
      rw [hwhole hreplaced.1] at hreplaced
      exact hreplace hreplaced
    · by_contra hgetconf
      have hgetconf := (Bool.not_eq_false _).mp hgetconf
      rw [hwhole hgetconf, hplain] at hgetconf
      cases hgetconf

end Engine

namespace Recorded

open CrossLanguage

/-- A packet in audio mode whose keystream and tag were recorded. -/
structure Packet where
  nonce : Bytes
  stream : Bytes
  tag : Bytes

def find (packets : List Packet) (nonce : Bytes) : Packet :=
  (packets.find? (·.nonce = nonce)).getD ⟨[], [], []⟩

def tagOf (packets : List Packet) (nonce : Bytes) : Bytes := (find packets nonce).tag.takeD 16 0

/-- The ciphers on recorded packets in audio mode. The authentication code is the one that the
server compares when it tries the video mode first. -/
def primitives (packets : List Packet) (code : Bytes) : Primitives where
  aesCtr _ _ data := data
  hmacSha1 _ _ := code.takeD 20 0
  chachaSeal _ nonce _ data := (xorWith (find packets nonce).stream data, tagOf packets nonce)
  chachaOpen _ nonce _ tag data :=
    (xorWith (find packets nonce).stream data, tag = tagOf packets nonce)
  aesCtr_length _ _ _ := rfl
  hmacSha1_length _ _ := List.takeD_length ..
  chachaSeal_length _ _ _ _ := List.length_mapIdx
  chachaTag_length _ _ _ _ := List.takeD_length ..
  chachaOpen_length _ _ _ _ _ := List.length_mapIdx

theorem primitives_lawful (packets : List Packet) (code key : Bytes) :
    ((primitives packets code).keyed key).Lawful where
  ctr_ctr _ _ := rfl
  open_seal nonce _ data := by
    have hd := xorWith_xorWith (find packets nonce).stream data
    simp only [Primitives.keyed, primitives, hd, decide_true]

def getconfText : Bytes := asciiBytes "GETCONF:9000|phone|cross-language-password|1|s|1|1"

def getconfHeader : RtpHeader where
  marks := 0x6f
  seq := 0x9000
  timestamp := 0x43e8f700
  ssrc := 0x709a0949
  absSendTime := [0x11, 0xeb, 0x85]
  transportSeq := 0x2bb6
  absSendTime_length := rfl

def getconfPacket : Packet where
  nonce := [0x70, 0x9a, 0x09, 0x49, 0x90, 0x00, 0x00, 0x00, 0x43, 0xe8, 0xf7, 0x00]
  stream := [0xda, 0x02, 0x98, 0x27, 0xde, 0xa9, 0xcb, 0xd2, 0x14, 0x79, 0x87, 0x1e, 0x70,
    0x18, 0xe9,
    0xc1, 0x92, 0xda, 0xfe, 0x4f, 0xc3, 0x47, 0x77, 0x3e, 0x3b, 0x7b, 0xde, 0x1c, 0x93, 0xfe, 0x21,
    0x41, 0x0b, 0x00, 0xac, 0xeb, 0x4d, 0xf6, 0x4e, 0xbe, 0x6a, 0x65, 0x2c, 0x4b, 0xe8, 0x19, 0x81,
    0x99, 0x78, 0x95]
  tag := [0xf4, 0x05, 0x00, 0xf8, 0xa8, 0x27, 0x57, 0x94, 0xb4, 0xc7, 0xea, 0xbb, 0xc9, 0x4f, 0x4d,
    0x2d]

def getconfCode : Bytes :=
  [0xa1, 0x12, 0x33, 0xbb, 0x40, 0x2d, 0x0e, 0xa6, 0xb8, 0x76, 0x33, 0xa9, 0xb2, 0x50, 0x95, 0x44,
    0xf3, 0xf1, 0x29, 0xfb]

/-- The packet of the server in the test `unwraps_go_audio_and_video_vectors`. -/
def serverPacket : Packet where
  nonce := rtpNonce audioState.ssrc audioState.initialSeq audioState.initialTs
  stream := chachaStream
  tag := tag

def config : ServerConfig := ⟨primitives [getconfPacket, serverPacket] getconfCode, (10, 66, 67)⟩

def getconfDatagram : Bytes :=
  encode (config.prims.keyed key) false getconfHeader getconfText []

def credentials : List Credential := [⟨"cross-language-password".toList, key⟩]

def endpoint : EndpointKey := ⟨⟨[203, 0, 113, 7], 40000⟩, none⟩

def sendIo : SendIo := ⟨true, output, audioDraws, 0⟩

def udpIo : UdpIo := ⟨sendIo, true, audioState⟩

def inputs : List Engine.Input :=
  [.udp endpoint getconfDatagram udpIo,
    .command (.activateTunnel 1 (10, 66, 67, 2) 1 1 1) ⟨fun _ => sendIo, true⟩]

def engine : Engine := inputs.foldl (Engine.step config) (.start credentials 0)

def session : HotSession :=
  (engine.sessions.get 0).get (by decide +kernel)

theorem get_session : engine.sessions.get 0 = some session := (Option.some_get _).symm

def reflected (s : HotSession) : Option Bytes :=
  ((ServerWire.wrapLegacyInto (config.prims.keyed s.key) s.isSrtp s.output payload audioDraws output
    0).2.toOption).map (·.asSlice)

end Recorded

/-- The server writes to the TUN what it sent itself. -/
theorem reflected_datagram_written :
    Recorded.engine.slotFor Recorded.endpoint = some 0 ∧ Recorded.engine.written = [] ∧
      ((Recorded.engine.sessions.get 0).bind Recorded.reflected).map (fun datagram =>
        (Recorded.engine.onUdp Recorded.config Recorded.endpoint datagram Recorded.udpIo).written) =
      some [(1, CrossLanguage.payload)] := by
  decide +kernel

/-- The theorem at the packet that comes back. -/
theorem reflected_datagram_taken :
    ∃ b, (ServerWire.wrapLegacyInto (Recorded.config.prims.keyed Recorded.session.key)
        Recorded.session.isSrtp CrossLanguage.audioState CrossLanguage.payload
        CrossLanguage.audioDraws CrossLanguage.output 0).2 = .ok b ∧
      ¬ Engine.NotAccepted 0 Recorded.session Recorded.engine
        (Recorded.engine.onUdp Recorded.config Recorded.endpoint b.asSlice Recorded.udpIo) := by
  obtain ⟨b, hb, -⟩ := ServerWire.wrapLegacyInto_spec
    (Recorded.config.prims.keyed Recorded.session.key) Recorded.session.isSrtp
    CrossLanguage.audioState CrossLanguage.payload CrossLanguage.audioDraws CrossLanguage.output 0
    (by decide +kernel)
  have ht := Engine.reflected_datagram Recorded.config
    (Recorded.primitives_lawful _ _) Recorded.credentials 0 Recorded.inputs Recorded.endpoint
    Recorded.udpIo 0 Recorded.session (by decide +kernel) Recorded.get_session
    CrossLanguage.audioState (by decide +kernel) CrossLanguage.payload CrossLanguage.audioDraws
    CrossLanguage.output b 0 hb
  exact ⟨b, hb, ht.2 (by decide +kernel) (by decide +kernel) (by decide +kernel)⟩

end Csqtt
