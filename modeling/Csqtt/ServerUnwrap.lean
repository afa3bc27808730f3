import Csqtt.ServerWire

/-!
# What the server decodes

`unwrap_legacy_in_place` with an expected mode gives what `decode` gives in that mode, with the tail
of a video payload cut off if the payload starts with whole DTLS records, and refuses what `decode`
refuses. It never reads outside the packet, and in video mode a refused packet is left as it was.
-/

namespace Csqtt

open Buffer

/-- A DTLS record: kind, version, and a length that covers the rest. -/
def IsDtlsRecord (record : Bytes) : Prop :=
  13 ≤ record.length ∧ ServerWire.isDtlsKind (record.getD 0 0) = true ∧ record.getD 1 0 = 0xfe ∧
    record.length = 13 + ((record.getD 11 0).toNat * 256 + (record.getD 12 0).toNat)

inductive DtlsRecords : Bytes → Prop
  | nil : DtlsRecords []
  | cons {record rest : Bytes} : IsDtlsRecord record → DtlsRecords rest →
      DtlsRecords (record ++ rest)

theorem DtlsRecords.kind {bytes : Bytes} (h : DtlsRecords bytes) (hne : bytes ≠ []) :
    ServerWire.isDtlsKind (bytes.getD 0 0) = true := by
  cases h with
  | nil => exact absurd rfl hne
  | @cons record rest hr _ =>
    obtain ⟨hl, hk, -⟩ := hr
    rwa [List.getD_append _ _ _ _ (by omega)]

namespace ServerWire

theorem rtpHeaderLen_spec (wire : Bytes) :
    (∃ n, headerLen? wire = some n ∧ rtpHeaderLen wire = .ok n) ∨
      (headerLen? wire = none ∧ ∃ e, rtpHeaderLen wire = refuse e) := by
  rw [rtpHeaderLen, headerLen?]
  by_cases hs : wire.length < 13
  · rw [if_pos hs, if_pos (.inl hs)]
    exact .inr ⟨rfl, _, rfl⟩
  rw [if_neg hs, readByte_of_lt (by omega), ok_bind]
  by_cases hv : wire.getD 0 0 >>> 6 ≠ 2
  · rw [if_pos hv, if_pos (.inr hv)]
    exact .inr ⟨rfl, _, rfl⟩
  rw [if_neg hv, if_neg (not_or.mpr ⟨hs, hv⟩)]
  by_cases he : wire.getD 0 0 &&& 0x10 = 0
  · rw [if_pos he, if_neg (not_not_intro he), checkHeaderLen, if_neg (by omega)]
    exact .inl ⟨12, rfl, rfl⟩
  rw [if_neg he, if_pos he]
  by_cases hl : wire.length < 16
  · rw [if_pos hl, if_pos hl]
    exact .inr ⟨rfl, _, rfl⟩
  rw [if_neg hl, if_neg hl, readSlice_of_le (by omega) (by omega), ok_bind, checkHeaderLen]
  by_cases hf : wire.length < 12 + (4 + BigEndian.value (slice wire 14 16) * 4)
  · rw [if_pos hf, if_pos hf]
    exact .inr ⟨rfl, _, rfl⟩
  · rw [if_neg hf, if_neg hf]
    exact .inl ⟨_, rfl, rfl⟩

theorem rtpFields_spec (wire : Bytes) :
    (∃ n, headerLen? wire = some n ∧ supportedPayloadType (payloadType wire) = true ∧
      rtpFields wire = .ok ⟨n, payloadType wire, wireSeq wire, wireTimestamp wire, wireSsrc wire⟩) ∨
      ((∀ n, headerLen? wire = some n → supportedPayloadType (payloadType wire) = false) ∧
        ∃ e, rtpFields wire = refuse e) := by
  rw [rtpFields]
  obtain ⟨n, hn, hl⟩ | ⟨hno, e, he⟩ := rtpHeaderLen_spec wire
  swap
  · rw [he]
    exact .inr ⟨fun n hn => (by rw [hno] at hn; cases hn), e, rfl⟩
  have hb := headerLen?_bounds hn
  rw [hl, readByte_of_lt (by omega)]
  by_cases ht : supportedPayloadType (payloadType wire) = true
  · refine .inl ⟨n, hn, ht, ?_⟩
    rw [readSlice_of_le (by omega) (by omega), readSlice_of_le (by omega) (by omega),
      readSlice_of_le (by omega) (by omega)]
    exact if_pos ht
  · exact .inr ⟨fun _ _ => by simpa using ht, _, if_neg ht⟩

theorem dtlsLoop_spec (wire : Bytes) {stop offset : ℕ} (hstop : stop ≤ wire.length)
    (hoffset : offset ≤ stop) : ∃ n, dtlsLoop wire stop offset = .ok n ∧ offset ≤ n ∧ n ≤ stop ∧
      DtlsRecords (slice wire offset n) := by
  induction hk : stop - offset using Nat.strong_induction_on generalizing offset with
  | _ k ih =>
    have hnil : DtlsRecords (slice wire offset offset) := by
      have hempty : slice wire offset offset = [] :=
        List.length_eq_zero_iff.mp (by rw [length_slice (by omega), Nat.sub_self])
      rw [hempty]
      exact .nil
    rw [dtlsLoop]
    by_cases hroom : offset + 13 ≤ stop
    swap
    · rw [dif_neg hroom]
      exact ⟨offset, rfl, le_rfl, hoffset, hnil⟩
    rw [dif_pos hroom, readByte_of_lt (by omega), ok_bind, readByte_of_lt (by omega), ok_bind,
      readByte_of_lt (by omega), ok_bind, readByte_of_lt (by omega), ok_bind]
    set recordLen := 13 + ((wire.getD (offset + 11) 0).toNat * 256 +
      (wire.getD (offset + 12) 0).toNat)
    by_cases hkind : (!isDtlsKind (wire.getD offset 0)) = true ∨ wire.getD (offset + 1) 0 ≠ 0xfe
    · rw [if_pos hkind]
      exact ⟨offset, rfl, le_rfl, hoffset, hnil⟩
    rw [if_neg hkind]
    by_cases hlong : stop < offset + recordLen
    · rw [if_pos hlong]
      exact ⟨offset, rfl, le_rfl, hoffset, hnil⟩
    rw [if_neg hlong]
    obtain ⟨n, hn, hle, hnstop, hrecords⟩ := ih (stop - (offset + recordLen)) (by omega)
      (by omega : offset + recordLen ≤ stop) rfl
    refine ⟨n, hn, by omega, hnstop, ?_⟩
    rw [← slice_append_slice wire (by omega : offset ≤ offset + recordLen) hle]
    refine .cons ?_ hrecords
    rw [IsDtlsRecord, length_slice (by omega), getD_slice _ (by omega), getD_slice _ (by omega),
      getD_slice _ (by omega), getD_slice _ (by omega)]
    rw [not_or, not_ne_iff] at hkind
    exact ⟨by omega, by simpa using hkind.1, hkind.2, by omega⟩

theorem dtlsEnd_spec (wire : Bytes) {headerLen stop : ℕ} (hs : stop ≤ wire.length)
    (hh : headerLen ≤ stop) :
    ∃ n, dtlsEnd wire headerLen stop = .ok n ∧ headerLen ≤ n ∧ n ≤ stop ∧
      (n = stop ∨ headerLen < n ∧ DtlsRecords (slice wire headerLen n)) := by
  rw [dtlsEnd]
  by_cases hl : 13 ≤ stop - headerLen
  swap
  · rw [if_neg hl]
    exact ⟨stop, rfl, hh, le_rfl, .inl rfl⟩
  rw [if_pos hl, readByte_of_lt (by omega), ok_bind]
  by_cases hk : isDtlsKind (wire.getD headerLen 0) = true
  swap
  · rw [if_neg hk]
    exact ⟨stop, rfl, hh, le_rfl, .inl rfl⟩
  obtain ⟨n, hn, hle, hnstop, hr⟩ := dtlsLoop_spec wire hs hh
  rw [if_pos hk, hn, ok_bind]
  by_cases hc : headerLen < n
  · rw [if_pos hc]
    exact ⟨n, rfl, hle, hnstop, .inr ⟨hc, hr⟩⟩
  · rw [if_neg hc]
    exact ⟨stop, rfl, hh, le_rfl, .inl rfl⟩

variable {wire : Bytes}

theorem srtpEnd_spec {headerLen : ℕ} (hp : 0 < headerLen) (hl : headerLen + 10 ≤ wire.length) :
    (∃ n, unpadded wire headerLen (wire.length - 10) = some n ∧ srtpEnd wire headerLen = .ok n) ∨
      (unpadded wire headerLen (wire.length - 10) = none ∧ ∃ e,
        srtpEnd wire headerLen = refuse e) := by
  rw [srtpEnd, unpadded, minus_of_le (by omega), ok_bind, readByte_of_lt (by omega), ok_bind]
  by_cases hf : wire.getD 0 0 &&& 0x20 = 0
  · rw [if_pos hf, if_neg (not_not_intro hf)]
    exact .inl ⟨_, rfl, if_neg (by omega)⟩
  rw [if_neg hf, if_pos hf, minus_of_le (by omega), ok_bind, readByte_of_lt (by omega),
    ok_bind]
  have hz : wire.getD (wire.length - 10 - 1) 0 = 0 ↔
      (wire.getD (wire.length - 10 - 1) 0).toNat = 0 := UInt8.toNat_inj.symm
  by_cases hb : (wire.getD (wire.length - 10 - 1) 0).toNat = 0 ∨
      wire.length - 10 - headerLen < (wire.getD (wire.length - 10 - 1) 0).toNat
  · rw [if_pos hb, if_pos (by rw [hz]; exact hb)]
    exact .inr ⟨rfl, _, rfl⟩
  · rw [if_neg hb, if_neg (by rw [hz]; exact hb), minus_of_le (by omega)]
    exact .inl ⟨_, rfl, if_neg (by omega)⟩

theorem getLast?_eq_getD (h : 0 < wire.length) :
    wire.getLast? = some (wire.getD (wire.length - 1) 0) := by
  rw [List.getLast?_eq_getElem?, List.getD_eq_getElem?_getD,
    List.getElem?_eq_getElem (by omega : wire.length - 1 < wire.length), Option.getD_some]

theorem aeadEnd_spec {f : RtpFields} (hpos : 0 < f.headerLen) (hlen : f.headerLen ≤ wire.length) :
    (∃ n, unpadded wire f.headerLen wire.length = some n ∧ f.headerLen + 16 < n ∧
        f.payloadType = 111 ∧ aeadEnd wire f = .ok n) ∨
      ((∀ n, unpadded wire f.headerLen wire.length = some n → f.payloadType = 111 →
        n ≤ f.headerLen + 16) ∧ ∃ e, aeadEnd wire f = refuse e) := by
  have hend : (∃ n, unpadded wire f.headerLen wire.length = some n ∧
      aeadEnd wire f = if n ≤ f.headerLen + 16 then refuse .emptyPayload
        else if f.payloadType ≠ 111 then refuse .expectedAudio else .ok n) ∨
      (unpadded wire f.headerLen wire.length = none ∧ ∃ e, aeadEnd wire f = refuse e) := by
    rw [aeadEnd, unpadded, readByte_of_lt (by omega), ok_bind, getLast?_eq_getD (by omega)]
    by_cases hflag : wire.getD 0 0 &&& 0x20 = 0
    · rw [if_pos hflag, if_neg (not_not_intro hflag)]
      exact .inl ⟨_, rfl, rfl⟩
    rw [if_neg hflag, if_pos hflag]
    dsimp only
    have hzero : wire.getD (wire.length - 1) 0 = 0 ↔ (wire.getD (wire.length - 1) 0).toNat = 0 :=
      UInt8.toNat_inj.symm
    by_cases hbad : (wire.getD (wire.length - 1) 0).toNat = 0 ∨
        wire.length - f.headerLen < (wire.getD (wire.length - 1) 0).toNat
    · rw [if_pos hbad, if_pos (by rw [hzero]; exact hbad)]
      exact .inr ⟨rfl, _, rfl⟩
    · rw [if_neg hbad, if_neg (by rw [hzero]; exact hbad), minus_of_le (by omega)]
      exact .inl ⟨_, rfl, rfl⟩
  obtain ⟨n, hn, hresult⟩ | ⟨hnone, he⟩ := hend
  swap
  · exact .inr ⟨fun n hn => (by rw [hnone] at hn; cases hn), he⟩
  rw [hresult, hn]
  by_cases hempty : n ≤ f.headerLen + 16
  · rw [if_pos hempty]
    refine .inr ⟨fun m hm _ => ?_, _, rfl⟩
    rw [← Option.some.inj hm]
    exact hempty
  rw [if_neg hempty]
  by_cases htype : f.payloadType ≠ 111
  · rw [if_pos htype]
    exact .inr ⟨fun _ _ h => absurd h htype, _, rfl⟩
  · rw [if_neg htype]
    exact .inl ⟨n, rfl, by omega, not_not.mp htype, rfl⟩

/-- What decoding does to a packet that decodes to `d`, or to none. In video mode the range may end
after `n` bytes of the payload, if these are whole DTLS records. -/
structure Unwraps (wire : Bytes) (video : Bool) (decoded : Option Decoded)
    (result : Bytes × WireResult DecodedPacket) : Prop where
  accepts : ∀ d, decoded = some d → ∃ n ≤ d.payload.length,
    result.2 = .ok ⟨d.start, d.start + n, d.seq, payloadType wire, video⟩ ∧
    d.start + d.payload.length ≤ wire.length ∧ result.1 = overwrite wire d.start d.payload ∧
    (n = d.payload.length ∨ video = true ∧ 0 < n ∧ DtlsRecords (d.payload.take n))
  refuses : decoded = none → (∃ e, result.2 = refuse e) ∧ (video = true → result.1 = wire)

variable {result : Bytes × WireResult DecodedPacket}

theorem unwraps_none {video : Bool}
    {e : WireError} (he : result.2 = refuse e) (hw : video = true → result.1 = wire) :
    Unwraps wire video none result :=
  ⟨fun d hd => (by cases hd), fun _ => ⟨⟨e, he⟩, hw⟩⟩

theorem unwraps_none_audio
    {e : WireError} (he : result.2 = refuse e) : Unwraps wire false none result :=
  unwraps_none he fun h => by cases h

theorem Unwraps.of_ok {video : Bool} {decoded : Option Decoded}
    (h : Unwraps wire video decoded result) {d : DecodedPacket} (hok : result.2 = .ok d) :
    decoded.isSome ∧ d.payloadType = payloadType wire ∧ d.isSrtp = video := by
  cases hd : decoded with
  | none =>
    obtain ⟨⟨e, he⟩, -⟩ := h.refuses hd
    rw [hok] at he
    cases he
  | some plain =>
    obtain ⟨n, -, hr, -⟩ := h.accepts plain hd
    rw [hok] at hr
    cases hr
    exact ⟨rfl, rfl, rfl⟩

/-- The fields of a packet whose header has `n` bytes. -/
def fieldsOf (wire : Bytes) (n : ℕ) : RtpFields :=
  ⟨n, payloadType wire, wireSeq wire, wireTimestamp wire, wireSsrc wire⟩

variable (c : Cipher)

theorem unwrapSrtp_spec {n : ℕ} (hn : 12 ≤ n) (hlen : n + 10 ≤ wire.length) :
    Unwraps wire true ((unpadded wire n (wire.length - 10)).map fun stop =>
        ⟨wireSeq wire, n, c.ctr (wireIv wire) (slice wire n stop)⟩)
      (unwrapSrtp c wire (fieldsOf wire n)) := by
  rw [unwrapSrtp]
  obtain ⟨m, hm, hend⟩ | ⟨hnone, e, he⟩ := srtpEnd_spec (by omega : 0 < n) hlen
  swap
  · rw [hnone, fieldsOf, he]
    exact unwraps_none rfl fun _ => rfl
  obtain ⟨hnm, hmstop⟩ := unpadded_bounds (by omega) hm
  set payload := c.ctr (wireIv wire) (slice wire n m) with hpay
  have hplen : payload.length = m - n := by rw [c.ctr_length, length_slice (by omega)]
  have hfit : n + payload.length ≤ wire.length := by omega
  have hwrite : (writeAt wire n payload : WireResult Bytes) = .ok (overwrite wire n payload) :=
    if_pos hfit
  have hbody : slice (overwrite wire n payload) n m = payload := by
    have hself := slice_overwrite_self hfit
    rwa [hplen, Nat.add_sub_cancel' hnm] at hself
  have hstop : m ≤ (overwrite wire n payload).length := by
    rw [length_overwrite hfit]
    omega
  obtain ⟨k, hk, hnk, hkm, hcut⟩ := dtlsEnd_spec _ hstop hnm
  have hdecrypt : srtpDecrypt c wire (fieldsOf wire n) m = .ok (overwrite wire n payload, k) := by
    rw [srtpDecrypt, fieldsOf]
    rw [readSlice_of_le hnm (by omega), ok_bind, ← wireIv, hwrite, ok_bind, hk, ok_bind]
  have hresult : (srtpEnd wire (fieldsOf wire n).headerLen >>= srtpDecrypt c wire
    (fieldsOf wire n)) =
      .ok (overwrite wire n payload, k) := by
    rw [← hdecrypt]
    exact congrArg (· >>= srtpDecrypt c wire (fieldsOf wire n)) hend
  rw [hresult, hm]
  refine ⟨fun d hd => ?_, fun hd => (by cases hd)⟩
  obtain rfl := Option.some.inj hd
  dsimp only
  refine ⟨k - n, by rw [← hpay]; omega, ?_, hfit, rfl, ?_⟩
  · rw [Nat.add_sub_cancel' hnk]
    rfl
  obtain hsame | ⟨hlt, hrecords⟩ := hcut
  · exact .inl (by rw [← hpay]; omega)
  refine .inr ⟨rfl, by omega, ?_⟩
  have htake : (slice (overwrite wire n payload) n m).take (k - n) =
      slice (overwrite wire n payload) n k := by
    rw [← slice_zero, slice_slice _ (by omega), Nat.add_zero, Nat.add_sub_cancel' hnk]
  rw [← htake, hbody] at hrecords
  exact hrecords

theorem unwrapAead_spec {n : ℕ} (hn : 12 ≤ n) (hlen : n ≤ wire.length) :
    Unwraps wire false (decodeAudio c wire n) (unwrapAead c wire (fieldsOf wire n)) := by
  rw [unwrapAead, decodeAudio]
  obtain ⟨m, hm, hlong, htype, hend⟩ | ⟨hnone, e, he⟩ :=
    aeadEnd_spec (f := fieldsOf wire n) (by exact Nat.lt_of_lt_of_le (by decide) hn) hlen
  swap
  · rw [he]
    by_cases htype : payloadType wire ≠ 111
    · rw [if_pos htype]
      exact unwraps_none_audio rfl
    rw [if_neg htype]
    cases hm : unpadded wire n wire.length with
    | none => exact unwraps_none_audio rfl
    | some m =>
      have hshort : m ≤ n + 16 := hnone m hm (not_not.mp htype)
      rw [Option.bind_some, if_pos hshort]
      exact unwraps_none_audio rfl
  replace hm : unpadded wire n wire.length = some m := hm
  replace hlong : n + 16 < m := hlong
  replace htype : payloadType wire = 111 := htype
  obtain ⟨-, hmstop⟩ := unpadded_bounds hlen hm
  set opened := c.openInPlace (wireNonce wire) (wire.take n) (slice wire (m - 16) m)
    (slice wire n (m - 16))
  have hbody : opened.1.length = m - 16 - n := by
    rw [c.open_length, length_slice (by omega)]
  have hfit : n + opened.1.length ≤ wire.length := by omega
  have hwrite : (writeAt wire n opened.1 : WireResult Bytes) = .ok (overwrite wire n opened.1) :=
    if_pos hfit
  have hdecrypt : aeadDecrypt c wire (fieldsOf wire n) m =
      .ok (overwrite wire n opened.1, m - 16, opened.2) := by
    rw [aeadDecrypt, fieldsOf]
    dsimp only
    rw [minus_of_le (by omega), ok_bind, readSlice_of_le (by omega) (by omega), ok_bind,
      readSlice_of_le (by omega) (by omega), ok_bind,
      readSlice_of_le (by omega) (by omega), ok_bind, slice_zero, ← wireNonce, hwrite, ok_bind]
  rw [hend, ok_bind, hdecrypt, if_neg (not_not_intro htype), hm, Option.bind_some,
    if_neg (by omega)]
  dsimp only
  cases hverify : opened.2 with
  | false => exact unwraps_none_audio rfl
  | true =>
    refine ⟨fun d hd => ?_, fun hd => (by cases hd)⟩
    obtain rfl := Option.some.inj hd
    refine ⟨opened.1.length, le_rfl, ?_, hfit, rfl, .inl rfl⟩
    have hstop : n + opened.1.length = m - 16 := by omega
    rw [hstop]
    rfl

theorem srtpVerified_spec (hl : 10 ≤ wire.length) :
    srtpVerified c wire = .ok ((c.mac (wire.take (wire.length - 10))).take 10 ==
      wire.drop (wire.length - 10)) := by
  rw [srtpVerified, minus_of_le hl, ok_bind, readSlice_of_le (by omega) (by omega), ok_bind,
    readSlice_of_le (by omega) (by rw [c.mac_length]; omega), ok_bind,
    readSlice_of_le (by omega) le_rfl, ok_bind, slice_zero, slice_zero]
  rw [slice, List.take_length]

/-- Decoding in an expected mode is `decode` in that mode. -/
theorem unwrapLegacyInPlace_spec (wire : Bytes) (video : Bool) :
    Unwraps wire video (decode c video wire) (unwrapLegacyInPlace c wire (some video)) := by
  rw [unwrapLegacyInPlace, decode]
  obtain ⟨n, hn, htype, hfields⟩ | ⟨hnone, e, he⟩ := rtpFields_spec wire
  swap
  · rw [he]
    cases hn : headerLen? wire with
    | none => exact unwraps_none rfl fun _ => rfl
    | some n =>
      rw [hnone n hn]
      exact unwraps_none rfl fun _ => rfl
  obtain ⟨hlen13, hn12, hnlen⟩ := headerLen?_bounds hn
  rw [hfields, hn, Option.bind_some, if_pos htype]
  dsimp only
  cases video with
  | false =>
    exact unwrapAead_spec c hn12 hnlen
  | true =>
    rw [decodeVideo]
    by_cases hlen : n + 10 ≤ wire.length
    swap
    · have hshort : ¬ (some true ≠ some false ∧ n + 10 ≤ wire.length) := fun h => hlen h.2
      rw [if_neg hshort, if_pos rfl, if_pos (Nat.lt_of_not_le hlen)]
      exact unwraps_none rfl fun _ => rfl
    have hlong : some true ≠ some false ∧ n + 10 ≤ wire.length := ⟨by simp, hlen⟩
    rw [if_pos hlong, if_neg (Nat.not_lt_of_le hlen), srtpVerified_spec c (by omega)]
    by_cases htag : (c.mac (wire.take (wire.length - 10))).take 10 = wire.drop (wire.length - 10)
    · rw [if_neg (not_not_intro htag), beq_iff_eq.mpr htag]
      exact unwrapSrtp_spec c hn12 hlen
    · rw [if_pos htag, beq_eq_false_iff_ne.mpr htag]
      exact unwraps_none rfl fun _ => rfl

/-- A decoded payload is read whole, or in video mode up to the end of the DTLS records it starts
with. -/
theorem unwrapped_of_decode {c : Cipher} {isSrtp : Bool} {decoded : Decoded}
    (h : decode c isSrtp wire = some decoded) :
    ∃ buffer packet n, unwrapLegacyInPlace c wire (some isSrtp) = (buffer, .ok packet) ∧
      packet.seq = decoded.seq ∧ slice buffer packet.start packet.stop = decoded.payload.take n ∧
      (n = decoded.payload.length ∨
        isSrtp = true ∧ 0 < n ∧ isDtlsKind (decoded.payload.getD 0 0) = true) := by
  obtain ⟨n, hn, hok, hf, hb, hc⟩ :=
    (unwrapLegacyInPlace_spec c wire isSrtp).accepts decoded h
  have hslice : slice (overwrite wire decoded.start decoded.payload) decoded.start
      (decoded.start + n) = decoded.payload.take n := by
    have hs := slice_overwrite_self hf
    rw [← hs, ← slice_zero (slice _ _ _), slice_slice _ (by omega), hs, Nat.add_zero]
  refine ⟨_, _, n, Prod.ext hb hok, rfl, hslice, ?_⟩
  obtain hw | ⟨hsrtp, hp, hr⟩ := hc
  · exact .inl hw
  · have hne : decoded.payload.take n ≠ [] := by
      rw [← List.length_pos_iff, List.length_take]
      omega
    have hfirst : (decoded.payload.take n).getD 0 0 = decoded.payload.getD 0 0 := by
      rw [List.getD_eq_getElem?_getD, List.getD_eq_getElem?_getD, List.getElem?_take_of_lt hp]
    have hk := hr.kind hne
    rw [hfirst] at hk
    exact .inr ⟨hsrtp, hp, hk⟩

/-- The payload type of a decoded packet is one of the three, and that of audio in audio mode. -/
theorem unwrapLegacyInPlace_payloadType {c : Cipher} {expected : Option Bool}
    {d : DecodedPacket} (h : (unwrapLegacyInPlace c wire expected).2 = .ok d) :
    supportedPayloadType d.payloadType = true ∧ (d.isSrtp = false → d.payloadType = 111) := by
  obtain ⟨n, hn, htype, hfields⟩ | ⟨-, e, he⟩ := rtpFields_spec wire
  swap
  · rw [unwrapLegacyInPlace, he] at h
    cases h
  have hbound := headerLen?_bounds hn
  have haudio : ∀ d, (unwrapAead c wire (fieldsOf wire n)).2 = .ok d →
      supportedPayloadType d.payloadType = true ∧ (d.isSrtp = false → d.payloadType = 111) := by
    intro d hd
    obtain ⟨hsome, hd, -⟩ := (unwrapAead_spec c hbound.2.1 hbound.2.2).of_ok hd
    rw [hd]
    refine ⟨htype, fun _ => ?_⟩
    by_contra hother
    rw [decodeAudio, if_pos hother] at hsome
    cases hsome
  rw [unwrapLegacyInPlace, hfields] at h
  dsimp only at h
  by_cases hlong : expected ≠ some false ∧ n + 10 ≤ wire.length
  · rw [if_pos hlong] at h
    split at h
    · cases h
    · obtain ⟨-, hd, hsrtp⟩ := (unwrapSrtp_spec c hbound.2.1 hlong.2).of_ok h
      rw [hd, hsrtp]
      exact ⟨htype, fun hfalse => by cases hfalse⟩
    · split_ifs at h
      · cases h
      · exact haudio d h
  · split_ifs at h
    · cases h
    · exact haudio d h

end ServerWire
end Csqtt
