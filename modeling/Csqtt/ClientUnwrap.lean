import Csqtt.ClientObfs

/-!
# What the client decodes

`unwrap` gives what `decode` gives on the bytes of the packet, and refuses what `decode` refuses.
It never reads outside the packet, and in video mode a refused packet is left as it was.
-/

namespace Csqtt

open Buffer

namespace PacketBuf

theorem rtpFields_spec (wire : Bytes) :
    (∃ n, headerLen? wire = some n ∧ supportedPayloadType (payloadType wire) = true ∧
      rtpFields wire = .ok ⟨n, payloadType wire, wireSeq wire, wireTimestamp wire, wireSsrc wire⟩) ∨
      ((∀ n, headerLen? wire = some n → supportedPayloadType (payloadType wire) = false) ∧
        ∃ e, rtpFields wire = refuse e) := by
  by_cases hshort : wire.length < 13
  · refine .inr ⟨fun n hn => ?_, .notRtp, if_pos hshort⟩
    have := headerLen?_bounds hn
    omega
  have hfields : rtpFields wire =
      if wire.getD 0 0 >>> 6 ≠ 2 then refuse .notRtp
      else if supportedPayloadType (payloadType wire) = true then
        extensionLen wire (wire.getD 0 0) >>= fun headerLen =>
          if wire.length < headerLen then refuse .shortHeader
          else .ok ⟨headerLen, payloadType wire, wireSeq wire, wireTimestamp wire, wireSsrc wire⟩
      else refuse (.unsupportedPayloadType (payloadType wire)) := by
    rw [rtpFields, if_neg hshort, readByte_of_lt (by omega), readByte_of_lt (by omega),
      readSlice_of_le (by omega) (by omega),
      readSlice_of_le (by omega) (by omega), readSlice_of_le (by omega) (by omega)]
    rfl
  by_cases hversion : wire.getD 0 0 >>> 6 ≠ 2
  · refine .inr ⟨fun n hn => ?_, .notRtp, by rw [hfields, if_pos hversion]⟩
    rw [headerLen?, if_pos (.inr hversion)] at hn
    cases hn
  by_cases htype : supportedPayloadType (payloadType wire) = true
  swap
  · exact .inr ⟨fun _ _ => by simpa using htype, _,
      by rw [hfields, if_neg hversion, if_neg htype]⟩
  rw [if_neg hversion, if_pos htype] at hfields
  have hval : ¬ (wire.length < 13 ∨ wire.getD 0 0 >>> 6 ≠ 2) := by
    rw [not_or]
    exact ⟨hshort, hversion⟩
  rw [headerLen?, if_neg hval, hfields, extensionLen]
  by_cases hext : wire.getD 0 0 &&& 0x10 = 0
  · rw [if_pos hext, if_neg (not_not_intro hext), ok_bind, if_neg (by omega)]
    exact .inl ⟨12, rfl, htype, rfl⟩
  rw [if_neg hext, if_pos hext]
  by_cases hlong : wire.length < 16
  · rw [if_pos hlong, if_pos hlong]
    exact .inr ⟨fun n hn => (by cases hn), _, rfl⟩
  rw [if_neg hlong, if_neg hlong, readSlice_of_le (by omega) (by omega), ok_bind, ok_bind]
  by_cases hfit : wire.length < 12 + (4 + BigEndian.value (slice wire 14 16) * 4)
  · rw [if_pos hfit, if_pos hfit]
    exact .inr ⟨fun n hn => (by cases hn), _, rfl⟩
  · rw [if_neg hfit, if_neg hfit]
    exact .inl ⟨_, rfl, htype, rfl⟩

variable (p : PacketBuf)

theorem getD_asSlice {k : ℕ} (hk : p.start + k < p.stop) :
    p.asSlice.getD k 0 = p.storage.getD (p.start + k) 0 := getD_slice _ hk

theorem withoutPadding_spec (headerLen stop : ℕ) (invalid : UInt8 → ObfsError) (hl : 0 < p.len)
    (hh : headerLen ≤ stop) (hp : 0 < stop) (hs : stop ≤ p.len) :
    (∃ n, unpadded p.asSlice headerLen stop = some n ∧
      p.withoutPadding headerLen (p.start + stop) invalid = .ok (p.start + n)) ∨
      (unpadded p.asSlice headerLen stop = none ∧
        ∃ e, p.withoutPadding headerLen (p.start + stop) invalid = refuse e) := by
  have hc := p.capacity
  have hbound := p.bounded
  unfold len at hl hs
  have hfirst : p.asSlice.getD 0 0 = p.storage.getD p.start 0 := p.getD_asSlice (by omega)
  have hlast : p.asSlice.getD (stop - 1) 0 = p.storage.getD (p.start + stop - 1) 0 := by
    rw [p.getD_asSlice (by omega), Nat.add_sub_assoc hp]
  rw [withoutPadding, unpadded, readByte_of_lt (by omega), ok_bind, hfirst, hlast]
  by_cases hf : p.storage.getD p.start 0 &&& 0x20 = 0
  · rw [if_pos hf, if_neg (not_not_intro hf)]
    exact .inl ⟨stop, rfl, rfl⟩
  rw [if_neg hf, if_pos hf, minus_of_le (by omega), ok_bind, readByte_of_lt (by omega),
    ok_bind, minus_of_le (by omega), ok_bind, minus_of_le (by omega), ok_bind,
    Nat.add_sub_cancel_left]
  have hz : p.storage.getD (p.start + stop - 1) 0 = 0 ↔
      (p.storage.getD (p.start + stop - 1) 0).toNat = 0 := UInt8.toNat_inj.symm
  by_cases hb : (p.storage.getD (p.start + stop - 1) 0).toNat = 0 ∨
      stop - headerLen < (p.storage.getD (p.start + stop - 1) 0).toNat
  · rw [if_pos hb, if_pos (by rw [hz]; exact hb)]
    exact .inr ⟨rfl, _, rfl⟩
  · rw [if_neg hb, if_neg (by rw [hz]; exact hb), minus_of_le (by omega)]
    exact .inl ⟨_, rfl, congrArg Except.ok (Nat.add_sub_assoc (by omega) _)⟩

theorem slice_asSlice {i j : ℕ} (hj : j ≤ p.len) :
    slice p.asSlice i j = slice p.storage (p.start + i) (p.start + j) := by
  unfold len at hj
  have := p.ordered
  exact slice_slice _ (by omega)

theorem take_asSlice {k : ℕ} (hk : k ≤ p.len) :
    p.asSlice.take k = slice p.storage p.start (p.start + k) := p.slice_asSlice (i := 0) hk

theorem drop_asSlice (k : ℕ) : p.asSlice.drop k = slice p.storage (p.start + k) p.stop := by
  rw [asSlice, slice, List.drop_drop, slice]

theorem write_setRange {i j : ℕ} {bytes : Bytes} (hij : i ≤ j) (hj : j ≤ p.len)
    (hl : bytes.length = j - i) : ∃ q r, p.write (p.start + i) bytes = .ok q ∧
      q.setRange (p.start + i) (p.start + j) = .ok r ∧ r.start = p.start + i ∧
      r.stop = p.start + j ∧ r.asSlice = bytes := by
  have hc := p.capacity
  have ho := p.ordered
  have hb := p.bounded
  unfold len at hj
  have hf : p.start + i + bytes.length ≤ p.storage.length := by omega
  refine ⟨_, _, dif_pos hf, dif_pos ⟨by omega, by omega⟩, rfl, rfl, ?_⟩
  have hs := slice_overwrite_self hf
  have he : p.start + i + bytes.length = p.start + j := by omega
  rw [he] at hs
  exact hs

/-- What `unwrap` does to a packet that decodes to `d`, or to none. -/
structure Unwraps (p : PacketBuf) (mode : ObfsMode) (decoded : Option Decoded)
    (result : PacketBuf × ObfsResult UInt16) : Prop where
  accepts : ∀ d, decoded = some d → result.2 = .ok d.seq ∧
    result.1.start = p.start + d.start ∧ result.1.stop = result.1.start + d.payload.length ∧
    result.1.stop ≤ p.stop ∧ result.1.asSlice = d.payload
  refuses : decoded = none → (∃ e, result.2 = refuse e) ∧ (mode = .video → result.1 = p)

theorem unwraps_none {p : PacketBuf} {mode : ObfsMode} {result : PacketBuf × ObfsResult UInt16}
    {e : ObfsError} (he : result.2 = refuse e) (hp : mode = .video → result.1 = p) :
    Unwraps p mode none result :=
  ⟨fun d hd => (by cases hd), fun _ => ⟨⟨e, he⟩, hp⟩⟩

theorem unwraps_none_audio {p : PacketBuf} {result : PacketBuf × ObfsResult UInt16} {e : ObfsError}
    (he : result.2 = refuse e) : Unwraps p .audio none result :=
  unwraps_none he fun h => by cases h

theorem unwraps_some {p r : PacketBuf} {mode : ObfsMode} {d : Decoded}
    (hs : r.start = p.start + d.start) (hstop : r.stop = r.start + d.payload.length)
    (hin : r.stop ≤ p.stop) (hslice : r.asSlice = d.payload) :
    Unwraps p mode (some d) (r, .ok d.seq) := by
  refine ⟨fun d' hd => ?_, fun hd => (by cases hd)⟩
  obtain rfl := Option.some.inj hd
  exact ⟨rfl, hs, hstop, hin, hslice⟩

variable (c : Cipher)

theorem unwrap_video (p : PacketBuf) {n : ℕ} (hn : headerLen? p.asSlice = some n) {t : UInt8} :
    Unwraps p .video (decodeVideo c p.asSlice n)
      (match p.videoEnd c ⟨n, t, wireSeq p.asSlice, wireTimestamp p.asSlice, wireSsrc p.asSlice⟩ >>=
          p.decryptVideo c
            ⟨n, t, wireSeq p.asSlice, wireTimestamp p.asSlice, wireSsrc p.asSlice⟩ with
        | .error e => (p, .error e)
        | .ok q => (q, .ok (wireSeq p.asSlice))) := by
  obtain ⟨hlen13, hn12, hnlen⟩ := headerLen?_bounds hn
  have hcap := p.capacity
  have hbound := p.bounded
  rw [decodeVideo, p.length_asSlice, videoEnd]
  by_cases hshort : p.len < n + 10
  · rw [if_pos hshort, if_pos hshort]
    exact unwraps_none rfl fun _ => rfl
  rw [if_neg hshort, if_neg hshort]
  have hlen := p.length_asSlice
  have hstop : p.stop - 10 = p.start + (p.len - 10) := by unfold len at *; omega
  rw [minus_of_le (by omega), ok_bind, hstop,
    readSlice_of_le (by omega) (by omega), ok_bind, readSlice_of_le (by omega) (by omega), ok_bind,
    ← p.take_asSlice (by omega), ← p.drop_asSlice]
  have htaglen : (p.asSlice.drop (p.len - 10)).length = 10 := by
    rw [List.length_drop]
    omega
  have hexp : slice (c.mac (p.asSlice.take (p.len - 10))) 0 10 =
      (c.mac (p.asSlice.take (p.len - 10))).take 10 := rfl
  rw [htaglen, readSlice_of_le (by omega) (by rw [c.mac_length]; omega), ok_bind, hexp]
  by_cases htag : (c.mac (p.asSlice.take (p.len - 10))).take 10 ≠ p.asSlice.drop (p.len - 10)
  · rw [if_pos htag, if_pos htag]
    exact unwraps_none rfl fun _ => rfl
  rw [if_neg htag, if_neg htag]
  obtain ⟨m, hm, hend⟩ | ⟨hnone, e, he⟩ := p.withoutPadding_spec n (p.len - 10)
    .srtpPadding (by omega) (by omega) (by omega) (by omega)
  swap
  · rw [hnone, he]
    exact unwraps_none rfl fun _ => rfl
  obtain ⟨hnm, hmstop⟩ := unpadded_bounds (by omega) hm
  have hbody : (c.ctr (wireIv p.asSlice) (slice p.asSlice n m)).length = m - n := by
    rw [c.ctr_length, length_slice (by omega)]
  obtain ⟨q, r, hq, hr, hrstart, hrstop, hrslice⟩ := p.write_setRange hnm (by omega) hbody
  have hdecrypt : p.decryptVideo c
      ⟨n, t, wireSeq p.asSlice, wireTimestamp p.asSlice, wireSsrc p.asSlice⟩ (p.start + m) =
      .ok r := by
    rw [decryptVideo]
    dsimp only
    rw [readSlice_of_le (by omega) (by omega), ok_bind, ← p.slice_asSlice (by omega),
      ← wireIv, hq, ok_bind, hr]
  rw [hend, ok_bind, hdecrypt, hm]
  exact unwraps_some hrstart (by dsimp only; omega) (by omega) hrslice

theorem unwrap_audio (p : PacketBuf) {n : ℕ} (hn : headerLen? p.asSlice = some n) :
    Unwraps p .audio (decodeAudio c p.asSlice n)
      (match p.audioEnd ⟨n, payloadType p.asSlice, wireSeq p.asSlice, wireTimestamp p.asSlice,
            wireSsrc p.asSlice⟩ >>=
          p.decryptAudio c ⟨n, payloadType p.asSlice, wireSeq p.asSlice, wireTimestamp p.asSlice,
            wireSsrc p.asSlice⟩ with
        | .error e => (p, .error e)
        | .ok (q, false) => (q, refuse .authentication)
        | .ok (q, true) => (q, .ok (wireSeq p.asSlice))) := by
  obtain ⟨hlen13, hn12, hnlen⟩ := headerLen?_bounds hn
  have hcap := p.capacity
  have hbound := p.bounded
  have hlen := p.length_asSlice
  rw [hlen] at hlen13 hnlen
  have hstop : p.stop = p.start + p.len := by unfold len at *; omega
  rw [decodeAudio, audioEnd]
  dsimp only
  by_cases htype : payloadType p.asSlice ≠ 111
  · rw [if_pos htype, if_pos htype]
    exact unwraps_none_audio rfl
  rw [if_neg htype, if_neg htype, hstop, hlen]
  obtain ⟨m, hm, hend⟩ | ⟨hnone, e, he⟩ := p.withoutPadding_spec n p.len .padding
    (by omega) (by omega) (by omega) le_rfl
  swap
  · rw [hnone, he]
    exact unwraps_none_audio rfl
  obtain ⟨hnm, hmstop⟩ := unpadded_bounds hnlen hm
  rw [hend, ok_bind, hm, Option.bind_some]
  by_cases hempty : m ≤ n + 16
  · rw [if_pos hempty, if_pos (by omega)]
    exact unwraps_none_audio rfl
  have hfull : ¬ p.start + m ≤ p.start + n + 16 := by omega
  have htagstart : p.start + m - 16 = p.start + (m - 16) := Nat.add_sub_assoc (by omega) _
  set opened := c.openInPlace (wireNonce p.asSlice) (p.asSlice.take n)
    (slice p.asSlice (m - 16) m) (slice p.asSlice n (m - 16))
  have hbody : opened.1.length = m - 16 - n := by
    rw [c.open_length, length_slice (by omega)]
  obtain ⟨q, r, hq, hr, hrstart, hrstop, hrslice⟩ :=
    p.write_setRange (j := m - 16) (by omega : n ≤ m - 16) (by omega) hbody
  have hdecrypt : p.decryptAudio c ⟨n, payloadType p.asSlice, wireSeq p.asSlice,
      wireTimestamp p.asSlice, wireSsrc p.asSlice⟩ (p.start + m) =
      if opened.2 then .ok (r, true) else .ok (q, false) := by
    rw [decryptAudio]
    dsimp only
    rw [minus_of_le (by omega), ok_bind, htagstart, readSlice_of_le (by omega) (by omega), ok_bind,
      readSlice_of_le (by omega) (by omega), ok_bind,
      readSlice_of_le (by omega) (by omega), ok_bind,
      ← p.slice_asSlice (by omega), ← p.slice_asSlice (by omega), ← p.take_asSlice (by omega),
      ← wireNonce, hq, ok_bind, hr, ok_bind]
  rw [if_neg hempty, if_neg hfull, ok_bind, hdecrypt]
  cases opened.2 with
  | false => exact unwraps_none_audio rfl
  | true => exact unwraps_some hrstart (by dsimp only; omega) (by omega) hrslice

/-- `unwrap` is `decode` on the bytes of the packet. -/
theorem unwrap_spec (p : PacketBuf) (mode : ObfsMode) :
    Unwraps p mode (decode c mode.isVideo p.asSlice) (p.unwrap c mode) := by
  rw [unwrap, decode]
  obtain ⟨n, hn, ht, hf⟩ | ⟨hno, e, he⟩ := rtpFields_spec p.asSlice
  · rw [hf, hn, Option.bind_some, if_pos ht]
    cases mode with
    | video => exact unwrap_video c p hn
    | audio => exact unwrap_audio c p hn
  · rw [he]
    cases hn : headerLen? p.asSlice with
    | none => exact unwraps_none rfl fun _ => rfl
    | some n =>
      rw [hno n hn]
      exact unwraps_none rfl fun _ => rfl

end PacketBuf
end Csqtt
