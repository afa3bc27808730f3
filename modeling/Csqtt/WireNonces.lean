import Csqtt.ServerAntiReplay
import Csqtt.WireRoundTrip

/-!
# Nonces

A sender encrypts each packet under its source, sequence number and timestamp. The sequence number
comes round after 65536 packets and the timestamp after `2 ^ 32` ticks of the media clock. As long
as a session has fewer than 65536 packets in a tick and spans fewer than `2 ^ 32` ticks, no two of
its packets agree in both.
-/

namespace Csqtt

open Buffer

def mediaTick (payloadType : UInt8) (elapsed : ℕ) : ℕ :=
  elapsed * rtpClockRate payloadType / 1000000000

variable (payloadType : UInt8)

theorem mediaTick_mono {a b : ℕ} (h : a ≤ b) : mediaTick payloadType a ≤ mediaTick payloadType b :=
  Nat.div_le_div_right (Nat.mul_le_mul_right _ h)

/-- The computation in 64 bits gives the ticks modulo `2 ^ 32`. -/
theorem durationTicks_eq (elapsed : ℕ) :
    durationTicks elapsed (rtpClockRate payloadType) =
      UInt32.ofNat (mediaTick payloadType elapsed) := by
  have hr : rtpClockRate payloadType ≤ 90000 := by
    unfold rtpClockRate
    split_ifs <;> omega
  have hn : elapsed % 1000000000 * rtpClockRate payloadType < 2 ^ 64 := by
    have hlt : elapsed % 1000000000 < 1000000000 := Nat.mod_lt _ (by decide)
    calc elapsed % 1000000000 * rtpClockRate payloadType
        ≤ 1000000000 * 90000 := Nat.mul_le_mul hlt.le hr
      _ < 2 ^ 64 := by decide
  have hs : mediaTick payloadType elapsed =
      elapsed / 1000000000 * rtpClockRate payloadType +
        elapsed % 1000000000 * rtpClockRate payloadType / 1000000000 := by
    have he := Nat.div_add_mod elapsed 1000000000
    rw [mediaTick]
    conv_lhs => rw [← he, Nat.add_mul, Nat.mul_assoc]
    exact Nat.mul_add_div (by decide) _ _
  apply UInt32.toNat_inj.mp
  rw [durationTicks, UInt32.toNat_ofNat', UInt32.toNat_ofNat', hs, Nat.mod_eq_of_lt hn,
    Nat.mod_mod_of_dvd _ (by decide), Nat.add_mod, Nat.mod_mod_of_dvd _ (by decide), ← Nat.add_mod]

def wireNumber (wire : Bytes) : UInt16 × UInt32 := (wireSeq wire, wireTimestamp wire)

theorem rtpNonce_inj {s s' : UInt32} {q q' : UInt16} {t t' : UInt32}
    (h : rtpNonce s q t = rtpNonce s' q' t') : q = q' ∧ t = t' := by
  have hq : slice (rtpNonce s q t) 4 6 = BigEndian.encode 2 q.toNat := rfl
  have hq' : slice (rtpNonce s' q' t') 4 6 = BigEndian.encode 2 q'.toNat := rfl
  have ht : slice (rtpNonce s q t) 8 12 = BigEndian.encode 4 t.toNat := rfl
  have ht' : slice (rtpNonce s' q' t') 8 12 = BigEndian.encode 4 t'.toNat := rfl
  rw [h, hq'] at hq
  rw [h, ht'] at ht
  constructor
  · have hv := congrArg BigEndian.value hq
    rw [BigEndian.value_encode_of_lt q'.toNat_lt, BigEndian.value_encode_of_lt q.toNat_lt] at hv
    exact UInt16.toNat_inj.mp hv.symm
  · have hv := congrArg BigEndian.value ht
    rw [BigEndian.value_encode_of_lt t'.toNat_lt, BigEndian.value_encode_of_lt t.toNat_lt] at hv
    exact UInt32.toNat_inj.mp hv.symm

theorem wireNumber_of_wireNonce {a b : Bytes} (h : wireNonce a = wireNonce b) :
    wireNumber a = wireNumber b := by
  obtain ⟨hs, ht⟩ := rtpNonce_inj h
  rw [wireNumber, wireNumber, hs, ht]

theorem wireNonce_of_wireIv {a b : Bytes} (h : wireIv a = wireIv b) : wireNonce a = wireNonce b :=
  List.append_cancel_right h

theorem exists_encode_eq (c : Cipher) (video : Bool) (h : RtpHeader) (payload padding : Bytes) :
    ∃ rest, encode c video h payload padding = h.bytes ++ rest := by
  cases video with
  | true => exact ⟨_, List.append_assoc _ _ _⟩
  | false => exact ⟨_, rfl⟩

@[simp] theorem wireNumber_encode (c : Cipher) (video : Bool) (h : RtpHeader)
    (payload padding : Bytes) :
    wireNumber (encode c video h payload padding) = (h.seq, h.timestamp) := by
  obtain ⟨rest, hr⟩ := exists_encode_eq c video h payload padding
  rw [hr, wireNumber, wireSeq_header, wireTimestamp_header]

@[simp] theorem wireNonce_encode (c : Cipher) (video : Bool) (h : RtpHeader)
    (payload padding : Bytes) : wireNonce (encode c video h payload padding) = h.nonce := by
  obtain ⟨rest, hr⟩ := exists_encode_eq c video h payload padding
  rw [hr, wireNonce_header]

/-- A call of a sender that takes a sequence number: the tick it is made in and the packet, if the
payload fits. -/
structure SenderCall where
  tick : ℕ
  packet : Option Bytes

def sentPackets (calls : List SenderCall) : List Bytes := calls.filterMap SenderCall.packet

/-- The calls take the sequence numbers from `seq` on, and their packets carry them with the time
of the call. -/
def Numbers (timestamp : UInt32) : UInt16 → List SenderCall → Prop
  | _, [] => True
  | seq, call :: calls =>
    (∀ packet, call.packet = some packet →
      wireNumber packet = (seq, timestamp + UInt32.ofNat call.tick)) ∧
    Numbers timestamp (seq + 1) calls

theorem Numbers.packet {timestamp : UInt32} {seq : UInt16} {calls : List SenderCall}
    (h : Numbers timestamp seq calls) {packet : Bytes} (hp : packet ∈ sentPackets calls) :
    ∃ k call, calls[k]? = some call ∧
      wireNumber packet = (wireSequence seq k, timestamp + UInt32.ofNat call.tick) := by
  induction calls generalizing seq with
  | nil => cases hp
  | cons _ _ ih =>
    obtain ⟨hh, ht⟩ := h
    rw [sentPackets, List.mem_filterMap] at hp
    obtain ⟨other, hm, ho⟩ := hp
    obtain rfl | hm := List.mem_cons.mp hm
    · refine ⟨0, other, rfl, ?_⟩
      rw [hh packet ho, wireSequence]
      simp
    · obtain ⟨k, later, hk, hn⟩ := ih ht (List.mem_filterMap.mpr ⟨other, hm, ho⟩)
      refine ⟨k + 1, later, hk, ?_⟩
      have hs : wireSequence (seq + 1) k = wireSequence seq (k + 1) := by
        apply UInt16.toNat_inj.mp
        rw [toNat_wireSequence, toNat_wireSequence, UInt16.toNat_add]
        have : (1 : UInt16).toNat = 1 := rfl
        omega
      rw [hn, hs]

/-- In a list that never decreases, everything up to an occurrence of its first element is equal
to it. -/
theorem le_count_of_getElem? {ticks : List ℕ} {t k : ℕ} (h : (t :: ticks).Pairwise (· ≤ ·))
    (hk : ticks[k]? = some t) : k + 1 ≤ ticks.count t := by
  induction ticks generalizing k with
  | nil => cases hk
  | cons u rest ih =>
    obtain ⟨hle, hr⟩ := List.pairwise_cons.mp h
    cases k with
    | zero =>
      obtain rfl := Option.some.inj hk
      rw [List.count_cons_self]
      omega
    | succ =>
      have hm : t ∈ rest := List.mem_of_getElem? hk
      have hu : u = t :=
        le_antisymm ((List.pairwise_cons.mp hr).1 t hm) (hle u List.mem_cons_self)
      subst hu
      have hc := ih hr hk
      rw [List.count_cons_self]
      omega

/-- Fewer than `n` calls in any tick. -/
def FewerPerTick (n : ℕ) (calls : List SenderCall) : Prop :=
  ∀ t, (calls.map SenderCall.tick).count t < n

/-- The calls are less than `n` ticks apart. -/
def SpansFewer (n : ℕ) (calls : List SenderCall) : Prop :=
  ∀ a ∈ calls, ∀ b ∈ calls, b.tick < a.tick + n

/-- No two packets are encrypted under the same nonce or the same initialization vector. -/
def NoncesDistinct (calls : List SenderCall) : Prop :=
  ((sentPackets calls).map wireNonce).Nodup ∧ ((sentPackets calls).map wireIv).Nodup

theorem Numbers.distinct {timestamp : UInt32} {seq : UInt16} {calls : List SenderCall}
    (h : Numbers timestamp seq calls) (hclock : (calls.map SenderCall.tick).Pairwise (· ≤ ·))
    (hfew : FewerPerTick 65536 calls) (hspan : SpansFewer (2 ^ 32) calls) :
    (sentPackets calls).Pairwise fun a b => wireNumber a ≠ wireNumber b := by
  induction calls generalizing seq with
  | nil => exact .nil
  | cons call calls ih =>
    have htail := ih h.2 (List.pairwise_cons.mp hclock).2
      (fun t => (List.count_le_count_cons ..).trans_lt (hfew t))
      (fun a ha b hb => hspan a (List.mem_cons_of_mem _ ha) b (List.mem_cons_of_mem _ hb))
    rw [sentPackets, List.filterMap_cons]
    cases hpacket : call.packet with
    | none => exact htail
    | some packet =>
      refine List.pairwise_cons.mpr ⟨fun other hother heq => ?_, htail⟩
      obtain ⟨k, later, hk, hnumber⟩ := h.2.packet hother
      rw [h.1 packet hpacket, hnumber, Prod.mk.injEq] at heq
      have hmem : later ∈ calls := List.mem_of_getElem? hk
      have htick : call.tick = later.tick := by
        have hafter := hspan call List.mem_cons_self later (List.mem_cons_of_mem _ hmem)
        have hbefore := hspan later (List.mem_cons_of_mem _ hmem) call List.mem_cons_self
        have hmod := congrArg UInt32.toNat ((UInt32.add_right_inj _).mp heq.2)
        rw [UInt32.toNat_ofNat', UInt32.toNat_ofNat'] at hmod
        omega
      have hcount := le_count_of_getElem? hclock (k := k)
        (by rw [List.getElem?_map, hk, htick]; rfl)
      have hfew' := hfew call.tick
      rw [List.map_cons, List.count_cons_self] at hfew'
      have hseq := congrArg UInt16.toNat heq.1
      rw [toNat_wireSequence, UInt16.toNat_add] at hseq
      have : (1 : UInt16).toNat = 1 := rfl
      omega

theorem Numbers.noncesDistinct {timestamp : UInt32} {seq : UInt16} {calls : List SenderCall}
    (h : Numbers timestamp seq calls) (hc : (calls.map SenderCall.tick).Pairwise (· ≤ ·))
    (hf : FewerPerTick 65536 calls) (hs : SpansFewer (2 ^ 32) calls) :
    NoncesDistinct calls := by
  have hd := h.distinct hc hf hs
  constructor
  · exact List.pairwise_map.mpr (hd.imp fun hne heq => hne (wireNumber_of_wireNonce heq))
  · exact List.pairwise_map.mpr
      (hd.imp fun hne heq => hne (wireNumber_of_wireNonce (wireNonce_of_wireIv heq)))

/-- One call of the client's `wrap`. -/
structure ObfsSend where
  packet : PacketBuf
  now : ℕ
  draws : Draws

namespace ObfsState

/-- The calls of a session that take a number; a call with an empty packet does not. -/
def calls (c : Cipher) (config : ObfsConfig) : ObfsState → List ObfsSend → List SenderCall
  | _, [] => []
  | s, send :: sends =>
    let result := send.packet.wrap c config s send.now send.draws
    let later := calls c config result.1 sends
    if send.packet.len = 0 then later
    else ⟨mediaTick config.payloadType (send.now - s.started),
      result.2.toOption.map PacketBuf.asSlice⟩ :: later

variable (c : Cipher) (config : ObfsConfig) (s : ObfsState)

theorem wrap_fst (send : ObfsSend) :
    (send.packet.wrap c config s send.now send.draws).1 =
      if send.packet.len = 0 then s else s.next.1 := by
  rw [PacketBuf.wrap]
  by_cases hl : send.packet.len = 0
  · rw [if_pos hl, if_pos hl]
  · split_ifs <;> rfl

theorem wrap_ok {s : ObfsState} {send : ObfsSend} {q : PacketBuf}
    (h : (send.packet.wrap c config s send.now send.draws).2 = .ok q) :
    q.asSlice = encode c config.mode.isVideo
      (clientHeader config s s.count s.transportSequence (send.now - s.started) send.draws)
      send.packet.asSlice (send.draws.fillBytes (config.paddingRandom send.draws)) := by
  by_cases hl : send.packet.len = 0
  · rw [PacketBuf.wrap, if_pos hl] at h
    cases h
  by_cases hf : send.packet.start < 24 ∨
      packetCapacity < send.packet.stop + config.tail send.draws
  · rw [PacketBuf.wrap, if_neg hl] at h
    dsimp only at h
    rw [if_pos hf] at h
    cases h
  · rw [not_or, Nat.not_lt, Nat.not_lt] at hf
    obtain ⟨r, hr, hs⟩ := PacketBuf.wrap_spec c s send.now hl hf.1 hf.2
    rw [h] at hr
    rw [Except.ok.inj hr, hs]

theorem numbers_calls (sends : List ObfsSend) :
    Numbers s.initialTimestamp (s.sequence s.count) (calls c config s sends) := by
  induction sends generalizing s with
  | nil => exact trivial
  | cons send _ ih =>
    have hlater := ih (send.packet.wrap c config s send.now send.draws).1
    rw [wrap_fst] at hlater
    rw [calls, wrap_fst]
    by_cases hl : send.packet.len = 0
    · rw [if_pos hl] at hlater
      rw [if_pos hl, if_pos hl]
      exact hlater
    · rw [if_neg hl] at hlater
      rw [if_neg hl, if_neg hl]
      refine ⟨fun packet hp => ?_, ?_⟩
      · obtain ⟨q, hq, rfl⟩ := Option.map_eq_some_iff.mp hp
        cases hr : (send.packet.wrap c config s send.now send.draws).2 with
        | error =>
          rw [hr] at hq
          cases hq
        | ok =>
          rw [hr] at hq
          obtain rfl := Option.some.inj hq
          rw [wrap_ok c config hr, wireNumber_encode, ← durationTicks_eq]
          rfl
      · have hs : s.next.1.sequence s.next.1.count = s.sequence s.count + 1 := by
          simp [next, sequence, UInt16.add_assoc]
        rw [← hs]
        exact hlater

theorem ticks_sublist (sends : List ObfsSend) :
    ((calls c config s sends).map SenderCall.tick).Sublist
      (sends.map fun send => mediaTick config.payloadType (send.now - s.started)) := by
  induction sends generalizing s with
  | nil => exact .slnil
  | cons send _ ih =>
    have hl := ih (send.packet.wrap c config s send.now send.draws).1
    have hs : (send.packet.wrap c config s send.now send.draws).1.started = s.started := by
      rw [wrap_fst]
      split_ifs <;> rfl
    rw [hs] at hl
    rw [calls]
    split_ifs
    · exact hl.cons _
    · exact hl.cons_cons _

end ObfsState

/-- One call of the server's `wrap_legacy_into`. -/
structure OutSend where
  plain : Bytes
  draws : Draws
  output : ServerWire.OutputBuf
  now : ℕ

namespace ServerWire.OutState

def calls (c : Cipher) (isSrtp : Bool) : OutState → List OutSend → List SenderCall
  | _, [] => []
  | out, send :: sends =>
    let result := wrapLegacyInto c isSrtp out send.plain send.draws send.output send.now
    ⟨mediaTick out.payloadType (send.now - out.started), result.2.toOption.map OutputBuf.asSlice⟩ ::
      calls c isSrtp result.1 sends

variable (c : Cipher) (isSrtp : Bool)

theorem wrap_ok {out : OutState} {send : OutSend} {b : OutputBuf}
    (h : (wrapLegacyInto c isSrtp out send.plain send.draws send.output send.now).2 = .ok b) :
    b.asSlice = encode c isSrtp (serverHeader out send.now send.draws) send.plain
      (send.draws.fillBytes (randomPadding isSrtp out.payloadType send.draws)) := by
  by_cases hf : wireLen isSrtp send.plain (randomPadding isSrtp out.payloadType send.draws) ≤
      serverPacketCapacity
  · obtain ⟨b', hb', hs⟩ := wrapLegacyInto_spec c isSrtp out send.plain send.draws send.output
      send.now hf
    rw [h] at hb'
    rw [Except.ok.inj hb', hs]
  · have hl := send.draws.length_fillBytes (randomPadding isSrtp out.payloadType send.draws)
    rw [wrapLegacyInto] at h
    cases isSrtp with
    | true =>
      rw [if_pos rfl, wrapSrtp,
        if_pos (by rw [hl, send.output.capacity]; exact Nat.lt_of_not_le hf)] at h
      cases h
    | false =>
      rw [if_neg (by simp), wrapAead,
        if_pos (by rw [hl, send.output.capacity]; exact Nat.lt_of_not_le hf)] at h
      cases h

theorem numbers_calls (out : OutState) (sends : List OutSend) :
    Numbers out.initialTs (out.initialSeq + out.count.toUInt16) (calls c isSrtp out sends) := by
  induction sends generalizing out with
  | nil => exact trivial
  | cons send _ ih =>
    refine ⟨fun packet hp => ?_, ?_⟩
    · obtain ⟨b, hb, rfl⟩ := Option.map_eq_some_iff.mp hp
      cases hr :
          (wrapLegacyInto c isSrtp out send.plain send.draws send.output send.now).2 with
      | error e =>
        rw [hr] at hb
        cases hb
      | ok b' =>
        rw [hr] at hb
        obtain rfl := Option.some.inj hb
        rw [wrap_ok c isSrtp hr, wireNumber_encode, ← durationTicks_eq]
        rfl
    · have hl := ih out.next
      have hs : out.next.initialSeq + out.next.count.toUInt16 =
          out.initialSeq + out.count.toUInt16 + 1 := by
        simp [next, UInt16.add_assoc]
      rw [hs] at hl
      exact hl

theorem ticks_eq (out : OutState) (sends : List OutSend) :
    (calls c isSrtp out sends).map SenderCall.tick =
      sends.map fun send => mediaTick out.payloadType (send.now - out.started) := by
  induction sends generalizing out with
  | nil => rfl
  | cons _ _ ih => exact congrArg (_ :: ·) (ih out.next)

end ServerWire.OutState

theorem mediaTick_clock (started : ℕ) {times : List ℕ} (h : times.Pairwise (· ≤ ·)) :
    (times.map fun now => mediaTick payloadType (now - started)).Pairwise (· ≤ ·) :=
  List.pairwise_map.mpr (h.imp fun hle => mediaTick_mono payloadType (Nat.sub_le_sub_right hle _))

/-- A session of fewer than `2 ^ 32` ticks with fewer than 65536 calls in a tick does not encrypt
two packets alike, on either side. -/
theorem session_nonces_distinct (c : Cipher) :
    (∀ (config : ObfsConfig) (s : ObfsState) (sends : List ObfsSend),
      (sends.map ObfsSend.now).Pairwise (· ≤ ·) →
      FewerPerTick 65536 (s.calls c config sends) → SpansFewer (2 ^ 32) (s.calls c config sends) →
      NoncesDistinct (s.calls c config sends)) ∧
    (∀ (isSrtp : Bool) (out : ServerWire.OutState) (sends : List OutSend),
      (sends.map OutSend.now).Pairwise (· ≤ ·) →
      FewerPerTick 65536 (out.calls c isSrtp sends) →
        SpansFewer (2 ^ 32) (out.calls c isSrtp sends) →
      NoncesDistinct (out.calls c isSrtp sends)) := by
  constructor
  · intro config s sends hc hf hs
    have ht := mediaTick_clock config.payloadType s.started hc
    rw [List.map_map] at ht
    exact (s.numbers_calls c config sends).noncesDistinct
      (ht.sublist (s.ticks_sublist c config sends)) hf hs
  · intro isSrtp out sends hc hf hs
    have ht := mediaTick_clock out.payloadType out.started hc
    rw [List.map_map] at ht
    refine (out.numbers_calls c isSrtp sends).noncesDistinct ?_ hf hs
    rw [out.ticks_eq c isSrtp sends]
    exact ht

instance (n : ℕ) (calls : List SenderCall) : Decidable (SpansFewer n calls) :=
  inferInstanceAs (Decidable (∀ a ∈ calls, ∀ b ∈ calls, b.tick < a.tick + n))

theorem fewerPerTick_of_length {n : ℕ} {calls : List SenderCall} (h : calls.length < n) :
    FewerPerTick n calls := fun t => by
  have hc := List.count_le_length (a := t) (l := calls.map SenderCall.tick)
  rw [List.length_map] at hc
  omega

/-- Two packets of the client in one tick and two of the server 20 milliseconds apart. -/
theorem session_nonces_distinct_vectors :
    NoncesDistinct (CrossLanguage.videoState.calls
      (CrossLanguage.primitives.keyed CrossLanguage.key) (.new .video 0x709a0949)
      [⟨CrossLanguage.packet, 0, CrossLanguage.videoDraws⟩,
        ⟨CrossLanguage.packet, 0, CrossLanguage.videoDraws⟩]) ∧
    NoncesDistinct (CrossLanguage.audioState.calls
      (CrossLanguage.primitives.keyed CrossLanguage.key) false
      [⟨CrossLanguage.payload, CrossLanguage.audioDraws, CrossLanguage.output, 0⟩,
        ⟨CrossLanguage.payload, CrossLanguage.audioDraws, CrossLanguage.output, 20000000⟩]) := by
  obtain ⟨hc, hs⟩ :=
    session_nonces_distinct (CrossLanguage.primitives.keyed CrossLanguage.key)
  constructor
  · apply hc
    · decide
    · exact fewerPerTick_of_length (by decide +kernel)
    · decide +kernel
  · apply hs
    · decide
    · exact fewerPerTick_of_length (by decide +kernel)
    · decide +kernel

namespace ObfsState

variable (c : Cipher) (config : ObfsConfig)

def afterCalls (s : ObfsState) (sends : List ObfsSend) : ObfsState :=
  sends.foldl (fun s send => (send.packet.wrap c config s send.now send.draws).1) s

variable (s : ObfsState)

theorem calls_append (sends later : List ObfsSend) :
    s.calls c config (sends ++ later) =
      s.calls c config sends ++ (s.afterCalls c config sends).calls c config later := by
  induction sends generalizing s with
  | nil => rfl
  | cons send _ ih =>
    have hr := ih (send.packet.wrap c config s send.now send.draws).1
    rw [List.cons_append, calls, calls, hr]
    split_ifs <;> rfl

theorem afterCalls_replicate {send : ObfsSend} (hl : send.packet.len ≠ 0) (n : ℕ) :
    s.afterCalls c config (List.replicate n send) =
      { s with
        count := s.count + UInt64.ofNat n
        transportSequence := s.transportSequence + UInt16.ofNat n } := by
  induction n generalizing s with
  | zero => simp [afterCalls]
  | succ n ih =>
    have hs : s.afterCalls c config (List.replicate (n + 1) send) =
        s.next.1.afterCalls c config (List.replicate n send) := by
      rw [List.replicate_succ, afterCalls, List.foldl_cons, wrap_fst, if_neg hl]
      rfl
    rw [hs, ih, next]
    simp [UInt64.ofNat_add, UInt16.ofNat_add, UInt64.add_assoc, UInt16.add_assoc,
      UInt64.add_comm 1, UInt16.add_comm 1]

theorem ticks_of_nonempty {sends : List ObfsSend} (h : ∀ send ∈ sends, send.packet.len ≠ 0) :
    (s.calls c config sends).map SenderCall.tick =
      sends.map fun send => mediaTick config.payloadType (send.now - s.started) := by
  induction sends generalizing s with
  | nil => rfl
  | cons send _ ih =>
    have hl := ih s.next.1 fun other ho => h other (List.mem_cons_of_mem _ ho)
    rw [calls, wrap_fst, if_neg (h send List.mem_cons_self), if_neg (h send List.mem_cons_self),
      List.map_cons, hl]
    rfl

/-- A call whose payload fits gives a packet under the nonce of its number and time. -/
theorem calls_cons_of_fits (send : ObfsSend) (sends : List ObfsSend) (hl : send.packet.len ≠ 0)
    (hs : 24 ≤ send.packet.start)
    (hstop : send.packet.stop + config.tail send.draws ≤ packetCapacity) :
    ∃ packet, s.calls c config (send :: sends) =
        ⟨mediaTick config.payloadType (send.now - s.started), some packet⟩ ::
          s.next.1.calls c config sends ∧
      wireNonce packet = rtpNonce config.ssrc (s.sequence s.count)
        (s.timestamp config.payloadType (send.now - s.started)) := by
  obtain ⟨q, hq, hslice⟩ := PacketBuf.wrap_spec c s send.now hl hs hstop
  refine ⟨q.asSlice, ?_, ?_⟩
  · rw [calls, wrap_fst, if_neg hl, if_neg hl, hq]
    rfl
  · rw [hslice, wireNonce_encode]
    rfl

end ObfsState

/-- An audio session: one packet at the start, `n` in the next tick, and one after `2 ^ 32` ticks,
24 hours and 51 minutes later. -/
def daySession (n : ℕ) : List ObfsSend :=
  ⟨CrossLanguage.packet, 0, CrossLanguage.audioDraws⟩ ::
    (List.replicate n ⟨CrossLanguage.packet, 20834, CrossLanguage.audioDraws⟩ ++
      [⟨CrossLanguage.packet, 89478485333334, CrossLanguage.audioDraws⟩])

theorem daySession_clock (n : ℕ) : ((daySession n).map ObfsSend.now).Pairwise (· ≤ ·) := by
  simp [daySession, List.pairwise_append, List.pairwise_replicate]

section DaySession

variable (c : Cipher) (s : ObfsState) (ssrc : UInt32)

theorem daySession_ticks (hs : s.started = 0) (n : ℕ) :
    (s.calls c (.new .audio ssrc) (daySession n)).map SenderCall.tick =
      0 :: (List.replicate n 1 ++ [2 ^ 32]) := by
  have hn : ∀ send ∈ daySession n, send.packet.len ≠ 0 := by
    intro send hsend
    rw [daySession, List.mem_cons, List.mem_append, List.mem_singleton] at hsend
    obtain rfl | hsend | rfl := hsend
    · decide
    · rw [List.eq_of_mem_replicate hsend]
      decide
    · decide
  have hstart : mediaTick 111 (0 - 0) = 0 := by decide
  have hne : mediaTick 111 (20834 - 0) = 1 := by decide
  have he : mediaTick 111 (89478485333334 - 0) = 2 ^ 32 := by decide
  rw [s.ticks_of_nonempty c _ hn, daySession, List.map_cons, List.map_append,
    List.map_replicate, hs, ← hstart, ← hne, ← he]
  rfl

theorem daySession_fewer (hs : s.started = 0) {n : ℕ} (hn : n + 1 = 65536) :
    FewerPerTick 65536 (s.calls c (.new .audio ssrc) (daySession n)) := by
  intro t
  rw [daySession_ticks c s ssrc hs, List.count_cons, List.count_append, List.count_replicate,
    List.count_singleton]
  by_cases ht : t = 1
  · subst ht
    simp
    omega
  · have hne : ¬ (1 == t) = true := by simpa using fun h => ht h.symm
    split_ifs <;> omega

theorem daySession_repeats (hs : s.started = 0) {n : ℕ} (hn : n + 1 = 65536) :
    ¬ NoncesDistinct (s.calls c (.new .audio ssrc) (daySession n)) := by
  intro ⟨hdist, _⟩
  set config := ObfsConfig.new .audio ssrc
  have hfits : CrossLanguage.packet.stop + config.tail CrossLanguage.audioDraws ≤
      packetCapacity := (by decide : 46 + (20 % 24 + 1 + 16) ≤ 2304)
  set quiet : ObfsSend := ⟨CrossLanguage.packet, 20834, CrossLanguage.audioDraws⟩
  set after := s.next.1.afterCalls c config (List.replicate n quiet) with hafter
  obtain ⟨first, hfirst, hnonce⟩ := s.calls_cons_of_fits c config
    ⟨CrossLanguage.packet, 0, CrossLanguage.audioDraws⟩
    (List.replicate n quiet ++ [⟨CrossLanguage.packet, 89478485333334, CrossLanguage.audioDraws⟩])
    (by decide) (by decide) hfits
  obtain ⟨last, hlast, hnonce'⟩ := after.calls_cons_of_fits c config
    ⟨CrossLanguage.packet, 89478485333334, CrossLanguage.audioDraws⟩ [] (by decide) (by decide)
    hfits
  rw [s.next.1.calls_append c config, hlast] at hfirst
  rw [daySession, hfirst, sentPackets, List.filterMap_cons, List.filterMap_append, List.map_cons,
    List.nodup_cons] at hdist
  refine hdist.1 (List.mem_map.mpr ⟨last, ?_, ?_⟩)
  · exact List.mem_append_right _ List.mem_cons_self
  · rw [s.next.1.afterCalls_replicate c config (by decide) n] at hafter
    have hcount : (s.count + 1 + UInt64.ofNat n).toUInt16 = s.count.toUInt16 := by
      have hround : UInt64.ofNat n = 65535 := by
        rw [Nat.eq_sub_of_add_eq hn]
        rfl
      rw [hround, UInt64.add_assoc, UInt64.toUInt16_add]
      exact UInt16.add_zero _
    have hseq : after.sequence after.count = s.sequence s.count := by
      rw [hafter]
      exact congrArg (s.initialSequence + ·) hcount
    have htime : after.timestamp config.payloadType (89478485333334 - after.started) =
        s.timestamp config.payloadType (0 - s.started) := by
      have hwrap : durationTicks (89478485333334 - 0) (rtpClockRate 111) =
          durationTicks (0 - 0) (rtpClockRate 111) := by decide
      rw [hafter]
      dsimp only [ObfsState.next]
      rw [hs]
      exact congrArg (s.initialTimestamp + ·) hwrap
    rw [hnonce, hnonce', hseq, htime]

end DaySession

/-- The first and the last packet of the session are encrypted under the same nonce. -/
theorem daySession_repeats_nonce :
    ((daySession 65535).map ObfsSend.now).Pairwise (· ≤ ·) ∧
    FewerPerTick 65536 (CrossLanguage.videoState.calls
      (CrossLanguage.primitives.keyed CrossLanguage.key) (.new .audio 0x8b6fe47d)
      (daySession 65535)) ∧
    ¬ NoncesDistinct (CrossLanguage.videoState.calls
      (CrossLanguage.primitives.keyed CrossLanguage.key) (.new .audio 0x8b6fe47d)
      (daySession 65535)) :=
  ⟨daySession_clock 65535, daySession_fewer _ _ _ rfl rfl, daySession_repeats _ _ _ rfl rfl⟩

end Csqtt
