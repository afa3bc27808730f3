import Csqtt.DownlinkQueue

/-!
# Extension headers of IPv6

The duplication classifier and the striping classifier each walk the chain of extension
headers in a loop of their own. A range that does not fit ends the walk without a result;
a byte that is read outside of its slice would be a fault.
-/

namespace Csqtt

open Buffer

structure Transport where
  protocol : UInt8
  bytes : Bytes

/-- The loop of the duplication classifier: the protocol and the offset it ends with. -/
def fecHeaders (packet : Bytes) : ℕ → UInt8 → ℕ → HeaderWalk (UInt8 × ℕ)
  | 0, protocol, offset => .ok (protocol, offset)
  | n + 1, protocol, offset =>
    if protocol ∈ [0, 43, 60] then do
      let header ← getRange packet offset 2
      let protocol ← readByte header 0
      let offset := offset + ((← readByte header 1).toNat + 1) * 8
      if packet.length < offset then noTransport else fecHeaders packet n protocol offset
    else if protocol = 44 then do
      let header ← getRange packet offset 8
      let fragment := (← readByte header 2).toNat * 256 + (← readByte header 3).toNat
      if fragment &&& 0xfff8 ≠ 0 then noTransport
      else
        let protocol ← readByte header 0
        let offset := offset + 8
        if packet.length < offset then noTransport else fecHeaders packet n protocol offset
    else if protocol = 51 then do
      let header ← getRange packet offset 2
      let protocol ← readByte header 0
      let offset := offset + ((← readByte header 1).toNat + 2) * 4
      if packet.length < offset then noTransport else fecHeaders packet n protocol offset
    else .ok (protocol, offset)

/-- `ipv6_transport` of the duplication classifier. -/
def fecTransport (packet : Bytes) : HeaderWalk Transport :=
  if packet.length < 40 then noTransport
  else do
    if (← readByte packet 0) >>> 4 ≠ 6 then noTransport
    else
      let (protocol, offset) ← fecHeaders packet 8 (← readByte packet 6) 40
      if offset ≤ packet.length then .ok ⟨protocol, packet.drop offset⟩ else noTransport

variable {packet : Bytes}

/-- A range that fits has as many bytes as it says. -/
theorem getRange_cases (packet : Bytes) (offset count : ℕ) :
    (packet.length < offset + count ∧ getRange packet offset count = noTransport) ∨
      offset + count ≤ packet.length ∧ ∃ header, getRange packet offset count = .ok header ∧
        ∀ i < count, readByte header i = (.ok (packet.getD (offset + i) 0) : HeaderWalk UInt8) := by
  by_cases hf : offset + count ≤ packet.length
  · refine .inr ⟨hf, _, if_pos hf, fun i hi => ?_⟩
    rw [readByte_of_lt (by rw [length_slice hf]; omega), getD_slice _ (by omega)]
  · exact .inl ⟨by omega, if_neg hf⟩

/-- The walks end without a result, or with one protocol within the packet. -/
def Agree (packet : Bytes) (fec : HeaderWalk (UInt8 × ℕ)) (striped : HeaderWalk UInt8) : Prop :=
  (fec = noTransport ∧ striped = noTransport) ∨
    ∃ protocol offset, fec = .ok (protocol, offset) ∧ striped = .ok protocol ∧
      offset ≤ packet.length

theorem agree_none : Agree packet noTransport noTransport := .inl ⟨rfl, rfl⟩

theorem agree_headers (packet : Bytes) (n : ℕ) (protocol : UInt8) {offset : ℕ}
    (ho : offset ≤ packet.length) :
    Agree packet (fecHeaders packet n protocol offset)
      (stripedHeaders packet n protocol offset) := by
  induction n generalizing protocol offset with
  | zero => exact .inr ⟨protocol, offset, rfl, rfl, ho⟩
  | succ n ih =>
      rw [fecHeaders, stripedHeaders]
      split_ifs
      · rcases getRange_cases packet offset 2 with ⟨-, hno⟩ | ⟨hf, header, hs, hb⟩
        · rw [hno]
          exact agree_none
        · simp only [hs, ok_bind, hb 0 (by decide), hb 1 (by decide)]
          split_ifs with hl
          · exact agree_none
          · exact ih _ (Nat.le_of_not_lt hl)
      · rcases getRange_cases packet offset 8 with ⟨-, hno⟩ | ⟨hf, header, hs, hb⟩
        · rw [hno]
          exact agree_none
        · simp only [hs, ok_bind, hb 0 (by decide), hb 2 (by decide), hb 3 (by decide)]
          split_ifs with hfrag hl
          · exact agree_none
          · exact agree_none
          · exact ih _ (Nat.le_of_not_lt hl)
      · rcases getRange_cases packet offset 2 with ⟨-, hno⟩ | ⟨hf, header, hs, hb⟩
        · rw [hno]
          exact agree_none
        · simp only [hs, ok_bind, hb 0 (by decide), hb 1 (by decide)]
          split_ifs with hl
          · exact agree_none
          · exact ih _ (Nat.le_of_not_lt hl)
      · exact .inr ⟨protocol, offset, rfl, rfl, ho⟩

/-- For every IPv6 packet with a whole fixed header the two classifiers find the same
transport or none, and neither leaves the packet. -/
theorem transports_agree (packet : Bytes) (hl : 40 ≤ packet.length)
    (hv : packet.getD 0 0 >>> 4 = 6) :
    (fecTransport packet = noTransport ∧ stripedTransport packet = noTransport ∧
        internetTransport packet = none) ∨
      ∃ t, fecTransport packet = .ok t ∧ stripedTransport packet = .ok t.protocol ∧
        internetTransport packet = some t.protocol := by
  have hfirst : packet.head? = some (packet.getD 0 0) := by
    rw [List.head?_eq_getElem?, List.getElem?_eq_getElem (by omega),
      List.getD_eq_getElem _ _ (by omega)]
  have hin : internetTransport packet = (stripedTransport packet).toOption := by
    rw [internetTransport, hfirst]
    dsimp only
    rw [hv, if_neg (by decide), if_pos ⟨rfl, hl⟩]
  rw [hin, fecTransport, if_neg (by omega), readByte_of_lt (by omega), readByte_of_lt (by omega),
    ok_bind, if_neg (not_not.mpr hv), ok_bind, stripedTransport, readByte_of_lt (by omega), ok_bind]
  rcases agree_headers packet 8 (packet.getD 6 0) hl with ⟨hf, hs⟩ | ⟨protocol, offset, hf, hs, hle⟩
  · rw [hf, hs]
    exact .inl ⟨rfl, rfl, rfl⟩
  · rw [hf, hs, ok_bind]
    exact .inr ⟨_, if_pos hle, rfl, rfl⟩

/-- A TCP segment without payload. -/
def tcpPacket : Bytes := 0x60 :: List.replicate 5 0 ++ 6 :: List.replicate 33 0

theorem transports_agree_tcp : ∃ t, fecTransport tcpPacket = .ok t ∧
    stripedTransport tcpPacket = .ok t.protocol ∧ internetTransport tcpPacket = some 6 := by
  rcases transports_agree tcpPacket (by decide) (by decide) with ⟨hn, -⟩ | ⟨t, hf, hs, -⟩
  · cases hn
  · exact ⟨t, hf, hs, by decide⟩

end Csqtt
