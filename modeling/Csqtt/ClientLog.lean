import Csqtt.ClientTurns

/-!
# The log of carried bytes

In every run, the log `carried` names exactly the DATA frames that were queued and the bytes in
them, as places in what was read from the caller. While a carrier is unproven, the parked copy is a
suffix of what was read.
-/

namespace Csqtt

def dataSent (outbox : List Frame) : List (ℕ × Bytes) :=
  (outbox.filter (fun f => f.kind == kindData)).map (fun f => (f.streamId, f.payload.drop 8))

theorem dataSent_append_other (outbox : List Frame) {frames : List Frame}
    (hf : ∀ f ∈ frames, f.kind ≠ kindData) : dataSent (outbox ++ frames) = dataSent outbox := by
  have hn : frames.filter (fun f => f.kind == kindData) = [] := by
    rw [List.filter_eq_nil_iff]
    intro f hm
    simpa using hf f hm
  rw [dataSent, List.filter_append, hn, List.append_nil]
  rfl

theorem dataSent_append_data (outbox : List Frame) (id o : ℕ) (chunk : Bytes) :
    dataSent (outbox ++ [⟨kindData, id, StreamSequence.encodeAt o chunk⟩]) =
      dataSent outbox ++ [(id, chunk)] := by
  simp [dataSent, StreamSequence.encodeAt]

namespace ClientStream

def slice (s : ClientStream) (c : Carried) : ℕ × Bytes :=
  (c.streamId, (s.callerRead.drop c.start).take c.length)

structure Logged (s : ClientStream) : Prop where
  frames : dataSent s.outbox = s.carried.map s.slice
  bounded : ∀ c ∈ s.carried, c.stop ≤ s.callerRead.length
  parked : s.ending = none → s.proven = false → s.unprovenUp <:+ s.callerRead
  switching : s.switch = true → s.proven = false

variable {s : ClientStream}

theorem slice_heard {c : Carried} (hc : c.stop ≤ s.callerRead.length)
    (bytes : Bytes) : (s.heard bytes).slice c = s.slice c := by
  rw [Carried.stop] at hc
  have hd : (s.callerRead ++ bytes).drop c.start = s.callerRead.drop c.start ++ bytes :=
    List.drop_append_of_le_length (by omega)
  change (c.streamId, ((s.callerRead ++ bytes).drop c.start).take c.length) = s.slice c
  rw [hd, List.take_append_of_le_length (by rw [List.length_drop]; omega)]
  rfl

theorem Logged.heard (h : s.Logged) (bytes : Bytes) :
    dataSent s.outbox = s.carried.map (s.heard bytes).slice ∧
      ∀ c ∈ s.carried, c.stop ≤ (s.heard bytes).callerRead.length := by
  refine ⟨?_, fun c hc => ?_⟩
  · rw [h.frames]
    exact List.map_congr_left (fun c hc => (slice_heard (h.bounded c hc) bytes).symm)
  · have := h.bounded c hc
    simp only [ClientStream.heard, List.length_append]
    omega

theorem carry_logged (hf : dataSent s.outbox = s.carried.map s.slice)
    (hb : ∀ c ∈ s.carried, c.stop ≤ s.callerRead.length) (start : ℕ) (chunk rest : Bytes)
    (hchunk : s.callerRead.drop start = chunk ++ rest)
    (hs : start + chunk.length ≤ s.callerRead.length) : dataSent (s.carry start chunk).outbox =
        (s.carry start chunk).carried.map (s.carry start chunk).slice ∧
      ∀ c ∈ (s.carry start chunk).carried, c.stop ≤ s.callerRead.length := by
  refine ⟨?_, fun c hc => ?_⟩
  · change dataSent (s.outbox ++ [_]) = (s.carried ++ [_]).map s.slice
    rw [dataSent_append_data, hf]
    simp [slice, hchunk]
  · rw [carry, List.mem_append, List.mem_singleton] at hc
    obtain hc | rfl := hc
    · exact hb c hc
    · exact hs

section

variable (h : s.Logged)
include h

theorem Logged.pollHole (now : ℕ) (resendQueued : Bool) : (s.pollHole now resendQueued).Logged := by
  obtain ⟨_, _, _, frames, he, hf⟩ := s.pollHole_cases now resendQueued
  rw [he]
  refine ⟨?_, h.bounded, h.parked, h.switching⟩
  rw [dataSent_append_other _ (fun f hm => by rw [(hf f hm).1]; exact kindResend_ne_kindData)]
  exact h.frames

section

variable (hs : s.ending = none)
include hs

theorem Logged.onRead (available : Bytes) (queued : Bool) : (s.onRead available queued).Logged := by
  obtain he | ⟨bytes, _, hcases⟩ := s.onRead_cases hs available queued
  · rw [he]
    exact ⟨h.frames, h.bounded, fun hn => (by cases hn), h.switching⟩
  · have hh := h.heard bytes
    have hc := carry_logged (s := s.heard bytes) hh.1 hh.2 s.callerRead.length bytes []
      (by simp [ClientStream.heard]) (by simp [ClientStream.heard])
    obtain ⟨sent, e, he⟩ | ⟨hp, he⟩ | ⟨hp, ending, _, he⟩ := hcases <;> rw [he]
    · exact ⟨hh.1, hh.2, fun hn => (by cases hn), h.switching⟩
    · refine ⟨hc.1, hc.2, fun _ hp' => ?_, h.switching⟩
      change s.proven = false at hp'
      rw [hp] at hp'
      cases hp'
    · refine ⟨hc.1, hc.2, fun _ _ => ?_, h.switching⟩
      obtain ⟨before, hb⟩ := h.parked hs hp
      refine ⟨before, ?_⟩
      change before ++ (s.unprovenUp ++ bytes) = s.callerRead ++ bytes
      rw [← List.append_assoc, hb]

theorem Logged.onInbound (hsw : s.switch = false) (event : Option Inbound)
    (failedWrite : Option ℕ) (now : ℕ) : (s.onInbound event failedWrite now).Logged := by
  obtain he | he | ⟨payload, _, _, _, _, _, _, _, _, _, _, _, he⟩ :=
    s.onInbound_cases hs event failedWrite now <;> rw [he]
  · exact h
  · exact ⟨h.frames, h.bounded, fun hn => (by cases hn), h.switching⟩
  · refine ⟨h.frames, h.bounded, fun _ hp => (by cases hp), fun h => ?_⟩
    rw [hsw] at h
    cases h

theorem Logged.select (hsw : s.switch = false) (later : ℕ) (branch : Branch) :
    (s.select later branch).Logged := by
  cases branch with
  | cancelled | readFailed => exact ⟨h.frames, h.bounded, fun hn => (by cases hn), h.switching⟩
  | read available queued => exact h.onRead hs available queued
  | inbound event failedWrite => exact h.onInbound hs hsw event failedWrite later
  | stall =>
    simp only [ClientStream.select, onStall]
    split_ifs with hp
    · exact ⟨h.frames, h.bounded, fun hn => (by cases hn), h.switching⟩
    · exact ⟨h.frames, h.bounded, h.parked, fun _ => by simpa using hp⟩

theorem replayLoop_logged {replay : Bytes} (hr : replay <:+ s.callerRead) (hp : s.unprovenUp = [])
    (failing : Option ℕ) : (replayLoop replay.length s replay failing).Logged := by
  let P : ClientStream → Bytes → Prop := fun s replay =>
    s.Logged ∧ replay <:+ s.callerRead ∧ s.unprovenUp = []
  have hrun := replayLoop_rule (P := P) (F := Logged) ?_ ?_ replay.length failing hs le_rfl
    ⟨h, hr, hp⟩
  · obtain hf | ⟨_, hl, _⟩ := hrun
    · exact hf
    · exact hl
  · rintro s replay ⟨h, ⟨before, hb⟩, hp⟩ _
    have hle : s.callerRead.length - replay.length = before.length := by
      rw [← hb, List.length_append]
      omega
    have hc := carry_logged h.frames h.bounded before.length (replay.take maxData)
      (replay.drop maxData)
      (by rw [← hb, List.drop_left, List.take_append_drop])
      (by rw [← hb, List.length_append, List.length_take]; omega)
    rw [hle]
    refine ⟨⟨hc.1, hc.2, fun _ _ => ?_, h.switching⟩, ?_, hp⟩
    · change s.unprovenUp <:+ s.callerRead
      rw [hp]
      exact List.nil_suffix
    · refine ⟨before ++ replay.take maxData, ?_⟩
      rw [List.append_assoc, List.take_append_drop]
      exact hb
  · rintro s replay sent e ⟨h, _⟩
    exact ⟨h.frames, h.bounded, fun hn => (by cases hn), h.switching⟩

theorem Logged.switchCarrier (hsw : s.switch = true) (attempts : List Attempt)
    (closeQueued : Bool) (failing : Option ℕ) (now : ℕ) :
    (s.switchCarrier attempts closeQueued failing now).Logged := by
  obtain ⟨_, frames, _, _, _, _, _, _, _, _, e, hf, he⟩ |
    ⟨ids, frames, id, _, hf, _, _, _, he⟩ :=
    s.switchCarrier_cases attempts closeQueued failing now
  · rw [he]
    refine ⟨?_, h.bounded, fun hn => (by cases hn), fun hn => (by cases hn)⟩
    change dataSent (s.outbox ++ frames) = _
    rw [dataSent_append_other _ hf]
    exact h.frames
  · rw [he]
    have hstart : (s.restart (ids, s.outbox ++ frames) id now).Logged := by
      refine ⟨?_, h.bounded, fun _ _ => List.nil_suffix, fun hn => (by cases hn)⟩
      change dataSent (s.outbox ++ frames) = _
      rw [dataSent_append_other _ (fun f hm => (hf f hm).1)]
      exact h.frames
    exact replayLoop_logged hstart hs (h.parked hs (h.switching hsw)) rfl failing

end

theorem step_logged (turn : Turn) : (s.step turn).Logged := by
  obtain he | ⟨attempts, closeQueued, failing, now, hs, hsw, _, he⟩ |
    ⟨now, resendQueued, later, branch, hs, hsw, _, he⟩ | ⟨closeQueued, hs, he⟩ :=
    s.step_cases turn <;> rw [he]
  · exact h
  · exact h.switchCarrier hs hsw _ _ _ _
  · exact (h.pollHole now resendQueued).select (by rw [pollHole_ending, hs])
      (by rw [pollHole_switch, hsw]) later branch
  · refine ⟨?_, h.bounded, h.parked, h.switching⟩
    change dataSent (s.outbox ++ _) = _
    rw [dataSent_append_other _ (fun f hm => by rw [mem_queue hm]; exact kindClose_ne_kindData)]
    exact h.frames

end

theorem Fresh.logged (h : s.Fresh) : s.Logged := by
  refine ⟨?_, ?_, fun _ _ => ?_, fun _ => h.unproven⟩
  · have hn := dataSent_append_other [] (fun f hf => (h.outbox f hf).1)
    rw [List.nil_append] at hn
    rw [hn, h.carried]
    rfl
  · rw [h.carried]
    exact List.forall_mem_nil _
  · rw [h.unprovenUp]
    exact List.nil_suffix

end ClientStream
end Csqtt
