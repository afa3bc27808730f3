import Csqtt.ClientProxy

/-!
# What one turn of the client can do

Each part of `handle_client` is described once by the states it can lead to; the replay of parked
bytes has an invariant rule. The properties of whole runs rest on these and unfold nothing.
-/

namespace Csqtt
namespace ClientStream

structure Fresh (s : ClientStream) : Prop where
  unproven : s.proven = false
  staying : s.switch = false
  sent : s.sent = {}
  received : s.received = .new
  unprovenUp : s.unprovenUp = []
  written : s.written = []
  callerRead : s.callerRead = []
  carried : s.carried = []
  pos : 0 < s.ids
  streamId : s.streamId < s.ids
  outbox : ∀ f ∈ s.outbox, f.kind ≠ kindData ∧ f.streamId < s.ids

theorem connect_fresh (target : Bytes) (drawn : ℕ) (attempts : List Attempt) (replied : Bool)
    (now : ℕ) : (connect target drawn attempts replied now).Fresh := by
  unfold connect
  generalize ho : openTunnel target attempts 0 4 (drawn + 1, []) = opened
  obtain ⟨⟨ids, outbox⟩, result⟩ := opened
  obtain ⟨hle, ⟨frames, hout, hframes⟩, hid⟩ := openTunnel_spec _ _ _ _ _ _ ho
  subst hout
  have hp : 0 < ids := by omega
  have hd : ∀ f ∈ outbox, f.kind ≠ kindData ∧ f.streamId < ids :=
    fun f hf => ⟨(hframes f hf).1, (hframes f hf).2 drawn.succ_pos⟩
  cases result with
  | error => exact ⟨rfl, rfl, rfl, rfl, rfl, rfl, rfl, rfl, hp, hp, hd⟩
  | ok id =>
    have hlt := (hid id rfl).2 drawn.succ_pos
    cases replied with
    | false | true => exact ⟨rfl, rfl, rfl, rfl, rfl, rfl, rfl, rfl, hp, hlt, hd⟩

variable (s : ClientStream)

theorem step_cases (turn : Turn) :
    s.step turn = s ∨
    (∃ attempts closeQueued failing now, s.ending = none ∧ s.switch = true ∧
      turn = .switchCarrier attempts closeQueued failing now ∧
      s.step turn = s.switchCarrier attempts closeQueued failing now) ∨
    (∃ now resendQueued later branch, s.ending = none ∧ s.switch = false ∧
      turn = .select now resendQueued later branch ∧
      s.step turn = (s.pollHole now resendQueued).select later branch) ∨
    (∃ closeQueued, s.ending.isSome ∧ s.step turn = s.release closeQueued) := by
  cases turn with
  | switchCarrier =>
    simp only [step]
    split_ifs with h
    · simp only [Bool.and_eq_true, Option.isNone_iff_eq_none] at h
      exact .inr (.inl ⟨_, _, _, _, h.1, h.2, rfl, rfl⟩)
    · exact .inl rfl
  | select =>
    simp only [step]
    split_ifs with h
    · simp only [Bool.and_eq_true, Option.isNone_iff_eq_none, Bool.not_eq_true'] at h
      exact .inr (.inr (.inl ⟨_, _, _, _, h.1.1, h.1.2, rfl, rfl⟩))
    · exact .inl rfl
  | release =>
    simp only [step]
    split_ifs with h
    · rw [Bool.and_eq_true] at h
      exact .inr (.inr (.inr ⟨_, h.1, rfl⟩))
    · exact .inl rfl

def carry (s : ClientStream) (start : ℕ) (chunk : Bytes) : ClientStream :=
  { s with
    sent := ⟨s.sent.offset + chunk.length⟩
    outbox := s.outbox ++ [⟨kindData, s.streamId, StreamSequence.encodeAt s.sent.offset chunk⟩]
    carried := s.carried ++ [⟨s.streamId, start, chunk.length⟩] }

theorem sendData_cases (start : ℕ) (chunk : Bytes) (queued : Bool) :
    (∃ sent e, s.sendData start chunk queued = { s with sent }.fail e) ∨
      s.sendData start chunk queued = s.carry start chunk := by
  unfold sendData StreamSequence.encode StreamSequence.advance
  by_cases hf : s.sent.offset + chunk.length < 2 ^ 64
  · rw [if_pos hf]
    cases queued with
    | false => exact .inl ⟨⟨s.sent.offset + chunk.length⟩, .sendFailed, rfl⟩
    | true => exact .inr rfl
  · rw [if_neg hf]
    exact .inl ⟨s.sent, .sequence .offsetOverflow, rfl⟩

variable (now : ℕ) (resendQueued : Bool)

theorem pollHole_cases :
    ∃ holeDeadline lastResend resends frames,
      s.pollHole now resendQueued =
        { s with holeDeadline, lastResend, resends, outbox := s.outbox ++ frames } ∧
      ∀ f ∈ frames, f.kind = kindResend ∧ f.streamId = s.streamId := by
  unfold pollHole
  cases s.received.missingOffset with
  | none => exact ⟨none, s.lastResend, s.resends, [], by simp, by simp⟩
  | some =>
    split_ifs
    · exact ⟨_, _, _, _, rfl, by simp⟩
    · exact ⟨_, s.lastResend, s.resends, [], by rw [List.append_nil], by simp⟩

@[simp] theorem pollHole_ending : (s.pollHole now resendQueued).ending = s.ending := by
  obtain ⟨_, _, _, _, he, _⟩ := s.pollHole_cases now resendQueued
  rw [he]

@[simp] theorem pollHole_switch : (s.pollHole now resendQueued).switch = s.switch := by
  obtain ⟨_, _, _, _, he, _⟩ := s.pollHole_cases now resendQueued
  rw [he]

theorem onRead_cases (hs : s.ending = none) (available : Bytes) (queued : Bool) :
    s.onRead available queued = { s with ending := some .callerClosed } ∨
    ∃ bytes, bytes ≠ [] ∧
      ((∃ sent e, s.onRead available queued = { s.heard bytes with sent }.fail e) ∨
        (s.proven = true ∧
          s.onRead available queued = (s.heard bytes).carry s.callerRead.length bytes) ∨
        (s.proven = false ∧ ∃ ending, (ending = none ∨ ending = some (.failed .uplinkCap)) ∧
          s.onRead available queued =
            { (s.heard bytes).carry s.callerRead.length bytes with
              unprovenUp := s.unprovenUp ++ bytes, ending })) := by
  unfold onRead
  by_cases hb : (available.take maxData).isEmpty = true
  · exact .inl (if_pos hb)
  · rw [if_neg hb]
    refine .inr ⟨available.take maxData, by simpa using hb, ?_⟩
    generalize available.take maxData = bytes
    obtain ⟨sent, e, he⟩ | he := sendData_cases (s.heard bytes) s.callerRead.length bytes queued
    · exact .inl ⟨sent, e, by rw [he]; rfl⟩
    · rw [he]
      by_cases hp : s.proven = true
      · exact .inr (.inl ⟨hp, by simp [carry, heard, hp]⟩)
      · rw [Bool.not_eq_true] at hp
        refine .inr (.inr ⟨hp, ?_⟩)
        simp only [carry, heard, hs, hp, Option.isSome_none, Bool.or_self, Bool.false_eq_true,
          if_false]
        split_ifs
        · exact ⟨some (.failed .uplinkCap), .inr rfl, rfl⟩
        · exact ⟨none, .inl rfl, rfl⟩

theorem prove_cases :
    ∃ unprovenUp holeDeadline lastResend,
      s.prove now =
        { s with
          lastDownActivity := now
          proven := true
          unprovenUp, holeDeadline, lastResend } := by
  unfold prove
  split_ifs with hp
  · exact ⟨s.unprovenUp, s.holeDeadline, s.lastResend, by rw [← hp]⟩
  · exact ⟨[], none, none, rfl⟩

theorem onInbound_data (hs : s.ending = none) (payload : Bytes) (failedWrite : Option ℕ) (now : ℕ) :
    ∃ output unprovenUp holeDeadline lastResend downFrames downBytes ending,
      output <+: ReorderReceiver.forwarded (s.received.push payload).2 ∧
      (ending = none → output = ReorderReceiver.forwarded (s.received.push payload).2) ∧
      (ending = none ∨ ∃ e, ending = some (.failed e)) ∧
      s.onInbound (some (.data payload)) failedWrite now =
        { s with
          lastDownActivity := now
          proven := true
          received := s.received.pushed payload
          written := s.written ++ output
          unprovenUp, holeDeadline, lastResend, downFrames, downBytes, ending } := by
  obtain ⟨unprovenUp, holeDeadline, lastResend, he⟩ := s.prove_cases now
  rw [ReorderReceiver.pushed_eq, onInbound, he]
  generalize s.received.push payload = result
  obtain ⟨received, e | none | decoded⟩ := result
  · exact ⟨[], unprovenUp, holeDeadline, lastResend, s.downFrames, s.downBytes,
      some (.failed (.sequence e)), List.nil_prefix, by simp, .inr ⟨_, rfl⟩,
      by rw [List.append_nil]; rfl⟩
  · exact ⟨[], unprovenUp, holeDeadline, lastResend, s.downFrames, s.downBytes, none,
      List.nil_prefix, fun _ => rfl, .inl rfl, by rw [List.append_nil, ← hs]⟩
  · cases failedWrite with
    | none =>
      exact ⟨decoded, unprovenUp, holeDeadline, lastResend, _, _, none, List.prefix_rfl,
        fun _ => rfl, .inl rfl, by rw [← hs]⟩
    | some n =>
      exact ⟨decoded.take n, unprovenUp, holeDeadline, lastResend, _, _,
        some (.failed .writeFailed), List.take_prefix _ _, by simp, .inr ⟨_, rfl⟩, rfl⟩

theorem onInbound_cases (hs : s.ending = none) (event : Option Inbound) (failedWrite : Option ℕ)
    (now : ℕ) :
    s.onInbound event failedWrite now = s ∨
    s.onInbound event failedWrite now = { s with ending := some .inboundEnded } ∨
    ∃ payload, event = some (.data payload) ∧
      ∃ output unprovenUp holeDeadline lastResend downFrames downBytes ending,
        output <+: ReorderReceiver.forwarded (s.received.push payload).2 ∧
        (ending = none → output = ReorderReceiver.forwarded (s.received.push payload).2) ∧
        (ending = none ∨ ∃ e, ending = some (.failed e)) ∧
        s.onInbound event failedWrite now =
          { s with
            lastDownActivity := now
            proven := true
            received := s.received.pushed payload
            written := s.written ++ output
            unprovenUp, holeDeadline, lastResend, downFrames, downBytes, ending } := by
  obtain _ | _ | _ | payload | _ := event
  · exact .inr (.inl rfl)
  · exact .inl rfl
  · exact .inr (.inl rfl)
  · exact .inr (.inr ⟨payload, rfl, s.onInbound_data hs payload failedWrite now⟩)
  · exact .inr (.inl rfl)

/-- A new tunnel is adopted and the parked bytes are taken out for the replay. -/
def restart (s : ClientStream) (io : ℕ × List Frame) (id now : ℕ) : ClientStream :=
  { s.adopt io id now with switch := false, unprovenUp := [] }

/-- A switch either fails before it sends stream bytes, or adopts a new tunnel and replays. -/
theorem switchCarrier_cases (attempts : List Attempt) (closeQueued : Bool) (failing : Option ℕ)
    (now : ℕ) :
    (∃ ids frames streamId generations sent received holeDeadline lastResend lastDownActivity
        proofDeadline e, (∀ f ∈ frames, f.kind ≠ kindData) ∧
      s.switchCarrier attempts closeQueued failing now =
        { s with
          switch := false
          outbox := s.outbox ++ frames
          ids, streamId, generations, sent, received, holeDeadline, lastResend
          lastDownActivity, proofDeadline }.fail e) ∨
    ∃ ids frames id,
      s.ids ≤ ids ∧
      (∀ f ∈ frames, f.kind ≠ kindData ∧ (s.streamId < s.ids → f.streamId < ids)) ∧
      s.ids ≤ id ∧ (0 < s.ids → id < ids) ∧
      replayable s.unprovenUp = true ∧
      s.switchCarrier attempts closeQueued failing now =
        replayLoop s.unprovenUp.length (s.restart (ids, s.outbox ++ frames) id now) s.unprovenUp
          failing := by
  unfold switchCarrier
  dsimp only
  by_cases hg : openAttempts ≤ s.generations
  · rw [if_pos hg]
    exact .inl ⟨_, [], _, _, _, _, _, _, _, _, _, by simp, by rw [List.append_nil]⟩
  · rw [if_neg hg]
    generalize hopen : openTunnel s.target attempts 0 4
      (s.ids, s.outbox ++ queue closeQueued ⟨kindClose, s.streamId, []⟩) = opened
    obtain ⟨⟨ids, outbox⟩, result⟩ := opened
    obtain ⟨hle, ⟨frames, hout, hframe⟩, hid⟩ := openTunnel_spec _ _ _ _ _ _ hopen
    have hall : ∀ f ∈ queue closeQueued ⟨kindClose, s.streamId, []⟩ ++ frames,
        f.kind ≠ kindData ∧ (s.streamId < s.ids → f.streamId < ids) := by
      intro f hf
      rw [List.mem_append] at hf
      obtain hf | hf := hf
      · rw [mem_queue hf]
        exact ⟨kindClose_ne_kindData, fun h => Nat.lt_of_lt_of_le h hle⟩
      · exact ⟨(hframe f hf).1, fun h => (hframe f hf).2 (by omega)⟩
    rw [List.append_assoc] at hout
    subst hout
    cases result with
    | error =>
      exact .inl ⟨_, _, _, _, _, _, _, _, _, _, _, fun f hf => (hall f hf).1, rfl⟩
    | ok id =>
      dsimp only
      split_ifs with hr
      · exact .inr ⟨_, _, _, hle, hall, (hid id rfl).1, (hid id rfl).2, hr, rfl⟩
      · exact .inl ⟨_, _, _, _, _, _, _, _, _, _, _, fun f hf => (hall f hf).1, rfl⟩

theorem replayLoop_cases (fuel : ℕ) (s : ClientStream) (replay : Bytes) (failing : Option ℕ) :
    ∃ sent outbox carried ending,
      replayLoop fuel s replay failing = { s with sent, outbox, carried, ending } := by
  induction fuel generalizing s replay failing with
  | zero => exact ⟨_, _, _, _, rfl⟩
  | succ _ ih =>
    rw [replayLoop]
    split_ifs
    · exact ⟨_, _, _, _, rfl⟩
    · obtain ⟨sent, e, he⟩ | he := sendData_cases s (s.callerRead.length - replay.length)
        (replay.take maxData) (failing != some 0)
      · rw [he]
        exact ⟨_, _, _, _, rfl⟩
      · rw [he]
        dsimp only
        split_ifs
        · exact ⟨_, _, _, _, rfl⟩
        · obtain ⟨sent, outbox, carried, ending, hr⟩ := ih
            (s.carry (s.callerRead.length - replay.length) (replay.take maxData))
            (replay.drop maxData) (failing.map (· - 1))
          exact ⟨sent, outbox, carried, ending, hr⟩

/-- What holds before the replay and is kept by each of its DATA frames holds after it, unless a
send failed. -/
theorem replayLoop_rule {P : ClientStream → Bytes → Prop} {F : ClientStream → Prop}
    (hcarry : ∀ s replay, P s replay → replay ≠ [] →
      P (s.carry (s.callerRead.length - replay.length) (replay.take maxData))
        (replay.drop maxData))
    (hfail : ∀ s replay sent e, P s replay → F ({ s with sent }.fail e)) (fuel : ℕ)
    {s : ClientStream} {replay : Bytes} (failing : Option ℕ) (hs : s.ending = none)
    (hfuel : replay.length ≤ fuel) (hp : P s replay) :
    F (replayLoop fuel s replay failing) ∨
      ((replayLoop fuel s replay failing).ending = none ∧
        P (replayLoop fuel s replay failing) []) := by
  induction fuel generalizing s replay failing with
  | zero =>
    have hnil : replay = [] := List.length_eq_zero_iff.mp (by omega)
    subst hnil
    exact .inr ⟨hs, hp⟩
  | succ _ ih =>
    rw [replayLoop]
    by_cases hnil : replay = []
    · subst hnil
      exact .inr ⟨hs, hp⟩
    · rw [if_neg (by simpa using hnil)]
      obtain ⟨sent, e, he⟩ | he := sendData_cases s (s.callerRead.length - replay.length)
        (replay.take maxData) (failing != some 0)
      · rw [he]
        exact .inl (hfail s replay sent e hp)
      · have hend : (s.carry (s.callerRead.length - replay.length)
            (replay.take maxData)).ending = none := hs
        rw [he]
        rw [if_neg (by simp [hend])]
        apply ih _ hend _ (hcarry s replay hp hnil)
        rw [List.length_drop, maxData]
        omega

end ClientStream
end Csqtt
