import Csqtt.ClientLog
import Csqtt.ReorderDelivery

/-!
# What the caller gets

In every run the bytes written to the caller are a prefix of the current generation's stream. The
first DATA event settles the generation: after it there is no switch, and the DATA frames that
follow carry only bytes that have not been sent before.
-/

namespace Csqtt

open Reassembly

/-- The payload a turn takes from the inbound queue, if it takes one. -/
def Turn.delivered : Turn → Option Bytes
  | .select _ _ _ (.inbound (some (.data payload)) _) => some payload
  | _ => none

theorem Turn.select_of_delivered {turn : Turn} {payload : Bytes}
    (h : turn.delivered = some payload) : ∃ now resendQueued later failedWrite,
      turn = .select now resendQueued later (.inbound (some (.data payload)) failedWrite) := by
  unfold delivered at h
  split at h
  · cases h
    exact ⟨_, _, _, _, rfl⟩
  · cases h

namespace ClientStream

variable {S : ℕ → ByteStream}

/-- The DATA events of a stream id are chunks of the stream `S` gives to that id. -/
def ReceivesChunks (S : ℕ → ByteStream) (s : ClientStream) (turn : Turn) : Prop :=
  ∀ payload, turn.delivered = some payload → ∃ c : Cut (S s.streamId), payload = c.payload

structure Downlinked (S : ℕ → ByteStream) (s : ClientStream) : Prop where
  silent : s.proven = false → s.written = []
  within : s.written <+: (S s.streamId).bytes
  sound : (∀ e, s.ending ≠ some (.failed e)) → Sound (S s.streamId).bytes s.received.buffer ∧
    s.written = (S s.streamId).bytes.take s.received.expected

variable {s s' : ClientStream}

section

variable (h : s.Downlinked S)
include h

section

variable (hs : s.ending = none)
include hs

theorem Downlinked.running :
    Sound (S s.streamId).bytes s.received.buffer ∧
      s.written = (S s.streamId).bytes.take s.received.expected := by
  apply h.sound
  intro e he
  rw [hs] at he
  cases he

theorem Downlinked.onRead (available : Bytes) (queued : Bool) :
    (s.onRead available queued).Downlinked S := by
  obtain he | ⟨bytes, _, ⟨sent, e, he⟩ | ⟨hp, he⟩ | ⟨hp, ending, _, he⟩⟩ :=
    s.onRead_cases hs available queued <;> rw [he]
  · exact ⟨h.silent, h.within, fun _ => h.running hs⟩
  · exact ⟨h.silent, h.within, fun hn => absurd rfl (hn _)⟩
  · exact ⟨h.silent, h.within, h.sound⟩
  · exact ⟨h.silent, h.within, fun _ => h.running hs⟩

theorem Downlinked.onInbound {event : Option Inbound}
    (hd : ∀ payload, event = some (.data payload) →
      ∃ c : Cut (S s.streamId), payload = c.payload) (failedWrite : Option ℕ) (now : ℕ) :
    (s.onInbound event failedWrite now).Downlinked S := by
  obtain he | he | ⟨payload, hevent, output, _, _, _, _, _, ending, hpre, ha, hending, he⟩ :=
    s.onInbound_cases hs event failedWrite now <;> rw [he]
  · exact h
  · exact ⟨h.silent, h.within, fun _ => h.running hs⟩
  · obtain ⟨c, rfl⟩ := hd payload hevent
    obtain ⟨hsound, hw⟩ := h.running hs
    obtain ⟨hs', ht⟩ := ReorderReceiver.push_sound hsound c
    rw [← hw, ← ReorderReceiver.pushed_eq] at ht
    rw [← ReorderReceiver.pushed_eq] at hs'
    refine ⟨fun hn => (by cases hn), ?_, fun hn => ⟨hs', ?_⟩⟩
    · have hp := List.prefix_append_right_inj s.written |>.mpr hpre
      rw [ht] at hp
      exact hp.trans (List.take_prefix _ _)
    · have hok : ending = none := by
        obtain hok | ⟨e, hf⟩ := hending
        · exact hok
        · exact absurd hf (hn e)
      rw [ha hok, ht]

theorem Downlinked.select (later : ℕ) {branch : Branch}
    (hd : ∀ payload failedWrite, branch = .inbound (some (.data payload)) failedWrite →
      ∃ c : Cut (S s.streamId), payload = c.payload) : (s.select later branch).Downlinked S := by
  cases branch with
  | cancelled => exact ⟨h.silent, h.within, fun _ => h.running hs⟩
  | readFailed => exact ⟨h.silent, h.within, fun hn => absurd rfl (hn _)⟩
  | read available queued => exact h.onRead hs available queued
  | inbound _ failedWrite =>
    exact h.onInbound hs (fun payload he => hd payload failedWrite (by rw [he])) _ _
  | stall =>
    simp only [ClientStream.select, onStall]
    split_ifs
    · exact ⟨h.silent, h.within, fun hn => absurd rfl (hn _)⟩
    · exact ⟨h.silent, h.within, h.sound⟩

end

theorem Downlinked.switchCarrier (hp : s.proven = false) (attempts : List Attempt)
    (closeQueued : Bool) (failing : Option ℕ) (now : ℕ) :
    (s.switchCarrier attempts closeQueued failing now).Downlinked S := by
  have hnil := h.silent hp
  obtain ⟨_, _, id, _, _, _, _, _, _, _, _, _, he⟩ | ⟨ids, frames, id, _, _, _, _, _, he⟩ :=
    s.switchCarrier_cases attempts closeQueued failing now <;> rw [he]
  · refine ⟨fun _ => hnil, ?_, fun hn => absurd rfl (hn _)⟩
    rw [hnil]
    exact List.nil_prefix
  · obtain ⟨_, _, _, _, hl⟩ := replayLoop_cases s.unprovenUp.length
      (s.restart (ids, s.outbox ++ frames) id now) s.unprovenUp failing
    rw [hl]
    refine ⟨fun _ => hnil, ?_, fun _ => ⟨sound_empty _, hnil⟩⟩
    change s.written <+: _
    rw [hnil]
    exact List.nil_prefix

end

theorem step_downlinked (hl : s.Logged) (h : s.Downlinked S) {turn : Turn}
    (hd : s.ReceivesChunks S turn) : (s.step turn).Downlinked S := by
  obtain he | ⟨attempts, closeQueued, failing, now, hs, hsw, _, he⟩ |
    ⟨now, resendQueued, later, branch, hs, _, ht, he⟩ | ⟨closeQueued, _, he⟩ :=
    s.step_cases turn <;> rw [he]
  · exact h
  · exact h.switchCarrier (hl.switching hsw) _ _ _ _
  · have hpoll : (s.pollHole now resendQueued).Downlinked S ∧
        (s.pollHole now resendQueued).streamId = s.streamId := by
      obtain ⟨_, _, _, _, hp, _⟩ := s.pollHole_cases now resendQueued
      rw [hp]
      exact ⟨⟨h.silent, h.within, h.sound⟩, rfl⟩
    refine hpoll.1.select (by rw [pollHole_ending, hs]) later ?_
    intro payload failedWrite hb
    rw [hpoll.2]
    exact hd payload (by rw [ht, hb]; rfl)
  · exact ⟨h.silent, h.within, h.sound⟩

theorem Fresh.downlinked (h : s.Fresh) : s.Downlinked S := by
  refine ⟨fun _ => h.written, ?_, fun _ => ?_⟩
  · rw [h.written]
    exact List.nil_prefix
  · rw [h.written, h.received]
    exact ⟨sound_empty _, rfl⟩

/-- `s'` stays on the carrier of `s`, and the DATA frames since `s` carry, one after the other,
bytes that were read after `s`. -/
structure Continues (s s' : ClientStream) : Prop where
  proven : s'.proven = true
  streamId : s'.streamId = s.streamId
  generations : s'.generations = s.generations
  read : s.callerRead.length ≤ s'.callerRead.length
  fresh : ∃ frames, s'.carried = s.carried ++ frames ∧
    (∀ b ∈ frames, s.callerRead.length ≤ b.start) ∧
    frames.Pairwise (fun a b => a.stop ≤ b.start)

theorem Continues.carry (h : s.Continues s') (hl : s'.Logged)
    (bytes : Bytes) : s.Continues ((s'.heard bytes).carry s'.callerRead.length bytes) := by
  have hr := h.read
  obtain ⟨frames, hc, hf, hp⟩ := h.fresh
  refine ⟨h.proven, h.streamId, h.generations, ?_,
    frames ++ [⟨s'.streamId, s'.callerRead.length, bytes.length⟩], ?_, ?_, ?_⟩
  · change s.callerRead.length ≤ (s'.callerRead ++ bytes).length
    rw [List.length_append]
    omega
  · change s'.carried ++ [_] = _
    rw [hc, List.append_assoc]
    rfl
  · intro b hb
    rw [List.mem_append, List.mem_singleton] at hb
    obtain hb | rfl := hb
    · exact hf b hb
    · exact hr
  · rw [List.pairwise_append]
    refine ⟨hp, List.pairwise_singleton _ _, fun a ha b hb => ?_⟩
    rw [List.mem_singleton.mp hb]
    exact hl.bounded a (by rw [hc]; exact List.mem_append_right _ ha)

theorem Continues.select (h : s.Continues s') (hl : s'.Logged)
    (hs : s'.ending = none) (later : ℕ) (branch : Branch) :
    s.Continues (s'.select later branch) := by
  cases branch with
  | cancelled | readFailed => exact ⟨h.proven, h.streamId, h.generations, h.read, h.fresh⟩
  | read available queued =>
    obtain he | ⟨bytes, _, ⟨sent, e, he⟩ | ⟨_, he⟩ | ⟨hp, _⟩⟩ :=
      s'.onRead_cases hs available queued
    · rw [ClientStream.select, he]
      exact ⟨h.proven, h.streamId, h.generations, h.read, h.fresh⟩
    · rw [ClientStream.select, he]
      have hr := (h.carry hl bytes).read
      exact ⟨h.proven, h.streamId, h.generations, hr, h.fresh⟩
    · rw [ClientStream.select, he]
      exact h.carry hl bytes
    · rw [h.proven] at hp
      cases hp
  | inbound event failedWrite =>
    rw [ClientStream.select]
    obtain he | he | ⟨payload, _, _, _, _, _, _, _, _, _, _, _, he⟩ :=
      s'.onInbound_cases hs event failedWrite later <;> rw [he]
    · exact h
    · exact ⟨h.proven, h.streamId, h.generations, h.read, h.fresh⟩
    · exact ⟨rfl, h.streamId, h.generations, h.read, h.fresh⟩
  | stall =>
    rw [ClientStream.select, onStall, if_pos h.proven]
    exact ⟨h.proven, h.streamId, h.generations, h.read, h.fresh⟩

theorem Continues.step (h : s.Continues s') (hl : s'.Logged)
    (turn : Turn) : s.Continues (s'.step turn) := by
  obtain he | ⟨_, _, _, _, _, hsw, _, _⟩ | ⟨now, resendQueued, later, branch, hs, _, _, he⟩ |
    ⟨closeQueued, _, he⟩ := s'.step_cases turn
  · rw [he]
    exact h
  · have hp := hl.switching hsw
    rw [h.proven] at hp
    cases hp
  · have hpoll : s.Continues (s'.pollHole now resendQueued) := by
      obtain ⟨_, _, _, _, hp, _⟩ := s'.pollHole_cases now resendQueued
      rw [hp]
      exact ⟨h.proven, h.streamId, h.generations, h.read, h.fresh⟩
    rw [he]
    exact hpoll.select (hl.pollHole now resendQueued) (by rw [pollHole_ending, hs]) later branch
  · rw [he]
    exact ⟨h.proven, h.streamId, h.generations, h.read, h.fresh⟩

theorem Continues.run (hl : s.Logged) (hp : s.proven = true)
    (turns : List Turn) : s.Continues (turns.foldl ClientStream.step s) := by
  have hs : s.Logged ∧ s.Continues s :=
    ⟨hl, hp, rfl, rfl, le_rfl, [], by simp, by simp, List.Pairwise.nil⟩
  have hr := List.foldlRecOn turns ClientStream.step
    (motive := fun s' => s'.Logged ∧ s.Continues s')
    hs (fun s' h turn _ => ⟨step_logged h.1 turn, h.2.step h.1 turn⟩)
  exact hr.2

theorem proven_of_delivered (hs : s.ending = none) (hsw : s.switch = false)
    {turn : Turn} {payload : Bytes} (hd : turn.delivered = some payload) :
    (s.step turn).proven = true := by
  obtain ⟨now, resendQueued, later, failedWrite, rfl⟩ :=
    Turn.select_of_delivered hd
  have hp : (s.pollHole now resendQueued).ending = none := by rw [pollHole_ending, hs]
  obtain ⟨_, _, _, _, _, _, _, _, _, _, he⟩ :=
    (s.pollHole now resendQueued).onInbound_data hp payload failedWrite later
  rw [ClientStream.step, if_pos (by simp [hs, hsw, enabled]), ClientStream.select, he]

/-- In any run whose DATA events are chunks of one stream per stream id, the bytes written to the
caller are a prefix of the current generation's stream; nothing is written before the first DATA
event, and from then on the generation stays and no byte of the caller is sent again. -/
theorem written_within_one_generation (S : ℕ → ByteStream) (target : Bytes) (drawn : ℕ)
    (attempts : List Attempt) (replied : Bool) (now : ℕ) (turns : List Turn)
    (hdata : Runs.Along step (ReceivesChunks S) (connect target drawn attempts replied now)
      turns) :
    let s := turns.foldl step (connect target drawn attempts replied now)
    s.written <+: (S s.streamId).bytes ∧ (s.proven = false → s.written = []) ∧
      dataSent s.outbox = s.carried.map s.slice ∧
      (∀ c ∈ s.carried, c.stop ≤ s.callerRead.length) ∧
      (∀ turn payload, s.ending = none → s.switch = false → turn.delivered = some payload →
        (s.step turn).proven = true) ∧
      (s.proven = true → ∀ later : List Turn, s.Continues (later.foldl step s)) := by
  have hf := connect_fresh target drawn attempts replied now
  have hin := Runs.invariant (I := fun s => s.Logged ∧ s.Downlinked S)
    (fun s turn h hq => ⟨step_logged h.1 turn, step_downlinked h.1 h.2 hq⟩)
    ⟨hf.logged, hf.downlinked⟩ hdata
  obtain ⟨hl, hd⟩ := hin
  exact ⟨hd.within, hd.silent, hl.frames, hl.bounded,
    fun turn payload hs hsw ht => proven_of_delivered hs hsw ht, Continues.run hl⟩

def getBytes : Bytes := bytesOf ['G', 'E', 'T', ' ', '/']

def twoByteReply : ByteStream := ⟨[7, 8], by decide⟩

/-- A request is answered in two frames, the second of them first. -/
def answeredTurns : List Turn :=
  [.select 0 true 0 (.read getBytes true),
    .select 0 true 10 (.inbound (some (.data (StreamSequence.encodeAt 1 [8]))) none),
    .select 10 true 20 (.inbound (some (.data (StreamSequence.encodeAt 0 [7]))) none)]

theorem written_within_one_generation_answered :
    let s := answeredTurns.foldl step (connect [] 0 [{}] true 0)
    s.written <+: [7, 8] ∧ s.proven = true ∧
      ∀ later : List Turn, s.Continues (later.foldl step s) := by
  have hd : Runs.Along step (ReceivesChunks (fun _ => twoByteReply))
      (connect [] 0 [{}] true 0) answeredTurns := by
    refine ⟨?_, ?_, ?_, trivial⟩
    · intro payload h
      cases h
    · intro payload h
      cases h
      exact ⟨⟨1, 1, by decide⟩, rfl⟩
    · intro payload h
      cases h
      exact ⟨⟨0, 1, by decide⟩, rfl⟩
  have hr := written_within_one_generation (fun _ => twoByteReply) [] 0 [{}] true 0
    answeredTurns hd
  have hp : (answeredTurns.foldl step (connect [] 0 [{}] true 0)).proven = true := by decide
  exact ⟨hr.1, hp, hr.2.2.2.2.2 hp⟩

end ClientStream
end Csqtt
