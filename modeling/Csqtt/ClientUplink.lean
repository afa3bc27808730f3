import Csqtt.ClientTurns

/-!
# What reaches the server across carrier switches

Until a carrier is proven, the DATA frames of its stream id should carry all that was read from the
caller. They do in every run whose switches find all of it still parked. A replay does not park
its bytes again, so a second switch in a row can lose them.
-/

namespace Csqtt

def uplink (id : ℕ) (outbox : List Frame) : List Bytes :=
  (outbox.filter (fun f => f.kind == kindData && f.streamId == id)).map Frame.payload

/-- The bytes of payloads whose offsets follow on from `o`. -/
def assemble : ℕ → List Bytes → Option Bytes
  | _, [] => some []
  | o, p :: ps =>
    if p.take 8 = BigEndian.encode 8 o then
      (assemble (o + (p.drop 8).length) ps).map (p.drop 8 ++ ·)
    else none

theorem uplink_append (id : ℕ) (xs ys : List Frame) :
    uplink id (xs ++ ys) = uplink id xs ++ uplink id ys := by
  simp [uplink]

theorem uplink_eq_nil {id : ℕ} {frames : List Frame}
    (h : ∀ f ∈ frames, f.kind ≠ kindData ∨ f.streamId ≠ id) : uplink id frames = [] := by
  rw [uplink, List.map_eq_nil_iff, List.filter_eq_nil_iff]
  intro f hf
  obtain hk | hid := h f hf
  · simp [hk]
  · simp [hid]

theorem assemble_append {o : ℕ} {ps : List Bytes} {bytes : Bytes}
    (h : assemble o ps = some bytes) (chunk : Bytes) :
    assemble o (ps ++ [StreamSequence.encodeAt (o + bytes.length) chunk]) =
      some (bytes ++ chunk) := by
  induction ps generalizing o bytes with
  | nil =>
    cases h
    simp [assemble, StreamSequence.encodeAt]
  | cons _ _ ih =>
    rw [assemble] at h
    split_ifs at h with hp
    rw [Option.map_eq_some_iff] at h
    obtain ⟨rest, hr, rfl⟩ := h
    have hi := ih hr
    rw [List.cons_append, assemble, if_pos hp, List.length_append, ← Nat.add_assoc, hi]
    simp

namespace ClientStream

def failed (s : ClientStream) : Bool :=
  match s.ending with
  | some (.failed _) => true
  | _ => false

/-- While the carrier is unproven and nothing has failed, the DATA frames of the current stream id
carry, from offset 0 on, all bytes read from the caller. -/
def UplinkComplete (s : ClientStream) : Prop :=
  s.failed = false → s.proven = false →
    assemble 0 (uplink s.streamId s.outbox) = some s.callerRead

instance (s : ClientStream) : Decidable s.UplinkComplete := by
  unfold UplinkComplete
  infer_instance

def AllParked (s : ClientStream) (_ : Turn) : Prop :=
  s.ending = none → s.switch = true → s.unprovenUp = s.callerRead

instance (s : ClientStream) (turn : Turn) : Decidable (s.AllParked turn) := by
  unfold AllParked
  infer_instance

/-- The current stream id has carried exactly `done`. -/
def Covers (s : ClientStream) (done : Bytes) : Prop :=
  s.sent.offset = done.length ∧ assemble 0 (uplink s.streamId s.outbox) = some done

variable {s s' : ClientStream}

theorem Covers.carry {done : Bytes} (h : s.Covers done) (start : ℕ)
    (chunk : Bytes) : (s.carry start chunk).Covers (done ++ chunk) := by
  refine ⟨?_, ?_⟩
  · change s.sent.offset + chunk.length = _
    rw [h.1, List.length_append]
  · have hn : uplink s.streamId
        [⟨kindData, s.streamId, StreamSequence.encodeAt s.sent.offset chunk⟩] =
        [StreamSequence.encodeAt s.sent.offset chunk] := by
      simp [uplink]
    have ha := assemble_append h.2 chunk
    change assemble 0 (uplink s.streamId (s.outbox ++ [_])) = _
    rw [uplink_append, hn, h.1]
    rwa [Nat.zero_add] at ha

theorem Covers.append {done : Bytes} (h : s.Covers done)
    {frames : List Frame} (hf : ∀ f ∈ frames, f.kind ≠ kindData) : s.sent.offset = done.length ∧
      assemble 0 (uplink s.streamId (s.outbox ++ frames)) = some done := by
  rw [uplink_append, uplink_eq_nil (fun f hm => .inl (hf f hm)), List.append_nil]
  exact h

/-- The ids of all frames sent so far have been drawn from the counter. -/
structure IdsDrawn (s : ClientStream) : Prop where
  pos : 0 < s.ids
  frames : ∀ f ∈ s.outbox, f.streamId < s.ids
  current : s.streamId < s.ids

structure Uplinked (s : ClientStream) : Prop where
  drawn : s.IdsDrawn
  covers : s.proven = false → s.Covers s.callerRead

theorem IdsDrawn.append (h : s.IdsDrawn) {frames : List Frame}
    (hf : ∀ f ∈ frames, f.streamId = s.streamId) :
    ∀ f ∈ s.outbox ++ frames, f.streamId < s.ids := by
  intro f hm
  rw [List.mem_append] at hm
  obtain hm | hm := hm
  · exact h.frames f hm
  · rw [hf f hm]
    exact h.current

section

variable (h : s.Uplinked)
include h

theorem Uplinked.frames (frames : List Frame)
    (hf : ∀ f ∈ frames, f.kind ≠ kindData ∧ f.streamId = s.streamId) (hi : s'.ids = s.ids)
    (hid : s'.streamId = s.streamId) (ho : s'.outbox = s.outbox ++ frames) (hs : s'.sent = s.sent)
    (hr : s'.callerRead = s.callerRead) (hproven : s'.proven = false → s.proven = false) :
    s'.Uplinked := by
  refine ⟨⟨?_, ?_, ?_⟩, ?_⟩
  · rw [hi]
    exact h.drawn.pos
  · rw [ho, hi]
    exact h.drawn.append (fun f hm => (hf f hm).2)
  · rw [hid, hi]
    exact h.drawn.current
  · intro hp
    rw [Covers, hid, ho, hs, hr]
    exact (h.covers (hproven hp)).append (fun f hm => (hf f hm).1)

theorem Uplinked.pollHole (now : ℕ) (resendQueued : Bool) :
    (s.pollHole now resendQueued).Uplinked := by
  obtain ⟨_, _, _, frames, he, hf⟩ := s.pollHole_cases now resendQueued
  rw [he]
  refine h.frames frames (fun f hm => ⟨?_, (hf f hm).2⟩) rfl rfl rfl rfl rfl id
  rw [(hf f hm).1]
  exact kindResend_ne_kindData

theorem Uplinked.carry (hp : s.proven = false) (bytes : Bytes) (unprovenUp : Bytes)
    (ending : Option Ending) :
    Uplinked { (s.heard bytes).carry s.callerRead.length bytes with unprovenUp, ending } := by
  refine ⟨⟨h.drawn.pos, h.drawn.append ?_, h.drawn.current⟩, fun _ => ?_⟩
  · intro f hm
    rw [List.mem_singleton.mp hm]
    rfl
  · have hc : (s.heard bytes).Covers s.callerRead := h.covers hp
    exact hc.carry s.callerRead.length bytes

theorem Uplinked.onRead (hs : s.ending = none) (available : Bytes) (queued : Bool)
    (hok : (s.onRead available queued).failed = false) : (s.onRead available queued).Uplinked := by
  obtain he | ⟨bytes, _, ⟨sent, e, he⟩ | ⟨hp, he⟩ | ⟨hp, ending, _, he⟩⟩ :=
    s.onRead_cases hs available queued <;> rw [he] at hok ⊢
  · exact ⟨⟨h.drawn.pos, h.drawn.frames, h.drawn.current⟩, h.covers⟩
  · cases hok
  · refine ⟨⟨h.drawn.pos, h.drawn.append ?_, h.drawn.current⟩, fun hp' => ?_⟩
    · intro f hm
      rw [List.mem_singleton.mp hm]
      rfl
    · change s.proven = false at hp'
      rw [hp] at hp'
      cases hp'
  · exact h.carry hp bytes _ _

theorem Uplinked.onInbound (hs : s.ending = none) (event : Option Inbound)
    (failedWrite : Option ℕ) (now : ℕ) : (s.onInbound event failedWrite now).Uplinked := by
  obtain he | he | ⟨payload, _, _, _, _, _, _, _, _, _, _, _, he⟩ :=
    s.onInbound_cases hs event failedWrite now <;> rw [he]
  · exact h
  · exact ⟨⟨h.drawn.pos, h.drawn.frames, h.drawn.current⟩, h.covers⟩
  · exact ⟨⟨h.drawn.pos, h.drawn.frames, h.drawn.current⟩, fun hp => by cases hp⟩

end

theorem replayLoop_uplinked (hd : s.IdsDrawn) (hs : s.ending = none)
    {replay : Bytes} (hr : s.callerRead = replay) (hc : s.Covers []) (failing : Option ℕ) :
    (replayLoop replay.length s replay failing).failed = true ∨
      (replayLoop replay.length s replay failing).Uplinked := by
  let P : ClientStream → Bytes → Prop := fun s replay =>
    s.IdsDrawn ∧ ∃ done, s.callerRead = done ++ replay ∧ s.Covers done
  have hrun := replayLoop_rule (P := P) (F := fun s => s.failed = true) ?_
    (fun _ _ _ _ _ => rfl) replay.length failing hs le_rfl ⟨hd, [], hr, hc⟩
  · obtain hf | ⟨_, hd', done, hr', hc'⟩ := hrun
    · exact .inl hf
    · rw [List.append_nil] at hr'
      exact .inr ⟨hd', fun _ => by rw [hr']; exact hc'⟩
  · intro s replay hp _
    obtain ⟨hd, done, hr, hc⟩ := hp
    refine ⟨⟨hd.pos, hd.append ?_, hd.current⟩, done ++ replay.take maxData, ?_, hc.carry _ _⟩
    · intro f hm
      rw [List.mem_singleton.mp hm]
    · change s.callerRead = _
      rw [hr, List.append_assoc, List.take_append_drop]

theorem Uplinked.switchCarrier (h : s.Uplinked) (hs : s.ending = none)
    (hpark : s.unprovenUp = s.callerRead) (attempts : List Attempt) (closeQueued : Bool)
    (failing : Option ℕ) (now : ℕ)
    (hok : (s.switchCarrier attempts closeQueued failing now).failed = false) :
    (s.switchCarrier attempts closeQueued failing now).Uplinked := by
  obtain ⟨_, _, _, _, _, _, _, _, _, _, e, _, he⟩ |
    ⟨ids, frames, id, hle, hframe, hid, hlt, _, he⟩ :=
    s.switchCarrier_cases attempts closeQueued failing now
  · rw [he] at hok
    cases hok
  · have hdraw : ∀ f ∈ s.outbox ++ frames,
        f.streamId < ids ∧ (f.kind ≠ kindData ∨ f.streamId ≠ id) := by
      intro f hm
      rw [List.mem_append] at hm
      obtain hm | hm := hm
      · have hold := h.drawn.frames f hm
        exact ⟨by omega, .inr (by omega)⟩
      · exact ⟨(hframe f hm).2 h.drawn.current, .inl (hframe f hm).1⟩
    have hcover : assemble 0 (uplink id (s.outbox ++ frames)) = some [] := by
      rw [uplink_eq_nil (fun f hm => (hdraw f hm).2)]
      rfl
    have hrun := replayLoop_uplinked
      (s := s.restart (ids, s.outbox ++ frames) id now)
      ⟨Nat.lt_of_lt_of_le h.drawn.pos hle, fun f hm => (hdraw f hm).1, hlt h.drawn.pos⟩ hs
      hpark.symm
      ⟨rfl, hcover⟩ failing
    rw [he] at hok ⊢
    obtain hf | hu := hrun
    · rw [hok] at hf
      cases hf
    · exact hu

theorem Uplinked.select (h : s.Uplinked) (hs : s.ending = none) (later : ℕ)
    (branch : Branch) (hok : (s.select later branch).failed = false) :
    (s.select later branch).Uplinked := by
  cases branch with
  | cancelled => exact ⟨⟨h.drawn.pos, h.drawn.frames, h.drawn.current⟩, h.covers⟩
  | readFailed => cases hok
  | read available queued => exact h.onRead hs available queued hok
  | inbound event failedWrite => exact h.onInbound hs event failedWrite later
  | stall =>
    simp only [ClientStream.select, onStall] at hok ⊢
    split_ifs at hok ⊢ with hp
    · cases hok
    · exact ⟨⟨h.drawn.pos, h.drawn.frames, h.drawn.current⟩, h.covers⟩

theorem step_uplinked (h : s.failed = false → s.Uplinked) {turn : Turn}
    (hp : s.AllParked turn) (hok : (s.step turn).failed = false) : (s.step turn).Uplinked := by
  obtain he | ⟨attempts, closeQueued, failing, now, hs, hsw, _, he⟩ |
    ⟨now, resendQueued, later, branch, hs, _, _, he⟩ | ⟨closeQueued, _, he⟩ :=
    s.step_cases turn <;> rw [he] at hok ⊢
  · exact h hok
  · exact (h (by simp [failed, hs])).switchCarrier hs (hp hs hsw) _ _ _ _ hok
  · have hpoll := (h (by simp [failed, hs])).pollHole now resendQueued
    exact hpoll.select (by rw [pollHole_ending, hs]) later branch hok
  · refine (h hok).frames (queue closeQueued ⟨kindClose, s.streamId, []⟩) ?_
      rfl rfl rfl rfl rfl id
    intro f hm
    rw [mem_queue hm]
    exact ⟨kindClose_ne_kindData, rfl⟩

theorem Fresh.uplinked (h : s.Fresh) : s.Uplinked := by
  refine ⟨⟨h.pos, fun f hf => (h.outbox f hf).2, h.streamId⟩, fun _ => ⟨?_, ?_⟩⟩
  · rw [h.sent, h.callerRead]
    rfl
  · rw [uplink_eq_nil (fun f hf => .inl (h.outbox f hf).1), h.callerRead]
    rfl

/-- As long as every switch finds all bytes read from the caller still parked, the current
carrier has been sent all of them. -/
theorem uplink_complete_of_all_parked (target : Bytes) (drawn : ℕ) (attempts : List Attempt)
    (replied : Bool) (now : ℕ) (turns : List Turn)
    (hparked : Runs.Along step AllParked (connect target drawn attempts replied now) turns) :
    Runs.Always step UplinkComplete (connect target drawn attempts replied now) turns := by
  have hin := Runs.always_invariant (I := fun s => s.failed = false → s.Uplinked)
    (fun s turn h hp hok => step_uplinked h hp hok)
    (fun _ => (connect_fresh target drawn attempts replied now).uplinked) hparked
  exact Runs.always_mono (fun s h hok hp => ((h hok).covers hp).2) hin

def getRequest : Bytes := bytesOf ['G', 'E', 'T', ' ', '/', '\r', '\n']

/-- The caller sends a request, the first carrier stays silent and is replaced. -/
def oneSilentCarrier : List Turn :=
  [.select 0 true 0 (.read getRequest true), .select 0 true 2500 .stall,
    .switchCarrier [{}] true none 2500]

theorem uplink_complete_one_switch :
    Runs.Along step AllParked (connect [] 0 [{}] true 0) oneSilentCarrier ∧
      Runs.Always step UplinkComplete (connect [] 0 [{}] true 0) oneSilentCarrier :=
  have hp : Runs.Along step AllParked (connect [] 0 [{}] true 0) oneSilentCarrier := by
    decide
  ⟨hp, uplink_complete_of_all_parked [] 0 [{}] true 0 oneSilentCarrier hp⟩

def twoSilentCarriers : List Turn :=
  oneSilentCarrier ++ [.select 2500 true 5000 .stall, .switchCarrier [{}] true none 5000]

/-- The replay on the second carrier has used up the parked copy: the third carrier is sent nothing
of the request. -/
theorem second_switch_loses_request :
    let s := twoSilentCarriers.foldl step (connect [] 0 [{}] true 0)
    s.ending = none ∧ s.proven = false ∧ s.generations = 3 ∧ s.callerRead = getRequest ∧
      assemble 0 (uplink s.streamId s.outbox) = some [] ∧ ¬ s.UplinkComplete := by
  decide

end ClientStream
end Csqtt
