import Csqtt.ClientLog

/-!
# Which requests are sent twice

`replayable` looks at the method at the start of the parked bytes only. So a request that must not
be repeated is sent once in every run whose switches find no such request behind the first one
parked; a pipelined POST behind a GET is sent twice.
-/

namespace Csqtt

open Reassembly

structure HttpRequest where
  method : Bytes
  rest : Bytes
  token : 0x20 ∉ method

namespace HttpRequest

def bytes (r : HttpRequest) : Bytes := r.method ++ [0x20] ++ r.rest

def Idempotent (r : HttpRequest) : Prop :=
  r.method ∈ [bytesOf ['G', 'E', 'T'], bytesOf ['H', 'E', 'A', 'D'],
    bytesOf ['O', 'P', 'T', 'I', 'O', 'N', 'S'], bytesOf ['T', 'R', 'A', 'C', 'E']]

instance (r : HttpRequest) : Decidable r.Idempotent := by
  unfold Idempotent
  infer_instance

end HttpRequest

def requestStream (requests : List HttpRequest) : Bytes :=
  (requests.map HttpRequest.bytes).flatten

/-- The request `r` begins at offset `o` of the stream. -/
def Placed (requests : List HttpRequest) (o : ℕ) (r : HttpRequest) : Prop :=
  (o, r.bytes) ∈ pieces 0 (requests.map HttpRequest.bytes)

instance (requests : List HttpRequest) (o : ℕ) (r : HttpRequest) :
    Decidable (Placed requests o r) := by
  unfold Placed
  infer_instance

theorem takeWhile_token {method l : Bytes} (ht : 0x20 ∉ method)
    (h : method ++ [0x20] <+: l) : l.takeWhile (· != 0x20) = method := by
  obtain ⟨rest, rfl⟩ := h
  have ha : ∀ b ∈ method, (b != 0x20) = true := by
    intro b hb
    rw [bne_iff_ne]
    intro he
    exact ht (he ▸ hb)
  rw [List.append_assoc, List.takeWhile_append_of_pos ha]
  simp

theorem idempotentMethods_token {m : Bytes} (hm : m ∈ idempotentMethods) :
    ∃ method, m = method ++ [0x20] ∧ 0x20 ∉ method ∧
      method ∈ [bytesOf ['G', 'E', 'T'], bytesOf ['H', 'E', 'A', 'D'],
        bytesOf ['O', 'P', 'T', 'I', 'O', 'N', 'S'], bytesOf ['T', 'R', 'A', 'C', 'E']] := by
  have ha : ∀ m ∈ idempotentMethods, m = m.dropLast ++ [0x20] ∧ 0x20 ∉ m.dropLast ∧
      m.dropLast ∈ [bytesOf ['G', 'E', 'T'], bytesOf ['H', 'E', 'A', 'D'],
        bytesOf ['O', 'P', 'T', 'I', 'O', 'N', 'S'], bytesOf ['T', 'R', 'A', 'C', 'E']] := by
    decide
  exact ⟨m.dropLast, ha m hm⟩

/-- `replayable` accepts parked bytes only if the request they begin with is idempotent. -/
theorem idempotent_of_replayable {parked l : Bytes} (hr : replayable parked = true)
    (hne : parked ≠ []) (hl : parked <+: l) {r : HttpRequest} (hb : r.bytes <+: l) :
    r.Idempotent := by
  rw [replayable, Bool.or_eq_true, List.any_eq_true] at hr
  obtain hr | ⟨m, hm, hp⟩ := hr
  · exact absurd (List.isEmpty_iff.mp hr) hne
  · obtain ⟨method, rfl, ht, hmem⟩ := idempotentMethods_token hm
    have hpark := takeWhile_token ht ((List.isPrefixOf_iff_prefix.mp hp).trans hl)
    have hreq := takeWhile_token r.token ((List.prefix_append _ r.rest).trans hb)
    rw [HttpRequest.Idempotent, ← hreq, hpark]
    exact hmem

/-- Every request that begins before offset `n` is idempotent. -/
def IdempotentBefore (requests : List HttpRequest) (n : ℕ) : Prop :=
  ∀ o r, Placed requests o r → o < n → r.Idempotent

def Carried.Has (c : Carried) (i : ℕ) : Prop := c.start ≤ i ∧ i < c.stop

namespace ClientStream

variable {requests : List HttpRequest}

/-- No byte of a request that is not idempotent is carried under two stream ids. -/
def NeverResent (requests : List HttpRequest) (s : ClientStream) : Prop :=
  ∀ o r, Placed requests o r → ¬ r.Idempotent →
    ∀ a ∈ s.carried, ∀ b ∈ s.carried, a.streamId ≠ b.streamId →
      ∀ i, o ≤ i → i < o + r.bytes.length → a.Has i → ¬ b.Has i

/-- A switch finds no request that is not idempotent behind the first parked byte. -/
def ParkedIdempotent (requests : List HttpRequest) (s : ClientStream) (_ : Turn) : Prop :=
  s.ending = none → s.switch = true → ∀ o r, Placed requests o r →
    s.callerRead.length - s.unprovenUp.length < o → o < s.callerRead.length → r.Idempotent

variable {s : ClientStream}

theorem neverResent_of_idempotentBefore (h : s.Logged)
    (hid : IdempotentBefore requests s.callerRead.length) : s.NeverResent requests := by
  intro o r hr hn a ha b _ _ i hoi _ hi _
  have hs := h.bounded a ha
  exact hn (hid o r hr (by have := hi.2; omega))

theorem NeverResent.carry (h : s.NeverResent requests) (hl : s.Logged) (bytes : Bytes) :
    ((s.heard bytes).carry s.callerRead.length bytes).NeverResent requests := by
  intro o r hr hn a ha b hb hne i hoi hio hai hbi
  rw [ClientStream.carry, List.mem_append, List.mem_singleton] at ha hb
  obtain ha | rfl := ha
  · obtain hb | rfl := hb
    · exact h o r hr hn a ha b hb hne i hoi hio hai hbi
    · have := hl.bounded a ha
      have := hai.2
      have : s.callerRead.length ≤ i := hbi.1
      omega
  · obtain hb | rfl := hb
    · have := hl.bounded b hb
      have := hbi.2
      have : s.callerRead.length ≤ i := hai.1
      omega
    · exact hne rfl

structure Replays (requests : List HttpRequest) (s : ClientStream) : Prop where
  logged : s.Logged
  never : s.NeverResent requests
  before : s.ending = none → s.proven = false →
    IdempotentBefore requests (s.callerRead.length - s.unprovenUp.length)

theorem switchCarrier_callerRead (s : ClientStream) (attempts : List Attempt)
    (closeQueued : Bool) (failing : Option ℕ) (now : ℕ) :
    (s.switchCarrier attempts closeQueued failing now).callerRead = s.callerRead := by
  obtain ⟨_, _, _, _, _, _, _, _, _, _, _, _, he⟩ | ⟨_, _, _, _, _, _, _, _, he⟩ :=
    s.switchCarrier_cases attempts closeQueued failing now <;> rw [he]
  · rfl
  · obtain ⟨_, _, _, _, hl⟩ := replayLoop_cases s.unprovenUp.length (s.restart _ _ now)
      s.unprovenUp failing
    rw [hl]
    rfl

variable {turn : Turn}

section

variable (h : s.Replays requests)
include h

section

variable (hs : s.ending = none)
include hs

theorem Replays.idempotentBefore (hsw : s.switch = true) (hpark : s.ParkedIdempotent requests turn)
    (hread : s.callerRead <+: requestStream requests) (hr : replayable s.unprovenUp = true) :
    IdempotentBefore requests s.callerRead.length := by
  intro o r hplace ho
  have hp := h.logged.switching hsw
  obtain ⟨before, hb⟩ := h.logged.parked hs hp
  have hl : before.length = s.callerRead.length - s.unprovenUp.length := by
    rw [← hb, List.length_append]
    omega
  obtain hlt | heq | hgt := lt_trichotomy o before.length
  · exact h.before hs hp o r hplace (by omega)
  · have hne : s.unprovenUp ≠ [] := by
      intro hn
      rw [hn, List.length_nil] at hl
      omega
    obtain ⟨rest, hrest⟩ := hread
    have hd : (requestStream requests).drop o = s.unprovenUp ++ rest := by
      rw [← hrest, ← hb, List.append_assoc, heq, List.drop_left]
    have hbytes : r.bytes <+: (requestStream requests).drop o := pieces_within hplace
    rw [hd] at hbytes
    exact idempotent_of_replayable hr hne (List.prefix_append _ _) hbytes
  · exact hpark hs hsw o r hplace (by omega) ho

theorem Replays.switchCarrier (hsw : s.switch = true) (hp : s.ParkedIdempotent requests turn)
    (hread : s.callerRead <+: requestStream requests) (attempts : List Attempt) (closeQueued : Bool)
    (failing : Option ℕ) (now : ℕ) :
    (s.switchCarrier attempts closeQueued failing now).Replays requests := by
  have hl := h.logged.switchCarrier hs hsw attempts closeQueued failing now
  have hc := s.switchCarrier_callerRead attempts closeQueued failing now
  obtain ⟨_, _, _, _, _, _, _, _, _, _, _, _, he⟩ | ⟨_, _, _, _, _, _, _, hr, he⟩ :=
    s.switchCarrier_cases attempts closeQueued failing now
  · rw [he] at hl ⊢
    exact ⟨hl, h.never, fun hn => (by cases hn)⟩
  · have hid := h.idempotentBefore hs hsw hp hread hr
    rw [← hc] at hid
    exact ⟨hl, neverResent_of_idempotentBefore hl hid,
      fun _ _ o r hplace ho => hid o r hplace (by omega)⟩

theorem Replays.onRead (available : Bytes) (queued : Bool) :
    (s.onRead available queued).Replays requests := by
  have hl := h.logged.onRead hs available queued
  obtain he | ⟨bytes, _, ⟨sent, e, he⟩ | ⟨hp, he⟩ | ⟨hp, ending, _, he⟩⟩ :=
    s.onRead_cases hs available queued <;> rw [he] at hl ⊢
  · exact ⟨hl, h.never, fun hn => (by cases hn)⟩
  · exact ⟨hl, h.never, fun hn => (by cases hn)⟩
  · refine ⟨hl, h.never.carry h.logged bytes, fun _ hp' => ?_⟩
    change s.proven = false at hp'
    rw [hp] at hp'
    cases hp'
  · refine ⟨hl, h.never.carry h.logged bytes, fun _ _ o r hplace ho => ?_⟩
    change o < (s.callerRead ++ bytes).length - (s.unprovenUp ++ bytes).length at ho
    rw [List.length_append, List.length_append] at ho
    exact h.before hs hp o r hplace (by omega)

theorem Replays.select (hsw : s.switch = false) (later : ℕ) (branch : Branch) :
    (s.select later branch).Replays requests := by
  have hl := h.logged.select hs hsw later branch
  cases branch with
  | cancelled | readFailed => exact ⟨hl, h.never, fun hn => (by cases hn)⟩
  | read available queued => exact h.onRead hs available queued
  | inbound event failedWrite =>
    simp only [ClientStream.select] at hl ⊢
    obtain he | he | ⟨payload, _, _, _, _, _, _, _, _, _, _, _, he⟩ :=
      s.onInbound_cases hs event failedWrite later <;> rw [he] at hl ⊢
    · exact h
    · exact ⟨hl, h.never, fun hn => (by cases hn)⟩
    · exact ⟨hl, h.never, fun _ hp => (by cases hp)⟩
  | stall =>
    simp only [ClientStream.select, onStall] at hl ⊢
    split_ifs at hl ⊢ with hp
    · exact ⟨hl, h.never, fun hn => (by cases hn)⟩
    · exact ⟨hl, h.never, h.before⟩

end

theorem step_replays (hpark : s.ParkedIdempotent requests turn)
    (hr : s.callerRead <+: requestStream requests) : (s.step turn).Replays requests := by
  have hlogged := step_logged h.logged turn
  obtain he | ⟨attempts, closeQueued, failing, now, hs, hsw, _, he⟩ |
    ⟨now, resendQueued, later, branch, hs, hsw, _, he⟩ | ⟨closeQueued, _, he⟩ :=
    s.step_cases turn <;> rw [he] at hlogged ⊢
  · exact h
  · exact h.switchCarrier hs hsw hpark hr _ _ _ _
  · have hpoll : (s.pollHole now resendQueued).Replays requests := by
      have hl := h.logged.pollHole now resendQueued
      obtain ⟨_, _, _, _, hp, _⟩ := s.pollHole_cases now resendQueued
      rw [hp] at hl ⊢
      exact ⟨hl, h.never, h.before⟩
    exact hpoll.select (by rw [pollHole_ending, hs]) (by rw [pollHole_switch, hsw]) later branch
  · exact ⟨hlogged, h.never, h.before⟩

end

theorem Fresh.replays (h : s.Fresh) : s.Replays requests := by
  refine ⟨h.logged, ?_, fun _ _ o r _ ho => ?_⟩
  · intro o r _ _ a ha
    rw [h.carried] at ha
    cases ha
  · rw [h.callerRead, List.length_nil] at ho
    omega

/-- In a run whose switches find only idempotent requests behind the first parked byte, no byte of
another request is sent on two carriers. The DATA frames are those the log names. -/
theorem never_resent_of_parked_idempotent (requests : List HttpRequest) (target : Bytes)
    (drawn : ℕ) (attempts : List Attempt) (replied : Bool) (now : ℕ) (turns : List Turn)
    (hread : Runs.Always step (fun s => s.callerRead <+: requestStream requests)
      (connect target drawn attempts replied now) turns)
    (hparked : Runs.Along step (ParkedIdempotent requests)
      (connect target drawn attempts replied now) turns) : Runs.Always step
      (fun s => dataSent s.outbox = s.carried.map s.slice ∧ s.NeverResent requests)
      (connect target drawn attempts replied now) turns := by
  have hin := Runs.always_invariant (I := Replays requests)
    (fun s turn h hq => step_replays h hq.1 hq.2)
    (connect_fresh target drawn attempts replied now).replays
    (Runs.along_and.mpr ⟨hparked, Runs.along_of_always hread⟩)
  exact Runs.always_mono (fun s h => ⟨h.logged.frames, h.never⟩) hin

def getRoot : HttpRequest where
  method := bytesOf ['G', 'E', 'T']
  rest := bytesOf ['/', '\r', '\n']
  token := by decide

def postRoot : HttpRequest where
  method := bytesOf ['P', 'O', 'S', 'T']
  rest := bytesOf ['/', '\r', '\n']
  token := by decide

/-- The caller sends everything in one piece; the carrier stays silent and is replaced. -/
def sentThenSwitched (bytes : Bytes) : List Turn :=
  [.select 0 true 0 (.read bytes true), .select 0 true 2500 .stall,
    .switchCarrier [{}] true none 2500]

theorem never_resent_single_get : Runs.Always step
      (fun s => dataSent s.outbox = s.carried.map s.slice ∧ s.NeverResent [getRoot])
      (connect [] 0 [{}] true 0) (sentThenSwitched getRoot.bytes) := by
  apply never_resent_of_parked_idempotent
  · decide
  · apply Runs.along_of_forall
    intro s turn _ _ o r hp ho _
    simp [Placed, pieces] at hp
    omega

/-- Only the GET at the start of the parked bytes is looked at: the POST behind it goes out on the
second carrier again. -/
theorem pipelined_post_is_resent :
    let s := (sentThenSwitched (requestStream [getRoot, postRoot])).foldl step
      (connect [] 0 [{}] true 0)
    s.ending = none ∧ s.callerRead = requestStream [getRoot, postRoot] ∧
      dataSent s.outbox = [(1, s.callerRead), (2, s.callerRead)] ∧
      ¬ s.NeverResent [getRoot, postRoot] := by
  refine ⟨by decide, by decide, by decide, fun h => ?_⟩
  have hp := h 7 postRoot (by decide) (by decide) ⟨1, 0, 15⟩ (by decide) ⟨2, 0, 15⟩ (by decide)
    (by decide) 7 (by decide) (by decide)
  exact hp ⟨by decide, by decide⟩ ⟨by decide, by decide⟩

end ClientStream
end Csqtt
