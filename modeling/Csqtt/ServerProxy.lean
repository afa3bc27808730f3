import Csqtt.ProxyFrame

/-!
# The server side of a proxied stream

The loop of `run_stream`. As on the client's side, a turn is one `select!` with the branch that won
and what the environment answered. `outTail` keeps the end of what was read from the target, for
RESEND requests. `targetRead` is a log no code reads: everything read from the target.
-/

namespace Csqtt

def resendBufferBytes : ℕ := 128 * 1024

def resendMaxFrames : ℕ := 128

inductive StreamInput
  | data (payload : Bytes)
  | resend (offset : ℕ)
  | close
  deriving DecidableEq

/-- The last `bound` bytes, or all of them. -/
def keepLast (bound : ℕ) (bytes : Bytes) : Bytes :=
  if bound < bytes.length then bytes.drop (bytes.length - bound) else bytes

/-- Where the resend tail has the byte at `offset`, if it still has it. -/
def resendRange (outTailLen outTotal offset : ℕ) : Option ℕ :=
  let oldest := outTotal - outTailLen
  if offset < oldest ∨ outTotal ≤ offset then none
  else if outTailLen < offset - oldest then none
  else some (offset - oldest)

inductive ServerError
  | connectFailed
  | sequence (e : SequenceError)
  | sendFailed
  | readFailed
  | writeFailed
  | stalled
  deriving DecidableEq

/-- How the loop was left. -/
inductive ServerEnding
  | targetClosed
  | inputEnded
  | failed (e : ServerError)
  deriving DecidableEq

def dataFrame (id offset : ℕ) (chunk : Bytes) : Frame :=
  ⟨kindData, id, StreamSequence.encodeAt offset chunk⟩

structure ServerStream where
  streamId : ℕ
  sent : StreamSequence := {}
  received : ReorderReceiver := .new
  outTail : Bytes := []
  holeDeadline : Option ℕ := none
  lastActivity : ℕ := 0
  ending : Option ServerEnding := none
  released : Bool := false
  outbox : List Frame := []
  targetWritten : Bytes := []
  targetRead : Bytes := []

/-- The branch that wins a `select!`. `failing` is the number of bytes a failed write has written,
or the number of frames before the send that fails. -/
inductive ServerBranch
  | readFailed
  | read (available : Bytes) (queued : Bool)
  | input (command : Option StreamInput) (failing : Option ℕ)
  | stall

inductive ServerTurn
  | select (now later : ℕ) (branch : ServerBranch)
  | release (errorQueued closeQueued : Bool)

namespace ServerStream

def dataHolePatience : ℕ := 6000

def dataQuietTimeout : ℕ := 60000

def fail (s : ServerStream) (e : ServerError) : ServerStream :=
  { s with ending := some (.failed e) }

/-- `run_stream` up to its loop. -/
def start (streamId now : ℕ) (connected okQueued : Bool) : ServerStream :=
  let s : ServerStream := { streamId, lastActivity := now }
  if !connected then s.fail .connectFailed
  else if okQueued then { s with outbox := [⟨kindOpenOk, streamId, []⟩] }
  else s.fail .sendFailed

def pollHole (s : ServerStream) (now : ℕ) : ServerStream :=
  if s.received.isWaiting then
    { s with holeDeadline := some (s.holeDeadline.getD (now + dataHolePatience)) }
  else { s with holeDeadline := none }

def due (s : ServerStream) : ℕ :=
  match s.holeDeadline with
  | some holeDue => min (s.lastActivity + dataQuietTimeout) holeDue
  | none => s.lastActivity + dataQuietTimeout

/-- The bytes of a read go to the tail, which is then cut to its bound. -/
def heard (s : ServerStream) (bytes : Bytes) (now : ℕ) : ServerStream :=
  { s with
    lastActivity := now
    outTail := keepLast resendBufferBytes (s.outTail ++ bytes)
    targetRead := s.targetRead ++ bytes }

def sendData (s : ServerStream) (bytes : Bytes) (queued : Bool) : ServerStream :=
  match s.sent.encode bytes with
  | .error e => s.fail (.sequence e)
  | .ok (sent, payload) =>
    if queued then { s with sent, outbox := s.outbox ++ [⟨kindData, s.streamId, payload⟩] }
    else { s with sent, ending := some (.failed .sendFailed) }

def onRead (s : ServerStream) (available : Bytes) (queued : Bool) (now : ℕ) : ServerStream :=
  let bytes := available.take maxData
  if bytes.isEmpty then { s with ending := some .targetClosed }
  else (s.heard bytes now).sendData bytes queued

def onData (s : ServerStream) (payload : Bytes) (failing : Option ℕ) (now : ℕ) : ServerStream :=
  let s := { s with lastActivity := now }
  match s.received.push payload with
  | (received, .error e) => { s with received }.fail (.sequence e)
  | (received, .ok none) => { s with received }
  | (received, .ok (some decoded)) =>
    match failing with
    | none => { s with received, targetWritten := s.targetWritten ++ decoded }
    | some n =>
      { s with received, targetWritten := s.targetWritten ++ decoded.take n }.fail .writeFailed

/-- The replay of a suffix; the fuel is the cap on the frames of one request. -/
def resendLoop : ℕ → ServerStream → ℕ → Bytes → Option ℕ → ServerStream
  | 0, s, _, _, _ => s
  | frames + 1, s, cursor, slice, failing =>
    if slice.isEmpty then s
    else if failing = some 0 then s.fail .sendFailed
    else
      let chunk := slice.take maxData
      resendLoop frames
        { s with outbox := s.outbox ++ [dataFrame s.streamId cursor chunk] }
        (cursor + chunk.length) (slice.drop maxData) (failing.map (· - 1))

def onResend (s : ServerStream) (offset : ℕ) (failing : Option ℕ) (now : ℕ) : ServerStream :=
  match resendRange s.outTail.length s.sent.offset offset with
  | none => s
  | some start =>
    let s' := resendLoop resendMaxFrames s offset (s.outTail.drop start) failing
    if s'.ending.isSome then s' else { s' with lastActivity := now }

def onInput (s : ServerStream) (command : Option StreamInput) (failing : Option ℕ) (now : ℕ) :
    ServerStream :=
  match command with
  | some (.data payload) => s.onData payload failing now
  | some (.resend offset) => s.onResend offset failing now
  | some .close | none => { s with ending := some .inputEnded }

def enabled (s : ServerStream) (later : ℕ) : ServerBranch → Bool
  | .stall => s.due ≤ later
  | _ => true

def select (s : ServerStream) (later : ℕ) : ServerBranch → ServerStream
  | .readFailed => s.fail .readFailed
  | .read available queued => s.onRead available queued later
  | .input command failing => s.onInput command failing later
  | .stall => s.fail .stalled

def failed (s : ServerStream) : Bool :=
  match s.ending with
  | some (.failed _) => true
  | _ => false

/-- The code after the loop. -/
def release (s : ServerStream) (errorQueued closeQueued : Bool) : ServerStream :=
  { s with
    released := true
    outbox := s.outbox ++ queue (s.failed && errorQueued) ⟨kindOpenErr, s.streamId, [5]⟩ ++
      queue closeQueued ⟨kindClose, s.streamId, []⟩ }

/-- One turn. A turn the loop cannot take in its present state changes nothing. -/
def step (s : ServerStream) : ServerTurn → ServerStream
  | .select now later branch =>
    if s.ending.isNone && (s.pollHole now).enabled later branch then
      (s.pollHole now).select later branch
    else s
  | .release errorQueued closeQueued =>
    if s.ending.isSome && !s.released then s.release errorQueued closeQueued else s

theorem step_cases (s : ServerStream) (turn : ServerTurn) :
    s.step turn = s ∨
    (∃ now later branch, s.ending = none ∧ turn = .select now later branch ∧
      s.step turn = (s.pollHole now).select later branch) ∨
    (∃ errorQueued closeQueued, s.ending.isSome ∧
      s.step turn = s.release errorQueued closeQueued) := by
  cases turn with
  | select now later branch =>
    simp only [step]
    split_ifs with h
    · simp only [Bool.and_eq_true, Option.isNone_iff_eq_none] at h
      exact .inr (.inl ⟨now, later, branch, h.1, rfl, rfl⟩)
    · exact .inl rfl
  | release errorQueued closeQueued =>
    simp only [step]
    split_ifs with h
    · rw [Bool.and_eq_true] at h
      exact .inr (.inr ⟨errorQueued, closeQueued, h.1, rfl⟩)
    · exact .inl rfl

theorem pollHole_cases (s : ServerStream) (now : ℕ) :
    ∃ holeDeadline, s.pollHole now = { s with holeDeadline } := by
  by_cases hw : s.received.isWaiting = true
  · exact ⟨_, if_pos hw⟩
  · exact ⟨none, if_neg hw⟩

theorem sendData_queued (s : ServerStream) {bytes : Bytes}
    (hf : s.sent.offset + bytes.length < 2 ^ 64) :
    s.sendData bytes true =
      { s with
        sent := ⟨s.sent.offset + bytes.length⟩
        outbox := s.outbox ++ [dataFrame s.streamId s.sent.offset bytes] } := by
  unfold sendData StreamSequence.encode StreamSequence.advance
  rw [if_pos hf]
  rfl

theorem sendData_cases (s : ServerStream) (bytes : Bytes) (queued : Bool) :
    (∃ sent e, s.sendData bytes queued = { s with sent }.fail e) ∨
    (s.sent.offset + bytes.length < 2 ^ 64 ∧
      s.sendData bytes queued =
        { s with
          sent := ⟨s.sent.offset + bytes.length⟩
          outbox := s.outbox ++ [dataFrame s.streamId s.sent.offset bytes] }) := by
  by_cases hf : s.sent.offset + bytes.length < 2 ^ 64
  · cases queued with
    | true => exact .inr ⟨hf, s.sendData_queued hf⟩
    | false =>
      unfold sendData StreamSequence.encode StreamSequence.advance
      rw [if_pos hf]
      exact .inl ⟨⟨s.sent.offset + bytes.length⟩, .sendFailed, rfl⟩
  · unfold sendData StreamSequence.encode StreamSequence.advance
    rw [if_neg hf]
    exact .inl ⟨s.sent, .sequence .offsetOverflow, rfl⟩

theorem onRead_cases (s : ServerStream) (available : Bytes) (queued : Bool) (now : ℕ) :
    s.onRead available queued now = { s with ending := some .targetClosed } ∨
    ∃ bytes, bytes ≠ [] ∧ bytes.length ≤ maxData ∧
      s.onRead available queued now = (s.heard bytes now).sendData bytes queued := by
  by_cases hb : (available.take maxData).isEmpty = true
  · exact .inl (if_pos hb)
  · exact .inr ⟨available.take maxData, by simpa using hb, List.length_take_le _ _, if_neg hb⟩

theorem onData_cases (s : ServerStream) (hs : s.ending = none) (payload : Bytes)
    (failing : Option ℕ) (now : ℕ) :
    ∃ output ending,
      (ending = none → output = ReorderReceiver.forwarded (s.received.push payload).2) ∧
      s.onData payload failing now =
        { s with
          lastActivity := now
          received := s.received.pushed payload
          targetWritten := s.targetWritten ++ output
          ending } := by
  rw [ReorderReceiver.pushed_eq, onData]
  generalize s.received.push payload = result
  obtain ⟨received, e | none | decoded⟩ := result
  · exact ⟨[], some (.failed (.sequence e)), by simp, by rw [List.append_nil]; rfl⟩
  · exact ⟨[], none, fun _ => rfl, by rw [List.append_nil, ← hs]⟩
  · cases failing with
    | none => exact ⟨decoded, none, fun _ => rfl, by rw [← hs]⟩
    | some n => exact ⟨decoded.take n, some (.failed .writeFailed), by simp, rfl⟩

variable {s : ServerStream}

section

variable (hs : s.ending = none)
include hs

theorem step_select (now later : ℕ) (branch : ServerBranch)
    (hb : ∀ s : ServerStream, s.enabled later branch = true) :
    ∃ holeDeadline,
      s.step (.select now later branch) = select { s with holeDeadline } later branch := by
  obtain ⟨holeDeadline, hp⟩ := s.pollHole_cases now
  refine ⟨holeDeadline, ?_⟩
  rw [step, if_pos (by rw [hb, hs]; rfl), hp]

theorem step_read {available : Bytes} (hne : available ≠ [])
    (hf : s.sent.offset + (available.take maxData).length < 2 ^ 64) (now later : ℕ) :
    ∃ holeDeadline,
      s.step (.select now later (.read available true)) =
        { s with
          holeDeadline
          lastActivity := later
          outTail := keepLast resendBufferBytes (s.outTail ++ available.take maxData)
          targetRead := s.targetRead ++ available.take maxData
          sent := ⟨s.sent.offset + (available.take maxData).length⟩
          outbox := s.outbox ++
            [dataFrame s.streamId s.sent.offset (available.take maxData)] } := by
  obtain ⟨holeDeadline, he⟩ := step_select hs now later (.read available true)
    (fun _ => rfl)
  refine ⟨holeDeadline, ?_⟩
  have hempty : ¬ (available.take maxData).isEmpty = true := by simpa [maxData] using hne
  rw [he, select, onRead, if_neg hempty]
  exact sendData_queued (heard { s with holeDeadline } (available.take maxData) later) hf

theorem step_data {payload : Bytes} (hok : (s.received.push payload).2.isOk) (now later : ℕ) :
    ∃ holeDeadline,
      s.step (.select now later (.input (some (.data payload)) none)) =
        { s with
          holeDeadline
          lastActivity := later
          received := s.received.pushed payload
          targetWritten := s.targetWritten ++
            ReorderReceiver.forwarded (s.received.push payload).2 } := by
  obtain ⟨holeDeadline, he⟩ := step_select hs now later
    (.input (some (.data payload)) none) (fun _ => rfl)
  refine ⟨holeDeadline, ?_⟩
  rw [he, select, onInput, onData, ReorderReceiver.pushed_eq]
  generalize s.received.push payload = result at hok
  obtain ⟨received, e | none | decoded⟩ := result
  · cases hok
  · simp only [ReorderReceiver.forwarded, List.append_nil]
  · rfl

theorem step_close (now later : ℕ) (failing : Option ℕ) :
    ∃ holeDeadline,
      s.step (.select now later (.input (some .close) failing)) =
        { s with holeDeadline, ending := some .inputEnded } :=
  step_select hs now later (.input (some .close) failing) (fun _ => rfl)

end

theorem step_of_ended (hs : s.ending.isSome) (turn : ServerTurn) :
    (s.step turn).ending = s.ending ∧ (s.step turn).targetWritten = s.targetWritten := by
  obtain he | ⟨_, _, _, hn, _⟩ | ⟨_, _, _, he⟩ := s.step_cases turn
  · rw [he]
    exact ⟨rfl, rfl⟩
  · rw [hn] at hs
    cases hs
  · rw [he]
    exact ⟨rfl, rfl⟩

theorem running_of_step {turn : ServerTurn} (h : (s.step turn).ending = none) :
    s.ending = none := by
  obtain he | ⟨_, _, _, hs, _⟩ | ⟨_, _, _, he⟩ := s.step_cases turn
  · rwa [he] at h
  · exact hs
  · rwa [he] at h

end ServerStream
end Csqtt
