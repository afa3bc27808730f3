import Csqtt.ProxyFrame

/-!
# The client side of a proxied stream

`open_tunnel` and the loop of `handle_client`. A turn is the carrier switch at the head of the loop
or one `select!`; the environment says which branch won, what the sockets returned, which frames
were queued and what the clock showed. The counter of stream ids never wraps here. `callerRead` and
`carried` are logs no code reads.
-/

namespace Csqtt

def dataHolePatience : ℕ := 6000
def dataQuietTimeout : ℕ := 60000
def resendInterval : ℕ := 500
def firstDataTimeout : ℕ := 2500
def openAttempts : ℕ := 4
def unprovenUplinkCap : ℕ := 16 * 1024

inductive Inbound
  | opened
  | error (code : UInt8)
  | data (payload : Bytes)
  | closed
  deriving DecidableEq

def Frame.inbound (frame : Frame) : Option Inbound :=
  if frame.kind = kindOpenOk then some .opened
  else if frame.kind = kindOpenErr then some (.error (frame.payload.head?.getD 1))
  else if frame.kind = kindData ∧ frame.payload.length ≤ maxData + 8 then
    some (.data frame.payload)
  else if frame.kind = kindClose then some .closed
  else none

theorem Frame.inbound_data {f : Frame} {payload : Bytes} (h : f.inbound = some (.data payload)) :
    f.kind = kindData ∧ f.payload = payload := by
  unfold Frame.inbound at h
  split_ifs at h with hok he hd hc
  · cases h
  · cases h
  · cases h
    exact ⟨hd.1, rfl⟩
  · cases h

def bytesOf (text : List Char) : Bytes := text.map (fun c => UInt8.ofNat c.toNat)

def idempotentMethods : List Bytes :=
  [bytesOf ['G', 'E', 'T', ' '], bytesOf ['H', 'E', 'A', 'D', ' '],
    bytesOf ['O', 'P', 'T', 'I', 'O', 'N', 'S', ' '], bytesOf ['T', 'R', 'A', 'C', 'E', ' ']]

def replayable (parked : Bytes) : Bool :=
  parked.isEmpty || idempotentMethods.any (fun method => method.isPrefixOf parked)

inductive ClientError
  | noCarrierConfirmed
  | noCarrierDelivered
  | noCarrierLeft
  | nonIdempotentRequest
  | uplinkCap
  | stalled
  | sequence (e : SequenceError)
  | sendFailed
  | readFailed
  | writeFailed
  deriving DecidableEq

/-- How the loop was left: by one of its `break`s, or with an error. -/
inductive Ending
  | cancelled
  | callerClosed
  | inboundEnded
  | failed (e : ClientError)
  deriving DecidableEq

/-- What `handle_client` returns. -/
def Ending.result : Ending → Except ClientError Unit
  | .cancelled => .ok ()
  | .callerClosed => .ok ()
  | .inboundEnded => .ok ()
  | .failed e => .error e

/-- A DATA frame in terms of the caller's bytes. -/
structure Carried where
  streamId : ℕ
  start : ℕ
  length : ℕ
  deriving DecidableEq

def Carried.stop (c : Carried) : ℕ := c.start + c.length

/-- One round of `open_tunnel`: the ids other connections drew before it, whether OPEN and CLOSE
were queued, and what came before the deadline. -/
structure Attempt where
  others : ℕ := 0
  openQueued : Bool := true
  answer : Option Inbound := some .opened
  closeQueued : Bool := true

def Attempt.confirms (a : Attempt) : Bool := a.openQueued && a.answer == some .opened

def Attempt.lastError (a : Attempt) (last : UInt8) : UInt8 :=
  match a.openQueued, a.answer with
  | true, some (.error code) => if code = 0 then 1 else code
  | _, _ => last

/-- The loop of `open_tunnel`; the list ends when the budget does. -/
def openTunnel (target : Bytes) :
    List Attempt → ℕ → UInt8 → ℕ × List Frame → (ℕ × List Frame) × Except UInt8 ℕ
  | [], _, lastError, io => (io, .error lastError)
  | a :: rest, attempt, lastError, (ids, outbox) =>
    if openAttempts ≤ attempt then ((ids, outbox), .error lastError)
    else
      let id := max (ids + a.others) 1
      let opened := outbox ++ queue a.openQueued ⟨kindOpen, id, target⟩
      if a.confirms then ((ids + a.others + 1, opened), .ok id)
      else
        openTunnel target rest (attempt + 1) (a.lastError lastError)
          (ids + a.others + 1, opened ++ queue a.closeQueued ⟨kindClose, id, []⟩)

/-- The counter only grows, a confirmed id is fresh, and no round sends stream bytes. -/
theorem openTunnel_spec (target : Bytes) (attempts : List Attempt) (attempt : ℕ)
    (lastError : UInt8) (ids : ℕ) (outbox : List Frame) {ids' : ℕ} {outbox' : List Frame}
    {result : Except UInt8 ℕ}
    (h : openTunnel target attempts attempt lastError (ids, outbox) = ((ids', outbox'), result)) :
    ids ≤ ids' ∧ (∃ frames, outbox' = outbox ++ frames ∧
        ∀ f ∈ frames, f.kind ≠ kindData ∧ (0 < ids → f.streamId < ids')) ∧
      ∀ id, result = .ok id → ids ≤ id ∧ (0 < ids → id < ids') := by
  induction attempts generalizing attempt lastError ids outbox with
  | nil =>
    cases h
    exact ⟨le_rfl, ⟨[], by simp, by simp⟩, by simp⟩
  | cons a _ ih =>
    rw [openTunnel] at h
    generalize hid : max (ids + a.others) 1 = id at h
    split_ifs at h with hmax hconflict
    · cases h
      exact ⟨le_rfl, ⟨[], by simp, by simp⟩, by simp⟩
    · cases h
      refine ⟨by omega, ⟨_, rfl, fun f hf => ?_⟩, fun id h => ?_⟩
      · rw [mem_queue hf]
        exact ⟨kindOpen_ne_kindData, fun _ => by change id < _; omega⟩
      · cases h
        exact ⟨by omega, fun _ => by omega⟩
    · obtain ⟨hle, ⟨frames, hf, hframe⟩, hok⟩ := ih _ _ _ _ h
      rw [List.append_assoc, List.append_assoc] at hf
      refine ⟨by omega, ⟨_, hf, fun f hf => ?_⟩, fun id h => ?_⟩
      · rw [List.mem_append, List.mem_append] at hf
        obtain hf | hf | hf := hf
        · rw [mem_queue hf]
          exact ⟨kindOpen_ne_kindData, fun _ => by change id < _; omega⟩
        · rw [mem_queue hf]
          exact ⟨kindClose_ne_kindData, fun _ => by change id < _; omega⟩
        · exact ⟨(hframe f hf).1, fun _ => (hframe f hf).2 (by omega)⟩
      · have := hok id h
        exact ⟨by omega, fun _ => this.2 (by omega)⟩

structure ClientStream where
  target : Bytes
  ids : ℕ := 1
  outbox : List Frame := []
  streamId : ℕ := 0
  generations : ℕ := 0
  sent : StreamSequence := {}
  received : ReorderReceiver := .new
  unprovenUp : Bytes := []
  proven : Bool := false
  proofDeadline : ℕ := 0
  holeDeadline : Option ℕ := none
  lastDownActivity : ℕ := 0
  lastResend : Option ℕ := none
  switch : Bool := false
  downFrames : ℕ := 0
  downBytes : ℕ := 0
  resends : ℕ := 0
  ending : Option Ending := none
  released : Bool := false
  reply : Bytes := []
  written : Bytes := []
  callerRead : Bytes := []
  carried : List Carried := []

def replyBytes (code : UInt8) : Bytes := [5, code, 0, 1, 0, 0, 0, 0, 0, 0]

namespace ClientStream

def fail (s : ClientStream) (e : ClientError) : ClientStream :=
  { s with ending := some (.failed e) }

/-- A tunnel that `open_tunnel` has just opened, with nothing sent or received on it. -/
def adopt (s : ClientStream) (io : ℕ × List Frame) (id now : ℕ) : ClientStream :=
  { s with
    ids := io.1
    outbox := io.2
    generations := s.generations + 1
    streamId := id
    sent := {}
    received := .new
    holeDeadline := none
    lastResend := none
    lastDownActivity := now
    proofDeadline := now + firstDataTimeout }

/-- `handle_client` up to its loop, for a handshake that named `target`; the counter starts at 1
and `drawn` ids have been drawn before. -/
def connect (target : Bytes) (drawn : ℕ) (attempts : List Attempt) (replied : Bool) (now : ℕ) :
    ClientStream :=
  match openTunnel target attempts 0 4 (drawn + 1, []) with
  | (io, .error code) =>
    { target, ids := io.1, outbox := io.2, reply := if replied then replyBytes code else []
      ending := some (.failed .noCarrierConfirmed) }
  | (io, .ok id) =>
    if replied then { adopt { target } io id now with reply := replyBytes 0 }
    else (adopt { target } io id now).fail .writeFailed

/-- A DATA frame with the next chunk, which stands at `start` in the caller's bytes. -/
def sendData (s : ClientStream) (start : ℕ) (chunk : Bytes) (queued : Bool) : ClientStream :=
  match s.sent.encode chunk with
  | .error e => s.fail (.sequence e)
  | .ok (sent, payload) =>
    if queued then
      { s with
        sent
        outbox := s.outbox ++ [⟨kindData, s.streamId, payload⟩]
        carried := s.carried ++ [⟨s.streamId, start, chunk.length⟩] }
    else { s with sent, ending := some (.failed .sendFailed) }

/-- The replay loop; every round takes at least one byte, so the number of bytes is enough fuel.
`failing` counts down to the send that fails. -/
def replayLoop : ℕ → ClientStream → Bytes → Option ℕ → ClientStream
  | 0, s, _, _ => s
  | fuel + 1, s, replay, failing =>
    if replay.isEmpty then s
    else
      let s' := s.sendData (s.callerRead.length - replay.length) (replay.take maxData)
        (failing != some 0)
      if s'.ending.isSome then s'
      else replayLoop fuel s' (replay.drop maxData) (failing.map (· - 1))

/-- The head of the loop with `switch` set. -/
def switchCarrier (s : ClientStream) (attempts : List Attempt) (closeQueued : Bool)
    (failing : Option ℕ) (now : ℕ) : ClientStream :=
  let s := { s with switch := false }
  if openAttempts ≤ s.generations then s.fail .noCarrierDelivered
  else
    let closed := s.outbox ++ queue closeQueued ⟨kindClose, s.streamId, []⟩
    match openTunnel s.target attempts 0 4 (s.ids, closed) with
    | (io, .error _) => { s with ids := io.1, outbox := io.2 }.fail .noCarrierLeft
    | (io, .ok id) =>
      let s := s.adopt io id now
      if replayable s.unprovenUp then
        replayLoop s.unprovenUp.length { s with unprovenUp := [] } s.unprovenUp failing
      else s.fail .nonIdempotentRequest

def resendDue (s : ClientStream) (now : ℕ) : Bool :=
  match s.lastResend with
  | none => true
  | some last => resendInterval ≤ now - last

/-- The head of the loop without `switch`: the hole deadline and the RESEND request. -/
def pollHole (s : ClientStream) (now : ℕ) (resendQueued : Bool) : ClientStream :=
  match s.received.missingOffset with
  | none => { s with holeDeadline := none }
  | some offset =>
    if s.resendDue now && resendQueued then
      { s with
        outbox := s.outbox ++ [⟨kindResend, s.streamId, BigEndian.encode 8 offset⟩]
        resends := s.resends + 1
        lastResend := some now
        holeDeadline := some (now + dataHolePatience) }
    else { s with holeDeadline := some (s.holeDeadline.getD (now + dataHolePatience)) }

def due (s : ClientStream) : ℕ :=
  let quietDue := if s.proven then s.lastDownActivity + dataQuietTimeout else s.proofDeadline
  match s.holeDeadline with
  | some holeDue => min quietDue holeDue
  | none => quietDue

def heard (s : ClientStream) (bytes : Bytes) : ClientStream :=
  { s with callerRead := s.callerRead ++ bytes }

/-- The read branch: the socket had `available` bytes ready, none at the end of the stream. -/
def onRead (s : ClientStream) (available : Bytes) (queued : Bool) : ClientStream :=
  let bytes := available.take maxData
  if bytes.isEmpty then { s with ending := some .callerClosed }
  else
    let s' := (s.heard bytes).sendData s.callerRead.length bytes queued
    if s'.ending.isSome || s'.proven then s'
    else
      let parked := { s' with unprovenUp := s'.unprovenUp ++ bytes }
      if unprovenUplinkCap < parked.unprovenUp.length then parked.fail .uplinkCap else parked

/-- The first payload on this carrier proves it. -/
def prove (s : ClientStream) (now : ℕ) : ClientStream :=
  if s.proven then { s with lastDownActivity := now }
  else
    { s with
      lastDownActivity := now
      proven := true
      unprovenUp := []
      holeDeadline := none
      lastResend := none }

/-- The inbound branch. A failed `write_all` has written some of the bytes, `failedWrite` many. -/
def onInbound (s : ClientStream) (event : Option Inbound) (failedWrite : Option ℕ) (now : ℕ) :
    ClientStream :=
  match event with
  | some (.data payload) =>
    let s := s.prove now
    match s.received.push payload with
    | (received, .error e) => { s with received }.fail (.sequence e)
    | (received, .ok none) => { s with received }
    | (received, .ok (some decoded)) =>
      let s := { s with
        received
        downFrames := s.downFrames + 1
        downBytes := s.downBytes + decoded.length }
      match failedWrite with
      | none => { s with written := s.written ++ decoded }
      | some n => { s with written := s.written ++ decoded.take n }.fail .writeFailed
  | some .opened => s
  | some (.error _) | some .closed | none => { s with ending := some .inboundEnded }

def onStall (s : ClientStream) : ClientStream :=
  if s.proven then s.fail .stalled else { s with switch := true }

end ClientStream

/-- The branch that wins a `select!`. -/
inductive Branch
  | cancelled
  | readFailed
  | read (available : Bytes) (queued : Bool)
  | inbound (event : Option Inbound) (failedWrite : Option ℕ)
  | stall

inductive Turn
  | switchCarrier (attempts : List Attempt) (closeQueued : Bool) (failing : Option ℕ) (now : ℕ)
  | select (now : ℕ) (resendQueued : Bool) (later : ℕ) (branch : Branch)
  | release (closeQueued : Bool)

namespace ClientStream

def enabled (s : ClientStream) (later : ℕ) : Branch → Bool
  | .stall => s.due ≤ later
  | _ => true

def select (s : ClientStream) (later : ℕ) : Branch → ClientStream
  | .cancelled => { s with ending := some .cancelled }
  | .readFailed => s.fail .readFailed
  | .read available queued => s.onRead available queued
  | .inbound event failedWrite => s.onInbound event failedWrite later
  | .stall => s.onStall

/-- The code after the loop. -/
def release (s : ClientStream) (closeQueued : Bool) : ClientStream :=
  { s with
    released := true
    outbox := s.outbox ++ queue closeQueued ⟨kindClose, s.streamId, []⟩ }

/-- One turn. A turn the loop cannot take in its present state changes nothing. -/
def step (s : ClientStream) : Turn → ClientStream
  | .switchCarrier attempts closeQueued failing now =>
    if s.ending.isNone && s.switch then s.switchCarrier attempts closeQueued failing now else s
  | .select now resendQueued later branch =>
    if s.ending.isNone && !s.switch && (s.pollHole now resendQueued).enabled later branch then
      (s.pollHole now resendQueued).select later branch
    else s
  | .release closeQueued =>
    if s.ending.isSome && !s.released then s.release closeQueued else s

end ClientStream
end Csqtt
