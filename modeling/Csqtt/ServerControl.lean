import Mathlib.Data.List.Perm.Basic
import Csqtt.Mailbox
import Csqtt.ServerProxy

/-!
# The server's control loop

`control_loop` takes the payloads of a session in their order and spawns a task for each, as long
as it has permits; the tasks run in any order. The state is that of one session with one stream; a
stream whose sender has been given up is not in the table any more.
-/

namespace Csqtt

def controlTaskCapacity : ℕ := 128

def streamCapacity : ℕ := 64

/-- What a turn gets from `input.recv()`, if it waits for it. -/
def ServerTurn.awaited : ServerTurn → Option (Option StreamInput)
  | .select _ _ (.input command _) => some command
  | _ => none

/-- `session` is the flag `has_tunnel` of the session, if the session is there. -/
structure ServerControl where
  session : Option Bool := some true
  inbox : List Bytes := []
  jobs : List Bytes := []
  input : Mailbox StreamInput := {}
  stream : ServerStream

inductive ControlAction
  | spawn
  | run (i : ℕ) (closeQueued : Bool)
  | stream (turn : ServerTurn)

namespace ServerControl

/-- The queue after a DATA frame, and whether it overflowed. -/
def enqueueData (input : Mailbox StreamInput) (data : Bytes) : Mailbox StreamInput × Bool :=
  let after := input.offer streamCapacity (.data data)
  (after, input.linked && !after.linked)

def handleFrame (c : ServerControl) (f : Frame) (closeQueued : Bool) : ServerControl :=
  if f.streamId ≠ c.stream.streamId then c
  else if f.kind = kindData then
    if maxData + 8 < f.payload.length then c
    else
      let (input, overflow) := enqueueData c.input f.payload
      { c with
        input
        stream := { c.stream with
          outbox := c.stream.outbox ++
            queue (overflow && closeQueued) ⟨kindClose, f.streamId, []⟩ } }
  else if f.kind = kindClose then { c with input := c.input.finish streamCapacity .close }
  else if f.kind = kindResend ∧ f.payload.length = 8 then
    { c with input := c.input.offer streamCapacity (.resend (BigEndian.value f.payload)) }
  else c

def processControlPayload (c : ServerControl) (payload : Bytes) (closeQueued : Bool) :
    ServerControl :=
  match c.session, parseFrame payload with
  | some true, some f => c.handleFrame f closeQueued
  | _, _ => c

/-- A turn of the stream that waits for the queue and gets `command` from it. -/
def receive (c : ServerControl) (turn : ServerTurn) (command : Option StreamInput) :
    ServerControl :=
  match c.input.recv with
  | none => c
  | some (received, rest) =>
    if received = command ∧ c.stream.ending = none then
      { c with stream := c.stream.step turn, input := rest }
    else c

def step (c : ServerControl) : ControlAction → ServerControl
  | .spawn =>
    match c.inbox with
    | [] => c
    | payload :: rest =>
      if c.jobs.length < controlTaskCapacity then
        { c with inbox := rest, jobs := c.jobs ++ [payload] }
      else c
  | .run i closeQueued =>
    match c.jobs[i]? with
    | none => c
    | some payload =>
      processControlPayload { c with jobs := c.jobs.eraseIdx i } payload closeQueued
  | .stream turn =>
    match turn.awaited with
    | some command => c.receive turn command
    | none =>
      { c with
        stream := c.stream.step turn
        input := { c.input with linked := c.input.linked && !(c.stream.step turn).released } }

theorem spawn_cases (c : ServerControl) : c.step .spawn = c ∨
      ∃ payload rest, c.inbox = payload :: rest ∧
        c.step .spawn = { c with inbox := rest, jobs := c.jobs ++ [payload] } := by
  rw [step]
  cases hin : c.inbox with
  | nil => exact .inl rfl
  | cons payload rest =>
    split_ifs
    · exact .inr ⟨payload, rest, rfl, rfl⟩
    · exact .inl rfl

section Frames

variable {c : ServerControl} {id : ℕ} (hsession : c.session = some true)
  (hstream : c.stream.streamId = id) (hid : id < 2 ^ 64) (hlinked : c.input.linked = true)
  (hroom : c.input.items.length < streamCapacity) (closeQueued : Bool)
include hsession hstream hid hlinked hroom

theorem processControlPayload_data {payload : Bytes} (hl : payload.length ≤ maxData + 8) :
    c.processControlPayload (encodeFrame ⟨kindData, id, payload⟩) closeQueued =
      { c with input := { c.input with items := c.input.items ++ [.data payload] } } := by
  rw [processControlPayload, hsession, parseFrame_encodeFrame hid]
  dsimp only
  rw [handleFrame, if_neg (by simp [hstream]), if_neg (Nat.not_lt.mpr hl),
    enqueueData, Mailbox.offer_of_room hlinked hroom]
  simp [hlinked, hsession, queue]

theorem processControlPayload_close :
    c.processControlPayload (encodeFrame ⟨kindClose, id, []⟩) closeQueued =
      { c with input := ⟨c.input.items ++ [.close], false⟩ } := by
  rw [processControlPayload, hsession, parseFrame_encodeFrame hid]
  dsimp only
  rw [handleFrame, if_neg (by simp [hstream]), if_neg kindClose_ne_kindData, if_pos rfl,
    Mailbox.finish, Mailbox.offer_of_room hlinked hroom, hsession]

end Frames

theorem handleFrame_stream (c : ServerControl) (f : Frame) (closeQueued : Bool) :
    ∃ outbox, (c.handleFrame f closeQueued).stream = { c.stream with outbox } := by
  unfold handleFrame
  split_ifs <;> exact ⟨_, rfl⟩

theorem step_stream (c : ServerControl) (action : ControlAction) :
    (∃ outbox, (c.step action).stream = { c.stream with outbox }) ∨
      ∃ turn, action = .stream turn ∧ (c.step action).stream = c.stream.step turn := by
  cases action with
  | spawn =>
    obtain he | ⟨_, _, _, he⟩ := c.spawn_cases
    · rw [he]
      exact .inl ⟨_, rfl⟩
    · rw [he]
      exact .inl ⟨_, rfl⟩
  | run i =>
    rw [step]
    cases c.jobs[i]? with
    | none => exact .inl ⟨_, rfl⟩
    | some =>
      dsimp only
      unfold processControlPayload
      split
      · exact .inl (handleFrame_stream _ _ _)
      · exact .inl ⟨_, rfl⟩
  | stream turn =>
    rw [step]
    cases turn.awaited with
    | none => exact .inr ⟨turn, rfl, rfl⟩
    | some =>
      dsimp only
      unfold receive
      split
      · exact .inl ⟨_, rfl⟩
      · split_ifs
        · exact .inr ⟨turn, rfl, rfl⟩
        · exact .inl ⟨_, rfl⟩

theorem mem_jobs_iff {jobs : List Bytes} {i : ℕ} {payload : Bytes}
    (h : jobs[i]? = some payload) (p : Bytes) : p ∈ jobs ↔ p = payload ∨ p ∈ jobs.eraseIdx i := by
  obtain ⟨hi, hg⟩ := List.getElem?_eq_some_iff.mp h
  rw [← (List.getElem_cons_eraseIdx_perm hi).mem_iff, hg, List.mem_cons]

end ServerControl
end Csqtt
