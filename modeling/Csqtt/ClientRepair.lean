import Mathlib.Data.List.Perm.Subperm
import Mathlib.Order.Interval.Finset.Nat
import Csqtt.Runs

/-!
# Repairs of the client's workers

`apply_repair` takes a command for a worker if its sequence is above the last one, by a
compare-and-swap, and then counts a reset and a restart. Any number of calls run at once; every
load, store and increment is a step of its own. The histories are kept beside the slots.
-/

namespace Csqtt

/-- What `parse_stream_command` gives. -/
structure StreamRepairCommand where
  sequence : ℕ
  desiredCount : ℕ
  workerIds : List ℕ
  sequence_lt : sequence < 2 ^ 64
  deriving DecidableEq

structure RepairSlot where
  restartGeneration : ℕ := 0
  credentialGeneration : ℕ := 0
  lastSequence : ℕ := 0
  readySequence : ℕ := 0

/-- Where a call of `apply_repair` is. -/
inductive CallPhase
  | next
  /-- `current` has been read, and is compared and swapped next. -/
  | compare (worker current : ℕ)
  | accepted (worker previous : ℕ)
  | reset (worker : ℕ)
  | restart (worker : ℕ)
  | notify (worker : ℕ)
  deriving DecidableEq

structure RepairCall where
  command : StreamRepairCommand
  remaining : List ℕ
  phase : CallPhase := .next
  deriving DecidableEq

/-- An operation on a slot that others can see. -/
inductive RepairOp
  | accept (worker : ℕ)
  | reset (worker : ℕ)
  | restart (worker : ℕ)
  | notify (worker : ℕ)

/-- Worker 0 has a slot that is never used. -/
def isSlot (desired worker : ℕ) : Bool := worker ≠ 0 ∧ worker ≤ desired

namespace RepairCall

def start (command : StreamRepairCommand) : RepairCall := ⟨command, command.workerIds, .next⟩

def done (c : RepairCall) : Bool := c.phase = .next ∧ c.remaining = []

/-- The next step of a call. -/
def advance (desired : ℕ) (slots : ℕ → RepairSlot) (c : RepairCall) :
    RepairCall × Option RepairOp :=
  match c.phase with
  | .next =>
    match c.remaining with
    | [] => (c, none)
    | worker :: rest =>
      if isSlot desired worker then
        ({ c with remaining := rest, phase := .compare worker (slots worker).lastSequence }, none)
      else ({ c with remaining := rest }, none)
  | .compare worker current =>
    if c.command.sequence ≤ current then ({ c with phase := .next }, none)
    else if (slots worker).lastSequence = current then
      ({ c with phase := .accepted worker current }, some (.accept worker))
    else ({ c with phase := .compare worker (slots worker).lastSequence }, none)
  | .accepted worker previous =>
    if previous ≠ 0 ∧ (slots worker).readySequence < previous then
      ({ c with phase := .reset worker }, none)
    else ({ c with phase := .restart worker }, none)
  | .reset worker => ({ c with phase := .restart worker }, some (.reset worker))
  | .restart worker => ({ c with phase := .notify worker }, some (.restart worker))
  | .notify worker => ({ c with phase := .next }, some (.notify worker))

def pendingRestart (c : RepairCall) : Option (ℕ × ℕ) :=
  match c.phase with
  | .accepted worker _ => some (worker, c.command.sequence)
  | .reset worker => some (worker, c.command.sequence)
  | .restart worker => some (worker, c.command.sequence)
  | _ => none

def pendingReset (c : RepairCall) : Option (ℕ × ℕ) :=
  match c.phase with
  | .accepted worker _ => some (worker, c.command.sequence)
  | .reset worker => some (worker, c.command.sequence)
  | _ => none

inductive Step (desired : ℕ) (slots : ℕ → RepairSlot) (c : RepairCall) :
    RepairCall → Option RepairOp → Prop
  | idle : c.phase = .next → c.remaining = [] → Step desired slots c c none
  | skipped (worker : ℕ) (rest : List ℕ) : c.phase = .next → c.remaining = worker :: rest →
      isSlot desired worker = false → Step desired slots c { c with remaining := rest } none
  | loaded (worker : ℕ) (rest : List ℕ) : c.phase = .next → c.remaining = worker :: rest →
      isSlot desired worker = true → Step desired slots c
        { c with remaining := rest, phase := .compare worker (slots worker).lastSequence } none
  | stale (worker current : ℕ) : c.phase = .compare worker current → c.command.sequence ≤ current →
      Step desired slots c { c with phase := .next } none
  | swapped (worker current : ℕ) : c.phase = .compare worker current →
      current < c.command.sequence → (slots worker).lastSequence = current →
      Step desired slots c { c with phase := .accepted worker current } (some (.accept worker))
  | beaten (worker current : ℕ) : c.phase = .compare worker current →
      Step desired slots c { c with phase := .compare worker (slots worker).lastSequence } none
  | unready (worker previous : ℕ) : c.phase = .accepted worker previous →
      Step desired slots c { c with phase := .reset worker } none
  | ready (worker previous : ℕ) : c.phase = .accepted worker previous →
      Step desired slots c { c with phase := .restart worker } none
  | reset (worker : ℕ) : c.phase = .reset worker →
      Step desired slots c { c with phase := .restart worker } (some (.reset worker))
  | restarted (worker : ℕ) : c.phase = .restart worker →
      Step desired slots c { c with phase := .notify worker } (some (.restart worker))
  | notified (worker : ℕ) : c.phase = .notify worker →
      Step desired slots c { c with phase := .next } (some (.notify worker))

theorem step_advance (desired : ℕ) (slots : ℕ → RepairSlot) (c : RepairCall) :
    Step desired slots c (c.advance desired slots).1 (c.advance desired slots).2 := by
  unfold advance
  split
  · rename_i hp
    split
    · rename_i hr
      exact .idle hp hr
    · rename_i worker rest hr
      split_ifs with hs
      · exact .loaded worker rest hp hr hs
      · exact .skipped worker rest hp hr (Bool.eq_false_iff.mpr hs)
  · rename_i worker current hp
    split_ifs with hstale hl
    · exact .stale worker current hp hstale
    · exact .swapped worker current hp (Nat.lt_of_not_le hstale) hl
    · exact .beaten worker current hp
  · rename_i worker previous hp
    split_ifs
    · exact .unready worker previous hp
    · exact .ready worker previous hp
  · rename_i worker hp
    exact .reset worker hp
  · rename_i worker hp
    exact .restarted worker hp
  · rename_i worker hp
    exact .notified worker hp

end RepairCall

/-- Where a session of a worker is, as far as repairs are concerned. -/
inductive SessionPhase
  | starting
  /-- `mark_ready` has read the last sequence and stores it next. -/
  | marking (sequence : ℕ)
  | ready
  /-- At the top of the loop of `changed`. -/
  | checking (observed : ℕ)
  /-- The generation was the observed one, and `notified` is called next. -/
  | checked (observed : ℕ)
  | parked (observed : ℕ)
  | repaired
  deriving DecidableEq

/-- `readyGeneration` is the restart generation at the moment the session became ready. -/
structure RepairSession where
  worker : ℕ
  phase : SessionPhase := .starting
  readyGeneration : ℕ := 0
  deriving DecidableEq

/-- `notify_waiters` reaches the futures that `notified` has created. -/
def RepairSession.wake (worker : ℕ) (session : RepairSession) : RepairSession :=
  match session.phase with
  | .parked observed =>
    if session.worker = worker then { session with phase := .checking observed } else session
  | _ => session

/-- The slots with the calls and sessions that use them, and what was accepted, restarted and reset:
pairs of a worker and a sequence. -/
structure RepairState where
  desired : ℕ
  slots : ℕ → RepairSlot := fun _ => {}
  calls : List RepairCall := []
  sessions : List RepairSession := []
  accepted : List (ℕ × ℕ) := []
  restarts : List (ℕ × ℕ) := []
  resets : List (ℕ × ℕ) := []

namespace RepairState

inductive Event
  | call (command : StreamRepairCommand)
  | proceed (i : ℕ)
  | alive (worker sequence : ℕ)
  | session (worker : ℕ)
  | advance (j : ℕ)

def setSlot (s : RepairState) (worker : ℕ) (slot : RepairSlot) : RepairState :=
  { s with slots := Function.update s.slots worker slot }

/-- An operation of a call with the sequence. The counters are `u64`. -/
def perform (s : RepairState) (sequence : ℕ) : Option RepairOp → RepairState
  | none => s
  | some (.accept worker) =>
    { s.setSlot worker { s.slots worker with lastSequence := sequence } with
      accepted := s.accepted ++ [(worker, sequence)] }
  | some (.reset worker) =>
    { s.setSlot worker { s.slots worker with
        credentialGeneration := ((s.slots worker).credentialGeneration + 1) % 2 ^ 64 } with
      resets := s.resets ++ [(worker, sequence)] }
  | some (.restart worker) =>
    { s.setSlot worker { s.slots worker with
        restartGeneration := ((s.slots worker).restartGeneration + 1) % 2 ^ 64 } with
      restarts := s.restarts ++ [(worker, sequence)] }
  | some (.notify worker) => { s with sessions := s.sessions.map (·.wake worker) }

/-- The next operation of a session. One that is parked waits for a notification. -/
def advanceSession (s : RepairState) (j : ℕ) (session : RepairSession) : RepairState :=
  let slot := s.slots session.worker
  match session.phase with
  | .starting =>
    { s with sessions := s.sessions.set j { session with phase := .marking slot.lastSequence } }
  | .marking sequence =>
    { s.setSlot session.worker { slot with readySequence := sequence } with
      sessions := s.sessions.set j
        { session with phase := .ready, readyGeneration := slot.restartGeneration } }
  | .ready =>
    { s with
      sessions := s.sessions.set j { session with phase := .checking slot.restartGeneration } }
  | .checking observed =>
    { s with sessions := s.sessions.set j { session with
        phase := if slot.restartGeneration ≠ observed then .repaired else .checked observed } }
  | .checked observed =>
    { s with sessions := s.sessions.set j { session with phase := .parked observed } }
  | .parked _ => s
  | .repaired => s

def step (s : RepairState) : Event → RepairState
  | .call command => { s with calls := s.calls ++ [.start command] }
  | .proceed i =>
    match s.calls[i]? with
    | none => s
    | some c =>
      let (c', op) := c.advance s.desired s.slots
      { s with calls := s.calls.set i c' }.perform c.command.sequence op
  | .alive worker sequence =>
    if isSlot s.desired worker then
      s.setSlot worker { s.slots worker with
        readySequence := max (s.slots worker).readySequence sequence }
    else s
  | .session worker =>
    if isSlot s.desired worker then { s with sessions := s.sessions ++ [{ worker }] } else s
  | .advance j =>
    match s.sessions[j]? with
    | none => s
    | some session => s.advanceSession j session

def sequencesOf (worker : ℕ) (history : List (ℕ × ℕ)) : List ℕ :=
  (history.filter (·.1 = worker)).map (·.2)

end RepairState
end Csqtt
