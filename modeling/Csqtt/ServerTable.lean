import Mathlib.Data.List.Nodup
import Csqtt.Runs
import Csqtt.ServerControl

/-!
# The table of proxied streams

`handle_frame` with the whole table `proxy_streams`: an OPEN enters a stream and starts its task,
the other frames go to the queue of the task their entry names. Tasks are never taken out of the
list of tasks, so it is also their log.
-/

namespace Csqtt

def maxGlobalStreams : ℕ := 1024

def maxSessionStreams : ℕ := 256

inductive TargetHost
  | ipv4 (octets : Bytes)
  | ipv6 (octets : Bytes)
  | domain (name : String)
  deriving DecidableEq

inductive TargetError
  | missingAddressType
  | invalidDomain
  | invalidUtf8
  | unsupportedAddress
  | invalidPort
  deriving DecidableEq

def isControlChar (c : Char) : Bool :=
  c.toNat < 0x20 || (0x7f ≤ c.toNat && c.toNat < 0xa0)

def parseTargetPort (host : TargetHost) (portBytes : Bytes) : Except TargetError (TargetHost × ℕ) :=
  let port := BigEndian.value portBytes
  if port = 0 then .error .invalidPort else .ok (host, port)

def parseDomain (rest : Bytes) : Except TargetError (TargetHost × ℕ) :=
  let length := (rest.getD 0 0).toNat
  if length = 0 ∨ rest.length ≠ 1 + length + 2 then .error .invalidDomain
  else
    match String.fromUTF8? ⟨((rest.drop 1).take length).toArray⟩ with
    | none => .error .invalidUtf8
    | some host =>
      if host.toList.any isControlChar then .error .invalidDomain
      else parseTargetPort (.domain host) (rest.drop (1 + length))

def parseTarget : Bytes → Except TargetError (TargetHost × ℕ)
  | [] => .error .missingAddressType
  | kind :: rest =>
    if kind = 1 ∧ rest.length = 6 then parseTargetPort (.ipv4 (rest.take 4)) (rest.drop 4)
    else if kind = 4 ∧ rest.length = 18 then
      parseTargetPort (.ipv6 (rest.take 16)) (rest.drop 16)
    else if kind = 3 ∧ rest ≠ [] then parseDomain rest
    else .error .unsupportedAddress

/-- Why `handle_frame` gives an error; the table may have changed before. -/
inductive FrameError
  | invalidFrame
  | dataTooLarge
  | sendFailed
  deriving DecidableEq

structure StreamTask where
  key : ℕ × ℕ
  target : TargetHost × ℕ
  input : List StreamInput := []
  running : Bool := true

structure ProxyTable where
  streams : List ((ℕ × ℕ) × ℕ) := []
  tasks : List StreamTask := []
  outbox : List (ℕ × Frame) := []

namespace ProxyTable

def started (s : ProxyTable) : List (ℕ × ℕ) := s.tasks.map (·.key)

def containsKey (s : ProxyTable) (key : ℕ × ℕ) : Bool := s.streams.any (·.1 = key)

def remove (s : ProxyTable) (key : ℕ × ℕ) : ProxyTable :=
  { s with streams := s.streams.filter (·.1 ≠ key) }

def sendFrame (s : ProxyTable) (session : ℕ) (frame : Frame) (queued : Bool) :
    ProxyTable × Option FrameError :=
  if queued then ({ s with outbox := s.outbox ++ [(session, frame)] }, none)
  else (s, some .sendFailed)

def trySend (s : ProxyTable) (task : ℕ) (item : StreamInput) : Option ProxyTable :=
  match s.tasks[task]? with
  | none => none
  | some t =>
    if t.running ∧ t.input.length < streamCapacity then
      some { s with tasks := s.tasks.set task { t with input := t.input ++ [item] } }
    else none

/-- The number of the task whose queue the entry of `key` sends to. -/
def get (s : ProxyTable) (key : ℕ × ℕ) : Option ℕ := s.streams.lookup key

/-- An item for the stream of `key`, and whether it was there and could not be sent. -/
def offer (s : ProxyTable) (key : ℕ × ℕ) (item : StreamInput) : ProxyTable × Bool :=
  match s.get key with
  | none => (s, false)
  | some task =>
    match s.trySend task item with
    | none => (s.remove key, true)
    | some sent => (sent, false)

def enqueueData (s : ProxyTable) (key : ℕ × ℕ) (data : Bytes) : ProxyTable × Bool :=
  s.offer key (.data data)

/-- The entry is taken out, and its task gets a last item if its queue takes it. -/
def removeAndClose (s : ProxyTable) (key : ℕ × ℕ) : ProxyTable :=
  match s.get key with
  | none => s
  | some task => ((s.remove key).trySend task .close).getD (s.remove key)

def sessionCount (s : ProxyTable) (session : ℕ) : ℕ :=
  (s.streams.filter (·.1.1 = session)).length

def full (s : ProxyTable) (session : ℕ) : Bool :=
  maxGlobalStreams ≤ s.streams.length || maxSessionStreams ≤ s.sessionCount session

def spawn (s : ProxyTable) (key : ℕ × ℕ) (target : TargetHost × ℕ) : ProxyTable :=
  { s with
    streams := s.streams ++ [(key, s.tasks.length)]
    tasks := s.tasks ++ [{ key, target }] }

def handleOpen (s : ProxyTable) (session : ℕ) (f : Frame) (queued : Bool) :
    ProxyTable × Option FrameError :=
  if s.containsKey (session, f.streamId) then (s, none)
  else if s.full session then s.sendFrame session ⟨kindOpenErr, f.streamId, [1]⟩ queued
  else
    match parseTarget f.payload with
    | .error _ => s.sendFrame session ⟨kindOpenErr, f.streamId, [8]⟩ queued
    | .ok target => (s.spawn (session, f.streamId) target, none)

def handleData (s : ProxyTable) (session : ℕ) (f : Frame) (queued : Bool) :
    ProxyTable × Option FrameError :=
  if maxData + 8 < f.payload.length then (s, some .dataTooLarge)
  else
    match s.enqueueData (session, f.streamId) f.payload with
    | (after, false) => (after, none)
    | (after, true) => after.sendFrame session ⟨kindClose, f.streamId, []⟩ queued

def handleResend (s : ProxyTable) (session : ℕ) (f : Frame) : ProxyTable :=
  if f.payload.length = 8 then
    (s.offer (session, f.streamId) (.resend (BigEndian.value f.payload))).1
  else s

def handleParsed (s : ProxyTable) (session : ℕ) (f : Frame) (queued : Bool) :
    ProxyTable × Option FrameError :=
  if f.kind = kindOpen then s.handleOpen session f queued
  else if f.kind = kindData then s.handleData session f queued
  else if f.kind = kindClose then (s.removeAndClose (session, f.streamId), none)
  else if f.kind = kindResend then (s.handleResend session f, none)
  else (s, none)

def handleFrame (s : ProxyTable) (session : ℕ) (payload : Bytes) (queued : Bool) :
    ProxyTable × Option FrameError :=
  match parseFrame payload with
  | none => (s, some .invalidFrame)
  | some f => s.handleParsed session f queued

def closeSession (s : ProxyTable) (session : ℕ) : ProxyTable :=
  ((s.streams.filter (·.1.1 = session)).map (·.1)).foldl removeAndClose s

/-- The end of `run_stream`, however its loop was left. -/
def finish (s : ProxyTable) (task : ℕ) (failed errorQueued closeQueued : Bool) : ProxyTable :=
  match s.tasks[task]? with
  | none => s
  | some t =>
    if t.running then
      { s with
        streams := s.streams.filter (·.1 ≠ t.key)
        tasks := s.tasks.set task { t with running := false }
        outbox := s.outbox ++
          ((queue (failed && errorQueued) ⟨kindOpenErr, t.key.2, [5]⟩ ++
            queue closeQueued ⟨kindClose, t.key.2, []⟩).map fun f => (t.key.1, f)) }
    else s

/-- A running task takes the next item of its queue. -/
def receive (s : ProxyTable) (task : ℕ) : ProxyTable :=
  match s.tasks[task]? with
  | none => s
  | some t =>
    if t.running then { s with tasks := s.tasks.set task { t with input := t.input.tail } } else s

inductive Action
  | frame (session : ℕ) (payload : Bytes) (queued : Bool)
  | receive (task : ℕ)
  | finish (task : ℕ) (failed errorQueued closeQueued : Bool)
  | closeSession (session : ℕ)

def step (s : ProxyTable) : Action → ProxyTable
  | .frame session payload queued => (s.handleFrame session payload queued).1
  | .receive task => s.receive task
  | .finish task failed errorQueued closeQueued => s.finish task failed errorQueued closeQueued
  | .closeSession session => s.closeSession session

/-- No task was started and no entry was made. -/
structure Kept (s s' : ProxyTable) : Prop where
  started : s'.started = s.started
  streams : s'.streams ⊆ s.streams

theorem Kept.refl (s : ProxyTable) : Kept s s := ⟨rfl, fun _ h => h⟩

theorem Kept.trans {s s' s'' : ProxyTable} (h : Kept s s') (h' : Kept s' s'') : Kept s s'' :=
  ⟨h'.started.trans h.started, fun _ he => h.streams (h'.streams he)⟩

theorem map_key_set {tasks : List StreamTask} {i : ℕ} {t t' : StreamTask}
    (h : tasks[i]? = some t) (hk : t'.key = t.key) :
    (tasks.set i t').map (·.key) = tasks.map (·.key) := by
  obtain ⟨hi, _⟩ := List.getElem?_eq_some_iff.mp h
  apply List.ext_getElem?
  intro j
  rw [List.getElem?_map, List.getElem?_map, List.getElem?_set]
  by_cases hij : i = j
  · rw [if_pos hij, if_pos hi, ← hij, h, Option.map_some, Option.map_some, hk]
  · rw [if_neg hij]

/-- What everything but an accepted OPEN is put together from: an entry goes, frames are queued, and
a task takes or gets an item, or ends. -/
structure Lapse (R : ProxyTable → ProxyTable → Prop) : Prop where
  refl : ∀ s, R s s
  trans : ∀ {s s' s''}, R s s' → R s' s'' → R s s''
  removed : ∀ s key, R s (s.remove key)
  sent : ∀ (s : ProxyTable) frames, R s { s with outbox := s.outbox ++ frames }
  task : ∀ {s : ProxyTable} {i t t'}, s.tasks[i]? = some t → t'.key = t.key →
    (t'.running = true → t.running = true) → R s { s with tasks := s.tasks.set i t' }

namespace Lapse

variable {R : ProxyTable → ProxyTable → Prop} (h : Lapse R)

include h

variable (s : ProxyTable) (session : ℕ)

theorem sendFrame (frame : Frame) (queued : Bool) : R s (s.sendFrame session frame queued).1 := by
  cases queued with
  | false => exact h.refl s
  | true => exact h.sent s _

theorem trySend {s sent : ProxyTable} {task : ℕ} {item : StreamInput}
    (hs : s.trySend task item = some sent) : R s sent := by
  unfold ProxyTable.trySend at hs
  split at hs
  · cases hs
  · rename_i t ht
    split_ifs at hs
    rw [← Option.some.inj hs]
    exact h.task ht rfl id

variable (key : ℕ × ℕ)

theorem offer (item : StreamInput) : R s (s.offer key item).1 := by
  unfold ProxyTable.offer
  split
  · exact h.refl s
  · split
    · exact h.removed s key
    · rename_i sent hs
      exact h.trySend hs

theorem removeAndClose : R s (s.removeAndClose key) := by
  unfold ProxyTable.removeAndClose
  split
  · exact h.refl s
  · rename_i task _
    cases hs : (s.remove key).trySend task .close with
    | none => exact h.removed s key
    | some => exact h.trans (h.removed s key) (h.trySend hs)

theorem closeSession : R s (s.closeSession session) := by
  unfold ProxyTable.closeSession
  generalize (s.streams.filter (·.1.1 = session)).map (·.1) = keys
  induction keys generalizing s with
  | nil => exact h.refl s
  | cons key _ ih => exact h.trans (h.removeAndClose s key) (ih _)

theorem receive (task : ℕ) : R s (s.receive task) := by
  unfold ProxyTable.receive
  split
  · exact h.refl s
  · rename_i t ht
    split_ifs
    · exact h.task ht rfl id
    · exact h.refl s

theorem handleData (f : Frame) (queued : Bool) : R s (s.handleData session f queued).1 := by
  have ho := h.offer s (session, f.streamId) (.data f.payload)
  unfold ProxyTable.handleData enqueueData
  split_ifs
  · exact h.refl s
  · split
    · rename_i after heq
      rw [heq] at ho
      exact ho
    · rename_i after heq
      rw [heq] at ho
      exact h.trans ho (h.sendFrame _ _ _ _)

theorem handleResend (f : Frame) : R s (s.handleResend session f) := by
  unfold ProxyTable.handleResend
  split_ifs
  · exact h.offer _ _ _
  · exact h.refl s

theorem finish (task : ℕ) (failed errorQueued closeQueued : Bool) :
    R s (s.finish task failed errorQueued closeQueued) := by
  unfold ProxyTable.finish
  split
  · exact h.refl s
  · rename_i t ht
    split_ifs
    · have he : R s { s with tasks := s.tasks.set task { t with running := false } } :=
        h.task ht rfl (fun hr => by cases hr)
      exact h.trans he (h.trans (h.removed _ t.key) (h.sent _ _))
    · exact h.refl s

end Lapse

theorem kept_lapse : Lapse Kept where
  refl := Kept.refl
  trans := Kept.trans
  removed _ _ := ⟨rfl, List.filter_sublist.subset⟩
  sent _ _ := ⟨rfl, fun _ h => h⟩
  task ht hk _ := ⟨map_key_set ht hk, fun _ h => h⟩

/-- The end of a task takes the entry of its key out, whatever task that entry was made for. -/
theorem finish_cases (s : ProxyTable) (task : ℕ) (failed errorQueued closeQueued : Bool) :
    s.finish task failed errorQueued closeQueued = s ∨ ∃ key, s.started[task]? = some key ∧
        (s.finish task failed errorQueued closeQueued).started = s.started ∧
        (s.finish task failed errorQueued closeQueued).streams = s.streams.filter (·.1 ≠ key) := by
  unfold finish
  split
  · exact .inl rfl
  · rename_i t ht
    split_ifs
    · refine .inr ⟨t.key, ?_, map_key_set ht rfl, rfl⟩
      rw [started, List.getElem?_map, ht]
      rfl
    · exact .inl rfl

/-- An OPEN that finds no entry of its stream is refused for want of room or for its target. -/
def refuses (s : ProxyTable) (session : ℕ) (f : Frame) : Bool :=
  s.full session ||
    match parseTarget f.payload with
    | .error _ => true
    | .ok _ => false

theorem handleOpen_cases (s : ProxyTable) (session : ℕ) (f : Frame) (queued : Bool) :
    ((s.containsKey (session, f.streamId) = true ∨ s.refuses session f = true) ∧
        Kept s (s.handleOpen session f queued).1) ∨
      ((s.containsKey (session, f.streamId) = false ∧ s.refuses session f = false) ∧
        ∃ target, (s.handleOpen session f queued).1 = s.spawn (session, f.streamId) target) := by
  unfold handleOpen refuses
  by_cases hk : s.containsKey (session, f.streamId) = true
  · rw [if_pos hk]
    exact .inl ⟨.inl hk, Kept.refl s⟩
  rw [if_neg hk]
  by_cases hf : s.full session = true
  · rw [hf, Bool.true_or]
    exact .inl ⟨.inr rfl, kept_lapse.sendFrame _ _ _ _⟩
  rw [Bool.eq_false_iff.mpr hf]
  cases parseTarget f.payload with
  | error => exact .inl ⟨.inr rfl, kept_lapse.sendFrame _ _ _ _⟩
  | ok target => exact .inr ⟨⟨Bool.eq_false_iff.mpr hk, rfl⟩, target, rfl⟩

theorem handleParsed_cases (s : ProxyTable) (session : ℕ) (f : Frame) (queued : Bool) :
    ((f.kind = kindOpen → s.containsKey (session, f.streamId) = true ∨ s.refuses session f = true) ∧
        Kept s (s.handleParsed session f queued).1) ∨
      ((f.kind = kindOpen ∧ s.containsKey (session, f.streamId) = false ∧
          s.refuses session f = false) ∧
        ∃ target, (s.handleParsed session f queued).1 = s.spawn (session, f.streamId) target) := by
  unfold handleParsed
  by_cases ho : f.kind = kindOpen
  · rw [if_pos ho]
    obtain ⟨hw, h⟩ | ⟨hw, h⟩ := s.handleOpen_cases session f queued
    · exact .inl ⟨fun _ => hw, h⟩
    · exact .inr ⟨⟨ho, hw⟩, h⟩
  refine .inl ⟨fun h => absurd h ho, ?_⟩
  split_ifs
  · exact kept_lapse.handleData s session f queued
  · exact kept_lapse.removeAndClose s _
  · exact kept_lapse.handleResend s session f
  · exact Kept.refl s

end ProxyTable
end Csqtt
