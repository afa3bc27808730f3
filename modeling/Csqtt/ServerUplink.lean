import Csqtt.ReorderComplete
import Csqtt.ServerControl

/-!
# An upload and its end

The client sends a stream in DATA frames and then a CLOSE, each handled by a task of its own. If the
task of the CLOSE runs after the others the stream ends when the target has got every byte. If it
runs before one of them, the DATA frame finds no stream and is dropped.
-/

namespace Csqtt

open Reassembly
open StreamSequence (encodeAt)

namespace ServerControl

def dataPayload (id : ℕ) (payload : Bytes) : Bytes := encodeFrame ⟨kindData, id, payload⟩

def closePayload (id : ℕ) : Bytes := encodeFrame ⟨kindClose, id, []⟩

def uploading (id now : ℕ) (payloads : List Bytes) : ServerControl :=
  { inbox := payloads.map (dataPayload id) ++ [closePayload id]
    stream := .start id now true true }

/-- There is room in the queue, and the target neither closes nor fails. -/
def Undisturbed (c : ServerControl) : ControlAction → Prop
  | .run _ _ => c.input.items.length < streamCapacity
  | .stream (.select _ _ .readFailed) => False
  | .stream (.select _ _ (.read available _)) => available ≠ []
  | .stream (.select _ _ (.input _ failing)) => failing = none
  | _ => True

/-- The task of the CLOSE is the last one to run, a chunk taken from the queue does not overflow
the reorder window, frames to the client are sent, and no deadline passes. -/
def Orderly (c : ServerControl) : ControlAction → Prop
  | .run i _ => c.jobs[i]? = some (closePayload c.stream.streamId) →
      c.inbox = [] ∧ c.jobs.length = 1
  | .stream (.select _ _ (.read available queued)) =>
    queued = true ∧ c.stream.sent.offset + (available.take maxData).length < 2 ^ 64
  | .stream (.select _ _ (.input (some (.data payload)) _)) =>
    (c.stream.received.push payload).2.isOk = true
  | .stream (.select _ _ .stall) => False
  | _ => True

instance (c : ServerControl) (action : ControlAction) : Decidable (c.Undisturbed action) :=
  match action with
  | .spawn => inferInstanceAs (Decidable True)
  | .run _ _ => inferInstanceAs (Decidable (c.input.items.length < streamCapacity))
  | .stream (.release _ _) => inferInstanceAs (Decidable True)
  | .stream (.select _ _ .readFailed) => inferInstanceAs (Decidable False)
  | .stream (.select _ _ (.read available _)) => inferInstanceAs (Decidable (available ≠ []))
  | .stream (.select _ _ (.input _ failing)) => inferInstanceAs (Decidable (failing = none))
  | .stream (.select _ _ .stall) => inferInstanceAs (Decidable True)

instance (c : ServerControl) (action : ControlAction) : Decidable (c.Orderly action) :=
  match action with
  | .spawn => inferInstanceAs (Decidable True)
  | .run i _ =>
    inferInstanceAs (Decidable (c.jobs[i]? = some (closePayload c.stream.streamId) →
      c.inbox = [] ∧ c.jobs.length = 1))
  | .stream (.release _ _) => inferInstanceAs (Decidable True)
  | .stream (.select _ _ .readFailed) => inferInstanceAs (Decidable True)
  | .stream (.select _ _ (.read available queued)) =>
    inferInstanceAs (Decidable (queued = true ∧
      c.stream.sent.offset + (available.take maxData).length < 2 ^ 64))
  | .stream (.select _ _ (.input (some (.data payload)) _)) =>
    inferInstanceAs (Decidable ((c.stream.received.push payload).2.isOk = true))
  | .stream (.select _ _ (.input (some (.resend _)) _)) => inferInstanceAs (Decidable True)
  | .stream (.select _ _ (.input (some .close) _)) => inferInstanceAs (Decidable True)
  | .stream (.select _ _ (.input none _)) => inferInstanceAs (Decidable True)
  | .stream (.select _ _ .stall) => inferInstanceAs (Decidable False)

def Waiting (c : ServerControl) (p : Bytes) : Prop := p ∈ c.inbox ∨ p ∈ c.jobs

/-- The queue has the chunks `ds` and, once the task of the CLOSE has run, the end. -/
def Queued (id : ℕ) (c : ServerControl) (ds : List Bytes) : Prop :=
  (c.input = ⟨ds.map .data, true⟩ ∧ c.Waiting (closePayload id)) ∨
    (c.input = ⟨ds.map .data ++ [.close], false⟩ ∧ ∀ p, ¬ c.Waiting p)

/-- Every payload of the upload is waiting, in the queue `ds`, or has been taken from it. -/
structure Underway (id : ℕ) (payloads ds taken : List Bytes) (c : ServerControl) : Prop where
  session : c.session = some true
  streamId : c.stream.streamId = id
  running : c.stream.ending = none
  unreleased : c.stream.released = false
  waiting : ∀ p, c.Waiting p → p = closePayload id ∨ ∃ d ∈ payloads, p = dataPayload id d
  queued : c.Queued id ds
  within : ∀ d ∈ ds, d ∈ payloads
  covered : ∀ d ∈ payloads, c.Waiting (dataPayload id d) ∨ d ∈ ds ∨ d ∈ taken

variable {id : ℕ} {payloads ds taken : List Bytes} {c : ServerControl}

theorem closePayload_ne_dataPayload (hid : id < 2 ^ 64) (d : Bytes) :
    closePayload id ≠ dataPayload id d := by
  intro heq
  have hp := congrArg parseFrame heq
  rw [closePayload, dataPayload, parseFrame_encodeFrame hid, parseFrame_encodeFrame hid,
    Option.some.injEq] at hp
  exact kindClose_ne_kindData (congrArg Frame.kind hp)

variable {d : Bytes}

theorem dataPayload_inj (hid : id < 2 ^ 64) {e : Bytes}
    (heq : dataPayload id d = dataPayload id e) : d = e := by
  have hp := congrArg parseFrame heq
  rw [dataPayload, dataPayload, parseFrame_encodeFrame hid, parseFrame_encodeFrame hid,
    Option.some.injEq] at hp
  exact congrArg Frame.payload hp

theorem Underway.spawn (h : c.Underway id payloads ds taken) :
    (c.step .spawn).Underway id payloads ds taken := by
  obtain he | ⟨payload, rest, hin, he⟩ := c.spawn_cases
  · rw [he]
    exact h
  · have hw : ∀ p, (c.step .spawn).Waiting p ↔ c.Waiting p := by
      intro p
      rw [he, Waiting, Waiting, hin, List.mem_cons, List.mem_append, List.mem_singleton]
      tauto
    have hip : (c.step .spawn).input = c.input := by rw [he]
    refine ⟨by rw [he, h.session], by rw [he, h.streamId], by rw [he, h.running],
      by rw [he, h.unreleased], fun p hp => h.waiting p ((hw p).mp hp), ?_,
        h.within, fun d hd => ?_⟩
    · rw [Queued, hip]
      simp only [hw]
      exact h.queued
    · rw [hw]
      exact h.covered d hd

variable {i : ℕ}

theorem Underway.run_data (hid : id < 2 ^ 64) (h : c.Underway id payloads ds taken)
    (hinput : c.input = ⟨ds.map .data, true⟩) (hclose : c.Waiting (closePayload id))
    (hd : d ∈ payloads) (hi : c.jobs[i]? = some (dataPayload id d)) :
    Underway id payloads (ds ++ [d]) taken
      { c with
        jobs := c.jobs.eraseIdx i
        input := { c.input with items := c.input.items ++ [.data d] } } := by
  have hjobs := mem_jobs_iff hi
  refine ⟨h.session, h.streamId, h.running, h.unreleased, fun p hp => ?_, .inl ⟨?_, ?_⟩, ?_, ?_⟩
  · apply h.waiting p
    obtain hp | hp := hp
    · exact .inl hp
    · exact .inr ((hjobs p).mpr (.inr hp))
  · rw [hinput, List.map_append]
    rfl
  · obtain hp | hp := hclose
    · exact .inl hp
    · obtain heq | hp := (hjobs _).mp hp
      · exact absurd heq (closePayload_ne_dataPayload hid d)
      · exact .inr hp
  · intro e he
    rw [List.mem_append, List.mem_singleton] at he
    obtain he | rfl := he
    · exact h.within e he
    · exact hd
  · intro e he
    rw [List.mem_append, List.mem_singleton]
    obtain (hp | hp) | hmem | htake := h.covered e he
    · exact .inl (.inl hp)
    · obtain heq | hp := (hjobs _).mp hp
      · exact .inr (.inl (.inr (dataPayload_inj hid heq)))
      · exact .inl (.inr hp)
    · exact .inr (.inl (.inl hmem))
    · exact .inr (.inr htake)

theorem Underway.run_close (hid : id < 2 ^ 64) (h : c.Underway id payloads ds taken)
    (hip : c.input = ⟨ds.map .data, true⟩) (hi : c.jobs[i]? = some (closePayload id))
    (hin : c.inbox = []) (ho : c.jobs.length = 1) :
    Underway id payloads ds taken
      { c with
        jobs := c.jobs.eraseIdx i
        input := ⟨c.input.items ++ [.close], false⟩ } := by
  have hnil : c.jobs.eraseIdx i = [] := by
    obtain ⟨hlt, _⟩ := List.getElem?_eq_some_iff.mp hi
    rw [← List.length_eq_zero_iff, List.length_eraseIdx_of_lt hlt, ho]
  have hn : ∀ p, ¬ (p ∈ c.inbox ∨ p ∈ c.jobs.eraseIdx i) := by
    rw [hin, hnil]
    simp
  refine ⟨h.session, h.streamId, h.running, h.unreleased, fun p hp => absurd hp (hn p),
    .inr ⟨by rw [hip], hn⟩, h.within, fun e he => ?_⟩
  obtain (hp | hp) | hr := h.covered e he
  · rw [hin] at hp
    cases hp
  · obtain heq | hp := (mem_jobs_iff hi _).mp hp
    · exact absurd heq.symm (closePayload_ne_dataPayload hid e)
    · exact absurd (.inr hp) (hn _)
  · exact .inr hr

theorem Underway.run (hid : id < 2 ^ 64) (hle : ∀ d ∈ payloads, d.length ≤ maxData + 8)
    (h : c.Underway id payloads ds taken) {closeQueued : Bool}
    (hroom : c.Undisturbed (.run i closeQueued)) (ho : c.Orderly (.run i closeQueued)) :
    ∃ ds', (c.step (.run i closeQueued)).Underway id payloads ds' taken := by
  rw [step]
  cases hi : c.jobs[i]? with
  | none => exact ⟨ds, h⟩
  | some payload =>
    dsimp only
    have hm : c.Waiting payload := .inr ((mem_jobs_iff hi payload).mpr (.inl rfl))
    obtain ⟨hip, hc⟩ | ⟨_, hn⟩ := h.queued
    · have hl : c.input.linked = true := by rw [hip]
      obtain rfl | ⟨d, hd, rfl⟩ := h.waiting payload hm
      · obtain ⟨hin, hone⟩ := ho (by rw [h.streamId]; exact hi)
        have hr := processControlPayload_close (c := { c with jobs := c.jobs.eraseIdx i })
          h.session h.streamId hid hl hroom closeQueued
        rw [closePayload, hr]
        exact ⟨ds, h.run_close hid hip hi hin hone⟩
      · have hr := processControlPayload_data (c := { c with jobs := c.jobs.eraseIdx i })
          h.session h.streamId hid hl hroom closeQueued (hle d hd)
        rw [dataPayload, hr]
        exact ⟨ds ++ [d], h.run_data hid hip hc hd hi⟩
    · exact absurd hm (hn payload)

theorem Underway.take_data (h : c.Underway id payloads (d :: ds) taken) {s : ServerStream}
    (hid : s.streamId = c.stream.streamId) (hs : s.ending = none) (hr : s.released = false)
    {rest : List StreamInput} (hit : c.input.items = .data d :: rest) :
    Underway id payloads ds (taken ++ [d])
      { c with stream := s, input := ⟨rest, c.input.linked⟩ } := by
  refine ⟨h.session, hid.trans h.streamId, hs, hr, h.waiting, ?_,
    fun e he => h.within e (List.mem_cons_of_mem _ he), fun e he => ?_⟩
  · obtain ⟨hin, hc⟩ | ⟨hin, hn⟩ := h.queued
    · rw [hin] at hit
      cases hit
      exact .inl ⟨by rw [hin], hc⟩
    · rw [hin] at hit
      cases hit
      exact .inr ⟨by rw [hin]; rfl, hn⟩
  · rw [List.mem_append, List.mem_singleton]
    obtain hw | hm | ht := h.covered e he
    · exact .inl hw
    · obtain rfl | hm := List.mem_cons.mp hm
      · exact .inr (.inr (.inr rfl))
      · exact .inr (.inl hm)
    · exact .inr (.inr (.inl ht))

theorem Underway.recv (h : c.Underway id payloads ds taken) {command : Option StreamInput}
    {rest : Mailbox StreamInput} (hrecv : c.input.recv = some (command, rest)) :
    (∃ d ds', ds = d :: ds' ∧ command = some (.data d) ∧
      c.input.items = .data d :: rest.items ∧ rest = ⟨rest.items, c.input.linked⟩) ∨
    (command = some .close ∧ ∀ d ∈ payloads, d ∈ taken) := by
  obtain ⟨a, rfl, hitem, hlink⟩ | ⟨_, _, hitem, hlink⟩ := Mailbox.recv_cases hrecv
  · cases ds with
    | cons d ds =>
      have hhead : a = .data d := by
        obtain ⟨hinput, _⟩ | ⟨hinput, _⟩ := h.queued
        · rw [hinput] at hitem
          exact (List.cons.inj hitem).1.symm
        · rw [hinput] at hitem
          exact (List.cons.inj hitem).1.symm
      subst hhead
      exact .inl ⟨d, ds, rfl, rfl, hitem, by rw [← hlink]⟩
    | nil =>
      obtain ⟨hinput, _⟩ | ⟨hinput, hnone⟩ := h.queued
      · rw [hinput] at hitem
        cases hitem
      · rw [hinput] at hitem
        rw [← (List.cons.inj hitem).1]
        refine .inr ⟨rfl, fun d hd => ?_⟩
        obtain hw | hmem | htake := h.covered d hd
        · exact absurd hw (hnone _)
        · cases hmem
        · exact htake
  · obtain ⟨hinput, _⟩ | ⟨hinput, _⟩ := h.queued
    · rw [hinput] at hlink
      cases hlink
    · rw [hinput] at hitem
      simp at hitem

def Uploaded (chunks : List Bytes) (c : ServerControl) : Prop :=
  c.stream.ending.isSome ∧ c.stream.targetWritten = chunks.flatten

theorem step_uploaded {chunks : List Bytes} (h : c.Uploaded chunks) (action : ControlAction) :
    (c.step action).Uploaded chunks := by
  obtain ⟨outbox, he⟩ | ⟨turn, _, he⟩ := c.step_stream action
  · rw [Uploaded, he]
    exact h
  · obtain ⟨hend, hw⟩ := ServerStream.step_of_ended h.1 turn
    rw [Uploaded, he, hend, hw]
    exact h

section Upload

variable (S : ByteStream) (chunks : List Bytes) (id : ℕ) (payloads : List Bytes)

/-- The upload is done, or the receiver has what has arrived and the rest is on its way. -/
def Uploads (c : ServerControl) : Prop :=
  c.Uploaded chunks ∨ ∃ ds taken, c.Underway id payloads ds taken ∧
    Delivery.Collects S chunks taken ⟨c.stream.received, c.stream.targetWritten⟩

variable {S chunks id payloads} (hS : S.bytes = chunks.flatten)
  (hne : ∀ x ∈ chunks, x ≠ [] ∧ x.length ≤ maxData)
  (hpay : payloads = (pieces 0 chunks).map (fun p => encodeAt p.1 p.2)) (hid : id < 2 ^ 64)
include hS hne hpay

theorem Underway.take (h : c.Underway id payloads ds taken)
    (hc : Delivery.Collects S chunks taken ⟨c.stream.received, c.stream.targetWritten⟩)
    {command : Option StreamInput} {rest : Mailbox StreamInput}
    (hr : c.input.recv = some (command, rest)) {now later : ℕ}
    (ho : c.Orderly (.stream (.select now later (.input command none)))) :
    Uploads S chunks id payloads
      { c with
        stream := c.stream.step (.select now later (.input command none))
        input := rest } := by
  obtain ⟨d, ds, rfl, rfl, hit, hrest⟩ | ⟨rfl, ha⟩ := h.recv hr
  · have hok : (c.stream.received.push d).2.isOk = true := ho
    obtain ⟨holeDeadline, he⟩ := ServerStream.step_data h.running hok now later
    have hd := h.within d (List.mem_cons_self ..)
    rw [hpay] at hd
    obtain ⟨p, hp, hpd⟩ := List.mem_map.mp hd
    rw [← hpd] at hok
    have hcollects := Delivery.step_collects hS (fun x hx => (hne x hx).1) hc hp hok
    rw [hpd] at hcollects
    rw [he, hrest]
    refine .inr ⟨ds, _, h.take_data ?_ ?_ ?_ hit, hcollects⟩
    · rfl
    · exact h.running
    · exact h.unreleased
  · obtain ⟨holeDeadline, he⟩ := ServerStream.step_close h.running now later none
    obtain ⟨hout, _⟩ := hc.complete hS (fun p hp => ha _ (by
      rw [hpay]
      exact List.mem_map.mpr ⟨p, hp, rfl⟩))
    rw [he]
    exact .inl ⟨rfl, hout⟩

theorem Underway.stream (h : c.Underway id payloads ds taken)
    (hc : Delivery.Collects S chunks taken ⟨c.stream.received, c.stream.targetWritten⟩)
    {turn : ServerTurn} (hquiet : c.Undisturbed (.stream turn))
    (horder : c.Orderly (.stream turn)) :
    Uploads S chunks id payloads (c.step (.stream turn)) := by
  have hlink : ∀ s : ServerStream, s.released = false →
      { c.input with linked := c.input.linked && !s.released } = c.input := by
    intro s hr
    rw [hr, Bool.not_false, Bool.and_true]
  cases turn with
  | release errorQueued closeQueued =>
    have hstep : c.stream.step (.release errorQueued closeQueued) = c.stream := by
      rw [ServerStream.step, if_neg (by simp [h.running])]
    rw [step]
    rw [hstep, hlink _ h.unreleased]
    exact .inr ⟨ds, taken, h, hc⟩
  | select now later branch =>
    cases branch with
    | readFailed => exact hquiet.elim
    | stall => exact horder.elim
    | read _ queued =>
      obtain ⟨rfl, hfit⟩ := horder
      obtain ⟨holeDeadline, he⟩ := ServerStream.step_read h.running hquiet hfit now later
      rw [step]
      rw [he, hlink _ h.unreleased]
      exact .inr ⟨ds, taken, ⟨h.session, h.streamId, h.running, h.unreleased, h.waiting,
        h.queued, h.within, h.covered⟩, hc⟩
    | input _ failing =>
      obtain rfl : failing = none := hquiet
      rw [step]
      dsimp only [ServerTurn.awaited]
      rw [receive]
      cases hrecv : c.input.recv with
      | none => exact .inr ⟨ds, taken, h, hc⟩
      | some result =>
        dsimp only
        split_ifs with hmatch
        · obtain ⟨rfl, _⟩ := hmatch
          exact h.take hS hne hpay hc hrecv horder
        · exact .inr ⟨ds, taken, h, hc⟩

include hid in
theorem step_uploads (h : c.Uploads S chunks id payloads) {action : ControlAction}
    (hq : c.Undisturbed action) (ho : c.Orderly action) :
    (c.step action).Uploads S chunks id payloads := by
  obtain h | ⟨ds, taken, h, hc⟩ := h
  · exact .inl (step_uploaded h action)
  · cases action with
    | stream => exact h.stream hS hne hpay hc hq ho
    | spawn =>
      refine .inr ⟨ds, taken, h.spawn, ?_⟩
      obtain ⟨outbox, he⟩ | ⟨_, heq, _⟩ := c.step_stream .spawn
      · rw [he]
        exact hc
      · cases heq
    | run i closeQueued =>
      have hl : ∀ d ∈ payloads, d.length ≤ maxData + 8 := by
        intro d hd
        rw [hpay] at hd
        obtain ⟨p, hp, rfl⟩ := List.mem_map.mp hd
        have hm := (hne p.2 (mem_of_mem_pieces hp)).2
        rw [StreamSequence.encodeAt, List.length_append, BigEndian.length_encode]
        omega
      obtain ⟨ds', h'⟩ := h.run hid hl hq ho
      refine .inr ⟨ds', taken, h', ?_⟩
      obtain ⟨outbox, he⟩ | ⟨_, heq, _⟩ := c.step_stream (.run i closeQueued)
      · rw [he]
        exact hc
      · cases heq

omit hS hne hpay in
theorem uploading_uploads (now : ℕ) :
    (uploading id now payloads).Uploads S chunks id payloads := by
  have hs : Delivery.Collects S chunks [] {} :=
    ⟨⟨sound_empty _, rfl⟩, rfl, [], tiled_start 0 chunks, by simp⟩
  refine .inr ⟨[], [], ⟨rfl, rfl, rfl, rfl, fun p hp => ?_, .inl ⟨rfl, ?_⟩, by simp,
    fun d hd => .inl (.inl ?_)⟩, hs⟩
  · obtain hp | hp := hp
    · rw [uploading, List.mem_append, List.mem_map, List.mem_singleton] at hp
      obtain ⟨d, hd, rfl⟩ | rfl := hp
      · exact .inr ⟨d, hd, rfl⟩
      · exact .inl rfl
    · cases hp
  · exact .inl (List.mem_append_right _ (List.mem_singleton_self _))
  · exact List.mem_append_left _ (List.mem_map.mpr ⟨d, hd, rfl⟩)

end Upload

/-- The stream ends with every byte written, and it does end once nothing is left to handle. -/
def WrittenAtEnd (chunks : List Bytes) (c : ServerControl) : Prop :=
  (c.stream.ending.isSome → c.stream.targetWritten = chunks.flatten) ∧
    (c.inbox = [] ∧ c.jobs = [] ∧ c.input.items = [] → c.stream.ending.isSome)

theorem Uploads.writtenAtEnd {S : ByteStream} {chunks : List Bytes}
    (h : c.Uploads S chunks id payloads) : c.WrittenAtEnd chunks := by
  obtain ⟨he, hw⟩ | ⟨ds, taken, h, _⟩ := h
  · exact ⟨fun _ => hw, fun _ => he⟩
  · constructor
    · intro he
      rw [h.running] at he
      cases he
    · rintro ⟨hin, hj, hit⟩
      obtain ⟨_, hc⟩ | ⟨hip, _⟩ := h.queued
      · rw [Waiting, hin, hj] at hc
        simp at hc
      · rw [hip] at hit
        simp at hit

/-- In every schedule that runs the task of the CLOSE last, and in which nothing else ends the
stream, the target has got the whole upload when the stream ends. -/
theorem upload_written_if_close_runs_last (chunks : List Bytes)
    (hne : ∀ x ∈ chunks, x ≠ [] ∧ x.length ≤ maxData) (sequence : StreamSequence)
    (payloads : List Bytes) (henc : StreamSequence.encodeAll {} chunks = .ok (sequence, payloads))
    (id now : ℕ) (hid : id < 2 ^ 64) (actions : List ControlAction)
    (hquiet : Runs.Along step Undisturbed (uploading id now payloads) actions)
    (horder : Runs.Along step Orderly (uploading id now payloads) actions) :
    Runs.Always step (WrittenAtEnd chunks) (uploading id now payloads) actions := by
  obtain ⟨hf, hpay⟩ := StreamSequence.encodeAll_eq_ok (s := {}) (by norm_num) henc
  let S : ByteStream := ⟨chunks.flatten, by simpa using hf⟩
  have hr : Runs.Always step (Uploads S chunks id payloads) (uploading id now payloads) actions :=
    Runs.always_invariant (fun c action h hq => step_uploads rfl hne hpay hid h hq.1 hq.2)
      (uploading_uploads now) (Runs.along_and.mpr ⟨hquiet, horder⟩)
  exact Runs.always_mono (fun c h => h.writtenAtEnd) hr

/-- Two DATA frames whose tasks run in the wrong order, and the CLOSE after them. -/
def closeLast : List ControlAction :=
  [.spawn, .spawn, .spawn, .run 1 true, .run 0 true, .run 0 true,
    .stream (.select 0 0 (.input (some (.data (encodeAt 1 [8]))) none)),
    .stream (.select 0 0 (.input (some (.data (encodeAt 0 [7]))) none)),
    .stream (.select 0 0 (.input (some .close) none))]

theorem upload_written_closeLast :
    let start := uploading 5 0 [encodeAt 0 [7], encodeAt 1 [8]]
    Runs.Always step (WrittenAtEnd [[7], [8]]) start closeLast ∧
      (closeLast.foldl step start).stream.ending = some .inputEnded := by
  intro start
  have hq : Runs.Along step Undisturbed start closeLast := by decide +kernel
  have ho : Runs.Along step Orderly start closeLast := by decide +kernel
  exact ⟨upload_written_if_close_runs_last [[7], [8]] (by decide) ⟨2⟩
    [encodeAt 0 [7], encodeAt 1 [8]] (by decide) 5 0 (by decide) closeLast hq ho,
    by decide +kernel⟩

def closeFirst : List ControlAction :=
  [.spawn, .spawn, .run 1 true, .run 0 true, .stream (.select 0 0 (.input (some .close) none))]

theorem close_task_first_loses_data :
    let start := uploading 5 0 [encodeAt 0 [7]]
    StreamSequence.encodeAll {} [[7]] = .ok (⟨1⟩, [encodeAt 0 [7]]) ∧
      Runs.Along step Undisturbed start closeFirst ∧
      (closeFirst.foldl step start).stream.ending = some .inputEnded ∧
      (closeFirst.foldl step start).stream.targetWritten = [] := by
  decide +kernel

end ServerControl
end Csqtt
