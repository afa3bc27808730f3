import Mathlib.Data.List.Perm.Subperm
import Csqtt.ServerOpens

/-!
# How many streams the server runs

`handle_frame` counts the entries of the table before it starts a task for a stream, but an entry
may be taken out while its task still resolves or connects. Besides, other frames may come between
the checks of an OPEN and its insertion. As long as neither has happened when an OPEN passes its
checks, the limits hold for the tasks as well.
-/

namespace Csqtt

namespace ProxyTable

/-- The stream that an OPEN is for, if it passes the checks. -/
def accepts (s : ProxyTable) : Action → Option ((ℕ × ℕ) × (TargetHost × ℕ))
  | .frame session payload _ =>
    match parseFrame payload with
    | none => none
    | some f =>
      if f.kind = kindOpen then
        if s.containsKey (session, f.streamId) then none
        else if s.full session then none
        else
          match parseTarget f.payload with
          | .error _ => none
          | .ok target => some ((session, f.streamId), target)
      else none
  | _ => none

def alive (s : ProxyTable) : List (ℕ × ℕ) := (s.tasks.filter (·.running)).map (·.key)

def aliveIn (s : ProxyTable) (session : ℕ) : ℕ := s.alive.countP (·.1 = session)

/-- Every task that runs still has its entry. -/
def Listed (s : ProxyTable) : Prop :=
  ∀ p ∈ s.tasks.zipIdx, p.1.running = true → (p.1.key, p.2) ∈ s.streams

instance (s : ProxyTable) : Decidable s.Listed :=
  inferInstanceAs (Decidable
    (∀ p ∈ s.tasks.zipIdx, p.1.running = true → (p.1.key, p.2) ∈ s.streams))

variable {s : ProxyTable}

theorem Lapse.step {R : ProxyTable → ProxyTable → Prop} (h : Lapse R) {a : Action}
    (ha : s.accepts a = none) : R s (s.step a) := by
  cases a with
  | receive task => exact h.receive s task
  | finish task failed errorQueued closeQueued =>
      exact h.finish s task failed errorQueued closeQueued
  | closeSession session => exact h.closeSession s session
  | frame session payload queued =>
    unfold accepts at ha
    cases hp : parseFrame payload with
    | none =>
      simp only [ProxyTable.step, handleFrame, hp]
      exact h.refl s
    | some f =>
      simp only [hp] at ha
      simp only [ProxyTable.step, handleFrame, hp, handleParsed]
      by_cases ho : f.kind = kindOpen
      · unfold handleOpen
        split_ifs at ha ⊢
        · exact h.refl s
        · exact h.sendFrame ..
        · cases ht : parseTarget f.payload with
          | error => exact h.sendFrame ..
          | ok => simp only [ht, reduceCtorEq] at ha
      · split_ifs
        · exact h.handleData s session f queued
        · exact h.removeAndClose s _
        · exact h.handleResend s session f
        · exact h.refl s

theorem accepts_full {a : Action} {key : ℕ × ℕ} {target : TargetHost × ℕ}
    (ha : s.accepts a = some (key, target)) : s.full key.1 = false := by
  cases a with
  | receive | finish | closeSession => cases ha
  | frame =>
    unfold accepts at ha
    dsimp only at ha
    split at ha
    · cases ha
    · split_ifs at ha with _ _ hf
      split at ha
      · cases ha
      · cases ha
        exact Bool.eq_false_iff.mpr hf

/-! ## Tasks that end -/

theorem alive_set {tasks : List StreamTask} {i : ℕ} {t t' : StreamTask} (ht : tasks[i]? = some t)
    (hk : t'.key = t.key) (hrunning : t'.running = true → t.running = true) :
    (((tasks.set i t').filter (·.running)).map (·.key)).Sublist
      ((tasks.filter (·.running)).map (·.key)) := by
  induction tasks generalizing i with
  | nil => simp
  | cons first _ ih =>
    cases i with
    | succ =>
      have hr := ih (by simpa using ht)
      cases hf : first.running with
      | true => simpa [List.filter_cons, hf] using hr.cons_cons first.key
      | false => simpa [List.filter_cons, hf] using hr
    | zero =>
      obtain rfl : first = t := by simpa using ht
      rw [List.set_cons_zero]
      cases he : t'.running with
      | true => simp [he, hrunning he, hk]
      | false =>
        rw [List.filter_cons_of_neg (by simp [he])]
        exact ((List.sublist_cons_self _ _).filter _).map _

theorem alive_lapse : Lapse fun s s' => s'.alive.Sublist s.alive where
  refl _ := List.Sublist.refl _
  trans h h' := h'.trans h
  removed _ _ := List.Sublist.refl _
  sent _ _ := List.Sublist.refl _
  task ht hk hr := alive_set ht hk hr

/-! ## Tasks and entries -/

theorem Listed.counts (h : s.Listed) :
    s.alive.length ≤ s.streams.length ∧ ∀ session, s.aliveIn session ≤ s.sessionCount session := by
  let entries := (s.tasks.zipIdx.filter (·.1.running)).map fun p => (p.1.key, p.2)
  have halive : s.alive = entries.map Prod.fst := by
    have hzip : s.tasks = s.tasks.zipIdx.map Prod.fst := (List.zipIdx_map_fst 0 s.tasks).symm
    rw [alive, List.map_map]
    nth_rewrite 1 [hzip]
    rw [List.filter_map, List.map_map]
    rfl
  have hnodup : entries.Nodup := by
    apply List.Nodup.of_map Prod.snd
    have hsnd : entries.map Prod.snd = (s.tasks.zipIdx.filter (·.1.running)).map Prod.snd := by
      rw [List.map_map]
      rfl
    rw [hsnd]
    apply List.Nodup.sublist (List.filter_sublist.map _)
    rw [List.zipIdx_map_snd]
    exact List.nodup_range'
  have hsub : entries.Subperm s.streams := by
    apply hnodup.subperm
    intro e he
    obtain ⟨p, hp, rfl⟩ := List.mem_map.mp he
    obtain ⟨hmem, hrunning⟩ := List.mem_filter.mp hp
    exact h p hmem hrunning
  constructor
  · rw [halive, List.length_map]
    exact hsub.length_le
  · intro session
    rw [aliveIn, halive, List.countP_map, sessionCount, ← List.countP_eq_length_filter]
    exact hsub.countP_le _

end ProxyTable

/-- The table, and the OPENs that have passed their checks and not entered their streams. -/
structure StreamServer where
  table : ProxyTable := {}
  opening : List ((ℕ × ℕ) × (TargetHost × ℕ)) := []

namespace StreamServer

inductive Event
  | action (action : ProxyTable.Action)
  | enter (i : ℕ)

/-- An entry of the same key is replaced. -/
def step (s : StreamServer) : Event → StreamServer
  | .action action =>
    match s.table.accepts action with
    | some stream => { s with opening := s.opening ++ [stream] }
    | none => { s with table := s.table.step action }
  | .enter i =>
    match s.opening[i]? with
    | none => s
    | some (key, target) =>
      { table := (s.table.remove key).spawn key target, opening := s.opening.eraseIdx i }

variable {s s' : StreamServer} {stream : (ℕ × ℕ) × (TargetHost × ℕ)} {action : ProxyTable.Action}

theorem step_accepted (h : s.table.accepts action = some stream) :
    s.step (.action action) = { s with opening := s.opening ++ [stream] } := by
  simp only [step, h]

theorem step_not_accepted (h : s.table.accepts action = none) :
    s.step (.action action) = { s with table := s.table.step action } := by
  simp only [step, h]

theorem step_enter {i : ℕ} (h : s.opening[i]? = some stream) :
    s.step (.enter i) =
      ⟨(s.table.remove stream.1).spawn stream.1 stream.2, s.opening.eraseIdx i⟩ := by
  simp only [step, h]

/-- When an OPEN passes its checks, no other one has yet to enter its stream, and every task that
runs has its entry. -/
def Orderly (s : StreamServer) : Event → Prop
  | .action action =>
    (s.table.accepts action).isSome = true → s.opening.isEmpty = true ∧ s.table.Listed
  | .enter _ => True

instance (s : StreamServer) (event : Event) : Decidable (s.Orderly event) :=
  match event with
  | .action action => inferInstanceAs (Decidable
      ((s.table.accepts action).isSome = true → s.opening.isEmpty = true ∧ s.table.Listed))
  | .enter _ => inferInstanceAs (Decidable True)

/-- The streams that have a task or get one. -/
def streams (s : StreamServer) : List (ℕ × ℕ) := s.table.alive ++ s.opening.map (·.1)

def Within (s : StreamServer) : Prop :=
  s.streams.length ≤ maxGlobalStreams ∧
    ∀ session, s.streams.countP (·.1 = session) ≤ maxSessionStreams

theorem Within.of_subperm (h : s.Within) (hs : s'.streams.Subperm s.streams) : s'.Within :=
  ⟨hs.length_le.trans h.1, fun session => (hs.countP_le _).trans (h.2 session)⟩

theorem alive_spawn (s : ProxyTable) (key : ℕ × ℕ) (target : TargetHost × ℕ) :
    (s.spawn key target).alive = s.alive ++ [key] := by
  simp [ProxyTable.alive, ProxyTable.spawn]

theorem streams_enter (s : StreamServer) (i : ℕ) : (s.step (.enter i)).streams.Perm s.streams := by
  cases hi : s.opening[i]? with
  | none => simp only [step, hi, List.Perm.refl]
  | some stream =>
    obtain ⟨hlt, hg⟩ := List.getElem?_eq_some_iff.mp hi
    have hp := (List.getElem_cons_eraseIdx_perm hlt).map Prod.fst
    rw [hg] at hp
    rw [step_enter hi, streams, alive_spawn, List.append_assoc]
    exact hp.append_left s.table.alive

theorem within_step (h : s.Within) (event : Event) (horder : s.Orderly event) :
    (s.step event).Within := by
  cases event with
  | enter i => exact h.of_subperm (s.streams_enter i).subperm
  | action action =>
    cases hacc : s.table.accepts action with
    | none =>
      have halive := ProxyTable.alive_lapse.step hacc
      rw [step_not_accepted hacc]
      exact h.of_subperm (halive.append (List.Sublist.refl _)).subperm
    | some stream =>
      obtain ⟨hempty, hlist⟩ := horder (by rw [hacc]; rfl)
      have hfull := ProxyTable.accepts_full hacc
      obtain ⟨hall, hsession⟩ := hlist.counts
      have hstep : (s.step (.action action)).streams = s.table.alive ++ [stream.1] := by
        simp [step_accepted hacc, streams, List.isEmpty_iff.mp hempty]
      simp only [ProxyTable.full, Bool.or_eq_false_iff, decide_eq_false_iff_not, not_le] at hfull
      constructor
      · rw [hstep, List.length_append, List.length_singleton]
        omega
      · intro session
        have hcount := hsession session
        have hbefore := h.2 session
        rw [streams, List.countP_append] at hbefore
        rw [ProxyTable.aliveIn] at hcount
        rw [hstep, List.countP_append, List.countP_singleton]
        split_ifs with hsame
        · rw [← of_decide_eq_true hsame] at hcount ⊢
          omega
        · omega

/-- Under the condition at most 1024 tasks run, and at most 256 for a session, at any time. -/
theorem stream_limits_hold (events : List Event) (h : Runs.Along step Orderly {} events) :
    Runs.Always step
      (fun s => s.table.alive.length ≤ 1024 ∧ ∀ session, s.table.aliveIn session ≤ 256) {}
      events := by
  have hstart : Within {} := ⟨by decide, fun session => Nat.zero_le _⟩
  have hr : Runs.Always step Within {} events :=
    Runs.always_invariant (fun s event hs ho => within_step hs event ho) hstart h
  apply Runs.always_mono _ hr
  intro s hs
  have hsub : s.table.alive.Sublist s.streams := List.sublist_append_left _ _
  exact ⟨hsub.length_le.trans hs.1, fun session => hsub.countP_le.trans (hs.2 session)⟩

def otherOpen : Bytes := encodeFrame ⟨kindOpen, 2, [1, 192, 0, 2, 1, 0, 80]⟩

theorem stream_limits_hold_two : Runs.Always step
      (fun s => s.table.alive.length ≤ 1024 ∧ ∀ session, s.table.aliveIn session ≤ 256) {}
      [.action (.frame 7 ProxyTable.sampleOpen true), .enter 0,
        .action (.frame 7 otherOpen true), .enter 0,
        .action (.frame 7 ProxyTable.sampleClose true), .action (.finish 0 false true true)] :=
  stream_limits_hold _ (by decide +kernel)

/-! ## Streams that are closed while their tasks connect -/

/-- A stream is opened and closed, and its task goes on. -/
def openAndClose : List Event :=
  [.action (.frame 7 ProxyTable.sampleOpen true), .enter 0,
    .action (.frame 7 ProxyTable.sampleClose true)]

/-- No stream is entered or about to be, and `n` tasks of session 7 run. -/
structure Forgotten (n : ℕ) (s : StreamServer) : Prop where
  streams : s.table.streams = []
  opening : s.opening = []
  alive : s.table.alive = List.replicate n (7, 1)

theorem removeAndClose_spawn {s : ProxyTable} (h : s.streams = []) (key : ℕ × ℕ)
    (target : TargetHost × ℕ) : (s.spawn key target).removeAndClose key =
      { s with streams := [], tasks := s.tasks ++ [{ key, target, input := [.close] }] } := by
  simp [ProxyTable.removeAndClose, ProxyTable.get, ProxyTable.spawn, ProxyTable.remove,
    ProxyTable.trySend, h, streamCapacity]

theorem forgotten_openAndClose {n : ℕ} (h : s.Forgotten n) :
    (openAndClose.foldl step s).Forgotten (n + 1) := by
  have hopen : parseFrame ProxyTable.sampleOpen = some ⟨kindOpen, 1, [1, 192, 0, 2, 1, 0, 80]⟩ := by
    decide +kernel
  have htarget : parseTarget [1, 192, 0, 2, 1, 0, 80] = .ok (.ipv4 [192, 0, 2, 1], 80) := by
    decide +kernel
  have hclose : parseFrame ProxyTable.sampleClose = some ⟨kindClose, 1, []⟩ := by
    decide +kernel
  have hfull : s.table.full 7 = false := by
    simp [ProxyTable.full, ProxyTable.sessionCount, h.streams, maxGlobalStreams, maxSessionStreams]
  have hacc : s.table.accepts (.frame 7 ProxyTable.sampleOpen true) =
      some ((7, 1), (.ipv4 [192, 0, 2, 1], 80)) := by
    simp [ProxyTable.accepts, hopen, ProxyTable.containsKey, h.streams, hfull, htarget]
  have hstream : (s.table.remove (7, 1)).streams = [] := by
    rw [ProxyTable.remove, h.streams, List.filter_nil]
  have hother : ∀ t : ProxyTable, t.accepts (.frame 7 ProxyTable.sampleClose true) = none := by
    simp [ProxyTable.accepts, hclose, kindClose, kindOpen]
  have hclosed : ∀ t : ProxyTable,
      t.step (.frame 7 ProxyTable.sampleClose true) = t.removeAndClose (7, 1) := by
    simp [ProxyTable.step, ProxyTable.handleFrame, hclose, ProxyTable.handleParsed, kindClose,
      kindOpen, kindData]
  have henter : (s.opening ++ [((7, 1), (.ipv4 [192, 0, 2, 1], 80))])[0]? =
      some ((7, 1), (TargetHost.ipv4 [192, 0, 2, 1], 80)) := by
    rw [h.opening]
    rfl
  rw [openAndClose, List.foldl_cons, List.foldl_cons, List.foldl_cons, List.foldl_nil,
    step_accepted hacc, step_enter henter, step_not_accepted (hother _), hclosed,
    removeAndClose_spawn hstream]
  refine ⟨rfl, ?_, ?_⟩
  · rw [h.opening]
    rfl
  · have htask : (s.table.remove (7, 1)).tasks = s.table.tasks := rfl
    have halive := h.alive
    rw [ProxyTable.alive] at halive ⊢
    rw [htask, List.filter_append, List.map_append, halive, List.replicate_succ']
    rfl

theorem forgotten_rounds (n : ℕ) :
    ((List.replicate n openAndClose).flatten.foldl step {}).Forgotten n := by
  induction n with
  | zero => exact ⟨rfl, rfl, rfl⟩
  | succ _ ih =>
    rw [List.replicate_succ', List.flatten_append, List.foldl_append]
    exact forgotten_openAndClose ih

theorem stream_limits_exceeded : ¬ Runs.Always step
      (fun s => s.table.alive.length ≤ 1024 ∧ ∀ session, s.table.aliveIn session ≤ 256) {}
      (List.replicate 1025 openAndClose).flatten := by
  intro h
  have hl := Runs.always_iff_take.mp h (List.replicate 1025 openAndClose).flatten.length
  rw [List.take_length, (forgotten_rounds 1025).alive, List.length_replicate] at hl
  exact absurd hl.1 (by decide)

end StreamServer
end Csqtt
