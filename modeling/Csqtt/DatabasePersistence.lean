import Csqtt.Runs
import Csqtt.ServerDatabase

/-!
# The writer of the database

Updates are numbered and queued for one worker. A snapshot replaces what is queued; traffic
counters are merged into the last update if that holds traffic too. The answer of `wait` is honest
as long as no traffic is written right after a write that failed.
-/

namespace Csqtt

structure TrafficCounters where
  upBytes : ℤ := 0
  downBytes : ℤ := 0
  deriving DecidableEq

structure TrafficSnapshot where
  main : Option TrafficCounters := none
  passwords : AList fun _ : Text => TrafficCounters := ∅
  devices : AList fun _ : Text => TrafficCounters := ∅

namespace TrafficSnapshot

def mergeFrom (t newer : TrafficSnapshot) : TrafficSnapshot where
  main := newer.main.or t.main
  passwords := newer.passwords ∪ t.passwords
  devices := newer.devices ∪ t.devices

def isEmpty (t : TrafficSnapshot) : Bool :=
  t.main.isNone && t.passwords.entries.isEmpty && t.devices.entries.isEmpty

end TrafficSnapshot

inductive PersistenceUpdate
  | snapshot (db : Database)
  | traffic (t : TrafficSnapshot)

def PersistenceUpdate.isSnapshot : PersistenceUpdate → Bool
  | .snapshot _ => true
  | .traffic _ => false

/-- A queued update. `merged` are the revisions it was submitted as; nothing reads them. -/
structure Pending where
  revision : ℕ
  update : PersistenceUpdate
  merged : List ℕ

structure PersistenceQueue where
  nextRevision : ℕ := 0
  processedRevision : ℕ := 0
  successfulRevision : ℕ := 0
  pending : List Pending := []
  workerRunning : Bool := false

def maxRevision : ℕ := 2 ^ 64 - 1

namespace PersistenceQueue

def bumpRevision (q : PersistenceQueue) : ℕ := min (q.nextRevision + 1) maxRevision

def submitSnapshot (q : PersistenceQueue) (db : Database) : PersistenceQueue × ℕ × Bool :=
  ({ q with
      nextRevision := q.bumpRevision
      pending := [⟨q.bumpRevision, .snapshot db, [q.bumpRevision]⟩]
      workerRunning := true },
    q.bumpRevision, !q.workerRunning)

def mergeTraffic (pending : List Pending) (revision : ℕ) (t : TrafficSnapshot) : List Pending :=
  match pending.getLast? with
  | some ⟨_, .traffic queued, merged⟩ =>
    pending.dropLast ++ [⟨revision, .traffic (queued.mergeFrom t), merged ++ [revision]⟩]
  | _ => pending ++ [⟨revision, .traffic t, [revision]⟩]

def submitTraffic (q : PersistenceQueue) (t : TrafficSnapshot) : PersistenceQueue × ℕ × Bool :=
  ({ q with
      nextRevision := q.bumpRevision
      pending := mergeTraffic q.pending q.bumpRevision t
      workerRunning := true },
    q.bumpRevision, !q.workerRunning)

def complete (q : PersistenceQueue) (revision : ℕ) (successful : Bool) : PersistenceQueue :=
  { q with
    processedRevision :=
      if q.processedRevision ≤ revision then revision else q.processedRevision
    successfulRevision :=
      if successful ∧ q.successfulRevision ≤ revision then revision else q.successfulRevision }

end PersistenceQueue

/-- The queue with its worker: the update that is being written, and those written so far. -/
structure Persistence where
  queue : PersistenceQueue := {}
  lastError : Option Text := none
  writing : Option Pending := none
  written : List Pending := []

namespace Persistence

inductive Input
  | submit (db : Database)
  | submitTraffic (t : TrafficSnapshot)
  | take
  | finish (error : Option Text)

def take (s : Persistence) : Persistence :=
  match s.writing, s.queue.pending with
  | none, p :: pending => { s with writing := some p, queue := { s.queue with pending } }
  | _, _ => s

/-- The worker comes back from a write. -/
def finish (s : Persistence) (error : Option Text) : Persistence :=
  match s.writing with
  | none => s
  | some p =>
    let queue := s.queue.complete p.revision error.isNone
    { queue
      lastError :=
        match error with
        | some e => some e
        | none => if p.revision ≤ queue.successfulRevision then none else s.lastError
      writing := none
      written := if error.isNone then s.written ++ [p] else s.written }

def step (s : Persistence) : Input → Persistence
  | .submit db => { s with queue := (s.queue.submitSnapshot db).1 }
  | .submitTraffic t =>
    if t.isEmpty then s else { s with queue := (s.queue.submitTraffic t).1 }
  | .take => s.take
  | .finish error => s.finish error

/-- What a waiter sees when it looks; `none` is to wait on. -/
def wait (s : Persistence) (revision : ℕ) : Option (Except Text Unit) :=
  if revision ≤ s.queue.successfulRevision then some (.ok ())
  else if revision ≤ s.queue.processedRevision then
    some (.error (s.lastError.getD "database persistence failed".toList))
  else none

end Persistence

/-! ## What the numbers mean -/

def Pending.Covers (p : Pending) (revision : ℕ) : Prop :=
  p.update.isSnapshot = true ∨ revision ∈ p.merged

instance (p : Pending) (revision : ℕ) : Decidable (p.Covers revision) :=
  inferInstanceAs (Decidable (_ ∨ _))

/-- The updates cover the revisions above `lo` up to `hi` one after the other. -/
def InOrder : ℕ → List Pending → ℕ → Prop
  | lo, [], hi => lo = hi
  | lo, p :: rest, hi => lo < p.revision ∧ (∀ r, lo < r → r ≤ p.revision → p.Covers r) ∧
      (∀ r ∈ p.merged, lo < r) ∧ InOrder p.revision rest hi

namespace InOrder

variable {lo hi : ℕ} {ps first : List Pending}

theorem le (h : InOrder lo ps hi) : lo ≤ hi := by
  induction ps generalizing lo with
  | nil => exact le_of_eq h
  | cons _ _ ih => exact h.1.le.trans (ih h.2.2.2)

variable {p : Pending}

theorem append (h : InOrder lo ps hi) (hrev : p.revision = hi + 1) (hc : p.Covers (hi + 1))
    (hm : p.merged = [hi + 1]) : InOrder lo (ps ++ [p]) (hi + 1) := by
  induction ps generalizing lo with
  | nil =>
    have hlo : lo = hi := h
    refine ⟨by omega, fun r hr hle => ?_, fun r hr => ?_, hrev⟩
    · rwa [show r = hi + 1 by omega]
    · rw [hm, List.mem_singleton] at hr
      omega
  | cons _ _ ih => exact ⟨h.1, h.2.1, h.2.2.1, ih h.2.2.2⟩

theorem extend {p' : Pending} (h : InOrder lo (ps ++ [p]) hi) (hrev : p'.revision = hi + 1)
    (hc : ∀ r, p.Covers r → p'.Covers r) (hn : p'.Covers (hi + 1))
    (hm : p'.merged = p.merged ++ [hi + 1]) : InOrder lo (ps ++ [p']) (hi + 1) := by
  induction ps generalizing lo with
  | nil =>
    obtain ⟨hlo, hcover, hb, he⟩ := h
    have hp : p.revision = hi := he
    refine ⟨by omega, fun r hr hle => ?_, fun r hr => ?_, hrev⟩
    · by_cases hl : r = hi + 1
      · rwa [hl]
      · exact hc r (hcover r hr (by omega))
    · rw [hm, List.mem_append, List.mem_singleton] at hr
      obtain hr | rfl := hr
      · exact hb r hr
      · omega
  | cons _ _ ih => exact ⟨h.1, h.2.1, h.2.2.1, ih h.2.2.2⟩

theorem replace (h : lo ≤ hi) (hrev : p.revision = hi + 1) (hs : p.update.isSnapshot = true)
    (hm : p.merged = [hi + 1]) : InOrder lo [p] (hi + 1) := by
  refine ⟨by omega, fun _ _ _ => .inl hs, fun r hr => ?_, hrev⟩
  rw [hm, List.mem_singleton] at hr
  omega

theorem mergeTraffic (h : InOrder lo (first ++ ps) hi)
    (t : TrafficSnapshot) :
    InOrder lo (first ++ PersistenceQueue.mergeTraffic ps (hi + 1) t) (hi + 1) := by
  unfold PersistenceQueue.mergeTraffic
  split
  · rename_i revision queued merged hl
    have hs : ps = ps.dropLast ++ [⟨revision, .traffic queued, merged⟩] :=
      (List.dropLast_append_getLast? _ hl).symm
    rw [hs, ← List.append_assoc] at h
    rw [← List.append_assoc]
    refine h.extend rfl (fun r hr => .inr ?_) (.inr ?_) rfl
    · obtain hsnapshot | hr := hr
      · cases hsnapshot
      · exact List.mem_append_left _ hr
    · exact List.mem_append_right _ (List.mem_singleton.mpr rfl)
  · rw [← List.append_assoc]
    exact h.append rfl (.inr (List.mem_singleton.mpr rfl)) rfl

end InOrder

namespace Persistence

/-- The numbers of the queue are in order. -/
structure Ordered (s : Persistence) : Prop where
  successful : s.queue.successfulRevision ≤ s.queue.processedRevision
  inOrder : InOrder s.queue.processedRevision (s.writing.toList ++ s.queue.pending)
    s.queue.nextRevision
  written : ∀ p ∈ s.written, p.revision ≤ s.queue.successfulRevision

/-- What was submitted as the revision, or a later snapshot, has been written. -/
def Durable (s : Persistence) (revision : ℕ) : Prop :=
  ∃ p ∈ s.written, revision ≤ p.revision ∧ p.Covers revision

instance (s : Persistence) (revision : ℕ) : Decidable (s.Durable revision) :=
  inferInstanceAs (Decidable (∃ p ∈ s.written, _))

/-- Whoever is told that its update is written can rely on it. -/
def Honest (s : Persistence) : Prop :=
  ∀ revision, 1 ≤ revision → s.wait revision = some (.ok ()) → s.Durable revision

variable {s s' : Persistence}

theorem wait_ok_iff {revision : ℕ} :
    s.wait revision = some (.ok ()) ↔ revision ≤ s.queue.successfulRevision := by
  unfold wait
  split_ifs with h h'
  · exact iff_of_true rfl h
  · refine iff_of_false (fun hf => ?_) h
    cases hf
  · exact iff_of_false (fun hf => by cases hf) h

/-- Traffic is written only if the write before it did not fail. -/
def TrafficAfterSuccess (s : Persistence) : Input → Prop
  | .finish none => ∀ p, s.writing = some p →
      p.update.isSnapshot = true ∨ s.queue.processedRevision = s.queue.successfulRevision
  | _ => True

def Unsaturated (s : Persistence) (_ : Input) : Prop := s.queue.nextRevision < maxRevision

instance (s : Persistence) (input : Input) : Decidable (s.Unsaturated input) :=
  inferInstanceAs (Decidable (_ < _))

theorem bumpRevision_eq {q : PersistenceQueue} (h : q.nextRevision < maxRevision) :
    q.bumpRevision = q.nextRevision + 1 :=
  min_eq_left h

theorem Ordered.take (h : s.Ordered) : s.take.Ordered := by
  unfold Persistence.take
  split
  · rename_i p pending hw hp
    refine ⟨h.successful, ?_, h.written⟩
    have hq := h.inOrder
    rwa [hw, hp] at hq
  · exact h

theorem complete_eq {q : PersistenceQueue} {revision : ℕ} (hp : q.processedRevision ≤ revision)
    (hs : q.successfulRevision ≤ revision) (successful : Bool) :
    q.complete revision successful = { q with
      processedRevision := revision
      successfulRevision := if successful then revision else q.successfulRevision } := by
  rw [PersistenceQueue.complete, if_pos hp]
  simp only [hs, and_true]

theorem Ordered.finish (h : s.Ordered) (error : Option Text) :
    (s.finish error).Ordered := by
  unfold Persistence.finish
  cases hw : s.writing with
  | none => exact h
  | some p =>
    have hqueue := h.inOrder
    rw [hw] at hqueue
    obtain ⟨hlt, -, -, hr⟩ := hqueue
    have hs : s.queue.successfulRevision ≤ p.revision := h.successful.trans hlt.le
    dsimp only
    rw [complete_eq hlt.le hs]
    cases error with
    | none =>
      refine ⟨le_rfl, hr, fun q hq => ?_⟩
      obtain hq | hq := List.mem_append.mp hq
      · exact (h.written q hq).trans hs
      · exact (List.mem_singleton.mp hq ▸ le_rfl)
    | some => exact ⟨hs, hr, h.written⟩

theorem Ordered.step (h : s.Ordered) {input : Input} (hq : s.Unsaturated input) :
    (s.step input).Ordered := by
  cases input with
  | submit =>
    refine ⟨h.successful, ?_, h.written⟩
    rw [Persistence.step, PersistenceQueue.submitSnapshot, bumpRevision_eq hq]
    have hqueue := h.inOrder
    cases hw : s.writing with
    | none => exact InOrder.replace hqueue.le rfl rfl rfl
    | some =>
      rw [hw] at hqueue
      exact ⟨hqueue.1, hqueue.2.1, hqueue.2.2.1, InOrder.replace hqueue.2.2.2.le rfl rfl rfl⟩
  | submitTraffic t =>
    rw [Persistence.step]
    split_ifs
    · exact h
    · refine ⟨h.successful, ?_, h.written⟩
      rw [PersistenceQueue.submitTraffic, bumpRevision_eq hq]
      exact h.inOrder.mergeTraffic t
  | take => exact h.take
  | finish error => exact h.finish error

theorem Honest.of_eq (h : s.Honest)
    (hs : s'.queue.successfulRevision = s.queue.successfulRevision)
    (hwritten : s'.written = s.written) : s'.Honest := by
  intro revision ho hw
  rw [wait_ok_iff, hs, ← wait_ok_iff] at hw
  have hd := h revision ho hw
  rwa [Durable, hwritten]

theorem honest_finish_iff (h : s.Ordered) (hs : s.Honest) {p : Pending}
    (hwrite : s.writing = some p) :
    (s.finish none).Honest ↔
      p.update.isSnapshot = true ∨ s.queue.processedRevision = s.queue.successfulRevision := by
  have hqueue := h.inOrder
  rw [hwrite] at hqueue
  obtain ⟨hlt, hcovers, hbelow, -⟩ := hqueue
  have hsucc : (s.finish none).queue.successfulRevision = p.revision := by
    rw [Persistence.finish, hwrite]
    dsimp only
    rw [complete_eq hlt.le (h.successful.trans hlt.le)]
    rfl
  have hwritten : (s.finish none).written = s.written ++ [p] := by
    rw [Persistence.finish, hwrite]
    rfl
  constructor
  · intro hhonest
    by_contra hno
    obtain ⟨htraffic, hfail⟩ := not_or.mp hno
    -- the update that failed last is now said to be written
    have hgap : s.queue.successfulRevision < s.queue.processedRevision :=
      lt_of_le_of_ne h.successful (Ne.symm hfail)
    obtain ⟨q, hq, hle, hcover⟩ := hhonest s.queue.processedRevision (by omega)
      (wait_ok_iff.mpr (hsucc ▸ hlt.le))
    rw [hwritten] at hq
    obtain hq | hq := List.mem_append.mp hq
    · have hbound := h.written q hq
      omega
    · rw [List.mem_singleton.mp hq] at hcover
      exact lt_irrefl _ (hbelow _ (hcover.resolve_left htraffic))
  · intro hcond revision hone hwait
    rw [wait_ok_iff, hsucc] at hwait
    rw [Durable, hwritten]
    by_cases hold : revision ≤ s.queue.successfulRevision
    · obtain ⟨q, hq, hle, hcover⟩ := hs revision hone (wait_ok_iff.mpr hold)
      exact ⟨q, List.mem_append_left _ hq, hle, hcover⟩
    · refine ⟨p, List.mem_append_right _ (List.mem_singleton.mpr rfl), hwait, ?_⟩
      obtain hsnap | heq := hcond
      · exact .inl hsnap
      · exact hcovers revision (by omega) hwait

theorem honest_step_iff (h : s.Ordered) (hs : s.Honest) (input : Input) :
    (s.step input).Honest ↔ s.TrafficAfterSuccess input := by
  cases input with
  | submit => exact iff_of_true (hs.of_eq rfl rfl) trivial
  | submitTraffic =>
    refine iff_of_true ?_ trivial
    rw [step]
    split_ifs
    · exact hs
    · exact hs.of_eq rfl rfl
  | take =>
    refine iff_of_true ?_ trivial
    rw [step, take]
    split
    · exact hs.of_eq rfl rfl
    · exact hs
  | finish error =>
    cases hwrite : s.writing with
    | none =>
      have hsame : s.step (.finish error) = s := by rw [step, finish, hwrite]
      rw [hsame]
      refine iff_of_true hs ?_
      cases error with
      | none =>
        intro p hp
        rw [hwrite] at hp
        cases hp
      | some => trivial
    | some p =>
      cases error with
      | none =>
        rw [step, honest_finish_iff h hs hwrite]
        refine ⟨fun hcond q hq => ?_, fun hcond => hcond p hwrite⟩
        rw [hwrite] at hq
        cases hq
        exact hcond
      | some =>
        refine iff_of_true (hs.of_eq ?_ ?_) trivial
        · rw [step, finish, hwrite]
          simp [PersistenceQueue.complete]
        · rw [step, finish, hwrite]
          rfl

/-- At every moment of a run the answers are honest exactly if no traffic was written right after a
write that failed. -/
theorem durability_answers_iff (inputs : List Input)
    (h : Runs.Along step Unsaturated {} inputs) :
    Runs.Always step Honest {} inputs ↔ Runs.Along step TrafficAfterSuccess {} inputs := by
  refine Runs.always_iff_along (I := Ordered) (Q := Unsaturated) (fun s input hs hq => hs.step hq)
    (fun s input hs hh _ => honest_step_iff hs hh input) ?_ ?_ h
  · exact ⟨le_rfl, rfl, fun _ hp => by cases hp⟩
  · intro revision ho hw
    rw [wait_ok_iff] at hw
    exact absurd hw (Nat.not_le.mpr ho)

def mainTraffic : TrafficSnapshot := { main := some ⟨10, 20⟩ }

/-- After a write that failed, a snapshot is written. -/
theorem durability_answers_snapshot :
    Runs.Always step Honest {}
      [.submit {}, .take, .finish (some "disk full".toList), .submit {}, .take, .finish none] :=
  (durability_answers_iff _ (by decide +kernel)).mpr
    ⟨trivial, trivial, trivial, trivial, trivial, fun _ hp => .inl (by cases hp; rfl), trivial⟩

/-- A snapshot could not be written. Before its waiter looks, traffic is submitted and written, and
the waiter is told that its snapshot is safe. -/
theorem lost_snapshot_confirmed :
    (([.submit {}, .take, .finish (some "disk full".toList)] : List Input).foldl step {}).wait 1 =
        some (.error "disk full".toList) ∧
      (([.submit {}, .take, .finish (some "disk full".toList), .submitTraffic mainTraffic, .take,
        .finish none] : List Input).foldl step {}).wait 1 = some (.ok ()) ∧
      ¬ (([.submit {}, .take, .finish (some "disk full".toList), .submitTraffic mainTraffic, .take,
        .finish none] : List Input).foldl step {}).Durable 1 := by
  decide +kernel

end Persistence
end Csqtt
