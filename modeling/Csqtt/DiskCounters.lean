import Csqtt.Runs
import Csqtt.TrafficFlush

/-!
# The counters on disk

A task submits its snapshot before it releases the lock, a flush at any time after. Once every
flush has submitted and the queue is empty the counters on disk are those in memory, as long as no
flush captures while another has not submitted, no client gets a password meanwhile, and no refused
request for a new client drops expired passwords, which nothing submits.
-/

namespace Csqtt

/-! ## Counters that agree -/

structure Tables.Counts (t : Tables) (db : Database) : Prop where
  main : t.counters.lookup () = some db.mainCounters
  passwords : ∀ password, (t.passwords.lookup password).map PasswordEntry.counters =
    (db.passwords.lookup password).map PasswordEntry.counters
  devices : ∀ deviceId, (t.devices.lookup deviceId).map DeviceRow.counters =
    (db.devices.lookup deviceId).map ClientDevice.counters

structure TrafficSnapshot.Fresh (traffic : TrafficSnapshot) (db : Database) : Prop where
  main : ∀ c, traffic.main = some c → db.mainCounters = c
  passwords : ∀ password entry c, traffic.passwords.lookup password = some c →
    db.passwords.lookup password = some entry → entry.counters = c
  devices : ∀ deviceId c, traffic.devices.lookup deviceId = some c →
    ∃ device, db.devices.lookup deviceId = some device ∧ device.counters = c

namespace Tables

variable {t : Tables} {db : Database}

theorem Counts.of_agrees {t' : Tables} (h : t.Counts db) (ha : t'.Agrees t) : t'.Counts db where
  main := ha.counters.trans h.main
  passwords password := by
    rw [ha.passwords]
    exact h.passwords password
  devices deviceId := by
    rw [ha.devices]
    exact h.devices deviceId

theorem counts_writeDatabaseSnapshot (t : Tables) (hk : db.Keyed) :
    (t.writeDatabaseSnapshot db).Counts db where
  main := lookup_counters t db
  passwords password := by rw [lookup_passwords]
  devices deviceId := by
    rw [lookup_devices t hk, Option.map_map]
    rfl

theorem Counts.of_same {db' : Database} (h : t.Counts db) (hs : db.SameCounters db') :
    t.Counts db' where
  main := hs.main ▸ h.main
  passwords password := by
    rw [hs.passwords]
    exact h.passwords password
  devices deviceId := by
    rw [hs.devices]
    exact h.devices deviceId

theorem Counts.writeTraffic (h : t.Counts db) {traffic : TrafficSnapshot}
    (hfresh : traffic.Fresh db) :
    (t.writeTraffic traffic).Counts db where
  main := by
    rw [lookup_counters_writeTraffic, h.main]
    cases hmain : traffic.main with
    | none => rfl
    | some c => exact congrArg some (hfresh.main c hmain).symm
  passwords password := by
    have hrow := h.passwords password
    rw [lookup_passwords_writeTraffic]
    cases hcapture : traffic.passwords.lookup password with
    | none =>
      rw [Option.map_map]
      exact hrow
    | some c =>
      cases hold : t.passwords.lookup password with
      | none =>
        rw [hold] at hrow
        exact hrow
      | some =>
        rw [hold] at hrow
        obtain ⟨entry, hentry, -⟩ := Option.map_eq_some_iff.mp hrow.symm
        rw [hentry]
        exact congrArg some (hfresh.passwords password entry c hcapture hentry).symm
  devices deviceId := by
    have hrow := h.devices deviceId
    rw [lookup_devices_writeTraffic]
    cases hcapture : traffic.devices.lookup deviceId with
    | none =>
      rw [Option.map_map]
      exact hrow
    | some c =>
      obtain ⟨device, hdev, hcount⟩ := hfresh.devices deviceId c hcapture
      rw [hdev] at hrow ⊢
      obtain ⟨row, hold, -⟩ := Option.map_eq_some_iff.mp hrow
      rw [hold]
      exact congrArg some hcount.symm

end Tables

namespace Captured

variable {db : Database} {flushed : Database × TrafficSnapshot}

/-- With what was captured the rows of the old database become those of the new one. -/
theorem counts (h : Captured db flushed) {t : Tables} (ht : t.Counts db) :
    (t.writeTraffic flushed.2).Counts flushed.1 where
  main := by
    rw [Tables.lookup_counters_writeTraffic, ht.main, h.main]
    cases flushed.2.main with
    | none | some => rfl
  passwords password := by
    have hrow := ht.passwords password
    rw [Tables.lookup_passwords_writeTraffic, h.passwords, Option.map_map, Option.map_map]
    cases flushed.2.passwords.lookup password with
    | none => exact hrow
    | some =>
      cases hold : t.passwords.lookup password with
      | none =>
        rw [hold] at hrow
        rw [Option.map_eq_none_iff.mp hrow.symm]
      | some =>
        rw [hold] at hrow
        obtain ⟨entry, hentry, -⟩ := Option.map_eq_some_iff.mp hrow.symm
        rw [hentry]
        rfl
  devices deviceId := by
    have hrow := ht.devices deviceId
    rw [Tables.lookup_devices_writeTraffic, h.devices, Option.map_map, Option.map_map]
    cases flushed.2.devices.lookup deviceId with
    | none => exact hrow
    | some =>
      cases hold : t.devices.lookup deviceId with
      | none =>
        rw [hold] at hrow
        rw [Option.map_eq_none_iff.mp hrow.symm]
        rfl
      | some =>
        rw [hold] at hrow
        obtain ⟨device, hdev, -⟩ := Option.map_eq_some_iff.mp hrow.symm
        rw [hdev]
        rfl

theorem fresh (h : Captured db flushed) : flushed.2.Fresh flushed.1 where
  main c hc := by rw [h.main, hc, Option.getD_some]
  passwords password entry c hc he := by
    rw [h.passwords, hc] at he
    obtain ⟨old, -, rfl⟩ := Option.map_eq_some_iff.mp he
    rfl
  devices deviceId c hc := by
    have hm := h.known deviceId (AList.lookup_isSome.mp (Option.isSome_iff_exists.mpr ⟨c, hc⟩))
    obtain ⟨device, hd⟩ := Option.isSome_iff_exists.mp (AList.lookup_isSome.mpr hm)
    rw [h.devices, hc, hd]
    exact ⟨_, rfl, rfl⟩

theorem keyed (h : Captured db flushed) (hk : db.Keyed) : flushed.1.Keyed := by
  intro deviceId device hd
  rw [h.devices] at hd
  obtain ⟨old, ho, rfl⟩ := Option.map_eq_some_iff.mp hd
  cases flushed.2.devices.lookup deviceId with
  | none | some => exact hk deviceId old ho

end Captured

theorem TrafficSnapshot.Fresh.keeps {traffic : TrafficSnapshot} {created : Option Text}
    {db db' : Database} (h : traffic.Fresh db) (hk : db.KeepsCounters created db')
    (hcreated : ∀ password ∈ traffic.passwords, created ≠ some password) : traffic.Fresh db' where
  main c hc := hk.main.trans (h.main c hc)
  passwords password entry' c hc he' := by
    have hm : password ∈ traffic.passwords :=
      AList.lookup_isSome.mp (Option.isSome_iff_exists.mpr ⟨c, hc⟩)
    obtain ⟨entry, he, heq⟩ := hk.passwords password entry' (hcreated password hm) he'
    exact heq.trans (h.passwords password entry c hc he)
  devices deviceId c hc := by
    obtain ⟨device, hd, hcount⟩ := h.devices deviceId c hc
    obtain ⟨device', hd', heq⟩ := hk.devices deviceId device hd
    exact ⟨device', hd', heq.trans hcount⟩

/-! ## Flushes and other tasks -/

/-- The database, what flushes have captured and not submitted yet, and the queue. -/
structure Flushing where
  db : Database
  captured : List TrafficSnapshot := []
  persistence : Persistence := {}

namespace Flushing

inductive Input
  | capture (sessions : List SessionTraffic)
  | submit (i : ℕ)
  | task (task : DatabaseTask)
  | take
  | finish (error : Option Text)

def step (net : Subnet) (s : Flushing) : Input → Flushing
  | .capture sessions =>
    let (db, traffic) := s.db.flushTraffic sessions
    { s with db, captured := s.captured ++ [traffic] }
  | .submit i =>
    match s.captured[i]? with
    | none => s
    | some traffic =>
      { s with
        captured := s.captured.eraseIdx i
        persistence := s.persistence.step (.submitTraffic traffic) }
  | .task task =>
    let db := s.db.write net task
    let persistence :=
      if s.db.submits net task then s.persistence.step (.submit db) else s.persistence
    { s with db, persistence }
  | .take => { s with persistence := s.persistence.step .take }
  | .finish error => { s with persistence := s.persistence.step (.finish error) }

/-- A flush captures only when the others have submitted, no client gets a password that a flush has
counters for, and no refused creation drops a password. -/
def Alone (s : Flushing) : Input → Prop
  | .capture _ => s.captured = []
  | .task task => s.db.dropped task = [] ∧ ∀ traffic ∈ s.captured,
      ∀ password ∈ traffic.passwords, s.db.created task ≠ some password
  | _ => True

structure Drained (s : Flushing) : Prop where
  captured : s.captured = []
  writing : s.persistence.writing = none
  pending : s.persistence.queue.pending = []

/-- The counters are on disk, or in what waits to be written or submitted. -/
structure Counted (t : Tables) (s : Flushing) : Prop where
  keyed : s.db.Keyed
  single : s.captured.length ≤ 1
  fresh : ∀ traffic ∈ s.captured, traffic.Fresh s.db
  counts : (s.captured.foldl Tables.writeTraffic (s.persistence.settled t)).Counts s.db

variable {net : Subnet} {t : Tables} {s : Flushing}

theorem counted_capture (h : Counted t s) (hc : s.captured = [])
    (sessions : List SessionTraffic) : Counted t (s.step net (.capture sessions)) := by
  have hf := captured_flushTraffic s.db sessions
  have hcount := h.counts
  rw [hc] at hcount
  refine ⟨hf.keyed h.keyed, ?_, fun traffic ht => ?_, ?_⟩
  · rw [step, hc]
    exact le_rfl
  · rw [step, hc] at ht
    rw [List.mem_singleton.mp ht]
    exact hf.fresh
  · rw [step, hc]
    exact hf.counts hcount

theorem counted_submit (h : Counted t s) (i : ℕ) : Counted t (s.step net (.submit i)) := by
  rw [step]
  cases hi : s.captured[i]? with
  | none => exact h
  | some traffic =>
    have hs := h.single
    obtain ⟨hlt, -⟩ := List.getElem?_eq_some_iff.mp hi
    obtain rfl : i = 0 := by omega
    obtain ⟨traffic', hc⟩ := List.length_eq_one_iff.mp (by omega : s.captured.length = 1)
    have hcount := h.counts
    rw [hc] at hi hcount
    obtain rfl : traffic' = traffic := Option.some.inj hi
    rw [hc]
    refine ⟨h.keyed, Nat.zero_le 1, fun _ hm => absurd hm List.not_mem_nil, ?_⟩
    exact hcount.of_agrees (s.persistence.agrees_submitTraffic t traffic')

theorem counts_foldl {db : Database} (h : t.Counts db) {captured : List TrafficSnapshot}
    (hf : ∀ traffic ∈ captured, traffic.Fresh db) :
    (captured.foldl Tables.writeTraffic t).Counts db := by
  induction captured generalizing t with
  | nil => exact h
  | cons traffic _ ih =>
    exact ih (h.writeTraffic (hf traffic List.mem_cons_self))
      fun traffic' hm => hf traffic' (List.mem_cons_of_mem traffic hm)

theorem counted_task (h : Counted t s) {task : DatabaseTask} (ha : s.Alone (.task task)) :
    Counted t (s.step net (.task task)) := by
  have hkeep := s.db.keepsCounters_write net task
  have hkeyed := hkeep.keyed h.keyed
  have hfresh : ∀ traffic ∈ s.captured, traffic.Fresh (s.db.write net task) := fun traffic ht =>
    (h.fresh traffic ht).keeps hkeep (ha.2 traffic ht)
  refine ⟨hkeyed, h.single, hfresh, ?_⟩
  rw [step]
  cases hs : s.db.submits net task with
  | false => exact h.counts.of_same (Database.sameCounters_of_not_submits hs ha.1)
  | true =>
    obtain ⟨t', hsettled, -⟩ := s.persistence.settled_submit t (s.db.write net task)
    refine counts_foldl ?_ hfresh
    rw [if_pos rfl, hsettled]
    exact t'.counts_writeDatabaseSnapshot hkeyed

theorem counted_step (h : Counted t s) {input : Input} (ha : s.Alone input)
    (hs : ∀ error, input ≠ .finish (some error)) : Counted t (s.step net input) := by
  cases input with
  | capture sessions => exact counted_capture h ha sessions
  | submit i => exact counted_submit h i
  | task => exact counted_task h ha
  | take =>
    refine ⟨h.keyed, h.single, h.fresh, ?_⟩
    rw [step, Persistence.settled_take]
    exact h.counts
  | finish error =>
    cases error with
    | some error => exact absurd rfl (hs error)
    | none =>
      refine ⟨h.keyed, h.single, h.fresh, ?_⟩
      rw [step, Persistence.settled_finish]
      exact h.counts

/-- The server starts with its database on disk. When all flushes have returned and the queue is
empty, the counters on disk are those in memory. -/
theorem disk_catches_up (net : Subnet) (t : Tables) {db : Database} (hkeyed : db.Keyed)
    {inputs : List Input} (hsuccess : ∀ error, Input.finish (some error) ∉ inputs)
    (halone : Runs.Along (step net) Alone { db } inputs)
    (hdrained : (inputs.foldl (step net) { db }).Drained) :
    ((inputs.foldl (step net) { db }).persistence.disk (t.writeDatabaseSnapshot db)).Counts
      (inputs.foldl (step net) { db }).db := by
  have hf : Runs.Along (step net) (fun _ input => ∀ error, input ≠ .finish (some error)) { db }
      inputs :=
    Runs.along_of_forall_mem (step net) { db } fun input hin error heq => hsuccess error (heq ▸ hin)
  have hs : Counted (t.writeDatabaseSnapshot db) { db } :=
    ⟨hkeyed, Nat.zero_le 1, fun _ hm => absurd hm List.not_mem_nil,
      t.counts_writeDatabaseSnapshot hkeyed⟩
  have hr : Counted (t.writeDatabaseSnapshot db) (inputs.foldl (step net) { db }) :=
    Runs.invariant (fun s input h hin => counted_step h hin.1 hin.2) hs
      (Runs.along_and.mpr ⟨halone, hf⟩)
  have hc := hr.counts
  rwa [Persistence.settled, hdrained.captured, hdrained.writing, hdrained.pending] at hc

/-- A flush and the worker, with one session of the main password. -/
theorem disk_catches_up_once :
    (([.capture [⟨"m".toList, [], 1, 2⟩], .submit 0, .take, .finish none].foldl (step default)
      { db := { mainPassword := "m".toList } }).persistence.disk
        (Tables.writeDatabaseSnapshot {} { mainPassword := "m".toList })).Counts
      ([.capture [⟨"m".toList, [], 1, 2⟩], .submit 0, .take, .finish none].foldl (step default)
        { db := { mainPassword := "m".toList } }).db :=
  disk_catches_up default {} (AList.forall_lookup_iff.mpr (by decide)) (by simp)
    ⟨rfl, trivial, trivial, trivial, trivial⟩ ⟨rfl, rfl, rfl⟩

/-- Two flushes capture one after the other, and the later one submits first. -/
theorem disk_catches_up_overtaken : ∃ (t : Tables) (db : Database) (inputs : List Input), db.Keyed ∧
      (∀ error, Input.finish (some error) ∉ inputs) ∧ (inputs.foldl (step default) { db }).Drained ∧
      ¬ ((inputs.foldl (step default) { db }).persistence.disk (t.writeDatabaseSnapshot db)).Counts
        (inputs.foldl (step default) { db }).db := by
  refine ⟨{}, { mainPassword := "m".toList },
    [.capture [⟨"m".toList, [], 1, 2⟩], .capture [⟨"m".toList, [], 1, 2⟩], .submit 1, .submit 0,
      .take, .finish none], AList.forall_lookup_iff.mpr (by decide), by simp, ⟨rfl, rfl, rfl⟩,
    fun h => absurd h.main ?_⟩
  decide +kernel

end Flushing
end Csqtt
