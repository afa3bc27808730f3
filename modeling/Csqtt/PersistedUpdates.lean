import Csqtt.StoredTables

/-!
# What the queue leaves on disk

A snapshot takes the place of the rows, traffic sets the counters of the rows that are there. A
queue drops what a later snapshot holds anyway and merges traffic, so the tables end as if each
update had been written by itself.
-/

namespace Csqtt

def PasswordEntry.setTraffic (c : TrafficCounters) (entry : PasswordEntry) : PasswordEntry :=
  { entry with upBytes := c.upBytes, downBytes := c.downBytes }

def DeviceRow.setTraffic (c : TrafficCounters) (row : DeviceRow) : DeviceRow :=
  { row with upBytes := c.upBytes, downBytes := c.downBytes }

namespace Tables

open Table (upsert upsertAll replaced rowOf)

def writeTraffic (t : Tables) (traffic : TrafficSnapshot) : Tables :=
  if traffic.isEmpty then t
  else
    { t with
      counters :=
        match traffic.main with
        | some main => upsert replaced t.counters ((), main)
        | none => t.counters
      passwords := t.passwords.updateAll PasswordEntry.setTraffic (Table.rows traffic.passwords)
      devices := t.devices.updateAll DeviceRow.setTraffic (Table.rows traffic.devices) }

def persistDatabaseUpdate (t : Tables) : PersistenceUpdate → Tables
  | .snapshot db => t.writeDatabaseSnapshot db
  | .traffic traffic => t.writeTraffic traffic

structure Agrees (t t' : Tables) : Prop where
  metaRows : ∀ key, t.metaRows.lookup key = t'.metaRows.lookup key
  counters : t.counters.lookup () = t'.counters.lookup ()
  passwords : ∀ password, t.passwords.lookup password = t'.passwords.lookup password
  devices : ∀ deviceId, t.devices.lookup deviceId = t'.devices.lookup deviceId
  localProxyProfiles : ∀ id, t.localProxyProfiles.lookup id = t'.localProxyProfiles.lookup id
  localProxyState : t.localProxyState.lookup () = t'.localProxyState.lookup ()

namespace Agrees

theorem refl (t : Tables) : t.Agrees t :=
  ⟨fun _ => rfl, rfl, fun _ => rfl, fun _ => rfl, fun _ => rfl, rfl⟩

theorem trans {t t' t'' : Tables} (h : t.Agrees t') (h' : t'.Agrees t'') : t.Agrees t'' where
  metaRows key := (h.metaRows key).trans (h'.metaRows key)
  counters := h.counters.trans h'.counters
  passwords password := (h.passwords password).trans (h'.passwords password)
  devices deviceId := (h.devices deviceId).trans (h'.devices deviceId)
  localProxyProfiles id := (h.localProxyProfiles id).trans (h'.localProxyProfiles id)
  localProxyState := h.localProxyState.trans h'.localProxyState

end Agrees

/-! ## Snapshots -/

variable (t : Tables) {key : Text}

theorem lookup_foreign_writeDatabaseSnapshot (db : Database) (h : MetaKey.ofText key = none) :
    (t.writeDatabaseSnapshot db).metaRows.lookup key = t.metaRows.lookup key := by
  have hne : ∀ k : MetaKey, key ≠ k.text := by
    intro k hk
    rw [MetaKey.ofText_eq_some_iff.mpr hk] at h
    cases h
  have hr : rowOf (MetaKey.rows db.metaValues).reverse key = none := by
    rw [Table.rowOf_eq_none_iff]
    intro hm
    obtain ⟨row, hrow, rfl⟩ := List.mem_map.mp hm
    obtain ⟨value, -, rfl⟩ := List.mem_map.mp (List.mem_reverse.mp hrow)
    exact hne value.1 rfl
  have hl : (upsertAll replaced t.metaRows (MetaKey.rows db.metaValues)).lookup key =
      t.metaRows.lookup key := by
    rw [Table.lookup_upsertAll_replaced, hr, Option.none_or]
  rw [writeDatabaseSnapshot]
  cases db.loggingActive with
  | some =>
    rw [Table.lookup_upsert, if_neg (hne .loggingActive), hl]
  | none =>
    rw [AList.lookup_erase_ne (hne .loggingActive), hl]

theorem lookup_foreign_persist (u : PersistenceUpdate) (h : MetaKey.ofText key = none) :
    (t.persistDatabaseUpdate u).metaRows.lookup key = t.metaRows.lookup key := by
  cases u with
  | snapshot db => exact t.lookup_foreign_writeDatabaseSnapshot db h
  | traffic =>
    rw [persistDatabaseUpdate, writeTraffic]
    split_ifs
    · rfl
    · rfl

/-- A snapshot leaves nothing of what was there, except rows that the server has no name for. -/
theorem agrees_writeDatabaseSnapshot {t t' : Tables} {db : Database} (hkeyed : db.Keyed)
    (h : ∀ key, MetaKey.ofText key = none → t.metaRows.lookup key = t'.metaRows.lookup key) :
    (t.writeDatabaseSnapshot db).Agrees (t'.writeDatabaseSnapshot db) where
  metaRows key := by
    cases hk : MetaKey.ofText key with
    | none =>
      rw [lookup_foreign_writeDatabaseSnapshot t db hk,
        lookup_foreign_writeDatabaseSnapshot t' db hk]
      exact h key hk
    | some k =>
      rw [MetaKey.ofText_eq_some_iff.mp hk, lookup_metaRows, lookup_metaRows]
      cases k <;> rfl
  counters := by rw [lookup_counters, lookup_counters]
  passwords password := by rw [lookup_passwords, lookup_passwords]
  devices deviceId := by rw [lookup_devices t hkeyed, lookup_devices t' hkeyed]
  localProxyProfiles id := by rw [lookup_localProxyProfiles, lookup_localProxyProfiles]
  localProxyState := by rw [lookup_localProxyState, lookup_localProxyState]

/-! ## Traffic -/

variable (traffic : TrafficSnapshot)

theorem writeTraffic_eq : t.writeTraffic traffic = { t with
        counters :=
          match traffic.main with
          | some main => upsert replaced t.counters ((), main)
          | none => t.counters
        passwords := t.passwords.updateAll PasswordEntry.setTraffic (Table.rows traffic.passwords)
        devices := t.devices.updateAll DeviceRow.setTraffic (Table.rows traffic.devices) } := by
  unfold writeTraffic
  split_ifs with h
  · simp only [TrafficSnapshot.isEmpty, Bool.and_eq_true, Option.isNone_iff_eq_none,
      List.isEmpty_iff] at h
    obtain ⟨⟨hm, hp⟩, hd⟩ := h
    rw [hm, Table.rows, hp, Table.rows, hd]
    rfl
  · rfl

theorem lookup_counters_writeTraffic :
    (t.writeTraffic traffic).counters.lookup () = traffic.main.or (t.counters.lookup ()) := by
  rw [writeTraffic_eq]
  cases traffic.main with
  | none => rfl
  | some => exact Table.lookup_upsert_replaced _ _ _

theorem lookup_passwords_writeTraffic (password : Text) :
    (t.writeTraffic traffic).passwords.lookup password =
    (t.passwords.lookup password).map fun entry =>
      (traffic.passwords.lookup password).elim entry (PasswordEntry.setTraffic · entry) := by
  rw [writeTraffic_eq]
  exact Table.lookup_updateAll _ _ _ _

theorem lookup_devices_writeTraffic (deviceId : Text) :
    (t.writeTraffic traffic).devices.lookup deviceId = (t.devices.lookup deviceId).map fun row =>
      (traffic.devices.lookup deviceId).elim row (DeviceRow.setTraffic · row) := by
  rw [writeTraffic_eq]
  exact Table.lookup_updateAll _ _ _ _

theorem Agrees.writeTraffic {t t' : Tables} (h : t.Agrees t') (traffic : TrafficSnapshot) :
    (t.writeTraffic traffic).Agrees (t'.writeTraffic traffic) where
  metaRows key := by
    rw [writeTraffic_eq, writeTraffic_eq]
    exact h.metaRows key
  counters := by rw [lookup_counters_writeTraffic, lookup_counters_writeTraffic, h.counters]
  passwords password := by
    rw [lookup_passwords_writeTraffic, lookup_passwords_writeTraffic, h.passwords]
  devices deviceId := by rw [lookup_devices_writeTraffic, lookup_devices_writeTraffic, h.devices]
  localProxyProfiles id := by
    rw [writeTraffic_eq, writeTraffic_eq]
    exact h.localProxyProfiles id
  localProxyState := by
    rw [writeTraffic_eq, writeTraffic_eq]
    exact h.localProxyState

theorem elim_or_setTraffic {β : Type*} (set : TrafficCounters → β → β)
    (hs : ∀ c c' b, set c' (set c b) = set c' b) (older newer : Option TrafficCounters) (b : β) :
    (newer.or older).elim b (set · b) =
      newer.elim (older.elim b (set · b)) fun c => set c (older.elim b (set · b)) := by
  cases newer with
  | none => rfl
  | some c' =>
    cases older with
    | none => rfl
    | some c => exact (hs c c' b).symm

theorem agrees_mergeFrom (older newer : TrafficSnapshot) :
    (t.writeTraffic (older.mergeFrom newer)).Agrees
    ((t.writeTraffic older).writeTraffic newer) where
  metaRows key := by
    rw [writeTraffic_eq, writeTraffic_eq, writeTraffic_eq]
  counters := by
    rw [lookup_counters_writeTraffic, lookup_counters_writeTraffic, lookup_counters_writeTraffic,
      TrafficSnapshot.mergeFrom, Option.or_assoc]
  passwords password := by
    rw [lookup_passwords_writeTraffic, lookup_passwords_writeTraffic, lookup_passwords_writeTraffic,
      Option.map_map]
    refine Option.map_congr fun entry _ => ?_
    rw [TrafficSnapshot.mergeFrom, AList.lookup_union]
    exact elim_or_setTraffic PasswordEntry.setTraffic (fun _ _ _ => rfl) _ _ entry
  devices deviceId := by
    rw [lookup_devices_writeTraffic, lookup_devices_writeTraffic, lookup_devices_writeTraffic,
      Option.map_map]
    refine Option.map_congr fun row _ => ?_
    rw [TrafficSnapshot.mergeFrom, AList.lookup_union]
    exact elim_or_setTraffic DeviceRow.setTraffic (fun _ _ _ => rfl) _ _ row
  localProxyProfiles id := by
    rw [writeTraffic_eq, writeTraffic_eq, writeTraffic_eq]
  localProxyState := by
    rw [writeTraffic_eq, writeTraffic_eq, writeTraffic_eq]

/-! ## Updates one after the other -/

def persistAll (t : Tables) (updates : List PersistenceUpdate) : Tables :=
  updates.foldl persistDatabaseUpdate t

theorem persistAll_append (us us' : List PersistenceUpdate) :
    t.persistAll (us ++ us') = (t.persistAll us).persistAll us' :=
  List.foldl_append

theorem lookup_foreign_persistAll (us : List PersistenceUpdate) (h : MetaKey.ofText key = none) :
    (t.persistAll us).metaRows.lookup key = t.metaRows.lookup key := by
  induction us generalizing t with
  | nil => rfl
  | cons u _ ih => exact (ih _).trans (t.lookup_foreign_persist u h)

end Tables

namespace Persistence

def Input.submitted : Input → Option PersistenceUpdate
  | .submit db => some (.snapshot db)
  | .submitTraffic traffic => some (.traffic traffic)
  | .take => none
  | .finish _ => none

def disk (s : Persistence) (t : Tables) : Tables := t.persistAll (s.written.map (·.update))

/-- What the worker will have made of them when nothing is left to write. -/
def settled (s : Persistence) (t : Tables) : Tables :=
  (s.disk t).persistAll ((s.writing.toList ++ s.queue.pending).map (·.update))

/-- Behind the first update waits at most one, and that is traffic. -/
structure Short (pending : List Pending) : Prop where
  length : pending.tail.length ≤ 1
  traffic : ∀ p ∈ pending.tail, p.update.isSnapshot = false

namespace Short

variable {pending : List Pending}

theorem of_length_le_one (h : pending.length ≤ 1) : Short pending := by
  have ht : pending.tail = [] := List.eq_nil_of_length_eq_zero (by rw [List.length_tail]; omega)
  rw [← List.length_eq_zero_iff] at ht
  refine ⟨ht.le.trans zero_le_one, fun p hp => ?_⟩
  rw [List.length_eq_zero_iff.mp ht] at hp
  exact absurd hp List.not_mem_nil

theorem length_le (h : Short pending) : pending.length ≤ 2 := by
  have ht := h.length
  rw [List.length_tail] at ht
  omega

theorem tail (h : Short pending) : Short pending.tail :=
  of_length_le_one h.length

end Short

/-- Traffic is merged into traffic that comes last, and waits behind a snapshot. -/
theorem mergeTraffic_cases (pending : List Pending) (revision : ℕ) (traffic : TrafficSnapshot) :
    (∃ first older p p', pending = first ++ [p] ∧ p.update = .traffic older ∧
      PersistenceQueue.mergeTraffic pending revision traffic = first ++ [p'] ∧
      p'.update = .traffic (older.mergeFrom traffic)) ∨
    (∀ p ∈ pending.getLast?, p.update.isSnapshot = true) ∧
      ∃ p', PersistenceQueue.mergeTraffic pending revision traffic = pending ++ [p'] ∧
        p'.update = .traffic traffic := by
  unfold PersistenceQueue.mergeTraffic
  split
  · rename_i older merged hl
    exact .inl ⟨pending.dropLast, older, _, _, (List.dropLast_append_getLast? _ hl).symm, rfl, rfl,
      rfl⟩
  · rename_i hl
    refine .inr ⟨fun p hp => ?_, _, rfl, rfl⟩
    obtain ⟨revision', update, merged⟩ := p
    cases update with
    | snapshot => rfl
    | traffic => exact absurd hp (hl _ _ _)

theorem Short.mergeTraffic {pending : List Pending} (h : Short pending) (revision : ℕ)
    (traffic : TrafficSnapshot) :
    Short (PersistenceQueue.mergeTraffic pending revision traffic) := by
  obtain ⟨first, older, p, p', rfl, -, heq, hp'⟩ | ⟨hl, p', heq, hp'⟩ :=
    mergeTraffic_cases pending revision traffic
  · rw [heq]
    cases first with
    | nil => exact of_length_le_one le_rfl
    | cons _ first =>
      have hle := h.length
      simp only [List.cons_append, List.tail_cons, List.length_append, List.length_singleton] at hle
      obtain rfl : first = [] := List.eq_nil_of_length_eq_zero (by omega)
      refine ⟨le_rfl, fun r hr => ?_⟩
      rw [List.mem_singleton.mp hr, hp']
      rfl
  · rw [heq]
    cases pending with
    | nil => exact of_length_le_one le_rfl
    | cons _ rest =>
      cases rest using List.reverseRecOn with
      | nil =>
        refine ⟨le_rfl, fun r hr => ?_⟩
        rw [List.mem_singleton.mp hr, hp']
        rfl
      | append_singleton rest r =>
        have ht := h.traffic r (List.mem_append_right rest (List.mem_singleton.mpr rfl))
        have hs := hl r (by rw [← List.cons_append, List.getLast?_concat]; rfl)
        rw [ht] at hs
        cases hs

variable (t : Tables)

theorem agrees_mergeTraffic (pending : List Pending) (revision : ℕ) (traffic : TrafficSnapshot) :
    (t.persistAll ((PersistenceQueue.mergeTraffic pending revision traffic).map (·.update))).Agrees
      ((t.persistAll (pending.map (·.update))).writeTraffic traffic) := by
  obtain ⟨first, older, p, p', rfl, hp, heq, hp'⟩ | ⟨-, p', heq, hp'⟩ :=
    mergeTraffic_cases pending revision traffic
  · rw [heq, List.map_append, List.map_append, Tables.persistAll_append, Tables.persistAll_append,
      List.map_singleton, List.map_singleton, hp, hp']
    exact Tables.agrees_mergeFrom _ older traffic
  · rw [heq, List.map_append, Tables.persistAll_append, List.map_singleton, hp']
    exact Tables.Agrees.refl _

/-! ## Runs of the queue -/

theorem short_step {s : Persistence} (h : Short s.queue.pending) (input : Input) :
    Short (s.step input).queue.pending := by
  cases input with
  | submit => exact Short.of_length_le_one le_rfl
  | submitTraffic traffic =>
    rw [step]
    split_ifs
    · exact h
    · exact h.mergeTraffic _ traffic
  | take =>
    rw [step, take]
    split
    · rename_i p pending _ hp
      rw [hp] at h
      exact h.tail
    · exact h
  | finish =>
    rw [step, finish]
    split
    · exact h
    · exact h

variable (s : Persistence)

theorem settled_submit (db : Database) :
    ∃ t' : Tables, (s.step (.submit db)).settled t = t'.writeDatabaseSnapshot db ∧
      ∀ key, MetaKey.ofText key = none → t'.metaRows.lookup key = t.metaRows.lookup key := by
  refine ⟨(s.disk t).persistAll (s.writing.toList.map (·.update)), ?_, fun key hk => ?_⟩
  · rw [settled]
    rw [List.map_append, Tables.persistAll_append]
    rfl
  · exact (Tables.lookup_foreign_persistAll _ _ hk).trans (Tables.lookup_foreign_persistAll _ _ hk)

theorem agrees_submitTraffic (traffic : TrafficSnapshot) :
    ((s.step (.submitTraffic traffic)).settled t).Agrees ((s.settled t).writeTraffic traffic) := by
  rw [step]
  split_ifs with he
  · rw [Tables.writeTraffic, if_pos he]
    exact Tables.Agrees.refl _
  · rw [settled, settled, List.map_append, List.map_append, Tables.persistAll_append,
      Tables.persistAll_append]
    exact agrees_mergeTraffic _ _ _ traffic

theorem settled_take : (s.step .take).settled t = s.settled t := by
  rw [step, take]
  split
  · rename_i p pending hw hp
    rw [settled, settled, hw, hp]
    rfl
  · rfl

theorem settled_finish : (s.step (.finish none)).settled t = s.settled t := by
  rw [step, finish]
  split
  · rfl
  · rename_i p hw
    have hd : t.persistAll ((s.written ++ [p]).map (·.update)) =
        (s.disk t).persistDatabaseUpdate p.update := by
      rw [List.map_append, Tables.persistAll_append]
      rfl
    rw [settled, settled, hw]
    exact congrArg (Tables.persistAll · (s.queue.pending.map (·.update))) hd

/-- The write does not fail, and a snapshot has its devices under their ids. -/
def Sound : Input → Prop
  | .submit db => db.Keyed
  | .submitTraffic _ => True
  | .take => True
  | .finish error => error = none

theorem agrees_step {t : Tables} {submitted : List PersistenceUpdate} {s : Persistence}
    (h : (s.settled t).Agrees (t.persistAll submitted)) {input : Input} (hin : Sound input) :
    ((s.step input).settled t).Agrees (t.persistAll (submitted ++ input.submitted.toList)) := by
  rw [Tables.persistAll_append]
  cases input with
  | submit db =>
    obtain ⟨t', heq, hf⟩ := s.settled_submit t db
    rw [heq]
    refine Tables.agrees_writeDatabaseSnapshot hin fun key hk => ?_
    exact (hf key hk).trans (t.lookup_foreign_persistAll submitted hk).symm
  | submitTraffic traffic => exact (s.agrees_submitTraffic t traffic).trans (h.writeTraffic traffic)
  | take =>
    rw [settled_take]
    exact h
  | finish error =>
    obtain rfl : error = none := hin
    rw [settled_finish]
    exact h

theorem agrees_run {inputs : List Input} (h : ∀ input ∈ inputs, Sound input) :
    ((inputs.foldl step {}).settled t).Agrees
    (t.persistAll (inputs.filterMap Input.submitted)) := by
  have hstep : ∀ (done : List Input) (s : Persistence) (input : Input),
      (s.settled t).Agrees (t.persistAll (done.filterMap Input.submitted)) → Sound input →
      ((s.step input).settled t).Agrees
        (t.persistAll ((done ++ [input]).filterMap Input.submitted)) := by
    intro done s input hs hin
    have heq : (done ++ [input]).filterMap Input.submitted =
        done.filterMap Input.submitted ++ input.submitted.toList := by
      rw [List.filterMap_append]
      cases input <;> rfl
    rw [heq]
    exact agrees_step hs hin
  exact Runs.invariant_history hstep (Tables.Agrees.refl t) (Runs.along_of_forall_mem step {} h)

theorem short_run (inputs : List Input) : Short (inputs.foldl step {}).queue.pending :=
  Runs.invariant (I := fun s : Persistence => Short s.queue.pending)
    (fun _ input h _ => short_step h input) (Short.of_length_le_one (Nat.zero_le 1))
    (Runs.along_of_forall fun _ _ => trivial)

/-- Whatever was queued, dropped and merged, when nothing is left to write the tables hold what
every update by itself, in the order in which they were submitted, would have left there. -/
theorem coalescing_invisible (t : Tables) (inputs : List Input)
    (hsuccess : ∀ error, Input.finish (some error) ∉ inputs)
    (hkeyed : ∀ db, Input.submit db ∈ inputs → db.Keyed) :
    (inputs.foldl step {}).queue.pending.length ≤ 2 ∧
      ((inputs.foldl step {}).writing = none → (inputs.foldl step {}).queue.pending = [] →
        ((inputs.foldl step {}).disk t).Agrees
          (t.persistAll (inputs.filterMap Input.submitted))) := by
  refine ⟨(short_run inputs).length_le, fun hw hp => ?_⟩
  have hs : ∀ input ∈ inputs, Sound input := by
    intro input hin
    cases input with
    | submit db => exact hkeyed db hin
    | submitTraffic | take => trivial
    | finish error =>
      cases error with
      | none => rfl
      | some error => exact absurd hin (hsuccess error)
  have hr := agrees_run t hs
  rwa [settled, hw, hp] at hr

/-- Traffic that comes while a snapshot is written, and is merged. -/
theorem coalescing_invisible_merged :
    (([.submit {}, .take, .submitTraffic { main := some ⟨1, 2⟩ },
      .submitTraffic { main := some ⟨3, 4⟩ },
      .finish none, .take, .finish none] : List Input).foldl step {}).disk {} |>.Agrees
      (Tables.persistAll {} [.snapshot {}, .traffic { main := some ⟨1, 2⟩ },
        .traffic { main := some ⟨3, 4⟩ }]) :=
  (coalescing_invisible {} [.submit {}, .take, .submitTraffic { main := some ⟨1, 2⟩ },
    .submitTraffic { main := some ⟨3, 4⟩ }, .finish none, .take, .finish none] (by simp) (by
      intro db hdb
      obtain rfl : db = {} := by simpa using hdb
      exact AList.forall_lookup_iff.mpr (by decide))).2 rfl rfl

end Persistence
end Csqtt
