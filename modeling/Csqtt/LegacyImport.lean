import Csqtt.StoredTables

/-!
# The import of the retired JSON databases

`load_database` takes the databases of two JSON files into the tables, each in a transaction of its
own, checks that their rows are there, and removes the files. A load that was stopped anywhere is
made good by the next one, as long as no file has its proxy in the old form.
-/

namespace Csqtt

open Table (upsert upsertAll kept rowOf Absorbing Absorbed)

/-! ## The files -/

/-- `local_proxy` as it stands in a file. The old form is told by its port, which need not be a
number. -/
inductive LegacyProxy
  | profiles (activeProfileId : Text) (listed : List LocalProxyProfile)
  | single (enabled : Bool) (port : Option ℕ) (username password : Text)
  | absent

def defaultProxyHost : Text := "127.0.0.1".toList

/-- `newId` is the random id that is drawn for the profile of the old form. -/
def LegacyProxy.state (proxy : LegacyProxy) (newId : Text) : LocalProxyState :=
  match proxy with
  | .profiles activeProfileId listed => ⟨activeProfileId, listed⟩
  | .single enabled port username password =>
    let port := port.getD defaultLocalProxyPort % 2 ^ 16
    { activeProfileId := if enabled then newId else []
      profiles := [{
        host := defaultProxyHost
        id := newId
        name := "SOCKS5 :".toList ++ Text.ofNat port
        port := if port = 0 then defaultLocalProxyPort else port
        username
        password }] }
  | .absent => {}

structure LegacyFile where
  database : Database
  proxy : LegacyProxy

/-- What `load_database` makes of a file. -/
def LegacyFile.read (file : LegacyFile) (newId : Text) : Database :=
  { file.database with
    botToken := []
    adminId := []
    webSessions := ∅
    localProxy := (file.proxy.state newId).normalize }

def LegacyFile.hasSingleProxy (file : LegacyFile) : Bool :=
  match file.proxy with
  | .single .. => true
  | _ => false

/-! ## The import -/

def DeviceRow.reset (row : DeviceRow) : DeviceRow :=
  if row.lastSessionSalt ≠ [] ∨ row.lastGenerationId ≠ 0 then
    { row with lastSessionSalt := [], lastGenerationId := 0 }
  else row

namespace Tables

/-- A blank value is filled in. -/
def filled (old new : Text) : Text := if old = [] then new else old

def raised (old new : TrafficCounters) : TrafficCounters :=
  ⟨max old.upBytes new.upBytes, max old.downBytes new.downBytes⟩

def legacyMeta (legacy : Database) : List (MetaKey × Text) :=
  [(.mainPassword, legacy.mainPassword), (.mainDeviceId, legacy.mainDeviceId), (.dns, legacy.dns)]

def importLegacyDatabaseRows (t : Tables) (legacy : Database) : Tables where
  metaRows :=
    let metaRows := upsertAll filled t.metaRows (MetaKey.rows (legacyMeta legacy))
    match legacy.loggingActive with
    | some active => upsert kept metaRows (MetaKey.loggingActive.text, loggingText active)
    | none => metaRows
  counters := upsert raised t.counters ((), ⟨legacy.mainUpBytes, legacy.mainDownBytes⟩)
  passwords := upsertAll kept t.passwords (Table.rows legacy.passwords)
  devices := upsertAll kept t.devices legacy.deviceRows
  localProxyProfiles := upsertAll kept t.localProxyProfiles legacy.localProxy.rows
  localProxyState :=
    if legacy.localProxy.activeProfileId = [] then t.localProxyState
    else upsert filled t.localProxyState ((), legacy.localProxy.activeProfileId)

def resetDeviceRuntimeEpochs (t : Tables) : Tables :=
  { t with devices := t.devices.mapValues fun _ => DeviceRow.reset }

def importAll (t : Tables) (legacy : List Database) : Tables :=
  legacy.foldl importLegacyDatabaseRows t

end Tables

/-! ## The check -/

inductive LegacyConflict
  | mainPassword
  | mainDevice
  | passwordMissing (password : Text)
  | passwordConflict (password : Text)
  | deviceMissing (deviceId : Text)
  | deviceConflict (deviceId : Text)
  deriving DecidableEq

def LegacyConflict.message : LegacyConflict → Text
  | .mainPassword => "legacy main password conflicts with existing SQLite state".toList
  | .mainDevice => "legacy main device conflicts with existing SQLite state".toList
  | .passwordMissing password =>
    "legacy password ".toList ++ password ++ " is missing after import".toList
  | .passwordConflict password =>
    "legacy password ".toList ++ password ++ " conflicts with existing SQLite state".toList
  | .deviceMissing deviceId =>
    "legacy device ".toList ++ deviceId ++ " is missing after import".toList
  | .deviceConflict deviceId =>
    "legacy device ".toList ++ deviceId ++ " conflicts with existing SQLite state".toList

def legacyPasswordMatches (sqlite legacy : PasswordEntry) : Bool :=
  sqlite.deviceId = legacy.deviceId && sqlite.expiresAt = legacy.expiresAt &&
    sqlite.vkHash = legacy.vkHash && sqlite.ports = legacy.ports &&
    sqlite.isDeactivated = legacy.isDeactivated && sqlite.name = legacy.name &&
    sqlite.vkHashes = legacy.vkHashes && sqlite.dtlsPort = legacy.dtlsPort &&
    sqlite.wgPort = legacy.wgPort && sqlite.localPort = legacy.localPort

def legacyDeviceMatches (sqlite legacy : ClientDevice) : Bool :=
  sqlite.deviceId = legacy.deviceId && sqlite.ip = legacy.ip && sqlite.privKey = legacy.privKey &&
    sqlite.pubKey = legacy.pubKey && sqlite.boundPassword = legacy.boundPassword

def rowConflict {β : Type} (found : Option β) (agrees : β → Bool)
    (absent conflict : LegacyConflict) : Option LegacyConflict :=
  match found with
  | none => some absent
  | some row => if agrees row then none else some conflict

/-- The first thing that is wrong with the import of a legacy database. -/
def verifyLegacyDatabaseRows (sqlite legacy : Database) : Option LegacyConflict :=
  if legacy.mainPassword ≠ [] ∧ sqlite.mainPassword ≠ [] ∧
    sqlite.mainPassword ≠ legacy.mainPassword then
    some .mainPassword
  else if legacy.mainDeviceId ≠ [] ∧ sqlite.mainDeviceId ≠ [] ∧
      sqlite.mainDeviceId ≠ legacy.mainDeviceId then some .mainDevice
  else
    (legacy.passwords.entries.findSome? fun e => rowConflict (sqlite.passwords.lookup e.1)
      (legacyPasswordMatches · e.2) (.passwordMissing e.1) (.passwordConflict e.1)).or
    (legacy.devices.entries.findSome? fun e => rowConflict (sqlite.devices.lookup e.1)
      (legacyDeviceMatches · e.2) (.deviceMissing e.1) (.deviceConflict e.1))

/-! ## The load -/

/-- The tables, if there is a file for them, and the legacy files. -/
structure Disk where
  tables : Option Tables
  files : List LegacyFile

/-- What a load changes on disk, one thing after the other. -/
inductive LoadStep
  | reset
  | importRows (legacy : Database)
  | removeFile

namespace Disk

def rows (d : Disk) : Tables := d.tables.getD {}

def act (d : Disk) : LoadStep → Disk
  | .reset => { d with tables := some d.rows.resetDeviceRuntimeEpochs }
  | .importRows legacy => { d with tables := some (d.rows.importLegacyDatabaseRows legacy) }
  | .removeFile => { d with files := d.files.tail }

/-- The legacy databases; `newIds` are the ids that are drawn while they are read. -/
def legacy (d : Disk) (newIds : ℕ → Text) : List Database :=
  d.files.zipIdx.map fun file => file.1.read (newIds file.2)

def merged (d : Disk) (newIds : ℕ → Text) : Tables :=
  d.rows.resetDeviceRuntimeEpochs.importAll (d.legacy newIds)

def verify (d : Disk) (newIds : ℕ → Text) : Option LegacyConflict :=
  (d.legacy newIds).findSome? (verifyLegacyDatabaseRows (d.merged newIds).readDatabaseSnapshot)

def loadSteps (d : Disk) (newIds : ℕ → Text) : List LoadStep :=
  if d.files = [] then
    if d.tables.isSome then [.reset] else []
  else
    .reset :: (d.legacy newIds).map .importRows ++
      if (d.verify newIds).isSome then [] else d.files.map fun _ => .removeFile

/-- A load that is stopped after the first `k` things it changes. -/
def stopped (d : Disk) (newIds : ℕ → Text) (k : ℕ) : Disk :=
  ((d.loadSteps newIds).take k).foldl act d

def loadDatabase (d : Disk) (newIds : ℕ → Text) : Disk × Except LegacyConflict Database :=
  ((d.loadSteps newIds).foldl act d,
    if d.files = [] then
      match d.tables with
      | some t => .ok t.resetDeviceRuntimeEpochs.readDatabaseSnapshot
      | none => .ok {}
    else
      match d.verify newIds with
      | some conflict => .error conflict
      | none => .ok (d.merged newIds).readDatabaseSnapshot)

end Disk

/-! ## Rows that come again -/

namespace Tables

theorem absorbing_filled : Absorbing filled where
  self b := by simp [filled]
  again old b := by
    by_cases h : old = []
    · simp [filled, h]
    · simp [filled, h]
  later old b c h := by
    by_cases ho : old = []
    · rw [filled, if_pos ho] at h
      simp [filled, ho, h]
    · simp [filled, ho]

theorem absorbing_raised : Absorbing raised where
  self b := by simp [raised]
  again old b := by simp [raised]
  later old b c h := by
    have hup : max old.upBytes b.upBytes = old.upBytes := congrArg TrafficCounters.upBytes h
    have hd : max old.downBytes b.downBytes = old.downBytes := congrArg TrafficCounters.downBytes h
    rw [max_eq_left_iff] at hup hd
    simp [raised, hup, hd]

structure Holds (t : Tables) (legacy : Database) : Prop where
  metaRows : ∀ row ∈ MetaKey.rows (legacyMeta legacy), Absorbed filled t.metaRows row
  logging : ∀ active, legacy.loggingActive = some active → MetaKey.loggingActive.text ∈ t.metaRows
  counters : Absorbed raised t.counters ((), ⟨legacy.mainUpBytes, legacy.mainDownBytes⟩)
  passwords : ∀ row ∈ Table.rows legacy.passwords, row.1 ∈ t.passwords
  devices : ∀ row ∈ legacy.deviceRows, row.1 ∈ t.devices
  localProxyProfiles : ∀ row ∈ legacy.localProxy.rows, row.1 ∈ t.localProxyProfiles
  localProxyState : legacy.localProxy.activeProfileId ≠ [] →
    Absorbed filled t.localProxyState ((), legacy.localProxy.activeProfileId)

theorem ne_logging_of_mem_legacyMeta {legacy : Database} {row : Text × Text}
    (h : row ∈ MetaKey.rows (legacyMeta legacy)) : row.1 ≠ MetaKey.loggingActive.text := by
  obtain ⟨value, hv, rfl⟩ := List.mem_map.mp h
  intro heq
  have hk : value.1 = .loggingActive := MetaKey.text_injective heq
  simp only [legacyMeta, List.mem_cons, List.not_mem_nil, or_false] at hv
  obtain rfl | rfl | rfl := hv <;> cases hk

theorem absorbed_metaRows_import {t : Tables} {row : Text × Text}
    (hne : row.1 ≠ MetaKey.loggingActive.text) (legacy : Database)
    (h : Absorbed filled (upsertAll filled t.metaRows (MetaKey.rows (legacyMeta legacy))) row) :
    Absorbed filled (t.importLegacyDatabaseRows legacy).metaRows row := by
  rw [importLegacyDatabaseRows]
  cases legacy.loggingActive with
  | none => exact h
  | some => exact h.upsert_ne hne kept

theorem mem_metaRows_import {t : Tables} {key : Text} {legacy : Database}
    (h : key ∈ t.metaRows ∨ ∃ active,
      legacy.loggingActive = some active ∧ key = MetaKey.loggingActive.text) :
    key ∈ (t.importLegacyDatabaseRows legacy).metaRows := by
  rw [importLegacyDatabaseRows]
  cases hl : legacy.loggingActive with
  | none =>
    obtain h | ⟨active, ha, -⟩ := h
    · exact Table.mem_upsertAll.mpr (.inr h)
    · rw [hl] at ha
      cases ha
  | some =>
    obtain h | ⟨_, -, rfl⟩ := h
    · exact Table.mem_upsert.mpr (.inr (Table.mem_upsertAll.mpr (.inr h)))
    · exact Table.mem_upsert.mpr (.inl rfl)

theorem holds_import (t : Tables) (legacy : Database) :
    (t.importLegacyDatabaseRows legacy).Holds legacy where
  metaRows row hr := absorbed_metaRows_import (ne_logging_of_mem_legacyMeta hr) legacy
    (Absorbed.of_mem absorbing_filled _ hr)
  logging active ha := mem_metaRows_import (.inr ⟨active, ha, rfl⟩)
  counters := Absorbed.upsert_self absorbing_raised _ _
  passwords row hr := Table.mem_upsertAll.mpr (.inl (List.mem_map_of_mem hr))
  devices row hr := Table.mem_upsertAll.mpr (.inl (List.mem_map_of_mem hr))
  localProxyProfiles row hr := Table.mem_upsertAll.mpr (.inl (List.mem_map_of_mem hr))
  localProxyState ha := by
    rw [importLegacyDatabaseRows]
    rw [if_neg ha]
    exact Absorbed.upsert_self absorbing_filled _ _

namespace Holds

variable {t : Tables} {legacy : Database}

theorem importRows (h : t.Holds legacy) (other : Database) :
    (t.importLegacyDatabaseRows other).Holds legacy where
  metaRows row hr := absorbed_metaRows_import (ne_logging_of_mem_legacyMeta hr) other
    ((h.metaRows row hr).upsertAll absorbing_filled _)
  logging active ha := mem_metaRows_import (.inl (h.logging active ha))
  counters := h.counters.upsert absorbing_raised _
  passwords row hr := Table.mem_upsertAll.mpr (.inr (h.passwords row hr))
  devices row hr := Table.mem_upsertAll.mpr (.inr (h.devices row hr))
  localProxyProfiles row hr := Table.mem_upsertAll.mpr (.inr (h.localProxyProfiles row hr))
  localProxyState ha := by
    rw [importLegacyDatabaseRows]
    split_ifs
    · exact h.localProxyState ha
    · exact (h.localProxyState ha).upsert absorbing_filled _

theorem import_eq (h : t.Holds legacy) : t.importLegacyDatabaseRows legacy = t := by
  apply Tables.ext
  · rw [importLegacyDatabaseRows]
    rw [Absorbed.upsertAll_eq h.metaRows]
    cases hl : legacy.loggingActive with
    | none => rfl
    | some active => exact (Absorbed.kept_iff.mpr (h.logging active hl)).upsert_eq
  · exact h.counters.upsert_eq
  · exact Absorbed.upsertAll_eq fun row hr => Absorbed.kept_iff.mpr (h.passwords row hr)
  · exact Absorbed.upsertAll_eq fun row hr => Absorbed.kept_iff.mpr (h.devices row hr)
  · exact Absorbed.upsertAll_eq fun row hr => Absorbed.kept_iff.mpr (h.localProxyProfiles row hr)
  · rw [importLegacyDatabaseRows]
    split_ifs with ha
    · rfl
    · exact (h.localProxyState ha).upsert_eq

theorem importAll (h : t.Holds legacy) (others : List Database) :
    (t.importAll others).Holds legacy := by
  induction others generalizing t with
  | nil => exact h
  | cons other _ ih => exact ih (h.importRows other)

end Holds

theorem holds_importAll (t : Tables) {legacy : Database} {all : List Database} (h : legacy ∈ all) :
    (t.importAll all).Holds legacy := by
  induction all generalizing t with
  | nil => exact absurd h List.not_mem_nil
  | cons _ rest ih =>
    obtain rfl | h := List.mem_cons.mp h
    · exact (t.holds_import legacy).importAll rest
    · exact ih _ h

theorem importAll_eq {t : Tables} {all : List Database} (h : ∀ legacy ∈ all, t.Holds legacy) :
    t.importAll all = t := by
  induction all with
  | nil => rfl
  | cons first _ ih =>
    rw [importAll, List.foldl_cons, (h first List.mem_cons_self).import_eq]
    exact ih fun legacy hl => h legacy (List.mem_cons_of_mem first hl)

theorem importAll_take (t : Tables) (all : List Database) (k : ℕ) :
    (t.importAll (all.take k)).importAll all = t.importAll all := by
  have ha : ∀ t : Tables, t.importAll all = (t.importAll (all.take k)).importAll (all.drop k) := by
    intro t
    rw [importAll, importAll, importAll, ← List.foldl_append, List.take_append_drop]
  have hagain : (t.importAll (all.take k)).importAll (all.take k) = t.importAll (all.take k) :=
    importAll_eq fun legacy hl => t.holds_importAll hl
  rw [ha, hagain, ← ha]

theorem reset_reset (t : Tables) :
    t.resetDeviceRuntimeEpochs.resetDeviceRuntimeEpochs = t.resetDeviceRuntimeEpochs := by
  have hr : ∀ row : DeviceRow, row.reset.reset = row.reset := by
    intro row
    by_cases h : row.lastSessionSalt ≠ [] ∨ row.lastGenerationId ≠ 0
    · rw [DeviceRow.reset, DeviceRow.reset, if_pos h, if_neg (by simp)]
    · rw [DeviceRow.reset, if_neg]
      · rw [DeviceRow.reset, if_neg h]
        exact h
  simp [resetDeviceRuntimeEpochs, AList.mapValues, hr]

theorem reset_import (t : Tables) (legacy : Database) :
    (t.importLegacyDatabaseRows legacy).resetDeviceRuntimeEpochs =
      t.resetDeviceRuntimeEpochs.importLegacyDatabaseRows legacy := by
  have hr : ∀ row ∈ legacy.deviceRows, row.2.reset = row.2 := by
    intro row hrow
    obtain ⟨e, -, rfl⟩ := List.mem_map.mp hrow
    exact if_neg (by simp [DeviceRow.ofDevice])
  have hd := Table.mapValues_upsertAll_kept (f := fun _ => DeviceRow.reset) t.devices hr
  exact Tables.ext rfl rfl rfl hd rfl rfl

theorem reset_importAll (t : Tables) (all : List Database) :
    (t.importAll all).resetDeviceRuntimeEpochs = t.resetDeviceRuntimeEpochs.importAll all := by
  induction all generalizing t with
  | nil => rfl
  | cons _ _ ih =>
    rw [importAll, List.foldl_cons, ← importAll, ih, reset_import]
    rfl

end Tables

/-! ## Loads that are stopped -/

namespace Disk

theorem foldl_importRows (t : Tables) (files : List LegacyFile) (all : List Database) :
    (all.map LoadStep.importRows).foldl act ⟨some t, files⟩ = ⟨some (t.importAll all), files⟩ := by
  induction all generalizing t with
  | nil => rfl
  | cons first _ ih => exact ih (t.importLegacyDatabaseRows first)

theorem foldl_removeFile {α : Type} (tables : Option Tables) (files : List LegacyFile)
    (l : List α) :
    (l.map fun _ => LoadStep.removeFile).foldl act ⟨tables, files⟩ =
      ⟨tables, files.drop l.length⟩ := by
  induction l generalizing files with
  | nil => rfl
  | cons _ _ ih =>
    rw [List.map_cons, List.foldl_cons, act, ih, List.length_cons, Nat.add_comm, ← List.drop_drop,
      List.drop_one]

theorem stopped_cases (d : Disk) (newIds : ℕ → Text) (k : ℕ) : d.stopped newIds k = d ∨
      ((d.files = [] → d.tables.isSome = true) ∧ ∃ j, d.stopped newIds k =
        ⟨some (d.rows.resetDeviceRuntimeEpochs.importAll ((d.legacy newIds).take j)), d.files⟩) ∨
      (d.files ≠ [] ∧ d.verify newIds = none ∧ ∃ m, d.stopped newIds k =
        ⟨some (d.merged newIds), d.files.drop m⟩) := by
  unfold stopped loadSteps
  split_ifs with hf ht hv
  · cases k with
    | zero => exact .inl rfl
    | succ => exact .inr (.inl ⟨fun _ => ht, 0, by rw [List.take_succ_cons, List.take_nil]; rfl⟩)
  · exact .inl (by rw [List.take_nil]; rfl)
  · cases k with
    | zero => exact .inl rfl
    | succ k =>
      refine .inr (.inl ⟨fun h => absurd h hf, k, ?_⟩)
      rw [List.append_nil, List.take_succ_cons, List.foldl_cons, ← List.map_take, act,
        foldl_importRows]
  · cases k with
    | zero => exact .inl rfl
    | succ k =>
      rw [List.cons_append, List.take_succ_cons, List.foldl_cons, List.take_append,
        List.foldl_append, ← List.map_take, act, foldl_importRows, List.length_map]
      by_cases hk : k ≤ (d.legacy newIds).length
      · refine .inr (.inl ⟨fun h => absurd h hf, k, ?_⟩)
        rw [Nat.sub_eq_zero_of_le hk, List.take_zero, List.foldl_nil]
      · refine .inr (.inr ⟨hf, by simpa using hv,
          (d.files.take (k - (d.legacy newIds).length)).length, ?_⟩)
        rw [List.take_of_length_le (by omega), ← List.map_take, foldl_removeFile]
        rfl

theorem foldl_loadSteps (d : Disk) (newIds : ℕ → Text) : (d.loadSteps newIds).foldl act d =
      if d.files = [] then ⟨d.tables.map Tables.resetDeviceRuntimeEpochs, []⟩
      else ⟨some (d.merged newIds), if (d.verify newIds).isSome then d.files else []⟩ := by
  unfold loadSteps
  split_ifs with hf ht hv
  · obtain ⟨tables, files⟩ := d
    obtain ⟨t, rfl⟩ := Option.isSome_iff_exists.mp ht
    obtain rfl : files = [] := hf
    rfl
  · obtain ⟨tables, files⟩ := d
    obtain rfl : files = [] := hf
    obtain rfl : tables = none := Option.not_isSome_iff_eq_none.mp ht
    rfl
  · rw [List.append_nil, List.foldl_cons, act, foldl_importRows]
    rfl
  · rw [List.cons_append, List.foldl_cons, List.foldl_append, act, foldl_importRows,
      foldl_removeFile, List.drop_length]
    rfl

variable {d d' : Disk}

/-- Without a profile of the old form, what a load reads does not depend on what it draws. -/
theorem legacy_eq (h : ∀ file ∈ d.files, file.hasSingleProxy = false) (newIds : ℕ → Text) :
    d.legacy newIds = d.files.map (·.read []) := by
  have hr : ∀ file ∈ d.files, ∀ newId, file.read newId = file.read [] := by
    intro file hf newId
    have hs := h file hf
    rw [LegacyFile.hasSingleProxy] at hs
    rw [LegacyFile.read, LegacyFile.read]
    cases hp : file.proxy with
    | profiles => rfl
    | single =>
      rw [hp] at hs
      cases hs
    | absent => rfl
  conv_rhs => rw [← List.zipIdx_map_fst 0 d.files, List.map_map]
  exact List.map_congr_left fun file hf => hr file.1 (List.fst_mem_of_mem_zipIdx hf) _

/-- What loads of `d` that were stopped may leave. -/
inductive Resumes (d d' : Disk) : Prop
  | importing (files : d'.files = d.files)
      (tables : d.files = [] → d'.tables.isSome = d.tables.isSome)
    (merged : ∀ newIds, d'.merged newIds = d.merged newIds)
  | removing (nonempty : d.files ≠ []) (verified : ∀ newIds, d.verify newIds = none)
    (tables : ∀ newIds, d'.tables = some (d.merged newIds)) (files : ∃ m, d'.files = d.files.drop m)

section

variable (h : ∀ file ∈ d.files, file.hasSingleProxy = false)
include h

theorem importAll_merged (newIds : ℕ → Text) {files : List LegacyFile} (hf : files ⊆ d.files) :
    (d.merged newIds).resetDeviceRuntimeEpochs.importAll (files.map (·.read [])) =
      d.merged newIds := by
  have hr : (d.merged newIds).resetDeviceRuntimeEpochs = d.merged newIds := by
    rw [merged, Tables.reset_importAll, Tables.reset_reset]
  rw [hr]
  refine Tables.importAll_eq fun legacy hl => Tables.holds_importAll _ ?_
  rw [legacy_eq h]
  exact List.map_subset _ hf hl

theorem merged_eq (newIds : ℕ → Text) :
    d.merged newIds = d.rows.resetDeviceRuntimeEpochs.importAll (d.files.map (·.read [])) := by
  rw [merged, legacy_eq h]

theorem Resumes.stopped (hd' : Resumes d d') (newIds : ℕ → Text) (k : ℕ) :
    Resumes d (d'.stopped newIds k) := by
  cases hd' with
  | importing files tables merged =>
    have h' : ∀ file ∈ d'.files, file.hasSingleProxy = false := by rwa [files]
    obtain heq | ⟨hsome, j, heq⟩ | ⟨hne, hverify, m, heq⟩ := d'.stopped_cases newIds k
    · rw [heq]
      exact .importing files tables merged
    · have hfiles : (d'.stopped newIds k).files = d'.files := by rw [heq]
      have hrows : (d'.stopped newIds k).rows =
          d'.rows.resetDeviceRuntimeEpochs.importAll ((d'.legacy newIds).take j) := by
        rw [heq]
        rfl
      refine .importing (hfiles.trans files) (fun hnil => ?_) fun newIds' => ?_
      · rw [heq]
        exact (hsome (files.trans hnil)).symm.trans (tables hnil)
      · rw [← merged newIds', merged_eq h', merged_eq (by rwa [hfiles]), hfiles, hrows,
          legacy_eq h', Tables.reset_importAll, Tables.reset_reset, Tables.importAll_take]
    · have hlegacy : ∀ newIds, d'.legacy newIds = d.legacy newIds := by
        intro newIds
        rw [legacy_eq h, legacy_eq h', files]
      have hverify' : ∀ newIds', d.verify newIds' = none := by
        intro newIds'
        rw [verify, ← merged, merged_eq h', ← hlegacy, legacy_eq h',
          ← legacy_eq h' newIds]
        exact hverify
      rw [heq]
      refine .removing (files ▸ hne) hverify' (fun newIds' => ?_) ⟨m, by rw [files]⟩
      rw [← merged, merged_eq h', merged_eq h']
  | removing nonempty verified tables files =>
    obtain ⟨m, files⟩ := files
    have hsub : d'.files ⊆ d.files := files ▸ List.drop_subset m d.files
    have h' : ∀ file ∈ d'.files, file.hasSingleProxy = false := fun file hfile =>
      h file (hsub hfile)
    have hrows : ∀ newIds, d'.rows = d.merged newIds := by
      intro newIds
      rw [rows, tables newIds, Option.getD_some]
    obtain heq | ⟨-, j, heq⟩ | ⟨-, -, m', heq⟩ := d'.stopped_cases newIds k
    · rw [heq]
      exact .removing nonempty verified tables ⟨m, files⟩
    · rw [heq]
      refine .removing nonempty verified (fun newIds' => ?_) ⟨m, files⟩
      rw [legacy_eq h', hrows newIds', ← List.map_take]
      exact congrArg some (importAll_merged h newIds' fun file hfile =>
        hsub (List.take_subset j _ hfile))
    · rw [heq]
      refine .removing nonempty verified (fun newIds' => ?_) ⟨m + m', ?_⟩
      · rw [merged_eq h', hrows newIds']
        exact congrArg some (importAll_merged h newIds' hsub)
      · rw [files, List.drop_drop]

theorem Resumes.loadDatabase (hd' : Resumes d d') (newIds newIds' : ℕ → Text) :
    d'.loadDatabase newIds = d.loadDatabase newIds' := by
  rw [Disk.loadDatabase, Disk.loadDatabase, foldl_loadSteps, foldl_loadSteps]
  cases hd' with
  | importing files tables merged =>
    have h' : ∀ file ∈ d'.files, file.hasSingleProxy = false := by rwa [files]
    have hmerge : d'.merged newIds = d.merged newIds' := by
      rw [← merged, merged_eq h', merged_eq h']
    by_cases hnil : d.files = []
    · rw [if_pos hnil, if_pos hnil, if_pos (files.trans hnil), if_pos (files.trans hnil)]
      rw [merged_eq h', merged_eq h, files, hnil, rows, rows] at hmerge
      have hsome := tables hnil
      cases hold : d.tables with
      | none =>
        rw [hold, Option.isSome_none, Option.isSome_eq_false_iff,
          Option.isNone_iff_eq_none] at hsome
        rw [hsome]
      | some t =>
        rw [hold] at hsome hmerge
        obtain ⟨t', hnew⟩ := Option.isSome_iff_exists.mp hsome
        rw [hnew] at hmerge ⊢
        have hreset : t'.resetDeviceRuntimeEpochs = t.resetDeviceRuntimeEpochs := hmerge
        dsimp only [Option.map_some]
        rw [hreset]
    · have hverify : d'.verify newIds = d.verify newIds' := by
        rw [verify, verify, hmerge, legacy_eq h', legacy_eq h, files]
      have hne : d'.files ≠ [] := files ▸ hnil
      rw [if_neg hnil, if_neg hnil, if_neg hne, if_neg hne, hmerge, hverify, files]
  | removing nonempty verified tables files =>
    obtain ⟨m, files⟩ := files
    have hsub : d'.files ⊆ d.files := files ▸ List.drop_subset m d.files
    have h' : ∀ file ∈ d'.files, file.hasSingleProxy = false := fun file hfile =>
      h file (hsub hfile)
    rw [if_neg nonempty, if_neg nonempty, verified newIds']
    by_cases hnil : d'.files = []
    · have hreset : (d.merged newIds').resetDeviceRuntimeEpochs = d.merged newIds' :=
        importAll_merged h newIds' (List.nil_subset d.files)
      rw [if_pos hnil, if_pos hnil, tables newIds']
      dsimp only [Option.map_some]
      rw [hreset]
      rfl
    · have hmerge : d'.merged newIds = d.merged newIds' := by
        rw [merged_eq h', rows, tables newIds']
        exact importAll_merged h newIds' hsub
      have hverify : d'.verify newIds = none := by
        have hall := verified newIds'
        rw [verify, List.findSome?_eq_none_iff, legacy_eq h] at hall
        rw [verify, List.findSome?_eq_none_iff, hmerge, legacy_eq h']
        exact fun legacy hlegacy => hall legacy (List.map_subset _ hsub hlegacy)
      rw [if_neg hnil, if_neg hnil, hverify, hmerge]
      rfl

theorem resumes_stops (stops : List ((ℕ → Text) × ℕ)) :
    Resumes d (stops.foldl (fun d stop => d.stopped stop.1 stop.2) d) := by
  have hr : ∀ d', Resumes d d' →
      Resumes d (stops.foldl (fun d stop => d.stopped stop.1 stop.2) d') := by
    induction stops with
    | nil => exact fun d' hd' => hd'
    | cons stop _ ih => exact fun d' hd' => ih _ (hd'.stopped h stop.1 stop.2)
  exact hr d (.importing rfl (fun _ => rfl) fun _ => rfl)

end

end Disk

/-! ## What the import does -/

namespace Tables

/-- The rows of the tables stay, and of the settings those that are not blank. -/
structure Keeps (t t' : Tables) : Prop where
  passwords : ∀ password entry, t.passwords.lookup password = some entry →
    t'.passwords.lookup password = some entry
  devices : ∀ deviceId row, t.devices.lookup deviceId = some row →
    t'.devices.lookup deviceId = some row
  localProxyProfiles : ∀ id row, t.localProxyProfiles.lookup id = some row →
    t'.localProxyProfiles.lookup id = some row
  metaRows : ∀ key value, t.metaRows.lookup key = some value → value ≠ [] →
    t'.metaRows.lookup key = some value
  localProxyState : ∀ id, t.localProxyState.lookup () = some id → id ≠ [] →
    t'.localProxyState.lookup () = some id

namespace Keeps

theorem refl (t : Tables) : t.Keeps t :=
  ⟨fun _ _ h => h, fun _ _ h => h, fun _ _ h => h, fun _ _ h _ => h, fun _ h _ => h⟩

theorem trans {t t' t'' : Tables} (h : t.Keeps t') (h' : t'.Keeps t'') : t.Keeps t'' where
  passwords password entry he := h'.passwords _ _ (h.passwords password entry he)
  devices deviceId row hr := h'.devices _ _ (h.devices deviceId row hr)
  localProxyProfiles id row hr := h'.localProxyProfiles _ _ (h.localProxyProfiles id row hr)
  metaRows key value hv hne := h'.metaRows _ _ (h.metaRows key value hv hne) hne
  localProxyState id hid hne := h'.localProxyState _ (h.localProxyState id hid hne) hne

end Keeps

variable (t : Tables)

theorem keeps_import (legacy : Database) : t.Keeps (t.importLegacyDatabaseRows legacy) := by
  have hf : ∀ {old : Text}, old ≠ [] → ∀ new, filled old new = old := fun hne _ => if_neg hne
  refine ⟨fun _ _ h => Table.lookup_upsertAll_of_fixed h (fun _ => rfl) _,
    fun _ _ h => Table.lookup_upsertAll_of_fixed h (fun _ => rfl) _,
    fun _ _ h => Table.lookup_upsertAll_of_fixed h (fun _ => rfl) _, fun key value h hne => ?_,
    fun id h hne => ?_⟩
  · have hk := Table.lookup_upsertAll_of_fixed h (hf hne) (MetaKey.rows (legacyMeta legacy))
    rw [importLegacyDatabaseRows]
    cases legacy.loggingActive with
    | none => exact hk
    | some => exact Table.lookup_upsert_of_fixed hk (fun _ => rfl) _
  · rw [importLegacyDatabaseRows]
    split_ifs
    · exact h
    · exact Table.lookup_upsert_of_fixed h (hf hne) _

theorem keeps_importAll (all : List Database) : t.Keeps (t.importAll all) := by
  induction all generalizing t with
  | nil => exact .refl t
  | cons legacy _ ih => exact (t.keeps_import legacy).trans (ih _)

def greatest (counters : Option TrafficCounters) (all : List Database) : Option TrafficCounters :=
  all.foldl (fun counters legacy => some (counters.elim ⟨legacy.mainUpBytes, legacy.mainDownBytes⟩
    fun c => ⟨max c.upBytes legacy.mainUpBytes, max c.downBytes legacy.mainDownBytes⟩)) counters

theorem lookup_counters_importAll (all : List Database) :
    (t.importAll all).counters.lookup () = greatest (t.counters.lookup ()) all := by
  induction all generalizing t with
  | nil => rfl
  | cons _ _ ih =>
    refine (ih _).trans ?_
    rw [importLegacyDatabaseRows, Table.lookup_upsert]
    rfl

/-- The rows of legacy databases have come into the tables, and nothing that was there is lost. -/
structure Merges (t : Tables) (all : List Database) (t' : Tables) : Prop extends t.Keeps t' where
  counters : t'.counters.lookup () = greatest (t.counters.lookup ()) all
  hasPassword : ∀ legacy ∈ all, ∀ password ∈ legacy.passwords, password ∈ t'.passwords
  hasDevice : ∀ legacy ∈ all, ∀ deviceId ∈ legacy.devices, deviceId ∈ t'.devices
  hasProfile : ∀ legacy ∈ all, ∀ profile ∈ legacy.localProxy.profiles,
    profile.id ∈ t'.localProxyProfiles

theorem merges_importAll {all : List Database} (hk : ∀ legacy ∈ all, legacy.Keyed) :
    t.Merges all (t.importAll all) where
  toKeeps := t.keeps_importAll all
  counters := t.lookup_counters_importAll all
  hasPassword legacy hl password hp := by
    obtain ⟨entry, he⟩ := Option.isSome_iff_exists.mp (AList.lookup_isSome.mpr hp)
    exact (t.holds_importAll hl).passwords _ (Table.mem_rows.mpr he)
  hasDevice legacy hl deviceId hd := by
    obtain ⟨device, hd⟩ := Option.isSome_iff_exists.mp (AList.lookup_isSome.mpr hd)
    have hr : (device.deviceId, DeviceRow.ofDevice device) ∈ legacy.deviceRows :=
      List.mem_map.mpr ⟨_, AList.mem_lookup_iff.mp hd, rfl⟩
    rw [← hk legacy hl deviceId device hd]
    exact (t.holds_importAll hl).devices _ hr
  hasProfile legacy hl profile hprofile := by
    have hid : profile.id ∈ legacy.localProxy.rows.map Prod.fst := by
      rw [map_fst_rows]
      exact List.mem_map.mpr ⟨profile, hprofile, rfl⟩
    obtain ⟨row, hr, hid⟩ := List.mem_map.mp hid
    exact hid ▸ (t.holds_importAll hl).localProxyProfiles row hr

end Tables

namespace Disk

/-- Legacy databases come into the tables, and nothing that was there is lost. A load that was
stopped any number of times does in the end what it would have done at once, if no file has its
proxy in the old form. -/
theorem import_crashSafe (t : Tables) (all : List Database) (d : Disk) :
    ((∀ legacy ∈ all, legacy.Keyed) → t.Merges all (t.importAll all)) ∧
    ((∀ file ∈ d.files, file.hasSingleProxy = false) →
      ∀ (stops : List ((ℕ → Text) × ℕ)) (newIds newIds' : ℕ → Text),
        (stops.foldl (fun d stop => d.stopped stop.1 stop.2) d).loadDatabase newIds =
          d.loadDatabase newIds') :=
  ⟨fun hk => t.merges_importAll hk, fun h stops newIds newIds' =>
    (resumes_stops h stops).loadDatabase h newIds newIds'⟩

/-- A load is stopped after the import, and again after the file is removed. -/
theorem import_crashSafe_twice :
    ((stopped ⟨none, [⟨{ mainPassword := "owner".toList }, .profiles "a".toList
        [⟨"127.0.0.1".toList, "a".toList, "first".toList, 1080, [], []⟩]⟩]⟩ (fun _ => []) 2).stopped
        (fun _ => []) 3).loadDatabase (fun _ => []) =
      loadDatabase ⟨none, [⟨{ mainPassword := "owner".toList }, .profiles "a".toList
        [⟨"127.0.0.1".toList, "a".toList, "first".toList, 1080, [], []⟩]⟩]⟩ (fun _ => []) :=
  (import_crashSafe {} [] ⟨none, [⟨{ mainPassword := "owner".toList }, .profiles "a".toList
    [⟨"127.0.0.1".toList, "a".toList, "first".toList, 1080, [], []⟩]⟩]⟩).2
    (by simp [LegacyFile.hasSingleProxy])
    [(fun _ => [], 2), (fun _ => [], 3)] (fun _ => []) (fun _ => [])

/-- A proxy in the old form is imported, and the file is read once more before it is removed: the
tables have two profiles, and one from a load that was not stopped. -/
theorem import_crashSafe_singleProxy :
    ∃ (d : Disk) (newIds newIds' : ℕ → Text), (∀ file ∈ d.files, file.database.Keyed) ∧
      ∀ newIds'', ((d.stopped newIds 2).loadDatabase newIds').1.tables ≠
      (d.loadDatabase newIds'').1.tables := by
  refine ⟨⟨none, [⟨{}, .single true (some 1080) [] []⟩]⟩, fun _ => "AAAAAAAA".toList,
    fun _ => "BBBBBBBB".toList, ?_, fun newIds'' heq => ?_⟩
  · intro file hf
    rw [List.mem_singleton.mp hf]
    exact AList.forall_lookup_iff.mpr (by decide)
  · have ht : ((stopped ⟨none, [⟨{}, .single true (some 1080) [] []⟩]⟩
        (fun _ => "AAAAAAAA".toList) 2).loadDatabase fun _ =>
          "BBBBBBBB".toList).1.rows.localProxyProfiles.keys.length
          = 2 := by decide +kernel
    have ho : (loadDatabase ⟨none, [⟨{}, .single true (some 1080) [] []⟩]⟩
        newIds'').1.rows.localProxyProfiles.keys.length = 1 := by
      rfl
    rw [rows, heq, ← rows, ho] at ht
    cases ht

end Disk
end Csqtt
