import Csqtt.DatabaseHistory
import Csqtt.LegacyImport

/-!
# The addresses of imported devices

The import merges devices by their ids and the check compares them by their ids, so two devices keep
the addresses they have in the tables and in the files, and the loaded database has an address twice
if two sources give it to different devices.
-/

namespace Csqtt

open Table (upsertAll kept rowOf)

theorem Database.distinctIps_iff {db : Database} : db.DistinctIps ↔
    ∀ e ∈ db.devices.entries, ∀ e' ∈ db.devices.entries, e.2.ip = e'.2.ip → e.1 = e'.1 := by
  constructor
  · intro h e he e' he'
    exact h e.1 e'.1 e.2 e'.2 (AList.mem_lookup_iff.mpr he) (AList.mem_lookup_iff.mpr he')
  · intro h deviceId deviceId' device device' hd hd'
    exact h ⟨deviceId, device⟩ (AList.mem_lookup_iff.mp hd) ⟨deviceId', device'⟩
      (AList.mem_lookup_iff.mp hd')

instance (db : Database) : Decidable db.DistinctIps := decidable_of_iff' _ Database.distinctIps_iff

variable {deviceId : Text}

theorem Tables.lookup_devices_importAll {t : Tables} {all : List Database} {row : DeviceRow}
    (h : (t.importAll all).devices.lookup deviceId = some row) :
    t.devices.lookup deviceId = some row ∨ ∃ legacy ∈ all, (deviceId, row) ∈ legacy.deviceRows := by
  induction all generalizing t with
  | nil => exact .inl h
  | cons legacy _ ih =>
    obtain h | ⟨other, ho, hr⟩ := ih h
    · rw [importLegacyDatabaseRows, Table.lookup_upsertAll_kept] at h
      obtain h | ⟨-, h⟩ := Option.or_eq_some_iff.mp h
      · exact .inl h
      · exact .inr ⟨legacy, List.mem_cons_self, Table.mem_of_rowOf h⟩
    · exact .inr ⟨other, List.mem_cons_of_mem legacy ho, hr⟩

theorem Tables.lookup_devices_read (t : Tables) (deviceId : Text) :
    t.readDatabaseSnapshot.devices.lookup deviceId =
      (t.devices.lookup deviceId).map (DeviceRow.device deviceId) :=
  AList.lookup_mapValues _ _ _

theorem DeviceRow.reset_ip (row : DeviceRow) : row.reset.ip = row.ip := by
  unfold DeviceRow.reset
  split_ifs
  · rfl
  · rfl

variable {legacy : Database}

/-- A device of a legacy database that passed the check is in the tables as it is in the file. -/
theorem device_of_verify {sqlite : Database} (h : verifyLegacyDatabaseRows sqlite legacy = none)
    {device : ClientDevice} (hdev : legacy.devices.lookup deviceId = some device) :
    ∃ found, sqlite.devices.lookup deviceId = some found ∧
      legacyDeviceMatches found device = true := by
  unfold verifyLegacyDatabaseRows at h
  split_ifs at h
  have hd := (Option.or_eq_none_iff.mp h).2
  rw [List.findSome?_eq_none_iff] at hd
  have hr := hd ⟨deviceId, device⟩ (AList.mem_lookup_iff.mp hdev)
  unfold rowConflict at hr
  split at hr
  · cases hr
  · rename_i found hf
    split_ifs at hr with hm
    exact ⟨found, hf, hm⟩

namespace Disk

def Assigns (d : Disk) (deviceId ip : Text) : Prop :=
  (∃ row, d.rows.devices.lookup deviceId = some row ∧ row.ip = ip) ∨
    ∃ file ∈ d.files, ∃ device, file.database.devices.lookup deviceId = some device ∧ device.ip = ip

theorem loadDatabase_ok {d : Disk} {newIds : ℕ → Text} {db : Database}
    (h : (d.loadDatabase newIds).2 = .ok db) :
    d.verify newIds = none ∧ db = (d.merged newIds).readDatabaseSnapshot := by
  rw [loadDatabase] at h
  split_ifs at h with hf
  · have hl : d.legacy newIds = [] := by rw [legacy, hf]; rfl
    rw [verify, merged, hl, rows]
    refine ⟨rfl, ?_⟩
    cases ht : d.tables with
    | none | some =>
      rw [ht] at h
      exact (Except.ok.inj h).symm
  · cases hv : d.verify newIds with
    | none =>
      rw [hv] at h
      exact ⟨rfl, (Except.ok.inj h).symm⟩
    | some =>
      rw [hv] at h
      cases h

theorem loadDatabase_of_verify {d : Disk} {newIds : ℕ → Text} (hf : d.files ≠ [])
    (hv : d.verify newIds = none) :
    (d.loadDatabase newIds).2 = .ok (d.merged newIds).readDatabaseSnapshot := by
  rw [loadDatabase, if_neg hf, hv]

theorem mem_legacy {d : Disk} {newIds : ℕ → Text} (h : legacy ∈ d.legacy newIds) :
    ∃ file ∈ d.files, legacy.devices = file.database.devices := by
  obtain ⟨file, hf, rfl⟩ := List.mem_map.mp h
  exact ⟨file.1, List.fst_mem_of_mem_zipIdx hf, rfl⟩

theorem exists_legacy {d : Disk} (newIds : ℕ → Text) {file : LegacyFile} (h : file ∈ d.files) :
    ∃ legacy ∈ d.legacy newIds, legacy.devices = file.database.devices := by
  rw [← List.zipIdx_map_fst 0 d.files] at h
  obtain ⟨file, hf, rfl⟩ := List.mem_map.mp h
  exact ⟨_, List.mem_map_of_mem hf, rfl⟩

variable {d : Disk} {newIds : ℕ → Text} {db : Database}

section

variable (h : (d.loadDatabase newIds).2 = .ok db)
include h

theorem keyed_of_ok (hl : legacy ∈ d.legacy newIds) : legacy.Keyed := by
  intro deviceId device hd
  obtain ⟨hv, rfl⟩ := loadDatabase_ok h
  obtain ⟨found, hf, hm⟩ :=
    device_of_verify (List.findSome?_eq_none_iff.mp hv legacy hl) hd
  rw [Tables.lookup_devices_read] at hf
  obtain ⟨row, -, rfl⟩ := Option.map_eq_some_iff.mp hf
  simp only [legacyDeviceMatches, Bool.and_eq_true, decide_eq_true_eq] at hm
  exact hm.1.1.1.1.symm

theorem assigns_of_loaded {device : ClientDevice} (hd : db.devices.lookup deviceId = some device) :
    d.Assigns deviceId device.ip := by
  rw [(loadDatabase_ok h).2, Tables.lookup_devices_read] at hd
  obtain ⟨row, hr, rfl⟩ := Option.map_eq_some_iff.mp hd
  obtain hr | ⟨legacy, hl, hr⟩ := Tables.lookup_devices_importAll hr
  · rw [Tables.resetDeviceRuntimeEpochs, AList.lookup_mapValues] at hr
    obtain ⟨stored, hs, rfl⟩ := Option.map_eq_some_iff.mp hr
    exact .inl ⟨stored, hs, stored.reset_ip.symm⟩
  · obtain ⟨file, hf, hdevs⟩ := mem_legacy hl
    obtain ⟨⟨key, device⟩, hm, heq⟩ := List.mem_map.mp hr
    cases heq
    have hlookup : legacy.devices.lookup key = some device := AList.mem_lookup_iff.mpr hm
    obtain rfl : device.deviceId = key := keyed_of_ok h hl key device hlookup
    exact .inr ⟨file, hf, device, hdevs ▸ hlookup, rfl⟩

theorem loaded_of_assigns {ip : Text} (ha : d.Assigns deviceId ip) :
    ∃ device, db.devices.lookup deviceId = some device ∧ device.ip = ip := by
  obtain ⟨hv, rfl⟩ := loadDatabase_ok h
  obtain ⟨row, hr, rfl⟩ | ⟨file, hf, device, hd, rfl⟩ := ha
  · have hs : d.rows.resetDeviceRuntimeEpochs.devices.lookup deviceId = some row.reset := by
      rw [Tables.resetDeviceRuntimeEpochs, AList.lookup_mapValues, hr, Option.map_some]
    have hk := (Tables.keeps_importAll _ (d.legacy newIds)).devices deviceId row.reset hs
    refine ⟨row.reset.device deviceId, ?_, row.reset_ip⟩
    rw [Tables.lookup_devices_read, merged, hk, Option.map_some]
  · obtain ⟨legacy, hl, hdevs⟩ := exists_legacy newIds hf
    rw [← hdevs] at hd
    obtain ⟨found, hfound, hm⟩ :=
      device_of_verify (List.findSome?_eq_none_iff.mp hv legacy hl) hd
    simp only [legacyDeviceMatches, Bool.and_eq_true, decide_eq_true_eq] at hm
    exact ⟨found, hfound, hm.1.1.1.2⟩

end

/-- A load that succeeds gives every device an address of its own exactly if no two devices have the
same address in the tables and in the files. -/
theorem import_distinctIps_iff (d : Disk) (newIds : ℕ → Text) (db : Database)
    (h : (d.loadDatabase newIds).2 = .ok db) :
    db.DistinctIps ↔ ∀ deviceId deviceId' ip, d.Assigns deviceId ip → d.Assigns deviceId' ip →
      deviceId = deviceId' := by
  constructor
  · intro hd deviceId deviceId' ip hip hi'
    obtain ⟨device, hdev, hip⟩ := loaded_of_assigns h hip
    obtain ⟨device', hd', hi'⟩ := loaded_of_assigns h hi'
    exact hd deviceId deviceId' device device' hdev hd' (hip.trans hi'.symm)
  · intro hd deviceId deviceId' device device' hdev hd' hip
    refine hd deviceId deviceId' device.ip (assigns_of_loaded h hdev) ?_
    rw [hip]
    exact assigns_of_loaded h hd'

/-- A device of the tables and a device of a file with another address. -/
theorem import_distinctIps_phone_tablet :
    ∃ (d : Disk) (newIds : ℕ → Text) (db : Database), (d.loadDatabase newIds).2 = .ok db ∧
      db.DistinctIps ∧
        ∀ deviceId deviceId' ip, d.Assigns deviceId ip → d.Assigns deviceId' ip →
        deviceId = deviceId' := by
  let row : DeviceRow := { ip := "10.66.67.2".toList, privKey := [], pubKey := [] }
  let tablet : DeviceRow := { ip := "10.66.67.3".toList, privKey := [], pubKey := [] }
  let d : Disk := ⟨some { devices := AList.singleton "phone".toList row },
    [⟨{ devices := AList.singleton "tablet".toList (tablet.device "tablet".toList) }, .absent⟩]⟩
  have hl := loadDatabase_of_verify (d := d) (List.cons_ne_nil _ _)
    (show d.verify (fun _ => []) = none by decide +kernel)
  have hd : (d.merged fun _ => []).readDatabaseSnapshot.DistinctIps := by decide +kernel
  exact ⟨d, _, _, hl, hd, (import_distinctIps_iff d _ _ hl).mp hd⟩

/-- A device of the tables and a device of a file have the same address. -/
theorem import_distinctIps_shared :
    ∃ (d : Disk) (newIds : ℕ → Text), d.rows.readDatabaseSnapshot.DistinctIps ∧
      (∀ file ∈ d.files, file.database.DistinctIps) ∧
        ∃ db, (d.loadDatabase newIds).2 = .ok db ∧ ¬ db.DistinctIps := by
  let row : DeviceRow := { ip := "10.66.67.2".toList, privKey := [], pubKey := [] }
  let d : Disk := ⟨some { devices := AList.singleton "phone".toList row },
    [⟨{ devices := AList.singleton "tablet".toList (row.device "tablet".toList) }, .absent⟩]⟩
  have hl := loadDatabase_of_verify (d := d) (List.cons_ne_nil _ _)
    (show d.verify (fun _ => []) = none by decide +kernel)
  exact ⟨d, fun _ => [], by decide +kernel, by decide +kernel, _, hl, by decide +kernel⟩

end Disk
end Csqtt
