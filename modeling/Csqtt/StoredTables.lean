import Csqtt.DatabasePersistence
import Csqtt.KeyedTable

/-!
# The tables on disk

The six SQLite tables of the server as keyed tables. `write_database_snapshot` removes the rows that
the database has no more, and inserts or updates the rest; `read_database_snapshot` builds a
database from the rows. What is read after a snapshot was written does not depend on what the tables
held before.
-/

namespace Csqtt

/-- The columns of a device besides its id. -/
structure DeviceRow where
  ip : Text
  privKey : Text
  pubKey : Text
  upBytes : ℤ := 0
  downBytes : ℤ := 0
  boundPassword : Text := []
  lastSessionSalt : Text := []
  lastGenerationId : ℕ := 0
  deriving DecidableEq

/-- The columns of a proxy profile besides its id. -/
structure ProfileRow where
  sortOrder : ℤ
  name : Text
  port : ℕ
  username : Text := []
  password : Text := []
  host : Text := "127.0.0.1".toList
  deriving DecidableEq

@[ext]
structure Tables where
  metaRows : Table Text Text := ∅
  counters : Table Unit TrafficCounters := ∅
  passwords : Table Text PasswordEntry := ∅
  devices : Table Text DeviceRow := ∅
  localProxyProfiles : Table Text ProfileRow := ∅
  localProxyState : Table Unit Text := ∅

inductive MetaKey
  | mainPassword
  | mainDeviceId
  | dns
  | autoRestartIntervalHours
  | adminId
  | botToken
  | loggingActive
  deriving DecidableEq

namespace MetaKey

def text : MetaKey → Text
  | mainPassword => "main_password".toList
  | mainDeviceId => "main_device_id".toList
  | dns => "dns".toList
  | autoRestartIntervalHours => "auto_restart_interval_hours".toList
  | adminId => "admin_id".toList
  | botToken => "bot_token".toList
  | loggingActive => "logging_active".toList

def ofText (key : Text) : Option MetaKey :=
  [mainPassword, mainDeviceId, dns, autoRestartIntervalHours, adminId, botToken,
    loggingActive].find?
    fun k => k.text = key

theorem ofText_eq_some_iff {key : Text} {k : MetaKey} : ofText key = some k ↔ key = k.text := by
  constructor
  · intro h
    have hk := List.find?_some h
    exact (of_decide_eq_true hk).symm
  · rintro rfl
    cases k <;> decide

theorem text_injective : Function.Injective text := fun _ _ h =>
  Option.some.inj ((ofText_eq_some_iff.mpr rfl).symm.trans (ofText_eq_some_iff.mpr h))

def rows (values : List (MetaKey × Text)) : List (Text × Text) :=
  values.map fun v => (v.1.text, v.2)

theorem rowOf_rows (values : List (MetaKey × Text)) (k : MetaKey) :
    Table.rowOf (rows values) k.text = Table.rowOf values k := by
  induction values with
  | nil => rfl
  | cons _ _ ih =>
    rw [rows, List.map_cons, ← rows, Table.rowOf_cons, Table.rowOf_cons, ih]
    simp only [text_injective.eq_iff]

end MetaKey

def defaultAutoRestartIntervalHours : UInt8 := 0

def defaultLocalProxyPort : ℕ := 45000

def Database.restartIntervalHours (db : Database) : UInt8 :=
  db.autoRestartIntervalHours.getD defaultAutoRestartIntervalHours

def LocalProxyState.normalize (s : LocalProxyState) : LocalProxyState where
  activeProfileId :=
    if s.activeProfileId ≠ [] ∧ ¬ s.profiles.any (·.id = s.activeProfileId) then []
    else s.activeProfileId
  profiles := s.profiles.map fun p =>
    if p.port = 0 then { p with port := defaultLocalProxyPort } else p

/-- The row of a device. The epoch of its sessions is not kept. -/
def DeviceRow.ofDevice (device : ClientDevice) : DeviceRow where
  ip := device.ip
  privKey := device.privKey
  pubKey := device.pubKey
  upBytes := device.upBytes
  downBytes := device.downBytes
  boundPassword := device.boundPassword
  lastSessionSalt := []
  lastGenerationId := 0

def DeviceRow.device (deviceId : Text) (row : DeviceRow) : ClientDevice where
  deviceId := deviceId
  ip := row.ip
  privKey := row.privKey
  pubKey := row.pubKey
  upBytes := row.upBytes
  downBytes := row.downBytes
  boundPassword := row.boundPassword
  lastSessionSalt := row.lastSessionSalt
  lastGenerationId := row.lastGenerationId

def ProfileRow.ofProfile (sortOrder : ℕ) (profile : LocalProxyProfile) : ProfileRow where
  sortOrder := sortOrder
  name := profile.name
  port := profile.port
  username := profile.username
  password := profile.password
  host := profile.host

def ProfileRow.profile (id : Text) (row : ProfileRow) : LocalProxyProfile where
  host := row.host
  id := id
  name := row.name
  port := row.port
  username := row.username
  password := row.password

def loggingText (active : Bool) : Text := if active then "1".toList else "0".toList

namespace Database

def metaValues (db : Database) : List (MetaKey × Text) :=
  [(.mainPassword, db.mainPassword), (.mainDeviceId, db.mainDeviceId), (.dns, db.dns),
    (.autoRestartIntervalHours, Text.ofNat db.restartIntervalHours.toNat), (.adminId, db.adminId),
    (.botToken, db.botToken)]

def deviceRows (db : Database) : List (Text × DeviceRow) :=
  db.devices.entries.map fun e => (e.2.deviceId, DeviceRow.ofDevice e.2)

/-- The devices stand under their own ids. -/
def Keyed (db : Database) : Prop :=
  ∀ deviceId device, db.devices.lookup deviceId = some device → device.deviceId = deviceId

end Database

def LocalProxyState.rows (s : LocalProxyState) : List (Text × ProfileRow) :=
  s.profiles.zipIdx.map fun p => (p.1.id, ProfileRow.ofProfile p.2 p.1)

structure Database.Same (db db' : Database) : Prop where
  mainPassword : db.mainPassword = db'.mainPassword
  mainDeviceId : db.mainDeviceId = db'.mainDeviceId
  dns : db.dns = db'.dns
  autoRestartIntervalHours : db.autoRestartIntervalHours = db'.autoRestartIntervalHours
  mainUpBytes : db.mainUpBytes = db'.mainUpBytes
  mainDownBytes : db.mainDownBytes = db'.mainDownBytes
  adminId : db.adminId = db'.adminId
  botToken : db.botToken = db'.botToken
  passwords : ∀ password, db.passwords.lookup password = db'.passwords.lookup password
  devices : ∀ deviceId, db.devices.lookup deviceId = db'.devices.lookup deviceId
  webSessions : ∀ token, db.webSessions.lookup token = db'.webSessions.lookup token
  loggingActive : db.loggingActive = db'.loggingActive
  localProxy : db.localProxy = db'.localProxy

namespace Tables

open Table (upsert upsertAll replaced rowOf)

def writeDatabaseSnapshot (t : Tables) (db : Database) : Tables where
  metaRows :=
    let metaRows := upsertAll replaced t.metaRows (MetaKey.rows db.metaValues)
    match db.loggingActive with
    | some active => upsert replaced metaRows (MetaKey.loggingActive.text, loggingText active)
    | none => metaRows.erase MetaKey.loggingActive.text
  counters := upsert replaced t.counters ((), ⟨db.mainUpBytes, db.mainDownBytes⟩)
  passwords := t.passwords.overwrite (· ∈ db.passwords) (Table.rows db.passwords)
  devices := t.devices.overwrite (· ∈ db.devices) db.deviceRows
  localProxyProfiles :=
    t.localProxyProfiles.overwrite (fun id => db.localProxy.profiles.any (·.id = id))
      db.localProxy.rows
  localProxyState := upsert replaced t.localProxyState ((), db.localProxy.activeProfileId)

/-- What a row of the table of settings says. A number that cannot be read is passed over. -/
def setMeta (db : Database) (key : MetaKey) (value : Text) : Database :=
  match key with
  | .mainPassword => { db with mainPassword := value }
  | .mainDeviceId => { db with mainDeviceId := value }
  | .dns => { db with dns := value }
  | .autoRestartIntervalHours =>
    { db with autoRestartIntervalHours :=
        ((Text.parseUnsigned 256 value).map UInt8.ofNat).or db.autoRestartIntervalHours }
  | .adminId => { db with adminId := value }
  | .botToken => { db with botToken := value }
  | .loggingActive => { db with loggingActive := some (value = "1".toList) }

def readMeta (db : Database) (key value : Text) : Database :=
  match MetaKey.ofText key with
  | some key => setMeta db key value
  | none => db

def readProfiles (t : Tables) : List LocalProxyProfile :=
  (t.localProxyProfiles.sortBy (·.sortOrder)).map fun row => row.2.profile row.1

def readDatabaseSnapshot (t : Tables) : Database :=
  let db := AList.foldl readMeta {} t.metaRows
  let counters := (t.counters.lookup ()).getD {}
  let localProxy : LocalProxyState := ⟨(t.localProxyState.lookup ()).getD [], t.readProfiles⟩
  { db with
    mainUpBytes := counters.upBytes
    mainDownBytes := counters.downBytes
    passwords := t.passwords
    devices := t.devices.mapValues DeviceRow.device
    localProxy := localProxy.normalize
    botToken := []
    adminId := [] }

/-! ## The table of settings -/

theorem readMeta_field {ε : Type*} (field : Database → ε) (key : MetaKey) {g : ε → Text → ε}
    (hk : ∀ db value, field (setMeta db key value) = g (field db) value)
    (ho : ∀ db key' value, key' ≠ key → field (setMeta db key' value) = field db)
    (rows : Table Text Text) (db : Database) :
    field (AList.foldl readMeta db rows) =
      (rows.lookup key.text).elim (field db) (g (field db)) := by
  refine Table.foldl_field (fun db value => ?_) (fun db text value hne => ?_) rows db
  · rw [readMeta, MetaKey.ofText_eq_some_iff.mpr rfl]
    exact hk db value
  · unfold readMeta
    split
    · rename_i key' hk'
      exact ho db key' value fun h => hne (h ▸ MetaKey.ofText_eq_some_iff.mp hk')
    · rfl

theorem readMeta_unset {ε : Type*} (field : Database → ε)
    (h : ∀ db key value, field (setMeta db key value) = field db) (rows : Table Text Text)
    (db : Database) : field (AList.foldl readMeta db rows) = field db := by
  have hf := readMeta_field field .dns (g := fun d _ => d) (h · .dns)
    (fun db key value _ => h db key value) rows db
  cases hl : rows.lookup MetaKey.dns.text with
  | none | some => rwa [hl] at hf

theorem parseUnsigned_hours (ho : UInt8) :
    (Text.parseUnsigned 256 (Text.ofNat ho.toNat)).map UInt8.ofNat = some ho := by
  rw [Text.parseUnsigned_ofNat, if_pos ho.toNat_lt, Option.map_some, UInt8.ofNat_toNat]

variable (t : Tables)

theorem lookup_metaRows (db : Database) (key : MetaKey) :
    (t.writeDatabaseSnapshot db).metaRows.lookup key.text =
      if key = .loggingActive then db.loggingActive.map loggingText
      else (rowOf db.metaValues.reverse key).or (t.metaRows.lookup key.text) := by
  have hl : (upsertAll replaced t.metaRows (MetaKey.rows db.metaValues)).lookup key.text =
      (rowOf db.metaValues.reverse key).or (t.metaRows.lookup key.text) := by
    rw [Table.lookup_upsertAll_replaced, MetaKey.rows, ← List.map_reverse, ← MetaKey.rows,
      MetaKey.rowOf_rows]
  unfold writeDatabaseSnapshot
  dsimp only
  split_ifs with hk
  · subst hk
    cases db.loggingActive with
    | some => exact Table.lookup_upsert_replaced _ _ _
    | none => exact AList.lookup_erase _ _
  · have hne : key.text ≠ MetaKey.loggingActive.text := fun h => hk (MetaKey.text_injective h)
    cases db.loggingActive with
    | some =>
      dsimp only
      rw [Table.lookup_upsert, if_neg hne, hl]
    | none => exact (AList.lookup_erase_ne hne).trans hl

variable {db : Database}

theorem lookup_metaRows_value {t : Tables} {key : MetaKey} {value : Text}
    (hk : key ≠ .loggingActive) (h : rowOf db.metaValues.reverse key = some value) :
    (t.writeDatabaseSnapshot db).metaRows.lookup key.text = some value := by
  rw [lookup_metaRows, if_neg hk, h, Option.some_or]

theorem readMeta_value (field : Database → Text) (key : MetaKey) (hl : key ≠ .loggingActive)
    (hk : ∀ db value, field (setMeta db key value) = value)
    (ho : ∀ db key' value, key' ≠ key → field (setMeta db key' value) = field db) (t : Tables)
    (hv : rowOf db.metaValues.reverse key = some (field db)) :
    field (AList.foldl readMeta {} (t.writeDatabaseSnapshot db).metaRows) = field db := by
  rw [readMeta_field field key (g := fun _ value => value) hk ho,
    lookup_metaRows_value hl hv, Option.elim_some]

/-! ## The other tables -/

theorem lookup_counters (db : Database) :
    (t.writeDatabaseSnapshot db).counters.lookup () = some ⟨db.mainUpBytes, db.mainDownBytes⟩ :=
  Table.lookup_upsert_replaced _ _ _

theorem lookup_localProxyState (db : Database) :
    (t.writeDatabaseSnapshot db).localProxyState.lookup () = some db.localProxy.activeProfileId :=
  Table.lookup_upsert_replaced _ _ _

theorem lookup_passwords (db : Database) (password : Text) :
    (t.writeDatabaseSnapshot db).passwords.lookup password = db.passwords.lookup password :=
  Table.lookup_overwrite_rows _ _ (fun _ => of_decide_eq_true) password

theorem lookup_devices (h : db.Keyed) (deviceId : Text) :
    (t.writeDatabaseSnapshot db).devices.lookup deviceId =
      (db.devices.lookup deviceId).map DeviceRow.ofDevice := by
  have hr : db.deviceRows = Table.rows (db.devices.mapValues fun _ => DeviceRow.ofDevice) := by
    rw [Table.rows, AList.mapValues, List.map_map]
    refine List.map_congr_left fun e he => ?_
    exact congrArg (·, DeviceRow.ofDevice e.2) (AList.forall_lookup_iff.mp h e he)
  rw [writeDatabaseSnapshot]
  dsimp only
  rw [hr, Table.lookup_overwrite_rows, AList.lookup_mapValues]
  exact fun a ha => AList.mem_mapValues.mpr (of_decide_eq_true ha)

theorem map_fst_rows (s : LocalProxyState) : s.rows.map Prod.fst = s.profiles.map (·.id) := by
  rw [LocalProxyState.rows, List.map_map]
  conv_rhs => rw [← List.zipIdx_map_fst 0 s.profiles, List.map_map]
  rfl

theorem lookup_localProxyProfiles (db : Database) (id : Text) :
    (t.writeDatabaseSnapshot db).localProxyProfiles.lookup id =
      rowOf db.localProxy.rows.reverse id := by
  refine Table.lookup_overwrite _ (fun id hid => ?_) id
  rw [map_fst_rows]
  simpa using hid

theorem readProfiles_writeDatabaseSnapshot (h : (db.localProxy.profiles.map (·.id)).Nodup) :
    (t.writeDatabaseSnapshot db).readProfiles = db.localProxy.profiles := by
  rw [← map_fst_rows] at h
  have hm : ∀ id row, (t.writeDatabaseSnapshot db).localProxyProfiles.lookup id = some row ↔
      (id, row) ∈ db.localProxy.rows := by
    intro id row
    rw [lookup_localProxyProfiles, Table.rowOf_reverse h, Table.rowOf_eq_some_iff h]
  have ho : db.localProxy.rows.Pairwise fun row row' => row.2.sortOrder < row'.2.sortOrder := by
    have hin : (db.localProxy.profiles.zipIdx.map Prod.snd).Pairwise (· < ·) := by
      rw [List.zipIdx_map_snd]
      exact List.pairwise_lt_range'
    exact List.pairwise_map.mpr ((List.pairwise_map.mp hin).imp Int.ofNat_lt.mpr)
  rw [readProfiles, Table.sortBy_eq hm ho, LocalProxyState.rows, List.map_map]
  exact (List.map_congr_left fun _ _ => rfl).trans (List.zipIdx_map_fst 0 db.localProxy.profiles)

/-- What is read after a snapshot was written is the database without what is not kept: the epochs
of the devices, who administers the server, and the sessions of its panel. -/
theorem read_writeDatabaseSnapshot (t : Tables) (db : Database) (hkeyed : db.Keyed)
    (hids : (db.localProxy.profiles.map (·.id)).Nodup) :
    (t.writeDatabaseSnapshot db).readDatabaseSnapshot.Same { db with
        autoRestartIntervalHours := some db.restartIntervalHours
        adminId := []
        botToken := []
        webSessions := ∅
        devices := db.devices.mapValues fun _ device =>
          { device with lastSessionSalt := [], lastGenerationId := 0 }
        localProxy := db.localProxy.normalize } where
  mainPassword := by
    refine readMeta_value (·.mainPassword) .mainPassword (by decide) (fun _ _ => rfl) ?_ t rfl
    intro db key value hkey
    cases key <;> first | rfl | exact absurd rfl hkey
  mainDeviceId := by
    refine readMeta_value (·.mainDeviceId) .mainDeviceId (by decide) (fun _ _ => rfl) ?_ t rfl
    intro db key value hkey
    cases key <;> first | rfl | exact absurd rfl hkey
  dns := by
    refine readMeta_value (·.dns) .dns (by decide) (fun _ _ => rfl) ?_ t rfl
    intro db key value hkey
    cases key <;> first | rfl | exact absurd rfl hkey
  autoRestartIntervalHours := by
    refine (readMeta_field (·.autoRestartIntervalHours) .autoRestartIntervalHours
      (g := fun hours value => ((Text.parseUnsigned 256 value).map UInt8.ofNat).or hours)
      (fun _ _ => rfl) ?_ _ _).trans ?_
    · intro db key value hkey
      cases key <;> first | rfl | exact absurd rfl hkey
    · have hval : rowOf db.metaValues.reverse .autoRestartIntervalHours =
          some (Text.ofNat db.restartIntervalHours.toNat) := rfl
      rw [lookup_metaRows_value (by decide) hval, Option.elim_some, parseUnsigned_hours,
        Option.some_or]
  mainUpBytes := by
    rw [readDatabaseSnapshot, lookup_counters]
    rfl
  mainDownBytes := by
    rw [readDatabaseSnapshot, lookup_counters]
    rfl
  adminId := rfl
  botToken := rfl
  passwords := t.lookup_passwords db
  devices deviceId := by
    rw [readDatabaseSnapshot]
    dsimp only
    rw [AList.lookup_mapValues, AList.lookup_mapValues, lookup_devices t hkeyed, Option.map_map]
    cases hdev : db.devices.lookup deviceId with
    | none => rfl
    | some device =>
      refine congrArg some ?_
      rw [← hkeyed deviceId device hdev]
      rfl
  webSessions token := by
    refine congrArg (AList.lookup token)
      (readMeta_unset (·.webSessions) (fun db key value => ?_) _ _)
    cases key <;> rfl
  loggingActive := by
    refine (readMeta_field (·.loggingActive) .loggingActive
      (g := fun _ value => some (value = "1".toList)) (fun _ _ => rfl) ?_ _ _).trans ?_
    · intro db key value hkey
      cases key <;> first | rfl | exact absurd rfl hkey
    · rw [lookup_metaRows, if_pos rfl]
      cases db.loggingActive with
      | none => rfl
      | some active => cases active <;> rfl
  localProxy := by
    rw [readDatabaseSnapshot, readProfiles_writeDatabaseSnapshot t hids, lookup_localProxyState]
    rfl

/-- Rows of an older database are gone, and the profiles stand in the order of the new one. -/
theorem read_writeDatabaseSnapshot_stale :
    (Tables.readDatabaseSnapshot (Tables.writeDatabaseSnapshot
      { metaRows := AList.singleton "logging_active".toList "1".toList
        passwords := AList.singleton "old".toList {}
        localProxyProfiles := AList.singleton "b".toList
          { sortOrder := 0, name := "second".toList, port := 1080 } }
      { devices := AList.singleton "phone".toList
          { deviceId := "phone".toList, ip := "10.66.67.2".toList, boundPassword := []
            lastSessionSalt := "salt".toList, lastGenerationId := 3 }
        localProxy := ⟨"b".toList, [⟨"127.0.0.1".toList, "a".toList, "first".toList, 0, [], []⟩,
          ⟨"127.0.0.1".toList, "b".toList, "second".toList, 1080, [], []⟩]⟩ })).localProxy =
      ⟨"b".toList, [⟨"127.0.0.1".toList, "a".toList, "first".toList, 45000, [], []⟩,
        ⟨"127.0.0.1".toList, "b".toList, "second".toList, 1080, [], []⟩]⟩ :=
  (read_writeDatabaseSnapshot _ _ (AList.forall_lookup_iff.mpr (by decide)) (by decide)).localProxy

end Tables
end Csqtt
