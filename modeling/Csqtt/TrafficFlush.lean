import Csqtt.ClientCreation
import Csqtt.PersistedUpdates

/-!
# The flush of the traffic counters

`flush_traffic` adds the bytes that the sessions have counted to the counters in the database, and
has the new values written. They are captured under the lock of the database, and submitted after
it is released. No other task changes counters, except that a new client starts with its own.
-/

namespace Csqtt

/-- A counter of 64 bits taken as a number with a sign. -/
def asI64 (n : ℕ) : ℤ := Int.bmod n (2 ^ 64)

def saturatingAddI64 (a b : ℤ) : ℤ := max (-2 ^ 63) (min (a + b) (2 ^ 63 - 1))

/-- What a flush takes from a session. -/
structure SessionTraffic where
  password : Text
  deviceId : Text
  up : ℕ
  down : ℕ

def TrafficCounters.add (c : TrafficCounters) (s : SessionTraffic) : TrafficCounters :=
  ⟨saturatingAddI64 c.upBytes (asI64 s.up), saturatingAddI64 c.downBytes (asI64 s.down)⟩

def PasswordEntry.counters (entry : PasswordEntry) : TrafficCounters :=
  ⟨entry.upBytes, entry.downBytes⟩

def DeviceRow.counters (row : DeviceRow) : TrafficCounters := ⟨row.upBytes, row.downBytes⟩

def ClientDevice.counters (device : ClientDevice) : TrafficCounters :=
  ⟨device.upBytes, device.downBytes⟩

def ClientDevice.setTraffic (c : TrafficCounters) (device : ClientDevice) : ClientDevice :=
  { device with upBytes := c.upBytes, downBytes := c.downBytes }

namespace Database

def mainCounters (db : Database) : TrafficCounters := ⟨db.mainUpBytes, db.mainDownBytes⟩

def setMain (db : Database) (c : TrafficCounters) : Database :=
  { db with mainUpBytes := c.upBytes, mainDownBytes := c.downBytes }

def flushDevice (db : Database) (traffic : TrafficSnapshot) (s : SessionTraffic) :
    Database × TrafficSnapshot :=
  match db.devices.lookup s.deviceId with
  | none => (db, traffic)
  | some device =>
    let counters := device.counters.add s
    ({ db with devices := db.devices.insert s.deviceId (device.setTraffic counters) },
      { traffic with devices := traffic.devices.insert s.deviceId counters })

def flushSession (flushed : Database × TrafficSnapshot) (s : SessionTraffic) :
    Database × TrafficSnapshot :=
  let (db, traffic) := flushed
  if s.up = 0 ∧ s.down = 0 then (db, traffic)
  else
    match db.passwords.lookup s.password with
    | some entry =>
      let counters := entry.counters.add s
      flushDevice
        { db with passwords := db.passwords.insert s.password (entry.setTraffic counters) }
        { traffic with passwords := traffic.passwords.insert s.password counters } s
    | none =>
      if s.password = db.mainPassword then
        let counters := db.mainCounters.add s
        let db := db.setMain counters
        let traffic := { traffic with main := some counters }
        if s.deviceId = [] then (db, traffic) else flushDevice db traffic s
      else (db, traffic)

def flushTraffic (db : Database) (sessions : List SessionTraffic) : Database × TrafficSnapshot :=
  sessions.foldl flushSession (db, {})

end Database

/-! ## What a flush captures -/

structure Captured (db : Database) (flushed : Database × TrafficSnapshot) : Prop where
  main : flushed.1.mainCounters = flushed.2.main.getD db.mainCounters
  passwords : ∀ password, flushed.1.passwords.lookup password =
    (db.passwords.lookup password).map fun entry =>
      (flushed.2.passwords.lookup password).elim entry (PasswordEntry.setTraffic · entry)
  devices : ∀ deviceId, flushed.1.devices.lookup deviceId =
    (db.devices.lookup deviceId).map fun device =>
      (flushed.2.devices.lookup deviceId).elim device (ClientDevice.setTraffic · device)
  known : ∀ deviceId ∈ flushed.2.devices, deviceId ∈ db.devices
  mainPassword : flushed.1.mainPassword = db.mainPassword

namespace Captured

variable {db : Database} {flushed : Database × TrafficSnapshot}

theorem refl (db : Database) : Captured db (db, {}) where
  main := rfl
  passwords password := by simp
  devices deviceId := by simp
  known deviceId h := absurd h (AList.notMem_empty deviceId)
  mainPassword := rfl

section

variable (h : Captured db flushed)
include h

theorem setMain (c : TrafficCounters) :
    Captured db (flushed.1.setMain c, { flushed.2 with main := some c }) where
  main := rfl
  passwords := h.passwords
  devices := h.devices
  known := h.known
  mainPassword := h.mainPassword

theorem setPassword {password : Text} {entry : PasswordEntry}
    (he : flushed.1.passwords.lookup password = some entry) (c : TrafficCounters) : Captured db
      ({ flushed.1 with passwords := flushed.1.passwords.insert password (entry.setTraffic c) },
        { flushed.2 with passwords := flushed.2.passwords.insert password c }) where
  main := h.main
  passwords other := by
    by_cases ho : other = password
    · subst ho
      have hold := h.passwords other
      rw [he] at hold
      obtain ⟨old, hl, heq⟩ := Option.map_eq_some_iff.mp hold.symm
      rw [AList.lookup_insert, AList.lookup_insert, hl, ← heq]
      cases flushed.2.passwords.lookup other with
      | none | some => rfl
    · rw [AList.lookup_insert_ne ho, AList.lookup_insert_ne ho]
      exact h.passwords other
  devices := h.devices
  known := h.known
  mainPassword := h.mainPassword

theorem flushDevice (s : SessionTraffic) : Captured db (flushed.1.flushDevice flushed.2 s) := by
  unfold Database.flushDevice
  cases hd : flushed.1.devices.lookup s.deviceId with
  | none => exact h
  | some =>
    have hold := h.devices s.deviceId
    rw [hd] at hold
    obtain ⟨old, hl, heq⟩ := Option.map_eq_some_iff.mp hold.symm
    refine ⟨h.main, h.passwords, fun other => ?_, fun other ho => ?_, h.mainPassword⟩
    · by_cases ho : other = s.deviceId
      · subst ho
        rw [AList.lookup_insert, AList.lookup_insert, hl, ← heq]
        cases flushed.2.devices.lookup s.deviceId with
        | none | some => rfl
      · rw [AList.lookup_insert_ne ho, AList.lookup_insert_ne ho]
        exact h.devices other
    · obtain rfl | ho := (AList.mem_insert _).mp ho
      · exact AList.lookup_isSome.mp (Option.isSome_iff_exists.mpr ⟨old, hl⟩)
      · exact h.known other ho

theorem flushSession (s : SessionTraffic) : Captured db (Database.flushSession flushed s) := by
  unfold Database.flushSession
  dsimp only
  by_cases hz : s.up = 0 ∧ s.down = 0
  · rw [if_pos hz]
    exact h
  · rw [if_neg hz]
    cases he : flushed.1.passwords.lookup s.password with
    | some => exact (h.setPassword he _).flushDevice s
    | none =>
      split_ifs
      · exact h.setMain _
      · exact (h.setMain _).flushDevice s
      · exact h

end

end Captured

theorem captured_flushTraffic (db : Database) (sessions : List SessionTraffic) :
    Captured db (db.flushTraffic sessions) := by
  have hf : ∀ flushed, Captured db flushed →
      Captured db (sessions.foldl Database.flushSession flushed) := by
    induction sessions with
    | nil => exact fun _ h => h
    | cons s _ ih => exact fun _ h => ih _ (h.flushSession s)
  exact hf _ (.refl db)

/-! ## The tasks that change the database -/

inductive DatabaseTask
  | settings (request : SettingsRequest)
  | clientsCreate (now : ℤ) (random : List Bytes) (request : CreateClientRequest)
  | clientUpdate (now : ℤ) (password : Text) (request : CreateClientRequest)
  | clientToggle (password : Text)
  | clientUnbind (password : Text)
  | clientDelete (password : Text)
  | expire (now : ℤ) (password : Text)
  | getconf (request : GetconfRequest) (access : CredentialAccess) (keys : Text × Text)
  | logging (active : Bool)
  | localProxy (state : LocalProxyState)
  | save

namespace Database

/-- What a task leaves in memory, also when it answers with an error. -/
def write (net : Subnet) (db : Database) : DatabaseTask → Database
  | .settings request => db.settingsPost request
  | .clientsCreate now random request => (db.clientsCreate now random request).1
  | .clientUpdate now password request => (db.clientUpdate now password request).1
  | .clientToggle password => (db.clientToggle password).1
  | .clientUnbind password => (db.clientUnbind password).1
  | .clientDelete password => (db.clientDelete password).1
  | .expire now password => db.expire now password
  | .getconf request access keys => (db.admitted net request access keys).1
  | .logging active => { db with loggingActive := some active }
  | .localProxy localProxy => { db with localProxy }
  | .save => db

/-- Whether a task submits what it has written. -/
def submits (net : Subnet) (db : Database) : DatabaseTask → Bool
  | .settings request => request.check.isOk
  | .clientsCreate now random request => (db.clientsCreate now random request).2.isOk
  | .clientUpdate now password request => (db.clientUpdate now password request).2.isOk
  | .clientToggle password => (db.clientToggle password).2.isOk
  | .clientUnbind password => (db.clientUnbind password).2.isOk
  | .clientDelete password => (db.clientDelete password).2.isOk
  | .expire now password => (db.passwords.lookup password).any (isExpired now)
  | .getconf request access keys => (db.admitted net request access keys).2
  | _ => true

def created (db : Database) : DatabaseTask → Option Text
  | .clientsCreate now random request =>
    (db.clientsCreate now random request).2.toOption.map (·.password)
  | _ => none

/-- The expired passwords that a refused creation takes from memory, and submits nothing. -/
def dropped (db : Database) : DatabaseTask → List Text
  | .clientsCreate now random request =>
    if request.check.isOk = true ∧ (db.clientsCreate now random request).2.isOk = false then
      db.expiredPasswords now
    else []
  | _ => []

/-- Every way in which the database changes. -/
def Writes (net : Subnet) (db db' : Database) : Prop :=
  (∃ task, db' = db.write net task) ∨ ∃ sessions, db' = (db.flushTraffic sessions).1

/-- The passwords are old ones with their counters, apart from a client that is added. -/
def KeepsPasswords (created : Option Text) (db db' : Database) : Prop :=
  ∀ password entry', created ≠ some password → db'.passwords.lookup password = some entry' →
    ∃ entry, db.passwords.lookup password = some entry ∧ entry'.counters = entry.counters

variable {db db' : Database} {created : Option Text}

theorem KeepsPasswords.of_eq (h : db'.passwords = db.passwords) : KeepsPasswords created db db' :=
  fun _ entry' _ he' => ⟨entry', h ▸ he', rfl⟩

variable {f : PasswordEntry → PasswordEntry}

theorem keepsPasswords_updateEntry (db : Database) (password : Text)
    (hf : ∀ entry, (f entry).counters = entry.counters) :
    KeepsPasswords none db (db.updateEntry password f).1 := by
  unfold updateEntry
  split
  · exact .of_eq rfl
  · rename_i entry he
    intro other entry' _ he'
    by_cases ho : other = password
    · subst ho
      rw [AList.lookup_insert] at he'
      cases he'
      exact ⟨entry, he, hf entry⟩
    · rw [AList.lookup_insert_ne ho] at he'
      exact ⟨entry', he', rfl⟩

theorem keepsPasswords_erase {password : Text} (h : db'.passwords = db.passwords.erase password) :
    KeepsPasswords none db db' := by
  intro other entry' _ he'
  rw [h] at he'
  by_cases ho : other = password
  · rw [ho, AList.lookup_erase] at he'
    cases he'
  · rw [AList.lookup_erase_ne ho] at he'
    exact ⟨entry', he', rfl⟩

theorem keepsPasswords_retainUnexpired (created : Option Text) (db : Database) (now : ℤ) :
    KeepsPasswords created db (db.retainUnexpired now) := by
  intro other entry' _ he'
  rw [retainUnexpired, pruneDanglingDeviceBindings, AList.lookup_filterValues] at he'
  exact ⟨entry', (Option.filter_eq_some_iff.mp he').1, rfl⟩

theorem keepsPasswords_clientsCreate (db : Database) (now : ℤ) (random : List Bytes)
    (request : CreateClientRequest) :
    KeepsPasswords ((db.clientsCreate now random request).2.toOption.map (·.password)) db
      (db.clientsCreate now random request).1 := by
  unfold clientsCreate
  split
  · exact .of_eq rfl
  · dsimp only
    split_ifs
    · exact keepsPasswords_retainUnexpired _ db now
    · split
      · exact keepsPasswords_retainUnexpired _ db now
      · intro other entry' ho he'
        rw [AList.lookup_insert_ne fun heq => ho (congrArg some heq.symm)] at he'
        exact keepsPasswords_retainUnexpired _ db now other entry' ho he'

/-- The counters stay as they are, except of a client that is added. -/
structure KeepsCounters (created : Option Text) (db db' : Database) : Prop where
  main : db'.mainCounters = db.mainCounters
  passwords : KeepsPasswords created db db'
  devices : ∀ deviceId device, db.devices.lookup deviceId = some device →
    ∃ device', db'.devices.lookup deviceId = some device' ∧ device'.counters = device.counters
  keyed : db.Keyed → db'.Keyed

theorem KeepsCounters.of_unbinds (hm : db'.mainCounters = db.mainCounters)
    (hp : KeepsPasswords created db db') (h : Unbinds db db') : KeepsCounters created db db' where
  main := hm
  passwords := hp
  devices deviceId device hd := by
    obtain hr | hr := h.row deviceId device hd
    · exact ⟨device, hr, rfl⟩
    · exact ⟨_, hr, rfl⟩
  keyed hk deviceId device' hd' := by
    cases hd : db.devices.lookup deviceId with
    | none =>
      rw [h.absent deviceId hd] at hd'
      cases hd'
    | some device =>
      obtain hr | hr := h.row deviceId device hd
      · rw [hr] at hd'
        rw [← Option.some.inj hd']
        exact hk deviceId device hd
      · rw [hr] at hd'
        rw [← Option.some.inj hd']
        exact hk deviceId device hd

theorem KeepsCounters.trans {db'' : Database} (h : KeepsCounters none db db')
    (h' : KeepsCounters none db' db'') : KeepsCounters none db db'' where
  main := h'.main.trans h.main
  passwords password entry'' hn he'' := by
    obtain ⟨entry', hentry', he'⟩ := h'.passwords password entry'' hn he''
    obtain ⟨entry, he, heq⟩ := h.passwords password entry' hn hentry'
    exact ⟨entry, he, he'.trans heq⟩
  devices deviceId device hd := by
    obtain ⟨device', hd', heq⟩ := h.devices deviceId device hd
    obtain ⟨device'', hd'', he'⟩ := h'.devices deviceId device' hd'
    exact ⟨device'', hd'', he'.trans heq⟩
  keyed hk := h'.keyed (h.keyed hk)

variable (db)

theorem keepsCounters_insertDevice {deviceId : Text} {row : ClientDevice}
    (hid : db.Keyed → row.deviceId = deviceId)
    (hc : ∀ device, db.devices.lookup deviceId = some device → row.counters = device.counters) :
    KeepsCounters none db { db with devices := db.devices.insert deviceId row } where
  main := rfl
  passwords := .of_eq rfl
  devices other device hd := by
    by_cases ho : other = deviceId
    · subst ho
      exact ⟨row, AList.lookup_insert _, hc device hd⟩
    · exact ⟨device, (AList.lookup_insert_ne ho).trans hd, rfl⟩
  keyed hk other device hd := by
    by_cases ho : other = deviceId
    · subst ho
      rw [AList.lookup_insert] at hd
      rw [← Option.some.inj hd]
      exact hid hk
    · rw [AList.lookup_insert_ne ho] at hd
      exact hk other device hd

variable (net : Subnet)

theorem keepsCounters_writeDevice (r : GetconfRequest) (keys : Text × Text) :
    KeepsCounters none db (db.writeDevice net r keys).1 := by
  unfold writeDevice
  cases hd : db.devices.lookup r.identity.deviceId with
  | none =>
    cases db.getNextIp net with
    | none => exact .of_unbinds rfl (.of_eq rfl) (.of_eq rfl)
    | some =>
      refine db.keepsCounters_insertDevice (fun _ => rfl) fun device hl => ?_
      rw [hd] at hl
      cases hl
  | some old =>
    refine db.keepsCounters_insertDevice (fun hk => hk _ old hd) fun device hl => ?_
    rw [hd] at hl
    cases hl
    rfl

theorem keepsCounters_admitted (r : GetconfRequest) (access : CredentialAccess)
    (keys : Text × Text) : KeepsCounters none db (db.admitted net r access keys).1 := by
  have hp : KeepsCounters none db (db.bindPassword r access).1 := by
    refine .of_unbinds ?_ ?_ (.of_eq (db.devices_bindPassword r access))
    · obtain h | ⟨entry, -, -, h⟩ := db.bindPassword_cases r access
      · rw [h]
      · rw [h]
        rfl
    · obtain h | ⟨entry, he, -, h⟩ := db.bindPassword_cases r access
      · rw [h]
        exact .of_eq rfl
      · rw [h]
        have hup := db.keepsPasswords_updateEntry r.password
          (f := fun entry => { entry with deviceId := r.identity.deviceId }) fun _ => rfl
        rwa [updateEntry, he] at hup
  have hm : KeepsCounters none (db.bindPassword r access).1
      ((db.bindPassword r access).1.bindMain r access).1 := by
    obtain h | ⟨-, h⟩ := (db.bindPassword r access).1.bindMain_cases r access
    · rw [h]
      exact .of_unbinds rfl (.of_eq rfl) (.of_eq rfl)
    · rw [h]
      exact .of_unbinds rfl (.of_eq rfl) (.of_eq rfl)
  exact (hp.trans hm).trans (keepsCounters_writeDevice _ net r keys)

variable (password : Text)

theorem mainCounters_updateEntry (f : PasswordEntry → PasswordEntry) :
    (db.updateEntry password f).1.mainCounters = db.mainCounters := by
  unfold updateEntry
  split
  · rfl
  · rfl

theorem mainCounters_clientsCreate (now : ℤ) (random : List Bytes) (request : CreateClientRequest) :
    (db.clientsCreate now random request).1.mainCounters = db.mainCounters := by
  unfold clientsCreate
  split
  · rfl
  · dsimp only
    split_ifs
    · rfl
    · split
      · rfl
      · rfl

/-- No row of a device comes or goes, and only a new client has other counters. -/
structure Routine (created : Option Text) (db db' : Database) : Prop where
  main : db'.mainCounters = db.mainCounters
  passwords : KeepsPasswords created db db'
  rows : Unbinds db db'

theorem routine_updateEntry (hf : ∀ entry, (f entry).counters = entry.counters) :
    Routine none db (db.updateEntry password f).1 :=
  ⟨db.mainCounters_updateEntry password f, db.keepsPasswords_updateEntry password hf,
    db.unbinds_updateEntry password f⟩

theorem routine_clientUnbind : Routine none db (db.clientUnbind password).1 := by
  have hrows := db.unbinds_clientUnbind password
  unfold clientUnbind at hrows ⊢
  have hentry := db.routine_updateEntry password
    (f := fun entry => { entry with deviceId := [] }) fun _ => rfl
  split_ifs at hrows ⊢
  · exact ⟨rfl, .of_eq rfl, hrows⟩
  · cases hupdate : db.updateEntry password fun entry => { entry with deviceId := [] } with
    | mk _ answer =>
      rw [hupdate] at hrows hentry
      cases answer with
      | error => exact hentry
      | ok => exact ⟨hentry.main, hentry.passwords, hrows⟩

variable (task : DatabaseTask)

theorem write_cases :
    Routine (db.created task) db (db.write net task) ∨
      ∃ r access keys, task = .getconf r access keys := by
  cases task with
  | settings request =>
    refine .inl ⟨?_, ?_, db.unbinds_settingsPost request⟩
    · rw [write, settingsPost]
      split <;> rfl
    · rw [write, settingsPost]
      split <;> exact .of_eq rfl
  | clientsCreate now random request =>
    exact .inl ⟨db.mainCounters_clientsCreate now random request,
      db.keepsPasswords_clientsCreate now random request,
      db.unbinds_clientsCreate now random request⟩
  | clientUpdate now password request =>
    refine .inl ?_
    rw [write, clientUpdate]
    split
    · exact ⟨rfl, .of_eq rfl, .of_eq rfl⟩
    · exact db.routine_updateEntry password fun _ => rfl
  | clientToggle password => exact .inl (db.routine_updateEntry password fun _ => rfl)
  | clientUnbind password => exact .inl (db.routine_clientUnbind password)
  | clientDelete password =>
    refine .inl ⟨?_, ?_, db.unbinds_clientDelete password⟩
    · rw [write, clientDelete]
      split <;> rfl
    · rw [write, clientDelete]
      split
      · exact .of_eq rfl
      · exact keepsPasswords_erase rfl
  | expire now password =>
    refine .inl ⟨?_, ?_, db.unbinds_expire now password⟩
    · rw [write, expire]
      split_ifs <;> rfl
    · rw [write, expire]
      split_ifs
      · exact keepsPasswords_erase rfl
      · exact .of_eq rfl
  | getconf r access keys => exact .inr ⟨r, access, keys, rfl⟩
  | logging | localProxy | save => exact .inl ⟨rfl, .of_eq rfl, .of_eq rfl⟩

theorem keepsCounters_write : KeepsCounters (db.created task) db (db.write net task) := by
  obtain hr | ⟨r, access, keys, rfl⟩ := db.write_cases net task
  · exact .of_unbinds hr.main hr.passwords hr.rows
  · exact db.keepsCounters_admitted net r access keys

variable {db}

/-! ## Tasks that submit nothing -/

/-- The rows are the same, with the same counters. -/
structure SameCounters (db db' : Database) : Prop where
  main : db'.mainCounters = db.mainCounters
  passwords : ∀ password, db'.passwords.lookup password = db.passwords.lookup password
  devices : ∀ deviceId, (db'.devices.lookup deviceId).map ClientDevice.counters =
    (db.devices.lookup deviceId).map ClientDevice.counters

theorem SameCounters.of_eq (h : db' = db) : SameCounters db db' :=
  h ▸ ⟨rfl, fun _ => rfl, fun _ => rfl⟩

theorem SameCounters.of_unbinds (hmain : db'.mainCounters = db.mainCounters)
    (hpasswords : db'.passwords = db.passwords) (hrows : Unbinds db db') : SameCounters db db' where
  main := hmain
  passwords password := by rw [hpasswords]
  devices deviceId := by
    cases hd : db.devices.lookup deviceId with
    | none => rw [hrows.absent deviceId hd]
    | some device =>
      obtain hr | hr := hrows.row deviceId device hd
      · rw [hr]
      · rw [hr]
        rfl

variable {r : GetconfRequest} {access : CredentialAccess}

theorem bindPassword_of_eq_false (h : (db.bindPassword r access).2 = false) :
    (db.bindPassword r access).1 = db := by
  revert h
  unfold bindPassword
  split
  · split_ifs
    · rintro ⟨⟩
    · exact fun _ => rfl
  · exact fun _ => rfl

theorem bindMain_of_eq_false (h : (db.bindMain r access).2 = false) :
    (db.bindMain r access).1 = db := by
  unfold bindMain at h ⊢
  split_ifs at h ⊢
  rfl

variable {keys : Text × Text}

/-- A row that is written as it was takes another place in the table. -/
theorem sameCounters_writeDevice {net : Subnet} (h : (db.writeDevice net r keys).2 = false) :
    SameCounters db (db.writeDevice net r keys).1 := by
  unfold writeDevice at h ⊢
  cases hd : db.devices.lookup r.identity.deviceId with
  | none =>
    rw [hd] at h
    cases hip : db.getNextIp net with
    | none => exact .of_unbinds rfl rfl (.of_eq rfl)
    | some =>
      rw [hip] at h
      cases h
  | some device =>
    refine ⟨rfl, fun _ => rfl, fun deviceId => ?_⟩
    by_cases hid : deviceId = r.identity.deviceId
    · rw [hid, AList.lookup_insert, hd]
      rfl
    · rw [AList.lookup_insert_ne hid]

theorem sameCounters_admitted {net : Subnet} (h : (db.admitted net r access keys).2 = false) :
    SameCounters db (db.admitted net r access keys).1 := by
  unfold admitted at h ⊢
  dsimp only at h ⊢
  rw [Bool.or_eq_false_iff, Bool.or_eq_false_iff] at h
  obtain ⟨⟨hpassword, hmain⟩, hdevice⟩ := h
  rw [bindPassword_of_eq_false hpassword] at hmain hdevice ⊢
  rw [bindMain_of_eq_false hmain] at hdevice ⊢
  exact sameCounters_writeDevice hdevice

theorem updateEntry_of_refused {password : Text} (h : (db.updateEntry password f).2.isOk = false) :
    (db.updateEntry password f).1 = db := by
  revert h
  unfold updateEntry
  split
  · exact fun _ => rfl
  · rintro ⟨⟩

/-- Nothing has changed on disk, and nothing in memory, unless expired passwords were dropped. -/
theorem sameCounters_of_not_submits {net : Subnet} {task : DatabaseTask}
    (h : db.submits net task = false) (hd : db.dropped task = []) :
    SameCounters db (db.write net task) := by
  cases task with
  | settings request =>
    rw [submits] at h
    rw [write, settingsPost]
    split
    · exact .of_eq rfl
    · rename_i hc
      rw [hc] at h
      cases h
  | clientsCreate now random request =>
    rw [submits] at h
    refine .of_unbinds (db.mainCounters_clientsCreate now random request) ?_
      (db.unbinds_clientsCreate now random request)
    rw [write, clientsCreate_of_refused h]
    split_ifs with hc
    · rw [dropped, if_pos ⟨hc, h⟩] at hd
      exact passwords_retainUnexpired hd
    · rfl
  | clientUpdate now password request =>
    rw [submits, clientUpdate] at h
    rw [write, clientUpdate]
    cases hc : request.check with
    | error => exact .of_eq rfl
    | ok =>
      rw [hc] at h
      exact .of_eq (updateEntry_of_refused h)
  | clientToggle password => exact .of_eq (updateEntry_of_refused h)
  | clientUnbind password =>
    rw [submits, clientUnbind] at h
    rw [write, clientUnbind]
    split_ifs at h ⊢
    · cases h
    · cases hup : db.updateEntry password fun entry => { entry with deviceId := [] } with
      | mk updated answer =>
        rw [hup] at h
        cases answer with
        | ok => cases h
        | error =>
          have hold := updateEntry_of_refused (congrArg (·.2.isOk) hup)
          rw [hup] at hold
          exact .of_eq hold
  | clientDelete password =>
    rw [submits, clientDelete] at h
    rw [write, clientDelete]
    cases he : db.passwords.lookup password with
    | none => exact .of_eq rfl
    | some =>
      rw [he] at h
      cases h
  | expire now password =>
    rw [submits] at h
    rw [write, expire, h]
    exact .of_eq rfl
  | getconf r access keys => exact sameCounters_admitted h
  | logging | localProxy | save => cases h

end Database
end Csqtt
