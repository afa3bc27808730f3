import Csqtt.EpochAdmission
import Csqtt.Runs
import Csqtt.ServerPanel

/-!
# Histories of the database

What is done under the lock of the database is one operation on it: a GETCONF, a request of the
panel, or the removal of an expired password. An accepted GETCONF changes little, and no operation
takes a row away or changes its address.
-/

namespace Csqtt
namespace Database

/-- What a GETCONF leaves behind, and why it was denied. -/
structure GetconfResult where
  db : Database
  epoch : DeviceEpochState
  denial : Option Denial

/-- The section of `handle_getconf` under the lock. -/
def getconf (net : Subnet) (db : Database) (epoch : DeviceEpochState) (now : ℤ)
    (r : GetconfRequest) : GetconfResult :=
  match db.getconfCredentialAccess now r.password r.identity.deviceId with
  | .error denial => ⟨db, epoch, some denial⟩
  | .ok access =>
    match epoch.admitEpoch r.identity.generationId r.identity.sessionSalt with
    | (epoch, .stale) => ⟨db, epoch, some .staleGeneration⟩
    | (epoch, .saltConflict) => ⟨db, epoch, some .sessionConflict⟩
    | (epoch, _) => ⟨(db.admitted net r access).1, epoch, none⟩

def handleGetconf (net : Subnet) (db : Database) (epoch : DeviceEpochState) (now : ℤ)
    (sessionPassword text : Text) : GetconfResult :=
  match parseGetconf sessionPassword text with
  | .error denial => ⟨db, epoch, some denial⟩
  | .ok r => db.getconf net epoch now r

variable (net : Subnet)

/-- A request is denied and writes nothing, or it is admitted and writes what `admitted` does. -/
theorem getconf_cases (db : Database) (epoch : DeviceEpochState) (now : ℤ) (r : GetconfRequest) :
    ((db.getconf net epoch now r).db = db ∧ (db.getconf net epoch now r).denial ≠ none) ∨
    ∃ access, db.getconfCredentialAccess now r.password r.identity.deviceId = .ok access ∧
      (db.getconf net epoch now r).db = (db.admitted net r access).1 ∧
      (db.getconf net epoch now r).denial = none := by
  unfold getconf
  cases ha : db.getconfCredentialAccess now r.password r.identity.deviceId with
  | error denial => exact .inl ⟨rfl, Option.some_ne_none denial⟩
  | ok access =>
    cases hadmits : epoch.admitEpoch r.identity.generationId r.identity.sessionSalt with
    | mk _ decision =>
      cases decision with
      | stale | saltConflict => exact .inl ⟨rfl, Option.some_ne_none _⟩
      | current | advanced => exact .inr ⟨access, rfl, rfl, rfl⟩

variable {db : Database} {r : GetconfRequest}

theorem getconf_of_accepted {net : Subnet} {epoch : DeviceEpochState} {now : ℤ}
    {access : CredentialAccess}
    (ha : db.getconfCredentialAccess now r.password r.identity.deviceId = .ok access)
    (he : (epoch.admitEpoch r.identity.generationId r.identity.sessionSalt).2.isAccepted = true) :
    (db.getconf net epoch now r).db = (db.admitted net r access).1 := by
  unfold getconf
  rw [ha]
  cases hadmits : epoch.admitEpoch r.identity.generationId r.identity.sessionSalt with
  | mk _ decision =>
    rw [hadmits] at he
    cases decision with
    | stale | saltConflict => cases he
    | current | advanced => rfl

/-! ## What an accepted request changes -/

/-- Everything but the row of the device stays, apart from devices that were not set. -/
structure ChangesOnly (r : GetconfRequest) (db db' : Database) : Prop where
  rest : db' = { db with
    mainDeviceId := db'.mainDeviceId
    passwords := db'.passwords
    devices := db'.devices }
  mainDeviceId : db'.mainDeviceId = db.mainDeviceId ∨
    (db.mainDeviceId = [] ∧ db'.mainDeviceId = r.identity.deviceId)
  passwords : ∀ password, password ≠ r.password →
    db'.passwords.lookup password = db.passwords.lookup password
  credential : db'.passwords.lookup r.password = db.passwords.lookup r.password ∨
    ∃ entry, db.passwords.lookup r.password = some entry ∧ entry.deviceId = [] ∧
      db'.passwords.lookup r.password = some { entry with deviceId := r.identity.deviceId }
  devices : ∀ deviceId, deviceId ≠ r.identity.deviceId →
    db'.devices.lookup deviceId = db.devices.lookup deviceId

theorem ChangesOnly.mainPassword {db' : Database} (h : ChangesOnly r db db') :
    db'.mainPassword = db.mainPassword := by rw [h.rest]

variable (db) (r) (access : CredentialAccess)

theorem bindPassword_cases :
    (db.bindPassword r access).1 = db ∨
      ∃ entry, db.passwords.lookup r.password = some entry ∧ entry.deviceId = [] ∧
        (db.bindPassword r access).1 = { db with
          passwords :=
            db.passwords.insert r.password { entry with deviceId := r.identity.deviceId } } := by
  unfold bindPassword
  split
  · rename_i entry he
    split_ifs with hempty
    · exact .inr ⟨entry, he, hempty, rfl⟩
    · exact .inl rfl
  · exact .inl rfl

theorem bindMain_cases :
    (db.bindMain r access).1 = db ∨
      (db.mainDeviceId = [] ∧
        (db.bindMain r access).1 = { db with mainDeviceId := r.identity.deviceId }) := by
  unfold bindMain
  split_ifs with h
  · exact .inr ⟨h.2, rfl⟩
  · exact .inl rfl

theorem devices_bindPassword : (db.bindPassword r access).1.devices = db.devices := by
  obtain h | ⟨entry, -, -, h⟩ := db.bindPassword_cases r access
  · rw [h]
  · rw [h]

theorem devices_bindMain : (db.bindMain r access).1.devices = db.devices := by
  obtain h | ⟨-, h⟩ := db.bindMain_cases r access
  · rw [h]
  · rw [h]

/-- A request writes no row, a new one with a free address, or the old one bound to it. -/
theorem writeDevice_cases (keys : Text × Text := ([], [])) :
    ((db.writeDevice net r keys).1 = db ∧ db.devices.lookup r.identity.deviceId = none) ∨
    ∃ device : ClientDevice, device.boundPassword = r.password ∧
      (db.writeDevice net r keys).1 =
        { db with devices := db.devices.insert r.identity.deviceId device } ∧
      ((db.devices.lookup r.identity.deviceId = none ∧ db.getNextIp net = some device.ip) ∨
        ∃ old, db.devices.lookup r.identity.deviceId = some old ∧ device.ip = old.ip) := by
  unfold writeDevice
  cases hd : db.devices.lookup r.identity.deviceId with
  | none =>
    cases hip : db.getNextIp net with
    | none => exact .inl ⟨rfl, rfl⟩
    | some => exact .inr ⟨_, rfl, rfl, .inl ⟨rfl, rfl⟩⟩
  | some old => exact .inr ⟨_, rfl, rfl, .inr ⟨old, rfl, rfl⟩⟩

theorem admitted_eq (keys : Text × Text) :
    (db.admitted net r access keys).1 =
      ((((db.bindPassword r access).1).bindMain r access).1.writeDevice net r keys).1 := rfl

theorem changesOnly_admitted (keys : Text × Text := ([], [])) :
    ChangesOnly r db (db.admitted net r access keys).1 := by
  have hpass : ChangesOnly r db (db.bindPassword r access).1 := by
    obtain h | ⟨entry, hentry, hempty, h⟩ := db.bindPassword_cases r access
    · rw [h]
      exact ⟨rfl, .inl rfl, fun _ _ => rfl, .inl rfl, fun _ _ => rfl⟩
    · rw [h]
      exact ⟨rfl, .inl rfl, fun _ hne => AList.lookup_insert_ne hne,
        .inr ⟨entry, hentry, hempty, AList.lookup_insert _⟩, fun _ _ => rfl⟩
  have hmain : ChangesOnly r db (((db.bindPassword r access).1).bindMain r access).1 := by
    obtain h | ⟨hempty, h⟩ := ((db.bindPassword r access).1).bindMain_cases r access
    · rw [h]
      exact hpass
    · rw [h]
      have hunset : db.mainDeviceId = [] := by
        obtain heq | ⟨hempty, -⟩ := hpass.mainDeviceId
        · rw [← heq]
          exact hempty
        · exact hempty
      exact ⟨congrArg (fun old => { old with mainDeviceId := r.identity.deviceId }) hpass.rest,
        .inr ⟨hunset, rfl⟩, hpass.passwords, hpass.credential, hpass.devices⟩
  rw [admitted_eq]
  obtain ⟨h, -⟩ | ⟨device, -, h, -⟩ :=
    ((((db.bindPassword r access).1).bindMain r access).1).writeDevice_cases net r keys
  · rw [h]
    exact hmain
  · rw [h]
    exact ⟨congrArg (fun old : Database =>
        { old with devices := old.devices.insert r.identity.deviceId device }) hmain.rest,
      hmain.mainDeviceId, hmain.passwords, hmain.credential,
      fun deviceId hne => (AList.lookup_insert_ne hne).trans (hmain.devices deviceId hne)⟩

theorem row_admitted (keys : Text × Text := ([], [])) :
    ((db.admitted net r access keys).1.devices = db.devices ∧
      db.devices.lookup r.identity.deviceId = none) ∨
    ∃ device : ClientDevice, device.boundPassword = r.password ∧
      (db.admitted net r access keys).1.devices = db.devices.insert r.identity.deviceId device ∧
      ((db.devices.lookup r.identity.deviceId = none ∧ db.getNextIp net = some device.ip) ∨
        ∃ old, db.devices.lookup r.identity.deviceId = some old ∧ device.ip = old.ip) := by
  have hd : (((db.bindPassword r access).1).bindMain r access).1.devices = db.devices := by
    rw [devices_bindMain, devices_bindPassword]
  have hc := ((((db.bindPassword r access).1).bindMain r access).1).writeDevice_cases net r keys
  rw [admitted_eq]
  unfold getNextIp at hc ⊢
  rw [hd] at hc
  obtain ⟨h, hn⟩ | ⟨device, hb, h, hip⟩ := hc
  · rw [h]
    exact .inl ⟨hd, hn⟩
  · rw [h]
    exact .inr ⟨device, hb, rfl, hip⟩

variable {device : ClientDevice} {deviceId : Text}

theorem row_kept_admitted (hdev : db.devices.lookup deviceId = some device)
    (keys : Text × Text := ([], [])) :
    ∃ device', (db.admitted net r access keys).1.devices.lookup deviceId = some device' ∧
      device'.ip = device.ip := by
  by_cases hd : deviceId = r.identity.deviceId
  · obtain ⟨-, hn⟩ | ⟨written, -, hdevs, hw⟩ := db.row_admitted net r access keys
    · rw [hd, hn] at hdev
      cases hdev
    · rw [hdevs, hd, AList.lookup_insert]
      refine ⟨written, rfl, ?_⟩
      rw [hd] at hdev
      obtain ⟨hn, -⟩ | ⟨old, ho, hip⟩ := hw
      · rw [hdev] at hn
        cases hn
      · rw [hdev] at ho
        cases ho
        exact hip
  · rw [(db.changesOnly_admitted net r access keys).devices deviceId hd]
    exact ⟨device, hdev, rfl⟩

variable {db} {r}

/-- Two devices never have the same address. -/
def DistinctIps (db : Database) : Prop :=
  ∀ deviceId deviceId' device device', db.devices.lookup deviceId = some device →
    db.devices.lookup deviceId' = some device' → device.ip = device'.ip → deviceId = deviceId'

theorem ip_ne_getNextIp {net : Subnet} {ip : Text} (h : db.getNextIp net = some ip)
    (hd : db.devices.lookup deviceId = some device) : device.ip ≠ ip := by
  have hf := List.find?_some h
  rw [Bool.not_eq_true', List.any_eq_false] at hf
  have he := hf ⟨deviceId, device⟩ (AList.mem_lookup_iff.mp hd)
  simpa using he

theorem distinctIps_admitted {net : Subnet} (h : db.DistinctIps) (r : GetconfRequest)
    (access : CredentialAccess) (keys : Text × Text := ([], [])) :
    (db.admitted net r access keys).1.DistinctIps := by
  intro deviceId deviceId' device device' hdev hdev' hip
  obtain ⟨hdevs, -⟩ | ⟨written, -, hdevs, hw⟩ := db.row_admitted net r access keys
  · rw [hdevs] at hdev hdev'
    exact h deviceId deviceId' device device' hdev hdev' hip
  · -- the row that is written has the address of the old row, or one that no other row has
    have ho : ∀ other row, db.devices.lookup other = some row → row.ip = written.ip →
        other = r.identity.deviceId := by
      intro other row hr heq
      obtain ⟨-, hn⟩ | ⟨old, hold, hk⟩ := hw
      · exact absurd heq (ip_ne_getNextIp hn hr)
      · exact h _ _ _ _ hr hold (heq.trans hk)
    rw [hdevs] at hdev hdev'
    by_cases hd : deviceId = r.identity.deviceId
    · by_cases hd' : deviceId' = r.identity.deviceId
      · rw [hd, hd']
      · rw [hd, AList.lookup_insert] at hdev
        rw [AList.lookup_insert_ne hd'] at hdev'
        cases hdev
        rw [hd, ho deviceId' device' hdev' hip.symm]
    · rw [AList.lookup_insert_ne hd] at hdev
      by_cases hd' : deviceId' = r.identity.deviceId
      · rw [hd', AList.lookup_insert] at hdev'
        cases hdev'
        rw [hd', ho deviceId device hdev hip]
      · rw [AList.lookup_insert_ne hd'] at hdev'
        exact h deviceId deviceId' device device' hdev hdev' hip

theorem bound_kept {net : Subnet} {now : ℤ} {access : CredentialAccess}
    (ha : db.getconfCredentialAccess now r.password r.identity.deviceId = .ok access)
    (hd : db.devices.lookup deviceId = some device) (hb : device.boundPassword ≠ [])
    (hne : device.boundPassword ≠ r.password) :
    (db.admitted net r access).1.devices.lookup deviceId = some device := by
  have ho : deviceId ≠ r.identity.deviceId := by
    rintro rfl
    obtain h | h := (permits_of_access ha).device device hd
    · exact hb h
    · exact hne h
  rw [(db.changesOnly_admitted net r access).devices deviceId ho]
  exact hd

/-- What a GETCONF can do to the database, for every text a session may send. -/
theorem getconf_frame (net : Subnet) (db : Database) (epoch : DeviceEpochState) (now : ℤ)
    (sessionPassword text : Text) :
    (∀ deviceId device, db.devices.lookup deviceId = some device → device.boundPassword ≠ [] →
      (∀ r, parseGetconf sessionPassword text = .ok r → device.boundPassword ≠ r.password) →
      ∃ device', (db.handleGetconf net epoch now sessionPassword text).db.devices.lookup deviceId =
        some device' ∧ device'.boundPassword = device.boundPassword) ∧
    ((db.handleGetconf net epoch now sessionPassword text).denial ≠ none →
      (db.handleGetconf net epoch now sessionPassword text).db = db) ∧
    (db.DistinctIps → (db.handleGetconf net epoch now sessionPassword text).db.DistinctIps) ∧
    ((db.handleGetconf net epoch now sessionPassword text).denial = none →
      ∃ r, parseGetconf sessionPassword text = .ok r ∧
        ChangesOnly r db (db.handleGetconf net epoch now sessionPassword text).db) := by
  unfold handleGetconf
  cases hp : parseGetconf sessionPassword text with
  | error denial =>
    exact ⟨fun _ device hd _ _ => ⟨device, hd, rfl⟩, fun _ => rfl, fun h => h,
      fun h => absurd h (Option.some_ne_none denial)⟩
  | ok r =>
    obtain ⟨hdb, hdenial⟩ | ⟨access, ha, hdb, hdenial⟩ := db.getconf_cases net epoch now r
    · rw [hdb]
      exact ⟨fun _ device hd _ _ => ⟨device, hd, rfl⟩, fun _ => rfl, fun h => h,
        fun h => absurd h hdenial⟩
    · rw [hdb]
      refine ⟨fun _ device hd hb hne => ?_, fun h => ?_,
        fun h => distinctIps_admitted h r access, fun _ =>
          ⟨r, rfl, changesOnly_admitted net db r access⟩⟩
      · exact ⟨device, bound_kept ha hd hb (hne r rfl), rfl⟩
      · exact absurd hdenial h

/-- The first device of the main password: it gets a row and becomes the main device. -/
theorem getconf_frame_first :
    ∃ r, parseGetconf "owner".toList "GETCONF:9000|phone|owner|1|salt|1|1".toList = .ok r ∧
      ChangesOnly r { mainPassword := "owner".toList }
        (handleGetconf (10, 66, 67) { mainPassword := "owner".toList } {} 0 "owner".toList
          "GETCONF:9000|phone|owner|1|salt|1|1".toList).db :=
  (getconf_frame (10, 66, 67) { mainPassword := "owner".toList } {} 0 "owner".toList
    "GETCONF:9000|phone|owner|1|salt|1|1".toList).2.2.2 (by decide +kernel)

/-! ## Operations -/

end Database

inductive DatabaseOp
  | settings (request : SettingsRequest)
  | clientsCreate (now : ℤ) (random : List Bytes) (request : CreateClientRequest)
  | clientUpdate (now : ℤ) (password : Text) (request : CreateClientRequest)
  | clientToggle (password : Text)
  | clientUnbind (password : Text)
  | clientDelete (password : Text)
  | expire (now : ℤ) (password : Text)
  | getconf (now : ℤ) (epoch : DeviceEpochState) (request : GetconfRequest)

namespace Database

def settingsPost (db : Database) (request : SettingsRequest) : Database :=
  match request.check with
  | .error _ => db
  | .ok change => (db.settings change).1

def apply (net : Subnet) (db : Database) : DatabaseOp → Database
  | .settings request => db.settingsPost request
  | .clientsCreate now random request => (db.clientsCreate now random request).1
  | .clientUpdate now password request => (db.clientUpdate now password request).1
  | .clientToggle password => (db.clientToggle password).1
  | .clientUnbind password => (db.clientUnbind password).1
  | .clientDelete password => (db.clientDelete password).1
  | .expire now password => db.expire now password
  | .getconf now epoch request => (db.getconf net epoch now request).db

/-- The rows stay, except that passwords may be taken from them. -/
structure Unbinds (db db' : Database) : Prop where
  absent : ∀ deviceId, db.devices.lookup deviceId = none → db'.devices.lookup deviceId = none
  row : ∀ deviceId device, db.devices.lookup deviceId = some device →
    db'.devices.lookup deviceId = some device ∨
      db'.devices.lookup deviceId = some { device with boundPassword := [] }

variable {db db' db'' : Database}

theorem Unbinds.of_eq (h : db'.devices = db.devices) : Unbinds db db' :=
  ⟨fun _ hn => h ▸ hn, fun _ _ hd => .inl (h ▸ hd)⟩

theorem Unbinds.trans (h : Unbinds db db') (h' : Unbinds db' db'') :
    Unbinds db db'' where
  absent deviceId hn := h'.absent deviceId (h.absent deviceId hn)
  row deviceId device hd := by
    obtain hr | hr := h.row deviceId device hd
    · exact h'.row deviceId device hr
    · obtain hr' | hr' := h'.row deviceId _ hr
      · exact .inr hr'
      · exact .inr hr'

theorem unbinds_mapValues {f : Text → ClientDevice → ClientDevice}
    (hf : ∀ deviceId device, f deviceId device = device ∨
      f deviceId device = { device with boundPassword := [] })
    (h : db'.devices = db.devices.mapValues f) : Unbinds db db' where
  absent deviceId hn := by rw [h, AList.lookup_mapValues, hn, Option.map_none]
  row deviceId device hd := by
    rw [h, AList.lookup_mapValues, hd]
    obtain heq | heq := hf deviceId device
    · exact .inl (congrArg some heq)
    · exact .inr (congrArg some heq)

theorem unbinds_clear (h : db'.devices = db.devices) (password : Text) :
    Unbinds db (db'.clearDeviceBinding password) := by
  have hd := congrArg (AList.mapValues fun _ device =>
    if device.boundPassword = password then { device with boundPassword := [] } else device) h
  refine unbinds_mapValues (fun _ device => ?_) hd
  split_ifs
  · exact .inr rfl
  · exact .inl rfl

theorem unbinds_prune (h : db'.devices = db.devices) :
    Unbinds db db'.pruneDanglingDeviceBindings := by
  have hd := congrArg (AList.mapValues fun _ device =>
    if device.boundPassword = [] ∨ device.boundPassword = db'.mainPassword ∨
      (db'.passwords.lookup device.boundPassword).isSome then device
    else { device with boundPassword := [] }) h
  refine unbinds_mapValues (fun _ device => ?_) hd
  split_ifs
  · exact .inl rfl
  · exact .inr rfl

variable (db) (password : Text)

theorem unbinds_updateEntry (f : PasswordEntry → PasswordEntry) :
    Unbinds db (db.updateEntry password f).1 := by
  unfold updateEntry
  split
  · exact .of_eq rfl
  · exact .of_eq rfl

theorem unbinds_settingsPost (request : SettingsRequest) :
    Unbinds db (db.settingsPost request) := by
  unfold settingsPost
  split
  · exact .of_eq rfl
  · exact .of_eq rfl

variable (now : ℤ)

theorem unbinds_clientsCreate (random : List Bytes) (request : CreateClientRequest) :
    Unbinds db (db.clientsCreate now random request).1 := by
  have hr : Unbinds db (db.retainUnexpired now) := unbinds_prune (by rfl)
  unfold clientsCreate
  split
  · exact .of_eq rfl
  · dsimp only
    split_ifs
    · exact hr
    · split
      · exact hr
      · exact hr.trans (.of_eq rfl)

theorem unbinds_clientUpdate (password : Text) (request : CreateClientRequest) :
    Unbinds db (db.clientUpdate now password request).1 := by
  unfold clientUpdate
  split
  · exact .of_eq rfl
  · exact db.unbinds_updateEntry password _

theorem unbinds_clientUnbind : Unbinds db (db.clientUnbind password).1 := by
  have he := db.unbinds_updateEntry password fun entry => { entry with deviceId := [] }
  unfold clientUnbind
  split_ifs
  · exact unbinds_clear (by rfl) password
  · split
    · rename_i heq
      rw [heq] at he
      exact he
    · rename_i heq
      rw [heq] at he
      exact he.trans (unbinds_clear rfl password)

theorem unbinds_clientDelete : Unbinds db (db.clientDelete password).1 := by
  unfold clientDelete
  split
  · exact .of_eq rfl
  · exact unbinds_clear (by rfl) password

theorem unbinds_expire (password : Text) : Unbinds db (db.expire now password) := by
  unfold expire
  split_ifs
  · exact unbinds_clear (by rfl) password
  · exact .of_eq rfl

theorem unbinds_apply (net : Subnet) (db : Database) {op : DatabaseOp}
    (h : ∀ now epoch request, op ≠ .getconf now epoch request) : Unbinds db (db.apply net op) := by
  cases op with
  | settings request => exact db.unbinds_settingsPost request
  | clientsCreate now random request => exact db.unbinds_clientsCreate now random request
  | clientUpdate now password request => exact db.unbinds_clientUpdate now password request
  | clientToggle password => exact db.unbinds_updateEntry password _
  | clientUnbind password => exact db.unbinds_clientUnbind password
  | clientDelete password => exact db.unbinds_clientDelete password
  | expire now password => exact db.unbinds_expire now password
  | getconf now epoch request => exact absurd rfl (h now epoch request)

theorem row_apply (net : Subnet) (db : Database) (op : DatabaseOp) {deviceId : Text}
    {device : ClientDevice} (hd : db.devices.lookup deviceId = some device) :
    ∃ device', (db.apply net op).devices.lookup deviceId = some device' ∧
      device'.ip = device.ip := by
  by_cases hop : ∀ now epoch request, op ≠ .getconf now epoch request
  · obtain h | h := (db.unbinds_apply net hop).row deviceId device hd
    · exact ⟨device, h, rfl⟩
    · exact ⟨_, h, rfl⟩
  · obtain ⟨now, epoch, r, rfl⟩ : ∃ now epoch request, op = .getconf now epoch request := by
      simpa using hop
    rw [apply]
    obtain ⟨hdb, -⟩ | ⟨access, -, hdb, -⟩ := db.getconf_cases net epoch now r
    · rw [hdb]
      exact ⟨device, hd, rfl⟩
    · rw [hdb]
      exact db.row_kept_admitted net r access hd

end Database
end Csqtt
