import Mathlib.Data.List.AList
import Csqtt.ServerEngine

/-!
# The database of the server and what a GETCONF asks of it

The main password, the passwords of the clients and their devices. `getconf_credential_access` says
whether a device may be configured with a password; an admitted request writes the binding and the
epoch of the device down.
-/

namespace Csqtt

structure PasswordEntry where
  deviceId : Text := []
  expiresAt : ℤ := 0
  downBytes : ℤ := 0
  upBytes : ℤ := 0
  vkHash : Text := []
  ports : Text := []
  isDeactivated : Bool := false
  name : Text := []
  vkHashes : Text := []
  dtlsPort : ℕ := 0
  wgPort : ℕ := 0
  localPort : ℕ := 0
  deriving DecidableEq

structure ClientDevice where
  deviceId : Text
  ip : Text
  privKey : Text := []
  pubKey : Text := []
  upBytes : ℤ := 0
  downBytes : ℤ := 0
  boundPassword : Text
  lastSessionSalt : Text
  lastGenerationId : ℕ
  deriving DecidableEq

structure LocalProxyProfile where
  host : Text
  id : Text
  name : Text
  port : ℕ
  username : Text
  password : Text
  deriving DecidableEq

structure LocalProxyState where
  activeProfileId : Text := []
  profiles : List LocalProxyProfile := []
  deriving DecidableEq

@[ext]
structure Database where
  mainPassword : Text := []
  mainDeviceId : Text := []
  dns : Text := []
  autoRestartIntervalHours : Option UInt8 := none
  mainUpBytes : ℤ := 0
  mainDownBytes : ℤ := 0
  adminId : Text := []
  botToken : Text := []
  passwords : AList fun _ : Text => PasswordEntry := ∅
  devices : AList fun _ : Text => ClientDevice := ∅
  webSessions : AList fun _ : Text => ℤ := ∅
  loggingActive : Option Bool := none
  localProxy : LocalProxyState := {}

/-- Why a request is denied. -/
inductive Denial
  | invalidEpoch
  | wrongPassword
  | invalidDevice
  | invalidPort
  | invalidWorker
  | invalidWorkerCount
  | deviceMismatch
  | expired
  | deactivated
  | staleGeneration
  | sessionConflict
  | notOwner
  | serverBusy
  deriving DecidableEq

def Denial.response : Denial → String
  | .invalidEpoch => "DENIED:invalid_epoch"
  | .wrongPassword => "DENIED:wrong_password"
  | .invalidDevice => "DENIED:invalid_device"
  | .invalidPort => "DENIED:invalid_port"
  | .invalidWorker => "DENIED:invalid_worker"
  | .invalidWorkerCount => "DENIED:invalid_worker_count"
  | .deviceMismatch => "DENIED:device_mismatch"
  | .expired => "DENIED:expired"
  | .deactivated => "DENIED:deactivated"
  | .staleGeneration => "DENIED:stale_generation"
  | .sessionConflict => "DENIED:session_conflict"
  | .notOwner => "DENIED:not_owner"
  | .serverBusy => "DENIED:server_busy"

inductive CredentialAccess
  | main
  | bound
  | unbound
  deriving DecidableEq

structure GetconfRequest where
  clientPort : Text
  password : Text
  identity : Identity
  workerId : ℕ
  desiredCount : ℕ
  deriving DecidableEq

def parseWorker (t : Text) : Option ℕ :=
  (Text.parseUnsigned 65536 t).filter fun n => 1 ≤ n && n ≤ maxStreamWorkers

def parseDesired (workerId : ℕ) (t : Text) : Option ℕ :=
  if t.isEmpty then some 0 else (parseWorker t).filter (workerId ≤ ·)

def parseGetconf (sessionPassword text : Text) : Except Denial GetconfRequest :=
  let content := Text.trim ((Text.stripStart "GETCONF:".toList text).getD [])
  let parts := Text.splitn 7 '|' content
  let clientPort := Text.trim (parts[0]?.getD "9000".toList)
  let deviceId := Text.trim (parts[1]?.getD "unknown".toList)
  let password := Text.trim (parts[2]?.getD [])
  let sessionSalt := Text.trim (parts[4]?.getD [])
  match parseGenerationId (Text.trim (parts[3]?.getD [])) with
  | none => .error .invalidEpoch
  | some generationId =>
    if password ≠ sessionPassword then .error .wrongPassword
    else if deviceId.isEmpty || 128 < Text.utf8Len deviceId then .error .invalidDevice
    else if (Text.parseUnsigned 65536 clientPort).isNone then .error .invalidPort
    else if 128 < Text.utf8Len sessionSalt then .error .invalidEpoch
    else
      match parseWorker (Text.trim (parts[5]?.getD [])) with
      | none => .error .invalidWorker
      | some workerId =>
        match parseDesired workerId (Text.trim (parts[6]?.getD [])) with
        | none => .error .invalidWorkerCount
        | some desiredCount =>
          .ok ⟨clientPort, password, ⟨deviceId, generationId, sessionSalt⟩, workerId, desiredCount⟩

theorem parseGetconf_password {sessionPassword text : Text} {r : GetconfRequest}
    (h : parseGetconf sessionPassword text = .ok r) : r.password = sessionPassword := by
  unfold parseGetconf at h
  dsimp only at h
  split at h
  · cases h
  · split_ifs at h with hp
    split at h
    · cases h
    · split at h
      · cases h
      · cases h
        exact not_ne_iff.mp hp

def isExpired (now : ℤ) (entry : PasswordEntry) : Bool :=
  entry.expiresAt ≠ 0 && entry.expiresAt < now

theorem not_isExpired {now : ℤ} {entry : PasswordEntry} (h : ¬ isExpired now entry = true) :
    entry.expiresAt = 0 ∨ now ≤ entry.expiresAt := by
  simp only [isExpired, Bool.and_eq_true, decide_eq_true_eq, not_and, not_lt] at h
  by_cases hz : entry.expiresAt = 0
  · exact .inl hz
  · exact .inr (h hz)

namespace Database

def getNextIp (net : Subnet) (db : Database) : Option Text :=
  ((List.range' 2 249).map fun i => Text.ofIpv4 net.1 net.2.1 net.2.2 (UInt8.ofNat i)).find?
    fun ip => !db.devices.entries.any (·.2.ip = ip)

def resolveSessionIp (db : Database) (sessionPassword deviceId : Text) : Option Text :=
  match if deviceId = [] then none else db.devices.lookup deviceId with
  | some device => some device.ip
  | none =>
    if sessionPassword = db.mainPassword then none
    else
      match db.passwords.lookup sessionPassword with
      | none => none
      | some entry =>
        if entry.deviceId = [] then none else (db.devices.lookup entry.deviceId).map (·.ip)

def getconfCredentialAccess (db : Database) (now : ℤ) (password deviceId : Text) :
    Except Denial CredentialAccess :=
  let boundDevice := db.devices.lookup deviceId
  if boundDevice.any fun device => device.boundPassword ≠ [] ∧ device.boundPassword ≠ password then
    .error .deviceMismatch
  else if db.mainPassword ≠ [] ∧ password = db.mainPassword then .ok .main
  else
    match db.passwords.lookup password with
    | none => .error .expired
    | some entry =>
      if isExpired now entry then .error .expired
      else if entry.isDeactivated then .error .deactivated
      else if boundDevice.any (·.boundPassword = password) then .ok .bound
      else .ok .unbound

def deviceControlAuthorized (db : Database) (now : ℤ) (password deviceId : Text) : Bool :=
  deviceId ≠ [] &&
    ((db.mainPassword ≠ [] && password = db.mainPassword) ||
      (db.passwords.lookup password).any fun entry => !isExpired now entry && !entry.isDeactivated)
      &&
    (db.devices.lookup deviceId).any (·.boundPassword = password)

def disconnectRequestAuthorized (db : Database) (now : ℤ) (password : Text) (requester : Identity)
    (deviceId targetSalt : Text) (epoch : DeviceEpochState) : Bool :=
  targetSalt ≠ [] && requester.deviceId = deviceId && requester.sessionSalt = targetSalt &&
    epoch.matches requester.generationId targetSalt &&
    db.deviceControlAuthorized now password deviceId

/-- The passwords that are active, with their keys. An empty password has no key. -/
def buildCredentials (deriveWrapKey : Text → Bytes) (db : Database) (now : ℤ) :
    Option (List Credential) :=
  let passwords := (if db.mainPassword = [] then [] else [db.mainPassword]) ++
    (db.passwords.entries.filter fun entry =>
      !entry.2.isDeactivated && !isExpired now entry.2).map (·.1)
  if passwords.contains [] then none
  else some (passwords.map fun password => ⟨password, deriveWrapKey password⟩)

/-- The password is bound to its first device. -/
def bindPassword (db : Database) (r : GetconfRequest) (access : CredentialAccess) :
    Database × Bool :=
  match access, db.passwords.lookup r.password with
  | .unbound, some entry =>
    if entry.deviceId = [] then
      ({ db with passwords :=
          db.passwords.insert r.password { entry with deviceId := r.identity.deviceId } }, true)
    else (db, false)
  | _, _ => (db, false)

def bindMain (db : Database) (r : GetconfRequest) (access : CredentialAccess) : Database × Bool :=
  if access = .main ∧ db.mainDeviceId = [] then
    ({ db with mainDeviceId := r.identity.deviceId }, true)
  else (db, false)

/-- The row of the device: a new one with a new pair of keys if there is an address left, or the old
one renewed. -/
def writeDevice (net : Subnet) (db : Database) (r : GetconfRequest)
    (keys : Text × Text := ([], [])) : Database × Bool :=
  match db.devices.lookup r.identity.deviceId with
  | none =>
    match db.getNextIp net with
    | none => (db, false)
    | some ip =>
      let device : ClientDevice :=
        { deviceId := r.identity.deviceId, ip, privKey := keys.1, pubKey := keys.2,
          boundPassword := r.password, lastSessionSalt := r.identity.sessionSalt,
          lastGenerationId := r.identity.generationId }
      ({ db with devices := db.devices.insert r.identity.deviceId device }, true)
  | some device =>
    let written := { device with
      boundPassword := r.password
      lastSessionSalt := r.identity.sessionSalt
      lastGenerationId := r.identity.generationId }
    ({ db with devices := db.devices.insert r.identity.deviceId written }, device ≠ written)

/-- What an admitted request writes, and whether it changed anything. -/
def admitted (net : Subnet) (db : Database) (r : GetconfRequest) (access : CredentialAccess)
    (keys : Text × Text := ([], [])) : Database × Bool :=
  let (db, password) := db.bindPassword r access
  let (db, main) := db.bindMain r access
  let (db, device) := db.writeDevice net r keys
  (db, password || main || device)

def tunnelConf (db : Database) (r : GetconfRequest) (dns : Text) : Option Ipv4 × Text :=
  match db.devices.lookup r.identity.deviceId with
  | none => (none, "NOCONF".toList)
  | some device =>
    (Text.parseIpv4 device.ip,
      "TUNCONF:".toList ++ device.ip ++ ':' :: dns ++ ':' :: r.clientPort)

end Database

/-- The password may be used for the device: it is the main password or an active password that has
not expired, and the device is not bound to another one. -/
structure Database.Permits (db : Database) (now : ℤ) (password deviceId : Text) : Prop where
  credential : (db.mainPassword ≠ [] ∧ password = db.mainPassword) ∨
    ∃ entry, db.passwords.lookup password = some entry ∧ entry.isDeactivated = false ∧
      (entry.expiresAt = 0 ∨ now ≤ entry.expiresAt)
  device : ∀ device, db.devices.lookup deviceId = some device →
    device.boundPassword = [] ∨ device.boundPassword = password

theorem Database.permits_of_access {db : Database} {now : ℤ} {password deviceId : Text}
    {access : CredentialAccess}
    (h : db.getconfCredentialAccess now password deviceId = .ok access) :
    db.Permits now password deviceId := by
  unfold getconfCredentialAccess at h
  by_cases hbound : (db.devices.lookup deviceId).any fun device =>
      device.boundPassword ≠ [] ∧ device.boundPassword ≠ password
  · rw [if_pos hbound] at h
    cases h
  · rw [if_neg hbound] at h
    refine ⟨?_, fun device hlook => ?_⟩
    · by_cases hmain : db.mainPassword ≠ [] ∧ password = db.mainPassword
      · exact .inl hmain
      · rw [if_neg hmain] at h
        split at h
        · cases h
        · rename_i entry hentry
          refine .inr ⟨entry, hentry, ?_⟩
          by_cases hexp : isExpired now entry = true
          · rw [if_pos hexp] at h
            cases h
          · rw [if_neg hexp] at h
            refine ⟨?_, not_isExpired hexp⟩
            by_cases hact : entry.isDeactivated = true
            · rw [if_pos hact] at h
              cases h
            · exact Bool.eq_false_iff.mpr hact
    · rw [hlook, Option.any_some, decide_eq_true_eq] at hbound
      by_cases hempty : device.boundPassword = []
      · exact .inl hempty
      · exact .inr (not_not.mp fun hne => hbound ⟨hempty, hne⟩)

end Csqtt
