import Csqtt.AssocMap
import Csqtt.ServerDatabase

/-!
# The web panel and the janitor

What the requests of the panel check and what they do to the database, and what the janitor does
with passwords that have expired. The random bytes of new passwords come with the request.
-/

namespace Csqtt

def maxPasswords : ℕ := 20

def passChars : Text := "ABCDEFGHJKLMNPQRSTUVWXYZabcdefghjkmnpqrstuvwxyz23456789".toList

def randomPassword (data : Bytes) : Text :=
  data.map fun v => passChars.getD (v.toNat % passChars.length) 'A'

def maxClientNameBytes : ℕ := 128

/-- Why the panel refuses a request. -/
inductive PanelError
  | passwordLength
  | dnsRequired
  | dnsInvalid
  | autoRestartInterval
  | clientName
  | days
  | hashesTooLong
  | hashesSpaced
  | hashesInvalid
  | limitReached
  | notFound
  | internal
  deriving DecidableEq

def PanelError.status : PanelError → ℕ
  | .notFound => 404
  | .internal => 500
  | _ => 400

def PanelError.message : PanelError → String
  | .passwordLength => "password length must be 4..128 or empty"
  | .dnsRequired => "primary DNS is required"
  | .dnsInvalid => "DNS must be a valid IPv4 address"
  | .autoRestartInterval => "auto restart interval must be 0, 12, 24, 48, or 72 hours"
  | .clientName => "client name is too long or invalid"
  | .days => "days must be 0..3650"
  | .hashesTooLong => "VK hashes are too long"
  | .hashesSpaced => "VK hashes must be comma-separated without spaces"
  | .hashesInvalid => "provide 1 to 6 valid VK hashes"
  | .limitReached => "limit reached"
  | .notFound => ""
  | .internal => ""

/-! ## Settings -/

structure SettingsRequest where
  mainPassword : Option Text := none
  dnsPrimary : Option Text := none
  dnsSecondary : Option Text := none
  autoRestartIntervalHours : Option UInt8 := none

/-- A request that has been checked. -/
structure SettingsChange where
  mainPassword : Option Text
  dns : Option Text
  autoRestartIntervalHours : Option UInt8
  deriving DecidableEq

def passwordLengthRefused (password : Text) : Bool :=
  !password.isEmpty && (Text.utf8Len password < 4 || 128 < Text.utf8Len password)

def settingsDns (primary secondary : Option Text) : Except PanelError (Option Text) :=
  match primary, secondary with
  | none, none => .ok none
  | some primary, secondary =>
    let primary := Text.trim primary
    let secondary := Text.trim (secondary.getD [])
    if primary.isEmpty then .error .dnsRequired
    else if (Text.parseIpv4 primary).isNone ||
        (!secondary.isEmpty && (Text.parseIpv4 secondary).isNone) then .error .dnsInvalid
    else .ok (some (if secondary.isEmpty then primary else primary ++ ',' :: secondary))
  | none, some _ => .error .dnsRequired

def SettingsRequest.check (r : SettingsRequest) : Except PanelError SettingsChange :=
  if r.mainPassword.any passwordLengthRefused then .error .passwordLength
  else
    match settingsDns r.dnsPrimary r.dnsSecondary with
    | .error e => .error e
    | .ok dns =>
      if r.autoRestartIntervalHours.any fun hours => hours ∉ [0, 12, 24, 48, 72] then
        .error .autoRestartInterval
      else .ok ⟨r.mainPassword, dns, r.autoRestartIntervalHours⟩

/-! ## Clients -/

structure CreateClientRequest where
  name : Text
  days : ℤ
  hash : Text
  dtlsPort : Option ℕ := none
  wgPort : Option ℕ := none
  localPort : Option ℕ := none

/-- What a new client is told. -/
structure CreatedClient where
  password : Text
  expires : ℤ
  dtlsPort : ℕ
  wgPort : ℕ
  localPort : ℕ
  vkHashes : Text
  deriving DecidableEq

/-- The control characters of Unicode. -/
def isControl (c : Char) : Bool := c.toNat < 0x20 || (0x7f ≤ c.toNat && c.toNat ≤ 0x9f)

def textFieldRefused (value : Text) (maxBytes : ℕ) : Bool :=
  maxBytes < Text.utf8Len value || value.any isControl

def normalizeClientVkHashes (raw : Text) : Except PanelError Text :=
  let value := Text.trim raw
  if value.isEmpty then .ok []
  else if 1024 < Text.utf8Len value then .error .hashesTooLong
  else if value.any Text.isWhitespace then .error .hashesSpaced
  else
    let hashes := Text.split ',' value
    if 6 < hashes.length || hashes.any (Text.utf8Len · < 16) then .error .hashesInvalid
    else .ok (List.intercalate [','] hashes)

/-- The checks that a new and a changed client share, and the hashes. -/
def CreateClientRequest.check (r : CreateClientRequest) : Except PanelError Text :=
  if textFieldRefused r.name maxClientNameBytes then .error .clientName
  else if r.days < 0 || 3650 < r.days then .error .days
  else normalizeClientVkHashes r.hash

/-- Seconds are added up to the largest time there is. -/
def CreateClientRequest.expires (r : CreateClientRequest) (now : ℤ) : ℤ :=
  if r.days = 0 then 0 else min (now + r.days * 86400) (2 ^ 63 - 1)

def CreateClientRequest.describe (r : CreateClientRequest) (now : ℤ) (vkHashes : Text)
    (entry : PasswordEntry) : PasswordEntry :=
  let dtlsPort := r.dtlsPort.getD 46010
  let wgPort := r.wgPort.getD 46001
  let localPort := r.localPort.getD 0
  { entry with
    name := r.name
    expiresAt := r.expires now
    vkHash := vkHashes
    vkHashes
    dtlsPort
    wgPort
    localPort
    ports := Text.ofNat dtlsPort ++ ',' :: Text.ofNat wgPort ++ ',' :: Text.ofNat localPort }

namespace Database

def clearDeviceBinding (db : Database) (password : Text) : Database :=
  { db with devices := db.devices.mapValues fun _ device =>
      if device.boundPassword = password then { device with boundPassword := [] } else device }

def pruneDanglingDeviceBindings (db : Database) : Database :=
  { db with devices := db.devices.mapValues fun _ device =>
      if device.boundPassword = [] ∨ device.boundPassword = db.mainPassword ∨
          (db.passwords.lookup device.boundPassword).isSome then device
      else { device with boundPassword := [] } }

/-- The database with the new settings, and the main password that was replaced. -/
def settings (db : Database) (c : SettingsChange) : Database × Option Text :=
  ({ db with
      mainPassword := c.mainPassword.getD db.mainPassword
      dns := c.dns.getD db.dns
      autoRestartIntervalHours := c.autoRestartIntervalHours.or db.autoRestartIntervalHours },
    c.mainPassword.bind fun password => if db.mainPassword ≠ password then
      some db.mainPassword else none)

/-- Expired passwords go before the limit is looked at, also when the limit is then reached. -/
def retainUnexpired (db : Database) (now : ℤ) : Database :=
  pruneDanglingDeviceBindings
    { db with passwords := db.passwords.filterValues fun _ entry => !isExpired now entry }

def clientsCreate (db : Database) (now : ℤ) (random : List Bytes) (r : CreateClientRequest) :
    Database × Except PanelError CreatedClient :=
  match r.check with
  | .error e => (db, .error e)
  | .ok vkHashes =>
    let db := db.retainUnexpired now
    if maxPasswords ≤ db.passwords.entries.length then (db, .error .limitReached)
    else
      match (random.map randomPassword).find? fun candidate =>
          (db.passwords.lookup candidate).isNone with
      | none => (db, .error .internal)
      | some password =>
        let entry : PasswordEntry := r.describe now vkHashes {}
        ({ db with passwords := db.passwords.insert password entry },
          .ok ⟨password, entry.expiresAt, entry.dtlsPort, entry.wgPort, entry.localPort, vkHashes⟩)

/-- The entry of a client is changed. -/
def updateEntry (db : Database) (password : Text) (f : PasswordEntry → PasswordEntry) :
    Database × Except PanelError Unit :=
  match db.passwords.lookup password with
  | none => (db, .error .notFound)
  | some entry => ({ db with passwords := db.passwords.insert password (f entry) }, .ok ())

def clientUpdate (db : Database) (now : ℤ) (password : Text) (r : CreateClientRequest) :
    Database × Except PanelError Unit :=
  match r.check with
  | .error e => (db, .error e)
  | .ok vkHashes => db.updateEntry password (r.describe now vkHashes)

def clientToggle (db : Database) (password : Text) : Database × Except PanelError Unit :=
  db.updateEntry password fun entry => { entry with isDeactivated := !entry.isDeactivated }

def clientUnbind (db : Database) (password : Text) : Database × Except PanelError Unit :=
  if password = db.mainPassword then
    (clearDeviceBinding { db with mainDeviceId := [] } password, .ok ())
  else
    match db.updateEntry password fun entry => { entry with deviceId := [] } with
    | (db, .error e) => (db, .error e)
    | (db, .ok ()) => (db.clearDeviceBinding password, .ok ())

def clientDelete (db : Database) (password : Text) : Database × Except PanelError Unit :=
  match db.passwords.lookup password with
  | none => (db, .error .notFound)
  | some _ =>
    (clearDeviceBinding { db with passwords := db.passwords.erase password } password, .ok ())

/-! ## The janitor -/

def expiredPasswords (db : Database) (now : ℤ) : List Text :=
  (db.passwords.entries.filter fun entry => isExpired now entry.2).map (·.1)

/-- A password that was found expired is looked at once more before it goes. -/
def expire (db : Database) (now : ℤ) (password : Text) : Database :=
  if (db.passwords.lookup password).any (isExpired now) then
    clearDeviceBinding { db with passwords := db.passwords.erase password } password
  else db

end Database
end Csqtt
