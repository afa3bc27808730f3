import Csqtt.ImportedAddresses

/-!
# The start of the server

`main` takes the addresses of the devices over into the current tunnel network, each with its host
number, and refuses to start if a saved address is not usable or taken twice. So the server runs
with a database whose devices have different addresses of its network.
-/

namespace Csqtt

namespace Subnet

def clientIp (net : Subnet) (host : UInt8) : Text := Text.ofIpv4 net.1 net.2.1 net.2.2 host

def address (net : Subnet) (host : UInt8) : Ipv4 := (net.1, net.2.1, net.2.2, host)

theorem parseIpv4_clientIp (net : Subnet) (host : UInt8) :
    Text.parseIpv4 (net.clientIp host) = some (net.address host) :=
  Text.parseIpv4_ofIpv4 _ _ _ _

theorem clientIp_injective (net : Subnet) {host ho' : UInt8}
    (h : net.clientIp host = net.clientIp ho') : host = ho' := by
  have hp := congrArg Text.parseIpv4 h
  rw [parseIpv4_clientIp, parseIpv4_clientIp, Option.some.injEq] at hp
  exact congrArg (·.2.2.2) hp

end Subnet

/-- The host numbers that devices get. -/
def isClientHost (host : UInt8) : Bool := 2 ≤ host && host ≤ 250

inductive StartError
  | invalidSavedIp
  | notMigrated
  | dnsCount
  | dnsAddress (address : Text)
  deriving DecidableEq

def StartError.message : StartError → Text
  | .invalidSavedIp => "invalid saved device IP".toList
  | .notMigrated => "saved device IPs cannot be migrated to the configured /24".toList
  | .dnsCount => "DNS must contain one or two IPv4 addresses".toList
  | .dnsAddress address => "invalid DNS IPv4 address: ".toList ++ address

def normalizeDns (value : Text) : Except StartError Text :=
  let addresses := ((Text.split ',' value).map Text.trim).filter (!·.isEmpty)
  if addresses.isEmpty || 2 < addresses.length then .error .dnsCount
  else
    match addresses.find? fun address => (Text.parseIpv4 address).isNone with
    | some address => .error (.dnsAddress address)
    | none => .ok (List.intercalate [','] addresses)

/-! ## Addresses of another network -/

def migrateDevice (net : Subnet) (assigned : List UInt8) (device : ClientDevice) :
    Except StartError (List UInt8 × ClientDevice) :=
  match Text.parseIpv4 device.ip with
  | none => .error .invalidSavedIp
  | some ip =>
    let host := ip.2.2.2
    if !isClientHost host || host ∈ assigned then .error .notMigrated
    else .ok (host :: assigned, { device with ip := net.clientIp host })

def migrateDevices (net : Subnet) :
    List UInt8 → List ((_ : Text) × ClientDevice) →
    Except StartError (List ((_ : Text) × ClientDevice))
  | _, [] => .ok []
  | assigned, ⟨deviceId, device⟩ :: rest =>
    match migrateDevice net assigned device with
    | .error e => .error e
    | .ok (assigned, device) => (migrateDevices net assigned rest).map (⟨deviceId, device⟩ :: ·)

def Database.migrate (net : Subnet) (db : Database) : Except StartError Database :=
  (migrateDevices net [] db.devices.entries).map fun devices =>
    { db with devices := devices.toAList }

/-! ## The configuration -/

structure DeployOverrides where
  mainPassword : Text := []
  deviceId : Text := []
  dns : Text := []

/-- What is configured, and the password that is drawn if there is none. -/
structure StartOptions where
  password : Text := []
  deviceId : Text := []
  dns : Option Text := none
  overrides : DeployOverrides := {}
  generated : Text := []

namespace StartOptions

def configuredDns (o : StartOptions) : Option Text :=
  let nonempty := fun value : Text => if value.isEmpty then none else some value
  ((o.dns.map Text.trim).bind nonempty).or (nonempty (Text.trim o.overrides.dns))

def runtimeDns (o : StartOptions) (stored : Text) : Except StartError Text :=
  match o.configuredDns with
  | some configured => normalizeDns configured
  | none =>
    if (Text.trim stored).isEmpty then .ok "1.1.1.1".toList else normalizeDns (Text.trim stored)

def mainPassword (o : StartOptions) (stored : Text) : Text :=
  if !o.password.isEmpty then o.password
  else if !o.overrides.mainPassword.isEmpty then o.overrides.mainPassword
  else if stored.isEmpty then o.generated else stored

def mainDeviceId (o : StartOptions) (stored : Text) : Text :=
  if !o.deviceId.isEmpty then o.deviceId
  else if !o.overrides.deviceId.isEmpty then o.overrides.deviceId else stored

end StartOptions

/-- The database that the server runs with. -/
def Database.start (net : Subnet) (o : StartOptions) (db : Database) : Except StartError Database :=
  match db.migrate net with
  | .error e => .error e
  | .ok db =>
    match o.runtimeDns db.dns with
    | .error e => .error e
    | .ok dns =>
      .ok { db with
        adminId := []
        botToken := []
        webSessions := ∅
        mainPassword := o.mainPassword db.mainPassword
        mainDeviceId := o.mainDeviceId db.mainDeviceId
        dns
        autoRestartIntervalHours :=
          if db.restartIntervalHours ∈ [0, 12, 24, 48, 72] then db.autoRestartIntervalHours
          else some defaultAutoRestartIntervalHours }

/-! ## The addresses of a started database -/

/-- Every device has an address of the network. -/
def Database.Inside (net : Subnet) (db : Database) : Prop :=
  ∀ deviceId device, db.devices.lookup deviceId = some device →
    ∃ host, isClientHost host = true ∧ device.ip = net.clientIp host

variable {net : Subnet} {assigned assigned' : List UInt8}

theorem migrateDevice_ok {device device' : ClientDevice}
    (h : migrateDevice net assigned device = .ok (assigned', device')) :
    ∃ host, isClientHost host = true ∧ host ∉ assigned ∧ assigned' = host :: assigned ∧
      device' = { device with ip := net.clientIp host } := by
  unfold migrateDevice at h
  split at h
  · cases h
  · rename_i ip hip
    dsimp only at h
    split_ifs at h with hr
    cases h
    simp only [Bool.or_eq_true, Bool.not_eq_true', decide_eq_true_eq, not_or, Bool.not_eq_false]
      at hr
    exact ⟨ip.2.2.2, hr.1, hr.2, rfl, rfl⟩

variable {out entries rest : List ((_ : Text) × ClientDevice)}

theorem migrateDevices_cons {deviceId : Text} {device : ClientDevice}
    (h : migrateDevices net assigned (⟨deviceId, device⟩ :: rest) = .ok out) :
    ∃ host out', isClientHost host = true ∧ host ∉ assigned ∧
      migrateDevices net (host :: assigned) rest = .ok out' ∧
      out = ⟨deviceId, { device with ip := net.clientIp host }⟩ :: out' := by
  rw [migrateDevices] at h
  split at h
  · cases h
  · rename_i assigned' device' hd
    obtain ⟨host, hh, hf, rfl, rfl⟩ := migrateDevice_ok hd
    cases hr : migrateDevices net (host :: assigned) rest with
    | error =>
      rw [hr] at h
      cases h
    | ok out' =>
      rw [hr] at h
      cases h
      exact ⟨host, out', hh, hf, hr, rfl⟩

/-- Every row keeps what it has besides its address, and gets an address of the network that is not
assigned yet. -/
theorem mem_migrateDevices (h : migrateDevices net assigned entries = .ok out)
    {e : (_ : Text) × ClientDevice} (he : e ∈ out) :
    ∃ host device, isClientHost host = true ∧ host ∉ assigned ∧
      (⟨e.1, device⟩ : (_ : Text) × _) ∈ entries ∧
      e.2 = { device with ip := net.clientIp host } := by
  induction entries generalizing assigned out with
  | nil =>
    cases h
    cases he
  | cons entry _ ih =>
    obtain ⟨deviceId, device⟩ := entry
    obtain ⟨host, out', hh, hf, hr, rfl⟩ := migrateDevices_cons h
    obtain rfl | he := List.mem_cons.mp he
    · exact ⟨host, device, hh, hf, List.mem_cons_self, rfl⟩
    · obtain ⟨ho', device', hh', hf', hm, heq⟩ := ih hr he
      exact ⟨ho', device', hh', fun ho => hf' (List.mem_cons_of_mem host ho),
        List.mem_cons_of_mem _ hm, heq⟩

theorem pairwise_migrateDevices (h : migrateDevices net assigned entries = .ok out) :
    out.Pairwise fun e e' => e.2.ip ≠ e'.2.ip := by
  induction entries generalizing assigned out with
  | nil =>
    cases h
    exact List.Pairwise.nil
  | cons entry _ ih =>
    obtain ⟨host, out', -, -, hr, rfl⟩ := migrateDevices_cons h
    refine List.pairwise_cons.mpr ⟨fun e he heq => ?_, ih hr⟩
    obtain ⟨ho', device', -, hf, -, hd⟩ := mem_migrateDevices hr he
    rw [hd] at heq
    exact hf (net.clientIp_injective heq ▸ List.mem_cons_self)

namespace Database

variable {db db' : Database} {o : StartOptions}

section

variable (h : db.start net o = .ok db')
include h

theorem start_ok :
    ∃ out, migrateDevices net [] db.devices.entries = .ok out ∧
      ∀ deviceId device, db'.devices.lookup deviceId = some device →
        (⟨deviceId, device⟩ : (_ : Text) × ClientDevice) ∈ out := by
  unfold start at h
  split at h
  · cases h
  · rename_i migrated hm
    unfold migrate at hm
    cases ho : migrateDevices net [] db.devices.entries with
    | error =>
      rw [ho] at hm
      cases hm
    | ok out =>
      rw [ho] at hm
      cases hm
      split at h
      · cases h
      · cases h
        refine ⟨out, rfl, fun deviceId device hd => ?_⟩
        rw [AList.lookup_to_alist] at hd
        exact List.of_mem_dlookup hd

theorem inside_start : db'.Inside net := by
  obtain ⟨out, ho, hm⟩ := start_ok h
  intro deviceId device hd
  obtain ⟨host, old, hh, -, -, heq⟩ := mem_migrateDevices ho (hm deviceId device hd)
  exact ⟨host, hh, by rw [show device = _ from heq]⟩

theorem distinctIps_start : db'.DistinctIps := by
  obtain ⟨out, ho, hm⟩ := start_ok h
  intro deviceId deviceId' device device' hd hd' hip
  by_contra hne
  have hs : Std.Symm fun e e' : (_ : Text) × ClientDevice => e.2.ip ≠ e'.2.ip :=
    ⟨fun _ _ h => h.symm⟩
  have he : (⟨deviceId, device⟩ : (_ : Text) × ClientDevice) ≠ ⟨deviceId', device'⟩ := fun heq =>
    hne (congrArg Sigma.fst heq)
  exact (pairwise_migrateDevices ho).forall (hm _ _ hd) (hm _ _ hd') he hip

end

theorem keyed_start (hk : db.Keyed) (h : db.start net o = .ok db') : db'.Keyed := by
  obtain ⟨out, ho, hm⟩ := start_ok h
  intro deviceId device hd
  obtain ⟨host, old, -, -, hold, heq⟩ := mem_migrateDevices ho (hm deviceId device hd)
  rw [show device = _ from heq]
  exact hk deviceId old (AList.mem_lookup_iff.mpr hold)

end Database

theorem Disk.keyed_started {d : Disk} {newIds : ℕ → Text} {loaded db : Database}
    {o : StartOptions} (hl : (d.loadDatabase newIds).2 = .ok loaded)
    (hs : loaded.start net o = .ok db) : db.Keyed := by
  refine Database.keyed_start (fun deviceId device hd => ?_) hs
  rw [(loadDatabase_ok hl).2, Tables.lookup_devices_read] at hd
  obtain ⟨row, -, rfl⟩ := Option.map_eq_some_iff.mp hd
  rfl

end Csqtt
