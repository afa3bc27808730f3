import Csqtt.ServerDatabase
import Csqtt.ServerEngineRuns
import Csqtt.ServerTable

/-!
# The control plane of the server

The engine together with what runs beside it: the control loop, the tasks it starts for payloads,
and the tasks of the panel and of the housekeeping. A task is a list of operations, each of which
reads or writes the shared state once; what has been read goes on in the operations that follow.
The tasks and the engine take turns in any order. A task that fails lets go of its locks.
-/

namespace Csqtt

def commandCapacity : ℕ := 4096

def publicSessionLimit : ℕ := maxActiveSessions + 256

def publicSetupGhostIdleSecs : ℕ := 30

def publicAuthGhostIdleSecs : ℕ := 2 * 60

def deviceEpochIdleTtlMs : ℕ := 60 * 60 * 1000

def panelRestartNotice : Bytes :=
  0xff :: asciiBytes "CSQTT_PANEL_RESTART_V1" ++ [0x00, 0x91, 0x7d, 0x03, 0xa8]

structure ControlConfig where
  server : ServerConfig
  deriveWrapKey : Text → Bytes

/-- `DeviceEpochSlot`, with the device it was made for. Its place in the list of slots is its
address. -/
structure EpochSlot where
  deviceId : Text
  epoch : DeviceEpochState
  lastUsedMs : ℕ

inductive Op
  | send (command : Command) (required : Bool)
  | forget (sessionId : ℕ)
  -- process_control_payload
  | payload (payload : Bytes)
  | frameGate (payload : Bytes)
  | frame (payload : Bytes)
  -- handle_getconf
  | preliminary (r : GetconfRequest)
  | rejectedIsRequest (identity : Identity)
  | pickEpoch (r : GetconfRequest)
  | freshEpoch (r : GetconfRequest)
  | insertEpoch (r : GetconfRequest) (fresh : DeviceEpochState) (unixMs : ℕ)
  | lockEpoch (r : GetconfRequest) (slot : ℕ) (created : Bool)
  | checkEpoch (r : GetconfRequest) (slot : ℕ) (created : Bool)
  | admitRequest (r : GetconfRequest) (slot : ℕ) (created : Bool)
  | setPublicEpoch (identity : Identity)
  | storeWorker (workerId : ℕ)
  | storeDesired (desiredCount : ℕ)
  | purgeStale (identity : Identity)
  | purgeReplaced (identity : Identity) (workerId : ℕ)
  | commit (r : GetconfRequest) (access : CredentialAccess)
  | removeEpoch (deviceId : Text) (slot : ℕ)
  | storeTunnelIp (ip : Ipv4)
  | register (ip : Ipv4) (workerId desiredCount : ℕ)
  | storeHasTunnel
  | dropEpoch
  -- refresh_credentials
  | buildCredentials
  | publishCredentials (credentials : List Credential)
  -- process_ingress_before_tunnel_event
  | ingress (payload : Bytes)
  | ensureTunnel (payload : Bytes)
  | ensureIp (payload : Bytes)
  | ensureIdentity (payload : Bytes)
  | resolveIp (identity : Identity) (payload : Bytes)
  | ensureRegistration (ip : Ipv4) (payload : Bytes)
  | ensureWorker (ip : Ipv4) (registrationId : ℕ) (payload : Bytes)
  -- handle_disconnect
  | disconnectIdentity (deviceId salt : Text)
  | disconnectPreliminary (identity : Identity) (deviceId salt : Text)
  | pickExisting (deviceId salt : Text)
  | lockExisting (deviceId salt : Text) (slot : ℕ)
  | checkExisting (deviceId salt : Text) (slot : ℕ)
  | authorizeDisconnect (deviceId salt : Text) (slot : ℕ)
  | disconnectCandidates (deviceId : Text)
  | forgetDevice (sessionId : ℕ) (deviceId : Text)
  -- control_loop, and the tasks of the panel and of the housekeeping
  | acquire (first : Op)
  | insertSession (sessionId : ℕ)
  | closeStreams (sessionId : ℕ)
  | prune (currentWall : ℕ)
  | pruneOverflow
  | forgetPassword (password : Text)
  | dropAll
  | clearSessions
  | sweepEpochs (nowMs : ℕ)
  | evictEpoch (deviceId : Text) (nowMs : ℕ)

inductive TaskKind
  | loop
  | job
  | panel
  deriving DecidableEq

/-- `epoch` is the epoch slot whose lock the task has, `writing` is the lock of the database. -/
structure Task where
  kind : TaskKind
  session : ℕ
  ops : List Op
  recover : List Op := []
  epoch : Option ℕ := none
  writing : Bool := false

namespace Task

def next (t : Task) (ops : List Op) : Task := { t with ops := ops ++ t.ops }

def fail (t : Task) : Task :=
  { t with ops := t.recover, recover := [], epoch := none, writing := false }

def unlock (t : Task) : Task := { t with epoch := none }

end Task

structure World where
  engine : Engine
  sessions : List ℕ := []
  db : Database
  deviceEpochs : AList fun _ : Text => ℕ := ∅
  epochSlots : List EpochSlot := []
  commands : List Command := []
  tasks : List Task := []
  proxies : ProxyTable := {}
  nextRegistration : ℕ := 1

/-- What an operation of a task needs from outside: the clocks, whether the database could not be
had in time, the configured name server, and the keys of a new device. -/
structure TaskIo where
  now : ℤ
  unixMs : ℕ
  busy : Bool
  dns : Text
  keys : Text × Text := ([], [])

def Engine.setEvents (e : Engine) (events : List ControlEvent) : Engine := { e with events }

def Engine.publishCredentials (e : Engine) (credentials : List Credential) : Engine :=
  { e with credentialsSnapshot := credentials }

namespace World

def start (credentials : List Credential) (db : Database) (wallNow : ℕ) : World where
  engine := .start credentials wallNow
  db

def withEngine (w : World) (engine : Engine) : World := { w with engine }

def command (w : World) (command : Command) : World × Bool :=
  if w.commands.length < commandCapacity then
    ({ w with commands := w.commands ++ [command] }, true)
  else (w, false)

def session (w : World) (sessionId : ℕ) : Option PublicSession := w.engine.publics sessionId

def updatePublic (w : World) (sessionId : ℕ) (f : PublicSession → PublicSession) : World :=
  w.withEngine (w.engine.updatePublic sessionId f)

def forget (w : World) (sessionId : ℕ) : World :=
  { w with sessions := w.sessions.filter (· ≠ sessionId) }

def candidates (w : World) (p : ℕ → PublicSession → Bool) : List ℕ :=
  w.sessions.filter fun id => (w.session id).any (p id)

def writing (w : World) : Bool := w.tasks.any (·.writing)

def epochLocked (w : World) (slot : ℕ) : Bool := w.tasks.any (·.epoch = some slot)

def touchSlot (w : World) (slot : ℕ) (unixMs : ℕ) : World :=
  { w with epochSlots := w.epochSlots.modify slot fun s => { s with lastUsedMs := unixMs } }

def setEpoch (w : World) (slot : ℕ) (epoch : DeviceEpochState) : World :=
  { w with epochSlots := w.epochSlots.modify slot fun s => { s with epoch } }

/-- The frames that the streams send become commands. -/
def setProxies (w : World) (proxies : ProxyTable) : World :=
  { w with
    proxies
    commands := w.commands ++ (proxies.outbox.drop w.proxies.outbox.length).map fun sent =>
      .sendPlain sent.1 (encodeFrame sent.2) }

def room (w : World) : Bool := w.commands.length < commandCapacity

def spawn (w : World) (kind : TaskKind) (sessionId : ℕ) (ops : List Op) : World :=
  { w with tasks := w.tasks ++ [{ kind, session := sessionId, ops }] }

def jobs (w : World) : ℕ := (w.tasks.filter (·.kind = .job)).length

end World

open World

def reply (sessionId : ℕ) (response : Text) (required : Bool) : Op :=
  .send (.sendPlain sessionId (Text.utf8 response)) required

def deny (sessionId : ℕ) (denial : Denial) (required : Bool) : Op :=
  reply sessionId denial.response.toList required

def dropExactSession (sessionId : ℕ) : List Op :=
  [.send (.dropSession sessionId) false, .forget sessionId]

namespace Task

/-- An operation that reads the database: it waits while a task writes. -/
def reading (t : Task) (w : World) (io : TaskIo) (op : Op) (busy read : Task) : Task :=
  if io.busy then busy else if w.writing then t.next [op] else read

def handleDisconnect (t : Task) (deviceId salt : Text) : Task :=
  if deviceId.isEmpty || 128 < Text.utf8Len deviceId then
    t.next [deny t.session .invalidDevice false]
  else if salt.isEmpty || 128 < Text.utf8Len salt then t.next [deny t.session .invalidEpoch false]
  else
    { t with recover := [deny t.session .serverBusy false] }.next
      [.disconnectIdentity deviceId salt]

def processControlPayload (t : Task) (password : Text) (payload : Bytes) : Task :=
  if isFrame payload then t.next [.frameGate payload]
  else if isGetconf payload then
    match Text.ofUtf8 payload with
    | none => t.fail
    | some text =>
      match parseGetconf password text with
      | .error denial => t.next [deny t.session denial true]
      | .ok r => t.next [.preliminary r]
  else if isDisconnect payload then
    match Text.ofUtf8 payload with
    | none => t.fail
    | some text =>
      let content := Text.trim ((Text.stripStart "DISCONNECT:".toList text).getD [])
      let parts := Text.splitn 2 '|' content
      t.handleDisconnect (Text.trim (parts[0]?.getD [])) (Text.trim (parts[1]?.getD []))
  else t

def rejected (t : Task) (r : GetconfRequest) (denial : Denial) : Task :=
  t.next [deny t.session denial true, .dropEpoch, .rejectedIsRequest r.identity]

end Task

variable (cfg : ControlConfig)

/-- The section of `handle_getconf` under the lock of the database, up to the decision. -/
def World.admitRequest (w : World) (t : Task) (io : TaskIo) (r : GetconfRequest) (slot : ℕ)
    (created : Bool) : World × Task :=
  match w.db.getconfCredentialAccess io.now r.password r.identity.deviceId with
  | .error denial =>
    (w, (t.rejected r denial).next
      (if created then [.removeEpoch r.identity.deviceId slot] else []))
  | .ok access =>
    match w.epochSlots[slot]? with
    | none => (w, t)
    | some s =>
      match s.epoch.admitEpoch r.identity.generationId r.identity.sessionSalt with
      | (epoch, .stale) => (w.setEpoch slot epoch, t.rejected r .staleGeneration)
      | (epoch, .saltConflict) => (w.setEpoch slot epoch, t.rejected r .sessionConflict)
      | (epoch, _) =>
        (w.setEpoch slot epoch,
          { t with writing := true }.next
            [.setPublicEpoch r.identity, .storeWorker r.workerId, .storeDesired r.desiredCount,
              .purgeStale r.identity, .purgeReplaced r.identity r.workerId, .commit r access])

/-- What follows the section. -/
def getconfAnswer (sessionId : ℕ) (r : GetconfRequest) (tunnelIp : Option Ipv4) (response : Text)
    (changed : Bool) : List Op :=
  let tunnel : List Op :=
    match tunnelIp with
    | none => []
    | some ip => [.storeTunnelIp ip, .register ip r.workerId r.desiredCount]
  let refresh : List Op := if changed then [.buildCredentials] else []
  [.send (.updateEpoch sessionId r.identity) true, .send (.setAuthoritativeEpoch r.identity) true,
    reply sessionId response true] ++ tunnel ++ .dropEpoch :: refresh

/-- The rest of the section. -/
def World.commit (w : World) (t : Task) (io : TaskIo) (r : GetconfRequest)
    (access : CredentialAccess) : World × Task :=
  let (db, changed) := w.db.admitted cfg.server.net r access io.keys
  let (tunnelIp, response) := db.tunnelConf r io.dns
  ({ w with db },
    { t with writing := false }.next (getconfAnswer t.session r tunnelIp response changed))

/-- `u16::try_from` and the filter of `ensure_control_tunnel`. -/
def validWorker (workerId : ℕ) : Bool := 1 ≤ workerId && workerId ≤ maxStreamWorkers

def publicSessionIsStale (currentWall : ℕ) (p : PublicSession) : Bool :=
  (if p.hasTunnel then publicAuthGhostIdleSecs else publicSetupGhostIdleSecs) ≤
    currentWall - p.lastSeen

/-- The sessions without a tunnel beyond the limit, those seen longest ago first. -/
def World.overflow (w : World) : List ℕ :=
  let inactive : List (ℕ × ℕ) := w.sessions.filterMap fun id =>
    (w.session id).bind fun p => if p.hasTunnel then none else some (p.lastSeen, id)
  ((inactive.insertionSort fun a b => a.1 < b.1 ∨ (a.1 = b.1 ∧ a.2 ≤ b.2)).take
    (w.sessions.length - publicSessionLimit)).map (·.2)

def World.idleSlot (w : World) (nowMs slot : ℕ) : Bool :=
  w.epochSlots[slot]?.any fun s => deviceEpochIdleTtlMs ≤ nowMs - s.lastUsedMs

/-- The next operation of a task; `t.ops` are those after it. -/
def World.exec (w : World) (t : Task) (io : TaskIo) : Op → World × Task
  | .send command required =>
    match w.command command with
    | (w, true) => (w, t)
    | (w, false) => (w, if required then t.fail else t)
  | .forget sessionId => (w.forget sessionId, t)
  | .payload payload =>
    if t.session ∈ w.sessions then
      match w.session t.session with
      | none => (w, t)
      | some p => (w, t.processControlPayload p.password payload)
    else (w, t)
  | .frameGate payload =>
    if (w.session t.session).any (·.hasTunnel) then (w, t.next [.frame payload]) else (w, t.fail)
  | .frame payload =>
    (w.setProxies (w.proxies.handleFrame t.session payload w.room).1, t)
  | .preliminary r =>
    (w, t.reading w io (.preliminary r) t.fail
      (match w.db.getconfCredentialAccess io.now r.password r.identity.deviceId with
        | .error denial => t.next [deny t.session denial true, .rejectedIsRequest r.identity]
        | .ok _ => t.next [.pickEpoch r]))
  | .rejectedIsRequest identity =>
    (w, if (w.session t.session).any fun p => p.identity.deviceId = [] ∨ p.identity = identity then
      t.next (dropExactSession t.session) else t)
  | .pickEpoch r =>
    (w, t.next [match w.deviceEpochs.lookup r.identity.deviceId with
      | some slot => .lockEpoch r slot false
      | none => .freshEpoch r])
  | .freshEpoch r =>
    (w, t.reading w io (.freshEpoch r) (t.next [.insertEpoch r {} io.unixMs])
      (t.next [.insertEpoch r (((w.db.devices.lookup r.identity.deviceId).map fun device =>
        ⟨device.lastGenerationId, device.lastSessionSalt⟩).getD {}) io.unixMs]))
  | .insertEpoch r fresh unixMs =>
    match w.deviceEpochs.lookup r.identity.deviceId with
    | some slot => (w, t.next [.lockEpoch r slot false])
    | none =>
      ({ w with
          deviceEpochs := w.deviceEpochs.insert r.identity.deviceId w.epochSlots.length
          epochSlots := w.epochSlots ++ [⟨r.identity.deviceId, fresh, unixMs⟩] },
        t.next [.lockEpoch r w.epochSlots.length true])
  | .lockEpoch r slot created =>
    if w.epochLocked slot then (w, t.next [.lockEpoch r slot created])
    else
      (w.touchSlot slot io.unixMs, { t with epoch := some slot }.next [.checkEpoch r slot created])
  | .checkEpoch r slot created =>
    (w, if w.deviceEpochs.lookup r.identity.deviceId = some slot then
      t.next [.admitRequest r slot created] else t.unlock.next [.pickEpoch r])
  | .admitRequest r slot created =>
    if io.busy then (w, t.fail)
    else if w.writing then (w, t.next [.admitRequest r slot created])
    else w.admitRequest t io r slot created
  | .setPublicEpoch identity => (w.updatePublic t.session (·.setIdentity identity), t)
  | .storeWorker workerId => (w.updatePublic t.session fun p => { p with workerId }, t)
  | .storeDesired desiredCount =>
    (w.updatePublic t.session fun p => { p with desiredStreamCount := desiredCount }, t)
  | .purgeStale identity =>
    (w, t.next ((w.candidates fun id p => id ≠ t.session ∧
      p.identity.deviceId = identity.deviceId ∧
        (p.identity.generationId ≠ identity.generationId ∨
          p.identity.sessionSalt ≠ identity.sessionSalt)).flatMap dropExactSession))
  | .purgeReplaced identity workerId =>
    (w, t.next ((w.candidates fun id p => id ≠ t.session ∧ p.workerId = workerId ∧
      p.identity = identity).flatMap dropExactSession))
  | .commit r access => w.commit cfg t io r access
  | .removeEpoch deviceId slot =>
    (if w.deviceEpochs.lookup deviceId = some slot then
      { w with deviceEpochs := w.deviceEpochs.erase deviceId } else w, t)
  | .storeTunnelIp ip => (w.updatePublic t.session fun p => { p with tunnelIp := some ip }, t)
  | .register ip workerId desiredCount =>
    ({ w with nextRegistration := w.nextRegistration + 1 },
      t.next [.storeHasTunnel,
        .send (.activateTunnel t.session ip w.nextRegistration workerId desiredCount) true])
  | .storeHasTunnel => (w.updatePublic t.session (·.setTunnel true), t)
  | .dropEpoch => (w, t.unlock)
  | .buildCredentials =>
    (w, t.reading w io .buildCredentials t
      (match w.db.buildCredentials cfg.deriveWrapKey io.now with
        | none => t
        | some credentials =>
          t.next [.publishCredentials credentials, .send (.replaceCredentials credentials) false]))
  | .publishCredentials credentials =>
    (w.withEngine (w.engine.publishCredentials credentials), t)
  | .ingress payload =>
    (w, if t.session ∈ w.sessions then
      { t with recover := dropExactSession t.session }.next [.ensureTunnel payload] else t)
  | .ensureTunnel payload =>
    (w, t.next [if (w.session t.session).any (·.hasTunnel) then
      .send (.injectTun t.session payload) false else .ensureIp payload])
  | .ensureIp payload =>
    (w, t.next [match (w.session t.session).bind (·.tunnelIp) with
      | some ip => .ensureRegistration ip payload
      | none => .ensureIdentity payload])
  | .ensureIdentity payload =>
    match w.session t.session with
    | none => (w, t.fail)
    | some p => (w, t.next [.resolveIp p.identity payload])
  | .resolveIp identity payload =>
    (w, t.reading w io (.resolveIp identity payload) t.fail
      (match (w.session t.session).bind fun p =>
          (w.db.resolveSessionIp p.password identity.deviceId).bind Text.parseIpv4 with
        | none => t.fail
        | some ip => t.next [.storeTunnelIp ip, .ensureRegistration ip payload]))
  | .ensureRegistration ip payload =>
    ({ w with nextRegistration := w.nextRegistration + 1 },
      t.next [.ensureWorker ip w.nextRegistration payload])
  | .ensureWorker ip registrationId payload =>
    match w.session t.session with
    | none => (w, t.fail)
    | some p =>
      if validWorker p.workerId then
        let desiredCount :=
          if validWorker p.desiredStreamCount && p.workerId ≤ p.desiredStreamCount then
            p.desiredStreamCount else 0
        (w, t.next [.send (.activateTunnel t.session ip registrationId p.workerId desiredCount)
          true, .storeHasTunnel, .send (.injectTun t.session payload) false])
      else (w, t.fail)
  | .disconnectIdentity deviceId salt =>
    match w.session t.session with
    | none => (w, t.fail)
    | some p => (w, t.next [.disconnectPreliminary p.identity deviceId salt])
  | .disconnectPreliminary identity deviceId salt =>
    let notOwner := t.next [deny t.session .notOwner false]
    (w, t.reading w io (.disconnectPreliminary identity deviceId salt) notOwner
      (if ((w.session t.session).any fun p =>
          w.db.deviceControlAuthorized io.now p.password deviceId) ∧
          identity.deviceId = deviceId ∧ identity.sessionSalt = salt then
        t.next [.pickExisting deviceId salt] else notOwner))
  | .pickExisting deviceId salt =>
    (w, t.next [match w.deviceEpochs.lookup deviceId with
      | none => deny t.session .notOwner false
      | some slot => .lockExisting deviceId salt slot])
  | .lockExisting deviceId salt slot =>
    if w.epochLocked slot then (w, t.next [.lockExisting deviceId salt slot])
    else
      (w.touchSlot slot io.unixMs,
        { t with epoch := some slot }.next [.checkExisting deviceId salt slot])
  | .checkExisting deviceId salt slot =>
    (w, if w.deviceEpochs.lookup deviceId = some slot then
      t.next [.authorizeDisconnect deviceId salt slot] else
        t.unlock.next [.pickExisting deviceId salt])
  | .authorizeDisconnect deviceId salt slot =>
    (w, t.reading w io (.authorizeDisconnect deviceId salt slot) t.fail
      (if w.epochSlots[slot]?.any fun s => (w.session t.session).any fun p =>
          w.db.disconnectRequestAuthorized io.now p.password p.identity deviceId salt s.epoch then
        t.next [.disconnectCandidates deviceId]
      else t.unlock.next [deny t.session .notOwner false]))
  | .disconnectCandidates deviceId =>
    (w, t.next (.send (.disconnectDevice deviceId t.session) true ::
      ((w.candidates fun id p => id = t.session ∨ p.identity.deviceId = deviceId).map
        (.forgetDevice · deviceId) ++ [.dropEpoch])))
  | .forgetDevice sessionId deviceId =>
    (if (w.session sessionId).any fun p => sessionId = t.session ∨
      p.identity.deviceId = deviceId then
      w.forget sessionId else w, t)
  | .acquire first =>
    if w.jobs < controlTaskCapacity then (w.spawn .job t.session [first], t)
    else (w, t.next [.acquire first])
  | .insertSession sessionId =>
    let w := w.forget sessionId
    (if w.sessions.length < publicSessionLimit then
      { w with sessions := w.sessions ++ [sessionId] } else w, t)
  | .closeStreams sessionId => (w.setProxies (w.proxies.closeSession sessionId), t)
  | .prune currentWall =>
    (w, t.next ((w.candidates fun _ p => publicSessionIsStale currentWall p).flatMap
      dropExactSession ++ [.pruneOverflow]))
  | .pruneOverflow => (w, t.next (w.overflow.map .forget))
  | .forgetPassword password =>
    (w, t.next ((w.candidates fun _ p => p.password = password).map .forget))
  | .dropAll =>
    (w, t.next (w.sessions.map (fun id => .send (.dropSession id) false) ++ [.clearSessions]))
  | .clearSessions => ({ w with sessions := [] }, t)
  | .sweepEpochs nowMs =>
    (w, t.next ((w.deviceEpochs.entries.filter fun entry => w.idleSlot nowMs entry.2).map
      fun entry => .evictEpoch entry.1 nowMs))
  | .evictEpoch deviceId nowMs =>
    (if (w.deviceEpochs.lookup deviceId).any (w.idleSlot nowMs) ∧
        w.candidates (fun _ p => p.identity.deviceId = deviceId) = [] then
      { w with deviceEpochs := w.deviceEpochs.erase deviceId } else w, t)

/-- What the panel and the housekeeping ask for. -/
inductive PanelRequest
  | refreshCredentials
  | dropPasswordSessions (password : Text)
  | dropAllSessions
  | notifyPanelRestart
  | compactMemory
  | prunePublicSessions (currentWall : ℕ)
  | sweepDeviceEpochs (nowMs : ℕ)

def PanelRequest.ops : PanelRequest → List Op
  | .refreshCredentials => [.buildCredentials]
  | .dropPasswordSessions password =>
    [.send (.dropPassword password) false, .forgetPassword password]
  | .dropAllSessions => [.dropAll]
  | .notifyPanelRestart => [.send (.broadcastPlain panelRestartNotice) false]
  | .compactMemory => [.send .compactMemory false]
  | .prunePublicSessions currentWall => [.prune currentWall]
  | .sweepDeviceEpochs nowMs => [.sweepEpochs nowMs]

namespace World

def handleEvent (w : World) (currentWall : ℕ) : ControlEvent → World
  | .sessionCreated sessionId =>
    w.spawn .loop sessionId [.prune currentWall, .insertSession sessionId]
  | .sessionClosed _ sessionId _ =>
    w.spawn .loop sessionId [.closeStreams sessionId, .forget sessionId]
  | .payload _ sessionId payload => w.spawn .loop sessionId [.acquire (.payload payload)]
  | .ingressBeforeTunnel _ sessionId payload =>
      w.spawn .loop sessionId [.acquire (.ingress payload)]
  | .streamRepair => w
  | .ioCounters => w

def recv (w : World) (currentWall : ℕ) : World :=
  match w.engine.events with
  | [] => w
  | event :: events =>
    if w.tasks.any (·.kind = .loop) then w
    else (w.withEngine (w.engine.setEvents events)).handleEvent currentWall event

def takeCommand (w : World) (io : Engine.CommandIo) : World :=
  match w.commands with
  | [] => w
  | command :: commands =>
    { w with engine := w.engine.onCommand cfg.server command io, commands }

def runTask (w : World) (i : ℕ) (io : TaskIo) : World :=
  match w.tasks[i]? with
  | none => w
  | some t =>
    match t.ops with
    | [] => { w with tasks := w.tasks.eraseIdx i }
    | op :: ops =>
      let (w, t) := w.exec cfg { t with ops } io op
      { w with tasks := w.tasks.set i t }

inductive Input
  | udp (endpoint : EndpointKey) (wire : Bytes) (io : UdpIo)
  | tick (io : Engine.TickIo)
  | tun (packet : Bytes)
  | drain (io : ℕ → Engine.DrainIo)
  | ioCounters
  | restart (wallNow : ℕ)
  | command (io : Engine.CommandIo)
  | recv (currentWall : ℕ)
  | task (i : ℕ) (io : TaskIo)
  | panel (request : PanelRequest)
  | database (db : Database)
  | streamReceive (task : ℕ)
  | streamSend (sessionId : ℕ) (frame : Frame)
  | streamFinish (task : ℕ) (failed : Bool)

/-- The end of a stream sends an error if it failed, and a CLOSE. -/
def finishStream (w : World) (task : ℕ) (failed : Bool) : World :=
  w.setProxies (w.proxies.finish task failed w.room
    (w.commands.length + (if failed then 1 else 0) < commandCapacity))

def step (w : World) : Input → World
  | .udp endpoint wire io => w.withEngine (w.engine.onUdp cfg.server endpoint wire io)
  | .tick io => w.withEngine (w.engine.onTick cfg.server io)
  | .tun packet => w.withEngine (w.engine.handleTunPacket cfg.server packet)
  | .drain io => w.withEngine (w.engine.drainDownlink cfg.server io)
  | .ioCounters => w.withEngine (w.engine.queueEvent .ioCounters)
  | .restart wallNow => w.withEngine (w.engine.restart wallNow)
  | .command io => w.takeCommand cfg io
  | .recv currentWall => w.recv currentWall
  | .task i io => w.runTask cfg i io
  | .panel request => w.spawn .panel 0 request.ops
  | .database db => if w.writing then w else { w with db }
  | .streamReceive task => w.setProxies (w.proxies.receive task)
  | .streamSend sessionId frame => (w.command (.sendPlain sessionId (encodeFrame frame))).1
  | .streamFinish task failed => w.finishStream task failed

end World
end Csqtt
