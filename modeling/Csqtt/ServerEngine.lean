import Mathlib.Data.List.AList
import Csqtt.DownlinkQueue
import Csqtt.Slab
import Csqtt.ServerAntiReplay
import Csqtt.ServerEpoch
import Csqtt.ServerRoutes
import Csqtt.ServerWire

/-!
# The engine of the server

`ProtocolEngine`: the live sessions in a slab with their two indices, the routes, the queued
packets, the epochs of the devices. What it gives to the outside is kept in `sent`, `written` and
the queue of control events; the public parts of all sessions ever created are in `publics`. Random
numbers, clocks and buffers come with each input. Any stream control frame may come at any time,
and a packet may start at any endpoint of its address.
-/

namespace Csqtt

abbrev IpAddr := Bytes

structure SocketAddr where
  ip : IpAddr
  port : UInt16
  deriving DecidableEq

structure EndpointKey where
  peer : SocketAddr
  localIp : Option IpAddr
  deriving DecidableEq

structure Credential where
  password : Text
  key : Bytes
  deriving DecidableEq

def containsPassword (credentials : List Credential) (password : Text) : Bool :=
  credentials.any (·.password = password)

/-- The part of a session that the control plane sees. -/
structure PublicSession where
  address : SocketAddr
  password : Text
  identity : Identity
  workerId : ℕ
  desiredStreamCount : ℕ
  tunnelIp : Option Ipv4
  lastSeen : ℕ
  upBytes : ℕ
  downBytes : ℕ
  isSrtp : Bool
  hasTunnel : Bool

def noWorker : ℕ := 2 ^ 64 - 1

def PublicSession.new (address : SocketAddr) (password : Text) (identity : Identity) (isSrtp : Bool)
    (wallNow : ℕ) : PublicSession :=
  ⟨address, password, identity, noWorker, 0, none, wallNow, 0, 0, isSrtp, false⟩

namespace PublicSession

def setTunnel (p : PublicSession) (hasTunnel : Bool) : PublicSession := { p with hasTunnel }

def setIdentity (p : PublicSession) (identity : Identity) : PublicSession := { p with identity }

def activate (p : PublicSession) (ip : Ipv4) (desiredCount : ℕ) : PublicSession :=
  { p with tunnelIp := some ip, desiredStreamCount := desiredCount, hasTunnel := true }

def deactivate (p : PublicSession) : PublicSession :=
  { p with tunnelIp := none, hasTunnel := false }

end PublicSession

structure HotSession where
  id : ℕ
  peer : SocketAddr
  localIp : Option IpAddr
  password : Text
  identity : Identity
  key : Bytes
  output : ServerWire.OutState
  replay : ReplayState
  tunnelIp : Option Ipv4
  registrationId : Option ℕ
  desiredStreamCount : ℕ
  lastInboundMs : ℕ
  upTotal : ℕ
  downTotal : ℕ
  reportedUp : ℕ
  reportedDown : ℕ
  isSrtp : Bool
  pendingTunnel : Bool

namespace HotSession

def endpoint (s : HotSession) : EndpointKey := ⟨s.peer, s.localIp⟩

def setIdentity (s : HotSession) (identity : Identity) : HotSession := { s with identity }

def activate (s : HotSession) (ip : Ipv4) (registrationId desiredCount : ℕ) : HotSession :=
  { s with
    tunnelIp := some ip
    registrationId := some registrationId
    desiredStreamCount := desiredCount
    pendingTunnel := false }

def deactivate (s : HotSession) : HotSession :=
  { s with tunnelIp := none, registrationId := none, pendingTunnel := false }

def countUp (s : HotSession) (bytes : ℕ) : HotSession := { s with upTotal := s.upTotal + bytes }

def countDown (s : HotSession) (bytes : ℕ) : HotSession :=
  { s with downTotal := s.downTotal + bytes }

def published (s : HotSession) : HotSession :=
  { s with reportedUp := s.upTotal, reportedDown := s.downTotal }

/-- The session that an accepted datagram leaves: seen now, and at the address it came to. -/
def seen (s : HotSession) (replay : ReplayState) (monotonicMs : ℕ)
    (localIp : Option IpAddr) : HotSession :=
  { s with
    replay
    lastInboundMs := monotonicMs
    localIp := if localIp.isSome then localIp else s.localIp }

end HotSession

/-- What `publish_counters` adds to the public part. -/
def PublicSession.publish (p : PublicSession) (s : HotSession) (wallNow : ℕ) : PublicSession :=
  { p with
    upBytes := p.upBytes + (s.upTotal - s.reportedUp)
    downBytes := p.downBytes + (s.downTotal - s.reportedDown)
    lastSeen := wallNow }

inductive Command
  | sendPlain (sessionId : ℕ) (payload : Bytes)
  | broadcastPlain (payload : Bytes)
  | activateTunnel (sessionId : ℕ) (ip : Ipv4) (registrationId workerId desiredCount : ℕ)
  | deactivateTunnel (sessionId : ℕ)
  | injectTun (sessionId : ℕ) (payload : Bytes)
  | updateEpoch (sessionId : ℕ) (identity : Identity)
  | setAuthoritativeEpoch (identity : Identity)
  | disconnectDevice (deviceId : Text) (requesterSessionId : ℕ)
  | replaceCredentials (credentials : List Credential)
  | dropSession (sessionId : ℕ)
  | dropPassword (password : Text)
  | compactMemory
  deriving DecidableEq

inductive ControlEvent
  | sessionCreated (sessionId : ℕ)
  | sessionClosed (address : SocketAddr) (sessionId : ℕ) (reason : String)
  | payload (address : SocketAddr) (sessionId : ℕ) (payload : Bytes)
  | ingressBeforeTunnel (address : SocketAddr) (sessionId : ℕ) (payload : Bytes)
  | streamRepair
  | ioCounters
  deriving DecidableEq

structure Datagram where
  peer : SocketAddr
  source : Option IpAddr
  bytes : Bytes

structure Engine where
  credentials : List Credential
  epochs : AList fun _ : Text => EpochValue
  sessions : Slab HotSession
  byPeer : EndpointKey → Option ℕ
  byId : ℕ → Option ℕ
  routes : RouteTable
  downlink : DownlinkQueue
  publics : ℕ → Option PublicSession
  events : List ControlEvent
  written : List (ℕ × Bytes)
  sent : List Datagram
  nextId : ℕ
  monotonicMs : ℕ
  wallNow : ℕ
  setupBudget : ℕ
  memoryCompactPending : Bool
  lastMemoryCompactMs : ℕ
  lastSessionMaintenanceMs : ℕ
  lastEpochSweepMs : ℕ
  streamInventoryDirty : Bool
  credentialsSnapshot : List Credential
  epochsSnapshot : AList fun _ : Text => EpochValue

structure ServerConfig where
  prims : Primitives
  net : Subnet

/-- What a packet that is sent needs from outside: whether there is room for it, the buffer it is
written to, the random numbers and the time. -/
structure SendIo where
  room : Bool
  buffer : ServerWire.OutputBuf
  draws : Draws
  now : ℕ

/-- What a datagram needs from outside. -/
structure UdpIo where
  send : SendIo
  tunRoom : Bool
  output : ServerWire.OutState

def maxActiveSessions : ℕ := 3072

def controlEventCapacity : ℕ := 1024

def sessionSetupIdleMs : ℕ := 15000

def sessionAuthIdleMs : ℕ := 10 * 60 * 60 * 1000

def setupBudgetPerTick : ℕ := 1024

def sessionMaintenanceIntervalMs : ℕ := 1000

def memoryCompactIntervalMs : ℕ := 5000

def epochSweepIntervalMs : ℕ := 5 * 60000

def epochIdleTtlMs : ℕ := 60 * 60000

def streamControlCarriers : ℕ := 3

namespace Engine

variable (cfg : ServerConfig)

def start (credentials : List Credential) (wallNow : ℕ) : Engine where
  credentials
  epochs := ∅
  sessions := .empty
  byPeer _ := none
  byId _ := none
  routes := .empty
  downlink := {}
  publics _ := none
  events := []
  written := []
  sent := []
  nextId := 1
  monotonicMs := 1
  wallNow
  setupBudget := setupBudgetPerTick * 2
  memoryCompactPending := false
  lastMemoryCompactMs := 0
  lastSessionMaintenanceMs := 0
  lastEpochSweepMs := 0
  streamInventoryDirty := true
  credentialsSnapshot := credentials
  epochsSnapshot := ∅

/-- The next attempt after a failure: a new engine from the published credentials and epochs. The
queue of events and the counter of the sessions are those of before. -/
def restart (e : Engine) (wallNow : ℕ) : Engine :=
  { start e.credentialsSnapshot wallNow with
    epochs := e.epochsSnapshot
    publics := e.publics
    events := e.events
    written := e.written
    sent := e.sent
    nextId := e.nextId
    epochsSnapshot := e.epochsSnapshot }

def trySend (e : Engine) (event : ControlEvent) : Engine × Bool :=
  if e.events.length < controlEventCapacity then ({ e with events := e.events ++ [event] }, true)
  else (e, false)

def queueEvent (e : Engine) (event : ControlEvent) : Engine := (e.trySend event).1

def updatePublic (e : Engine) (id : ℕ) (f : PublicSession → PublicSession) : Engine :=
  { e with publics := Function.update e.publics id ((e.publics id).map f) }

def setRoutes (e : Engine) (routes : RouteTable) : Engine := { e with routes }

def setDownlink (e : Engine) (downlink : DownlinkQueue) : Engine := { e with downlink }

/-- Whether what `reconcile_streams` remembers of the sessions is out of date. -/
def setDirty (e : Engine) (dirty : Bool) : Engine := { e with streamInventoryDirty := dirty }

def setSession (e : Engine) (slot : ℕ) (s : HotSession) : Engine :=
  { e with sessions := e.sessions.modify slot fun _ => s }

/-- The lane of an address gets as many paths as the address has routes. -/
def syncDownlinkProfile (e : Engine) (ip : Option Ipv4) : Engine :=
  e.setDownlink
    (match ip.bind (RouteTable.routeIndex cfg.net) with
    | none => e.downlink
    | some key => e.downlink.configure key (e.routes key).length)

def workerId (e : Engine) (id : ℕ) : ℕ := ((e.publics id).map (·.workerId)).getD noWorker

/-- The session with the greatest id, the last one of several. -/
def maxById : List (ℕ × HotSession) → Option (ℕ × HotSession)
  | [] => none
  | entry :: rest =>
    match maxById rest with
    | none => some entry
    | some best => if best.2.id < entry.2.id then some entry else some best

/-- The session that takes over the route of a removed one. -/
def fallback (e : Engine) (s : HotSession) (ip : Ipv4) : Option (ℕ × HotSession) :=
  maxById (e.sessions.slots.filter fun entry =>
    entry.2.tunnelIp = some ip ∧ entry.2.registrationId.isSome ∧ entry.2.identity = s.identity ∧
      e.workerId entry.2.id = e.workerId s.id)

def unroute (e : Engine) (s : HotSession) (ip : Ipv4) (registrationId : ℕ) : Engine :=
  let (routes, removed) := RouteTable.unregister cfg.net e.routes ip registrationId
  let e := e.setRoutes routes
  match removed, e.fallback s ip with
  | true, some (slot, other) =>
    if e.workerId s.id < 65536 then
      (e.setRoutes (RouteTable.register cfg.net e.routes ip
        ⟨other.id, other.registrationId.getD 0, e.workerId s.id, slot⟩).1).updatePublic other.id
        (·.setTunnel true)
    else e
  | _, _ => e

/-- The session leaves the slab and both indices. -/
def unindex (e : Engine) (slot : ℕ) (s : HotSession) : Engine :=
  { e.updatePublic s.id (·.publish s e.wallNow) with
    sessions := e.sessions.remove slot
    memoryCompactPending := true
    streamInventoryDirty := true
    byPeer := Function.update e.byPeer s.endpoint none
    byId := Function.update e.byId s.id none }

def removeSlotWithReason (e : Engine) (slot : ℕ) (reason : String) : Engine :=
  match e.sessions.get slot with
  | none => e
  | some s =>
    let e := e.unindex slot s
    let e :=
      match s.tunnelIp, s.registrationId with
      | some ip, some registrationId =>
        (e.unroute cfg s ip registrationId).syncDownlinkProfile cfg (some ip)
      | _, _ => e
    (e.updatePublic s.id (·.setTunnel false)).queueEvent (.sessionClosed s.peer s.id reason)

def removeSlots (e : Engine) (slots : List ℕ) (reason : String) : Engine :=
  slots.reverse.foldl (fun e slot => e.removeSlotWithReason cfg slot reason) e

def staleSlots (e : Engine) (stale : HotSession → Bool) : List ℕ :=
  (e.sessions.slots.filter fun entry => stale entry.2).map (·.1)

/-- What `create_legacy_session` is told about the session. -/
structure NewSession where
  endpoint : EndpointKey
  password : Text
  key : Bytes
  payloadType : UInt8
  isSrtp : Bool
  identity : Identity
  replaySeq : UInt16

def NewSession.hot (n : NewSession) (id monotonicMs : ℕ) (output : ServerWire.OutState) :
    HotSession where
  id
  peer := n.endpoint.peer
  localIp := n.endpoint.localIp
  password := n.password
  identity := n.identity
  key := n.key
  output := { output with count := 0, payloadType := n.payloadType }
  replay := (ReplayState.accept {} n.replaySeq).1
  tunnelIp := none
  registrationId := none
  desiredStreamCount := 0
  lastInboundMs := monotonicMs
  upTotal := 0
  downTotal := 0
  reportedUp := 0
  reportedDown := 0
  isSrtp := n.isSrtp
  pendingTunnel := false

def index (e : Engine) (n : NewSession) (output : ServerWire.OutState) : Engine :=
  { e with
    sessions := e.sessions.insert (n.hot e.nextId e.monotonicMs output)
    byPeer := Function.update e.byPeer n.endpoint (some e.sessions.nextKey)
    byId := Function.update e.byId e.nextId (some e.sessions.nextKey)
    publics := Function.update e.publics e.nextId
      (some (.new n.endpoint.peer n.password n.identity n.isSrtp e.wallNow))
    streamInventoryDirty := true
    nextId := e.nextId + 1 }

def createLegacySession (e : Engine) (n : NewSession) (output : ServerWire.OutState) : Engine :=
  let e :=
    match e.byPeer n.endpoint with
    | some slot => e.removeSlotWithReason cfg slot "peer-replaced"
    | none => e
  (e.index n output).queueEvent (.sessionCreated e.nextId)

def createForGetconf (e : Engine) (n : NewSession) (output : ServerWire.OutState)
    (payload : Bytes) : Engine :=
  let created := e.createLegacySession cfg n output
  created.queueEvent (.payload n.endpoint.peer (created.nextId - 1) payload)

def sendUdp (e : Engine) (peer : SocketAddr) (source : Option IpAddr) (bytes : Bytes)
    (room : Bool) : Engine :=
  if room then { e with sent := e.sent ++ [⟨peer, source, bytes⟩] } else e

def findCredential (wire : Bytes) :
    List Credential → Option (Credential × ServerWire.DecodedPacket × Identity × Bytes)
  | [] => none
  | credential :: rest =>
    match ServerWire.unwrapLegacyInPlace (cfg.prims.keyed credential.key) wire none with
    | (_, .error _) => findCredential wire rest
    | (buffer, .ok decoded) =>
      let plain := Buffer.slice buffer decoded.start decoded.stop
      match parseGetconfEpoch plain with
      | none => findCredential wire rest
      | some identity => some (credential, decoded, identity, plain)

def spendSetup (e : Engine) : Engine := { e with setupBudget := e.setupBudget - 1 }

def handleUnknownLegacy (e : Engine) (endpoint : EndpointKey) (wire : Bytes) (io : UdpIo) :
    Engine :=
  if maxActiveSessions ≤ e.sessions.len ∨ serverPacketCapacity < wire.length ∨ e.setupBudget = 0
  then e
  else
    match findCredential cfg wire e.credentials with
    | none =>
      if 30 ≤ wire.length then
        e.spendSetup.sendUdp endpoint.peer endpoint.localIp (asciiBytes "DENIED:wrong_password")
          io.send.room
      else e.spendSetup
    | some (credential, decoded, identity, plain) =>
      e.spendSetup.createForGetconf cfg ⟨endpoint, credential.password, credential.key,
        decoded.payloadType, decoded.isSrtp, identity, decoded.seq⟩ io.output plain

/-- A packet for the peer of a session. -/
def sendPlain (e : Engine) (slot : ℕ) (plain : Bytes) (io : SendIo) : Engine × Bool :=
  match e.sessions.get slot with
  | none => (e, false)
  | some s =>
    if io.room then
      let (output, wrapped) := ServerWire.wrapLegacyInto (cfg.prims.keyed s.key) s.isSrtp s.output
        plain io.draws io.buffer io.now
      let e := e.setSession slot { s with output }
      match wrapped with
      | .error _ => (e, false)
      | .ok buffer =>
        ({ e with sent := e.sent ++ [⟨s.peer, s.localIp, buffer.asSlice⟩] }, true)
    else (e, false)

def writeTun (e : Engine) (slot : ℕ) (s : HotSession) (plain : Bytes) (room : Bool) : Engine :=
  if room then
    { e.setSession slot (s.countUp plain.length) with
      written := e.written ++ [(s.id, plain)] }
  else e

/-- What an accepted payload of a session does. -/
def dispatch (e : Engine) (slot : ℕ) (s : HotSession) (plain : Bytes) (io : UdpIo) : Engine :=
  if plain = sessionLease then e
  else if plain = ready then (e.sendPlain cfg slot readyOk io.send).1
  else if isIdleKeepalive plain then e
  else if isControlPayload plain then e.queueEvent (.payload s.peer s.id plain)
  else if s.tunnelIp.isSome && s.registrationId.isSome then e.writeTun slot s plain io.tunRoom
  else if s.pendingTunnel then e
  else
    let (sent, queued) := e.trySend (.ingressBeforeTunnel s.peer s.id plain)
    sent.setSession slot { s with pendingTunnel := queued }

def rekey (byPeer : EndpointKey → Option ℕ) (s : HotSession) (localIp : Option IpAddr) (slot : ℕ) :
    EndpointKey → Option ℕ :=
  if localIp.isSome ∧ s.localIp ≠ localIp then
    Function.update (Function.update byPeer s.endpoint none) ⟨s.peer, localIp⟩ (some slot)
  else byPeer

def receive (e : Engine) (slot : ℕ) (s : HotSession) (localIp : Option IpAddr) (seq : UInt16)
    (plain : Bytes) (io : UdpIo) : Engine :=
  match s.replay.accept seq with
  | (replay, false) => e.setSession slot { s with replay }
  | (replay, true) =>
    let seen := s.seen replay e.monotonicMs localIp
    { e.setSession slot seen with byPeer := rekey e.byPeer s localIp slot }.dispatch cfg slot seen
      plain io

def touchEpoch (e : Engine) (deviceId : Text) : Engine :=
  match e.epochs.lookup deviceId with
  | none => e
  | some epoch =>
    { e with epochs := e.epochs.insert deviceId { epoch with lastSeenMs := e.monotonicMs } }

def handleGetconf (e : Engine) (slot : ℕ) (s : HotSession) (localIp : Option IpAddr)
    (decoded : ServerWire.DecodedPacket) (incoming : Identity) (plain : Bytes) (io : UdpIo) :
    Engine :=
  match getconfReconnectActionHot (e.epochs.lookup incoming.deviceId) s.identity incoming with
  | .reject => e
  | .replace =>
    (e.removeSlotWithReason cfg slot "epoch-replaced").createForGetconf cfg
      ⟨⟨s.peer, if localIp.isSome then localIp else s.localIp⟩, s.password, s.key,
        decoded.payloadType, decoded.isSrtp, incoming, decoded.seq⟩ io.output plain
  | .process => e.receive cfg slot s localIp decoded.seq plain io

def handleExisting (e : Engine) (slot : ℕ) (localIp : Option IpAddr) (wire : Bytes) (io : UdpIo) :
    Engine :=
  match e.sessions.get slot with
  | none => e
  | some s =>
    match ServerWire.unwrapLegacyInPlace (cfg.prims.keyed s.key) wire (some s.isSrtp) with
    | (_, .error _) => e
    | (buffer, .ok decoded) =>
      let plain := Buffer.slice buffer decoded.start decoded.stop
      if isGetconf plain then
        match parseGetconfEpoch plain with
        | none => e
        | some incoming =>
          (e.touchEpoch incoming.deviceId).handleGetconf cfg slot s localIp decoded
            incoming plain io
      else e.receive cfg slot s localIp decoded.seq plain io

/-- The slot of the session a datagram is for: the one at its endpoint, or the one at its peer that
has no local address yet. -/
def slotFor (e : Engine) (endpoint : EndpointKey) : Option ℕ :=
  (e.byPeer endpoint).or
    (if endpoint.localIp.isSome then e.byPeer ⟨endpoint.peer, none⟩ else none)

def onUdp (e : Engine) (endpoint : EndpointKey) (wire : Bytes) (io : UdpIo) : Engine :=
  match e.slotFor endpoint with
  | some slot => e.handleExisting cfg slot endpoint.localIp wire io
  | none => e.handleUnknownLegacy cfg endpoint wire io

def activateTunnel (e : Engine) (sessionId : ℕ) (ip : Ipv4)
    (registrationId workerId desiredCount : ℕ) : Engine :=
  match e.byId sessionId with
  | none => e
  | some slot =>
    match e.sessions.get slot with
    | none => e
    | some s =>
      let routes :=
        match s.tunnelIp, s.registrationId with
        | some old, some registrationId =>
          (RouteTable.unregister cfg.net e.routes old registrationId).1
        | _, _ => e.routes
      let old := if s.registrationId.isSome then s.tunnelIp else none
      match RouteTable.register cfg.net routes ip ⟨sessionId, registrationId, workerId, slot⟩ with
      | (routes, false) => (e.setRoutes routes).syncDownlinkProfile cfg old
      | (routes, true) =>
        (((((e.setRoutes routes).setSession slot
          (s.activate ip registrationId desiredCount)).updatePublic
          s.id (·.activate ip desiredCount)).syncDownlinkProfile cfg old).syncDownlinkProfile cfg
            (some ip)).setDirty true

def removeTunnel (e : Engine) (sessionId : ℕ) : Engine :=
  match e.byId sessionId with
  | none => e
  | some slot =>
    match e.sessions.get slot with
    | none => e
    | some s =>
      let routes :=
        match s.tunnelIp, s.registrationId with
        | some ip, some registrationId =>
          (RouteTable.unregister cfg.net e.routes ip registrationId).1
        | _, _ => e.routes
      ((((e.setRoutes routes).setSession slot s.deactivate).updatePublic s.id
        (·.deactivate)).syncDownlinkProfile cfg s.tunnelIp).setDirty true

/-- What is queued for a session goes when the session is renamed. -/
def updateEpoch (e : Engine) (sessionId : ℕ) (identity : Identity) : Engine :=
  match e.byId sessionId with
  | none => e
  | some slot =>
    match e.sessions.get slot with
    | none => e
    | some s =>
      let replaced := if s.identity = identity then none else s.tunnelIp
      (((e.setSession slot (s.setIdentity identity)).updatePublic s.id
        (·.setIdentity identity)).setDownlink
          (match replaced.bind (RouteTable.routeIndex cfg.net) with
          | none => e.downlink
          | some key => e.downlink.clear key)).setDirty true

def setAuthoritativeEpoch (e : Engine) (identity : Identity) : Engine :=
  let e := e.removeSlots cfg (e.staleSlots fun s => sessionIsRetiredByEpoch s.identity identity)
    "authoritative-epoch-replaced"
  let epochs := e.epochs.insert identity.deviceId
    ⟨identity.generationId, identity.sessionSalt, e.monotonicMs⟩
  { e with epochs, epochsSnapshot := epochs }

def disconnectDevice (e : Engine) (deviceId : Text) (requester : ℕ) (io : SendIo) : Engine :=
  let e :=
    match e.byId requester with
    | none => e
    | some slot => (e.sendPlain cfg slot (asciiBytes "OK:disconnected") io).1
  e.removeSlots cfg (e.staleSlots fun s => s.id = requester ∨ s.identity.deviceId = deviceId)
    "device-disconnect"

def injectTun (e : Engine) (sessionId : ℕ) (payload : Bytes) (room : Bool) : Engine :=
  match e.byId sessionId with
  | none => e
  | some slot =>
    match e.sessions.get slot with
    | none => e
    | some s => e.writeTun slot s payload room

def rekeySlot (e : Engine) (s : HotSession) (slot : ℕ) : Engine :=
  { e with
    byPeer := Function.update e.byPeer s.endpoint (some slot)
    byId := Function.update e.byId s.id (some slot)
    routes :=
      match s.tunnelIp, s.registrationId with
      | some ip, some registrationId =>
        RouteTable.updateSlot cfg.net e.routes ip s.id registrationId slot
      | _, _ => e.routes }

def compactMemory (e : Engine) : Engine :=
  let (sessions, e) := e.sessions.compact (rekeySlot cfg) e
  { e with
    sessions
    memoryCompactPending := false
    streamInventoryDirty := true
    lastMemoryCompactMs := e.monotonicMs }

/-- A packet for each session; what they need from outside goes by the slot. -/
def broadcastPlain (e : Engine) (payload : Bytes) (io : ℕ → SendIo) : Engine :=
  (e.sessions.slots.map (·.1)).foldl (fun e slot => (e.sendPlain cfg slot payload (io slot)).1) e

/-- What a command needs from outside. -/
structure CommandIo where
  send : ℕ → SendIo
  tunRoom : Bool

def onCommand (e : Engine) (command : Command) (io : CommandIo) : Engine :=
  match command with
  | .sendPlain sessionId payload =>
    match e.byId sessionId with
    | none => e
    | some slot => (e.sendPlain cfg slot payload (io.send slot)).1
  | .broadcastPlain payload => e.broadcastPlain cfg payload io.send
  | .activateTunnel sessionId ip registrationId workerId desiredCount =>
    e.activateTunnel cfg sessionId ip registrationId workerId desiredCount
  | .deactivateTunnel sessionId => e.removeTunnel cfg sessionId
  | .injectTun sessionId payload => e.injectTun sessionId payload io.tunRoom
  | .updateEpoch sessionId identity => e.updateEpoch cfg sessionId identity
  | .setAuthoritativeEpoch identity => e.setAuthoritativeEpoch cfg identity
  | .disconnectDevice deviceId requester => e.disconnectDevice cfg deviceId requester (io.send 0)
  | .replaceCredentials credentials =>
    { e.removeSlots cfg (e.staleSlots fun s => !containsPassword credentials s.password)
      "credential-removed" with credentials }
  | .dropSession sessionId =>
    match e.byId sessionId with
    | none => e
    | some slot => e.removeSlotWithReason cfg slot "requested-session-drop"
  | .dropPassword password =>
    e.removeSlots cfg (e.staleSlots fun s => s.password = password) "credential-removed"
  | .compactMemory => e.compactMemory cfg

/-- A frame that `reconcile_streams` chose, the slots it goes to and whether it asks for a repair.
-/
structure StreamControl where
  carriers : List (ℕ × SendIo)
  payload : Bytes
  repair : Bool

def sendCarriers (e : Engine) (payload : Bytes) : ℕ → List (ℕ × SendIo) → Engine
  | _, [] => e
  | sent, (slot, io) :: carriers =>
    if streamControlCarriers ≤ sent then e
    else
      match e.sendPlain cfg slot payload io with
      | (e, true) => sendCarriers e payload (sent + 1) carriers
      | (e, false) => sendCarriers e payload sent carriers

def sendStreamControl (e : Engine) (control : StreamControl) : Engine :=
  let e := e.sendCarriers cfg control.payload 0 control.carriers
  if control.repair then e.queueEvent .streamRepair else e

/-- What a tick needs from outside: the clocks, whether `reconcile_streams` reads the sessions
again, the frames of the streams and whether the slab has too much room. -/
structure TickIo where
  monotonicMs : ℕ
  wallNow : ℕ
  rebuilt : Bool
  control : List StreamControl
  spacious : Bool

def hotSessionIdleReason (isAuthenticated : Bool) : String :=
  if isAuthenticated then "authenticated-idle-10h" else "setup-idle-15s"

def isIdle (monotonicMs : ℕ) (s : HotSession) : Bool :=
  (s.registrationId.isNone && sessionSetupIdleMs ≤ monotonicMs - s.lastInboundMs) ||
    (s.registrationId.isSome && sessionAuthIdleMs ≤ monotonicMs - s.lastInboundMs)

def publishSessions (e : Engine) : Engine :=
  { e with sessions := e.sessions.map HotSession.published }

def publishAll (e : Engine) : Engine :=
  (e.sessions.slots.foldl (fun e entry => e.updatePublic entry.2.id (·.publish entry.2 e.wallNow))
    e).publishSessions

def removeIdle (e : Engine) : Engine :=
  (e.staleSlots (isIdle e.monotonicMs)).reverse.foldl
    (fun e slot => e.removeSlotWithReason cfg slot
      (hotSessionIdleReason ((e.sessions.get slot).any (·.registrationId.isSome)))) e

def maintainSessions (e : Engine) : Engine :=
  if sessionMaintenanceIntervalMs ≤ e.monotonicMs - e.lastSessionMaintenanceMs then
    let e := e.publishAll.removeIdle cfg
    { e with lastSessionMaintenanceMs := e.monotonicMs }
  else e

/-- The entries of a map that meet a condition. -/
def retain {β : Type} (m : AList fun _ : Text => β) (keep : Text → β → Bool) :
    AList fun _ : Text => β where
  entries := m.entries.filter fun entry => keep entry.1 entry.2
  nodupKeys := m.nodupKeys.sublist List.filter_sublist

def sweepIdleEpochs (e : Engine) : Engine :=
  if e.monotonicMs - e.lastEpochSweepMs < epochSweepIntervalMs then e
  else
    let epochs := retain e.epochs fun deviceId epoch =>
      e.sessions.values.any (fun s => s.identity.deviceId ≠ [] ∧ s.identity.deviceId = deviceId) ||
        e.monotonicMs - epoch.lastSeenMs < epochIdleTtlMs
    { e with
      lastEpochSweepMs := e.monotonicMs
      epochs
      epochsSnapshot :=
        if epochs.entries.length ≠ e.epochs.entries.length then epochs else e.epochsSnapshot }

def tickClocks (e : Engine) (io : TickIo) : Engine :=
  { e with
    monotonicMs := io.monotonicMs + 1
    wallNow := io.wallNow
    setupBudget := setupBudgetPerTick }

def maintainMemory (e : Engine) (spacious : Bool) : Engine :=
  if e.memoryCompactPending ∧ memoryCompactIntervalMs ≤ e.monotonicMs - e.lastMemoryCompactMs then
    if spacious then e.compactMemory cfg else { e with memoryCompactPending := false }
  else e

def beforeStreams (e : Engine) (io : TickIo) : Engine := (e.tickClocks io).maintainSessions cfg

def rebuildStreams (e : Engine) (rebuilt : Bool) : Engine :=
  e.setDirty (e.streamInventoryDirty && !rebuilt)

def afterStreams (e : Engine) (io : TickIo) : Engine :=
  let e := io.control.foldl (sendStreamControl cfg) e
  e.sweepIdleEpochs.maintainMemory cfg io.spacious

def onTick (e : Engine) (io : TickIo) : Engine :=
  ((e.beforeStreams cfg io).rebuildStreams io.rebuilt).afterStreams cfg io

/-- Whether a packet for the tunnel network went out, or could not, or its endpoint is no more. -/
inductive DownlinkSend
  | sent
  | stale
  | backpressured
  deriving DecidableEq

def countDown (e : Engine) (slot : ℕ) (bytes : ℕ) : Engine :=
  match e.sessions.get slot with
  | none => e
  | some s => e.setSession slot (s.countDown bytes)

def sendDownEndpoint (e : Engine) (endpoint : RouteEndpoint) (packet : Bytes) (io : SendIo) :
    Engine × DownlinkSend :=
  match e.sessions.get endpoint.slot with
  | none => (e, .stale)
  | some s =>
    if s.id ≠ endpoint.sessionId ∨ s.registrationId ≠ some endpoint.registrationId then (e, .stale)
    else
      match e.sendPlain cfg endpoint.slot packet io with
      | (e, true) => (e.countDown endpoint.slot packet.length, .sent)
      | (e, false) => (e, .backpressured)

def sendDownLoop (e : Engine) (packet : Bytes) (io : SendIo) :
    List RouteEndpoint → Engine × DownlinkSend
  | [] => (e, .stale)
  | endpoint :: endpoints =>
    match e.sendDownEndpoint cfg endpoint packet io with
    | (e, .stale) => sendDownLoop e packet io endpoints
    | result => result

/-- A packet for an address of the tunnel network; the endpoints are tried from `start` on. -/
def sendDownKey (e : Engine) (key : UInt8) (start : ℕ) (packet : Bytes) (io : SendIo) :
    Engine × DownlinkSend :=
  e.sendDownLoop cfg packet io ((e.routes key).rotate start)

def handleTunPacket (e : Engine) (packet : Bytes) : Engine :=
  e.setDownlink
    (match RouteTable.packetKey cfg.net packet with
    | none => e.downlink
    | some key => (e.downlink.enqueue key (packetClass packet) packet).1)

/-- What a queued packet needs from outside when it is sent: whether there is a slot for a datagram,
the endpoint it starts at, and the rest. -/
structure DrainIo where
  slot : Bool
  start : ℕ
  send : SendIo

def downlinkDrainPacketLimit : ℕ := 128

/-- The packets of a class are sent, at most `remaining`; then how many more may be sent, and
whether the end is reached. -/
def drainClass (c : PacketClass) (io : ℕ → DrainIo) : ℕ → Engine → Engine × ℕ × Bool
  | 0, e => (e, 0, false)
  | remaining + 1, e =>
    if (io remaining).slot then
      match e.downlink.dequeue c with
      | (downlink, none) => (e.setDownlink downlink, remaining + 1, false)
      | (downlink, some (key, packet)) =>
        match (e.setDownlink downlink).sendDownKey cfg key (io remaining).start packet
          (io remaining).send with
        | (e, .backpressured) =>
          (e.setDownlink (e.downlink.requeueFront key c packet), remaining + 1, true)
        | (e, _) => drainClass c io remaining (e.setDownlink (e.downlink.recycle key c))
    else (e, remaining + 1, true)

def drainClasses (io : ℕ → DrainIo) : List PacketClass → ℕ → Engine → Engine
  | [], _, e => e
  | c :: classes, remaining, e =>
    match drainClass cfg c io remaining e with
    | (e, _, true) => e
    | (e, remaining, false) => drainClasses io classes remaining e

def drainDownlink (e : Engine) (io : ℕ → DrainIo) : Engine :=
  drainClasses cfg io [.latency, .priority, .bulk] downlinkDrainPacketLimit e

end Engine
end Csqtt
