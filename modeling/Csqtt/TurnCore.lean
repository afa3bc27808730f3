import Csqtt.TurnMessages
import Mathlib.Data.List.Basic

/-!
# The TURN core of the client

The state machine behind `NativeCore`. It does no input or output of its own: packets wait in
`controls` and events in `events` until the driver pulls them; times, in nanoseconds, and the random
transactions come with every call.
-/

namespace Csqtt
namespace Turn

open Buffer Stun

def resultBufferTooSmall : ℤ := -2
def resultInvalidArgument : ℤ := -3
def resultClosed : ℤ := -4
def resultNotControl : ℤ := -5
def resultTimeout : ℤ := -6
def resultAuthentication : ℤ := -7
def resultProtocol : ℤ := -8

def millis (n : ℕ) : ℕ := n * 1000000

def secs (n : ℕ) : ℕ := n * 1000000000

def controlCapacity : ℕ := 16
def eventCapacity : ℕ := 64
def initialRto : ℕ := millis 200
def maxRto : ℕ := millis 1600
def maxTransmissions : ℕ := 7
def streamTransactionTimeout : ℕ := secs 12
def requestedAllocationLifetimeSecs : ℕ := 600
def maintenanceRetryBase : ℕ := secs 1
def maintenanceRetryMax : ℕ := secs 30
def maxChannelMaintenanceFailures : ℕ := 4
def channelNumber : ℕ := 0x4000
def pullBufferSize : ℕ := 1024

inductive TurnState
  | null
  | allocating
  | ready
  | deallocating
  | deallocated
  | destroying
  deriving DecidableEq

inductive EventKind
  | state
  | requestComplete
  | channelBound
  | relayAddress
  | controlOverflow
  | forcedDestroy
  | eventOverflow
  | stunResponseError
  | channelRebindExhausted
  deriving DecidableEq

inductive TurnControlTransport
  | datagram
  | stream
  deriving DecidableEq

structure CsqttTurnProfile where
  allocationRefresh : ℕ
  maintenanceRefresh : ℕ
  keepaliveInterval : ℕ
  maxNonceRetries : ℕ

def CsqttTurnProfile.pjnathCompat : CsqttTurnProfile := ⟨secs 300, secs 175, secs 10, 3⟩

structure NativeAddress where
  family : UInt8 := 0
  port : UInt16 := 0
  ip : Bytes := List.replicate 16 0
  deriving DecidableEq

def NativeAddress.fromSocketAddr (a : SocketAddr) : NativeAddress where
  family := match a.family with | .v4 => 4 | .v6 => 6
  port := a.port
  ip := a.ip ++ List.replicate (16 - a.ip.length) 0

structure NativeEvent where
  kind : EventKind
  method : ℕ := 0
  status : ℤ := 0
  stunCode : ℕ := 0
  state : TurnState := .null
  previousState : TurnState := .null
  dropped : ℕ := 0
  channel : ℕ := 0
  address : NativeAddress := {}
  deriving DecidableEq

inductive Operation
  | allocate
  | refresh
  | deallocate
  | permission
  | channel
  deriving DecidableEq

def Operation.method : Operation → ℕ
  | .allocate => 3
  | .refresh => 4
  | .deallocate => 4
  | .permission => 8
  | .channel => 9

structure Pending where
  operation : Operation
  transaction : TransactionId
  packet : Bytes
  nextAttempt : ℕ
  rto : ℕ
  transmissions : ℕ
  nonceRetries : ℕ
  authenticated : Bool
  deriving DecidableEq

/-- The request that a response is for. -/
def Pending.answeredBy (m : Message) (p : Pending) : Bool :=
  p.transaction = m.transaction ∧ p.operation.method = m.method.toNat

structure Control where
  packet : Bytes
  destination : SocketAddr

/-- Why the packet of a request is queued. -/
inductive Cause
  | start
  | again
  | renewal
  deriving DecidableEq

/-- `NativeCore` with its `Inner`. `requests` is a log of the requests whose packets were queued,
which no code reads. -/
structure NativeCore where
  server : SocketAddr
  peer : SocketAddr
  username : Bytes
  password : Bytes
  realm : Option Bytes
  nonce : Option Bytes
  key : Option Bytes
  state : TurnState
  relay : Option SocketAddr
  channel : Option ℕ
  controls : List Control
  events : List NativeEvent
  pending : List Pending
  allocationRefresh : Option ℕ
  allocationExpiresAt : Option ℕ
  maintenanceRefresh : Option ℕ
  permissionRetry : Option ℕ
  channelRetry : Option ℕ
  refreshFailures : ℕ
  permissionFailures : ℕ
  channelFailures : ℕ
  keepalive : Option ℕ
  shuttingDown : Bool
  destroyed : Bool
  profile : CsqttTurnProfile
  transport : TurnControlTransport
  requests : List (Operation × Cause) := []

/-- What `start_operation` takes from outside. -/
structure Draw where
  transaction : TransactionId
  instant : ℕ

/-- What a call takes from outside. No call starts an operation twice. -/
structure TurnIo where
  now : ℕ
  draw : Operation → Draw

def isDue (now : ℕ) (deadline : Option ℕ) : Bool := deadline.any (· ≤ now)

/-- `push_event` on the queue: a full queue loses its oldest event, and the new one becomes a
notice. -/
def pushEvent (events : List NativeEvent) (event : NativeEvent) : List NativeEvent :=
  if events.length = eventCapacity then
    events.drop 1 ++ [{ kind := .eventOverflow, status := resultBufferTooSmall, dropped := 1 }]
  else events ++ [event]

def allocationRefreshDeadline (now : ℕ) (lifetime : Option ℕ) (interval : ℕ) : ℕ :=
  now + max (min interval (secs (lifetime.getD requestedAllocationLifetimeSecs) / 2)) (millis 500)

def retryDelay (failures : ℕ) : ℕ :=
  min (maintenanceRetryBase * 2 ^ min (failures - 1) 5) maintenanceRetryMax

def requiresAllocationRecreate (operation : Operation) (code : ℕ) : Bool :=
  code = 437 ∨ (operation = .channel ∧ code = 400)

namespace NativeCore

def create (server : SocketAddr) (username password : Bytes) (peer : SocketAddr)
    (profile : CsqttTurnProfile) (transport : TurnControlTransport) : Except TurnError NativeCore :=
  if server.port = 0 ∨ peer.port = 0 then
    .error (.refused "TURN core create" resultInvalidArgument)
  else if username = [] ∨ 512 < username.length ∨ password = [] ∨ 512 < password.length then
    .error (.refused "TURN core create" resultInvalidArgument)
  else
    .ok {
      server, peer, username, password, profile, transport
      realm := none
      nonce := none
      key := none
      state := .null
      relay := none
      channel := none
      controls := []
      events := []
      pending := []
      allocationRefresh := none
      allocationExpiresAt := none
      maintenanceRefresh := none
      permissionRetry := none
      channelRetry := none
      refreshFailures := 0
      permissionFailures := 0
      channelFailures := 0
      keepalive := none
      shuttingDown := false
      destroyed := false }

def push (c : NativeCore) (event : NativeEvent) : NativeCore :=
  { c with events := pushEvent c.events event }

def setState (c : NativeCore) (state : TurnState) : NativeCore :=
  if c.state = state then c
  else { c with state }.push { kind := .state, state, previousState := c.state }

def setAuth (prims : Primitives) (c : NativeCore) (realm nonce : Bytes) : NativeCore :=
  { c with
    key := some (prims.md5 (c.username ++ [0x3a] ++ realm ++ [0x3a] ++ c.password))
    realm := some realm
    nonce := some nonce }

def hasOperation (c : NativeCore) (operation : Operation) : Bool :=
  c.pending.any (·.operation = operation)

def queuePacket (c : NativeCore) (packet : Bytes) : NativeCore :=
  let control : Control := ⟨packet, c.server⟩
  if c.controls.length = controlCapacity then
    { c with controls := c.controls.drop 1 ++ [control] }.push
      { kind := .controlOverflow, status := resultBufferTooSmall, dropped := 1 }
  else { c with controls := c.controls ++ [control] }

/-- `queue_packet` with the packet of a request, which goes into the log. -/
def queueRequest (c : NativeCore) (packet : Bytes) (operation : Operation) (cause : Cause) :
    NativeCore :=
  { c.queuePacket packet with requests := c.requests ++ [(operation, cause)] }

def queueKeepalive (c : NativeCore) : NativeCore :=
  match c.channel with
  | none => c
  | some channel =>
    c.queuePacket (BigEndian.encode 2 channel ++ BigEndian.encode 2 1 ++ [0xff, 0, 0, 0])

def transactionTimeout (c : NativeCore) : ℕ :=
  match c.transport with
  | .datagram => initialRto
  | .stream => streamTransactionTimeout

def requestBody (c : NativeCore) (operation : Operation) (transaction : TransactionId) :
    MessageBuilder :=
  let builder := MessageBuilder.withTransaction operation.method transaction
  match operation with
  | .allocate =>
    ((builder.push attrRequestedTransport [17, 0, 0, 0]).push attrRequestedAddressFamily
      [c.peer.family.code, 0, 0, 0]).push attrLifetime
        (BigEndian.encode 4 requestedAllocationLifetimeSecs)
  | .refresh => builder.push attrLifetime (BigEndian.encode 4 requestedAllocationLifetimeSecs)
  | .deallocate => builder.push attrLifetime (BigEndian.encode 4 0)
  | .permission => builder.pushXorAddress attrXorPeerAddress c.peer
  | .channel =>
    (builder.push attrChannelNumber [0x40, 0, 0, 0]).pushXorAddress attrXorPeerAddress c.peer

def buildRequest (prims : Primitives) (c : NativeCore) (operation : Operation)
    (transaction : TransactionId) (authenticated : Bool) : Except TurnError Bytes :=
  let builder := c.requestBody operation transaction
  if authenticated then
    let builder := ((builder.push attrUsername c.username).push attrRealm (c.realm.getD [])).push
      attrNonce (c.nonce.getD [])
    match c.key with
    | none => .error .missingKey
    | some key => builder.finishAuthenticated prims key
  else builder.finish prims

/-- What `start_operation` does with the packet that it has built. -/
def launch (c : NativeCore) (operation : Operation) (authenticated : Bool) (nonceRetries : ℕ)
    (cause : Cause) (draw : Draw) (packet : Bytes) : NativeCore :=
  { c.queueRequest packet operation cause with
    pending := c.pending ++ [{
      operation, packet, nonceRetries, authenticated
      transaction := draw.transaction
      nextAttempt := draw.instant + c.transactionTimeout
      rto := initialRto
      transmissions := 1 }] }

/-- A failure leaves the core as it is. A repeated ChannelBind sends its packet again. `cause` says
who calls, for the log only. -/
def startOperation (prims : Primitives) (c : NativeCore) (operation : Operation)
    (authenticated : Bool) (nonceRetries : ℕ) (cause : Cause) (draw : Draw) :
    Except TurnError NativeCore :=
  if c.hasOperation operation then
    .ok (if operation = .channel then
        match c.pending.find? (·.operation = operation) with
        | some p => c.queuePacket p.packet
        | none => c
      else c)
  else if authenticated ∧ (c.realm.isNone ∨ c.nonce.isNone ∨ c.key.isNone) then
    .error .incompleteAuthentication
  else
    (c.buildRequest prims operation draw.transaction authenticated).map
      (c.launch operation authenticated nonceRetries cause draw)

def removeQueuedTransaction (c : NativeCore) (transaction : TransactionId) : NativeCore :=
  { c with controls := c.controls.filter fun control =>
      ¬ (20 ≤ control.packet.length ∧ slice control.packet 8 20 = transaction.bytes) }

def complete (c : NativeCore) (operation : Operation) (status : ℤ) (stunCode : ℕ) : NativeCore :=
  c.push {
    kind := .requestComplete
    method := operation.method
    status, stunCode
    state := c.state
    channel := c.channel.getD 0
    address := (c.relay.map NativeAddress.fromSocketAddr).getD {} }

def destroyAllocation (c : NativeCore) (operation : Operation) (status : ℤ) (stunCode : ℕ) :
    NativeCore :=
  let cleared := { c.complete operation status stunCode with
    controls := []
    pending := []
    channel := none
    allocationRefresh := none
    allocationExpiresAt := none
    maintenanceRefresh := none
    permissionRetry := none
    channelRetry := none
    keepalive := none
    relay := none }
  cleared.setState (if operation = .deallocate then .deallocated else .destroying)

def destroyAfterChannelRebindExhausted (c : NativeCore) : NativeCore :=
  ({ c with
    controls := []
    pending := []
    channel := none
    maintenanceRefresh := none
    permissionRetry := none
    channelRetry := none
    keepalive := none }.push {
      kind := .channelRebindExhausted
      status := resultTimeout
      state := .destroying }).setState .destroying

/-- The second component is false if the channel has failed too often. -/
def scheduleMaintenanceRetry (c : NativeCore) (operation : Operation) (now : ℕ) :
    NativeCore × Bool :=
  match operation with
  | .refresh =>
    let failures := min (c.refreshFailures + 1) 255
    ({ c with
        refreshFailures := failures
        allocationRefresh := some (now + retryDelay failures) }, true)
  | .permission =>
    let failures := min (c.permissionFailures + 1) 255
    ({ c with
        permissionFailures := failures
        permissionRetry := some (now + retryDelay failures) }, true)
  | .channel =>
    let failures := min (c.channelFailures + 1) 255
    if maxChannelMaintenanceFailures ≤ failures then ({ c with channelFailures := failures }, false)
    else
      ({ c with
          channelFailures := failures
          channelRetry := some (now + retryDelay failures) }, true)
  | .allocate => (c, true)
  | .deallocate => (c, true)

def completeFailure (c : NativeCore) (operation : Operation) (status : ℤ) (stunCode now : ℕ) :
    NativeCore :=
  if operation ∈ [.refresh, .permission, .channel] ∧ c.state = .ready ∧
      c.allocationExpiresAt.any (now < ·) then
    match (c.complete operation status stunCode).scheduleMaintenanceRetry operation now with
    | (c, true) => c
    | (c, false) => c.destroyAfterChannelRebindExhausted
  else c.destroyAllocation operation status stunCode

def lifetimeSecs (returned : Option ℕ) : ℕ := returned.getD requestedAllocationLifetimeSecs

def refreshed (c : NativeCore) (returned : Option ℕ) (now : ℕ) : NativeCore :=
  { c with
    allocationRefresh := some (allocationRefreshDeadline now returned c.profile.allocationRefresh)
    allocationExpiresAt := some (now + secs (lifetimeSecs returned))
    refreshFailures := 0 }

def allocated (c : NativeCore) (relay : SocketAddr) (returned : Option ℕ) (now : ℕ) : NativeCore :=
  { c.refreshed returned now with
    relay := some relay
    maintenanceRefresh := some (now + c.profile.maintenanceRefresh)
    keepalive := some (now + c.profile.keepaliveInterval) }.push {
      kind := .relayAddress
      address := .fromSocketAddr relay }

/-- A core that is shutting down gives its new allocation back. -/
def enterAllocation (prims : Primitives) (c : NativeCore) (io : TurnIo) :
    NativeCore × Except TurnError Unit :=
  if c.shuttingDown then
    let c := c.setState .deallocating
    match c.startOperation prims .deallocate true 0 .start (io.draw .deallocate) with
    | .error e => (c, .error e)
    | .ok c => (c, .ok ())
  else ((c.setState .ready).complete .allocate 0 0, .ok ())

def completeSuccess (prims : Primitives) (c : NativeCore) (operation : Operation) (m : Message)
    (io : TurnIo) : NativeCore × Except TurnError Unit :=
  let returned := attributeU32 m attrLifetime
  match operation with
  | .allocate =>
    match m.attributeOf attrXorRelayedAddress with
    | none => (c, .error .noRelayedAddress)
    | some a =>
      match decodeXorAddress a.value m.transaction with
      | .error e => (c, .error e)
      | .ok relay =>
        if relay.family ≠ c.peer.family ∨ relay.port = 0 then (c, .error .invalidRelayedAddress)
        else if lifetimeSecs returned = 0 then (c, .error .zeroAllocateLifetime)
        else (c.allocated relay returned io.now).enterAllocation prims io
  | .refresh =>
    if lifetimeSecs returned = 0 then (c, .error .zeroRefreshLifetime)
    else ((c.refreshed returned io.now).complete operation 0 0, .ok ())
  | .deallocate =>
    if returned.getD 0 ≠ 0 then (c, .error .nonzeroDeallocationLifetime)
    else
      (({ c with
          relay := none
          allocationRefresh := none
          allocationExpiresAt := none }.complete operation 0 0).setState .deallocated, .ok ())
  | .permission => ({ c with permissionFailures := 0 }.complete operation 0 0, .ok ())
  | .channel =>
    (({ c with
        channel := some channelNumber
        channelFailures := 0 }.push {
          kind := .channelBound
          channel := channelNumber
          address := .fromSocketAddr c.peer }).complete operation 0 0, .ok ())

/-- The two branches of `expire_transactions` that give a request up. -/
def giveUp (c : NativeCore) (index : ℕ) (p : Pending) (now : ℕ) : NativeCore :=
  ({ c with pending := c.pending.eraseIdx index }.removeQueuedTransaction
    p.transaction).completeFailure
    p.operation resultTimeout 0 now

def retransmit (c : NativeCore) (index : ℕ) (p : Pending) (now : ℕ) : NativeCore :=
  let rto := min (p.rto * 2) maxRto
  { c.queueRequest p.packet p.operation .again with
    pending := c.pending.set index
      { p with transmissions := p.transmissions + 1, rto, nextAttempt := now + rto } }

/-- The loop of `expire_transactions`. A round passes a request or gives it up. -/
def expireFrom (now : ℕ) : ℕ → ℕ → NativeCore → NativeCore
  | 0, _, c => c
  | fuel + 1, index, c =>
    match c.pending[index]? with
    | none => c
    | some p =>
      if now < p.nextAttempt then expireFrom now fuel (index + 1) c
      else if maxTransmissions ≤ p.transmissions then
        expireFrom now fuel index (c.giveUp index p now)
      else if c.transport = .stream then expireFrom now fuel index (c.giveUp index p now)
      else expireFrom now fuel (index + 1) (c.retransmit index p now)

def expireTransactions (c : NativeCore) (now : ℕ) : NativeCore :=
  expireFrom now c.pending.length 0 c

def requireOpen (c : NativeCore) (operation : String) : Except TurnError Unit :=
  if c.destroyed ∨ c.shuttingDown then .error (.refused operation resultClosed) else .ok ()

def requireReady (c : NativeCore) (operation : String) : Except TurnError Unit :=
  match c.requireOpen operation with
  | .error e => .error e
  | .ok () =>
    if c.state ≠ .ready then .error (.refused operation resultInvalidArgument) else .ok ()

/-- A call that ends with `start_operation`. -/
def tryStart (prims : Primitives) (c : NativeCore) (operation : Operation) (authenticated : Bool)
    (io : TurnIo) : NativeCore × Except TurnError Unit :=
  match c.startOperation prims operation authenticated 0 .start (io.draw operation) with
  | .error e => (c, .error e)
  | .ok c => (c, .ok ())

def startAllocation (prims : Primitives) (c : NativeCore) (io : TurnIo) :
    NativeCore × Except TurnError Unit :=
  match c.requireOpen "TURN Allocate start" with
  | .error e => (c, .error e)
  | .ok () =>
    if c.state ≠ .null then (c, .error (.refused "TURN Allocate start" resultInvalidArgument))
    else (c.setState .allocating).tryStart prims .allocate false io

def startChannel (prims : Primitives) (c : NativeCore) (io : TurnIo) :
    NativeCore × Except TurnError Unit :=
  match c.requireReady "TURN ChannelBind start" with
  | .error e => (c, .error e)
  | .ok () => c.tryStart prims .channel true io

def startPermission (prims : Primitives) (c : NativeCore) (io : TurnIo) :
    NativeCore × Except TurnError Unit :=
  match c.requireReady "TURN CreatePermission start" with
  | .error e => (c, .error e)
  | .ok () => c.tryStart prims .permission true io

def errorEvent (c : NativeCore) (m : Message) (status : ℤ) (stunCode : ℕ) : NativeEvent :=
  { kind := .stunResponseError, method := m.method.toNat, status, stunCode, state := c.state }

/-- The realm and the nonce of a challenge. A stale nonce may come without the realm. -/
def challenge (c : NativeCore) (m : Message) (code : ℕ) : Option (Bytes × Bytes) :=
  (((m.attributeOf attrRealm).map (·.value)).or
    (if code = 438 then c.realm else none)).bind fun realm =>
    (m.attributeOf attrNonce).map fun nonce => (realm, nonce.value)

/-- A challenge is answered with a new request. The second component is false if it is not. -/
def reauthenticate (prims : Primitives) (c : NativeCore) (m : Message) (p : Pending) (code : ℕ)
    (io : TurnIo) : NativeCore × Bool :=
  if code ∈ [401, 438] ∧ p.nonceRetries < c.profile.maxNonceRetries then
    match c.challenge m code with
    | some (realm, nonce) =>
      let c := c.setAuth prims realm nonce
      match c.startOperation prims p.operation true (p.nonceRetries + 1) .renewal
        (io.draw p.operation) with
      | .ok c => (c, true)
      | .error _ => (c, false)
    | none => (c, false)
  else (c, false)

/-- What `input_stun` does with an error response. -/
def onError (prims : Primitives) (c : NativeCore) (m : Message) (p : Pending) (io : TurnIo) :
    NativeCore :=
  let code := (errorCode m).getD 0
  if code = 0 then
    (c.push (c.errorEvent m resultProtocol 0)).completeFailure p.operation resultProtocol 0 io.now
  else if requiresAllocationRecreate p.operation code then
    (c.push (c.errorEvent m 0 code)).destroyAllocation p.operation resultProtocol code
  else
    match c.reauthenticate prims m p code io with
    | (c, true) => c
    | (c', false) =>
      (c'.push (c.errorEvent m 0 code)).completeFailure p.operation resultProtocol code io.now

def applySuccess (prims : Primitives) (c : NativeCore) (m : Message) (p : Pending) (io : TurnIo) :
    NativeCore × ℤ :=
  match c.completeSuccess prims p.operation m io with
  | (c, .ok ()) => (c, 0)
  | (c, .error _) => (c.completeFailure p.operation resultProtocol 0 io.now, resultProtocol)

/-- What `input_stun` does once a response is taken and its request is removed. -/
def onResponse (prims : Primitives) (c : NativeCore) (m : Message) (p : Pending) (io : TurnIo) :
    NativeCore × ℤ :=
  if m.messageClass = .success ∧ p.authenticated = false then
    (c.completeFailure p.operation resultAuthentication 0 io.now, resultAuthentication)
  else if m.messageClass = .error then (c.onError prims m p io, 0)
  else c.applySuccess prims m p io

/-- A response to an authenticated request that is not authenticated itself. -/
def isForged (prims : Primitives) (c : NativeCore) (packet : Bytes) (m : Message) (p : Pending) :
    Bool :=
  p.authenticated && responseRequiresIntegrity m && !verifyIntegrity prims packet m c.key &&
    !isFingerprintedAllocationMismatch prims m

def reportForged (c : NativeCore) (m : Message) : NativeCore :=
  if m.messageClass = .error then
    match errorCode m with
    | some code => c.push (c.errorEvent m resultAuthentication code)
    | none => c
  else c

/-- The core without the request that a response is for. -/
def answered (c : NativeCore) (m : Message) : NativeCore :=
  { c with pending := c.pending.eraseP (·.answeredBy m) }.removeQueuedTransaction m.transaction

def inputStun (prims : Primitives) (c : NativeCore) (packet : Bytes) (io : TurnIo) :
    NativeCore × ℤ :=
  match Message.decode packet with
  | .error _ => (c, resultInvalidArgument)
  | .ok m =>
    if m.messageClass ≠ .success ∧ m.messageClass ≠ .error then (c, resultNotControl)
    else if m.fingerprintValid prims.crc32 = some false then (c, resultInvalidArgument)
    else
      match c.pending.find? (·.answeredBy m) with
      | none => (c, resultNotControl)
      | some p =>
        if c.isForged prims packet m p then (c.reportForged m, resultAuthentication)
        else (c.answered m).onResponse prims m p io

/-- The timer of a request that `poll` starts. -/
def clearTimer (c : NativeCore) : Operation → NativeCore
  | .refresh => { c with allocationRefresh := none }
  | .permission => { c with permissionRetry := none }
  | .channel => { c with channelRetry := none }
  | .allocate => c
  | .deallocate => c

/-- One of the starts of `poll`. The answer says whether the operation was started. -/
def startDue (prims : Primitives) (c : NativeCore) (due : Bool) (operation : Operation)
    (io : TurnIo) : NativeCore × Except TurnError Bool :=
  if due && !c.hasOperation operation then
    match (c.clearTimer operation).tryStart prims operation true io with
    | (c, .error e) => (c, .error e)
    | (c, .ok ()) => (c, .ok true)
  else (c, .ok false)

def postponeMaintenance (c : NativeCore) (due : Bool) (now : ℕ) : NativeCore :=
  if due then { c with maintenanceRefresh := some (now + c.profile.maintenanceRefresh) } else c

/-- A keepalive is sent unless a request was. -/
def keepAlive (c : NativeCore) (controlStarted : Bool) (now : ℕ) : NativeCore :=
  if isDue now c.keepalive then
    let c := { c with keepalive := some (now + c.profile.keepaliveInterval) }
    if controlStarted then c else c.queueKeepalive
  else c

/-- The part of `poll` for a live allocation. -/
def maintain (prims : Primitives) (c : NativeCore) (io : TurnIo) :
    NativeCore × Except TurnError Unit :=
  let maintenanceDue := isDue io.now c.maintenanceRefresh
  let permissionDue := maintenanceDue || isDue io.now c.permissionRetry
  let channelDue := maintenanceDue || isDue io.now c.channelRetry
  match c.startDue prims (isDue io.now c.allocationRefresh) .refresh io with
  | (c, .error e) => (c, .error e)
  | (c, .ok refreshed) =>
    let c := c.postponeMaintenance maintenanceDue io.now
    match c.startDue prims permissionDue .permission io with
    | (c, .error e) => (c, .error e)
    | (c, .ok permitted) =>
      match c.startDue prims channelDue .channel io with
      | (c, .error e) => (c, .error e)
      | (c, .ok bound) => (c.keepAlive (refreshed || permitted || bound) io.now, .ok ())

def nextDeadline (c : NativeCore) : Option ℕ :=
  (c.pending.map (·.nextAttempt) ++ c.allocationRefresh.toList ++ c.maintenanceRefresh.toList ++
    c.permissionRetry.toList ++ c.channelRetry.toList ++ c.keepalive.toList).min?

/-- The end of an allocation whose lifetime is over. -/
def expireAllocation (c : NativeCore) (now : ℕ) : NativeCore :=
  if !c.shuttingDown && c.state = .ready && isDue now c.allocationExpiresAt then
    c.destroyAllocation .refresh resultTimeout 0
  else c

def poll (prims : Primitives) (c : NativeCore) (io : TurnIo) :
    NativeCore × Except TurnError (Option ℕ) :=
  if c.destroyed then (c, .ok none)
  else
    let c := (c.expireTransactions io.now).expireAllocation io.now
    let (c, result) := if !c.shuttingDown && c.state = .ready then c.maintain prims io
      else (c, .ok ())
    (c, result.map fun _ => c.nextDeadline.map fun deadline => max (deadline - io.now) (millis 1))

def pullControl (c : NativeCore) : NativeCore × Except TurnError (Option Control) :=
  match c.controls with
  | [] => (c, .ok none)
  | control :: controls =>
    ({ c with controls },
      if pullBufferSize < control.packet.length then
        .error (.refused "TURN control dequeue" resultBufferTooSmall)
      else .ok (some control))

def pullEvent (c : NativeCore) : NativeCore × Option NativeEvent :=
  ({ c with events := c.events.drop 1 }, c.events.head?)

def gracefulShutdown (prims : Primitives) (c : NativeCore) (io : TurnIo) :
    NativeCore × Except TurnError Unit :=
  if c.destroyed ∨ c.shuttingDown then (c, .ok ())
  else
    let c := { c with
      shuttingDown := true
      channel := none
      maintenanceRefresh := none
      permissionRetry := none
      channelRetry := none
      keepalive := none
      controls := [] }
    if c.state = .ready ∨ (c.state = .destroying ∧ c.allocationExpiresAt.isSome) then
      ({ c with pending := [] }.setState .deallocating).tryStart prims .deallocate true io
    else if c.state ≠ .allocating then ({ c with pending := [] }, .ok ())
    else (c, .ok ())

def forceDestroy (c : NativeCore) (status : ℤ) : NativeCore :=
  if c.destroyed then c
  else
    ({ c with destroyed := true, controls := [], pending := [] }.setState .destroying).push
      { kind := .forcedDestroy, status, state := .destroying }

/-- The calls of the driver. -/
inductive Input
  | startAllocation (io : TurnIo)
  | startChannel (io : TurnIo)
  | startPermission (io : TurnIo)
  | inputStun (packet : Bytes) (io : TurnIo)
  | poll (io : TurnIo)
  | pullControl
  | pullEvent
  | gracefulShutdown (io : TurnIo)
  | forceDestroy (status : ℤ)

/-- The time of a call that looks at the clock. -/
def Input.instant : Input → ℕ
  | .startAllocation io => io.now
  | .startChannel io => io.now
  | .startPermission io => io.now
  | .inputStun _ io => io.now
  | .poll io => io.now
  | .gracefulShutdown io => io.now
  | _ => 0

def step (prims : Primitives) (c : NativeCore) : Input → NativeCore
  | .startAllocation io => (c.startAllocation prims io).1
  | .startChannel io => (c.startChannel prims io).1
  | .startPermission io => (c.startPermission prims io).1
  | .inputStun packet io => (c.inputStun prims packet io).1
  | .poll io => (c.poll prims io).1
  | .pullControl => c.pullControl.1
  | .pullEvent => c.pullEvent.1
  | .gracefulShutdown io => (c.gracefulShutdown prims io).1
  | .forceDestroy status => c.forceDestroy status

/-- A state that some calls lead to. -/
def Reachable (prims : Primitives) (c : NativeCore) : Prop :=
  ∃ server username password peer profile transport start, ∃ inputs : List Input,
    create server username password peer profile transport = .ok start ∧
      c = inputs.foldl (step prims) start

end NativeCore
end Turn
end Csqtt
