import Csqtt.Text
import Csqtt.ProxyFrame

/-!
# Control payloads and the epochs of a device

A client names itself in a GETCONF by device, generation and salt. The control plane keeps the
epoch of each device in a `DeviceEpochState` and admits a request by `admitEpoch`; the engine keeps
its own copy and decides by `getconf_reconnect_action_hot` what a GETCONF on a live session does to
it.
-/

namespace Csqtt

def maxStreamWorkers : ℕ := 126

def asciiBytes (s : String) : Bytes := s.toList.map fun c => UInt8.ofNat c.toNat

def getconfStart : Bytes := asciiBytes "GETCONF:"

def disconnectStart : Bytes := asciiBytes "DISCONNECT:"

def ready : Bytes := asciiBytes "READY"

def readyOk : Bytes := asciiBytes "READY_OK"

def sessionLease : Bytes := 0xff :: asciiBytes "CSQTT_LEASE"

def isGetconf (payload : Bytes) : Bool := getconfStart.isPrefixOf payload

def isDisconnect (payload : Bytes) : Bool := disconnectStart.isPrefixOf payload

def isControlPayload (payload : Bytes) : Bool :=
  isGetconf payload || isDisconnect payload || payload = ready || payload.head? = some 0xff ||
    isFrame payload

def isIdleKeepalive (payload : Bytes) : Bool :=
  (!payload.isEmpty && payload.all (· = 0xff)) ||
    ((4 ≤ payload.length && payload.length ≤ 9) && payload.head? = some 0xff)

def parseGenerationId (value : Text) : Option ℕ := (Text.decimal value).filter (· < 2 ^ 64)

/-- Who a session belongs to. -/
structure Identity where
  deviceId : Text
  generationId : ℕ
  sessionSalt : Text
  deriving DecidableEq

def parseGetconfEpoch (payload : Bytes) : Option Identity := do
  let text ← Text.ofUtf8 payload
  let content ← Text.stripStart "GETCONF:".toList text
  let parts := Text.splitn 6 '|' (Text.trim content)
  let _ ← parts[0]?
  let deviceId := Text.trim (← parts[1]?)
  let _ ← parts[2]?
  let generationId ← parseGenerationId (Text.trim (← parts[3]?))
  let sessionSalt := Text.trim (parts[4]?.getD [])
  if deviceId.isEmpty || 128 < Text.utf8Len deviceId || 128 < Text.utf8Len sessionSalt then none
  else some ⟨deviceId, generationId, sessionSalt⟩

theorem isGetconf_of_parseGetconfEpoch {payload : Bytes} {identity : Identity}
    (h : parseGetconfEpoch payload = some identity) : isGetconf payload = true := by
  unfold parseGetconfEpoch at h
  cases ht : Text.ofUtf8 payload with
  | none =>
    rw [ht] at h
    cases h
  | some text =>
    cases hc : Text.stripStart "GETCONF:".toList text with
    | none =>
      simp only [ht, hc, Option.bind_eq_bind, Option.bind_some, Option.bind_none] at h
      cases h
    | some =>
      unfold Text.stripStart at hc
      split_ifs at hc with hs
      obtain ⟨rest, rfl⟩ := List.isPrefixOf_iff_prefix.mp hs
      rw [isGetconf, ← Text.utf8_of_ofUtf8 ht, List.isPrefixOf_iff_prefix]
      refine ⟨Text.utf8 rest, ?_⟩
      rfl

inductive EpochDecision
  | current
  | advanced
  | stale
  | saltConflict
  deriving DecidableEq

structure DeviceEpochState where
  generationId : ℕ := 0
  sessionSalt : Text := []
  deriving DecidableEq

def DeviceEpochState.admitEpoch (s : DeviceEpochState) (generationId : ℕ) (sessionSalt : Text) :
    DeviceEpochState × EpochDecision :=
  if s.generationId = 0 ∧ s.sessionSalt = [] then
    (⟨generationId, sessionSalt⟩,
      if generationId = 0 ∧ sessionSalt = [] then .current else .advanced)
  else if generationId < s.generationId then (s, .stale)
  else if s.generationId < generationId then (⟨generationId, sessionSalt⟩, .advanced)
  else if sessionSalt = s.sessionSalt then (s, .current)
  else (s, .saltConflict)

def DeviceEpochState.matches (s : DeviceEpochState) (generationId : ℕ) (sessionSalt : Text) :
    Bool :=
  s.generationId = generationId && s.sessionSalt = sessionSalt

/-- The epoch of a device in the engine. -/
structure EpochValue where
  generationId : ℕ
  sessionSalt : Text
  lastSeenMs : ℕ
  deriving DecidableEq

def sessionIsRetiredByEpoch (session authoritative : Identity) : Bool :=
  session.deviceId = authoritative.deviceId &&
    (session.generationId < authoritative.generationId ||
      (session.generationId = authoritative.generationId &&
        session.sessionSalt ≠ authoritative.sessionSalt))

inductive GetconfReconnectAction
  | process
  | replace
  | reject
  deriving DecidableEq

def conflicts (session incoming : Identity) : Bool :=
  session.deviceId ≠ incoming.deviceId || incoming.generationId < session.generationId ||
    (incoming.generationId = session.generationId && incoming.sessionSalt ≠ session.sessionSalt)

def getconfReconnectActionHot (authoritative : Option EpochValue) (session incoming : Identity) :
    GetconfReconnectAction :=
  if session.deviceId ≠ [] ∧ conflicts session incoming then .reject
  else
    match authoritative with
    | some epoch =>
      if incoming.generationId < epoch.generationId ∨
          (incoming.generationId = epoch.generationId ∧
            incoming.sessionSalt ≠ epoch.sessionSalt) then .reject
      else if incoming.generationId = epoch.generationId ∧
          incoming.sessionSalt = epoch.sessionSalt then
        if session.deviceId = incoming.deviceId ∧
            session.generationId = incoming.generationId ∧
            session.sessionSalt = incoming.sessionSalt then .process
        else .replace
      else .replace
    | none =>
      if session.deviceId = [] then .process
      else if conflicts session incoming then .reject
      else if incoming.generationId = session.generationId then .process
      else .replace

end Csqtt
