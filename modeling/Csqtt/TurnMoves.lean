import Csqtt.Traces
import Csqtt.TurnCore

/-!
# The moves of the TURN core

Every call of the driver is a sequence of moves of a few kinds. A move carries what the code has
checked when it makes it, so an invariant of the core is an invariant of the moves. The label of a
move says what it sends.
-/

namespace Csqtt
namespace Turn

open Stun

def Operation.phase : Operation → TurnState
  | .allocate => .allocating
  | .refresh => .ready
  | .deallocate => .deallocating
  | .permission => .ready
  | .channel => .ready

/-- What a move does that is counted: `request` queues the packet of a request, and `stuck` is a
shutdown whose Deallocate cannot be encoded. -/
inductive Act
  | quiet
  | request (operation : Operation) (cause : Cause)
  | stuck
  deriving DecidableEq

def Act.requests : Act → List (Operation × Cause)
  | .request operation cause => [(operation, cause)]
  | _ => []

namespace NativeCore

/-- A queue of events that is no longer than a queue may be if the one before was not. -/
def Queues (c : NativeCore) (events : List NativeEvent) : Prop :=
  c.events.length ≤ eventCapacity → events.length ≤ eventCapacity

def HasCredentials (c : NativeCore) : Prop :=
  c.realm.isSome ∧ c.nonce.isSome ∧ c.key.isSome

def shed (c : NativeCore) (pending : List Pending) (controls : List Control)
    (events : List NativeEvent) : NativeCore := { c with pending, controls, events }

/-- What `destroy_allocation` leaves. -/
def ruined (c : NativeCore) (state : TurnState) (events : List NativeEvent) : NativeCore :=
  { c with
    state, events
    controls := []
    pending := []
    channel := none
    allocationRefresh := none
    allocationExpiresAt := none
    maintenanceRefresh := none
    permissionRetry := none
    channelRetry := none
    keepalive := none
    relay := none }

/-- What `destroy_after_channel_rebind_exhausted` leaves. -/
def unbound (c : NativeCore) (events : List NativeEvent) : NativeCore :=
  { c with
    events
    state := .destroying
    controls := []
    pending := []
    channel := none
    maintenanceRefresh := none
    permissionRetry := none
    channelRetry := none
    keepalive := none }

/-- The core with a new allocation, whose Allocate is no longer pending. -/
def lodged (c : NativeCore) (state : TurnState) (relay : SocketAddr) (returned : Option ℕ) (now : ℕ)
    (controls : List Control) (events : List NativeEvent) : NativeCore :=
  { c.refreshed returned now with
    state, controls, events
    pending := []
    relay := some relay
    maintenanceRefresh := some (now + c.profile.maintenanceRefresh)
    keepalive := some (now + c.profile.keepaliveInterval) }

def released (c : NativeCore) (controls : List Control) (events : List NativeEvent) : NativeCore :=
  { c with
    controls, events
    state := .deallocated
    pending := []
    relay := none
    allocationRefresh := none
    allocationExpiresAt := none }

/-- What `graceful_shutdown` does in any state. -/
def closing (c : NativeCore) (pending : List Pending) : NativeCore :=
  { c with
    pending
    shuttingDown := true
    channel := none
    maintenanceRefresh := none
    permissionRetry := none
    channelRetry := none
    keepalive := none
    controls := [] }

def surrendered (c : NativeCore) (events : List NativeEvent) : NativeCore :=
  { c.closing [] with state := .deallocating, events }

/-- What no call changes but a challenge, a new allocation, its end and a shutdown. -/
structure Frame where
  server : SocketAddr
  peer : SocketAddr
  username : Bytes
  password : Bytes
  realm : Option Bytes
  nonce : Option Bytes
  key : Option Bytes
  state : TurnState
  relay : Option SocketAddr
  shuttingDown : Bool
  destroyed : Bool
  profile : CsqttTurnProfile
  transport : TurnControlTransport

def frame (c : NativeCore) : Frame where
  server := c.server
  peer := c.peer
  username := c.username
  password := c.password
  realm := c.realm
  nonce := c.nonce
  key := c.key
  state := c.state
  relay := c.relay
  shuttingDown := c.shuttingDown
  destroyed := c.destroyed
  profile := c.profile
  transport := c.transport

/-- Only queues and timers change. In READY a request may also leave, the channel be bound and the
allocation be extended. -/
structure Settled (c c' : NativeCore) : Prop where
  frame : c'.frame = c.frame
  events : c.Queues c'.events
  controls : c'.controls.Sublist c.controls
  pending : c'.pending.Sublist c.pending
  requests : c'.requests = c.requests
  kept : c'.pending = c.pending ∨ c.state = .ready
  refresh : c'.hasOperation .refresh = true →
    c'.allocationRefresh = c.allocationRefresh ∨ c'.allocationRefresh = none
  channel : c'.channel = c.channel ∨ c.state = .ready
  expires : c'.allocationExpiresAt = c.allocationExpiresAt ∨
    (c.state = .ready ∧ c'.allocationExpiresAt.isSome)

section Moves

variable (prims : Primitives) (K : Bytes → Bytes → Prop)

/-- `K` is what is known of the realm and the nonce of a challenge. The packets of `queue` are
keepalives and those of a ChannelBind that is asked for again. -/
inductive Move (c : NativeCore) : Act → NativeCore → Prop
  | settle {c' : NativeCore} (h : c.Settled c') : Move c .quiet c'
  | queue (packet : Bytes)
      (h : packet.length = 8 ∨ ∃ p ∈ c.pending, p.operation = .channel ∧ p.packet = packet) :
      Move c .quiet (c.queuePacket packet)
  | start (operation : Operation) (authenticated : Bool) (draw : Draw) (packet : Bytes)
      (hfresh : c.hasOperation operation = false)
      (hcredentials : authenticated = true → c.HasCredentials)
      (hphase : c.state = operation.phase) (hoperation : operation ≠ .deallocate)
      (hrefresh : operation = .refresh → c.allocationRefresh = none)
      (hbuild : c.buildRequest prims operation draw.transaction authenticated = .ok packet) :
      Move c (.request operation .start) (c.launch operation authenticated 0 .start draw packet)
  | resend (index : ℕ) (p : Pending) (now : ℕ) (hp : c.pending[index]? = some p)
      (hcount : p.transmissions < maxTransmissions) :
      Move c (.request p.operation .again) (c.retransmit index p now)
  | renew (p : Pending) (realm nonce : Bytes) (pending : List Pending) (controls : List Control)
      (draw : Draw) (packet : Bytes) (hp : p ∈ c.pending)
      (hretries : p.nonceRetries < c.profile.maxNonceRetries) (hchallenge : K realm nonce)
      (hpending : pending.Sublist c.pending) (hothers : ∀ q ∈ pending, q.operation ≠ p.operation)
      (hcontrols : controls.Sublist c.controls)
      (hbuild : (c.setAuth prims realm nonce).buildRequest prims p.operation draw.transaction true =
        .ok packet) :
      Move c (.request p.operation .renewal)
        (((c.setAuth prims realm nonce).shed pending controls c.events).launch p.operation true
          (p.nonceRetries + 1) .renewal draw packet)
  | challenged (realm nonce : Bytes) (hchallenge : K realm nonce) :
      Move c .quiet (c.setAuth prims realm nonce)
  | ruin (state : TurnState) (events : List NativeEvent) (hevents : c.Queues events)
      (hstate : state = .deallocated ∨ state = .destroying) : Move c .quiet (c.ruined state events)
  | unbind (events : List NativeEvent) (hevents : c.Queues events) (hready : c.state = .ready) :
      Move c .quiet (c.unbound events)
  | begin (events : List NativeEvent) (hevents : c.Queues events) (hnull : c.state = .null)
      (hshut : c.shuttingDown = false) (hdestroyed : c.destroyed = false) :
      Move c .quiet { c with state := .allocating, events }
  | obtain (relay : SocketAddr) (returned : Option ℕ) (now : ℕ) (controls : List Control)
      (events : List NativeEvent) (hevents : c.Queues events)
      (hcontrols : controls.Sublist c.controls)
      (hstate : c.state = .allocating) (hshut : c.shuttingDown = false)
      (hcredentials : c.HasCredentials) :
      Move c .quiet (c.lodged .ready relay returned now controls events)
  | yield (relay : SocketAddr) (returned : Option ℕ) (now : ℕ) (controls : List Control)
      (events : List NativeEvent) (draw : Draw) (packet : Bytes) (hevents : c.Queues events)
      (hcontrols : controls.Sublist c.controls) (hstate : c.state = .allocating)
      (hshut : c.shuttingDown = true) (hcredentials : c.HasCredentials)
      (hbuild : c.buildRequest prims .deallocate draw.transaction true = .ok packet) :
      Move c (.request .deallocate .start)
        ((c.lodged .deallocating relay returned now controls events).launch .deallocate true 0
          .start draw packet)
  | release (controls : List Control) (events : List NativeEvent) (hevents : c.Queues events)
      (hcontrols : controls.Sublist c.controls) (hstate : c.state = .deallocating) :
      Move c .quiet (c.released controls events)
  | close (pending : List Pending) (hpending : pending.Sublist c.pending)
      (hshut : c.shuttingDown = false) (hready : c.state ≠ .ready)
      (hexpires : c.state = .destroying → c.allocationExpiresAt = none) :
      Move c .quiet (c.closing pending)
  | surrender (events : List NativeEvent) (draw : Draw) (packet : Bytes) (hevents : c.Queues events)
      (hcredentials : c.HasCredentials)
      (hbuild : c.buildRequest prims .deallocate draw.transaction true = .ok packet) :
      Move c (.request .deallocate .start)
        ((c.surrendered events).launch .deallocate true 0 .start draw packet)
  | strand (events : List NativeEvent) (hevents : c.Queues events) :
      Move c .stuck (c.surrendered events)
  | destroy (events : List NativeEvent) (hevents : c.Queues events) :
      Move c .quiet
        { c with destroyed := true, controls := [], pending := [], state := .destroying, events }

end Moves

/-! ## Requests and their states -/

/-- The pending requests are of different operations and belong to the state. -/
structure Phased (c : NativeCore) : Prop where
  nodup : (c.pending.map (·.operation)).Nodup
  phase : ∀ p ∈ c.pending, c.state = p.operation.phase
  credentials : ∀ p ∈ c.pending, p.authenticated = true → c.HasCredentials
  shut : c.shuttingDown = true → c.state ≠ .ready

variable {c c' : NativeCore}

theorem Phased.of_nil (hpend : c.pending = [])
    (hs : c.shuttingDown = true → c.state ≠ .ready) : c.Phased := by
  refine ⟨?_, ?_, ?_, hs⟩
  · rw [hpend]
    exact List.nodup_nil
  · rw [hpend]
    exact fun p hp => absurd hp List.not_mem_nil
  · rw [hpend]
    exact fun p hp => absurd hp List.not_mem_nil

theorem Phased.of_sublist (h : c.Phased) (hf : c'.frame = c.frame)
    (hpend : c'.pending.Sublist c.pending) : c'.Phased := by
  have hs : c'.state = c.state := congrArg Frame.state hf
  refine ⟨h.nodup.sublist (hpend.map _), fun p hp => ?_, fun p hp ha => ?_, fun hshut => ?_⟩
  · rw [hs]
    exact h.phase p (hpend.subset hp)
  · obtain ⟨hr, hn, hk⟩ := h.credentials p (hpend.subset hp) ha
    refine ⟨?_, ?_, ?_⟩
    · rwa [show c'.realm = c.realm from congrArg Frame.realm hf]
    · rwa [show c'.nonce = c.nonce from congrArg Frame.nonce hf]
    · rwa [show c'.key = c.key from congrArg Frame.key hf]
  · rw [hs]
    exact h.shut ((congrArg Frame.shuttingDown hf).symm.trans hshut)

theorem queuePacket_eq (c : NativeCore) (packet : Bytes) :
    ∃ controls events, c.queuePacket packet = { c with controls, events } := by
  unfold queuePacket
  split_ifs
  · exact ⟨_, _, rfl⟩
  · exact ⟨_, c.events, rfl⟩

theorem queueRequest_eq (c : NativeCore) (packet : Bytes) (operation : Operation) (cause : Cause) :
    ∃ controls events requests,
      c.queueRequest packet operation cause = { c with controls, events, requests } := by
  obtain ⟨controls, events, heq⟩ := queuePacket_eq c packet
  rw [queueRequest, heq]
  exact ⟨controls, events, _, rfl⟩

theorem pending_queuePacket (c : NativeCore) (packet : Bytes) :
    (c.queuePacket packet).pending = c.pending := by
  obtain ⟨controls, events, heq⟩ := queuePacket_eq c packet
  rw [heq]

variable {index nonceRetries now : ℕ} {operation : Operation}

theorem pending_queueRequest (c : NativeCore) (packet : Bytes) (operation : Operation)
    (cause : Cause) : (c.queueRequest packet operation cause).pending = c.pending :=
  pending_queuePacket c packet

theorem launch_eq (c : NativeCore) (operation : Operation) (authenticated : Bool) (nonceRetries : ℕ)
    (cause : Cause) (draw : Draw) (packet : Bytes) : ∃ controls events pending requests,
      c.launch operation authenticated nonceRetries cause draw packet =
        { c with controls, events, pending, requests } := by
  obtain ⟨controls, events, requests, heq⟩ := queueRequest_eq c packet operation cause
  rw [launch, heq]
  exact ⟨controls, events, _, requests, rfl⟩

theorem startOperation_eq (prims : Primitives) {authenticated : Bool} {cause : Cause} {draw : Draw}
    (h : c.startOperation prims operation authenticated nonceRetries cause draw = .ok c') :
    ∃ controls events pending requests, c' = { c with controls, events, pending, requests } := by
  unfold startOperation at h
  split_ifs at h with hh hc ha
  · cases h
    split
    · rename_i p _
      obtain ⟨controls, events, heq⟩ := queuePacket_eq c p.packet
      exact ⟨controls, events, c.pending, c.requests, heq⟩
    · exact ⟨c.controls, c.events, c.pending, c.requests, rfl⟩
  · cases h
    exact ⟨c.controls, c.events, c.pending, c.requests, rfl⟩
  · cases hb : c.buildRequest prims operation draw.transaction authenticated with
    | error =>
      rw [hb] at h
      cases h
    | ok packet =>
      rw [hb] at h
      cases h
      exact launch_eq ..

theorem frame_queuePacket (c : NativeCore) (packet : Bytes) :
    (c.queuePacket packet).frame = c.frame := by
  obtain ⟨controls, events, heq⟩ := queuePacket_eq c packet
  rw [heq]
  rfl

theorem frame_queueRequest (c : NativeCore) (packet : Bytes) (operation : Operation)
    (cause : Cause) : (c.queueRequest packet operation cause).frame = c.frame := by
  obtain ⟨controls, events, requests, heq⟩ := queueRequest_eq c packet operation cause
  rw [heq]
  rfl

theorem frame_launch (c : NativeCore) (operation : Operation) (authenticated : Bool)
    (nonceRetries : ℕ) (cause : Cause) (draw : Draw) (packet : Bytes) :
    (c.launch operation authenticated nonceRetries cause draw packet).frame = c.frame :=
  frame_queueRequest c packet operation cause

theorem not_hasOperation :
    c.hasOperation operation = false ↔ ∀ p ∈ c.pending, p.operation ≠ operation := by
  simp [hasOperation]

theorem Phased.launch (h : c.Phased) {authenticated : Bool} {cause : Cause} {draw : Draw}
    {packet : Bytes} (hf : c.hasOperation operation = false)
    (hc : authenticated = true → c.HasCredentials) (hphase : c.state = operation.phase) :
    (c.launch operation authenticated nonceRetries cause draw packet).Phased := by
  have hframe := frame_launch c operation authenticated nonceRetries cause draw packet
  have hs := congrArg Frame.state hframe
  have ho : (c.queueRequest packet operation cause).Phased := by
    apply h.of_sublist (frame_queueRequest c packet operation cause)
    rw [pending_queueRequest]
  have hc' : c.HasCredentials → (c.queueRequest packet operation cause).HasCredentials := by
    obtain ⟨controls, events, requests, heq⟩ := queueRequest_eq c packet operation cause
    rw [heq]
    exact id
  refine ⟨?_, fun p hp => ?_, fun p hp hauth => ?_, ho.shut⟩
  · rw [NativeCore.launch, List.map_append]
    refine List.nodup_append.mpr ⟨h.nodup, List.nodup_singleton _, fun a ha b hb hab => ?_⟩
    obtain ⟨p, hp, rfl⟩ := List.mem_map.mp ha
    exact not_hasOperation.mp hf p hp (hab.trans (List.mem_singleton.mp hb))
  · obtain hp | hp := List.mem_append.mp hp
    · exact hs.trans (h.phase p hp)
    · rw [List.mem_singleton.mp hp]
      exact hs.trans hphase
  · apply hc'
    obtain hp | hp := List.mem_append.mp hp
    · exact h.credentials p hp hauth
    · rw [List.mem_singleton.mp hp] at hauth
      exact hc hauth

theorem Phased.setAuth (prims : Primitives) (h : c.Phased) (realm nonce : Bytes) :
    (c.setAuth prims realm nonce).Phased :=
  ⟨h.nodup, h.phase, fun _ _ _ => ⟨rfl, rfl, rfl⟩, h.shut⟩

variable {p : Pending}

theorem operations_retransmit (hp : c.pending[index]? = some p) (now : ℕ) :
    (c.retransmit index p now).pending.map (·.operation) = c.pending.map (·.operation) := by
  have hg : (c.pending.map (·.operation))[index]? = some p.operation := by
    rw [List.getElem?_map, hp, Option.map_some]
  obtain ⟨hlt, hin⟩ := List.getElem?_eq_some_iff.mp hg
  rw [retransmit, List.map_set, ← hin, List.set_getElem_self]

theorem mem_retransmit {q : Pending} (hq : q ∈ (c.retransmit index p now).pending) :
    q ∈ c.pending ∨ q = { p with
        transmissions := p.transmissions + 1, rto := min (p.rto * 2) maxRto,
        nextAttempt := now + min (p.rto * 2) maxRto } :=
  List.mem_or_eq_of_mem_set hq

theorem Phased.retransmit (h : c.Phased) (hp : c.pending[index]? = some p) (now : ℕ) :
    (c.retransmit index p now).Phased := by
  have hm : p ∈ c.pending := List.mem_of_getElem? hp
  have ho : (c.queueRequest p.packet p.operation .again).Phased := by
    apply h.of_sublist (frame_queueRequest c p.packet p.operation .again)
    rw [pending_queueRequest]
  have hpend := pending_queueRequest c p.packet p.operation .again
  refine ⟨?_, fun q hq => ?_, fun q hq ha => ?_, ho.shut⟩
  · rw [operations_retransmit hp]
    exact h.nodup
  · obtain hq | rfl := mem_retransmit hq
    · exact ho.phase q (hpend ▸ hq)
    · exact ho.phase p (hpend ▸ hm)
  · obtain hq | rfl := mem_retransmit hq
    · exact ho.credentials q (hpend ▸ hq) ha
    · exact ho.credentials p (hpend ▸ hm) ha

theorem Phased.move {prims : Primitives} {K : Bytes → Bytes → Prop} {act : Act}
    (h : c.Phased) (hmove : Move prims K c act c') : c'.Phased := by
  cases hmove with
  | settle hsettled => exact h.of_sublist hsettled.frame hsettled.pending
  | queue packet =>
    apply h.of_sublist (frame_queuePacket c packet)
    rw [pending_queuePacket]
  | start _ _ _ _ hfresh hcred hphase =>
    exact h.launch hfresh hcred hphase
  | resend _ _ now hp => exact h.retransmit hp now
  | renew p realm nonce pending controls _ _ hp _ _ hpend hother =>
    have hshed : ((c.setAuth prims realm nonce).shed pending controls c.events).Phased :=
      (h.setAuth prims realm nonce).of_sublist rfl hpend
    exact hshed.launch (not_hasOperation.mpr hother) (fun _ => ⟨rfl, rfl, rfl⟩) (h.phase p hp)
  | challenged realm nonce => exact h.setAuth prims realm nonce
  | ruin _ _ _ hstate =>
    refine .of_nil rfl fun _ => ?_
    rintro rfl
    obtain hstate | hstate := hstate
    · cases hstate
    · cases hstate
  | unbind => exact .of_nil rfl fun _ => nofun
  | begin _ _ hnull =>
    have hnone : c.pending = [] := by
      refine List.eq_nil_iff_forall_not_mem.mpr fun p hp => ?_
      have hphase := h.phase p hp
      rw [hnull] at hphase
      cases hop : p.operation <;> rw [hop] at hphase <;> cases hphase
    exact .of_nil hnone fun _ => nofun
  | obtain _ _ _ _ _ _ _ _ hshut =>
    refine .of_nil rfl fun hshut' => ?_
    exact absurd (hshut'.symm.trans hshut) (by decide)
  | yield relay returned now controls events _ _ _ _ _ _ hcred =>
    have hlodge : (c.lodged .deallocating relay returned now controls events).Phased :=
      .of_nil rfl fun _ => nofun
    exact hlodge.launch rfl (fun _ => hcred) rfl
  | release => exact .of_nil rfl fun _ => nofun
  | close _ hpend _ hready =>
    exact ⟨h.nodup.sublist (hpend.map _), fun p hp => h.phase p (hpend.subset hp),
      fun p hp => h.credentials p (hpend.subset hp), fun _ => hready⟩
  | surrender events _ _ _ hcred =>
    have hsurrender : (c.surrendered events).Phased := .of_nil rfl fun _ => nofun
    exact hsurrender.launch rfl (fun _ => hcred) rfl
  | strand | destroy => exact .of_nil rfl fun _ => nofun

end NativeCore
end Turn
end Csqtt
