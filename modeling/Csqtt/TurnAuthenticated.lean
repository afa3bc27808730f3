import Csqtt.TurnInvariants
import Mathlib.Data.List.TakeDrop

/-!
# Authenticated state of the TURN core

Only a success response with a valid MESSAGE-INTEGRITY to a pending authenticated request gives the
core something: READY, a relay address, a bound channel, an expiry. Every other call can only take
it away, and then the core has left READY. `Kept` says so for one function after the other.
-/

namespace Csqtt
namespace Turn
namespace NativeCore

open Stun

/-- Nothing of the allocation is gained, and what is lost is lost together with READY. The refresh
timer may also be set to a retry. -/
structure Kept (now : ℕ) (c c' : NativeCore) : Prop where
  ready : c'.state = .ready → c.state = .ready
  relay : c'.relay = c.relay ∨ (c'.relay = none ∧ c'.state ≠ .ready)
  channel : c'.channel = c.channel ∨ (c'.channel = none ∧ c'.state ≠ .ready)
  expires : c'.allocationExpiresAt = c.allocationExpiresAt ∨
    (c'.allocationExpiresAt = none ∧ c'.state ≠ .ready)
  refresh : c'.allocationRefresh = c.allocationRefresh ∨ c'.allocationRefresh = none ∨
    ∃ failures, c'.allocationRefresh = some (now + retryDelay failures)

variable {now : ℕ} {c c' c'' : NativeCore}

theorem Kept.of_eq (hs : c'.state = c.state) (hr : c'.relay = c.relay)
    (hc : c'.channel = c.channel) (he : c'.allocationExpiresAt = c.allocationExpiresAt)
    (hrefresh : c'.allocationRefresh = c.allocationRefresh) : Kept now c c' :=
  ⟨fun h => hs ▸ h, .inl hr, .inl hc, .inl he, .inl hrefresh⟩

theorem Kept.refl (c : NativeCore) : Kept now c c := .of_eq rfl rfl rfl rfl rfl

theorem lost_trans {α : Type} {x y z : Option α} {s s' : TurnState}
    (h : y = x ∨ (y = none ∧ s ≠ .ready)) (h' : z = y ∨ (z = none ∧ s' ≠ .ready))
    (hr : s' = .ready → s = .ready) : z = x ∨ (z = none ∧ s' ≠ .ready) := by
  obtain rfl | hl := h'
  · obtain rfl | hl := h
    · exact .inl rfl
    · exact .inr ⟨hl.1, fun hs => hl.2 (hr hs)⟩
  · exact .inr hl

theorem Kept.trans (h : Kept now c c') (h' : Kept now c' c'') : Kept now c c'' where
  ready hs := h.ready (h'.ready hs)
  relay := lost_trans h.relay h'.relay h'.ready
  channel := lost_trans h.channel h'.channel h'.ready
  expires := lost_trans h.expires h'.expires h'.ready
  refresh := by
    obtain heq | hset := h'.refresh
    · rw [heq]
      exact h.refresh
    · exact .inr hset

variable (c)

@[simp] theorem relay_setState (s : TurnState) : (c.setState s).relay = c.relay := by
  unfold setState
  split_ifs <;> rfl

@[simp] theorem allocationExpiresAt_setState (s : TurnState) :
    (c.setState s).allocationExpiresAt = c.allocationExpiresAt := by
  unfold setState
  split_ifs <;> rfl

theorem kept_push (event : NativeEvent) : Kept now c (c.push event) :=
  .of_eq rfl rfl rfl rfl rfl

theorem kept_setState {s : TurnState} (hs : s ≠ .ready) : Kept now c (c.setState s) := by
  obtain ⟨events, -, heq⟩ := setState_eq c s
  rw [heq]
  exact ⟨fun h => absurd h hs, .inl rfl, .inl rfl, .inl rfl, .inl rfl⟩

theorem kept_queuePacket (packet : Bytes) : Kept now c (c.queuePacket packet) := by
  obtain ⟨controls, events, heq⟩ := queuePacket_eq c packet
  rw [heq]
  exact .of_eq rfl rfl rfl rfl rfl

theorem kept_queueKeepalive : Kept now c c.queueKeepalive := by
  unfold queueKeepalive
  split
  · exact .refl c
  · exact kept_queuePacket c _

variable (operation : Operation)

theorem kept_complete (status : ℤ) (stunCode : ℕ) :
    Kept now c (c.complete operation status stunCode) := kept_push c _

theorem kept_destroyAllocation (status : ℤ) (stunCode : ℕ) :
    Kept now c (c.destroyAllocation operation status stunCode) := by
  obtain ⟨state, events, -, hs, heq⟩ := destroyAllocation_eq c operation status stunCode
  have hr : state ≠ .ready := by
    obtain rfl | rfl := hs <;> nofun
  rw [heq]
  exact ⟨fun h => absurd h hr, .inr ⟨rfl, hr⟩, .inr ⟨rfl, hr⟩, .inr ⟨rfl, hr⟩,
    .inr (.inl rfl)⟩

theorem kept_destroyAfterChannelRebindExhausted :
    Kept now c c.destroyAfterChannelRebindExhausted := by
  obtain ⟨events, -, heq⟩ := destroyAfterChannelRebindExhausted_eq c
  rw [heq]
  exact ⟨nofun, .inl rfl, .inr ⟨rfl, nofun⟩, .inl rfl, .inl rfl⟩

theorem kept_scheduleMaintenanceRetry :
    Kept now c (c.scheduleMaintenanceRetry operation now).1 := by
  cases operation with
  | allocate | deallocate => exact .refl c
  | permission => exact .of_eq rfl rfl rfl rfl rfl
  | refresh =>
    exact ⟨id, .inl rfl, .inl rfl, .inl rfl,
      .inr (.inr ⟨min (c.refreshFailures + 1) 255, rfl⟩)⟩
  | channel =>
    unfold scheduleMaintenanceRetry
    dsimp only
    split_ifs
    · exact .of_eq rfl rfl rfl rfl rfl
    · exact .of_eq rfl rfl rfl rfl rfl

theorem kept_completeFailure (status : ℤ) (stunCode : ℕ) :
    Kept now c (c.completeFailure operation status stunCode now) := by
  have hr : Kept now c
      ((c.complete operation status stunCode).scheduleMaintenanceRetry operation now).1 :=
    (kept_complete c operation status stunCode).trans (kept_scheduleMaintenanceRetry _ operation)
  unfold completeFailure
  split_ifs
  · split
    · rename_i heq
      rw [heq] at hr
      exact hr
    · rename_i heq
      rw [heq] at hr
      exact hr.trans (kept_destroyAfterChannelRebindExhausted _)
  · exact kept_destroyAllocation c operation status stunCode

theorem kept_giveUp (index : ℕ) (p : Pending) : Kept now c (c.giveUp index p now) := by
  have hr : Kept now c
      ({ c with pending := c.pending.eraseIdx index }.removeQueuedTransaction p.transaction) :=
    .of_eq rfl rfl rfl rfl rfl
  exact hr.trans (kept_completeFailure _ p.operation resultTimeout 0)

theorem kept_retransmit (index : ℕ) (p : Pending) : Kept now c (c.retransmit index p now) :=
  (kept_queuePacket c p.packet).trans (.of_eq rfl rfl rfl rfl rfl)

theorem kept_expireFrom (fuel index : ℕ) (c : NativeCore) :
    Kept now c (expireFrom now fuel index c) := by
  induction fuel generalizing index c with
  | zero => exact .refl c
  | succ _ ih =>
    rw [expireFrom]
    split
    · exact .refl c
    · rename_i p _
      split_ifs
      · exact ih (index + 1) c
      · exact (kept_giveUp c index p).trans (ih index _)
      · exact (kept_giveUp c index p).trans (ih index _)
      · exact (kept_retransmit c index p).trans (ih (index + 1) _)

theorem kept_expireAllocation : Kept now c (c.expireAllocation now) := by
  unfold expireAllocation
  split_ifs
  · exact kept_destroyAllocation c .refresh resultTimeout 0
  · exact .refl c

variable {c}

section Calls

variable (prims : Primitives) {c c' : NativeCore}

theorem kept_startOperation {operation : Operation} {authenticated : Bool}
    {nonceRetries : ℕ} {cause : Cause} {draw : Draw}
    (h : c.startOperation prims operation authenticated nonceRetries cause draw = .ok c') :
    Kept now c c' := by
  obtain ⟨controls, events, pending, requests, rfl⟩ := startOperation_eq prims h
  exact .of_eq rfl rfl rfl rfl rfl

variable (c)

theorem kept_tryStart (operation : Operation) (authenticated : Bool) (io : TurnIo) :
    Kept now c (c.tryStart prims operation authenticated io).1 := by
  unfold tryStart
  split
  · exact .refl c
  · rename_i hs
    exact kept_startOperation prims hs

theorem kept_clearTimer (operation : Operation) : Kept now c (c.clearTimer operation) := by
  cases operation with
  | refresh => exact ⟨id, .inl rfl, .inl rfl, .inl rfl, .inr (.inl rfl)⟩
  | _ => exact .of_eq rfl rfl rfl rfl rfl

theorem kept_startDue (due : Bool) (operation : Operation) (io : TurnIo) :
    Kept now c (c.startDue prims due operation io).1 := by
  rw [startDue_fst]
  split_ifs
  · exact (kept_clearTimer c operation).trans (kept_tryStart prims _ operation true io)
  · exact .refl c

theorem kept_postponeMaintenance (due : Bool) (instant : ℕ) :
    Kept now c (c.postponeMaintenance due instant) := by
  unfold postponeMaintenance
  split_ifs
  · exact .of_eq rfl rfl rfl rfl rfl
  · exact .refl c

theorem kept_keepAlive (controlStarted : Bool) (instant : ℕ) :
    Kept now c (c.keepAlive controlStarted instant) := by
  have hs : Kept now c { c with keepalive := some (instant + c.profile.keepaliveInterval) } :=
    .of_eq rfl rfl rfl rfl rfl
  unfold keepAlive
  split_ifs
  · exact hs
  · exact hs.trans (kept_queueKeepalive _)
  · exact .refl c

variable (io : TurnIo)

theorem kept_maintain : Kept io.now c (c.maintain prims io).1 :=
  maintain_of (R := Kept io.now) prims io Kept.trans
    (fun c due operation _ => kept_startDue prims c due operation io)
    (fun c due => kept_postponeMaintenance c due io.now)
    (fun c started => kept_keepAlive c started io.now) c

theorem kept_poll : Kept io.now c (c.poll prims io).1 := by
  have he : Kept io.now c ((c.expireTransactions io.now).expireAllocation io.now) :=
    (kept_expireFrom _ 0 c).trans (kept_expireAllocation _)
  unfold poll
  split_ifs
  · exact .refl c
  · dsimp only
    split_ifs
    · exact he.trans (kept_maintain prims _ io)
    · exact he

theorem kept_startAllocation : Kept io.now c (c.startAllocation prims io).1 := by
  unfold startAllocation
  split
  · exact .refl c
  · split_ifs
    · exact .refl c
    · exact (kept_setState c (by decide)).trans (kept_tryStart prims _ .allocate false io)

theorem kept_startChannel : Kept io.now c (c.startChannel prims io).1 := by
  unfold startChannel
  split
  · exact .refl c
  · exact kept_tryStart prims c .channel true io

theorem kept_startPermission : Kept io.now c (c.startPermission prims io).1 := by
  unfold startPermission
  split
  · exact .refl c
  · exact kept_tryStart prims c .permission true io

theorem kept_pullControl : Kept now c c.pullControl.1 := by
  unfold pullControl
  split
  · exact .refl c
  · exact .of_eq rfl rfl rfl rfl rfl

theorem kept_forceDestroy (status : ℤ) : Kept now c (c.forceDestroy status) := by
  have hc : Kept now c { c with destroyed := true, controls := [], pending := [] } :=
    .of_eq rfl rfl rfl rfl rfl
  unfold forceDestroy
  split_ifs
  · exact .refl c
  · exact (hc.trans (kept_setState _ (by decide))).trans (kept_push _ _)

/-- A shutdown takes the channel away, and a core that was READY is then deallocating. -/
theorem kept_gracefulShutdown : Kept io.now c (c.gracefulShutdown prims io).1 := by
  unfold gracefulShutdown
  dsimp only
  split_ifs with hc hr ha
  · exact .refl c
  · refine Kept.trans ?_ (kept_tryStart prims _ .deallocate true io)
    obtain ⟨events, -, heq⟩ := setState_eq (c.closing []) .deallocating
    change Kept io.now c ((c.closing []).setState .deallocating)
    rw [heq]
    exact ⟨nofun, .inl rfl, .inr ⟨rfl, nofun⟩, .inl rfl, .inl rfl⟩
  · exact ⟨id, .inl rfl, .inr ⟨rfl, fun h => hr (.inl h)⟩, .inl rfl, .inl rfl⟩
  · exact ⟨id, .inl rfl, .inr ⟨rfl, fun h => hr (.inl h)⟩, .inl rfl, .inl rfl⟩

theorem kept_setAuth (realm nonce : Bytes) : Kept now c (c.setAuth prims realm nonce) :=
  .of_eq rfl rfl rfl rfl rfl

theorem kept_reauthenticate (m : Message) (p : Pending) (code : ℕ) (io : TurnIo) :
    Kept now c (c.reauthenticate prims m p code io).1 := by
  unfold reauthenticate
  split_ifs
  · split
    · rename_i realm nonce _
      dsimp only
      split
      · rename_i hs
        exact (kept_setAuth prims c realm nonce).trans (kept_startOperation prims hs)
      · exact kept_setAuth prims c realm nonce
    · exact .refl c
  · exact .refl c

theorem kept_onError (m : Message) (p : Pending) (io : TurnIo) :
    Kept io.now c (c.onError prims m p io) := by
  have hr : Kept io.now c (c.reauthenticate prims m p ((errorCode m).getD 0) io).1 :=
    kept_reauthenticate prims c m p _ io
  unfold onError
  dsimp only
  split_ifs
  · exact (kept_push c _).trans (kept_completeFailure _ p.operation resultProtocol 0)
  · exact (kept_push c _).trans (kept_destroyAllocation _ p.operation resultProtocol _)
  · split
    · rename_i heq
      rw [heq] at hr
      exact hr
    · rename_i heq
      rw [heq] at hr
      exact (hr.trans (kept_push _ _)).trans
        (kept_completeFailure _ p.operation resultProtocol _)

theorem kept_reportForged (m : Message) : Kept now c (c.reportForged m) := by
  unfold reportForged
  split_ifs
  · split
    · exact kept_push c _
    · exact .refl c
  · exact .refl c

variable {c}

/-- The packet is a success response to a pending authenticated request, and its integrity verifies
under the current key. -/
def AuthenticatedSuccess (c : NativeCore) (packet : Bytes) : Prop :=
  ∃ m p, Message.decode packet = .ok m ∧ m.messageClass = .success ∧ p ∈ c.pending ∧
    p.transaction = m.transaction ∧ p.operation.method = m.method.toNat ∧ p.authenticated = true ∧
    verifyIntegrity prims packet m c.key = true

variable {m : Message} {p : Pending}

theorem verified_of_not_isForged {packet : Bytes} (hc : m.messageClass = .success)
    (ha : p.authenticated = true) (h : c.isForged prims packet m p = false) :
    verifyIntegrity prims packet m c.key = true := by
  have hr : responseRequiresIntegrity m = true := by
    rw [responseRequiresIntegrity, hc]
  have hm : isFingerprintedAllocationMismatch prims m = false := by
    simp [isFingerprintedAllocationMismatch, hc]
  simpa [isForged, ha, hr, hm] using h

theorem answeredBy_iff : p.answeredBy m = true ↔
    p.transaction = m.transaction ∧ p.operation.method = m.method.toNat := by
  rw [Pending.answeredBy, decide_eq_true_iff]

theorem kept_onResponse (h : ¬ (m.messageClass = .success ∧ p.authenticated = true))
    (hc : m.messageClass = .success ∨ m.messageClass = .error) (io : TurnIo) :
    Kept io.now c (c.onResponse prims m p io).1 := by
  unfold onResponse
  split_ifs with hu he
  · exact kept_completeFailure c p.operation resultAuthentication 0
  · exact kept_onError prims c m p io
  · have hs := hc.resolve_right he
    have ha : p.authenticated = true := by
      by_contra ha
      exact hu ⟨hs, Bool.eq_false_iff.mpr ha⟩
    exact absurd ⟨hs, ha⟩ h

theorem kept_inputStun {packet : Bytes} (h : ¬ c.AuthenticatedSuccess prims packet)
    (io : TurnIo) : Kept io.now c (c.inputStun prims packet io).1 := by
  unfold inputStun
  split
  · exact .refl c
  · rename_i m hd
    split_ifs with hc hfirst
    · exact .refl c
    · exact .refl c
    · split
      · exact .refl c
      · rename_i p hf
        obtain ⟨ht, hm⟩ := answeredBy_iff.mp (List.find?_some hf)
        split_ifs with hforged
        · exact kept_reportForged c m
        · have hr : Kept io.now c (c.answered m) := .of_eq rfl rfl rfl rfl rfl
          refine hr.trans (kept_onResponse prims (fun hs => ?_) ?_ io)
          · exact h ⟨m, p, hd, hs.1, List.mem_of_find?_eq_some hf, ht, hm,
              hs.2, verified_of_not_isForged prims hs.1 hs.2
                (Bool.eq_false_iff.mpr hforged)⟩
          · by_contra hn
            exact hc (not_or.mp hn)

end Calls

theorem operation_eq_of_method {a b : Operation} (hm : a.method = b.method)
    (hp : a.phase = b.phase) : a = b := by
  cases a <;> cases b <;>
    first | rfl | exact absurd hm (by decide) | exact absurd hp (by decide)

/-- Of the requests that a response can be for, the one that is found is authenticated if any is. -/
theorem Phased.find_authenticated (h : c.Phased) {m : Message} {p : Pending}
    (hp : p ∈ c.pending) (ha : p.answeredBy m = true) (hauth : p.authenticated = true) :
    ∃ q, c.pending.find? (·.answeredBy m) = some q ∧ q.authenticated = true := by
  obtain ⟨q, hq⟩ := Option.isSome_iff_exists.mp (List.find?_isSome.mpr ⟨p, hp, ha⟩)
  have hm := List.mem_of_find?_eq_some hq
  have hmethod : p.operation.method = q.operation.method :=
    (answeredBy_iff.mp ha).2.trans (answeredBy_iff.mp (List.find?_some hq)).2.symm
  have hphase : p.operation.phase = q.operation.phase := (h.phase p hp).symm.trans (h.phase q hm)
  have heq := List.inj_on_of_nodup_map h.nodup hp hm (operation_eq_of_method hmethod hphase)
  exact ⟨q, hq, heq ▸ hauth⟩

theorem Reachable.phased {prims : Primitives} (h : c.Reachable prims) : c.Phased := by
  obtain ⟨server, username, password, peer, profile, transport, start, inputs, hc, rfl⟩ := h
  have hp := (initial_create hc).phased
  obtain ⟨acts, htrace⟩ := trace_run prims hp inputs
    (Runs.along_of_forall fun c input => challenges_true c input)
  exact htrace.invariant (fun _ _ _ hs => hs.move) hp

variable (prims : Primitives)

theorem kept_step {input : Input}
    (h : ∀ packet io, input = .inputStun packet io → ¬ c.AuthenticatedSuccess prims packet) :
    Kept input.instant c (c.step prims input) := by
  cases input with
  | startAllocation io => exact kept_startAllocation prims c io
  | startChannel io => exact kept_startChannel prims c io
  | startPermission io => exact kept_startPermission prims c io
  | inputStun packet io => exact kept_inputStun prims (h packet io rfl) io
  | poll io => exact kept_poll prims c io
  | pullControl => exact kept_pullControl c
  | pullEvent => exact .of_eq rfl rfl rfl rfl rfl
  | gracefulShutdown io => exact kept_gracefulShutdown prims c io
  | forceDestroy status => exact kept_forceDestroy c status

theorem reportForged_eq (c : NativeCore) (m : Message) :
    ∃ events, c.reportForged m = { c with events } := by
  unfold reportForged
  split_ifs
  · split
    · exact ⟨_, rfl⟩
    · exact ⟨c.events, rfl⟩
  · exact ⟨c.events, rfl⟩

/-- A response fails integrity, and it is none that is taken without it. -/
structure FailsIntegrity (c : NativeCore) (packet : Bytes) (m : Message) : Prop where
  response : m.messageClass = .success ∨ m.messageClass = .error
  unverified : verifyIntegrity prims packet m c.key = false
  code : m.messageClass = .error → errorCode m ∉ [some 400, some 401, some 420, some 438]
  mismatch : ¬ (m.messageClass = .error ∧ errorCode m = some 437 ∧
    m.fingerprintValid prims.crc32 = some true)

theorem FailsIntegrity.isForged {packet : Bytes} {m : Message} {p : Pending}
    (h : FailsIntegrity prims c packet m) (ha : p.authenticated = true) :
    c.isForged prims packet m p = true := by
  have hr : responseRequiresIntegrity m = true := by
    obtain hc | hc := h.response
    · rw [responseRequiresIntegrity, hc]
    · rw [responseRequiresIntegrity, hc]
      exact decide_eq_true (h.code hc)
  have hm : isFingerprintedAllocationMismatch prims m = false := decide_eq_false h.mismatch
  simp [NativeCore.isForged, ha, hr, h.unverified, hm]

/-- In every reachable state, a call that brings no authenticated success gains nothing, and a
response to an authenticated request that fails integrity changes nothing but the events. -/
theorem authenticated_state (c : NativeCore) (hc : c.Reachable prims) :
    (∀ input, (∀ packet io, input = .inputStun packet io → ¬ c.AuthenticatedSuccess prims packet) →
      Kept input.instant c (c.step prims input)) ∧
    ∀ packet m p io, Message.decode packet = .ok m → p ∈ c.pending → p.transaction = m.transaction →
      p.operation.method = m.method.toNat → p.authenticated = true →
      FailsIntegrity prims c packet m →
        ∃ events, c.step prims (.inputStun packet io) = { c with events } := by
  refine ⟨fun input h => kept_step prims h, ?_⟩
  intro packet m p io hd hp ht hm ha hf
  obtain ⟨q, hfind, hq⟩ := hc.phased.find_authenticated hp
    (answeredBy_iff.mpr ⟨ht, hm⟩) ha
  rw [step, inputStun, hd]
  dsimp only
  split_ifs with hclass hprint
  · exact ⟨c.events, rfl⟩
  · exact ⟨c.events, rfl⟩
  · rw [hfind]
    dsimp only
    rw [if_pos (hf.isForged prims hq)]
    exact reportForged_eq c m

end NativeCore

namespace Recorded

open Stun

def macs : List (ℕ × Bytes) :=
  [(76, [0xdd, 0x22, 0x8b, 0xfa, 0x04, 0x2e, 0xe4, 0x24, 0xae, 0x71, 0x8e, 0xe6, 0x26, 0x63,
    0xda, 0xab,
      0x18, 0x8c, 0x04, 0xaa]),
    (40, [0x44, 0xd8, 0xea, 0x6b, 0x51, 0xf2, 0xed, 0xfc, 0x5a, 0x9c, 0xea, 0x88, 0x0a, 0x2f,
      0x37, 0x8f, 0xc5, 0xa9, 0xfd, 0xce]),
    (32, [0x8a, 0xdb, 0x77, 0xd5, 0x68, 0x9a, 0x8c, 0x39, 0x0a, 0x8e, 0xf0, 0x48, 0x4c, 0xf1,
      0xc8, 0x4e, 0xab, 0xc9, 0x59, 0x85])]

def sums : List (ℕ × UInt32) :=
  [(44, 0x53e9ee33), (52, 0xeb9b47e2), (100, 0x66188f09), (64, 0xb585bcad)]

/-- The digests on recorded messages for the user `user` with the password `pass` in the realm
`realm`. -/
def primitives : Primitives where
  md5 _ := [0x84, 0x93, 0xfb, 0xc5, 0x3b, 0xa5, 0x82, 0xfb, 0x4c, 0x04, 0x4c, 0x45, 0x6b, 0xdc,
    0x40, 0xeb]
  hmacSha1 _ message := ((macs.lookup message.length).getD []).takeD 20 0
  crc32 message := (sums.lookup message.length).getD 0
  md5_length _ := rfl
  hmacSha1_length _ _ := List.takeD_length ..

def localhost (port : UInt16) : SocketAddr := ⟨.v4, [127, 0, 0, 1], port, rfl⟩

def user : Bytes := [0x75, 0x73, 0x65, 0x72]
def pass : Bytes := [0x70, 0x61, 0x73, 0x73]
def realm : Bytes := [0x72, 0x65, 0x61, 0x6c, 0x6d]
def nonce : Bytes := [0x6e, 0x6f, 0x6e, 0x63, 0x65]

def start : NativeCore :=
  (NativeCore.create (localhost 3478) user pass (localhost 9000) .pjnathCompat
    .datagram).toOption.get
    rfl

def first : TransactionId := ⟨[0, 1, 2, 3, 4, 5, 6, 7, 8, 9, 10, 11], rfl⟩
def second : TransactionId := ⟨[16, 17, 18, 19, 20, 21, 22, 23, 24, 25, 26, 27], rfl⟩

def io (transaction : TransactionId) (now : ℕ) : TurnIo := ⟨now, fun _ => ⟨transaction, now⟩⟩

def challenge : Bytes :=
  ((((MessageBuilder.withTransaction 0x0113 first).push attrErrorCode [0, 0, 4, 1]).push attrRealm
    realm).push attrNonce nonce |>.finish primitives).toOption.getD []

def successBody : MessageBuilder :=
  ((MessageBuilder.withTransaction 0x0103 second).pushXorAddress attrXorRelayedAddress
    (localhost 50000)).push attrLifetime (BigEndian.encode 4 600)

def success : Bytes :=
  (successBody.finishAuthenticated primitives (primitives.md5 [])).toOption.getD []

/-- The same success with another authentication code and no fingerprint. -/
def forged : Bytes :=
  (setMessageLength (successBody.push attrMessageIntegrity (List.replicate 20 0)).bytes
    0).toOption.getD
    []

def inputs : List NativeCore.Input :=
  [.startAllocation (io first 0), .inputStun challenge (io second 1)]

def challenged : NativeCore := inputs.foldl (NativeCore.step primitives) start

theorem reachable_challenged : challenged.Reachable primitives :=
  ⟨_, _, _, _, _, _, start, inputs, (by rfl : NativeCore.create (localhost 3478) user pass
    (localhost 9000) .pjnathCompat .datagram = .ok start), rfl⟩

def forgedMessage : Message := (Message.decode forged).toOption.get (by decide +kernel)

def request : Pending := challenged.pending.head (by decide +kernel)

end Recorded

/-- The theorem at a forged success, which leaves the request pending for the real one. -/
theorem authenticated_state_forged : (∃ events, Recorded.challenged.step Recorded.primitives
      (.inputStun Recorded.forged (Recorded.io Recorded.second 2)) =
        { Recorded.challenged with events }) ∧ (Recorded.challenged.step Recorded.primitives
      (.inputStun Recorded.success (Recorded.io Recorded.second 3))).state = .ready := by
  refine ⟨(NativeCore.authenticated_state Recorded.primitives Recorded.challenged
    Recorded.reachable_challenged).2 Recorded.forged Recorded.forgedMessage Recorded.request _
    ?_ (List.head_mem _) (by decide +kernel) (by decide +kernel) (by decide +kernel)
    ⟨?_, ?_, ?_, ?_⟩, by decide +kernel⟩
  · decide +kernel
  · exact .inl (by decide +kernel)
  · decide +kernel
  · exact fun h => absurd h (by decide +kernel)
  · exact fun h => absurd h.1 (by decide +kernel)

end Turn
end Csqtt
