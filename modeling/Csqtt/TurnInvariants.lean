import Csqtt.TurnTraces

/-!
# What the moves of the TURN core keep

The queues stay within their capacities. An allocation, a channel and an expiry belong to certain
states, and nothing leads back to ALLOCATING. A request that is pending was started, sent again or
renewed, so its counters are within their limits.
-/

namespace Csqtt
namespace Turn
namespace NativeCore

open Stun

variable {prims : Primitives} {K : Bytes → Bytes → Prop} {c c' : NativeCore} {act : Act}
  {operation : Operation} {authenticated : Bool} {nonceRetries : ℕ} {cause : Cause} {draw : Draw}
  {packet : Bytes}

theorem retransmit_eq (c : NativeCore) (index : ℕ) (p : Pending) (now : ℕ) :
    ∃ controls events pending requests,
      c.retransmit index p now = { c with controls, events, pending, requests } := by
  obtain ⟨controls, events, requests, heq⟩ := queueRequest_eq c p.packet p.operation .again
  rw [retransmit, heq]
  exact ⟨controls, events, _, requests, rfl⟩

theorem profile_of_move (h : Move prims K c act c') : c'.profile = c.profile := by
  cases h with
  | settle hs => exact congrArg Frame.profile hs.frame
  | queue packet => exact congrArg Frame.profile (frame_queuePacket c packet)
  | start operation authenticated draw packet =>
    exact congrArg Frame.profile (frame_launch c operation authenticated 0 .start draw packet)
  | resend _ p => exact congrArg Frame.profile (frame_queueRequest c p.packet p.operation .again)
  | renew p realm nonce pending controls draw packet =>
    exact congrArg Frame.profile (frame_launch ((c.setAuth prims realm nonce).shed pending controls
      c.events) p.operation true (p.nonceRetries + 1) .renewal draw packet)
  | yield relay returned now controls events draw packet =>
    exact congrArg Frame.profile (frame_launch (c.lodged .deallocating relay returned now controls
      events) .deallocate true 0 .start draw packet)
  | surrender events draw packet =>
    exact congrArg Frame.profile
      (frame_launch (c.surrendered events) .deallocate true 0 .start draw packet)
  | _ => rfl

/-! ## Queues -/

structure Bounded (c : NativeCore) : Prop where
  controls : c.controls.length ≤ controlCapacity
  events : c.events.length ≤ eventCapacity

section

variable (h : c.Bounded)
include h

theorem Bounded.of_le (hc : c'.controls.length ≤ c.controls.length) (he : c.Queues c'.events) :
    c'.Bounded :=
  ⟨hc.trans h.controls, he h.events⟩

theorem Bounded.of_nil (hc : c'.controls = []) (he : c.Queues c'.events) : c'.Bounded := by
  apply h.of_le ?_ he
  rw [hc]
  exact Nat.zero_le _

theorem Bounded.queuePacket (packet : Bytes) : (c.queuePacket packet).Bounded := by
  unfold NativeCore.queuePacket
  split_ifs with hf
  · refine ⟨?_, length_pushEvent_le h.events _⟩
    change (c.controls.drop 1 ++ [_]).length ≤ controlCapacity
    rw [List.length_append, List.length_drop, List.length_singleton, hf]
    decide
  · refine ⟨?_, h.events⟩
    have hlt := Nat.lt_of_le_of_ne h.controls hf
    rw [List.length_append]
    exact hlt

theorem Bounded.launch :
    (c.launch operation authenticated nonceRetries cause draw packet).Bounded :=
  let hq := h.queuePacket packet
  ⟨hq.controls, hq.events⟩

theorem Bounded.move (hmove : Move prims K c act c') : c'.Bounded := by
  cases hmove with
  | settle hsettled => exact h.of_le hsettled.controls.length_le hsettled.events
  | queue packet => exact h.queuePacket packet
  | start => exact h.launch
  | resend _ p =>
    have hqueue := h.queuePacket p.packet
    exact ⟨hqueue.controls, hqueue.events⟩
  | renew p realm nonce pending controls draw packet _ _ _ _ _ hcontrols =>
    have hshed : ((c.setAuth prims realm nonce).shed pending controls c.events).Bounded :=
      h.of_le hcontrols.length_le id
    exact hshed.launch
  | challenged => exact h.of_le (Nat.le_refl _) id
  | ruin _ _ hevents | unbind _ hevents => exact h.of_nil rfl hevents
  | begin _ hevents => exact h.of_le (Nat.le_refl _) hevents
  | obtain _ _ _ _ _ hevents hcontrols =>
    exact h.of_le hcontrols.length_le hevents
  | yield relay returned now controls events draw packet hevents hcontrols =>
    have hlodge : (c.lodged .deallocating relay returned now controls events).Bounded :=
      h.of_le hcontrols.length_le hevents
    exact hlodge.launch
  | release _ _ hevents hcontrols => exact h.of_le hcontrols.length_le hevents
  | close => exact h.of_nil rfl id
  | surrender events draw packet hevents =>
    have hsurrender : (c.surrendered events).Bounded := h.of_nil rfl hevents
    exact hsurrender.launch
  | strand _ hevents | destroy _ hevents => exact h.of_nil rfl hevents

end

/-! ## The allocation -/

structure Lodged (c : NativeCore) : Prop where
  allocated : c.state = .ready → c.relay.isSome ∧ c.allocationExpiresAt.isSome
  bound : c.channel.isSome → c.state = .ready ∨ c.destroyed = true
  expires : c.allocationExpiresAt.isSome →
    c.state = .ready ∨ c.state = .deallocating ∨ c.state = .destroying
  credentials : c.allocationExpiresAt.isSome → c.HasCredentials
  returned : c.state = .deallocating → c.shuttingDown = true

section

variable (h : c.Lodged)
include h

/-- Neither READY nor DEALLOCATING is entered, and what is lost is lost for good. -/
theorem Lodged.of_lost (hr : c'.state ≠ .ready)
    (hreturned : c'.state = .deallocating → c'.shuttingDown = true)
    (hc : c'.channel = none ∨ c'.destroyed = true)
    (he : c'.allocationExpiresAt.isSome → c.allocationExpiresAt.isSome ∧
      (c'.state = .deallocating ∨ c'.state = .destroying))
    (hcred : c.HasCredentials → c'.HasCredentials) : c'.Lodged where
  allocated hstate := absurd hstate hr
  bound hs := by
    obtain hn | hd := hc
    · rw [hn] at hs
      cases hs
    · exact .inr hd
  expires hs := .inr (he hs).2
  credentials hs := hcred (h.credentials (he hs).1)
  returned := hreturned

theorem Lodged.settled (hs : c.Settled c') : c'.Lodged := by
  have hstate : c'.state = c.state := congrArg Frame.state hs.frame
  have he : c'.allocationExpiresAt.isSome → c.allocationExpiresAt.isSome := by
    intro hsome
    obtain heq | ⟨hr, -⟩ := hs.expires
    · rwa [heq] at hsome
    · exact (h.allocated hr).2
  refine ⟨fun hr => ⟨?_, ?_⟩, fun hsome => ?_, fun hsome => ?_, fun hsome => ?_,
    fun hreturned => ?_⟩
  · rw [show c'.relay = c.relay from congrArg Frame.relay hs.frame]
    exact (h.allocated (hstate ▸ hr)).1
  · obtain heq | ⟨-, hsome⟩ := hs.expires
    · rw [heq]
      exact (h.allocated (hstate ▸ hr)).2
    · exact hsome
  · rw [hstate, show c'.destroyed = c.destroyed from congrArg Frame.destroyed hs.frame]
    obtain heq | hr := hs.channel
    · exact h.bound (heq ▸ hsome)
    · exact .inl hr
  · rw [hstate]
    exact h.expires (he hsome)
  · obtain ⟨hrealm, hn, hk⟩ := h.credentials (he hsome)
    refine ⟨?_, ?_, ?_⟩
    · rwa [show c'.realm = c.realm from congrArg Frame.realm hs.frame]
    · rwa [show c'.nonce = c.nonce from congrArg Frame.nonce hs.frame]
    · rwa [show c'.key = c.key from congrArg Frame.key hs.frame]
  · exact (congrArg Frame.shuttingDown hs.frame).trans (h.returned (hstate ▸ hreturned))

theorem Lodged.of_queues (controls : List Control) (events : List NativeEvent)
    (pending : List Pending) (requests : List (Operation × Cause)) :
    Lodged { c with controls, events, pending, requests } :=
  ⟨h.allocated, h.bound, h.expires, h.credentials, h.returned⟩

theorem Lodged.launch :
    (c.launch operation authenticated nonceRetries cause draw packet).Lodged := by
  obtain ⟨controls, events, pending, requests, heq⟩ :=
    launch_eq c operation authenticated nonceRetries cause draw packet
  rw [heq]
  exact h.of_queues controls events pending requests

theorem Lodged.setAuth (realm nonce : Bytes) : (c.setAuth prims realm nonce).Lodged :=
  ⟨h.allocated, h.bound, h.expires, fun _ => ⟨rfl, rfl, rfl⟩, h.returned⟩

theorem Lodged.channel (hr : c.state ≠ .ready) : c.channel = none ∨ c.destroyed = true := by
  cases hc : c.channel with
  | none => exact .inl rfl
  | some channel =>
    have hs : c.channel.isSome := by rw [hc, Option.isSome_some]
    exact .inr ((h.bound hs).resolve_left hr)

theorem Lodged.surrendered (events : List NativeEvent) : (c.surrendered events).Lodged :=
  h.of_lost nofun (fun _ => rfl) (.inl rfl) (fun hs => ⟨hs, .inl rfl⟩) id

theorem Lodged.lodged_deallocating (hs : c.state = .allocating) (hshut : c.shuttingDown = true)
    (hc : c.HasCredentials) (relay : SocketAddr) (returned : Option ℕ) (now : ℕ)
    (controls : List Control) (events : List NativeEvent) :
    (c.lodged .deallocating relay returned now controls events).Lodged where
  allocated := nofun
  bound hsome := .inr ((h.bound hsome).resolve_left (by rw [hs]; nofun))
  expires _ := .inr (.inl rfl)
  credentials _ := hc
  returned _ := hshut

theorem Lodged.move (hmove : Move prims K c act c') : c'.Lodged := by
  cases hmove with
  | settle hsettled => exact h.settled hsettled
  | queue packet =>
    obtain ⟨controls, events, heq⟩ := queuePacket_eq c packet
    rw [heq]
    exact h.of_queues controls events c.pending c.requests
  | start => exact h.launch
  | resend index p now =>
    obtain ⟨controls, events, pending, requests, heq⟩ := retransmit_eq c index p now
    rw [heq]
    exact h.of_queues controls events pending requests
  | renew _ realm nonce pending controls =>
    exact ((h.setAuth realm nonce).of_queues controls c.events pending c.requests).launch
  | challenged realm nonce => exact h.setAuth realm nonce
  | ruin _ _ _ hstate =>
    refine h.of_lost ?_ ?_ (.inl rfl) nofun id
    · obtain rfl | rfl := hstate <;> nofun
    · obtain rfl | rfl := hstate <;> nofun
  | unbind =>
    exact h.of_lost nofun nofun (.inl rfl) (fun hsome => ⟨hsome, .inr rfl⟩) id
  | begin _ _ hnull =>
    refine h.of_lost nofun nofun (h.channel (by rw [hnull]; nofun)) (fun hsome => ?_) id
    obtain hstate | hstate | hstate := h.expires hsome <;> rw [hnull] at hstate <;> cases hstate
  | obtain _ _ _ _ _ _ _ _ _ hcred =>
    exact ⟨fun _ => ⟨rfl, rfl⟩, fun _ => .inl rfl, fun _ => .inl rfl, fun _ => hcred, nofun⟩
  | yield relay returned now controls events draw packet _ _ hstate hshut hcred =>
    exact (h.lodged_deallocating hstate hshut hcred relay returned now controls events).launch
  | release _ _ _ _ hstate =>
    exact h.of_lost nofun nofun (h.channel (by rw [hstate]; nofun)) nofun id
  | close _ _ hshut hready =>
    have hreturn : c.state ≠ .deallocating := fun hstate =>
      absurd (hshut.symm.trans (h.returned hstate)) (by decide)
    refine h.of_lost hready (fun hstate => absurd hstate hreturn) (.inl rfl) (fun hsome => ?_) id
    exact ⟨hsome, ((h.expires hsome).resolve_left hready)⟩
  | surrender events => exact (h.surrendered events).launch
  | strand events => exact h.surrendered events
  | destroy => exact h.of_lost nofun nofun (.inr rfl) (fun hsome => ⟨hsome, .inr rfl⟩) id

end

def Past (c : NativeCore) : Prop := c.state ≠ .null ∧ c.state ≠ .allocating

theorem Past.move (h : c.Past) (hmove : Move prims K c act c') :
    c'.Past ∧ (c'.state = .ready → c.state = .ready) := by
  have hkept : ∀ {c' : NativeCore}, c'.frame = c.frame →
      c'.Past ∧ (c'.state = .ready → c.state = .ready) := by
    intro c' hframe
    have hstate : c'.state = c.state := congrArg Frame.state hframe
    rw [Past, hstate]
    exact ⟨h, id⟩
  cases hmove with
  | settle hsettled => exact hkept hsettled.frame
  | queue packet => exact hkept (frame_queuePacket c packet)
  | start operation authenticated draw packet =>
    exact hkept (frame_launch c operation authenticated 0 .start draw packet)
  | resend _ p => exact hkept (frame_queueRequest c p.packet p.operation .again)
  | renew p realm nonce pending controls draw packet =>
    obtain ⟨controls', events', pending', requests, heq⟩ :=
      launch_eq ((c.setAuth prims realm nonce).shed pending
      controls c.events) p.operation true (p.nonceRetries + 1) .renewal draw packet
    rw [heq]
    exact ⟨h, id⟩
  | challenged => exact ⟨h, id⟩
  | ruin _ _ _ hstate =>
    obtain rfl | rfl := hstate
    · exact ⟨⟨nofun, nofun⟩, nofun⟩
    · exact ⟨⟨nofun, nofun⟩, nofun⟩
  | begin _ _ hnull => exact absurd hnull h.1
  | obtain _ _ _ _ _ _ _ hstate | yield _ _ _ _ _ _ _ _ _ hstate => exact absurd hstate h.2
  | close => exact ⟨h, id⟩
  | _ => exact ⟨⟨nofun, nofun⟩, nofun⟩

/-! ## Requests -/

inductive Follows (c : NativeCore) (new : Pending) : Cause → Prop
  | start (hretries : new.nonceRetries = 0) (hcount : new.transmissions = 1)
      (hrto : new.rto = initialRto) : Follows c new .start
  | again (p : Pending) (hp : p ∈ c.pending) (hoperation : p.operation = new.operation)
      (hlimit : p.transmissions < maxTransmissions) (hretries : new.nonceRetries = p.nonceRetries)
      (hcount : new.transmissions = p.transmissions + 1) (hrto : new.rto = min (p.rto * 2) maxRto) :
      Follows c new .again
  | renewal (p : Pending) (hp : p ∈ c.pending) (hoperation : p.operation = new.operation)
      (hlimit : p.nonceRetries < c.profile.maxNonceRetries)
      (hretries : new.nonceRetries = p.nonceRetries + 1) (hcount : new.transmissions = 1)
      (hrto : new.rto = initialRto) : Follows c new .renewal

/-- A move that queues a request leaves one pending for it, and the others are as they were. -/
theorem request_of_move (h : Move prims K c (.request operation cause) c') :
    ∃ new ∈ c'.pending, new.operation = operation ∧ Follows c new cause ∧
      ∀ q ∈ c'.pending, q = new ∨ q ∈ c.pending := by
  have hlast : ∀ {pending : List Pending} {new : Pending}, (∀ q ∈ pending, q ∈ c.pending) →
      ∀ q ∈ pending ++ [new], q = new ∨ q ∈ c.pending := by
    intro pending new hold q hq
    obtain hq | hq := List.mem_append.mp hq
    · exact .inr (hold q hq)
    · exact .inl (List.mem_singleton.mp hq)
  cases h with
  | start =>
    exact ⟨_, List.mem_append_right _ (List.mem_singleton_self _), rfl, .start rfl rfl rfl,
      hlast fun q hq => hq⟩
  | resend _ p _ hp hcount =>
    obtain ⟨hlt, -⟩ := List.getElem?_eq_some_iff.mp hp
    refine ⟨_, List.mem_set hlt _, rfl, .again p (List.mem_of_getElem? hp) rfl hcount rfl rfl rfl,
      fun q hq => ?_⟩
    obtain hq | rfl := mem_retransmit hq
    · exact .inr hq
    · exact .inl rfl
  | renew p _ _ _ _ _ _ hp hretry _ hpend =>
    exact ⟨_, List.mem_append_right _ (List.mem_singleton_self _), rfl,
      .renewal p hp rfl hretry rfl rfl rfl, hlast fun q hq => hpend.subset hq⟩
  | yield | surrender =>
    exact ⟨_, List.mem_append_right _ (List.mem_singleton_self _), rfl, .start rfl rfl rfl,
      hlast fun q hq => absurd hq List.not_mem_nil⟩

/-- The log grows by what the label says. -/
theorem requests_of_move (h : Move prims K c act c') :
    c'.requests = c.requests ++ act.requests := by
  cases h with
  | settle hs => exact hs.requests.trans (List.append_nil _).symm
  | queue packet =>
    obtain ⟨controls, events, heq⟩ := queuePacket_eq c packet
    rw [heq]
    exact (List.append_nil _).symm
  | start | resend | renew | yield | surrender => rfl
  | _ => exact (List.append_nil _).symm

theorem pending_of_quiet (h : Move prims K c act c')
    (ha : ∀ operation cause, act ≠ .request operation cause) : ∀ q ∈ c'.pending, q ∈ c.pending := by
  have hn : ∀ q ∈ ([] : List Pending), q ∈ c.pending := fun q hq => absurd hq List.not_mem_nil
  cases h with
  | settle hs => exact fun q hq => hs.pending.subset hq
  | queue =>
    intro q hq
    rwa [pending_queuePacket] at hq
  | start operation => exact absurd rfl (ha operation .start)
  | resend _ p => exact absurd rfl (ha p.operation .again)
  | renew p => exact absurd rfl (ha p.operation .renewal)
  | challenged | begin => exact fun q hq => hq
  | yield | surrender => exact absurd rfl (ha .deallocate .start)
  | close _ hp => exact fun q hq => hp.subset hq
  | _ => exact hn

structure Counted (c : NativeCore) : Prop where
  retries : ∀ p ∈ c.pending, p.nonceRetries ≤ c.profile.maxNonceRetries
  sent : ∀ p ∈ c.pending, p.transmissions ≤ maxTransmissions
  paced : ∀ p ∈ c.pending, 0 < p.rto

theorem Counted.new (h : c.Counted) {new : Pending} (hn : Follows c new cause) :
    new.nonceRetries ≤ c.profile.maxNonceRetries ∧ new.transmissions ≤ maxTransmissions ∧
      0 < new.rto := by
  cases hn with
  | start hr hc hrto =>
    rw [hr, hc, hrto]
    exact ⟨Nat.zero_le _, by decide, by decide⟩
  | again p hp _ hl hr hc hrto =>
    rw [hr, hc]
    have hpaced := h.paced p hp
    have hm : 0 < maxRto := by decide
    exact ⟨h.retries p hp, hl, by omega⟩
  | renewal _ _ _ hl hr hc hrto =>
    rw [hr, hc, hrto]
    exact ⟨hl, by decide, by decide⟩

theorem Counted.move (h : c.Counted) (hmove : Move prims K c act c') : c'.Counted := by
  have hp := profile_of_move hmove
  have hs : ∀ q ∈ c'.pending, q.nonceRetries ≤ c.profile.maxNonceRetries ∧
      q.transmissions ≤ maxTransmissions ∧ 0 < q.rto := by
    intro q hq
    have ho : q ∈ c.pending → q.nonceRetries ≤ c.profile.maxNonceRetries ∧
        q.transmissions ≤ maxTransmissions ∧ 0 < q.rto :=
      fun hm => ⟨h.retries q hm, h.sent q hm, h.paced q hm⟩
    cases act with
    | request =>
      obtain ⟨new, -, -, hn, hothers⟩ := request_of_move hmove
      obtain rfl | hm := hothers q hq
      · exact h.new hn
      · exact ho hm
    | quiet | stuck => exact ho (pending_of_quiet hmove nofun q hq)
  rw [← hp] at hs
  exact ⟨fun q hq => (hs q hq).1, fun q hq => (hs q hq).2.1, fun q hq => (hs q hq).2.2⟩

/-! ## A new core -/

structure Initial (c : NativeCore) : Prop where
  state : c.state = .null
  queues : c.pending = [] ∧ c.controls = [] ∧ c.events = []
  channel : c.channel = none
  expires : c.allocationExpiresAt = none
  shut : c.shuttingDown = false
  credentials : c.realm = none ∧ c.nonce = none
  requests : c.requests = []

section Create

variable {server peer : SocketAddr} {username password : Bytes} {profile : CsqttTurnProfile}
  {transport : TurnControlTransport} {start : NativeCore}

theorem initial_create (h : create server username password peer profile transport = .ok start) :
    start.Initial := by
  unfold create at h
  split_ifs at h
  cases h
  exact ⟨rfl, ⟨rfl, rfl, rfl⟩, rfl, rfl, rfl, ⟨rfl, rfl⟩, rfl⟩

theorem profile_create (h : create server username password peer profile transport = .ok start) :
    start.profile = profile := by
  unfold create at h
  split_ifs at h
  cases h
  rfl

end Create

theorem Initial.phased (h : c.Initial) : c.Phased := by
  refine .of_nil h.queues.1 fun _ => ?_
  rw [h.state]
  nofun

theorem Initial.bounded (h : c.Initial) : c.Bounded := by
  refine ⟨?_, ?_⟩
  · rw [h.queues.2.1]
    exact Nat.zero_le _
  · rw [h.queues.2.2]
    exact Nat.zero_le _

theorem Initial.lodged (h : c.Initial) : c.Lodged := by
  refine ⟨?_, ?_, ?_, ?_, ?_⟩
  · rw [h.state]
    nofun
  · rw [h.channel]
    nofun
  · rw [h.expires]
    nofun
  · rw [h.expires]
    nofun
  · rw [h.state]
    nofun

theorem Initial.counted (h : c.Initial) : c.Counted := by
  refine ⟨?_, ?_, ?_⟩ <;> rw [h.queues.1] <;> exact fun p hp => absurd hp List.not_mem_nil

end NativeCore
end Turn
end Csqtt
