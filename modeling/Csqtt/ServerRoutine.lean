import Csqtt.ServerEngine

/-!
# Routine changes of the engine

Most of what the engine does is put together from few changes. `Routine R` says that a relation
between engines holds of these changes and composes. `Sending R` asks only for what sealing and
sending a packet does, `Forwarding R` also for what is queued for the tunnel network, and
`Regular R` for what happens in ticks and in most commands.
-/

namespace Csqtt

/-- The same session, apart from its replay window, counters, times, its local address and its
packet numbers. -/
structure HotSession.Same (s s' : HotSession) : Prop where
  id : s'.id = s.id
  peer : s'.peer = s.peer
  password : s'.password = s.password
  identity : s'.identity = s.identity
  key : s'.key = s.key
  registrationId : s'.registrationId = s.registrationId
  isSrtp : s'.isSrtp = s.isSrtp
  payloadType : s'.output.payloadType = s.output.payloadType

namespace HotSession.Same

variable {s s' s'' : HotSession}

theorem refl (s : HotSession) : Same s s := ⟨rfl, rfl, rfl, rfl, rfl, rfl, rfl, rfl⟩

theorem trans (h : Same s s') (h' : Same s' s'') : Same s s'' :=
  ⟨h'.id.trans h.id, h'.peer.trans h.peer, h'.password.trans h.password,
    h'.identity.trans h.identity, h'.key.trans h.key,
    h'.registrationId.trans h.registrationId, h'.isSrtp.trans h.isSrtp,
    h'.payloadType.trans h.payloadType⟩

end HotSession.Same

/-- The same session, apart from its counters, times and packet numbers. -/
structure HotSession.Alike (s s' : HotSession) : Prop extends s.Same s' where
  replay : s'.replay = s.replay
  localIp : s'.localIp = s.localIp
  tunnelIp : s'.tunnelIp = s.tunnelIp

theorem HotSession.Alike.refl (s : HotSession) : s.Alike s := ⟨.refl s, rfl, rfl, rfl⟩

theorem HotSession.Alike.trans {s s' s'' : HotSession} (h : s.Alike s') (h' : s'.Alike s'') :
    s.Alike s'' :=
  ⟨h.toSame.trans h'.toSame, h'.replay.trans h.replay, h'.localIp.trans h.localIp,
    h'.tunnelIp.trans h.tunnelIp⟩

/-- The same public part, apart from its counters, its time and whether there is a tunnel. -/
structure PublicSession.Same (p p' : PublicSession) : Prop where
  password : p'.password = p.password
  identity : p'.identity = p.identity
  workerId : p'.workerId = p.workerId
  tunnelIp : p'.tunnelIp = p.tunnelIp

/-- An event that starts nothing in the control plane but the end of a session. -/
def ControlEvent.isQuiet : ControlEvent → Bool
  | .sessionClosed .. => true
  | .streamRepair => true
  | .ioCounters => true
  | _ => false

def RouteTable.without (net : Subnet) (routes : RouteTable) (s : HotSession) : RouteTable :=
  match s.tunnelIp, s.registrationId with
  | some ip, some registrationId => (unregister net routes ip registrationId).1
  | _, _ => routes

namespace Engine

def Tunneled (e : Engine) (id : ℕ) : Prop :=
  ∃ slot s, e.sessions.get slot = some s ∧ s.id = id ∧ s.registrationId.isSome

/-- A change of the routes, the epochs, the queue of events, the clocks or the like. -/
structure SameTables (e e' : Engine) : Prop where
  sessions : e'.sessions = e.sessions
  publics : e'.publics = e.publics
  written : e'.written = e.written
  nextId : e'.nextId = e.nextId
  byId : e'.byId = e.byId

/-- A change of the routes, the epochs, the endpoints, the clocks or what was sent. -/
structure Elsewhere (e e' : Engine) : Prop where
  tables : SameTables e e'
  events : e'.events = e.events
  credentials : e'.credentials = e.credentials
  credentialsSnapshot : e'.credentialsSnapshot = e.credentialsSnapshot
  dirty : e'.streamInventoryDirty = e.streamInventoryDirty

structure Beside (e e' : Engine) : Prop extends Elsewhere e e' where
  byPeer : e'.byPeer = e.byPeer
  routes : e'.routes = e.routes
  downlink : e'.downlink = e.downlink

theorem get_setSession (e : Engine) (slot i : ℕ) (s : HotSession) :
    (e.setSession slot s).sessions.get i =
      if i = slot then (e.sessions.get i).map fun _ => s else e.sessions.get i :=
  Slab.get_modify ..

theorem get_setSession_self {e : Engine} {slot : ℕ} {s : HotSession}
    (hs : e.sessions.get slot = some s) (s' : HotSession) :
    (e.setSession slot s').sessions.get slot = some s' := by
  rw [get_setSession, if_pos rfl, hs, Option.map_some]

theorem of_get_setSession {e : Engine} {slot i : ℕ} {s s' t : HotSession}
    (hs : e.sessions.get slot = some s) (ht : (e.setSession slot s').sessions.get i = some t) :
    i = slot ∧ t = s' ∨ e.sessions.get i = some t := by
  rw [get_setSession] at ht
  split_ifs at ht with hi
  · rw [hi, hs] at ht
    exact .inl ⟨hi, (Option.some.inj ht).symm⟩
  · exact .inr ht

theorem appended_trans {α : Type*} {l l' l'' : List α} {p p' : α → Prop}
    (h : ∃ new, l' = l ++ new ∧ ∀ x ∈ new, p x) (h' : ∃ new, l'' = l' ++ new ∧ ∀ x ∈ new, p' x)
    (hp : ∀ x, p' x → p x) : ∃ new, l'' = l ++ new ∧ ∀ x ∈ new, p x := by
  obtain ⟨new, rfl, hn⟩ := h
  obtain ⟨new', rfl, hn'⟩ := h'
  refine ⟨new ++ new', List.append_assoc .., fun x hx => ?_⟩
  obtain hx | hx := List.mem_append.mp hx
  · exact hn x hx
  · exact hp x (hn' x hx)

theorem publics_updatePublic (e : Engine) (id i : ℕ) (f : PublicSession → PublicSession) :
    (e.updatePublic id f).publics i = if i = id then (e.publics id).map f else e.publics i :=
  Function.update_apply ..

theorem publics_index (e : Engine) (n : NewSession) (output : ServerWire.OutState) (i : ℕ) :
    (e.index n output).publics i =
      if i = e.nextId then some (.new n.endpoint.peer n.password n.identity n.isSrtp e.wallNow)
      else e.publics i :=
  Function.update_apply ..

/-- Nothing but the queue of the events changes. -/
theorem queueEvent_eq (e : Engine) (event : ControlEvent) :
    ∃ events, e.queueEvent event = { e with events } := by
  unfold queueEvent trySend
  split_ifs
  · exact ⟨e.events ++ [event], rfl⟩
  · exact ⟨e.events, rfl⟩

theorem sessions_queueEvent (e : Engine) (event : ControlEvent) :
    (e.queueEvent event).sessions = e.sessions := by
  obtain ⟨_, he⟩ := queueEvent_eq e event
  rw [he]

theorem get_queueEvent {e : Engine} {slot : ℕ} {s : HotSession}
    (h : e.sessions.get slot = some s) (event : ControlEvent) :
    (e.queueEvent event).sessions.get slot = some s := by
  rw [sessions_queueEvent]
  exact h

theorem mem_events_queueEvent {e : Engine} {event x : ControlEvent}
    (h : x ∈ (e.queueEvent event).events) : x ∈ e.events ∨ x = event := by
  unfold queueEvent trySend at h
  split_ifs at h
  · exact (List.mem_append.mp h).imp_right List.mem_singleton.mp
  · exact .inl h

theorem maxById_mem {l : List (ℕ × HotSession)} {x : ℕ × HotSession} (h : maxById l = some x) :
    x ∈ l := by
  induction l generalizing x with
  | nil => cases h
  | cons _ rest ih =>
    rw [maxById] at h
    cases hr : maxById rest with
    | none =>
      rw [hr] at h
      cases h
      exact List.mem_cons_self
    | some =>
      simp only [hr] at h
      split_ifs at h
      · cases h
        exact List.mem_cons_self
      · cases h
        exact List.mem_cons_of_mem _ (ih hr)

theorem fallback_spec {e : Engine} {s other : HotSession} {ip : Ipv4} {slot : ℕ}
    (h : e.fallback s ip = some (slot, other)) : e.Tunneled other.id := by
  have hm := List.mem_filter.mp (maxById_mem h)
  have hr := (of_decide_eq_true hm.2).2.1
  exact ⟨slot, other, Slab.mem_slots.mp hm.1, rfl, hr⟩

structure Routine (cfg : ServerConfig) (R : Engine → Engine → Prop) : Prop where
  refl : ∀ e, R e e
  trans : ∀ {e e' e''}, R e e' → R e' e'' → R e e''
  elsewhere : ∀ {e e'}, Elsewhere e e' → R e e'
  marked : ∀ (e : Engine) (dirty : Bool), R e (e.setDirty dirty)
  quiet : ∀ e event, event.isQuiet = true → R e (e.queueEvent event)
  session : ∀ {e : Engine} {slot s s'}, e.sessions.get slot = some s → s.Same s' →
    s'.replay = s.replay → R e (e.setSession slot s')
  published : ∀ (e : Engine) (id : ℕ) (f : PublicSession → PublicSession),
    (∀ p : PublicSession, p.Same (f p)) →
    (∀ p, (f p).hasTunnel = true → p.hasTunnel = true ∨ e.Tunneled id) → R e (e.updatePublic id f)
  leaves : ∀ {e : Engine} {slot s}, e.sessions.get slot = some s → R e (e.unindex slot s)
  counted : ∀ e : Engine, R e e.publishSessions
  compacted : ∀ e : Engine, R e (e.compactMemory cfg)

def wrapped (cfg : ServerConfig) (s : HotSession) (plain : Bytes) (io : SendIo) : HotSession :=
  { s with
    output := (ServerWire.wrapLegacyInto (cfg.prims.keyed s.key) s.isSrtp s.output plain io.draws
      io.buffer io.now).1 }

theorem alike_wrapped (cfg : ServerConfig) (s : HotSession) (plain : Bytes) (io : SendIo) :
    s.Alike (wrapped cfg s plain io) :=
  ⟨⟨rfl, rfl, rfl, rfl, rfl, rfl, rfl, rfl⟩, rfl, rfl, rfl⟩

structure Sending (cfg : ServerConfig) (R : Engine → Engine → Prop) : Prop where
  refl : ∀ e, R e e
  trans : ∀ {e e' e''}, R e e' → R e' e'' → R e e''
  beside : ∀ {e e'}, Beside e e' → R e e'
  wraps : ∀ {e : Engine} {slot s} (plain : Bytes) (io : SendIo), e.sessions.get slot = some s →
    R e (e.setSession slot (wrapped cfg s plain io))

/-- The queue for the tunnel network is changed in ways that leave the paths of its lanes. -/
structure Forwarding (cfg : ServerConfig) (R : Engine → Engine → Prop) : Prop extends
    Sending cfg R where
  counted : ∀ (e : Engine) (slot bytes : ℕ), R e (e.countDown slot bytes)
  queued : ∀ (e : Engine) {q : DownlinkQueue}, e.downlink.SamePaths q → R e (e.setDownlink q)

structure Steady (cfg : ServerConfig) (R : Engine → Engine → Prop) : Prop
    extends Sending cfg R where
  quiet : ∀ e event, event.isQuiet = true → R e (e.queueEvent event)
  removed : ∀ (e : Engine) (slot : ℕ) (reason : String),
    R e (e.removeSlotWithReason cfg slot reason)
  publishAll : ∀ e : Engine, R e e.publishAll
  compacted : ∀ e : Engine, R e (e.compactMemory cfg)

structure Regular (cfg : ServerConfig) (R : Engine → Engine → Prop) : Prop
    extends Steady cfg R where
  marked : ∀ (e : Engine) (dirty : Bool), R e (e.setDirty dirty)

/-- The counters go to the public parts one after the other, and then all sessions have reported. -/
theorem publishAll_of {R : Engine → Engine → Prop} (ht : ∀ {e e' e''}, R e e' → R e' e'' → R e e'')
    (hp : ∀ (e : Engine) (s : HotSession) (wallNow : ℕ),
      R e (e.updatePublic s.id (·.publish s wallNow)))
    (hc : ∀ e : Engine, R e e.publishSessions) (e : Engine) : R e e.publishAll := by
  have hf : ∀ (entries : List (ℕ × HotSession)) (e e' : Engine), R e e' →
      R e ((entries.foldl (fun e entry =>
        e.updatePublic entry.2.id (·.publish entry.2 e.wallNow)) e').publishSessions) := by
    intro entries
    induction entries with
    | nil => exact fun e e' h => ht h (hc e')
    | cons entry _ ih => exact fun e e' h => ih e _ (ht h (hp e' entry.2 e'.wallNow))
  cases hs : e.sessions.slots with
  | nil =>
    rw [publishAll, hs]
    exact hc e
  | cons entry entries =>
    rw [publishAll, hs]
    exact hf entries e _ (hp e entry.2 e.wallNow)

namespace Routine

variable {cfg : ServerConfig} {R : Engine → Engine → Prop} (h : Routine cfg R)

include h

variable (e : Engine)

theorem setRoutes (routes : RouteTable) : R e (e.setRoutes routes) :=
  h.elsewhere ⟨⟨rfl, rfl, rfl, rfl, rfl⟩, rfl, rfl, rfl, rfl⟩

theorem syncDownlinkProfile (ip : Option Ipv4) : R e (e.syncDownlinkProfile cfg ip) :=
  h.elsewhere ⟨⟨rfl, rfl, rfl, rfl, rfl⟩, rfl, rfl, rfl, rfl⟩

theorem setDownlink (downlink : DownlinkQueue) : R e (e.setDownlink downlink) :=
  h.elsewhere ⟨⟨rfl, rfl, rfl, rfl, rfl⟩, rfl, rfl, rfl, rfl⟩

theorem unroute (s : HotSession) (ip : Ipv4) (registrationId : ℕ) :
    R e (e.unroute cfg s ip registrationId) := by
  unfold Engine.unroute
  dsimp only
  have hr := h.setRoutes e (RouteTable.unregister cfg.net e.routes ip registrationId).1
  split
  · rename_i slot other _ ho
    split_ifs
    · apply h.trans (h.setRoutes _ _)
      exact h.published _ other.id (·.setTunnel true) (fun _ => ⟨rfl, rfl, rfl, rfl⟩)
        (fun _ _ => .inr (fallback_spec ho))
    · exact hr
  · exact hr

theorem removeSlotWithReason (slot : ℕ) (reason : String) :
    R e (e.removeSlotWithReason cfg slot reason) := by
  unfold Engine.removeSlotWithReason
  split
  · exact h.refl e
  · rename_i s hs
    have he := fun e' : Engine => h.trans
      (h.published e' s.id (·.setTunnel false) (fun _ => ⟨rfl, rfl, rfl, rfl⟩)
        (fun _ ht => by cases ht))
      (h.quiet _ (.sessionClosed s.peer s.id reason) rfl)
    refine h.trans ?_ (he _)
    apply h.trans (h.leaves hs)
    split
    · exact h.trans (h.unroute _ s _ _) (h.syncDownlinkProfile _ _)
    · exact h.refl _

theorem sending : Sending cfg R where
  refl := h.refl
  trans := h.trans
  beside hb := h.elsewhere hb.toElsewhere
  wraps {_ _ s} plain io hs := h.session hs (alike_wrapped cfg s plain io).toSame rfl

theorem forwarding : Forwarding cfg R where
  toSending := h.sending
  queued e _ _ := h.setDownlink e _
  counted e slot bytes := by
    unfold Engine.countDown
    split
    · exact h.refl e
    · rename_i s hs
      exact h.session hs ⟨rfl, rfl, rfl, rfl, rfl, rfl, rfl, rfl⟩ rfl

theorem regular : Regular cfg R where
  toSending := h.sending
  quiet := h.quiet
  removed := h.removeSlotWithReason
  publishAll := publishAll_of h.trans
    (fun e s _ => h.published e s.id _ (fun _ => ⟨rfl, rfl, rfl, rfl⟩) (fun _ => .inl)) h.counted
  compacted := h.compacted
  marked := h.marked

end Routine

namespace Sending

variable {cfg : ServerConfig} {R : Engine → Engine → Prop} (h : Sending cfg R)

include h

theorem foldl {α : Type*} {step : Engine → α → Engine} (hs : ∀ e a, R e (step e a)) (e : Engine)
    (as : List α) : R e (as.foldl step e) := by
  induction as generalizing e with
  | nil => exact h.refl e
  | cons a _ ih => exact h.trans (hs e a) (ih _)

variable (e : Engine)

theorem sendPlain (slot : ℕ) (plain : Bytes) (io : SendIo) :
    R e (e.sendPlain cfg slot plain io).1 := by
  unfold Engine.sendPlain
  split
  · exact h.refl e
  · rename_i s hs
    split_ifs
    · have hset := h.wraps plain io hs
      dsimp only
      split
      · exact hset
      · exact h.trans hset (h.beside ⟨⟨⟨rfl, rfl, rfl, rfl, rfl⟩, rfl, rfl, rfl, rfl⟩, rfl,
          rfl, rfl⟩)
    · exact h.refl e

theorem broadcastPlain (payload : Bytes) (io : ℕ → SendIo) :
    R e (e.broadcastPlain cfg payload io) :=
  h.foldl (fun e slot => h.sendPlain e slot payload (io slot)) e _

theorem sendCarriers (payload : Bytes) (sent : ℕ) (carriers : List (ℕ × SendIo)) :
    R e (e.sendCarriers cfg payload sent carriers) := by
  induction carriers generalizing e sent with
  | nil => exact h.refl e
  | cons carrier _ ih =>
    have hs := h.sendPlain e carrier.1 payload carrier.2
    rw [Engine.sendCarriers]
    split_ifs
    · exact h.refl e
    · split
      · rename_i e' heq
        rw [heq] at hs
        exact h.trans hs (ih e' _)
      · rename_i e' heq
        rw [heq] at hs
        exact h.trans hs (ih e' _)

end Sending

namespace Forwarding

variable {cfg : ServerConfig} {R : Engine → Engine → Prop} (h : Forwarding cfg R)

include h

variable (e : Engine)

theorem sendDownEndpoint (endpoint : RouteEndpoint) (packet : Bytes) (io : SendIo) :
    R e (e.sendDownEndpoint cfg endpoint packet io).1 := by
  have hs := h.sendPlain e endpoint.slot packet io
  unfold Engine.sendDownEndpoint
  split
  · exact h.refl e
  · split_ifs
    · exact h.refl e
    · split
      · rename_i sent heq
        rw [heq] at hs
        exact h.trans hs (h.counted _ _ _)
      · rename_i sent heq
        rw [heq] at hs
        exact hs

theorem sendDownLoop (packet : Bytes) (io : SendIo) (endpoints : List RouteEndpoint) :
    R e (e.sendDownLoop cfg packet io endpoints).1 := by
  induction endpoints generalizing e with
  | nil => exact h.refl e
  | cons endpoint _ ih =>
    have hs := h.sendDownEndpoint e endpoint packet io
    rw [Engine.sendDownLoop]
    split
    · rename_i e' heq
      rw [heq] at hs
      exact h.trans hs (ih e')
    · exact hs

theorem sendDownKey (key : UInt8) (start : ℕ) (packet : Bytes) (io : SendIo) :
    R e (e.sendDownKey cfg key start packet io).1 :=
  h.sendDownLoop e packet io _

theorem drainClass (c : PacketClass) (io : ℕ → DrainIo) (remaining : ℕ) (e : Engine) :
    R e (e.drainClass cfg c io remaining).1 := by
  induction remaining generalizing e with
  | zero => exact h.refl e
  | succ remaining ih =>
    rw [Engine.drainClass]
    split_ifs
    · have hp := e.downlink.samePaths_dequeue c
      split
      · rename_i downlink heq
        rw [heq] at hp
        exact h.queued e hp
      · rename_i downlink key packet heq
        rw [heq] at hp
        have hs := h.trans (h.queued e hp) (h.sendDownKey _ key (io remaining).start packet
          (io remaining).send)
        split
        · rename_i sent heq
          rw [heq] at hs
          exact h.trans hs (h.queued _ (DownlinkQueue.samePaths_setQueue _ _ _ _))
        · rename_i sent _ _ heq
          rw [heq] at hs
          exact h.trans (h.trans hs (h.queued _ (DownlinkQueue.samePaths_setQueue _ _ _ _))) (ih _)
    · exact h.refl e

theorem drainDownlink (io : ℕ → DrainIo) : R e (e.drainDownlink cfg io) := by
  have hclass : ∀ (classes : List PacketClass) (remaining : ℕ) (e : Engine),
      R e (drainClasses cfg io classes remaining e) := by
    intro classes
    induction classes with
    | nil => exact fun _ e => h.refl e
    | cons c _ ih =>
      intro remaining e
      have hc := h.drainClass c io remaining e
      rw [drainClasses]
      split
      · rename_i heq
        rwa [heq] at hc
      · rename_i heq
        rw [heq] at hc
        exact h.trans hc (ih _ _)
  exact hclass _ _ e

end Forwarding

namespace Steady

variable {cfg : ServerConfig} {R : Engine → Engine → Prop} (h : Steady cfg R)

include h

variable (e : Engine)

theorem removeSlots (slots : List ℕ) (reason : String) : R e (e.removeSlots cfg slots reason) :=
  h.foldl (fun e slot => h.removed e slot reason) e slots.reverse

theorem setAuthoritativeEpoch (identity : Identity) : R e (e.setAuthoritativeEpoch cfg identity) :=
  h.trans (h.removeSlots e _ _)
    (h.beside ⟨⟨⟨rfl, rfl, rfl, rfl, rfl⟩, rfl, rfl, rfl, rfl⟩, rfl, rfl, rfl⟩)

theorem disconnectDevice (deviceId : Text) (requester : ℕ) (io : SendIo) :
    R e (e.disconnectDevice cfg deviceId requester io) := by
  unfold Engine.disconnectDevice
  split
  · exact h.removeSlots e _ _
  · exact h.trans (h.sendPlain e _ _ io) (h.removeSlots _ _ _)

theorem sendStreamControl (control : StreamControl) : R e (e.sendStreamControl cfg control) := by
  have hs := h.sendCarriers e control.payload 0 control.carriers
  unfold Engine.sendStreamControl
  split_ifs
  · exact h.trans hs (h.quiet _ _ rfl)
  · exact hs

theorem removeIdle : R e (e.removeIdle cfg) :=
  h.foldl (fun e slot => h.removed e slot _) e _

theorem maintainSessions : R e (e.maintainSessions cfg) := by
  unfold Engine.maintainSessions
  split_ifs
  · apply h.trans (h.trans (h.publishAll e) (h.removeIdle _))
    exact h.beside ⟨⟨⟨rfl, rfl, rfl, rfl, rfl⟩, rfl, rfl, rfl, rfl⟩, rfl, rfl, rfl⟩
  · exact h.refl e

theorem sweepIdleEpochs : R e e.sweepIdleEpochs := by
  unfold Engine.sweepIdleEpochs
  split_ifs
  · exact h.refl e
  · exact h.beside ⟨⟨⟨rfl, rfl, rfl, rfl, rfl⟩, rfl, rfl, rfl, rfl⟩, rfl, rfl, rfl⟩

theorem maintainMemory (spacious : Bool) : R e (e.maintainMemory cfg spacious) := by
  unfold Engine.maintainMemory
  split_ifs
  · exact h.compacted e
  · exact h.beside ⟨⟨⟨rfl, rfl, rfl, rfl, rfl⟩, rfl, rfl, rfl, rfl⟩, rfl, rfl, rfl⟩
  · exact h.refl e

theorem beforeStreams (io : TickIo) : R e (e.beforeStreams cfg io) := by
  have hc : R e (e.tickClocks io) :=
    h.beside ⟨⟨⟨rfl, rfl, rfl, rfl, rfl⟩, rfl, rfl, rfl, rfl⟩, rfl, rfl, rfl⟩
  exact h.trans hc (h.maintainSessions _)

theorem afterStreams (io : TickIo) : R e (e.afterStreams cfg io) := by
  apply h.trans (h.foldl (fun e control => h.sendStreamControl e control) _ io.control)
  exact h.trans (h.sweepIdleEpochs _) (h.maintainMemory _ _)

end Steady

theorem Regular.onTick {cfg : ServerConfig} {R : Engine → Engine → Prop} (h : Regular cfg R)
    (e : Engine) (io : TickIo) : R e (e.onTick cfg io) := by
  have hm : R e ((e.beforeStreams cfg io).rebuildStreams io.rebuilt) :=
    h.trans (h.beforeStreams e io) (h.marked _ _)
  exact h.trans hm (h.afterStreams _ io)

theorem Routine.drainDownlink {cfg : ServerConfig} {R : Engine → Engine → Prop} (h : Routine cfg R)
    (e : Engine) (io : ℕ → DrainIo) : R e (e.drainDownlink cfg io) :=
  h.forwarding.drainDownlink e io

/-- What a command does: most are steady, and the others change one session, which is there, or
replace the credentials. -/
inductive CommandCase (cfg : ServerConfig) (e : Engine) : Command → Engine → Prop
  | steady {command : Command} {e' : Engine}
      (hother : ∀ credentials, command ≠ .replaceCredentials credentials)
      (h : ∀ R, Steady cfg R → R e e') : CommandCase cfg e command e'
  | credentials (credentials : List Credential) : CommandCase cfg e
      (.replaceCredentials credentials)
      { e.removeSlots cfg (e.staleSlots fun s => !containsPassword credentials s.password)
        "credential-removed" with credentials }
  | unrouted {sessionId registrationId workerId desiredCount slot : ℕ} {ip : Ipv4} {s : HotSession}
      (routes : RouteTable) (old : Option Ipv4)
      (hroutes : RouteTable.register cfg.net (e.routes.without cfg.net s) ip
        ⟨sessionId, registrationId, workerId, slot⟩ = (routes, false))
      (hold : old = if s.registrationId.isSome then s.tunnelIp else none) :
      CommandCase cfg e (.activateTunnel sessionId ip registrationId workerId desiredCount)
        ((e.setRoutes routes).syncDownlinkProfile cfg old)
  | activated {sessionId workerId : ℕ} (ip : Ipv4) (registrationId desiredCount slot : ℕ)
      (s : HotSession) (routes : RouteTable) (old : Option Ipv4)
      (hslot : e.byId sessionId = some slot)
      (hs : e.sessions.get slot = some s)
      (hroutes : RouteTable.register cfg.net (e.routes.without cfg.net s) ip
        ⟨sessionId, registrationId, workerId, slot⟩ = (routes, true))
      (hold : old = if s.registrationId.isSome then s.tunnelIp else none) :
      CommandCase cfg e (.activateTunnel sessionId ip registrationId workerId desiredCount)
        ((((((e.setRoutes routes).setSession slot (s.activate ip registrationId
          desiredCount)).updatePublic s.id (·.activate ip desiredCount)).syncDownlinkProfile cfg
            old).syncDownlinkProfile cfg (some ip)).setDirty true)
  | deactivated {sessionId : ℕ} (slot : ℕ) (s : HotSession) (routes : RouteTable)
      (hs : e.sessions.get slot = some s) (hroutes : routes = e.routes.without cfg.net s) :
      CommandCase cfg e (.deactivateTunnel sessionId)
        (((((e.setRoutes routes).setSession slot s.deactivate).updatePublic s.id
          (·.deactivate)).syncDownlinkProfile cfg s.tunnelIp).setDirty true)
  | written {sessionId : ℕ} (payload : Bytes) (slot : ℕ) (s : HotSession)
      (hslot : e.byId sessionId = some slot) (hs : e.sessions.get slot = some s) :
      CommandCase cfg e (.injectTun sessionId payload)
        { e.setSession slot (s.countUp payload.length) with
          written := e.written ++ [(s.id, payload)] }
  | renamed {sessionId : ℕ} {q : DownlinkQueue} (identity : Identity) (slot : ℕ) (s : HotSession)
      (hslot : e.byId sessionId = some slot) (hs : e.sessions.get slot = some s)
      (hq : q = e.downlink ∨ ∃ key, q = e.downlink.clear key) :
      CommandCase cfg e (.updateEpoch sessionId identity)
        ((((e.setSession slot (s.setIdentity identity)).updatePublic s.id
          (·.setIdentity identity)).setDownlink q).setDirty true)

theorem commandCase_onCommand (cfg : ServerConfig) (e : Engine) (command : Command)
    (io : CommandIo) : CommandCase cfg e command (e.onCommand cfg command io) := by
  have hnone : ∀ command : Command, (∀ credentials, command ≠ .replaceCredentials credentials) →
      CommandCase cfg e command e := fun _ hother => .steady hother fun _ h => h.refl e
  cases command with
  | sendPlain =>
    rw [onCommand]
    split
    · exact hnone _ nofun
    · exact .steady nofun fun _ h => h.sendPlain ..
  | broadcastPlain => exact .steady nofun fun _ h => h.broadcastPlain ..
  | activateTunnel =>
    rw [onCommand, activateTunnel]
    split
    · exact hnone _ nofun
    · rename_i hslot
      split
      · exact hnone _ nofun
      · rename_i hs
        dsimp only
        split
        · rename_i hroutes
          exact .unrouted _ _ hroutes rfl
        · rename_i hroutes
          exact .activated _ _ _ _ _ _ _ hslot hs hroutes rfl
  | deactivateTunnel =>
    rw [onCommand, removeTunnel]
    split
    · exact hnone _ nofun
    · split
      · exact hnone _ nofun
      · rename_i hs
        exact .deactivated _ _ _ hs rfl
  | injectTun =>
    rw [onCommand, injectTun]
    split
    · exact hnone _ nofun
    · rename_i hslot
      split
      · exact hnone _ nofun
      · rename_i hs
        unfold writeTun
        split_ifs
        · exact .written _ _ _ hslot hs
        · exact hnone _ nofun
  | updateEpoch =>
    rw [onCommand, updateEpoch]
    split
    · exact hnone _ nofun
    · rename_i hslot
      split
      · exact hnone _ nofun
      · rename_i hs
        refine .renamed _ _ _ hslot hs ?_
        split
        · exact .inl rfl
        · exact .inr ⟨_, rfl⟩
  | setAuthoritativeEpoch => exact .steady nofun fun _ h => h.setAuthoritativeEpoch ..
  | disconnectDevice => exact .steady nofun fun _ h => h.disconnectDevice ..
  | replaceCredentials credentials => exact .credentials credentials
  | dropSession =>
    rw [onCommand]
    split
    · exact hnone _ nofun
    · exact .steady nofun fun _ h => h.removed ..
  | dropPassword => exact .steady nofun fun _ h => h.removeSlots ..
  | compactMemory => exact .steady nofun fun _ h => h.compacted e

end Engine
end Csqtt
