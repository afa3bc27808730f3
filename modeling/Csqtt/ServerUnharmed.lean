import Csqtt.ServerControlPlane

/-!
# Steps that harm no session

`Unharmed` says of a step that no session is removed, that each keeps its place, its peer and its
registration, and that the routes stay as they are. A payload that is neither a GETCONF nor a
DISCONNECT comes to no more than that. What is on the way for such a payload is `Idle`.
-/

namespace Csqtt

variable {s : HotSession} {slot : ℕ}

namespace Engine

structure Unharmed (e e' : Engine) : Prop where
  sessions : ∀ slot s, e.sessions.get slot = some s →
    ∃ s', e'.sessions.get slot = some s' ∧ s.Same s' ∧ s'.tunnelIp = s.tunnelIp
  routes : e'.routes = e.routes
  publics : e'.publics = e.publics

namespace Unharmed

variable {e e' e'' : Engine}

theorem trans (h : Unharmed e e') (h' : Unharmed e' e'') : Unharmed e e'' where
  sessions slot s hs := by
    obtain ⟨s', hs', hsame, ht⟩ := h.sessions slot s hs
    obtain ⟨s'', hs'', hsame', ht'⟩ := h'.sessions slot s' hs'
    exact ⟨s'', hs'', hsame.trans hsame', ht'.trans ht⟩
  routes := h'.routes.trans h.routes
  publics := h'.publics.trans h.publics

theorem of_eq (hsession : e'.sessions = e.sessions) (hr : e'.routes = e.routes)
    (hp : e'.publics = e.publics) : Unharmed e e' :=
  ⟨fun _ s hs => ⟨s, hsession ▸ hs, .refl s, rfl⟩, hr, hp⟩

theorem refl (e : Engine) : Unharmed e e := of_eq rfl rfl rfl

theorem setSession (hs : e.sessions.get slot = some s) (s' : HotSession) (hsame : s.Same s')
    (htunnel : s'.tunnelIp = s.tunnelIp) :
    Unharmed e (e.setSession slot s') where
  sessions i t ht := by
    rw [get_setSession]
    split_ifs with hi
    · rw [hi, hs] at ht
      cases ht
      rw [hi, hs]
      exact ⟨s', rfl, hsame, htunnel⟩
    · exact ⟨t, ht, .refl t, rfl⟩
  routes := rfl
  publics := rfl

end Unharmed

theorem unharmed_queueEvent (e : Engine) (event : ControlEvent) :
    Unharmed e (e.queueEvent event) := by
  obtain ⟨_, he⟩ := queueEvent_eq e event
  rw [he]
  exact .of_eq rfl rfl rfl

variable (cfg : ServerConfig)

theorem unharmed_sendPlain (e : Engine) (slot : ℕ) (plain : Bytes) (io : SendIo) :
    Unharmed e (e.sendPlain cfg slot plain io).1 := by
  unfold sendPlain
  split
  · exact .refl e
  · rename_i s hs
    split_ifs
    · have hset := Unharmed.setSession hs { s with
        output := (ServerWire.wrapLegacyInto (cfg.prims.keyed s.key) s.isSrtp s.output plain
          io.draws io.buffer io.now).1 } ⟨rfl, rfl, rfl, rfl, rfl, rfl, rfl, rfl⟩ rfl
      dsimp only
      split
      · exact hset
      · exact hset.trans (.of_eq rfl rfl rfl)
    · exact .refl e

theorem unharmed_writeTun {e : Engine} (hs : e.sessions.get slot = some s) (plain : Bytes)
    (room : Bool) : Unharmed e (e.writeTun slot s plain room) := by
  unfold writeTun
  split_ifs
  · have hset := Unharmed.setSession hs (s.countUp plain.length)
      ⟨rfl, rfl, rfl, rfl, rfl, rfl, rfl, rfl⟩ rfl
    exact ⟨hset.sessions, rfl, rfl⟩
  · exact .refl e

theorem events_sendPlain (e : Engine) (slot : ℕ) (plain : Bytes) (io : SendIo) :
    (e.sendPlain cfg slot plain io).1.events = e.events := by
  unfold sendPlain
  split
  · rfl
  · split_ifs
    · dsimp only
      split
      · rfl
      · rfl
    · rfl

def opened (key wire : Bytes) (mode : Option Bool) : Option Bytes :=
  match ServerWire.unwrapLegacyInPlace (cfg.prims.keyed key) wire mode with
  | (_, .error _) => none
  | (buffer, .ok d) => some (Buffer.slice buffer d.start d.stop)

def keys (e : Engine) : List Bytes := e.credentials.map (·.key) ++ e.sessions.values.map (·.key)

end Engine

def isIdlePayload (payload : Bytes) : Bool := !isGetconf payload && !isDisconnect payload

/-- Under every key that is tried the datagram carries no GETCONF and no DISCONNECT. -/
def Engine.CarriesIdle (cfg : ServerConfig) (e : Engine) (wire : Bytes) : Prop :=
  ∀ key ∈ e.keys, ∀ mode payload, Engine.opened cfg key wire mode = some payload →
    isIdlePayload payload = true

def Engine.TunnelAt (e : Engine) (endpoint : EndpointKey) : Prop :=
  ∀ slot s, e.slotFor endpoint = some slot → e.sessions.get slot = some s →
    (s.tunnelIp.isSome ∧ s.registrationId.isSome) ∨ s.pendingTunnel = true

def ControlEvent.Idle : ControlEvent → Prop
  | .payload _ _ plain => isIdlePayload plain = true
  | _ => False

def Command.Idle : Command → Prop
  | .sendPlain _ _ => True
  | _ => False

def Op.Idle : Op → Prop
  | .payload plain => isIdlePayload plain = true
  | .frameGate _ => True
  | .frame _ => True
  | .acquire first => first.Idle
  | _ => False

structure Task.Idle (t : Task) : Prop where
  ops : ∀ op ∈ t.ops, op.Idle
  recover : t.recover = []

namespace Engine

variable (cfg : ServerConfig)

theorem findCredential_eq_none {wire : Bytes} {credentials : List Credential}
    (h : ∀ credential ∈ credentials, ∀ payload, opened cfg credential.key wire none = some payload →
      isIdlePayload payload = true) : findCredential cfg wire credentials = none := by
  induction credentials with
  | nil => rfl
  | cons credential _ ih =>
    have hr := ih fun c hc => h c (List.mem_cons_of_mem _ hc)
    have hf := h credential List.mem_cons_self
    rw [findCredential]
    unfold opened at hf
    split
    · exact hr
    · rename_i buffer decoded hu
      rw [hu] at hf
      have hid := hf _ rfl
      dsimp only
      split
      · exact hr
      · rename_i identity hi
        rw [isIdlePayload, isGetconf_of_parseGetconfEpoch hi] at hid
        cases hid

structure Serves (e e' : Engine) : Prop where
  unharmed : Unharmed e e'
  events : ∀ x ∈ e'.events, x ∈ e.events ∨ x.Idle

variable {e : Engine}

theorem Serves.of_eq {e' : Engine} (h : Unharmed e e') (he : e'.events = e.events) : Serves e e' :=
  ⟨h, fun _ hx => .inl (he ▸ hx)⟩

theorem serves_dispatch (hs : e.sessions.get slot = some s) {plain : Bytes}
    (hid : isIdlePayload plain = true)
    (ht : (s.tunnelIp.isSome ∧ s.registrationId.isSome) ∨ s.pendingTunnel = true) (io : UdpIo) :
    Serves e (e.dispatch cfg slot s plain io) := by
  unfold dispatch
  split_ifs with hl hready hk hc hr hp
  · exact .of_eq (.refl e) rfl
  · exact .of_eq (unharmed_sendPlain cfg e slot readyOk io.send) (events_sendPlain cfg e slot _ _)
  · exact .of_eq (.refl e) rfl
  · refine ⟨unharmed_queueEvent e _, fun x hx => ?_⟩
    obtain hx | rfl := mem_events_queueEvent hx
    · exact .inl hx
    · exact .inr hid
  · refine .of_eq (unharmed_writeTun hs plain io.tunRoom) ?_
    unfold writeTun
    split_ifs <;> rfl
  · exact .of_eq (.refl e) rfl
  · obtain ⟨hip, hreg⟩ | hpends := ht
    · rw [hip, hreg] at hr
      exact absurd rfl hr
    · exact absurd hpends hp

theorem serves_receive (hs : e.sessions.get slot = some s) {plain : Bytes}
    (hid : isIdlePayload plain = true)
    (ht : (s.tunnelIp.isSome ∧ s.registrationId.isSome) ∨ s.pendingTunnel = true)
    (localIp : Option IpAddr) (seq : UInt16) (io : UdpIo) :
    Serves e (e.receive cfg slot s localIp seq plain io) := by
  unfold receive
  split
  · rename_i replay _
    exact .of_eq (.setSession hs { s with replay } ⟨rfl, rfl, rfl, rfl, rfl, rfl, rfl, rfl⟩ rfl) rfl
  · rename_i replay _
    have hset := Unharmed.setSession hs (s.seen replay e.monotonicMs localIp)
      ⟨rfl, rfl, rfl, rfl, rfl, rfl, rfl, rfl⟩ rfl
    have hr : Unharmed e { e.setSession slot (s.seen replay e.monotonicMs localIp) with
        byPeer := rekey e.byPeer s localIp slot } := hset.trans (.of_eq rfl rfl rfl)
    have hd := serves_dispatch cfg (e := { e.setSession slot (s.seen replay e.monotonicMs
      localIp) with byPeer := rekey e.byPeer s localIp slot }) (get_setSession_self hs _) hid ht io
    exact ⟨hr.trans hd.unharmed, hd.events⟩

/-- A datagram that carries no GETCONF and no DISCONNECT harms no session, wherever it comes from.
-/
theorem serves_onUdp {endpoint : EndpointKey} {wire : Bytes} (hidle : e.CarriesIdle cfg wire)
    (htunnel : e.TunnelAt endpoint) (io : UdpIo) : Serves e (e.onUdp cfg endpoint wire io) := by
  unfold onUdp
  split
  · rename_i slot hslot
    unfold handleExisting
    split
    · exact .of_eq (.refl e) rfl
    · rename_i s hs
      have hkey : s.key ∈ e.keys := by
        refine List.mem_append_right _ (List.mem_map_of_mem (Slab.mem_values.mpr ⟨slot, hs⟩))
      have hpay := hidle s.key hkey (some s.isSrtp)
      unfold opened at hpay
      split
      · exact .of_eq (.refl e) rfl
      · rename_i buffer decoded hunwrap
        rw [hunwrap] at hpay
        have hplain := hpay _ rfl
        have hgetconf : isGetconf (Buffer.slice buffer decoded.start decoded.stop) = false := by
          rw [isIdlePayload, Bool.and_eq_true, Bool.not_eq_true'] at hplain
          exact hplain.1
        rw [if_neg (by simp [hgetconf])]
        exact serves_receive cfg hs hplain (htunnel slot s hslot hs) endpoint.localIp decoded.seq io
  · have hnone : findCredential cfg wire e.credentials = none := by
      apply findCredential_eq_none
      intro credential hcred
      exact hidle credential.key (List.mem_append_left _ (List.mem_map_of_mem hcred)) none
    unfold handleUnknownLegacy
    rw [hnone]
    split_ifs
    · exact .of_eq (.refl e) rfl
    · unfold sendUdp
      split_ifs
      · exact .of_eq (.of_eq rfl rfl rfl) rfl
      · exact .of_eq (.of_eq rfl rfl rfl) rfl
    · exact .of_eq (.of_eq rfl rfl rfl) rfl

end Engine

namespace World

/-- The step harms no session, and all that it adds to be done is idle. -/
structure Serves (w w' : World) : Prop where
  unharmed : Engine.Unharmed w.engine w'.engine
  sessions : w'.sessions = w.sessions
  events : ∀ x ∈ w'.engine.events, x ∈ w.engine.events ∨ x.Idle
  tasks : ∀ t ∈ w'.tasks, t ∈ w.tasks ∨ t.Idle
  commands : ∀ c ∈ w'.commands, c ∈ w.commands ∨ c.Idle

variable {w : World}

theorem Serves.withEngine {engine : Engine} (h : Engine.Serves w.engine engine) :
    Serves w (w.withEngine engine) :=
  ⟨h.unharmed, rfl, h.events, fun _ ht => .inl ht, fun _ hc => .inl hc⟩

theorem Serves.refl (w : World) : Serves w w :=
  ⟨.refl _, rfl, fun _ h => .inl h, fun _ h => .inl h, fun _ h => .inl h⟩

def Idles (w : World) : Input → Prop
  | .recv _ => ∃ event events, w.engine.events = event :: events ∧ event.Idle
  | .task i _ => ∃ t, w.tasks[i]? = some t ∧ t.Idle
  | .command _ => ∃ command commands, w.commands = command :: commands ∧ command.Idle
  | _ => False

theorem serves_spawn (w : World) (kind : TaskKind) (id : ℕ) (op : Op) (hop : op.Idle) :
    Serves w (w.spawn kind id [op]) := by
  refine ⟨.refl _, rfl, fun _ h => .inl h, fun t ht => ?_, fun _ h => .inl h⟩
  obtain ht | ht := List.mem_append.mp ht
  · exact .inl ht
  · rw [List.mem_singleton.mp ht]
    exact .inr ⟨fun _ hm => List.mem_singleton.mp hm ▸ hop, rfl⟩

variable {t : Task}

theorem idle_next (ht : t.Idle) {op : Op} (hop : op.Idle) : (t.next [op]).Idle where
  ops op' ho' := by
    obtain ho' | ho' := List.mem_append.mp ho'
    · exact List.mem_singleton.mp ho' ▸ hop
    · exact ht.ops op' ho'
  recover := ht.recover

theorem idle_processControlPayload (ht : t.Idle) (password : Text) {payload : Bytes}
    (hid : isIdlePayload payload = true) : (t.processControlPayload password payload).Idle := by
  rw [isIdlePayload, Bool.and_eq_true, Bool.not_eq_true', Bool.not_eq_true'] at hid
  unfold Task.processControlPayload
  by_cases hf : isFrame payload = true
  · rw [if_pos hf]
    exact idle_next ht trivial
  · rw [if_neg hf, if_neg (by simp [hid.1]), if_neg (by simp [hid.2])]
    exact ht

theorem idle_fail (ht : t.Idle) : t.fail.Idle := by
  refine ⟨fun op hop => ?_, rfl⟩
  rw [show t.fail.ops = t.recover from rfl, ht.recover] at hop
  cases hop

theorem serves_setProxies (w : World) (proxies : ProxyTable) : Serves w (w.setProxies proxies) := by
  refine ⟨.refl _, rfl, fun _ h => .inl h, fun _ h => .inl h, fun c hc => ?_⟩
  obtain hc | hc := List.mem_append.mp hc
  · exact .inl hc
  · obtain ⟨sent, -, rfl⟩ := List.mem_map.mp hc
    exact .inr trivial

variable (cfg : ControlConfig)

theorem serves_exec (w : World) {op : Op} (ht : t.Idle) (hop : op.Idle) (io : TaskIo) :
    Serves w (w.exec cfg t io op).1 ∧ (w.exec cfg t io op).2.Idle := by
  cases op with
  | payload =>
    rw [World.exec]
    split_ifs
    · split
      · exact ⟨.refl w, ht⟩
      · exact ⟨.refl w, idle_processControlPayload ht _ hop⟩
    · exact ⟨.refl w, ht⟩
  | frameGate =>
    rw [World.exec]
    split_ifs
    · exact ⟨.refl w, idle_next ht trivial⟩
    · exact ⟨.refl w, idle_fail ht⟩
  | frame => exact ⟨serves_setProxies w _, ht⟩
  | acquire first =>
    rw [World.exec]
    split_ifs
    · exact ⟨serves_spawn w .job t.session first hop, ht⟩
    · exact ⟨.refl w, idle_next ht hop⟩
  | _ => cases hop

theorem serves_runTask {i : ℕ} (hi : w.tasks[i]? = some t) (ht : t.Idle) (io : TaskIo) :
    Serves w (w.runTask cfg i io) := by
  unfold World.runTask
  rw [hi]
  dsimp only
  split
  · exact ⟨.refl _, rfl, fun _ h => .inl h, fun _ h => .inl (List.eraseIdx_subset h),
      fun _ h => .inl h⟩
  · rename_i op ops ho
    have hr : Task.Idle { t with ops } :=
      ⟨fun op' ho' => ht.ops op' (ho ▸ List.mem_cons_of_mem op ho'), ht.recover⟩
    obtain ⟨hs, hid⟩ := serves_exec cfg w hr (ht.ops op (ho ▸ List.mem_cons_self)) io
    refine ⟨hs.unharmed, hs.sessions, hs.events, fun t' ht' => ?_, hs.commands⟩
    obtain ht' | rfl := List.mem_or_eq_of_mem_set ht'
    · exact hs.tasks t' ht'
    · exact .inr hid

theorem serves_recv {event : ControlEvent} {events : List ControlEvent}
    (he : w.engine.events = event :: events) (hid : event.Idle) (currentWall : ℕ) :
    Serves w (w.recv currentWall) := by
  unfold World.recv
  rw [he]
  split_ifs
  · exact .refl w
  · have ht : Engine.Serves w.engine (w.engine.setEvents events) :=
      ⟨.of_eq rfl rfl rfl, fun x hx => .inl (he ▸ List.mem_cons_of_mem event hx)⟩
    cases event with
    | payload _ id payload =>
      have hs := serves_spawn (w.withEngine (w.engine.setEvents events)) .loop id
        (.acquire (.payload payload)) hid
      exact ⟨ht.unharmed, rfl, ht.events, hs.tasks, fun _ h => .inl h⟩
    | _ => cases hid

theorem serves_takeCommand {command : Command} {commands : List Command}
    (hcommand : w.commands = command :: commands) (hid : command.Idle) (io : Engine.CommandIo) :
    Serves w (w.takeCommand cfg io) := by
  unfold World.takeCommand
  rw [hcommand]
  dsimp only
  have hr : ∀ c ∈ commands, c ∈ w.commands ∨ c.Idle :=
    fun c hc => .inl (hcommand ▸ List.mem_cons_of_mem command hc)
  cases command with
  | sendPlain _ payload =>
    rw [Engine.onCommand]
    split
    · exact ⟨.refl _, rfl, fun _ h => .inl h, fun _ h => .inl h, hr⟩
    · rename_i slot _
      refine ⟨Engine.unharmed_sendPlain cfg.server w.engine slot payload (io.send slot), rfl,
        fun x hx => .inl ?_, fun _ h => .inl h, hr⟩
      rw [Engine.events_sendPlain] at hx
      exact hx
  | _ => cases hid

theorem serves_step {input : Input} (h : w.Idles input) : Serves w (w.step cfg input) := by
  cases input with
  | recv currentWall =>
    obtain ⟨event, events, he, hid⟩ := h
    exact serves_recv he hid currentWall
  | task _ io =>
    obtain ⟨t, hi, ht⟩ := h
    exact serves_runTask cfg hi ht io
  | command io =>
    obtain ⟨command, commands, hc, hid⟩ := h
    exact serves_takeCommand cfg hc hid io
  | _ => cases h

end World
end Csqtt
