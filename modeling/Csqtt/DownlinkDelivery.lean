import Mathlib.Data.List.Rotate
import Csqtt.EngineLinks

/-!
# Packets for the tunnel network

A packet from the TUN is queued in the lane of its destination, and a lane takes packets exactly if
its address has a route. What is queued is sent to a session with the destination as its tunnel
address, and to no other.
-/

namespace Csqtt

namespace Engine

variable {cfg : ServerConfig} {e e' : Engine}

def Addressed (cfg : ServerConfig) (e : Engine) : Prop :=
  e.downlink.Queued fun key packet => RouteTable.packetKey cfg.net packet = some key

theorem Addressed.of_eq (h : Addressed cfg e) (hd : e'.downlink = e.downlink) :
    Addressed cfg e' := by
  unfold Addressed
  rw [hd]
  exact h

theorem downlink_queueEvent (e : Engine) (event : ControlEvent) :
    (e.queueEvent event).downlink = e.downlink := by
  obtain ⟨_, he⟩ := queueEvent_eq e event
  rw [he]

theorem downlink_sendPlain (cfg : ServerConfig) (e : Engine) (slot : ℕ) (plain : Bytes)
    (io : SendIo) : (e.sendPlain cfg slot plain io).1.downlink = e.downlink := by
  unfold sendPlain
  split
  · rfl
  · split_ifs
    · dsimp only
      split <;> rfl
    · rfl

theorem downlink_receive (cfg : ServerConfig) (e : Engine) (slot : ℕ) (s : HotSession)
    (localIp : Option IpAddr) (seq : UInt16) (plain : Bytes) (io : UdpIo) :
    (e.receive cfg slot s localIp seq plain io).downlink = e.downlink := by
  unfold receive
  split
  · rfl
  · dsimp only
    unfold dispatch writeTun
    split_ifs
    · rfl
    · exact downlink_sendPlain cfg _ slot readyOk io.send
    · rfl
    · exact downlink_queueEvent _ _
    · rfl
    · rfl
    · rfl
    · exact downlink_queueEvent _ _

namespace Addressed

theorem sync (h : Addressed cfg e) (ip : Option Ipv4) :
    Addressed cfg (e.syncDownlinkProfile cfg ip) := by
  unfold Addressed syncDownlinkProfile
  split
  · exact h
  · exact h.configure _ _

theorem removed (h : Addressed cfg e) (slot : ℕ) (reason : String) :
    Addressed cfg (e.removeSlotWithReason cfg slot reason) := by
  unfold removeSlotWithReason
  split
  · exact h
  · rename_i s hs
    refine of_eq ?_ (downlink_queueEvent _ _)
    split
    · rename_i ip registrationId _ _
      obtain ⟨routes, publics, hu, -⟩ := unroute_spec cfg (e.unindex slot s) s ip registrationId
      rw [hu]
      have hunindex : Addressed cfg { e.unindex slot s with routes, publics } := h
      exact hunindex.sync (some ip)
    · exact h

theorem regular : Regular cfg (fun e e' => Addressed cfg e → Addressed cfg e') where
  refl _ h := h
  trans h h' he := h' (h he)
  beside hb h := h.of_eq hb.downlink
  quiet _ _ _ h := h.of_eq (downlink_queueEvent _ _)
  wraps _ _ _ h := h
  removed _ slot reason h := h.removed slot reason
  publishAll := publishAll_of (R := fun e e' => Addressed cfg e → Addressed cfg e')
    (fun h h' he => h' (h he)) (fun _ _ _ h => h) (fun _ h => h)
  compacted e h := h.of_eq (Slab.compact_induction (rekeySlot cfg)
    (I := fun _ e' => e'.downlink = e.downlink) (fun _ _ h => h) (fun _ _ _ _ _ h => h)
      e.sessions e rfl)
  marked _ _ h := h

theorem createForGetconf (h : Addressed cfg e) (n : NewSession) (output : ServerWire.OutState)
    (payload : Bytes) : Addressed cfg (e.createForGetconf cfg n output payload) := by
  unfold Engine.createForGetconf createLegacySession
  refine of_eq (of_eq ?_ (downlink_queueEvent _ _)) (downlink_queueEvent _ _)
  split
  · exact h.removed _ _
  · exact h

theorem onUdp (h : Addressed cfg e) (endpoint : EndpointKey) (wire : Bytes) (io : UdpIo) :
    Addressed cfg (e.onUdp cfg endpoint wire io) := by
  have hc := udpCase_onUdp cfg e endpoint wire io
  generalize e.onUdp cfg endpoint wire io = e' at hc ⊢
  cases hc with
  | beside hb => exact h.of_eq hb.downlink
  | received _ _ _ _ _ hb =>
    exact (h.of_eq hb.downlink).of_eq (downlink_receive ..)
  | replaced _ slot _ n payload hb =>
    exact ((h.of_eq hb.downlink).removed slot _).createForGetconf n _ payload
  | created _ n payload hb =>
    exact (h.of_eq hb.downlink).createForGetconf n _ payload

theorem onCommand (h : Addressed cfg e) (command : Command) (io : CommandIo) :
    Addressed cfg (e.onCommand cfg command io) := by
  have hc := commandCase_onCommand cfg e command io
  generalize e.onCommand cfg command io = e' at hc ⊢
  cases hc with
  | steady _ hr => exact hr _ regular.toSteady h
  | credentials => exact of_eq (regular.removeSlots e _ _ h) rfl
  | unrouted routes old =>
    have hroute : Addressed cfg (e.setRoutes routes) := h
    exact hroute.sync old
  | activated ip registrationId desiredCount slot s routes old =>
    have hs : Addressed cfg (((e.setRoutes routes).setSession slot (s.activate ip registrationId
      desiredCount)).updatePublic s.id (·.activate ip desiredCount)) := h
    exact (hs.sync old).sync (some ip)
  | deactivated slot s routes =>
    have hs : Addressed cfg (((e.setRoutes routes).setSession slot s.deactivate).updatePublic s.id
      (·.deactivate)) := h
    exact hs.sync s.tunnelIp
  | written => exact h
  | renamed _ _ _ _ _ hq =>
    obtain rfl | ⟨key, rfl⟩ := hq
    · exact h
    · exact h.clear key

end Addressed

/-! ## Where the packets go -/

structure Carries (cfg : ServerConfig) (s : HotSession) (packet : Bytes) (d : Datagram) : Prop where
  peer : d.peer = s.peer
  source : d.source = s.localIp
  bytes : ∃ output draws buffer now sealed, d.bytes = sealed.asSlice ∧
    (ServerWire.wrapLegacyInto (cfg.prims.keyed s.key) s.isSrtp output packet draws buffer now).2 =
      .ok sealed

/-- The sessions stay, and what is sent are packets for their tunnel addresses. -/
structure Delivers (cfg : ServerConfig) (e e' : Engine) : Prop where
  sessions : ∀ slot s', e'.sessions.get slot = some s' →
    ∃ s, e.sessions.get slot = some s ∧ s.Alike s'
  sent : ∃ new, e'.sent = e.sent ++ new ∧ ∀ d ∈ new, ∃ slot s packet ip,
    e.sessions.get slot = some s ∧ s.tunnelIp = some ip ∧
      RouteTable.extractDstIpv4 packet = some ip ∧ Carries cfg s packet d

variable {s : HotSession} {packet : Bytes}

theorem Carries.of_alike {s' : HotSession} {d : Datagram} (h : s.Alike s')
    (hd : Carries cfg s' packet d) : Carries cfg s packet d where
  peer := hd.peer.trans h.peer
  source := hd.source.trans h.localIp
  bytes := by
    have hb := hd.bytes
    rw [h.key, h.isSrtp] at hb
    exact hb

namespace Delivers

theorem of_alike (hs : ∀ slot s', e'.sessions.get slot = some s' →
    ∃ s, e.sessions.get slot = some s ∧ s.Alike s') (hsent : e'.sent = e.sent) :
    Delivers cfg e e' :=
  ⟨hs, [], by rw [hsent, List.append_nil], by simp⟩

theorem of_eq (hsession : e'.sessions = e.sessions) (hsent : e'.sent = e.sent) :
    Delivers cfg e e' :=
  of_alike (fun _ s hs => ⟨s, hsession ▸ hs, .refl s⟩) hsent

theorem trans {e'' : Engine} (h : Delivers cfg e e') (h' : Delivers cfg e' e'') :
    Delivers cfg e e'' where
  sessions slot s'' hs'' := by
    obtain ⟨s', hs', ha'⟩ := h'.sessions slot s'' hs''
    obtain ⟨s, hs, ha⟩ := h.sessions slot s' hs'
    exact ⟨s, hs, ha.trans ha'⟩
  sent := by
    refine appended_trans h.sent h'.sent fun d hd => ?_
    obtain ⟨slot, s', packet, ip, hs', hip, hdst, hc⟩ := hd
    obtain ⟨s, hs, ha⟩ := h.sessions slot s' hs'
    exact ⟨slot, s, packet, ip, hs, ha.tunnelIp.symm.trans hip, hdst, hc.of_alike ha⟩

end Delivers

theorem alike_setSession {slot : ℕ} (hs : e.sessions.get slot = some s) (s' : HotSession)
    (ha : s.Alike s') (i : ℕ) (t' : HotSession)
    (ht' : (e.setSession slot s').sessions.get i = some t') :
    ∃ t, e.sessions.get i = some t ∧ t.Alike t' := by
  obtain ⟨rfl, rfl⟩ | ht' := of_get_setSession hs ht'
  · exact ⟨s, hs, ha⟩
  · exact ⟨t', ht', .refl t'⟩

/-- A packet changes the packet numbers of the session at the slot, and goes to its peer. -/
theorem sendPlain_spec (cfg : ServerConfig) (e : Engine) (slot : ℕ) (packet : Bytes) (io : SendIo) :
    (∀ i t', (e.sendPlain cfg slot packet io).1.sessions.get i = some t' →
      ∃ t, e.sessions.get i = some t ∧ t.Alike t') ∧
    ∃ new, (e.sendPlain cfg slot packet io).1.sent = e.sent ++ new ∧
      ∀ d ∈ new, ∃ s, e.sessions.get slot = some s ∧ Carries cfg s packet d := by
  have hsame : ∀ i t', e.sessions.get i = some t' → ∃ t, e.sessions.get i = some t ∧ t.Alike t' :=
    fun _ t' ht' => ⟨t', ht', .refl t'⟩
  unfold sendPlain
  split
  · exact ⟨hsame, [], (List.append_nil _).symm, by simp⟩
  · rename_i s hs
    split_ifs
    · have hsession := alike_setSession hs { s with
          output := (ServerWire.wrapLegacyInto (cfg.prims.keyed s.key) s.isSrtp s.output
            packet io.draws
            io.buffer io.now).1 } ⟨⟨rfl, rfl, rfl, rfl, rfl, rfl, rfl, rfl⟩, rfl, rfl, rfl⟩
      dsimp only
      split
      · exact ⟨hsession, [], (List.append_nil _).symm, by simp⟩
      · rename_i buffer hw
        refine ⟨hsession, _, rfl, fun d hd => ?_⟩
        rw [List.mem_singleton.mp hd]
        exact ⟨s, hs, rfl, rfl, s.output, io.draws, io.buffer, io.now, buffer, rfl, hw⟩
    · exact ⟨hsame, [], (List.append_nil _).symm, by simp⟩

theorem delivers_sendPlain {slot : ℕ} (hs : e.sessions.get slot = some s) {ip : Ipv4}
    (hip : s.tunnelIp = some ip) (hdst : RouteTable.extractDstIpv4 packet = some ip) (io : SendIo) :
    Delivers cfg e (e.sendPlain cfg slot packet io).1 := by
  obtain ⟨hsession, new, hsent, hn⟩ := sendPlain_spec cfg e slot packet io
  refine ⟨hsession, new, hsent, fun d hd => ?_⟩
  obtain ⟨t, ht, hc⟩ := hn d hd
  cases hs.symm.trans ht
  exact ⟨slot, s, packet, ip, hs, hip, hdst, hc⟩

theorem delivers_countDown (e : Engine) (slot bytes : ℕ) :
    Delivers cfg e (e.countDown slot bytes) := by
  unfold countDown
  split
  · exact .of_eq rfl rfl
  · rename_i s hs
    exact .of_alike (alike_setSession hs _ ⟨⟨rfl, rfl, rfl, rfl, rfl, rfl, rfl, rfl⟩, rfl,
      rfl, rfl⟩) rfl

/-- An endpoint of a group leads to a session, which then gets the packets of the group. -/
theorem sendDownEndpoint_spec (h : Linked cfg e) {key : UInt8} {endpoint : RouteEndpoint}
    (hmem : endpoint ∈ e.routes key) (packet : Bytes) (io : SendIo) :
    (e.sendDownEndpoint cfg endpoint packet io).2 ≠ .stale ∧
      (RouteTable.packetKey cfg.net packet = some key →
        Delivers cfg e (e.sendDownEndpoint cfg endpoint packet io).1) := by
  obtain ⟨s, hs, hlead⟩ := h.routed.leads key endpoint hmem
  obtain ⟨ip, hip, hkey⟩ := hlead.tunnelIp
  have hdst : RouteTable.packetKey cfg.net packet = some key →
      RouteTable.extractDstIpv4 packet = some ip := by
    intro hpacket
    obtain ⟨dst, hdst, hindex⟩ := Option.bind_eq_some_iff.mp hpacket
    rw [hdst, RouteTable.routeIndex_eq_some.mp hindex, RouteTable.routeIndex_eq_some.mp hkey]
  have hmean : ¬(s.id ≠ endpoint.sessionId ∨ s.registrationId ≠ some endpoint.registrationId) := by
    rintro (hne | hne)
    · exact hne hlead.sessionId
    · exact hne hlead.registrationId
  have hsend : RouteTable.packetKey cfg.net packet = some key →
      Delivers cfg e (e.sendPlain cfg endpoint.slot packet io).1 :=
    fun hpacket => delivers_sendPlain hs hip (hdst hpacket) io
  unfold sendDownEndpoint
  rw [hs]
  dsimp only
  rw [if_neg hmean]
  split
  · rename_i sent heq
    rw [heq] at hsend
    refine ⟨?_, fun hpacket => (hsend hpacket).trans (delivers_countDown _ _ _)⟩
    intro hstale
    cases hstale
  · rename_i sent heq
    rw [heq] at hsend
    refine ⟨?_, hsend⟩
    intro hstale
    cases hstale

theorem delivers_sendDownKey (h : Linked cfg e) {key : UInt8}
    (hp : RouteTable.packetKey cfg.net packet = some key) (start : ℕ) (io : SendIo) :
    Delivers cfg e (e.sendDownKey cfg key start packet io).1 := by
  unfold sendDownKey
  cases hr : (e.routes key).rotate start with
  | nil => exact .of_eq rfl rfl
  | cons endpoint =>
    have hm : endpoint ∈ e.routes key :=
      List.mem_rotate.mp (hr ▸ List.mem_cons_self : endpoint ∈ (e.routes key).rotate start)
    obtain ⟨hl, hd⟩ := sendDownEndpoint_spec h hm packet io
    rw [sendDownLoop]
    split
    · rename_i sent heq
      exact absurd (congrArg Prod.snd heq) hl
    · exact hd hp

theorem downlink_sendDownKey (cfg : ServerConfig) (e : Engine) (key : UInt8) (start : ℕ)
    (packet : Bytes) (io : SendIo) :
    (e.sendDownKey cfg key start packet io).1.downlink = e.downlink := by
  have hcount : ∀ (e : Engine) (slot bytes : ℕ),
    (e.countDown slot bytes).downlink = e.downlink := by
    intro e slot bytes
    unfold countDown
    split <;> rfl
  have hendpoint : ∀ (e : Engine) (endpoint : RouteEndpoint),
      (e.sendDownEndpoint cfg endpoint packet io).1.downlink = e.downlink := by
    intro e endpoint
    have hsend := downlink_sendPlain cfg e endpoint.slot packet io
    unfold sendDownEndpoint
    split
    · rfl
    · split_ifs
      · rfl
      · split
        · rename_i sent heq
          rw [heq] at hsend
          exact (hcount _ _ _).trans hsend
        · rename_i sent heq
          rw [heq] at hsend
          exact hsend
  unfold sendDownKey
  induction (e.routes key).rotate start generalizing e with
  | nil => rfl
  | cons endpoint _ ih =>
    have hsend := hendpoint e endpoint
    rw [sendDownLoop]
    split
    · rename_i sent heq
      rw [heq] at hsend
      exact (ih sent).trans hsend
    · exact hsend

theorem drainClass_spec (h : Linked cfg e) (ha : Addressed cfg e) (c : PacketClass)
    (io : ℕ → DrainIo) (remaining : ℕ) : Delivers cfg e (e.drainClass cfg c io remaining).1 ∧
      Addressed cfg (e.drainClass cfg c io remaining).1 := by
  induction remaining generalizing e with
  | zero => exact ⟨.of_eq rfl rfl, ha⟩
  | succ remaining ih =>
    rw [drainClass]
    split_ifs
    · have hpath := e.downlink.samePaths_dequeue c
      split
      · rename_i downlink hdequeue
        exact ⟨.of_eq rfl rfl, ha.dequeue_none hdequeue⟩
      · rename_i downlink key packet hdequeue
        rw [hdequeue] at hpath
        obtain ⟨hpacket, hfront, hback⟩ := ha.dequeue hdequeue
        have htake := h.setDownlink hpath
        have hsent := delivers_sendDownKey htake hpacket (io remaining).start (io remaining).send
        have hlink := Linked.forwarding.sendDownKey _ key (io remaining).start packet
          (io remaining).send htake
        have hdown := downlink_sendDownKey cfg (e.setDownlink downlink) key
          (io remaining).start packet (io remaining).send
        have hbefore : Delivers cfg e (e.setDownlink downlink) := .of_eq rfl rfl
        split
        · rename_i sent heq
          rw [heq] at hsent hdown
          refine ⟨(hbefore.trans hsent).trans (.of_eq rfl rfl), ?_⟩
          exact hfront.of_lanes (congrArg (·.lanes) (congrArg (·.requeueFront key c packet) hdown))
        · rename_i sent _ _ heq
          rw [heq] at hsent hdown hlink
          have hrecycled : Linked cfg (sent.setDownlink (sent.downlink.recycle key c)) :=
            hlink.setDownlink (sent.downlink.samePaths_setQueue key c _)
          have haddr : Addressed cfg (sent.setDownlink (sent.downlink.recycle key c)) :=
            hback.of_lanes (congrArg (·.lanes) (congrArg (·.recycle key c) hdown))
          obtain ⟨hrest, hqueue⟩ := ih hrecycled haddr
          have hslot : Delivers cfg sent (sent.setDownlink (sent.downlink.recycle key c)) :=
            .of_eq rfl rfl
          exact ⟨((hbefore.trans hsent).trans hslot).trans hrest, hqueue⟩
    · exact ⟨.of_eq rfl rfl, ha⟩

theorem drainDownlink_spec (h : Linked cfg e) (ha : Addressed cfg e) (io : ℕ → DrainIo) :
    Delivers cfg e (e.drainDownlink cfg io) ∧ Addressed cfg (e.drainDownlink cfg io) := by
  have hclass : ∀ (classes : List PacketClass) (remaining : ℕ) {e : Engine}, Linked cfg e →
      Addressed cfg e → Delivers cfg e (drainClasses cfg io classes remaining e) ∧
        Addressed cfg (drainClasses cfg io classes remaining e) := by
    intro classes
    induction classes with
    | nil => exact fun _ _ _ ha => ⟨.of_eq rfl rfl, ha⟩
    | cons c _ ih =>
      intro remaining e h ha
      have hc := drainClass_spec h ha c io remaining
      have hl := Linked.forwarding.drainClass c io remaining e h
      rw [drainClasses]
      split
      · rename_i heq
        rwa [heq] at hc
      · rename_i heq
        rw [heq] at hc hl
        obtain ⟨hr, hq⟩ := ih _ hl hc.2
        exact ⟨hc.1.trans hr, hq⟩
  exact hclass _ _ h ha

/-! ## Every reachable state -/

/-- What happens to an engine: an input, or the control plane changes what it shares with it. -/
inductive Move
  | input (input : Input)
  | shared (publics : ℕ → Option PublicSession) (events : List ControlEvent)
      (credentialsSnapshot : List Credential)

variable (cfg) in
def move (e : Engine) : Move → Engine
  | .input input => e.step cfg input
  | .shared publics events credentialsSnapshot => { e with publics, events, credentialsSnapshot }

theorem Addressed.step (h : Linked cfg e) (ha : Addressed cfg e) (input : Input) :
    Addressed cfg (e.step cfg input) := by
  cases input with
  | udp endpoint wire io => exact ha.onUdp endpoint wire io
  | command command io => exact ha.onCommand command io
  | tick io => exact Addressed.regular.onTick e io ha
  | tun =>
    unfold Engine.step handleTunPacket Addressed
    dsimp only [setDownlink]
    split
    · exact ha
    · rename_i key hk
      exact ha.enqueue hk _
  | drain io => exact (drainDownlink_spec h ha io).2
  | ioCounters => exact ha.of_eq (downlink_queueEvent _ _)
  | restart => exact DownlinkQueue.Queued.empty

theorem linked_run (cfg : ServerConfig) (credentials : List Credential) (wallNow : ℕ)
    (moves : List Move) : Linked cfg (moves.foldl (move cfg) (start credentials wallNow)) ∧
      Addressed cfg (moves.foldl (move cfg) (start credentials wallNow)) := by
  refine Runs.invariant (I := fun e => Linked cfg e ∧ Addressed cfg e) ?_ ?_
    (Runs.along_of_forall (Q := fun _ _ => True) fun _ _ => trivial)
  · intro e m h _
    cases m with
    | input input => exact ⟨h.1.step input, .step h.1 h.2 input⟩
    | shared =>
      exact ⟨h.1.same ⟨rfl, rfl, rfl, rfl, rfl, fun _ => rfl⟩, h.2⟩
  · exact ⟨.of_empty rfl rfl rfl rfl rfl, DownlinkQueue.Queued.empty⟩

/-- In every state that can be reached, both indices find exactly the live sessions, each route
leads to the session it was registered for, no endpoint is stale, and what is sent from the queue
goes to sessions with the destinations of the packets as their tunnel addresses. -/
theorem tables_agree (cfg : ServerConfig) (credentials : List Credential) (wallNow : ℕ)
    (moves : List Move) :
    let e := moves.foldl (move cfg) (start credentials wallNow)
    (∀ id slot, e.byId id = some slot ↔ ∃ s, e.sessions.get slot = some s ∧ s.id = id) ∧
    (∀ endpoint slot, e.byPeer endpoint = some slot ↔
      ∃ s, e.sessions.get slot = some s ∧ s.endpoint = endpoint) ∧
    (∀ key, ∀ endpoint ∈ e.routes key, ∃ s, e.sessions.get endpoint.slot = some s ∧
      s.id = endpoint.sessionId ∧ s.registrationId = some endpoint.registrationId ∧
      s.tunnelIp = some (cfg.net.1, cfg.net.2.1, cfg.net.2.2, key)) ∧
    e.sessions.len ≤ 3072 ∧
    (∀ key, ∀ endpoint ∈ e.routes key, ∀ packet io,
      (e.sendDownEndpoint cfg endpoint packet io).2 ≠ .stale) ∧
    ∀ io, ∃ new, (e.drainDownlink cfg io).sent = e.sent ++ new ∧ ∀ d ∈ new, ∃ slot s packet ip,
      e.sessions.get slot = some s ∧ s.tunnelIp = some ip ∧
        RouteTable.extractDstIpv4 packet = some ip ∧ Carries cfg s packet d := by
  obtain ⟨h, ha⟩ := linked_run cfg credentials wallNow moves
  refine ⟨Slab.indexedOn_iff.mp h.indexed.byId, Slab.indexedOn_iff.mp h.byPeer, ?_, h.room,
    fun key endpoint hm packet io => (sendDownEndpoint_spec h hm packet io).1,
    fun io => (drainDownlink_spec h ha io).1.sent⟩
  intro key endpoint hm
  obtain ⟨s, hs, hl⟩ := h.routed.leads key endpoint hm
  obtain ⟨ip, hip, hk⟩ := hl.tunnelIp
  exact ⟨s, hs, hl.sessionId, hl.registrationId, RouteTable.routeIndex_eq_some.mp hk ▸ hip⟩

/-- In every state that can be reached, a lane has as many paths as its address has routes, up to
126, and takes packets exactly if there is one, as far as it has room for them. -/
theorem lanes_follow_routes (cfg : ServerConfig) (credentials : List Credential) (wallNow : ℕ)
    (moves : List Move) (key : UInt8) :
    let e := moves.foldl (move cfg) (start credentials wallNow)
    (e.downlink.lanes key).activePaths = min (e.routes key).length 126 ∧
    (∀ c packet, (e.downlink.enqueue key c packet).2 = true ↔ e.routes key ≠ [] ∧
      packet.length ≤ serverPacketCapacity ∧ ((e.downlink.lanes key).queue c).pending.length <
        profileForActivePaths (e.routes key).length c) ∧
    (e.routes key ≠ [] → ∀ c, 0 < profileForActivePaths (e.routes key).length c) := by
  intro e
  obtain ⟨h, ha⟩ := linked_run cfg credentials wallNow moves
  have hp : (e.downlink.lanes key).activePaths = min (e.routes key).length maxLanePaths :=
    h.paths key
  have hz : (e.downlink.lanes key).activePaths ≠ 0 ↔ e.routes key ≠ [] := by
    have hm : maxLanePaths ≠ 0 := by decide
    rw [← List.length_pos_iff]
    omega
  refine ⟨hp, fun c packet => ?_, fun hr => ?_⟩
  · have hacc := ha.enqueue_accepted_iff key c packet
    rw [hz, hp, profileForActivePaths_min] at hacc
    exact hacc
  · exact profileForActivePaths_pos (List.length_pos_iff.mpr hr).ne'

end Engine
end Csqtt
