import Csqtt.RouteTargets
import Csqtt.ServerEngineRuns

/-!
# The tables of the engine

The engine keeps its sessions in a slab, with two indices, a table of routes and a queue whose
lanes have as many paths as their addresses have routes. `Linked` says that these agree, and
whatever the engine does keeps it.
-/

namespace Csqtt

namespace Engine

def Follows (e : Engine) (key : UInt8) : Prop :=
  (e.downlink.lanes key).activePaths = min (e.routes key).length maxLanePaths

structure Linked (cfg : ServerConfig) (e : Engine) : Prop where
  indexed : e.Indexed
  byPeer : Slab.IndexedOn HotSession.endpoint e.byPeer e.sessions.entries
  routed : Routed cfg.net e.routes e.sessions.get
  room : e.sessions.len ≤ maxActiveSessions
  paths : ∀ key, e.Follows key

structure SameLinks (e e' : Engine) : Prop where
  sessions : e'.sessions = e.sessions
  byId : e'.byId = e.byId
  nextId : e'.nextId = e.nextId
  byPeer : e'.byPeer = e.byPeer
  routes : e'.routes = e.routes
  paths : e.downlink.SamePaths e'.downlink

variable {cfg : ServerConfig} {e e' e'' : Engine}

theorem Beside.sameLinks (h : Beside e e') : SameLinks e e' :=
  ⟨h.tables.sessions, h.tables.byId, h.tables.nextId, h.byPeer,
    h.routes, fun key => by rw [h.downlink]⟩

theorem sameLinks_queueEvent (e : Engine) (event : ControlEvent) :
    SameLinks e (e.queueEvent event) := by
  obtain ⟨_, he⟩ := queueEvent_eq e event
  rw [he]
  exact ⟨rfl, rfl, rfl, rfl, rfl, fun _ => rfl⟩

theorem sameLinks_updatePublic (e : Engine) (id : ℕ) (f : PublicSession → PublicSession) :
    SameLinks e (e.updatePublic id f) :=
  ⟨rfl, rfl, rfl, rfl, rfl, fun _ => rfl⟩

variable {key : UInt8}

theorem SameLinks.follows (h : SameLinks e e') (hk : e.Follows key) : e'.Follows key := by
  unfold Follows
  rw [h.paths key, h.routes]
  exact hk

namespace Linked

theorem same (h : Linked cfg e) (hs : SameLinks e e') : Linked cfg e' where
  indexed :=
    ⟨by rw [hs.byId, hs.sessions]; exact h.indexed.byId,
      by rw [hs.sessions, hs.nextId]; exact h.indexed.below⟩
  byPeer := by rw [hs.byPeer, hs.sessions]; exact h.byPeer
  routed := by rw [hs.routes, hs.sessions]; exact h.routed
  room := by rw [hs.sessions]; exact h.room
  paths key := hs.follows (h.paths key)

theorem of_empty (hs : e.sessions = .empty) (hp : e.byPeer = fun _ => none)
    (hid : e.byId = fun _ => none) (hr : e.routes = .empty) (hd : e.downlink = {}) :
    Linked cfg e where
  indexed := indexed_of_empty hs hid
  byPeer := by rw [hp, hs]; exact Slab.IndexedOn.nil
  routed := by rw [hr]; exact .empty _
  room := by rw [hs]; exact Nat.zero_le _
  paths key := by
    unfold Follows
    rw [hr, hd]
    rfl

end Linked

/-! ## The lanes follow the routes -/

theorem follows_sync {ip : Option Ipv4}
    (h : ip.bind (RouteTable.routeIndex cfg.net) ≠ some key → e.Follows key) :
    (e.syncDownlinkProfile cfg ip).Follows key := by
  unfold Follows syncDownlinkProfile
  dsimp only [setDownlink]
  cases hip : ip.bind (RouteTable.routeIndex cfg.net) with
  | none => exact h (by rw [hip]; exact fun heq => by cases heq)
  | some =>
    rw [DownlinkQueue.activePaths_configure]
    split_ifs with hk
    · rw [hk]
    · exact h (by rw [hip]; exact fun heq => hk (Option.some.inj heq).symm)

variable {s other s' : HotSession}

/-- The routes of a session are those of its address, and only if it has a registration. -/
theorem without_of_ne {net : Subnet} {routes : RouteTable}
    (h : (if s.registrationId.isSome then s.tunnelIp else none).bind (RouteTable.routeIndex net) ≠
      some key) : routes.without net s key = routes key := by
  obtain ⟨ip, registrationId, hip, hreg, hr⟩ | ⟨hr, -⟩ :=
    RouteTable.without_cases net routes s
  · rw [hreg, Option.isSome_some, hip] at h
    rw [hr, RouteTable.routes_unregister]
    exact if_neg h
  · rw [hr]

theorem routes_of_not_registered {net : Subnet} {routes routes' : RouteTable} {ip : Ipv4}
    {endpoint : RouteEndpoint} (h : RouteTable.register net routes ip endpoint = (routes', false)) :
    routes' = routes := by
  unfold RouteTable.register at h
  split at h
  · exact (congrArg Prod.fst h).symm
  · cases congrArg Prod.snd h

/-! ## Sessions that change, leave and move -/

variable {slot : ℕ}

theorem fallback_mem {ip : Ipv4}
    (h : e.fallback s ip = some (slot, other)) : e.sessions.get slot = some other ∧
      other.tunnelIp = some ip ∧ other.registrationId = some (other.registrationId.getD 0) := by
  obtain ⟨hm, ho⟩ := List.mem_filter.mp (maxById_mem h)
  obtain ⟨hip, hr, -⟩ := of_decide_eq_true ho
  obtain ⟨registrationId, hr⟩ := Option.isSome_iff_exists.mp hr
  exact ⟨Slab.mem_slots.mp hm, hip, by rw [hr, Option.getD_some]⟩

theorem unroute_spec (cfg : ServerConfig) (e : Engine) (s : HotSession) (ip : Ipv4)
    (registrationId : ℕ) : ∃ routes publics,
      e.unroute cfg s ip registrationId = { e with routes, publics } ∧
      (∀ key, RouteTable.routeIndex cfg.net ip ≠ some key → routes key = e.routes key) ∧
      (Routed cfg.net (RouteTable.unregister cfg.net e.routes ip registrationId).1 e.sessions.get →
        Routed cfg.net routes e.sessions.get) := by
  have hu : ∀ key, RouteTable.routeIndex cfg.net ip ≠ some key →
      (RouteTable.unregister cfg.net e.routes ip registrationId).1 key = e.routes key := by
    intro key hk
    rw [RouteTable.routes_unregister, if_neg hk]
  unfold unroute
  dsimp only
  split
  · rename_i slot other _ ho
    obtain ⟨hg, hip, hr⟩ := fallback_mem ho
    split_ifs
    · refine ⟨_, _, rfl, fun key hk => ?_, fun h => h.register hg rfl hr hip⟩
      apply (RouteTable.routes_register ..).trans
      rw [if_neg hk]
      exact hu key hk
    · exact ⟨_, _, rfl, hu, id⟩
  · exact ⟨_, _, rfl, hu, id⟩

structure Removed (cfg : ServerConfig) (e : Engine) (slot : ℕ) (s : HotSession) (e' : Engine) :
    Prop where
  sessions : e'.sessions = e.sessions.remove slot
  byId : e'.byId = Function.update e.byId s.id none
  nextId : e'.nextId = e.nextId
  byPeer : e'.byPeer = Function.update e.byPeer s.endpoint none
  routed : Routed cfg.net (e.routes.without cfg.net s) (e.sessions.remove slot).get →
    Routed cfg.net e'.routes (e.sessions.remove slot).get
  paths : (∀ key, e.Follows key) → ∀ key, e'.Follows key

theorem Removed.same (h : Removed cfg e slot s e')
    (hs : SameLinks e' e'') : Removed cfg e slot s e'' :=
  ⟨hs.sessions.trans h.sessions, hs.byId.trans h.byId, hs.nextId.trans h.nextId,
    hs.byPeer.trans h.byPeer, fun hr => hs.routes ▸ h.routed hr,
    fun hp key => hs.follows (h.paths hp key)⟩

theorem removed_removeSlotWithReason (cfg : ServerConfig)
    (hs : e.sessions.get slot = some s) (reason : String) :
    Removed cfg e slot s (e.removeSlotWithReason cfg slot reason) := by
  unfold removeSlotWithReason
  rw [hs]
  refine Removed.same (Removed.same ?_ (sameLinks_updatePublic ..)) (sameLinks_queueEvent ..)
  obtain ⟨ip, registrationId, hip, hreg, hroute⟩ | ⟨hroute, hn⟩ :=
    RouteTable.without_cases cfg.net e.routes s
  · obtain ⟨routes, publics, hu, hk, ho⟩ :=
      unroute_spec cfg (e.unindex slot s) s ip registrationId
    simp only [hip, hreg, hu]
    refine ⟨rfl, rfl, rfl, rfl, fun hr => ho (hroute ▸ hr), fun hp key => ?_⟩
    apply follows_sync
    intro hkey
    unfold Follows
    rw [show Engine.routes { e.unindex slot s with routes, publics } key = e.routes key from
      hk key hkey]
    exact hp key
  · split
    · rename_i ip registrationId hip hreg
      exact absurd hreg (hn ip registrationId hip)
    · exact ⟨rfl, rfl, rfl, rfl, fun hr => hroute ▸ hr, fun hp => hp⟩

theorem routed_setSession (h : Routed cfg.net e.routes e.sessions.get)
    (hs : e.sessions.get slot = some s) (hid : s'.id = s.id)
    (hr : s'.registrationId = s.registrationId) (hip : s'.tunnelIp = s.tunnelIp) :
    Routed cfg.net e.routes (e.setSession slot s').sessions.get := by
  apply h.of_live
  intro i t ht
  rw [get_setSession]
  split_ifs with hi
  · rw [hi, hs] at ht
    cases ht
    exact ⟨s', by rw [hi, hs, Option.map_some], hid, hr, hip⟩
  · exact ⟨t, ht, rfl, rfl, rfl⟩

namespace Linked

variable {s s' : HotSession}

section

variable (h : Linked cfg e)
include h

theorem session (hs : e.sessions.get slot = some s) (hid : s'.id = s.id)
    (he : s'.endpoint = s.endpoint) (hr : s'.registrationId = s.registrationId)
    (hip : s'.tunnelIp = s.tunnelIp) :
    Linked cfg (e.setSession slot s') where
  indexed := h.indexed.setSession hs hid
  byPeer := h.byPeer.modify hs he
  routed := routed_setSession h.routed hs hid hr hip
  room := (Slab.len_modify _ _ _).trans_le h.room
  paths := h.paths

theorem removed (slot : ℕ) (reason : String) :
    Linked cfg (e.removeSlotWithReason cfg slot reason) := by
  cases hs : e.sessions.get slot with
  | none =>
    unfold removeSlotWithReason
    rw [hs]
    exact h
  | some s =>
    have hr := removed_removeSlotWithReason cfg hs reason
    have hl := Slab.len_remove hs
    have hroom := h.room
    refine ⟨((keeps_routine cfg).removeSlotWithReason e slot reason).indexed h.indexed, ?_, ?_, ?_,
      hr.paths h.paths⟩
    · rw [hr.byPeer, hr.sessions]
      exact h.byPeer.remove hs
    · rw [hr.sessions]
      apply hr.routed
      apply (h.routed.without s).of_avoids (h.routed.avoids_without hs)
      intro i hi
      rw [Slab.get_remove, if_neg hi]
    · rw [hr.sessions]
      omega

theorem compacted : Linked cfg (e.compactMemory cfg) := by
  have hcompact := Slab.compact_induction (rekeySlot cfg)
    (I := fun entries e' => Slab.IndexedOn HotSession.endpoint e'.byPeer entries ∧
      Routed cfg.net e'.routes (fun i => entries[i]?.join) ∧ ∀ key, e'.Follows key)
    (fun rest e' hrest => ⟨hrest.1.drop, hrest.2.1.of_live fun i s hs => ?_, hrest.2.2⟩)
    (fun rest key s e' hkey hrest => ⟨hrest.1.move hkey, ?_, ?_⟩)
    e.sessions e ⟨h.byPeer, h.routed, h.paths⟩
  · obtain ⟨hpeer, hrouted, hpath⟩ := hcompact
    exact ⟨(keeps_compactMemory cfg e).indexed h.indexed, hpeer, hrouted,
      (Slab.len_compact _ _ _).trans_le h.room, hpath⟩
  · have hentry := Option.join_eq_some_iff.mp hs
    rw [List.getElem?_append, List.getElem?_singleton] at hentry
    split_ifs at hentry
    · exact ⟨s, Option.join_eq_some_iff.mpr hentry, rfl, rfl, rfl⟩
    · simp at hentry
  · have hlt := (List.getElem?_eq_some_iff.mp hkey).1
    apply hrest.2.1.move (congrArg Option.join List.getElem?_concat_length)
    · rw [List.getElem?_set_self hlt, Option.join_some]
    · intro i t hi ht
      have hentry := Option.join_eq_some_iff.mp ht
      rw [List.getElem?_append, List.getElem?_singleton] at hentry
      split_ifs at hentry with hlast hzero
      · have hne : key ≠ i := by
          rintro rfl
          rw [hkey] at hentry
          cases hentry
        exact Option.join_eq_some_iff.mpr (by rw [List.getElem?_set_ne hne, hentry])
      · omega
  · intro k
    unfold Follows
    rw [show (e'.rekeySlot cfg s key).routes = e'.routes.moved cfg.net s key from rfl,
      RouteTable.length_moved]
    exact hrest.2.2 k

theorem index {n : NewSession} (hf : e.byPeer n.endpoint = none)
    (hr : e.sessions.len < maxActiveSessions) (output : ServerWire.OutState) :
    Linked cfg (e.index n output) where
  indexed := h.indexed.index n output
  byPeer := h.byPeer.insert (x := n.hot e.nextId e.monotonicMs output) hf
  routed := h.routed.of_live fun i s hs => by
    refine ⟨s, (Slab.get_insert ..).trans ?_, rfl, rfl, rfl⟩
    rw [if_neg ?_, hs]
    rintro rfl
    rw [Slab.get_nextKey] at hs
    cases hs
  room := (Slab.len_insert _ _).trans_le hr
  paths := h.paths

theorem createForGetconf (n : NewSession) (output : ServerWire.OutState) (payload : Bytes)
    (hroom : e.byPeer n.endpoint = none → e.sessions.len < maxActiveSessions) :
    Linked cfg (e.createForGetconf cfg n output payload) := by
  unfold Engine.createForGetconf createLegacySession
  apply same _ (sameLinks_queueEvent _ _)
  split
  · rename_i slot hslot
    obtain ⟨s, hs, he⟩ := h.byPeer.get hslot
    have hr := removed_removeSlotWithReason cfg hs "peer-replaced"
    have hl := Slab.len_remove hs
    have ho := h.room
    apply same _ (sameLinks_queueEvent _ _)
    apply (h.removed slot "peer-replaced").index
    · rw [hr.byPeer, he, Function.update_self]
    · rw [hr.sessions]
      omega
  · rename_i hf
    exact same (h.index hf (hroom hf) output) (sameLinks_queueEvent _ _)

theorem alike (hs : e.sessions.get slot = some s) (ha : s.Alike s') :
    Linked cfg (e.setSession slot s') :=
  h.session hs ha.id
    (by rw [HotSession.endpoint, HotSession.endpoint, ha.peer, ha.localIp])
    ha.registrationId ha.tunnelIp

theorem publishSessions : Linked cfg e.publishSessions where
  indexed := (keeps_publishSessions e).indexed h.indexed
  byPeer := h.byPeer.map fun _ => rfl
  routed := h.routed.of_live fun i s hs => by
    refine ⟨s.published, ?_, rfl, rfl, rfl⟩
    rw [Engine.publishSessions, Slab.get_map, hs, Option.map_some]
  room := (Slab.len_map _ _).trans_le h.room
  paths := h.paths

end

theorem sending : Sending cfg (fun e e' => Linked cfg e → Linked cfg e') where
  refl _ h := h
  trans h h' he := h' (h he)
  beside hb h := h.same hb.sameLinks
  wraps {_ _ s} plain io hs h := h.alike hs (alike_wrapped cfg s plain io)

theorem forwarding : Forwarding cfg (fun e e' => Linked cfg e → Linked cfg e') where
  toSending := sending
  queued _ _ hq h := h.same ⟨rfl, rfl, rfl, rfl, rfl, hq⟩
  counted e slot bytes h := by
    unfold countDown
    split
    · exact h
    · rename_i s hs
      exact h.alike hs ⟨⟨rfl, rfl, rfl, rfl, rfl, rfl, rfl, rfl⟩, rfl, rfl, rfl⟩

theorem regular : Regular cfg (fun e e' => Linked cfg e → Linked cfg e') where
  toSending := sending
  quiet _ _ _ h := h.same (sameLinks_queueEvent _ _)
  removed _ slot reason h := h.removed slot reason
  publishAll := publishAll_of (R := fun e e' => Linked cfg e → Linked cfg e')
    (fun h h' he => h' (h he)) (fun _ _ _ h => h.same (sameLinks_updatePublic _ _ _))
    (fun _ h => h.publishSessions)
  compacted _ h := h.compacted
  marked _ _ h := h.same ⟨rfl, rfl, rfl, rfl, rfl, fun _ => rfl⟩

/-! ## Datagrams -/

theorem writeTun (h : Linked cfg e) (hs : e.sessions.get slot = some s) (plain : Bytes)
    (room : Bool) : Linked cfg (e.writeTun slot s plain room) := by
  unfold Engine.writeTun
  split_ifs
  · have hset : Linked cfg (e.setSession slot (s.countUp plain.length)) :=
      h.session hs rfl rfl rfl rfl
    exact hset.same ⟨rfl, rfl, rfl, rfl, rfl, fun _ => rfl⟩
  · exact h

theorem dispatch (h : Linked cfg e) (hs : e.sessions.get slot = some s) (plain : Bytes)
    (io : UdpIo) : Linked cfg (e.dispatch cfg slot s plain io) := by
  unfold Engine.dispatch
  split_ifs
  · exact h
  · exact regular.sendPlain e slot readyOk io.send h
  · exact h
  · exact h.same (sameLinks_queueEvent _ _)
  · exact h.writeTun hs plain io.tunRoom
  · exact h
  · have hq := sameLinks_queueEvent e (.ingressBeforeTunnel s.peer s.id plain)
    exact (h.same hq).session (get_queueEvent hs _) rfl rfl rfl rfl

end Linked

/-- A session that a datagram from another local address is for has no local address yet, and there
is no session at the endpoint of the datagram. -/
theorem Linked.free (h : Linked cfg e) {endpoint : EndpointKey}
    (hslot : e.slotFor endpoint = some slot) (hs : e.sessions.get slot = some s)
    (ho : s.localIp ≠ endpoint.localIp) : e.byPeer ⟨s.peer, endpoint.localIp⟩ = none := by
  have hat : ∀ {key : EndpointKey}, e.byPeer key = some slot → s.endpoint = key := by
    intro key hk
    obtain ⟨t, ht, he⟩ := h.byPeer.get hk
    cases ht.symm.trans hs
    exact he
  unfold slotFor at hslot
  cases hp : e.byPeer endpoint with
  | some =>
    rw [hp] at hslot
    cases hslot
    exact absurd (congrArg EndpointKey.localIp (hat hp)) ho
  | none =>
    rw [hp, Option.none_or] at hslot
    split_ifs at hslot
    have hsame := congrArg EndpointKey.peer (hat hslot)
    exact (show s.peer = endpoint.peer from hsame) ▸ hp

namespace Linked

variable {s s' : HotSession}

section

variable (h : Linked cfg e)
include h

theorem learn (hs : e.sessions.get slot = some s) (hid : s'.id = s.id)
    (hr : s'.registrationId = s.registrationId) (hip : s'.tunnelIp = s.tunnelIp)
    (hf : e.byPeer s'.endpoint = none) :
    Linked cfg { e.setSession slot s' with
      byPeer := Function.update (Function.update e.byPeer s.endpoint none) s'.endpoint
        (some slot) } where
  indexed := ⟨(h.indexed.setSession hs hid).byId, (h.indexed.setSession hs hid).below⟩
  byPeer := h.byPeer.rekey hs hf
  routed := routed_setSession h.routed hs hid hr hip
  room := (Slab.len_modify _ _ _).trans_le h.room
  paths := h.paths

theorem receive {endpoint : EndpointKey} (hslot : e.slotFor endpoint = some slot)
    (hs : e.sessions.get slot = some s) (seq : UInt16) (plain : Bytes) (io : UdpIo) :
    Linked cfg (e.receive cfg slot s endpoint.localIp seq plain io) := by
  unfold Engine.receive
  split
  · exact h.session hs rfl rfl rfl rfl
  · rename_i replay _
    refine dispatch ?_ ?_ plain io
    swap
    · exact get_setSession_self hs _
    unfold rekey
    split_ifs with hl
    · have he : (s.seen replay e.monotonicMs endpoint.localIp).endpoint =
          ⟨s.peer, endpoint.localIp⟩ := by
        simp [HotSession.endpoint, HotSession.seen, hl.1]
      rw [← he]
      exact h.learn hs rfl rfl rfl (he ▸ h.free hslot hs hl.2)
    · have hsame : (s.seen replay e.monotonicMs endpoint.localIp).endpoint = s.endpoint := by
        simp only [HotSession.endpoint, HotSession.seen, EndpointKey.mk.injEq, true_and]
        split_ifs with hsome
        · exact (not_not.mp fun hne => hl ⟨hsome, hne⟩).symm
        · rfl
      have hset : Linked cfg (e.setSession slot (s.seen replay e.monotonicMs endpoint.localIp)) :=
        h.session hs rfl hsame rfl rfl
      exact hset.same ⟨rfl, rfl, rfl, rfl, rfl, fun _ => rfl⟩

theorem onUdp (endpoint : EndpointKey) (wire : Bytes) (io : UdpIo) :
    Linked cfg (e.onUdp cfg endpoint wire io) := by
  have hcase := udpCase_onUdp cfg e endpoint wire io
  generalize e.onUdp cfg endpoint wire io = e' at hcase ⊢
  cases hcase with
  | beside hbeside => exact h.same hbeside.sameLinks
  | received _ _ _ _ _ hbeside hslot hs =>
    have hsame := hbeside.sameLinks
    apply (h.same hsame).receive
    · unfold slotFor
      rw [hsame.byPeer]
      exact hslot
    · rw [hsame.sessions]
      exact hs
  | replaced _ slot _ _ _ hbeside hs =>
    have hsame := hbeside.sameLinks
    have hbefore := h.same hsame
    rw [← hsame.sessions] at hs
    apply (hbefore.removed slot "epoch-replaced").createForGetconf
    have hlen := Slab.len_remove hs
    have hroom := hbefore.room
    rw [(removed_removeSlotWithReason cfg hs "epoch-replaced").sessions]
    omega
  | created _ _ _ hbeside hroom =>
    have hsame := hbeside.sameLinks
    apply (h.same hsame).createForGetconf
    intro _
    rw [hsame.sessions]
    exact hroom

/-! ## Commands -/

/-- The routes of a session go, and it is written back with another tunnel or with none. -/
theorem retunnel (hs : e.sessions.get slot = some s) (s' : HotSession) (hid : s'.id = s.id)
    (he : s'.endpoint = s.endpoint) :
    ((e.setRoutes (e.routes.without cfg.net s)).setSession slot s').Indexed ∧
      Slab.IndexedOn HotSession.endpoint e.byPeer (e.setSession slot s').sessions.entries ∧
      Routed cfg.net (e.routes.without cfg.net s) (e.setSession slot s').sessions.get := by
  have hin := h.indexed.setSession hs hid
  refine ⟨⟨hin.byId, hin.below⟩, h.byPeer.modify hs he, ?_⟩
  apply (h.routed.without s).of_avoids (h.routed.avoids_without hs)
  intro i hi
  rw [get_setSession, if_neg hi]

theorem paths_without {key : UInt8}
    (hk : (if s.registrationId.isSome then s.tunnelIp else none).bind
      (RouteTable.routeIndex cfg.net) ≠ some key) :
    (e.setRoutes (e.routes.without cfg.net s)).Follows key := by
  unfold Follows
  rw [show (e.setRoutes (e.routes.without cfg.net s)).routes key = e.routes key from
    without_of_ne hk]
  exact h.paths key

theorem onCommand (command : Command) (io : CommandIo) :
    Linked cfg (e.onCommand cfg command io) := by
  have hcase := commandCase_onCommand cfg e command io
  generalize e.onCommand cfg command io = e' at hcase ⊢
  cases hcase with
  | steady _ hr => exact hr _ regular.toSteady h
  | credentials =>
    exact (regular.removeSlots e _ _ h).same ⟨rfl, rfl, rfl, rfl, rfl, fun _ => rfl⟩
  | @unrouted _ _ _ _ _ _ s routes old hroutes hold =>
    have hroute : routes = e.routes.without cfg.net s := routes_of_not_registered hroutes
    subst hroute hold
    exact ⟨⟨h.indexed.byId, h.indexed.below⟩, h.byPeer, h.routed.without s, h.room,
      fun key => follows_sync fun hkey => h.paths_without hkey⟩
  | activated ip registrationId desiredCount slot s routes old hslot hs hroutes hold =>
    subst hold
    have hroute : _ = routes := congrArg Prod.fst hroutes
    have hid := h.indexed.id_eq hslot hs
    obtain ⟨hindex, hpeer, hrouted⟩ :=
      h.retunnel hs (s.activate ip registrationId desiredCount) rfl rfl
    refine ⟨⟨hindex.byId, hindex.below⟩, hpeer, ?_, (Slab.len_modify _ _ _).trans_le h.room,
      fun key => follows_sync fun hkey => follows_sync fun hold => ?_⟩
    · rw [← hroute]
      exact hrouted.register (s := s.activate ip registrationId desiredCount)
        (get_setSession_self hs _) hid rfl rfl
    · have hgroup : routes key = e.routes.without cfg.net s key := by
        rw [← hroute, RouteTable.routes_register]
        exact if_neg hkey
      have hfollow := h.paths_without hold
      unfold Follows at hfollow ⊢
      rw [show (e.setRoutes (e.routes.without cfg.net s)).routes key = routes key from
        hgroup.symm] at hfollow
      exact hfollow
  | deactivated slot s routes hs hroutes =>
    subst hroutes
    obtain ⟨hindex, hpeer, hroute⟩ := h.retunnel hs s.deactivate rfl rfl
    refine ⟨⟨hindex.byId, hindex.below⟩, hpeer, hroute, (Slab.len_modify _ _ _).trans_le h.room,
      fun key => follows_sync fun hkey => ?_⟩
    apply h.paths_without
    split_ifs
    · exact hkey
    · exact fun heq => by cases heq
  | written payload slot s _ hs =>
    have hset : Linked cfg (e.setSession slot (s.countUp payload.length)) :=
      h.session hs rfl rfl rfl rfl
    exact hset.same ⟨rfl, rfl, rfl, rfl, rfl, fun _ => rfl⟩
  | renamed identity slot s _ hs hq =>
    have hset : Linked cfg (e.setSession slot (s.setIdentity identity)) :=
      h.session hs rfl rfl rfl rfl
    refine hset.same ⟨rfl, rfl, rfl, rfl, rfl, ?_⟩
    obtain rfl | ⟨key, rfl⟩ := hq
    · exact fun _ => rfl
    · exact DownlinkQueue.samePaths_clear _ _

theorem setDownlink {q : DownlinkQueue} (hq : e.downlink.SamePaths q) :
    Linked cfg (e.setDownlink q) :=
  h.same ⟨rfl, rfl, rfl, rfl, rfl, hq⟩

theorem step (input : Input) : Linked cfg (e.step cfg input) := by
  cases input with
  | udp endpoint wire io => exact h.onUdp endpoint wire io
  | command command io => exact h.onCommand command io
  | tick io => exact regular.onTick e io h
  | tun =>
    apply h.setDownlink
    split
    · exact fun _ => rfl
    · exact DownlinkQueue.samePaths_enqueue _ _ _ _
  | drain io => exact forwarding.drainDownlink e io h
  | ioCounters => exact h.same (sameLinks_queueEvent _ _)
  | restart => exact of_empty rfl rfl rfl rfl rfl

end

end Linked
end Engine
end Csqtt
