import Csqtt.RouteTargets
import Csqtt.ServerStart
import Csqtt.TunnelAddresses

/-!
# Addresses that are handed out can be routed

The routes of the engine are those of one network. The server starts with addresses of its network
only, a new device gets one of it, and no task moves a device. So the address in an answer to a
GETCONF, and in every activation, is one of the network.
-/

namespace Csqtt

def Subnet.Client (net : Subnet) (ip : Ipv4) : Prop :=
  ∃ host, isClientHost host = true ∧ ip = net.address host

/-! ## The rows -/

namespace Database

variable {net : Subnet} {db db' : Database}

theorem inside_getNextIp {ip : Text} (h : db.getNextIp net = some ip) :
    ∃ host, isClientHost host = true ∧ ip = net.clientIp host := by
  have hm := List.mem_of_find?_eq_some h
  obtain ⟨i, hi, rfl⟩ := List.mem_map.mp hm
  obtain ⟨j, hj, rfl⟩ := List.mem_range'.mp hi
  have hh : ∀ j < 249, isClientHost (UInt8.ofNat (2 + 1 * j)) = true := by decide +kernel
  exact ⟨_, hh j hj, rfl⟩

section

variable (h : db.Inside net)
include h

theorem Inside.sameAddresses (hs : db.SameAddresses db') : db'.Inside net := by
  intro deviceId device hd
  obtain ⟨old, hold, hip⟩ := hs.row hd
  rw [← hip]
  exact h deviceId old hold

theorem Inside.admitted (r : GetconfRequest) (access : CredentialAccess) (keys : Text × Text) :
    (db.admitted net r access keys).1.Inside net := by
  intro deviceId device hd
  obtain ⟨hdevs, -⟩ | ⟨written, -, hdevs, hw⟩ := db.row_admitted net r access keys
  · rw [hdevs] at hd
    exact h deviceId device hd
  · rw [hdevs] at hd
    by_cases hid : deviceId = r.identity.deviceId
    · rw [hid, AList.lookup_insert] at hd
      rw [← Option.some.inj hd]
      obtain ⟨-, hn⟩ | ⟨old, ho, hip⟩ := hw
      · exact inside_getNextIp hn
      · rw [hip]
        exact h _ old ho
    · rw [AList.lookup_insert_ne hid] at hd
      exact h deviceId device hd

theorem Inside.client_of_parse {deviceId : Text} {device : ClientDevice} {ip : Ipv4}
    (hd : db.devices.lookup deviceId = some device) (hip : Text.parseIpv4 device.ip = some ip) :
    net.Client ip := by
  obtain ⟨host, hh, heq⟩ := h deviceId device hd
  rw [heq, Subnet.parseIpv4_clientIp] at hip
  exact ⟨host, hh, (Option.some.inj hip).symm⟩

theorem Inside.client_of_resolve {password deviceId : Text} {ip : Ipv4}
    (hip : (db.resolveSessionIp password deviceId).bind Text.parseIpv4 = some ip) :
    net.Client ip := by
  obtain ⟨text, ht, hp⟩ := Option.bind_eq_some_iff.mp hip
  have hr : ∃ id device, db.devices.lookup id = some device ∧ device.ip = text := by
    unfold resolveSessionIp at ht
    split at ht
    · rename_i device hd
      split_ifs at hd
      exact ⟨deviceId, device, hd, Option.some.inj ht⟩
    · split_ifs at ht
      split at ht
      · cases ht
      · rename_i entry he
        split_ifs at ht
        obtain ⟨device, hd, heq⟩ := Option.map_eq_some_iff.mp ht
        exact ⟨entry.deviceId, device, hd, heq⟩
  obtain ⟨id, device, hd, rfl⟩ := hr
  exact h.client_of_parse hd hp

/-- A device without a row is told that there is no address, another one the address of its row. -/
theorem Inside.tunnelConf (r : GetconfRequest) (dns : Text) :
    ((db.tunnelConf r dns).1 = none ∧ (db.tunnelConf r dns).2 = "NOCONF".toList) ∨
      ∃ host, isClientHost host = true ∧ (db.tunnelConf r dns).1 = some (net.address host) ∧
        (db.tunnelConf r dns).2 =
          "TUNCONF:".toList ++ net.clientIp host ++ ':' :: dns ++ ':' :: r.clientPort := by
  unfold Database.tunnelConf
  cases hd : db.devices.lookup r.identity.deviceId with
  | none => exact .inl ⟨rfl, rfl⟩
  | some device =>
    obtain ⟨host, hh, hip⟩ := h _ device hd
    dsimp only
    rw [hip, Subnet.parseIpv4_clientIp]
    exact .inr ⟨host, hh, rfl, rfl⟩

end

end Database

/-! ## The route of an activation -/

theorem RouteGroup.self_mem_register (endpoints : List RouteEndpoint) (endpoint : RouteEndpoint) :
    endpoint ∈ RouteGroup.register endpoints endpoint :=
  (List.perm_insertionSort _ _).mem_iff.mpr (List.mem_append_right _ (List.mem_singleton.mpr rfl))

namespace Engine

variable (cfg : ServerConfig) {e : Engine} {slot : ℕ} {s : HotSession}

/-- The old route of the session goes, and the new one comes if the address is one of the network.
-/
theorem routes_activateTunnel (h : e.Indexed) (hs : e.sessions.get slot = some s) (ip : Ipv4)
    (registrationId workerId desiredCount : ℕ) :
    (e.activateTunnel cfg s.id ip registrationId workerId desiredCount).routes =
      (RouteTable.register cfg.net (e.routes.without cfg.net s) ip
        ⟨s.id, registrationId, workerId, slot⟩).1 := by
  have hslot : e.byId s.id = some slot := (h.byId s.id slot).mpr ⟨s, Slab.get_eq_some.mp hs, rfl⟩
  unfold activateTunnel
  rw [hslot]
  dsimp only
  rw [hs]
  dsimp only
  split
  · rename_i routes heq
    exact (congrArg Prod.fst heq).symm
  · rename_i routes heq
    exact (congrArg Prod.fst heq).symm

theorem route_activateTunnel (h : e.Indexed) (hs : e.sessions.get slot = some s) (host : UInt8)
    (registrationId workerId desiredCount : ℕ) :
    (⟨s.id, registrationId, workerId, slot⟩ : RouteEndpoint) ∈
      (e.activateTunnel cfg s.id (cfg.net.address host) registrationId workerId desiredCount).routes
        host := by
  have hin : RouteTable.routeIndex cfg.net (cfg.net.address host) = some host :=
    RouteTable.routeIndex_eq_some.mpr rfl
  rw [routes_activateTunnel cfg h hs, RouteTable.routes_register, if_pos hin]
  exact RouteGroup.self_mem_register _ _

end Engine

/-! ## Addresses in the control plane -/

def Command.tunnelIp? : Command → Option Ipv4
  | .activateTunnel _ ip _ _ _ => some ip
  | _ => none

def Op.tunnelIp? : Op → Option Ipv4
  | .acquire first => first.tunnelIp?
  | .storeTunnelIp ip => some ip
  | .register ip _ _ => some ip
  | .ensureRegistration ip _ => some ip
  | .ensureWorker ip _ _ => some ip
  | .send command _ => command.tunnelIp?
  | _ => none

theorem Op.tunnelIp?_of_isPlain {op : Op} (h : op.isPlain = true) : op.tunnelIp? = none := by
  cases op with
  | send command =>
    cases command with
    | activateTunnel => cases h
    | _ => rfl
  | acquire | storeTunnelIp | register | ensureRegistration | ensureWorker => cases h
  | _ => rfl

namespace World

variable {ip : Ipv4}

theorem tunnelIp?_of_follows {cfg : ControlConfig} {w : World} {t : Task} {op o : Op}
    {io : TaskIo} (h : Follows cfg w t op io o) (hip : o.tunnelIp? = some ip) :
    op.tunnelIp? = some ip ∨ Granted cfg w op io ip ∨ Resolved w t op ip ∨
      ∃ p, w.session t.session = some p ∧ p.tunnelIp = some ip := by
  cases o with
  | storeTunnelIp =>
    cases hip
    obtain h | h := h
    · exact .inr (.inl h)
    · exact .inr (.inr (.inl h))
  | register =>
    cases hip
    exact .inr (.inl h)
  | ensureRegistration =>
    cases hip
    obtain ⟨-, hp⟩ | h := h
    · exact .inr (.inr (.inr hp))
    · exact .inr (.inr (.inl h))
  | ensureWorker =>
    cases h
    exact .inl hip
  | send command =>
    cases command with
    | activateTunnel =>
      obtain ⟨-, ⟨a, b, rfl⟩ | ⟨a, b, p, rfl, -⟩⟩ := h
      · exact .inl hip
      · exact .inl hip
    | _ => cases hip
  | acquire =>
    cases h
    exact .inl hip
  | _ => cases hip

variable (cfg : ControlConfig)

/-- Every address that the control plane has is one of the network. -/
structure Inside (net : Subnet) (w : World) : Prop extends
    Carries (fun c => ∀ ip, c.tunnelIp? = some ip → net.Client ip)
      (fun _ op => ∀ ip, op.tunnelIp? = some ip → net.Client ip) w where
  db : w.db.Inside net
  publics : ∀ id p ip, w.session id = some p → p.tunnelIp = some ip → net.Client ip

/-- A GETCONF is told that there is no address, or an address of the network, which is then
registered. -/
def AnswersInside (w : World) (input : Input) : Prop :=
  ∀ i io t r access ops, input = .task i io → w.tasks[i]? = some t →
    t.ops = .commit r access :: ops →
    ∃ ip response changed t', (w.step cfg input).tasks[i]? = some t' ∧
      t'.ops = getconfAnswer t.session r ip response changed ++ ops ∧
      ((ip = none ∧ response = "NOCONF".toList) ∨
        ∃ host, isClientHost host = true ∧ ip = some (cfg.server.net.address host) ∧
          response =
            "TUNCONF:".toList ++ cfg.server.net.clientIp host ++ ':' :: io.dns ++
              ':' :: r.clientPort)

/-- An activation that the engine takes gives its session a route, if there is the session. -/
def RoutesActivated (w : World) (input : Input) : Prop :=
  ∀ io ip registrationId workerId desiredCount commands slot s, input = .command io →
    w.engine.sessions.get slot = some s →
    w.commands = .activateTunnel s.id ip registrationId workerId desiredCount :: commands →
    ∃ host, isClientHost host = true ∧ ip = cfg.server.net.address host ∧
      (⟨s.id, registrationId, workerId, slot⟩ : RouteEndpoint) ∈
      (w.step cfg input).engine.routes host

variable {cfg} {w w' : World} {input : Input}

theorem Inside.publics_of_gives (h : w.Inside cfg.server.net)
    (hr : w.engine.Recalls (w.Gives input) w'.engine) {id : ℕ} {p : PublicSession}
    (hp : w'.session id = some p) (hip : p.tunnelIp = some ip) : cfg.server.net.Client ip := by
  obtain ⟨p, hp, ho⟩ | hg := hr.tunnel id p ip hp hip
  · exact h.publics id p ip hp ho
  · cases hg with
    | task ht hop =>
      exact h.tasks _ (List.mem_of_getElem? ht) (.storeTunnelIp ip)
        (hop ▸ List.mem_cons_self) ip rfl
    | command hc => exact h.commands _ (hc ▸ List.mem_cons_self) ip rfl

theorem inside_of_follows (h : w.Inside cfg.server.net) {t : Task} {op o : Op} {io : TaskIo}
    (hop : ∀ ip, op.tunnelIp? = some ip → cfg.server.net.Client ip) (ho : Follows cfg w t op io o)
    (hip : o.tunnelIp? = some ip) : cfg.server.net.Client ip := by
  obtain hold | ⟨r, access, -, hg⟩ | ⟨identity, payload, p, -, -, hr⟩ | ⟨p, hp, hip⟩ :=
    tunnelIp?_of_follows ho hip
  · exact hop ip hold
  · have hrow := h.db.admitted r access io.keys
    obtain ⟨device, hd, hparse⟩ := Database.address_of_tunnelConf hg
    exact hrow.client_of_parse hd hparse
  · exact h.db.client_of_resolve hr
  · exact h.publics t.session p ip hp hip

theorem inside_db_step (h : w.db.Inside cfg.server.net) (ht : w.ByTasks cfg input) :
    (w.step cfg input).db.Inside cfg.server.net := by
  obtain hs | ⟨r, access, keys, heq⟩ := db_step ht
  · exact h.sameAddresses hs
  · rw [heq]
    exact h.admitted r access keys

theorem Inside.step (hw : w.Named) (h : w.Inside cfg.server.net) (htask : w.ByTasks cfg input) :
    (w.step cfg input).Inside cfg.server.net := by
  refine ⟨h.toCarries.step hw.recover (fun _ hc => hc) (fun _ _ hop => hop)
    (fun _ _ _ hip => by cases hip)
    (fun _ op hop ip hip => ?_) (fun _ _ _ hop => hop) (fun _ _ hop => hop)
    (fun i io t op ops _ _ _ hop o ho ip hip => inside_of_follows h hop ho hip)
    (fun t ht op hop => ?_), inside_db_step h.db htask,
    fun id p ip hp hip => h.publics_of_gives (recalls_step cfg hw input).2 hp hip⟩
  · rw [Op.tunnelIp?_of_isPlain hop] at hip
    cases hip
  · obtain hplain | ⟨rfl, -⟩ | ⟨address, plain, rfl, -⟩ | ⟨plain, rfl⟩ := ht.ops hop
    · exact .inl hplain
    · exact .inr nofun
    · exact .inr nofun
    · exact .inr nofun

theorem Inside.answersInside (h : w.Inside cfg.server.net) (input : Input) :
    w.AnswersInside cfg input := by
  rintro i io t r access ops rfl ht ho
  have hr := (h.db.admitted r access io.keys).tunnelConf r io.dns
  have hlt := (List.getElem?_eq_some_iff.mp ht).1
  refine ⟨_, _, (w.db.admitted cfg.server.net r access io.keys).2,
    { t with ops, writing := false }.next (getconfAnswer t.session r _ _ _), ?_, rfl, hr⟩
  rw [World.step, runTask, ht]
  dsimp only
  rw [ho]
  dsimp only
  rw [World.exec, commit, List.getElem?_set_self hlt]

theorem Inside.routesActivated (hw : w.Named) (h : w.Inside cfg.server.net) (input : Input) :
    w.RoutesActivated cfg input := by
  rintro io ip registrationId workerId desiredCount commands slot s rfl hs hc
  obtain ⟨host, hh, rfl⟩ := h.commands _ (hc ▸ List.mem_cons_self) ip rfl
  refine ⟨host, hh, rfl, ?_⟩
  rw [World.step, takeCommand, hc]
  exact Engine.route_activateTunnel cfg.server hw.engine.indexed hs host registrationId workerId
    desiredCount

theorem inside_start {net : Subnet} (credentials : List Credential) {db : Database}
    (h : db.Inside net) (wallNow : ℕ) : (World.start credentials db wallNow).Inside net := by
  refine ⟨⟨?_, ?_⟩, h, ?_⟩
  · rintro c ⟨⟩
  · rintro t ⟨⟩
  · rintro id p ip ⟨⟩

/-- Whatever database was loaded, when the server has started with it every GETCONF that is told an
address is told one of the tunnel network, and every activation routes its session. -/
theorem handed_out_addresses_routable (credentials : List Credential) {loaded db : Database}
    {o : StartOptions} (hstart : loaded.start cfg.server.net o = .ok db) (wallNow : ℕ)
    (inputs : List Input)
    (htasks : Runs.Along (step cfg) (ByTasks cfg) (start credentials db wallNow) inputs) :
    Runs.Along (step cfg) (fun w input => w.AnswersInside cfg input ∧ w.RoutesActivated cfg input)
      (start credentials db wallNow) inputs :=
  Runs.along_invariant (I := fun w => w.Named ∧ w.Inside cfg.server.net) (Q := ByTasks cfg)
    (fun _ input hw hq => ⟨hw.1.step cfg input, hw.2.step hw.1 hq⟩)
    (fun _ input hw _ => ⟨hw.2.answersInside input, hw.2.routesActivated hw.1 input⟩)
    ⟨named_start credentials db wallNow,
      inside_start credentials (Database.inside_start hstart) wallNow⟩
    htasks

end World

/-- The theorem at the run of a device that waits for its answer, with a row that was saved. -/
theorem handed_out_addresses_saved :
    ∃ db, Recorded.sharedDatabase.start Recorded.control.server.net {} = .ok db ∧
      Runs.Along (World.step Recorded.control)
      (fun w input => w.AnswersInside Recorded.control input ∧
        w.RoutesActivated Recorded.control input) (.start Recorded.credentials db 0)
        Recorded.answered := by
  have hok : (Recorded.sharedDatabase.start Recorded.control.server.net {}).isOk = true := by
    decide +kernel
  cases hs : Recorded.sharedDatabase.start Recorded.control.server.net {} with
  | error =>
    rw [hs] at hok
    cases hok
  | ok db =>
    exact ⟨db, rfl, World.handed_out_addresses_routable Recorded.credentials hs 0
      Recorded.answered (World.byTasks_of_turns (by decide +kernel))⟩

end Csqtt
