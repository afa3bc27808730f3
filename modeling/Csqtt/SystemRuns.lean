import Csqtt.RoutableAddresses
import Csqtt.VouchedSessions

/-!
# The server as a whole

The control plane touches the engine only through its inputs and through what both share, so
whatever the engine keeps by itself it keeps in every interleaving. An address that was told to a
device once is told to no other device later.
-/

namespace Csqtt

/-! ## The engine below the control plane -/

namespace World

variable (cfg : ControlConfig)

/-- The engine stays as it is. -/
def stay (e : Engine) : Engine.Move := .shared e.publics e.events e.credentialsSnapshot

theorem engine_step (w : World) (input : Input) :
    ∃ m, (w.step cfg input).engine = w.engine.move cfg.server m := by
  cases input with
  | udp endpoint wire io => exact ⟨.input (.udp endpoint wire io), rfl⟩
  | tick io => exact ⟨.input (.tick io), rfl⟩
  | tun packet => exact ⟨.input (.tun packet), rfl⟩
  | drain io => exact ⟨.input (.drain io), rfl⟩
  | ioCounters => exact ⟨.input .ioCounters, rfl⟩
  | restart wallNow => exact ⟨.input (.restart wallNow), rfl⟩
  | command io =>
      simp only [step, takeCommand]
      split
      · exact ⟨stay w.engine, rfl⟩
      · rename_i command _ _
        exact ⟨.input (.command command io), rfl⟩
  | recv currentWall =>
      rcases engine_recv w currentWall with h | ⟨_, events, -, h⟩
      · exact ⟨stay w.engine, h⟩
      · exact ⟨.shared w.engine.publics events w.engine.credentialsSnapshot, h⟩
  | task i io =>
      have ht := turn_runTask cfg w i io
      rw [step]
      generalize w.runTask cfg i io = w' at ht ⊢
      cases ht with
      | idle | ended => exact ⟨stay w.engine, rfl⟩
      | ran t op ops =>
          rcases (effects_exec cfg w { t with ops } io op).engine with h | ⟨f, -, h⟩ | ⟨_, -, h⟩
          · exact ⟨stay w.engine, h⟩
          · exact ⟨.shared _ w.engine.events w.engine.credentialsSnapshot, h⟩
          · exact ⟨.shared w.engine.publics w.engine.events _, h⟩
  | database | streamSend =>
      simp only [step, World.command]
      split_ifs <;> exact ⟨stay w.engine, rfl⟩
  | panel | streamReceive | streamFinish => exact ⟨stay w.engine, rfl⟩

/-- A run of the server is one of the engine alone. -/
theorem engine_run (w : World) (inputs : List Input) : ∃ moves : List Engine.Move,
    (inputs.foldl (step cfg) w).engine = moves.foldl (Engine.move cfg.server) w.engine := by
  induction inputs generalizing w with
  | nil => exact ⟨[], rfl⟩
  | cons input _ ih =>
      obtain ⟨moves, hm⟩ := ih (w.step cfg input)
      obtain ⟨m, h⟩ := engine_step cfg w input
      exact ⟨m :: moves, by rw [List.foldl_cons, hm, h, List.foldl_cons]⟩

/-- In every interleaving of the engine with the control plane its tables agree, what is queued lies
in the lane of its destination, and every session has a credential. -/
theorem engine_consistent (credentials : List Credential) (db : Database) (wallNow : ℕ)
    (inputs : List Input) :
    let e := (inputs.foldl (step cfg) (start credentials db wallNow)).engine
    e.Linked cfg.server ∧ e.Addressed cfg.server ∧ e.Vouched := by
  intro e
  obtain ⟨moves, hm⟩ := engine_run cfg (start credentials db wallNow) inputs
  obtain ⟨hl, ha⟩ := Engine.linked_run cfg.server credentials wallNow moves
  have hv : (moves.foldl (Engine.move cfg.server) (.start credentials wallNow)).Vouched := by
    refine List.foldlRecOn (motive := Engine.Vouched) moves _ (.of_empty rfl) fun _ he m _ => ?_
    cases m with
    | input input => exact he.step input
    | shared => exact he
  rw [show e = _ from hm]
  exact ⟨hl, ha, hv⟩

end World

/-! ## The addresses of the devices -/

namespace Database

variable {db : Database}

/-- Where devices have different addresses of one network, an address says whose it is. -/
theorem address_iff {net : Subnet} (hn : db.Inside net) (hdb : db.DistinctIps)
    {deviceId deviceId' : Text} {ip ip' : Ipv4} (h : db.Address deviceId ip)
    (h' : db.Address deviceId' ip') : deviceId = deviceId' ↔ ip = ip' := by
  obtain ⟨device, hd, hip⟩ := h
  obtain ⟨device', hd', hip'⟩ := h'
  constructor
  · rintro rfl
    rw [hd] at hd'
    cases hd'
    exact Option.some.inj (hip.symm.trans hip')
  · rintro rfl
    obtain ⟨host, -, ht⟩ := hn deviceId device hd
    obtain ⟨host', -, ht'⟩ := hn deviceId' device' hd'
    rw [ht, Subnet.parseIpv4_clientIp] at hip
    rw [ht', Subnet.parseIpv4_clientIp, ← hip] at hip'
    have hh : host' = host := congrArg (·.2.2.2) (Option.some.inj hip')
    exact hdb deviceId deviceId' device device' hd hd' (by rw [ht, ht', hh])

end Database

namespace World

variable (cfg : ControlConfig)

/-- The device and the address in the answer that a step gives to a GETCONF. -/
def granted (w : World) : Input → List (Text × Ipv4)
  | .task i io =>
    match w.nextOp? (.task i io) with
    | some (.commit r access) =>
      let db := (w.db.admitted cfg.server.net r access io.keys).1
      ((db.tunnelConf r io.dns).1.map (r.identity.deviceId, ·)).toList
    | _ => []
  | _ => []

variable {cfg} {w : World} {input : Input}

theorem mem_granted {a : Text × Ipv4} (h : a ∈ w.granted cfg input) :
    (w.step cfg input).db.Address a.1 a.2 := by
  unfold granted at h
  split at h
  · rename_i i io
    split at h
    · rename_i r access hop
      obtain ⟨t, ht, hh⟩ := Option.bind_eq_some_iff.mp hop
      obtain ⟨ops, ho⟩ := List.head?_eq_some_iff.mp hh
      obtain ⟨ip, hip, rfl⟩ := Option.map_eq_some_iff.mp (Option.mem_toList.mp h)
      rw [step, (turn_runTask cfg w i io).eq_of_ran ht ho]
      exact Database.address_of_tunnelConf hip
    · cases h
  · cases h

theorem distinctIps_step (hw : w.db.DistinctIps) (ht : w.ByTasks cfg input) :
    (w.step cfg input).db.DistinctIps := by
  rcases db_step ht with hs | ⟨r, access, keys, h⟩
  · exact hs.distinctIps hw
  · rw [h]
    exact Database.distinctIps_admitted hw r access keys

/-- What was told is still so when the run ends. -/
theorem addresses_run {inputs : List Input} (hn : w.db.Inside cfg.server.net)
    (hw : w.db.DistinctIps) (ht : Runs.Along (step cfg) (ByTasks cfg) w inputs) :
    let w' := inputs.foldl (step cfg) w
    (w'.db.Inside cfg.server.net ∧ w'.db.DistinctIps) ∧ w.db.KeepsAddresses w'.db ∧
      ∀ a ∈ Runs.collect (step cfg) (granted cfg) w inputs, w'.db.Address a.1 a.2 := by
  induction inputs generalizing w with
  | nil => exact ⟨⟨hn, hw⟩, fun _ _ h => h, nofun⟩
  | cons input inputs ih =>
      have hk := keepsAddresses_step ht.1
      obtain ⟨hi, hr, hc⟩ := ih (inside_db_step hn ht.1) (distinctIps_step hw ht.1) ht.2
      refine ⟨hi, fun _ _ h => hr _ _ (hk _ _ h), fun a ha => ?_⟩
      rcases List.mem_append.mp ha with ha | ha
      · exact hr _ _ (mem_granted ha)
      · exact hc a ha

/-- Whatever database was loaded and whatever the tasks do afterwards: of all answers to GETCONFs,
two name the same address exactly if they were given to the same device. -/
theorem addresses_never_shared (credentials : List Credential) {loaded db : Database}
    {o : StartOptions}
    (hstart : loaded.start cfg.server.net o = .ok db) (wallNow : ℕ) (inputs : List Input)
    (htasks : Runs.Along (step cfg) (ByTasks cfg) (start credentials db wallNow) inputs) :
    let answers := Runs.collect (step cfg) (granted cfg) (start credentials db wallNow) inputs
    ∀ a ∈ answers, ∀ b ∈ answers, a.1 = b.1 ↔ a.2 = b.2 := by
  intro answers a ha b hb
  obtain ⟨⟨hn, hd⟩, -, hc⟩ := addresses_run (w := start credentials db wallNow)
    (Database.inside_start hstart) (Database.distinctIps_start hstart) htasks
  exact Database.address_iff hn hd (hc a ha) (hc b hb)

end World

/-- A device is answered, and answered again on another connection. -/
def Recorded.answeredTwice : List World.Input :=
  answered ++ .udp other getconfDatagram udpIo :: turns 40

def Recorded.answers (db : Database) : List (Text × Ipv4) :=
  Runs.collect (World.step control) (World.granted control) (.start credentials db 0) answeredTwice

theorem addresses_never_shared_answered_twice :
    ∃ db, Recorded.database.start Recorded.control.server.net {} = .ok db ∧
      ∃ a b, Recorded.answers db = [a, b] ∧ (a.1 = b.1 ↔ a.2 = b.2) := by
  have htwo : (Recorded.database.start Recorded.control.server.net {}).toOption.map
      (fun db => (Recorded.answers db).length) = some 2 := by decide +kernel
  cases hs : Recorded.database.start Recorded.control.server.net {} with
  | error =>
      rw [hs] at htwo
      cases htwo
  | ok db =>
      rw [hs] at htwo
      obtain ⟨a, b, hab⟩ := List.length_eq_two.mp (Option.some.inj htwo)
      have h : ∀ a ∈ Recorded.answers db, ∀ b ∈ Recorded.answers db, a.1 = b.1 ↔ a.2 = b.2 :=
        World.addresses_never_shared Recorded.credentials hs 0 Recorded.answeredTwice
          (World.byTasks_of_turns (by decide +kernel))
      rw [hab] at h
      exact ⟨db, rfl, a, b, hab, h a (by simp) b (by simp)⟩

end Csqtt
