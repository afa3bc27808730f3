import Csqtt.ReplayedDatagrams
import Csqtt.SessionIdentities
import Csqtt.TrafficFlush

/-!
# The address of a session

A session is routed to the address of its `ActivateTunnel` command. A GETCONF takes the address from
the row of the device it names. A packet that comes before takes it from that row as well, or, if
there is none, from the device that its password is bound to, which may be another one.
-/

namespace Csqtt

def Database.Address (db : Database) (deviceId : Text) (ip : Ipv4) : Prop :=
  ∃ device, db.devices.lookup deviceId = some device ∧ Text.parseIpv4 device.ip = some ip

def Database.KeepsAddresses (db db' : Database) : Prop :=
  ∀ deviceId ip, db.Address deviceId ip → db'.Address deviceId ip

namespace Database

variable {db db' : Database}

/-- The same devices have the same addresses. -/
def SameAddresses (db db' : Database) : Prop :=
  ∀ deviceId, (db'.devices.lookup deviceId).map (·.ip) = (db.devices.lookup deviceId).map (·.ip)

theorem Unbinds.sameAddresses (h : Unbinds db db') : db.SameAddresses db' := by
  intro deviceId
  cases hd : db.devices.lookup deviceId with
  | none => rw [h.absent deviceId hd]
  | some device =>
    obtain hr | hr := h.row deviceId device hd
    · rw [hr]
    · rw [hr, Option.map_some, Option.map_some]

theorem sameAddresses_flushTraffic (db : Database) (sessions : List SessionTraffic) :
    db.SameAddresses (db.flushTraffic sessions).1 := by
  intro deviceId
  rw [(captured_flushTraffic db sessions).devices, Option.map_map]
  congr 1
  funext device
  cases (db.flushTraffic sessions).2.devices.lookup deviceId <;> rfl

/-- A GETCONF has written, or the addresses are as they were. -/
theorem Writes.addresses {net : Subnet} (h : db.Writes net db') : db.SameAddresses db' ∨
    ∃ r access keys, db' = (db.admitted net r access keys).1 := by
  obtain ⟨task, rfl⟩ | ⟨sessions, rfl⟩ := h
  · obtain hr | ⟨r, access, keys, rfl⟩ := db.write_cases net task
    · exact .inl hr.rows.sameAddresses
    · exact .inr ⟨r, access, keys, rfl⟩
  · exact .inl (db.sameAddresses_flushTraffic sessions)

theorem SameAddresses.row (h : db.SameAddresses db') {deviceId : Text} {device : ClientDevice}
    (hd : db'.devices.lookup deviceId = some device) :
    ∃ old, db.devices.lookup deviceId = some old ∧ old.ip = device.ip := by
  have hip := h deviceId
  rw [hd] at hip
  exact Option.map_eq_some_iff.mp hip.symm

theorem SameAddresses.keepsAddresses (h : db.SameAddresses db') : db.KeepsAddresses db' := by
  rintro deviceId ip ⟨device, hd, hip⟩
  have hs : SameAddresses db' db := fun deviceId => (h deviceId).symm
  obtain ⟨device', hd', heq⟩ := hs.row hd
  exact ⟨device', hd', heq ▸ hip⟩

theorem SameAddresses.distinctIps (h : db.SameAddresses db') (hdb : db.DistinctIps) :
    db'.DistinctIps := by
  intro deviceId deviceId' device device' hd hd' heq
  obtain ⟨old, ho, hip⟩ := h.row hd
  obtain ⟨old', ho', hip'⟩ := h.row hd'
  exact hdb deviceId deviceId' old old' ho ho' (by rw [hip, hip', heq])

theorem keepsAddresses_admitted (net : Subnet) (db : Database) (r : GetconfRequest)
    (access : CredentialAccess) (keys : Text × Text := ([], [])) :
    db.KeepsAddresses (db.admitted net r access keys).1 := by
  rintro deviceId ip ⟨device, hd, hip⟩
  obtain ⟨device', hd', heq⟩ := db.row_kept_admitted net r access hd keys
  exact ⟨device', hd', heq ▸ hip⟩

theorem address_of_tunnelConf {r : GetconfRequest} {dns : Text} {ip : Ipv4}
    (h : (db.tunnelConf r dns).1 = some ip) : db.Address r.identity.deviceId ip := by
  unfold tunnelConf at h
  split at h
  · cases h
  · rename_i device hd
    exact ⟨device, hd, h⟩

theorem address_of_resolveSessionIp {password deviceId : Text} {ip : Ipv4}
    (h : (db.resolveSessionIp password deviceId).bind Text.parseIpv4 = some ip)
    (hd : deviceId ≠ []) (hr : (db.devices.lookup deviceId).isSome) :
    db.Address deviceId ip := by
  obtain ⟨device, hl⟩ := Option.isSome_iff_exists.mp hr
  rw [resolveSessionIp, if_neg hd, hl] at h
  exact ⟨device, hl, h⟩

end Database

def AddressOf (e : Engine) (db : Database) (id : ℕ) (ip : Ipv4) : Prop :=
  ∃ identity, e.IdentityOf id identity ∧ db.Address identity.deviceId ip

section

variable {A : ℕ → Ipv4 → Prop} {e e' : Engine} {db db' : Database} {id : ℕ}

theorem AddressOf.mono {ip : Ipv4} (h : AddressOf e db id ip) (hr : e.Recalls A e')
    (hdb : db.KeepsAddresses db') : AddressOf e' db' id ip := by
  obtain ⟨identity, hid, ha⟩ := h
  exact ⟨identity, hr.identity _ _ hid, hdb _ _ ha⟩

def Command.Addressed (e : Engine) (db : Database) : Command → Prop
  | .activateTunnel sessionId ip _ _ _ => AddressOf e db sessionId ip
  | _ => True

/-- The address that an operation works with is that of its session. -/
def Op.Addressed (e : Engine) (db : Database) (id : ℕ) : Op → Prop
  | .acquire first => first.Addressed e db id
  | .storeTunnelIp ip => AddressOf e db id ip
  | .register ip _ _ => AddressOf e db id ip
  | .ensureRegistration ip _ => AddressOf e db id ip
  | .ensureWorker ip _ _ => AddressOf e db id ip
  | .send command _ => command.Addressed e db
  | _ => True

theorem Command.Addressed.mono {c : Command} (h : c.Addressed e db) (hr : e.Recalls A e')
    (hdb : db.KeepsAddresses db') : c.Addressed e' db' := by
  cases c with
  | activateTunnel => exact AddressOf.mono h hr hdb
  | _ => exact True.intro

theorem Op.Addressed.mono {op : Op} (h : op.Addressed e db id) (hr : e.Recalls A e')
    (hdb : db.KeepsAddresses db') : op.Addressed e' db' id := by
  induction op with
  | acquire _ ih => exact ih h
  | storeTunnelIp | register | ensureRegistration | ensureWorker => exact AddressOf.mono h hr hdb
  | send => exact Command.Addressed.mono h hr hdb
  | _ => exact True.intro

theorem Op.Addressed.of_isPlain {op : Op} (h : op.isPlain = true) : op.Addressed e db id := by
  cases op with
  | send command =>
    cases command with
    | activateTunnel => cases h
    | _ => exact True.intro
  | acquire | storeTunnelIp | register | ensureRegistration | ensureWorker => cases h
  | _ => exact True.intro

end

def Op.activates? : Op → Option (ℕ × Ipv4)
  | .send (.activateTunnel sessionId ip _ _ _) _ => some (sessionId, ip)
  | _ => none

def Op.resolves? : Op → Option Identity
  | .resolveIp identity _ => some identity
  | _ => none

theorem Op.Addressed.activation {e : Engine} {db : Database} {op : Op} {id sessionId : ℕ}
    {ip : Ipv4} (h : op.Addressed e db id) (hop : op.activates? = some (sessionId, ip)) :
    AddressOf e db sessionId ip := by
  cases op with
  | send command =>
    cases command with
    | activateTunnel =>
      cases hop
      exact h
    | _ => cases hop
  | _ => cases hop

namespace World

variable (cfg : ControlConfig)

def ByTasks (w : World) (input : Input) : Prop :=
  ∀ db, input = .database db → w.db.Writes cfg.server.net db

/-- When a packet asks for the address of a session, there is a row for the device of the session.
-/
def RowThere (w : World) (input : Input) : Prop :=
  ∀ identity ∈ (w.nextOp? input).bind Op.resolves?, (w.db.devices.lookup identity.deviceId).isSome

instance (w : World) (input : Input) : Decidable (w.RowThere input) :=
  inferInstanceAs (Decidable (∀ identity ∈ _, _))

/-- Whatever session the step routes, it routes to the address that the database has for the device
of the session. -/
def OwnAddress (w : World) (input : Input) : Prop :=
  ∀ id ip, (w.nextOp? input).bind Op.activates? = some (id, ip) → ∃ p device,
    w.session id = some p ∧ w.db.devices.lookup p.identity.deviceId = some device ∧
      Text.parseIpv4 device.ip = some ip

structure Addressed (w : World) : Prop extends
    Carries (·.Addressed w.engine w.db) (fun id op => op.Addressed w.engine w.db id) w where
  publics : ∀ id p ip, w.session id = some p → p.tunnelIp = some ip → AddressOf w.engine w.db id ip

variable {cfg} {w w' : World}

theorem Addressed.ownAddress (h : w.Addressed) (input : Input) : w.OwnAddress input := by
  intro id ip ha
  obtain ⟨op, hop, hip⟩ := Option.bind_eq_some_iff.mp ha
  obtain ⟨t, ht, hm⟩ := mem_of_nextOp? hop
  obtain ⟨identity, ⟨p, hp, rfl⟩, device, hd, haddress⟩ :=
    (h.tasks t ht op hm).activation hip
  exact ⟨p, device, hp, hd, haddress⟩

variable {input : Input}

theorem addressed_of_gives (h : w.Addressed) {id : ℕ} {ip : Ipv4}
    (hg : w.Gives input id ip) : AddressOf w.engine w.db id ip := by
  cases hg with
  | task ht ho =>
    exact h.tasks _ (List.mem_of_getElem? ht) (.storeTunnelIp ip) (ho ▸ List.mem_cons_self)
  | command hc => exact h.commands _ (hc ▸ List.mem_cons_self)

theorem addressed_publics (h : w.Addressed)
    (hr : w.engine.Recalls (w.Gives input) w'.engine) (hdb : w.db.KeepsAddresses w'.db) :
    ∀ id p ip, w'.session id = some p → p.tunnelIp = some ip → AddressOf w'.engine w'.db id ip := by
  intro id p' ip hp' hip
  obtain ⟨p, hp, ho⟩ | hg := hr.tunnel id p' ip hp' hip
  · exact (h.publics id p ip hp ho).mono hr hdb
  · exact (addressed_of_gives h hg).mono hr hdb

theorem addressed_of_follows (hw : w.Named) (h : w.Addressed) {t : Task} {op o : Op} {io : TaskIo}
    (hname : op.Named w.engine t.session) (hop : op.Addressed w.engine w.db t.session)
    (hrow : ∀ identity payload, op = .resolveIp identity payload →
      (w.db.devices.lookup identity.deviceId).isSome)
    {A : ℕ → Ipv4 → Prop} {e' : Engine} (hr : w.engine.Recalls A e')
    (hdb : w.db.KeepsAddresses (w.exec cfg t io op).1.db) (ho : Follows cfg w t op io o) :
    o.Addressed e' (w.exec cfg t io op).1.db t.session := by
  have hgrant : ∀ {ip}, Granted cfg w op io ip →
      AddressOf e' (w.exec cfg t io op).1.db t.session ip := by
    rintro ip ⟨r, access, rfl, hip⟩
    exact ⟨r.identity, hr.identity _ _ hname, Database.address_of_tunnelConf hip⟩
  have hresolved : ∀ {ip}, Resolved w t op ip →
      AddressOf e' (w.exec cfg t io op).1.db t.session ip := by
    rintro ip ⟨identity, payload, p, rfl, -, hip⟩
    have haddr := Database.address_of_resolveSessionIp hip (hw.engine.deviceId_ne_nil hname)
      (hrow identity payload rfl)
    exact ⟨identity, hr.identity _ _ hname, hdb _ _ haddr⟩
  cases o with
  | storeTunnelIp =>
    obtain hip | hip := ho
    · exact hgrant hip
    · exact hresolved hip
  | register => exact hgrant ho
  | ensureRegistration ip =>
    obtain ⟨-, p, hp, hip⟩ | hip := ho
    · exact (h.publics t.session p ip hp hip).mono hr hdb
    · exact hresolved hip
  | ensureWorker =>
    cases ho
    exact AddressOf.mono hop hr hdb
  | send command =>
    cases command with
    | activateTunnel =>
      obtain ⟨rfl, ⟨a, b, rfl⟩ | ⟨a, b, p, rfl, -⟩⟩ := ho
      · exact AddressOf.mono hop hr hdb
      · exact AddressOf.mono hop hr hdb
    | _ => exact True.intro
  | acquire =>
    cases ho
    exact Op.Addressed.mono hop hr hdb
  | _ => exact True.intro

theorem addressed_of_started {t : Task} (h : w.Started input t) (e : Engine)
    (db : Database) : ∀ op ∈ t.ops, op.isPlain = true ∨ op.Addressed e db t.session := by
  intro op hop
  obtain hp | ⟨rfl, -⟩ | ⟨address, plain, rfl, -⟩ | ⟨plain, rfl⟩ := h.ops hop
  · exact .inl hp
  · exact .inr True.intro
  · exact .inr True.intro
  · exact .inr True.intro

theorem db_step (ht : w.ByTasks cfg input) : w.db.SameAddresses (w.step cfg input).db ∨
    ∃ r access keys, (w.step cfg input).db = (w.db.admitted cfg.server.net r access keys).1 := by
  obtain ⟨i, io, rfl, hturn⟩ | hb := step_cases cfg w input
  · generalize w.step cfg (.task i io) = w' at hturn ⊢
    cases hturn with
    | idle | ended => exact .inl fun _ => rfl
    | ran t op ops =>
      obtain h | ⟨r, access, keys, -, h⟩ := (effects_exec cfg w { t with ops } io op).db
      · exact .inl fun _ => by rw [show World.db _ = w.db from h]
      · exact .inr ⟨r, access, keys, h⟩
  · obtain h | h := hb.db
    · exact .inl fun _ => by rw [h]
    · exact (ht _ h).addresses

theorem keepsAddresses_step (ht : w.ByTasks cfg input) :
    w.db.KeepsAddresses (w.step cfg input).db := by
  obtain hs | ⟨r, access, keys, h⟩ := db_step ht
  · exact hs.keepsAddresses
  · rw [h]
    exact w.db.keepsAddresses_admitted cfg.server.net r access keys

theorem Addressed.step (hw : w.Named) (h : w.Addressed) (hp : w.ByTasks cfg input)
    (hrow : w.RowThere input) : (w.step cfg input).Addressed := by
  have hr := (recalls_step cfg hw input).2
  have hdb := keepsAddresses_step hp
  refine ⟨h.toCarries.step hw.recover (fun _ hc => hc.mono hr hdb) (fun _ _ hop => hop.mono hr hdb)
    (fun _ _ => True.intro) (fun _ _ => .of_isPlain)
    (fun _ _ _ hop => Command.Addressed.mono hop hr hdb)
      (fun _ _ hop => Op.Addressed.mono hop hr hdb)
    (fun i io t op ops hin ht hops hop o ho => ?_) (fun t ht => addressed_of_started ht _ _),
    addressed_publics h hr hdb⟩
  subst hin
  have hn := hw.tasks t (List.mem_of_getElem? ht) op (hops ▸ List.mem_cons_self)
  have hr' : ∀ identity payload, op = .resolveIp identity payload →
      (w.db.devices.lookup identity.deviceId).isSome := by
    rintro identity payload rfl
    exact hrow identity (by rw [nextOp?_task ht hops]; rfl)
  have heq : (w.step cfg (.task i io)).db = (w.exec cfg { t with ops } io op).1.db := by
    rw [World.step, (turn_runTask cfg w i io).eq_of_ran ht hops]
  rw [heq] at hdb ⊢
  exact addressed_of_follows (t := { t with ops }) hw h hn hop hr' hr hdb ho

theorem addressed_start (credentials : List Credential) (db : Database) (wallNow : ℕ) :
    (World.start credentials db wallNow).Addressed := by
  refine ⟨⟨?_, ?_⟩, ?_⟩
  · rintro c ⟨⟩
  · rintro t ⟨⟩
  · rintro id p ip ⟨⟩

/-- Every session is routed only to the address that the database has for its device, in every run
in which packets ask for addresses only after their device has a row. -/
theorem sessions_routed_to_own_address (credentials : List Credential) (db : Database) (wallNow : ℕ)
    (inputs : List Input)
    (htasks : Runs.Along (step cfg) (ByTasks cfg) (start credentials db wallNow) inputs)
    (hrow : Runs.Along (step cfg) RowThere (start credentials db wallNow) inputs) :
    Runs.Along (step cfg) OwnAddress (start credentials db wallNow) inputs :=
  Runs.along_invariant (I := fun w => w.Named ∧ w.Addressed)
    (Q := fun w input => w.ByTasks cfg input ∧ w.RowThere input)
    (fun _ input hw hq => ⟨hw.1.step cfg input, hw.2.step hw.1 hq.1 hq.2⟩)
    (fun _ input hw _ => hw.2.ownAddress input)
    ⟨named_start credentials db wallNow, addressed_start credentials db wallNow⟩
    ((Runs.along_and (Q := ByTasks cfg) (R := RowThere)).mpr ⟨htasks, hrow⟩)

def Input.isTurn : Input → Bool
  | .database _ => false
  | _ => true

theorem byTasks_of_turns {inputs : List Input} (h : ∀ input ∈ inputs, input.isTurn = true) :
    Runs.Along (step cfg) (ByTasks cfg) w inputs := by
  refine Runs.along_mono (fun w input hturn db heq => ?_) (Runs.along_of_forall_mem _ w h)
  rw [heq] at hturn
  cases hturn

end World

namespace Recorded

def sharedDatabase : Database where
  mainPassword := "owner-password".toList
  passwords := AList.insert "cross-language-password".toList { deviceId := "tablet".toList } ∅
  devices := AList.insert "tablet".toList
    { deviceId := "tablet".toList
      ip := "10.66.67.2".toList
      boundPassword := "cross-language-password".toList
      lastSessionSalt := []
      lastGenerationId := 0 } ∅

/-- A new device sends a GETCONF with the password and data at once. The task of the data asks for
the address first, then the GETCONF is answered up to its commit, then the data goes on. -/
def overtaken : List World.Input :=
  [.udp endpoint getconfDatagram udpIo, .udp endpoint dataDatagram udpIo, .recv 0] ++
    List.replicate 4 (.task 0 taskIo) ++ [.recv 0, .task 0 taskIo, .task 0 taskIo, .recv 0] ++
    List.replicate 9 (.task 1 taskIo) ++ List.replicate 14 (.task 0 taskIo) ++ [.task 1 taskIo]

def misrouted : World := run (.start credentials sharedDatabase 0) overtaken

def answered : List World.Input := .udp endpoint getconfDatagram udpIo :: turns 40

end Recorded

/-- The session of the phone is routed to the address of the tablet, while the database has another
address for the phone. -/
theorem other_device_routed :
    ((Recorded.misrouted.nextOp? (.task 1 Recorded.taskIo)).bind Op.activates? =
        some (1, (10, 66, 67, 2)) ∧
      (Recorded.misrouted.session 1).map (·.identity.deviceId) = some "phone".toList ∧
      (Recorded.misrouted.db.devices.lookup "phone".toList).map (·.ip) = some "10.66.67.3".toList ∧
      (Recorded.misrouted.db.devices.lookup "tablet".toList).map (·.ip) =
        some "10.66.67.2".toList) ∧ ¬ Recorded.misrouted.OwnAddress (.task 1 Recorded.taskIo) := by
  have hf : (Recorded.misrouted.nextOp? (.task 1 Recorded.taskIo)).bind Op.activates? =
        some (1, (10, 66, 67, 2)) ∧
      (Recorded.misrouted.session 1).map (·.identity.deviceId) = some "phone".toList ∧
      (Recorded.misrouted.db.devices.lookup "phone".toList).map (·.ip) = some "10.66.67.3".toList ∧
      (Recorded.misrouted.db.devices.lookup "tablet".toList).map (·.ip) =
        some "10.66.67.2".toList := by
    decide +kernel
  refine ⟨hf, fun ho => ?_⟩
  obtain ⟨ha, hd, hphone, -⟩ := hf
  obtain ⟨p, device, hp, hr, hip⟩ := ho 1 (10, 66, 67, 2) ha
  rw [hp, Option.map_some, Option.some.injEq] at hd
  rw [hd] at hr
  rw [hr, Option.map_some, Option.some.injEq] at hphone
  rw [hphone] at hip
  exact absurd hip (by decide)

/-- The theorem at the run of a device that waits for its answer. -/
theorem sessions_routed_answered : Runs.Along (World.step Recorded.control) World.OwnAddress
      (.start Recorded.credentials Recorded.database 0) Recorded.answered :=
  World.sessions_routed_to_own_address Recorded.credentials Recorded.database 0 Recorded.answered
    (World.byTasks_of_turns (by decide +kernel)) (by decide +kernel)

end Csqtt
