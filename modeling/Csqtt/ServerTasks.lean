import Csqtt.EpochAdmission
import Csqtt.ServerNames
import Csqtt.ServerControlPlane

/-!
# What an operation of a task can do

`Effects` says what an operation does to the shared state: only a commit writes the database, a
command is queued only as the operation says, only a frame opens streams. `Goes` says how the task
goes on: it fails where it can, or each operation that it adds `Follows` the one that was run.
-/

namespace Csqtt

/-- What an operation stores in the public part of the session of its task. -/
def Op.update? : Op → Option (PublicSession → PublicSession)
  | .setPublicEpoch identity => some (·.setIdentity identity)
  | .storeWorker workerId => some fun p => { p with workerId }
  | .storeDesired desiredCount => some fun p => { p with desiredStreamCount := desiredCount }
  | .storeTunnelIp ip => some fun p => { p with tunnelIp := some ip }
  | .storeHasTunnel => some (·.setTunnel true)
  | _ => none

theorem Op.name_update? {op : Op} {f : PublicSession → PublicSession} (h : op.update? = some f)
    (p : PublicSession) :
    ((f p).identity = p.identity ∨ op = .setPublicEpoch (f p).identity) ∧
      ((f p).tunnelIp = p.tunnelIp ∨ ∃ ip, op = .storeTunnelIp ip ∧ (f p).tunnelIp = some ip) := by
  cases op with
  | setPublicEpoch =>
    cases h
    exact ⟨.inr rfl, .inl rfl⟩
  | storeWorker | storeDesired =>
    cases h
    exact ⟨.inl rfl, .inl rfl⟩
  | storeTunnelIp ip =>
    cases h
    exact ⟨.inl rfl, .inr ⟨ip, rfl, rfl⟩⟩
  | storeHasTunnel =>
    cases h
    exact ⟨.inl rfl, .inl rfl⟩
  | _ => cases h

def Op.request? : Op → Option GetconfRequest
  | .preliminary r => some r
  | .pickEpoch r => some r
  | .freshEpoch r => some r
  | .insertEpoch r _ _ => some r
  | .lockEpoch r _ _ => some r
  | .checkEpoch r _ _ => some r
  | .admitRequest r _ _ => some r
  | _ => none

/-- The epoch slot that an operation is about, up to the admission of its request. -/
def Op.slot? : Op → Option ℕ
  | .lockEpoch _ slot _ => some slot
  | .checkEpoch _ slot _ => some slot
  | .admitRequest _ slot _ => some slot
  | _ => none

def Op.canFail : Op → Bool
  | .send _ required => required
  | .payload _ => true
  | .frameGate _ => true
  | .preliminary _ => true
  | .admitRequest .. => true
  | .ensureIdentity _ => true
  | .resolveIp .. => true
  | .ensureWorker .. => true
  | .disconnectIdentity .. => true
  | .authorizeDisconnect .. => true
  | _ => false

/-- An operation that carries nothing of a session: the answers and the drops of a failed task, and
most of what the control loop and the panel start with. -/
def Op.isPlain : Op → Bool
  | .send (.sendPlain ..) _ => true
  | .send (.broadcastPlain _) _ => true
  | .send (.dropSession _) _ => true
  | .send (.dropPassword _) _ => true
  | .send .compactMemory _ => true
  | .forget _ => true
  | .closeStreams _ => true
  | .prune _ => true
  | .forgetPassword _ => true
  | .dropAll => true
  | .buildCredentials => true
  | .sweepEpochs _ => true
  | _ => false

namespace World

def SlotOf (w : World) (slot : ℕ) (deviceId : Text) : Prop :=
  ∃ s, w.epochSlots[slot]? = some s ∧ s.deviceId = deviceId

def Slotted (w : World) : Prop :=
  ∀ deviceId slot, w.deviceEpochs.lookup deviceId = some slot → w.SlotOf slot deviceId

structure KeepsSlots (w w' : World) : Prop where
  slots : ∀ slot deviceId, w.SlotOf slot deviceId → w'.SlotOf slot deviceId
  slotted : w.Slotted → w'.Slotted

section Slots

variable {w w' : World}

theorem KeepsSlots.of_eq (he : w'.deviceEpochs = w.deviceEpochs)
    (hs : w'.epochSlots = w.epochSlots) : KeepsSlots w w' := by
  refine ⟨fun slot deviceId h => ?_, fun h deviceId slot hslot => ?_⟩
  · rwa [SlotOf, hs]
  · rw [SlotOf, hs]
    exact h deviceId slot (he ▸ hslot)

variable (w) in
theorem keepsSlots_modify (slot : ℕ) {f : EpochSlot → EpochSlot}
    (hf : ∀ s, (f s).deviceId = s.deviceId) :
    KeepsSlots w { w with epochSlots := w.epochSlots.modify slot f } := by
  have hslot : ∀ i d, w.SlotOf i d →
    SlotOf { w with epochSlots := w.epochSlots.modify slot f } i d := by
    rintro i d ⟨s, hs, hd⟩
    simp only [SlotOf, List.getElem?_modify, hs]
    split_ifs
    · exact ⟨f s, rfl, (hf s).trans hd⟩
    · exact ⟨s, rfl, hd⟩
  exact ⟨hslot, fun h d i hi => hslot i d (h d i hi)⟩

variable (w) in
theorem keepsSlots_erase (deviceId : Text) :
    KeepsSlots w { w with deviceEpochs := w.deviceEpochs.erase deviceId } := by
  refine ⟨fun _ _ h => h, fun h d slot hs => ?_⟩
  by_cases hd : d = deviceId
  · rw [hd, AList.lookup_erase] at hs
    cases hs
  · rw [AList.lookup_erase_ne hd] at hs
    exact h d slot hs

variable (w) in
theorem keepsSlots_insert (deviceId : Text) (epoch : DeviceEpochState) (unixMs : ℕ) :
    KeepsSlots w { w with
      deviceEpochs := w.deviceEpochs.insert deviceId w.epochSlots.length
      epochSlots := w.epochSlots ++ [⟨deviceId, epoch, unixMs⟩] } := by
  have ho : ∀ slot d, w.SlotOf slot d → SlotOf { w with
      deviceEpochs := w.deviceEpochs.insert deviceId w.epochSlots.length
      epochSlots := w.epochSlots ++ [⟨deviceId, epoch, unixMs⟩] } slot d := by
    rintro slot d ⟨s, hs, hd⟩
    exact ⟨s, (List.getElem?_append_left (List.getElem?_eq_some_iff.mp hs).1).trans hs, hd⟩
  refine ⟨ho, fun h d slot hslot => ?_⟩
  by_cases hd : d = deviceId
  · rw [hd, AList.lookup_insert] at hslot
    cases hslot
    exact ⟨_, List.getElem?_concat_length, hd.symm⟩
  · rw [AList.lookup_insert_ne hd] at hslot
    exact ho slot d (h d slot hslot)

end Slots

variable (cfg : ControlConfig)

structure Effects (w : World) (t : Task) (op : Op) (w' : World) : Prop where
  engine : w'.engine = w.engine ∨
    (∃ f, op.update? = some f ∧ w'.engine = w.engine.updatePublic t.session f) ∨
      ∃ credentials, op = .publishCredentials credentials ∧
        w'.engine = w.engine.publishCredentials credentials
  db : w'.db = w.db ∨ ∃ r access keys, op = .commit r access ∧
    w'.db = (w.db.admitted cfg.server.net r access keys).1
  commands : ∃ new, w'.commands = w.commands ++ new ∧ ∀ c ∈ new,
    (∃ required, op = .send c required) ∨ ∃ sessionId payload, c = .sendPlain sessionId payload
  tasks : w'.tasks = w.tasks ∨ ∃ first, op = .acquire first ∧
    w'.tasks = w.tasks ++ [{ kind := .job, session := t.session, ops := [first] }]
  sessions : ∀ id ∈ w'.sessions, id ∈ w.sessions ∨ op = .insertSession id
  slots : KeepsSlots w w'
  started : ∃ new, w'.proxies.started = w.proxies.started ++ new ∧
    ∀ key ∈ new, key.1 = t.session ∧ ∃ payload, op = .frame payload

variable {cfg} {w w' : World} {t : Task} {op : Op}

theorem Effects.of_slots (he : w'.engine = w.engine) (hdb : w'.db = w.db)
    (hc : w'.commands = w.commands) (ht : w'.tasks = w.tasks)
    (hp : w'.proxies = w.proxies) (hs : ∀ id ∈ w'.sessions, id ∈ w.sessions)
    (hslot : KeepsSlots w w') : Effects cfg w t op w' :=
  ⟨.inl he, .inl hdb, ⟨[], by rw [hc, List.append_nil], by simp⟩, .inl ht,
    fun id hid => .inl (hs id hid), hslot, [], by rw [hp, List.append_nil], by simp⟩

theorem Effects.of_sessions (sessions : List ℕ) (nextRegistration : ℕ)
    (hs : ∀ id ∈ sessions, id ∈ w.sessions) :
    Effects cfg w t op { w with sessions, nextRegistration } :=
  .of_slots rfl rfl rfl rfl rfl hs (.of_eq rfl rfl)

theorem Effects.refl (w : World) : Effects cfg w t op w := .of_sessions _ _ fun _ hid => hid

theorem Effects.modifySlot (slot : ℕ) {f : EpochSlot → EpochSlot}
    (hf : ∀ s, (f s).deviceId = s.deviceId) :
    Effects cfg w t op { w with epochSlots := w.epochSlots.modify slot f } :=
  .of_slots rfl rfl rfl rfl rfl (fun _ hid => hid) (keepsSlots_modify w slot hf)

theorem Effects.eraseEpoch (deviceId : Text) :
    Effects cfg w t op { w with deviceEpochs := w.deviceEpochs.erase deviceId } :=
  .of_slots rfl rfl rfl rfl rfl (fun _ hid => hid) (keepsSlots_erase w deviceId)

theorem Effects.updatePublic {f : PublicSession → PublicSession} (hf : op.update? = some f) :
    Effects cfg w t op (w.updatePublic t.session f) :=
  { Effects.refl w with engine := .inr (.inl ⟨f, hf, rfl⟩), slots := .of_eq rfl rfl }

variable {proxies : ProxyTable}

theorem Effects.setProxies (hs : ∃ new, proxies.started =
      w.proxies.started ++ new ∧ ∀ key ∈ new, key.1 = t.session ∧ ∃ payload, op = .frame payload) :
    Effects cfg w t op (w.setProxies proxies) := by
  refine { Effects.refl w with
    commands := ⟨_, rfl, fun c hc => ?_⟩, slots := .of_eq rfl rfl, started := hs }
  obtain ⟨sent, -, rfl⟩ := List.mem_map.mp hc
  exact .inr ⟨_, _, rfl⟩

theorem started_handleFrame (s : ProxyTable) (id : ℕ) (payload : Bytes) (queued : Bool) :
    ∃ new, (s.handleFrame id payload queued).1.started = s.started ++ new ∧
      ∀ key ∈ new, key.1 = id := by
  unfold ProxyTable.handleFrame
  split
  · exact ⟨[], (List.append_nil _).symm, by simp⟩
  · rename_i f _
    obtain ⟨-, hk⟩ | ⟨-, target, hs⟩ := s.handleParsed_cases id f queued
    · exact ⟨[], by rw [hk.started, List.append_nil], by simp⟩
    · rw [hs]
      simp [ProxyTable.started, ProxyTable.spawn]

theorem Effects.forget (sessionId : ℕ) : Effects cfg w t op (w.forget sessionId) :=
  .of_sessions _ _ fun _ hid => (List.mem_filter.mp hid).1

theorem Effects.command (command : Command) (required : Bool) :
    Effects cfg w t (.send command required) (w.command command).1 := by
  unfold World.command
  split_ifs
  · refine { Effects.refl w with
      commands := ⟨[command], rfl, fun c hc => ?_⟩
      slots := .of_eq rfl rfl }
    rw [List.mem_singleton.mp hc]
    exact .inl ⟨required, rfl⟩
  · exact .refl w

theorem Effects.events (h : Effects cfg w t op w') : w'.engine.events = w.engine.events := by
  obtain heq | ⟨f, -, heq⟩ | ⟨credentials, -, heq⟩ := h.engine
  · rw [heq]
  · rw [heq]
    rfl
  · rw [heq]
    rfl

variable {i id sessionId slot : ℕ}

theorem Effects.session_eq_none (h : Effects cfg w t op w') (hid : w.session id = none) :
    w'.session id = none := by
  obtain heq | ⟨f, -, heq⟩ | ⟨credentials, -, heq⟩ := h.engine
  · rw [World.session, heq]
    exact hid
  · rw [World.session, heq, Engine.publics_updatePublic]
    split_ifs with hi
    · rw [← hi, show w.engine.publics id = none from hid, Option.map_none]
    · exact hid
  · rw [World.session, heq]
    exact hid

theorem effects_admitRequest (io : TaskIo) (r : GetconfRequest) (slot : ℕ) (created : Bool) :
    Effects cfg w t op (w.admitRequest t io r slot created).1 := by
  unfold World.admitRequest
  split
  · exact .refl w
  · split
    · exact .refl w
    · split
      · exact .modifySlot slot fun _ => rfl
      · exact .modifySlot slot fun _ => rfl
      · exact .modifySlot slot fun _ => rfl

variable (cfg) (w t) in
theorem effects_exec (io : TaskIo) (op : Op) : Effects cfg w t op (w.exec cfg t io op).1 := by
  cases op with
  | send command required =>
    have hsent : Effects cfg w t (.send command required) (w.command command).1 := .command _ _
    rw [World.exec]
    split
    · rename_i heq
      rw [heq] at hsent
      exact hsent
    · rename_i heq
      rw [heq] at hsent
      exact hsent
  | forget sessionId => exact .forget sessionId
  | payload =>
    rw [World.exec]
    split_ifs
    · split <;> exact .refl w
    · exact .refl w
  | frameGate =>
    rw [World.exec]
    split_ifs <;> exact .refl w
  | frame payload =>
    obtain ⟨new, hnew, hkeys⟩ := started_handleFrame w.proxies t.session payload w.room
    exact .setProxies ⟨new, hnew, fun key hkey => ⟨hkeys key hkey, payload, rfl⟩⟩
  | insertEpoch _ fresh unixMs =>
    rw [World.exec]
    split
    · exact .refl w
    · exact .of_slots rfl rfl rfl rfl rfl (fun _ hid => hid) (keepsSlots_insert w _ fresh unixMs)
  | lockEpoch _ slot =>
    rw [World.exec]
    split_ifs
    · exact .refl w
    · exact .modifySlot slot fun _ => rfl
  | admitRequest r slot created =>
    rw [World.exec]
    split_ifs
    · exact .refl w
    · exact .refl w
    · exact effects_admitRequest io r slot created
  | setPublicEpoch | storeWorker | storeDesired => exact .updatePublic rfl
  | commit r access =>
    exact { (Effects.refl w : Effects cfg w t (.commit r access) w) with
      db := .inr ⟨r, access, io.keys, rfl, rfl⟩, slots := .of_eq rfl rfl }
  | removeEpoch deviceId =>
    rw [World.exec]
    split_ifs
    · exact .eraseEpoch deviceId
    · exact .refl w
  | storeTunnelIp => exact .updatePublic rfl
  | register => exact .of_sessions _ _ fun _ hid => hid
  | storeHasTunnel => exact .updatePublic rfl
  | publishCredentials credentials =>
    exact { Effects.refl w with
      engine := .inr (.inr ⟨credentials, rfl, rfl⟩), slots := .of_eq rfl rfl }
  | ensureIdentity =>
    rw [World.exec]
    split <;> exact .refl w
  | ensureRegistration => exact .of_sessions _ _ fun _ hid => hid
  | ensureWorker =>
    rw [World.exec]
    split
    · exact .refl w
    · split <;> exact .refl w
  | disconnectIdentity =>
    rw [World.exec]
    split <;> exact .refl w
  | lockExisting _ _ slot =>
    rw [World.exec]
    split_ifs
    · exact .refl w
    · exact .modifySlot slot fun _ => rfl
  | forgetDevice sessionId =>
    rw [World.exec]
    split_ifs
    · exact .forget sessionId
    · exact .refl w
  | acquire first =>
    rw [World.exec]
    split_ifs
    · exact { Effects.refl w with tasks := .inr ⟨first, rfl, rfl⟩, slots := .of_eq rfl rfl }
    · exact .refl w
  | insertSession sessionId =>
    rw [World.exec]
    dsimp only
    split_ifs
    · refine { Effects.refl w with sessions := fun id hid => ?_, slots := .of_eq rfl rfl }
      obtain hid | hid := List.mem_append.mp hid
      · exact .inl (List.mem_filter.mp hid).1
      · rw [List.mem_singleton.mp hid]
        exact .inr rfl
    · exact .forget sessionId
  | closeStreams =>
    refine .setProxies ⟨[], ?_, by simp⟩
    rw [List.append_nil]
    exact (ProxyTable.kept_lapse.closeSession w.proxies _).started
  | clearSessions => exact .of_sessions _ _ fun _ hid => by cases hid
  | evictEpoch deviceId =>
    rw [World.exec]
    split_ifs
    · exact .eraseEpoch deviceId
    · exact .refl w
  | _ => exact .refl w

/-! ## How a task goes on -/

variable (cfg) (w) (t) (op) (io : TaskIo)

def Granted (ip : Ipv4) : Prop :=
  ∃ r access, op = .commit r access ∧
    ((w.db.admitted cfg.server.net r access io.keys).1.tunnelConf r io.dns).1 = some ip

def Resolved (ip : Ipv4) : Prop :=
  ∃ identity payload p, op = .resolveIp identity payload ∧ w.session t.session = some p ∧
    (w.db.resolveSessionIp p.password identity.deviceId).bind Text.parseIpv4 = some ip

/-- A packet activates the tunnel of a session whose worker is known. -/
def Equips (ip : Ipv4) : Prop :=
  ∃ registrationId payload p, op = .ensureWorker ip registrationId payload ∧
    w.session t.session = some p ∧ validWorker p.workerId = true

def admitsNow (r : GetconfRequest) (slot : ℕ) : Bool :=
  !io.busy && !w.writing &&
    (w.db.getconfCredentialAccess io.now r.password r.identity.deviceId).isOk &&
    w.epochSlots[slot]?.any fun s =>
      (s.epoch.admitEpoch r.identity.generationId r.identity.sessionSalt).2.isAccepted

/-- The operation `op` adds this one to its task. -/
def Follows : Op → Prop
  | .preliminary r => op = .preliminary r ∨ ∃ payload text p, op = .payload payload ∧
      w.session t.session = some p ∧ Text.ofUtf8 payload = some text ∧
      parseGetconf p.password text = .ok r
  | .pickEpoch r => op.request? = some r
  | .freshEpoch r => op.request? = some r
  | .insertEpoch r _ _ => op.request? = some r
  | .lockEpoch r slot _ => op.request? = some r ∧ (op.slot? = some slot ∨
      (w.exec cfg t io op).1.deviceEpochs.lookup r.identity.deviceId = some slot)
  | .checkEpoch r slot _ => op.request? = some r ∧ op.slot? = some slot
  | .admitRequest r slot _ => op.request? = some r ∧ op.slot? = some slot
  | .frame payload => op = .frameGate payload ∧ (w.session t.session).any (·.hasTunnel) = true
  | .storeWorker _ => ∃ r slot created, op = .admitRequest r slot created ∧
      w.admitsNow io r slot = true
  | .setPublicEpoch identity => ∃ r slot created, op = .admitRequest r slot created ∧
      identity = r.identity
  | .purgeStale identity => ∃ r slot created, op = .admitRequest r slot created ∧
      identity = r.identity ∧ w.admitsNow io r slot = true
  | .purgeReplaced identity _ => ∃ r slot created, op = .admitRequest r slot created ∧
      identity = r.identity
  | .commit r _ => ∃ slot created, op = .admitRequest r slot created ∧ w.admitsNow io r slot = true
  | .storeTunnelIp ip => Granted cfg w op io ip ∨ Resolved w t op ip
  | .register ip _ _ => Granted cfg w op io ip
  | .storeHasTunnel => (∃ ip workerId desiredCount, op = .register ip workerId desiredCount) ∨
      ∃ ip, Equips w t op ip
  | .resolveIp identity payload => op = .resolveIp identity payload ∨
      (op = .ensureIdentity payload ∧ w.engine.IdentityOf t.session identity)
  | .ensureRegistration ip payload => (op = .ensureIp payload ∧
      ∃ p, w.session t.session = some p ∧ p.tunnelIp = some ip) ∨ Resolved w t op ip
  | .ensureWorker ip _ payload => op = .ensureRegistration ip payload
  | .send (.activateTunnel sessionId ip _ _ _) _ => sessionId = t.session ∧
      ((∃ workerId desiredCount, op = .register ip workerId desiredCount) ∨ Equips w t op ip)
  | .send (.injectTun sessionId payload) _ => sessionId = t.session ∧
      ((op = .ensureTunnel payload ∧ (w.session t.session).any (·.hasTunnel) = true) ∨
        ∃ ip, Equips w t op ip)
  | .send (.updateEpoch sessionId identity) _ => sessionId = t.session ∧
      ∃ r access, op = .commit r access ∧ identity = r.identity
  | .send (.setAuthoritativeEpoch identity) _ =>
    ∃ r access, op = .commit r access ∧ identity = r.identity
  | .send (.replaceCredentials credentials) _ => op = .buildCredentials ∧
      w.db.buildCredentials cfg.deriveWrapKey io.now = some credentials
  | .publishCredentials credentials => op = .buildCredentials ∧
      w.db.buildCredentials cfg.deriveWrapKey io.now = some credentials
  | .acquire first => op = .acquire first
  | .payload _ => False
  | .ingress _ => False
  | .insertSession _ => False
  | _ => True

structure Goes (t' : Task) : Prop where
  session : t'.session = t.session
  kind : t'.kind = t.kind
  ops : (∃ new, t'.ops = new ++ t.ops ∧ ∀ o ∈ new, Follows cfg w t op io o) ∨
    (op.canFail = true ∧ t'.ops = t.recover)
  recover : ∀ o ∈ t'.recover, o ∈ t.recover ∨ o.isPlain = true

variable {cfg w t op io} {o : Op}

theorem follows_of_isPlain (h : o.isPlain = true) : Follows cfg w t op io o := by
  cases o with
  | send command =>
    cases command with
    | activateTunnel | updateEpoch | setAuthoritativeEpoch | replaceCredentials | injectTun =>
      cases h
    | _ => exact True.intro
  | forget | closeStreams | prune | forgetPassword | dropAll | buildCredentials | sweepEpochs =>
    exact True.intro
  | _ => cases h

theorem isPlain_dropExactSession (h : o ∈ dropExactSession sessionId) : o.isPlain = true := by
  obtain rfl | h := List.mem_cons.mp h
  · rfl
  · rw [List.mem_singleton.mp h]
    rfl

variable {ops new : List Op}

theorem Goes.of_next {t₁ : Task} (hs : t₁.session = t.session)
    (hk : t₁.kind = t.kind) (ho : t₁.ops = t.ops)
    (hr : ∀ o ∈ t₁.recover, o ∈ t.recover ∨ o.isPlain = true)
    (hn : ∀ o ∈ new, Follows cfg w t op io o) : Goes cfg w t op io (t₁.next new) :=
  ⟨hs, hk, .inl ⟨new, by rw [Task.next, ho], hn⟩, hr⟩

theorem Goes.next (hn : ∀ o ∈ new, Follows cfg w t op io o) :
    Goes cfg w t op io (t.next new) :=
  .of_next rfl rfl rfl (fun _ ho => .inl ho) hn

theorem Goes.one (ho : Follows cfg w t op io o) : Goes cfg w t op io (t.next [o]) :=
  .next (List.forall_mem_singleton.mpr ho)

theorem Goes.two {o' : Op} (ho : Follows cfg w t op io o) (ho' : Follows cfg w t op io o') :
    Goes cfg w t op io (t.next [o, o']) :=
  .next (List.forall_mem_cons.mpr ⟨ho, List.forall_mem_singleton.mpr ho'⟩)

theorem Goes.one_of {t₁ : Task} (hs : t₁.session = t.session) (hk : t₁.kind = t.kind)
    (hop : t₁.ops = t.ops) (hr : t₁.recover = t.recover) (ho : Follows cfg w t op io o) :
    Goes cfg w t op io (t₁.next [o]) :=
  .of_next hs hk hop (fun _ ho' => .inl (hr ▸ ho')) (List.forall_mem_singleton.mpr ho)

theorem Goes.stay : Goes cfg w t op io t :=
  ⟨rfl, rfl, .inl ⟨[], rfl, by simp⟩, fun _ ho => .inl ho⟩

theorem Goes.fail (h : op.canFail = true) : Goes cfg w t op io t.fail :=
  ⟨rfl, rfl, .inr ⟨h, rfl⟩, fun _ ho => by cases ho⟩

theorem Goes.reading {busy read : Task} (hb : Goes cfg w t op io busy)
    (hw : Follows cfg w t op io op) (hr : Goes cfg w t op io read) :
    Goes cfg w t op io (t.reading w io op busy read) := by
  unfold Task.reading
  split_ifs
  · exact hb
  · exact .one hw
  · exact hr

theorem Goes.plain (h : ∀ o ∈ ops, o.isPlain = true) :
    Goes cfg w t op io (t.next ops) := .next fun o ho => follows_of_isPlain (h o ho)

theorem goes_processControlPayload {payload : Bytes} {p : PublicSession}
    (hp : w.session t.session = some p) :
    Goes cfg w t (.payload payload) io (t.processControlPayload p.password payload) := by
  unfold Task.processControlPayload
  split_ifs
  · exact .one True.intro
  · split
    · exact .fail rfl
    · rename_i text ht
      split
      · exact .one True.intro
      · rename_i r hr
        exact .one (.inr ⟨payload, text, p, rfl, hp, ht, hr⟩)
  · split
    · exact .fail rfl
    · unfold Task.handleDisconnect
      dsimp only
      split_ifs
      · exact .one True.intro
      · exact .one True.intro
      · refine .of_next rfl rfl rfl (fun o ho => .inr ?_) fun o ho => ?_
        · rw [List.mem_singleton.mp ho]
          rfl
        · rw [List.mem_singleton.mp ho]
          exact True.intro
  · exact .stay

theorem goes_admitRequest {r : GetconfRequest} {created : Bool}
    (hbusy : io.busy = false) (hwrite : w.writing = false) :
    Goes cfg w t (.admitRequest r slot created) io (w.admitRequest t io r slot created).2 := by
  have hreject : ∀ denial, ∀ o ∈ [deny t.session denial true, .dropEpoch,
      .rejectedIsRequest r.identity], Follows cfg w t (.admitRequest r slot created) io o := by
    intro denial o ho
    simp only [List.mem_cons, List.not_mem_nil, or_false] at ho
    obtain rfl | rfl | rfl := ho <;> exact True.intro
  unfold World.admitRequest
  split
  · refine ⟨rfl, rfl, .inl ⟨_, (List.append_assoc ..).symm, fun o ho => ?_⟩,
      fun _ ho => .inl ho⟩
    obtain ho | ho := List.mem_append.mp ho
    · split_ifs at ho
      · rw [List.mem_singleton.mp ho]
        exact True.intro
      · cases ho
    · exact hreject _ o ho
  · rename_i access hacc
    split
    · exact .stay
    · rename_i s hs
      split
      · exact .next (hreject _)
      · exact .next (hreject _)
      · rename_i epoch decision hstale hconflict hdec
        have hadmits : w.admitsNow io r slot = true := by
          rw [admitsNow, hbusy, hwrite, hacc, hs, Option.any_some, hdec]
          cases decision with
          | current | advanced => rfl
          | stale => exact absurd rfl hstale
          | saltConflict => exact absurd rfl hconflict
        refine .of_next rfl rfl rfl (fun _ ho => .inl ho) fun o ho => ?_
        simp only [List.mem_cons, List.not_mem_nil, or_false] at ho
        obtain rfl | rfl | rfl | rfl | rfl | rfl := ho
        · exact ⟨r, slot, created, rfl, rfl⟩
        · exact ⟨r, slot, created, rfl, hadmits⟩
        · exact True.intro
        · exact ⟨r, slot, created, rfl, rfl, hadmits⟩
        · exact ⟨r, slot, created, rfl, rfl⟩
        · exact ⟨slot, created, rfl, hadmits⟩

theorem goes_commit {r : GetconfRequest} {access : CredentialAccess} :
    Goes cfg w t (.commit r access) io (w.commit cfg t io r access).2 := by
  refine .of_next rfl rfl rfl (fun _ ho => .inl ho) fun o ho => ?_
  obtain ho | ho := List.mem_append.mp ho
  · obtain ho | ho := List.mem_append.mp ho
    · simp only [List.mem_cons, List.not_mem_nil, or_false] at ho
      obtain rfl | rfl | rfl := ho
      · exact ⟨rfl, r, access, rfl, rfl⟩
      · exact ⟨r, access, rfl, rfl⟩
      · exact True.intro
    · split at ho
      · cases ho
      · rename_i ip hip
        simp only [List.mem_cons, List.not_mem_nil, or_false] at ho
        obtain rfl | rfl := ho
        · exact .inl ⟨r, access, rfl, hip⟩
        · exact ⟨r, access, rfl, hip⟩
  · obtain rfl | ho := List.mem_cons.mp ho
    · exact True.intro
    · split_ifs at ho
      · rw [List.mem_singleton.mp ho]
        exact True.intro
      · cases ho

variable (cfg w t io) in
theorem goes_exec (op : Op) : Goes cfg w t op io (w.exec cfg t io op).2 := by
  cases op with
  | send _ required =>
    rw [World.exec]
    split
    · exact .stay
    · cases required with
      | true => exact .fail rfl
      | false => exact .stay
  | payload =>
    rw [World.exec]
    split_ifs
    · split
      · exact .stay
      · rename_i p hp
        exact goes_processControlPayload hp
    · exact .stay
  | frameGate =>
    rw [World.exec]
    split_ifs with htunnel
    · exact .one ⟨rfl, htunnel⟩
    · exact .fail rfl
  | preliminary =>
    refine .reading (.fail rfl) (.inl rfl) ?_
    split
    · exact .two True.intro True.intro
    · exact .one rfl
  | rejectedIsRequest =>
    rw [World.exec]
    dsimp only
    split_ifs
    · exact .plain fun o ho => isPlain_dropExactSession ho
    · exact .stay
  | pickEpoch =>
    refine .one ?_
    split
    · rename_i hslot
      exact ⟨rfl, .inr hslot⟩
    · exact rfl
  | freshEpoch => exact .reading (.one rfl) rfl (.one rfl)
  | insertEpoch =>
    rw [World.exec]
    split
    · rename_i slot hslot
      refine .one ⟨rfl, .inr ?_⟩
      rw [World.exec, hslot]
      exact hslot
    · rename_i hnone
      refine .one ⟨rfl, .inr ?_⟩
      rw [World.exec, hnone]
      exact AList.lookup_insert _
  | lockEpoch =>
    rw [World.exec]
    split_ifs
    · exact .one ⟨rfl, .inl rfl⟩
    · exact .one_of rfl rfl rfl rfl ⟨rfl, rfl⟩
  | checkEpoch =>
    rw [World.exec]
    dsimp only
    split_ifs
    · exact .one ⟨rfl, rfl⟩
    · exact .one_of rfl rfl rfl rfl rfl
  | admitRequest =>
    rw [World.exec]
    split_ifs with hbusy hwrite
    · exact .fail rfl
    · exact .one ⟨rfl, rfl⟩
    · exact goes_admitRequest (Bool.not_eq_true _ ▸ hbusy) (Bool.not_eq_true _ ▸ hwrite)
  | purgeStale | purgeReplaced =>
    refine .plain fun o ho => ?_
    obtain ⟨id, -, ho⟩ := List.mem_flatMap.mp ho
    exact isPlain_dropExactSession ho
  | commit => exact goes_commit
  | register ip workerId desiredCount =>
    exact .two (.inl ⟨ip, workerId, desiredCount, rfl⟩) ⟨rfl, .inl ⟨workerId, desiredCount, rfl⟩⟩
  | dropEpoch => exact ⟨rfl, rfl, .inl ⟨[], rfl, by simp⟩, fun _ ho => .inl ho⟩
  | buildCredentials =>
    refine .reading .stay True.intro ?_
    split
    · exact .stay
    · rename_i credentials hcred
      exact .two ⟨rfl, hcred⟩ ⟨rfl, hcred⟩
  | ingress =>
    rw [World.exec]
    dsimp only
    split_ifs
    · refine .of_next rfl rfl rfl (fun o ho => .inr (isPlain_dropExactSession ho)) fun o ho => ?_
      rw [List.mem_singleton.mp ho]
      exact True.intro
    · exact .stay
  | ensureTunnel =>
    refine .one ?_
    split_ifs with htunnel
    · exact ⟨rfl, .inl ⟨rfl, htunnel⟩⟩
    · exact True.intro
  | ensureIp =>
    refine .one ?_
    split
    · rename_i ip hip
      exact .inl ⟨rfl, Option.bind_eq_some_iff.mp hip⟩
    · exact True.intro
  | ensureIdentity =>
    rw [World.exec]
    split
    · exact .fail rfl
    · rename_i p hp
      exact .one (.inr ⟨rfl, p, hp, rfl⟩)
  | resolveIp identity payload =>
    refine .reading (.fail rfl) (.inl rfl) ?_
    split
    · exact .fail rfl
    · rename_i ip hip
      obtain ⟨p, hp, hip⟩ := Option.bind_eq_some_iff.mp hip
      exact .two (.inr ⟨identity, payload, p, rfl, hp, hip⟩)
        (.inr ⟨identity, payload, p, rfl, hp, hip⟩)
  | ensureRegistration => exact .one rfl
  | ensureWorker ip registrationId payload =>
    rw [World.exec]
    split
    · exact .fail rfl
    · rename_i p hp
      split
      · rename_i hwork
        have hequip : Equips w t (.ensureWorker ip registrationId payload) ip :=
          ⟨registrationId, payload, p, rfl, hp, hwork⟩
        refine .next fun o ho => ?_
        simp only [List.mem_cons, List.not_mem_nil, or_false] at ho
        obtain rfl | rfl | rfl := ho
        · exact ⟨rfl, .inr hequip⟩
        · exact .inr ⟨ip, hequip⟩
        · exact ⟨rfl, .inr ⟨ip, hequip⟩⟩
      · exact .fail rfl
  | disconnectIdentity =>
    rw [World.exec]
    split
    · exact .fail rfl
    · exact .one True.intro
  | disconnectPreliminary =>
    refine .reading (.one True.intro) True.intro ?_
    split_ifs <;> exact .one True.intro
  | pickExisting =>
    refine .one ?_
    split <;> exact True.intro
  | lockExisting =>
    rw [World.exec]
    split_ifs
    · exact .one True.intro
    · exact .one_of rfl rfl rfl rfl True.intro
  | checkExisting =>
    rw [World.exec]
    dsimp only
    split_ifs
    · exact .one True.intro
    · exact .one_of rfl rfl rfl rfl True.intro
  | authorizeDisconnect =>
    refine .reading (.fail rfl) True.intro ?_
    split_ifs
    · exact .one True.intro
    · exact .one_of rfl rfl rfl rfl True.intro
  | disconnectCandidates =>
    refine .next fun o ho => ?_
    obtain rfl | ho := List.mem_cons.mp ho
    · exact True.intro
    · obtain ho | ho := List.mem_append.mp ho
      · obtain ⟨id, -, rfl⟩ := List.mem_map.mp ho
        exact True.intro
      · rw [List.mem_singleton.mp ho]
        exact True.intro
  | acquire =>
    rw [World.exec]
    split_ifs
    · exact .stay
    · exact .one rfl
  | prune =>
    refine .next fun o ho => ?_
    obtain ho | ho := List.mem_append.mp ho
    · obtain ⟨id, -, ho⟩ := List.mem_flatMap.mp ho
      exact follows_of_isPlain (isPlain_dropExactSession ho)
    · rw [List.mem_singleton.mp ho]
      exact True.intro
  | pruneOverflow | forgetPassword =>
    refine .plain fun o ho => ?_
    obtain ⟨id, -, rfl⟩ := List.mem_map.mp ho
    rfl
  | dropAll =>
    refine .next fun o ho => ?_
    obtain ho | ho := List.mem_append.mp ho
    · obtain ⟨id, -, rfl⟩ := List.mem_map.mp ho
      exact True.intro
    · rw [List.mem_singleton.mp ho]
      exact True.intro
  | sweepEpochs =>
    refine .next fun o ho => ?_
    obtain ⟨entry, -, rfl⟩ := List.mem_map.mp ho
    exact True.intro
  | _ => exact .stay

/-! ## Turns -/

def nextOp? (w : World) : Input → Option Op
  | .task i _ => w.tasks[i]?.bind (·.ops.head?)
  | _ => none

variable {input : Input}

theorem mem_of_nextOp? (h : w.nextOp? input = some op) : ∃ t ∈ w.tasks, op ∈ t.ops := by
  cases input with
  | task =>
    obtain ⟨t, ht, hop⟩ := Option.bind_eq_some_iff.mp h
    exact ⟨t, List.mem_of_getElem? ht, List.mem_of_head? hop⟩
  | _ => cases h

theorem nextOp?_task (ht : w.tasks[i]? = some t) (ho : t.ops = op :: ops) (io : TaskIo) :
    w.nextOp? (.task i io) = some op := by
  rw [nextOp?, ht, Option.bind_some, ho, List.head?_cons]

inductive Turn (cfg : ControlConfig) (w : World) (i : ℕ) (io : TaskIo) : World → Prop
  | idle : w.tasks[i]? = none → Turn cfg w i io w
  | ended (t : Task) : w.tasks[i]? = some t → t.ops = [] →
      Turn cfg w i io { w with tasks := w.tasks.eraseIdx i }
  | ran (t : Task) (op : Op) (ops : List Op) : w.tasks[i]? = some t → t.ops = op :: ops →
      Turn cfg w i io { (w.exec cfg { t with ops } io op).1 with
        tasks := (w.exec cfg { t with ops } io op).1.tasks.set i
          (w.exec cfg { t with ops } io op).2 }

variable (cfg w) in
theorem turn_runTask (i : ℕ) (io : TaskIo) : Turn cfg w i io (w.runTask cfg i io) := by
  unfold World.runTask
  split
  · rename_i hn
    exact .idle hn
  · rename_i t ht
    split
    · rename_i ho
      exact .ended t ht ho
    · rename_i op ops ho
      exact .ran t op ops ht ho

theorem Turn.eq_of_ran (h : Turn cfg w i io w') (ht : w.tasks[i]? = some t)
    (ho : t.ops = op :: ops) :
    w' = { (w.exec cfg { t with ops } io op).1 with
      tasks := (w.exec cfg { t with ops } io op).1.tasks.set i
        (w.exec cfg { t with ops } io op).2 } := by
  cases h with
  | idle hn => cases hn.symm.trans ht
  | ended _ ht' ho' =>
    cases ht'.symm.trans ht
    cases ho'.symm.trans ho
  | ran _ _ _ ht' ho' =>
    cases ht'.symm.trans ht
    cases ho'.symm.trans ho
    rfl

def Recovers (w : World) : Prop := ∀ t ∈ w.tasks, ∀ op ∈ t.recover, op.isPlain = true

theorem mem_tasks_exec {t' : Task}
    (h : t' ∈ (w.exec cfg t io o).1.tasks.set i (w.exec cfg t io o).2) :
    t' = (w.exec cfg t io o).2 ∨ t' ∈ w.tasks ∨
      ∃ first, o = .acquire first ∧
      t' = { kind := .job, session := t.session, ops := [first] } := by
  obtain h | h := List.mem_or_eq_of_mem_set h
  · obtain heq | ⟨first, heq, ht⟩ := (effects_exec cfg w t io o).tasks
    · exact .inr (.inl (heq ▸ h))
    · rw [ht] at h
      obtain h | h := List.mem_append.mp h
      · exact .inr (.inl h)
      · exact .inr (.inr ⟨first, heq, List.mem_singleton.mp h⟩)
  · exact .inl h

theorem Recovers.turn (h : w.Recovers) (hturn : Turn cfg w i io w') : w'.Recovers := by
  intro t' ht' o ho
  cases hturn with
  | idle => exact h t' ht' o ho
  | ended => exact h t' (List.mem_of_mem_eraseIdx ht') o ho
  | ran t op ops ht =>
    obtain rfl | hpast | ⟨first, -, rfl⟩ := mem_tasks_exec ht'
    · obtain hpast | hl := (goes_exec cfg w { t with ops } io op).recover o ho
      · exact h t (List.mem_of_getElem? ht) o hpast
      · exact hl
    · exact h t' hpast o ho
    · cases ho

/-- The rule for what all operations of all tasks meet: it has to hold of what follows an operation,
of what a task starts and of what a failed task goes on with. -/
theorem ops_turn {P Q : ℕ → Op → Prop} (hrecovers : w.Recovers)
    (h : ∀ t ∈ w.tasks, ∀ op ∈ t.ops, P t.session op) (hmono : ∀ id op, P id op → Q id op)
    (hlast : ∀ id op, op.isPlain = true → Q id op)
    (hacquire : ∀ id first, P id (.acquire first) → Q id first)
    (hturn : Turn cfg w i io w')
    (hfollow : ∀ t op ops, w.tasks[i]? = some t → t.ops = op :: ops → P t.session op →
      ∀ o, Follows cfg w { t with ops } op io o → Q t.session o) :
    ∀ t ∈ w'.tasks, ∀ op ∈ t.ops, Q t.session op := by
  intro t' ht' o ho
  cases hturn with
  | idle => exact hmono _ o (h t' ht' o ho)
  | ended => exact hmono _ o (h t' (List.mem_of_mem_eraseIdx ht') o ho)
  | ran t op ops ht hops =>
    have hmem := List.mem_of_getElem? ht
    have htask := h t hmem
    rw [hops] at htask
    have hop := htask op List.mem_cons_self
    obtain rfl | hold | ⟨first, heq, rfl⟩ := mem_tasks_exec ht'
    · have hgoes := goes_exec cfg w { t with ops } io op
      rw [hgoes.session]
      obtain ⟨new, hnew, hall⟩ | ⟨-, hrecover⟩ := hgoes.ops
      · rw [hnew] at ho
        obtain ho | ho := List.mem_append.mp ho
        · exact hfollow t op ops ht hops hop o (hall o ho)
        · exact hmono _ o (htask o (List.mem_cons_of_mem _ ho))
      · rw [hrecover] at ho
        exact hlast _ o (hrecovers t hmem o ho)
    · exact hmono _ o (h t' hold o ho)
    · rw [List.mem_singleton.mp ho]
      exact hacquire _ first (heq ▸ hop)

theorem commands_turn {P P' : Command → Prop} (h : ∀ c ∈ w.commands, P c)
    (hm : ∀ c, P c → P' c) (hp : ∀ sessionId payload, P' (.sendPlain sessionId payload))
    (hturn : Turn cfg w i io w') (hs : ∀ t c required ops, w.tasks[i]? = some t →
      t.ops = .send c required :: ops → P' c) : ∀ c ∈ w'.commands, P' c := by
  intro c hc
  cases hturn with
  | idle | ended => exact hm c (h c hc)
  | ran t op ops ht ho =>
    obtain ⟨new, hn, ha⟩ := (effects_exec cfg w { t with ops } io op).commands
    rw [show World.commands _ = w.commands ++ new from hn] at hc
    obtain hc | hc := List.mem_append.mp hc
    · exact hm c (h c hc)
    · obtain ⟨required, rfl⟩ | ⟨sessionId, payload, rfl⟩ := ha c hc
      · exact hs t c required ops ht ho
      · exact hp sessionId payload

/-! ## Steps -/

/-- The tasks that the control loop starts for an event, and the panel for a request. -/
inductive Started (w : World) : Input → Task → Prop
  | created (currentWall sessionId : ℕ) : .sessionCreated sessionId ∈ w.engine.events →
      Started w (.recv currentWall)
        { kind := .loop, session := sessionId,
          ops := [.prune currentWall, .insertSession sessionId] }
  | closed (currentWall sessionId : ℕ) : Started w (.recv currentWall)
      { kind := .loop, session := sessionId, ops := [.closeStreams sessionId, .forget sessionId] }
  | payload (currentWall sessionId : ℕ) (address : SocketAddr) (plain : Bytes) :
      .payload address sessionId plain ∈ w.engine.events → Started w (.recv currentWall)
        { kind := .loop, session := sessionId, ops := [.acquire (.payload plain)] }
  | ingress (currentWall sessionId : ℕ) (plain : Bytes) : Started w (.recv currentWall)
      { kind := .loop, session := sessionId, ops := [.acquire (.ingress plain)] }
  | panel (request : PanelRequest) :
      Started w (.panel request) { kind := .panel, session := 0, ops := request.ops }

theorem mem_tasks_spawn {kind : TaskKind} {t' : Task}
    (h : t' ∈ (w.spawn kind id ops).tasks) : t' ∈ w.tasks ∨ t' = { kind, session := id, ops } :=
  (List.mem_append.mp h).imp_right List.mem_singleton.mp

theorem engine_recv (w : World) (currentWall : ℕ) : (w.recv currentWall).engine = w.engine ∨
    ∃ event events, w.engine.events = event :: events ∧
      (w.recv currentWall).engine = w.engine.setEvents events := by
  unfold World.recv
  split
  · exact .inl rfl
  · rename_i event events he
    split_ifs
    · exact .inl rfl
    · refine .inr ⟨event, events, he, ?_⟩
      unfold World.handleEvent
      split <;> rfl

theorem mem_commands_setProxies {c : Command} (h : c ∈ (w.setProxies proxies).commands) :
    c ∈ w.commands ∨ ∃ sessionId payload, c = .sendPlain sessionId payload := by
  refine (List.mem_append.mp h).imp_right fun hc => ?_
  obtain ⟨sent, -, rfl⟩ := List.mem_map.mp hc
  exact ⟨_, _, rfl⟩

/-- How a step changes the engine, unless it is a turn of a task. -/
inductive EngineStep (cfg : ControlConfig) (w : World) : Input → Engine → Prop
  | same {input : Input} : EngineStep cfg w input w.engine
  | routine {input : Input} {e : Engine} (h : ∀ {R}, Engine.Routine cfg.server R → R w.engine e) :
      EngineStep cfg w input e
  | udp (endpoint : EndpointKey) (wire : Bytes) (io : UdpIo) :
      EngineStep cfg w (.udp endpoint wire io) (w.engine.onUdp cfg.server endpoint wire io)
  | restart (wallNow : ℕ) : EngineStep cfg w (.restart wallNow) (w.engine.restart wallNow)
  | command {c : Command} {commands : List Command} (h : w.commands = c :: commands)
      (io : Engine.CommandIo) :
      EngineStep cfg w (.command io) (w.engine.onCommand cfg.server c io)
  | taken {input : Input} {event : ControlEvent} {events : List ControlEvent}
      (h : w.engine.events = event :: events) : EngineStep cfg w input (w.engine.setEvents events)

/-- What a step does, unless it is a turn of a task. -/
structure Between (cfg : ControlConfig) (w : World) (input : Input) (w' : World) : Prop where
  engine : EngineStep cfg w input w'.engine
  tasks : ∀ t ∈ w'.tasks, t ∈ w.tasks ∨ w.Started input t
  commands : ∀ c ∈ w'.commands,
    c ∈ w.commands ∨ ∃ sessionId payload, c = .sendPlain sessionId payload
  db : w'.db = w.db ∨ input = .database w'.db
  sessions : w'.sessions = w.sessions
  slots : KeepsSlots w w'
  started : w'.proxies.started = w.proxies.started

theorem Between.withEngine {e : Engine} (h : EngineStep cfg w input e) :
    Between cfg w input (w.withEngine e) :=
  ⟨h, fun _ ht => .inl ht, fun _ hc => .inl hc, .inl rfl, rfl, .of_eq rfl rfl, rfl⟩

theorem Between.refl : Between cfg w input w := .withEngine .same

theorem Between.setProxies (hs : proxies.started = w.proxies.started) :
    Between cfg w input (w.setProxies proxies) :=
  { Between.refl (w := w) with
    commands := fun _ hc => mem_commands_setProxies hc, slots := .of_eq rfl rfl, started := hs }

theorem between_recv (w : World) (currentWall : ℕ) :
    Between cfg w (.recv currentWall) (w.recv currentWall) := by
  unfold World.recv
  split
  · exact .refl
  · rename_i event events he
    split_ifs
    · exact .refl
    · have htake : EngineStep cfg w (.recv currentWall) (w.engine.setEvents events) := .taken he
      have hevent : event ∈ w.engine.events := he ▸ List.mem_cons_self
      have hs : ∀ {id ops}, w.Started (.recv currentWall) { kind := .loop, session := id, ops } →
          Between cfg w (.recv currentWall)
            ((w.withEngine (w.engine.setEvents events)).spawn .loop id ops) := by
        intro id ops hstart
        refine { Between.withEngine htake with tasks := fun t ht => ?_, slots := .of_eq rfl rfl }
        refine (mem_tasks_spawn ht).imp_right fun heq => ?_
        rw [heq]
        exact hstart
      cases event with
      | sessionCreated sessionId => exact hs (.created currentWall sessionId hevent)
      | sessionClosed _ sessionId => exact hs (.closed currentWall sessionId)
      | payload address sessionId plain =>
        exact hs (.payload currentWall sessionId address plain hevent)
      | ingressBeforeTunnel _ sessionId plain =>
        exact hs (.ingress currentWall sessionId plain)
      | streamRepair | ioCounters => exact .withEngine htake

variable (cfg w) in
theorem step_cases (input : Input) :
    (∃ i io, input = .task i io ∧ Turn cfg w i io (w.step cfg input)) ∨
      Between cfg w input (w.step cfg input) := by
  cases input with
  | task i io => exact .inl ⟨i, io, rfl, turn_runTask cfg w i io⟩
  | command io =>
    refine .inr ?_
    unfold World.step World.takeCommand
    dsimp only
    split
    · exact .refl
    · rename_i command commands hcommand
      refine { Between.withEngine (.command hcommand io) with
        commands := fun c hc => .inl ?_, slots := .of_eq rfl rfl }
      rw [hcommand]
      exact List.mem_cons_of_mem _ hc
  | recv currentWall => exact .inr (between_recv w currentWall)
  | panel request =>
    refine .inr { Between.refl (w := w) with tasks := fun t ht => ?_, slots := .of_eq rfl rfl }
    refine (mem_tasks_spawn ht).imp_right fun heq => ?_
    rw [heq]
    exact .panel request
  | database db =>
    refine .inr ?_
    rw [World.step]
    split_ifs
    · exact .refl
    · exact { Between.refl (w := w) with db := .inr rfl, slots := .of_eq rfl rfl }
  | streamReceive task =>
    exact .inr (.setProxies (ProxyTable.kept_lapse.receive w.proxies task).started)
  | streamSend =>
    refine .inr ?_
    rw [World.step]
    unfold World.command
    split_ifs
    · refine { Between.refl (w := w) with commands := fun c hc => ?_, slots := .of_eq rfl rfl }
      refine (List.mem_append.mp hc).imp_right fun hnew => ?_
      exact ⟨_, _, List.mem_singleton.mp hnew⟩
    · exact .refl
  | streamFinish task =>
    exact .inr (.setProxies (ProxyTable.kept_lapse.finish w.proxies task _ _ _).started)
  | udp endpoint wire io => exact .inr (.withEngine (.udp endpoint wire io))
  | tick io => exact .inr (.withEngine (.routine fun h => h.regular.onTick w.engine io))
  | tun => exact .inr (.withEngine (.routine fun h => h.setDownlink w.engine _))
  | drain io => exact .inr (.withEngine (.routine fun h => h.drainDownlink w.engine io))
  | ioCounters => exact .inr (.withEngine (.routine fun h => h.quiet w.engine .ioCounters rfl))
  | restart wallNow => exact .inr (.withEngine (.restart wallNow))

end World

theorem PanelRequest.isPlain_ops (request : PanelRequest) :
    ∀ o ∈ request.ops, o.isPlain = true := by
  intro o ho
  cases request with
  | dropPasswordSessions =>
    simp only [PanelRequest.ops, List.mem_cons, List.not_mem_nil, or_false] at ho
    obtain rfl | rfl := ho <;> rfl
  | _ =>
    rw [List.mem_singleton.mp ho]
    rfl

namespace World

variable {cfg : ControlConfig} {w : World} {input : Input}

theorem Started.ops {t' : Task} (h : w.Started input t') {o : Op} (ho : o ∈ t'.ops) :
    o.isPlain = true ∨ (o = .insertSession t'.session ∧
      .sessionCreated t'.session ∈ w.engine.events) ∨
      (∃ address plain, o = .acquire (.payload plain) ∧
        .payload address t'.session plain ∈ w.engine.events) ∨
      ∃ plain, o = .acquire (.ingress plain) := by
  cases h with
  | created _ _ he =>
    simp only [List.mem_cons, List.not_mem_nil, or_false] at ho
    obtain rfl | rfl := ho
    · exact .inl rfl
    · exact .inr (.inl ⟨rfl, he⟩)
  | closed =>
    simp only [List.mem_cons, List.not_mem_nil, or_false] at ho
    obtain rfl | rfl := ho <;> exact .inl rfl
  | payload _ _ address plain he =>
    exact .inr (.inr (.inl ⟨address, plain, List.mem_singleton.mp ho, he⟩))
  | ingress _ _ plain =>
    exact .inr (.inr (.inr ⟨plain, List.mem_singleton.mp ho⟩))
  | panel request => exact .inl (request.isPlain_ops o ho)

theorem Started.recover {t' : Task} (h : w.Started input t') : t'.recover = [] := by
  cases h <;> rfl

theorem Recovers.step (h : w.Recovers) (input : Input) : (w.step cfg input).Recovers := by
  obtain ⟨i, io, -, ht⟩ | hb := step_cases cfg w input
  · exact h.turn ht
  · intro t' ht' o ho
    obtain hold | hs := hb.tasks t' ht'
    · exact h t' hold o ho
    · rw [hs.recover] at ho
      cases ho

/-- What all commands in the queue and all operations of all tasks meet. -/
structure Carries (C : Command → Prop) (P : ℕ → Op → Prop) (w : World) : Prop where
  commands : ∀ c ∈ w.commands, C c
  tasks : ∀ t ∈ w.tasks, ∀ op ∈ t.ops, P t.session op

/-- The rule for what is carried: it stays as it was, it holds of what asks for nothing, of what
follows an operation and of what is started. -/
theorem Carries.step {C C' : Command → Prop} {P Q : ℕ → Op → Prop} (h : w.Carries C P)
    (hr : w.Recovers) (hcommand : ∀ c, C c → C' c) (hm : ∀ id op, P id op → Q id op)
    (hs : ∀ sessionId payload, C' (.sendPlain sessionId payload))
    (hp : ∀ id op, op.isPlain = true → Q id op)
    (hsend : ∀ id c required, P id (.send c required) → C' c)
    (ha : ∀ id first, P id (.acquire first) → Q id first)
    (hf : ∀ i io t op ops, input = .task i io → w.tasks[i]? = some t → t.ops = op :: ops →
      P t.session op → ∀ o, Follows cfg w { t with ops } op io o → Q t.session o)
    (hstart : ∀ t, w.Started input t → ∀ op ∈ t.ops, op.isPlain = true ∨ Q t.session op) :
    (w.step cfg input).Carries C' Q := by
  obtain ⟨i, io, rfl, hturn⟩ | hb := step_cases cfg w input
  · refine ⟨commands_turn h.commands hcommand hs hturn fun t c required ops ht hops => ?_,
      ops_turn hr h.tasks hm hp ha hturn fun t op ops => hf i io t op ops rfl⟩
    exact hsend t.session c required
      (h.tasks t (List.mem_of_getElem? ht) _ (hops ▸ List.mem_cons_self))
  · refine ⟨fun c hc => ?_, fun t ht op hop => ?_⟩
    · obtain ho | ⟨sessionId, payload, rfl⟩ := hb.commands c hc
      · exact hcommand c (h.commands c ho)
      · exact hs sessionId payload
    · obtain ho | hn := hb.tasks t ht
      · exact hm _ op (h.tasks t ho op hop)
      · exact (hstart t hn op hop).elim (hp _ op) id

end World
end Csqtt
