import Csqtt.ReplayedDatagrams
import Csqtt.SessionIdentities

/-!
# Sessions of newer generations

A GETCONF that is admitted drops the other sessions of its device. The engine drops only what its
generation retires; the control plane drops every listed session of another generation or salt, the
newer ones as well.
-/

namespace Csqtt

/-- The identity whose stale sessions an operation drops, or its task later. -/
def Op.purges? : Op → Option Identity
  | .acquire first => first.purges?
  | .purgeStale identity => some identity
  | _ => none

/-- The identity whose stale sessions an operation drops at once. -/
def Op.stale? : Op → Option Identity
  | .purgeStale identity => some identity
  | _ => none

def Op.inserts? : Op → Option ℕ
  | .acquire first => first.inserts?
  | .insertSession sessionId => some sessionId
  | _ => none

theorem Op.purges?_of_isPlain {op : Op} (h : op.isPlain = true) : op.purges? = none := by
  cases op with
  | acquire | purgeStale => cases h
  | _ => rfl

theorem Op.inserts?_of_isPlain {op : Op} (h : op.isPlain = true) : op.inserts? = none := by
  cases op with
  | acquire | insertSession => cases h
  | _ => rfl

namespace World

/-- What `purge_stale_device_sessions` drops. -/
def staleSessions (w : World) (current : ℕ) (identity : Identity) : List ℕ :=
  w.candidates fun id p => id ≠ current ∧ p.identity.deviceId = identity.deviceId ∧
    (p.identity.generationId ≠ identity.generationId ∨
      p.identity.sessionSalt ≠ identity.sessionSalt)

/-- What `purge_replaced_worker_sessions` drops. -/
def replacedSessions (w : World) (current : ℕ) (identity : Identity) (workerId : ℕ) : List ℕ :=
  w.candidates fun id p => id ≠ current ∧ p.workerId = workerId ∧ p.identity = identity

/-- The step drops a session for a GETCONF of the given identity that has been admitted: in the
control plane, or in the engine when it is told the epoch. -/
inductive Drops (w : World) : Input → Identity → ℕ → Prop
  | stale {i : ℕ} {io : TaskIo} {t : Task} {identity : Identity} {ops : List Op} {id : ℕ} :
      w.tasks[i]? = some t → t.ops = .purgeStale identity :: ops →
      id ∈ w.staleSessions t.session identity → Drops w (.task i io) identity id
  | replaced {i : ℕ} {io : TaskIo} {t : Task} {identity : Identity} {workerId : ℕ} {ops : List Op}
      {id : ℕ} : w.tasks[i]? = some t → t.ops = .purgeReplaced identity workerId :: ops →
      id ∈ w.replacedSessions t.session identity workerId → Drops w (.task i io) identity id
  | retired {io : Engine.CommandIo} {identity : Identity} {commands : List Command} {slot : ℕ}
      {s : HotSession} : w.commands = .setAuthoritativeEpoch identity :: commands →
      w.engine.sessions.get slot = some s → sessionIsRetiredByEpoch s.identity identity = true →
      Drops w (.command io) identity s.id

/-- No session of the same device with a greater generation is dropped. -/
def SparesNewer (w : World) (input : Input) : Prop :=
  ∀ identity id p, w.Drops input identity id → w.session id = some p →
    p.identity.deviceId = identity.deviceId → p.identity.generationId ≤ identity.generationId

def Listed (w : World) (id : ℕ) : Prop :=
  id ∈ w.sessions ∨ .sessionCreated id ∈ w.engine.events ∨
    ∃ t ∈ w.tasks, ∃ op ∈ t.ops, op.inserts? = some id

/-- A GETCONF has been admitted and has not dropped the other sessions yet. -/
def Purging (w : World) (identity : Identity) : Prop :=
  ∃ t ∈ w.tasks, ∃ op ∈ t.ops, op.purges? = some identity

def NoNewer (w : World) (identity : Identity) : Prop :=
  ∀ id p, w.Listed id → w.session id = some p → p.identity.deviceId = identity.deviceId →
    p.identity.generationId ≤ identity.generationId

variable (cfg : ControlConfig)

def admitted? (w : World) : Input → Option Identity
  | .task i io =>
    match w.nextOp? (.task i io) with
    | some (.admitRequest r slot _) => if w.admitsNow io r slot then some r.identity else none
    | _ => none
  | _ => none

/-- A GETCONF is admitted only while no newer session of its device is listed, and a session is
created only while no older GETCONF of its device is about to drop the others. -/
structure InOrder (w : World) (input : Input) : Prop where
  admitted : ∀ identity, w.admitted? input = some identity → w.NoNewer identity
  created : ∀ id p, w.session id = none → (w.step cfg input).session id = some p →
    ∀ identity, w.Purging identity → p.identity.deviceId = identity.deviceId →
      p.identity.generationId ≤ identity.generationId

variable {cfg} {w w' : World} {io : TaskIo}

/-! ## Lists -/

variable {id i : ℕ}

theorem events_turn (h : Turn cfg w i io w') : w'.engine.events = w.engine.events := by
  cases h with
  | idle | ended => rfl
  | ran t op ops => exact (effects_exec cfg w { t with ops } io op).events

theorem session_turn (h : Turn cfg w i io w') (hid : w.session id = none) :
    w'.session id = none := by
  cases h with
  | idle | ended => exact hid
  | ran t op ops => exact (effects_exec cfg w { t with ops } io op).session_eq_none hid

theorem inserts_of_follows {t : Task} {op o : Op} (h : Follows cfg w t op io o)
    (ho : o.inserts? = some id) : op.inserts? = some id := by
  cases o with
  | acquire =>
    cases h
    exact ho
  | insertSession => cases h
  | _ => cases ho

theorem listed_turn (hr : w.Recovers) (h : Turn cfg w i io w')
    (hid : w'.Listed id) : w.Listed id := by
  obtain hid | hid | ⟨t, ht, op, hop, hid⟩ := hid
  · cases h with
    | idle | ended => exact .inl hid
    | ran t op ops ht hops =>
      obtain hid | rfl := (effects_exec cfg w { t with ops } io op).sessions id hid
      · exact .inl hid
      · exact .inr (.inr ⟨t, List.mem_of_getElem? ht, .insertSession id,
          hops ▸ List.mem_cons_self, rfl⟩)
  · rw [events_turn h] at hid
    exact .inr (.inl hid)
  · refine ops_turn (P := fun _ op => ∀ id, op.inserts? = some id → w.Listed id)
      (Q := fun _ op => ∀ id, op.inserts? = some id → w.Listed id) hr
      (fun t ht op hop id hid => .inr (.inr ⟨t, ht, op, hop, hid⟩)) (fun _ _ hp => hp)
      (fun _ op hop id hid => ?_) (fun _ _ hp => hp) h (fun t op ops _ _ hp o ho id hid => ?_)
      t ht op hop id hid
    · rw [Op.inserts?_of_isPlain hop] at hid
      cases hid
    · exact hp id (inserts_of_follows ho hid)

variable {input : Input}

theorem sessionCreated_step (hw : w.Named)
    (h : .sessionCreated id ∈ (w.step cfg input).engine.events) :
    .sessionCreated id ∈ w.engine.events ∨ w.session id = none := by
  have hn := Engine.sameNames_routine cfg.server
  have hquiet : ∀ {e' : Engine}, (∀ x ∈ e'.events, x ∈ w.engine.events ∨ x.isQuiet = true) →
      .sessionCreated id ∈ e'.events → .sessionCreated id ∈ w.engine.events := by
    intro e' hevents hid
    obtain hold | hnot := hevents _ hid
    · exact hold
    · cases hnot
  cases input with
  | udp endpoint wire io =>
    exact hw.engine.sessionCreated_of_heard
      (Engine.heard_onUdp cfg.server w.engine endpoint wire io) h
  | tick io => exact .inl (hquiet (hn.regular.onTick _ io).events h)
  | tun => exact .inl (hquiet (hn.setDownlink _ _).events h)
  | drain io => exact .inl (hquiet (hn.drainDownlink _ io).events h)
  | ioCounters => exact .inl (hquiet (hn.quiet _ .ioCounters rfl).events h)
  | restart => exact .inl h
  | command io =>
    refine .inl ?_
    unfold World.step World.takeCommand at h
    dsimp only at h
    split at h
    · exact h
    · exact hquiet (Engine.commanded_onCommand cfg.server w.engine _ io).events h
  | recv currentWall =>
    refine .inl ?_
    obtain heq | ⟨event, events, hevents, heq⟩ := engine_recv w currentWall
    · rw [World.step, heq] at h
      exact h
    · rw [World.step, heq] at h
      rw [hevents]
      exact List.mem_cons_of_mem _ h
  | task i io =>
    rw [World.step, events_turn (turn_runTask cfg w i io)] at h
    exact .inl h
  | panel => exact .inl h
  | database =>
    rw [World.step] at h
    split_ifs at h <;> exact .inl h
  | streamReceive => exact .inl h
  | streamSend =>
    rw [World.step] at h
    unfold World.command at h
    split_ifs at h <;> exact .inl h
  | streamFinish => exact .inl h

theorem listed_step (hw : w.Named) (hid : (w.step cfg input).Listed id) :
    w.Listed id ∨ w.session id = none := by
  obtain ⟨i, io, -, hturn⟩ | hb := step_cases cfg w input
  · exact .inl (listed_turn hw.recover hturn hid)
  · obtain hid | hid | ⟨t, ht, op, hop, hid⟩ := hid
    · rw [hb.sessions] at hid
      exact .inl (.inl hid)
    · exact (sessionCreated_step hw hid).imp_left fun ho => .inr (.inl ho)
    · refine .inl ?_
      obtain ho | hs := hb.tasks t ht
      · exact .inr (.inr ⟨t, ho, op, hop, hid⟩)
      · obtain hp | ⟨rfl, he⟩ | ⟨address, plain, rfl, -⟩ | ⟨plain, rfl⟩ := hs.ops hop
        · rw [Op.inserts?_of_isPlain hp] at hid
          cases hid
        · cases hid
          exact .inr (.inl he)
        · cases hid
        · cases hid

/-! ## Purges -/

theorem purging_step (hw : w.Named) {identity : Identity}
    (h : (w.step cfg input).Purging identity) : w.Purging identity ∨
      ∃ i io, input = .task i io ∧ w.admitted? input = some identity := by
  obtain ⟨t, ht, op, hop, hid⟩ := h
  obtain ⟨i, io, rfl, hturn⟩ | hbetween := step_cases cfg w input
  · refine ops_turn (P := fun _ op => op.purges? = some identity → w.Purging identity)
      (Q := fun _ op => op.purges? = some identity → _) hw.recover
      (fun t ht op hop hid => ⟨t, ht, op, hop, hid⟩) (fun _ _ hp hid => .inl (hp hid))
      (fun _ op hop hid => ?_) (fun _ _ hp hid => .inl (hp hid)) hturn
      (fun t op ops ht hops hp o ho hid => ?_) t ht op hop hid
    · rw [Op.purges?_of_isPlain hop] at hid
      cases hid
    · cases o with
      | acquire =>
        cases ho
        exact .inl (hp hid)
      | purgeStale =>
        cases hid
        obtain ⟨r, slot, created, rfl, rfl, hadmits⟩ := ho
        refine .inr ⟨i, io, rfl, ?_⟩
        rw [admitted?, nextOp?_task ht hops]
        exact if_pos hadmits
      | _ => cases hid
  · refine .inl ?_
    obtain hold | hstart := hbetween.tasks t ht
    · exact ⟨t, hold, op, hop, hid⟩
    · obtain hplain | ⟨rfl, -⟩ | ⟨address, plain, rfl, -⟩ | ⟨plain, rfl⟩ := hstart.ops hop
      · rw [Op.purges?_of_isPlain hplain] at hid
        cases hid
      · cases hid
      · cases hid
      · cases hid

def Spared (w : World) : Prop := ∀ identity, w.Purging identity → w.NoNewer identity

theorem Spared.step (hw : w.Named) (h : w.Spared) (ho : w.InOrder cfg input) :
    (w.step cfg input).Spared := by
  intro identity hpurge id p' hl hp' hd
  have hr := (recalls_step cfg hw input).2
  -- an old session is as it was; a new one is not newer than a purge that is due already
  have hold : ∀ p, w.session id = some p → w.NoNewer identity →
      p'.identity.generationId ≤ identity.generationId := by
    intro p hp hn
    obtain ⟨q, hq, hi⟩ := hr.identity id p.identity ⟨p, hp, rfl⟩
    cases hq.symm.trans hp'
    rw [hi] at hd ⊢
    obtain hid | hid := listed_step hw hl
    · exact hn id p hid hp hd
    · cases hid.symm.trans hp
  cases hp : w.session id with
  | some p =>
    obtain hdue | ⟨i, io, -, ha⟩ := purging_step hw hpurge
    · exact hold p hp (h identity hdue)
    · exact hold p hp (ho.admitted identity ha)
  | none =>
    obtain hdue | ⟨i, io, rfl, -⟩ := purging_step hw hpurge
    · exact ho.created id p' hp hp' identity hdue hd
    · cases (session_turn (turn_runTask cfg w i io) hp).symm.trans hp'

theorem mem_candidates {f : ℕ → PublicSession → Bool} (h : id ∈ w.candidates f) {p : PublicSession}
    (hp : w.session id = some p) : id ∈ w.sessions ∧ f id p = true := by
  obtain ⟨hid, ha⟩ := List.mem_filter.mp h
  rw [hp] at ha
  exact ⟨hid, ha⟩

theorem Spared.sparesNewer (hw : w.Named) (h : w.Spared) (input : Input) : w.SparesNewer input := by
  intro identity id p hd hp hdev
  cases hd with
  | stale ht ho hid =>
    refine h identity ⟨_, List.mem_of_getElem? ht, .purgeStale identity, ho ▸ List.mem_cons_self,
      rfl⟩ id p (.inl (mem_candidates hid hp).1) hp hdev
  | replaced _ _ hid =>
    have hsame := (of_decide_eq_true (mem_candidates hid hp).2).2.2
    rw [hsame]
  | retired _ hs hr =>
    have hi := (hw.engine.hot _ _ hs).unique ⟨p, hp, rfl⟩
    rw [hi] at hr
    simp only [sessionIsRetiredByEpoch, Bool.and_eq_true, Bool.or_eq_true, decide_eq_true_eq] at hr
    omega

theorem spared_start (credentials : List Credential) (db : Database) (wallNow : ℕ) :
    (World.start credentials db wallNow).Spared := by
  rintro identity ⟨t, ⟨⟩, -⟩

/-- No GETCONF drops a session of a newer generation, in every run in which the sessions and the
GETCONFs of a device come in the order of their generations. -/
theorem newer_generations_spared (credentials : List Credential) (db : Database) (wallNow : ℕ)
    (inputs : List Input)
    (horder : Runs.Along (step cfg) (InOrder cfg) (start credentials db wallNow) inputs) :
    Runs.Along (step cfg) SparesNewer (start credentials db wallNow) inputs :=
  Runs.along_invariant (I := fun w => w.Named ∧ w.Spared) (Q := InOrder cfg)
    (fun _ input hw horder => ⟨hw.1.step cfg input, hw.2.step hw.1 horder⟩)
    (fun _ input hw _ => hw.2.sparesNewer hw.1 input)
    ⟨named_start credentials db wallNow, spared_start credentials db wallNow⟩ horder

/-! ## Concrete runs -/

theorem of_stale? {identity : Identity}
    (h : (w.nextOp? (.task i io)).bind Op.stale? = some identity) :
    ∃ t ops, w.tasks[i]? = some t ∧ t.ops = .purgeStale identity :: ops := by
  obtain ⟨op, hop, hs⟩ := Option.bind_eq_some_iff.mp h
  obtain ⟨t, ht, hh⟩ := Option.bind_eq_some_iff.mp hop
  obtain ⟨ops, ho⟩ := List.head?_eq_some_iff.mp hh
  cases op with
  | purgeStale =>
    cases hs
    exact ⟨t, ops, ht, ho⟩
  | _ => cases hs

def generations (w : World) (deviceId : Text) : List ℕ :=
  (List.range w.engine.nextId).filterMap fun id => (w.session id).bind fun p =>
    if p.identity.deviceId = deviceId then some p.identity.generationId else none

def purges (w : World) : List Identity := w.tasks.flatMap fun t => t.ops.filterMap Op.purges?

theorem mem_generations (hw : w.Named) {p : PublicSession} {deviceId : Text}
    (hp : w.session id = some p) (hd : p.identity.deviceId = deviceId) :
    p.identity.generationId ∈ w.generations deviceId := by
  refine List.mem_filterMap.mpr ⟨id, List.mem_range.mpr (hw.engine.publics id p hp).1, ?_⟩
  rw [hp, Option.bind_some, if_pos hd]

/-- A condition that can be computed and puts a step in order: it looks at all sessions. -/
def AllInOrder (cfg : ControlConfig) (w : World) (input : Input) : Prop :=
  (∀ identity ∈ w.admitted? input, ∀ generation ∈ w.generations identity.deviceId,
      generation ≤ identity.generationId) ∧
    ∀ identity ∈ w.purges, ∀ generation ∈ (w.step cfg input).generations identity.deviceId,
      generation ≤ identity.generationId

instance (w : World) (input : Input) : Decidable (AllInOrder cfg w input) :=
  inferInstanceAs (Decidable (_ ∧ _))

theorem inOrder_of_all (hw : w.Named) (h : AllInOrder cfg w input) : w.InOrder cfg input where
  admitted identity ha id p _ hp hd :=
    h.1 identity ha _ (mem_generations hw hp hd)
  created id p _ hp identity hpurge hd := by
    obtain ⟨t, ht, op, hop, hid⟩ := hpurge
    exact h.2 identity (List.mem_flatMap.mpr ⟨t, ht, List.mem_filterMap.mpr ⟨op, hop, hid⟩⟩) _
      (mem_generations (hw.step cfg input) hp hd)

end World

namespace Recorded

open CrossLanguage

def renewedHeader : RtpHeader where
  marks := 0x6f
  seq := 0x9002
  timestamp := 0x43e8f860
  ssrc := 0x51c3a7e2
  absSendTime := [0x11, 0xec, 0x10]
  transportSeq := 0x2bb8
  absSendTime_length := rfl

def renewedPacket : Packet where
  nonce := [0x51, 0xc3, 0xa7, 0xe2, 0x90, 0x02, 0x00, 0x00, 0x43, 0xe8, 0xf8, 0x60]
  stream := [0x1b, 0x45, 0xfd, 0x25, 0x31, 0xb4, 0xd7, 0xb1, 0x4b, 0x2c, 0xed, 0xe1, 0x96,
    0x3f, 0x34,
    0x4a, 0x22, 0xae, 0xba, 0x61, 0xde, 0x44, 0x2a, 0xba, 0xe0, 0x5b, 0xbf, 0x34, 0x82, 0x3e, 0xaa,
    0xc3, 0x96, 0x67, 0x01, 0x9c, 0x48, 0xbf, 0x25, 0x72, 0x29, 0x98, 0x30, 0xed, 0xfd, 0x1e, 0x52,
    0xa9, 0xf1, 0xd1]
  tag := [0xb6, 0x03, 0x93, 0x8e, 0x70, 0x76, 0x80, 0x10, 0xb3, 0x66, 0xdb, 0x6b, 0xb4, 0xf1, 0x8f,
    0x98]

def renewing : ControlConfig :=
  { control with
    server := ⟨primitives [getconfPacket, renewedPacket, serverPacket] getconfCode, (10, 66, 67)⟩ }

def renewedDatagram : Bytes :=
  encode (renewing.server.prims.keyed key) false renewedHeader
    (asciiBytes "GETCONF:9000|phone|cross-language-password|2|t|1|1") []

/-- The next generation comes when the GETCONF of the first one has dropped the others, and is
listed. -/
def renewed : List World.Input :=
  [.udp endpoint getconfDatagram udpIo, .recv 0] ++ List.replicate 4 (.task 0 taskIo) ++
    .recv 0 :: List.replicate 14 (.task 0 taskIo) ++
    [.udp other renewedDatagram udpIo, .recv 0] ++ List.replicate 4 (.task 1 taskIo)

/-- The next generation comes before the GETCONF of the first one is answered: its session is
listed, and then the GETCONF goes on up to its purge. -/
def crossed : List World.Input :=
  [.udp endpoint getconfDatagram udpIo, .udp other renewedDatagram udpIo, .recv 0] ++
    List.replicate 4 (.task 0 taskIo) ++ [.recv 0, .task 0 taskIo, .task 0 taskIo, .recv 0] ++
    List.replicate 4 (.task 1 taskIo) ++ List.replicate 11 (.task 0 taskIo)

def crossing : World := crossed.foldl (World.step renewing) (.start credentials database 0)

def first : Identity := ⟨"phone".toList, 1, "s".toList⟩

def crossedOver : World := (turns 40).foldl (World.step renewing) crossing

end Recorded

/-- The GETCONF of the first generation drops the session of the second, and only the old session is
left. -/
theorem newer_generation_dropped : ¬ Recorded.crossing.SparesNewer (.task 0 Recorded.taskIo) ∧
    Recorded.peers Recorded.crossing = [(1, Recorded.endpoint.peer), (2, Recorded.other.peer)] ∧
    Recorded.peers Recorded.crossedOver = [(1, Recorded.endpoint.peer)] ∧
    Recorded.crossedOver.sessions = [1] ∧ Recorded.isSettled Recorded.crossedOver = true := by
  have hf : ((Recorded.crossing.nextOp? (.task 0 Recorded.taskIo)).bind Op.stale? =
        some Recorded.first ∧
      Recorded.crossing.staleSessions 1 Recorded.first = [2] ∧
      Recorded.crossing.tasks.map (·.session) = [1] ∧
      (Recorded.crossing.session 2).map (·.identity) = some ⟨"phone".toList, 2, "t".toList⟩) ∧
      Recorded.peers Recorded.crossing =
        [(1, Recorded.endpoint.peer), (2, Recorded.other.peer)] ∧
      Recorded.peers Recorded.crossedOver = [(1, Recorded.endpoint.peer)] ∧
      Recorded.crossedOver.sessions = [1] ∧ Recorded.isSettled Recorded.crossedOver = true := by
    decide +kernel
  obtain ⟨⟨hpurge, hs, htask, hid⟩, hpeers⟩ := hf
  refine ⟨fun hspares => ?_, hpeers⟩
  obtain ⟨t, ops, ht, ho⟩ := World.of_stale? hpurge
  have hsession : t.session = 1 := by
    have hm := congrArg (·[0]?) htask
    simpa [ht] using hm
  obtain ⟨p, hp, hn⟩ := Option.map_eq_some_iff.mp hid
  have hle := hspares Recorded.first 2 p
    (.stale ht ho (by rw [hsession, hs]; exact List.mem_singleton_self 2)) hp
    (by rw [hn]; rfl)
  rw [hn] at hle
  exact absurd hle (by decide)

/-- The theorem at a run in which the next generation comes after the purge. -/
theorem newer_generations_spared_renewed :
    Runs.Along (World.step Recorded.renewing) World.SparesNewer
      (.start Recorded.credentials Recorded.database 0) Recorded.renewed :=
  World.newer_generations_spared Recorded.credentials Recorded.database 0 Recorded.renewed
    (Runs.along_invariant (I := World.Named) (Q := World.AllInOrder Recorded.renewing)
      (fun _ input hw _ => hw.step Recorded.renewing input) (fun _ _ hw => World.inOrder_of_all hw)
      (World.named_start Recorded.credentials Recorded.database 0) (by decide +kernel))

end Csqtt
