import Csqtt.ServerEngineRuns

/-!
# Who a session is of

A session has the identity of the GETCONF it was created for, in the engine and in its public part,
and a later GETCONF of the session is passed on only if it names the same. So both parts of a
session agree, and so does every GETCONF in the queue of events.
-/

namespace Csqtt

theorem eq_of_process {authoritative : Option EpochValue} {session incoming : Identity}
    (h : getconfReconnectActionHot authoritative session incoming = .process)
    (hd : session.deviceId ≠ []) : incoming = session := by
  have hs : ¬(session.deviceId ≠ [] ∧ conflicts session incoming = true) := by
    intro hc
    unfold getconfReconnectActionHot at h
    rw [if_pos hc] at h
    cases h
  unfold getconfReconnectActionHot at h
  rw [if_neg hs] at h
  obtain ⟨deviceId, generationId, sessionSalt⟩ := session
  cases authoritative with
  | some =>
    dsimp only at h
    split_ifs at h with _ _ ha
    obtain ⟨rfl, rfl, rfl⟩ := ha
    rfl
  | none =>
    dsimp only at h
    split_ifs at h with he hc hg
    · exact absurd he hd
    · obtain ⟨deviceId', generationId', sessionSalt'⟩ := incoming
      subst hg
      simp [conflicts] at hc
      obtain ⟨rfl, rfl⟩ := hc
      rfl

variable {identity : Identity}

theorem deviceId_ne_nil {payload : Bytes} (h : parseGetconfEpoch payload = some identity) :
    identity.deviceId ≠ [] := by
  unfold parseGetconfEpoch at h
  simp only [Option.bind_eq_bind, Option.bind_eq_some_iff] at h
  obtain ⟨text, -, content, -, first, -, device, -, third, -, fourth, -, generationId, -, h⟩ := h
  split_ifs at h with he
  cases h
  intro hn
  apply he
  simp only at hn
  simp [hn]

def PublicSession.name (p : PublicSession) : Identity × Option Ipv4 := (p.identity, p.tunnelIp)

/-- An event that a session may cause: it tells of no new session, and its GETCONF names the
session. -/
def ControlEvent.From (s : HotSession) : ControlEvent → Prop
  | .sessionCreated _ => False
  | .payload _ sessionId plain => sessionId = s.id ∧ ∀ identity,
      parseGetconfEpoch plain = some identity → s.identity.deviceId ≠ [] → identity = s.identity
  | _ => True

variable {s : HotSession}

theorem ControlEvent.From.of_isQuiet {x : ControlEvent} (h : x.isQuiet = true) : x.From s := by
  cases x with
  | sessionCreated | payload => cases h
  | _ => trivial

variable {id : ℕ}

namespace Engine

structure SameNames (e e' : Engine) : Prop where
  publics : ∀ id, (e'.publics id).map (·.name) = (e.publics id).map (·.name)
  events : ∀ x ∈ e'.events, x ∈ e.events ∨ x.isQuiet = true
  credentials : e'.credentials = e.credentials
  credentialsSnapshot : e'.credentialsSnapshot = e.credentialsSnapshot

namespace SameNames

variable {e e' e'' : Engine}

theorem trans (h : SameNames e e') (h' : SameNames e' e'') : SameNames e e'' where
  publics id := (h'.publics id).trans (h.publics id)
  events x hx := by
    obtain hx | hq := h'.events x hx
    · exact h.events x hx
    · exact .inr hq
  credentials := h'.credentials.trans h.credentials
  credentialsSnapshot := h'.credentialsSnapshot.trans h.credentialsSnapshot

theorem of_eq (hp : e'.publics = e.publics) (he : e'.events = e.events)
    (hc : e'.credentials = e.credentials)
    (hs : e'.credentialsSnapshot = e.credentialsSnapshot) : SameNames e e' :=
  ⟨fun id => by rw [hp], fun x hx => .inl (he ▸ hx), hc, hs⟩

theorem updatePublic (e : Engine) (id : ℕ) (f : PublicSession → PublicSession)
    (hf : ∀ p, (f p).name = p.name) : SameNames e (e.updatePublic id f) where
  publics i := by
    rw [publics_updatePublic]
    split_ifs with hi
    · rw [hi, Option.map_map, Function.comp_def]
      simp only [hf]
    · rfl
  events x hx := .inl hx
  credentials := rfl
  credentialsSnapshot := rfl

end SameNames

variable (cfg : ServerConfig) {event : ControlEvent}

theorem sameNames_queueEvent (e : Engine) (h : event.isQuiet = true) :
    SameNames e (e.queueEvent event) := by
  obtain ⟨_, he⟩ := queueEvent_eq e event
  refine ⟨fun id => by rw [he], fun x hx => ?_, by rw [he], by rw [he]⟩
  exact (mem_events_queueEvent hx).imp_right fun heq => by rw [heq]; exact h

theorem sameNames_setSession (e : Engine) (slot : ℕ) (s : HotSession) :
    SameNames e (e.setSession slot s) := .of_eq rfl rfl rfl rfl

theorem sameNames_compactMemory (e : Engine) : SameNames e (e.compactMemory cfg) := by
  have hc := Slab.compact_induction (rekeySlot cfg) (I := fun _ e' => SameNames e e')
    (fun _ _ h => h) (fun _ _ _ _ _ h => h.trans (.of_eq rfl rfl rfl rfl)) e.sessions e
    (.of_eq rfl rfl rfl rfl)
  exact hc.trans (.of_eq rfl rfl rfl rfl)

theorem sameNames_routine : Routine cfg SameNames where
  refl _ := .of_eq rfl rfl rfl rfl
  trans := .trans
  elsewhere h := .of_eq h.tables.publics h.events h.credentials h.credentialsSnapshot
  quiet e _ := sameNames_queueEvent e
  session {e slot _ s'} _ _ _ := sameNames_setSession e slot s'
  published e id f hs _ := .updatePublic e id f fun p => by
    rw [PublicSession.name, (hs p).identity, (hs p).tunnelIp, PublicSession.name]
  leaves {e} slot s _ :=
    (SameNames.updatePublic e s.id (·.publish s e.wallNow) fun _ => rfl).trans
      (.of_eq rfl rfl rfl rfl)
  counted _ := .of_eq rfl rfl rfl rfl
  compacted := sameNames_compactMemory cfg
  marked _ _ := .of_eq rfl rfl rfl rfl

/-- A session has been heard: nobody is renamed and what it adds to the queue is its own. -/
structure Hears (s : HotSession) (e e' : Engine) : Prop where
  publics : ∀ id, (e'.publics id).map (·.name) = (e.publics id).map (·.name)
  events : ∀ x ∈ e'.events, x ∈ e.events ∨ x.From s
  credentials : e'.credentials = e.credentials
  credentialsSnapshot : e'.credentialsSnapshot = e.credentialsSnapshot

theorem SameNames.hears {e e' : Engine} (h : SameNames e e') (s : HotSession) : Hears s e e' :=
  ⟨h.publics, fun x hx => (h.events x hx).imp_right .of_isQuiet, h.credentials,
    h.credentialsSnapshot⟩

theorem hears_queueEvent (e : Engine) (h : event.From s) : Hears s e (e.queueEvent event) := by
  obtain ⟨_, he⟩ := queueEvent_eq e event
  refine ⟨fun id => by rw [he], fun x hx => ?_, by rw [he], by rw [he]⟩
  exact (mem_events_queueEvent hx).imp_right fun heq => by rw [heq]; exact h

theorem hears_dispatch (e : Engine) (slot : ℕ) (s : HotSession) (plain : Bytes) (io : UdpIo)
    (h : (ControlEvent.payload s.peer s.id plain).From s) :
    Hears s e (e.dispatch cfg slot s plain io) := by
  have hk : Hears s e e := ((sameNames_routine cfg).refl e).hears s
  unfold dispatch
  split_ifs
  · exact hk
  · exact ((sameNames_routine cfg).regular.sendPlain e slot readyOk io.send).hears s
  · exact hk
  · exact hears_queueEvent e h
  · unfold writeTun
    split_ifs
    · exact ⟨fun _ => rfl, fun x hx => .inl hx, rfl, rfl⟩
    · exact hk
  · exact hk
  · have hs : Hears s e (e.queueEvent (.ingressBeforeTunnel s.peer s.id plain)) :=
      hears_queueEvent e trivial
    exact ⟨hs.publics, hs.events, hs.credentials, hs.credentialsSnapshot⟩

theorem hears_receive (e : Engine) (slot : ℕ) (s : HotSession) (localIp : Option IpAddr)
    (seq : UInt16) (plain : Bytes) (io : UdpIo)
    (h : (ControlEvent.payload s.peer s.id plain).From s) :
    Hears s e (e.receive cfg slot s localIp seq plain io) := by
  unfold receive
  split
  · exact (sameNames_setSession e slot _).hears s
  · rename_i replay _
    have hh := hears_dispatch cfg
      { e.setSession slot (s.seen replay e.monotonicMs localIp) with
        byPeer := rekey e.byPeer s localIp slot }
      slot (s.seen replay e.monotonicMs localIp) plain io h
    exact ⟨hh.publics, hh.events, hh.credentials, hh.credentialsSnapshot⟩

/-- What a datagram does: nothing to the sessions, or one of them is heard, or one is created for
the GETCONF that it carries. -/
inductive Heard (e e' : Engine) : Prop
  | kept : Keeps e e' → SameNames e e' → Heard e e'
  | received (slot : ℕ) (s : HotSession) (seq : UInt16) : e.sessions.get slot = some s →
      Keeps (e.setSession slot { s with replay := (s.replay.accept seq).1 }) e' → Hears s e e' →
      Heard e e'
  | created (before : Engine) (n : NewSession) (output : ServerWire.OutState) (payload : Bytes) :
      Keeps e before → SameNames e before → parseGetconfEpoch payload = some n.identity →
      e' = ((before.index n output).queueEvent (.sessionCreated before.nextId)).queueEvent
        (.payload n.endpoint.peer before.nextId payload) → Heard e e'

theorem nextId_queueEvent (e : Engine) (event : ControlEvent) :
    (e.queueEvent event).nextId = e.nextId := (keeps_queueEvent e event).nextId

theorem heard_createForGetconf {e before : Engine} (hk : Keeps e before) (hn : SameNames e before)
    {n : NewSession} {payload : Bytes} (hid : parseGetconfEpoch payload = some n.identity)
    (output : ServerWire.OutState) : Heard e (before.createForGetconf cfg n output payload) := by
  unfold createForGetconf createLegacySession
  dsimp only
  split
  · rename_i slot _
    refine .created _ n output payload
      (hk.trans ((keeps_routine cfg).removeSlotWithReason before slot "peer-replaced"))
      (hn.trans ((sameNames_routine cfg).removeSlotWithReason before slot "peer-replaced"))
      hid ?_
    rw [nextId_queueEvent]
    rfl
  · refine .created before n output payload hk hn hid ?_
    rw [nextId_queueEvent]
    rfl

theorem heard_onUdp (e : Engine) (endpoint : EndpointKey) (wire : Bytes) (io : UdpIo) :
    Heard e (e.onUdp cfg endpoint wire io) := by
  have hk := keeps_routine cfg
  have hn := sameNames_routine cfg
  have hc := udpCase_onUdp cfg e endpoint wire io
  generalize e.onUdp cfg endpoint wire io = e' at hc ⊢
  cases hc with
  | beside h => exact .kept (hk.elsewhere h.toElsewhere) (hn.elsewhere h.toElsewhere)
  | received before slot s seq plain h _ hs hprocess =>
    have hh := hears_receive cfg before slot s endpoint.localIp seq plain io
      ⟨rfl, fun identity hid hd => eq_of_process (hprocess identity hid) hd⟩
    refine .received slot s seq hs (h.keeps_receive cfg hs _ seq plain io)
      ⟨fun id => (hh.publics id).trans ((hn.elsewhere h.toElsewhere).publics id),
        fun x hx => h.events ▸ hh.events x hx, hh.credentials.trans h.credentials,
        hh.credentialsSnapshot.trans h.credentialsSnapshot⟩
  | replaced _ slot _ _ _ h _ _ hp =>
    exact heard_createForGetconf cfg
      ((hk.elsewhere h.toElsewhere).trans (hk.removeSlotWithReason _ slot _))
      ((hn.elsewhere h.toElsewhere).trans (hn.removeSlotWithReason _ slot _)) hp io.output
  | created _ _ _ h _ _ hp =>
    exact heard_createForGetconf cfg (hk.elsewhere h.toElsewhere) (hn.elsewhere h.toElsewhere)
      hp io.output

def IdentityOf (e : Engine) (id : ℕ) (identity : Identity) : Prop :=
  ∃ p, e.publics id = some p ∧ p.identity = identity

theorem IdentityOf.unique {e : Engine} {identity' : Identity} (h : e.IdentityOf id identity)
    (h' : e.IdentityOf id identity') : identity = identity' := by
  obtain ⟨p, hp, rfl⟩ := h
  obtain ⟨p', hp', rfl⟩ := h'
  cases hp.symm.trans hp'
  rfl

/-- Nobody is renamed, and a public part gets an address only as `A` says. -/
structure Recalls (A : ℕ → Ipv4 → Prop) (e e' : Engine) : Prop where
  identity : ∀ id identity, e.IdentityOf id identity → e'.IdentityOf id identity
  tunnel : ∀ id p' ip, e'.publics id = some p' → p'.tunnelIp = some ip →
    (∃ p, e.publics id = some p ∧ p.tunnelIp = some ip) ∨ A id ip

namespace Recalls

variable {A : ℕ → Ipv4 → Prop} {e e' e'' : Engine}

theorem of_names (h : ∀ id, (e'.publics id).map (·.name) = (e.publics id).map (·.name)) :
    Recalls A e e' where
  identity id identity := by
    rintro ⟨p, hp, rfl⟩
    have hid := h id
    rw [hp] at hid
    obtain ⟨p', hp', hn⟩ := Option.map_eq_some_iff.mp hid
    exact ⟨p', hp', congrArg Prod.fst hn⟩
  tunnel id p' ip hp' hip := by
    have hid := (h id).symm
    rw [hp'] at hid
    obtain ⟨p, hp, hn⟩ := Option.map_eq_some_iff.mp hid
    exact .inl ⟨p, hp, (congrArg Prod.snd hn).trans hip⟩

theorem refl (e : Engine) : Recalls A e e := of_names fun _ => rfl

theorem trans (h : Recalls A e e') (h' : Recalls A e' e'') : Recalls A e e'' where
  identity id identity hid := h'.identity id identity (h.identity id identity hid)
  tunnel id p'' ip hp'' hip := by
    obtain ⟨p', hp', hi'⟩ | hA := h'.tunnel id p'' ip hp'' hip
    · exact h.tunnel id p' ip hp' hi'
    · exact .inr hA

theorem updatePublic (e : Engine) (id : ℕ) (f : PublicSession → PublicSession)
    (hid : ∀ p, e.publics id = some p → (f p).identity = p.identity)
    (ht : ∀ p ip, (f p).tunnelIp = some ip → p.tunnelIp = some ip ∨ A id ip) :
    Recalls A e (e.updatePublic id f) where
  identity i identity := by
    rintro ⟨p, hp, rfl⟩
    by_cases hi : i = id
    · subst hi
      exact ⟨f p, by rw [publics_updatePublic, if_pos rfl, hp, Option.map_some], hid p hp⟩
    · exact ⟨p, by rw [publics_updatePublic, if_neg hi, hp], rfl⟩
  tunnel i p' ip hp' hip := by
    rw [publics_updatePublic] at hp'
    split_ifs at hp' with hi
    · subst hi
      obtain ⟨p, hp, rfl⟩ := Option.map_eq_some_iff.mp hp'
      exact (ht p ip hip).imp_left fun ho => ⟨p, hp, ho⟩
    · exact .inl ⟨p', hp', hip⟩

end Recalls

end Engine

def ControlEvent.Named (e : Engine) : ControlEvent → Prop
  | .payload _ sessionId plain =>
    ∀ identity, parseGetconfEpoch plain = some identity → e.IdentityOf sessionId identity
  | _ => True

def Command.credentials? : Command → Option (List Credential)
  | .replaceCredentials credentials => some credentials
  | _ => none

def Command.Named (e : Engine) : Command → Prop
  | .updateEpoch sessionId identity => e.IdentityOf sessionId identity
  | _ => True

section

variable {A : ℕ → Ipv4 → Prop} {e e' : Engine} {x : ControlEvent}

theorem ControlEvent.Named.mono (h : x.Named e) (hr : e.Recalls A e') : x.Named e' := by
  cases x with
  | payload =>
    exact fun identity hp => hr.identity _ _ (h identity hp)
  | _ => exact True.intro

theorem ControlEvent.Named.of_isQuiet (h : x.isQuiet = true) : x.Named e := by
  cases x with
  | payload => cases h
  | _ => exact True.intro

theorem Command.Named.mono {c : Command} (h : c.Named e) (hr : e.Recalls A e') : c.Named e' := by
  cases c with
  | updateEpoch _ identity => exact hr.identity _ _ h
  | _ => exact True.intro

end

namespace Engine

/-- Both parts of every session agree on who it is of, a device, and so do the waiting GETCONFs. -/
structure Named (e : Engine) : Prop where
  indexed : e.Indexed
  publics : ∀ id p, e.publics id = some p → id < e.nextId ∧ p.identity.deviceId ≠ []
  hot : ∀ slot s, e.sessions.get slot = some s → e.IdentityOf s.id s.identity
  events : ∀ x ∈ e.events, x.Named e

variable (cfg : ServerConfig) {e e' : Engine}

theorem Named.deviceId_ne_nil (h : Named e) (hid : e.IdentityOf id identity) :
    identity.deviceId ≠ [] := by
  obtain ⟨p, hp, rfl⟩ := hid
  exact (h.publics id p hp).2

theorem Named.of_hot (h : Named e) (hin : e'.Indexed) (hne : e.nextId ≤ e'.nextId)
    (hn : ∀ id, (e'.publics id).map (·.name) = (e.publics id).map (·.name))
    (hh : ∀ slot s', e'.sessions.get slot = some s' →
      ∃ slot₀ s, e.sessions.get slot₀ = some s ∧ s'.id = s.id ∧ s'.identity = s.identity)
    (he : ∀ x ∈ e'.events, x ∈ e.events ∨ x.Named e) : Named e' := by
  have hr : Recalls (fun _ _ => False) e e' := .of_names hn
  refine ⟨hin, fun id p' hp' => ?_, fun slot s' hs' => ?_, fun x hx => ?_⟩
  · have hid := (hn id).symm
    rw [hp'] at hid
    obtain ⟨p, hp, hname⟩ := Option.map_eq_some_iff.mp hid
    rw [← show p.identity = p'.identity from congrArg Prod.fst hname]
    exact ⟨(h.publics id p hp).1.trans_le hne, (h.publics id p hp).2⟩
  · obtain ⟨slot₀, s, hs, hid, hi⟩ := hh slot s' hs'
    rw [hid, hi]
    exact hr.identity _ _ (h.hot slot₀ s hs)
  · obtain hx | hx := he x hx
    · exact (h.events x hx).mono hr
    · exact hx.mono hr

theorem Named.keeps (h : Named e) (hk : Keeps e e') (hn : SameNames e e') : Named e' := by
  refine h.of_hot (hk.indexed h.indexed) hk.nextId.ge hn.publics (fun slot s' hs' => ?_)
    (fun x hx => (hn.events x hx).imp_right .of_isQuiet)
  obtain ⟨slot₀, s, hs, hsame, -⟩ := hk.sessions slot s' hs'
  exact ⟨slot₀, s, hs, hsame.id, hsame.identity⟩

theorem Named.routine (h : Named e) (hk : Keeps e e') (hn : SameNames e e')
    (A : ℕ → Ipv4 → Prop) : Named e' ∧ Recalls A e e' := ⟨h.keeps hk hn, .of_names hn.publics⟩

theorem Named.index (h : Named e) (n : NewSession) (hdev : n.identity.deviceId ≠ [])
    (output : ServerWire.OutState) (A : ℕ → Ipv4 → Prop) :
    Named (e.index n output) ∧ Recalls A e (e.index n output) ∧
      (e.index n output).IdentityOf e.nextId n.identity := by
  have hpublic := e.publics_index n output
  have hnew : (e.index n output).IdentityOf e.nextId n.identity :=
    ⟨_, (hpublic e.nextId).trans (if_pos rfl), rfl⟩
  have hr : Recalls A e (e.index n output) :=
    { identity := by
        rintro i identity ⟨p, hp, rfl⟩
        exact ⟨p, by rw [hpublic, if_neg (h.publics i p hp).1.ne, hp], rfl⟩
      tunnel := fun i p' ip hp' hip => by
        rw [hpublic] at hp'
        split_ifs at hp' with hi
        · cases hp'
          cases hip
        · exact .inl ⟨p', hp', hip⟩ }
  refine ⟨⟨h.indexed.index n output, fun i p hp => ?_, fun slot s hs => ?_, fun x hx => ?_⟩, hr,
    hnew⟩
  · rw [hpublic] at hp
    split_ifs at hp with hi
    · cases hp
      exact ⟨hi ▸ Nat.lt_succ_self _, hdev⟩
    · exact ⟨(h.publics i p hp).1.trans (Nat.lt_succ_self _), (h.publics i p hp).2⟩
  · rw [Engine.index, Slab.get_insert] at hs
    split_ifs at hs with hslot
    · cases hs
      exact hnew
    · exact hr.identity _ _ (h.hot slot s hs)
  · exact (h.events x hx).mono hr

theorem publics_queueEvent (e : Engine) (event : ControlEvent) :
    (e.queueEvent event).publics = e.publics := by
  obtain ⟨_, he⟩ := queueEvent_eq e event
  rw [he]

theorem Named.queueEvent (h : Named e) {event : ControlEvent} (he : event.Named e)
    (A : ℕ → Ipv4 → Prop) : Named (e.queueEvent event) ∧ Recalls A e (e.queueEvent event) := by
  have hk := keeps_queueEvent e event
  have hn : ∀ id, ((e.queueEvent event).publics id).map (·.name) =
      (e.publics id).map (·.name) := fun id => by rw [publics_queueEvent]
  refine ⟨h.of_hot (hk.indexed h.indexed) hk.nextId.ge hn (fun slot s' hs' => ?_)
    (fun x hx => (mem_events_queueEvent hx).imp_right fun heq => by rw [heq]; exact he),
    .of_names hn⟩
  obtain ⟨slot₀, s, hs, hsame, -⟩ := hk.sessions slot s' hs'
  exact ⟨slot₀, s, hs, hsame.id, hsame.identity⟩

theorem Named.heard (h : Named e) (hhear : Heard e e') (A : ℕ → Ipv4 → Prop) :
    Named e' ∧ Recalls A e e' := by
  cases hhear with
  | kept hk hn => exact h.routine hk hn A
  | received slot s _ hs hk hh =>
    refine ⟨h.of_hot (hk.indexed (h.indexed.setSession hs rfl)) hk.nextId.ge hh.publics
      (fun slot' s' hs' => ?_) (fun x hx => (hh.events x hx).imp_right fun hfrom => ?_),
      .of_names hh.publics⟩
    · obtain ⟨i, t, ht, hsame, -⟩ := hk.sessions slot' s' hs'
      obtain ⟨-, rfl⟩ | ht := of_get_setSession hs ht
      · exact ⟨slot, s, hs, hsame.id, hsame.identity⟩
      · exact ⟨i, t, ht, hsame.id, hsame.identity⟩
    · cases x with
      | payload =>
        intro identity hparse
        have hid := h.hot slot s hs
        rw [hfrom.2 identity hparse (h.deviceId_ne_nil hid), hfrom.1]
        exact hid
      | _ => exact True.intro
  | created before n output payload hk hn hparse heq =>
    obtain ⟨hbefore, hr⟩ := h.routine hk hn A
    obtain ⟨hindex, hr', hnew⟩ := hbefore.index n (Csqtt.deviceId_ne_nil hparse) output A
    have hcreate : (ControlEvent.sessionCreated before.nextId).Named (before.index n output) :=
      True.intro
    obtain ⟨htold, hr₁⟩ := hindex.queueEvent hcreate A
    have hpay : (ControlEvent.payload n.endpoint.peer before.nextId payload).Named
        ((before.index n output).queueEvent (.sessionCreated before.nextId)) := by
      intro identity hid
      cases hparse.symm.trans hid
      exact hr₁.identity _ _ hnew
    obtain ⟨hsent, hr₂⟩ := htold.queueEvent hpay A
    rw [heq]
    exact ⟨hsent, ((hr.trans hr').trans hr₁).trans hr₂⟩

theorem Named.sessionCreated_of_heard (h : Named e) (hheard : Heard e e')
    (hid : .sessionCreated id ∈ e'.events) :
    .sessionCreated id ∈ e.events ∨ e.publics id = none := by
  cases hheard with
  | kept _ hn =>
    obtain ho | hq := hn.events _ hid
    · exact .inl ho
    · cases hq
  | received _ _ _ _ _ hh =>
    obtain ho | hf := hh.events _ hid
    · exact .inl ho
    · cases hf
  | created _ _ _ _ hk hn _ heq =>
    subst heq
    obtain hid | heq := mem_events_queueEvent hid
    · obtain hid | heq := mem_events_queueEvent hid
      · obtain ho | hq := hn.events _ hid
        · exact .inl ho
        · cases hq
      · cases heq
        refine .inr (Option.eq_none_iff_forall_ne_some.mpr fun p hp => ?_)
        exact absurd (h.publics _ p hp).1 (by rw [hk.nextId]; exact lt_irrefl _)
    · cases heq

theorem Named.onUdp (h : Named e) (endpoint : EndpointKey) (wire : Bytes) (io : UdpIo)
    (A : ℕ → Ipv4 → Prop) :
    Named (e.onUdp cfg endpoint wire io) ∧ Recalls A e (e.onUdp cfg endpoint wire io) :=
  h.heard (heard_onUdp cfg e endpoint wire io) A

theorem Named.setSession (h : Named e) {slot : ℕ} (hs : e.sessions.get slot = some s)
    (s' : HotSession) (hid : s'.id = s.id) (hi : s'.identity = s.identity) :
    Named (e.setSession slot s') := by
  refine h.of_hot (h.indexed.setSession hs hid) le_rfl (fun _ => rfl) (fun i t ht => ?_)
    (fun x hx => .inl hx)
  obtain ⟨-, rfl⟩ | ht := of_get_setSession hs ht
  · exact ⟨slot, s, hs, hid, hi⟩
  · exact ⟨i, t, ht, rfl, rfl⟩

variable {A : ℕ → Ipv4 → Prop}

theorem Named.updatePublic (h : Named e) (id : ℕ) (f : PublicSession → PublicSession)
    (hid : ∀ p, e.publics id = some p → (f p).identity = p.identity)
    (ht : ∀ p ip, (f p).tunnelIp = some ip → p.tunnelIp = some ip ∨ A id ip) :
    Named (e.updatePublic id f) ∧ Recalls A e (e.updatePublic id f) := by
  have hr : Recalls A e (e.updatePublic id f) := .updatePublic e id f hid ht
  refine ⟨⟨⟨h.indexed.byId, h.indexed.below⟩, fun i p' hp' => ?_, fun slot s hs => ?_,
    fun x hx => (h.events x hx).mono hr⟩, hr⟩
  · rw [publics_updatePublic] at hp'
    split_ifs at hp' with hi
    · obtain ⟨p, hp, rfl⟩ := Option.map_eq_some_iff.mp hp'
      rw [hid p hp, hi]
      exact h.publics id p hp
    · exact h.publics i p' hp'
  · exact hr.identity _ _ (h.hot slot s hs)

theorem Named.setRoutes (h : Named e) (routes : RouteTable) : Named (e.setRoutes routes) :=
  ⟨⟨h.indexed.byId, h.indexed.below⟩, h.publics, h.hot, h.events⟩

theorem Named.setDownlink (h : Named e) (downlink : DownlinkQueue) :
    Named (e.setDownlink downlink) :=
  ⟨⟨h.indexed.byId, h.indexed.below⟩, h.publics, h.hot, h.events⟩

theorem Named.setDirty (h : Named e) (dirty : Bool) : Named (e.setDirty dirty) :=
  ⟨⟨h.indexed.byId, h.indexed.below⟩, h.publics, h.hot, h.events⟩

variable {command : Command}

theorem Named.onCommand (h : Named e) (hcommand : command.Named e) (io : CommandIo)
    (hA : ∀ id ip registrationId workerId desiredCount,
      command = .activateTunnel id ip registrationId workerId desiredCount → A id ip) :
    Named (e.onCommand cfg command io) ∧ Recalls A e (e.onCommand cfg command io) := by
  have hk := keeps_routine cfg
  have hn := sameNames_routine cfg
  have hcase := commandCase_onCommand cfg e command io
  generalize e.onCommand cfg command io = e' at hcase ⊢
  cases hcase with
  | steady _ hr => exact h.routine (hr _ hk.regular.toSteady) (hr _ hn.regular.toSteady) A
  | credentials =>
    obtain ⟨hremoved, hr⟩ := h.routine (hk.regular.removeSlots ..) (hn.regular.removeSlots ..) A
    exact ⟨⟨⟨hremoved.indexed.byId, hremoved.indexed.below⟩, hremoved.publics, hremoved.hot,
      hremoved.events⟩, hr.identity, hr.tunnel⟩
  | unrouted => exact ⟨(h.setRoutes _).setDownlink _, .of_names fun _ => rfl⟩
  | activated ip registrationId desiredCount slot s routes _ hslot hs =>
    have hset := (h.setRoutes routes).setSession hs
      (s.activate ip registrationId desiredCount) rfl rfl
    have hpublic := hset.updatePublic _ (·.activate ip desiredCount) (fun _ _ => rfl) (A := A)
      (fun p ip' hip => by
      cases hip
      exact .inr ((h.indexed.id_eq hslot hs).symm ▸ hA _ _ _ _ _ rfl))
    exact ⟨((hpublic.1.setDownlink _).setDownlink _).setDirty true, hpublic.2.identity,
      hpublic.2.tunnel⟩
  | deactivated _ s routes hs =>
    have hpublic := ((h.setRoutes routes).setSession hs s.deactivate rfl rfl).updatePublic s.id
      (·.deactivate) (fun _ _ => rfl) (A := A) (fun p ip hip => by cases hip)
    exact ⟨(hpublic.1.setDownlink _).setDirty true, hpublic.2.identity, hpublic.2.tunnel⟩
  | written payload _ s _ hs =>
    have hset := h.setSession hs (s.countUp payload.length) rfl rfl
    exact ⟨⟨⟨hset.indexed.byId, hset.indexed.below⟩, hset.publics, hset.hot, hset.events⟩,
      .of_names fun _ => rfl⟩
  | renamed identity slot s hslot hs =>
    have hid := h.indexed.id_eq hslot hs
    have hset := h.setSession hs (s.setIdentity identity) rfl
      (hcommand.unique (hid ▸ h.hot slot s hs))
    have hpublic := hset.updatePublic _ (·.setIdentity identity)
      (fun p hp => (hid ▸ hcommand).unique ⟨p, hp, rfl⟩) (A := A) (fun _ _ => .inl)
    exact ⟨(hpublic.1.setDownlink _).setDirty true, hpublic.2.identity, hpublic.2.tunnel⟩

structure Commanded (command : Command) (e e' : Engine) : Prop where
  events : ∀ x ∈ e'.events, x ∈ e.events ∨ x.isQuiet = true
  credentials : e'.credentials = command.credentials?.getD e.credentials
  credentialsSnapshot : e'.credentialsSnapshot = e.credentialsSnapshot

theorem SameNames.commanded (h : SameNames e e') (hc : command.credentials? = none) :
    Commanded command e e' :=
  ⟨h.events, by rw [hc, h.credentials, Option.getD_none], h.credentialsSnapshot⟩

theorem commanded_onCommand (e : Engine) (command : Command) (io : CommandIo) :
    Commanded command e (e.onCommand cfg command io) := by
  have hn := (sameNames_routine cfg).regular
  have hc := commandCase_onCommand cfg e command io
  generalize e.onCommand cfg command io = e' at hc ⊢
  cases hc with
  | steady ho h =>
    refine (h _ hn.toSteady).commanded ?_
    cases command with
    | replaceCredentials credentials => exact absurd rfl (ho credentials)
    | _ => rfl
  | credentials credentials =>
    have hr := hn.removeSlots e
      (e.staleSlots fun s => !containsPassword credentials s.password) "credential-removed"
    exact ⟨hr.events, rfl, hr.credentialsSnapshot⟩
  | _ => exact ⟨fun _ hx => .inl hx, rfl, rfl⟩

theorem Named.restart (h : Named e) (wallNow : ℕ) (A : ℕ → Ipv4 → Prop) :
    Named (e.restart wallNow) ∧ Recalls A e (e.restart wallNow) := by
  refine ⟨⟨indexed_of_empty rfl rfl, h.publics, fun slot s hs => ?_, h.events⟩,
    .of_names fun _ => rfl⟩
  cases hs

theorem named_start (credentials : List Credential) (wallNow : ℕ) :
    Named (start credentials wallNow) := by
  refine ⟨indexed_of_empty rfl rfl, ?_, fun slot s hs => ?_, ?_⟩
  · rintro id p ⟨⟩
  · cases hs
  · rintro x ⟨⟩

end Engine
end Csqtt
