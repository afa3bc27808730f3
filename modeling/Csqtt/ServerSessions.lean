import Csqtt.ServerRoutine
import Csqtt.ServerUnwrap
import Csqtt.SlabIndex

/-!
# What the engine keeps

`Keeps` says of a step that every session after it was there before, with the same peer, key,
identity, replay window and registration, and that only a session with a registration gets a tunnel
or writes to the TUN. Everything else is one of the few steps that create, accept, activate or
rename.
-/

namespace Csqtt

abbrev IndexedBy (byId : ℕ → Option ℕ) (entries : List (Option HotSession)) : Prop :=
  Slab.IndexedOn HotSession.id byId entries

namespace Engine

/-- The index by ids is right, and the ids are below the next one. -/
structure Indexed (e : Engine) : Prop where
  byId : IndexedBy e.byId e.sessions.entries
  below : ∀ slot s, e.sessions.get slot = some s → s.id < e.nextId

variable {slot id i j : ℕ}

theorem Indexed.get {e : Engine} (h : e.Indexed) (hid : e.byId id = some slot) :
    ∃ s, e.sessions.get slot = some s ∧ s.id = id :=
  h.byId.get hid

variable {s s' t : HotSession}

theorem Indexed.id_eq {e : Engine} (h : e.Indexed) (hid : e.byId id = some slot)
    (hs : e.sessions.get slot = some s) : s.id = id := by
  obtain ⟨t, ht, hid⟩ := h.get hid
  cases ht.symm.trans hs
  exact hid

theorem Indexed.unique {e : Engine} (h : e.Indexed)
    (hi : e.sessions.get i = some s) (hj : e.sessions.get j = some t) (hid : s.id = t.id) : i = j :=
  h.byId.unique (Slab.get_eq_some.mp hi) (Slab.get_eq_some.mp hj) hid

structure Keeps (e e' : Engine) : Prop where
  sessions : ∀ slot s', e'.sessions.get slot = some s' →
    ∃ slot₀ s, e.sessions.get slot₀ = some s ∧ s.Same s' ∧ s'.replay = s.replay
  publics : ∀ id p', e'.publics id = some p' → ∃ p, e.publics id = some p ∧
    p'.workerId = p.workerId ∧ p'.password = p.password ∧
      (p'.hasTunnel = true → p.hasTunnel = true ∨ e.Tunneled id)
  passwords : ∀ id, (e'.publics id).map (·.password) = (e.publics id).map (·.password)
  written : ∃ new, e'.written = e.written ++ new ∧ ∀ x ∈ new, e.Tunneled x.1
  nextId : e'.nextId = e.nextId
  indexed : e.Indexed → e'.Indexed

namespace Keeps

variable {e e' e'' : Engine}

theorem tunneled (h : Keeps e e') (ht : e'.Tunneled id) : e.Tunneled id := by
  obtain ⟨slot, s', hs', hid, hr⟩ := ht
  obtain ⟨slot₀, s, hs, hsame, _⟩ := h.sessions slot s' hs'
  exact ⟨slot₀, s, hs, hsame.id.symm.trans hid, hsame.registrationId ▸ hr⟩

theorem trans (h : Keeps e e') (h' : Keeps e' e'') : Keeps e e'' where
  sessions slot s'' hs'' := by
    obtain ⟨slot', s', hs', hsame', hr'⟩ := h'.sessions slot s'' hs''
    obtain ⟨slot₀, s, hs, hsame, hr⟩ := h.sessions slot' s' hs'
    exact ⟨slot₀, s, hs, hsame.trans hsame', hr'.trans hr⟩
  publics id p'' hp'' := by
    obtain ⟨p', hp', hw', hpass', htunnel'⟩ := h'.publics id p'' hp''
    obtain ⟨p, hp, hw, hpass, htunnel⟩ := h.publics id p' hp'
    refine ⟨p, hp, hw'.trans hw, hpass'.trans hpass, fun ht => ?_⟩
    obtain ht' | ht' := htunnel' ht
    · exact htunnel ht'
    · exact .inr (h.tunneled ht')
  passwords id := (h'.passwords id).trans (h.passwords id)
  written := appended_trans h.written h'.written fun _ => h.tunneled
  nextId := h'.nextId.trans h.nextId
  indexed he := h'.indexed (h.indexed he)

theorem of_eq (h : SameTables e e') : Keeps e e' where
  sessions slot s' hs' := ⟨slot, s', h.sessions ▸ hs', .refl s', rfl⟩
  publics id p' hp' := ⟨p', h.publics ▸ hp', rfl, rfl, .inl⟩
  passwords id := by rw [h.publics]
  written := ⟨[], by rw [h.written, List.append_nil], by simp⟩
  nextId := h.nextId
  indexed he :=
    ⟨by rw [h.byId, h.sessions]; exact he.byId, by rw [h.sessions, h.nextId]; exact he.below⟩

theorem refl (e : Engine) : Keeps e e := of_eq ⟨rfl, rfl, rfl, rfl, rfl⟩

end Keeps

theorem Indexed.setSession {e : Engine} (he : e.Indexed)
    (h : e.sessions.get slot = some s) (hid : s'.id = s.id) : (e.setSession slot s').Indexed where
  byId := he.byId.modify h hid
  below i t ht := by
    obtain ⟨-, rfl⟩ | ht := of_get_setSession h ht
    · rw [hid]
      exact he.below slot s h
    · exact he.below i t ht

theorem keeps_setSession {e : Engine}
    (h : e.sessions.get slot = some s) (hs : s.Same s') (hr : s'.replay = s.replay) :
    Keeps e (e.setSession slot s') where
  sessions i t ht := by
    obtain ⟨-, rfl⟩ | ht := of_get_setSession h ht
    · exact ⟨slot, s, h, hs, hr⟩
    · exact ⟨i, t, ht, .refl t, rfl⟩
  publics id p hp := ⟨p, hp, rfl, rfl, .inl⟩
  passwords id := rfl
  written := ⟨[], (List.append_nil _).symm, by simp⟩
  nextId := rfl
  indexed he := he.setSession h hs.id

theorem keeps_queueEvent (e : Engine) (event : ControlEvent) : Keeps e (e.queueEvent event) := by
  obtain ⟨_, he⟩ := queueEvent_eq e event
  rw [he]
  exact .of_eq ⟨rfl, rfl, rfl, rfl, rfl⟩

theorem keeps_setRoutes (e : Engine) (routes : RouteTable) : Keeps e (e.setRoutes routes) :=
  .of_eq ⟨rfl, rfl, rfl, rfl, rfl⟩

theorem keeps_updatePublic (e : Engine) (id : ℕ) (f : PublicSession → PublicSession)
    (hw : ∀ p, (f p).workerId = p.workerId) (hpass : ∀ p, (f p).password = p.password)
    (ht : ∀ p, (f p).hasTunnel = true → p.hasTunnel = true ∨ e.Tunneled id) :
    Keeps e (e.updatePublic id f) where
  sessions slot s hs := ⟨slot, s, hs, .refl s, rfl⟩
  publics i p' hp' := by
    rw [publics_updatePublic] at hp'
    split_ifs at hp' with hi
    · obtain ⟨p, hp, rfl⟩ := Option.map_eq_some_iff.mp hp'
      exact ⟨p, hi ▸ hp, hw p, hpass p, hi ▸ ht p⟩
    · exact ⟨p', hp', rfl, rfl, .inl⟩
  passwords i := by
    rw [publics_updatePublic]
    split_ifs with hi
    · rw [hi, Option.map_map, Function.comp_def]
      simp only [hpass]
    · rfl
  written := ⟨[], (List.append_nil _).symm, by simp⟩
  nextId := rfl
  indexed he := ⟨he.byId, he.below⟩

variable (cfg : ServerConfig)

theorem keeps_unindex {e : Engine} (h : e.sessions.get slot = some s) :
    Keeps e (e.unindex slot s) where
  sessions i t ht := by
    rw [unindex, Slab.get_remove] at ht
    split_ifs at ht with hi
    exact ⟨i, t, ht, .refl t, rfl⟩
  publics := (keeps_updatePublic e s.id (·.publish s e.wallNow) (fun _ => rfl) (fun _ => rfl)
    (fun _ => .inl)).publics
  passwords := (keeps_updatePublic e s.id (·.publish s e.wallNow) (fun _ => rfl) (fun _ => rfl)
    (fun _ => .inl)).passwords
  written := ⟨[], (List.append_nil _).symm, by simp⟩
  nextId := rfl
  indexed he :=
    { byId := he.byId.remove h
      below := fun i t ht => by
        rw [unindex, Slab.get_remove] at ht
        split_ifs at ht with hi
        exact he.below i t ht }

theorem sameTables_touchEpoch (e : Engine) (deviceId : Text) :
    SameTables e (e.touchEpoch deviceId) := by
  unfold touchEpoch
  split <;> exact ⟨rfl, rfl, rfl, rfl, rfl⟩

theorem keeps_compactMemory (e : Engine) : Keeps e (e.compactMemory cfg) := by
  have hcompact := Slab.compact_induction (rekeySlot cfg)
    (I := fun entries e' =>
      (∀ slot s, entries[slot]? = some (some s) → ∃ slot₀, e.sessions.get slot₀ = some s) ∧
        e'.publics = e.publics ∧ e'.written = e.written ∧ e'.nextId = e.nextId ∧
        (e.Indexed → IndexedBy e'.byId entries))
    (fun rest e' h => by
      refine ⟨fun slot s hs => h.1 slot s ?_, h.2.1, h.2.2.1,
        h.2.2.2.1, fun he => (h.2.2.2.2 he).drop⟩
      have hlt := (List.getElem?_eq_some_iff.mp hs).1
      rw [List.getElem?_append_left hlt, hs])
    (fun rest key s e' hkey h => by
      refine ⟨fun slot t ht => ?_, h.2.1, h.2.2.1, h.2.2.2.1, fun he => (h.2.2.2.2 he).move hkey⟩
      by_cases hslot : key = slot
      · have hlt := (List.getElem?_eq_some_iff.mp hkey).1
        rw [← hslot, List.getElem?_set_self hlt] at ht
        cases ht
        exact h.1 rest.length s List.getElem?_concat_length
      · rw [List.getElem?_set_ne hslot] at ht
        have hlt := (List.getElem?_eq_some_iff.mp ht).1
        exact h.1 slot t (by rw [List.getElem?_append_left hlt, ht]))
    e.sessions e
    ⟨fun slot s hs => ⟨slot, Slab.get_eq_some.mpr hs⟩, rfl, rfl, rfl, fun he => he.byId⟩
  obtain ⟨hsession, hpublic, hwrite, hnext, hindex⟩ := hcompact
  exact
    { sessions := fun slot s hs => by
        obtain ⟨slot₀, hs₀⟩ := hsession slot s (Slab.get_eq_some.mp hs)
        exact ⟨slot₀, s, hs₀, .refl s, rfl⟩
      publics := fun id p hp => ⟨p, hpublic ▸ hp, rfl, rfl, .inl⟩
      passwords := fun id => by rw [show (e.compactMemory cfg).publics = e.publics from hpublic]
      written := ⟨[], hwrite.trans (List.append_nil _).symm, by simp⟩
      nextId := hnext
      indexed := fun he =>
        { byId := hindex he
          below := fun slot s hs => by
            obtain ⟨slot₀, hs₀⟩ := hsession slot s (Slab.get_eq_some.mp hs)
            exact (he.below slot₀ s hs₀).trans_eq hnext.symm } }

theorem keeps_publishSessions (e : Engine) : Keeps e e.publishSessions where
  sessions slot s' hs' := by
    rw [publishSessions, Slab.get_map] at hs'
    obtain ⟨s, hs, rfl⟩ := Option.map_eq_some_iff.mp hs'
    exact ⟨slot, s, hs, ⟨rfl, rfl, rfl, rfl, rfl, rfl, rfl, rfl⟩, rfl⟩
  publics id p hp := ⟨p, hp, rfl, rfl, .inl⟩
  passwords id := rfl
  written := ⟨[], (List.append_nil _).symm, by simp⟩
  nextId := rfl
  indexed he :=
    { byId := he.byId.map fun _ => rfl
      below := fun slot s' hs' => by
        rw [publishSessions, Slab.get_map] at hs'
        obtain ⟨s, hs, rfl⟩ := Option.map_eq_some_iff.mp hs'
        exact he.below slot s hs }

theorem keeps_routine : Routine cfg Keeps where
  refl := .refl
  trans := .trans
  elsewhere h := .of_eq h.tables
  quiet e event _ := keeps_queueEvent e event
  session := keeps_setSession
  published e id f hs ht :=
    keeps_updatePublic e id f (fun p => (hs p).workerId) (fun p => (hs p).password) ht
  leaves := keeps_unindex
  counted := keeps_publishSessions
  compacted := keeps_compactMemory cfg
  marked _ _ := .of_eq ⟨rfl, rfl, rfl, rfl, rfl⟩

theorem keeps_writeTun {e : Engine} (hs : e.sessions.get slot = some s)
    (hr : s.registrationId.isSome) (plain : Bytes) (room : Bool) :
    Keeps e (e.writeTun slot s plain room) := by
  unfold writeTun
  split_ifs
  · have hset : Keeps e (e.setSession slot (s.countUp plain.length)) :=
      keeps_setSession hs ⟨rfl, rfl, rfl, rfl, rfl, rfl, rfl, rfl⟩ rfl
    exact
      { sessions := hset.sessions
        publics := hset.publics
        passwords := hset.passwords
        written := ⟨[(s.id, plain)], rfl, fun x hx => by
          rw [List.mem_singleton.mp hx]
          exact ⟨slot, s, hs, rfl, hr⟩⟩
        nextId := rfl
        indexed := fun he => ⟨(hset.indexed he).byId, (hset.indexed he).below⟩ }
  · exact .refl e

theorem keeps_dispatch {e : Engine} (hs : e.sessions.get slot = some s)
    (plain : Bytes) (io : UdpIo) : Keeps e (e.dispatch cfg slot s plain io) := by
  unfold dispatch
  split_ifs with _ _ _ _ ht
  · exact .refl e
  · exact (keeps_routine cfg).regular.sendPlain e slot readyOk io.send
  · exact .refl e
  · exact keeps_queueEvent e _
  · exact keeps_writeTun hs (by simp at ht; exact ht.2) plain io.tunRoom
  · exact .refl e
  · apply (keeps_queueEvent e (.ingressBeforeTunnel s.peer s.id plain)).trans
    exact keeps_setSession (get_queueEvent hs _) ⟨rfl, rfl, rfl, rfl, rfl, rfl, rfl, rfl⟩ rfl

theorem setSession_setSession (e : Engine) (slot : ℕ) (s s' : HotSession) :
    (e.setSession slot s).setSession slot s' = e.setSession slot s' := by
  rw [setSession, setSession, setSession]
  simp only [Slab.modify_modify, Function.comp_def]

theorem keeps_receive {e : Engine} (hs : e.sessions.get slot = some s)
    (localIp : Option IpAddr) (seq : UInt16) (plain : Bytes) (io : UdpIo) :
    Keeps (e.setSession slot { s with replay := (s.replay.accept seq).1 })
      (e.receive cfg slot s localIp seq plain io) := by
  unfold receive
  split
  · rename_i replay heq
    rw [heq]
    exact .refl _
  · rename_i replay heq
    rw [heq]
    have hseen : Keeps (e.setSession slot { s with replay }) ((e.setSession slot { s with replay
        }).setSession slot (s.seen replay e.monotonicMs localIp)) :=
      keeps_setSession (get_setSession_self hs _) ⟨rfl, rfl, rfl, rfl, rfl, rfl, rfl, rfl⟩ rfl
    rw [setSession_setSession] at hseen
    have hk : Keeps (e.setSession slot (s.seen replay e.monotonicMs localIp))
        { e.setSession slot (s.seen replay e.monotonicMs localIp) with
          byPeer := rekey e.byPeer s localIp slot } := .of_eq ⟨rfl, rfl, rfl, rfl, rfl⟩
    refine (hseen.trans hk).trans (keeps_dispatch cfg ?_ plain io)
    exact get_setSession_self hs _

def NewSession.Fits (n : NewSession) : Prop :=
  supportedPayloadType n.payloadType = true ∧ (n.isSrtp = false → n.payloadType = 111)

/-- What a datagram does: next to nothing, or a session receives it, or one is created. A GETCONF
that is received was one to process. -/
inductive UdpCase (cfg : ServerConfig) (e : Engine) (endpoint : EndpointKey) (io : UdpIo) :
    Engine → Prop
  | beside {e' : Engine} : Beside e e' → UdpCase cfg e endpoint io e'
  | received (before : Engine) (slot : ℕ) (s : HotSession) (seq : UInt16) (plain : Bytes) :
      Beside e before → e.slotFor endpoint = some slot → e.sessions.get slot = some s →
      (∀ identity, parseGetconfEpoch plain = some identity → getconfReconnectActionHot
        (before.epochs.lookup identity.deviceId) s.identity identity = .process) →
      UdpCase cfg e endpoint io (before.receive cfg slot s endpoint.localIp seq plain io)
  | replaced (before : Engine) (slot : ℕ) (s : HotSession) (n : NewSession) (payload : Bytes) :
      Beside e before → e.sessions.get slot = some s → n.Fits →
      parseGetconfEpoch payload = some n.identity → n.password = s.password →
      UdpCase cfg e endpoint io ((before.removeSlotWithReason cfg slot
        "epoch-replaced").createForGetconf cfg n io.output payload)
  | created (before : Engine) (n : NewSession) (payload : Bytes) :
      Beside e before → e.sessions.len < maxActiveSessions → n.Fits →
      parseGetconfEpoch payload = some n.identity →
      containsPassword e.credentials n.password = true →
      UdpCase cfg e endpoint io (before.createForGetconf cfg n io.output payload)

theorem Beside.refl (e : Engine) : Beside e e :=
  ⟨⟨⟨rfl, rfl, rfl, rfl, rfl⟩, rfl, rfl, rfl, rfl⟩, rfl, rfl, rfl⟩

theorem beside_touchEpoch (e : Engine) (deviceId : Text) : Beside e (e.touchEpoch deviceId) := by
  unfold touchEpoch
  split <;> exact ⟨⟨⟨rfl, rfl, rfl, rfl, rfl⟩, rfl, rfl, rfl, rfl⟩, rfl, rfl, rfl⟩

theorem findCredential_spec {wire plain : Bytes} {credentials : List Credential}
    {credential : Credential} {d : ServerWire.DecodedPacket} {identity : Identity}
    (h : findCredential cfg wire credentials = some (credential, d, identity, plain)) :
    (supportedPayloadType d.payloadType = true ∧ (d.isSrtp = false → d.payloadType = 111)) ∧
      parseGetconfEpoch plain = some identity ∧
      containsPassword credentials credential.password = true := by
  induction credentials with
  | nil => cases h
  | cons first rest ih =>
    have hl : containsPassword rest credential.password = true →
        containsPassword (first :: rest) credential.password = true := by
      intro ha
      unfold containsPassword at ha ⊢
      rw [List.any_cons, ha, Bool.or_true]
    rw [findCredential] at h
    split at h
    · exact (ih h).imp_right (And.imp_right hl)
    · rename_i hd
      dsimp only at h
      split at h
      · exact (ih h).imp_right (And.imp_right hl)
      · rename_i hp
        cases h
        exact ⟨ServerWire.unwrapLegacyInPlace_payloadType (congrArg Prod.snd hd), hp,
          by simp [containsPassword]⟩

theorem udpCase_handleUnknownLegacy (e : Engine) (endpoint : EndpointKey)
    (wire : Bytes) (io : UdpIo) :
    UdpCase cfg e endpoint io (e.handleUnknownLegacy cfg endpoint wire io) := by
  have hs : Beside e e.spendSetup :=
    ⟨⟨⟨rfl, rfl, rfl, rfl, rfl⟩, rfl, rfl, rfl, rfl⟩, rfl, rfl, rfl⟩
  unfold handleUnknownLegacy
  by_cases hf : maxActiveSessions ≤ e.sessions.len ∨ serverPacketCapacity < wire.length ∨
      e.setupBudget = 0
  · rw [if_pos hf]
    exact .beside (.refl e)
  · rw [if_neg hf]
    push Not at hf
    split
    · unfold sendUdp
      split_ifs <;> exact .beside ⟨⟨⟨rfl, rfl, rfl, rfl, rfl⟩, rfl, rfl, rfl, rfl⟩, rfl, rfl, rfl⟩
    · rename_i hfound
      obtain ⟨hfind, hp, ha⟩ := findCredential_spec cfg hfound
      exact .created e.spendSetup _ _ hs hf.1 hfind hp ha

theorem udpCase_handleExisting (e : Engine) {endpoint : EndpointKey}
    (hslot : e.slotFor endpoint = some slot) (wire : Bytes) (io : UdpIo) :
    UdpCase cfg e endpoint io (e.handleExisting cfg slot endpoint.localIp wire io) := by
  unfold handleExisting
  split
  · exact .beside (.refl e)
  · rename_i s hs
    split
    · exact .beside (.refl e)
    · rename_i hd
      dsimp only
      split_ifs with hg
      · split
        · exact .beside (.refl e)
        · rename_i incoming hp
          have ht := beside_touchEpoch e incoming.deviceId
          unfold handleGetconf
          split
          · exact .beside ht
          · exact .replaced _ slot s _ _ ht hs
              (ServerWire.unwrapLegacyInPlace_payloadType (congrArg Prod.snd hd)) hp rfl
          · rename_i hprocess
            refine .received _ slot s _ _ ht hslot hs fun identity hid => ?_
            cases hp.symm.trans hid
            exact hprocess
      · exact .received e slot s _ _ (.refl e) hslot hs fun _ hid =>
          absurd (isGetconf_of_parseGetconfEpoch hid) hg

theorem udpCase_onUdp (e : Engine) (endpoint : EndpointKey) (wire : Bytes)
    (io : UdpIo) : UdpCase cfg e endpoint io (e.onUdp cfg endpoint wire io) := by
  unfold onUdp
  split
  · rename_i slot hs
    exact udpCase_handleExisting cfg e hs wire io
  · exact udpCase_handleUnknownLegacy cfg e endpoint wire io

/-- What a datagram does to the sessions: nothing, or one of them receives it, or one is created. -/
inductive UdpStep (e e' : Engine) : Prop
  | kept : Keeps e e' → UdpStep e e'
  | received (slot : ℕ) (s : HotSession) (seq : UInt16) : e.sessions.get slot = some s →
      Keeps (e.setSession slot { s with replay := (s.replay.accept seq).1 }) e' → UdpStep e e'
  | created (before : Engine) (n : NewSession) (output : ServerWire.OutState) : Keeps e before →
      n.Fits → Keeps (before.index n output) e' → UdpStep e e'

theorem keeps_createForGetconf (e : Engine) (n : NewSession) (output : ServerWire.OutState)
    (payload : Bytes) : ∃ before, Keeps e before ∧
      Keeps (before.index n output) (e.createForGetconf cfg n output payload) := by
  unfold createForGetconf createLegacySession
  have hq : ∀ e : Engine, Keeps (e.index n output)
      ((e.index n output).queueEvent (.sessionCreated e.nextId)) := fun e => keeps_queueEvent _ _
  split
  · rename_i slot _
    exact ⟨_, (keeps_routine cfg).removeSlotWithReason e slot "peer-replaced",
      (hq _).trans (keeps_queueEvent _ _)⟩
  · exact ⟨e, .refl e, (hq e).trans (keeps_queueEvent _ _)⟩

theorem Beside.keeps_receive {e before : Engine} (h : Beside e before)
    (hs : e.sessions.get slot = some s) (localIp : Option IpAddr) (seq : UInt16) (plain : Bytes)
    (io : UdpIo) : Keeps (e.setSession slot { s with replay := (s.replay.accept seq).1 })
      (before.receive cfg slot s localIp seq plain io) := by
  refine Keeps.trans (.of_eq ?_)
    (Engine.keeps_receive cfg (h.tables.sessions ▸ hs) localIp seq plain io)
  exact ⟨by rw [setSession, setSession, h.tables.sessions], h.tables.publics, h.tables.written,
    h.tables.nextId, h.tables.byId⟩

theorem onUdp_step (e : Engine) (endpoint : EndpointKey) (wire : Bytes) (io : UdpIo) :
    UdpStep e (e.onUdp cfg endpoint wire io) := by
  have hcase := udpCase_onUdp cfg e endpoint wire io
  generalize e.onUdp cfg endpoint wire io = e' at hcase ⊢
  cases hcase with
  | beside h => exact .kept (.of_eq h.tables)
  | received _ slot s seq plain h _ hs =>
    exact .received slot s seq hs (h.keeps_receive cfg hs _ seq plain io)
  | replaced before slot _ n payload h _ hf =>
    obtain ⟨_, hb, hc⟩ := keeps_createForGetconf cfg
      (before.removeSlotWithReason cfg slot "epoch-replaced") n io.output payload
    exact .created _ n io.output ((Keeps.of_eq h.tables).trans
      (((keeps_routine cfg).removeSlotWithReason before slot _).trans hb)) hf hc
  | created before n payload h _ hf =>
    obtain ⟨_, hb, hc⟩ := keeps_createForGetconf cfg before n io.output payload
    exact .created _ n io.output ((Keeps.of_eq h.tables).trans hb) hf hc

end Engine
end Csqtt
