import Csqtt.DownlinkDelivery
import Csqtt.ServerNames

/-!
# Every session has a current credential

A session is created with the password of the credential that opened its first datagram, or takes
over that of the session it replaces. The credentials of the engine are replaced only together with
the removal of the sessions that have none of them.
-/

namespace Csqtt

variable {s : HotSession} {slot : ℕ}

namespace Engine

variable {cfg : ServerConfig} {e e' : Engine}

def Vouched (e : Engine) : Prop :=
  ∀ slot s, e.sessions.get slot = some s → containsPassword e.credentials s.password = true

/-! ## Sessions that are removed together -/

theorem get_removeSlotWithReason (cfg : ServerConfig) (e : Engine) (slot : ℕ) (reason : String)
    (i : ℕ) : (e.removeSlotWithReason cfg slot reason).sessions.get i =
      if i = slot then none else e.sessions.get i := by
  unfold removeSlotWithReason
  split
  · rename_i hs
    split_ifs with hi
    · rw [hi, hs]
    · rfl
  · rename_i s hs
    rw [sessions_queueEvent]
    split
    · rename_i ip registrationId _ _
      obtain ⟨routes, publics, hu, -⟩ := unroute_spec cfg (e.unindex slot s) s ip registrationId
      rw [hu]
      exact Slab.get_remove ..
    · exact Slab.get_remove ..

theorem get_removeSlots (cfg : ServerConfig) (e : Engine) (slots : List ℕ) (reason : String)
    (i : ℕ) :
    (e.removeSlots cfg slots reason).sessions.get i =
      if i ∈ slots then none else e.sessions.get i := by
  unfold removeSlots
  rw [← List.foldr_eq_foldl_reverse]
  induction slots with
  | nil => simp
  | cons slot _ ih =>
    rw [List.foldr_cons, get_removeSlotWithReason, ih]
    by_cases hi : i = slot <;> simp [hi]

theorem mem_staleSlots {stale : HotSession → Bool} (hs : e.sessions.get slot = some s)
    (hstale : stale s = true) : slot ∈ e.staleSlots stale := by
  rw [staleSlots, List.mem_map]
  exact ⟨(slot, s), List.mem_filter.mpr ⟨Slab.mem_slots.mpr hs, hstale⟩, rfl⟩

theorem not_stale_of_removeSlots {stale : HotSession → Bool} {reason : String}
    (hs : (e.removeSlots cfg (e.staleSlots stale) reason).sessions.get slot = some s) :
    stale s = false := by
  rw [get_removeSlots] at hs
  split_ifs at hs with hm
  by_contra hstale
  exact hm (mem_staleSlots hs (Bool.eq_true_of_not_eq_false hstale))

/-! ## What keeps the sessions vouched for -/

theorem credentials_queueEvent (e : Engine) (event : ControlEvent) :
    (e.queueEvent event).credentials = e.credentials := by
  obtain ⟨_, he⟩ := queueEvent_eq e event
  rw [he]

theorem credentials_receive (cfg : ServerConfig) (e : Engine) (slot : ℕ) (s : HotSession)
    (localIp : Option IpAddr) (seq : UInt16) (plain : Bytes) (io : UdpIo) :
    (e.receive cfg slot s localIp seq plain io).credentials = e.credentials := by
  unfold receive
  split
  · rfl
  · dsimp only
    unfold dispatch writeTun
    split_ifs
    · rfl
    · exact ((sameNames_routine cfg).regular.sendPlain _ slot readyOk io.send).credentials
    · rfl
    · exact credentials_queueEvent _ _
    · rfl
    · rfl
    · rfl
    · exact credentials_queueEvent _ _

namespace Vouched

theorem of_eq (h : e.Vouched) (hs : e'.sessions = e.sessions)
    (hc : e'.credentials = e.credentials) : e'.Vouched := by
  unfold Vouched
  rw [hs, hc]
  exact h

theorem of_empty (hsession : e.sessions = .empty) : e.Vouched := by
  intro slot s hs
  rw [hsession] at hs
  cases hs

section

variable (h : e.Vouched)
include h

theorem kept (hk : Keeps e e') (hn : SameNames e e') : e'.Vouched := by
  intro slot s' hs'
  obtain ⟨slot₀, s, hs, hsame, -⟩ := hk.sessions slot s' hs'
  rw [hn.credentials, hsame.password]
  exact h slot₀ s hs

theorem session (hs : e.sessions.get slot = some s) (s' : HotSession)
    (hp : s'.password = s.password) : (e.setSession slot s').Vouched := by
  intro i t ht
  obtain ⟨-, rfl⟩ | ht := of_get_setSession hs ht
  · rw [hp]
    exact h slot s hs
  · exact h i t ht

theorem createForGetconf {n : NewSession} (hn : containsPassword e.credentials n.password = true)
    (output : ServerWire.OutState) (payload : Bytes) :
    (e.createForGetconf cfg n output payload).Vouched := by
  have hin : ∀ e : Engine, e.Vouched → containsPassword e.credentials n.password = true →
      (e.index n output).Vouched := by
    intro e h hn slot s hs
    rw [index, Slab.get_insert] at hs
    split_ifs at hs
    · cases hs
      exact hn
    · exact h slot s hs
  unfold Engine.createForGetconf createLegacySession
  refine of_eq (of_eq ?_ (sessions_queueEvent _ _) (credentials_queueEvent _ _))
    (sessions_queueEvent _ _) (credentials_queueEvent _ _)
  split
  · rename_i slot _
    have hnames := (sameNames_routine cfg).removeSlotWithReason e slot "peer-replaced"
    apply hin _ (h.kept ((keeps_routine cfg).removeSlotWithReason e slot _) hnames)
    rw [hnames.credentials]
    exact hn
  · exact hin e h hn

theorem receive (hs : e.sessions.get slot = some s) (localIp : Option IpAddr) (seq : UInt16)
    (plain : Bytes) (io : UdpIo) : (e.receive cfg slot s localIp seq plain io).Vouched := by
  have hk := keeps_receive cfg hs localIp seq plain io
  intro i t ht
  obtain ⟨j, u, hu, hsame, -⟩ := hk.sessions i t ht
  have hh : (e.setSession slot { s with replay := (s.replay.accept seq).1 }).Vouched :=
    h.session hs _ rfl
  rw [credentials_receive, hsame.password]
  exact hh j u hu

/-- The session that is replaced had a password of the credentials, and the new one has it too. -/
theorem onUdp (endpoint : EndpointKey) (wire : Bytes) (io : UdpIo) :
    (e.onUdp cfg endpoint wire io).Vouched := by
  have hc := udpCase_onUdp cfg e endpoint wire io
  generalize e.onUdp cfg endpoint wire io = e' at hc ⊢
  cases hc with
  | beside hb => exact h.of_eq hb.tables.sessions hb.credentials
  | received _ _ _ seq plain hb _ hs =>
    exact (h.of_eq hb.tables.sessions hb.credentials).receive (hb.tables.sessions ▸ hs) _ seq
      plain io
  | replaced before slot s _ payload hb hs _ _ hp =>
    have hn := (sameNames_routine cfg).removeSlotWithReason before slot "epoch-replaced"
    have hr := (h.of_eq hb.tables.sessions hb.credentials).kept
      ((keeps_routine cfg).removeSlotWithReason before slot _) hn
    refine hr.createForGetconf ?_ io.output payload
    rw [hn.credentials, hb.credentials, hp]
    exact h slot s hs
  | created _ _ payload hb _ _ _ ha =>
    exact (h.of_eq hb.tables.sessions hb.credentials).createForGetconf
      (hb.credentials.symm ▸ ha) io.output payload

theorem onCommand (command : Command) (io : CommandIo) : (e.onCommand cfg command io).Vouched := by
  have hc := commandCase_onCommand cfg e command io
  generalize e.onCommand cfg command io = e' at hc ⊢
  cases hc with
  | steady _ hr =>
    exact h.kept (hr _ (keeps_routine cfg).regular.toSteady)
      (hr _ (sameNames_routine cfg).regular.toSteady)
  | credentials =>
    intro slot s hs
    have hstale := not_stale_of_removeSlots hs
    rw [Bool.not_eq_false'] at hstale
    exact hstale
  | unrouted => exact h
  | activated ip registrationId desiredCount _ s _ _ _ hs =>
    exact h.session hs (s.activate ip registrationId desiredCount) rfl
  | deactivated _ s _ hs => exact h.session hs s.deactivate rfl
  | written payload _ s _ hs => exact h.session hs (s.countUp payload.length) rfl
  | renamed identity _ s _ hs => exact h.session hs (s.setIdentity identity) rfl

theorem step (input : Input) : (e.step cfg input).Vouched := by
  have hk := keeps_routine cfg
  have hn := sameNames_routine cfg
  cases input with
  | udp endpoint wire io => exact h.onUdp endpoint wire io
  | command command io => exact h.onCommand command io
  | tick io => exact h.kept (hk.regular.onTick e io) (hn.regular.onTick e io)
  | tun => exact h
  | drain io => exact h.kept (hk.drainDownlink e io) (hn.drainDownlink e io)
  | ioCounters => exact h.of_eq (sessions_queueEvent ..) (credentials_queueEvent ..)
  | restart wallNow =>
    have he : (e.restart wallNow).sessions = .empty := rfl
    exact of_empty he

end

end Vouched

/-- In every state that can be reached, whatever datagrams, commands, ticks and restarts there were,
the password of each live session is among the credentials of the engine. -/
theorem sessions_vouched (cfg : ServerConfig) (credentials : List Credential) (wallNow : ℕ)
    (moves : List Move) : (moves.foldl (move cfg) (start credentials wallNow)).Vouched := by
  have hempty : (start credentials wallNow).sessions = .empty := rfl
  refine List.foldlRecOn (motive := Vouched) moves _ (.of_empty hempty) (fun e he m _ => ?_)
  cases m with
  | input input => exact he.step input
  | shared => exact he

end Engine
end Csqtt
