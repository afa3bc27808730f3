import Csqtt.ServerEngineRuns

/-!
# Sessions of the engine with a tunnel

A set of sessions is given. `Entitled` says that only they have a worker, a tunnel or a
registration; `Writes` says of a step that only they write to the TUN. Both are kept by everything
the engine does, except `ActivateTunnel` and `InjectTun`.
-/

namespace Csqtt

variable {A A' : ℕ → Prop}

namespace Engine

/-- Public parts with a worker or a tunnel and sessions with a registration belong to `A`. -/
structure Entitled (A : ℕ → Prop) (e : Engine) : Prop where
  indexed : e.Indexed
  below : ∀ id p, e.publics id = some p → id < e.nextId
  published : ∀ id p, e.publics id = some p → p.workerId ≠ noWorker ∨ p.hasTunnel = true → A id
  registered : ∀ slot s, e.sessions.get slot = some s → s.registrationId.isSome → A s.id

/-- What is written to the TUN is of sessions in `A`, and the sessions keep their passwords. -/
structure Writes (A : ℕ → Prop) (e e' : Engine) : Prop where
  written : ∃ new, e'.written = e.written ++ new ∧ ∀ x ∈ new, A x.1
  passwords : ∀ id p, e.publics id = some p → ∃ p', e'.publics id = some p' ∧
    p'.password = p.password

variable {e e' e'' : Engine}

theorem Entitled.mono (h : Entitled A e) (hA : ∀ id, A id → A' id) : Entitled A' e :=
  ⟨h.indexed, h.below, fun id p hp ht => hA id (h.published id p hp ht),
    fun slot s hs hr => hA s.id (h.registered slot s hs hr)⟩

theorem Entitled.tunneled (h : Entitled A e) {id : ℕ} (ht : e.Tunneled id) : A id := by
  obtain ⟨slot, s, hs, rfl, hr⟩ := ht
  exact h.registered slot s hs hr

theorem Writes.of_eq (hw : e'.written = e.written)
    (hpublic : e'.publics = e.publics) : Writes A e e' :=
  ⟨⟨[], by rw [hw, List.append_nil], by simp⟩, fun id p hp => ⟨p, hpublic ▸ hp, rfl⟩⟩

theorem Writes.trans (h : Writes A e e') (h' : Writes A e' e'') : Writes A e e'' where
  written := appended_trans h.written h'.written fun _ hx => hx
  passwords id p hp := by
    obtain ⟨p', hp', hpass⟩ := h.passwords id p hp
    obtain ⟨p'', hp'', hpass'⟩ := h'.passwords id p' hp'
    exact ⟨p'', hp'', hpass'.trans hpass⟩

theorem Entitled.keeps (h : Entitled A e) (hk : Keeps e e') : Entitled A e' ∧ Writes A e e' := by
  refine ⟨⟨hk.indexed h.indexed, fun id p hp => ?_, fun id p hp ht => ?_, fun slot s hs hr => ?_⟩,
    ?_, fun id p hp => ?_⟩
  · obtain ⟨p₀, hp₀, -⟩ := hk.publics id p hp
    rw [hk.nextId]
    exact h.below id p₀ hp₀
  · obtain ⟨p₀, hp₀, hw, -, htunnel⟩ := hk.publics id p hp
    obtain ht | ht := ht
    · exact h.published id p₀ hp₀ (.inl (hw ▸ ht))
    · obtain ht | ht := htunnel ht
      · exact h.published id p₀ hp₀ (.inr ht)
      · exact h.tunneled ht
  · obtain ⟨slot₀, s₀, hs₀, hsame, -⟩ := hk.sessions slot s hs
    rw [hsame.id]
    exact h.registered slot₀ s₀ hs₀ (hsame.registrationId ▸ hr)
  · obtain ⟨new, hn, htunneled⟩ := hk.written
    exact ⟨new, hn, fun x hx => h.tunneled (htunneled x hx)⟩
  · have hp' := hk.passwords id
    rw [hp] at hp'
    exact Option.map_eq_some_iff.mp hp'

theorem entitled_keeps (h : Entitled A e' ∧ Writes A e e') (hk : Keeps e' e'') :
    Entitled A e'' ∧ Writes A e e'' :=
  ⟨(h.1.keeps hk).1, h.2.trans (h.1.keeps hk).2⟩

theorem Entitled.setSession (h : Entitled A e) (slot : ℕ) {s : HotSession}
    (hs : e.sessions.get slot = some s) (s' : HotSession) (hid : s'.id = s.id)
    (hreg : s'.registrationId.isSome → A s.id) : Entitled A (e.setSession slot s') where
  indexed := h.indexed.setSession hs hid
  below := h.below
  published := h.published
  registered i t ht hr := by
    obtain ⟨-, rfl⟩ | ht := of_get_setSession hs ht
    · rw [hid]
      exact hreg hr
    · exact h.registered i t ht hr

theorem writes_setSession (A : ℕ → Prop) (e : Engine) (slot : ℕ) (s : HotSession) :
    Writes A e (e.setSession slot s) := .of_eq rfl rfl

theorem Entitled.updatePublic (h : Entitled A e) (id : ℕ) (f : PublicSession → PublicSession)
    (hf : ∀ p, (f p).workerId ≠ noWorker ∨ (f p).hasTunnel = true →
      (p.workerId ≠ noWorker ∨ p.hasTunnel = true) ∨ A id) : Entitled A (e.updatePublic id f) where
  indexed := ⟨h.indexed.byId, h.indexed.below⟩
  below i p' hp' := by
    rw [publics_updatePublic] at hp'
    split_ifs at hp' with hi
    · obtain ⟨p, hp, -⟩ := Option.map_eq_some_iff.mp hp'
      exact hi ▸ h.below id p hp
    · exact h.below i p' hp'
  published i p' hp' ht := by
    rw [publics_updatePublic] at hp'
    split_ifs at hp' with hi
    · obtain ⟨p, hp, rfl⟩ := Option.map_eq_some_iff.mp hp'
      obtain ht | hA := hf p ht
      · exact hi ▸ h.published id p hp ht
      · exact hi ▸ hA
    · exact h.published i p' hp' ht
  registered := h.registered

theorem writes_updatePublic (A : ℕ → Prop) (e : Engine) (id : ℕ) (f : PublicSession → PublicSession)
    (hpass : ∀ p, (f p).password = p.password) : Writes A e (e.updatePublic id f) where
  written := ⟨[], (List.append_nil _).symm, by simp⟩
  passwords i p hp := by
    rw [publics_updatePublic]
    split_ifs with hi
    · rw [← hi, hp]
      exact ⟨f p, rfl, hpass p⟩
    · exact ⟨p, hp, rfl⟩

theorem Entitled.index (h : Entitled A e) (n : NewSession) (output : ServerWire.OutState) :
    Entitled A (e.index n output) ∧ Writes A e (e.index n output) := by
  have hpublic := e.publics_index n output
  refine ⟨⟨h.indexed.index n output, fun i p hp => ?_, fun i p hp ht => ?_,
    fun slot s hs hr => ?_⟩, ⟨[], (List.append_nil _).symm, by simp⟩, fun i p hp => ?_⟩
  · rw [hpublic] at hp
    split_ifs at hp with hi
    · exact hi ▸ Nat.lt_succ_self _
    · exact (h.below i p hp).trans (Nat.lt_succ_self _)
  · rw [hpublic] at hp
    split_ifs at hp with hi
    · cases hp
      simp [PublicSession.new] at ht
    · exact h.published i p hp ht
  · rw [Engine.index, Slab.get_insert] at hs
    split_ifs at hs with hslot
    · cases hs
      cases hr
    · exact h.registered slot s hs hr
  · rw [hpublic, if_neg (h.below i p hp).ne]
    exact ⟨p, hp, rfl⟩

variable (cfg : ServerConfig)

theorem Entitled.onUdp (h : Entitled A e) (endpoint : EndpointKey) (wire : Bytes)
    (io : UdpIo) : Entitled A (e.onUdp cfg endpoint wire io) ∧
      Writes A e (e.onUdp cfg endpoint wire io) := by
  cases onUdp_step cfg e endpoint wire io with
  | kept hk => exact h.keeps hk
  | received slot s seq hs hk =>
    have hset := h.setSession slot hs { s with replay := (s.replay.accept seq).1 } rfl
      (h.registered slot s hs)
    exact ⟨(hset.keeps hk).1, (writes_setSession A e slot _).trans (hset.keeps hk).2⟩
  | created _ n output hb _ hk =>
    have ho := h.keeps hb
    have hn := ho.1.index n output
    exact ⟨(hn.1.keeps hk).1, (ho.2.trans hn.2).trans (hn.1.keeps hk).2⟩

end Engine

/-- A command that lets a session use its tunnel is for one in `A`. -/
def Command.Entitled (A : ℕ → Prop) : Command → Prop
  | .activateTunnel sessionId .. => A sessionId
  | .injectTun sessionId _ => A sessionId
  | _ => True

namespace Engine

variable (cfg : ServerConfig) {e : Engine}

theorem Entitled.onCommand (h : Entitled A e) {command : Command}
    (hA : command.Entitled A) (io : CommandIo) :
    Entitled A (e.onCommand cfg command io) ∧ Writes A e (e.onCommand cfg command io) := by
  have hk := keeps_routine cfg
  have hcase := commandCase_onCommand cfg e command io
  generalize e.onCommand cfg command io = e' at hcase ⊢
  cases hcase with
  | steady _ hr => exact h.keeps (hr _ hk.regular.toSteady)
  | credentials =>
    exact h.keeps ((hk.regular.removeSlots e _ _).trans (.of_eq ⟨rfl, rfl, rfl, rfl, rfl⟩))
  | unrouted routes =>
    exact entitled_keeps (h.keeps (keeps_setRoutes e routes)) (hk.syncDownlinkProfile ..)
  | activated ip registrationId desiredCount slot s routes _ hslot hs =>
    have hsA := (h.indexed.id_eq hslot hs).symm ▸ hA
    have hroute := h.keeps (keeps_setRoutes e routes)
    have hset := hroute.1.setSession slot hs (s.activate ip registrationId desiredCount) rfl
      (fun _ => hsA)
    refine entitled_keeps (entitled_keeps (entitled_keeps ⟨hset.updatePublic _ _
      (fun _ _ => .inr hsA), ?_⟩ (hk.syncDownlinkProfile ..)) (hk.syncDownlinkProfile ..))
        (hk.marked _ true)
    exact (hroute.2.trans (writes_setSession A ..)).trans
      (writes_updatePublic A _ _ _ (fun _ => rfl))
  | deactivated slot s routes hs =>
    have hroute := h.keeps (keeps_setRoutes e routes)
    have hset := hroute.1.setSession slot hs s.deactivate rfl (fun hreg => by cases hreg)
    refine entitled_keeps (entitled_keeps ⟨hset.updatePublic _ (·.deactivate)
      (fun p ht => .inl ?_), ?_⟩ (hk.syncDownlinkProfile ..)) (hk.marked _ true)
    · exact .inl (ht.resolve_right (by simp [PublicSession.deactivate]))
    · exact (hroute.2.trans (writes_setSession A ..)).trans
        (writes_updatePublic A _ _ _ (fun _ => rfl))
  | written payload slot s hslot hs =>
    have hset := h.setSession slot hs (s.countUp payload.length) rfl (h.registered slot s hs)
    refine ⟨⟨⟨hset.indexed.byId, hset.indexed.below⟩, h.below, h.published, hset.registered⟩,
      ⟨[_], rfl, fun x hx => ?_⟩, fun id p hp => ⟨p, hp, rfl⟩⟩
    rw [List.mem_singleton.mp hx]
    exact (h.indexed.id_eq hslot hs).symm ▸ hA
  | renamed identity slot s _ hs =>
    have hset := h.setSession slot hs (s.setIdentity identity) rfl (h.registered slot s hs)
    refine entitled_keeps (entitled_keeps ⟨hset.updatePublic s.id (·.setIdentity identity)
      (fun _ ht => .inl ht), ?_⟩ (hk.setDownlink ..)) (hk.marked _ true)
    exact (writes_setSession A ..).trans (writes_updatePublic A _ _ _ (fun _ => rfl))

theorem Entitled.restart (h : Entitled A e) (wallNow : ℕ) :
    Entitled A (e.restart wallNow) ∧ Writes A e (e.restart wallNow) := by
  refine ⟨⟨indexed_of_empty rfl rfl, h.below, h.published, fun slot s hs => ?_⟩, .of_eq rfl rfl⟩
  cases hs

end Engine

end Csqtt
