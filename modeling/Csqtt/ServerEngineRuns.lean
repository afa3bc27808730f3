import Csqtt.Runs
import Csqtt.ServerSessions

/-!
# Runs of the engine

The inputs of the engine and its step function. Whatever the input, a live session continues one
that was there before, with the same id, peer, password, key and mode, and its replay window takes
at most one sequence number; or it is new.
-/

namespace Csqtt

namespace HotSession

def Fits (s : HotSession) : Prop :=
  supportedPayloadType s.output.payloadType = true ∧
    (s.isSrtp = false → s.output.payloadType = 111)

structure Continues (s s' : HotSession) : Prop where
  id : s'.id = s.id
  peer : s'.peer = s.peer
  password : s'.password = s.password
  key : s'.key = s.key
  isSrtp : s'.isSrtp = s.isSrtp
  payloadType : s'.output.payloadType = s.output.payloadType
  replay : s'.replay = s.replay ∨ ∃ seq, s'.replay = (s.replay.accept seq).1

theorem Same.continues {s s' : HotSession} (h : s.Same s')
    (hr : s'.replay = s.replay ∨ ∃ seq, s'.replay = (s.replay.accept seq).1) : s.Continues s' :=
  ⟨h.id, h.peer, h.password, h.key, h.isSrtp, h.payloadType, hr⟩

theorem Continues.fits {s s' : HotSession} (h : s.Continues s') (hs : s.Fits) : s'.Fits := by
  unfold Fits
  rw [h.payloadType, h.isSrtp]
  exact hs

end HotSession

namespace Engine

inductive Input
  | udp (endpoint : EndpointKey) (wire : Bytes) (io : UdpIo)
  | command (command : Command) (io : CommandIo)
  | tick (io : TickIo)
  | tun (packet : Bytes)
  | drain (io : ℕ → DrainIo)
  | ioCounters
  | restart (wallNow : ℕ)

variable (cfg : ServerConfig)

def step (e : Engine) : Input → Engine
  | .udp endpoint wire io => e.onUdp cfg endpoint wire io
  | .command command io => e.onCommand cfg command io
  | .tick io => e.onTick cfg io
  | .tun packet => e.handleTunPacket cfg packet
  | .drain io => e.drainDownlink cfg io
  | .ioCounters => e.queueEvent .ioCounters
  | .restart wallNow => e.restart wallNow

structure Continues (e e' : Engine) : Prop where
  sessions : ∀ slot s', e'.sessions.get slot = some s' →
    (∃ slot₀ s, e.sessions.get slot₀ = some s ∧ s.Continues s') ∨ (e.nextId ≤ s'.id ∧ s'.Fits)
  nextId : e.nextId ≤ e'.nextId
  indexed : e.Indexed → e'.Indexed

variable {e e' e'' : Engine}

theorem Continues.of_keeps (h : Keeps e e') : Continues e e' where
  sessions slot s' hs' := by
    obtain ⟨slot₀, s, hs, hsame, hr⟩ := h.sessions slot s' hs'
    exact .inl ⟨slot₀, s, hs, hsame.continues (.inl hr)⟩
  nextId := h.nextId.ge
  indexed := h.indexed

theorem Indexed.byId_nextId (he : e.Indexed) : e.byId e.nextId = none := by
  cases hid : e.byId e.nextId with
  | none => rfl
  | some slot =>
    obtain ⟨s, hs, hsid⟩ := he.get hid
    exact absurd hsid (Nat.ne_of_lt (he.below slot s hs))

theorem Indexed.index (he : e.Indexed) (n : NewSession) (output : ServerWire.OutState) :
    (e.index n output).Indexed where
  byId := he.byId.insert (x := n.hot e.nextId e.monotonicMs output) he.byId_nextId
  below slot s hs := by
    rw [Engine.index, Slab.get_insert] at hs
    split_ifs at hs with hslot
    · cases hs
      exact Nat.lt_succ_self _
    · exact (he.below slot s hs).trans (Nat.lt_succ_self _)

theorem Continues.of_udpStep (h : UdpStep e e') : Continues e e' := by
  cases h with
  | kept hk => exact .of_keeps hk
  | received slot s seq hs hk =>
    refine ⟨fun slot' s' hs' => .inl ?_, hk.nextId.ge, fun he => hk.indexed ?_⟩
    · obtain ⟨i, t, ht, hsame, hr⟩ := hk.sessions slot' s' hs'
      obtain ⟨-, rfl⟩ | ht := of_get_setSession hs ht
      · exact ⟨slot, s, hs, hsame.id, hsame.peer, hsame.password, hsame.key, hsame.isSrtp,
          hsame.payloadType, .inr ⟨seq, hr⟩⟩
      · exact ⟨i, t, ht, hsame.continues (.inl hr)⟩
    · exact he.setSession hs rfl
  | created _ n output hb hf hk =>
    refine ⟨fun slot' s' hs' => ?_, ?_, fun he => hk.indexed ((hb.indexed he).index n output)⟩
    · obtain ⟨i, t, ht, hsame, hr⟩ := hk.sessions slot' s' hs'
      rw [index, Slab.get_insert] at ht
      split_ifs at ht with hi
      · cases ht
        refine .inr ⟨?_, ?_⟩
        · rw [hsame.id, ← hb.nextId]
          rfl
        · exact (hsame.continues (.inl hr)).fits hf
      · obtain ⟨j, s, hs, hsame', hr'⟩ := hb.sessions i t ht
        exact .inl ⟨j, s, hs, (hsame'.trans hsame).continues (.inl (hr.trans hr'))⟩
    · rw [hk.nextId]
      exact (Nat.le_succ _).trans' hb.nextId.ge

theorem Continues.setSession {slot : ℕ} {s : HotSession}
    (hs : e.sessions.get slot = some s) (s' : HotSession) (h : s.Continues s') :
    Continues e (e.setSession slot s') where
  sessions i t ht := by
    obtain ⟨-, rfl⟩ | ht := of_get_setSession hs ht
    · exact .inl ⟨slot, s, hs, h⟩
    · exact .inl ⟨i, t, ht, (HotSession.Same.refl t).continues (.inl rfl)⟩
  nextId := le_rfl
  indexed he := he.setSession hs h.id

theorem Continues.of_sessions (h : Continues e e')
    (hs : e''.sessions = e'.sessions) (hb : e''.byId = e'.byId)
    (hn : e''.nextId = e'.nextId) : Continues e e'' where
  sessions slot s' hs' := h.sessions slot s' (hs ▸ hs')
  nextId := hn ▸ h.nextId
  indexed he := ⟨by rw [hb, hs]; exact (h.indexed he).byId,
    by rw [hs, hn]; exact (h.indexed he).below⟩

theorem continues_onCommand (e : Engine) (command : Command) (io : CommandIo) :
    Continues e (e.onCommand cfg command io) := by
  have hk := keeps_routine cfg
  have hc := commandCase_onCommand cfg e command io
  generalize e.onCommand cfg command io = e' at hc ⊢
  cases hc with
  | steady _ h => exact .of_keeps (h _ hk.regular.toSteady)
  | credentials =>
    exact .of_keeps ((hk.regular.removeSlots e _ _).trans (.of_eq ⟨rfl, rfl, rfl, rfl, rfl⟩))
  | unrouted routes =>
      exact .of_keeps ((keeps_setRoutes e routes).trans (hk.syncDownlinkProfile ..))
  | activated ip registrationId desiredCount _ s _ _ _ hs =>
    exact (Continues.setSession hs (s.activate ip registrationId desiredCount)
      ⟨rfl, rfl, rfl, rfl, rfl, rfl, .inl rfl⟩).of_sessions rfl rfl rfl
  | deactivated _ s _ hs =>
    exact (Continues.setSession hs (s.deactivate) ⟨rfl, rfl, rfl, rfl, rfl, rfl,
      .inl rfl⟩).of_sessions rfl rfl rfl
  | written payload _ s _ hs =>
    exact (Continues.setSession hs (s.countUp payload.length) ⟨rfl, rfl, rfl, rfl, rfl, rfl,
      .inl rfl⟩).of_sessions rfl rfl rfl
  | renamed identity _ s _ hs =>
    exact (Continues.setSession hs (s.setIdentity identity) ⟨rfl, rfl, rfl, rfl, rfl, rfl,
      .inl rfl⟩).of_sessions rfl rfl rfl

theorem indexed_of_empty (hsession : e.sessions = .empty)
    (hb : e.byId = fun _ => none) : e.Indexed where
  byId := by
    rw [hsession, hb]
    exact Slab.IndexedOn.nil
  below slot s hs := by
    rw [hsession] at hs
    cases hs

theorem continues_restart (e : Engine) (wallNow : ℕ) : Continues e (e.restart wallNow) where
  sessions slot s' hs' := by
    cases hs'
  nextId := le_rfl
  indexed _ := indexed_of_empty rfl rfl

theorem continues_step (e : Engine) (input : Input) : Continues e (e.step cfg input) := by
  cases input with
  | udp endpoint wire io => exact .of_udpStep (onUdp_step cfg e endpoint wire io)
  | command command io => exact continues_onCommand cfg e command io
  | tick io => exact .of_keeps ((keeps_routine cfg).regular.onTick e io)
  | tun => exact .of_keeps ((keeps_routine cfg).setDownlink e _)
  | drain io => exact .of_keeps ((keeps_routine cfg).drainDownlink e io)
  | ioCounters => exact .of_keeps (keeps_queueEvent e _)
  | restart wallNow => exact continues_restart e wallNow

/-- In every state of a run the index is right and the sessions keep their payload types. -/
theorem run_indexed_fits (credentials : List Credential) (wallNow : ℕ) (inputs : List Input) :
    (inputs.foldl (step cfg) (start credentials wallNow)).Indexed ∧
      ∀ slot s, (inputs.foldl (step cfg) (start credentials wallNow)).sessions.get slot = some s →
        s.Fits := by
  apply Runs.invariant (I := fun e : Engine =>
    e.Indexed ∧ ∀ slot s, e.sessions.get slot = some s → s.Fits) (Q := fun _ _ => True)
  · intro e input ⟨hin, hf⟩ _
    have hstep := continues_step cfg e input
    refine ⟨hstep.indexed hin, fun slot s' hs' => ?_⟩
    obtain ⟨slot₀, s, hs, hc⟩ | ⟨-, hn⟩ := hstep.sessions slot s' hs'
    · exact hc.fits (hf slot₀ s hs)
    · exact hn
  · refine ⟨indexed_of_empty rfl rfl, fun slot s hs => ?_⟩
    cases hs
  · exact Runs.along_of_forall fun _ _ => trivial

end Engine
end Csqtt
