import Csqtt.TurnInvariants
import Csqtt.TurnRequests

/-!
# No allocation is forgotten at a shutdown

A core that is shutting down and still has an allocation to give back has a Deallocate pending. The
shutdown starts it in READY, and an Allocate that is answered during the shutdown starts it then; a
challenge renews it, and every way in which it ends takes the expiry away.
-/

namespace Csqtt
namespace Turn
namespace NativeCore

open Stun

variable {prims : Primitives} {K : Bytes → Bytes → Prop} {c c' : NativeCore} {act : Act}

def Encodable (prims : Primitives) (c : NativeCore) : Prop :=
  ∀ operation transaction authenticated,
    c.buildRequest prims operation transaction authenticated ≠ .error .messageTooLarge

theorem Encodable.build (h : c.Encodable prims) (hc : c.HasCredentials)
    (operation : Operation) (transaction : TransactionId) :
    ∃ packet, c.buildRequest prims operation transaction true = .ok packet := by
  have hb := buildRequest_eq prims c operation transaction fun _ : true = true => hc.2.2
  split_ifs at hb
  · exact ⟨_, hb⟩
  · exact absurd hb (h operation transaction true)

theorem encodable_of_length_le (h : c.username.length + (c.realm.getD []).length +
    (c.nonce.getD []).length ≤ 65000) : c.Encodable prims := by
  intro operation transaction authenticated hb
  by_cases hk : authenticated = true → c.key.isSome
  · have hs : wireSize (c.requestAll prims operation transaction authenticated) < 2 ^ 16 := by
      have hbody := bodySize_le operation c.peer.family
      rw [wireSize_requestAll, wireSize_requestBefore]
      unfold credentialSize padded
      split_ifs <;> omega
    rw [buildRequest_eq prims c operation transaction hk, if_pos hs] at hb
    cases hb
  · obtain ⟨rfl, hn⟩ := Classical.not_imp.mp hk
    rw [buildRequest, Option.not_isSome_iff_eq_none.mp hn] at hb
    cases hb

def Returns (c : NativeCore) : Prop :=
  c.shuttingDown = true → c.destroyed = false → c.allocationExpiresAt.isSome →
    c.hasOperation .deallocate = true

theorem hasOperation_iff {operation : Operation} :
    c.hasOperation operation = true ↔ operation ∈ c.pending.map (·.operation) := by
  simp [hasOperation]

theorem Returns.of_frame (h : c.Returns) (hf : c'.frame = c.frame)
    (he : c'.allocationExpiresAt = c.allocationExpiresAt)
    (hp : ∀ operation ∈ c.pending.map (·.operation), operation ∈ c'.pending.map (·.operation)) :
    c'.Returns := by
  intro hs hd hsome
  rw [show c'.shuttingDown = c.shuttingDown from congrArg Frame.shuttingDown hf] at hs
  rw [show c'.destroyed = c.destroyed from congrArg Frame.destroyed hf] at hd
  rw [he] at hsome
  exact hasOperation_iff.mpr (hp _ (hasOperation_iff.mp (h hs hd hsome)))

theorem expires_launch (c : NativeCore) (operation : Operation) (authenticated : Bool)
    (nonceRetries : ℕ) (cause : Cause) (draw : Draw) (packet : Bytes) :
    (c.launch operation authenticated nonceRetries cause draw packet).allocationExpiresAt =
      c.allocationExpiresAt := by
  obtain ⟨controls, events, pending, requests, heq⟩ :=
    launch_eq c operation authenticated nonceRetries cause draw packet
  rw [heq]

theorem hasOperation_launch (c : NativeCore) (operation : Operation) (authenticated : Bool)
    (nonceRetries : ℕ) (cause : Cause) (draw : Draw) (packet : Bytes) :
    (c.launch operation authenticated nonceRetries cause draw packet).hasOperation operation =
      true := by
  simp [hasOperation, launch]

theorem Lodged.expires_eq_none (h : c.Lodged) (hshut : c.shuttingDown = false)
    (hr : c.state ≠ .ready) (hd : c.state = .destroying → c.allocationExpiresAt = none) :
    c.allocationExpiresAt = none := by
  by_contra hne
  obtain hs | hs | hs := h.expires (Option.isSome_iff_ne_none.mpr hne)
  · exact hr hs
  · exact absurd (hshut.symm.trans (h.returned hs)) (by decide)
  · exact hne (hd hs)

theorem Returns.move (h : c.Returns) (hphased : c.Phased) (hlodge : c.Lodged)
    (hmove : Move prims K c act c') (hact : act ≠ .stuck) : c'.Returns := by
  cases hmove with
  | settle hsettled =>
    by_cases hready : c.state = .ready
    · intro hshut
      rw [show c'.shuttingDown = c.shuttingDown from
        congrArg Frame.shuttingDown hsettled.frame] at hshut
      exact absurd hready (hphased.shut hshut)
    · refine h.of_frame hsettled.frame (hsettled.expires.resolve_right fun hr => hready hr.1) ?_
      rw [hsettled.kept.resolve_right hready]
      exact fun _ hmem => hmem
  | queue packet =>
    obtain ⟨controls, events, heq⟩ := queuePacket_eq c packet
    rw [heq]
    exact h
  | start =>
    refine h.of_frame (frame_launch ..) (expires_launch ..) fun op hop => ?_
    rw [launch, List.map_append]
    exact List.mem_append_left _ hop
  | resend index p now hp =>
    have hoperations := operations_retransmit hp now
    refine h.of_frame (frame_queueRequest c p.packet p.operation .again) ?_ ?_
    · obtain ⟨controls, events, pending, requests, heq⟩ := retransmit_eq c index p now
      rw [heq]
    · rw [hoperations]
      exact fun _ hmem => hmem
  | renew p realm nonce pending controls draw packet hp =>
    intro hshut hdestroy hsome
    obtain ⟨controls', events', pending', requests, heq⟩ :=
      launch_eq ((c.setAuth prims realm nonce).shed pending
      controls c.events) p.operation true (p.nonceRetries + 1) .renewal draw packet
    rw [heq] at hshut hdestroy hsome
    obtain ⟨q, hq, hoperation⟩ := List.mem_map.mp (hasOperation_iff.mp (h hshut hdestroy hsome))
    have hphase : p.operation.phase = Operation.deallocate.phase := by
      rw [← hoperation, ← hphased.phase p hp, hphased.phase q hq]
    rw [← operation_eq_of_phase hphase (fun heq => by cases heq)]
    exact hasOperation_launch ..
  | challenged => exact h
  | unbind _ _ hready => exact fun hshut => absurd hready (hphased.shut hshut)
  | begin _ _ _ hshut => exact fun hshut' => absurd (hshut.symm.trans hshut') (by decide)
  | obtain _ _ _ _ _ _ _ _ hshut =>
    exact fun hshut' => absurd (hshut.symm.trans hshut') (by decide)
  | yield => exact fun _ _ _ => hasOperation_launch ..
  | close _ _ hshut hready hdestroying =>
    intro _ _ hsome
    change c.allocationExpiresAt.isSome at hsome
    rw [hlodge.expires_eq_none hshut hready hdestroying] at hsome
    cases hsome
  | surrender => exact fun _ _ _ => hasOperation_launch ..
  | strand => exact absurd rfl hact
  | destroy => exact fun _ hdestroy => by cases hdestroy
  | ruin | release => exact fun _ _ hsome => by cases hsome

structure Closeable (c : NativeCore) : Prop where
  phased : c.Phased
  lodged : c.Lodged
  returns : c.Returns

theorem Closeable.step (h : c.Closeable) (he : c.Encodable prims) (input : Input) :
    (c.step prims input).Closeable := by
  obtain ⟨acts, htrace, ha⟩ := trace_step prims h.phased input (challenges_true c input)
  have hr : c.Returnable prims input := by
    cases input with
    | gracefulShutdown =>
      intro hall
      have hc : c.HasCredentials := by
        apply h.lodged.credentials
        obtain hready | ⟨-, hs⟩ := hall
        · exact (h.lodged.allocated hready).2
        · exact hs
      exact ⟨hc, he.build hc .deallocate _⟩
    | _ => trivial
  refine htrace.invariant_history (H := fun acts c => Act.stuck ∉ acts → c.Closeable)
    (fun acts d act d' hd hm hn => ?_) (fun _ => h) (ha hr)
  have hd := hd fun hmem => hn (List.mem_append_left _ hmem)
  have hact : act ≠ .stuck := fun heq =>
    hn (List.mem_append_right _ (heq ▸ List.mem_singleton_self _))
  exact ⟨hd.phased.move hm, hd.lodged.move hm,
    hd.returns.move hd.phased hd.lodged hm hact⟩

theorem Initial.closeable (h : c.Initial) : c.Closeable := by
  refine ⟨h.phased, h.lodged, fun hs => ?_⟩
  rw [h.shut] at hs
  cases hs

/-- As long as requests can be encoded, a core that is shutting down, not destroyed and has an
expiry has a Deallocate pending, in every state of every run. -/
theorem deallocation_pending (prims : Primitives) (server peer : SocketAddr)
    (username password : Bytes) (profile : CsqttTurnProfile) (transport : TurnControlTransport)
    (start : NativeCore)
    (hcreate : create server username password peer profile transport = .ok start)
    (inputs : List Input)
    (hencodable : Runs.Along (step prims) (fun c _ => c.Encodable prims) start inputs) :
    Runs.Always (step prims) (fun c => c.shuttingDown = true → c.destroyed = false →
      c.allocationExpiresAt.isSome → ∃ p ∈ c.pending, p.operation = .deallocate) start inputs := by
  have hr : Runs.Always (step prims) Closeable start inputs :=
    Runs.always_invariant (fun _ input hc hencodable => hc.step hencodable input)
      (initial_create hcreate).closeable hencodable
  refine Runs.always_mono (fun c hc hs hd hsome => ?_) hr
  obtain ⟨p, hp, ho⟩ := List.mem_map.mp (hasOperation_iff.mp (hc.returns hs hd hsome))
  exact ⟨p, hp, ho⟩

/-- A shutdown while the Allocate is in flight, and its answer. -/
theorem deallocation_pending_late :
    let inputs := Recorded.inputs ++ [.gracefulShutdown (Recorded.io Recorded.first 2),
      Input.inputStun Recorded.success (Recorded.io Recorded.first 3)]
    let c := inputs.foldl (step Recorded.primitives) Recorded.start
    (c.shuttingDown = true ∧ c.destroyed = false ∧ c.allocationExpiresAt.isSome) ∧
      ∃ p ∈ c.pending, p.operation = .deallocate := by
  intro inputs c
  have hs : c.shuttingDown = true ∧ c.destroyed = false ∧ c.allocationExpiresAt.isSome := by
    decide +kernel
  have hshort : Runs.Along (step Recorded.primitives) (fun c _ => c.username.length +
      (c.realm.getD []).length + (c.nonce.getD []).length ≤ 65000) Recorded.start inputs := by
    decide +kernel
  have hr := deallocation_pending Recorded.primitives (Recorded.localhost 3478)
    (Recorded.localhost 9000) Recorded.user Recorded.pass .pjnathCompat .datagram
    Recorded.start (by rfl)
    inputs (Runs.along_mono (fun _ _ => encodable_of_length_le) hshort)
  exact ⟨hs, Runs.always_iff_take.mp hr inputs.length hs.1 hs.2.1 hs.2.2⟩

end NativeCore
end Turn
end Csqtt
