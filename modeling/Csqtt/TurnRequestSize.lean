import Csqtt.TurnInvariants
import Csqtt.TurnRequests

/-!
# Requests and the buffer they are pulled into

A request carries the username of the core and the realm and the nonce of the last challenge, and
nothing limits their sum before it is queued; `pull_control` then fails for a packet of more than
1024 bytes. It does not if every challenge that is answered leaves room for the largest request.
-/

namespace Csqtt
namespace Turn

open Stun

/-- The largest of the bodies: that of an Allocate, or of a ChannelBind to an address of version 6.
-/
def largestBody : Family → ℕ
  | .v4 => 24
  | .v6 => 32

namespace NativeCore

variable {prims : Primitives} {c c' : NativeCore} {act : Act} {username : Bytes} {peer : SocketAddr}

theorem bodySize_le_largestBody (operation : Operation) (family : Family) :
    bodySize operation family ≤ largestBody family := by
  cases operation <;> cases family <;> decide

def Fits (username : Bytes) (family : Family) (realm nonce : Bytes) : Prop :=
  28 + largestBody family + credentialSize username realm nonce + 24 ≤ pullBufferSize

instance (username : Bytes) (family : Family) (realm nonce : Bytes) :
    Decidable (Fits username family realm nonce) := inferInstanceAs (Decidable (_ ≤ _))

structure Slim (username : Bytes) (peer : SocketAddr) (c : NativeCore) : Prop where
  user : c.username = username
  target : c.peer = peer
  credentials : ∀ realm nonce, c.realm = some realm → c.nonce = some nonce →
    Fits username peer.family realm nonce
  controls : ∀ control ∈ c.controls, control.packet.length ≤ pullBufferSize
  pending : ∀ p ∈ c.pending, p.packet.length ≤ pullBufferSize

variable {packet realm nonce : Bytes}

theorem Slim.length_le (h : c.Slim username peer) {operation : Operation}
    {transaction : TransactionId} {authenticated : Bool}
    (hc : authenticated = true → c.HasCredentials)
    (hb : c.buildRequest prims operation transaction authenticated = .ok packet) :
    packet.length ≤ pullBufferSize := by
  have hl := length_request hb
  have hbody := bodySize_le_largestBody operation c.peer.family
  rw [h.target] at hl hbody
  cases authenticated with
  | false =>
    have hlargest : largestBody peer.family ≤ 32 := by cases peer.family <;> decide
    have hbuffer : pullBufferSize = 1024 := rfl
    simp only [Bool.false_eq_true, if_false] at hl
    omega
  | true =>
    obtain ⟨hr, hn, -⟩ := hc rfl
    obtain ⟨realm, hr⟩ := Option.isSome_iff_exists.mp hr
    obtain ⟨nonce, hn⟩ := Option.isSome_iff_exists.mp hn
    have hf := h.credentials realm nonce hr hn
    rw [if_pos rfl, h.user, hr, hn, Option.getD_some, Option.getD_some] at hl
    unfold Fits at hf
    omega

theorem mem_queuePacket {control : Control} (h : control ∈ (c.queuePacket packet).controls) :
    control ∈ c.controls ∨ control.packet = packet := by
  unfold queuePacket at h
  split_ifs at h
  · obtain h | h := List.mem_append.mp h
    · exact .inl (List.mem_of_mem_drop h)
    · exact .inr (congrArg Control.packet (List.mem_singleton.mp h))
  · obtain h | h := List.mem_append.mp h
    · exact .inl h
    · exact .inr (congrArg Control.packet (List.mem_singleton.mp h))

section

variable (h : c.Slim username peer)
include h

theorem Slim.of_frame (hf : c'.frame = c.frame)
    (hc : ∀ control ∈ c'.controls, control.packet.length ≤ pullBufferSize)
    (hp : ∀ p ∈ c'.pending, p.packet.length ≤ pullBufferSize) : c'.Slim username peer := by
  refine ⟨(congrArg Frame.username hf).trans h.user,
    (congrArg Frame.peer hf).trans h.target, fun realm nonce hr hn => ?_, hc, hp⟩
  exact h.credentials realm nonce ((congrArg Frame.realm hf).symm.trans hr)
    ((congrArg Frame.nonce hf).symm.trans hn)

theorem Slim.of_shorter (hu : c'.username = c.username) (hp : c'.peer = c.peer)
    (hrealm : c'.realm = c.realm) (hno : c'.nonce = c.nonce)
    (hc : ∀ control ∈ c'.controls, control ∈ c.controls) (hpend : ∀ p ∈ c'.pending, p ∈ c.pending) :
    c'.Slim username peer where
  user := hu.trans h.user
  target := hp.trans h.target
  credentials realm nonce hr hn :=
    h.credentials realm nonce (hrealm.symm.trans hr) (hno.symm.trans hn)
  controls control hm := h.controls control (hc control hm)
  pending p hm := h.pending p (hpend p hm)

theorem Slim.queued (hp : packet.length ≤ pullBufferSize) :
    ∀ control ∈ (c.queuePacket packet).controls, control.packet.length ≤ pullBufferSize := by
  intro control hm
  obtain hm | heq := mem_queuePacket hm
  · exact h.controls control hm
  · rwa [heq]

theorem Slim.launch (hpacket : packet.length ≤ pullBufferSize) (operation : Operation)
    (authenticated : Bool) (nonceRetries : ℕ) (cause : Cause) (draw : Draw) :
    (c.launch operation authenticated nonceRetries cause draw packet).Slim username peer := by
  refine h.of_frame (frame_launch ..) (h.queued hpacket) fun p hp => ?_
  obtain hp | hp := List.mem_append.mp hp
  · exact h.pending p hp
  · rwa [List.mem_singleton.mp hp]

theorem Slim.setAuth (hf : Fits username peer.family realm nonce) :
    (c.setAuth prims realm nonce).Slim username peer where
  user := h.user
  target := h.target
  credentials _ _ hr hn := by
    cases hr
    cases hn
    exact hf
  controls := h.controls
  pending := h.pending

theorem Slim.move (hmove : Move prims (Fits username peer.family) c act c') :
    c'.Slim username peer := by
  have hnone : ∀ p ∈ ([] : List Pending), p ∈ c.pending := fun p hp => absurd hp List.not_mem_nil
  have hempty : ∀ control ∈ ([] : List Control), control ∈ c.controls :=
    fun control hmem => absurd hmem List.not_mem_nil
  cases hmove with
  | settle hsettled =>
    exact h.of_frame hsettled.frame
      (fun control hmem => h.controls control (hsettled.controls.subset hmem))
      (fun p hp => h.pending p (hsettled.pending.subset hp))
  | queue packet hpacket =>
    have hlen : packet.length ≤ pullBufferSize := by
      obtain height | ⟨p, hp, -, rfl⟩ := hpacket
      · rw [height]
        decide
      · exact h.pending p hp
    refine h.of_frame (frame_queuePacket c packet) (h.queued hlen) ?_
    rw [pending_queuePacket]
    exact h.pending
  | start operation authenticated draw _ _ hcred _ _ _ hbuild =>
    exact h.launch (h.length_le hcred hbuild) operation authenticated 0 .start draw
  | resend _ p _ hp =>
    have hlen := h.pending p (List.mem_of_getElem? hp)
    refine h.of_frame (frame_queueRequest c p.packet p.operation .again) (h.queued hlen)
      fun q hq => ?_
    obtain hq | rfl := mem_retransmit hq
    · exact h.pending q hq
    · exact hlen
  | renew p realm nonce pending controls draw _ _ _ hfits hpend _ hcontrols hbuild =>
    have hauth : (c.setAuth prims realm nonce).Slim username peer := h.setAuth hfits
    have hshed : ((c.setAuth prims realm nonce).shed pending controls c.events).Slim
      username peer :=
      hauth.of_shorter rfl rfl rfl rfl (fun _ hmem => hcontrols.subset hmem)
        (fun _ hmem => hpend.subset hmem)
    exact hshed.launch (hauth.length_le (fun _ => ⟨rfl, rfl, rfl⟩) hbuild) p.operation true
      (p.nonceRetries + 1) .renewal draw
  | challenged _ _ hfits => exact h.setAuth hfits
  | begin => exact h.of_shorter rfl rfl rfl rfl (fun _ hmem => hmem) (fun _ hmem => hmem)
  | obtain _ _ _ _ _ _ hcontrols =>
    exact h.of_shorter rfl rfl rfl rfl (fun _ hmem => hcontrols.subset hmem) hnone
  | yield relay returned now controls events draw _ _ hcontrols _ _ hcred hbuild =>
    have hlodge : (c.lodged .deallocating relay returned now controls events).Slim username peer :=
      h.of_shorter rfl rfl rfl rfl (fun _ hmem => hcontrols.subset hmem) hnone
    exact hlodge.launch (h.length_le (fun _ => hcred) hbuild) .deallocate true 0 .start draw
  | release _ _ _ hcontrols =>
    exact h.of_shorter rfl rfl rfl rfl (fun _ hmem => hcontrols.subset hmem) hnone
  | close _ hpend =>
    exact h.of_shorter rfl rfl rfl rfl hempty (fun _ hmem => hpend.subset hmem)
  | surrender events draw _ _ hcred hbuild =>
    have hsurrender : (c.surrendered events).Slim username peer :=
      h.of_shorter rfl rfl rfl rfl hempty hnone
    exact hsurrender.launch (h.length_le (fun _ => hcred) hbuild) .deallocate true 0 .start draw
  | _ => exact h.of_shorter rfl rfl rfl rfl hempty hnone

end

theorem slim_step (hp : c.Phased) (h : c.Slim username peer) (input : Input)
    (hchunk : c.Challenges (Fits username peer.family) input) :
    (c.step prims input).Phased ∧ (c.step prims input).Slim username peer := by
  obtain ⟨acts, htrace, -⟩ := trace_step prims hp input hchunk
  exact htrace.invariant (I := fun c => c.Phased ∧ c.Slim username peer)
    (fun _ _ _ hc hm => ⟨hc.1.move hm, hc.2.move hm⟩) ⟨hp, h⟩

theorem pullControl_ne_error (h : ∀ control ∈ c.controls, control.packet.length ≤ pullBufferSize)
    (e : TurnError) : c.pullControl.2 ≠ .error e := by
  unfold pullControl
  split
  · nofun
  · rename_i control controls heq
    have hle : control.packet.length ≤ pullBufferSize := by
      apply h
      rw [heq]
      exact List.mem_cons_self
    rw [if_neg (Nat.not_lt.mpr hle)]
    nofun

/-- If every challenge that answers a request leaves room for the largest request, then in every
state of the run each queued packet is at most 1024 bytes long and pulling does not fail. -/
theorem requests_fit_buffer (prims : Primitives) (server peer : SocketAddr)
    (username password : Bytes) (profile : CsqttTurnProfile) (transport : TurnControlTransport)
    (start : NativeCore)
    (hcreate : create server username password peer profile transport = .ok start)
    (inputs : List Input)
    (hfits : Runs.Along (step prims) (Challenges (Fits username peer.family)) start inputs) :
    Runs.Always (step prims) (fun c => (∀ control ∈ c.controls, control.packet.length ≤ 1024) ∧
      ∀ e, c.pullControl.2 ≠ .error e) start inputs := by
  have hin := initial_create hcreate
  have hs : start.Slim username peer := by
    unfold create at hcreate
    split_ifs at hcreate
    cases hcreate
    exact ⟨rfl, rfl, nofun, nofun, nofun⟩
  have hr : Runs.Always (step prims) (fun c => c.Phased ∧ c.Slim username peer) start inputs :=
    Runs.always_invariant (fun _ input hc hip => slim_step hc.1 hc.2 input hip)
      ⟨hin.phased, hs⟩ hfits
  exact Runs.always_mono (fun c hc => ⟨hc.2.controls, pullControl_ne_error hc.2.controls⟩) hr

theorem challenges_of_decode {K : Bytes → Bytes → Prop} {m : Message} {io : TurnIo}
    (hd : Message.decode packet = .ok m)
    (h : ∀ realm nonce, c.challenge m ((errorCode m).getD 0) = some (realm, nonce) →
      K realm nonce) :
    c.Challenges K (.inputStun packet io) := by
  intro m' realm nonce hd' _ _ hc
  rw [hd, Except.ok.injEq] at hd'
  subst hd'
  exact h realm nonce hc

def challengeMessage : Message :=
  (Message.decode Recorded.challenge).toOption.get (by decide +kernel)

/-- A challenge with a short realm and a short nonce. -/
theorem requests_fit_buffer_recorded : Runs.Always (step Recorded.primitives)
      (fun c => (∀ control ∈ c.controls, control.packet.length ≤ 1024) ∧
        ∀ e, c.pullControl.2 ≠ .error e) Recorded.start Recorded.inputs := by
  have hd : Message.decode Recorded.challenge = .ok challengeMessage := by decide +kernel
  refine requests_fit_buffer Recorded.primitives (Recorded.localhost 3478) (Recorded.localhost 9000)
    Recorded.user Recorded.pass .pjnathCompat .datagram Recorded.start (by rfl) Recorded.inputs
    ⟨trivial, challenges_of_decode hd fun realm nonce hc => ?_, trivial⟩
  have hr : (Recorded.start.step Recorded.primitives
      (.startAllocation (Recorded.io Recorded.first 0))).challenge challengeMessage
        ((errorCode challengeMessage).getD 0) = some (Recorded.realm, Recorded.nonce) := by
    decide +kernel
  rw [hr, Option.some.injEq, Prod.mk.injEq] at hc
  rw [← hc.1, ← hc.2]
  decide

theorem pullControl_of_lt {control : Control} {controls : List Control}
    (hc : c.controls = control :: controls) (hl : pullBufferSize < control.packet.length) :
    c.pullControl.2 = .error (.refused "TURN control dequeue" resultBufferTooSmall) := by
  rw [pullControl, hc]
  exact if_pos hl

def wordyChallenge : Bytes :=
  ((((MessageBuilder.withTransaction 0x0113 Recorded.first).push attrErrorCode [0, 0, 4, 1]).push
    attrRealm (List.replicate 200 0x72)).push attrNonce (List.replicate 763 0x6e) |>.finish
      Recorded.primitives).toOption.getD []

def overfull : NativeCore :=
  [Input.startAllocation (Recorded.io Recorded.first 0),
    .inputStun wordyChallenge (Recorded.io Recorded.second 1)].foldl (step Recorded.primitives)
      Recorded.start

/-- The core answers the challenge with a request that cannot be pulled. -/
theorem request_exceeds_buffer : overfull.controls.map (·.packet.length) = [1056] ∧
      overfull.pullControl.2 = .error (.refused "TURN control dequeue" resultBufferTooSmall) := by
  have hl : overfull.controls.map (·.packet.length) = [1056] := by decide +kernel
  refine ⟨hl, ?_⟩
  cases hc : overfull.controls with
  | nil =>
    rw [hc] at hl
    cases hl
  | cons =>
    rw [hc, List.map_cons, List.cons.injEq] at hl
    refine pullControl_of_lt hc ?_
    rw [hl.1]
    decide

end NativeCore
end Turn
end Csqtt
