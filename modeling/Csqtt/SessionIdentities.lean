import Csqtt.ConfigRequest
import Csqtt.ServerTasks

/-!
# The identity of a session in the control plane

What the control plane does for a GETCONF it does under the identity of the session that the
GETCONF came on, and no step of the control plane or of the engine renames a session. This holds
for every interleaving.
-/

namespace Csqtt

def Op.Named (e : Engine) (id : ℕ) : Op → Prop
  | .acquire first => first.Named e id
  | .payload plain => ∀ identity, parseGetconfEpoch plain = some identity → e.IdentityOf id identity
  | .preliminary r => e.IdentityOf id r.identity
  | .pickEpoch r => e.IdentityOf id r.identity
  | .freshEpoch r => e.IdentityOf id r.identity
  | .insertEpoch r _ _ => e.IdentityOf id r.identity
  | .lockEpoch r _ _ => e.IdentityOf id r.identity
  | .checkEpoch r _ _ => e.IdentityOf id r.identity
  | .admitRequest r _ _ => e.IdentityOf id r.identity
  | .setPublicEpoch identity => e.IdentityOf id identity
  | .purgeStale identity => e.IdentityOf id identity
  | .commit r _ => e.IdentityOf id r.identity
  | .resolveIp identity _ => e.IdentityOf id identity
  | .send command _ => command.Named e
  | _ => True

namespace Op

variable {e e' : Engine} {id : ℕ} {op : Op}

theorem Named.mono {A : ℕ → Ipv4 → Prop} (h : op.Named e id) (hr : e.Recalls A e') :
    op.Named e' id := by
  induction op with
  | acquire _ ih => exact ih h
  | payload => exact fun identity hp => hr.identity _ _ (h identity hp)
  | send => exact Command.Named.mono h hr
  | preliminary | pickEpoch | freshEpoch | insertEpoch | lockEpoch | checkEpoch | admitRequest
  | setPublicEpoch identity | purgeStale identity | commit | resolveIp identity =>
    exact hr.identity _ _ h
  | _ => exact True.intro

theorem Named.request {r : GetconfRequest} (h : op.Named e id) (hr : op.request? = some r) :
    e.IdentityOf id r.identity := by
  cases op with
  | preliminary | pickEpoch | freshEpoch | insertEpoch | lockEpoch | checkEpoch | admitRequest =>
    cases hr; exact h
  | _ => cases hr

theorem Named.of_isPlain (h : op.isPlain = true) : op.Named e id := by
  cases op with
  | send command =>
    cases command with
    | updateEpoch => cases h
    | _ => exact True.intro
  | forget | closeStreams | prune | forgetPassword | dropAll | buildCredentials | sweepEpochs =>
    exact True.intro
  | _ => cases h

end Op

namespace World

variable {cfg : ControlConfig} {w : World} {t : Task} {op o : Op} {io : TaskIo}

theorem named_of_follows (hop : op.Named w.engine t.session) (h : Follows cfg w t op io o) :
    o.Named w.engine t.session := by
  have hadmits : ∀ {r : GetconfRequest} {slot : ℕ} {created : Bool},
      op = .admitRequest r slot created → w.engine.IdentityOf t.session r.identity := by
    rintro r slot created rfl
    exact hop
  cases o with
  | preliminary r =>
    obtain rfl | ⟨payload, text, p, rfl, -, htext, hr⟩ := h
    · exact hop
    · exact hop r.identity (parseGetconfEpoch_of_parseGetconf htext hr)
  | pickEpoch | freshEpoch | insertEpoch => exact hop.request h
  | lockEpoch | checkEpoch | admitRequest => exact hop.request h.1
  | setPublicEpoch =>
    obtain ⟨r, slot, created, heq, rfl⟩ := h
    exact hadmits heq
  | purgeStale =>
    obtain ⟨r, slot, created, heq, rfl, -⟩ := h
    exact hadmits heq
  | commit =>
    obtain ⟨slot, created, heq, -⟩ := h
    exact hadmits heq
  | resolveIp =>
    obtain rfl | ⟨-, hid⟩ := h
    · exact hop
    · exact hid
  | send command =>
    cases command with
    | updateEpoch =>
      obtain ⟨rfl, r, access, rfl, rfl⟩ := h
      exact hop
    | _ => exact True.intro
  | acquire =>
    cases h
    exact hop
  | payload => cases h
  | _ => exact True.intro

structure Named (w : World) : Prop extends
    Carries (·.Named w.engine) (fun id op => op.Named w.engine id) w where
  engine : w.engine.Named
  recover : w.Recovers

inductive Gives (w : World) : Input → ℕ → Ipv4 → Prop
  | task {i : ℕ} {io : TaskIo} {t : Task} {ip : Ipv4} {ops : List Op} : w.tasks[i]? = some t →
      t.ops = .storeTunnelIp ip :: ops → Gives w (.task i io) t.session ip
  | command {io : Engine.CommandIo} {id : ℕ} {ip : Ipv4} {registrationId workerId desiredCount : ℕ}
      {commands : List Command} :
      w.commands = .activateTunnel id ip registrationId workerId desiredCount :: commands →
      Gives w (.command io) id ip

theorem named_effects (hw : w.Named) (hop : op.Named w.engine t.session) {w' : World}
    (h : Effects cfg w t op w') {A : ℕ → Ipv4 → Prop}
    (hA : ∀ ip, op = .storeTunnelIp ip → A t.session ip) :
    w'.engine.Named ∧ w.engine.Recalls A w'.engine := by
  obtain heq | ⟨f, hf, heq⟩ | ⟨credentials, -, heq⟩ := h.engine
  · rw [heq]
    exact ⟨hw.engine, .refl _⟩
  · rw [heq]
    refine hw.engine.updatePublic _ f (fun p hp => ?_) (fun p ip hip => ?_)
    · obtain hs | hset := (Op.name_update? hf p).1
      · exact hs
      · rw [hset] at hop
        exact hop.unique ⟨p, hp, rfl⟩
    · obtain hs | ⟨ip', hset, hn⟩ := (Op.name_update? hf p).2
      · exact .inl (hs ▸ hip)
      · cases hn.symm.trans hip
        exact .inr (hA ip hset)
  · rw [heq]
    exact ⟨⟨⟨hw.engine.indexed.byId, hw.engine.indexed.below⟩, hw.engine.publics, hw.engine.hot,
      hw.engine.events⟩, .of_names fun _ => rfl⟩

variable (cfg)

section

variable (hw : w.Named)
include hw

theorem recalls_turn {w' : World} {i : ℕ} (h : Turn cfg w i io w') :
    w'.engine.Named ∧ w.engine.Recalls (w.Gives (.task i io)) w'.engine := by
  cases h with
  | idle | ended => exact ⟨hw.engine, .refl _⟩
  | ran t op ops ht ho =>
    have hop := hw.tasks t (List.mem_of_getElem? ht) op (ho ▸ List.mem_cons_self)
    have hg : ∀ ip, op = .storeTunnelIp ip → w.Gives (.task i io) t.session ip :=
      fun ip hip => .task ht (hip ▸ ho)
    exact named_effects hw (t := { t with ops }) hop (effects_exec cfg w { t with ops } io op)
      hg

theorem recalls_engineStep {input : Input} {e : Engine} (h : EngineStep cfg w input e) :
    e.Named ∧ w.engine.Recalls (w.Gives input) e := by
  cases h with
  | same => exact ⟨hw.engine, .refl _⟩
  | routine h =>
    exact hw.engine.routine (h (Engine.keeps_routine cfg.server))
      (h (Engine.sameNames_routine cfg.server)) _
  | udp endpoint wire io => exact hw.engine.onUdp cfg.server endpoint wire io _
  | restart wallNow => exact hw.engine.restart wallNow _
  | command hc io =>
    exact hw.engine.onCommand cfg.server (hw.commands _ (hc ▸ List.mem_cons_self)) io
      (fun id ip registrationId workerId desiredCount heq => .command (heq ▸ hc))
  | taken he =>
    refine ⟨⟨⟨hw.engine.indexed.byId, hw.engine.indexed.below⟩, hw.engine.publics, hw.engine.hot,
      fun x hx => ?_⟩, .of_names fun _ => rfl⟩
    exact hw.engine.events x (he ▸ List.mem_cons_of_mem _ hx)

/-- No step renames a session, and addresses are given only as `Gives` says. -/
theorem recalls_step (input : Input) : (w.step cfg input).engine.Named ∧
    w.engine.Recalls (w.Gives input) (w.step cfg input).engine := by
  obtain ⟨i, io, rfl, ht⟩ | hb := step_cases cfg w input
  · exact recalls_turn cfg hw ht
  · exact recalls_engineStep cfg hw hb.engine

theorem named_of_started {input : Input} (h : w.Started input t) :
    ∀ op ∈ t.ops, op.isPlain = true ∨ op.Named w.engine t.session := by
  intro op hop
  obtain hp | ⟨rfl, -⟩ | ⟨address, plain, rfl, he⟩ | ⟨plain, rfl⟩ := h.ops hop
  · exact .inl hp
  · exact .inr True.intro
  · exact .inr (hw.engine.events _ he)
  · exact .inr True.intro

theorem Named.step (input : Input) : (w.step cfg input).Named := by
  obtain ⟨he, hr⟩ := recalls_step cfg hw input
  refine ⟨hw.toCarries.step hw.recover (fun _ hc => hc.mono hr) (fun _ _ hop => hop.mono hr)
    (fun _ _ => True.intro) (fun _ _ => .of_isPlain) (fun _ _ _ hop => Command.Named.mono hop hr)
    (fun _ _ hop => Op.Named.mono hop hr) (fun i io t op ops _ _ _ hop o ho => ?_)
      (fun t ht op hop => ?_),
    he, hw.recover.step input⟩
  · exact (named_of_follows (t := { t with ops }) hop ho).mono hr
  · exact (named_of_started hw ht op hop).imp_right fun hn => hn.mono hr

end

theorem named_start (credentials : List Credential) (db : Database) (wallNow : ℕ) :
    (World.start credentials db wallNow).Named := by
  refine ⟨⟨?_, ?_⟩, Engine.named_start credentials wallNow, ?_⟩
  · rintro c ⟨⟩
  · rintro t ⟨⟩
  · rintro t ⟨⟩

end World
end Csqtt
