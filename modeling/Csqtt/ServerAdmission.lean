import Csqtt.ServerJustified

/-!
# Tunnels only after an accepted GETCONF

What a session may do once a GETCONF of it has been accepted, and never before: write to the TUN and
open proxied streams. The sessions that everything is justified by are those with a request accepted
in an earlier step of the run.
-/

namespace Csqtt

variable {A A' : ℕ → Prop}

namespace World

def AcceptsGetconf (w : World) (input : Input) (sessionId : ℕ) : Prop :=
  ∃ i io t r slot created ops, input = .task i io ∧ w.tasks[i]? = some t ∧ t.session = sessionId ∧
    t.ops = .admitRequest r slot created :: ops ∧ w.Accepts io sessionId r slot

/-- What a step leads to: everything is justified by `A'`, and only sessions in `A` write to the TUN
and open streams. -/
structure Steps (A A' : ℕ → Prop) (w w' : World) : Prop where
  world : w'.Justified A'
  written : ∃ new, w'.engine.written = w.engine.written ++ new ∧ ∀ x ∈ new, A x.1
  started : ∃ new, w'.proxies.started = w.proxies.started ++ new ∧ ∀ key ∈ new, A key.1

section

variable (cfg : ControlConfig) {w : World}

theorem Justified.turn (hw : w.Justified A) {w' : World} {i : ℕ} {io : TaskIo}
    (h : Turn cfg w i io w') : w'.engine.Entitled A ∧ Engine.Writes A w.engine w'.engine ∧
      KeepsSlots w w' ∧ ∃ new, w'.proxies.started = w.proxies.started ++ new ∧
        ∀ key ∈ new, A key.1 := by
  have hn : ∃ new, w.proxies.started = w.proxies.started ++ new ∧ ∀ key ∈ new, A key.1 :=
    ⟨[], (List.append_nil _).symm, by simp⟩
  cases h with
  | idle | ended => exact ⟨hw.engine, .of_eq rfl rfl, .of_eq rfl rfl, hn⟩
  | ran t op ops ht ho =>
    have hop := hw.tasks t (List.mem_of_getElem? ht) op (ho ▸ List.mem_cons_self)
    have he := effects_exec cfg w { t with ops } io op
    obtain ⟨hentitled, hwrite⟩ := hw.effects cfg (t := { t with ops }) hop he
    obtain ⟨new, hne, hk⟩ := he.started
    refine ⟨hentitled, hwrite, ⟨he.slots.slots, he.slots.slotted⟩, new, hne,
      fun key hkey => ?_⟩
    obtain ⟨hs, payload, rfl⟩ := hk key hkey
    exact hs ▸ hop

theorem Justified.engineStep (hw : w.Justified A) {input : Input} {e : Engine}
    (h : EngineStep cfg w input e) : e.Entitled A ∧ Engine.Writes A w.engine e := by
  cases h with
  | same => exact ⟨hw.engine, .of_eq rfl rfl⟩
  | routine hr => exact hw.engine.keeps (hr (Engine.keeps_routine cfg.server))
  | udp endpoint wire io => exact hw.engine.onUdp cfg.server endpoint wire io
  | restart wallNow => exact hw.engine.restart wallNow
  | command hc io =>
    exact hw.engine.onCommand cfg.server (hw.commands _ (hc ▸ List.mem_cons_self)) io
  | taken => exact hw.engine.keeps (.of_eq ⟨rfl, rfl, rfl, rfl, rfl⟩)

/-- A step of the world: what is justified stays so, given the requests accepted in the step. -/
theorem step_justified (hw : w.Justified A) (hA : ∀ id, A id → A' id) (input : Input)
    (ha : ∀ id, w.AcceptsGetconf input id → A' id) : Steps A A' w (w.step cfg input) := by
  have hengine : (w.step cfg input).engine.Entitled A ∧
      Engine.Writes A w.engine (w.step cfg input).engine ∧ KeepsSlots w (w.step cfg input) ∧
      ∃ new, (w.step cfg input).proxies.started = w.proxies.started ++ new ∧
        ∀ key ∈ new, A key.1 := by
    obtain ⟨i, io, rfl, hturn⟩ | hb := step_cases cfg w input
    · exact hw.turn cfg hturn
    · obtain ⟨he, hwrite⟩ := hw.engineStep cfg hb.engine
      exact ⟨he, hwrite, hb.slots, [], by rw [hb.started, List.append_nil], by simp⟩
  obtain ⟨he, hwrite, hslot, hstart⟩ := hengine
  have hs : w.Stays (w.step cfg input) := ⟨hwrite.passwords, hslot.slots⟩
  have hslotted := hslot.slotted hw.slotted
  refine ⟨⟨?_, he.mono hA, hw.recovers.step input, hslotted⟩, hwrite.written, hstart⟩
  refine hw.toCarries.step hw.recovers (fun _ hc => hc.mono hA) (fun _ _ hop => hop.mono hA hs)
    (fun _ _ => trivial) (fun _ _ => Op.justified_of_isPlain)
    (fun _ _ _ hop => Command.Entitled.mono hop hA) (fun _ _ hop => Op.Justified.mono hop hA hs)
    (fun i io t op ops hin ht hops hop o ho => ?_) (fun _ ht => justified_of_started ht)
  refine justified_of_follows cfg (t := { t with ops }) hw hA hop hs hslotted ?_ ?_ ho
  · rw [hin, step, (turn_runTask cfg w i io).eq_of_ran ht hops]
  · rintro r slot created rfl hacc
    exact ha t.session ⟨i, io, t, r, slot, created, ops, hin, ht, rfl, hops, hacc⟩

theorem start_justified (A : ℕ → Prop) (credentials : List Credential) (db : Database)
    (wallNow : ℕ) : (start credentials db wallNow).Justified A where
  engine :=
    { indexed := Engine.indexed_of_empty rfl rfl
      below := fun _ _ hp => by cases hp
      published := fun _ _ hp => by cases hp
      registered := fun slot s hs => by
        cases hs }
  commands _ h := by cases h
  tasks _ h := by cases h
  recovers _ h := by cases h
  slotted deviceId slot h := by
    cases h

def Accepted (w : World) (inputs : List Input) (sessionId : ℕ) : Prop :=
  ∃ k input, inputs[k]? = some input ∧
    ((inputs.take k).foldl (step cfg) w).AcceptsGetconf input sessionId

theorem Accepted.append {inputs : List Input} {id : ℕ} (h : Accepted cfg w inputs id)
    (input : Input) : Accepted cfg w (inputs ++ [input]) id := by
  obtain ⟨k, i, hk, ha⟩ := h
  have hlt := (List.getElem?_eq_some_iff.mp hk).1
  refine ⟨k, i, by rw [List.getElem?_append_left hlt, hk], ?_⟩
  rw [List.take_append_of_le_length hlt.le]
  exact ha

theorem accepted_last {inputs : List Input} {input : Input} {id : ℕ}
    (h : (inputs.foldl (step cfg) w).AcceptsGetconf input id) :
    Accepted cfg w (inputs ++ [input]) id :=
  ⟨inputs.length, input, List.getElem?_concat_length, by rw [List.take_left]; exact h⟩

theorem run_justified (credentials : List Credential) (db : Database) (wallNow : ℕ)
    (inputs : List Input) : (inputs.foldl (step cfg) (start credentials db wallNow)).Justified
      (Accepted cfg (start credentials db wallNow) inputs) := by
  refine (Runs.invariant_history (Q := fun _ _ => True)
    (H := fun is w => w = is.foldl (step cfg) (start credentials db wallNow) ∧
      w.Justified (Accepted cfg (start credentials db wallNow) is)) ?_ ?_ ?_).2
  · rintro is w input ⟨rfl, hj⟩ _
    refine ⟨by rw [List.foldl_append, List.foldl_cons, List.foldl_nil], ?_⟩
    exact (step_justified cfg hj (fun _ h => h.append cfg input) input
      fun _ h => accepted_last cfg h).world
  · exact ⟨rfl, start_justified _ credentials db wallNow⟩
  · exact Runs.along_of_forall fun _ _ => trivial

/-- In every run, what a step writes to the TUN and the streams that it opens are of sessions for
which a GETCONF was accepted in an earlier step. -/
theorem tunnel_only_after_getconf (credentials : List Credential) (db : Database) (wallNow : ℕ)
    (inputs : List Input) (input : Input) :
    (∃ new, ((inputs ++ [input]).foldl (step cfg) (start credentials db wallNow)).engine.written =
        (inputs.foldl (step cfg) (start credentials db wallNow)).engine.written ++ new ∧
      ∀ x ∈ new, Accepted cfg (start credentials db wallNow) inputs x.1) ∧
    ∃ new, ((inputs ++ [input]).foldl (step cfg) (start credentials db wallNow)).proxies.started =
        (inputs.foldl (step cfg) (start credentials db wallNow)).proxies.started ++ new ∧
      ∀ key ∈ new, Accepted cfg (start credentials db wallNow) inputs key.1 := by
  have hs := step_justified cfg (run_justified cfg credentials db wallNow inputs)
    (fun _ h => h.append cfg input) input fun _ h => accepted_last cfg h
  rw [List.foldl_append, List.foldl_cons]
  exact ⟨hs.written, hs.started⟩

end
end World
end Csqtt
