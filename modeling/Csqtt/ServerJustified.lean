import Csqtt.ServerEntitled
import Csqtt.ServerTasks

/-!
# What justifies an operation of a task

That a session is entitled to a tunnel is kept in several places: its public part, its
registration, the commands on their way and the operations of the tasks. `Justified` says that all
of them belong to a given set of sessions; a turn of a task keeps this, if the set contains the
session whose request it accepts.
-/

namespace Csqtt

variable {A A' : ℕ → Prop} {r : GetconfRequest}

namespace World

def Asked (w : World) (sessionId : ℕ) (r : GetconfRequest) : Prop :=
  ∃ p text, w.session sessionId = some p ∧ parseGetconf p.password text = .ok r

/-- The request is accepted: its password is that of the session, the database permits it at this
time, and the epoch of the device admits it. -/
structure Accepts (w : World) (io : TaskIo) (sessionId : ℕ) (r : GetconfRequest) (slot : ℕ) :
    Prop where
  free : io.busy = false ∧ w.writing = false
  asked : w.Asked sessionId r
  password : ∃ p, w.session sessionId = some p ∧ r.password = p.password
  permits : w.db.Permits io.now r.password r.identity.deviceId
  epoch : ∃ s, w.epochSlots[slot]? = some s ∧ s.deviceId = r.identity.deviceId ∧
    ((s.epoch.admitEpoch r.identity.generationId r.identity.sessionSalt).2 = .current ∨
      (s.epoch.admitEpoch r.identity.generationId r.identity.sessionSalt).2 = .advanced)

/-- What later states keep: the passwords of the sessions and the devices of the epoch slots. -/
structure Stays (w w' : World) : Prop where
  passwords : ∀ id p, w.session id = some p → ∃ p', w'.session id = some p' ∧
    p'.password = p.password
  slots : ∀ slot deviceId, w.SlotOf slot deviceId → w'.SlotOf slot deviceId

theorem Stays.asked {w w' : World} (h : Stays w w') {id : ℕ} (hr : w.Asked id r) :
    w'.Asked id r := by
  obtain ⟨p, text, hp, ht⟩ := hr
  obtain ⟨p', hp', hpass⟩ := h.passwords id p hp
  exact ⟨p', text, hp', hpass ▸ ht⟩

end World

theorem Command.Entitled.mono {command : Command} (h : command.Entitled A)
    (hA : ∀ id, A id → A' id) : command.Entitled A' := by
  cases command with
  | activateTunnel sessionId | injectTun sessionId => exact hA sessionId h
  | _ => trivial

/-- What has to be true when a task of session `id` still has the operation to do. -/
def Op.Justified (A : ℕ → Prop) (w : World) (id : ℕ) : Op → Prop
  | .send command _ => command.Entitled A
  | .frame _ => A id
  | .storeWorker _ => A id
  | .commit _ _ => A id
  | .register _ _ _ => A id
  | .storeHasTunnel => A id
  | .preliminary r => w.Asked id r
  | .pickEpoch r => w.Asked id r
  | .freshEpoch r => w.Asked id r
  | .insertEpoch r _ _ => w.Asked id r
  | .lockEpoch r slot _ => w.Asked id r ∧ w.SlotOf slot r.identity.deviceId
  | .checkEpoch r slot _ => w.Asked id r ∧ w.SlotOf slot r.identity.deviceId
  | .admitRequest r slot _ => w.Asked id r ∧ w.SlotOf slot r.identity.deviceId
  | .acquire first => first.Justified A w id
  | _ => True

variable {id : ℕ}

theorem Op.Justified.mono {w w' : World} {op : Op} (h : op.Justified A w id)
    (hA : ∀ id, A id → A' id) (hw : w.Stays w') : op.Justified A' w' id := by
  induction op with
  | send => exact Command.Entitled.mono h hA
  | frame | storeWorker | commit | register | storeHasTunnel => exact hA id h
  | preliminary | pickEpoch | freshEpoch | insertEpoch => exact hw.asked h
  | lockEpoch _ slot | checkEpoch _ slot | admitRequest _ slot =>
    exact ⟨hw.asked h.1, hw.slots slot _ h.2⟩
  | acquire _ ih => exact ih h
  | _ => trivial

theorem Op.justified_of_isPlain {w : World} {op : Op} (h : op.isPlain = true) :
    op.Justified A w id := by
  cases op with
  | send command =>
    cases command with
    | activateTunnel | injectTun => cases h
    | _ => trivial
  | forget | closeStreams | prune | forgetPassword | dropAll | buildCredentials | sweepEpochs =>
    trivial
  | _ => cases h

theorem Op.Justified.asked {w : World} {op : Op} (h : op.Justified A w id)
    (hr : op.request? = some r) : w.Asked id r := by
  cases op with
  | preliminary | pickEpoch | freshEpoch | insertEpoch =>
    cases hr
    exact h
  | lockEpoch | checkEpoch | admitRequest =>
    cases hr
    exact h.1
  | _ => cases hr

theorem Op.Justified.slotOf {w : World} {op : Op} (h : op.Justified A w id)
    (hr : op.request? = some r) {slot : ℕ} (hs : op.slot? = some slot) :
    w.SlotOf slot r.identity.deviceId := by
  cases op with
  | lockEpoch | checkEpoch | admitRequest =>
    cases hr
    cases hs
    exact h.2
  | _ => cases hs

namespace World

structure Justified (A : ℕ → Prop) (w : World) : Prop extends
    Carries (Command.Entitled A) (fun id op => op.Justified A w id) w where
  engine : w.engine.Entitled A
  recovers : w.Recovers
  slotted : w.Slotted

section

variable {w w' : World} {t : Task} {op : Op} {io : TaskIo}

theorem accepts_of_admitsNow {slot : ℕ} (has : w.Asked id r)
    (hslot : w.SlotOf slot r.identity.deviceId) (h : w.admitsNow io r slot = true) :
    w.Accepts io id r slot := by
  simp only [admitsNow, Bool.and_eq_true, Bool.not_eq_true'] at h
  obtain ⟨⟨⟨hb, hw⟩, hok⟩, ha⟩ := h
  obtain ⟨p, text, hp, ht⟩ := has
  obtain ⟨s, hs, hdev⟩ := hslot
  rw [hs, Option.any_some] at ha
  refine ⟨⟨hb, hw⟩, ⟨p, text, hp, ht⟩, ⟨p, hp, parseGetconf_password ht⟩, ?_, s, hs,
    hdev, ?_⟩
  · cases hacc : w.db.getconfCredentialAccess io.now r.password r.identity.deviceId with
    | error =>
      rw [hacc] at hok
      cases hok
    | ok => exact Database.permits_of_access hacc
  · cases hd : (s.epoch.admitEpoch r.identity.generationId r.identity.sessionSalt).2 with
    | current => exact .inl rfl
    | advanced => exact .inr rfl
    | stale | saltConflict =>
      rw [hd] at ha
      cases ha

theorem Justified.of_hasTunnel (hw : w.Justified A) (h : (w.session id).any (·.hasTunnel) = true) :
    A id := by
  obtain ⟨p, hp, ht⟩ := (Option.any_eq_true _ _).mp h
  exact hw.engine.published id p hp (.inr ht)

theorem Justified.of_equips (hw : w.Justified A) {ip : Ipv4} (h : Equips w t op ip) :
    A t.session := by
  obtain ⟨registrationId, payload, p, -, hp, hworker⟩ := h
  refine hw.engine.published _ p hp (.inl fun hn => ?_)
  rw [hn] at hworker
  exact absurd hworker (by decide)

variable (cfg : ControlConfig)

/-- What an operation adds to its task is justified once the operation has been run. -/
theorem justified_of_follows (hw : w.Justified A) (hA : ∀ id, A id → A' id)
    (hop : op.Justified A w t.session) (hstay : w.Stays w') (hslotted : w'.Slotted)
    (hepoch : w'.deviceEpochs = (w.exec cfg t io op).1.deviceEpochs)
    (hacc : ∀ r slot created, op = .admitRequest r slot created → w.Accepts io t.session r slot →
      A' t.session) {o : Op} (h : Follows cfg w t op io o) : o.Justified A' w' t.session := by
  have hentry : ∀ {r slot created}, op = .admitRequest r slot created →
      w.admitsNow io r slot = true → A' t.session := by
    rintro r slot created rfl hadmits
    exact hacc r slot created rfl (accepts_of_admitsNow hop.1 hop.2 hadmits)
  cases o with
  | send command =>
    cases command with
    | activateTunnel =>
      obtain ⟨rfl, ⟨workerId', desiredCount', rfl⟩ | hequip⟩ := h
      · exact hA _ hop
      · exact hA _ (hw.of_equips hequip)
    | injectTun =>
      obtain ⟨rfl, ⟨-, htunnel⟩ | ⟨ip, hequip⟩⟩ := h
      · exact hA _ (hw.of_hasTunnel htunnel)
      · exact hA _ (hw.of_equips hequip)
    | _ => trivial
  | frame => exact hA _ (hw.of_hasTunnel h.2)
  | storeWorker =>
    obtain ⟨r, slot, created, heq, hadmits⟩ := h
    exact hentry heq hadmits
  | commit =>
    obtain ⟨slot, created, heq, hadmits⟩ := h
    exact hentry heq hadmits
  | register =>
    obtain ⟨r, access, rfl, -⟩ := h
    exact hA _ hop
  | storeHasTunnel =>
    obtain ⟨ip, workerId, desiredCount, rfl⟩ | ⟨ip, hequip⟩ := h
    · exact hA _ hop
    · exact hA _ (hw.of_equips hequip)
  | preliminary =>
    obtain rfl | ⟨payload, text, p, rfl, hp, -, hr⟩ := h
    · exact hstay.asked hop
    · exact hstay.asked ⟨p, text, hp, hr⟩
  | pickEpoch | freshEpoch | insertEpoch => exact hstay.asked (hop.asked h)
  | lockEpoch _ slot =>
    refine ⟨hstay.asked (hop.asked h.1), ?_⟩
    obtain hslot | hslot := h.2
    · exact hstay.slots slot _ (hop.slotOf h.1 hslot)
    · exact hslotted _ slot (hepoch ▸ hslot)
  | checkEpoch _ slot | admitRequest _ slot =>
    exact ⟨hstay.asked (hop.asked h.1), hstay.slots slot _ (hop.slotOf h.1 h.2)⟩
  | acquire =>
    cases h
    exact Op.Justified.mono hop hA hstay
  | _ => trivial

/-- An operation is carried out that was justified. -/
theorem Justified.effects (hw : w.Justified A) (hop : op.Justified A w t.session)
    (h : Effects cfg w t op w') : w'.engine.Entitled A ∧ Engine.Writes A w.engine w'.engine := by
  obtain heq | ⟨f, hf, heq⟩ | ⟨credentials, -, heq⟩ := h.engine
  · rw [heq]
    exact ⟨hw.engine, .of_eq rfl rfl⟩
  · have hpass : ∀ p, (f p).password = p.password := by
      intro p
      cases op <;> cases hf <;> rfl
    rw [heq]
    refine ⟨hw.engine.updatePublic t.session f fun p hp => ?_,
      Engine.writes_updatePublic A w.engine t.session f hpass⟩
    cases op with
    | storeWorker | storeHasTunnel => exact .inr hop
    | setPublicEpoch | storeDesired | storeTunnelIp =>
      cases hf
      exact .inl hp
    | _ => cases hf
  · rw [heq]
    exact hw.engine.keeps (.of_eq ⟨rfl, rfl, rfl, rfl, rfl⟩)

theorem justified_of_started {input : Input} (h : w.Started input t) :
    ∀ o ∈ t.ops, o.isPlain = true ∨ o.Justified A w' t.session := by
  intro o ho
  obtain hp | ⟨rfl, -⟩ | ⟨address, plain, rfl, -⟩ | ⟨plain, rfl⟩ := h.ops ho
  · exact .inl hp
  · exact .inr trivial
  · exact .inr trivial
  · exact .inr trivial

end
end World
end Csqtt
