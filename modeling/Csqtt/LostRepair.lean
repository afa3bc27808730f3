import Csqtt.RepairHistory

/-!
# Repairs that a session does not notice

A session that is ready compares the restart generation and then calls `notified`, again and again.
`notify_waiters` leaves no permit, so what is notified between the two is lost, and a restart before
the session has read the generation is taken for its own.
-/

namespace Csqtt

namespace RepairSession

/-- The session has compared an older generation and not called `notified` yet. -/
def overtaken (session : RepairSession) (generation : ℕ) : Bool :=
  match session.phase with
  | .checked observed => observed ≠ generation
  | _ => false

/-- What a session knows, given the restart generation of its worker and whether a notification for
it is to come. -/
def Attentive (generation : ℕ) (pending : Prop) (session : RepairSession) : Prop :=
  match session.phase with
  | .ready => generation = session.readyGeneration
  | .checking observed => observed = session.readyGeneration
  | .checked observed => observed = session.readyGeneration ∧ (generation = observed ∨ pending)
  | .parked observed => observed = session.readyGeneration ∧ (generation = observed ∨ pending)
  | _ => True

variable {session : RepairSession} {generation : ℕ} {pending : Prop}

section

variable (h : session.Attentive generation pending)
include h

theorem Attentive.mono {pending' : Prop} (hp : pending → pending') :
    session.Attentive generation pending' := by
  unfold Attentive at h ⊢
  split at h
  · exact h
  · exact h
  · exact ⟨h.1, h.2.imp_right hp⟩
  · exact ⟨h.1, h.2.imp_right hp⟩
  · trivial

theorem Attentive.counted {generation' : ℕ} (hr : session.phase ≠ .ready) :
    session.Attentive generation' True := by
  unfold Attentive at h ⊢
  split at h
  · rename_i hp
    exact absurd hp hr
  · exact h
  · exact ⟨h.1, .inr trivial⟩
  · exact ⟨h.1, .inr trivial⟩
  · trivial

theorem Attentive.wake {pending' : Prop} (ho : session.overtaken generation = false) :
    (session.wake session.worker).Attentive generation pending' := by
  obtain ⟨worker, phase, readyGeneration⟩ := session
  cases phase with
  | checked observed =>
    have hobserved : observed = generation := by simpa [overtaken] using ho
    exact ⟨h.1, .inl hobserved.symm⟩
  | parked =>
    rw [RepairSession.wake]
    dsimp only
    rw [if_pos rfl]
    exact h.1
  | _ => exact h

end

theorem worker_wake (session : RepairSession) (worker : ℕ) :
    (session.wake worker).worker = session.worker := by
  unfold wake
  split
  · split_ifs <;> rfl
  · rfl

theorem wake_of_ne {worker : ℕ} (h : session.worker ≠ worker) : session.wake worker = session := by
  unfold wake
  split
  · rw [if_neg h]
  · rfl

end RepairSession

namespace RepairState

def Pending (s : RepairState) (worker : ℕ) : Prop := ∃ c ∈ s.calls, c.phase = .notify worker

def Attentive (s : RepairState) : Prop :=
  ∀ session ∈ s.sessions,
    session.Attentive (s.slots session.worker).restartGeneration (s.Pending session.worker)

/-- The call is not about to count a restart while a session of the worker has yet to read the
generation, nor to notify while such a session, having compared an older one, has yet to call
`notified`. -/
def inTime (s : RepairState) (c : RepairCall) : Bool :=
  match c.phase with
  | .restart worker =>
    s.sessions.all fun session => session.worker = worker → session.phase ≠ .ready
  | .notify worker =>
    s.sessions.all fun session => session.worker = worker →
      session.overtaken (s.slots worker).restartGeneration = false
  | _ => true

def InTime (s : RepairState) : Event → Prop
  | .proceed i => (s.calls[i]?).all s.inTime = true
  | _ => True

instance (s : RepairState) (event : Event) : Decidable (s.InTime event) :=
  match event with
  | .proceed i => inferInstanceAs (Decidable ((s.calls[i]?).all s.inTime = true))
  | .call _ | .alive _ _ | .session _ | .advance _ => inferInstanceAs (Decidable True)

variable {i worker j : ℕ} {s s' : RepairState} {c c' : RepairCall}

theorem pending_set (hi : s.calls[i]? = some c)
    (c' : RepairCall) (hc : c.phase ≠ .notify worker) (h : s.Pending worker) :
    ∃ d ∈ s.calls.set i c', d.phase = .notify worker := by
  obtain ⟨d, hd, hp⟩ := h
  obtain ⟨j, hj⟩ := List.mem_iff_getElem?.mp hd
  have hij : i ≠ j := by
    intro hij
    rw [← hij, hi] at hj
    cases hj
    exact hc hp
  exact ⟨d, List.mem_iff_getElem?.mpr ⟨j, by rw [List.getElem?_set_ne hij, hj]⟩, hp⟩

section

variable (h : s.Attentive)
include h

section

variable (hi : s.calls[i]? = some c)
include hi

theorem Attentive.call (hc : ∀ worker, c.phase ≠ .notify worker)
    (hcall : s'.calls = s.calls.set i c') (hs : s'.sessions = s.sessions)
    (hslot : ∀ worker, (s'.slots worker).restartGeneration = (s.slots worker).restartGeneration) :
    s'.Attentive := by
  intro session hsession
  rw [hslot]
  apply (h session (hs ▸ hsession)).mono
  intro hp
  rw [Pending, hcall]
  exact pending_set hi c' (hc _) hp

theorem Attentive.restart (hp : c.phase = .restart worker)
    (hr : ∀ session ∈ s.sessions, session.worker = worker → session.phase ≠ .ready) :
    Attentive ({ s with calls := s.calls.set i { c with phase := .notify worker } }.perform
      c.command.sequence (some (.restart worker))) := by
  have hlt := (List.getElem?_eq_some_iff.mp hi).1
  intro session hsession
  have hs := h session hsession
  dsimp only [perform, Pending]
  rw [slots_setSlot]
  by_cases hw : session.worker = worker
  · apply (hs.counted (hr session hsession hw)).mono
    intro _
    rw [hw]
    exact ⟨_, List.mem_set hlt _, rfl⟩
  · rw [if_neg hw]
    apply hs.mono
    exact pending_set hi _ (by rw [hp]; exact fun heq => by cases heq)

theorem Attentive.notify (hp : c.phase = .notify worker)
    (ho : ∀ session ∈ s.sessions, session.worker = worker →
      session.overtaken (s.slots worker).restartGeneration = false) :
    Attentive ({ s with calls := s.calls.set i { c with phase := .next } }.perform
      c.command.sequence (some (.notify worker))) := by
  intro woken hwoken
  obtain ⟨session, hsession, rfl⟩ := List.mem_map.mp hwoken
  have hs := h session hsession
  by_cases hw : session.worker = worker
  · subst hw
    rw [RepairSession.worker_wake]
    exact hs.wake (ho session hsession rfl)
  · rw [RepairSession.wake_of_ne hw]
    apply hs.mono
    apply pending_set hi
    rw [hp]
    exact fun heq => hw (CallPhase.notify.inj heq).symm

theorem Attentive.proceed {op : Option RepairOp} (hstep : c.Step s.desired s.slots c' op)
    (hin : s.inTime c = true) :
    Attentive ({ s with calls := s.calls.set i c' }.perform c.command.sequence op) := by
  have hquiet : ∀ {phase}, c.phase = phase → (∀ worker, phase ≠ .notify worker) →
      ∀ worker, c.phase ≠ .notify worker := fun hphase hne worker => hphase ▸ hne worker
  cases hstep with
  | restarted _ hphase =>
    rw [inTime, hphase] at hin
    refine h.restart hi hphase (fun session hsession => ?_)
    exact of_decide_eq_true (List.all_eq_true.mp hin session hsession)
  | notified _ hphase =>
    rw [inTime, hphase] at hin
    refine h.notify hi hphase (fun session hsession => ?_)
    exact of_decide_eq_true (List.all_eq_true.mp hin session hsession)
  | idle hphase | skipped _ _ hphase | loaded _ _ hphase | stale _ _ hphase | beaten _ _ hphase
  | unready _ _ hphase | ready _ _ hphase =>
    exact h.call hi (hquiet hphase (fun _ heq => by cases heq)) rfl rfl (fun _ => rfl)
  | swapped worker _ hphase | reset worker hphase =>
    exact h.call hi (hquiet hphase (fun _ heq => by cases heq)) rfl rfl
      (field_setSlot (·.restartGeneration) _ worker (by rfl))

end

/-- The sessions that did not move see the same, and the one that did knows what it should. -/
theorem Attentive.set {session : RepairSession}
    (hs : session.Attentive (s.slots session.worker).restartGeneration
      (s.Pending session.worker)) : Attentive { s with sessions := s.sessions.set j session } := by
  intro other ho
  obtain ho | rfl := List.mem_or_eq_of_mem_set ho
  · exact h other ho
  · exact hs

theorem Attentive.readied (worker sequence : ℕ) :
    Attentive (s.setSlot worker { s.slots worker with readySequence := sequence }) := by
  intro session hs
  have hg : ((s.setSlot worker { s.slots worker with readySequence := sequence }).slots
      session.worker).restartGeneration = (s.slots session.worker).restartGeneration :=
    field_setSlot (·.restartGeneration) s worker (by rfl) session.worker
  rw [hg]
  exact h session hs

theorem Attentive.advanceSession {session : RepairSession} (hj : s.sessions[j]? = some session) :
    (s.advanceSession j session).Attentive := by
  have hs := h session (List.mem_of_getElem? hj)
  obtain ⟨worker, phase, readyGeneration⟩ := session
  cases phase with
  | starting => exact h.set trivial
  | marking sequence =>
    exact (h.readied worker sequence).set
      (field_setSlot (·.restartGeneration) s worker (by rfl) worker)
  | ready => exact h.set hs
  | checking =>
    unfold RepairState.advanceSession
    dsimp only
    split_ifs with hc
    · exact h.set trivial
    · exact h.set ⟨hs, .inl (not_not.mp hc)⟩
  | checked => exact h.set hs
  | parked | repaired => exact h

theorem attentive_step (event : Event) (hin : s.InTime event) : (s.step event).Attentive := by
  cases event with
  | call =>
    intro session hsession
    apply (h session hsession).mono
    rintro ⟨c, hc, hphase⟩
    exact ⟨c, List.mem_append_left _ hc, hphase⟩
  | proceed i =>
    cases hi : s.calls[i]? with
    | none =>
      simp only [step, hi]
      exact h
    | some c =>
      rw [InTime, hi] at hin
      simp only [step, hi]
      exact h.proceed hi (c.step_advance s.desired s.slots) hin
  | alive worker =>
    rw [step]
    split_ifs
    · exact h.readied worker _
    · exact h
  | session =>
    rw [step]
    split_ifs
    · intro session hsession
      obtain hsession | hnew := List.mem_append.mp hsession
      · exact h session hsession
      · rw [List.mem_singleton.mp hnew]
        trivial
    · exact h
  | advance j =>
    cases hj : s.sessions[j]? with
    | none =>
      simp only [step, hj]
      exact h
    | some =>
      simp only [step, hj]
      exact h.advanceSession hj

end

/-- A session that is parked, with no notification for its worker to come, has the restart
generation that was current when it became ready. -/
theorem no_lost_repair (desired : ℕ) (events : List Event)
    (h : Runs.Along step InTime { desired } events) :
    Runs.Always step (fun s => ∀ session ∈ s.sessions, ∀ observed,
      session.phase = .parked observed → (∀ c ∈ s.calls, c.phase ≠ .notify session.worker) →
        (s.slots session.worker).restartGeneration = session.readyGeneration)
      { desired } events := by
  have hstart : Attentive { desired } := fun _ hsession => by cases hsession
  have hr : Runs.Always step Attentive { desired } events :=
    Runs.always_invariant (fun s event hs hin => attentive_step hs event hin) hstart h
  apply Runs.always_mono _ hr
  intro s hs session hsession observed hp hd
  have ha := hs session hsession
  rw [RepairSession.Attentive, hp] at ha
  obtain ⟨ho, hg | ⟨c, hc, hpend⟩⟩ := ha
  · exact hg.trans ho
  · exact absurd hpend (hd c hc)

def oneRepair : StreamRepairCommand := ⟨1, 1, [1], by decide⟩

def becomesReady : List Event := [.session 1, .advance 0, .advance 0, .advance 0]

theorem no_lost_repair_parked :
    Runs.Always step (fun s => ∀ session ∈ s.sessions, ∀ observed,
      session.phase = .parked observed → (∀ c ∈ s.calls, c.phase ≠ .notify session.worker) →
        (s.slots session.worker).restartGeneration = session.readyGeneration) { desired := 1 }
      (becomesReady ++ [.advance 0, .advance 0, .call oneRepair] ++ List.replicate 6 (.proceed 0) ++
        [.advance 0]) :=
  no_lost_repair 1 _ (by decide +kernel)

/-- The repair comes between the comparison and the call of `notified`, and the session is parked
for good. -/
theorem repair_lost :
    ¬ Runs.Always step (fun s => ∀ session ∈ s.sessions, ∀ observed,
      session.phase = .parked observed → (∀ c ∈ s.calls, c.phase ≠ .notify session.worker) →
        (s.slots session.worker).restartGeneration = session.readyGeneration) { desired := 1 }
      (becomesReady ++ [.advance 0, .call oneRepair] ++ List.replicate 6 (.proceed 0) ++
        [.advance 0]) := by
  intro h
  have hl := Runs.always_iff_take.mp h 13 ⟨1, .parked 0, 0⟩ (by decide +kernel) 0 rfl
    (by decide +kernel)
  exact absurd hl (by decide +kernel)

end RepairState
end Csqtt
