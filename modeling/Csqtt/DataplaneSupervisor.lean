import Csqtt.Runs
import Csqtt.Text

/-!
# The thread of the dataplane

`spawn` starts a thread that runs the dataplane in attempts and waits for the first message on the
startup channel, which only the first attempt is given. A failure of the first attempt ends the
thread, also after it has reported a successful start, so no attempt ever has a successor.
-/

namespace Csqtt

def restartBackoffInitialMs : ℕ := 1000

def restartBackoffMaxMs : ℕ := 30000

def healthyUptimeMs : ℕ := 60000

/-- How an attempt ends: `run_dataplane` returns, fails or panics. -/
inductive AttemptEnd
  | returned
  | failed (error : Text)
  | panicked (message : Text)
  deriving DecidableEq

namespace AttemptEnd

def failure? : AttemptEnd → Option Text
  | .returned => none
  | .failed error => some error
  | .panicked message => some message

/-- What is sent on the startup channel, given whether the sockets were open. -/
def report : AttemptEnd → Bool → Option Text
  | .failed error, false => some error
  | .panicked message, _ => some ("dataplane panicked: ".toList ++ message)
  | _, _ => none

end AttemptEnd

inductive DataplanePhase
  | building
  | attempting (opened : Bool)
  | waiting
  | ended (result : Except Text Unit)
  deriving DecidableEq

/-- `ends` is how the attempts so far have ended; nothing reads it. -/
structure DataplaneThread where
  phase : DataplanePhase := .building
  firstAttempt : Bool := true
  backoffMs : ℕ := restartBackoffInitialMs
  startup : List (Except Text Unit) := []
  status : Option Text := none
  shutdown : Bool := false
  ends : List AttemptEnd := []
  deriving DecidableEq

namespace DataplaneThread

inductive Input
  | built (error : Option Text)
  | opened
  | ends (outcome : AttemptEnd) (elapsedMs : ℕ)
  | woken (waitedMs : ℕ)
  | requestShutdown
  deriving DecidableEq

def finish (s : DataplaneThread) (result : Except Text Unit) : DataplaneThread :=
  { s with
    phase := .ended result
    status := some (match result with
      | .ok () => "tokio dataplane stopped".toList
      | .error error => "tokio dataplane failed: ".toList ++ error) }

def notBuilt (s : DataplaneThread) (error : Text) : DataplaneThread :=
  { s with
    phase := .ended (.error "create tokio dataplane runtime".toList)
    startup := s.startup ++ [.error ("create tokio dataplane runtime: ".toList ++ error)]
    status := some "tokio dataplane failed".toList }

def send (s : DataplaneThread) (message : Except Text Unit) : DataplaneThread :=
  if s.firstAttempt then { s with startup := s.startup ++ [message] } else s

def afterFailure (s : DataplaneThread) (failure : Text) (elapsedMs : ℕ) : DataplaneThread :=
  if s.shutdown then s.finish (.ok ())
  else if s.firstAttempt then s.finish (.error failure)
  else
    { s with
      backoffMs := if healthyUptimeMs ≤ elapsedMs then restartBackoffInitialMs else s.backoffMs
      phase := .waiting }

/-- `run_dataplane` can only return after its sockets were open. -/
def endAttempt (s : DataplaneThread) (opened : Bool) (outcome : AttemptEnd) (elapsedMs : ℕ) :
    DataplaneThread :=
  match outcome.failure? with
  | none => if opened then { s with ends := s.ends ++ [outcome] }.finish (.ok ()) else s
  | some failure =>
    let s :=
      match outcome.report opened with
      | some error => s.send (.error error)
      | none => s
    { s with ends := s.ends ++ [outcome] }.afterFailure failure elapsedMs

/-- `sleep_backoff` comes back when the time is over or a shutdown was requested. -/
def wake (s : DataplaneThread) (waitedMs : ℕ) : DataplaneThread :=
  if s.shutdown then s.finish (.ok ())
  else if s.backoffMs ≤ waitedMs then
    { s with
      backoffMs := min (s.backoffMs * 2) restartBackoffMaxMs
      firstAttempt := false
      phase := .attempting false }
  else s

def step (s : DataplaneThread) (input : Input) : DataplaneThread :=
  match input, s.phase with
  | .requestShutdown, _ => { s with shutdown := true }
  | .built none, .building => { s with phase := .attempting false }
  | .built (some error), .building => s.notBuilt error
  | .opened, .attempting false => { s.send (.ok ()) with phase := .attempting true }
  | .ends outcome elapsedMs, .attempting opened => s.endAttempt opened outcome elapsedMs
  | .woken waitedMs, .waiting => s.wake waitedMs
  | _, _ => s

/-- What `spawn` receives first is that the dataplane has started. -/
def Started (s : DataplaneThread) : Prop := s.startup.head? = some (.ok ())

instance (s : DataplaneThread) : Decidable s.Started := inferInstanceAs (Decidable (_ = _))

def Alive (s : DataplaneThread) : Prop :=
  s.Started → ∀ result, s.phase = .ended result → s.shutdown = true ∨ .returned ∈ s.ends

def Fails (s : DataplaneThread) (input : Input) : Prop :=
  s.shutdown = false ∧ ∃ opened outcome elapsedMs, s.phase = .attempting opened ∧
    input = .ends outcome elapsedMs ∧ outcome.failure?.isSome = true

/-- After a failure the thread pauses, and goes on with a new attempt. -/
def Retried (s : DataplaneThread) (input : Input) : Prop :=
  s.Started → s.Fails input → (s.step input).phase = .waiting ∧
    ∀ waitedMs, (s.step input).backoffMs ≤ waitedMs →
      ((s.step input).step (.woken waitedMs)).phase = .attempting false

/-- The first attempt does not fail once it has reported a successful start. -/
def FirstLasts (s : DataplaneThread) (input : Input) : Prop :=
  s.firstAttempt = true → s.phase = .attempting true → ¬ s.Fails input

/-! ## What the thread has reported -/

theorem step_cases (s : DataplaneThread) (input : Input) :
    s.step input = { s with shutdown := true } ∨
      (s.phase = .building ∧ s.step input = { s with phase := .attempting false }) ∨
      (∃ error, s.phase = .building ∧ s.step input = s.notBuilt error) ∨
      (s.phase = .attempting false ∧
        s.step input = { s.send (.ok ()) with phase := .attempting true }) ∨
      (∃ opened outcome elapsedMs, s.phase = .attempting opened ∧ input = .ends outcome elapsedMs ∧
        s.step input = s.endAttempt opened outcome elapsedMs) ∨
      (∃ waitedMs, s.phase = .waiting ∧ s.step input = s.wake waitedMs) ∨
      s.step input = s := by
  unfold step
  split
  · exact .inl rfl
  · rename_i hp
    exact .inr (.inl ⟨hp, rfl⟩)
  · rename_i error hp
    exact .inr (.inr (.inl ⟨error, hp, rfl⟩))
  · rename_i hp
    exact .inr (.inr (.inr (.inl ⟨hp, rfl⟩)))
  · rename_i outcome elapsedMs opened hp
    exact .inr (.inr (.inr (.inr (.inl ⟨opened, outcome, elapsedMs, hp, rfl, rfl⟩))))
  · rename_i waitedMs hp
    exact .inr (.inr (.inr (.inr (.inr (.inl ⟨waitedMs, hp, rfl⟩)))))
  · exact .inr (.inr (.inr (.inr (.inr (.inr rfl)))))

structure Consistent (s : DataplaneThread) : Prop where
  building : s.phase = .building → s.startup = []
  unopened : s.phase = .attempting false → s.firstAttempt = true → s.startup = []
  opened : s.phase = .attempting true → s.firstAttempt = true → s.startup = [.ok ()]
  running : (∀ result, s.phase ≠ .ended result) → .returned ∉ s.ends

variable {s : DataplaneThread}

theorem Consistent.notMem_ends (h : s.Consistent) {phase : DataplanePhase}
    (hp : s.phase = phase) (hr : ∀ result, phase ≠ .ended result) : .returned ∉ s.ends :=
  h.running (hp ▸ hr)

theorem consistent_of_ended {result : Except Text Unit}
    (h : s.phase = .ended result) : s.Consistent where
  building hp := absurd (h.symm.trans hp) (by simp)
  unopened hp := absurd (h.symm.trans hp) (by simp)
  opened hp := absurd (h.symm.trans hp) (by simp)
  running hr := absurd h (hr result)

theorem consistent_of_waiting (h : s.phase = .waiting)
    (he : .returned ∉ s.ends) : s.Consistent where
  building hp := absurd (h.symm.trans hp) (by simp)
  unopened hp := absurd (h.symm.trans hp) (by simp)
  opened hp := absurd (h.symm.trans hp) (by simp)
  running _ := he

theorem consistent_of_unopened (h : s.phase = .attempting false)
    (hs : s.firstAttempt = true → s.startup = []) (he : .returned ∉ s.ends) :
    s.Consistent where
  building hp := absurd (h.symm.trans hp) (by simp)
  unopened _ := hs
  opened hp := absurd (h.symm.trans hp) (by simp)
  running _ := he

theorem consistent_of_opened (h : s.phase = .attempting true)
    (hs : s.firstAttempt = true → s.startup = [.ok ()]) (he : .returned ∉ s.ends) :
    s.Consistent where
  building hp := absurd (h.symm.trans hp) (by simp)
  unopened hp := absurd (h.symm.trans hp) (by simp)
  opened _ := hs
  running _ := he

theorem send_eq (s : DataplaneThread) (message : Except Text Unit) : s.send message =
      { s with startup := if s.firstAttempt then s.startup ++ [message] else s.startup } := by
  unfold send
  split_ifs <;> rfl

def noted (s : DataplaneThread) (opened : Bool) (outcome : AttemptEnd) : DataplaneThread :=
  match outcome.report opened with
  | some error => { s.send (.error error) with ends := s.ends ++ [outcome] }
  | none => { s with ends := s.ends ++ [outcome] }

variable {outcome : AttemptEnd}

theorem endAttempt_of_failure {failure : Text} (h : outcome.failure? = some failure)
    (opened : Bool) (elapsedMs : ℕ) :
    s.endAttempt opened outcome elapsedMs =
      (s.noted opened outcome).afterFailure failure elapsedMs := by
  unfold endAttempt noted
  rw [h]
  cases outcome.report opened with
  | none => rfl
  | some =>
    dsimp only
    rw [send_eq]

theorem noted_ends (s : DataplaneThread) (opened : Bool) (outcome : AttemptEnd) :
    (s.noted opened outcome).ends = s.ends ++ [outcome] := by
  unfold noted
  split <;> rfl

theorem noted_firstAttempt (s : DataplaneThread) (opened : Bool) (outcome : AttemptEnd) :
    (s.noted opened outcome).firstAttempt = s.firstAttempt := by
  unfold noted
  split
  · rw [send_eq]
  · rfl

theorem noted_shutdown (s : DataplaneThread) (opened : Bool) (outcome : AttemptEnd) :
    (s.noted opened outcome).shutdown = s.shutdown := by
  unfold noted
  split
  · rw [send_eq]
  · rfl

theorem head?_append_error {l : List (Except Text Unit)} {error : Text}
    (h : (l ++ [Except.error error]).head? = some (.ok ())) : l.head? = some (.ok ()) := by
  cases l with
  | nil => cases h
  | cons => exact h

variable {opened : Bool}

theorem started_of_noted (h : (s.noted opened outcome).Started) : s.Started := by
  unfold noted at h
  split at h
  · rw [send_eq] at h
    split_ifs at h
    · exact head?_append_error h
    · exact h
  · exact h

theorem returned_notMem_noted (h : AttemptEnd.returned ∉ s.ends) {failure : Text}
    (hf : outcome.failure? = some failure) (opened : Bool) :
    AttemptEnd.returned ∉ (s.noted opened outcome).ends := by
  rw [noted_ends, List.mem_append, List.mem_singleton]
  rintro (hm | rfl)
  · exact h hm
  · cases hf

section

variable (h : s.Consistent)
include h

theorem Consistent.endAttempt (hp : s.phase = .attempting opened) (outcome : AttemptEnd)
    (elapsedMs : ℕ) : (s.endAttempt opened outcome elapsedMs).Consistent := by
  cases hf : outcome.failure? with
  | none =>
    rw [DataplaneThread.endAttempt, hf]
    by_cases ho : opened = true
    · rw [if_pos ho]
      exact consistent_of_ended rfl
    · rw [if_neg ho]
      exact h
  | some =>
    rw [endAttempt_of_failure hf, afterFailure]
    by_cases hs : (s.noted opened outcome).shutdown = true
    · rw [if_pos hs]
      exact consistent_of_ended rfl
    · rw [if_neg hs]
      by_cases hfirst : (s.noted opened outcome).firstAttempt = true
      · rw [if_pos hfirst]
        exact consistent_of_ended rfl
      · rw [if_neg hfirst]
        exact consistent_of_waiting rfl
          (returned_notMem_noted (h.notMem_ends hp (by simp)) hf opened)

theorem Consistent.wake (hp : s.phase = .waiting) (waitedMs : ℕ) :
    (s.wake waitedMs).Consistent := by
  unfold DataplaneThread.wake
  split_ifs
  · exact consistent_of_ended rfl
  · exact consistent_of_unopened rfl (fun hf => by cases hf)
      (h.notMem_ends hp (by simp))
  · exact h

theorem Consistent.step (input : Input) : (s.step input).Consistent := by
  obtain heq | ⟨hp, heq⟩ | ⟨error, hp, heq⟩ | ⟨hp, heq⟩ |
    ⟨opened, outcome, elapsedMs, hp, -, heq⟩ | ⟨waitedMs, hp, heq⟩ | heq :=
      s.step_cases input
  all_goals rw [heq]
  · exact ⟨h.building, h.unopened, h.opened, h.running⟩
  · exact consistent_of_unopened rfl (fun _ => h.building hp) (h.notMem_ends hp (by simp))
  · exact consistent_of_ended rfl
  · rw [send_eq]
    refine consistent_of_opened rfl (fun hf => ?_) (h.notMem_ends hp (by simp))
    rw [if_pos hf, h.unopened hp hf]
    rfl
  · exact h.endAttempt hp outcome elapsedMs
  · exact h.wake hp waitedMs
  · exact h

/-! ## When the thread heals itself -/

theorem started_of_opened (hf : s.firstAttempt = true) (hp : s.phase = .attempting true) :
    s.Started := by
  rw [Started, h.opened hp hf]
  rfl

theorem not_started_of_unopened (hf : s.firstAttempt = true) (hp : s.phase = .attempting false) :
    ¬ s.Started := by
  rw [Started, h.unopened hp hf]
  intro hs
  cases hs

end

theorem step_ends (hp : s.phase = .attempting opened) (outcome : AttemptEnd) (elapsedMs : ℕ) :
    s.step (.ends outcome elapsedMs) = s.endAttempt opened outcome elapsedMs := by
  unfold step
  rw [hp]

variable {input : Input}

theorem step_of_later_failure (hfirst : s.firstAttempt = false) (h : s.Fails input) :
    (s.step input).phase = .waiting ∧ (s.step input).shutdown = false := by
  obtain ⟨hs, opened, outcome, elapsedMs, hp, rfl, hf⟩ := h
  obtain ⟨failure, hf⟩ := Option.isSome_iff_exists.mp hf
  have hn : ¬ (s.noted opened outcome).shutdown = true := by
    rw [noted_shutdown, hs]
    exact Bool.false_ne_true
  have hl : ¬ (s.noted opened outcome).firstAttempt = true := by
    rw [noted_firstAttempt, hfirst]
    exact Bool.false_ne_true
  rw [step_ends hp, endAttempt_of_failure hf, afterFailure, if_neg hn, if_neg hl]
  exact ⟨rfl, Bool.eq_false_iff.mpr hn⟩

theorem phase_woken (hp : s.phase = .waiting)
    (hs : s.shutdown = false) {waitedMs : ℕ} (hw : s.backoffMs ≤ waitedMs) :
    (s.step (.woken waitedMs)).phase = .attempting false := by
  unfold step
  rw [hp]
  dsimp only
  rw [wake, hs, if_neg Bool.false_ne_true, if_pos hw]

theorem retried_of_firstLasts (h : s.Consistent) (hl : s.FirstLasts input) : s.Retried input := by
  intro hs hf
  cases hfirst : s.firstAttempt with
  | true =>
    obtain ⟨-, opened, -, -, hp, -⟩ := id hf
    cases opened with
    | true => exact absurd hf (hl hfirst hp)
    | false => exact absurd hs (not_started_of_unopened h hfirst hp)
  | false =>
    obtain ⟨hw, hshut⟩ := step_of_later_failure hfirst hf
    exact ⟨hw, fun waitedMs hwaited => phase_woken hw hshut hwaited⟩

theorem firstLasts_of_retried (h : s.Consistent) (hr : s.Retried input) : s.FirstLasts input := by
  intro hfirst hp hfails
  obtain ⟨hw, -⟩ := hr (started_of_opened h hfirst hp) hfails
  obtain ⟨hs, opened, outcome, elapsedMs, hp', rfl, hf⟩ := hfails
  obtain ⟨failure, hf⟩ := Option.isSome_iff_exists.mp hf
  have hn : ¬ (s.noted opened outcome).shutdown = true := by
    rw [noted_shutdown, hs]
    exact Bool.false_ne_true
  rw [step_ends hp', endAttempt_of_failure hf, afterFailure, if_neg hn,
    if_pos ((noted_firstAttempt s opened outcome).trans hfirst)] at hw
  cases hw

theorem alive_endAttempt (halive : s.Alive) (hphase : s.phase = .attempting opened)
    (outcome : AttemptEnd) (elapsedMs : ℕ) (hretry : s.Retried (.ends outcome elapsedMs)) :
    (s.endAttempt opened outcome elapsedMs).Alive := by
  intro hstart result hend
  cases hfail : outcome.failure? with
  | none =>
    rw [endAttempt, hfail] at hstart hend ⊢
    by_cases hopen : opened = true
    · rw [if_pos hopen]
      cases outcome with
      | returned => exact .inr (List.mem_append_right _ (List.mem_singleton.mpr rfl))
      | failed | panicked => cases hfail
    · rw [if_neg hopen] at hstart hend ⊢
      exact halive hstart result hend
  | some =>
    cases hshut : s.shutdown with
    | true =>
      have hnot : (s.noted opened outcome).shutdown = true := by
        rw [noted_shutdown, hshut]
      rw [endAttempt_of_failure hfail, afterFailure, if_pos hnot]
      exact .inl hnot
    | false =>
      have hkept : (s.endAttempt opened outcome elapsedMs).startup =
          (s.noted opened outcome).startup := by
        rw [endAttempt_of_failure hfail, afterFailure]
        split_ifs <;> rfl
      rw [Started, hkept] at hstart
      obtain ⟨hwait, -⟩ := hretry (started_of_noted hstart)
        ⟨hshut, opened, outcome, elapsedMs, hphase, rfl, by rw [hfail]; rfl⟩
      rw [step_ends hphase, hend] at hwait
      cases hwait

theorem alive_wake (ha : s.Alive) (waitedMs : ℕ) : (s.wake waitedMs).Alive := by
  intro hs result he
  unfold wake at hs he ⊢
  split_ifs at hs he ⊢ with hshut hw
  · exact .inl hshut
  · exact ha hs result he

theorem alive_step (h : s.Consistent) (ha : s.Alive) (hr : s.Retried input) :
    (s.step input).Alive := by
  obtain heq | ⟨hp, heq⟩ | ⟨error, hp, heq⟩ | ⟨hp, heq⟩ |
    ⟨opened, outcome, elapsedMs, hp, rfl, heq⟩ | ⟨waitedMs, hp, heq⟩ | heq :=
      s.step_cases input
  all_goals rw [heq]
  · exact fun _ _ _ => .inl rfl
  · intro _ _ he
    cases he
  · intro hs _ _
    rw [notBuilt, h.building hp] at hs
    cases hs
  · intro _ _ he
    cases he
  · exact alive_endAttempt ha hp outcome elapsedMs hr
  · exact alive_wake ha waitedMs
  · exact ha

/-- Once a start was reported the thread lives until it is asked to end or an attempt returns, and
goes on after every failure, exactly if the first attempt does not fail after its start. -/
theorem self_healing_iff (inputs : List Input) :
    (Runs.Always step Alive {} inputs ∧ Runs.Along step Retried {} inputs) ↔
      Runs.Along step FirstLasts {} inputs := by
  have hstep : Consistent {} :=
    ⟨fun _ => rfl, fun hp => (by cases hp), fun hp => (by cases hp),
      fun _ hm => (by cases hm)⟩
  constructor
  · rintro ⟨-, hr⟩
    exact Runs.along_invariant (fun s input hs _ => Consistent.step hs input)
      (fun s input hs => firstLasts_of_retried hs) hstep hr
  · intro hl
    have hr : Runs.Along step Retried {} inputs :=
      Runs.along_invariant (fun s input hs _ => Consistent.step hs input)
        (fun s input hs => retried_of_firstLasts hs) hstep hl
    refine ⟨?_, hr⟩
    have hb : Runs.Always step (fun s => s.Consistent ∧ s.Alive) {} inputs :=
      Runs.always_invariant
        (fun s input hs hin => ⟨hs.1.step input, alive_step hs.1 hs.2 hin⟩)
        ⟨hstep, fun hstart => by cases hstart⟩ hr
    exact Runs.always_mono (fun s hs => hs.2) hb

/-- The TUN device fails an hour after the start was reported: the thread ends with the error.
Nobody asked for it, and no attempt has returned. -/
theorem started_dataplane_ends :
    let s := ([.built none, .opened, .ends (.failed "TUN RX failed".toList) 3600000] :
      List Input).foldl step {}
    s.Started ∧ s.phase = .ended (.error "TUN RX failed".toList) ∧ s.shutdown = false ∧
      AttemptEnd.returned ∉ s.ends := by
  decide +kernel

end DataplaneThread
end Csqtt
