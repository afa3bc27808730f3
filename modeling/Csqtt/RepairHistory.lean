import Csqtt.ClientRepair

/-!
# What repairs a worker gets

However the steps of the calls interleave, a worker takes the commands of ever greater sequences and
each of them once. When all calls are done, the last sequence is the greatest that named the
worker, and the restart generation is the number of commands that were accepted.
-/

namespace Csqtt

open RepairState

namespace RepairCall

structure Sound (desired : ℕ) (slots : ℕ → RepairSlot) (c : RepairCall) : Prop where
  current : ∀ worker current, c.phase = .compare worker current →
    current ≤ (slots worker).lastSequence ∧ worker ∈ c.command.workerIds
  remaining : ∀ worker ∈ c.remaining, worker ∈ c.command.workerIds
  passed : ∀ worker ∈ c.command.workerIds, isSlot desired worker = true → worker ∈ c.remaining ∨
    (∃ current, c.phase = .compare worker current) ∨
      c.command.sequence ≤ (slots worker).lastSequence

variable {desired : ℕ} {slots slots' : ℕ → RepairSlot} {c c' : RepairCall} {op : Option RepairOp}

theorem Sound.mono (h : c.Sound desired slots)
    (hle : ∀ worker, (slots worker).lastSequence ≤ (slots' worker).lastSequence) :
    c.Sound desired slots' where
  current worker current hp :=
    ⟨(h.current worker current hp).1.trans (hle worker), (h.current worker current hp).2⟩
  remaining := h.remaining
  passed worker hw hs := by
    obtain hm | hc | hpass := h.passed worker hw hs
    · exact .inl hm
    · exact .inr (.inl hc)
    · exact .inr (.inr (hpass.trans (hle worker)))

theorem sound_start (command : StreamRepairCommand) : (start command).Sound desired slots where
  current _ _ hp := by cases hp
  remaining _ hw := hw
  passed _ hw _ := .inl hw

variable {phase : CallPhase}

theorem Sound.move (h : c.Sound desired slots)
    (hb : ∀ worker current, c.phase = .compare worker current → ∃ current',
      phase = .compare worker current')
    (ha : ∀ worker current, phase = .compare worker current →
      current ≤ (slots worker).lastSequence ∧ worker ∈ c.command.workerIds) :
    { c with phase }.Sound desired slots where
  current := ha
  remaining := h.remaining
  passed worker hw hs := by
    obtain hm | ⟨current, hc⟩ | hp := h.passed worker hw hs
    · exact .inl hm
    · exact .inr (.inl (hb worker current hc))
    · exact .inr (.inr hp)

theorem Sound.beyond (h : c.Sound desired slots)
    (hb : ∀ worker current, c.phase ≠ .compare worker current)
    (ha : ∀ worker current, phase ≠ .compare worker current) :
    { c with phase }.Sound desired slots :=
  h.move (fun w x heq => absurd heq (hb w x)) (fun w x heq => absurd heq (ha w x))

theorem Sound.pass (h : c.Sound desired slots) {worker current : ℕ}
    (hp : c.phase = .compare worker current)
    (hpass : c.command.sequence ≤ (slots worker).lastSequence)
    (ha : ∀ worker current, phase ≠ .compare worker current) :
    { c with phase }.Sound desired slots where
  current w x hw := absurd hw (ha w x)
  remaining := h.remaining
  passed w hw hs := by
    obtain hm | ⟨x, hc⟩ | hle := h.passed w hw hs
    · exact .inl hm
    · rw [hp] at hc
      cases hc
      exact .inr (.inr hpass)
    · exact .inr (.inr hle)

end RepairCall

namespace RepairState

structure Counted (s : RepairState) : Prop where
  /-- Each accepted command is restarted, or its call has still to restart it. -/
  restarts : ∀ x, s.restarts.count x + s.calls.countP (·.pendingRestart = some x) =
    s.accepted.count x
  resets : ∀ x, s.resets.count x + s.calls.countP (·.pendingReset = some x) ≤ s.accepted.count x
  increasing : ∀ worker, (sequencesOf worker s.accepted).Pairwise (· < ·)
  below : ∀ x ∈ s.accepted, 0 < x.2 ∧ x.2 ≤ (s.slots x.1).lastSequence
  last : ∀ worker, (s.slots worker).lastSequence = 0 ∨
    (worker, (s.slots worker).lastSequence) ∈ s.accepted
  named : ∀ x ∈ s.accepted, ∃ c ∈ s.calls, x.1 ∈ c.command.workerIds ∧ c.command.sequence = x.2
  restartGeneration : ∀ worker, (s.slots worker).restartGeneration =
    s.restarts.countP (·.1 = worker) % 2 ^ 64
  credentialGeneration : ∀ worker, (s.slots worker).credentialGeneration =
    s.resets.countP (·.1 = worker) % 2 ^ 64
  calls : ∀ c ∈ s.calls, c.Sound s.desired s.slots

theorem counted_init (desired : ℕ) : Counted { desired } where
  restarts _ := rfl
  resets _ := le_refl _
  increasing _ := List.Pairwise.nil
  below _ hx := by cases hx
  last _ := .inl rfl
  named _ hx := by cases hx
  restartGeneration _ := rfl
  credentialGeneration _ := rfl
  calls _ hc := by cases hc

/-- The counters, last sequences, calls and histories are the same. -/
structure SameCounts (s s' : RepairState) : Prop where
  desired : s'.desired = s.desired
  calls : s'.calls = s.calls
  accepted : s'.accepted = s.accepted
  restarts : s'.restarts = s.restarts
  resets : s'.resets = s.resets
  lastSequence : ∀ worker, (s'.slots worker).lastSequence = (s.slots worker).lastSequence
  restartGeneration : ∀ worker,
    (s'.slots worker).restartGeneration = (s.slots worker).restartGeneration
  credentialGeneration : ∀ worker,
    (s'.slots worker).credentialGeneration = (s.slots worker).credentialGeneration

theorem Counted.same {s s' : RepairState} (h : s.Counted) (hs : SameCounts s s') : s'.Counted where
  restarts x := by rw [hs.restarts, hs.calls, hs.accepted]; exact h.restarts x
  resets x := by rw [hs.resets, hs.calls, hs.accepted]; exact h.resets x
  increasing worker := by rw [hs.accepted]; exact h.increasing worker
  below x hx := by rw [hs.lastSequence]; exact h.below x (hs.accepted ▸ hx)
  last worker := by rw [hs.lastSequence, hs.accepted]; exact h.last worker
  named x hx := by rw [hs.calls]; exact h.named x (hs.accepted ▸ hx)
  restartGeneration worker := by
    rw [hs.restartGeneration, hs.restarts]; exact h.restartGeneration worker
  credentialGeneration worker := by
    rw [hs.credentialGeneration, hs.resets]
    exact h.credentialGeneration worker
  calls c hc := by
    rw [hs.desired]
    exact (h.calls c (hs.calls ▸ hc)).mono fun worker => (hs.lastSequence worker).ge

theorem slots_setSlot (s : RepairState) (worker w : ℕ) (slot : RepairSlot) :
    (s.setSlot worker slot).slots w = if w = worker then slot else s.slots w :=
  Function.update_apply ..

/-- A write that keeps a field of the slot keeps it in every slot. -/
theorem field_setSlot {β : Type} (f : RepairSlot → β) (s : RepairState) (worker : ℕ)
    {slot : RepairSlot} (hs : f slot = f (s.slots worker)) (w : ℕ) :
    f ((s.setSlot worker slot).slots w) = f (s.slots w) := by
  rw [slots_setSlot]
  split_ifs with hw
  · rw [hs, hw]
  · rfl

theorem sameCounts_readySequence (s : RepairState) (worker sequence : ℕ)
    (sessions : List RepairSession) :
    SameCounts s { s.setSlot worker
      { s.slots worker with readySequence := sequence } with sessions } := by
  refine ⟨rfl, rfl, rfl, rfl, rfl, ?_, ?_, ?_⟩
  · exact field_setSlot (·.lastSequence) s worker (by rfl)
  · exact field_setSlot (·.restartGeneration) s worker (by rfl)
  · exact field_setSlot (·.credentialGeneration) s worker (by rfl)

theorem sameCounts_sessions (s : RepairState) (sessions : List RepairSession) :
    SameCounts s { s with sessions } :=
  ⟨rfl, rfl, rfl, rfl, rfl, fun _ => rfl, fun _ => rfl, fun _ => rfl⟩

theorem sameCounts_advanceSession (s : RepairState) (j : ℕ) (session : RepairSession) :
    SameCounts s (s.advanceSession j session) := by
  unfold advanceSession
  split
  · exact sameCounts_sessions s _
  · exact sameCounts_readySequence s _ _ _
  all_goals exact sameCounts_sessions s _

/-! ## A step of a call -/

variable {i worker sequence current x m : ℕ} {calls : List RepairCall} {c : RepairCall}

theorem countP_set (f : RepairCall → Option (ℕ × ℕ)) (hi : calls[i]? = some c) (c' : RepairCall)
    (x : ℕ × ℕ) :
    (calls.set i c').countP (f · = some x) + (if f c = some x then 1 else 0) =
      calls.countP (f · = some x) + if f c' = some x then 1 else 0 := by
  obtain ⟨hlt, hg⟩ := List.getElem?_eq_some_iff.mp hi
  rw [List.countP_set hlt, hg]
  simp only [decide_eq_true_eq]
  by_cases hc : f c = some x
  · have hp : 0 < calls.countP (f · = some x) :=
      List.countP_pos_iff.mpr ⟨c, List.mem_of_getElem? hi, decide_eq_true hc⟩
    rw [if_pos hc]
    omega
  · rw [if_neg hc]
    omega

theorem countP_set_of_none (f : RepairCall → Option (ℕ × ℕ)) (hi : calls[i]? = some c)
    (c' : RepairCall) (hc : f c = none) {y : ℕ × ℕ} (hc' : f c' = some y) (x : ℕ × ℕ) :
    (calls.set i c').countP (f · = some x) =
      calls.countP (f · = some x) + if y = x then 1 else 0 := by
  have hcount := countP_set f hi c' x
  simpa only [hc, hc', reduceCtorEq, if_false, Option.some.injEq, Nat.add_zero] using hcount

theorem named_set (hi : calls[i]? = some c) (c' : RepairCall) (hc : c'.command = c.command)
    {x : ℕ × ℕ} (h : ∃ d ∈ calls, x.1 ∈ d.command.workerIds ∧ d.command.sequence = x.2) :
    ∃ d ∈ calls.set i c', x.1 ∈ d.command.workerIds ∧ d.command.sequence = x.2 := by
  obtain ⟨hlt, hg⟩ := List.getElem?_eq_some_iff.mp hi
  obtain ⟨d, hd, hn⟩ := h
  obtain ⟨j, hj, rfl⟩ := List.getElem_of_mem hd
  by_cases hij : i = j
  · subst hij
    refine ⟨c', List.mem_set hlt c', ?_⟩
    rw [hc, ← hg]
    exact hn
  · refine ⟨calls[j], ?_, hn⟩
    rw [List.mem_iff_getElem?]
    exact ⟨j, by rw [List.getElem?_set_ne hij, List.getElem?_eq_getElem hj]⟩

theorem count_append_singleton (history : List (ℕ × ℕ)) (x y : ℕ × ℕ) :
    (history ++ [y]).count x = history.count x + if y = x then 1 else 0 := by
  rw [List.count_append, List.count_singleton]
  simp

theorem countP_append_singleton (history : List (ℕ × ℕ)) (worker : ℕ) (y : ℕ × ℕ) :
    (history ++ [y]).countP (·.1 = worker) =
      history.countP (·.1 = worker) + if y.1 = worker then 1 else 0 := by
  simp

variable {history restarts resets : List (ℕ × ℕ)}

theorem Counted.call {s : RepairState} (h : s.Counted) (hi : s.calls[i]? = some c)
    (c' : RepairCall) (hcommand : c'.command = c.command) (hsound : c'.Sound s.desired s.slots)
    {slots : ℕ → RepairSlot}
    (hlast : ∀ worker, (slots worker).lastSequence = (s.slots worker).lastSequence)
    (hrest : ∀ x, restarts.count x + (if c'.pendingRestart = some x then 1 else 0) =
      s.restarts.count x + if c.pendingRestart = some x then 1 else 0)
    (hresets : ∀ x, resets.count x + (if c'.pendingReset = some x then 1 else 0) ≤
      s.resets.count x + if c.pendingReset = some x then 1 else 0)
    (hgen : ∀ worker, (slots worker).restartGeneration = restarts.countP (·.1 = worker) % 2 ^ 64)
    (hcred : ∀ worker, (slots worker).credentialGeneration =
      resets.countP (·.1 = worker) % 2 ^ 64) (sessions : List RepairSession) :
    Counted { s with slots, calls := s.calls.set i c', restarts, resets, sessions } where
  restarts x := by
    have hx := h.restarts x
    have hcount := countP_set RepairCall.pendingRestart hi c' x
    have hrest := hrest x
    dsimp only
    omega
  resets x := by
    have hx := h.resets x
    have hcount := countP_set RepairCall.pendingReset hi c' x
    have hresets := hresets x
    dsimp only
    omega
  increasing := h.increasing
  below x hx := ⟨(h.below x hx).1, (h.below x hx).2.trans (hlast x.1).ge⟩
  last worker := by
    rw [hlast]
    exact h.last worker
  named x hx := named_set hi c' hcommand (h.named x hx)
  restartGeneration := hgen
  credentialGeneration := hcred
  calls d hd := by
    obtain hd | rfl := List.mem_or_eq_of_mem_set hd
    · exact (h.calls d hd).mono fun worker => (hlast worker).ge
    · exact hsound.mono fun worker => (hlast worker).ge

theorem Counted.move {s : RepairState} (h : s.Counted) (hi : s.calls[i]? = some c)
    (c' : RepairCall) (hc : c'.command = c.command) (hs : c'.Sound s.desired s.slots)
    (hr : c'.pendingRestart = c.pendingRestart)
    (hreset : ∀ x, c'.pendingReset = some x → c.pendingReset = some x)
    (sessions : List RepairSession) : Counted { s with calls := s.calls.set i c', sessions } := by
  refine h.call hi c' hc hs (fun _ => rfl) (fun x => by rw [hr]) (fun x => ?_)
    h.restartGeneration h.credentialGeneration sessions
  by_cases hx : c'.pendingReset = some x
  · rw [if_pos hx, if_pos (hreset x hx)]
  · rw [if_neg hx]
    omega

theorem sequencesOf_append (worker : ℕ) (history : List (ℕ × ℕ)) (x : ℕ × ℕ) :
    sequencesOf worker (history ++ [x]) =
      sequencesOf worker history ++ if x.1 = worker then [x.2] else [] := by
  rw [sequencesOf, List.filter_append, List.map_append, ← sequencesOf]
  split_ifs with hx <;> simp [hx]

theorem mem_sequencesOf : sequence ∈ sequencesOf worker history ↔ (worker, sequence) ∈ history := by
  unfold sequencesOf
  simp

theorem Counted.accept {s : RepairState} (h : s.Counted) (hi : s.calls[i]? = some c)
    (hphase : c.phase = .compare worker current) (hlt : current < c.command.sequence)
    (hlast : (s.slots worker).lastSequence = current) :
    Counted ({ s with calls := s.calls.set i { c with phase := .accepted worker current } }.perform
      c.command.sequence (some (.accept worker))) := by
  have hc := h.calls c (List.mem_of_getElem? hi)
  have hslot : ∀ w, (Function.update s.slots worker
      { s.slots worker with lastSequence := c.command.sequence } w).lastSequence =
        if w = worker then c.command.sequence else (s.slots w).lastSequence := by
    intro w
    rw [Function.update_apply]
    split_ifs <;> rfl
  have hle : ∀ w, (s.slots w).lastSequence ≤ (Function.update s.slots worker
      { s.slots worker with lastSequence := c.command.sequence } w).lastSequence := by
    intro w
    rw [hslot]
    split_ifs with hw
    · rw [hw, hlast]
      exact hlt.le
    · exact le_refl _
  have hbelow : ∀ sequence ∈ sequencesOf worker s.accepted, sequence < c.command.sequence := by
    intro sequence hmem
    have hle := (h.below _ (mem_sequencesOf.mp hmem)).2
    rw [hlast] at hle
    exact hle.trans_lt hlt
  constructor
  case restarts =>
    intro x
    have hx := h.restarts x
    have hcount := countP_set_of_none RepairCall.pendingRestart hi
      { c with phase := .accepted worker current } (by rw [RepairCall.pendingRestart, hphase]) rfl x
    dsimp only [perform, setSlot] at hcount ⊢
    rw [count_append_singleton]
    omega
  case resets =>
    intro x
    have hx := h.resets x
    have hcount := countP_set_of_none RepairCall.pendingReset hi
      { c with phase := .accepted worker current } (by rw [RepairCall.pendingReset, hphase]) rfl x
    dsimp only [perform, setSlot] at hcount ⊢
    rw [count_append_singleton]
    omega
  case increasing =>
    intro w
    dsimp only [perform, setSlot]
    rw [sequencesOf_append]
    split_ifs with hw
    · subst hw
      rw [List.pairwise_append]
      exact ⟨h.increasing worker, List.pairwise_singleton _ _,
        fun a ha b hb => by rw [List.mem_singleton.mp hb]; exact hbelow a ha⟩
    · rw [List.append_nil]
      exact h.increasing w
  case below =>
    intro x hx
    obtain hx | hx := List.mem_append.mp hx
    · exact ⟨(h.below x hx).1, (h.below x hx).2.trans (hle x.1)⟩
    · rw [List.mem_singleton.mp hx]
      dsimp only [perform, setSlot]
      rw [hslot, if_pos rfl]
      exact ⟨Nat.zero_lt_of_lt hlt, le_refl _⟩
  case last =>
    intro w
    dsimp only [perform, setSlot]
    rw [hslot]
    split_ifs with hw
    · rw [hw]
      exact .inr (List.mem_append_right _ (List.mem_singleton_self _))
    · exact (h.last w).imp_right (List.mem_append_left _)
  case named =>
    intro x hx
    have hname : ∃ d ∈ s.calls, x.1 ∈ d.command.workerIds ∧ d.command.sequence = x.2 := by
      obtain hx | hx := List.mem_append.mp hx
      · exact h.named x hx
      · rw [List.mem_singleton.mp hx]
        exact ⟨c, List.mem_of_getElem? hi, (hc.current worker current hphase).2, rfl⟩
    exact named_set hi { c with phase := .accepted worker current } rfl hname
  case restartGeneration =>
    refine fun w => Eq.trans ?_ (h.restartGeneration w)
    exact field_setSlot (·.restartGeneration) _ worker (by rfl) w
  case credentialGeneration =>
    refine fun w => Eq.trans ?_ (h.credentialGeneration w)
    exact field_setSlot (·.credentialGeneration) _ worker (by rfl) w
  case calls =>
    intro d hd
    obtain hd | rfl := List.mem_or_eq_of_mem_set hd
    · exact (h.calls d hd).mono hle
    · apply (hc.mono hle).pass hphase
      · rw [hslot, if_pos rfl]
      · exact fun _ _ heq => by cases heq

theorem countP_succ_mod (history : List (ℕ × ℕ)) (worker w sequence : ℕ) (counter : ℕ → ℕ)
    (h : ∀ w, counter w = history.countP (·.1 = w) % 2 ^ 64) :
    (if w = worker then (counter worker + 1) % 2 ^ 64 else counter w) =
      (history ++ [(worker, sequence)]).countP (·.1 = w) % 2 ^ 64 := by
  rw [countP_append_singleton]
  by_cases hw : w = worker
  · subst hw
    simp only [if_true]
    rw [h w, Nat.mod_add_mod]
  · rw [if_neg hw, if_neg (Ne.symm hw)]
    exact h w

theorem Counted.restart {s : RepairState} (h : s.Counted) (hi : s.calls[i]? = some c)
    (hp : c.phase = .restart worker) :
    Counted ({ s with calls := s.calls.set i { c with phase := .notify worker } }.perform
      c.command.sequence (some (.restart worker))) := by
  have hs : RepairCall.Sound s.desired s.slots { c with phase := .notify worker } :=
    (h.calls c (List.mem_of_getElem? hi)).beyond (by rw [hp]; nofun) nofun
  refine h.call hi { c with phase := .notify worker } rfl hs (fun w => ?_) (fun x => ?_)
    (fun x => ?_) (fun w => ?_) (fun w => ?_) _
  · exact field_setSlot (·.lastSequence) _ worker (by rfl) w
  · rw [count_append_singleton]
    simp [RepairCall.pendingRestart, hp]
  · change s.resets.count x + _ ≤ _
    simp [RepairCall.pendingReset, hp]
  · rw [← countP_succ_mod s.restarts worker w c.command.sequence
      (fun w => (s.slots w).restartGeneration) h.restartGeneration, slots_setSlot]
    split_ifs <;> rfl
  · refine Eq.trans ?_ (h.credentialGeneration w)
    exact field_setSlot (·.credentialGeneration) _ worker (by rfl) w

theorem Counted.reset {s : RepairState} (h : s.Counted) (hi : s.calls[i]? = some c)
    (hp : c.phase = .reset worker) :
    Counted ({ s with calls := s.calls.set i { c with phase := .restart worker } }.perform
      c.command.sequence (some (.reset worker))) := by
  have hs : RepairCall.Sound s.desired s.slots { c with phase := .restart worker } :=
    (h.calls c (List.mem_of_getElem? hi)).beyond (by rw [hp]; nofun) nofun
  refine h.call hi { c with phase := .restart worker } rfl hs (fun w => ?_) (fun x => ?_)
    (fun x => ?_) (fun w => ?_) (fun w => ?_) _
  · exact field_setSlot (·.lastSequence) _ worker (by rfl) w
  · change s.restarts.count x + _ = _
    simp [RepairCall.pendingRestart, hp]
  · rw [count_append_singleton]
    simp [RepairCall.pendingReset, hp]
  · refine Eq.trans ?_ (h.restartGeneration w)
    exact field_setSlot (·.restartGeneration) _ worker (by rfl) w
  · rw [← countP_succ_mod s.resets worker w c.command.sequence
      (fun w => (s.slots w).credentialGeneration) h.credentialGeneration, slots_setSlot]
    split_ifs <;> rfl

theorem Counted.proceed {s : RepairState} (h : s.Counted) (hi : s.calls[i]? = some c)
    {c' : RepairCall} {op : Option RepairOp} (hstep : c.Step s.desired s.slots c' op) :
    Counted ({ s with calls := s.calls.set i c' }.perform c.command.sequence op) := by
  have hc := h.calls c (List.mem_of_getElem? hi)
  cases hstep with
  | idle => exact h.move hi c rfl hc rfl (fun _ heq => heq) s.sessions
  | skipped _ rest _ hremaining hslot =>
    refine h.move hi { c with remaining := rest }
      rfl ⟨?_, ?_, ?_⟩ rfl (fun _ heq => heq) s.sessions
    · exact hc.current
    · exact fun w hw => hc.remaining w (hremaining ▸ List.mem_cons_of_mem _ hw)
    · intro w hw hwslot
      obtain hmem | hrest := hc.passed w hw hwslot
      · rw [hremaining] at hmem
        obtain rfl | hmem := List.mem_cons.mp hmem
        · rw [hslot] at hwslot
          cases hwslot
        · exact .inl hmem
      · exact .inr hrest
  | loaded worker rest hphase hremaining =>
    have hrestart : c.pendingRestart = none := by rw [RepairCall.pendingRestart, hphase]
    refine h.move hi
      { c with remaining := rest, phase := .compare worker (s.slots worker).lastSequence }
      rfl ⟨?_, ?_, ?_⟩ hrestart.symm (fun _ heq => by cases heq) s.sessions
    · intro w x heq
      cases heq
      exact ⟨le_refl _, hc.remaining worker (hremaining ▸ List.mem_cons_self)⟩
    · exact fun w hw => hc.remaining w (hremaining ▸ List.mem_cons_of_mem _ hw)
    · intro w hw hwslot
      obtain hmem | ⟨x, hcompare⟩ | hpass := hc.passed w hw hwslot
      · rw [hremaining] at hmem
        obtain rfl | hmem := List.mem_cons.mp hmem
        · exact .inr (.inl ⟨_, rfl⟩)
        · exact .inl hmem
      · rw [hphase] at hcompare
        cases hcompare
      · exact .inr (.inr hpass)
  | stale worker current hphase hstale =>
    have hrestart : c.pendingRestart = none := by rw [RepairCall.pendingRestart, hphase]
    refine h.move hi { c with phase := .next }
      rfl (hc.pass hphase ?_ ?_) hrestart.symm (fun _ heq => by cases heq) s.sessions
    · exact hstale.trans (hc.current worker current hphase).1
    · exact fun _ _ heq => by cases heq
  | swapped _ _ hphase hlt hlast => exact h.accept hi hphase hlt hlast
  | beaten worker current hphase =>
    have hrestart : c.pendingRestart = none := by rw [RepairCall.pendingRestart, hphase]
    refine h.move hi { c with phase := .compare worker (s.slots worker).lastSequence }
      rfl (hc.move ?_ ?_) hrestart.symm (fun _ heq => by cases heq) s.sessions
    · intro w x heq
      rw [hphase] at heq
      cases heq
      exact ⟨_, rfl⟩
    · intro w x heq
      cases heq
      exact ⟨le_refl _, (hc.current worker current hphase).2⟩
  | unready worker _ hphase =>
    refine h.move hi { c with phase := .reset worker } rfl
      (hc.beyond (by rw [hphase]; nofun) nofun) ?_ ?_ s.sessions
    · simp [RepairCall.pendingRestart, hphase]
    · simp [RepairCall.pendingReset, hphase]
  | ready worker _ hphase =>
    refine h.move hi { c with phase := .restart worker } rfl
      (hc.beyond (by rw [hphase]; nofun) nofun) ?_ (fun _ heq => by cases heq) s.sessions
    simp [RepairCall.pendingRestart, hphase]
  | reset _ hphase => exact h.reset hi hphase
  | restarted _ hphase => exact h.restart hi hphase
  | notified _ hphase =>
    refine h.move hi { c with phase := .next } rfl (hc.beyond (by rw [hphase]; nofun) nofun) ?_
      (fun _ heq => by cases heq) _
    simp [RepairCall.pendingRestart, hphase]

theorem Counted.start {s : RepairState} (h : s.Counted) (command : StreamRepairCommand) :
    Counted { s with calls := s.calls ++ [.start command] } where
  restarts x := by
    rw [List.countP_append]
    exact h.restarts x
  resets x := by
    rw [List.countP_append]
    exact h.resets x
  increasing := h.increasing
  below := h.below
  last := h.last
  named x hx := by
    obtain ⟨c, hc, hn⟩ := h.named x hx
    exact ⟨c, List.mem_append_left _ hc, hn⟩
  restartGeneration := h.restartGeneration
  credentialGeneration := h.credentialGeneration
  calls c hc := by
    obtain hc | hc := List.mem_append.mp hc
    · exact h.calls c hc
    · rw [List.mem_singleton.mp hc]
      exact RepairCall.sound_start command

theorem counted_step {s : RepairState} (h : s.Counted) (event : Event) :
    (s.step event).Counted := by
  cases event with
  | call command => exact h.start command
  | proceed i =>
    cases hi : s.calls[i]? with
    | none =>
      simp only [step, hi]
      exact h
    | some c =>
      simp only [step, hi]
      exact h.proceed hi (c.step_advance s.desired s.slots)
  | alive worker =>
    rw [step]
    split_ifs
    · exact h.same (sameCounts_readySequence s worker _ s.sessions)
    · exact h
  | session =>
    rw [step]
    split_ifs
    · exact h.same (sameCounts_sessions s _)
    · exact h
  | advance j =>
    cases hj : s.sessions[j]? with
    | none =>
      simp only [step, hj]
      exact h
    | some session =>
      simp only [step, hj]
      exact h.same (sameCounts_advanceSession s j session)

/-! ## What the histories say -/

namespace Counted

variable {s : RepairState} (h : s.Counted)

include h

end Counted

theorem counted_run (desired : ℕ) (events : List Event) :
    (events.foldl step { desired }).Counted :=
  List.foldlRecOn events _ (counted_init desired) fun _ hs event _ => counted_step hs event

/-- A call with the sequence that has read the last one of the worker puts its own in. -/
def Accepts (s : RepairState) (worker sequence : ℕ) : Prop :=
  ∀ c : RepairCall, c.command.sequence = sequence →
    c.phase = .compare worker (s.slots worker).lastSequence →
    (c.advance s.desired s.slots).2 = some (.accept worker)

theorem Counted.accepts {s : RepairState} (h : s.Counted) (hpos : 0 < sequence)
    (hbelow : ∀ c ∈ s.calls, c.command.sequence < sequence) : s.Accepts worker sequence := by
  intro c hseq hphase
  have hlast : (s.slots worker).lastSequence < sequence := by
    obtain hz | hm := h.last worker
    · rwa [hz]
    · obtain ⟨d, hd, -, heq⟩ := h.named _ hm
      exact heq.symm.trans_lt (hbelow d hd)
  rw [RepairCall.advance, hphase]
  dsimp only
  rw [hseq, if_neg (Nat.not_le_of_lt hlast), if_pos rfl]

end RepairState
end Csqtt
