import Csqtt.Runs
import Csqtt.ServerEpoch

/-!
# Admission of epochs

A device epoch holds the highest generation that was requested, and its salt changes only with the
generation. The engine decides on a GETCONF of a live session by its own rule; on a session that is
not newer it rejects exactly what the control plane would not admit.
-/

namespace Csqtt

/-- The decisions with which a request is taken. -/
def EpochDecision.isAccepted : EpochDecision → Bool
  | .current => true
  | .advanced => true
  | .stale => false
  | .saltConflict => false

namespace DeviceEpochState

def admitAll (s : DeviceEpochState) (requests : List (ℕ × Text)) : DeviceEpochState :=
  requests.foldl (fun s r => (s.admitEpoch r.1 r.2).1) s

/-- What an admission does. -/
structure Admits (s s' : DeviceEpochState) (generationId : ℕ) (sessionSalt : Text) (taken : Bool) :
    Prop where
  generation : s'.generationId = max s.generationId generationId
  salt : s'.generationId = s.generationId → s'.sessionSalt = s.sessionSalt
  taken : taken = true → s'.generationId = generationId ∧ s'.sessionSalt = sessionSalt

variable {k generationId j : ℕ}

theorem admits_admitEpoch (s : DeviceEpochState) (hg : 1 ≤ generationId) (sessionSalt : Text) :
    Admits s (s.admitEpoch generationId sessionSalt).1 generationId sessionSalt
      (s.admitEpoch generationId sessionSalt).2.isAccepted := by
  unfold admitEpoch
  by_cases hs : s.generationId = 0 ∧ s.sessionSalt = []
  · rw [if_pos hs]
    refine ⟨?_, fun heq => ?_, fun _ => ⟨rfl, rfl⟩⟩
    · rw [hs.1, Nat.zero_max]
    · dsimp only at heq
      omega
  · split_ifs with hstale ha hsalt
    · exact ⟨(max_eq_left hstale.le).symm, fun _ => rfl, fun ht => by cases ht⟩
    · refine ⟨(max_eq_right ha.le).symm, fun heq => ?_, fun _ => ⟨rfl, rfl⟩⟩
      dsimp only at heq
      omega
    · have heq : s.generationId = generationId := by omega
      exact ⟨by rw [heq, max_self], fun _ => rfl, fun _ => ⟨heq, hsalt.symm⟩⟩
    · have heq : s.generationId = generationId := by omega
      exact ⟨by rw [heq, max_self], fun _ => rfl, fun ht => by cases ht⟩

section Runs

variable {s : DeviceEpochState} {requests : List (ℕ × Text)}

theorem admitAll_cons (s : DeviceEpochState) (r : ℕ × Text) (requests : List (ℕ × Text)) :
    s.admitAll (r :: requests) = (s.admitEpoch r.1 r.2).1.admitAll requests := rfl

theorem generationId_admitAll (h : ∀ r ∈ requests, 1 ≤ r.1) :
    (s.admitAll requests).generationId = (requests.map Prod.fst).foldl max s.generationId := by
  induction requests generalizing s with
  | nil => rfl
  | cons r _ ih =>
    have ha := admits_admitEpoch s (h r List.mem_cons_self) r.2
    rw [admitAll_cons, ih (fun r' hr' => h r' (List.mem_cons_of_mem r hr')), ha.generation]
    rfl

theorem admitAll_le (h : ∀ r ∈ requests, 1 ≤ r.1) :
    s.generationId ≤ (s.admitAll requests).generationId ∧
      ((s.admitAll requests).generationId = s.generationId →
        (s.admitAll requests).sessionSalt = s.sessionSalt) := by
  induction requests generalizing s with
  | nil => exact ⟨le_rfl, fun _ => rfl⟩
  | cons r _ ih =>
    have ha := admits_admitEpoch s (h r List.mem_cons_self) r.2
    obtain ⟨hle, hs⟩ := ih (s := (s.admitEpoch r.1 r.2).1) fun r' hr' =>
      h r' (List.mem_cons_of_mem r hr')
    have hf : s.generationId ≤ (s.admitEpoch r.1 r.2).1.generationId := by
      rw [ha.generation]
      exact le_max_left _ _
    rw [admitAll_cons]
    refine ⟨hf.trans hle, fun heq => ?_⟩
    have hk : (s.admitEpoch r.1 r.2).1.generationId = s.generationId := by omega
    rw [hs (heq.trans hk.symm), ha.salt hk]

end Runs

def TakenAt (requests : List (ℕ × Text)) (k : ℕ) (r : ℕ × Text) : Prop :=
  requests[k]? = some r ∧
    (((admitAll {} (requests.take k)).admitEpoch r.1 r.2).2).isAccepted = true

theorem TakenAt.admitAll_eq {requests : List (ℕ × Text)} (h : ∀ r ∈ requests, 1 ≤ r.1)
    {r : ℕ × Text} (hk : TakenAt requests k r) :
    (admitAll {} (requests.take (k + 1))).generationId = r.1 ∧
      (admitAll {} (requests.take (k + 1))).sessionSalt = r.2 := by
  obtain ⟨hg, ht⟩ := hk
  rw [admitAll, Runs.foldl_take_succ hg]
  exact (admits_admitEpoch _ (h r (List.mem_of_getElem? hg)) r.2).taken ht

/-- Between two places of the sequence the generation does not decrease, and the salt changes only
with it. -/
theorem admitAll_take_le {requests : List (ℕ × Text)} (h : ∀ r ∈ requests, 1 ≤ r.1) (hjk : j ≤ k) :
    (admitAll {} (requests.take j)).generationId ≤ (admitAll {} (requests.take k)).generationId ∧
      ((admitAll {} (requests.take k)).generationId = (admitAll {} (requests.take j)).generationId →
        (admitAll {} (requests.take k)).sessionSalt =
          (admitAll {} (requests.take j)).sessionSalt) := by
  have hrun : admitAll {} (requests.take k) =
      (admitAll {} (requests.take j)).admitAll ((requests.take k).drop j) := Runs.foldl_take hjk
  rw [hrun]
  exact admitAll_le fun r hr => h r (List.mem_of_mem_take (List.mem_of_mem_drop hr))

theorem salt_eq_of_taken {requests : List (ℕ × Text)} (h : ∀ r ∈ requests, 1 ≤ r.1)
    (hjk : j ≤ k) {r r' : ℕ × Text} (hj : TakenAt requests j r) (hk : TakenAt requests k r')
    (heq : r.1 = r'.1) : r.2 = r'.2 := by
  obtain ⟨hg, hs⟩ := hj.admitAll_eq h
  obtain ⟨hg', hs'⟩ := hk.admitAll_eq h
  have hl := (admitAll_take_le h (Nat.succ_le_succ hjk)).2
  rw [← hs, ← hs', hl (by rw [hg, hg', heq])]

end DeviceEpochState

def NotNewer (epoch : EpochValue) (session incoming : Identity) : Prop :=
  session.deviceId = [] ∨
    (session.deviceId = incoming.deviceId ∧ session.generationId ≤ epoch.generationId ∧
      (session.generationId = epoch.generationId → session.sessionSalt = epoch.sessionSalt))

theorem hot_reject_iff {epoch : EpochValue} {session incoming : Identity}
    (h : NotNewer epoch session incoming) :
    getconfReconnectActionHot (some epoch) session incoming = .reject ↔
      incoming.generationId < epoch.generationId ∨
        (incoming.generationId = epoch.generationId ∧
          incoming.sessionSalt ≠ epoch.sessionSalt) := by
  unfold getconfReconnectActionHot
  by_cases hcount : session.deviceId ≠ [] ∧ conflicts session incoming = true
  · rw [if_pos hcount]
    obtain ⟨hd, hle, hsalt⟩ := h.resolve_left hcount.1
    have hcases := hcount.2
    simp only [conflicts, hd, ne_eq, not_true_eq_false, decide_false, Bool.false_or,
      Bool.or_eq_true, Bool.and_eq_true, decide_eq_true_eq] at hcases
    refine ⟨fun _ => ?_, fun _ => rfl⟩
    obtain hl | ⟨heq, hne⟩ := hcases
    · exact .inl (hl.trans_le hle)
    · obtain hl | hs := hle.lt_or_eq
      · exact .inl (heq ▸ hl)
      · exact .inr ⟨heq.trans hs, hsalt hs ▸ hne⟩
  · dsimp only
    split_ifs with hr hs hid
    · exact ⟨fun _ => hr, fun _ => rfl⟩
    · exact ⟨fun hf => (by cases hf), fun hc => absurd hc hr⟩
    · exact ⟨fun hf => (by cases hf), fun hc => absurd hc hr⟩
    · exact ⟨fun hf => (by cases hf), fun hc => absurd hc hr⟩

theorem not_isAccepted_iff {s : DeviceEpochState} (hs : 1 ≤ s.generationId) (generationId : ℕ)
    (sessionSalt : Text) : (s.admitEpoch generationId sessionSalt).2 = .stale ∨
        (s.admitEpoch generationId sessionSalt).2 = .saltConflict ↔ generationId < s.generationId ∨
        (generationId = s.generationId ∧ sessionSalt ≠ s.sessionSalt) := by
  unfold DeviceEpochState.admitEpoch
  rw [if_neg (by omega)]
  split_ifs with hstale ha hsalt
  · simp [hstale]
  · simp
    omega
  · simp [hsalt]
    omega
  · have heq : generationId = s.generationId := by omega
    simp [heq, hsalt]

/-- Epochs are admitted in order of their generations and with one salt each, and the engine's own
rule agrees. -/
theorem epoch_admission : (∀ requests : List (ℕ × Text), (∀ r ∈ requests, 1 ≤ r.1) →
      (∀ j k, j ≤ k → (DeviceEpochState.admitAll {} (requests.take j)).generationId ≤
        (DeviceEpochState.admitAll {} (requests.take k)).generationId) ∧
      (DeviceEpochState.admitAll {} requests).generationId = (requests.map Prod.fst).foldl max 0 ∧
      ∀ j k r r', DeviceEpochState.TakenAt requests j r → DeviceEpochState.TakenAt requests k r' →
        r.1 = r'.1 → r.2 = r'.2) ∧
    ∀ (s : DeviceEpochState) (epoch : EpochValue) (session incoming : Identity),
      epoch.generationId = s.generationId → epoch.sessionSalt = s.sessionSalt → 1 ≤ s.generationId →
      NotNewer epoch session incoming →
      (getconfReconnectActionHot (some epoch) session incoming = .reject ↔
        (s.admitEpoch incoming.generationId incoming.sessionSalt).2 = .stale ∨
          (s.admitEpoch incoming.generationId incoming.sessionSalt).2 = .saltConflict) := by
  refine ⟨fun requests h => ⟨fun j k hjk => ?_, ?_, fun j k r r' hj hk heq => ?_⟩, ?_⟩
  · exact (DeviceEpochState.admitAll_take_le h hjk).1
  · exact DeviceEpochState.generationId_admitAll h
  · obtain hjk | hkj := le_total j k
    · exact DeviceEpochState.salt_eq_of_taken h hjk hj hk heq
    · exact (DeviceEpochState.salt_eq_of_taken h hkj hk hj heq.symm).symm
  · intro s epoch session incoming hg hsalt hs hsession
    rw [hot_reject_iff hsession, not_isAccepted_iff hs, hg, hsalt]

/-- Generation 2 comes after generation 3: the epoch stays at 3, and the engine rejects it too. -/
theorem epoch_admission_late :
    (DeviceEpochState.admitAll {} [(1, ['a']), (3, ['b']), (2, ['a'])]).generationId = 3 ∧
      getconfReconnectActionHot (some ⟨3, ['b'], 0⟩) ⟨['d'], 1, ['a']⟩ ⟨['d'], 2, ['a']⟩ =
      .reject := by
  refine ⟨(epoch_admission.1 [(1, ['a']), (3, ['b']), (2, ['a'])] (by decide)).2.1,
    (epoch_admission.2 ⟨3, ['b']⟩ _ _ _ rfl rfl (by decide) ?_).mpr (.inl (by decide))⟩
  exact .inr ⟨rfl, by decide, by decide⟩

end Csqtt
