import Mathlib.Data.List.Basic

/-!
# Runs of a step function

A run is a list of inputs folded over a step function. `Always` speaks of every state a run
passes, `Along` of every step it takes; an invariant that one step keeps holds along a whole run.
-/

namespace Runs

variable {σ ι : Type*} (step : σ → ι → σ)

def Along (Q : σ → ι → Prop) : σ → List ι → Prop
  | _, [] => True
  | s, i :: is => Q s i ∧ Along Q (step s i) is

def Always (P : σ → Prop) : σ → List ι → Prop
  | s, [] => P s
  | s, i :: is => P s ∧ Always P (step s i) is

instance (Q : σ → ι → Prop) [∀ s i, Decidable (Q s i)] (s : σ) (is : List ι) :
    Decidable (Along step Q s is) :=
  match is with
  | [] => inferInstanceAs (Decidable True)
  | i :: is =>
    have : Decidable (Along step Q (step s i) is) := instDecidableAlong Q (step s i) is
    inferInstanceAs (Decidable (Q s i ∧ Along step Q (step s i) is))

instance (P : σ → Prop) [DecidablePred P] (s : σ) (is : List ι) : Decidable (Always step P s is) :=
  match is with
  | [] => inferInstanceAs (Decidable (P s))
  | i :: is =>
    have : Decidable (Always step P (step s i) is) := instDecidableAlwaysOfDecidablePred P _ is
    inferInstanceAs (Decidable (P s ∧ Always step P (step s i) is))

variable {step} {P I : σ → Prop} {Q R : σ → ι → Prop} {s : σ} {is : List ι}

theorem along_and :
    Along step (fun s i => Q s i ∧ R s i) s is ↔ Along step Q s is ∧ Along step R s is := by
  induction is generalizing s with
  | nil => simp [Along]
  | cons _ _ ih => simp only [Along, ih]; tauto

theorem along_of_forall (h : ∀ s i, Q s i) : Along step Q s is := by
  induction is generalizing s with
  | nil => trivial
  | cons i _ ih => exact ⟨h s i, ih⟩

theorem along_mono (h : ∀ s i, Q s i → R s i) (hq : Along step Q s is) : Along step R s is := by
  induction is generalizing s with
  | nil => trivial
  | cons i _ ih => exact ⟨h s i hq.1, ih hq.2⟩

theorem along_append {is' : List ι} :
    Along step Q s (is ++ is') ↔ Along step Q s is ∧ Along step Q (is.foldl step s) is' := by
  induction is generalizing s with
  | nil => simp [Along]
  | cons _ _ ih => simp only [List.cons_append, Along, List.foldl_cons, ih, and_assoc]

theorem along_iff_append : Along step Q s is ↔
    ∀ before i after, is = before ++ i :: after → Q (before.foldl step s) i := by
  constructor
  · rintro h before i after rfl
    exact (along_append.mp h).2.1
  · intro h
    induction is generalizing s with
    | nil => trivial
    | cons i is ih =>
      refine ⟨h [] i is rfl, ih fun before j after heq => ?_⟩
      exact h (i :: before) j after (by rw [heq, List.cons_append])

theorem along_of_always (h : Always step P s is) : Along step (fun s _ => P s) s is := by
  induction is generalizing s with
  | nil => trivial
  | cons _ _ ih => exact ⟨h.1, ih h.2⟩

theorem along_of_forall_mem (step : σ → ι → σ) (s : σ) {p : ι → Prop} (h : ∀ i ∈ is, p i) :
    Along step (fun _ i => p i) s is := by
  induction is generalizing s with
  | nil => trivial
  | cons i _ ih =>
    exact ⟨h i (List.mem_cons_self ..), ih _ (fun j hj => h j (List.mem_cons_of_mem _ hj))⟩

theorem along_take (hq : Along step Q s is) (k : ℕ) : Along step Q s (is.take k) := by
  induction is generalizing s k with
  | nil => simp [Along]
  | cons _ _ ih =>
    cases k with
    | zero => trivial
    | succ k => exact ⟨hq.1, ih hq.2 k⟩

/-- The invariant rule: what every allowed step keeps holds at the end of an allowed run. -/
theorem invariant (hstep : ∀ s i, I s → Q s i → I (step s i)) (hs : I s)
    (hq : Along step Q s is) : I (is.foldl step s) := by
  induction is generalizing s with
  | nil => exact hs
  | cons i _ ih => exact ih (hstep s i hs hq.1) hq.2

/-- What an invariant gives of each allowed step holds of every step of an allowed run. -/
theorem along_invariant (hstep : ∀ s i, I s → Q s i → I (step s i))
    (hR : ∀ s i, I s → Q s i → R s i) (hs : I s) (hq : Along step Q s is) : Along step R s is := by
  induction is generalizing s with
  | nil => trivial
  | cons i _ ih => exact ⟨hR s i hs hq.1, ih (hstep s i hs hq.1) hq.2⟩

/-- The invariant rule for properties of the inputs taken so far and the state they lead to. -/
theorem invariant_history {H : List ι → σ → Prop}
    (hstep : ∀ is s i, H is s → Q s i → H (is ++ [i]) (step s i)) (hs : H [] s)
    (hq : Along step Q s is) : H is (is.foldl step s) := by
  have hr : ∀ (is done : List ι) (s : σ), H done s → Along step Q s is →
      H (done ++ is) (is.foldl step s) := by
    intro is
    induction is with
    | nil => intro done s h _; simpa using h
    | cons i _ ih =>
      intro done s h hq
      have hi := ih (done ++ [i]) (step s i) (hstep done s i h hq.1) hq.2
      simpa only [List.append_assoc, List.singleton_append, List.foldl_cons] using hi
  simpa using hr is [] s hs hq

theorem always_iff_take : Always step P s is ↔ ∀ k, P ((is.take k).foldl step s) := by
  induction is generalizing s with
  | nil => simp [Always]
  | cons _ _ ih =>
    simp only [Always, ih]
    constructor
    · rintro ⟨hs, h⟩ k
      cases k with
      | zero => exact hs
      | succ k => exact h k
    · exact fun h => ⟨h 0, fun k => h (k + 1)⟩

theorem always_invariant (hstep : ∀ s i, I s → Q s i → I (step s i)) (hs : I s)
    (hq : Along step Q s is) : Always step I s is :=
  always_iff_take.mpr (fun k => invariant hstep hs (along_take hq k))

theorem always_mono (h : ∀ s, P s → I s) (hp : Always step P s is) : Always step I s is :=
  always_iff_take.mpr (fun k => h _ (always_iff_take.mp hp k))

/-- A property that one step keeps exactly under `R` holds throughout a run exactly when every
step of the run meets `R`. The invariant `I` and the side condition `Q` are given. -/
theorem always_iff_along (hI : ∀ s i, I s → Q s i → I (step s i))
    (hP : ∀ s i, I s → P s → Q s i → (P (step s i) ↔ R s i)) (hi : I s) (hp : P s)
    (hq : Along step Q s is) : Always step P s is ↔ Along step R s is := by
  induction is generalizing s with
  | nil => exact iff_of_true hp trivial
  | cons i _ ih =>
    have hs := hP s i hi hp hq.1
    constructor
    · rintro ⟨_, h⟩
      have hp' : P (step s i) := always_iff_take.mp h 0
      exact ⟨hs.mp hp', (ih (hI s i hi hq.1) hp' hq.2).mp h⟩
    · rintro ⟨hr, h⟩
      exact ⟨hp, (ih (hI s i hi hq.1) (hs.mpr hr) hq.2).mpr h⟩

/-- What the steps of a run put out, one after the other. -/
def collect {ω : Type*} (step : σ → ι → σ) (out : σ → ι → List ω) : σ → List ι → List ω
  | _, [] => []
  | s, i :: is => out s i ++ collect step out (step s i) is

theorem foldl_take {k j : ℕ} (h : k ≤ j) :
    (is.take j).foldl step s = ((is.take j).drop k).foldl step ((is.take k).foldl step s) := by
  have hs : is.take k ++ (is.take j).drop k = is.take j := by
    have ha := List.take_append_drop k (is.take j)
    rwa [List.take_take, Nat.min_eq_left h] at ha
  rw [← List.foldl_append, hs]

theorem foldl_take_succ {k : ℕ} {i : ι} (h : is[k]? = some i) :
    (is.take (k + 1)).foldl step s = step ((is.take k).foldl step s) i := by
  obtain ⟨hlt, rfl⟩ := List.getElem?_eq_some_iff.mp h
  rw [List.take_succ_eq_append_getElem hlt, List.foldl_append]
  rfl

end Runs
