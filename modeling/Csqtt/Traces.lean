import Csqtt.Runs

/-!
# Traces of a labelled relation

A trace is a sequence of moves with the list of their labels. A machine whose every step is a trace
of a relation has only runs that are traces, so what every trace keeps the machine keeps.
-/

namespace Csqtt

variable {σ α ι : Type*}

/-- The moves lead from the first state to the second, and their labels are the list. -/
inductive Trace (R : σ → α → σ → Prop) (s : σ) : List α → σ → Prop
  | refl : Trace R s [] s
  | tail {labels : List α} {s' s'' : σ} {label : α} :
      Trace R s labels s' → R s' label s'' → Trace R s (labels ++ [label]) s''

namespace Trace

variable {R : σ → α → σ → Prop} {s s' s'' : σ} {labels labels' : List α}

theorem single {label : α} (h : R s label s') : Trace R s [label] s' := tail refl h

theorem trans (h : Trace R s labels s') (h' : Trace R s' labels' s'') :
    Trace R s (labels ++ labels') s'' := by
  induction h' with
  | refl => rwa [List.append_nil]
  | tail _ hm ih =>
    rw [← List.append_assoc]
    exact ih.tail hm

/-- What holds at the start with nothing done and is kept by every move, with its label added. -/
theorem invariant_history {H : List α → σ → Prop}
    (hm : ∀ labels s label s', H labels s → R s label s' → H (labels ++ [label]) s')
    (hs : H [] s) (h : Trace R s labels s') : H labels s' := by
  induction h with
  | refl => exact hs
  | tail _ hr ih => exact hm _ _ _ _ ih hr

theorem invariant {I : σ → Prop} (hm : ∀ s label s', I s → R s label s' → I s') (hs : I s)
    (h : Trace R s labels s') : I s' :=
  invariant_history (H := fun _ => I) (fun _ s label s' => hm s label s') hs h

/-- The steps of a machine that are traces make up one trace. The steps may need an invariant of the
moves, and `P` is what is known of the labels. -/
theorem of_run {step : σ → ι → σ} {I : σ → Prop} {Q : σ → ι → Prop} {P : List α → Prop}
    (hstep : ∀ s i, I s → Q s i → ∃ labels, Trace R s labels (step s i) ∧ P labels)
    (hm : ∀ s label s', I s → R s label s' → I s') (hn : P [])
    (ha : ∀ labels labels', P labels → P labels' → P (labels ++ labels'))
    (inputs : List ι) (hs : I s) (hq : Runs.Along step Q s inputs) :
    ∃ labels, Trace R s labels (inputs.foldl step s) ∧ P labels := by
  induction inputs generalizing s with
  | nil => exact ⟨[], refl, hn⟩
  | cons i _ ih =>
    obtain ⟨labels, htrace, hl⟩ := hstep s i hs hq.1
    obtain ⟨labels', ht', hl'⟩ := ih (invariant hm hs htrace) hq.2
    exact ⟨labels ++ labels', htrace.trans ht', ha labels labels' hl hl'⟩

end Trace
end Csqtt
