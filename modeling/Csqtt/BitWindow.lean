import Mathlib.Algebra.NeZero
import Mathlib.Data.Nat.ModEq
import Mathlib.Logic.Function.Basic

/-!
# Bit windows

A window of the last `words * 64` counters as an array of 64-bit words, in which a counter has the
bit of its residue. `Tracks` says that the bits of the window tell which counters were seen;
`Arrivals` and `fresh` are the ideal it is compared with.
-/

namespace BitWindow

structure Bits (words : ℕ) where
  cells : Fin words → BitVec 64

def size (words : ℕ) : ℕ := words * 64

def index (words counter : ℕ) : ℕ := counter % size words

def mask (words counter : ℕ) : BitVec 64 := 1#64 <<< (index words counter % 64)

theorem getLsbD_mask (words c k : ℕ) :
    (mask words c).getLsbD k = decide (index words c % 64 = k) := by
  have hlt : index words c % 64 < 64 := Nat.mod_lt _ (by decide)
  rw [mask, ← BitVec.twoPow_eq]
  simp [hlt]

theorem index_ne_of_lt {words c d : ℕ} (hcd : c < d) (hs : d < c + size words) :
    index words d ≠ index words c := by
  intro h
  have hd : size words ∣ d - c := (Nat.modEq_iff_dvd' hcd.le).mp h.symm
  have hle := Nat.le_of_dvd (by omega) hd
  omega

section Bits

variable {words : ℕ} [NeZero words]

variable (words) in
theorem size_pos : 0 < size words := Nat.mul_pos (Nat.pos_of_neZero words) (by decide)

def word (counter : ℕ) : Fin words :=
  ⟨index words counter / 64, by
    have h := Nat.mod_lt counter (size_pos words)
    rw [size] at h
    rw [index, size]
    omega⟩

namespace Bits

def empty : Bits words := ⟨fun _ => 0⟩

def set (b : Bits words) (counter : ℕ) : Bits words :=
  ⟨Function.update b.cells (word counter) (b.cells (word counter) ||| mask words counter)⟩

def clear (b : Bits words) (counter : ℕ) : Bits words :=
  ⟨Function.update b.cells (word counter) (b.cells (word counter) &&& ~~~ mask words counter)⟩

def test (b : Bits words) (counter : ℕ) : Bool :=
  b.cells (word counter) &&& mask words counter != 0

/-- Clears the bits of the `count` counters after `start`. -/
def clearAfter (b : Bits words) (start count : ℕ) : Bits words :=
  (List.range count).foldl (fun b i => b.clear (start + (i + 1))) b

variable (b : Bits words)

theorem test_eq_getLsbD (c : ℕ) : b.test c = (b.cells (word c)).getLsbD (index words c % 64) := by
  have hlt : index words c % 64 < 64 := Nat.mod_lt _ (by decide)
  have ht : BitVec.twoPow 64 (index words c % 64) ≠ 0#64 := by
    intro h
    have hb := congrArg (fun x : BitVec 64 => x.getLsbD (index words c % 64)) h
    simp [hlt] at hb
  rw [test, mask, ← BitVec.twoPow_eq, BitVec.and_twoPow]
  cases (b.cells (word c)).getLsbD (index words c % 64) with
  | false => rfl
  | true => simpa using ht

theorem word_eq_iff (c d : ℕ) :
    (word c : Fin words) = word d ∧ index words c % 64 = index words d % 64 ↔
      index words c = index words d := by
  rw [word, word, Fin.mk.injEq]
  omega

variable {c d : ℕ}

section

variable (h : index words c = index words d)
include h

theorem word_congr : (word c : Fin words) = word d := ((word_eq_iff c d).mpr h).1

theorem set_congr (b : Bits words) : b.set c = b.set d := by
  rw [set, set, word_congr h, mask, mask, h]

theorem clear_congr (b : Bits words) : b.clear c = b.clear d := by
  rw [clear, clear, word_congr h, mask, mask, h]

theorem test_congr (b : Bits words) : b.test c = b.test d := by
  rw [test, test, word_congr h, mask, mask, h]

end

theorem test_set (c d : ℕ) :
    (b.set c).test d = (decide (index words c = index words d) || b.test d) := by
  rw [test_eq_getLsbD, test_eq_getLsbD, set]
  dsimp only
  by_cases hw : (word c : Fin words) = word d
  · rw [← hw, Function.update_self, BitVec.getLsbD_or, getLsbD_mask, Bool.or_comm]
    congr 2
    rw [← word_eq_iff c d]
    simp [hw]
  · rw [Function.update_of_ne (Ne.symm hw)]
    have hne : index words c ≠ index words d := fun h => hw ((word_eq_iff c d).mpr h).1
    rw [decide_eq_false hne, Bool.false_or]

theorem test_clear (c d : ℕ) :
    (b.clear c).test d = (!decide (index words c = index words d) && b.test d) := by
  have hlt : index words d % 64 < 64 := Nat.mod_lt _ (by decide)
  rw [test_eq_getLsbD, test_eq_getLsbD, clear]
  dsimp only
  by_cases hw : (word c : Fin words) = word d
  · rw [← hw, Function.update_self, BitVec.getLsbD_and, BitVec.getLsbD_not, getLsbD_mask,
      decide_eq_true hlt, Bool.true_and, Bool.and_comm]
    congr 3
    rw [← word_eq_iff c d]
    simp [hw]
  · rw [Function.update_of_ne (Ne.symm hw)]
    have hne : index words c ≠ index words d := fun h => hw ((word_eq_iff c d).mpr h).1
    rw [decide_eq_false hne, Bool.not_false, Bool.true_and]

@[simp] theorem test_empty (c : ℕ) : (empty : Bits words).test c = false := by
  rw [test_eq_getLsbD]
  exact BitVec.getLsbD_zero

theorem test_clearAfter (start count d : ℕ) :
    (b.clearAfter start count).test d = true ↔
      b.test d = true ∧ ∀ i < count, index words (start + (i + 1)) ≠ index words d := by
  induction count with
  | zero => simp [clearAfter]
  | succ count ih =>
    have hl : b.clearAfter start (count + 1) =
        (b.clearAfter start count).clear (start + (count + 1)) := by
      simp [clearAfter, List.range_succ]
    rw [hl, test_clear, Bool.and_eq_true, ih, Bool.not_eq_true', decide_eq_false_iff_not]
    constructor
    · rintro ⟨hne, ht, ha⟩
      refine ⟨ht, fun i hi => ?_⟩
      by_cases hic : i = count
      · rw [hic]
        exact hne
      · exact ha i (by omega)
    · rintro ⟨ht, ha⟩
      exact ⟨ha count (by omega), ht, fun i hi => ha i (by omega)⟩

end Bits

/-- The bits of the counters in the window below `highest` tell which of them were seen. -/
structure Tracks (b : Bits words) (highest : ℕ) (seen : List ℕ) : Prop where
  bits : ∀ c ≤ highest, highest < c + size words → (b.test c = true ↔ c ∈ seen)
  bound : ∀ c ∈ seen, c ≤ highest

namespace Tracks

variable {b : Bits words} {highest : ℕ} {seen : List ℕ}

variable (words) in
theorem single (c : ℕ) : Tracks ((Bits.empty : Bits words).set c) c [c] := by
  refine ⟨fun d hd hs => ?_, fun d hd => (List.mem_singleton.mp hd).le⟩
  rw [Bits.test_set, Bits.test_empty, Bool.or_false, decide_eq_true_iff, List.mem_singleton]
  constructor
  · intro h
    by_contra hne
    exact index_ne_of_lt (by omega) hs h
  · intro h
    rw [h]

variable {c : ℕ}

section

variable (h : Tracks b highest seen)
include h

theorem insert (hc : c ≤ highest) (hs : highest < c + size words) :
    Tracks (b.set c) highest (c :: seen) := by
  refine ⟨fun d hd hdsize => ?_, ?_⟩
  · rw [Bits.test_set, Bool.or_eq_true, decide_eq_true_iff, h.bits d hd hdsize, List.mem_cons]
    refine or_congr_left ⟨fun hi => ?_, fun he => by rw [he]⟩
    by_contra hne
    obtain hlt | hgt := Nat.lt_or_gt_of_ne hne
    · exact index_ne_of_lt hlt (by omega) hi
    · exact index_ne_of_lt hgt (by omega) hi.symm
  · intro d hd
    obtain rfl | hd := List.mem_cons.mp hd
    · exact hc
    · exact h.bound d hd

theorem known (hc : c ∈ seen) : Tracks b highest (c :: seen) := by
  refine ⟨fun d hd hdsize => ?_, ?_⟩
  · rw [h.bits d hd hdsize, List.mem_cons]
    refine (or_iff_right_of_imp fun he => ?_).symm
    rw [he]
    exact hc
  · intro d hd
    obtain rfl | hd := List.mem_cons.mp hd
    · exact h.bound _ hc
    · exact h.bound d hd

theorem jump (hc : highest + size words ≤ c) :
    Tracks ((Bits.empty : Bits words).set c) c (c :: seen) := by
  have ho := single words c
  refine ⟨fun d hd hs => ?_, ?_⟩
  · rw [ho.bits d hd hs, List.mem_singleton, List.mem_cons]
    constructor
    · exact Or.inl
    · rintro (rfl | hm)
      · rfl
      · have := h.bound d hm
        omega
  · intro d hd
    obtain rfl | hd := List.mem_cons.mp hd
    · exact le_rfl
    · have := h.bound d hd
      omega

theorem advance (hc : highest < c) :
    Tracks ((b.clearAfter highest (c - highest)).set c) c (c :: seen) := by
  have hcleared : Tracks (b.clearAfter highest (c - highest)) c seen := by
    refine ⟨fun d hd hdsize => ?_, fun d hd => (h.bound d hd).trans hc.le⟩
    rw [Bits.test_clearAfter]
    by_cases ho : d ≤ highest
    · rw [h.bits d ho (by omega)]
      refine and_iff_left_of_imp fun _ i hi => ?_
      exact index_ne_of_lt (by omega) (by omega)
    · refine iff_of_false (fun ha => ?_) (fun hm => ho (h.bound d hm))
      have hl := ha.2 (d - highest - 1) (by omega)
      have hd' : highest + (d - highest - 1 + 1) = d := by omega
      rw [hd'] at hl
      exact hl rfl
  exact hcleared.insert le_rfl (by have := size_pos words; omega)

end

end Tracks
end Bits

section Arrivals

variable {σ ι : Type*}

/-- Every arrival is allowed after those before it, the latest of which come first in `seen`. -/
def Arrivals (Allowed : List ℕ → ℕ → Prop) : List ℕ → List ℕ → Prop
  | _, [] => True
  | seen, n :: ns => Allowed seen n ∧ Arrivals Allowed (n :: seen) ns

variable {seen : List ℕ}

theorem arrivals_and {A B : List ℕ → ℕ → Prop} {ns : List ℕ} (ha : Arrivals A seen ns)
    (hb : Arrivals B seen ns) : Arrivals (fun s n => A s n ∧ B s n) seen ns := by
  induction ns generalizing seen with
  | nil => trivial
  | cons _ _ ih => exact ⟨⟨ha.1, hb.1⟩, ih ha.2 hb.2⟩

def fresh : List ℕ → List ℕ → List Bool
  | _, [] => []
  | seen, n :: ns => decide (n ∉ seen) :: fresh (n :: seen) ns

def answers (accept : σ → ι → σ × Bool) : σ → List ι → List Bool
  | _, [] => []
  | s, i :: is => (accept s i).2 :: answers accept (accept s i).1 is

/-- The simulation rule: if one arrival is answered as in the ideal and the states stay related,
all arrivals are. -/
theorem answers_eq_fresh {accept : σ → ι → σ × Bool} {wire : ℕ → ι} {Allowed : List ℕ → ℕ → Prop}
    {Rel : σ → List ℕ → Prop} (hs : ∀ s seen n, Rel s seen → Allowed seen n →
      (accept s (wire n)).2 = decide (n ∉ seen) ∧ Rel (accept s (wire n)).1 (n :: seen)) {s : σ}
    {ns : List ℕ} (hr : Rel s seen) (hns : Arrivals Allowed seen ns) :
    answers accept s (ns.map wire) = fresh seen ns := by
  induction ns generalizing s seen with
  | nil => rfl
  | cons n _ ih =>
    obtain ⟨ha, hr'⟩ := hs s seen n hr hns.1
    rw [List.map_cons, answers, fresh, ha, ih hr' hns.2]

/-- Less than `behind` below the largest number so far and less than `ahead` above it. -/
def Within (behind ahead : ℕ) (seen : List ℕ) (n : ℕ) : Prop :=
  match seen.max? with
  | none => True
  | some m => m < n + behind ∧ n < m + ahead

theorem max?_cons_of_some {m : ℕ} (h : seen.max? = some m) (n : ℕ) :
    (n :: seen).max? = some (max n m) := by
  rw [List.max?_cons, h]
  rfl

end Arrivals
end BitWindow
