import Mathlib.Data.List.Basic
import Mathlib.Data.List.Perm.Basic

/-!
# Taking turns

The elements of several groups in rounds: the first of each group, then the second of each, until a
round finds nothing. Every element is taken exactly once.
-/

namespace RoundRobin

variable {α : Type*}

/-- The rounds from an offset on. One round more than the longest group has elements is enough. -/
def rounds (groups : List (List α)) : ℕ → ℕ → List α
  | 0, _ => []
  | fuel + 1, offset =>
    let added := groups.filterMap (·[offset]?)
    if added.isEmpty then [] else added ++ rounds groups fuel (offset + 1)

theorem round_cons (group : List α) (groups : List (List α)) (offset : ℕ) :
    (group :: groups).filterMap (·[offset]?) =
      (group[offset]?).toList ++ groups.filterMap (·[offset]?) := by
  rw [List.filterMap_cons]
  cases group[offset]? <;> rfl

theorem round_perm (groups : List (List α)) (offset : ℕ) :
    (groups.filterMap (·[offset]?) ++ groups.flatMap (·.drop (offset + 1))).Perm
      (groups.flatMap (·.drop offset)) := by
  induction groups with
  | nil => exact .refl _
  | cons group groups ih =>
    have hgroup : group.drop offset = (group[offset]?).toList ++ group.drop (offset + 1) := by
      cases hg : group[offset]? with
      | none =>
        have hl := List.getElem?_eq_none_iff.mp hg
        rw [List.drop_of_length_le hl, List.drop_of_length_le (Nat.le_succ_of_le hl)]
        rfl
      | some =>
        obtain ⟨hlt, rfl⟩ := List.getElem?_eq_some_iff.mp hg
        exact List.drop_eq_getElem_cons hlt
    rw [round_cons, List.flatMap_cons, List.flatMap_cons, hgroup, List.append_assoc,
      List.append_assoc]
    exact ((List.perm_append_comm_assoc _ _ _).trans (ih.append_left _)).append_left _

theorem rounds_perm {groups : List (List α)} {fuel offset : ℕ}
    (hf : ∀ group ∈ groups, group.length < offset + fuel) :
    (rounds groups fuel offset).Perm (groups.flatMap (·.drop offset)) := by
  induction fuel generalizing offset with
  | zero =>
    have hd : groups.flatMap (·.drop offset) = [] := by
      rw [List.flatMap_eq_nil_iff]
      intro group hg
      exact List.drop_of_length_le (Nat.le_of_lt (hf group hg))
    rw [hd]
    exact .refl _
  | succ fuel ih =>
    rw [rounds]
    split_ifs with he
    · have hd : groups.flatMap (·.drop offset) = [] := by
        rw [List.flatMap_eq_nil_iff]
        intro group hg
        have hn := List.filterMap_eq_nil_iff.mp (List.isEmpty_iff.mp he) group hg
        exact List.drop_of_length_le (List.getElem?_eq_none_iff.mp hn)
      rw [hd]
    · have hf' : ∀ group ∈ groups, group.length < offset + 1 + fuel := by
        intro group hg
        have hlt := hf group hg
        omega
      have hr := ih hf'
      exact (hr.append_left _).trans (round_perm groups offset)

/-- When every group has ended, more rounds change nothing. -/
theorem rounds_of_le {groups : List (List α)} {fuel more offset : ℕ}
    (hf : ∀ group ∈ groups, group.length < offset + fuel) (hle : fuel ≤ more) :
    rounds groups more offset = rounds groups fuel offset := by
  induction fuel generalizing more offset with
  | zero =>
    cases more with
    | zero => rfl
    | succ =>
      have hn : groups.filterMap (·[offset]?) = [] :=
        List.filterMap_eq_nil_iff.mpr fun group hg =>
          List.getElem?_eq_none_iff.mpr (Nat.le_of_lt (hf group hg))
      simp [rounds, hn]
  | succ fuel ih =>
    obtain ⟨more, rfl⟩ := Nat.exists_eq_add_of_le' (Nat.one_le_of_lt hle)
    have hr : rounds groups more (offset + 1) = rounds groups fuel (offset + 1) := by
      refine ih (fun group hg => ?_) (Nat.le_of_succ_le_succ hle)
      have hlt := hf group hg
      omega
    rw [rounds, rounds, hr]

/-- An initial part of the rounds ends in some round: of a kind that has one element in
each of the first `l` rounds it holds those of the rounds before. -/
theorem exists_round_of_take (groups : List (List α)) (fuel offset k : ℕ) :
    ∃ r, ∀ (p : α → Bool) (l : ℕ),
      (∀ n, (groups.filterMap (·[n]?)).countP p = if n < l then 1 else 0) →
        min l r ≤ min l offset + ((rounds groups fuel offset).take k).countP p ∧
          min l offset + ((rounds groups fuel offset).take k).countP p ≤ min l (r + 1) := by
  induction fuel generalizing offset k with
  | zero =>
    refine ⟨offset, fun p l _ => ?_⟩
    simp only [rounds, List.take_nil, List.countP_nil]
    omega
  | succ fuel ih =>
    rw [rounds]
    split_ifs
    · refine ⟨offset, fun p l _ => ?_⟩
      simp only [List.take_nil, List.countP_nil]
      omega
    · by_cases hk : k ≤ (groups.filterMap (·[offset]?)).length
      · refine ⟨offset, fun p l hround => ?_⟩
        have hle := (List.take_sublist k (groups.filterMap (·[offset]?))).countP_le (p := p)
        have ho := hround offset
        rw [List.take_append_of_le_length hk]
        split_ifs at ho <;> omega
      · obtain ⟨r, hr⟩ := ih (offset + 1) (k - (groups.filterMap (·[offset]?)).length)
        refine ⟨r, fun p l hround => ?_⟩
        have hrest := hr p l hround
        have ho := hround offset
        rw [List.take_append, List.take_of_length_le (Nat.le_of_not_le hk), List.countP_append]
        split_ifs at ho <;> omega

end RoundRobin
