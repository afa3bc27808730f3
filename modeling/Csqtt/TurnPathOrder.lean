import Csqtt.ClientDispatcher

/-!
# The order of the carriers

`interleave_turn_paths` sorts the workers, groups them by TURN path and takes one of
each group in turn. The result depends on the set of workers only, and every initial
part of it holds nearly equally many workers of each path.
-/

namespace Csqtt
namespace WorkerChannels

/-! ## Sorting -/

theorem turnPath_cases (a b : WorkerChannels) :
    a.turnPath < b.turnPath ∨ a.turnPath = b.turnPath ∨ b.turnPath < a.turnPath := by
  by_cases hlt : a.turnPath < b.turnPath
  · exact .inl hlt
  · by_cases hgt : b.turnPath < a.turnPath
    · exact .inr (.inr hgt)
    · exact .inr (.inl (List.le_antisymm (List.not_lt.mp hgt) (List.not_lt.mp hlt)))

instance : Std.Total Before where
  total a b := by
    obtain hlt | heq | hgt := turnPath_cases a b
    · exact .inl (.inl hlt)
    · obtain hle | hle := Nat.le_total a.id b.id
      · exact .inl (.inr ⟨heq, hle⟩)
      · exact .inr (.inr ⟨heq.symm, hle⟩)
    · exact .inr (.inl hgt)

instance : IsTrans WorkerChannels Before where
  trans a b c := by
    rintro (hab | ⟨hab, hle⟩) (hbc | ⟨hbc, hle'⟩)
    · exact .inl (List.lt_trans hab hbc)
    · exact .inl (hbc ▸ hab)
    · exact .inl (hab ▸ hbc)
    · exact .inr ⟨hab.trans hbc, hle.trans hle'⟩

theorem Before.antisymm {a b : WorkerChannels} (h : a.Before b) (h' : b.Before a) :
    a.id = b.id := by
  obtain hlt | ⟨heq, hle⟩ := h <;> obtain hgt | ⟨he', hge⟩ := h'
  · exact absurd (List.lt_trans hlt hgt) (List.lt_irrefl _)
  · exact absurd (he' ▸ hlt) (List.lt_irrefl _)
  · exact absurd (heq ▸ hgt) (List.lt_irrefl _)
  · exact Nat.le_antisymm hle hge

/-! ## Grouping -/

/-- Groups of one path each, in the order of the paths. -/
structure Grouped (groups : List (List WorkerChannels)) : Prop where
  nonempty : ∀ group ∈ groups, group ≠ []
  same : ∀ group ∈ groups, ∀ a ∈ group, ∀ b ∈ group, a.turnPath = b.turnPath
  increasing : groups.Pairwise fun g h => ∀ a ∈ g, ∀ b ∈ h, a.turnPath < b.turnPath

variable {groups : List (List WorkerChannels)}

theorem Grouped.join (h : Grouped groups)
    {worker : WorkerChannels} (hlast : ∀ a ∈ groups.flatten, a.Before worker) :
    Grouped (joinGroups groups worker) := by
  obtain rfl | ⟨init, last, rfl⟩ := List.eq_nil_or_concat groups
  · exact ⟨by simp [joinGroups], by simp [joinGroups], by simp [joinGroups]⟩
  obtain ⟨first, rest, rfl⟩ := List.exists_cons_of_ne_nil (h.nonempty last (by simp))
  obtain ⟨hnonempty, hsame, hincr⟩ := h
  simp only [List.concat_eq_append, List.forall_mem_append, List.forall_mem_singleton,
    List.pairwise_append] at hnonempty hsame hincr
  obtain ⟨hinit, -, hbelow⟩ := hincr
  unfold joinGroups
  simp only [List.concat_eq_append, List.getLast?_concat, List.head?_cons, Option.any_some,
    List.dropLast_concat, decide_eq_true_eq]
  have hfirst : ∀ a ∈ first :: rest, a.turnPath = first.turnPath :=
    fun a ha => hsame.2 a ha first (List.mem_cons_self ..)
  split_ifs with hpath
  · constructor <;> simp only [List.forall_mem_append, List.forall_mem_singleton,
      List.pairwise_append, List.pairwise_singleton, true_and]
    · exact ⟨hnonempty.1, nofun⟩
    · exact ⟨hsame.1, fun a ha => ⟨hsame.2 a ha, (hfirst a ha).trans hpath⟩,
        fun a ha => ((hfirst a ha).trans hpath).symm, trivial⟩
    · refine ⟨hinit, fun g hg a ha => ⟨hbelow g hg a ha, ?_⟩⟩
      exact hpath ▸ hbelow g hg a ha first (List.mem_cons_self ..)
  · have hwork : first.turnPath < worker.turnPath := by
      obtain hlt | ⟨heq, -⟩ := hlast first (by simp)
      · exact hlt
      · exact absurd heq hpath
    constructor <;> simp only [List.forall_mem_append, List.forall_mem_singleton,
      List.pairwise_append, List.pairwise_singleton, true_and]
    · exact ⟨hnonempty, nofun⟩
    · exact ⟨hsame, trivial⟩
    · refine ⟨⟨hinit, hbelow⟩, fun g hg a ha => ?_, fun a ha => hfirst a ha ▸ hwork⟩
      exact List.lt_trans (hbelow g hg a ha first (List.mem_cons_self ..)) hwork

theorem Grouped.joinAll {workers : List WorkerChannels}
    (h : Grouped groups) (hs : (groups.flatten ++ workers).Pairwise Before) :
    Grouped (workers.foldl joinGroups groups) := by
  induction workers generalizing groups with
  | nil => exact h
  | cons worker workers ih =>
    have hb := (List.pairwise_append.mp hs).2.2
    refine ih (h.join fun a ha => hb a ha worker (List.mem_cons_self ..)) ?_
    rwa [flatten_joinGroups, List.append_assoc]

/-- A round holds one worker of each path whose group is long enough. -/
theorem Grouped.countP_round (h : Grouped groups) (path : Bytes) (offset : ℕ) :
    (groups.filterMap (·[offset]?)).countP (·.turnPath = path) =
      if offset < groups.flatten.countP (·.turnPath = path) then 1 else 0 := by
  induction groups with
  | nil => rfl
  | cons group groups ih =>
    obtain ⟨habove, hrest⟩ := List.pairwise_cons.mp h.increasing
    have ih := ih ⟨fun g hg => h.nonempty g (List.mem_cons_of_mem _ hg),
      fun g hg => h.same g (List.mem_cons_of_mem _ hg), hrest⟩
    rw [RoundRobin.round_cons, List.countP_append, ih, List.flatten_cons, List.countP_append]
    by_cases hpath : ∃ a ∈ group, a.turnPath = path
    · obtain ⟨a, ha, rfl⟩ := hpath
      have hall : group.countP (·.turnPath = a.turnPath) = group.length :=
        List.countP_eq_length.mpr fun b hb =>
          decide_eq_true (h.same group (List.mem_cons_self ..) b hb a ha)
      have hnone : groups.flatten.countP (·.turnPath = a.turnPath) = 0 := by
        rw [List.countP_eq_zero]
        intro b hb
        obtain ⟨g, hg, hb⟩ := List.mem_flatten.mp hb
        have hlt := habove g hg a ha b hb
        exact fun heq => List.lt_irrefl _ (of_decide_eq_true heq ▸ hlt)
      rw [hall, hnone]
      cases hget : group[offset]? with
      | none =>
        have hlen := List.getElem?_eq_none_iff.mp hget
        simp [Nat.not_lt.mpr hlen]
      | some b =>
        obtain ⟨hlen, hb⟩ := List.getElem?_eq_some_iff.mp hget
        have hpath := h.same group (List.mem_cons_self ..) b (hb ▸ List.getElem_mem hlen) a ha
        simp [hlen, hpath]
    · have hnone : ∀ b ∈ group, ¬ b.turnPath = path := fun b hb heq => hpath ⟨b, hb, heq⟩
      have hgrow : group.countP (·.turnPath = path) = 0 :=
        List.countP_eq_zero.mpr fun b hb => by simpa using hnone b hb
      have hhead : (group[offset]?).toList.countP (·.turnPath = path) = 0 :=
        List.countP_eq_zero.mpr fun b hb => by
          simpa using hnone b (List.mem_of_getElem? (Option.mem_toList.mp hb))
      rw [hgrow, hhead, Nat.zero_add, Nat.zero_add]

def turnPathGroups (workers : List WorkerChannels) : List (List WorkerChannels) :=
  (workers.insertionSort Before).foldl joinGroups []

theorem grouped_turnPathGroups (workers : List WorkerChannels) : Grouped (turnPathGroups workers) :=
  Grouped.joinAll ⟨nofun, nofun, .nil⟩ (List.pairwise_insertionSort Before workers)

theorem flatten_turnPathGroups (workers : List WorkerChannels) :
    (turnPathGroups workers).flatten.Perm workers := by
  rw [turnPathGroups, flatten_foldl_joinGroups]
  exact List.perm_insertionSort Before workers

theorem insertionSort_eq_of_perm {workers other : List WorkerChannels}
    (hid : (workers.map (·.id)).Nodup) (h : other.Perm workers) :
    other.insertionSort Before = workers.insertionSort Before := by
  have hs := List.perm_insertionSort Before
  refine List.Perm.eq_of_pairwise (fun a b ha hb hab hba => ?_)
    (List.pairwise_insertionSort Before other) (List.pairwise_insertionSort Before workers)
    ((hs other).trans (h.trans (hs workers).symm))
  exact List.inj_on_of_nodup_map hid (h.mem_iff.mp ((hs other).mem_iff.mp ha))
    ((hs workers).mem_iff.mp hb) (hab.antisymm hba)

end WorkerChannels

/-- The interleaved workers are a permutation, do not depend on the order they come in,
and are balanced in every initial part: a path that is two ahead of another has all
workers of the other before it. The rounds end by themselves. -/
theorem interleaved_balanced (workers : List WorkerChannels) (hids : (workers.map (·.id)).Nodup) :
    (interleaveTurnPaths workers).Perm workers ∧
      (∀ other, other.Perm workers → interleaveTurnPaths other = interleaveTurnPaths workers) ∧
      (∀ k p q, let taken := (interleaveTurnPaths workers).take k
        taken.countP (·.turnPath = p) ≤ taken.countP (·.turnPath = q) + 1 ∨
          taken.countP (·.turnPath = q) = workers.countP (·.turnPath = q)) ∧
      ∀ more, workers.length < more →
        RoundRobin.rounds (WorkerChannels.turnPathGroups workers) more 0 =
          interleaveTurnPaths workers := by
  have hperm := WorkerChannels.flatten_turnPathGroups workers
  refine ⟨interleaveTurnPaths_perm workers, fun other h => ?_, fun k p q => ?_, fun more h => ?_⟩
  · rw [interleaveTurnPaths, interleaveTurnPaths, h.length_eq,
      WorkerChannels.insertionSort_eq_of_perm hids h]
  · obtain ⟨r, hr⟩ := RoundRobin.exists_round_of_take (WorkerChannels.turnPathGroups workers)
      (workers.length + 1) 0 k
    have hg := WorkerChannels.grouped_turnPathGroups workers
    have hp := hr _ _ (hg.countP_round p)
    have hq := hr _ _ (hg.countP_round q)
    rw [hperm.countP_eq] at hp hq
    rw [show RoundRobin.rounds (WorkerChannels.turnPathGroups workers) (workers.length + 1) 0 =
      interleaveTurnPaths workers from rfl] at hp hq
    omega
  · refine RoundRobin.rounds_of_le (fun group hgroup => ?_) h
    have hle := (List.sublist_flatten_of_mem hgroup).length_le
    rw [hperm.length_eq] at hle
    omega

theorem interleaved_balanced_two_paths :
    let workers : List WorkerChannels := [⟨1, 0, [1], 0⟩, ⟨2, 0, [1], 0⟩, ⟨3, 0, [2], 0⟩]
    interleaveTurnPaths workers = [⟨1, 0, [1], 0⟩, ⟨3, 0, [2], 0⟩, ⟨2, 0, [1], 0⟩] ∧
      interleaveTurnPaths workers.reverse = interleaveTurnPaths workers := by
  intro workers
  exact ⟨by decide, (interleaved_balanced workers (by decide)).2.1 _ (List.reverse_perm _)⟩

end Csqtt
