import Mathlib.Logic.Function.Basic
import Csqtt.Slab

/-!
# Indices of slabs

A map from keys to entries that finds each value of a slab by a key of its own. `IndexedOn` says
that the map finds exactly the values there are; the operations of the slab keep it if the map
follows them. What the values are after each operation, up to their order, and how many stands here
too.
-/

namespace Slab

variable {α κ : Type*}

/-- The index has an entry under a key exactly if the value there has the key. -/
def IndexedOn (f : α → κ) (index : κ → Option ℕ) (entries : List (Option α)) : Prop :=
  ∀ k slot, index k = some slot ↔ ∃ x, entries[slot]? = some (some x) ∧ f x = k

theorem indexedOn_iff {f : α → κ} {index : κ → Option ℕ} {s : Slab α} :
    IndexedOn f index s.entries ↔ ∀ k slot, index k = some slot ↔ ∃ x, s.get slot = some x ∧
    f x = k := by
  simp only [IndexedOn, get_eq_some]

namespace IndexedOn

variable {f : α → κ} {index : κ → Option ℕ} {entries rest : List (Option α)} {s : Slab α}

theorem nil : IndexedOn f (fun _ => none) [] := by
  intro k slot
  simp

theorem drop (h : IndexedOn f index (rest ++ [none])) : IndexedOn f index rest := by
  intro k slot
  rw [h k slot]
  constructor
  · rintro ⟨x, hx, hk⟩
    rw [List.getElem?_append, List.getElem?_singleton] at hx
    split_ifs at hx
    · exact ⟨x, hx, hk⟩
    · simp at hx
  · rintro ⟨x, hx, hk⟩
    have hlt := (List.getElem?_eq_some_iff.mp hx).1
    exact ⟨x, by rw [List.getElem?_append_left hlt, hx], hk⟩

variable {slot i j key : ℕ} {x : α}

theorem unique (h : IndexedOn f index entries) {y : α} (hi : entries[i]? = some (some x))
    (hj : entries[j]? = some (some y)) (hk : f x = f y) : i = j := by
  have hx := (h (f y) i).mpr ⟨x, hi, hk⟩
  have hy := (h (f y) j).mpr ⟨y, hj, rfl⟩
  exact Option.some.inj (hx.symm.trans hy)

section

variable (h : IndexedOn f index s.entries)
include h

theorem get {k : κ} (hk : index k = some slot) : ∃ x, s.get slot = some x ∧ f x = k :=
  (indexedOn_iff.mp h k slot).mp hk

theorem map {g : α → α} (hg : ∀ x, f (g x) = f x) : IndexedOn f index (s.map g).entries := by
  rw [indexedOn_iff] at h ⊢
  intro k slot
  simp only [h k slot, get_map, Option.map_eq_some_iff]
  constructor
  · rintro ⟨x, hx, hk⟩
    exact ⟨g x, ⟨x, hx, rfl⟩, (hg x).trans hk⟩
  · rintro ⟨_, ⟨x, hx, rfl⟩, hk⟩
    exact ⟨x, hx, (hg x).symm.trans hk⟩

theorem modify {x' : α} (hx : s.get slot = some x) (hk : f x' = f x) :
    IndexedOn f index (s.modify slot fun _ => x').entries := by
  rw [indexedOn_iff] at h ⊢
  intro k i
  rw [h k i, get_modify]
  split_ifs with hi
  · rw [hi, hx]
    simp [hk]
  · rfl

end

variable [DecidableEq κ]

theorem move (hkey : rest[key]? = some none) (h : IndexedOn f index (rest ++ [some x])) :
    IndexedOn f (Function.update index (f x) (some key)) (rest.set key (some x)) := by
  have hlt := (List.getElem?_eq_some_iff.mp hkey).1
  have hlast : (rest ++ [some x])[rest.length]? = some (some x) := List.getElem?_concat_length
  have hkept : ∀ {i : ℕ} {y : α}, rest[i]? = some (some y) →
      (rest ++ [some x])[i]? = some (some y) ∧ f y ≠ f x := by
    intro i y hy
    have hi := (List.getElem?_eq_some_iff.mp hy).1
    have hboth : (rest ++ [some x])[i]? = some (some y) := by rw [List.getElem?_append_left hi, hy]
    exact ⟨hboth, fun heq => Nat.ne_of_lt hi (h.unique hboth hlast heq)⟩
  intro k slot
  rw [Function.update_apply]
  by_cases hk : k = f x
  · rw [if_pos hk]
    constructor
    · intro heq
      cases heq
      exact ⟨x, by rw [List.getElem?_set_self hlt], hk.symm⟩
    · rintro ⟨y, hy, hyk⟩
      by_cases hslot : key = slot
      · rw [hslot]
      · rw [List.getElem?_set_ne hslot] at hy
        exact absurd (hyk.trans hk) (hkept hy).2
  · rw [if_neg hk, h k slot]
    constructor
    · rintro ⟨y, hy, hyk⟩
      rw [List.getElem?_append, List.getElem?_singleton] at hy
      split_ifs at hy with hslot hzero
      · have hne : key ≠ slot := by
          rintro rfl
          rw [hkey] at hy
          cases hy
        exact ⟨y, by rw [List.getElem?_set_ne hne, hy], hyk⟩
      · cases hy
        exact absurd hyk.symm hk
    · rintro ⟨y, hy, hyk⟩
      by_cases hslot : key = slot
      · rw [← hslot, List.getElem?_set_self hlt] at hy
        cases hy
        exact absurd hyk.symm hk
      · rw [List.getElem?_set_ne hslot] at hy
        exact ⟨y, (hkept hy).1, hyk⟩

section

variable (h : IndexedOn f index s.entries)
include h

theorem insert (hx : index (f x) = none) :
    IndexedOn f (Function.update index (f x) (some s.nextKey)) (s.insert x).entries := by
  rw [indexedOn_iff] at h ⊢
  intro k slot
  rw [get_insert, Function.update_apply]
  by_cases hk : k = f x
  · rw [if_pos hk]
    by_cases hs : slot = s.nextKey
    · rw [if_pos hs, hs]
      exact iff_of_true rfl ⟨x, rfl, hk.symm⟩
    · rw [if_neg hs, ← h k slot, hk, hx]
      refine iff_of_false (fun heq => hs (Option.some.inj heq).symm) (fun heq => by cases heq)
  · rw [if_neg hk, h k slot]
    by_cases hs : slot = s.nextKey
    · rw [if_pos hs, hs, get_nextKey]
      refine iff_of_false ?_ ?_
      · rintro ⟨y, hy, -⟩
        cases hy
      · rintro ⟨y, hy, hyk⟩
        cases hy
        exact hk hyk.symm
    · rw [if_neg hs]

theorem remove (hx : s.get slot = some x) :
    IndexedOn f (Function.update index (f x) none) (s.remove slot).entries := by
  have hin := indexedOn_iff.mp h
  rw [indexedOn_iff]
  intro k i
  rw [get_remove, Function.update_apply]
  by_cases hk : k = f x
  · rw [if_pos hk]
    refine iff_of_false (fun heq => by cases heq) ?_
    rintro ⟨y, hy, hyk⟩
    split_ifs at hy with hi
    exact hi (h.unique (get_eq_some.mp hy) (get_eq_some.mp hx) (hyk.trans hk))
  · rw [if_neg hk, hin k i]
    by_cases hi : i = slot
    · rw [if_pos hi, hi, hx]
      refine iff_of_false ?_ ?_
      · rintro ⟨y, hy, hyk⟩
        cases hy
        exact hk hyk.symm
      · rintro ⟨y, hy, -⟩
        cases hy
    · rw [if_neg hi]

theorem rekey {x' : α} (hx : s.get slot = some x) (hf : index (f x') = none) :
    IndexedOn f (Function.update (Function.update index (f x) none) (f x') (some slot))
      (s.modify slot fun _ => x').entries := by
  have hr := indexedOn_iff.mp (h.remove hx)
  rw [indexedOn_iff]
  intro k i
  rw [get_modify, Function.update_apply]
  by_cases hk' : k = f x'
  · rw [if_pos hk']
    by_cases hi : i = slot
    · rw [if_pos hi, hi, hx]
      exact iff_of_true rfl ⟨x', rfl, hk'.symm⟩
    · rw [if_neg hi, ← indexedOn_iff.mp h k i, hk', hf]
      exact iff_of_false (fun heq => hi (Option.some.inj heq).symm) (fun heq => by cases heq)
  · rw [if_neg hk', hr k i, get_remove]
    by_cases hi : i = slot
    · rw [if_pos hi, if_pos hi, hi, hx]
      refine iff_of_false nofun ?_
      rintro ⟨y, hy, hyk⟩
      cases hy
      exact hk' hyk.symm
    · rw [if_neg hi, if_neg hi]

end

end IndexedOn

/-! ## The values -/

theorem values_insert (s : Slab α) (x : α) : (s.insert x).values.Perm (s.values ++ [x]) := by
  unfold insert values
  split
  · rw [List.filterMap_append]
    exact List.Perm.refl _
  · rename_i key rest hf
    exact filterMap_set_perm x ((s.vacant key).mp (by simp [hf]))

theorem values_set {s : Slab α} {slot : ℕ} {x : α} (h : s.get slot = some x) (y : α) :
    ((s.entries.set slot (some y)).filterMap id).Perm ((s.remove slot).values ++ [y]) := by
  have hlt := (List.getElem?_eq_some_iff.mp (get_eq_some.mp h)).1
  have hv : (s.entries.set slot none)[slot]? = some none := List.getElem?_set_self hlt
  have hp := filterMap_set_perm y hv
  rw [List.set_set] at hp
  unfold remove
  rw [dif_pos (by rw [h]; rfl)]
  exact hp

theorem values_remove {s : Slab α} {slot : ℕ} {x : α} (h : s.get slot = some x) :
    s.values.Perm ((s.remove slot).values ++ [x]) := by
  have hb : s.entries.set slot (some x) = s.entries := by
    apply List.ext_getElem?
    intro i
    rw [List.getElem?_set]
    split_ifs with hi hlt
    · rw [← hi, get_eq_some.mp h]
    · exact absurd (List.getElem?_eq_some_iff.mp (get_eq_some.mp h)).1 (hi ▸ hlt)
    · rfl
  have hs := values_set h x
  rwa [hb] at hs

theorem values_modify {s : Slab α} {slot : ℕ} {x : α} (h : s.get slot = some x) (f : α → α) :
    (s.modify slot f).values.Perm ((s.remove slot).values ++ [f x]) := by
  have he : s.entries.modify slot (Option.map f) = s.entries.set slot (some (f x)) := by
    apply List.ext_getElem?
    intro i
    rw [List.getElem?_modify, List.getElem?_set]
    split_ifs with hi hlt
    · rw [← hi, get_eq_some.mp h]
      rfl
    · exact absurd (List.getElem?_eq_some_iff.mp (get_eq_some.mp h)).1 (hi ▸ hlt)
    · exact Option.map_id_apply
  have hs := values_set h (f x)
  rwa [← he] at hs

theorem values_map (s : Slab α) (f : α → α) : (s.map f).values = s.values.map f := by
  unfold values map
  rw [List.filterMap_map, List.map_filterMap]
  congr 1

theorem values_compact {σ : Type*} (s : Slab α) (rekey : σ → α → ℕ → σ) (init : σ) :
    (s.compact rekey init).1.values.Perm s.values := by
  refine compact_induction rekey (I := fun entries _ => (entries.filterMap id).Perm s.values)
    (fun rest _ h => ?_) (fun rest key x _ hk h => ?_) s init (List.Perm.refl _)
  · simpa using h
  · rw [List.filterMap_append] at h
    exact (filterMap_set_perm x hk).trans h

/-! ## The number of values -/

theorem len_insert (s : Slab α) (x : α) : (s.insert x).len = s.len + 1 := by
  rw [len, (values_insert s x).length_eq, List.length_append]
  rfl

theorem len_remove {s : Slab α} {slot : ℕ} {x : α} (h : s.get slot = some x) :
    (s.remove slot).len + 1 = s.len := by
  rw [len, len, (values_remove h).length_eq, List.length_append]
  rfl

theorem len_modify (s : Slab α) (slot : ℕ) (f : α → α) : (s.modify slot f).len = s.len := by
  cases h : s.get slot with
  | some =>
    rw [len, len, (values_modify h f).length_eq, (values_remove h).length_eq, List.length_append,
      List.length_append]
    rfl
  | none =>
    have he : s.entries.modify slot (Option.map f) = s.entries := by
      apply List.ext_getElem?
      intro i
      rw [List.getElem?_modify]
      split_ifs with hi
      · subst hi
        cases hentry : s.entries[slot]? with
        | none => rfl
        | some entry =>
          rw [get, hentry] at h
          cases entry with
          | none => rfl
          | some => cases h
      · exact Option.map_id_apply
    exact congrArg (fun entries => (entries.filterMap id).length) he

theorem len_map (s : Slab α) (f : α → α) : (s.map f).len = s.len := by
  rw [len, len, values_map, List.length_map]

theorem len_compact {σ : Type*} (s : Slab α) (rekey : σ → α → ℕ → σ) (init : σ) :
    (s.compact rekey init).1.len = s.len :=
  (values_compact s rekey init).length_eq

end Slab
