import Mathlib.Data.List.Nodup
import Mathlib.Data.List.Perm.Basic

/-!
# Slabs

An array with vacant entries that are used again. The vacant entries are kept in a list, the one
left last in front; a new value goes there, or to the end of the array if there is none. `compact`
moves values from the end into vacant entries until there are none left, and says what moved where.
-/

structure Slab (α : Type*) where
  entries : List (Option α)
  free : List ℕ
  vacant : ∀ i, i ∈ free ↔ entries[i]? = some none
  nodup : free.Nodup

namespace Slab

variable {α : Type*}

def empty : Slab α := ⟨[], [], by simp, by simp⟩

def get (s : Slab α) (i : ℕ) : Option α := s.entries[i]?.join

def values (s : Slab α) : List α := s.entries.filterMap id

def len (s : Slab α) : ℕ := s.values.length

/-- The values with their entries, in order. -/
def slots (s : Slab α) : List (ℕ × α) :=
  s.entries.zipIdx.filterMap fun entry => entry.1.map fun x => (entry.2, x)

/-- The entry the next value goes to. -/
def nextKey (s : Slab α) : ℕ := s.free.head?.getD s.entries.length

theorem get_eq_some {s : Slab α} {i : ℕ} {x : α} :
    s.get i = some x ↔ s.entries[i]? = some (some x) := by
  rw [get, Option.join_eq_some_iff]

variable (s : Slab α)

theorem get_nextKey : s.get s.nextKey = none := by
  cases hf : s.free with
  | nil => simp [nextKey, get, hf]
  | cons i =>
    have hi : s.entries[i]? = some none := (s.vacant i).mp (by simp [hf])
    simp [nextKey, get, hf, hi]

def insert (s : Slab α) (x : α) : Slab α :=
  match hfree : s.free with
  | [] =>
    { entries := s.entries ++ [some x]
      free := []
      vacant := fun i => by
        have h := s.vacant i
        rw [hfree] at h
        rw [List.getElem?_append, List.getElem?_singleton]
        split_ifs <;> simp_all
      nodup := List.nodup_nil }
  | key :: rest =>
    { entries := s.entries.set key (some x)
      free := rest
      vacant := fun i => by
        have h := s.vacant i
        have hnodup := s.nodup
        rw [hfree] at h hnodup
        rw [List.getElem?_set]
        split_ifs with hkey
        · subst hkey
          simpa using (List.nodup_cons.mp hnodup).1
        · subst hkey
          simpa using (List.nodup_cons.mp hnodup).1
        · rw [← h, List.mem_cons, or_iff_right (Ne.symm hkey)]
      nodup := by
        have hnodup := s.nodup
        rw [hfree] at hnodup
        exact (List.nodup_cons.mp hnodup).2 }

theorem get_insert (x : α) (i : ℕ) :
    (s.insert x).get i = if i = s.nextKey then some x else s.get i := by
  cases hfree : s.free with
  | nil =>
    have hkey : s.nextKey = s.entries.length := by simp [nextKey, hfree]
    have hentry : (s.insert x).entries = s.entries ++ [some x] := by
      unfold insert
      split
      · rfl
      · simp_all
    rw [get, hentry, List.getElem?_append, List.getElem?_singleton]
    split_ifs with hlt heq heq
    · omega
    · rfl
    · rfl
    · omega
    · omega
    · rw [get, List.getElem?_eq_none (by omega)]
  | cons key =>
    have hkey : s.nextKey = key := by simp [nextKey, hfree]
    have hentry : (s.insert x).entries = s.entries.set key (some x) := by
      unfold insert
      split
      · simp_all
      · simp_all
    have hlt : key < s.entries.length := by
      have hvacant := (s.vacant key).mp (by simp [hfree])
      exact (List.getElem?_eq_some_iff.mp hvacant).1
    rw [get, hentry, hkey, List.getElem?_set]
    by_cases heq : i = key
    · rw [if_pos heq.symm, if_pos hlt, if_pos heq, Option.join_some]
    · rw [if_neg (Ne.symm heq), if_neg heq, get]

/-- The value is taken out, and its entry is the next to be used. -/
def remove (s : Slab α) (key : ℕ) : Slab α :=
  if hkey : (s.get key).isSome then
    { entries := s.entries.set key none
      free := key :: s.free
      vacant := fun i => by
        obtain ⟨x, hx⟩ := Option.isSome_iff_exists.mp hkey
        have hlt := (List.getElem?_eq_some_iff.mp (get_eq_some.mp hx)).1
        rw [List.getElem?_set, List.mem_cons, s.vacant]
        by_cases heq : i = key
        · simp [heq, hlt]
        · simp [heq, Ne.symm heq]
      nodup := by
        obtain ⟨x, hx⟩ := Option.isSome_iff_exists.mp hkey
        rw [List.nodup_cons, s.vacant, get_eq_some.mp hx]
        exact ⟨by simp, s.nodup⟩ }
  else s

theorem get_remove (key i : ℕ) : (s.remove key).get i = if i = key then none else s.get i := by
  unfold remove
  split_ifs with hk heq heq
  · obtain ⟨x, hx⟩ := Option.isSome_iff_exists.mp hk
    have hlt := (List.getElem?_eq_some_iff.mp (get_eq_some.mp hx)).1
    simp [get, heq, hlt]
  · simp [get, Ne.symm heq]
  · simpa [heq] using hk
  · rfl

def modify (s : Slab α) (key : ℕ) (f : α → α) : Slab α where
  entries := s.entries.modify key (Option.map f)
  free := s.free
  vacant i := by
    rw [s.vacant, List.getElem?_modify]
    split_ifs
    · cases s.entries[i]? with
      | none => simp
      | some entry => cases entry <;> simp
    · simp
  nodup := s.nodup

theorem get_modify (key i : ℕ) (f : α → α) :
    (s.modify key f).get i = if i = key then (s.get i).map f else s.get i := by
  simp only [get, modify, List.getElem?_modify, eq_comm (a := key)]
  split_ifs
  · cases s.entries[i]? with
    | none => rfl
    | some entry => cases entry <;> rfl
  · simp

theorem modify_modify (key : ℕ) (f g : α → α) :
    (s.modify key f).modify key g = s.modify key (g ∘ f) := by
  simp only [modify, List.modify_modify_eq, Option.map_comp_map]

/-- Every value is changed. -/
def map (s : Slab α) (f : α → α) : Slab α where
  entries := s.entries.map (Option.map f)
  free := s.free
  vacant i := by
    rw [s.vacant, List.getElem?_map]
    cases s.entries[i]? with
    | none => simp
    | some entry => cases entry <;> simp
  nodup := s.nodup

theorem get_map (i : ℕ) (f : α → α) : (s.map f).get i = (s.get i).map f := by
  rw [get, map, List.getElem?_map, get]
  cases s.entries[i]? with
  | none => rfl
  | some entry => cases entry <;> rfl

theorem mem_slots {s : Slab α} {i : ℕ} {x : α} : (i, x) ∈ s.slots ↔ s.get i = some x := by
  rw [slots, List.mem_filterMap, get_eq_some]
  constructor
  · rintro ⟨⟨entry, j⟩, hm, heq⟩
    obtain ⟨y, he, hp⟩ := Option.map_eq_some_iff.mp heq
    cases hp
    cases he
    exact List.mk_mem_zipIdx_iff_getElem?.mp hm
  · intro h
    exact ⟨(some x, i), List.mk_mem_zipIdx_iff_getElem?.mpr h, rfl⟩

theorem mem_values {s : Slab α} {x : α} : x ∈ s.values ↔ ∃ i, s.get i = some x := by
  rw [values, List.mem_filterMap]
  simp only [id_eq, exists_eq_right, get_eq_some]
  exact List.mem_iff_getElem?

/-- One step of the compaction: the last entry goes, and its value, if it has one, moves to the
first vacant entry, which `rekey` is told. -/
def compactStep {σ : Type*} (rekey : σ → α → ℕ → σ) (now : List (Option α) × σ) :
    List (Option α) × σ :=
  match now.1.getLast? with
  | some (some x) =>
    let rest := now.1.dropLast
    let key := rest.findIdx Option.isNone
    (rest.set key (some x), rekey now.2 x key)
  | _ => (now.1.dropLast, now.2)

def compactLoop {σ : Type*} (rekey : σ → α → ℕ → σ) : ℕ → List (Option α) × σ → List (Option α) × σ
  | 0, now => now
  | n + 1, now => compactLoop rekey n (compactStep rekey now)

section compact

variable {σ : Type*} (rekey : σ → α → ℕ → σ)

theorem filterMap_set_perm {entries : List (Option α)} {key : ℕ} (x : α)
    (h : entries[key]? = some none) :
    ((entries.set key (some x)).filterMap id).Perm (entries.filterMap id ++ [x]) := by
  induction entries generalizing key with
  | nil => simp at h
  | cons entry _ ih =>
    cases key with
    | zero =>
      cases h
      simpa using (List.perm_append_singleton x _).symm
    | succ =>
      cases entry with
      | none => simpa using ih h
      | some y => simpa using (ih h).cons y

theorem findIdx_isNone {entries : List (Option α)}
    (h : (entries.filterMap id).length < entries.length) :
    entries[entries.findIdx Option.isNone]? = some none := by
  have hm : ∃ entry ∈ entries, entry.isNone = true := by
    by_contra ha
    push Not at ha
    have hl : (entries.filterMap id).length = entries.length := by
      rw [List.length_filterMap_eq_countP, List.countP_eq_length]
      intro entry he
      cases entry with
      | none => exact absurd rfl (ha none he)
      | some => rfl
    omega
  have hlt := List.findIdx_lt_length.mpr hm
  have hn := List.findIdx_getElem (w := hlt)
  rw [List.getElem?_eq_getElem hlt, Option.isNone_iff_eq_none.mp hn]

theorem compactStep_cases {now : List (Option α) × σ}
    (h : (now.1.filterMap id).length < now.1.length) :
    (∃ rest, now.1 = rest ++ [none] ∧ compactStep rekey now = (rest, now.2)) ∨
      ∃ rest x key, now.1 = rest ++ [some x] ∧ rest[key]? = some none ∧
        compactStep rekey now = (rest.set key (some x), rekey now.2 x key) := by
  obtain hn | ⟨rest, entry, hr⟩ := List.eq_nil_or_concat now.1
  · simp [hn] at h
  · rw [List.concat_eq_append] at hr
    cases entry with
    | none =>
      simp [compactStep, hr]
    | some x =>
      rw [hr, List.filterMap_append] at h
      have hv := findIdx_isNone (by simpa using h : (rest.filterMap id).length < rest.length)
      refine .inr ⟨rest, x, _, hr, hv, ?_⟩
      simp [compactStep, hr]

/-- The rule for properties of the entries and of what `rekey` was told: what losing a vacant entry
at the end and moving the last value keep holds after the compaction. -/
theorem compactLoop_induction {I : List (Option α) → σ → Prop}
    (hd : ∀ rest state, I (rest ++ [none]) state → I rest state)
    (hm : ∀ rest key x state, rest[key]? = some none → I (rest ++ [some x]) state →
      I (rest.set key (some x)) (rekey state x key))
    (n : ℕ) (now : List (Option α) × σ) (hn : (now.1.filterMap id).length + n = now.1.length)
    (h : I now.1 now.2) : I (compactLoop rekey n now).1 (compactLoop rekey n now).2 ∧
      (compactLoop rekey n now).1.length = ((compactLoop rekey n now).1.filterMap id).length := by
  induction n generalizing now with
  | zero => exact ⟨h, hn.symm⟩
  | succ _ ih =>
    rw [compactLoop]
    obtain ⟨rest, hr, hs⟩ | ⟨rest, x, key, hr, hk, hs⟩ :=
      compactStep_cases rekey (by omega : _ < now.1.length)
    · rw [hr] at hn h
      rw [hs]
      exact ih (rest, now.2) (by simp at hn ⊢; omega) (hd rest now.2 h)
    · have hp := (filterMap_set_perm x hk).length_eq
      rw [hr] at hn h
      rw [hs]
      apply ih (rest.set key (some x), rekey now.2 x key) ?_ (hm rest key x now.2 hk h)
      simp at hn hp ⊢
      omega

end compact

/-- The slab without vacant entries, and what `rekey` made of the moves. -/
def compact {σ : Type*} (s : Slab α) (rekey : σ → α → ℕ → σ) (init : σ) : Slab α × σ :=
  let result := compactLoop rekey (s.entries.length - s.len) (s.entries, init)
  ({ entries := result.1
     free := []
     vacant := fun i => by
       have hle : (s.entries.filterMap id).length ≤ s.entries.length :=
         List.length_filterMap_le ..
       obtain ⟨-, hlength⟩ := compactLoop_induction rekey (I := fun _ _ => True)
         (fun _ _ _ => trivial) (fun _ _ _ _ _ _ => trivial) (s.entries.length - s.len)
         (s.entries, init) (by simp only [len, values]; omega) trivial
       have hall : result.1.countP Option.isSome = result.1.length := by
         rw [hlength, List.length_filterMap_eq_countP]
         rfl
       constructor
       · intro h
         cases h
       · intro hnone
         have hmem := List.mem_of_getElem? hnone
         simpa using List.countP_eq_length.mp hall none hmem
     nodup := List.nodup_nil }, result.2)

theorem compact_induction {σ : Type*} (rekey : σ → α → ℕ → σ) {I : List (Option α) → σ → Prop}
    (hd : ∀ rest state, I (rest ++ [none]) state → I rest state)
    (hm : ∀ rest key x state, rest[key]? = some none → I (rest ++ [some x]) state →
      I (rest.set key (some x)) (rekey state x key))
    (s : Slab α) (init : σ) (h : I s.entries init) :
    I (s.compact rekey init).1.entries (s.compact rekey init).2 := by
  have hle : (s.entries.filterMap id).length ≤ s.entries.length := List.length_filterMap_le ..
  exact (compactLoop_induction rekey hd hm _ (s.entries, init)
    (by simp only [len, values]; omega) h).1

end Slab
