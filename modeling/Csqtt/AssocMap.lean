import Mathlib.Data.List.AList

/-!
# Association maps

Maps with finitely many keys whose values are changed or dropped all at once.
-/

universe u v w

namespace AList

variable {α : Type u} {β : α → Type v} {γ : α → Type w}

/-- Every value is replaced, and every key stays. -/
def mapValues (f : ∀ a, β a → γ a) (m : AList β) : AList γ where
  entries := m.entries.map fun e => ⟨e.1, f e.1 e.2⟩
  nodupKeys := by
    have hkeys : (m.entries.map fun e => (⟨e.1, f e.1 e.2⟩ : Sigma γ)).keys = m.entries.keys := by
      simp [List.keys]
    rw [List.NodupKeys, hkeys]
    exact m.nodupKeys

/-- The entries that meet a condition. -/
def filterValues (p : ∀ a, β a → Bool) (m : AList β) : AList β where
  entries := m.entries.filter fun e => p e.1 e.2
  nodupKeys := m.nodupKeys.sublist List.filter_sublist

variable [DecidableEq α]

@[simp] theorem lookup_mapValues (f : ∀ a, β a → γ a) (m : AList β) (a : α) :
    (m.mapValues f).lookup a = (m.lookup a).map (f a) := by
  apply Option.ext
  intro b
  rw [Option.map_eq_some_iff, ← Option.mem_def, mem_lookup_iff, mapValues, List.mem_map]
  constructor
  · rintro ⟨⟨a', b'⟩, he, heq⟩
    cases heq
    exact ⟨b', mem_lookup_iff.mpr he, rfl⟩
  · rintro ⟨b', hl, rfl⟩
    exact ⟨⟨a, b'⟩, mem_lookup_iff.mp hl, rfl⟩

theorem mem_mapValues {f : ∀ a, β a → γ a} {m : AList β} {a : α} : a ∈ m.mapValues f ↔ a ∈ m := by
  rw [← lookup_isSome, lookup_mapValues, Option.isSome_map, lookup_isSome]

@[simp] theorem lookup_filterValues (p : ∀ a, β a → Bool) (m : AList β) (a : α) :
    (m.filterValues p).lookup a = (m.lookup a).filter (p a) := by
  apply Option.ext
  intro b
  rw [Option.filter_eq_some_iff, ← Option.mem_def, mem_lookup_iff, filterValues, List.mem_filter,
    ← Option.mem_def, mem_lookup_iff]

theorem lookup_union (m m' : AList β) (a : α) :
    (m ∪ m').lookup a = (m.lookup a).or (m'.lookup a) := by
  by_cases ha : a ∈ m
  · rw [lookup_union_left ha, Option.or_of_isSome (lookup_isSome.mpr ha)]
  · rw [lookup_union_right ha, lookup_eq_none.mpr ha, Option.none_or]

theorem forall_lookup_iff {m : AList β} {p : ∀ a, β a → Prop} :
    (∀ a b, m.lookup a = some b → p a b) ↔ ∀ e ∈ m.entries, p e.1 e.2 :=
  ⟨fun h e he => h e.1 e.2 (mem_lookup_iff.mpr he), fun h a b hb => h ⟨a, b⟩ (mem_lookup_iff.mp hb)⟩

end AList
