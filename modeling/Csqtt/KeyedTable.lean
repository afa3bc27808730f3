import Mathlib.Data.List.Sort
import Csqtt.AssocMap

/-!
# Keyed tables

Tables of rows with a primary key. The rows stand in the order in which they were inserted. `upsert`
inserts a row or, when its key is there already, puts what `merge` makes of the old row and the new
one in place of the old one. A merge that takes nothing in twice makes it harmless to insert the
same rows again.
-/

universe u v w

abbrev Table (α : Type u) (β : Type v) := AList fun _ : α => β

namespace Table

variable {α : Type u} {β : Type v}

def rows (t : Table α β) : List (α × β) := t.entries.map fun e => (e.1, e.2)

theorem nodup_keys_rows (t : Table α β) : (t.rows.map Prod.fst).Nodup := by
  have hk : t.rows.map Prod.fst = t.entries.keys := by
    simp [rows, List.keys]
  rw [hk]
  exact t.nodupKeys

variable [DecidableEq α]

/-- The first row with the key. -/
def rowOf (rows : List (α × β)) (a : α) : Option β := rows.lookup a

theorem rowOf_cons (row : α × β) (rows : List (α × β)) (a : α) :
    rowOf (row :: rows) a = if a = row.1 then some row.2 else rowOf rows a := by
  rw [rowOf, List.lookup_cons]
  by_cases ha : a = row.1
  · rw [if_pos ha, beq_iff_eq.mpr ha]
  · rw [if_neg ha, beq_eq_false_iff_ne.mpr ha]
    rfl

theorem rowOf_append (rows rows' : List (α × β)) (a : α) :
    rowOf (rows ++ rows') a = (rowOf rows a).or (rowOf rows' a) :=
  List.lookup_append

variable {rows : List (α × β)} {a : α}

theorem rowOf_eq_none_iff : rowOf rows a = none ↔ a ∉ rows.map Prod.fst := by
  induction rows with
  | nil => exact iff_of_true rfl List.not_mem_nil
  | cons row _ ih =>
    rw [rowOf_cons]
    by_cases ha : a = row.1
    · simp [ha]
    · simp [ha, ih]

theorem mem_of_rowOf {b : β} (h : rowOf rows a = some b) : (a, b) ∈ rows := by
  induction rows with
  | nil => cases h
  | cons row _ ih =>
    rw [rowOf_cons] at h
    split_ifs at h with ha
    · rw [ha, ← Option.some.inj h]
      exact List.mem_cons_self
    · exact List.mem_cons_of_mem row (ih h)

theorem rowOf_eq_some_iff (h : (rows.map Prod.fst).Nodup) {b : β} :
    rowOf rows a = some b ↔ (a, b) ∈ rows := by
  induction rows with
  | nil => simp [rowOf]
  | cons row rest ih =>
    obtain ⟨a', b'⟩ := row
    rw [List.map_cons, List.nodup_cons] at h
    rw [rowOf_cons]
    by_cases ha : a = a'
    · subst ha
      have hr : (a, b) ∉ rest := fun hm => h.1 (List.mem_map.mpr ⟨_, hm, rfl⟩)
      simp [hr, eq_comm]
    · rw [if_neg ha, ih h.2]
      simp [ha]

theorem rowOf_reverse (h : (rows.map Prod.fst).Nodup) (a : α) :
    rowOf rows.reverse a = rowOf rows a := by
  apply Option.ext
  intro b
  have hr : (rows.reverse.map Prod.fst).Nodup := by
    rw [List.map_reverse]
    exact List.nodup_reverse.mpr h
  rw [rowOf_eq_some_iff hr, rowOf_eq_some_iff h, List.mem_reverse]

/-- A row with a new key at the end. -/
def append (t : Table α β) (row : α × β) (h : row.1 ∉ t) : Table α β where
  entries := t.entries ++ [⟨row.1, row.2⟩]
  nodupKeys := by
    rw [List.NodupKeys, List.keys, List.map_append]
    refine List.nodup_append.mpr ⟨t.nodupKeys, List.nodup_singleton _, ?_⟩
    rintro a ha b hb rfl
    rw [List.map_singleton, List.mem_singleton] at hb
    rw [hb] at ha
    exact h ha

def upsert (merge : β → β → β) (t : Table α β) (row : α × β) : Table α β :=
  if h : row.1 ∈ t then t.mapValues fun a old => if a = row.1 then merge old row.2 else old
  else t.append row h

def upsertAll (merge : β → β → β) (t : Table α β) (rows : List (α × β)) : Table α β :=
  rows.foldl (upsert merge) t

/-- The new row takes the place of the old one. -/
def replaced (_ new : β) : β := new

/-- The old row stays. -/
def kept (old _ : β) : β := old

/-- The rows take the place of all others whose keys are not to stay. -/
def overwrite (t : Table α β) (stays : α → Bool) (rows : List (α × β)) : Table α β :=
  upsertAll replaced (t.filterValues fun a _ => stays a) rows

theorem lookup_append (t : Table α β) (row : α × β) (h : row.1 ∉ t) (a : α) :
    (t.append row h).lookup a = if a = row.1 then some row.2 else t.lookup a := by
  apply Option.ext
  intro b
  rw [← Option.mem_def, AList.mem_lookup_iff, append, List.mem_append, ← AList.mem_lookup_iff]
  by_cases ha : a = row.1
  · subst ha
    rw [AList.lookup_eq_none.mpr h]
    simp [eq_comm]
  · simp [ha]

theorem lookup_upsert (merge : β → β → β) (t : Table α β) (row : α × β) (a : α) :
    (upsert merge t row).lookup a =
      if a = row.1 then some ((t.lookup a).elim row.2 (merge · row.2)) else t.lookup a := by
  unfold upsert
  split_ifs with hm ha ha
  · subst ha
    obtain ⟨old, ho⟩ := Option.isSome_iff_exists.mp (AList.lookup_isSome.mpr hm)
    rw [AList.lookup_mapValues, ho, Option.map_some, if_pos rfl, Option.elim_some]
  · rw [AList.lookup_mapValues]
    simp only [if_neg ha, Option.map_id']
  · subst ha
    rw [lookup_append, if_pos rfl, AList.lookup_eq_none.mpr hm, Option.elim_none]
  · rw [lookup_append, if_neg ha]

theorem lookup_upsert_replaced (t : Table α β) (a : α) (b : β) :
    (upsert replaced t (a, b)).lookup a = some b := by
  rw [lookup_upsert, if_pos rfl]
  cases t.lookup a with
  | none | some => rfl

theorem lookup_upsert_of_fixed {merge : β → β → β} {t : Table α β} {old : β}
    (h : t.lookup a = some old) (hf : ∀ b, merge old b = old) (row : α × β) :
    (upsert merge t row).lookup a = some old := by
  rw [lookup_upsert, h, Option.elim_some, hf]
  split_ifs
  · rfl
  · rfl

theorem lookup_upsertAll_of_fixed {merge : β → β → β} {t : Table α β} {old : β}
    (h : t.lookup a = some old) (hf : ∀ b, merge old b = old) (rows : List (α × β)) :
    (upsertAll merge t rows).lookup a = some old := by
  induction rows generalizing t with
  | nil => exact h
  | cons row _ ih => exact ih (lookup_upsert_of_fixed h hf row)

theorem mem_upsert {merge : β → β → β} {t : Table α β} {row : α × β} :
    a ∈ upsert merge t row ↔ a = row.1 ∨ a ∈ t := by
  rw [← AList.lookup_isSome, lookup_upsert]
  split_ifs with ha
  · exact iff_of_true rfl (.inl ha)
  · rw [AList.lookup_isSome, or_iff_right ha]

theorem lookup_upsertAll_replaced (t : Table α β) (rows : List (α × β)) (a : α) :
    (upsertAll replaced t rows).lookup a = (rowOf rows.reverse a).or (t.lookup a) := by
  induction rows generalizing t with
  | nil => rfl
  | cons row _ ih =>
    rw [upsertAll, List.foldl_cons, ← upsertAll, ih, lookup_upsert, List.reverse_cons, rowOf_append,
      Option.or_assoc, rowOf_cons]
    by_cases ha : a = row.1
    · rw [if_pos ha, if_pos ha]
      cases t.lookup a with
      | none | some => rfl
    · rw [if_neg ha, if_neg ha]
      rfl

theorem lookup_upsertAll_kept (t : Table α β) (rows : List (α × β)) (a : α) :
    (upsertAll kept t rows).lookup a = (t.lookup a).or (rowOf rows a) := by
  induction rows generalizing t with
  | nil => exact Option.or_none.symm
  | cons row _ ih =>
    rw [upsertAll, List.foldl_cons, ← upsertAll, ih, lookup_upsert, rowOf_cons]
    by_cases ha : a = row.1
    · rw [if_pos ha, if_pos ha]
      cases t.lookup a with
      | none | some => rfl
    · rw [if_neg ha, if_neg ha]

variable {stays : α → Bool}

theorem lookup_overwrite (t : Table α β) (h : ∀ a, stays a = true → a ∈ rows.map Prod.fst) (a : α) :
    (t.overwrite stays rows).lookup a = rowOf rows.reverse a := by
  rw [overwrite, lookup_upsertAll_replaced, AList.lookup_filterValues]
  cases hr : rowOf rows.reverse a with
  | some => rfl
  | none =>
    rw [Option.none_or, Option.filter_eq_none_iff]
    intro b _ hs
    rw [rowOf_eq_none_iff, List.map_reverse, List.mem_reverse] at hr
    exact hr (h a hs)

theorem mem_rows {t : Table α β} {b : β} : (a, b) ∈ t.rows ↔ t.lookup a = some b := by
  rw [← Option.mem_def, AList.mem_lookup_iff, rows, List.mem_map]
  constructor
  · rintro ⟨⟨a', b'⟩, he, heq⟩
    cases heq
    exact he
  · exact fun he => ⟨_, he, rfl⟩

theorem rowOf_rows (t : Table α β) (a : α) : rowOf t.rows a = t.lookup a :=
  Option.ext fun _ => (rowOf_eq_some_iff t.nodup_keys_rows).trans mem_rows

theorem lookup_overwrite_rows (t m : Table α β) (h : ∀ a, stays a = true → a ∈ m) (a : α) :
    (t.overwrite stays m.rows).lookup a = m.lookup a := by
  have hs : ∀ a, stays a = true → a ∈ m.rows.map Prod.fst := by
    intro a ha
    obtain ⟨b, hb⟩ := Option.isSome_iff_exists.mp (AList.lookup_isSome.mpr (h a ha))
    exact List.mem_map.mpr ⟨(a, b), mem_rows.mpr hb, rfl⟩
  rw [lookup_overwrite t hs, rowOf_reverse m.nodup_keys_rows, rowOf_rows]

/-- A field of what a loop over the rows computes that only the row of one key sets. -/
theorem foldl_field {δ : Type w} {ε : Type*} {f : δ → α → β → δ} {field : δ → ε} {key : α}
    {g : ε → β → ε} (hk : ∀ d b, field (f d key b) = g (field d) b)
    (ho : ∀ d a b, a ≠ key → field (f d a b) = field d) (t : Table α β) (d : δ) :
    field (AList.foldl f d t) = (t.lookup key).elim (field d) (g (field d)) := by
  obtain ⟨entries, hn⟩ := t
  rw [AList.foldl, AList.lookup]
  induction entries generalizing d with
  | nil => rfl
  | cons e rest ih =>
    obtain ⟨a, b⟩ := e
    obtain ⟨hf, hr⟩ := List.nodupKeys_cons.mp hn
    rw [List.foldl_cons, ih _ hr]
    by_cases ha : a = key
    · subst ha
      rw [List.dlookup_eq_none.mpr hf, List.dlookup_cons_eq, hk]
      rfl
    · rw [List.dlookup_cons_ne rest ⟨a, b⟩ (Ne.symm ha), ho d a b ha]

def sortBy (order : β → ℤ) (t : Table α β) : List (α × β) :=
  t.rows.insertionSort fun row row' => order row.2 ≤ order row'.2

/-- Rows that are all in a different place stand as a list that names them in that order. -/
theorem sortBy_eq {order : β → ℤ} {t : Table α β}
    (hm : ∀ a b, t.lookup a = some b ↔ (a, b) ∈ rows)
    (hr : rows.Pairwise fun row row' => order row.2 < order row'.2) : t.sortBy order = rows := by
  have hn : (rows.map fun row => order row.2).Nodup :=
    List.pairwise_map.mpr (hr.imp fun h => h.ne)
  have hp : t.rows.Perm rows := by
    refine (List.perm_ext_iff_of_nodup ?_ hn.of_map).mpr fun row => mem_rows.trans (hm _ _)
    exact List.Nodup.of_map _ t.nodup_keys_rows
  have hs := List.perm_insertionSort (fun row row' : α × β => order row.2 ≤ order row'.2) t.rows
  have hsorted : (t.sortBy order).Pairwise fun row row' => order row.2 ≤ order row'.2 := by
    exact List.pairwise_insertionSort _ _
  refine List.Perm.eq_of_pairwise (fun row row' hrow hr' hle hge => ?_) hsorted
    (hr.imp fun h => h.le) (hs.trans hp)
  exact List.inj_on_of_nodup_map hn ((hs.trans hp).subset hrow) hr' (le_antisymm hle hge)

/-! ## Updates of the rows that are there -/

variable {γ : Type w}

def update (f : β → β) (t : Table α β) (a : α) : Table α β :=
  t.mapValues fun a' b => if a' = a then f b else b

def updateAll (f : γ → β → β) (t : Table α β) (news : List (α × γ)) : Table α β :=
  news.foldl (fun t new => t.update (f new.2) new.1) t

theorem lookup_update (f : β → β) (t : Table α β) (a a' : α) :
    (t.update f a).lookup a' = if a' = a then (t.lookup a').map f else t.lookup a' := by
  rw [update, AList.lookup_mapValues]
  split_ifs with ha
  · rfl
  · exact Option.map_id'

theorem lookup_updateAll (f : γ → β → β) (t : Table α β) (news : Table α γ) (a : α) :
    (t.updateAll f news.rows).lookup a =
      (t.lookup a).map fun b => (news.lookup a).elim b (f · b) := by
  have hn := news.nodup_keys_rows
  rw [← rowOf_rows news]
  generalize news.rows = rows at hn
  induction rows generalizing t with
  | nil => exact Option.map_id'.symm
  | cons new _ ih =>
    rw [List.map_cons, List.nodup_cons] at hn
    rw [updateAll, List.foldl_cons, ← updateAll, ih _ hn.2, lookup_update, rowOf_cons]
    by_cases ha : a = new.1
    · rw [if_pos ha, if_pos ha, rowOf_eq_none_iff.mpr (ha ▸ hn.1), Option.map_map]
      rfl
    · rw [if_neg ha, if_neg ha]

/-! ## Rows that come again -/

/-- The merge takes nothing in twice, and what was taken in stays taken in. -/
structure Absorbing (merge : β → β → β) : Prop where
  self : ∀ b, merge b b = b
  again : ∀ old b, merge (merge old b) b = merge old b
  later : ∀ old b c, merge old b = old → merge (merge old c) b = merge old c

def Absorbed (merge : β → β → β) (t : Table α β) (row : α × β) : Prop :=
  ∃ old, t.lookup row.1 = some old ∧ merge old row.2 = old

namespace Absorbed

variable {merge : β → β → β} {t : Table α β} {row : α × β}

theorem upsert_self (hm : Absorbing merge) (t : Table α β) (row : α × β) :
    Absorbed merge (upsert merge t row) row := by
  rw [Absorbed, lookup_upsert, if_pos rfl]
  refine ⟨_, rfl, ?_⟩
  cases t.lookup row.1 with
  | none => exact hm.self row.2
  | some old => exact hm.again old row.2

theorem upsert (hm : Absorbing merge) (h : Absorbed merge t row) (other : α × β) :
    Absorbed merge (upsert merge t other) row := by
  obtain ⟨old, ho, ha⟩ := h
  rw [Absorbed, lookup_upsert, ho]
  by_cases hk : row.1 = other.1
  · rw [if_pos hk]
    exact ⟨_, rfl, hm.later old row.2 other.2 ha⟩
  · rw [if_neg hk]
    exact ⟨old, rfl, ha⟩

theorem upsert_ne (h : Absorbed merge t row) {other : α × β} (hne : row.1 ≠ other.1)
    (merge' : β → β → β) : Absorbed merge (Table.upsert merge' t other) row := by
  rw [Absorbed, lookup_upsert, if_neg hne]
  exact h

theorem kept_iff : Absorbed kept t row ↔ row.1 ∈ t := by
  rw [← AList.lookup_isSome, Option.isSome_iff_exists]
  exact ⟨fun ⟨old, ho, _⟩ => ⟨old, ho⟩, fun ⟨old, ho⟩ => ⟨old, ho, rfl⟩⟩

theorem upsertAll (hm : Absorbing merge) (h : Absorbed merge t row) (rows : List (α × β)) :
    Absorbed merge (upsertAll merge t rows) row := by
  induction rows generalizing t with
  | nil => exact h
  | cons other _ ih => exact ih (h.upsert hm other)

theorem of_mem (hm : Absorbing merge) (t : Table α β) (h : row ∈ rows) :
    Absorbed merge (Table.upsertAll merge t rows) row := by
  induction rows generalizing t with
  | nil => exact absurd h List.not_mem_nil
  | cons other rest ih =>
    obtain rfl | h := List.mem_cons.mp h
    · exact (upsert_self hm t row).upsertAll hm rest
    · exact ih (Table.upsert merge t other) h

theorem upsert_eq (h : Absorbed merge t row) : Table.upsert merge t row = t := by
  obtain ⟨old, ho, ha⟩ := h
  have hm : row.1 ∈ t := AList.lookup_isSome.mp (Option.isSome_iff_exists.mpr ⟨old, ho⟩)
  rw [Table.upsert, dif_pos hm]
  apply AList.ext
  refine (List.map_congr_left fun e he => ?_).trans (List.map_id _)
  dsimp only
  by_cases hk : e.1 = row.1
  · have he : t.lookup e.1 = some e.2 := AList.mem_lookup_iff.mpr he
    rw [hk, ho] at he
    rw [if_pos hk, ← Option.some.inj he, ha, Option.some.inj he]
    rfl
  · rw [if_neg hk]
    rfl

theorem upsertAll_eq (h : ∀ row ∈ rows, Absorbed merge t row) :
    Table.upsertAll merge t rows = t := by
  induction rows with
  | nil => rfl
  | cons row _ ih =>
    rw [Table.upsertAll, List.foldl_cons, (h row List.mem_cons_self).upsert_eq]
    exact ih fun other ho => h other (List.mem_cons_of_mem row ho)

end Absorbed

theorem mem_upsertAll {merge : β → β → β} {t : Table α β} :
    a ∈ upsertAll merge t rows ↔ a ∈ rows.map Prod.fst ∨ a ∈ t := by
  induction rows generalizing t with
  | nil => simp [upsertAll]
  | cons _ _ ih =>
    rw [upsertAll, List.foldl_cons, ← upsertAll, ih, mem_upsert, List.map_cons, List.mem_cons]
    tauto

/-- A change of all rows that leaves the new ones as they are may come before they are inserted. -/
theorem mapValues_upsertAll_kept {f : α → β → β} (t : Table α β)
    (h : ∀ row ∈ rows, f row.1 row.2 = row.2) :
    AList.mapValues f (upsertAll kept t rows) = upsertAll kept (t.mapValues f) rows := by
  induction rows generalizing t with
  | nil => rfl
  | cons row _ ih =>
    have hrow : AList.mapValues f (upsert kept t row) = upsert kept (t.mapValues f) row := by
      by_cases hm : row.1 ∈ t
      · rw [(Absorbed.kept_iff.mpr hm).upsert_eq,
          (Absorbed.kept_iff.mpr (AList.mem_mapValues.mpr hm)).upsert_eq]
      · rw [upsert, dif_neg hm, upsert, dif_neg fun hmap => hm (AList.mem_mapValues.mp hmap)]
        simp [AList.mapValues, append, h row List.mem_cons_self]
    rw [upsertAll, List.foldl_cons, ← upsertAll, ih _ fun r hr => h r (List.mem_cons_of_mem row hr),
      hrow]
    rfl

end Table
