import Mathlib.Data.List.AList
import Mathlib.Tactic.Tauto

/-!
# In-order reassembly of a cut-up list

A `Buffer` delivers a list in order from pieces that arrive in any order: `cursor` elements have
been delivered, and pieces that start later are parked under their start position. `accept` takes
one piece, and `drain` delivers the parked pieces that now abut the cursor.
-/

namespace Reassembly

variable {α : Type*}

abbrev Parked (α : Type*) := AList (fun _ : ℕ => List α)

structure Buffer (α : Type*) where
  cursor : ℕ
  parked : Parked α

def Buffer.empty : Buffer α := ⟨0, ∅⟩

/-- The fuel bounds the number of parked pieces; every round removes one. -/
def drain : ℕ → Buffer α → Buffer α × List α
  | 0, b => (b, [])
  | fuel + 1, b =>
    match b.parked.lookup b.cursor with
    | none => (b, [])
    | some c =>
      let r := drain fuel ⟨b.cursor + c.length, b.parked.erase b.cursor⟩
      (r.1, c ++ r.2)

def accept (b : Buffer α) (o : ℕ) (c : List α) : Buffer α × List α :=
  if o < b.cursor then (b, [])
  else if o = b.cursor then
    let r := drain b.parked.entries.length ⟨b.cursor + c.length, b.parked⟩
    (r.1, c ++ r.2)
  else if o ∈ b.parked then (b, [])
  else (⟨b.cursor, b.parked.insert o c⟩, [])

variable {b : Buffer α}

theorem drain_none (h : b.parked.lookup b.cursor = none) (fuel : ℕ) : drain fuel b = (b, []) := by
  cases fuel with
  | zero => rfl
  | succ => simp only [drain, h]

variable {c : List α}

theorem drain_some (h : b.parked.lookup b.cursor = some c) (fuel : ℕ) :
    drain (fuel + 1) b = ((drain fuel ⟨b.cursor + c.length, b.parked.erase b.cursor⟩).1,
        c ++ (drain fuel ⟨b.cursor + c.length, b.parked.erase b.cursor⟩).2) := by
  simp only [drain, h]

theorem accept_cases (b : Buffer α) (o : ℕ) (c : List α) : (o < b.cursor ∧ accept b o c = (b, [])) ∨
    (o = b.cursor ∧ accept b o c = ((drain b.parked.entries.length ⟨o + c.length, b.parked⟩).1,
        c ++ (drain b.parked.entries.length ⟨o + c.length, b.parked⟩).2)) ∨
    (b.cursor < o ∧ o ∈ b.parked ∧ accept b o c = (b, [])) ∨
    (b.cursor < o ∧ o ∉ b.parked ∧ accept b o c = (⟨b.cursor, b.parked.insert o c⟩, [])) := by
  unfold accept
  split_ifs with hlt heq hm
  · exact .inl ⟨hlt, rfl⟩
  · exact .inr (.inl ⟨heq, by rw [heq]⟩)
  · exact .inr (.inr (.inl ⟨by omega, hm, rfl⟩))
  · exact .inr (.inr (.inr ⟨by omega, hm, rfl⟩))

variable {k e o : ℕ} {m : Parked α}

theorem length_entries_erase (h : m.lookup k = some c) :
    (m.erase k).entries.length + 1 = m.entries.length := by
  have hk : k ∈ m.keys := AList.mem_keys.mp (AList.lookup_isSome.mp (by simp [h]))
  have hl : ∀ m : Parked α, m.entries.length = m.keys.length := fun m => by
    simp [AList.keys, List.keys]
  have hp := List.length_pos_of_mem hk
  rw [hl, hl, AList.keys_erase, List.length_erase_of_mem hk]
  omega

theorem lookup_erase_eq_some : (m.erase e).lookup k = some c ↔ k ≠ e ∧ m.lookup k = some c := by
  by_cases hk : k = e
  · subst k
    simp
  · simp [hk]

theorem lookup_insert_eq_some {d : List α} :
    (m.insert o c).lookup k = some d ↔ (k = o ∧ d = c) ∨ (k ≠ o ∧ m.lookup k = some d) := by
  by_cases hk : k = o
  · subst k
    simp [eq_comm]
  · simp [hk]

theorem mem_parked_iff : k ∈ m ↔ ∃ c, m.lookup k = some c := by
  rw [← AList.lookup_isSome, Option.isSome_iff_exists]

/-! ### Delivery is a prefix -/

/-- Every parked piece is a piece of `S` at its own position. -/
structure Sound (S : List α) (b : Buffer α) : Prop where
  cursor_le : b.cursor ≤ S.length
  within : ∀ k c, b.parked.lookup k = some c → c <+: S.drop k

theorem sound_empty (S : List α) : Sound S Buffer.empty :=
  ⟨Nat.zero_le _, fun k c h => by simp [Buffer.empty] at h⟩

variable {S : List α}

theorem take_append_piece (h : c <+: S.drop e) : S.take e ++ c = S.take (e + c.length) := by
  obtain ⟨t, ht⟩ := h
  rw [List.take_add, ← ht]
  simp

theorem piece_end_le (h : c <+: S.drop e) (he : e ≤ S.length) : e + c.length ≤ S.length := by
  have hl := h.length_le
  rw [List.length_drop] at hl
  omega

theorem drain_sound (fuel : ℕ) (hb : Sound S b) :
    Sound S (drain fuel b).1 ∧
      S.take b.cursor ++ (drain fuel b).2 = S.take (drain fuel b).1.cursor := by
  induction fuel generalizing b with
  | zero => exact ⟨hb, by simp [drain]⟩
  | succ _ ih =>
    cases hl : b.parked.lookup b.cursor with
    | none => rw [drain_none hl]; exact ⟨hb, by simp⟩
    | some c =>
      have hc := hb.within _ _ hl
      have hs : Sound S ⟨b.cursor + c.length, b.parked.erase b.cursor⟩ :=
        ⟨piece_end_le hc hb.cursor_le,
          fun k d hd => hb.within k d (lookup_erase_eq_some.mp hd).2⟩
      obtain ⟨hsound, ho⟩ := ih hs
      rw [drain_some hl]
      refine ⟨hsound, ?_⟩
      rw [← List.append_assoc, take_append_piece hc]
      exact ho

theorem accept_sound (hb : Sound S b) (hc : c <+: S.drop o) : Sound S (accept b o c).1 ∧
      S.take b.cursor ++ (accept b o c).2 = S.take (accept b o c).1.cursor := by
  obtain ⟨_, he⟩ | ⟨rfl, he⟩ | ⟨_, _, he⟩ | ⟨_, _, he⟩ := accept_cases b o c <;> rw [he]
  · exact ⟨hb, by simp⟩
  · have hs : Sound S ⟨b.cursor + c.length, b.parked⟩ :=
      ⟨piece_end_le hc hb.cursor_le, hb.within⟩
    obtain ⟨hsound, ho⟩ := drain_sound b.parked.entries.length hs
    refine ⟨hsound, ?_⟩
    rw [← List.append_assoc, take_append_piece hc]
    exact ho
  · exact ⟨hb, by simp⟩
  · refine ⟨⟨hb.cursor_le, fun k d hd => ?_⟩, by simp⟩
    rcases lookup_insert_eq_some.mp hd with ⟨rfl, rfl⟩ | ⟨_, hd⟩
    · exact hc
    · exact hb.within k d hd

/-! ### Parked size -/

def size (m : Parked α) : ℕ := (m.entries.map Sigma.snd).flatten.length

theorem size_erase (h : m.lookup k = some c) : size (m.erase k) + c.length = size m := by
  have hk : k ∈ m.keys := AList.mem_keys.mp (mem_parked_iff.mpr ⟨c, h⟩)
  obtain ⟨d, l₁, l₂, _, hm, he⟩ := List.exists_of_kerase hk
  have hc : ⟨k, c⟩ ∈ m.entries := AList.mem_lookup_iff.mp h
  have hd : ⟨k, d⟩ ∈ m.entries := by rw [hm]; simp
  obtain rfl := m.nodupKeys.eq_of_mk_mem hc hd
  change ((m.entries.kerase k).map Sigma.snd).flatten.length + _ = (m.entries.map _).flatten.length
  rw [he, hm]
  simp only [List.map_append, List.map_cons, List.flatten_append, List.flatten_cons,
    List.length_append]
  omega

theorem size_insert (h : k ∉ m) (c : List α) : size (m.insert k c) = size m + c.length := by
  unfold size
  rw [AList.entries_insert_of_notMem h, List.map_cons, List.flatten_cons, List.length_append]
  exact Nat.add_comm _ _

theorem size_eq_zero (h : ∀ k, k ∉ m) : size m = 0 := by
  cases he : m.entries with
  | nil => simp [size, he]
  | cons e => exact absurd (AList.mem_keys.mpr (by simp [AList.keys, he])) (h e.1)

theorem length_entries_le_size (h : ∀ k c, m.lookup k = some c → c ≠ []) :
    m.entries.length ≤ size m := by
  have hn : ∀ e ∈ m.entries, e.2 ≠ [] := fun e he => h e.1 e.2 (AList.mem_lookup_iff.mpr he)
  unfold size
  generalize m.entries = entries at hn ⊢
  induction entries with
  | nil => exact Nat.zero_le _
  | cons e _ ih =>
    have hr := ih fun e' he' => hn e' (List.mem_cons_of_mem _ he')
    have hp := List.length_pos_of_ne_nil (hn e (List.mem_cons_self ..))
    rw [List.map_cons, List.flatten_cons, List.length_append, List.length_cons]
    omega

theorem Sound.append (hb : Sound S b) (T : List α) : Sound (S ++ T) b := by
  refine ⟨by rw [List.length_append]; have := hb.cursor_le; omega, fun k c h => ?_⟩
  rw [List.drop_append]
  exact (hb.within k c h).trans (List.prefix_append _ _)

end Reassembly
