import Csqtt.Reassembly

/-!
# Holes of a reassembly buffer

`Held b i` says that element `i` was delivered or is parked. In a buffer that is `Ahead` something
is parked exactly when a held element lies behind a missing one. A piece keeps a buffer ahead
exactly when it does not run past the start of a parked piece (`Overruns`).
-/

namespace Reassembly

variable {α : Type*}

def Ahead (b : Buffer α) : Prop := ∀ k ∈ b.parked, b.cursor < k

def Solid (b : Buffer α) : Prop := ∀ k c, b.parked.lookup k = some c → c ≠ []

def Held (b : Buffer α) (i : ℕ) : Prop :=
  i < b.cursor ∨ ∃ k c, b.parked.lookup k = some c ∧ k ≤ i ∧ i < k + c.length

def HasHole (b : Buffer α) : Prop := ∃ i j, i < j ∧ ¬ Held b i ∧ Held b j

/-- `Chain m a j`: parked pieces lead from position `a` to position `j` without a gap. -/
inductive Chain (m : Parked α) : ℕ → ℕ → Prop
  | stop (a : ℕ) : Chain m a a
  | next {a j : ℕ} {c : List α} (h : m.lookup a = some c) (hj : Chain m (a + c.length) j) :
      Chain m a j

/-- The piece `c` at the cursor, or a parked piece that continues it, covers the start of a parked
piece without ending there. -/
def Overruns (b : Buffer α) (o : ℕ) (c : List α) : Prop :=
  o = b.cursor ∧ ∃ k ∈ b.parked, (o < k ∧ k < o + c.length) ∨
    ∃ j d, Chain b.parked (o + c.length) j ∧ b.parked.lookup j = some d ∧ j < k ∧ k < j + d.length

/-- The buffer throws the piece away although it holds elements not held so far. -/
def Loses (b : Buffer α) (o : ℕ) (c : List α) : Prop :=
  (o < b.cursor ∧ b.cursor < o + c.length) ∨
    ∃ d, b.parked.lookup o = some d ∧ b.cursor < o ∧ d.length < c.length

variable {b : Buffer α}

theorem waiting_iff_hasHole (ha : Ahead b) (hs : Solid b) : (∃ k, k ∈ b.parked) ↔ HasHole b := by
  constructor
  · rintro ⟨k, hk⟩
    obtain ⟨c, hc⟩ := mem_parked_iff.mp hk
    have hl := List.length_pos_of_ne_nil (hs k c hc)
    refine ⟨b.cursor, k, ha k hk, ?_, .inr ⟨k, c, hc, le_rfl, by omega⟩⟩
    rintro (h | ⟨j, d, hj, hle, _⟩)
    · omega
    · have := ha j (mem_parked_iff.mpr ⟨d, hj⟩)
      omega
  · rintro ⟨i, j, hij, hi, hj | ⟨k, c, hk, _⟩⟩
    · exact absurd (.inl (by omega)) hi
    · exact ⟨k, mem_parked_iff.mpr ⟨c, hk⟩⟩

variable {a j k z p o : ℕ} {m : Parked α}

theorem Chain.le (h : Chain m a j) : a ≤ j := by
  induction h with
  | stop => exact le_rfl
  | next => omega

variable {c : List α}

theorem chain_iff (h : m.lookup a = some c) : Chain m a j ↔ j = a ∨ Chain m (a + c.length) j := by
  constructor
  · intro hj
    cases hj with
    | stop => exact .inl rfl
    | next h' hj =>
      rw [h] at h'
      obtain rfl := Option.some.inj h'
      exact .inr hj
  · rintro (rfl | hj)
    · exact Chain.stop _
    · exact Chain.next h hj

theorem chain_none (h : m.lookup a = none) : Chain m a j ↔ j = a := by
  constructor
  · intro hj
    cases hj with
    | stop => rfl
    | next h' => rw [h] at h'; cases h'
  · rintro rfl
    exact Chain.stop _

theorem chain_erase (hp : a < p) : Chain (m.erase a) p j ↔ Chain m p j := by
  constructor
  · intro h
    induction h with
    | stop p => exact Chain.stop p
    | next h _ ih => exact Chain.next (lookup_erase_eq_some.mp h).2 (ih (by omega))
  · intro h
    induction h with
    | stop p => exact Chain.stop p
    | next h _ ih => exact Chain.next (lookup_erase_eq_some.mpr ⟨by omega, h⟩) (ih (by omega))

theorem chain_cover (h : Chain m a z) (ha : a ≤ k) (hz : k ≤ z) :
    Chain m a k ∨ ∃ j d, Chain m a j ∧ m.lookup j = some d ∧ j < k ∧ k < j + d.length := by
  induction h with
  | stop a =>
    obtain rfl : k = a := by omega
    exact .inl (Chain.stop k)
  | @next a z c h hz' ih =>
    by_cases hk : k < a + c.length
    · by_cases hka : k = a
      · subst k
        exact .inl (Chain.stop a)
      · exact .inr ⟨a, c, Chain.stop a, h, by omega, hk⟩
    · rcases ih (by omega) hz with hc | ⟨j, d, hj, hr⟩
      · exact .inl (Chain.next h hc)
      · exact .inr ⟨j, d, Chain.next h hj, hr⟩

theorem chain_not_inside {d : List α} (h : Chain m a j) (hd : m.lookup j = some d) (hjk : j < k)
    (hk : k < j + d.length) : ¬ Chain m a k := by
  induction h with
  | stop =>
    rw [chain_iff hd]
    rintro (rfl | hc)
    · omega
    · have := hc.le
      omega
  | @next a j c h hj ih =>
    rw [chain_iff h]
    rintro (rfl | hc)
    · have := hj.le
      omega
    · exact ih hd hjk hk hc

theorem chain_end {d : List α} (h : Chain m a j) (hd : m.lookup j = some d) (hz : Chain m a z)
    (hn : m.lookup z = none) : j + d.length ≤ z := by
  induction h with
  | stop =>
    rcases (chain_iff hd).mp hz with rfl | hz
    · rw [hd] at hn
      cases hn
    · exact hz.le
  | next h _ ih =>
    rcases (chain_iff h).mp hz with rfl | hz
    · rw [h] at hn
      cases hn
    · exact ih hd hz

theorem solid_erase (hs : Solid b) (e k : ℕ) : Solid ⟨e, b.parked.erase k⟩ :=
  fun j c h => hs j c (lookup_erase_eq_some.mp h).2

variable (fuel : ℕ)

theorem drain_chain (hs : Solid b) (hf : b.parked.entries.length ≤ fuel) :
    Chain b.parked b.cursor (drain fuel b).1.cursor ∧
      b.parked.lookup (drain fuel b).1.cursor = none := by
  induction fuel generalizing b with
  | zero =>
    have hn : b.parked.lookup b.cursor = none := by
      cases hl : b.parked.lookup b.cursor with
      | none => rfl
      | some => have := length_entries_erase hl; omega
    exact ⟨Chain.stop _, hn⟩
  | succ fuel ih =>
    cases hl : b.parked.lookup b.cursor with
    | none => rw [drain_none hl]; exact ⟨Chain.stop _, hl⟩
    | some c =>
      have hlen := List.length_pos_of_ne_nil (hs _ _ hl)
      have hfuel := length_entries_erase hl
      obtain ⟨hc, hn⟩ := ih (solid_erase hs (b.cursor + c.length) b.cursor)
        (by change (b.parked.erase b.cursor).entries.length ≤ fuel; omega)
      rw [drain_some hl]
      have hle := hc.le
      rw [chain_erase (by change b.cursor < b.cursor + c.length; omega)] at hc
      refine ⟨Chain.next hl hc, ?_⟩
      rw [AList.lookup_erase_ne (by change b.cursor + c.length ≤ _ at hle; omega)] at hn
      exact hn

theorem mem_drain_iff (hs : Solid b) (hf : b.parked.entries.length ≤ fuel) (k : ℕ) :
    k ∈ (drain fuel b).1.parked ↔ k ∈ b.parked ∧ ¬ Chain b.parked b.cursor k := by
  induction fuel generalizing b with
  | zero =>
    have hn : k ∉ b.parked := by
      intro hk
      obtain ⟨c, hc⟩ := mem_parked_iff.mp hk
      have := length_entries_erase hc
      omega
    simp [drain, hn]
  | succ fuel ih =>
    cases hl : b.parked.lookup b.cursor with
    | none =>
      rw [drain_none hl, chain_none hl]
      have hn := AList.lookup_eq_none.mp hl
      constructor
      · intro hk
        exact ⟨hk, fun he => hn (he ▸ hk)⟩
      · exact And.left
    | some c =>
      have hle := List.length_pos_of_ne_nil (hs _ _ hl)
      have hfuel := length_entries_erase hl
      have hk := ih (solid_erase hs (b.cursor + c.length) b.cursor)
        (by change (b.parked.erase b.cursor).entries.length ≤ fuel; omega)
      rw [drain_some hl]
      rw [hk, chain_erase (by change b.cursor < b.cursor + c.length; omega), chain_iff hl,
        AList.mem_erase]
      tauto

theorem drain_lookup (h : (drain fuel b).1.parked.lookup k = some c) :
    b.parked.lookup k = some c := by
  induction fuel generalizing b with
  | zero => exact h
  | succ _ ih =>
    cases hl : b.parked.lookup b.cursor with
    | none => rwa [drain_none hl] at h
    | some =>
      rw [drain_some hl] at h
      exact (lookup_erase_eq_some.mp (ih h)).2

theorem drain_held (b : Buffer α) (i : ℕ) : Held (drain fuel b).1 i ↔ Held b i := by
  induction fuel generalizing b with
  | zero => rfl
  | succ _ ih =>
    cases hl : b.parked.lookup b.cursor with
    | none => rw [drain_none hl]
    | some c =>
      rw [drain_some hl, ih]
      constructor
      · rintro (h | ⟨k, d, hd, hk⟩)
        · by_cases hi : i < b.cursor
          · exact .inl hi
          · exact .inr ⟨b.cursor, c, hl, by omega, h⟩
        · exact .inr ⟨k, d, (lookup_erase_eq_some.mp hd).2, hk⟩
      · rintro (h | ⟨k, d, hd, hk⟩)
        · exact .inl (Nat.lt_add_right _ h)
        · by_cases he : k = b.cursor
          · subst k
            rw [hl] at hd
            obtain rfl := Option.some.inj hd
            exact .inl hk.2
          · exact .inr ⟨k, d, lookup_erase_eq_some.mpr ⟨he, hd⟩, hk⟩

theorem drain_solid (hs : Solid b) : Solid (drain fuel b).1 := by
  induction fuel generalizing b with
  | zero => exact hs
  | succ _ ih =>
    cases hl : b.parked.lookup b.cursor with
    | none => rw [drain_none hl]; exact hs
    | some => rw [drain_some hl]; exact ih (solid_erase hs _ _)

theorem accept_solid (hs : Solid b) (o : ℕ) (hc : c ≠ []) : Solid (accept b o c).1 := by
  obtain ⟨_, he⟩ | ⟨_, he⟩ | ⟨_, _, he⟩ | ⟨_, _, he⟩ := accept_cases b o c <;> rw [he]
  · exact hs
  · exact drain_solid _ (fun k d h => hs k d h)
  · exact hs
  · intro k d hd
    rcases lookup_insert_eq_some.mp hd with ⟨rfl, rfl⟩ | ⟨_, hd⟩
    · exact hc
    · exact hs k d hd

/-- The exact condition under which accepting a piece leaves no parked piece behind the cursor. -/
theorem accept_ahead_iff (ha : Ahead b) (hs : Solid b) (o : ℕ) (c : List α) :
    Ahead (accept b o c).1 ↔ ¬ Overruns b o c := by
  obtain ⟨hlt, he⟩ | ⟨rfl, he⟩ | ⟨hlt, _, he⟩ | ⟨hlt, _, he⟩ := accept_cases b o c <;> rw [he]
  · exact iff_of_true ha (fun h => by have := h.1; omega)
  · let b' : Buffer α := ⟨b.cursor + c.length, b.parked⟩
    have hs' : Solid b' := hs
    obtain ⟨hz, hn⟩ := drain_chain b.parked.entries.length hs' le_rfl
    have hmem := mem_drain_iff b.parked.entries.length hs' le_rfl
    have hle : b.cursor + c.length ≤ (drain b.parked.entries.length b').1.cursor := hz.le
    constructor
    · rintro h ⟨_, k, hk, hin | ⟨j, d, hj, hd, hjk, hkd⟩⟩
      · have hout : ¬ Chain b'.parked b'.cursor k := fun hc => by
          have : b.cursor + c.length ≤ k := hc.le
          omega
        have : (drain _ b').1.cursor < k := h k ((hmem k).mpr ⟨hk, hout⟩)
        omega
      · have : (drain _ b').1.cursor < k :=
          h k ((hmem k).mpr ⟨hk, chain_not_inside hj hd hjk hkd⟩)
        have := chain_end hj hd hz hn
        omega
    · intro h k hk
      obtain ⟨hkm, hkc⟩ := (hmem k).mp hk
      by_contra hge
      have hle' : ¬ (drain b.parked.entries.length b').1.cursor < k := hge
      apply h
      refine ⟨rfl, k, hkm, ?_⟩
      by_cases hin : k < b.cursor + c.length
      · exact .inl ⟨ha k hkm, hin⟩
      · rcases chain_cover hz (Nat.le_of_not_lt hin) (Nat.le_of_not_lt hle') with hc | hc
        · exact absurd hc hkc
        · exact .inr hc
  · exact iff_of_true ha (fun h => by have := h.1; omega)
  · refine iff_of_true (fun k hk => ?_) (fun h => by have := h.1; omega)
    rcases (AList.mem_insert _).mp hk with rfl | hk
    · exact hlt
    · exact ha k hk

theorem accept_held (hl : ¬ Loses b o c) (i : ℕ) :
    Held (accept b o c).1 i ↔ Held b i ∨ (o ≤ i ∧ i < o + c.length) := by
  obtain ⟨hlt, he⟩ | ⟨rfl, he⟩ | ⟨hlt, hmem, he⟩ | ⟨_, hmem, he⟩ := accept_cases b o c <;> rw [he]
  · have hle : o + c.length ≤ b.cursor := by
      by_contra h
      exact hl (.inl ⟨hlt, by omega⟩)
    exact ⟨.inl, fun h => h.elim id (fun h => .inl (Nat.lt_of_lt_of_le h.2 hle))⟩
  · rw [drain_held]
    constructor
    · rintro (h | h)
      · by_cases hi : i < b.cursor
        · exact .inl (.inl hi)
        · exact .inr ⟨by omega, h⟩
      · exact .inl (.inr h)
    · rintro ((h | h) | h)
      · exact .inl (Nat.lt_add_right _ h)
      · exact .inr h
      · exact .inl h.2
  · obtain ⟨d, hd⟩ := mem_parked_iff.mp hmem
    have hle : c.length ≤ d.length := by
      by_contra h
      exact hl (.inr ⟨d, hd, hlt, by omega⟩)
    exact ⟨.inl, fun h => h.elim id (fun h => .inr ⟨o, d, hd, h.1, by omega⟩)⟩
  · constructor
    · rintro (h | ⟨k, d, hd, hk⟩)
      · exact .inl (.inl h)
      · rcases lookup_insert_eq_some.mp hd with ⟨rfl, rfl⟩ | ⟨_, hd⟩
        · exact .inr hk
        · exact .inl (.inr ⟨k, d, hd, hk⟩)
    · rintro ((h | ⟨k, d, hd, hk⟩) | h)
      · exact .inl h
      · have hne : k ≠ o := by
          rintro rfl
          exact hmem (mem_parked_iff.mpr ⟨d, hd⟩)
        exact .inr ⟨k, d, lookup_insert_eq_some.mpr (.inr ⟨hne, hd⟩), hk⟩
      · exact .inr ⟨o, c, lookup_insert_eq_some.mpr (.inl ⟨rfl, rfl⟩), h⟩

end Reassembly
