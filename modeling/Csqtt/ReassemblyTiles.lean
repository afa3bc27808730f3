import Csqtt.ReassemblyHoles

/-!
# Reassembly of one consecutive cut

`pieces o cs` tags the consecutive pieces `cs` with their positions, from `o` on. When every piece
of one cut arrives, in any order and any number of times, the buffer ends with the whole list
delivered and nothing parked: `Tiled` says which pieces are parked after the pieces `seen`.
-/

namespace Reassembly

variable {α : Type*}

def pieces : ℕ → List (List α) → List (ℕ × List α)
  | _, [] => []
  | o, c :: cs => (o, c) :: pieces (o + c.length) cs

variable {k p j a z : ℕ} {c : List α}

theorem pieces_bounds {o : ℕ} {cs : List (List α)} (h : (k, c) ∈ pieces o cs) :
    o ≤ k ∧ k + c.length ≤ o + cs.flatten.length := by
  induction cs generalizing o with
  | nil => simp [pieces] at h
  | cons _ _ ih =>
    simp only [pieces, List.mem_cons, Prod.mk.injEq] at h
    simp only [List.flatten_cons, List.length_append]
    rcases h with ⟨rfl, rfl⟩ | h
    · omega
    · have := ih h
      omega

theorem pieces_apart {o : ℕ} {cs : List (List α)} {d : List α} (hk : (k, c) ∈ pieces o cs)
    (hj : (j, d) ∈ pieces o cs) (hkj : k < j) : k + c.length ≤ j := by
  induction cs generalizing o with
  | nil => simp [pieces] at hk
  | cons _ _ ih =>
    simp only [pieces, List.mem_cons, Prod.mk.injEq] at hk hj
    rcases hk with ⟨rfl, rfl⟩ | hk
    · rcases hj with ⟨rfl, rfl⟩ | hj
      · omega
      · exact (pieces_bounds hj).1
    · rcases hj with ⟨rfl, rfl⟩ | hj
      · have := (pieces_bounds hk).1
        omega
      · exact ih hk hj

theorem pieces_unique {o : ℕ} {cs : List (List α)} (hne : ∀ c ∈ cs, c ≠ []) {d : List α}
    (hc : (k, c) ∈ pieces o cs) (hd : (k, d) ∈ pieces o cs) : c = d := by
  induction cs generalizing o with
  | nil => simp [pieces] at hc
  | cons e _ ih =>
    have he := List.length_pos_of_ne_nil (hne e (List.mem_cons_self ..))
    simp only [pieces, List.mem_cons, Prod.mk.injEq] at hc hd
    rcases hc with ⟨rfl, rfl⟩ | hc
    · rcases hd with ⟨_, rfl⟩ | hd
      · rfl
      · have := (pieces_bounds hd).1
        omega
    · rcases hd with ⟨rfl, rfl⟩ | hd
      · have := (pieces_bounds hc).1
        omega
      · exact ih (fun c hc => hne c (List.mem_cons_of_mem _ hc)) hc hd

theorem pieces_next {o : ℕ} {cs : List (List α)} (h : (k, c) ∈ pieces o cs) :
    k + c.length = o + cs.flatten.length ∨ ∃ d, (k + c.length, d) ∈ pieces o cs := by
  induction cs generalizing o with
  | nil => simp [pieces] at h
  | cons _ cs ih =>
    simp only [pieces, List.mem_cons, Prod.mk.injEq, List.flatten_cons, List.length_append]
      at h ⊢
    rcases h with ⟨rfl, rfl⟩ | h
    · cases cs with
      | nil => simp
      | cons d => exact .inr ⟨d, .inr (by simp [pieces])⟩
    · rcases ih h with h | ⟨d, hd⟩
      · exact .inl (by omega)
      · exact .inr ⟨d, .inr hd⟩

theorem pieces_within {o : ℕ} {cs : List (List α)} (h : (k, c) ∈ pieces o cs) :
    c <+: cs.flatten.drop (k - o) := by
  induction cs generalizing o with
  | nil => simp [pieces] at h
  | cons e _ ih =>
    simp only [pieces, List.mem_cons, Prod.mk.injEq] at h
    rcases h with ⟨rfl, rfl⟩ | h
    · simp
    · have hb := (pieces_bounds h).1
      have hd : k - o = e.length + (k - (o + e.length)) := by omega
      rw [List.flatten_cons, hd, List.drop_append, List.drop_eq_nil_of_le (by omega)]
      simpa using ih h

theorem mem_of_mem_pieces {o : ℕ} {cs : List (List α)} {p : ℕ × List α}
    (h : p ∈ pieces o cs) : p.2 ∈ cs := by
  induction cs generalizing o with
  | nil => simp [pieces] at h
  | cons _ _ ih =>
    simp only [pieces, List.mem_cons] at h
    rcases h with rfl | h
    · exact List.mem_cons_self ..
    · exact List.mem_cons_of_mem _ (ih h)

/-- The parked pieces are exactly the pieces seen beyond the cursor, and the cursor stands at the
start of a piece or at the end. -/
structure Tiled (o : ℕ) (cs : List (List α)) (seen : List (ℕ × List α)) (b : Buffer α) : Prop where
  boundary : b.cursor = o + cs.flatten.length ∨ ∃ c, (b.cursor, c) ∈ pieces o cs
  parked_iff : ∀ k c, b.parked.lookup k = some c ↔ (k, c) ∈ seen ∧ b.cursor < k
  unseen : ∀ c, (b.cursor, c) ∉ seen
  seen_mem : ∀ p ∈ seen, p ∈ pieces o cs

variable {o : ℕ} {cs : List (List α)} {seen : List (ℕ × List α)} {b : Buffer α}

theorem tiled_start (o : ℕ) (cs : List (List α)) : Tiled o cs [] ⟨o, ∅⟩ := by
  refine ⟨?_, fun k c => by simp, fun c => by simp, fun p hp => by simp at hp⟩
  cases cs with
  | nil => exact .inl (by simp)
  | cons c => exact .inr ⟨c, by simp [pieces]⟩

section

variable (h : Tiled o cs seen b)
include h

theorem Tiled.mem_pieces (hk : b.parked.lookup k = some c) : (k, c) ∈ pieces o cs :=
  h.seen_mem _ ((h.parked_iff k c).mp hk).1

theorem Tiled.ahead : Ahead b := by
  intro k hk
  obtain ⟨c, hc⟩ := mem_parked_iff.mp hk
  exact ((h.parked_iff k c).mp hc).2

theorem Tiled.solid (hne : ∀ c ∈ cs, c ≠ []) : Solid b :=
  fun _ _ hk => hne _ (mem_of_mem_pieces (h.mem_pieces hk))

theorem Tiled.not_overruns (hp : (p, c) ∈ pieces o cs) : ¬ Overruns b p c := by
  rintro ⟨_, k, hk, hin | ⟨j, d, _, hd, hjk, hkd⟩⟩
  · obtain ⟨e, he⟩ := mem_parked_iff.mp hk
    have := pieces_apart hp (h.mem_pieces he) hin.1
    omega
  · obtain ⟨e, he⟩ := mem_parked_iff.mp hk
    have := pieces_apart (h.mem_pieces hd) (h.mem_pieces he) hjk
    omega

theorem chain_boundary (hz : Chain b.parked a z)
    (ha : a = o + cs.flatten.length ∨ ∃ c, (a, c) ∈ pieces o cs) :
    z = o + cs.flatten.length ∨ ∃ c, (z, c) ∈ pieces o cs := by
  induction hz with
  | stop => exact ha
  | next hl _ ih => exact ih (pieces_next (h.mem_pieces hl))

end

theorem lookup_drain_iff (hs : Solid b) (ha : Ahead (drain b.parked.entries.length b).1) (k : ℕ)
    (d : List α) :
    (drain b.parked.entries.length b).1.parked.lookup k = some d ↔
      b.parked.lookup k = some d ∧ (drain b.parked.entries.length b).1.cursor < k := by
  obtain ⟨hz, hn⟩ := drain_chain b.parked.entries.length hs le_rfl
  constructor
  · intro hk
    exact ⟨drain_lookup _ hk, ha k (mem_parked_iff.mpr ⟨d, hk⟩)⟩
  · rintro ⟨hb, hc⟩
    have ho : ¬ Chain b.parked b.cursor k := fun hchain => by
      have := chain_end hchain hb hz hn
      omega
    obtain ⟨e, hl⟩ := mem_parked_iff.mp
      ((mem_drain_iff _ hs le_rfl k).mpr ⟨mem_parked_iff.mpr ⟨d, hb⟩, ho⟩)
    obtain rfl := Option.some.inj (hb.symm.trans (drain_lookup _ hl))
    exact hl

theorem Tiled.unseen_cons (h : Tiled o cs seen b) (hp : p ≠ b.cursor) (c d : List α) :
    (b.cursor, d) ∉ (p, c) :: seen := by
  intro hd
  rcases List.mem_cons.mp hd with he | hd
  · exact hp (Prod.mk.inj he).1.symm
  · exact h.unseen d hd

theorem Tiled.seen_mem_cons (h : Tiled o cs seen b) (hp : (p, c) ∈ pieces o cs) :
    ∀ q ∈ (p, c) :: seen, q ∈ pieces o cs := by
  intro q hq
  rcases List.mem_cons.mp hq with rfl | hq
  · exact hp
  · exact h.seen_mem q hq

theorem Tiled.known (h : Tiled o cs seen b) (hp : (p, c) ∈ pieces o cs) (hne : p ≠ b.cursor)
    (hs : b.cursor < p → (p, c) ∈ seen) : Tiled o cs ((p, c) :: seen) b := by
  refine ⟨h.boundary, fun k d => ?_, h.unseen_cons hne c, h.seen_mem_cons hp⟩
  rw [h.parked_iff]
  constructor
  · exact fun hk => ⟨List.mem_cons_of_mem _ hk.1, hk.2⟩
  · rintro ⟨hk, hc⟩
    rcases List.mem_cons.mp hk with hpk | hk
    · obtain ⟨rfl, rfl⟩ := Prod.mk.inj hpk
      exact ⟨hs hc, hc⟩
    · exact ⟨hk, hc⟩

section

variable (hne : ∀ c ∈ cs, c ≠ [])
include hne

theorem Tiled.delivered (h : Tiled o cs seen b) (hp : (b.cursor, c) ∈ pieces o cs)
    (ha : Ahead (drain b.parked.entries.length ⟨b.cursor + c.length, b.parked⟩).1) :
    Tiled o cs ((b.cursor, c) :: seen)
      (drain b.parked.entries.length ⟨b.cursor + c.length, b.parked⟩).1 := by
  have hs : Solid (⟨b.cursor + c.length, b.parked⟩ : Buffer α) := h.solid hne
  have hpos := List.length_pos_of_ne_nil (hne c (mem_of_mem_pieces hp))
  obtain ⟨hz, hn⟩ := drain_chain b.parked.entries.length hs le_rfl
  have hle : b.cursor + c.length ≤ _ := hz.le
  refine ⟨chain_boundary h hz (pieces_next hp), fun k d => ?_, fun d hd => ?_, h.seen_mem_cons hp⟩
  · refine (lookup_drain_iff hs ha k d).trans ?_
    rw [h.parked_iff]
    constructor
    · exact fun hk => ⟨List.mem_cons_of_mem _ hk.1.1, hk.2⟩
    · rintro ⟨hk, hc⟩
      rcases List.mem_cons.mp hk with hpk | hk
      · have := (Prod.mk.inj hpk).1
        omega
      · exact ⟨⟨hk, by omega⟩, hc⟩
  · rcases List.mem_cons.mp hd with hpk | hd
    · have := (Prod.mk.inj hpk).1
      omega
    · have hl := (h.parked_iff _ d).mpr ⟨hd, by omega⟩
      rw [hn] at hl
      cases hl

theorem Tiled.parked (h : Tiled o cs seen b) (hp : (p, c) ∈ pieces o cs) (hlt : b.cursor < p) :
    Tiled o cs ((p, c) :: seen) ⟨b.cursor, b.parked.insert p c⟩ := by
  refine ⟨h.boundary, fun k d => ?_, h.unseen_cons (by omega) c, h.seen_mem_cons hp⟩
  rw [lookup_insert_eq_some, h.parked_iff]
  simp only [List.mem_cons, Prod.mk.injEq]
  constructor
  · rintro (⟨rfl, rfl⟩ | ⟨_, hk, hc⟩)
    · exact ⟨.inl ⟨rfl, rfl⟩, hlt⟩
    · exact ⟨.inr hk, hc⟩
  · rintro ⟨⟨rfl, rfl⟩ | hk, hc⟩
    · exact .inl ⟨rfl, rfl⟩
    · by_cases hkp : k = p
      · subst k
        exact .inl ⟨rfl, pieces_unique hne (h.seen_mem _ hk) hp⟩
      · exact .inr ⟨hkp, hk, hc⟩

theorem accept_tiled (h : Tiled o cs seen b) (hp : (p, c) ∈ pieces o cs) :
    Tiled o cs ((p, c) :: seen) (accept b p c).1 := by
  have ha : Ahead (accept b p c).1 :=
    (accept_ahead_iff h.ahead (h.solid hne) p c).mpr (h.not_overruns hp)
  obtain ⟨hlt, he⟩ | ⟨rfl, he⟩ | ⟨hlt, hpark, he⟩ | ⟨hlt, hpark, he⟩ := accept_cases b p c <;>
    rw [he] at ha ⊢
  · exact h.known hp (by omega) fun hb => by omega
  · exact h.delivered hne hp ha
  · refine h.known hp (by omega) fun _ => ?_
    obtain ⟨e, hl⟩ := mem_parked_iff.mp hpark
    obtain rfl := pieces_unique hne (h.mem_pieces hl) hp
    exact ((h.parked_iff p e).mp hl).1
  · exact h.parked hne hp hlt

end

/-- Once every piece has been seen, everything is delivered and nothing is parked. -/
theorem Tiled.complete (h : Tiled o cs seen b) (ha : ∀ p ∈ pieces o cs, p ∈ seen) :
    b.cursor = o + cs.flatten.length ∧ ∀ k, k ∉ b.parked := by
  have hc : b.cursor = o + cs.flatten.length := by
    rcases h.boundary with hc | ⟨c, hc⟩
    · exact hc
    · exact absurd (ha _ hc) (h.unseen c)
  refine ⟨hc, fun k hk => ?_⟩
  obtain ⟨c, hkc⟩ := mem_parked_iff.mp hk
  have hb := pieces_bounds (h.mem_pieces hkc)
  have hlt := ((h.parked_iff k c).mp hkc).2
  omega

end Reassembly
