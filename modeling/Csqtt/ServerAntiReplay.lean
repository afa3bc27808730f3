import Csqtt.BitWindow

/-!
# The server's replay window

`ReplayState` remembers the highest 16-bit sequence number and a bit for each of the last 16384. As
long as an arrival is less than half the sequence space ahead and less than the window behind, it
agrees with the window over the unbounded numbers.
-/

namespace Csqtt

open BitWindow

/-- The sequence number on the wire of the packet with number `n`. -/
def wireSequence (init : UInt16) (n : ℕ) : UInt16 := init + UInt16.ofNat n

instance replayWords : NeZero 256 := ⟨by decide⟩

structure ReplayState where
  initialized : Bool := false
  highest : UInt16 := 0
  bitmap : Option (Bits 256) := none

namespace ReplayState

def accept (s : ReplayState) (seq : UInt16) : ReplayState × Bool :=
  let bitmap := s.bitmap.getD .empty
  if !s.initialized then (⟨true, seq, some (bitmap.set seq.toNat)⟩, true)
  else
    let forward := seq - s.highest
    if forward ≠ 0 ∧ forward < 32768 then
      let cleared :=
        if forward ≥ 16384 then .empty
        else
          (List.range forward.toNat).foldl
            (fun b i => b.clear (s.highest + UInt16.ofNat (i + 1)).toNat) bitmap
      (⟨true, seq, some (cleared.set seq.toNat)⟩, true)
    else
      let behind := s.highest - seq
      if behind ≥ 16384 ∨ bitmap.test seq.toNat then ({ s with bitmap := some bitmap }, false)
      else ({ s with bitmap := some (bitmap.set seq.toNat) }, true)

end ReplayState

theorem toNat_ofNat_sub {c d : ℕ} (hcd : c ≤ d) (hlt : d < c + 65536) :
    (UInt16.ofNat d - UInt16.ofNat c).toNat = d - c := by
  rw [UInt16.toNat_sub, UInt16.toNat_ofNat', UInt16.toNat_ofNat']
  omega

theorem toNat_ofNat_sub_of_lt {c d : ℕ} (hcd : c < d) (hlt : d < c + 65536) :
    (UInt16.ofNat c - UInt16.ofNat d).toNat = 65536 - (d - c) := by
  rw [UInt16.toNat_sub, UInt16.toNat_ofNat', UInt16.toNat_ofNat']
  omega

theorem index_toNat_ofNat (c : ℕ) : index 256 (UInt16.ofNat c).toNat = index 256 c := by
  exact Nat.mod_mod_of_dvd _ (by decide)

theorem wireSequence_eq (init : UInt16) (n : ℕ) :
    wireSequence init n = UInt16.ofNat (init.toNat + n) := by
  rw [wireSequence, UInt16.ofNat_add, UInt16.ofNat_toNat]

theorem toNat_wireSequence (init : UInt16) (n : ℕ) :
    (wireSequence init n).toNat = (init.toNat + n) % 65536 := by
  rw [wireSequence_eq, UInt16.toNat_ofNat']

namespace ReplayState

variable {b : Bits 256} {highest c : ℕ}

theorem accept_first :
    accept {} (UInt16.ofNat c) = (⟨true, UInt16.ofNat c, some (Bits.empty.set c)⟩, true) := by
  rw [accept, Bits.set_congr (index_toNat_ofNat c)]
  rfl

theorem clear_loop_eq (b : Bits 256) (highest count : ℕ) : (List.range count).foldl
        (fun b i => b.clear (UInt16.ofNat highest + UInt16.ofNat (i + 1)).toNat) b =
      b.clearAfter highest count := by
  congr 1
  funext b i
  rw [← UInt16.ofNat_add]
  exact Bits.clear_congr (index_toNat_ofNat _) b

theorem accept_ahead (hc : highest < c) (hlt : c < highest + 32768) :
    accept ⟨true, UInt16.ofNat highest, some b⟩ (UInt16.ofNat c) = (⟨true, UInt16.ofNat c, some
        ((if highest + 16384 ≤ c then Bits.empty else b.clearAfter highest (c - highest)).set c)⟩,
        true) := by
  have hf := toNat_ofNat_sub hc.le (by omega : c < highest + 65536)
  have hne : UInt16.ofNat c - UInt16.ofNat highest ≠ 0 := by
    intro h
    rw [h] at hf
    simp at hf
    omega
  have hh : UInt16.ofNat c - UInt16.ofNat highest < 32768 := by
    rw [UInt16.lt_iff_toNat_lt]
    simp
    omega
  have hj : UInt16.ofNat c - UInt16.ofNat highest ≥ 16384 ↔ highest + 16384 ≤ c := by
    rw [ge_iff_le, UInt16.le_iff_toNat_le]
    simp
    omega
  rw [accept]
  dsimp only
  rw [if_neg (by simp), if_pos ⟨hne, hh⟩, Option.getD_some, hf, clear_loop_eq,
    Bits.set_congr (index_toNat_ofNat c)]
  simp only [hj]

theorem accept_behind (hc : c ≤ highest) (hlt : highest < c + 16384) :
    accept ⟨true, UInt16.ofNat highest, some b⟩ (UInt16.ofNat c) =
      if b.test c = true then (⟨true, UInt16.ofNat highest, some b⟩, false)
      else (⟨true, UInt16.ofNat highest, some (b.set c)⟩, true) := by
  have hb : ¬ (UInt16.ofNat c - UInt16.ofNat highest ≠ 0 ∧
      UInt16.ofNat c - UInt16.ofNat highest < 32768) := by
    rintro ⟨hne, hh⟩
    obtain heq | hl' := Nat.eq_or_lt_of_le hc
    · rw [heq] at hne
      simp at hne
    · have hf := toNat_ofNat_sub_of_lt hl' (by omega)
      rw [UInt16.lt_iff_toNat_lt] at hh
      simp at hh
      omega
  have hbehind : ¬ UInt16.ofNat highest - UInt16.ofNat c ≥ 16384 := by
    have hd := toNat_ofNat_sub hc (by omega : highest < c + 65536)
    rw [ge_iff_le, UInt16.le_iff_toNat_le]
    simp
    omega
  rw [accept]
  rw [if_neg (by simp), if_neg hb, Option.getD_some, Bits.set_congr (index_toNat_ofNat c),
    Bits.test_congr (index_toNat_ofNat c)]
  simp only [hbehind, false_or]

/-- The state after the packets `seen`, the latest of which come first. -/
inductive Follows (init : UInt16) : ReplayState → List ℕ → Prop
  | new : Follows init {} []
  | tracking {b : Bits 256} {m : ℕ} {seen : List ℕ} :
      seen.max? = some m → Tracks b (init.toNat + m) (seen.map (init.toNat + ·)) →
        Follows init ⟨true, wireSequence init m, some b⟩ seen

variable {seq init next : UInt16}

theorem accept_follows (s : ReplayState) (seen : List ℕ) (n : ℕ)
    (h : Follows init s seen) (hn : Within 16384 32768 seen n) :
    (s.accept (wireSequence init n)).2 = decide (n ∉ seen) ∧
      Follows init (s.accept (wireSequence init n)).1 (n :: seen) := by
  cases h with
  | new =>
    have ht := Tracks.single 256 (init.toNat + n)
    rw [wireSequence_eq, accept_first, ← wireSequence_eq]
    exact ⟨by simp, .tracking rfl ht⟩
  | @tracking b m seen hmax ht =>
    rw [Within, hmax] at hn
    have hle : ∀ k ∈ seen, k ≤ m := (List.max?_eq_some_iff.mp hmax).2
    have hmax' := max?_cons_of_some hmax n
    obtain hahead | hbehind := Nat.lt_or_ge m n
    · have hnew : n ∉ seen := fun hmem => absurd (hle n hmem) (by omega)
      rw [wireSequence_eq, wireSequence_eq, accept_ahead (by omega) (by omega),
        ← wireSequence_eq]
      refine ⟨by simp [hnew], ?_⟩
      rw [max_eq_left hahead.le] at hmax'
      refine .tracking hmax' ?_
      by_cases hjump : init.toNat + m + 16384 ≤ init.toNat + n
      · rw [if_pos hjump]
        exact ht.jump hjump
      · rw [if_neg hjump]
        exact ht.advance (by omega)
    · rw [wireSequence_eq, wireSequence_eq, accept_behind (by omega) (by omega),
        ← wireSequence_eq]
      rw [max_eq_right hbehind] at hmax'
      have hsize : size 256 = 16384 := rfl
      have htest : b.test (init.toNat + n) = true ↔ n ∈ seen := by
        rw [ht.bits _ (by omega) (by omega)]
        simp
      by_cases hseen : n ∈ seen
      · rw [if_pos (htest.mpr hseen)]
        exact ⟨by simp [hseen], .tracking hmax' (ht.known (List.mem_map_of_mem hseen))⟩
      · rw [if_neg (fun hb => hseen (htest.mp hb))]
        exact ⟨by simp [hseen], .tracking hmax' (ht.insert (by omega) (by omega))⟩

/-- The window answers every packet by whether it is the first with its number. -/
theorem accept_eq_fresh (init : UInt16) (packets : List ℕ)
    (h : Arrivals (Within 16384 32768) [] packets) :
    answers accept {} (packets.map (wireSequence init)) = fresh [] packets :=
  answers_eq_fresh accept_follows .new h

theorem accept_eq_fresh_across_wrap :
    Arrivals (Within 16384 32768) [] [3, 0, 10, 3, 16000, 32000, 16000] ∧
      answers accept {} ([3, 0, 10, 3, 16000, 32000, 16000].map (wireSequence 65530)) =
        [true, true, true, false, true, true, false] := by
  have h : Arrivals (Within 16384 32768) [] [3, 0, 10, 3, 16000, 32000, 16000] := by
    simp [Arrivals, Within]
  exact ⟨h, (accept_eq_fresh 65530 _ h).trans (by decide)⟩

/-- The window has taken the number and knows it as long as it is in the window. -/
structure Remembers (s : ReplayState) (seq : UInt16) : Prop where
  initialized : s.initialized = true
  bit : (s.highest - seq).toNat < 16384 → (s.bitmap.getD .empty).test seq.toNat = true

variable {s : ReplayState}

theorem remembers_of_accepted (h : (s.accept seq).2 = true) : (s.accept seq).1.Remembers seq := by
  have hs : ∀ b : Bits 256, (b.set seq.toNat).test seq.toNat = true := by
    intro b
    rw [Bits.test_set]
    simp
  unfold accept at h ⊢
  by_cases hin : (!s.initialized) = true
  · rw [if_pos hin]
    exact ⟨rfl, fun _ => hs _⟩
  rw [if_neg hin] at h ⊢
  by_cases hf : seq - s.highest ≠ 0 ∧ seq - s.highest < 32768
  · rw [if_pos hf]
    exact ⟨rfl, fun _ => hs _⟩
  rw [if_neg hf] at h ⊢
  by_cases hb : s.highest - seq ≥ 16384 ∨ (s.bitmap.getD .empty).test seq.toNat = true
  · rw [if_pos hb] at h
    cases h
  · rw [if_neg hb]
    exact ⟨by simpa using hin, fun _ => hs _⟩

/-- A remembered number is refused while the highest one is less than half the numbers beyond it. -/
theorem Remembers.refused (h : s.Remembers seq)
    (hn : (s.highest - seq).toNat < 32768) : (s.accept seq).2 = false := by
  have hb : ¬ (seq - s.highest ≠ 0 ∧ seq - s.highest < 32768) := by
    rintro ⟨hne, hh⟩
    rw [UInt16.lt_iff_toNat_lt] at hh
    have hp : (seq - s.highest).toNat ≠ 0 := fun hz => hne (UInt16.toNat_inj.mp hz)
    rw [UInt16.toNat_sub] at hn hh hp
    have hlt := seq.toNat_lt
    have hl' := s.highest.toNat_lt
    simp only [UInt16.reduceToNat] at hh
    omega
  have hk : s.highest - seq ≥ 16384 ∨ (s.bitmap.getD .empty).test seq.toNat = true := by
    by_cases hf : s.highest - seq ≥ 16384
    · exact .inl hf
    · refine .inr (h.bit ?_)
      rw [ge_iff_le, UInt16.le_iff_toNat_le] at hf
      simp only [UInt16.reduceToNat] at hf
      omega
  unfold accept
  rw [h.initialized, if_neg (by simp), if_neg hb, if_pos hk]

theorem exists_ofNat_add (a b : UInt16) :
    ∃ n, n = (b - a).toNat ∧ b = UInt16.ofNat (a.toNat + n) := by
  refine ⟨_, rfl, ?_⟩
  rw [UInt16.ofNat_add, UInt16.ofNat_toNat, UInt16.ofNat_toNat, UInt16.add_comm,
    UInt16.sub_add_cancel]

theorem Remembers.ahead (h : s.Remembers seq) (hne : (s.highest - seq).toNat < 32768)
    (hf : next - s.highest ≠ 0 ∧ next - s.highest < 32768) :
    (s.accept next).1.Remembers seq := by
  obtain ⟨d, hd, hh⟩ := exists_ofNat_add seq s.highest
  have hp : (next - s.highest).toNat ≠ 0 := fun hz => hf.1 (UInt16.toNat_inj.mp hz)
  have hhalf := UInt16.lt_iff_toNat_lt.mp hf.2
  simp only [UInt16.reduceToNat] at hhalf
  set a := (next - s.highest).toNat
  have hn : next = UInt16.ofNat (seq.toNat + d + a) := by
    rw [UInt16.ofNat_add, ← hh, UInt16.ofNat_toNat, UInt16.add_comm, UInt16.sub_add_cancel]
  have hs : s.accept next =
      ReplayState.accept ⟨true, UInt16.ofNat (seq.toNat + d), some (s.bitmap.getD .empty)⟩
        (UInt16.ofNat (seq.toNat + d + a)) := by
    rw [← hh, ← hn, ← h.initialized]
    rfl
  rw [hs, accept_ahead (by omega) (by omega)]
  refine ⟨rfl, fun hin => ?_⟩
  have hdist : (UInt16.ofNat (seq.toNat + d + a) - seq).toNat = d + a := by
    have hsub := toNat_ofNat_sub (c := seq.toNat) (d := seq.toNat + d + a) (by omega) (by omega)
    rw [UInt16.ofNat_toNat] at hsub
    omega
  rw [hdist] at hin
  have ho := h.bit (by omega)
  rw [if_neg (by omega), Option.getD_some, Bits.test_set, Bool.or_eq_true, Bits.test_clearAfter]
  refine .inr ⟨ho, fun i hi => index_ne_of_lt (by omega) ?_⟩
  have hsize : size 256 = 16384 := rfl
  omega

theorem Remembers.accept (h : s.Remembers seq)
    (hn : (s.highest - seq).toNat < 32768) (next : UInt16) :
    (s.accept next).1.Remembers seq := by
  by_cases hf : next - s.highest ≠ 0 ∧ next - s.highest < 32768
  · exact h.ahead hn hf
  · unfold ReplayState.accept
    dsimp only
    rw [h.initialized, if_neg (by simp)]
    split_ifs
    · exact ⟨rfl, h.bit⟩
    · refine ⟨rfl, fun hin => ?_⟩
      rw [Option.getD_some, Bits.test_set, h.bit hin, Bool.or_true]

end ReplayState
end Csqtt
