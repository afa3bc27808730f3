import Csqtt.ServerAntiReplay

/-!
# The client's replay window

The client extends a 16-bit sequence number to the 64-bit one closest to the highest so far.
Extensions start at zero, so a packet of an earlier cycle than the first one received has no
number: it is taken for one of the end of the first cycle.
-/

namespace Csqtt

open BitWindow

def saturatingAdd (a b : ℕ) : ℕ := min (a + b) (2 ^ 64 - 1)

structure ReplayWindow where
  highest : Option ℕ := none
  seen : Bits 256 := .empty

variable {seen : List ℕ}

namespace ReplayWindow

def accept (w : ReplayWindow) (counter : ℕ) : ReplayWindow × Bool :=
  match w.highest with
  | none => (⟨some counter, w.seen.set counter⟩, true)
  | some highest =>
    if highest < counter then
      let shift := counter - highest
      let seen := if 16384 ≤ shift then .empty else w.seen.clearAfter highest shift
      (⟨some counter, seen.set counter⟩, true)
    else
      let age := highest - counter
      if 16384 ≤ age then (w, false)
      else if w.seen.test counter then (w, false)
      else ({ w with seen := w.seen.set counter }, true)

/-- The 64-bit number of a sequence number, near `highest`. -/
def extend (highest : ℕ) (sequence : UInt16) : ℕ :=
  let base := highest - highest % 2 ^ 16
  let extended := base + sequence.toNat
  if saturatingAdd extended (2 ^ 15) < highest then saturatingAdd extended (2 ^ 16)
  else if saturatingAdd highest (2 ^ 15) < extended ∧ 2 ^ 16 ≤ extended then extended - 2 ^ 16
  else extended

def acceptRtp (w : ReplayWindow) (sequence : UInt16) : ReplayWindow × Bool :=
  match w.highest with
  | none => w.accept sequence.toNat
  | some highest => w.accept (extend highest sequence)

/-- The state after the numbers `seen`, the latest of which come first. -/
inductive Follows : ReplayWindow → List ℕ → Prop
  | new : Follows {} []
  | tracking {b : Bits 256} {m : ℕ} {seen : List ℕ} :
      seen.max? = some m → Tracks b m seen → Follows ⟨some m, b⟩ seen

theorem Follows.highest_eq {w : ReplayWindow} (h : Follows w seen) : w.highest = seen.max? := by
  cases h with
  | new => rfl
  | tracking hm => exact hm.symm

theorem accept_follows {w : ReplayWindow} {c : ℕ} (h : Follows w seen)
    (hc : ∀ m, seen.max? = some m → m < c + 16384) :
    (w.accept c).2 = decide (c ∉ seen) ∧ Follows (w.accept c).1 (c :: seen) := by
  cases h with
  | new => exact ⟨rfl, .tracking rfl (Tracks.single 256 c)⟩
  | @tracking b m seen hmax ht =>
    have hsize : size 256 = 16384 := rfl
    have hm := hc m hmax
    have hle : ∀ k ∈ seen, k ≤ m := (List.max?_eq_some_iff.mp hmax).2
    have hmax' := max?_cons_of_some hmax c
    rw [accept]
    dsimp only
    by_cases hahead : m < c
    · have hnew : c ∉ seen := fun hmem => absurd (hle c hmem) (by omega)
      rw [if_pos hahead]
      rw [max_eq_left hahead.le] at hmax'
      refine ⟨by simp [hnew], .tracking hmax' ?_⟩
      by_cases hjump : 16384 ≤ c - m
      · rw [if_pos hjump]
        exact ht.jump (by omega)
      · rw [if_neg hjump]
        exact ht.advance hahead
    · rw [if_neg hahead, if_neg (by omega : ¬ 16384 ≤ m - c)]
      rw [max_eq_right (by omega)] at hmax'
      have htest := ht.bits c (by omega) (by omega)
      by_cases hseen : c ∈ seen
      · rw [if_pos (htest.mpr hseen)]
        exact ⟨by simp [hseen], .tracking hmax' (ht.known hseen)⟩
      · rw [if_neg (fun hb => hseen (htest.mp hb))]
        exact ⟨by simp [hseen], .tracking hmax' (ht.insert (by omega) (by omega))⟩

end ReplayWindow

/-- The number of times the sequence has wrapped before packet `n`. -/
def cycle (init : UInt16) (n : ℕ) : ℕ := (init.toNat + n) / 65536

/-- The 64-bit number of packet `n` if `first` was received first. -/
def extendedNumber (init : UInt16) (first n : ℕ) : ℕ :=
  init.toNat + n - 65536 * cycle init first

/-- The packet is not of an earlier cycle than the first one received, and its number is one of
64 bits. -/
def Numbered (init : UInt16) (seen : List ℕ) (n : ℕ) : Prop :=
  match seen.getLast? with
  | none => True
  | some first => cycle init first ≤ cycle init n ∧ extendedNumber init first n < 2 ^ 64

variable {init : UInt16} {first : ℕ}

theorem extendedNumber_add {k : ℕ} (h : cycle init first ≤ cycle init k) :
    extendedNumber init first k + 65536 * cycle init first = init.toNat + k := by
  unfold extendedNumber cycle at *
  omega

theorem extendedNumber_self (init : UInt16) (n : ℕ) :
    extendedNumber init n n = (wireSequence init n).toNat := by
  rw [extendedNumber, cycle, toNat_wireSequence]
  omega

namespace ReplayWindow

theorem extend_eq {highest number : ℕ} {sequence : UInt16} (hh : highest ≤ 2 ^ 64 - 1)
    (hn : number ≤ 2 ^ 64 - 1) (hs : sequence.toNat = number % 65536)
    (hb : highest < number + 16384) (ha : number < highest + 32768) :
    extend highest sequence = number := by
  unfold extend saturatingAdd
  generalize 2 ^ 64 - 1 = top at *
  dsimp only
  split_ifs <;> omega

/-- The state after the packets `seen`, with the number each of them has. -/
inductive Receives (init : UInt16) : ReplayWindow → List ℕ → Prop
  | new : Receives init {} []
  | tracking {w : ReplayWindow} {seen : List ℕ} (first : ℕ) :
      seen.getLast? = some first →
      (∀ k ∈ seen, cycle init first ≤ cycle init k ∧ extendedNumber init first k < 2 ^ 64) →
        Follows w (seen.map (extendedNumber init first)) → Receives init w seen

theorem acceptRtp_new (init : UInt16) (n : ℕ) : (acceptRtp {} (wireSequence init n)).2 = true ∧
      Receives init (acceptRtp {} (wireSequence init n)).1 [n] := by
  have hf := accept_follows (c := (wireSequence init n).toNat) .new (by simp)
  have hn := extendedNumber_self init n
  have hlt := (wireSequence init n).toNat_lt
  refine ⟨hf.1, .tracking n rfl (fun k hk => ?_) ?_⟩
  · rw [List.mem_singleton.mp hk]
    exact ⟨le_rfl, by omega⟩
  · rw [List.map_singleton, hn]
    exact hf.2

theorem exists_max?_of_getLast? (h : seen.getLast? = some first) : ∃ m, seen.max? = some m := by
  cases seen with
  | nil => cases h
  | cons => exact ⟨_, rfl⟩

theorem max?_map_extendedNumber {m : ℕ} (hmax : seen.max? = some m)
    (hs : ∀ k ∈ seen, cycle init first ≤ cycle init k) :
    (seen.map (extendedNumber init first)).max? = some (extendedNumber init first m) := by
  obtain ⟨hm, hle⟩ := List.max?_eq_some_iff.mp hmax
  refine List.max?_eq_some_iff.mpr ⟨List.mem_map_of_mem hm, fun number hn => ?_⟩
  obtain ⟨k, hk, rfl⟩ := List.mem_map.mp hn
  have hkm := hle k hk
  have hsk := extendedNumber_add (hs k hk)
  have hsm := extendedNumber_add (hs m hm)
  omega

theorem acceptRtp_receives (w : ReplayWindow) (seen : List ℕ) (n : ℕ) (h : Receives init w seen)
    (hn : Within 16384 32768 seen n ∧ Numbered init seen n) :
    (w.acceptRtp (wireSequence init n)).2 = decide (n ∉ seen) ∧
      Receives init (w.acceptRtp (wireSequence init n)).1 (n :: seen) := by
  cases h with
  | new =>
    have hfirst := acceptRtp_new init n
    exact ⟨hfirst.1.trans (by simp), hfirst.2⟩
  | @tracking _ _ first hfirst hseen hfollow =>
    obtain ⟨m, hmax⟩ := exists_max?_of_getLast? hfirst
    obtain ⟨hmem, hle⟩ := List.max?_eq_some_iff.mp hmax
    rw [Within, hmax] at hn
    rw [Numbered, hfirst] at hn
    obtain ⟨⟨hbehind, hahead⟩, hcycle, hlt⟩ := hn
    have hn := extendedNumber_add hcycle
    have hm := extendedNumber_add (hseen m hmem).1
    have hnumber := max?_map_extendedNumber hmax fun k hk => (hseen k hk).1
    have hext : extend (extendedNumber init first m) (wireSequence init n) =
        extendedNumber init first n := by
      apply extend_eq (Nat.le_sub_one_of_lt (hseen m hmem).2) (Nat.le_sub_one_of_lt hlt)
      · rw [toNat_wireSequence]
        omega
      · omega
      · omega
    have hstep := accept_follows (c := extendedNumber init first n) hfollow fun number h => by
      rw [hnumber] at h
      rw [← Option.some.inj h]
      omega
    have hknow : extendedNumber init first n ∈ seen.map (extendedNumber init first) ↔
        n ∈ seen := by
      refine ⟨fun h => ?_, fun h => List.mem_map_of_mem h⟩
      obtain ⟨k, hk, heq⟩ := List.mem_map.mp h
      have hsk := extendedNumber_add (hseen k hk).1
      have hkn : k = n := by omega
      rw [← hkn]
      exact hk
    rw [acceptRtp, hfollow.highest_eq, hnumber]
    dsimp only
    rw [hext]
    refine ⟨hstep.1.trans (decide_eq_decide.mpr (not_congr hknow)), .tracking first ?_ ?_ hstep.2⟩
    · rw [List.getLast?_cons, hfirst]
      rfl
    · intro k hk
      obtain rfl | hk := List.mem_cons.mp hk
      · exact ⟨hcycle, hlt⟩
      · exact hseen k hk

/-- The window answers every packet by whether it is the first with its number, if all packets are
of the cycle of the first one or of later ones. -/
theorem acceptRtp_eq_fresh (init : UInt16) (packets : List ℕ)
    (h : Arrivals (Within 16384 32768) [] packets) (hn : Arrivals (Numbered init) [] packets) :
    answers acceptRtp {} (packets.map (wireSequence init)) = fresh [] packets :=
  answers_eq_fresh acceptRtp_receives .new (arrivals_and h hn)

theorem acceptRtp_eq_fresh_across_wrap :
    Arrivals (Within 16384 32768) [] [3, 0, 10, 3, 32000, 16000, 64000, 64000] ∧
      Arrivals (Numbered 65530) [] [3, 0, 10, 3, 32000, 16000, 64000, 64000] ∧
      answers acceptRtp {} ([3, 0, 10, 3, 32000, 16000, 64000, 64000].map (wireSequence 65530)) =
        [true, true, true, false, true, true, true, false] := by
  have h : Arrivals (Within 16384 32768) [] [3, 0, 10, 3, 32000, 16000, 64000, 64000] := by
    simp [Arrivals, Within]
  have hn : Arrivals (Numbered 65530) [] [3, 0, 10, 3, 32000, 16000, 64000, 64000] := by
    simp [Arrivals, Numbered, cycle, extendedNumber]
  exact ⟨h, hn, (acceptRtp_eq_fresh 65530 _ h hn).trans (by decide)⟩

theorem acceptRtp_replays_before_first_wrap : Arrivals (Within 16384 32768) [] [10, 0, 10] ∧
      answers acceptRtp {} ([10, 0, 10].map (wireSequence 65531)) = [true, true, true] ∧
      answers acceptRtp {} ([10, 0, 10].map (wireSequence 65531)) ≠ fresh [] [10, 0, 10] := by
  refine ⟨by simp [Arrivals, Within], by decide +kernel, by decide +kernel⟩

end ReplayWindow
end Csqtt
