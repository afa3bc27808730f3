import Mathlib.Data.List.Chain
import Mathlib.Tactic.Ring

/-!
# The duplication budget of selective FEC

A token bucket decides whether a small packet is sent twice. Instants are
nanoseconds, and the refill count is a 32-bit number that saturates, so a pause
near `2 ^ 32` refill intervals leaves the refill time behind the clock.
-/

namespace Csqtt

def duplicateBurst : Nat := 10

/-- `REFILL_INTERVAL` in nanoseconds: one token in twenty milliseconds. -/
def refillInterval : Nat := 20000000

structure Budget where
  tokens : Nat
  updated : Nat
  deriving DecidableEq, Repr

namespace Budget

def new (now : Nat) : Budget := ⟨duplicateBurst, now⟩

/-- The part of `allow` that books the intervals since the last refill. -/
def refill (b : Budget) (now : Nat) : Budget :=
  let count := (now - b.updated) / refillInterval
  if count ≠ 0 then
    let booked := min count (2 ^ 32 - 1)
    ⟨min (min (b.tokens + booked) (2 ^ 32 - 1)) duplicateBurst,
      b.updated + refillInterval * booked⟩
  else b

def allow (b : Budget) (now : Nat) : Bool × Budget :=
  let b := b.refill now
  if b.tokens = 0 then (false, b) else (true, { b with tokens := b.tokens - 1 })

/-- The answers of a series of calls, each with its time. -/
def allowAll (b : Budget) : List Nat → List (Nat × Bool)
  | [] => []
  | t :: times => (t, (b.allow t).1) :: (b.allow t).2.allowAll times

/-- The refill time lies at most one interval behind the clock. -/
structure Settled (b : Budget) (now : Nat) : Prop where
  tokens : b.tokens ≤ duplicateBurst
  updated : b.updated ≤ now
  recent : now < b.updated + refillInterval

theorem settled_new (now : Nat) : (new now).Settled now :=
  ⟨le_rfl, le_rfl, Nat.lt_add_of_pos_right (by decide)⟩

variable {b : Budget}

theorem refill_tokens_le (hb : b.tokens ≤ duplicateBurst) (now : Nat) :
    (b.refill now).tokens ≤ duplicateBurst := by
  unfold refill
  dsimp only
  split_ifs
  · exact min_le_right _ _
  · exact hb

variable {now : Nat}

/-- Tokens are paid for by the refill time: it moves one interval for each. -/
theorem refill_balance (h : b.updated ≤ now) :
    refillInterval * (b.refill now).tokens + b.updated ≤
        refillInterval * b.tokens + (b.refill now).updated ∧ (b.refill now).updated ≤ now := by
  have hd := Nat.mul_div_le (now - b.updated) refillInterval
  unfold refill
  dsimp only
  split_ifs
  · generalize (now - b.updated) / refillInterval = count at *
    simp only [refillInterval, duplicateBurst] at *
    omega
  · exact ⟨le_rfl, h⟩

/-- Between calls less than `2 ^ 32 - 1` intervals apart the count does not
saturate, so every whole interval is booked. -/
theorem refill_settled {t : Nat} (hb : b.Settled now) (hle : now ≤ t)
    (hg : t < now + (2 ^ 32 - 1) * refillInterval) : (b.refill t).Settled t := by
  have hr := hb.recent
  have hd := Nat.div_add_mod (t - b.updated) refillInterval
  refine ⟨refill_tokens_le hb.tokens t, (refill_balance (hb.updated.trans hle)).2, ?_⟩
  unfold refill
  generalize (t - b.updated) / refillInterval = count at *
  simp only [refillInterval] at *
  split_ifs
  · dsimp only
    omega
  · omega

theorem allow_updated (b : Budget) (now : Nat) :
    (b.allow now).2.updated = (b.refill now).updated := by
  unfold allow
  dsimp only
  split_ifs <;> rfl

/-- A granted call pays one token. -/
theorem allow_tokens (b : Budget) (now : Nat) :
    (b.allow now).2.tokens + (b.allow now).1.toNat = (b.refill now).tokens := by
  unfold allow
  dsimp only
  split_ifs with h
  · rfl
  · exact Nat.succ_pred_eq_of_ne_zero h

theorem allow_settled {t : Nat} (hb : b.Settled now) (hle : now ≤ t)
    (hg : t < now + (2 ^ 32 - 1) * refillInterval) : (b.allow t).2.Settled t := by
  obtain ⟨ht, hu, hr⟩ := refill_settled hb hle hg
  have hp := allow_tokens b t
  have hk := allow_updated b t
  exact ⟨by omega, by omega, by omega⟩

end Budget

/-- How many of the answers given from `start` to `finish` grant the call. -/
def grantedWithin (start finish : Nat) (log : List (Nat × Bool)) : Nat :=
  log.countP fun call => start ≤ call.1 && call.1 ≤ finish && call.2

/-- Successive calls come in order and less than `2 ^ 32 - 1` intervals apart. -/
def Paced (times : List Nat) : Prop :=
  times.IsChain fun s t => s ≤ t ∧ t < s + (2 ^ 32 - 1) * refillInterval

namespace Budget

variable {finish : Nat}

theorem grantedWithin_after {b : Budget} (start : Nat) {now : Nat} {times : List Nat}
    (hp : Paced (now :: times)) (hl : finish < now) :
    grantedWithin start finish (b.allowAll times) = 0 := by
  induction times generalizing b now with
  | nil => rfl
  | cons t times ih =>
      obtain ⟨⟨hle, -⟩, hr⟩ := List.isChain_cons_cons.mp hp
      have hz := ih (b := (b.allow t).2) hr (by omega)
      have ho : ¬ t ≤ finish := by omega
      simpa [allowAll, grantedWithin, ho] using hz

theorem grantedWithin_cons (b : Budget) {start t : Nat} (times : List Nat) (hs : start ≤ t)
    (hf : t ≤ finish) :
    grantedWithin start finish (b.allowAll (t :: times)) =
      grantedWithin start finish ((b.allow t).2.allowAll times) + (b.allow t).1.toNat := by
  rw [allowAll]
  cases (b.allow t).1 <;> simp [grantedWithin, hs, hf]

/-- The calls of a run up to `finish` are paid by the tokens at its start and by
the intervals the refill time moves. -/
theorem grantedWithin_balance {b : Budget} {start now : Nat} {times : List Nat}
    (hp : Paced (now :: times)) (hb : b.updated ≤ now) (hn : now ≤ finish) (hs : start ≤ now) :
    refillInterval * grantedWithin start finish (b.allowAll times) + b.updated ≤
      refillInterval * b.tokens + finish := by
  induction times generalizing b now with
  | nil =>
      simp only [allowAll, grantedWithin, List.countP_nil]
      omega
  | cons t times ih =>
      obtain ⟨⟨hle, -⟩, hr⟩ := List.isChain_cons_cons.mp hp
      by_cases ht : t ≤ finish
      · obtain ⟨hbalance, hu⟩ := refill_balance (hb.trans hle)
        have hk := allow_updated b t
        have hpaid := allow_tokens b t
        have htail := ih hr (by omega) ht (by omega) (b := (b.allow t).2)
        rw [grantedWithin_cons b times (by omega) ht, Nat.mul_add]
        rw [← hpaid, Nat.mul_add] at hbalance
        omega
      · have hz : grantedWithin start finish (b.allowAll (t :: times)) = 0 := by
          have hl := grantedWithin_after (b := (b.allow t).2) start hr
            (Nat.lt_of_not_le ht)
          simpa [allowAll, grantedWithin, ht] using hl
        rw [hz]
        omega

end Budget

theorem grantedWithin_settled {b : Budget} {start d now : Nat} {times : List Nat}
    (hpace : Paced (now :: times)) (hb : b.Settled now) :
    grantedWithin start (start + d) (b.allowAll times) ≤
      duplicateBurst + d / refillInterval + 1 := by
  induction times generalizing b now with
  | nil => exact Nat.zero_le _
  | cons t times ih =>
      obtain ⟨⟨hle, hgap⟩, hrest⟩ := List.isChain_cons_cons.mp hpace
      have hnext := Budget.allow_settled hb hle hgap
      by_cases hstart : start ≤ t
      · by_cases hfinish : t ≤ start + d
        · -- the first call of the window finds at most a full bucket
          obtain ⟨htoken, -, hrecent⟩ := Budget.refill_settled hb hle hgap
          have hpaid := Budget.allow_tokens b t
          have hkept := Budget.allow_updated b t
          have htail := Budget.grantedWithin_balance hrest hnext.updated hfinish hstart
          rw [Budget.grantedWithin_cons b times hstart hfinish]
          simp only [refillInterval, duplicateBurst] at *
          omega
        · have hlate := Budget.grantedWithin_after (b := (b.allow t).2) start hrest
            (Nat.lt_of_not_le hfinish)
          have hzero : grantedWithin start (start + d) (b.allowAll (t :: times)) = 0 := by
            simpa [Budget.allowAll, grantedWithin, hfinish] using hlate
          rw [hzero]
          exact Nat.zero_le _
      · have hskip : ¬ start ≤ t := hstart
        have htail := ih hrest hnext
        simpa [Budget.allowAll, grantedWithin, hskip] using htail

/-- In every window of length `d` the budget grants at most a burst, a token per
whole interval and one token for the fraction carried into the window. -/
theorem granted_in_window_le (created start d : Nat) (times : List Nat)
    (hpaced : Paced (created :: times)) :
    grantedWithin start (start + d) ((Budget.new created).allowAll times) ≤
      duplicateBurst + d / refillInterval + 1 :=
  grantedWithin_settled hpaced (Budget.settled_new created)

theorem granted_in_window_le_burst : Paced (0 :: List.replicate 12 5) ∧
      grantedWithin 5 (5 + 0) ((Budget.new 0).allowAll (List.replicate 12 5)) ≤
        duplicateBurst + 0 / refillInterval + 1 :=
  have hp : Paced (0 :: List.replicate 12 5) := by
    unfold Paced refillInterval
    decide
  ⟨hp, granted_in_window_le 0 5 0 _ hp⟩

/-- Two calls almost `2 ^ 32` intervals apart: the saturated count leaves the
refill time nearly two intervals behind, and twelve calls are granted within two
nanoseconds. -/
theorem granted_in_window_of_saturated :
    let pause := 2 ^ 32 * refillInterval - 1
    let resumed := refillInterval - 1 + pause
    let times := (refillInterval - 1) :: List.replicate 11 resumed ++ [resumed + 2]
    (0 :: times).IsChain (fun s t => s ≤ t ∧ t < s + 2 ^ 32 * refillInterval) ∧
      duplicateBurst + 2 / refillInterval + 1 <
        grantedWithin resumed (resumed + 2) ((Budget.new 0).allowAll times) := by
  decide +kernel

end Csqtt
