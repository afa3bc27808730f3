import Mathlib.Data.List.Basic
import Mathlib.Tactic.Ring

/-!
# Big-endian integers

`encode w v` is the `w`-byte big-endian encoding of `v`, reduced to the width, and `value` reads
a byte string back. Decoding an encoding gives the number modulo `256 ^ w`.
-/

namespace BigEndian

def encode : ℕ → ℕ → List UInt8
  | 0, _ => []
  | w + 1, v => UInt8.ofNat (v / 256 ^ w) :: encode w v

def value : List UInt8 → ℕ
  | [] => 0
  | b :: bs => b.toNat * 256 ^ bs.length + value bs

variable (w : ℕ)

@[simp] theorem length_encode (v : ℕ) : (encode w v).length = w := by
  induction w with
  | zero => rfl
  | succ _ ih => simp [encode, ih]

theorem value_encode (v : ℕ) : value (encode w v) = v % 256 ^ w := by
  induction w with
  | zero => simp [encode, value, Nat.mod_one]
  | succ w ih =>
    have hb : (UInt8.ofNat (v / 256 ^ w)).toNat = v / 256 ^ w % 256 := by simp
    rw [encode, value, ih, hb, length_encode, Nat.pow_succ, Nat.mod_mul]
    ring

theorem value_lt (bs : List UInt8) : value bs < 256 ^ bs.length := by
  induction bs with
  | nil => decide
  | cons b bs =>
    have hb : b.toNat * 256 ^ bs.length ≤ 255 * 256 ^ bs.length :=
      Nat.mul_le_mul_right _ (Nat.le_of_lt_succ b.toNat_lt)
    rw [value, List.length_cons]
    omega

theorem value_encode_of_lt {w v : ℕ} (hv : v < 256 ^ w) : value (encode w v) = v := by
  rw [value_encode, Nat.mod_eq_of_lt hv]

theorem encode_add_mul (a v : ℕ) : encode w (a * 256 ^ w + v) = encode w v := by
  induction w generalizing a with
  | zero => rfl
  | succ w ih =>
    have hp : a * 256 ^ (w + 1) = a * 256 * 256 ^ w := by ring
    have hd : (a * 256 * 256 ^ w + v) / 256 ^ w = a * 256 + v / 256 ^ w := by
      rw [Nat.add_comm, Nat.add_mul_div_right _ _ (Nat.pow_pos (by decide)), Nat.add_comm]
    rw [encode, encode, hp, ih (a * 256), hd]
    simp

theorem encode_value (bs : List UInt8) : encode bs.length (value bs) = bs := by
  induction bs with
  | nil => rfl
  | cons b bs ih =>
    have hd : (b.toNat * 256 ^ bs.length + value bs) / 256 ^ bs.length = b.toNat := by
      rw [Nat.add_comm, Nat.add_mul_div_right _ _ (Nat.pow_pos (by decide)),
        Nat.div_eq_of_lt (value_lt bs), Nat.zero_add]
    rw [List.length_cons, encode, value, encode_add_mul, ih, hd, UInt8.ofNat_toNat]

end BigEndian
