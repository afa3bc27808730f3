import Mathlib.Data.List.Basic

/-!
# Byte buffers

Slices of a list and writes into one, and reads that fail when they leave it. A program over such
reads has two ways to fail: it refuses its input, or it goes out of range. That the second never
happens is then a statement about its result.
-/

namespace Buffer

variable {α : Type*} {ε : Type}

def slice (xs : List α) (i j : ℕ) : List α := (xs.take j).drop i

/-- `xs` with `new` written over its elements from `i` on. -/
def overwrite (xs : List α) (i : ℕ) (new : List α) : List α :=
  xs.take i ++ new ++ xs.drop (i + new.length)

inductive Fault (ε : Type)
  | refused (e : ε)
  | outOfRange
  deriving DecidableEq

def readSlice (xs : List α) (i j : ℕ) : Except (Fault ε) (List α) :=
  if i ≤ j ∧ j ≤ xs.length then .ok (slice xs i j) else .error .outOfRange

def minus (a b : ℕ) : Except (Fault ε) ℕ := if b ≤ a then .ok (a - b) else .error .outOfRange

def readByte (xs : List UInt8) (i : ℕ) : Except (Fault ε) UInt8 :=
  if i < xs.length then .ok (xs.getD i 0) else .error .outOfRange

def writeAt (xs : List α) (i : ℕ) (new : List α) : Except (Fault ε) (List α) :=
  if i + new.length ≤ xs.length then .ok (overwrite xs i new) else .error .outOfRange

theorem ok_bind {β γ : Type} (x : β) (f : β → Except (Fault ε) γ) :
    ((Except.ok x : Except (Fault ε) β) >>= f) = f x := rfl

variable {i j k a b l : ℕ} {xs : List α}

theorem readSlice_of_le (hij : i ≤ j) (hj : j ≤ xs.length) :
    (readSlice xs i j : Except (Fault ε) (List α)) = .ok (slice xs i j) := if_pos ⟨hij, hj⟩

theorem minus_of_le (h : b ≤ a) : (minus a b : Except (Fault ε) ℕ) = .ok (a - b) :=
  if_pos h

theorem readByte_of_lt {xs : List UInt8} (h : i < xs.length) :
    (readByte xs i : Except (Fault ε) UInt8) = .ok (xs.getD i 0) := if_pos h

theorem length_slice (hj : j ≤ xs.length) : (slice xs i j).length = j - i := by
  rw [slice, List.length_drop, List.length_take, Nat.min_eq_left hj]

theorem length_overwrite {new : List α} (h : i + new.length ≤ xs.length) :
    (overwrite xs i new).length = xs.length := by
  rw [overwrite, List.length_append, List.length_append, List.length_take, List.length_drop]
  omega

theorem overwrite_next (a done rest new : List α) :
    overwrite (a ++ (done ++ rest)) (a.length + done.length) new =
      a ++ ((done ++ new) ++ rest.drop new.length) := by
  have ht : (a ++ (done ++ rest)).take (a.length + done.length) = a ++ done := by
    rw [← List.append_assoc, List.take_left' (by simp)]
  have hd : (a ++ (done ++ rest)).drop (a.length + done.length + new.length) =
      rest.drop new.length := by
    rw [← List.append_assoc, ← List.drop_drop, List.drop_left' (by simp)]
  rw [overwrite, ht, hd]
  simp only [List.append_assoc]

theorem writeAt_next {done rest : List α} (new : List α) (hs : xs = done ++ rest)
    (hi : i = done.length) (hf : new.length ≤ rest.length) :
    (writeAt xs i new : Except (Fault ε) (List α)) =
      .ok ((done ++ new) ++ rest.drop new.length) := by
  have hn := overwrite_next [] done rest new
  simp only [List.nil_append, List.length_nil, Nat.zero_add] at hn
  rw [writeAt, hs, hi, if_pos (by rw [List.length_append]; omega), hn]

theorem slice_middle (a b c : List α) :
    slice (a ++ (b ++ c)) a.length (a.length + b.length) = b := by
  rw [slice, ← List.append_assoc, List.take_left' (by simp), List.drop_left' rfl]

theorem slice_zero (xs : List α) (j : ℕ) : slice xs 0 j = xs.take j := rfl

theorem slice_congr {a b x y : List α} (h : a ++ x = b ++ y) (i : ℕ) (ha : j ≤ a.length)
    (hb : j ≤ b.length) : slice a i j = slice b i j := by
  have ht : (a ++ x).take j = a.take j := List.take_append_of_le_length ha
  rw [slice, slice, ← ht, h, List.take_append_of_le_length hb]

theorem slice_slice (xs : List α) (hl : k + l ≤ j) :
    slice (slice xs k j) i l = slice xs (k + i) (k + l) := by
  simp only [slice]
  rw [List.take_drop, List.drop_drop, List.take_take, Nat.min_eq_left (by omega)]

theorem slice_append_slice (xs : List α) (hij : i ≤ j) (hjk : j ≤ k) :
    slice xs i j ++ slice xs j k = slice xs i k := by
  obtain ⟨d, rfl⟩ := Nat.exists_eq_add_of_le hij
  have hl : slice xs i (i + d) = (slice xs i k).take d := by
    rw [slice, slice, List.take_drop, List.take_take, Nat.min_eq_left hjk]
  have hr : slice xs (i + d) k = (slice xs i k).drop d := by
    rw [slice, slice, List.drop_drop]
  rw [hl, hr, List.take_append_drop]

theorem getD_slice (xs : List UInt8) (hk : i + k < j) :
    (slice xs i j).getD k 0 = xs.getD (i + k) 0 := by
  rw [slice, List.getD_eq_getElem?_getD, List.getD_eq_getElem?_getD, List.getElem?_drop,
    List.getElem?_take_of_lt hk]

theorem slice_overwrite_self {new : List α} (h : i + new.length ≤ xs.length) :
    slice (overwrite xs i new) i (i + new.length) = new := by
  have hi : (xs.take i).length = i := by rw [List.length_take]; omega
  have hs := slice_middle (xs.take i) new (xs.drop (i + new.length))
  rw [hi] at hs
  rw [overwrite, List.append_assoc]
  exact hs

end Buffer
