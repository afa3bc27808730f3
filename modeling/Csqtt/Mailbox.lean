import Mathlib.Data.List.Basic

/-!
# Bounded mailboxes

A queue with one receiver and a sender that never waits. `offer` gives the sender up if there is no
room; `finish` sends a last item, if there is room, and gives the sender up. The receiver learns
that the sender is gone when nothing is left.
-/

structure Mailbox (α : Type*) where
  items : List α := []
  linked : Bool := true

namespace Mailbox

variable {α : Type*} {capacity : ℕ} {m m' : Mailbox α} {a b : α} {r : Option α}

def offer (capacity : ℕ) (m : Mailbox α) (a : α) : Mailbox α :=
  if !m.linked then m
  else if m.items.length < capacity then { m with items := m.items ++ [a] }
  else { m with linked := false }

def finish (capacity : ℕ) (m : Mailbox α) (a : α) : Mailbox α :=
  { m.offer capacity a with linked := false }

def recv (m : Mailbox α) : Option (Option α × Mailbox α) :=
  match m.items with
  | a :: rest => some (some a, { m with items := rest })
  | [] => if m.linked then none else some (none, m)

theorem offer_of_room (hl : m.linked = true) (hr : m.items.length < capacity) :
    m.offer capacity a = { m with items := m.items ++ [a] } := by
  rw [offer, if_neg (by simp [hl]), if_pos hr]

theorem mem_offer (h : b ∈ (m.offer capacity a).items) : b ∈ m.items ∨ b = a := by
  unfold offer at h
  split_ifs at h
  · exact .inl h
  · rw [List.mem_append, List.mem_singleton] at h
    exact h
  · exact .inl h

theorem recv_cases (h : m.recv = some (r, m')) :
    (∃ a, r = some a ∧ m.items = a :: m'.items ∧ m'.linked = m.linked) ∨
      (r = none ∧ m' = m ∧ m.items = [] ∧ m.linked = false) := by
  unfold recv at h
  split at h
  · rename_i a rest hit
    obtain ⟨rfl, rfl⟩ := Prod.mk.inj (Option.some.inj h)
    exact .inl ⟨a, rfl, hit, rfl⟩
  · rename_i hit
    split_ifs at h with hl
    obtain ⟨rfl, rfl⟩ := Prod.mk.inj (Option.some.inj h)
    exact .inr ⟨rfl, rfl, hit, by simpa using hl⟩

theorem mem_of_recv (h : m.recv = some (r, m')) :
    (∀ a, r = some a → a ∈ m.items) ∧ ∀ b ∈ m'.items, b ∈ m.items := by
  obtain ⟨a, hr, hit, _⟩ | ⟨hr, hs, _⟩ := recv_cases h
  · rw [hr, hit]
    refine ⟨fun b hb => ?_, fun b hb => List.mem_cons_of_mem _ hb⟩
    rw [Option.some.inj hb]
    exact List.mem_cons_self ..
  · rw [hr, hs]
    refine ⟨fun b hb => ?_, fun b hb => hb⟩
    cases hb

end Mailbox
