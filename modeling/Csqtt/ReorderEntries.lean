import Csqtt.ReorderDelivery

/-!
# How many chunks the reorder receiver parks

The window counts the bytes that are parked, not the chunks, so chunks of no bytes fill the map
without end. If every chunk that is parked has a byte, the window bounds both.
-/

namespace Csqtt
namespace ReorderReceiver

open Reassembly

/-- The payload holds no empty chunk that `push` would park. -/
def Substantial (r : ReorderReceiver) (payload : Bytes) : Prop :=
  payload.length = 8 →
    BigEndian.value (payload.take 8) ≤ r.expected ∨ BigEndian.value (payload.take 8) ∈ r.pending

instance (r : ReorderReceiver) (payload : Bytes) : Decidable (r.Substantial payload) :=
  inferInstanceAs (Decidable (_ → _))

/-- Every parked chunk has a byte, and the window holds them all. A window that has overflowed
counts bytes that were not parked. -/
structure Windowed (r : ReorderReceiver) : Prop where
  nonempty : ∀ k c, r.pending.lookup k = some c → c ≠ []
  counted : size r.pending ≤ r.bufferedBytes
  bounded : size r.pending ≤ maxBuffered

variable {r : ReorderReceiver}

theorem Windowed.length_le (h : r.Windowed) : r.pending.entries.length ≤ maxBuffered :=
  (length_entries_le_size h.nonempty).trans h.bounded

theorem windowed_new : Windowed .new := by
  refine ⟨fun k c h => ?_, Nat.le_refl _, Nat.zero_le _⟩
  cases h

theorem Windowed.flush (h : r.Windowed) (fuel : ℕ) (output : Bytes) :
    (flush fuel r output).1.Windowed := by
  induction fuel generalizing r output with
  | zero => exact h
  | succ _ ih =>
    cases hl : r.pending.lookup r.expected with
    | none => simpa only [ReorderReceiver.flush, hl] using h
    | some next =>
      have hs := size_erase hl
      have hcounted := h.counted
      have hb := h.bounded
      simp only [ReorderReceiver.flush, hl]
      apply ih
      refine ⟨fun k c hc => h.nonempty k c (lookup_erase_eq_some.mp hc).2, ?_, ?_⟩
      · change size (r.pending.erase r.expected) ≤ r.bufferedBytes - next.length
        omega
      · change size (r.pending.erase r.expected) ≤ maxBuffered
        omega

theorem Windowed.pushChunk (h : r.Windowed) {o : ℕ} {c : Bytes}
    (hc : c = [] → o ≤ r.expected ∨ o ∈ r.pending) : (r.pushChunk o c).1.Windowed := by
  obtain ⟨_, he⟩ | ⟨_, flushed, hf, he⟩ | ⟨_, _, he⟩ | ⟨_, _, _, he⟩ | ⟨ha, hm, hle, he⟩ :=
    r.pushChunk_cases o c <;> rw [he]
  · exact h
  · have h' : Windowed { r with expected := (r.expected + c.length) % 2 ^ 64 } :=
      ⟨h.nonempty, h.counted, h.bounded⟩
    rw [hf]
    exact h'.flush _ _
  · exact h
  · exact ⟨h.nonempty, h.counted.trans (Nat.le_add_right _ _), h.bounded⟩
  · have hs := size_insert hm c
    have hcounted := h.counted
    refine ⟨fun k d hd => ?_, ?_, ?_⟩
    · obtain ⟨_, rfl⟩ | ⟨_, hd⟩ := lookup_insert_eq_some.mp hd
      · intro hempty
        obtain hb | hp := hc hempty
        · omega
        · exact hm hp
      · exact h.nonempty k d hd
    · change size (r.pending.insert o c) ≤ r.bufferedBytes + c.length
      omega
    · change size (r.pending.insert o c) ≤ maxBuffered
      omega

theorem Windowed.pushed (h : r.Windowed) {payload : Bytes}
    (hp : r.Substantial payload) : (r.pushed payload).Windowed := by
  rw [ReorderReceiver.pushed, push]
  split_ifs with hl
  · exact h
  · apply h.pushChunk
    intro he
    apply hp
    have hd := List.length_drop (i := 8) (l := payload)
    rw [he, List.length_nil] at hd
    omega

/-- As long as no empty chunk is parked, the receiver never has more than 131072 entries, whatever
is pushed and whether or not a push has failed. -/
theorem parked_entries_bounded (payloads : List Bytes)
    (h : Runs.Along pushed Substantial .new payloads) :
    Runs.Always ReorderReceiver.pushed (fun r => r.pending.entries.length ≤ 131072) .new
      payloads := by
  have hrun : Runs.Always ReorderReceiver.pushed Windowed .new payloads :=
    Runs.always_invariant (fun _ _ hr => hr.pushed) windowed_new h
  exact Runs.always_mono (fun r hr => hr.length_le) hrun

/-- An empty chunk at the cursor, chunks ahead of it, and one of them twice. -/
theorem parked_entries_bounded_ahead :
    Runs.Always ReorderReceiver.pushed (fun r => r.pending.entries.length ≤ 131072) .new
      [StreamSequence.encodeAt 0 [], StreamSequence.encodeAt 5 [1, 2],
        StreamSequence.encodeAt 9 [3], StreamSequence.encodeAt 5 []] :=
  parked_entries_bounded _ (by decide +kernel)

/-- Empty chunks at the offsets 1 to `n`. -/
def emptyChunks (n : ℕ) : List Bytes :=
  (List.range n).map fun i => StreamSequence.encodeAt (i + 1) []

theorem emptyChunks_succ (n : ℕ) :
    emptyChunks (n + 1) = emptyChunks n ++ [StreamSequence.encodeAt (n + 1) []] := by
  rw [emptyChunks, List.range_succ, List.map_append]
  rfl

/-- What a receiver has parked after the empty chunks up to `n`. -/
structure Crowded (n : ℕ) (r : ReorderReceiver) : Prop where
  expected : r.expected = 0
  buffered : r.bufferedBytes = 0
  length : r.pending.entries.length = n
  below : ∀ k ∈ r.pending, k ≤ n

theorem Crowded.push {n : ℕ} (h : r.Crowded n) (hn : n + 1 < 2 ^ 64) :
    (r.pushed (StreamSequence.encodeAt (n + 1) [])).Crowded (n + 1) := by
  have hf : n + 1 ∉ r.pending := by
    intro hm
    have hle := h.below _ hm
    omega
  have hp : r.pushed (StreamSequence.encodeAt (n + 1) []) =
      { r with pending := r.pending.insert (n + 1) [] } := by
    rw [ReorderReceiver.pushed, push_encodeAt r hn, ReorderReceiver.pushChunk, h.expected,
      h.buffered, if_neg hf]
    rfl
  rw [hp]
  refine ⟨h.expected, h.buffered, ?_, fun k hk => ?_⟩
  · rw [AList.entries_insert_of_notMem hf, List.length_cons, h.length]
  · obtain rfl | hk := (AList.mem_insert _).mp hk
    · exact Nat.le_refl _
    · exact (h.below k hk).trans (Nat.le_succ n)

theorem crowded_emptyChunks (n : ℕ) (hn : n < 2 ^ 64) :
    ((emptyChunks n).foldl ReorderReceiver.pushed .new).Crowded n := by
  induction n with
  | zero => exact ⟨rfl, rfl, rfl, fun k hk => absurd hk (AList.notMem_empty k)⟩
  | succ _ ih =>
    rw [emptyChunks_succ, List.foldl_append, List.foldl_cons, List.foldl_nil]
    exact (ih (by omega)).push hn

/-- Payloads of eight bytes park one entry more than the window has bytes, and no push fails. -/
theorem parked_entries_unbounded :
    ((emptyChunks 131073).foldl ReorderReceiver.pushed .new).pending.entries.length = 131073 ∧
      ((emptyChunks 131073).foldl ReorderReceiver.pushed .new).bufferedBytes = 0 :=
  have h := crowded_emptyChunks 131073 (by decide)
  ⟨h.length, h.buffered⟩

end ReorderReceiver
end Csqtt
