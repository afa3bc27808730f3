import Csqtt.ReorderDelivery

/-!
# When the reorder receiver reports a hole

`isWaiting` is meant to say that a byte is missing in front of a byte that has arrived. That holds
as long as no accepted chunk runs past the start of a parked one. A replay is cut at other
boundaries, so it can do just that; the receiver then waits for a hole that does not exist.
-/

namespace Csqtt

open Reassembly

variable {S : ByteStream}

namespace ReorderReceiver

def pushCut (r : ReorderReceiver) (c : Cut S) : ReorderReceiver := r.pushed c.payload

/-- Every parked chunk starts after `expected`, and the receiver waits, and names the missing
offset, exactly when a byte it has lies beyond a byte it does not have. -/
def WaitsForHole (r : ReorderReceiver) : Prop :=
  (∀ k ∈ r.pending, r.expected < k) ∧ (r.isWaiting = true ↔ HasHole r.buffer) ∧
    (r.missingOffset.isSome ↔ HasHole r.buffer)

theorem missingOffset_isSome (r : ReorderReceiver) :
    r.missingOffset.isSome ↔ r.isWaiting = true := by
  unfold missingOffset
  split_ifs with h <;> simp [h]

variable {r : ReorderReceiver}

theorem waitsForHole_iff_ahead (hs : Solid r.buffer) : r.WaitsForHole ↔ Ahead r.buffer := by
  constructor
  · exact And.left
  · intro ha
    have hw : r.isWaiting = true ↔ HasHole r.buffer :=
      r.isWaiting_iff.trans (waiting_iff_hasHole ha hs)
    exact ⟨ha, hw, r.missingOffset_isSome.trans hw⟩

variable {c : Cut S}

theorem pushCut_buffer (hr : Sound S.bytes r.buffer) (hok : (r.push c.payload).2.isOk) :
    (r.pushCut c).buffer = (accept r.buffer c.offset c.chunk).1 := by
  rw [pushCut, pushed_eq]
  rcases push_refines hr c with ⟨he, _⟩ | ⟨_, hb, _⟩
  · rw [he] at hok
    cases hok
  · exact hb

theorem pushCut_solid (hr : Sound S.bytes r.buffer) (hs : Solid r.buffer)
    (hok : (r.push c.payload).2.isOk) (hp : 0 < c.length) :
    Sound S.bytes (r.pushCut c).buffer ∧ Solid (r.pushCut c).buffer := by
  have hne : c.chunk ≠ [] := List.ne_nil_of_length_pos (by rwa [c.length_chunk])
  rw [pushCut_buffer hr hok]
  exact ⟨(accept_sound hr c.chunk_within).1, accept_solid hs _ hne⟩

theorem pushCut_waitsForHole_iff (hr : Sound S.bytes r.buffer ∧ Solid r.buffer)
    (hw : r.WaitsForHole) (hok : (r.push c.payload).2.isOk) (hp : 0 < c.length) :
    (r.pushCut c).WaitsForHole ↔ ¬ Overruns r.buffer c.offset c.chunk := by
  rw [waitsForHole_iff_ahead (pushCut_solid hr.1 hr.2 hok hp).2, pushCut_buffer hr.1 hok]
  have ha : Ahead r.buffer := hw.1
  exact accept_ahead_iff ha hr.2 _ _

end ReorderReceiver

/-- Byte `i` has been on the wire in one of the chunks. -/
def Received (cuts : List (Cut S)) (i : ℕ) : Prop :=
  ∃ c ∈ cuts, c.offset ≤ i ∧ i < c.offset + c.length

def HasGap (cuts : List (Cut S)) : Prop := ∃ i j, i < j ∧ ¬ Received cuts i ∧ Received cuts j

open ReorderReceiver

theorem received_concat (cuts : List (Cut S)) (c : Cut S) (i : ℕ) :
    Received (cuts ++ [c]) i ↔ Received cuts i ∨ (c.offset ≤ i ∧ i < c.offset + c.length) := by
  simp [Received, or_and_right, exists_or]

theorem sound_solid_new : Sound S.bytes new.buffer ∧ Solid new.buffer :=
  ⟨sound_empty _, fun k c h => by simp [new, buffer] at h⟩

theorem foldl_pushCut_sound (cuts : List (Cut S)) :
    Sound S.bytes (cuts.foldl pushCut new).buffer := by
  refine List.foldlRecOn (motive := fun r : ReorderReceiver => Sound S.bytes r.buffer) cuts _
    (sound_empty _) ?_
  intro r hr c _
  rw [pushCut, pushed_eq]
  exact (push_sound hr c).1

theorem waitsForHole_new : new.WaitsForHole :=
  (waitsForHole_iff_ahead (sound_solid_new (S := ⟨[], by norm_num⟩)).2).mpr
    (fun k hk => by simp [new, buffer] at hk)

/-- As long as no fresh byte is thrown away, the receiver holds exactly the bytes received. -/
theorem held_iff_received {cuts : List (Cut S)}
    (hrun : Runs.Along pushCut (fun r (c : Cut S) => ((r.push c.payload).2.isOk ∧ 0 < c.length) ∧
      ¬ Overruns r.buffer c.offset c.chunk ∧ ¬ Loses r.buffer c.offset c.chunk) new cuts) :
    Sound S.bytes (cuts.foldl pushCut new).buffer ∧ Solid (cuts.foldl pushCut new).buffer ∧
      (cuts.foldl pushCut new).WaitsForHole ∧
      ∀ i, Held (cuts.foldl pushCut new).buffer i ↔ Received cuts i := by
  refine Runs.invariant_history (H := fun cuts r => Sound S.bytes r.buffer ∧ Solid r.buffer ∧
    r.WaitsForHole ∧ ∀ i, Held r.buffer i ↔ Received cuts i) ?_ ?_ hrun
  · rintro cuts r c ⟨hr, hs, hw, hh⟩ ⟨⟨hok, hp⟩, ho, hl⟩
    obtain ⟨hr', hs'⟩ := pushCut_solid hr hs hok hp
    refine ⟨hr', hs', (pushCut_waitsForHole_iff ⟨hr, hs⟩ hw hok hp).mpr ho, fun i => ?_⟩
    rw [pushCut_buffer hr hok, accept_held hl, hh, received_concat, c.length_chunk]
  · refine ⟨sound_empty _, sound_solid_new (S := S).2, waitsForHole_new, fun i => ?_⟩
    simp [Held, Received, new, buffer]

/-- After every successful push of nonempty chunks of a stream the receiver waits exactly for a
hole, if and only if no push overruns a parked chunk. If no push throws fresh bytes away either,
the hole is one in the bytes received so far. -/
theorem waits_for_hole_iff_no_overrun (S : ByteStream) (cuts : List (Cut S))
    (hpos : ∀ c ∈ cuts, 0 < c.length)
    (hok : Runs.Along pushCut (fun r (c : Cut S) => (r.push c.payload).2.isOk) new cuts) :
    (Runs.Always pushCut WaitsForHole new cuts ↔
      Runs.Along pushCut (fun r (c : Cut S) => ¬ Overruns r.buffer c.offset c.chunk) new cuts) ∧
    (Runs.Along pushCut (fun r (c : Cut S) => ¬ Overruns r.buffer c.offset c.chunk ∧
        ¬ Loses r.buffer c.offset c.chunk) new cuts →
      ∀ n, (((cuts.take n).foldl pushCut new).isWaiting = true ↔ HasGap (cuts.take n)) ∧
        (((cuts.take n).foldl pushCut new).missingOffset.isSome ↔ HasGap (cuts.take n))) := by
  have hr := Runs.along_and.mpr ⟨hok, Runs.along_of_forall_mem pushCut new hpos⟩
  constructor
  · exact Runs.always_iff_along
      (fun r c h hc => pushCut_solid h.1 h.2 hc.1 hc.2)
      (fun r c h hw hc => pushCut_waitsForHole_iff h hw hc.1 hc.2)
      sound_solid_new waitsForHole_new hr
  · intro hk n
    obtain ⟨_, _, hw, hh⟩ := held_iff_received
      (Runs.along_take (Runs.along_and.mpr ⟨hr, hk⟩) n)
    have hg : HasHole ((cuts.take n).foldl pushCut new).buffer ↔ HasGap (cuts.take n) := by
      simp only [HasHole, HasGap, hh]
    exact ⟨hw.2.1.trans hg, hw.2.2.trans hg⟩

def threeBytes : ByteStream := ⟨[1, 2, 3], by decide⟩

def lastFirst : List (Cut threeBytes) := [⟨2, 1, by decide⟩, ⟨0, 2, by decide⟩]

theorem waits_for_hole_lastFirst :
    Runs.Along pushCut (fun r (c : Cut threeBytes) => (r.push c.payload).2.isOk) new lastFirst ∧
    (Runs.Always pushCut WaitsForHole new lastFirst ↔
      Runs.Along pushCut (fun r (c : Cut threeBytes) => ¬ Overruns r.buffer c.offset c.chunk) new
        lastFirst) :=
  have hok : Runs.Along pushCut (fun r (c : Cut threeBytes) => (r.push c.payload).2.isOk) new
      lastFirst := ⟨by decide, by decide, trivial⟩
  ⟨hok, (waits_for_hole_iff_no_overrun threeBytes lastFirst (by decide) hok).1⟩

/-- Three one-byte chunks are sent and only the last one arrives; the requested replay from offset
0 comes as one piece of three bytes. -/
def replayedWhole : List (Cut threeBytes) := [⟨2, 1, by decide⟩, ⟨0, 3, by decide⟩]

/-- Every byte has been received and delivered, and the receiver still waits for offset 3. -/
theorem replay_past_parked_chunk_waits : (∀ c ∈ replayedWhole, 0 < c.length) ∧
    Runs.Along pushCut (fun r (c : Cut threeBytes) => (r.push c.payload).2.isOk) new replayedWhole ∧
    ¬ HasGap replayedWhole ∧ ¬ HasHole (replayedWhole.foldl pushCut new).buffer ∧
    (replayedWhole.foldl pushCut new).isWaiting = true ∧
    (replayedWhole.foldl pushCut new).missingOffset = some 3 ∧
    ¬ Runs.Always pushCut WaitsForHole new replayedWhole := by
  have hgap : ¬ HasGap replayedWhole := by
    rintro ⟨i, j, hij, hi, c, hc, hj⟩
    have := c.inside
    refine hi ⟨⟨0, 3, by decide⟩, by simp [replayedWhole], Nat.zero_le i, ?_⟩
    change c.offset + c.length ≤ 3 at this
    change i < 0 + 3
    omega
  have hexp : (replayedWhole.foldl pushCut new).expected = 3 := by decide
  have hsound := foldl_pushCut_sound replayedWhole
  have hhole : ¬ HasHole (replayedWhole.foldl pushCut new).buffer := by
    rintro ⟨i, j, hij, hi, hj⟩
    apply hi
    left
    rw [buffer_cursor, hexp]
    rcases hj with hj | ⟨k, c, hk, hkj, hjc⟩
    · rw [buffer_cursor, hexp] at hj
      omega
    · have hl := (hsound.within k c hk).length_le
      rw [List.length_drop] at hl
      change c.length ≤ 3 - k at hl
      omega
  refine ⟨by decide, ⟨by decide, by decide, trivial⟩, hgap, hhole, by decide, by decide, ?_⟩
  intro h
  have hw := (Runs.always_iff_take.mp h 2).1
  exact absurd (hw 2 (by decide)) (by decide)

end Csqtt
