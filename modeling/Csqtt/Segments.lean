import Mathlib.Data.List.Basic

/-!
# Frames in a segmented stream

A decoder recognises the wire of a frame if it asks for more on every part of it and finds the
frame in front of anything that follows. Then the segments of a stream do not matter: the reader
gives its frames, one for each call.
-/

namespace Segments

variable {α β ε : Type*}

/-- The frame at the start of a buffer with what follows it, or that more is needed. -/
abbrev Decoder (α β ε : Type*) := List α → Except ε (Option (β × List α))

/-- What was read and not yet decoded, and what the next reads give. -/
structure Source (α ε : Type*) where
  buffer : List α
  reads : List (Except ε (List α))

/-- Reads until the decoder finds a frame or fails, the buffer has reached its limit, or the stream
has ended. A read that gives nothing is its end. -/
def pull (decode : Decoder α β ε) (limit : ℕ) (full closed : ε) (reads : List (Except ε (List α)))
    (buffer : List α) : Except ε β × Source α ε :=
  match decode buffer with
  | .error e => (.error e, ⟨buffer, reads⟩)
  | .ok (some (frame, rest)) => (.ok frame, ⟨rest, reads⟩)
  | .ok none =>
    if limit ≤ buffer.length then (.error full, ⟨buffer, reads⟩)
    else
      match reads with
      | [] => (.error closed, ⟨buffer, []⟩)
      | .error e :: reads => (.error e, ⟨buffer, reads⟩)
      | .ok segment :: reads =>
        if segment.isEmpty then (.error closed, ⟨buffer, reads⟩)
        else pull decode limit full closed reads (buffer ++ segment)

def pullAll (limit : ℕ) (full closed : ε) :
    List (Decoder α β ε) → Source α ε → List (Except ε β) × Source α ε
  | [], s => ([], s)
  | decode :: decoders, s =>
    let pulled := pull decode limit full closed s.reads s.buffer
    let rest := pullAll limit full closed decoders pulled.2
    (pulled.1 :: rest.1, rest.2)

structure Recognises (decode : Decoder α β ε) (wire : List α) (frame : β) : Prop where
  part : ∀ buffer missing, buffer ++ missing = wire → missing ≠ [] → decode buffer = .ok none
  whole : ∀ rest, decode (wire ++ rest) = .ok (some (frame, rest))

variable {decode : Decoder α β ε} {wire rest buffer : List α} {frame : β} {limit : ℕ}
  {full closed : ε}
  {segments : List (List α)}

theorem pull_of_frame {reads : List (Except ε (List α))}
    (h : decode buffer = .ok (some (frame, rest))) :
    pull decode limit full closed reads buffer = (.ok frame, ⟨rest, reads⟩) := by
  rw [pull.eq_def, h]

theorem pull_of_more {segment : List α} {reads : List (Except ε (List α))}
    (h : decode buffer = .ok none) (hl : buffer.length < limit) (hs : segment ≠ []) :
    pull decode limit full closed (.ok segment :: reads) buffer =
      pull decode limit full closed reads (buffer ++ segment) := by
  rw [pull.eq_def, h]
  dsimp only
  rw [if_neg (Nat.not_le.mpr hl), if_neg (by rwa [List.isEmpty_iff])]

theorem pull_of_end (h : decode buffer = .ok none) (hl : buffer.length < limit) :
    pull decode limit full closed [] buffer = (.error closed, ⟨buffer, []⟩) := by
  rw [pull.eq_def, h]
  exact if_neg (Nat.not_le.mpr hl)

/-- A call gives the frame that the stream starts with and leaves the rest of the stream. -/
theorem pull_of_recognises (full closed : ε) (h : Recognises decode wire frame)
    (hlim : wire.length ≤ limit) (hsegment : ∀ segment ∈ segments, segment ≠ [])
    (hstream : buffer ++ segments.flatten = wire ++ rest) :
    ∃ (buffer' : List α) (segments' : List (List α)),
        pull decode limit full closed (segments.map .ok) buffer =
          (.ok frame, ⟨buffer', segments'.map .ok⟩) ∧
      (∀ segment ∈ segments', segment ≠ []) ∧ buffer' ++ segments'.flatten = rest := by
  induction segments generalizing buffer with
  | nil =>
    rw [List.flatten_nil, List.append_nil] at hstream
    rw [hstream]
    exact ⟨rest, [], pull_of_frame (h.whole rest), hsegment, List.append_nil rest⟩
  | cons segment segments ih =>
    obtain ⟨missing, hwire, hmiss⟩ | ⟨after, hbuffer, hrest⟩ := List.append_eq_append_iff.mp hstream
    · by_cases hnil : missing = []
      · rw [hnil, List.append_nil] at hwire
        rw [hnil] at hmiss
        have hdec := h.whole []
        rw [List.append_nil, hwire] at hdec
        exact ⟨[], segment :: segments, pull_of_frame hdec, hsegment, hmiss⟩
      · have hshort : buffer.length < limit := by
          have hpos := List.length_pos_iff.mpr hnil
          rw [hwire, List.length_append] at hlim
          omega
        rw [List.map_cons, pull_of_more (h.part buffer missing hwire.symm hnil) hshort
          (hsegment segment List.mem_cons_self)]
        apply ih (fun s hs => hsegment s (List.mem_cons_of_mem segment hs))
        rw [List.append_assoc]
        exact hstream
    · rw [hbuffer]
      exact ⟨after, segment :: segments, pull_of_frame (h.whole after), hsegment, hrest.symm⟩

theorem pullAll_of_recognises (calls : List (Decoder α β ε × List α × β))
    (hcall : ∀ call ∈ calls, Recognises call.1 call.2.1 call.2.2 ∧ call.2.1.length ≤ limit)
    (hs : ∀ segment ∈ segments, segment ≠ [])
    (hstream : buffer ++ segments.flatten = (calls.map (·.2.1)).flatten) :
    pullAll limit full closed (calls.map (·.1)) ⟨buffer, segments.map .ok⟩ =
      (calls.map (.ok ·.2.2), ⟨[], []⟩) := by
  induction calls generalizing buffer segments with
  | nil =>
    obtain ⟨hb, hf⟩ := List.append_eq_nil_iff.mp hstream
    cases segments with
    | nil =>
      rw [hb]
      rfl
    | cons segment =>
      rw [List.flatten_cons, List.append_eq_nil_iff] at hf
      exact absurd hf.1 (hs segment List.mem_cons_self)
  | cons call _ ih =>
    obtain ⟨hclose, hl⟩ := hcall call List.mem_cons_self
    obtain ⟨buffer', segments', hp, hs', hr⟩ :=
      pull_of_recognises full closed hclose hl hs hstream
    rw [List.map_cons, List.map_cons, pullAll, hp,
      ih (fun c hc => hcall c (List.mem_cons_of_mem call hc)) hs' hr]

end Segments
