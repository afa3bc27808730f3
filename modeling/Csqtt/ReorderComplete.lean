import Csqtt.ReorderDelivery

/-!
# Every chunk arrives: the whole stream is delivered

The sender cuts a stream into chunks and tags them with `StreamSequence::encode`. If every tagged
chunk reaches a fresh receiver at least once, in any order and with any repetitions, and no push
fails, then the receiver has delivered the whole stream and holds nothing back.
-/

namespace Csqtt

open Reassembly

namespace StreamSequence

def encodeAll (s : StreamSequence) : List Bytes → Except SequenceError (StreamSequence × List Bytes)
  | [] => .ok (s, [])
  | c :: cs =>
    match s.encode c with
    | .error e => .error e
    | .ok (s', payload) =>
      match encodeAll s' cs with
      | .error e => .error e
      | .ok (s'', payloads) => .ok (s'', payload :: payloads)

theorem encode_eq_ok {s s' : StreamSequence} {c payload : Bytes}
    (h : s.encode c = .ok (s', payload)) :
    s' = ⟨s.offset + c.length⟩ ∧ payload = encodeAt s.offset c ∧ s.offset + c.length < 2 ^ 64 := by
  unfold encode advance at h
  split_ifs at h with hlt
  · obtain ⟨rfl, rfl⟩ := Prod.mk.inj (Except.ok.inj h)
    exact ⟨rfl, rfl, hlt⟩

theorem encodeAll_eq_ok {s s' : StreamSequence} {cs payloads : List Bytes}
    (hs : s.offset < 2 ^ 64) (h : s.encodeAll cs = .ok (s', payloads)) :
    s.offset + cs.flatten.length < 2 ^ 64 ∧
      payloads = (pieces s.offset cs).map (fun p => encodeAt p.1 p.2) := by
  induction cs generalizing s payloads with
  | nil =>
    obtain ⟨rfl, rfl⟩ := Prod.mk.inj (Except.ok.inj h)
    exact ⟨by simpa using hs, rfl⟩
  | cons c cs ih =>
    rw [encodeAll] at h
    cases he : s.encode c with
    | error => simp only [he] at h; cases h
    | ok r =>
      obtain ⟨s₁, payload⟩ := r
      obtain ⟨rfl, rfl, hlt⟩ := encode_eq_ok he
      cases hr : encodeAll ⟨s.offset + c.length⟩ cs with
      | error => simp only [he, hr] at h; cases h
      | ok r =>
        simp only [he, hr] at h
        obtain ⟨rfl, rfl⟩ := Prod.mk.inj (Except.ok.inj h)
        obtain ⟨hb, hrest⟩ := ih hlt hr
        refine ⟨?_, by rw [hrest]; rfl⟩
        rw [List.flatten_cons, List.length_append, ← Nat.add_assoc]
        exact hb

theorem encodeAt_inj {o p : ℕ} {c d : Bytes} (ho : o < 2 ^ 64) (hp : p < 2 ^ 64)
    (h : encodeAt o c = encodeAt p d) : o = p ∧ c = d := by
  have hl : (BigEndian.encode 8 o).length = (BigEndian.encode 8 p).length := by simp
  obtain ⟨hh, ht⟩ := List.append_inj h hl
  refine ⟨?_, ht⟩
  rw [← BigEndian.value_encode_of_lt (w := 8) (v := o) (by omega), hh,
    BigEndian.value_encode_of_lt (by omega)]

end StreamSequence

open StreamSequence (encodeAt)

variable {chunks arrived : List Bytes} {S : ByteStream}

/-- A piece of a cut of `S` is a chunk of `S`. -/
theorem exists_cut_of_mem_pieces (hS : S.bytes = chunks.flatten) {p : ℕ × Bytes}
    (hp : p ∈ pieces 0 chunks) : ∃ c : Cut S, c.offset = p.1 ∧ c.chunk = p.2 := by
  obtain ⟨o, bytes⟩ := p
  have hb := pieces_bounds hp
  have hw := pieces_within hp
  rw [← hS] at hw
  refine ⟨⟨o, bytes.length, by rw [hS]; omega⟩, rfl, ?_⟩
  exact List.prefix_iff_eq_take.mp hw |>.symm

/-- What the receiver has after the payloads `arrived` of the cut `chunks`. -/
structure Delivery.Collects (S : ByteStream) (chunks : List Bytes) (arrived : List Bytes)
    (d : Delivery) : Prop where
  faithful : d.Faithful S
  accounted : d.receiver.Accounted
  tiled : ∃ seen, Tiled 0 chunks seen d.receiver.buffer ∧
    ∀ p ∈ pieces 0 chunks, encodeAt p.1 p.2 ∈ arrived → p ∈ seen

theorem Delivery.step_collects (hS : S.bytes = chunks.flatten) (hne : ∀ c ∈ chunks, c ≠ [])
    {d : Delivery} (h : d.Collects S chunks arrived) {p : ℕ × Bytes} (hp : p ∈ pieces 0 chunks)
    (hok : (d.receiver.push (encodeAt p.1 p.2)).2.isOk) :
    (d.step (encodeAt p.1 p.2)).Collects S chunks (arrived ++ [encodeAt p.1 p.2]) := by
  obtain ⟨c, hc₁, hc₂⟩ := exists_cut_of_mem_pieces hS hp
  have hpay : c.payload = encodeAt p.1 p.2 := by rw [Cut.payload, hc₁, hc₂]
  obtain ⟨seen, ht, hseen⟩ := h.tiled
  have hlt : ∀ q ∈ pieces 0 chunks, q.1 < 2 ^ 64 := by
    intro q hq
    have := pieces_bounds hq
    have := S.fits
    rw [hS] at this
    omega
  rw [← hpay] at hok ⊢
  refine ⟨Delivery.step_faithful h.faithful c, ?_, p :: seen, ?_, ?_⟩
  · rw [Delivery.step_receiver]
    rw [ReorderReceiver.push_payload] at hok ⊢
    exact (ReorderReceiver.pushChunk_accounted h.accounted _ _ hok).1
  · rw [Delivery.step_receiver]
    rcases ReorderReceiver.push_refines h.faithful.1 c with ⟨he, _⟩ | ⟨_, hb, _⟩
    · rw [he] at hok
      cases hok
    · rw [hb, hc₁, hc₂]
      exact accept_tiled hne ht hp
  · intro q hq ha
    rcases List.mem_append.mp ha with ha | ha
    · exact List.mem_cons_of_mem _ (hseen q hq ha)
    · rw [List.mem_singleton, hpay] at ha
      obtain ⟨ho, hb⟩ := StreamSequence.encodeAt_inj (hlt q hq) (hlt p hp) ha
      exact List.mem_cons.mpr (.inl (Prod.ext ho hb))

/-- Once every chunk has arrived, the stream is complete and nothing is held back. -/
theorem Delivery.Collects.complete (hS : S.bytes = chunks.flatten) {d : Delivery}
    (h : d.Collects S chunks arrived) (ha : ∀ p ∈ pieces 0 chunks, encodeAt p.1 p.2 ∈ arrived) :
    d.output = chunks.flatten ∧ (∀ k, k ∉ d.receiver.pending) ∧ d.receiver.bufferedBytes = 0 := by
  obtain ⟨⟨_, ho⟩, hacc, seen, ht, hs⟩ := h
  obtain ⟨hc, he⟩ := ht.complete (fun p hp => hs p hp (ha p hp))
  rw [ReorderReceiver.buffer_cursor, Nat.zero_add] at hc
  refine ⟨?_, he, ?_⟩
  · rw [ho, hc, hS]
    exact List.take_length
  · rw [hacc]
    exact size_eq_zero he

/-- Whatever the order and the repetitions, once every chunk has arrived and no push has failed,
the stream is complete, the receiver does not wait and nothing is buffered. -/
theorem delivered_all_of_all_arrive (chunks : List Bytes) (hne : ∀ c ∈ chunks, c ≠ [])
    (sequence : StreamSequence) (payloads : List Bytes)
    (henc : StreamSequence.encodeAll {} chunks = .ok (sequence, payloads))
    (arrivals : List Bytes) (hfrom : ∀ a ∈ arrivals, a ∈ payloads)
    (hall : ∀ p ∈ payloads, p ∈ arrivals)
    (hok : Runs.Along Delivery.step (fun d payload => (d.receiver.push payload).2.isOk) {}
      arrivals) : (arrivals.foldl Delivery.step {}).output = chunks.flatten ∧
      (arrivals.foldl Delivery.step {}).receiver.isWaiting = false ∧
      (arrivals.foldl Delivery.step {}).receiver.bufferedBytes = 0 := by
  obtain ⟨hf, hpay⟩ := StreamSequence.encodeAll_eq_ok (s := {}) (by norm_num) henc
  let S : ByteStream := ⟨chunks.flatten, by simpa using hf⟩
  have hs : Delivery.Collects S chunks [] {} :=
    ⟨⟨sound_empty _, rfl⟩, rfl, [], tiled_start 0 chunks, by simp⟩
  have hr := Runs.invariant_history (H := Delivery.Collects S chunks)
    (fun arrived d a h hq => by
      obtain ⟨hok, hm⟩ := hq
      rw [hpay] at hm
      obtain ⟨p, hp, rfl⟩ := List.mem_map.mp hm
      exact Delivery.step_collects rfl hne h hp hok) hs
    (Runs.along_and.mpr ⟨hok, Runs.along_of_forall_mem Delivery.step {} hfrom⟩)
  obtain ⟨ho, he, hb⟩ := hr.complete rfl (fun p hp => hall _
    (by rw [hpay]; exact List.mem_map.mpr ⟨p, hp, rfl⟩))
  refine ⟨ho, ?_, hb⟩
  rw [Bool.eq_false_iff]
  intro hw
  obtain ⟨k, hk⟩ := (ReorderReceiver.isWaiting_iff _).mp hw
  exact he k hk

/-- Two chunks that arrive in the wrong order and twice. -/
theorem delivered_all_swapped : ([StreamSequence.encodeAt 1 [8, 9], StreamSequence.encodeAt 0 [7],
      StreamSequence.encodeAt 1 [8, 9]].foldl Delivery.step {}).output = [7, 8, 9] :=
  (delivered_all_of_all_arrive [[7], [8, 9]] (by decide) ⟨3⟩
    [StreamSequence.encodeAt 0 [7], StreamSequence.encodeAt 1 [8, 9]] (by decide)
    [StreamSequence.encodeAt 1 [8, 9], StreamSequence.encodeAt 0 [7],
      StreamSequence.encodeAt 1 [8, 9]] (by decide) (by decide)
    ⟨by decide, by decide, by decide, trivial⟩).1

end Csqtt
