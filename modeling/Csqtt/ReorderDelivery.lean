import Csqtt.ProxySequence

/-!
# What the reorder receiver delivers

On the chunks of one byte stream the receiver refines the reassembly buffer: a call of `push`
either fails and leaves the buffer as it was, or accepts the chunk. Whatever chunks arrive, in
whatever cut, order and number, the bytes handed out so far are the first `expected` bytes of the
stream.
-/

namespace Csqtt

open Reassembly

/-- A byte stream whose end is a `u64` offset, as `StreamSequence::advance` demands of the
sender. -/
structure ByteStream where
  bytes : Bytes
  fits : bytes.length < 2 ^ 64

/-- The part of a stream that `u64` offsets can address. -/
def ByteStream.addressable (bytes : Bytes) : ByteStream :=
  ⟨bytes.take (2 ^ 64 - 1), by rw [List.length_take]; omega⟩

theorem ByteStream.addressable_bytes (bytes : Bytes) :
    (addressable bytes).bytes = bytes.take (2 ^ 64 - 1) := rfl

theorem ByteStream.addressable_of_fits {bytes : Bytes} (h : bytes.length < 2 ^ 64) :
    (addressable bytes).bytes = bytes := by
  rw [addressable_bytes, List.take_of_length_le (by omega)]

/-- One chunk `S[offset..offset + length]`. -/
structure Cut (S : ByteStream) where
  offset : ℕ
  length : ℕ
  inside : offset + length ≤ S.bytes.length

namespace Cut

variable {S : ByteStream}

def chunk (c : Cut S) : Bytes := (S.bytes.drop c.offset).take c.length

def payload (c : Cut S) : Bytes := StreamSequence.encodeAt c.offset c.chunk

variable (c : Cut S)

theorem chunk_within : c.chunk <+: S.bytes.drop c.offset := List.take_prefix _ _

@[simp] theorem length_chunk : c.chunk.length = c.length := by
  have := c.inside
  rw [chunk, List.length_take, List.length_drop]
  omega

theorem offset_lt : c.offset < 2 ^ 64 := by
  have := c.inside
  have := S.fits
  omega

theorem extend {T : ByteStream} (h : S.bytes <+: T.bytes) (c : Cut S) :
    ∃ d : Cut T, c.payload = d.payload := by
  have hin := c.inside
  have hc : (S.bytes.drop c.offset).take c.length = (T.bytes.drop c.offset).take c.length := by
    obtain ⟨more, hm⟩ := h
    rw [← hm, List.drop_append_of_le_length (by omega),
      List.take_append_of_le_length (by rw [List.length_drop]; omega)]
  exact ⟨⟨c.offset, c.length, hin.trans h.length_le⟩, congrArg _ hc⟩

end Cut

namespace ReorderReceiver

def Accounted (r : ReorderReceiver) : Prop := r.bufferedBytes = size r.pending

/-- The flush loop with its subtraction checked: no result once a chunk taken out is longer than
the counter it is subtracted from. -/
def flushChecked : ℕ → ReorderReceiver → Bytes → Option (ReorderReceiver × Bytes)
  | 0, r, output => some (r, output)
  | fuel + 1, r, output =>
    match r.pending.lookup r.expected with
    | none => some (r, output)
    | some next =>
      if next.length ≤ r.bufferedBytes then
        flushChecked fuel
          { expected := (r.expected + next.length) % 2 ^ 64
            pending := r.pending.erase r.expected
            bufferedBytes := r.bufferedBytes - next.length }
          (output ++ next)
      else none

variable {r : ReorderReceiver}

theorem Accounted.erase (hr : r.Accounted) {next : Bytes}
    (hl : r.pending.lookup r.expected = some next) (expected : ℕ) : next.length ≤ r.bufferedBytes ∧
      Accounted ⟨expected, r.pending.erase r.expected, r.bufferedBytes - next.length⟩ := by
  have hs := size_erase hl
  rw [Accounted] at hr
  constructor
  · omega
  · change r.bufferedBytes - next.length = size (r.pending.erase r.expected)
    omega

theorem flush_accounted (fuel : ℕ) (hr : r.Accounted) (output : Bytes) :
    (flush fuel r output).1.Accounted ∧
      (flush fuel r output).1.bufferedBytes ≤ r.bufferedBytes := by
  induction fuel generalizing r output with
  | zero => exact ⟨hr, le_refl _⟩
  | succ _ ih =>
    cases hl : r.pending.lookup r.expected with
    | none => simpa only [flush, hl] using ⟨hr, le_refl _⟩
    | some next =>
      obtain ⟨_, hr'⟩ := hr.erase hl ((r.expected + next.length) % 2 ^ 64)
      simp only [flush, hl]
      exact ⟨(ih hr' _).1, (ih hr' _).2.trans (Nat.sub_le _ _)⟩

theorem flushChecked_eq (fuel : ℕ) (hr : r.Accounted) (output : Bytes) :
    flushChecked fuel r output = some (flush fuel r output) := by
  induction fuel generalizing r output with
  | zero => rfl
  | succ _ ih =>
    cases hl : r.pending.lookup r.expected with
    | none => simp only [flush, flushChecked, hl]
    | some next =>
      obtain ⟨hle, hr'⟩ := hr.erase hl ((r.expected + next.length) % 2 ^ 64)
      simp only [flush, flushChecked, hl, if_pos hle]
      exact ih hr' _

theorem pushChunk_accounted (hr : r.Accounted) (o : ℕ) (c : Bytes)
    (hok : (r.pushChunk o c).2.isOk) : (r.pushChunk o c).1.Accounted ∧
      (r.bufferedBytes ≤ maxBuffered → (r.pushChunk o c).1.bufferedBytes ≤ maxBuffered) := by
  obtain ⟨_, he⟩ | ⟨_, flushed, hf, he⟩ | ⟨_, _, he⟩ | ⟨_, _, _, he⟩ | ⟨_, hm, hle, he⟩ :=
    r.pushChunk_cases o c <;> rw [he] at hok ⊢
  · exact ⟨hr, id⟩
  · have hr' : Accounted { r with expected := (r.expected + c.length) % 2 ^ 64 } := hr
    rw [hf]
    exact (flush_accounted _ hr' _).imp_right le_trans
  · exact ⟨hr, id⟩
  · cases hok
  · refine ⟨?_, fun _ => hle⟩
    change r.bufferedBytes + c.length = size (r.pending.insert o c)
    rw [size_insert hm, ← hr]

theorem pushed_accounted (hr : r.Accounted ∧ r.bufferedBytes ≤ maxBuffered) (payload : Bytes)
    (hok : (r.push payload).2.isOk) :
    (r.pushed payload).Accounted ∧ (r.pushed payload).bufferedBytes ≤ maxBuffered := by
  by_cases hl : payload.length < 8
  · rw [push, if_pos hl] at hok
    cases hok
  · rw [pushed]
    rw [push, if_neg hl] at hok ⊢
    exact (pushChunk_accounted hr.1 _ _ hok).imp_right fun h => h hr.2

/-- Whatever payloads have been pushed without an error, overlapping or contradicting each other
as they may, the counter is the number of parked bytes and within the window, and a flush from
there, at whatever offset it starts, subtracts no chunk longer than the counter. -/
theorem buffered_bytes_accounted (payloads : List Bytes)
    (hok : Runs.Along pushed (fun r payload => (r.push payload).2.isOk = true) .new payloads) :
    Runs.Always pushed (fun r => r.bufferedBytes = size r.pending ∧ r.bufferedBytes ≤ 131072 ∧
        ∀ fuel expected output, flushChecked fuel { r with expected := expected } output =
            some (flush fuel { r with expected := expected } output))
      .new payloads := by
  have hrun : Runs.Always pushed (fun r => r.Accounted ∧ r.bufferedBytes ≤ maxBuffered)
      .new payloads :=
    Runs.always_invariant (fun _ _ => (pushed_accounted · _)) ⟨rfl, Nat.zero_le _⟩ hok
  apply Runs.always_mono _ hrun
  intro r hr
  refine ⟨hr.1, hr.2, fun fuel expected output => ?_⟩
  have hr' : Accounted { r with expected := expected } := hr.1
  exact flushChecked_eq fuel hr' output

theorem buffered_bytes_accounted_overlapping : Runs.Always pushed
      (fun r => r.bufferedBytes = size r.pending ∧ r.bufferedBytes ≤ 131072 ∧
        ∀ fuel expected output, flushChecked fuel { r with expected := expected } output =
            some (flush fuel { r with expected := expected } output))
      .new [StreamSequence.encodeAt 2 [7, 7, 7], StreamSequence.encodeAt 3 [8],
        StreamSequence.encodeAt 0 [1, 2]] :=
  buffered_bytes_accounted _ (by decide +kernel)

theorem pushChunk_refines {S : Bytes} (hS : S.length < 2 ^ 64)
    (hr : Sound S r.buffer) {o : ℕ} {c : Bytes} (hc : c <+: S.drop o) :
    ((r.pushChunk o c).2 = .error .windowOverflow ∧ (r.pushChunk o c).1.buffer = r.buffer) ∨
    ((r.pushChunk o c).2.isOk ∧ (r.pushChunk o c).1.buffer = (accept r.buffer o c).1 ∧
      forwarded (r.pushChunk o c).2 = (accept r.buffer o c).2) := by
  obtain ⟨hlt, he⟩ | ⟨rfl, flushed, hf, he⟩ | ⟨hlt, hm, he⟩ | ⟨_, _, _, he⟩ | ⟨hlt, hm, _, he⟩ :=
    r.pushChunk_cases o c <;> rw [he]
  · rw [accept, buffer_cursor, if_pos hlt]
    exact .inr ⟨rfl, rfl, rfl⟩
  · have hle : r.expected + c.length ≤ S.length := piece_end_le hc hr.cursor_le
    have hs : Sound S ({ r with expected := r.expected + c.length } : ReorderReceiver).buffer :=
      ⟨hle, hr.within⟩
    rw [Nat.mod_eq_of_lt (by omega), flush_eq_drain hS _ hs] at hf
    rw [hf, accept, buffer_cursor, if_neg (lt_irrefl _), if_pos rfl]
    exact .inr ⟨rfl, rfl, rfl⟩
  · rw [accept, buffer_cursor, if_neg (by omega), if_neg (by omega), buffer_parked, if_pos hm]
    exact .inr ⟨rfl, rfl, rfl⟩
  · exact .inl ⟨rfl, rfl⟩
  · rw [accept, buffer_cursor, if_neg (by omega), if_neg (by omega), buffer_parked, if_neg hm]
    exact .inr ⟨rfl, rfl, rfl⟩

variable {S : ByteStream}

theorem push_payload (r : ReorderReceiver) (c : Cut S) :
    r.push c.payload = r.pushChunk c.offset c.chunk :=
  r.push_encodeAt c.offset_lt c.chunk

theorem push_refines (hr : Sound S.bytes r.buffer) (c : Cut S) :
    ((r.push c.payload).2 = .error .windowOverflow ∧ (r.push c.payload).1.buffer = r.buffer) ∨
    ((r.push c.payload).2.isOk ∧
      (r.push c.payload).1.buffer = (accept r.buffer c.offset c.chunk).1 ∧
      forwarded (r.push c.payload).2 = (accept r.buffer c.offset c.chunk).2) := by
  rw [push_payload]
  exact pushChunk_refines S.fits hr c.chunk_within

theorem push_sound (hr : Sound S.bytes r.buffer) (c : Cut S) :
    Sound S.bytes (r.push c.payload).1.buffer ∧
      S.bytes.take r.expected ++ forwarded (r.push c.payload).2 =
        S.bytes.take (r.push c.payload).1.expected := by
  rcases push_refines hr c with ⟨he, hb⟩ | ⟨_, hb, hf⟩
  · rw [← buffer_cursor (r.push c.payload).1, hb, he]
    exact ⟨hr, by simp [forwarded]⟩
  · rw [← buffer_cursor (r.push c.payload).1, hb, hf]
    exact accept_sound hr c.chunk_within

end ReorderReceiver

structure Delivery where
  receiver : ReorderReceiver := .new
  output : Bytes := []

def Delivery.step (d : Delivery) (payload : Bytes) : Delivery :=
  { receiver := (d.receiver.push payload).1
    output := d.output ++ ReorderReceiver.forwarded (d.receiver.push payload).2 }

theorem Delivery.step_receiver (d : Delivery) (payload : Bytes) :
    (d.step payload).receiver = (d.receiver.push payload).1 := rfl

theorem Delivery.step_output (d : Delivery) (payload : Bytes) : (d.step payload).output =
      d.output ++ ReorderReceiver.forwarded (d.receiver.push payload).2 := rfl

/-- What every push of a chunk of `S` keeps. -/
def Delivery.Faithful (S : ByteStream) (d : Delivery) : Prop :=
  Sound S.bytes d.receiver.buffer ∧ d.output = S.bytes.take d.receiver.expected

theorem Delivery.step_faithful {S : ByteStream} {d : Delivery} (h : d.Faithful S) (c : Cut S) :
    (d.step c.payload).Faithful S := by
  obtain ⟨hs, ht⟩ := ReorderReceiver.push_sound h.1 c
  rw [Faithful, step_receiver, step_output, h.2]
  exact ⟨hs, ht⟩

/-- Nothing is ever duplicated, skipped or reordered: after any pushes of chunks of a stream, the
bytes returned so far are exactly the first `expected` bytes of it. -/
theorem delivered_eq_take_expected (S : ByteStream) (cuts : List (Cut S)) :
    ((cuts.map Cut.payload).foldl Delivery.step {}).receiver.expected ≤ S.bytes.length ∧
      ((cuts.map Cut.payload).foldl Delivery.step {}).output =
        S.bytes.take ((cuts.map Cut.payload).foldl Delivery.step {}).receiver.expected := by
  have hs : Delivery.Faithful S {} := ⟨sound_empty _, rfl⟩
  have hr : Delivery.Faithful S ((cuts.map Cut.payload).foldl Delivery.step {}) := by
    rw [List.foldl_map]
    exact List.foldlRecOn cuts _ hs (fun d hd c _ => Delivery.step_faithful hd c)
  exact ⟨hr.1.cursor_le, hr.2⟩

end Csqtt
