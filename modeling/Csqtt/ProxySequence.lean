import Csqtt.BigEndian
import Csqtt.ReassemblyTiles
import Csqtt.Runs

/-!
# The CSQPX2 stream sequence and the reorder receiver

`StreamSequence` tags every chunk with its absolute byte offset; `ReorderReceiver` puts chunks
back in order. Offsets are `u64`: the receiver's additions wrap, the sender's are checked. The
receiver refines the reassembly buffer on every chunk of a stream that a `u64` offset can address.
-/

namespace Csqtt

abbrev Bytes := List UInt8

inductive SequenceError
  | missingOffset
  | gapOrReorder (expected received : ℕ)
  | offsetOverflow
  | windowOverflow
  deriving DecidableEq

structure StreamSequence where
  offset : ℕ := 0
  deriving DecidableEq

namespace StreamSequence

def advance (s : StreamSequence) (length : ℕ) : Except SequenceError StreamSequence :=
  if s.offset + length < 2 ^ 64 then .ok ⟨s.offset + length⟩ else .error .offsetOverflow

def encodeAt (offset : ℕ) (bytes : Bytes) : Bytes := BigEndian.encode 8 offset ++ bytes

def encode (s : StreamSequence) (bytes : Bytes) : Except SequenceError (StreamSequence × Bytes) :=
  match s.advance bytes.length with
  | .error e => .error e
  | .ok s' => .ok (s', encodeAt s.offset bytes)

def decode (s : StreamSequence) (payload : Bytes) : Except SequenceError (StreamSequence × Bytes) :=
  if payload.length < 8 then .error .missingOffset
  else
    let offset := BigEndian.value (payload.take 8)
    if offset < s.offset then .ok (s, [])
    else if s.offset < offset then .error (.gapOrReorder s.offset offset)
    else match s.advance (payload.drop 8).length with
      | .error e => .error e
      | .ok s' => .ok (s', payload.drop 8)

end StreamSequence

def maxBuffered : ℕ := 128 * 1024

structure ReorderReceiver where
  expected : ℕ := 0
  pending : Reassembly.Parked UInt8 := ∅
  bufferedBytes : ℕ := 0

namespace ReorderReceiver

def new : ReorderReceiver := {}

/-- The loop over `pending.remove(&expected)`. Every round removes an entry, so the number of
entries is enough fuel. -/
def flush : ℕ → ReorderReceiver → Bytes → ReorderReceiver × Bytes
  | 0, r, output => (r, output)
  | fuel + 1, r, output =>
    match r.pending.lookup r.expected with
    | none => (r, output)
    | some next =>
      flush fuel
        { expected := (r.expected + next.length) % 2 ^ 64
          pending := r.pending.erase r.expected
          bufferedBytes := r.bufferedBytes - next.length }
        (output ++ next)

/-- `push` after the offset has been read off the payload. -/
def pushChunk (r : ReorderReceiver) (offset : ℕ) (chunk : Bytes) :
    ReorderReceiver × Except SequenceError (Option Bytes) :=
  if offset < r.expected then (r, .ok none)
  else if offset = r.expected then
    let flushed := flush r.pending.entries.length
      { r with expected := (r.expected + chunk.length) % 2 ^ 64 } chunk
    (flushed.1, .ok (some flushed.2))
  else if offset ∈ r.pending then (r, .ok none)
  else if maxBuffered < r.bufferedBytes + chunk.length then
    ({ r with bufferedBytes := r.bufferedBytes + chunk.length }, .error .windowOverflow)
  else
    ({ r with
        pending := r.pending.insert offset chunk
        bufferedBytes := r.bufferedBytes + chunk.length }, .ok none)

def push (r : ReorderReceiver) (payload : Bytes) :
    ReorderReceiver × Except SequenceError (Option Bytes) :=
  if payload.length < 8 then (r, .error .missingOffset)
  else r.pushChunk (BigEndian.value (payload.take 8)) (payload.drop 8)

def isWaiting (r : ReorderReceiver) : Bool := !r.pending.entries.isEmpty

def missingOffset (r : ReorderReceiver) : Option ℕ :=
  if r.isWaiting then some r.expected else none

/-- The receiver after a call of `push`. -/
def pushed (r : ReorderReceiver) (payload : Bytes) : ReorderReceiver := (r.push payload).1

variable (r : ReorderReceiver)

theorem pushed_eq (payload : Bytes) : r.pushed payload = (r.push payload).1 := rfl

/-- The bytes a call of `push` hands to the caller. -/
def forwarded : Except SequenceError (Option Bytes) → Bytes
  | .ok (some output) => output
  | _ => []

def buffer (r : ReorderReceiver) : Reassembly.Buffer UInt8 := ⟨r.expected, r.pending⟩

@[simp] theorem buffer_cursor : r.buffer.cursor = r.expected := rfl

@[simp] theorem buffer_parked : r.buffer.parked = r.pending := rfl

theorem isWaiting_iff : r.isWaiting = true ↔ ∃ k, k ∈ r.pending := by
  unfold isWaiting
  constructor
  · intro h
    cases he : r.pending.entries with
    | nil => simp [he] at h
    | cons e => exact ⟨e.1, AList.mem_keys.mpr (by simp [AList.keys, he])⟩
  · rintro ⟨k, hk⟩
    have hk' : k ∈ r.pending.entries.keys := hk
    cases he : r.pending.entries with
    | nil => simp [he] at hk'
    | cons => rfl

theorem pushChunk_cases (o : ℕ) (c : Bytes) :
    (o < r.expected ∧ r.pushChunk o c = (r, .ok none)) ∨
    (o = r.expected ∧ ∃ flushed, flushed = flush r.pending.entries.length
        { r with expected := (r.expected + c.length) % 2 ^ 64 } c ∧
      r.pushChunk o c = (flushed.1, .ok (some flushed.2))) ∨
    (r.expected < o ∧ o ∈ r.pending ∧ r.pushChunk o c = (r, .ok none)) ∨
    (r.expected < o ∧ o ∉ r.pending ∧ maxBuffered < r.bufferedBytes + c.length ∧
      r.pushChunk o c =
        ({ r with bufferedBytes := r.bufferedBytes + c.length }, .error .windowOverflow)) ∨
    (r.expected < o ∧ o ∉ r.pending ∧ r.bufferedBytes + c.length ≤ maxBuffered ∧
      r.pushChunk o c =
        ({ r with
            pending := r.pending.insert o c
            bufferedBytes := r.bufferedBytes + c.length }, .ok none)) := by
  unfold pushChunk
  split_ifs with hlt heq hm hmax
  · exact .inl ⟨hlt, rfl⟩
  · exact .inr (.inl ⟨heq, _, rfl, rfl⟩)
  · exact .inr (.inr (.inl ⟨by omega, hm, rfl⟩))
  · exact .inr (.inr (.inr (.inl ⟨by omega, hm, hmax, rfl⟩)))
  · exact .inr (.inr (.inr (.inr ⟨by omega, hm, by omega, rfl⟩)))

theorem push_encodeAt {o : ℕ} (ho : o < 2 ^ 64) (chunk : Bytes) :
    r.push (StreamSequence.encodeAt o chunk) = r.pushChunk o chunk := by
  have hl : (StreamSequence.encodeAt o chunk).length = 8 + chunk.length := by
    simp [StreamSequence.encodeAt]
  have ht : (StreamSequence.encodeAt o chunk).take 8 = BigEndian.encode 8 o := by
    rw [StreamSequence.encodeAt, List.take_left' (BigEndian.length_encode 8 o)]
  have hd : (StreamSequence.encodeAt o chunk).drop 8 = chunk := by
    rw [StreamSequence.encodeAt, List.drop_left' (BigEndian.length_encode 8 o)]
  rw [push, if_neg (by omega), ht, hd, BigEndian.value_encode_of_lt (by omega)]

theorem flush_eq_drain {S : Bytes} (hS : S.length < 2 ^ 64) (fuel : ℕ) {r : ReorderReceiver}
    (hr : Reassembly.Sound S r.buffer) (output : Bytes) : flush fuel r output =
      ({ expected := (Reassembly.drain fuel r.buffer).1.cursor
         pending := (Reassembly.drain fuel r.buffer).1.parked
         bufferedBytes := r.bufferedBytes - (Reassembly.drain fuel r.buffer).2.length },
        output ++ (Reassembly.drain fuel r.buffer).2) := by
  induction fuel generalizing r output with
  | zero => simp [flush, Reassembly.drain, buffer]
  | succ _ ih =>
    cases hl : r.pending.lookup r.expected with
    | none =>
      rw [Reassembly.drain_none (b := r.buffer) hl]
      simp [flush, hl, buffer]
    | some next =>
      have hn := hr.within _ _ hl
      have hle : r.expected + next.length ≤ S.length :=
        Reassembly.piece_end_le hn hr.cursor_le
      have hs : Reassembly.Sound S
          ⟨r.expected + next.length, r.pending.erase r.expected⟩ :=
        ⟨hle, fun k d hd => hr.within k d (Reassembly.lookup_erase_eq_some.mp hd).2⟩
      have hi := ih (r := { expected := r.expected + next.length
                            pending := r.pending.erase r.expected
                            bufferedBytes := r.bufferedBytes - next.length }) hs (output ++ next)
      rw [Reassembly.drain_some (b := r.buffer) hl]
      simp only [flush, hl]
      rw [Nat.mod_eq_of_lt (by omega), hi]
      simp [buffer, Nat.sub_sub]

end ReorderReceiver
end Csqtt
