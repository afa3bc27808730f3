import Csqtt.ServerResend
import Csqtt.ClientProxy

/-!
# The resend tail against the reorder window

A server stream and the reorder receiver of its client, with any delivery of the queued frames.
When the client holds everything but one hole, its RESEND request is answered exactly when the
hole and all that follows it fit into the tail; the receiver's own bound leaves the hole out.
-/

namespace Csqtt

open Reassembly

structure Downlink where
  server : ServerStream
  receiver : ReorderReceiver := .new
  intact : Bool := true

inductive DownlinkEvent
  | serve (turn : ServerTurn)
  | arrive (i : ℕ)

namespace Downlink

def receive (d : Downlink) (payload : Bytes) : Downlink :=
  { d with
    receiver := d.receiver.pushed payload
    intact := d.intact && (d.receiver.push payload).2.isOk }

def step (d : Downlink) : DownlinkEvent → Downlink
  | .serve turn => { d with server := d.server.step turn }
  | .arrive i =>
    match d.server.outbox[i]?.bind Frame.inbound with
    | some (.data payload) => d.receive payload
    | _ => d

/-- Of the bytes sent so far, exactly those from `o` up to `stop` are not held. -/
def OneHole (d : Downlink) (o stop : ℕ) : Prop :=
  o < stop ∧ stop ≤ d.server.targetRead.length ∧
    ∀ i < d.server.targetRead.length, Held d.receiver.buffer i ↔ i < o ∨ stop ≤ i

/-- A RESEND request for `o` makes the server send something. -/
def Answered (d : Downlink) (o : ℕ) : Prop :=
  ∀ now later, (d.server.step (.select now later (.input (some (.resend o)) none))).outbox ≠
    d.server.outbox

structure Linked (d : Downlink) : Prop where
  tailed : d.server.Tailed
  sound : d.server.ending = none → Sound d.server.targetRead d.receiver.buffer

variable {d : Downlink}

theorem Linked.receive (h : d.Linked) {f : Frame} (hf : f ∈ d.server.outbox)
    (hk : f.kind = kindData) : (d.receive f.payload).Linked := by
  refine ⟨h.tailed, fun hs => ?_⟩
  obtain ⟨c, hc⟩ := ((h.tailed.sliced f hf).2 hk).exists_cut
  have hb := ByteStream.addressable_of_fits (h.tailed.fits hs)
  have hsound := h.sound hs
  rw [← hb] at hsound
  have hp := (ReorderReceiver.push_sound hsound c).1
  rw [hb, ← hc] at hp
  exact hp

theorem Linked.serve (h : d.Linked) (turn : ServerTurn) : (d.step (.serve turn)).Linked := by
  refine ⟨ServerStream.step_tailed h.tailed turn, fun hs => ?_⟩
  obtain ⟨_, more, hm⟩ := d.server.step_grows turn
  change Sound (d.server.step turn).targetRead d.receiver.buffer
  rw [← hm]
  exact (h.sound (ServerStream.running_of_step hs)).append more

theorem step_linked (h : d.Linked) (event : DownlinkEvent) : (d.step event).Linked := by
  cases event with
  | serve turn => exact h.serve turn
  | arrive i =>
    rw [step]
    cases hf : d.server.outbox[i]? with
    | none => exact h
    | some f =>
      have hm : f ∈ d.server.outbox := List.mem_of_getElem? hf
      rw [Option.bind_some]
      cases hin : f.inbound with
      | none => exact h
      | some event =>
        cases event with
        | opened | error | closed => exact h
        | data =>
          obtain ⟨hk, rfl⟩ := Frame.inbound_data hin
          exact h.receive hm hk

theorem run_linked (streamId now : ℕ) (connected okQueued : Bool) (events : List DownlinkEvent) :
    (events.foldl step { server := .start streamId now connected okQueued }).Linked :=
  List.foldlRecOn events step
    ⟨ServerStream.start_tailed streamId now connected okQueued, fun _ => sound_empty _⟩
    (fun _ h event _ => step_linked h event)

theorem Linked.answered_iff (h : d.Linked) (hs : d.server.ending = none) {o : ℕ}
    (ho : o < d.server.targetRead.length) :
    d.Answered o ↔ d.server.targetRead.length - o ≤ resendBufferBytes := by
  have hle : d.server.outTail.length = min d.server.targetRead.length resendBufferBytes := by
    rw [h.tailed.tail, length_keepLast]
  have hreach : d.server.Reaches o ↔ d.server.targetRead.length - o ≤ resendBufferBytes := by
    rw [ServerStream.Reaches, h.tailed.total hs]
    omega
  rw [← hreach]
  constructor
  · intro ha
    by_contra hn
    obtain ⟨cs, hout, _, _, hno⟩ := h.tailed.step_resend hs 0 0 o
    rw [hno hn] at hout
    apply ha 0 0
    rw [hout]
    exact List.append_nil _
  · intro hr now later heq
    obtain ⟨cs, hout, _, hall, _⟩ := h.tailed.step_resend hs now later o
    rw [heq] at hout
    have hnil : cs = [] := by
      cases cs with
      | nil => rfl
      | cons =>
        have hl := congrArg List.length hout
        simp [ServerStream.pieceFrames, pieces] at hl
    have hf := hall hr
    rw [hnil, List.flatten_nil, eq_comm, List.drop_eq_nil_iff] at hf
    omega

theorem expected_le_of_oneHole {o stop : ℕ} (h : d.OneHole o stop) : d.receiver.expected ≤ o := by
  obtain ⟨hlt, hle, hh⟩ := h
  by_contra hgt
  have ho := (hh o (by omega)).mp (.inl (by rw [ReorderReceiver.buffer_cursor]; omega))
  omega

section LostChunk

variable {c : Bytes}

/-- The target has delivered `n` full chunks and nothing has arrived. -/
structure Sent (c : Bytes) (n : ℕ) (d : Downlink) : Prop where
  running : d.server.ending = none
  streamId : d.server.streamId = 7
  offset : d.server.sent.offset = n * maxData
  read : d.server.targetRead.length = n * maxData
  outbox : d.server.outbox =
    ⟨kindOpenOk, 7, []⟩ :: (List.range n).map (fun i => dataFrame 7 (i * maxData) c)

/-- Of these the chunks 1 to `m` have arrived, chunk 0 has not. -/
structure Stalled (c : Bytes) (m : ℕ) (d : Downlink) : Prop where
  intact : d.intact = true
  expected : d.receiver.expected = 0
  buffered : d.receiver.bufferedBytes = m * maxData
  parked : ∀ k x, d.receiver.pending.lookup k = some x ↔
    ∃ i, 1 ≤ i ∧ i ≤ m ∧ k = i * maxData ∧ x = c

variable {m n id o k : ℕ} {d : Downlink}

theorem Sent.succ (hc : c.length = maxData) (h : d.Sent c n) (hf : (n + 1) * maxData < 2 ^ 64) :
    (d.step (.serve (.select 0 0 (.read c true)))).Sent c (n + 1) := by
  have ho : d.server.sent.offset + c.length = (n + 1) * maxData := by
    rw [h.offset, hc, Nat.succ_mul]
  have hne : c ≠ [] := by
    intro hn
    rw [hn] at hc
    exact absurd hc (by decide)
  have ht : c.take maxData = c := List.take_of_length_le (le_of_eq hc)
  obtain ⟨holeDeadline, he⟩ := ServerStream.step_read h.running hne (by rw [ht]; omega) 0 0
  rw [ht] at he
  refine ⟨?_, ?_, ?_, ?_, ?_⟩ <;> rw [step, he]
  · exact h.running
  · exact h.streamId
  · exact ho
  · rw [List.length_append, h.read, hc, Nat.succ_mul]
  · rw [h.outbox, h.streamId, h.offset, List.range_succ, List.map_append]
    rfl

theorem sent_of_reads (hc : c.length = maxData) (hf : n * maxData < 2 ^ 64) :
    ((List.replicate n (.serve (.select 0 0 (.read c true)))).foldl step
        { server := .start 7 0 true true }).Sent c n ∧
      ((List.replicate n (.serve (.select 0 0 (.read c true)))).foldl step
        { server := .start 7 0 true true }).Stalled c 0 := by
  induction n with
  | zero =>
    refine ⟨⟨rfl, rfl, rfl, rfl, rfl⟩, ⟨rfl, rfl, rfl, fun k x => ?_⟩⟩
    constructor
    · intro hx
      cases hx
    · omega
  | succ _ ih =>
    obtain ⟨hs, h⟩ := ih (by rw [Nat.succ_mul] at hf; omega)
    rw [List.replicate_succ', List.foldl_append]
    exact ⟨hs.succ hc hf, ⟨h.intact, h.expected, h.buffered, h.parked⟩⟩

theorem dataFrame_inbound (hc : c.length ≤ maxData) :
    (dataFrame id o c).inbound = some (.data (StreamSequence.encodeAt o c)) := by
  have hl : (StreamSequence.encodeAt o c).length ≤ maxData + 8 := by
    rw [StreamSequence.encodeAt, List.length_append, BigEndian.length_encode]
    omega
  unfold Frame.inbound dataFrame
  rw [if_neg kindOpenOk_ne_kindData.symm, if_neg kindOpenErr_ne_kindData.symm,
    if_pos ⟨rfl, hl⟩]

theorem receive_fields (d : Downlink) (payload : Bytes) : (d.receive payload).server = d.server ∧
      (d.receive payload).receiver = (d.receiver.push payload).1 ∧
      (d.receive payload).intact = (d.intact && (d.receiver.push payload).2.isOk) :=
  ⟨rfl, rfl, rfl⟩

theorem receive_parks (hk : k < 2 ^ 64) (ha : d.receiver.expected < k)
    (hn : k ∉ d.receiver.pending) (hroom : d.receiver.bufferedBytes + c.length ≤ maxBuffered) :
    (d.receive (StreamSequence.encodeAt k c)).intact = d.intact ∧
      (d.receive (StreamSequence.encodeAt k c)).receiver.expected = d.receiver.expected ∧
      (d.receive (StreamSequence.encodeAt k c)).receiver.bufferedBytes =
        d.receiver.bufferedBytes + c.length ∧
      (d.receive (StreamSequence.encodeAt k c)).receiver.pending =
        d.receiver.pending.insert k c := by
  have hp := d.receiver.push_encodeAt hk c
  rw [ReorderReceiver.pushChunk, if_neg (by omega), if_neg (by omega), if_neg hn,
    if_neg (by omega)] at hp
  obtain ⟨_, hr, hi⟩ := d.receive_fields (StreamSequence.encodeAt k c)
  rw [hr, hi, hp]
  exact ⟨Bool.and_true _, rfl, rfl, rfl⟩

theorem Stalled.succ (hc : c.length = maxData) (hs : d.Sent c n)
    (h : d.Stalled c m) (hm : m + 1 < n) (hfit : (m + 1) * maxData < 2 ^ 64)
    (hwindow : (m + 1) * maxData ≤ maxBuffered) :
    (d.step (.arrive (m + 2))).Sent c n ∧ (d.step (.arrive (m + 2))).Stalled c (m + 1) := by
  have hframe : d.server.outbox[m + 2]? = some (dataFrame 7 ((m + 1) * maxData) c) := by
    rw [hs.outbox]
    simp [hm]
  have hpos : 0 < maxData := by decide
  have hahead : d.receiver.expected < (m + 1) * maxData := by
    rw [h.expected]
    exact Nat.mul_pos m.succ_pos hpos
  have hnew : (m + 1) * maxData ∉ d.receiver.pending := by
    intro hmem
    obtain ⟨x, hx⟩ := mem_parked_iff.mp hmem
    obtain ⟨i, _, hi, hk, _⟩ := (h.parked _ _).mp hx
    have := Nat.eq_of_mul_eq_mul_right hpos hk
    omega
  have hroom : d.receiver.bufferedBytes + c.length ≤ maxBuffered := by
    rw [h.buffered, hc, ← Nat.succ_mul]
    exact hwindow
  have hstep : d.step (.arrive (m + 2)) =
      d.receive (StreamSequence.encodeAt ((m + 1) * maxData) c) := by
    rw [step, hframe, Option.bind_some, dataFrame_inbound (le_of_eq hc)]
  obtain ⟨hserver, _⟩ := d.receive_fields (StreamSequence.encodeAt ((m + 1) * maxData) c)
  obtain ⟨hintact, hexp, hbuffer, hpend⟩ := receive_parks hfit hahead hnew hroom
  rw [hstep]
  refine ⟨⟨?_, ?_, ?_, ?_, ?_⟩, ⟨?_, ?_, ?_, fun k x => ?_⟩⟩
  · rw [hserver, hs.running]
  · rw [hserver, hs.streamId]
  · rw [hserver, hs.offset]
  · rw [hserver, hs.read]
  · rw [hserver, hs.outbox]
  · rw [hintact, h.intact]
  · rw [hexp, h.expected]
  · rw [hbuffer, h.buffered, hc, Nat.succ_mul]
  · rw [hpend, lookup_insert_eq_some, h.parked]
    constructor
    · rintro (⟨hk, hx⟩ | ⟨_, i, hi, him, hk, hx⟩)
      · exact ⟨m + 1, by omega, le_rfl, hk, hx⟩
      · exact ⟨i, hi, by omega, hk, hx⟩
    · rintro ⟨i, hi, him, hk, hx⟩
      by_cases him' : i = m + 1
      · subst him'
        exact .inl ⟨hk, hx⟩
      · refine .inr ⟨fun hk' => him' ?_, i, hi, by omega, hk, hx⟩
        exact Nat.eq_of_mul_eq_mul_right hpos (hk.symm.trans hk')

theorem stalled_of_arrivals (hc : c.length = maxData)
    (hs : d.Sent c n) (h : d.Stalled c 0) (hm : m < n) (hw : m * maxData ≤ maxBuffered) :
    (((List.range m).map (fun i => .arrive (i + 2))).foldl step d).Sent c n ∧
      (((List.range m).map (fun i => .arrive (i + 2))).foldl step d).Stalled c m := by
  induction m with
  | zero => exact ⟨hs, h⟩
  | succ _ ih =>
    have hmax : maxBuffered < 2 ^ 64 := by decide
    obtain ⟨hs', h'⟩ := ih (by omega) (by rw [Nat.succ_mul] at hw; omega)
    rw [List.range_succ, List.map_append, List.foldl_append]
    exact h'.succ hc hs' hm (by omega) hw

theorem Stalled.oneHole (hc : c.length = maxData) (hs : d.Sent c (m + 1))
    (h : d.Stalled c m) : d.OneHole 0 maxData := by
  refine ⟨by decide, ?_, fun i hi => ?_⟩
  · rw [hs.read, Nat.succ_mul]
    omega
  · rw [hs.read] at hi
    constructor
    · rintro (hlt | ⟨k, x, hx, hki, _⟩)
      · rw [ReorderReceiver.buffer_cursor, h.expected] at hlt
        omega
      · obtain ⟨j, hj, _, rfl, _⟩ := (h.parked k x).mp hx
        exact .inr ((Nat.le_mul_of_pos_left maxData hj).trans hki)
    · rintro (hlt | hle)
      · omega
      · have hp : 0 < maxData := by decide
        refine .inr ⟨i / maxData * maxData, c, (h.parked _ _).mpr ⟨i / maxData, ?_, ?_, rfl, rfl⟩,
          Nat.div_mul_le_self i maxData, ?_⟩
        · exact Nat.div_pos hle hp
        · exact Nat.lt_succ_iff.mp (Nat.div_lt_of_lt_mul (by rw [Nat.mul_comm]; exact hi))
        · rw [hc]
          exact Nat.lt_div_mul_add hp

def fullChunk : Bytes := List.replicate maxData 0

/-- The target delivers `m + 1` full chunks, and all but the first reach the client. -/
def lostFirst (m : ℕ) : List DownlinkEvent :=
  List.replicate (m + 1) (.serve (.select 0 0 (.read fullChunk true))) ++
    (List.range m).map (fun i => .arrive (i + 2))

theorem lostFirst_stalls (hw : m * maxData ≤ maxBuffered) :
    ((lostFirst m).foldl step { server := .start 7 0 true true }).Sent fullChunk (m + 1) ∧
      ((lostFirst m).foldl step { server := .start 7 0 true true }).Stalled fullChunk m := by
  have hc : fullChunk.length = maxData := List.length_replicate
  have hfit : maxBuffered + maxData < 2 ^ 64 := by decide
  obtain ⟨hs, hf⟩ := sent_of_reads hc (n := m + 1) (by rw [Nat.succ_mul]; omega)
  rw [lostFirst, List.foldl_append]
  exact stalled_of_arrivals hc hs hf m.lt_succ_self hw

theorem Stalled.missingOffset (h : d.Stalled c m) (hm : 0 < m) :
    d.receiver.missingOffset = some 0 := by
  have hw : d.receiver.isWaiting = true := by
    rw [ReorderReceiver.isWaiting_iff]
    exact ⟨1 * maxData, mem_parked_iff.mpr
      ⟨c, (h.parked _ _).mpr ⟨1, le_rfl, hm, rfl, rfl⟩⟩⟩
  rw [ReorderReceiver.missingOffset, if_pos hw, h.expected]

end LostChunk

/-- In every state the two ends can reach with one hole, the client's RESEND request is answered
exactly when the bytes sent from its missing offset on fit into the tail. -/
theorem resend_answered_iff_suffix_fits (streamId now : ℕ) (connected okQueued : Bool)
    (events : List DownlinkEvent) (m o stop : ℕ) (hrunning : (events.foldl step
      { server := .start streamId now connected okQueued }).server.ending = none)
    (hmissing : (events.foldl step
      { server := .start streamId now connected okQueued }).receiver.missingOffset = some m)
    (hhole : (events.foldl step
      { server := .start streamId now connected okQueued }).OneHole o stop) :
    let d := events.foldl step { server := .start streamId now connected okQueued }
    d.Answered m ↔ d.server.targetRead.length - m ≤ resendBufferBytes := by
  intro d
  have h : d.Linked := run_linked streamId now connected okQueued events
  have hm : d.receiver.expected = m := by
    rw [ReorderReceiver.missingOffset] at hmissing
    split_ifs at hmissing
    exact Option.some.inj hmissing
  have hle : d.receiver.expected ≤ o := expected_le_of_oneHole hhole
  have hlt : o < stop := hhole.1
  have hs : stop ≤ d.server.targetRead.length := hhole.2.1
  exact h.answered_iff hrunning (by omega)

theorem resend_answered_after_short_loss :
    ((lostFirst 1).foldl step { server := .start 7 0 true true }).OneHole 0 maxData ∧
      ((lostFirst 1).foldl step { server := .start 7 0 true true }).Answered 0 := by
  obtain ⟨hs, h⟩ := lostFirst_stalls (m := 1) (by decide)
  have hh := h.oneHole List.length_replicate hs
  have hi := resend_answered_iff_suffix_fits 7 0 true true (lostFirst 1) 0 0 maxData hs.running
    (h.missingOffset Nat.one_pos) hh
  refine ⟨hh, hi.mpr ?_⟩
  have hb : resendBufferBytes = 131072 := by decide
  have hd : maxData = 1280 := rfl
  rw [hs.read]
  omega

/-- The 130560 parked bytes are within the client's window, but of the 131840 bytes sent the tail
has dropped the first 768, which are among the 1280 missing: the request is not answered. -/
theorem lost_first_of_103_chunks_not_answered :
    let d := (lostFirst 102).foldl step { server := .start 7 0 true true }
    d.server.ending = none ∧ d.intact = true ∧ d.receiver.missingOffset = some 0 ∧
      d.OneHole 0 maxData ∧ ¬ d.Answered 0 := by
  have hl := run_linked 7 0 true true (lostFirst 102)
  obtain ⟨hs, h⟩ := lostFirst_stalls (m := 102) (by decide)
  refine ⟨hs.running, h.intact, h.missingOffset (by decide), h.oneHole List.length_replicate hs, ?_⟩
  have hb : resendBufferBytes = 131072 := by decide
  have hd : maxData = 1280 := rfl
  have ht := hs.read
  rw [hl.answered_iff hs.running (by omega)]
  omega

end Downlink
end Csqtt
