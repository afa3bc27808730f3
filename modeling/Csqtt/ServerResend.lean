import Csqtt.ServerProxy
import Csqtt.ReorderDelivery

/-!
# The resend tail

In every run the tail is the end of what was read from the target, up to its bound, and every DATA
frame carries a piece of what was read, under its true offset. A RESEND request is answered exactly
when the tail still has its offset, and then with everything from there on.
-/

namespace Csqtt

open Reassembly

theorem resendRange_isSome_iff (outTailLen outTotal offset : ℕ) :
    (resendRange outTailLen outTotal offset).isSome ↔
      outTotal - outTailLen ≤ offset ∧ offset < outTotal := by
  unfold resendRange
  dsimp only
  split_ifs with ho hl
  · simp
    omega
  · omega
  · simp
    omega

theorem resendRange_eq_some {outTailLen outTotal offset : ℕ}
    (h : outTotal - outTailLen ≤ offset ∧ offset < outTotal) :
    resendRange outTailLen outTotal offset = some (offset - (outTotal - outTailLen)) := by
  unfold resendRange
  rw [if_neg (by omega), if_neg (by omega)]

/-- The bytes of a frame stand in `S` where its offset says. -/
def Frame.Slices (f : Frame) (S : Bytes) : Prop :=
  ∃ o c, f.payload = StreamSequence.encodeAt o c ∧ c ≠ [] ∧ c.length ≤ maxData ∧
    c <+: S.drop o ∧ o + c.length < 2 ^ 64

variable {S : Bytes}

theorem prefix_drop_append {c : Bytes} {o : ℕ} (hne : c ≠ []) (h : c <+: S.drop o) (more : Bytes) :
    c <+: (S ++ more).drop o := by
  have hle : o ≤ S.length := by
    by_contra hlt
    rw [List.drop_eq_nil_of_le (by omega), List.prefix_nil] at h
    exact hne h
  rw [List.drop_append_of_le_length hle]
  exact h.trans (List.prefix_append _ _)

theorem Frame.Slices.append {f : Frame} (h : f.Slices S) (more : Bytes) : f.Slices (S ++ more) := by
  obtain ⟨o, c, hp, hne, hm, hc, hlt⟩ := h
  exact ⟨o, c, hp, hne, hm, prefix_drop_append hne hc more, hlt⟩

theorem Frame.Slices.exists_cut {f : Frame} (h : f.Slices S) :
    ∃ c : Cut (.addressable S), f.payload = c.payload := by
  obtain ⟨o, c, hp, hne, _, hc, hlt⟩ := h
  have hpos := List.length_pos_of_ne_nil hne
  have hl := hc.length_le
  rw [List.length_drop] at hl
  have hin : o + c.length ≤ (ByteStream.addressable S).bytes.length := by
    rw [ByteStream.addressable_bytes, List.length_take]
    omega
  have hchunk : c = ((S.take (2 ^ 64 - 1)).drop o).take c.length := by
    rw [List.drop_take, List.take_take, Nat.min_eq_left (by omega)]
    exact List.prefix_iff_eq_take.mp hc
  refine ⟨⟨o, c.length, hin⟩, ?_⟩
  rw [hp]
  exact congrArg _ hchunk

variable (bound : ℕ)

theorem keepLast_eq (S : Bytes) : keepLast bound S = S.drop (S.length - bound) := by
  rw [keepLast]
  split_ifs with hlt
  · rfl
  · rw [Nat.sub_eq_zero_of_le (by omega), List.drop_zero]

/-- Cutting the kept end of a list after every extension keeps the end of the whole. -/
theorem keepLast_append (S more : Bytes) :
    keepLast bound (keepLast bound S ++ more) = keepLast bound (S ++ more) := by
  have he : S.drop (S.length - bound) ++ more = (S ++ more).drop (S.length - bound) := by
    rw [List.drop_append_of_le_length (Nat.sub_le _ _)]
  rw [keepLast_eq, keepLast_eq, keepLast_eq, he, List.drop_drop, List.length_drop,
    List.length_append]
  congr 1
  omega

theorem length_keepLast (S : Bytes) : (keepLast bound S).length = min S.length bound := by
  rw [keepLast_eq, List.length_drop]
  omega

theorem drop_keepLast {bound : ℕ} {o : ℕ} (ho : S.length - min S.length bound ≤ o) :
    (keepLast bound S).drop (o - (S.length - min S.length bound)) = S.drop o := by
  rw [keepLast_eq, List.drop_drop]
  congr 1
  omega

namespace ServerStream

def pieceFrames (id o : ℕ) (cs : List Bytes) : List Frame :=
  (pieces o cs).map (fun p => dataFrame id p.1 p.2)

theorem resendLoop_cases (frames : ℕ) (s : ServerStream) (cursor : ℕ) (slice : Bytes)
    (failing : Option ℕ) : ∃ cs ending, resendLoop frames s cursor slice failing =
        { s with outbox := s.outbox ++ pieceFrames s.streamId cursor cs, ending } ∧
      (∀ c ∈ cs, c ≠ [] ∧ c.length ≤ maxData) ∧ cs.flatten <+: slice ∧
      (ending = none → s.ending = none) ∧
      (failing = none → ending = s.ending ∧
        (slice.length ≤ frames * maxData → cs.flatten = slice)) := by
  induction frames generalizing s cursor slice failing with
  | zero =>
    refine ⟨[], s.ending, by simp [resendLoop, pieceFrames, pieces], by simp,
      List.nil_prefix, id, fun _ => ⟨rfl, fun hlen => ?_⟩⟩
    rw [Nat.zero_mul, Nat.le_zero, List.length_eq_zero_iff] at hlen
    rw [hlen]
    rfl
  | succ frames ih =>
    rw [resendLoop]
    by_cases hnil : slice = []
    · subst hnil
      exact ⟨[], s.ending, by simp [pieceFrames, pieces], by simp, List.nil_prefix, id,
        fun _ => ⟨rfl, fun _ => rfl⟩⟩
    · rw [if_neg (by simpa using hnil)]
      by_cases hfail : failing = some 0
      · rw [if_pos hfail]
        exact ⟨[], some (.failed .sendFailed), by simp [fail, pieceFrames, pieces], by simp,
          List.nil_prefix, by simp, by simp [hfail]⟩
      · rw [if_neg hfail]
        obtain ⟨cs, ending, he, hcs, hpre, hend, hok⟩ := ih
          { s with outbox := s.outbox ++ [dataFrame s.streamId cursor (slice.take maxData)] }
          (cursor + (slice.take maxData).length) (slice.drop maxData) (failing.map (· - 1))
        have hsplit := List.take_append_drop maxData slice
        refine ⟨slice.take maxData :: cs, ending, ?_, ?_, ?_, hend, ?_⟩
        · rw [he, List.append_assoc]
          rfl
        · intro c hc
          obtain rfl | hc := List.mem_cons.mp hc
          · exact ⟨by simpa [maxData] using hnil, List.length_take_le _ _⟩
          · exact hcs c hc
        · have happ := (List.prefix_append_right_inj (slice.take maxData)).mpr hpre
          rwa [hsplit] at happ
        · intro hnone
          obtain ⟨hending, hflat⟩ := hok (by rw [hnone]; rfl)
          refine ⟨hending, fun hlen => ?_⟩
          have hdrop : (slice.drop maxData).length ≤ frames * maxData := by
            rw [List.length_drop]
            rw [Nat.succ_mul] at hlen
            omega
          rw [List.flatten_cons, hflat hdrop, hsplit]

theorem onResend_frame (s : ServerStream) (offset : ℕ) (failing : Option ℕ) (now : ℕ) :
    ∃ outbox lastActivity ending,
      s.onResend offset failing now = { s with outbox, lastActivity, ending } := by
  unfold onResend
  cases resendRange s.outTail.length s.sent.offset offset with
  | none => exact ⟨_, _, _, rfl⟩
  | some start =>
    obtain ⟨cs, ending, he, _⟩ := resendLoop_cases resendMaxFrames s offset
      (s.outTail.drop start) failing
    dsimp only
    rw [he]
    split_ifs
    · exact ⟨_, _, _, rfl⟩
    · exact ⟨_, _, _, rfl⟩

/-- No turn changes the stream id, and what was read from the target only grows. -/
theorem step_grows (s : ServerStream) (turn : ServerTurn) :
    (s.step turn).streamId = s.streamId ∧ s.targetRead <+: (s.step turn).targetRead := by
  obtain he | ⟨now, later, branch, hs, _, he⟩ | ⟨errorQueued, closeQueued, _, he⟩ :=
    s.step_cases turn <;> rw [he]
  · exact ⟨rfl, List.prefix_rfl⟩
  · obtain ⟨holeDeadline, hp⟩ := s.pollHole_cases now
    rw [hp]
    cases branch with
    | readFailed | stall => exact ⟨rfl, List.prefix_rfl⟩
    | read available queued =>
      rw [select]
      obtain hr | ⟨bytes, _, _, hr⟩ :=
        onRead_cases { s with holeDeadline } available queued later <;> rw [hr]
      · exact ⟨rfl, List.prefix_rfl⟩
      · obtain ⟨_, _, hd⟩ | ⟨_, hd⟩ := sendData_cases
          (heard { s with holeDeadline } bytes later) bytes queued <;> rw [hd]
        · exact ⟨rfl, List.prefix_append _ _⟩
        · exact ⟨rfl, List.prefix_append _ _⟩
    | input command failing =>
      rw [select]
      obtain _ | payload | offset | _ := command
      · exact ⟨rfl, List.prefix_rfl⟩
      · obtain ⟨_, _, _, hd⟩ := onData_cases { s with holeDeadline } hs payload failing later
        rw [onInput, hd]
        exact ⟨rfl, List.prefix_rfl⟩
      · obtain ⟨_, _, _, hd⟩ := onResend_frame { s with holeDeadline } offset failing later
        rw [onInput, hd]
        exact ⟨rfl, List.prefix_rfl⟩
      · exact ⟨rfl, List.prefix_rfl⟩
  · exact ⟨rfl, List.prefix_rfl⟩

structure Tailed (s : ServerStream) : Prop where
  tail : s.outTail = keepLast resendBufferBytes s.targetRead
  total : s.ending = none → s.sent.offset = s.targetRead.length
  fits : s.ending = none → s.targetRead.length < 2 ^ 64
  sliced : ∀ f ∈ s.outbox, f.streamId = s.streamId ∧ (f.kind = kindData → f.Slices s.targetRead)

variable {s : ServerStream}

theorem sendData_tailed (ht : s.outTail = keepLast resendBufferBytes s.targetRead)
    (hs : ∀ f ∈ s.outbox, f.streamId = s.streamId ∧ (f.kind = kindData → f.Slices s.targetRead))
    {before bytes : Bytes} (hr : s.targetRead = before ++ bytes)
    (ho : s.sent.offset = before.length) (hne : bytes ≠ []) (hm : bytes.length ≤ maxData)
    (queued : Bool) : (s.sendData bytes queued).Tailed := by
  have htotal : s.targetRead.length = before.length + bytes.length := by
    rw [hr, List.length_append]
  obtain ⟨sent, e, he⟩ | ⟨hfit, he⟩ := s.sendData_cases bytes queued
  · rw [he]
    exact ⟨ht, fun hn => (by cases hn), fun hn => (by cases hn), hs⟩
  · have hslice : (dataFrame s.streamId s.sent.offset bytes).Slices s.targetRead := by
      have hd : s.targetRead.drop s.sent.offset = bytes := by
        rw [hr, ho, List.drop_left]
      exact ⟨s.sent.offset, bytes, rfl, hne, hm, ⟨[], by rw [List.append_nil, hd]⟩, hfit⟩
    rw [he]
    refine ⟨ht, fun _ => ?_, fun _ => ?_, fun f hf => ?_⟩
    · change s.sent.offset + bytes.length = s.targetRead.length
      omega
    · change s.targetRead.length < 2 ^ 64
      omega
    · rw [List.mem_append, List.mem_singleton] at hf
      obtain hf | rfl := hf
      · exact hs f hf
      · exact ⟨rfl, fun _ => hslice⟩

theorem Tailed.onRead (h : s.Tailed) (hs : s.ending = none)
    (available : Bytes) (queued : Bool) (now : ℕ) : (s.onRead available queued now).Tailed := by
  obtain he | ⟨bytes, hne, hm, he⟩ := s.onRead_cases available queued now
  · rw [he]
    exact ⟨h.tail, fun hn => (by cases hn), fun hn => (by cases hn), h.sliced⟩
  · have ht : (s.heard bytes now).outTail =
        keepLast resendBufferBytes (s.targetRead ++ bytes) := by
      rw [heard, h.tail, keepLast_append]
    rw [he]
    exact sendData_tailed ht
      (fun f hf => ⟨(h.sliced f hf).1, fun hk => ((h.sliced f hf).2 hk).append bytes⟩)
      rfl (h.total hs) hne hm queued

theorem Tailed.onData (h : s.Tailed) (hs : s.ending = none) (payload : Bytes)
    (failing : Option ℕ) (now : ℕ) : (s.onData payload failing now).Tailed := by
  obtain ⟨output, ending, _, he⟩ := s.onData_cases hs payload failing now
  rw [he]
  exact ⟨h.tail, fun _ => h.total hs, fun _ => h.fits hs, h.sliced⟩

theorem Tailed.pieceFrames (h : s.Tailed) (hs : s.ending = none) {o : ℕ}
    {cs : List Bytes} (hcs : ∀ c ∈ cs, c ≠ [] ∧ c.length ≤ maxData)
    (hp : cs.flatten <+: s.targetRead.drop o) : ∀ f ∈ pieceFrames s.streamId o cs,
      f.streamId = s.streamId ∧ (f.kind = kindData → f.Slices s.targetRead) := by
  intro f hf
  rw [ServerStream.pieceFrames, List.mem_map] at hf
  obtain ⟨⟨k, c⟩, hm, rfl⟩ := hf
  obtain ⟨hne, hmax⟩ := hcs c (mem_of_mem_pieces hm)
  have hb := pieces_bounds hm
  obtain ⟨rest, hr⟩ := hp
  have hle : k - o ≤ cs.flatten.length := by omega
  have hd : s.targetRead.drop k = cs.flatten.drop (k - o) ++ rest := by
    rw [← List.drop_append_of_le_length hle, hr, List.drop_drop]
    congr 1
    omega
  have hw : c <+: s.targetRead.drop k := by
    rw [hd]
    exact (pieces_within hm).trans (List.prefix_append _ _)
  have he := hw.length_le
  rw [List.length_drop] at he
  have hpos := List.length_pos_of_ne_nil hne
  have hfits := h.fits hs
  exact ⟨rfl, fun _ => ⟨k, c, rfl, hne, hmax, hw, by omega⟩⟩

/-- The tail reaches `offset`. -/
def Reaches (s : ServerStream) (offset : ℕ) : Prop :=
  s.sent.offset - s.outTail.length ≤ offset ∧ offset < s.sent.offset

instance (s : ServerStream) (offset : ℕ) : Decidable (s.Reaches offset) := by
  unfold Reaches
  infer_instance

section

variable (h : s.Tailed)
include h

theorem Tailed.drop_outTail (hs : s.ending = none) {offset : ℕ} (hr : s.Reaches offset) :
    s.outTail.drop (offset - (s.sent.offset - s.outTail.length)) = s.targetRead.drop offset := by
  obtain ⟨hle, _⟩ := hr
  have hl : s.outTail.length = min s.targetRead.length resendBufferBytes := by
    rw [h.tail, length_keepLast]
  rw [h.total hs, hl] at hle ⊢
  rw [h.tail]
  exact drop_keepLast hle

theorem Tailed.onResend_cases (hs : s.ending = none) (offset : ℕ) (failing : Option ℕ) (now : ℕ) :
    ∃ cs lastActivity ending,
      s.onResend offset failing now = { s with
          outbox := s.outbox ++ ServerStream.pieceFrames s.streamId offset cs
          lastActivity, ending } ∧
      (∀ c ∈ cs, c ≠ [] ∧ c.length ≤ maxData) ∧ cs.flatten <+: s.targetRead.drop offset ∧
      (¬ s.Reaches offset → cs = []) ∧
      (failing = none → ending = none ∧
        (s.Reaches offset → cs.flatten = s.targetRead.drop offset)) := by
  unfold onResend
  by_cases hreach : s.Reaches offset
  · rw [resendRange_eq_some hreach]
    dsimp only
    rw [h.drop_outTail hs hreach]
    obtain ⟨cs, ending, he, hcs, hpre, _, hok⟩ := resendLoop_cases resendMaxFrames s offset
      (s.targetRead.drop offset) failing
    have hlen : (s.targetRead.drop offset).length ≤ resendMaxFrames * maxData := by
      rw [← h.drop_outTail hs hreach, List.length_drop, h.tail, length_keepLast]
      have hcap : resendBufferBytes ≤ resendMaxFrames * maxData := by decide
      omega
    rw [he]
    cases ending with
    | none =>
      exact ⟨cs, now, none, rfl, hcs, hpre, fun hn => absurd hreach hn,
        fun hf => ⟨rfl, fun _ => (hok hf).2 hlen⟩⟩
    | some ending =>
      refine ⟨cs, s.lastActivity, some ending, rfl, hcs, hpre, fun hn => absurd hreach hn,
        fun hf => ⟨?_, fun _ => (hok hf).2 hlen⟩⟩
      rw [(hok hf).1, hs]
  · have hnone : resendRange s.outTail.length s.sent.offset offset = none := by
      rw [← Option.not_isSome_iff_eq_none, resendRange_isSome_iff]
      exact hreach
    rw [hnone]
    refine ⟨[], s.lastActivity, s.ending, ?_, by simp, List.nil_prefix, fun _ => rfl,
      fun _ => ⟨hs, fun hr => absurd hr hreach⟩⟩
    simp [ServerStream.pieceFrames, pieces]

theorem Tailed.onInput (hs : s.ending = none) (command : Option StreamInput) (failing : Option ℕ)
    (now : ℕ) : (s.onInput command failing now).Tailed := by
  obtain _ | payload | offset | _ := command
  · exact ⟨h.tail, fun hn => (by cases hn), fun hn => (by cases hn), h.sliced⟩
  · exact h.onData hs payload failing now
  · obtain ⟨cs, lastActivity, ending, he, hcs, hp, _, _⟩ :=
      h.onResend_cases hs offset failing now
    rw [ServerStream.onInput, he]
    refine ⟨h.tail, fun _ => h.total hs, fun _ => h.fits hs, fun f hf => ?_⟩
    rw [List.mem_append] at hf
    obtain hf | hf := hf
    · exact h.sliced f hf
    · exact h.pieceFrames hs hcs hp f hf
  · exact ⟨h.tail, fun hn => (by cases hn), fun hn => (by cases hn), h.sliced⟩

theorem Tailed.select (hs : s.ending = none) (later : ℕ) (branch : ServerBranch) :
    (s.select later branch).Tailed := by
  cases branch with
  | readFailed => exact ⟨h.tail, fun hn => (by cases hn), fun hn => (by cases hn), h.sliced⟩
  | read available queued => exact h.onRead hs available queued later
  | input command failing => exact h.onInput hs command failing later
  | stall => exact ⟨h.tail, fun hn => (by cases hn), fun hn => (by cases hn), h.sliced⟩

theorem step_tailed (turn : ServerTurn) : (s.step turn).Tailed := by
  obtain he | ⟨now, later, branch, hs, _, he⟩ | ⟨errorQueued, closeQueued, _, he⟩ :=
    s.step_cases turn <;> rw [he]
  · exact h
  · obtain ⟨holeDeadline, hp⟩ := s.pollHole_cases now
    rw [hp]
    have hpoll : Tailed { s with holeDeadline } := ⟨h.tail, h.total, h.fits, h.sliced⟩
    exact hpoll.select hs later branch
  · refine ⟨h.tail, h.total, h.fits, fun f hf => ?_⟩
    rw [release, List.mem_append, List.mem_append] at hf
    obtain (hf | hf) | hf := hf
    · exact h.sliced f hf
    · rw [mem_queue hf]
      exact ⟨rfl, fun hk => absurd hk kindOpenErr_ne_kindData⟩
    · rw [mem_queue hf]
      exact ⟨rfl, fun hk => absurd hk kindClose_ne_kindData⟩

end

variable (streamId now : ℕ) (connected okQueued : Bool)

theorem start_streamId : (start streamId now connected okQueued).streamId = streamId := by
  cases connected <;> cases okQueued <;> rfl

theorem start_tailed : (start streamId now connected okQueued).Tailed := by
  have hn : (start streamId now connected okQueued).targetRead = [] ∧
      (start streamId now connected okQueued).outTail = [] ∧
      (start streamId now connected okQueued).sent = {} ∧
      ∀ f ∈ (start streamId now connected okQueued).outbox, f = ⟨kindOpenOk, streamId, []⟩ := by
    cases connected with
    | false => exact ⟨rfl, rfl, rfl, by simp [start, fail]⟩
    | true =>
      cases okQueued with
      | false => exact ⟨rfl, rfl, rfl, by simp [start, fail]⟩
      | true => exact ⟨rfl, rfl, rfl, by simp [start]⟩
  obtain ⟨hr, ht, hs, ho⟩ := hn
  refine ⟨?_, fun _ => ?_, fun _ => ?_, fun f hf => ?_⟩
  · rw [hr, ht]
    rfl
  · rw [hr, hs]
    rfl
  · rw [hr]
    decide
  · rw [ho f hf, start_streamId]
    exact ⟨rfl, fun hk => absurd hk kindOpenOk_ne_kindData⟩

theorem run_tailed (turns : List ServerTurn) :
    (turns.foldl step (start streamId now connected okQueued)).Tailed :=
  List.foldlRecOn turns step (start_tailed streamId now connected okQueued)
    (fun _ h turn _ => step_tailed h turn)

theorem Tailed.step_resend (h : s.Tailed) (hs : s.ending = none) (now later offset : ℕ) :
    ∃ cs : List Bytes, (s.step (.select now later (.input (some (.resend offset)) none))).outbox =
        s.outbox ++ ServerStream.pieceFrames s.streamId offset cs ∧
      (∀ c ∈ cs, c ≠ [] ∧ c.length ≤ maxData) ∧
      (s.Reaches offset → cs.flatten = s.targetRead.drop offset) ∧
      (¬ s.Reaches offset → cs = []) := by
  obtain ⟨holeDeadline, hp⟩ := step_select hs now later (.input (some (.resend offset)) none)
    (fun _ => rfl)
  have hpoll : Tailed { s with holeDeadline } := ⟨h.tail, h.total, h.fits, h.sliced⟩
  obtain ⟨cs, _, _, he, hcs, _, hn, hok⟩ := hpoll.onResend_cases hs offset none later
  refine ⟨cs, ?_, hcs, (hok rfl).2, hn⟩
  rw [hp, ServerStream.select, ServerStream.onInput, he]

/-- After any history the tail is the end of what was read from the target. While the loop runs, a
RESEND whose sends succeed is answered exactly when the tail has its offset, with consecutive chunks
of at most `maxData` bytes under their true offsets that make up everything from there on. -/
theorem resend_replays_exactly (streamId now : ℕ) (connected okQueued : Bool)
    (turns : List ServerTurn) :
    let s := turns.foldl step (start streamId now connected okQueued)
    s.outTail = s.targetRead.drop (s.targetRead.length - resendBufferBytes) ∧
      (s.ending = none → s.sent.offset = s.targetRead.length ∧
        ∀ now later offset, ∃ cs : List Bytes,
          (s.step (.select now later (.input (some (.resend offset)) none))).outbox =
            s.outbox ++ ServerStream.pieceFrames s.streamId offset cs ∧
          (∀ c ∈ cs, c ≠ [] ∧ c.length ≤ maxData) ∧
          (s.targetRead.length - s.outTail.length ≤ offset ∧ offset < s.targetRead.length →
            cs ≠ [] ∧ cs.flatten = s.targetRead.drop offset) ∧
          (¬ (s.targetRead.length - s.outTail.length ≤ offset ∧
            offset < s.targetRead.length) → cs = [])) := by
  intro s
  have h : s.Tailed := run_tailed streamId now connected okQueued turns
  refine ⟨by rw [h.tail, keepLast_eq], fun hs => ⟨h.total hs, fun now later offset => ?_⟩⟩
  obtain ⟨cs, ho, hcs, ha, hn⟩ := h.step_resend hs now later offset
  rw [Reaches, h.total hs] at ha hn
  refine ⟨cs, ho, hcs, fun hr => ⟨?_, ha hr⟩, hn⟩
  intro hnil
  have hf := ha hr
  rw [hnil, List.flatten_nil, eq_comm, List.drop_eq_nil_iff] at hf
  omega

/-- Three bytes are read and the last two of them asked for again. -/
theorem resend_replays_two_of_three :
    let s := [ServerTurn.select 0 0 (.read [1, 2, 3] true)].foldl step (start 7 0 true true)
    s.ending = none ∧ ∃ cs : List Bytes,
      (s.step (.select 1 1 (.input (some (.resend 1)) none))).outbox =
        s.outbox ++ ServerStream.pieceFrames 7 1 cs ∧ cs.flatten = [2, 3] := by
  have hr := resend_replays_exactly 7 0 true true [.select 0 0 (.read [1, 2, 3] true)]
  have hs : ([ServerTurn.select 0 0 (.read [1, 2, 3] true)].foldl step
      (start 7 0 true true)).ending = none := by decide
  obtain ⟨cs, ho, _, ha, _⟩ := (hr.2 hs).2 1 1 1
  exact ⟨hs, cs, ho, (ha (by decide)).2⟩

end ServerStream
end Csqtt
