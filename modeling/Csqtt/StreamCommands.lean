import Csqtt.ClientRepair
import Csqtt.StreamRetention

/-!
# Frames of the streams as the client reads them

The client takes a frame only if its worker ids are within the count in the same frame. When missing
workers are back, or no longer wanted, their ids are sent with the count that is wanted then; the
client understands the frame exactly if none of the ids is above it.
-/

namespace Csqtt

/-- The numbers of two bytes each; a byte that is left over belongs to none. -/
def readU16s : Bytes → List ℕ
  | a :: b :: rest => BigEndian.value [a, b] :: readU16s rest
  | _ => []

theorem value_take_lt (bytes : Bytes) (n : ℕ) : BigEndian.value (bytes.take n) < 256 ^ n :=
  (BigEndian.value_lt _).trans_le (Nat.pow_le_pow_right (by decide) (List.length_take_le n bytes))

/-- The command after the start of a frame. -/
def parseStreamFields (rest : Bytes) : Option StreamRepairCommand :=
  let command : StreamRepairCommand :=
    { sequence := BigEndian.value (rest.take 8)
      desiredCount := BigEndian.value ((rest.drop 8).take 2)
      workerIds := readU16s (rest.drop 11)
      sequence_lt := value_take_lt rest 8 }
  if rest.length < 11 then none
  else if command.sequence = 0 ∨ command.desiredCount = 0 ∨
    maxStreamWorkers < command.desiredCount ∨
      (rest.drop 11).length ≠ (rest.getD 10 0).toNat * 2 then none
  else if command.workerIds.any (fun id => id = 0 ∨ command.desiredCount < id) then none
  else if command.workerIds = [] then none
  else some command

def parseStreamCommand (payload start : Bytes) : Option StreamRepairCommand :=
  if start.isPrefixOf payload then parseStreamFields (payload.drop start.length) else none

def parseStreamRepair (payload : Bytes) : Option StreamRepairCommand :=
  parseStreamCommand payload streamRepairStart

def parseStreamAlive (payload : Bytes) : Option StreamRepairCommand :=
  parseStreamCommand payload streamAliveStart

/-! ## What is understood -/

theorem length_readU16s (bytes : Bytes) : (readU16s bytes).length = bytes.length / 2 := by
  induction bytes using readU16s.induct with
  | case1 _ _ _ ih =>
    rw [readU16s, List.length_cons, List.length_cons, List.length_cons]
    omega
  | case2 bytes hne =>
    match bytes with
    | [] => rfl
    | [a] => simp [readU16s]
    | a :: b :: rest => exact absurd rfl (hne a b rest)

theorem readU16s_encode {ids : List ℕ} (h : ∀ id ∈ ids, id < 256 ^ 2) :
    readU16s (ids.flatMap (BigEndian.encode 2)) = ids := by
  induction ids with
  | nil => rfl
  | cons id ids ih =>
    have hid : BigEndian.value (BigEndian.encode 2 id) = id :=
      BigEndian.value_encode_of_lt (h id List.mem_cons_self)
    change BigEndian.value (BigEndian.encode 2 id) :: readU16s
      (ids.flatMap (BigEndian.encode 2)) = _
    rw [hid, ih fun other ho => h other (List.mem_cons_of_mem _ ho)]

namespace StreamFrame

/-- What the client makes of a frame. -/
def parse (f : StreamFrame) : Option StreamRepairCommand :=
  if f.repair then parseStreamRepair f.payload else parseStreamAlive f.payload

def Understood (f : StreamFrame) : Prop :=
  ∃ c, f.parse = some c ∧ c.sequence = f.sequence ∧ c.desiredCount = f.desiredCount ∧
    c.workerIds = f.workerIds

structure WellFormed (f : StreamFrame) : Prop where
  sequence : 0 < f.sequence ∧ f.sequence < 2 ^ 64
  desiredCount : 1 ≤ f.desiredCount ∧ f.desiredCount ≤ maxStreamWorkers
  length : f.workerIds.length ≤ 255
  nonempty : f.workerIds ≠ []
  workerIds : ∀ id ∈ f.workerIds, 1 ≤ id ∧ id ≤ f.desiredCount

def fields (f : StreamFrame) : Bytes :=
  let count := min f.workerIds.length 255
  BigEndian.encode 8 f.sequence ++ (BigEndian.encode 2 f.desiredCount ++ (UInt8.ofNat count ::
    (f.workerIds.take count).flatMap (BigEndian.encode 2)))

theorem parse_eq (f : StreamFrame) : f.parse = parseStreamFields f.fields := by
  have hs : ∀ start : Bytes,
      parseStreamCommand (streamControlPayload start f.sequence f.desiredCount f.workerIds) start =
        parseStreamFields f.fields := by
    intro start
    have hp : streamControlPayload start f.sequence f.desiredCount f.workerIds =
        start ++ f.fields := by
      simp only [streamControlPayload, fields, List.append_assoc, List.singleton_append]
    rw [parseStreamCommand, hp, if_pos (List.isPrefixOf_iff_prefix.mpr (List.prefix_append ..)),
      List.drop_left]
  unfold parse payload
  split_ifs
  · exact hs streamRepairStart
  · exact hs streamAliveStart

theorem length_flatMap_encode (ids : List ℕ) :
    (ids.flatMap (BigEndian.encode 2)).length = ids.length * 2 := by
  simp

namespace WellFormed

variable {f : StreamFrame}

section

variable (h : f.WellFormed)
include h

theorem sequence_fields : BigEndian.value (f.fields.take 8) = f.sequence := by
  have ht : f.fields.take 8 = BigEndian.encode 8 f.sequence := rfl
  rw [ht]
  exact BigEndian.value_encode_of_lt h.sequence.2

theorem desiredCount_fields : BigEndian.value ((f.fields.drop 8).take 2) = f.desiredCount := by
  have ht : (f.fields.drop 8).take 2 = BigEndian.encode 2 f.desiredCount := rfl
  rw [ht]
  exact BigEndian.value_encode_of_lt (h.desiredCount.2.trans_lt (by decide))

theorem drop_fields : f.fields.drop 11 = f.workerIds.flatMap (BigEndian.encode 2) := by
  have hd : f.fields.drop 11 =
      (f.workerIds.take (min f.workerIds.length 255)).flatMap (BigEndian.encode 2) := rfl
  rw [hd, Nat.min_eq_left h.length, List.take_length]

theorem workerIds_fields : readU16s (f.fields.drop 11) = f.workerIds := by
  rw [h.drop_fields]
  refine readU16s_encode fun id hid => ?_
  exact ((h.workerIds id hid).2.trans h.desiredCount.2).trans_lt (by decide)

theorem count_fields : (f.fields.drop 11).length = (f.fields.getD 10 0).toNat * 2 := by
  have hg : f.fields.getD 10 0 = UInt8.ofNat (min f.workerIds.length 255) := rfl
  rw [h.drop_fields, length_flatMap_encode, hg, Nat.min_eq_left h.length,
    UInt8.toNat_ofNat_of_lt' (Nat.lt_succ_of_le h.length)]

theorem understood : f.Understood := by
  have hl : ¬ f.fields.length < 11 := by
    simp [fields]
    omega
  have hh : ¬ (f.sequence = 0 ∨ f.desiredCount = 0 ∨ maxStreamWorkers < f.desiredCount ∨
      (f.fields.drop 11).length ≠ (f.fields.getD 10 0).toNat * 2) := by
    have hp := h.sequence.1
    have hr := h.desiredCount
    rw [not_or, not_or, not_or, not_not]
    exact ⟨by omega, by omega, by omega, h.count_fields⟩
  have hv : f.workerIds.any (fun id => id = 0 ∨ f.desiredCount < id) = false := by
    rw [List.any_eq_false]
    intro id hid
    have hr := h.workerIds id hid
    rw [decide_eq_true_iff]
    omega
  refine ⟨⟨f.sequence, f.desiredCount, f.workerIds, h.sequence.2⟩, ?_, rfl, rfl, rfl⟩
  rw [parse_eq, parseStreamFields]
  simp only [h.sequence_fields, h.desiredCount_fields, h.workerIds_fields]
  rw [if_neg hl, if_neg hh, hv, if_neg Bool.false_ne_true, if_neg h.nonempty]

end

end WellFormed

/-- What the client accepts is well formed, with at most as many workers as a byte can count. -/
theorem parseStreamFields_spec {rest : Bytes} {c : StreamRepairCommand}
    (h : parseStreamFields rest = some c) :
    0 < c.sequence ∧ (1 ≤ c.desiredCount ∧ c.desiredCount ≤ maxStreamWorkers) ∧
      c.workerIds.length ≤ 255 ∧ c.workerIds ≠ [] ∧
      ∀ id ∈ c.workerIds, 1 ≤ id ∧ id ≤ c.desiredCount := by
  unfold parseStreamFields at h
  dsimp only at h
  split_ifs at h with hl hh hv he
  cases h
  rw [not_or, not_or, not_or, not_not] at hh
  obtain ⟨hs, hz, hm, hc⟩ := hh
  refine ⟨Nat.pos_of_ne_zero hs, ⟨Nat.pos_of_ne_zero hz, Nat.le_of_not_lt hm⟩, ?_, he,
    fun id hid => ?_⟩
  · have hb := (rest.getD 10 0).toNat_lt
    rw [length_readU16s]
    omega
  · have hid := List.any_eq_false.mp (Bool.eq_false_of_not_eq_true hv) id hid
    rw [decide_eq_true_iff, not_or] at hid
    exact ⟨Nat.pos_of_ne_zero hid.1, Nat.le_of_not_lt hid.2⟩

theorem understood_iff {f : StreamFrame} : f.Understood ↔ f.WellFormed := by
  constructor
  · rintro ⟨c, hp, hseq, hd, hw⟩
    rw [parse_eq] at hp
    have hs := parseStreamFields_spec hp
    have hlt := c.sequence_lt
    rw [hseq, hd, hw] at hs
    rw [hseq] at hlt
    exact ⟨⟨hs.1, hlt⟩, hs.2.1, hs.2.2.1, hs.2.2.2.1, hs.2.2.2.2⟩
  · exact WellFormed.understood

end StreamFrame

/-! ## What a round sends -/

theorem StreamInventory.mem_fillMissing {i : StreamInventory} {id : ℕ} (h : id ∈ i.fillMissing) :
    1 ≤ id ∧ id ≤ i.desiredCount ∧ id ≤ maxStreamWorkers := by
  have hr := List.mem_range'_1.mp (List.mem_filter.mp h).1
  omega

theorem StreamInventory.length_fillMissing_le (i : StreamInventory) :
    i.fillMissing.length ≤ 255 := by
  have hl := List.length_filter_le (· ∉ i.present)
    (List.range' 1 (min i.desiredCount maxStreamWorkers))
  have hm : maxStreamWorkers ≤ 255 := by decide
  rw [List.length_range'] at hl
  unfold fillMissing
  omega

namespace StreamRepairRound

variable {r : StreamRepairRound} {streams : StreamInventory} {nowMs : ℕ}

/-- What holds of a round whatever the counts were. -/
structure Valid (r : StreamRepairRound) : Prop where
  sequence : r.sequence < 2 ^ 64
  numbered : r.lastMissing ≠ [] → 0 < r.sequence
  missing : ∀ id ∈ r.lastMissing, 1 ≤ id
  length : r.lastMissing.length ≤ 255
  silent : r.lastMissing ≠ [] → r.aliveIds = []

theorem nextSequence_spec (sequence : ℕ) :
    0 < nextSequence sequence ∧ nextSequence sequence < 2 ^ 64 := by
  unfold nextSequence
  omega

theorem Valid.noteMissing (h : r.Valid) (streams : StreamInventory) (nowMs : ℕ) :
    (r.noteMissing streams.fillMissing nowMs).Valid := by
  unfold StreamRepairRound.noteMissing
  split_ifs
  · exact
      { sequence := (nextSequence_spec _).2
        numbered := fun _ => (nextSequence_spec _).1
        missing := fun id hid => (StreamInventory.mem_fillMissing hid).1
        length := streams.length_fillMissing_le
        silent := fun _ => rfl }
  · exact h

theorem Valid.sendRepair (h : r.Valid) (nowMs : ℕ) : (r.sendRepair nowMs).Valid := by
  have hn := nextSequence_spec r.sequence
  have hs := h.sequence
  have hnumbered := h.numbered
  refine ⟨?_, ?_, h.missing, h.length, h.silent⟩
  · unfold StreamRepairRound.sendRepair
    split_ifs
    · exact hn.2
    · exact hs
  · intro hm
    unfold StreamRepairRound.sendRepair
    split_ifs
    · exact hn.1
    · exact hnumbered hm

theorem Valid.recovered (h : r.Valid) (desiredCount nowMs : ℕ) :
    (r.recovered desiredCount nowMs).Valid := by
  unfold StreamRepairRound.recovered
  split_ifs
  · exact h
  · exact ⟨h.sequence, fun hne => absurd rfl hne, by simp, by simp, fun hne => absurd rfl hne⟩

theorem Valid.alivePayload (h : r.Valid) (nowMs : ℕ) : (r.alivePayload nowMs).1.Valid := by
  obtain hq | ⟨-, hs⟩ := r.alivePayload_cases nowMs
  · rw [hq]
    exact h
  · rw [hs]
    exact ⟨h.sequence, h.numbered, h.missing, h.length, h.silent⟩

theorem Valid.reconcile (h : r.Valid) (streams : StreamInventory) (nowMs : ℕ) :
    (r.reconcile streams nowMs).1.Valid := by
  have hs : Valid { r with lastSeenMs := nowMs } :=
    ⟨h.sequence, h.numbered, h.missing, h.length, h.silent⟩
  have hn := hs.noteMissing streams nowMs
  unfold StreamRepairRound.reconcile
  split_ifs
  · exact (hs.recovered _ nowMs).alivePayload nowMs
  · obtain hq | ⟨-, hsends⟩ := repairPayload_cases { r with lastSeenMs := nowMs }
      streams.fillMissing streams.desiredCount nowMs
    · rw [hq]
      exact hn
    · rw [hsends]
      exact hn.sendRepair nowMs

theorem valid_default : Valid {} :=
  ⟨by decide, fun hne => absurd rfl hne, by simp, by simp, fun hne => absurd rfl hne⟩

theorem reconcile_of_recovered (hm : streams.fillMissing = []) (hl : r.lastMissing ≠ [])
    (nowMs : ℕ) :
    (r.reconcile streams nowMs).2 = some ⟨false, r.sequence, streams.desiredCount, r.lastMissing⟩ ∧
      (r.reconcile streams nowMs).1.aliveFrame =
        ⟨false, r.sequence, streams.desiredCount, r.lastMissing⟩ := by
  have hs : ¬ (r.lastMissing = [] ∨ streamAliveRepeat ≤ 0 ∨
      (0 ≠ 0 ∧ nowMs - 0 < streamAliveIntervalMs)) := by
    rintro (he | hr | hw)
    · exact hl he
    · exact absurd hr (by decide)
    · exact hw.1 rfl
  rw [reconcile, if_pos hm, recovered, if_neg hl, alivePayload, if_neg hs]
  exact ⟨rfl, rfl⟩

theorem reconcile_of_present (hm : streams.fillMissing = []) (hl : r.lastMissing = [])
    (nowMs : ℕ) :
    (∀ f, (r.reconcile streams nowMs).2 = some f → r.aliveIds ≠ [] ∧ f = r.aliveFrame) ∧
      (r.reconcile streams nowMs).1.aliveFrame = r.aliveFrame := by
  rw [reconcile, if_pos hm, recovered, if_pos hl]
  obtain hq | ⟨hne, hs⟩ := alivePayload_cases { r with lastSeenMs := nowMs } nowMs
  · rw [hq]
    refine ⟨fun f hf => ?_, rfl⟩
    cases hf
  · rw [hs]
    refine ⟨fun f hf => ?_, rfl⟩
    cases hf
    exact ⟨hne, rfl⟩

theorem reconcile_of_missing (h : r.Valid) (hm : streams.fillMissing ≠ []) (nowMs : ℕ) :
    (∀ f, (r.reconcile streams nowMs).2 = some f → ∃ sequence, 0 < sequence ∧ sequence < 2 ^ 64 ∧
      f = ⟨true, sequence, streams.desiredCount, streams.fillMissing⟩) ∧
      (r.reconcile streams nowMs).1.aliveIds = [] := by
  have hseen : Valid { r with lastSeenMs := nowMs } :=
    ⟨h.sequence, h.numbered, h.missing, h.length, h.silent⟩
  have hn := hseen.noteMissing streams nowMs
  have hl := lastMissing_noteMissing { r with lastSeenMs := nowMs } streams.fillMissing nowMs
  have hne := hl ▸ hm
  rw [reconcile, if_neg hm]
  obtain hq | ⟨-, hsends⟩ := repairPayload_cases { r with lastSeenMs := nowMs }
    streams.fillMissing streams.desiredCount nowMs
  · rw [hq]
    refine ⟨fun f hf => ?_, hn.silent hne⟩
    cases hf
  · have hs := hn.sendRepair nowMs
    rw [hsends]
    refine ⟨fun f hf => ?_, hn.silent hne⟩
    cases hf
    exact ⟨_, hs.numbered hne, hs.sequence, rfl⟩

end StreamRepairRound

/-! ## The counts of the inventory -/

/-- What was seen has a count that the server takes, and nothing was seen before the first session.
-/
structure StreamInventory.Counted (i : StreamInventory) : Prop where
  seen : i.seen = true → 1 ≤ i.desiredCount ∧ i.desiredCount ≤ maxStreamWorkers
  unseen : i.seen = false → i.desiredSessionId = 0

theorem StreamInventory.counted_new : StreamInventory.new.Counted :=
  ⟨fun hs => absurd hs Bool.false_ne_true, fun _ => rfl⟩

theorem StreamInventory.Counted.observe {i : StreamInventory} (h : i.Counted) {s : HotSession}
    (hs : 1 ≤ s.desiredStreamCount ∧ s.desiredStreamCount ≤ maxStreamWorkers) (slot workerId : ℕ) :
    (i.observe slot s workerId).Counted := by
  refine ⟨fun _ => ?_, fun hu => by cases hu⟩
  unfold StreamInventory.observe
  dsimp only
  split_ifs with hid
  · exact hs
  · apply h.seen
    by_contra hu
    rw [h.unseen (Bool.eq_false_of_not_eq_true hu)] at hid
    exact hid (Nat.zero_le _)

namespace Engine

variable {e : Engine}

theorem streamWorker_spec {s : HotSession} {workerId : ℕ} (h : e.streamWorker s = some workerId) :
    1 ≤ s.desiredStreamCount ∧ s.desiredStreamCount ≤ maxStreamWorkers := by
  unfold streamWorker at h
  split_ifs at h with hc
  rw [not_or, not_or] at hc
  exact ⟨Nat.pos_of_ne_zero hc.1, Nat.le_of_not_lt hc.2.1⟩

theorem counted_observeSlot {inventory : StreamInventories}
    (h : ∀ identity streams, inventory.lookup identity = some streams → streams.Counted)
    (entry : ℕ × HotSession) (identity : Identity) (streams : StreamInventory)
    (hs : (e.observeSlot inventory entry).lookup identity = some streams) : streams.Counted := by
  unfold observeSlot at hs
  split at hs
  · exact h identity streams hs
  · rename_i workerId hw
    by_cases hid : identity = entry.2.identity
    · rw [hid, AList.lookup_insert] at hs
      cases hs
      apply StreamInventory.Counted.observe _ (streamWorker_spec hw)
      cases hl : inventory.lookup entry.2.identity with
      | none => exact StreamInventory.counted_new
      | some old => exact h _ old hl
    · rw [AList.lookup_insert_ne hid] at hs
      exact h identity streams hs

theorem desiredCount_readStreams {inventory : StreamInventories} {identity : Identity}
    {streams : StreamInventory} (h : (e.readStreams inventory).lookup identity = some streams) :
    1 ≤ streams.desiredCount ∧ streams.desiredCount ≤ maxStreamWorkers := by
  have hr : ∀ identity streams,
      (inventory.mapValues fun _ i => i.reset).lookup identity = some streams →
      streams.Counted := by
    intro identity streams hs
    rw [AList.lookup_mapValues] at hs
    obtain ⟨old, -, rfl⟩ := Option.map_eq_some_iff.mp hs
    exact StreamInventory.counted_new
  have hf := List.foldlRecOn (motive := fun inventory : StreamInventories =>
      ∀ identity streams, inventory.lookup identity = some streams → streams.Counted)
    e.sessions.slots e.observeSlot hr fun _ h entry _ => counted_observeSlot h entry
  rw [readStreams, AList.lookup_filterValues] at h
  obtain ⟨hl, hseen⟩ := Option.filter_eq_some_iff.mp h
  exact (hf identity streams hl).seen hseen

end Engine

namespace StreamPlane

open StreamRepairRound

variable {cfg : ServerConfig} {p : StreamPlane} {io : StreamTickIo}

/-- What holds of the tables whatever the counts were. -/
structure Sound (p : StreamPlane) : Prop where
  inventory : ∀ identity streams, p.inventory.lookup identity = some streams →
    1 ≤ streams.desiredCount ∧ streams.desiredCount ≤ maxStreamWorkers
  rounds : ∀ identity, (p.repairs.round identity).Valid
  announced : ∀ identity, (p.repairs.round identity).aliveIds ≠ [] →
    (identity, (p.repairs.round identity).aliveFrame) ∈ p.emitted

variable {streams : StreamInventory} {identity : Identity}

theorem Sound.nextInventory (h : p.Sound)
    (hs : (p.nextInventory cfg io).lookup identity = some streams) :
    1 ≤ streams.desiredCount ∧ streams.desiredCount ≤ maxStreamWorkers := by
  unfold StreamPlane.nextInventory at hs
  split_ifs at hs
  · exact Engine.desiredCount_readStreams hs
  · exact h.inventory identity streams hs

theorem mem_emitted_reconcileStreams (hd : p.due io = true) {frame : StreamFrame}
    (hs : (p.nextInventory cfg io).lookup identity = some streams)
    (hf : ((p.repairs.round identity).reconcile streams io.nowMs).2 = some frame) :
    (identity, frame) ∈ (p.reconcileStreams cfg io).emitted := by
  obtain ⟨a, ha, rfl, rfl⟩ := StreamRepairs.exists_action hs hf
  rw [emitted_reconcileStreams, actions, if_pos hd]
  exact List.mem_append_right _ (List.mem_map.mpr ⟨a, ha, rfl⟩)

/-- A round announces what it has sent: what is back is sent at once, and the number stays as long
as it is announced. -/
theorem Sound.announced_reconcile (h : p.Sound) (hd : p.due io = true)
    (hstream : (p.nextInventory cfg io).lookup identity = some streams)
    (ha : ((p.repairs.round identity).reconcile streams io.nowMs).1.aliveIds ≠ []) :
    (identity, ((p.repairs.round identity).reconcile streams io.nowMs).1.aliveFrame) ∈
      (p.reconcileStreams cfg io).emitted := by
  by_cases hm : streams.fillMissing = []
  · by_cases hl : (p.repairs.round identity).lastMissing = []
    · obtain ⟨-, hs⟩ := reconcile_of_present hm hl io.nowMs
      have hid : ((p.repairs.round identity).reconcile streams io.nowMs).1.aliveIds =
          (p.repairs.round identity).aliveIds := congrArg StreamFrame.workerIds hs
      rw [hs, emitted_reconcileStreams]
      exact List.mem_append_left _ (h.announced identity (hid ▸ ha))
    · obtain ⟨hf, hs⟩ := reconcile_of_recovered hm hl io.nowMs
      rw [hs]
      exact mem_emitted_reconcileStreams hd hstream hf
  · exact absurd (reconcile_of_missing (h.rounds identity) hm io.nowMs).2 ha

theorem Sound.reconcileStreams (h : p.Sound) (hd : p.due io = true) :
    (p.reconcileStreams cfg io).Sound where
  inventory identity streams hstream := by
    rw [inventory_reconcileStreams] at hstream
    exact h.nextInventory hstream
  rounds identity := by
    rw [repairs_reconcileStreams hd]
    cases hl : (p.nextInventory cfg io).lookup identity with
    | some streams =>
      rw [StreamRepairs.round_reconcile_of_some hl]
      exact (h.rounds identity).reconcile streams io.nowMs
    | none =>
      obtain hs | hdrop := StreamRepairs.round_reconcile_cases p.repairs io.nowMs hl
      · rw [hs]
        exact h.rounds identity
      · rw [hdrop]
        exact valid_default
  announced identity := by
    rw [repairs_reconcileStreams hd]
    cases hl : (p.nextInventory cfg io).lookup identity with
    | some =>
      rw [StreamRepairs.round_reconcile_of_some hl]
      exact h.announced_reconcile hd hl
    | none =>
      obtain hs | hdrop := StreamRepairs.round_reconcile_cases p.repairs io.nowMs hl
      · rw [hs, emitted_reconcileStreams]
        exact fun ha => List.mem_append_left _ (h.announced identity ha)
      · rw [hdrop]
        exact fun ha => absurd rfl ha

theorem sound_empty (hin : p.inventory = ∅) (hr : p.repairs = ∅) : p.Sound where
  inventory identity streams hs := by
    rw [hin] at hs
    cases hs
  rounds identity := by
    rw [hr]
    exact valid_default
  announced identity ha := by
    rw [hr] at ha
    exact absurd rfl ha

theorem Sound.step (h : p.Sound) (i : Input) : (p.step cfg i).Sound :=
  step_kept (fun _ _ h => ⟨h.inventory, h.rounds, h.announced⟩) h
    (fun _ _ hd => h.reconcileStreams hd) (fun _ _ => sound_empty rfl rfl)

/-! ## Runs -/

/-- When nothing is missing any more, the count that is wanted covers the ids that were. -/
def Covers (cfg : ServerConfig) (p : StreamPlane) : Input → Prop
  | .tick io => p.due io = true → ∀ x ∈ (p.nextInventory cfg io).entries,
      x.2.fillMissing = [] → ∀ id ∈ (p.repairs.round x.1).lastMissing, id ≤ x.2.desiredCount
  | _ => True

/-- Whatever was emitted is understood by the client. -/
def Understood (p : StreamPlane) : Prop := ∀ x ∈ p.emitted, x.2.Understood

theorem Understood.reconcileStreams (h : p.Understood) (hsound : p.Sound) (hdue : p.due io = true)
    (hcover : Covers cfg p (.tick io)) : (p.reconcileStreams cfg io).Understood := by
  intro x hx
  rw [emitted_reconcileStreams, List.mem_append, List.mem_map] at hx
  obtain hold | ⟨a, ha, rfl⟩ := hx
  · exact h x hold
  · obtain ⟨streams, hstream, hframe⟩ := mem_actions ha
    have hval := hsound.rounds a.identity
    have hcount := hsound.nextInventory hstream
    by_cases hmiss : streams.fillMissing = []
    · by_cases hlast : (p.repairs.round a.identity).lastMissing = []
      · obtain ⟨halive, hsame⟩ := (reconcile_of_present hmiss hlast io.nowMs).1 a.frame hframe
        have hbefore := h _ (hsound.announced a.identity halive)
        rw [← hsame] at hbefore
        exact hbefore
      · rw [(reconcile_of_recovered hmiss hlast io.nowMs).1] at hframe
        have hids := hcover hdue ⟨a.identity, streams⟩ (AList.mem_lookup_iff.mp hstream) hmiss
        have hframe' := (Option.some.inj hframe).symm
        rw [StreamFrame.understood_iff, hframe']
        exact
          { sequence := ⟨hval.numbered hlast, hval.sequence⟩
            desiredCount := hcount
            length := hval.length
            nonempty := hlast
            workerIds := fun id hid => ⟨hval.missing id hid, hids id hid⟩ }
    · obtain ⟨sequence, hpos, hlt, hsame⟩ :=
        (reconcile_of_missing hval hmiss io.nowMs).1 a.frame hframe
      rw [StreamFrame.understood_iff, hsame]
      exact
        { sequence := ⟨hpos, hlt⟩
          desiredCount := hcount
          length := streams.length_fillMissing_le
          nonempty := hmiss
          workerIds := fun id hid =>
            ⟨(StreamInventory.mem_fillMissing hid).1, (StreamInventory.mem_fillMissing hid).2.1⟩ }

/-- The ids that were missing are announced at once, so they are understood only if they are
covered. -/
theorem covers_of_understood {i : Input} (h : (p.step cfg i).Understood) : Covers cfg p i := by
  cases i with
  | tick io =>
    intro hd x hx hm id hid
    have hl : (p.repairs.round x.1).lastMissing ≠ [] := List.ne_nil_of_mem hid
    have he := mem_emitted_reconcileStreams hd (AList.mem_lookup_iff.mpr hx)
      (reconcile_of_recovered hm hl io.nowMs).1
    have hw := StreamFrame.understood_iff.mp (h _ he)
    exact (hw.workerIds id hid).2
  | restart | udp | command | tun | drain | ioCounters | shared => trivial

theorem understood_step (hs : p.Sound) (h : p.Understood) (i : Input) :
    (p.step cfg i).Understood ↔ Covers cfg p i := by
  refine ⟨covers_of_understood, fun hc => ?_⟩
  refine step_kept (fun _ _ h => h) h ?_ (fun _ _ => h)
  rintro io rfl hd
  exact h.reconcileStreams hs hd hc

/-- The client understands every frame of a run exactly if, whenever nothing is missing any more,
the ids that were missing are within the count that is then wanted. -/
theorem frames_understood_iff (cfg : ServerConfig) (credentials : List Credential) (wallNow : ℕ)
    (inputs : List Input) : Runs.Always (step cfg) Understood (start credentials wallNow) inputs ↔
      Runs.Along (step cfg) (Covers cfg) (start credentials wallNow) inputs :=
  Runs.always_iff_along (I := Sound) (Q := fun _ _ => True) (fun _ i hs _ => hs.step i)
    (fun _ i hs h _ => understood_step hs h i) (sound_empty rfl rfl) (fun x hx => by cases hx)
    (Runs.along_of_forall fun _ _ => trivial)

end StreamPlane

/-- Three streams are wanted, of which two are missing, and then one. -/
def Recorded.shrunk : List StreamPlane.Input :=
  Recorded.opened 1 3 ++ [Recorded.tick 3000, Recorded.activate 1 1, Recorded.tick 6000]

/-- The client does not understand that workers 2 and 3 are alive if one stream is wanted. -/
theorem shrunk_frame_refused :
    (Recorded.streams Recorded.shrunk).emitted = [(Recorded.identity, ⟨false, 1, 1, [2, 3]⟩)] ∧
    parseStreamAlive (StreamFrame.payload ⟨false, 1, 1, [2, 3]⟩) = none ∧
    ¬ (Recorded.streams Recorded.shrunk).Understood := by
  have he : (Recorded.streams Recorded.shrunk).emitted =
      [(Recorded.identity, ⟨false, 1, 1, [2, 3]⟩)] := by
    decide +kernel
  refine ⟨he, by decide +kernel, fun h => ?_⟩
  have hw := StreamFrame.understood_iff.mp (h _ List.mem_cons_self)
  exact absurd (hw.workerIds 2 List.mem_cons_self).2 (by decide)

end Csqtt
