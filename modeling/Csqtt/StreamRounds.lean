import Csqtt.AssocMap
import Csqtt.ServerEngine

/-!
# Rounds of stream repairs

`reconcile_streams` compares the workers of an identity that have a tunnel with the number of
streams it wants. While some are missing it asks for a repair, after a grace period and then once a
minute, with a sequence number that goes up; when they are back it says so twice. A frame is kept
beside its bytes, and the identities come in the order of the inventory.
-/

namespace Csqtt

def streamReconcileIntervalMs : ℕ := 3000

def streamRepairGraceMs : ℕ := 30000

def streamRepairEscalateMs : ℕ := 60000

def streamAliveIntervalMs : ℕ := 10000

def streamAliveRepeat : ℕ := 2

def streamRoundOrphanTtlMs : ℕ := 60000

def streamInventoryResyncMs : ℕ := 60000

def streamRepairStart : Bytes := 0xff :: asciiBytes "CSQTT_STREAM_REPAIR_V1"

def streamAliveStart : Bytes := 0xff :: asciiBytes "CSQTT_STREAM_ALIVE_V1"

def streamControlPayload (start : Bytes) (sequence desiredCount : ℕ) (workerIds : List ℕ) : Bytes :=
  let count := min workerIds.length 255
  start ++ BigEndian.encode 8 sequence ++ BigEndian.encode 2 desiredCount ++ [UInt8.ofNat count] ++
    (workerIds.take count).flatMap (BigEndian.encode 2)

/-- A frame for the clients of an identity: workers are missing, or they are alive again. -/
structure StreamFrame where
  repair : Bool
  sequence : ℕ
  desiredCount : ℕ
  workerIds : List ℕ
  deriving DecidableEq

def StreamFrame.payload (f : StreamFrame) : Bytes :=
  streamControlPayload (if f.repair then streamRepairStart else streamAliveStart) f.sequence
    f.desiredCount f.workerIds

/-! ## The inventory -/

/-- The sessions of an identity. Instead of an array of flags there is the list of the workers that
are present. -/
structure StreamInventory where
  desiredCount : ℕ := 0
  desiredSessionId : ℕ := 0
  present : List ℕ := []
  carriers : List ℕ := []
  seen : Bool := false

namespace StreamInventory

def new : StreamInventory := {}

def reset (_ : StreamInventory) : StreamInventory := new

def observe (i : StreamInventory) (slot : ℕ) (s : HotSession) (workerId : ℕ) : StreamInventory where
  desiredCount := if i.desiredSessionId ≤ s.id then s.desiredStreamCount else i.desiredCount
  desiredSessionId := if i.desiredSessionId ≤ s.id then s.id else i.desiredSessionId
  present := workerId :: i.present
  seen := true
  carriers :=
    if i.carriers.length < streamControlCarriers then i.carriers ++ [slot] else i.carriers

def fillMissing (i : StreamInventory) : List ℕ :=
  (List.range' 1 (min i.desiredCount maxStreamWorkers)).filter (· ∉ i.present)

end StreamInventory

abbrev StreamInventories := AList fun _ : Identity => StreamInventory

def Engine.streamWorker (e : Engine) (s : HotSession) : Option ℕ :=
  let workerId := e.workerId s.id
  if s.desiredStreamCount = 0 ∨ maxStreamWorkers < s.desiredStreamCount ∨
    s.registrationId.isNone then
    none
  else if workerId = 0 ∨ s.desiredStreamCount < workerId ∨ maxStreamWorkers < workerId then none
  else some workerId

def Engine.observeSlot (e : Engine) (inventory : StreamInventories) (entry : ℕ × HotSession) :
    StreamInventories :=
  match e.streamWorker entry.2 with
  | none => inventory
  | some workerId =>
    inventory.insert entry.2.identity
      (((inventory.lookup entry.2.identity).getD .new).observe entry.1 entry.2 workerId)

def Engine.readStreams (e : Engine) (inventory : StreamInventories) : StreamInventories :=
  (e.sessions.slots.foldl e.observeSlot (inventory.mapValues fun _ i => i.reset)).filterValues
    fun _ i => i.seen

/-! ## The rounds -/

structure StreamRepairRound where
  sequence : ℕ := 0
  lastMissing : List ℕ := []
  firstMissingMs : ℕ := 0
  lastSentMs : ℕ := 0
  aliveIds : List ℕ := []
  aliveDesiredCount : ℕ := 0
  aliveSentMs : ℕ := 0
  aliveSent : ℕ := 0
  lastSeenMs : ℕ := 0

namespace StreamRepairRound

def nextSequence (sequence : ℕ) : ℕ := max ((sequence + 1) % 2 ^ 64) 1

/-- The round gets the set of the missing workers, and starts again if it is another one. -/
def noteMissing (r : StreamRepairRound) (missing : List ℕ) (nowMs : ℕ) : StreamRepairRound :=
  if missing ≠ r.lastMissing then
    { r with
      sequence := nextSequence r.sequence
      lastMissing := missing
      firstMissingMs := nowMs
      lastSentMs := 0
      aliveIds := []
      aliveSent := 0 }
  else r

/-- The repair is asked for, once more with a new number. -/
def sendRepair (r : StreamRepairRound) (nowMs : ℕ) : StreamRepairRound :=
  { r with
    sequence := if r.lastSentMs ≠ 0 then nextSequence r.sequence else r.sequence
    lastSentMs := nowMs }

def repairPayload (r : StreamRepairRound) (missing : List ℕ) (desiredCount nowMs : ℕ) :
    StreamRepairRound × Option StreamFrame :=
  let r := r.noteMissing missing nowMs
  if nowMs - r.firstMissingMs < streamRepairGraceMs then (r, none)
  else if r.lastSentMs ≠ 0 ∧ nowMs - r.lastSentMs < streamRepairEscalateMs then (r, none)
  else
    let r := r.sendRepair nowMs
    (r, some ⟨true, r.sequence, desiredCount, r.lastMissing⟩)

def recovered (r : StreamRepairRound) (desiredCount nowMs : ℕ) : StreamRepairRound :=
  if r.lastMissing = [] then r
  else
    { r with
      lastMissing := []
      aliveIds := r.lastMissing
      aliveDesiredCount := desiredCount
      aliveSentMs := 0
      aliveSent := 0
      firstMissingMs := nowMs
      lastSentMs := 0 }

def aliveFrame (r : StreamRepairRound) : StreamFrame :=
  ⟨false, r.sequence, r.aliveDesiredCount, r.aliveIds⟩

def alivePayload (r : StreamRepairRound) (nowMs : ℕ) : StreamRepairRound × Option StreamFrame :=
  if r.aliveIds = [] ∨ streamAliveRepeat ≤ r.aliveSent ∨
      (r.aliveSentMs ≠ 0 ∧ nowMs - r.aliveSentMs < streamAliveIntervalMs) then (r, none)
  else ({ r with aliveSent := r.aliveSent + 1, aliveSentMs := nowMs }, some r.aliveFrame)

def active (r : StreamRepairRound) : Bool :=
  r.lastMissing ≠ [] ∨ (r.aliveIds ≠ [] ∧ r.aliveSent < streamAliveRepeat)

/-- A pass over an identity of the inventory. -/
def reconcile (r : StreamRepairRound) (streams : StreamInventory) (nowMs : ℕ) :
    StreamRepairRound × Option StreamFrame :=
  let r := { r with lastSeenMs := nowMs }
  if streams.fillMissing = [] then (r.recovered streams.desiredCount nowMs).alivePayload nowMs
  else r.repairPayload streams.fillMissing streams.desiredCount nowMs

/-! ## What a round does -/

variable (r : StreamRepairRound)

theorem lastMissing_noteMissing (missing : List ℕ) (nowMs : ℕ) :
    (r.noteMissing missing nowMs).lastMissing = missing := by
  unfold noteMissing
  split_ifs with h
  · rfl
  · exact (not_not.mp h).symm

/-- The round notes what is missing, and after the grace period it may send a repair. -/
theorem repairPayload_cases (missing : List ℕ) (desiredCount nowMs : ℕ) :
    r.repairPayload missing desiredCount nowMs = (r.noteMissing missing nowMs, none) ∨
      (nowMs ≠ 0 ∧ r.repairPayload missing desiredCount nowMs =
        ((r.noteMissing missing nowMs).sendRepair nowMs,
          some ⟨true, ((r.noteMissing missing nowMs).sendRepair nowMs).sequence, desiredCount,
            missing⟩)) := by
  have hl : ((r.noteMissing missing nowMs).sendRepair nowMs).lastMissing = missing :=
    lastMissing_noteMissing r missing nowMs
  unfold repairPayload
  dsimp only
  split_ifs with hg
  · exact .inl rfl
  · exact .inl rfl
  · have hn : nowMs ≠ 0 := by
      rintro rfl
      rw [Nat.zero_sub] at hg
      exact absurd (by decide) hg
    exact .inr ⟨hn, by rw [hl]⟩

theorem alivePayload_cases (nowMs : ℕ) :
    r.alivePayload nowMs = (r, none) ∨ (r.aliveIds ≠ [] ∧ r.alivePayload nowMs =
      ({ r with aliveSent := r.aliveSent + 1, aliveSentMs := nowMs }, some r.aliveFrame)) := by
  unfold alivePayload
  split_ifs with hq
  · exact .inl rfl
  · exact .inr ⟨fun he => hq (.inl he), rfl⟩

end StreamRepairRound

abbrev StreamRepairs := AList fun _ : Identity => StreamRepairRound

namespace StreamRepairs

def round (repairs : StreamRepairs) (identity : Identity) : StreamRepairRound :=
  (repairs.lookup identity).getD {}

def retains (inventory : StreamInventories) (nowMs : ℕ) (identity : Identity)
    (r : StreamRepairRound) : Bool :=
  identity ∈ inventory ∨ r.active = false ∨ nowMs - r.lastSeenMs < streamRoundOrphanTtlMs

def reconcile (repairs : StreamRepairs) (inventory : StreamInventories) (nowMs : ℕ) :
    StreamRepairs :=
  ((inventory.mapValues fun identity streams =>
    ((repairs.round identity).reconcile streams nowMs).1) ∪ repairs).filterValues
    (retains inventory nowMs)

end StreamRepairs

/-- A frame and the slots it goes to. -/
structure StreamControlAction where
  identity : Identity
  carriers : List ℕ
  frame : StreamFrame

def StreamRepairs.actions (repairs : StreamRepairs) (inventory : StreamInventories) (nowMs : ℕ) :
    List StreamControlAction :=
  inventory.entries.filterMap fun entry =>
    ((repairs.round entry.1).reconcile entry.2 nowMs).2.map fun frame =>
      ⟨entry.1, entry.2.carriers, frame⟩

/-! ## What a pass does to the tables -/

namespace StreamRepairs

variable {repairs : StreamRepairs} {inventory : StreamInventories} {identity : Identity} {nowMs : ℕ}

theorem retains_eq_true {r : StreamRepairRound} : retains inventory nowMs identity r = true ↔
    identity ∈ inventory ∨ r.active = false ∨ nowMs - r.lastSeenMs < streamRoundOrphanTtlMs :=
  decide_eq_true_iff

variable {streams : StreamInventory}

theorem lookup_reconcile_of_some (h : inventory.lookup identity = some streams) :
    (repairs.reconcile inventory nowMs).lookup identity =
      some ((repairs.round identity).reconcile streams nowMs).1 := by
  have hm : identity ∈ inventory := by
    rw [← AList.lookup_isSome, h, Option.isSome_some]
  rw [reconcile, AList.lookup_filterValues, AList.lookup_union, AList.lookup_mapValues, h,
    Option.map_some, Option.some_or, Option.filter_some, if_pos (retains_eq_true.mpr (.inl hm))]

theorem lookup_reconcile_of_none (h : inventory.lookup identity = none) :
    (repairs.reconcile inventory nowMs).lookup identity =
      (repairs.lookup identity).filter (retains inventory nowMs identity) := by
  rw [reconcile, AList.lookup_filterValues, AList.lookup_union, AList.lookup_mapValues, h,
    Option.map_none, Option.none_or]

theorem round_reconcile_of_some (h : inventory.lookup identity = some streams) :
    (repairs.reconcile inventory nowMs).round identity =
      ((repairs.round identity).reconcile streams nowMs).1 := by
  rw [round, lookup_reconcile_of_some h, Option.getD_some]

theorem round_reconcile_of_none (h : inventory.lookup identity = none)
    (hk : ∀ r, repairs.lookup identity = some r → retains inventory nowMs identity r = true) :
    (repairs.reconcile inventory nowMs).round identity = repairs.round identity := by
  rw [round, round, lookup_reconcile_of_none h]
  cases hl : repairs.lookup identity with
  | none => rfl
  | some r => rw [Option.filter_some, if_pos (hk r hl)]

theorem round_reconcile_cases (repairs : StreamRepairs) (nowMs : ℕ)
    (h : inventory.lookup identity = none) :
    (repairs.reconcile inventory nowMs).round identity = repairs.round identity ∨
      (repairs.reconcile inventory nowMs).round identity = {} := by
  rw [round, round, lookup_reconcile_of_none h]
  cases repairs.lookup identity with
  | none => exact .inl rfl
  | some =>
    rw [Option.filter_some]
    split_ifs
    · exact .inl rfl
    · exact .inr rfl

theorem mem_actions {a : StreamControlAction} (h : a ∈ repairs.actions inventory nowMs) :
    ∃ streams, inventory.lookup a.identity = some streams ∧
      ((repairs.round a.identity).reconcile streams nowMs).2 = some a.frame := by
  obtain ⟨⟨identity, streams⟩, he, hs⟩ := List.mem_filterMap.mp h
  obtain ⟨frame, hf, rfl⟩ := Option.map_eq_some_iff.mp hs
  exact ⟨streams, AList.mem_lookup_iff.mpr he, hf⟩

theorem exists_action {frame : StreamFrame} (h : inventory.lookup identity = some streams)
    (hf : ((repairs.round identity).reconcile streams nowMs).2 = some frame) :
    ∃ a ∈ repairs.actions inventory nowMs, a.identity = identity ∧ a.frame = frame := by
  refine ⟨⟨identity, streams.carriers, frame⟩, ?_, rfl, rfl⟩
  refine List.mem_filterMap.mpr ⟨⟨identity, streams⟩, AList.mem_lookup_iff.mp h, ?_⟩
  rw [hf, Option.map_some]

theorem identities_actions (repairs : StreamRepairs) (inventory : StreamInventories) (nowMs : ℕ) :
    (repairs.actions inventory nowMs).Pairwise fun a b => a.identity ≠ b.identity := by
  have hk : inventory.entries.Pairwise fun a b => a.1 ≠ b.1 :=
    List.pairwise_map.mp inventory.nodupKeys
  refine List.Pairwise.filterMap _ (fun x y hne a ha b hb => ?_) hk
  obtain ⟨frame, -, rfl⟩ := Option.map_eq_some_iff.mp ha
  obtain ⟨frame', -, rfl⟩ := Option.map_eq_some_iff.mp hb
  exact hne

end StreamRepairs

end Csqtt
