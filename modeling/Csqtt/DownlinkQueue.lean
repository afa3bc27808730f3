import Mathlib.Logic.Function.Iterate
import Csqtt.ServerWire

/-!
# The queue of packets for the tunnel network

`DownlinkQueue`: a lane for each address of the tunnel network with three classes of packets. The
slots of a lane follow from the number of its active paths. The classes are served in turn over
the lanes that have paths, for bulk packets once for each path.
-/

namespace Csqtt

open Buffer

inductive PacketClass
  | latency
  | priority
  | bulk
  deriving DecidableEq

def tcpLatencyPacketLimit : ℕ := 192

def udpLatencyPacketLimit : ℕ := 300

abbrev HeaderWalk (α : Type) := Except (Fault Unit) α

def noTransport {α : Type} : HeaderWalk α := .error (.refused ())

/-- `get` of a range of the packet. -/
def getRange (packet : Bytes) (offset count : ℕ) : HeaderWalk Bytes :=
  if offset + count ≤ packet.length then .ok (slice packet offset (offset + count)) else noTransport

/-- The loop of the striping classifier: it returns from within. -/
def stripedHeaders (packet : Bytes) : ℕ → UInt8 → ℕ → HeaderWalk UInt8
  | 0, protocol, _ => .ok protocol
  | n + 1, protocol, offset =>
    if protocol ∈ [0, 43, 60] then do
      let header ← getRange packet offset 2
      let protocol ← readByte header 0
      let offset := offset + ((← readByte header 1).toNat + 1) * 8
      if packet.length < offset then noTransport else stripedHeaders packet n protocol offset
    else if protocol = 44 then do
      let header ← getRange packet offset 8
      let fragment := (← readByte header 2).toNat * 256 + (← readByte header 3).toNat
      if fragment &&& 0xfff8 ≠ 0 then noTransport
      else
        let protocol ← readByte header 0
        let offset := offset + 8
        if packet.length < offset then noTransport else stripedHeaders packet n protocol offset
    else if protocol = 51 then do
      let header ← getRange packet offset 2
      let protocol ← readByte header 0
      let offset := offset + ((← readByte header 1).toNat + 2) * 4
      if packet.length < offset then noTransport else stripedHeaders packet n protocol offset
    else .ok protocol

/-- `ipv6_transport` of the striping classifier. -/
def stripedTransport (packet : Bytes) : HeaderWalk UInt8 := do
  stripedHeaders packet 8 (← readByte packet 6) 40

def internetTransport (packet : Bytes) : Option UInt8 :=
  match packet.head? with
  | none => none
  | some first =>
    if first >>> 4 = 4 then
      let headerLen := (first &&& 0x0f).toNat * 4
      if 20 ≤ headerLen ∧ headerLen ≤ packet.length then packet[9]? else none
    else if first >>> 4 = 6 ∧ 40 ≤ packet.length then
      (stripedTransport packet).toOption
    else none

def packetClass (packet : Bytes) : PacketClass :=
  match internetTransport packet with
  | none => .bulk
  | some protocol =>
    if protocol = 1 ∨ protocol = 58 then .latency
    else if protocol = 6 ∧ packet.length < tcpLatencyPacketLimit then .latency
    else if protocol = 17 then
      if packet.length ≤ udpLatencyPacketLimit then .latency else .priority
    else .bulk

def latencySlots : ℕ := 16

def priorityMinSlots : ℕ := 32

def priorityMaxSlots : ℕ := 252

def prioritySlotsPerPath : ℕ := 2

def bulkMinSlots : ℕ := 72

def bulkMaxSlots : ℕ := 1008

def bulkSlotsPerPath : ℕ := 8

/-- More paths than these change nothing. -/
def maxLanePaths : ℕ := priorityMaxSlots / prioritySlotsPerPath

def profileForActivePaths (activePaths : ℕ) : PacketClass → ℕ :=
  let activePaths := min activePaths maxLanePaths
  if activePaths = 0 then fun _ => 0
  else fun
    | .latency => latencySlots
    | .priority =>
      max priorityMinSlots (min (activePaths * prioritySlotsPerPath) priorityMaxSlots)
    | .bulk => max bulkMinSlots (min (activePaths * bulkSlotsPerPath) bulkMaxSlots)

theorem profileForActivePaths_pos {activePaths : ℕ} (h : activePaths ≠ 0) (c : PacketClass) :
    0 < profileForActivePaths activePaths c := by
  have hm : min activePaths maxLanePaths ≠ 0 := by
    have hmax : maxLanePaths ≠ 0 := by decide
    omega
  unfold profileForActivePaths
  rw [if_neg hm]
  cases c with
  | latency => exact show 0 < latencySlots by decide
  | priority | bulk => exact lt_max_of_lt_left (by decide)

theorem profileForActivePaths_min (activePaths : ℕ) :
    profileForActivePaths (min activePaths maxLanePaths) = profileForActivePaths activePaths := by
  unfold profileForActivePaths
  rw [min_assoc, min_self]

/-! ## The slots of one class -/

structure PacketSlots where
  free : ℕ := 0
  pending : List Bytes := []

namespace PacketSlots

def total (s : PacketSlots) : ℕ := s.free + s.pending.length

def dropSlot (s : PacketSlots) : PacketSlots :=
  if s.free = 0 then { s with pending := s.pending.dropLast } else { s with free := s.free - 1 }

def resize (s : PacketSlots) (capacity : ℕ) : PacketSlots :=
  let grown := { s with free := max s.free (capacity - s.pending.length) }
  if capacity = 0 then {} else dropSlot^[grown.total - capacity] grown

def enqueue (s : PacketSlots) (packet : Bytes) : PacketSlots × Bool :=
  if s.free = 0 ∨ serverPacketCapacity < packet.length then (s, false)
  else ({ free := s.free - 1, pending := s.pending ++ [packet] }, true)

def dequeue (s : PacketSlots) : Option (Bytes × PacketSlots) :=
  match s.pending with
  | [] => none
  | packet :: pending => some (packet, { s with pending })

def requeueFront (s : PacketSlots) (packet : Bytes) : PacketSlots :=
  { s with pending := packet :: s.pending }

def recycle (s : PacketSlots) : PacketSlots := { s with free := s.free + 1 }

def clearPending (s : PacketSlots) : PacketSlots :=
  { free := s.free + s.pending.length, pending := [] }

variable {s : PacketSlots}

theorem total_dropSlot (h : 0 < s.total) : s.dropSlot.total = s.total - 1 := by
  unfold dropSlot total at *
  split_ifs with hf
  · dsimp only
    rw [List.length_dropLast]
    omega
  · dsimp only
    omega

theorem total_iterate_dropSlot (n : ℕ) (h : n ≤ s.total) :
    (dropSlot^[n] s).total = s.total - n := by
  induction n with
  | zero => rfl
  | succ _ ih =>
    have hn := ih (by omega)
    rw [Function.iterate_succ_apply', total_dropSlot (by omega)]
    omega

theorem total_resize (s : PacketSlots) (capacity : ℕ) : (s.resize capacity).total = capacity := by
  unfold resize
  split_ifs with hz
  · exact hz.symm
  · rw [total_iterate_dropSlot _ (Nat.sub_le _ _)]
    unfold total
    dsimp only
    omega

theorem pending_dropSlot (s : PacketSlots) : s.dropSlot.pending <+: s.pending := by
  unfold dropSlot
  split_ifs
  · exact List.dropLast_prefix _
  · exact List.prefix_rfl

theorem pending_resize (s : PacketSlots) (capacity : ℕ) :
    (s.resize capacity).pending <+: s.pending := by
  have hd : ∀ (n : ℕ) (s : PacketSlots), (dropSlot^[n] s).pending <+: s.pending := by
    intro n s
    induction n with
    | zero => exact List.prefix_rfl
    | succ _ ih =>
      rw [Function.iterate_succ_apply']
      exact (pending_dropSlot _).trans ih
  unfold resize
  split_ifs
  · exact List.nil_prefix
  · exact hd _ _

theorem total_enqueue (s : PacketSlots) (packet : Bytes) :
    (s.enqueue packet).1.total = s.total := by
  unfold enqueue total
  split_ifs with h
  · rfl
  · dsimp only
    rw [List.length_append, List.length_singleton]
    omega

theorem mem_pending_enqueue {packet x : Bytes}
    (h : x ∈ (s.enqueue packet).1.pending) : x ∈ s.pending ∨ x = packet := by
  unfold enqueue at h
  split_ifs at h
  · exact .inl h
  · exact (List.mem_append.mp h).imp_right List.mem_singleton.mp

theorem enqueue_accepted_iff {packet : Bytes} :
    (s.enqueue packet).2 = true ↔ s.pending.length < s.total ∧
    packet.length ≤ serverPacketCapacity := by
  unfold enqueue total
  by_cases h : s.free = 0 ∨ serverPacketCapacity < packet.length
  · rw [if_pos h]
    refine iff_of_false Bool.false_ne_true ?_
    omega
  · rw [if_neg h]
    refine iff_of_true rfl ?_
    omega

end PacketSlots

/-! ## The lanes -/

structure ClientEgressLane where
  activePaths : ℕ := 0
  latency : PacketSlots := {}
  priority : PacketSlots := {}
  bulk : PacketSlots := {}

namespace ClientEgressLane

def queue (lane : ClientEgressLane) : PacketClass → PacketSlots
  | .latency => lane.latency
  | .priority => lane.priority
  | .bulk => lane.bulk

def setQueue (lane : ClientEgressLane) (c : PacketClass) (slots : PacketSlots) : ClientEgressLane :=
  match c with
  | .latency => { lane with latency := slots }
  | .priority => { lane with priority := slots }
  | .bulk => { lane with bulk := slots }

def configure (lane : ClientEgressLane) (activePaths : ℕ) : ClientEgressLane :=
  let activePaths := min activePaths maxLanePaths
  let profile := profileForActivePaths activePaths
  { activePaths
    latency := lane.latency.resize (profile .latency)
    priority := lane.priority.resize (profile .priority)
    bulk := lane.bulk.resize (profile .bulk) }

def clearPending (lane : ClientEgressLane) : ClientEgressLane :=
  { lane with
    latency := lane.latency.clearPending
    priority := lane.priority.clearPending
    bulk := lane.bulk.clearPending }

variable (lane : ClientEgressLane)

theorem queue_setQueue (c d : PacketClass) (slots : PacketSlots) :
    (lane.setQueue c slots).queue d = if d = c then slots else lane.queue d := by
  cases c <;> cases d <;> rfl

theorem setQueue_setQueue (c : PacketClass) (slots slots' : PacketSlots) :
    (lane.setQueue c slots).setQueue c slots' = lane.setQueue c slots' := by
  cases c <;> rfl

@[simp] theorem activePaths_setQueue (c : PacketClass) (slots : PacketSlots) :
    (lane.setQueue c slots).activePaths = lane.activePaths := by
  cases c <;> rfl

theorem queue_configure (activePaths : ℕ) (c : PacketClass) :
    (lane.configure activePaths).queue c =
      (lane.queue c).resize (profileForActivePaths (min activePaths maxLanePaths) c) := by
  cases c <;> rfl

theorem queue_clearPending (c : PacketClass) :
    lane.clearPending.queue c = (lane.queue c).clearPending := by
  cases c <;> rfl

def Sized (lane : ClientEgressLane) : Prop :=
  ∀ c, (lane.queue c).total = profileForActivePaths lane.activePaths c

theorem sized_configure (activePaths : ℕ) : (lane.configure activePaths).Sized := by
  intro c
  rw [queue_configure, PacketSlots.total_resize]
  rfl

theorem Sized.setQueue {lane : ClientEgressLane} (h : lane.Sized) {c : PacketClass}
    {slots : PacketSlots} (ht : slots.total = (lane.queue c).total) :
    (lane.setQueue c slots).Sized := by
  intro d
  rw [queue_setQueue, activePaths_setQueue]
  split_ifs with hd
  · rw [ht, hd]
    exact h c
  · exact h d

theorem Sized.clearPending {lane : ClientEgressLane} (h : lane.Sized) :
    lane.clearPending.Sized := by
  intro c
  rw [queue_clearPending]
  exact h c

end ClientEgressLane

structure DownlinkQueue where
  lanes : UInt8 → ClientEgressLane := fun _ => {}
  latencyRing : List UInt8 := []
  priorityRing : List UInt8 := []
  bulkRing : List UInt8 := []
  latencyCursor : ℕ := 0
  priorityCursor : ℕ := 0
  bulkCursor : ℕ := 0

namespace DownlinkQueue

def setLane (q : DownlinkQueue) (key : UInt8) (lane : ClientEgressLane) : DownlinkQueue :=
  { q with lanes := Function.update q.lanes key lane }

def rebuildRings (q : DownlinkQueue) : DownlinkQueue :=
  let keys := ((List.range 256).map UInt8.ofNat).filter fun key => (q.lanes key).activePaths ≠ 0
  let bulkRing := keys.flatMap fun key => List.replicate (q.lanes key).activePaths key
  { q with
    latencyRing := keys
    priorityRing := keys
    bulkRing
    latencyCursor := q.latencyCursor % max keys.length 1
    priorityCursor := q.priorityCursor % max keys.length 1
    bulkCursor := q.bulkCursor % max bulkRing.length 1 }

def configure (q : DownlinkQueue) (key : UInt8) (activePaths : ℕ) : DownlinkQueue :=
  if (q.lanes key).activePaths = min activePaths maxLanePaths then q
  else (q.setLane key ((q.lanes key).configure activePaths)).rebuildRings

def enqueue (q : DownlinkQueue) (key : UInt8) (c : PacketClass) (packet : Bytes) :
    DownlinkQueue × Bool :=
  let lane := q.lanes key
  if lane.activePaths = 0 then (q, false)
  else
    let (slots, accepted) := (lane.queue c).enqueue packet
    (q.setLane key (lane.setQueue c slots), accepted)

def ring (q : DownlinkQueue) : PacketClass → List UInt8
  | .latency => q.latencyRing
  | .priority => q.priorityRing
  | .bulk => q.bulkRing

def cursor (q : DownlinkQueue) : PacketClass → ℕ
  | .latency => q.latencyCursor
  | .priority => q.priorityCursor
  | .bulk => q.bulkCursor

def setCursor (q : DownlinkQueue) (c : PacketClass) (cursor : ℕ) : DownlinkQueue :=
  match c with
  | .latency => { q with latencyCursor := cursor }
  | .priority => { q with priorityCursor := cursor }
  | .bulk => { q with bulkCursor := cursor }

def nextKey (q : DownlinkQueue) (c : PacketClass) : Option (UInt8 × DownlinkQueue) :=
  match (q.ring c)[q.cursor c]? with
  | none => none
  | some key =>
    let cursor := q.cursor c + 1
    some (key, q.setCursor c (if cursor = (q.ring c).length then 0 else cursor))

def dequeueLoop (c : PacketClass) : ℕ → DownlinkQueue → DownlinkQueue × Option (UInt8 × Bytes)
  | 0, q => (q, none)
  | attempts + 1, q =>
    match q.nextKey c with
    | none => (q, none)
    | some (key, q) =>
      match ((q.lanes key).queue c).dequeue with
      | none => dequeueLoop c attempts q
      | some (packet, slots) =>
        (q.setLane key ((q.lanes key).setQueue c slots), some (key, packet))

def dequeue (q : DownlinkQueue) (c : PacketClass) : DownlinkQueue × Option (UInt8 × Bytes) :=
  dequeueLoop c (q.ring c).length q

def requeueFront (q : DownlinkQueue) (key : UInt8) (c : PacketClass) (packet : Bytes) :
    DownlinkQueue :=
  q.setLane key ((q.lanes key).setQueue c (((q.lanes key).queue c).requeueFront packet))

def recycle (q : DownlinkQueue) (key : UInt8) (c : PacketClass) : DownlinkQueue :=
  q.setLane key ((q.lanes key).setQueue c ((q.lanes key).queue c).recycle)

def clear (q : DownlinkQueue) (key : UInt8) : DownlinkQueue :=
  q.setLane key (q.lanes key).clearPending

/-! ## What the operations do to a lane -/

theorem lanes_setLane (q : DownlinkQueue) (key k : UInt8) (lane : ClientEgressLane) :
    (q.setLane key lane).lanes k = if k = key then lane else q.lanes k :=
  Function.update_apply ..

theorem lanes_configure (q : DownlinkQueue) (key : UInt8) (activePaths : ℕ) :
    (q.configure key activePaths).lanes = q.lanes ∧
        (q.lanes key).activePaths = min activePaths maxLanePaths ∨
      (q.configure key activePaths).lanes =
        (q.setLane key ((q.lanes key).configure activePaths)).lanes := by
  unfold configure
  split_ifs with hs
  · exact .inl ⟨rfl, hs⟩
  · exact .inr rfl

theorem activePaths_configure (q : DownlinkQueue) (key k : UInt8) (activePaths : ℕ) :
    ((q.configure key activePaths).lanes k).activePaths =
      if k = key then min activePaths maxLanePaths else (q.lanes k).activePaths := by
  obtain ⟨hl, hs⟩ | hl := q.lanes_configure key activePaths
  · rw [hl]
    split_ifs with hk
    · rw [hk, hs]
    · rfl
  · rw [hl, lanes_setLane]
    split_ifs
    · rfl
    · rfl

/-- Every lane keeps its paths. -/
def SamePaths (q q' : DownlinkQueue) : Prop :=
  ∀ key, (q'.lanes key).activePaths = (q.lanes key).activePaths

theorem samePaths_setQueue (q : DownlinkQueue) (key : UInt8) (c : PacketClass)
    (slots : PacketSlots) : q.SamePaths (q.setLane key ((q.lanes key).setQueue c slots)) := by
  intro k
  rw [lanes_setLane]
  split_ifs with hk
  · rw [ClientEgressLane.activePaths_setQueue, hk]
  · rfl

theorem samePaths_enqueue (q : DownlinkQueue) (key : UInt8) (c : PacketClass) (packet : Bytes) :
    q.SamePaths (q.enqueue key c packet).1 := by
  unfold enqueue
  dsimp only
  split_ifs
  · exact fun _ => rfl
  · exact samePaths_setQueue q key c _

theorem samePaths_clear (q : DownlinkQueue) (key : UInt8) : q.SamePaths (q.clear key) := by
  intro k
  rw [clear, lanes_setLane]
  split_ifs with hk
  · rw [hk]
    rfl
  · rfl

/-- A packet is taken from the front of its lane; nothing else changes but a cursor. -/
theorem dequeueLoop_spec (c : PacketClass) (attempts : ℕ) (q : DownlinkQueue) :
    ((dequeueLoop c attempts q).2 = none ∧ (dequeueLoop c attempts q).1.lanes = q.lanes) ∨
      ∃ key packet slots, (dequeueLoop c attempts q).2 = some (key, packet) ∧
        (q.lanes key).queue c = slots.requeueFront packet ∧ (dequeueLoop c attempts q).1.lanes =
          (q.setLane key ((q.lanes key).setQueue c slots)).lanes := by
  have hcursor : ∀ (q : DownlinkQueue) (cursor : ℕ), (q.setCursor c cursor).lanes = q.lanes := by
    intro q cursor
    cases c <;> rfl
  induction attempts generalizing q with
  | zero => exact .inl ⟨rfl, rfl⟩
  | succ _ ih =>
    rw [dequeueLoop]
    cases hnext : q.nextKey c with
    | none => exact .inl ⟨rfl, rfl⟩
    | some next =>
      obtain ⟨key, q'⟩ := next
      have hlane : q'.lanes = q.lanes := by
        unfold nextKey at hnext
        split at hnext
        · cases hnext
        · cases hnext
          exact hcursor _ _
      dsimp only
      cases hdequeue : ((q'.lanes key).queue c).dequeue with
      | none =>
        have htail := ih q'
        simp only [setLane, hlane] at htail ⊢
        exact htail
      | some taken =>
        obtain ⟨packet, slots⟩ := taken
        refine .inr ⟨key, packet, slots, rfl, ?_, ?_⟩
        · rw [hlane, PacketSlots.dequeue] at hdequeue
          split at hdequeue
          · cases hdequeue
          · rename_i pending hpend
            cases hdequeue
            rw [PacketSlots.requeueFront, ← hpend]
        · dsimp only [setLane]
          rw [hlane]

theorem samePaths_dequeue (q : DownlinkQueue) (c : PacketClass) : q.SamePaths (q.dequeue c).1 := by
  intro k
  obtain ⟨-, hl⟩ | ⟨key, packet, slots, -, -, hl⟩ := dequeueLoop_spec c (q.ring c).length q
  · rw [dequeue, hl]
  · rw [dequeue, hl]
    exact samePaths_setQueue q key c slots k

/-! ## What is queued -/

/-- Every packet that is queued belongs to its lane, and the lanes have the slots of their paths. -/
structure Queued (P : UInt8 → Bytes → Prop) (q : DownlinkQueue) : Prop where
  sized : ∀ key, (q.lanes key).Sized
  pending : ∀ key c, ∀ packet ∈ ((q.lanes key).queue c).pending, P key packet

namespace Queued

variable {P : UInt8 → Bytes → Prop} {q q' : DownlinkQueue}

theorem empty : Queued P {} where
  sized _ c := by cases c <;> rfl
  pending _ c packet h := by cases c <;> cases h

section

variable (h : Queued P q)
include h

theorem of_lanes (hl : q'.lanes = q.lanes) : Queued P q' :=
  ⟨by rw [hl]; exact h.sized, by rw [hl]; exact h.pending⟩

theorem setLane (key : UInt8) {lane : ClientEgressLane} (hs : lane.Sized)
    (hp : ∀ c, ∀ packet ∈ (lane.queue c).pending, P key packet) :
    Queued P (q.setLane key lane) where
  sized k := by
    rw [lanes_setLane]
    split_ifs
    · exact hs
    · exact h.sized k
  pending k c := by
    rw [lanes_setLane]
    split_ifs with hk
    · rw [hk]
      exact hp c
    · exact h.pending k c

theorem setQueue (key : UInt8) (c : PacketClass) {slots : PacketSlots}
    (ht : slots.total = ((q.lanes key).queue c).total)
    (hp : ∀ packet ∈ slots.pending, P key packet) :
    Queued P (q.setLane key ((q.lanes key).setQueue c slots)) := by
  apply h.setLane key ((h.sized key).setQueue ht)
  intro d
  rw [ClientEgressLane.queue_setQueue]
  split_ifs
  · exact hp
  · exact h.pending key d

theorem configure (key : UInt8) (activePaths : ℕ) : Queued P (q.configure key activePaths) := by
  obtain ⟨hl, -⟩ | hl := q.lanes_configure key activePaths
  · exact h.of_lanes hl
  · refine of_lanes (h.setLane key (ClientEgressLane.sized_configure _ activePaths) ?_) hl
    intro c packet hm
    rw [ClientEgressLane.queue_configure] at hm
    exact h.pending key c packet ((PacketSlots.pending_resize _ _).subset hm)

theorem enqueue {key : UInt8} {packet : Bytes} (hP : P key packet) (c : PacketClass) :
    Queued P (q.enqueue key c packet).1 := by
  unfold DownlinkQueue.enqueue
  dsimp only
  split_ifs
  · exact h
  · apply h.setQueue key c (PacketSlots.total_enqueue _ packet)
    intro x hx
    obtain hx | rfl := PacketSlots.mem_pending_enqueue hx
    · exact h.pending key c x hx
    · exact hP

/-- A packet is taken if its lane has paths and room, and the packet is not too long. -/
theorem enqueue_accepted_iff (key : UInt8) (c : PacketClass) (packet : Bytes) :
    (q.enqueue key c packet).2 = true ↔ (q.lanes key).activePaths ≠ 0 ∧
      packet.length ≤ serverPacketCapacity ∧ ((q.lanes key).queue c).pending.length <
        profileForActivePaths (q.lanes key).activePaths c := by
  unfold DownlinkQueue.enqueue
  by_cases hz : (q.lanes key).activePaths = 0
  · rw [if_pos hz]
    exact iff_of_false Bool.false_ne_true fun ha => ha.1 hz
  · rw [if_neg hz, ← h.sized key c, PacketSlots.enqueue_accepted_iff,
      and_comm (b := packet.length ≤ _)]
    exact (and_iff_right hz).symm

theorem clear (key : UInt8) : Queued P (q.clear key) := by
  apply h.setLane key (h.sized key).clearPending
  intro c packet hm
  rw [ClientEgressLane.queue_clearPending] at hm
  cases hm

/-- A packet that is taken belongs to its lane; its slot comes back, with the packet or without. -/
theorem dequeue {c : PacketClass} {key : UInt8} {packet : Bytes}
    (hdequeue : q.dequeue c = (q', some (key, packet))) :
    P key packet ∧ Queued P (q'.requeueFront key c packet) ∧ Queued P (q'.recycle key c) := by
  obtain ⟨hnone, -⟩ | ⟨k, p, slots, hsome, hfront, hlanes⟩ := dequeueLoop_spec c (q.ring c).length q
  · rw [← DownlinkQueue.dequeue, hdequeue] at hnone
    cases hnone
  · rw [← DownlinkQueue.dequeue, hdequeue] at hsome hlanes
    cases hsome
    have hpend := h.pending key c
    rw [hfront] at hpend
    have hset : ∀ slots', slots'.total = ((q.lanes key).queue c).total →
        (∀ x ∈ slots'.pending, P key x) →
        Queued P (q'.setLane key ((q'.lanes key).setQueue c slots')) := by
      intro slots' htotal hslot'
      apply (h.setQueue key c htotal hslot').of_lanes
      have hlane : q'.lanes key = (q.lanes key).setQueue c slots := by
        rw [hlanes, lanes_setLane, if_pos rfl]
      rw [hlane, ClientEgressLane.setQueue_setQueue]
      dsimp only [DownlinkQueue.setLane]
      rw [hlanes, DownlinkQueue.setLane, Function.update_idem]
    have hlane : (q'.lanes key).queue c = slots := by
      rw [hlanes, lanes_setLane, if_pos rfl, ClientEgressLane.queue_setQueue, if_pos rfl]
    refine ⟨hpend packet List.mem_cons_self, ?_, ?_⟩
    · unfold DownlinkQueue.requeueFront
      rw [hlane, ← hfront]
      exact hset _ rfl (h.pending key c)
    · unfold DownlinkQueue.recycle
      rw [hlane]
      apply hset
      · rw [hfront]
        unfold PacketSlots.recycle PacketSlots.requeueFront PacketSlots.total
        dsimp only
        rw [List.length_cons]
        omega
      · exact fun x hx => hpend x (List.mem_cons_of_mem _ hx)

theorem dequeue_none {c : PacketClass} (hd : q.dequeue c = (q', none)) : Queued P q' := by
  obtain ⟨-, hl⟩ | ⟨k, p, slots, hs, -⟩ := dequeueLoop_spec c (q.ring c).length q
  · rw [← DownlinkQueue.dequeue, hd] at hl
    exact h.of_lanes hl
  · rw [← DownlinkQueue.dequeue, hd] at hs
    cases hs

end

end Queued
end DownlinkQueue
end Csqtt
