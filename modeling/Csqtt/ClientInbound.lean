import Mathlib.Data.List.Infix
import Csqtt.ClientDownlink
import Csqtt.Mailbox
import Csqtt.ServerResend

/-!
# The end of a download

The client with the servers of its streams and the inbound queues between them. Every frame a
server has queued may arrive in any order, any number of times, or never. The end of the inbound
side says nothing about what is missing: the caller has got a prefix of what the server read.
-/

namespace Csqtt

open Reassembly

def inboundCapacity : ℕ := 64

/-- What a turn gets from `rx.recv()`, if it waits for it. -/
def Turn.awaited : Turn → Option (Option Inbound)
  | .select _ _ _ (.inbound event _) => some event
  | _ => none

theorem Turn.awaited_of_delivered {turn : Turn} {payload : Bytes}
    (h : turn.delivered = some payload) : turn.awaited = some (some (.data payload)) := by
  obtain ⟨_, _, _, _, rfl⟩ := Turn.select_of_delivered h
  rfl

def deliverInbound (streams : ℕ → Mailbox Inbound) (id : ℕ) (event : Inbound) :
    ℕ → Mailbox Inbound :=
  Function.update streams id ((streams id).offer inboundCapacity event)

theorem mem_deliverInbound {streams : ℕ → Mailbox Inbound} {id j : ℕ} {event e : Inbound}
    (h : e ∈ (deliverInbound streams id event j).items) :
    e ∈ (streams j).items ∨ (j = id ∧ e = event) := by
  by_cases hj : j = id
  · subst hj
    rw [deliverInbound, Function.update_self] at h
    obtain h | h := Mailbox.mem_offer h
    · exact .inl h
    · exact .inr ⟨rfl, h⟩
  · rw [deliverInbound, Function.update_of_ne hj] at h
    exact .inl h

/-- A client, the server's side of each of its streams, and the queues by stream id. A stream the
loop has left keeps its queue, which nobody reads any more. -/
structure Tunnel where
  client : ClientStream
  servers : ℕ → ServerStream
  streams : ℕ → Mailbox Inbound := fun _ => {}

inductive TunnelEvent
  | serve (id : ℕ) (turn : ServerTurn)
  | arrive (id i : ℕ)
  | abort (id : ℕ)
  | turn (turn : Turn)

namespace Tunnel

def arrive (t : Tunnel) (f : Frame) : Tunnel :=
  match f.inbound with
  | none => t
  | some event => { t with streams := deliverInbound t.streams f.streamId event }

/-- A turn that waits for the queue and gets `event` from it. -/
def receive (t : Tunnel) (turn : Turn) (event : Option Inbound) : Tunnel :=
  match (t.streams t.client.streamId).recv with
  | none => t
  | some (received, rest) =>
    if received = event ∧ t.client.ending = none ∧ t.client.switch = false then
      { t with
        client := t.client.step turn
        streams := Function.update t.streams t.client.streamId rest }
    else t

def step (t : Tunnel) : TunnelEvent → Tunnel
  | .serve id turn => { t with servers := Function.update t.servers id ((t.servers id).step turn) }
  | .arrive id i =>
    match (t.servers id).outbox[i]? with
    | none => t
    | some f => t.arrive f
  | .abort id => { t with streams := deliverInbound t.streams id .closed }
  | .turn turn =>
    match turn.awaited with
    | none => { t with client := t.client.step turn }
    | some event => t.receive turn event

/-- The stream a server has for its client, as far as offsets reach. -/
def downlink (t : Tunnel) (id : ℕ) : ByteStream := .addressable (t.servers id).targetRead

structure Conveyed (t : Tunnel) : Prop where
  tailed : ∀ id, (t.servers id).Tailed ∧ (t.servers id).streamId = id
  queued : ∀ id payload, .data payload ∈ (t.streams id).items →
    ∃ c : Cut (t.downlink id), payload = c.payload
  logged : t.client.Logged
  downlinked : t.client.Downlinked t.downlink

end Tunnel

theorem ClientStream.Downlinked.extend {S T : ℕ → ByteStream} {s : ClientStream}
    (h : s.Downlinked S) (hp : ∀ id, (S id).bytes <+: (T id).bytes) : s.Downlinked T := by
  refine ⟨h.silent, h.within.trans (hp s.streamId), fun hok => ?_⟩
  obtain ⟨hs, hw⟩ := h.sound hok
  have hle := hs.cursor_le
  rw [ReorderReceiver.buffer_cursor] at hle
  obtain ⟨more, hm⟩ := hp s.streamId
  rw [← hm]
  refine ⟨hs.append more, ?_⟩
  rw [hw, List.take_append_of_le_length hle]

namespace Tunnel

theorem serve_servers (t : Tunnel) (id : ℕ) (turn : ServerTurn) (j : ℕ) :
    (t.step (.serve id turn)).servers j =
      if j = id then (t.servers j).step turn else t.servers j := by
  change Function.update t.servers id _ j = _
  rw [Function.update_apply]
  split_ifs with hj
  · rw [hj]
  · rfl

variable {t : Tunnel}

section

variable (h : t.Conveyed)
include h

theorem Conveyed.serve (id : ℕ) (turn : ServerTurn) : (t.step (.serve id turn)).Conveyed := by
  have hg : ∀ j, (t.downlink j).bytes <+: ((t.step (.serve id turn)).downlink j).bytes := by
    intro j
    rw [downlink, downlink, serve_servers]
    split_ifs
    · exact List.IsPrefix.take ((t.servers j).step_grows turn).2 _
    · exact List.prefix_rfl
  refine ⟨fun j => ?_, fun j payload hm => ?_, h.logged, h.downlinked.extend hg⟩
  · rw [serve_servers]
    split_ifs
    · rw [((t.servers j).step_grows turn).1]
      exact ⟨ServerStream.step_tailed (h.tailed j).1 turn, (h.tailed j).2⟩
    · exact h.tailed j
  · obtain ⟨c, hc⟩ := h.queued j payload hm
    rw [hc]
    exact c.extend (hg j)

theorem Conveyed.arrive {id : ℕ} {f : Frame} (hf : f ∈ (t.servers id).outbox) :
    (t.arrive f).Conveyed := by
  obtain ⟨hid, hs⟩ := (h.tailed id).1.sliced f hf
  rw [(h.tailed id).2] at hid
  rw [Tunnel.arrive]
  cases hin : f.inbound with
  | none => exact h
  | some =>
    refine ⟨h.tailed, fun j payload hm => ?_, h.logged, h.downlinked⟩
    obtain hm | ⟨hj, he⟩ := mem_deliverInbound hm
    · exact h.queued j payload hm
    · rw [← he] at hin
      obtain ⟨hk, rfl⟩ := Frame.inbound_data hin
      rw [hj, hid]
      exact (hs hk).exists_cut

theorem Conveyed.abort (id : ℕ) : (t.step (.abort id)).Conveyed := by
  refine ⟨h.tailed, fun j payload hm => ?_, h.logged, h.downlinked⟩
  obtain hm | ⟨_, he⟩ := mem_deliverInbound hm
  · exact h.queued j payload hm
  · cases he

theorem Conveyed.receive {turn : Turn} {event : Option Inbound} (ht : turn.awaited = some event) :
    (t.receive turn event).Conveyed := by
  rw [Tunnel.receive]
  cases hr : (t.streams t.client.streamId).recv with
  | none => exact h
  | some result =>
    obtain ⟨received, rest⟩ := result
    dsimp only
    obtain ⟨hreceived, hl⟩ := Mailbox.mem_of_recv hr
    by_cases hmatch : received = event ∧ t.client.ending = none ∧ t.client.switch = false
    · rw [if_pos hmatch]
      have hdata : t.client.ReceivesChunks t.downlink turn := by
        intro payload hd
        apply h.queued
        apply hreceived
        rw [Turn.awaited_of_delivered hd, Option.some.injEq] at ht
        rw [hmatch.1, ht]
      refine ⟨h.tailed, fun j payload hm => ?_, ClientStream.step_logged h.logged turn,
        ClientStream.step_downlinked h.logged h.downlinked hdata⟩
      apply h.queued
      change _ ∈ (Function.update t.streams t.client.streamId rest j).items at hm
      by_cases hj : j = t.client.streamId
      · subst hj
        rw [Function.update_self] at hm
        exact hl _ hm
      · rwa [Function.update_of_ne hj] at hm
    · rw [if_neg hmatch]
      exact h

theorem step_conveyed (event : TunnelEvent) : (t.step event).Conveyed := by
  cases event with
  | serve id turn => exact h.serve id turn
  | abort id => exact h.abort id
  | arrive id i =>
    rw [step]
    cases hf : (t.servers id).outbox[i]? with
    | none => exact h
    | some => exact h.arrive (List.mem_of_getElem? hf)
  | turn turn =>
    rw [step]
    cases ht : turn.awaited with
    | some => exact h.receive ht
    | none =>
      refine ⟨h.tailed, h.queued, ClientStream.step_logged h.logged turn,
        ClientStream.step_downlinked h.logged h.downlinked ?_⟩
      intro payload hd
      rw [Turn.awaited_of_delivered hd] at ht
      cases ht

end

/-- The client's loop is entered; the servers of its streams have connected to the target. -/
def opened (client : ClientStream) (clock : ℕ → ℕ) (connected okQueued : ℕ → Bool) : Tunnel :=
  { client, servers := fun id => .start id (clock id) (connected id) (okQueued id) }

theorem opened_conveyed {client : ClientStream} (h : client.Fresh) (clock : ℕ → ℕ)
    (connected okQueued : ℕ → Bool) : (opened client clock connected okQueued).Conveyed := by
  refine ⟨fun id => ⟨ServerStream.start_tailed _ _ _ _, ServerStream.start_streamId _ _ _ _⟩,
    fun id payload hm => ?_, h.logged, h.downlinked⟩
  cases hm

theorem run_conveyed (h : t.Conveyed) (events : List TunnelEvent) :
    (events.foldl step t).Conveyed :=
  List.foldlRecOn events step h (fun _ h event _ => step_conveyed h event)

/-- When the inbound side has ended, the loop has returned `Ok`, and the caller has got the bytes up
to the receiver's cursor and no others. The download is complete exactly when the cursor has
reached its end. -/
theorem inbound_end_writes_ordered_prefix (target : Bytes) (drawn : ℕ) (attempts : List Attempt)
    (replied : Bool) (now : ℕ) (clock : ℕ → ℕ) (connected okQueued : ℕ → Bool)
    (events : List TunnelEvent)
    (hend : (events.foldl step (opened (.connect target drawn attempts replied now) clock connected
      okQueued)).client.ending = some .inboundEnded) :
    let t := events.foldl step (opened (.connect target drawn attempts replied now) clock connected
      okQueued)
    let read := (t.servers t.client.streamId).targetRead
    t.client.ending.map Ending.result = some (.ok ()) ∧
      t.client.received.expected ≤ read.length ∧
      t.client.written = read.take t.client.received.expected ∧
      (t.client.written = read ↔ t.client.received.expected = read.length) := by
  intro t read
  have h : t.Conveyed := run_conveyed
    (opened_conveyed (ClientStream.connect_fresh _ _ _ _ _) clock connected okQueued) events
  have hended : t.client.ending = some .inboundEnded := hend
  obtain ⟨hsound, hwrite⟩ := h.downlinked.sound (fun e he => by
    rw [hended] at he
    cases he)
  have hle := hsound.cursor_le
  rw [ReorderReceiver.buffer_cursor, downlink, ByteStream.addressable_bytes,
    List.length_take] at hle
  have horder : t.client.written = read.take t.client.received.expected := by
    rw [hwrite, downlink, ByteStream.addressable_bytes, List.take_take,
      Nat.min_eq_left (by omega)]
  have hlen : t.client.received.expected ≤ read.length := by
    change t.client.received.expected ≤ (t.servers t.client.streamId).targetRead.length
    omega
  refine ⟨by rw [hended]; rfl, hlen, horder, ?_⟩
  constructor
  · intro hall
    have hlength := congrArg List.length horder
    rw [hall, List.length_take] at hlength
    omega
  · intro hall
    rw [horder, hall, List.take_length]

/-- The server reads two chunks and closes; the first chunk and the CLOSE arrive. -/
def secondChunkLost : List TunnelEvent :=
  [.serve 1 (.select 0 0 (.read [7, 8] true)), .serve 1 (.select 0 0 (.read [9] true)),
    .serve 1 (.select 0 0 (.read [] true)), .serve 1 (.release true true),
    .arrive 1 1, .arrive 1 3,
    .turn (.select 0 true 0 (.inbound (some (.data (StreamSequence.encodeAt 0 [7, 8]))) none)),
    .turn (.select 0 true 0 (.inbound (some .closed) none))]

theorem inbound_end_writes_first_chunk :
    let t := secondChunkLost.foldl step
      (opened (.connect [] 0 [{}] true 0) (fun _ => 0) (fun _ => true) (fun _ => true))
    t.client.ending = some .inboundEnded ∧ t.client.written = [7, 8] := by
  have he : (secondChunkLost.foldl step (opened (.connect [] 0 [{}] true 0) (fun _ => 0)
      (fun _ => true) (fun _ => true))).client.ending = some .inboundEnded := by decide +kernel
  obtain ⟨-, -, horder, -⟩ := inbound_end_writes_ordered_prefix [] 0 [{}] true 0 (fun _ => 0)
    (fun _ => true) (fun _ => true) secondChunkLost he
  exact ⟨he, horder.trans (by decide +kernel)⟩

/-- The last byte is missing, there is no hole to see, and the loop returns `Ok`. -/
theorem lost_last_chunk_ends_cleanly :
    let t := secondChunkLost.foldl step
      (opened (.connect [] 0 [{}] true 0) (fun _ => 0) (fun _ => true) (fun _ => true))
    t.client.ending = some .inboundEnded ∧ t.client.ending.map Ending.result = some (.ok ()) ∧
      t.client.written = [7, 8] ∧ (t.servers t.client.streamId).targetRead = [7, 8, 9] ∧
      (t.servers t.client.streamId).ending = some .targetClosed := by
  decide +kernel

end Tunnel
end Csqtt
