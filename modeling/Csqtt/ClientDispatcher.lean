import Csqtt.AssocMap
import Csqtt.ClientObfs
import Csqtt.ProxyFrame
import Csqtt.RoundRobin
import Csqtt.Runs
import Mathlib.Data.List.Sort

/-!
# The carriers of proxied streams

`workers` holds the channels of the carriers that are up, and `proxy_routes` the carrier, by number
and incarnation, that each stream was opened on. A call is one step that is told what it got: the
waiting for the pool and for a queue is left out.
-/

namespace Csqtt

/-- `priority` names the queue that proxied frames go to. -/
structure WorkerChannels where
  id : ℕ
  incarnationId : ℕ
  turnPath : Bytes
  priority : ℕ
  deriving DecidableEq

namespace WorkerChannels

def route (w : WorkerChannels) : ℕ × ℕ := (w.id, w.incarnationId)

def Before (left right : WorkerChannels) : Prop :=
  left.turnPath < right.turnPath ∨ (left.turnPath = right.turnPath ∧ left.id ≤ right.id)

instance : DecidableRel Before := fun _ _ => inferInstanceAs (Decidable (_ ∨ _))

def joinGroups (groups : List (List WorkerChannels)) (worker : WorkerChannels) :
    List (List WorkerChannels) :=
  match groups.getLast? with
  | none => groups ++ [[worker]]
  | some group =>
    if group.head?.any (·.turnPath = worker.turnPath) then groups.dropLast ++ [group ++ [worker]]
    else groups ++ [[worker]]

end WorkerChannels

def interleaveTurnPaths (workers : List WorkerChannels) : List WorkerChannels :=
  RoundRobin.rounds ((workers.insertionSort WorkerChannels.Before).foldl
    WorkerChannels.joinGroups [])
    (workers.length + 1) 0

theorem WorkerChannels.flatten_joinGroups (groups : List (List WorkerChannels))
    (worker : WorkerChannels) :
    (joinGroups groups worker).flatten = groups.flatten ++ [worker] := by
  unfold joinGroups
  split
  · rw [List.flatten_append]
    rfl
  · rename_i group hg
    split_ifs
    · have hs : groups = groups.dropLast ++ [group] :=
        (List.dropLast_append_getLast? group hg).symm
      conv_rhs => rw [hs]
      rw [List.flatten_append, List.flatten_append, List.append_assoc, List.flatten_singleton,
        List.flatten_singleton]
    · rw [List.flatten_append]
      rfl

variable (workers : List WorkerChannels)

theorem flatten_foldl_joinGroups (groups : List (List WorkerChannels)) :
    (workers.foldl WorkerChannels.joinGroups groups).flatten = groups.flatten ++ workers := by
  induction workers generalizing groups with
  | nil => rw [List.foldl_nil, List.append_nil]
  | cons _ _ ih =>
    rw [List.foldl_cons, ih, WorkerChannels.flatten_joinGroups, List.append_assoc]
    rfl

theorem interleaveTurnPaths_perm : (interleaveTurnPaths workers).Perm workers := by
  have hs := List.perm_insertionSort WorkerChannels.Before workers
  have hf := flatten_foldl_joinGroups (workers.insertionSort WorkerChannels.Before) []
  rw [List.flatten_nil, List.nil_append] at hf
  unfold interleaveTurnPaths
  generalize (workers.insertionSort WorkerChannels.Before).foldl WorkerChannels.joinGroups
    [] = groups
    at hf ⊢
  have hl : ∀ group ∈ groups, group.length < 0 + (workers.length + 1) := by
    intro group hg
    have hle := (List.sublist_flatten_of_mem hg).length_le
    rw [hf, hs.length_eq] at hle
    omega
  have hr := RoundRobin.rounds_perm hl
  rw [show (fun group : List WorkerChannels => group.drop 0) = id from rfl, List.flatMap_id,
    hf] at hr
  exact hr.trans hs

theorem mem_interleaveTurnPaths {workers : List WorkerChannels} {w : WorkerChannels} :
    w ∈ interleaveTurnPaths workers ↔ w ∈ workers :=
  (interleaveTurnPaths_perm workers).mem_iff

inductive DispatchError
  | invalidFrame
  | openRequired
  | notReady
  | carrierUnavailable
  | carrierReplaced
  | poolExhausted
  | readLength
  | queueUnavailable
  deriving DecidableEq

structure QueuedFrame where
  worker : WorkerChannels
  frame : Bytes
  deriving DecidableEq

/-- What a send gets from the pool and from the queue of the worker. -/
structure ProxySendIo where
  acquired : Bool := true
  queued : Bool := true

/-- `carried` is everything that was put into the queues of the workers. -/
structure Dispatcher where
  workers : List WorkerChannels := []
  proxyRoutes : AList (fun _ : ℕ => ℕ × ℕ) := ∅
  carried : List QueuedFrame := []

namespace Dispatcher

def register (d : Dispatcher) (channels : WorkerChannels) : Dispatcher :=
  { d with
    workers := interleaveTurnPaths (d.workers.filter (·.id ≠ channels.id) ++ [channels]) }

/-- The dispatcher without a carrier, and the streams that were pinned to it. -/
def unregister (d : Dispatcher) (id incarnationId : ℕ) : Dispatcher × List ℕ :=
  ({ d with
      workers := interleaveTurnPaths
        (d.workers.filter fun w => w.id ≠ id ∨ w.incarnationId ≠ incarnationId)
      proxyRoutes := d.proxyRoutes.filterValues fun _ route => route ≠ (id, incarnationId) },
    (d.proxyRoutes.entries.filter (·.2 = (id, incarnationId))).map (·.1))

def pin (d : Dispatcher) (streamId : ℕ) (route : ℕ × ℕ) : Dispatcher :=
  { d with proxyRoutes := d.proxyRoutes.insert streamId route }

def unpin (d : Dispatcher) (streamId : ℕ) : Dispatcher :=
  { d with proxyRoutes := d.proxyRoutes.erase streamId }

/-- The end of both sends, once the route is known. -/
def transmit (d : Dispatcher) (worker : Option WorkerChannels) (streamId : ℕ) (frame : Bytes)
    (io : ProxySendIo) : Dispatcher × Except DispatchError Unit :=
  if !io.acquired then (d.unpin streamId, .error .poolExhausted)
  else if packetCapacity - packetHeadroom < frame.length then (d, .error .readLength)
  else
    match worker with
    | none => (d.unpin streamId, .error .carrierReplaced)
    | some worker =>
      if !io.queued then (d.unpin streamId, .error .queueUnavailable)
      else ({ d with carried := d.carried ++ [⟨worker, frame⟩] }, .ok ())

/-- The route of a frame. An OPEN makes one to the first worker. -/
def chooseRoute (d : Dispatcher) (f : Frame) : Except DispatchError (Dispatcher × (ℕ × ℕ)) :=
  if f.kind = kindOpen then
    match d.workers.head? with
    | none => .error .notReady
    | some worker => .ok (d.pin f.streamId worker.route, worker.route)
  else
    match d.proxyRoutes.lookup f.streamId with
    | none => .error .carrierUnavailable
    | some route => .ok (d, route)

def sendProxyFrame (d : Dispatcher) (frame : Bytes) (io : ProxySendIo) :
    Dispatcher × Except DispatchError Unit :=
  match parseFrame frame with
  | none => (d, .error .invalidFrame)
  | some f =>
    match d.chooseRoute f with
    | .error e => (d, .error e)
    | .ok (d, route) =>
      if d.workers.any (·.route = route) then
        match d.transmit (d.workers.find? (·.route = route)) f.streamId frame io with
        | (d, .error e) => (d, .error e)
        | (d, .ok ()) => (if f.kind = kindClose then d.unpin f.streamId else d, .ok ())
      else (if f.kind ≠ kindOpen then d.unpin f.streamId else d, .error .carrierReplaced)

def sendProxyOpen (d : Dispatcher) (frame : Bytes) (workerHint : ℕ) (io : ProxySendIo) :
    Dispatcher × Except DispatchError Unit :=
  match parseFrame frame with
  | none => (d, .error .invalidFrame)
  | some f =>
    if f.kind ≠ kindOpen then (d, .error .openRequired)
    else
      match d.workers[workerHint % max d.workers.length 1]? with
      | none => (d, .error .notReady)
      | some worker => (d.pin f.streamId worker.route).transmit (some worker) f.streamId frame io

inductive Call
  | register (channels : WorkerChannels)
  | unregister (id incarnationId : ℕ)
  | sendOpen (frame : Bytes) (workerHint : ℕ) (io : ProxySendIo)
  | sendFrame (frame : Bytes) (io : ProxySendIo)

def step (d : Dispatcher) : Call → Dispatcher
  | .register channels => d.register channels
  | .unregister id incarnationId => (d.unregister id incarnationId).1
  | .sendOpen frame workerHint io => (d.sendProxyOpen frame workerHint io).1
  | .sendFrame frame io => (d.sendProxyFrame frame io).1

def opensStream (frame : Bytes) : Option ℕ :=
  (parseFrame frame).bind fun f => if f.kind = kindOpen then some f.streamId else none

namespace Call

def registers : Call → Option WorkerChannels
  | .register channels => some channels
  | _ => none

def opens : Call → Option ℕ
  | .sendOpen frame _ _ => opensStream frame
  | .sendFrame frame _ => opensStream frame
  | _ => none

end Call

/-- What a send can do: it fails and carries nothing, or it succeeds and puts its frame into the
queue of one worker, to which the stream is pinned by then. It touches no route but that of its
stream. -/
inductive Sent (d : Dispatcher) (frame : Bytes) : Dispatcher → Except DispatchError Unit → Prop
  | refused {d' : Dispatcher} {e : DispatchError} (workers : d'.workers = d.workers)
      (carried : d'.carried = d.carried)
      (routes : ∀ s, d'.proxyRoutes.lookup s = d.proxyRoutes.lookup s ∨
        d'.proxyRoutes.lookup s = none ∨ opensStream frame = some s) : Sent d frame d' (.error e)
  | carried {d' : Dispatcher} {f : Frame} {w : WorkerChannels} (parse : parseFrame frame = some f)
      (mem : w ∈ d.workers) (workers : d'.workers = d.workers)
      (carried : d'.carried = d.carried ++ [⟨w, frame⟩])
      (route : f.kind ≠ kindOpen → d.proxyRoutes.lookup f.streamId = some w.route)
      (pinned : ∀ route, d'.proxyRoutes.lookup f.streamId = some route → route = w.route)
      (closed : f.kind = kindClose → d'.proxyRoutes.lookup f.streamId = none)
      (others : ∀ s, s ≠ f.streamId → d'.proxyRoutes.lookup s = d.proxyRoutes.lookup s) :
      Sent d frame d' (.ok ())

variable (d : Dispatcher) (streamId : ℕ)

theorem lookup_unpin (s : ℕ) : (d.unpin streamId).proxyRoutes.lookup s =
      if s = streamId then none else d.proxyRoutes.lookup s := by
  unfold unpin
  split_ifs with hs
  · rw [hs, AList.lookup_erase]
  · exact AList.lookup_erase_ne hs

theorem lookup_pin (route : ℕ × ℕ) (s : ℕ) :
    (d.pin streamId route).proxyRoutes.lookup s =
      if s = streamId then some route else d.proxyRoutes.lookup s := by
  unfold pin
  split_ifs with hs
  · rw [hs, AList.lookup_insert]
  · exact AList.lookup_insert_ne hs

theorem lookup_unpin_or (s : ℕ) :
    (d.unpin streamId).proxyRoutes.lookup s = d.proxyRoutes.lookup s ∨
      (d.unpin streamId).proxyRoutes.lookup s = none := by
  rw [lookup_unpin]
  split_ifs
  · exact .inr rfl
  · exact .inl rfl

/-- The end of a send either fails, and then at most the route of the stream is gone, or carries the
frame and keeps the routes. -/
theorem transmit_cases (worker : Option WorkerChannels) (streamId : ℕ) (frame : Bytes)
    (io : ProxySendIo) : (∃ e, d.transmit worker streamId frame io = (d, .error e) ∨
      d.transmit worker streamId frame io = (d.unpin streamId, .error e)) ∨
    ∃ w, worker = some w ∧ d.transmit worker streamId frame io =
      ({ d with carried := d.carried ++ [⟨w, frame⟩] }, .ok ()) := by
  unfold transmit
  by_cases ha : (!io.acquired) = true
  · rw [if_pos ha]
    exact .inl ⟨_, .inr rfl⟩
  rw [if_neg ha]
  by_cases hl : packetCapacity - packetHeadroom < frame.length
  · rw [if_pos hl]
    exact .inl ⟨_, .inl rfl⟩
  rw [if_neg hl]
  cases worker with
  | none => exact .inl ⟨_, .inr rfl⟩
  | some w =>
    split_ifs
    · exact .inl ⟨_, .inr rfl⟩
    · exact .inr ⟨w, rfl, rfl⟩

variable {frame : Bytes}

theorem opensStream_of_parse {f : Frame} (hp : parseFrame frame = some f) (ho : f.kind = kindOpen) :
    opensStream frame = some f.streamId := by
  rw [opensStream, hp, Option.bind_some, if_pos ho]

theorem parse_of_opensStream {s : ℕ} (h : opensStream frame = some s) :
    ∃ f, parseFrame frame = some f ∧ f.streamId = s := by
  obtain ⟨f, hp, ho⟩ := Option.bind_eq_some_iff.mp h
  split_ifs at ho
  exact ⟨f, hp, Option.some.inj ho⟩

variable {w : WorkerChannels}

theorem sent_pin {d : Dispatcher} {f : Frame} (hparse : parseFrame frame = some f)
    (ho : f.kind = kindOpen) (hw : w ∈ d.workers) (io : ProxySendIo) :
    Sent d frame ((d.pin f.streamId w.route).transmit (some w) f.streamId frame io).1
      ((d.pin f.streamId w.route).transmit (some w) f.streamId frame io).2 := by
  have hop := opensStream_of_parse hparse ho
  have hp : ∀ s, s ≠ f.streamId →
      (d.pin f.streamId w.route).proxyRoutes.lookup s = d.proxyRoutes.lookup s :=
    fun s hs => (lookup_pin d _ _ s).trans (if_neg hs)
  obtain ⟨e, he | he⟩ | ⟨w', hw', he⟩ :=
    (d.pin f.streamId w.route).transmit_cases (some w) f.streamId frame io <;> rw [he]
  · refine .refused rfl rfl fun s => ?_
    by_cases hs : s = f.streamId
    · exact .inr (.inr (hs ▸ hop))
    · exact .inl (hp s hs)
  · refine .refused rfl rfl fun s => ?_
    by_cases hs : s = f.streamId
    · exact .inr (.inr (hs ▸ hop))
    · left
      rw [lookup_unpin, if_neg hs]
      exact hp s hs
  · obtain rfl := Option.some.inj hw'
    refine .carried hparse hw rfl rfl (fun hk => absurd ho hk) (fun route hr => ?_)
      (fun hc => ?_) hp
    · rw [lookup_pin, if_pos rfl] at hr
      exact (Option.some.inj hr).symm
    · rw [ho] at hc
      cases hc

theorem sent_sendProxyOpen (frame : Bytes) (workerHint : ℕ) (io : ProxySendIo) :
    Sent d frame (d.sendProxyOpen frame workerHint io).1
    (d.sendProxyOpen frame workerHint io).2 := by
  have hs : ∀ e, Sent d frame d (.error e) := fun e => .refused rfl rfl fun s => .inl rfl
  unfold sendProxyOpen
  split
  · exact hs _
  · rename_i f hp
    split_ifs with ho
    · exact hs _
    · split
      · exact hs _
      · rename_i w hw
        exact sent_pin hp (not_not.mp ho) (List.mem_of_getElem? hw) io

theorem find_head {d : Dispatcher} (hw : d.workers.head? = some w) :
    d.workers.any (·.route = w.route) = true ∧ d.workers.find? (·.route = w.route) = some w := by
  obtain ⟨rest, hr⟩ := List.head?_eq_some_iff.mp hw
  rw [hr]
  constructor
  · rw [List.any_cons, decide_eq_true rfl, Bool.true_or]
  · exact List.find?_cons_of_pos (p := fun v : WorkerChannels => decide (v.route = w.route))
      (decide_eq_true rfl)

theorem sent_sendProxyFrame (frame : Bytes) (io : ProxySendIo) :
    Sent d frame (d.sendProxyFrame frame io).1 (d.sendProxyFrame frame io).2 := by
  have hself : ∀ e, Sent d frame d (.error e) := fun e => .refused rfl rfl fun s => .inl rfl
  have hunpin : ∀ streamId e, Sent d frame (d.unpin streamId) (.error e) := fun streamId e =>
    .refused rfl rfl fun s => (d.lookup_unpin_or streamId s).imp_right .inl
  unfold sendProxyFrame
  split
  · exact hself _
  · rename_i f hparse
    by_cases hopen : f.kind = kindOpen
    · rw [chooseRoute, if_pos hopen]
      cases hhead : d.workers.head? with
      | none => exact hself _
      | some w =>
        obtain ⟨hany, hfind⟩ := find_head hhead
        have hsent := sent_pin hparse hopen (List.mem_of_mem_head? hhead) io
        dsimp only
        have hany' : (d.pin f.streamId w.route).workers.any (·.route = w.route) = true := hany
        have hfind' : (d.pin f.streamId w.route).workers.find? (·.route = w.route) = some w := hfind
        rw [if_pos hany', hfind']
        split
        · rename_i d' e heq
          rw [heq] at hsent
          exact hsent
        · rename_i d' heq
          rw [heq] at hsent
          rw [if_neg (by rw [hopen]; decide)]
          exact hsent
    · rw [chooseRoute, if_neg hopen]
      cases hroute : d.proxyRoutes.lookup f.streamId with
      | none => exact hself _
      | some route =>
        dsimp only
        by_cases hany : d.workers.any (·.route = route) = true
        · rw [if_pos hany]
          obtain ⟨e, he | he⟩ | ⟨w, hfind, he⟩ := d.transmit_cases
            (d.workers.find? (·.route = route)) f.streamId frame io <;> rw [he]
          · exact hself e
          · exact hunpin f.streamId e
          · have hw := of_decide_eq_true
              (List.find?_some (p := fun v : WorkerChannels => decide (v.route = route)) hfind)
            have hlook : d.proxyRoutes.lookup f.streamId = some w.route := hw ▸ hroute
            dsimp only
            refine .carried hparse (List.mem_of_find?_eq_some hfind) ?_ ?_ (fun _ => hlook)
              (fun route' hroute' => ?_) (fun hclose => ?_) (fun s hs => ?_)
            · split_ifs <;> rfl
            · split_ifs <;> rfl
            · split_ifs at hroute' with hclose
              · rw [lookup_unpin, if_pos rfl] at hroute'
                cases hroute'
              · exact Option.some.inj (hroute'.symm.trans hlook)
            · rw [if_pos hclose, lookup_unpin, if_pos rfl]
            · split_ifs
              · rw [lookup_unpin, if_neg hs]
              · rfl
        · rw [if_neg hany, if_pos hopen]
          exact hunpin f.streamId _

end Dispatcher
end Csqtt
