import Csqtt.CarrierPins
import Csqtt.StreamFeeds

/-!
# Streams whose carrier is gone

When a carrier unregisters, the ids of its streams go through a channel of 256 places, without
waiting; a task takes them out and tells each stream. An id that finds the channel full is lost,
and its stream is neither told nor taken out of the table.
-/

namespace Csqtt

def abortCapacity : ℕ := 256

/-- `notifying` are the ids that calls of `unregister` have yet to send, and `aborts` is the
channel. `orphaned` and `given` record the streams that have lost their carrier and those that the
task has given a Closed event. -/
structure AbortPlane where
  dispatcher : Dispatcher := {}
  streams : InboundTable := {}
  nextId : ℕ := 1
  notifying : List ℕ := []
  aborts : List ℕ := []
  orphaned : List ℕ := []
  given : List ℕ := []

namespace AbortPlane

inductive Event
  | register (channels : WorkerChannels)
  | unregister (id incarnationId : ℕ)
  | notify (i : ℕ)
  | abort
  | enter
  | sendOpen (frame : Bytes) (workerHint : ℕ) (io : ProxySendIo)
  | sendFrame (frame : Bytes) (io : ProxySendIo)
  | frame (payload : Bytes)
  | remove (id : ℕ)
  | receive (task : ℕ)
  | hangUp (task : ℕ)

def drawn (s : AbortPlane) (frame : Bytes) : Bool :=
  (parseFrame frame).all (·.streamId < s.nextId)

/-- The next send of an unregister. -/
def notify (s : AbortPlane) (i : ℕ) : AbortPlane :=
  match s.notifying[i]? with
  | none => s
  | some id =>
    { s with
      notifying := s.notifying.eraseIdx i
      aborts := if s.aborts.length < abortCapacity then s.aborts ++ [id] else s.aborts }

/-- The channel of a stream takes a Closed event. -/
def takesClosed (t : InboundTable) (id : ℕ) : Bool :=
  (t.get id).any fun n => (t.trySend inboundCapacity n .closed).isSome

/-- A turn of the abort task. -/
def abort (s : AbortPlane) : AbortPlane :=
  match s.aborts with
  | [] => s
  | id :: rest =>
    { s with
      aborts := rest
      streams := s.streams.deliverInbound id .closed
      given := if takesClosed s.streams id then s.given ++ [id] else s.given }

def step (s : AbortPlane) : Event → AbortPlane
  | .register channels => { s with dispatcher := s.dispatcher.register channels }
  | .unregister id incarnationId =>
    let (dispatcher, aborted) := s.dispatcher.unregister id incarnationId
    { s with
      dispatcher
      notifying := s.notifying ++ aborted
      orphaned := s.orphaned ++ aborted }
  | .notify i => s.notify i
  | .abort => s.abort
  | .enter => { s with streams := s.streams.insert s.nextId, nextId := s.nextId + 1 }
  | .sendOpen frame workerHint io =>
    if s.drawn frame then
      { s with dispatcher := (s.dispatcher.sendProxyOpen frame workerHint io).1 }
    else s
  | .sendFrame frame io =>
    if s.drawn frame then { s with dispatcher := (s.dispatcher.sendProxyFrame frame io).1 } else s
  | .frame payload => { s with streams := s.streams.onFrame payload }
  | .remove id => { s with streams := s.streams.remove id }
  | .receive task => { s with streams := s.streams.receive task }
  | .hangUp task => { s with streams := s.streams.hangUp task }

/-- A send to the abort channel finds room. -/
def Roomy (s : AbortPlane) : Event → Prop
  | .notify _ => s.aborts.length < abortCapacity
  | _ => True

instance (s : AbortPlane) (event : Event) : Decidable (s.Roomy event) :=
  match event with
  | .notify _ => inferInstanceAs (Decidable (s.aborts.length < abortCapacity))
  | .register _ | .unregister _ _ | .abort | .enter | .sendOpen _ _ _ | .sendFrame _ _ | .frame _
  | .remove _ | .receive _ | .hangUp _ => inferInstanceAs (Decidable True)

/-- What has become of a stream without a carrier. -/
def Told (s : AbortPlane) (id : ℕ) : Prop := id ∈ s.given ∨ s.streams.get id = none

structure Tracked (s : AbortPlane) : Prop where
  orphans : ∀ id ∈ s.orphaned, id < s.nextId
  routes : ∀ id route, s.dispatcher.proxyRoutes.lookup id = some route → id < s.nextId
  under : ∀ id ∈ s.orphaned, id ∈ s.notifying ∨ id ∈ s.aborts ∨ s.Told id

variable {s s' : AbortPlane}

theorem Tracked.shrinks (h : s.Tracked) {streams : InboundTable}
    (hs : SenderTable.Shrinks s.streams streams) : Tracked { s with streams } := by
  refine ⟨h.orphans, h.routes, fun id hid => (h.under id hid).imp_right (Or.imp_right ?_)⟩
  exact Or.imp_right hs.get_eq_none

theorem Tracked.dispatch (h : s.Tracked) {dispatcher : Dispatcher}
    (hr : ∀ id route, dispatcher.proxyRoutes.lookup id = some route → id < s.nextId) :
    Tracked { s with dispatcher } := ⟨h.orphans, hr, h.under⟩

theorem lt_of_drawn {frame : Bytes} {f : Frame} (h : s.drawn frame = true)
    (hp : parseFrame frame = some f) : f.streamId < s.nextId := by
  rw [drawn, hp] at h
  exact of_decide_eq_true h

theorem Tracked.sent (h : s.Tracked) {frame : Bytes} (hd : s.drawn frame = true)
    {dispatcher : Dispatcher} {r : Except DispatchError Unit}
    (hs : s.dispatcher.Sent frame dispatcher r) : Tracked { s with dispatcher } := by
  apply h.dispatch
  intro id route hr
  cases hs with
  | refused _ _ hroute =>
    obtain hsame | hn | ho := hroute id
    · exact h.routes id route (hsame ▸ hr)
    · rw [hn] at hr
      cases hr
    · obtain ⟨f, hp, rfl⟩ := Dispatcher.parse_of_opensStream ho
      exact lt_of_drawn hd hp
  | @carried f w hp _ _ _ _ _ _ hothers =>
    by_cases hid : id = f.streamId
    · exact hid ▸ lt_of_drawn hd hp
    · exact h.routes id route (hothers id hid ▸ hr)

theorem Tracked.unregister (h : s.Tracked) (id incarnationId : ℕ) :
    (s.step (.unregister id incarnationId)).Tracked := by
  have hp : ∀ stream ∈ (s.dispatcher.unregister id incarnationId).2, stream < s.nextId := by
    intro stream hs
    obtain ⟨entry, he, rfl⟩ := List.mem_map.mp hs
    exact h.routes entry.1 entry.2 (AList.mem_lookup_iff.mpr (List.mem_filter.mp he).1)
  refine ⟨?_, ?_, ?_⟩
  · exact List.forall_mem_append.mpr ⟨h.orphans, hp⟩
  · intro stream route hr
    change (s.dispatcher.proxyRoutes.filterValues _).lookup stream = some route at hr
    rw [AList.lookup_filterValues] at hr
    exact h.routes stream route (Option.filter_eq_some_iff.mp hr).1
  · refine List.forall_mem_append.mpr ⟨fun stream hs => ?_, fun stream hs => ?_⟩
    · exact (h.under stream hs).imp_left (List.mem_append_left _)
    · exact .inl (List.mem_append_right _ hs)

theorem Tracked.notify (h : s.Tracked) (hr : s.aborts.length < abortCapacity) (i : ℕ) :
    (s.notify i).Tracked := by
  unfold AbortPlane.notify
  split
  · exact h
  · rename_i id hid
    refine ⟨h.orphans, h.routes, fun stream hstream => ?_⟩
    rw [if_pos hr]
    obtain hn | ha | ht := h.under stream hstream
    · by_cases hs : stream = id
      · exact .inr (.inl (hs ▸ List.mem_append_right _ (List.mem_singleton_self _)))
      · obtain ⟨j, hj⟩ := List.getElem?_of_mem hn
        refine .inl (List.mem_eraseIdx_iff_getElem?.mpr ⟨j, fun hij => hs ?_, hj⟩)
        rw [hij, hid] at hj
        exact (Option.some.inj hj).symm
    · exact .inr (.inl (List.mem_append_left _ ha))
    · exact .inr (.inr ht)

variable {id n k : ℕ}

theorem get_deliverInbound {t : InboundTable} (h : takesClosed t id = false) :
    (t.deliverInbound id .closed).get id = none := by
  unfold takesClosed at h
  unfold InboundTable.deliverInbound SenderTable.deliver
  cases hg : t.get id with
  | none => exact hg
  | some =>
    rw [hg, Option.any_some, Option.isSome_eq_false_iff, Option.isNone_iff_eq_none] at h
    dsimp only
    rw [h, Option.getD_none, SenderTable.get_remove, if_pos rfl]

theorem Tracked.abort (h : s.Tracked) : s.abort.Tracked := by
  unfold AbortPlane.abort
  split
  · exact h
  · rename_i id rest ha
    have hs : SenderTable.Shrinks s.streams (s.streams.deliverInbound id .closed) :=
      .deliver s.streams id .closed
    refine ⟨h.orphans, h.routes, fun stream hstream => ?_⟩
    obtain hn | hq | hg | hno := h.under stream hstream
    · exact .inl hn
    · rw [ha] at hq
      obtain rfl | hq := List.mem_cons.mp hq
      · refine .inr (.inr ?_)
        cases ht : takesClosed s.streams stream with
        | true => exact .inl (List.mem_append_right _ (List.mem_singleton_self _))
        | false => exact .inr (get_deliverInbound ht)
      · exact .inr (.inl hq)
    · refine .inr (.inr (.inl ?_))
      split_ifs
      · exact List.mem_append_left _ hg
      · exact hg
    · exact .inr (.inr (.inr (hs.get_eq_none hno)))

theorem Tracked.enter (h : s.Tracked) : (s.step .enter).Tracked := by
  refine ⟨fun id hid => ?_, fun id route hr => ?_, fun id hid => ?_⟩
  · exact Nat.lt_succ_of_lt (h.orphans id hid)
  · exact Nat.lt_succ_of_lt (h.routes id route hr)
  · refine (h.under id hid).imp_right (Or.imp_right (Or.imp_right fun hn => ?_))
    change (s.streams.insert s.nextId).get id = none
    rw [SenderTable.get_insert, if_neg (Nat.ne_of_lt (h.orphans id hid))]
    exact hn

theorem Tracked.step (h : s.Tracked) (event : Event) (hr : s.Roomy event) :
    (s.step event).Tracked := by
  cases event with
  | register => exact h.dispatch h.routes
  | unregister id incarnationId => exact h.unregister id incarnationId
  | notify i => exact h.notify hr i
  | abort => exact h.abort
  | enter => exact h.enter
  | sendOpen frame workerHint io =>
    rw [AbortPlane.step]
    split_ifs with hd
    · exact h.sent hd (s.dispatcher.sent_sendProxyOpen frame workerHint io)
    · exact h
  | sendFrame frame io =>
    rw [AbortPlane.step]
    split_ifs with hd
    · exact h.sent hd (s.dispatcher.sent_sendProxyFrame frame io)
    · exact h
  | frame payload => exact h.shrinks (InboundTable.shrinks_onFrame s.streams payload)
  | remove id => exact h.shrinks (.remove s.streams id)
  | receive task => exact h.shrinks (.receive s.streams task)
  | hangUp task => exact h.shrinks (.hangUp s.streams task)

theorem tracked_empty : Tracked {} := by
  refine ⟨fun _ hid => absurd hid List.not_mem_nil, fun id route hr => ?_,
    fun _ hid => absurd hid List.not_mem_nil⟩
  cases hr

/-- If every id that an unregister sends finds room in the abort channel, then whenever all are sent
and the channel is drained, each stream that has lost its carrier was given a Closed event or is out
of the table. -/
theorem orphans_told (events : List Event) (h : Runs.Along step Roomy {} events) :
    Runs.Always step (fun s => s.notifying = [] → s.aborts = [] →
      ∀ id ∈ s.orphaned, id ∈ s.given ∨ s.streams.get id = none) {} events := by
  have hr : Runs.Always step Tracked {} events :=
    Runs.always_invariant (fun _ event hs hroomy => hs.step event hroomy) tracked_empty h
  refine Runs.always_mono (fun s hs hn ha id hid => ?_) hr
  obtain hm | hm | ht := hs.under id hid
  · rw [hn] at hm
    cases hm
  · rw [ha] at hm
    cases hm
  · exact ht

/-- The streams `1` to `n` are opened on one carrier. -/
def opening (n : ℕ) : List Event :=
  .register (Dispatcher.carrier 1 1) ::
    (List.range n).flatMap fun i => [.enter, .sendOpen (encodeFrame ⟨kindOpen, i + 1, []⟩) 0 {}]

/-- The carrier unregisters, and the abort task starts when all sends are done. -/
def carrierLost (n : ℕ) : List Event :=
  opening n ++ .unregister 1 1 :: (List.replicate n (.notify 0) ++ List.replicate n .abort)

theorem orphans_told_three : Runs.Always step (fun s => s.notifying = [] → s.aborts = [] →
      ∀ id ∈ s.orphaned, id ∈ s.given ∨ s.streams.get id = none) {} (carrierLost 3) :=
  orphans_told _ (by decide +kernel)

/-- The ids that the unregister sends, the latest first. -/
def openedIds (n : ℕ) : List ℕ := ((List.range n).map (· + 1)).reverse

structure Opened (n : ℕ) (s : AbortPlane) : Prop where
  workers : s.dispatcher.workers = [Dispatcher.carrier 1 1]
  nextId : s.nextId = n + 1
  routes : s.dispatcher.proxyRoutes.entries = (openedIds n).map fun id => ⟨id, (1, 1)⟩
  first : 0 < n → s.streams.get 1 = some 0
  channels : s.streams.channels.length = n
  quiet : s.notifying = [] ∧ s.aborts = [] ∧ s.orphaned = [] ∧ s.given = []

theorem openedIds_succ (n : ℕ) : openedIds (n + 1) = (n + 1) :: openedIds n := by
  rw [openedIds, List.range_succ, List.map_append, List.reverse_append]
  rfl

theorem mem_openedIds (h : id ∈ openedIds n) : id ≤ n := by
  rw [openedIds, List.mem_reverse, List.mem_map] at h
  obtain ⟨i, hi, rfl⟩ := h
  exact List.mem_range.mp hi

theorem sendProxyOpen_carrier {d : Dispatcher} (hw : d.workers = [Dispatcher.carrier 1 1])
    (hid : id < 2 ^ 64) : (d.sendProxyOpen (encodeFrame ⟨kindOpen, id, []⟩) 0 {}).1 =
      { d.pin id (1, 1) with
        carried := d.carried ++ [⟨Dispatcher.carrier 1 1, encodeFrame ⟨kindOpen, id, []⟩⟩] } := by
  rw [Dispatcher.sendProxyOpen, parseFrame_encodeFrame hid]
  dsimp only
  rw [if_neg (not_not.mpr rfl), hw]
  change (Dispatcher.transmit (d.pin id (1, 1)) (some (Dispatcher.carrier 1 1)) id _ {}).1 = _
  rfl

theorem Opened.next (h : s.Opened n) (hn : n + 1 < 2 ^ 64) :
    ((s.step .enter).step (.sendOpen (encodeFrame ⟨kindOpen, n + 1, []⟩) 0 {})).Opened (n + 1) := by
  have hdraw : (s.step .enter).drawn (encodeFrame ⟨kindOpen, n + 1, []⟩) = true := by
    rw [drawn, parseFrame_encodeFrame hn]
    refine decide_eq_true ?_
    change n + 1 < s.nextId + 1
    rw [h.nextId]
    exact Nat.lt_succ_self _
  have hfresh : n + 1 ∉ s.dispatcher.proxyRoutes := by
    intro hmem
    have hkeys : n + 1 ∈ s.dispatcher.proxyRoutes.entries.map Sigma.fst := AList.mem_keys.mp hmem
    rw [h.routes, List.map_map, List.mem_map] at hkeys
    obtain ⟨id, hid, hsame⟩ := hkeys
    have hle := mem_openedIds hid
    have heq : id = n + 1 := hsame
    omega
  have hsend : (s.step .enter).step (.sendOpen (encodeFrame ⟨kindOpen, n + 1, []⟩) 0 {}) =
      { s.step .enter with
        dispatcher := (s.dispatcher.sendProxyOpen (encodeFrame ⟨kindOpen, n + 1, []⟩) 0 {}).1 } :=
    if_pos hdraw
  rw [hsend, sendProxyOpen_carrier h.workers hn]
  refine ⟨h.workers, ?_, ?_, fun _ => ?_, ?_, h.quiet⟩
  · change s.nextId + 1 = n + 1 + 1
    rw [h.nextId]
  · change (s.dispatcher.proxyRoutes.insert (n + 1) (1, 1)).entries = _
    rw [AList.entries_insert_of_notMem hfresh, h.routes, openedIds_succ]
    rfl
  · change (s.streams.insert s.nextId).get 1 = some 0
    rw [SenderTable.get_insert, h.nextId, h.channels]
    split_ifs with hfirst
    · rw [show n = 0 by omega]
    · exact h.first (by omega)
  · change (s.streams.insert s.nextId).channels.length = n + 1
    rw [SenderTable.length_insert, h.channels]

theorem opening_succ (n : ℕ) : opening (n + 1) =
    opening n ++ [.enter, .sendOpen (encodeFrame ⟨kindOpen, n + 1, []⟩) 0 {}] := by
  rw [opening, List.range_succ, List.flatMap_append]
  rfl

theorem opened_opening (n : ℕ) (hn : n < 2 ^ 64) : ((opening n).foldl step {}).Opened n := by
  induction n with
  | zero => exact ⟨rfl, rfl, rfl, fun h => absurd h (Nat.lt_irrefl 0), rfl, rfl, rfl, rfl, rfl⟩
  | succ _ ih =>
    rw [opening_succ, List.foldl_append, List.foldl_cons, List.foldl_cons, List.foldl_nil]
    exact (ih (by omega)).next hn

/-- Without a turn of the abort task, the first ids find room and the others are lost. -/
theorem foldl_notify (s : AbortPlane) (ids : List ℕ) (hid : s.notifying = ids)
    (hr : s.aborts.length ≤ abortCapacity) :
    (List.replicate ids.length (.notify 0)).foldl step s =
      { s with notifying := [], aborts := (s.aborts ++ ids).take abortCapacity } := by
  induction ids generalizing s with
  | nil =>
    rw [List.append_nil, List.take_of_length_le hr]
    cases s
    cases hid
    rfl
  | cons id ids ih =>
    have hn : s.step (.notify 0) =
        { s with
          notifying := ids
          aborts := if s.aborts.length < abortCapacity then s.aborts ++ [id] else s.aborts } := by
      rw [step, notify, hid]
      rfl
    rw [List.length_cons, List.replicate_succ, List.foldl_cons, hn]
    by_cases hlt : s.aborts.length < abortCapacity
    · rw [if_pos hlt, ih _ rfl]
      · rw [List.append_assoc]
        rfl
      · rw [List.length_append]
        exact hlt
    · have hf : s.aborts.length = abortCapacity := by omega
      rw [if_neg hlt, ih { s with notifying := ids } rfl hr]
      rw [List.take_left' hf, List.take_left' hf]

/-- A stream that nobody will tell. -/
structure Forgotten (id : ℕ) (s : AbortPlane) : Prop where
  sent : s.notifying = []
  orphan : id ∈ s.orphaned
  queued : id ∉ s.aborts
  given : id ∉ s.given
  entered : (s.streams.get id).isSome

theorem Forgotten.abort (h : s.Forgotten id) : s.abort.Forgotten id := by
  unfold AbortPlane.abort
  split
  · exact h
  · rename_i other rest ha
    have hq := h.queued
    rw [ha, List.mem_cons, not_or] at hq
    refine ⟨h.sent, h.orphan, hq.2, ?_, ?_⟩
    · split_ifs
      · rw [List.mem_append, List.mem_singleton, not_or]
        exact ⟨h.given, hq.1⟩
      · exact h.given
    · change ((s.streams.deliver inboundCapacity other .closed).get id).isSome
      rw [SenderTable.get_deliver_of_ne _ hq.1]
      exact h.entered

theorem aborts_abort (s : AbortPlane) : s.abort.aborts = s.aborts.tail := by
  unfold AbortPlane.abort
  split
  · rename_i ha
    rw [ha]
    rfl
  · rename_i ha
    rw [ha]
    rfl

theorem Forgotten.drain (h : s.Forgotten id) (hk : s.aborts.length ≤ k) :
    ((List.replicate k .abort).foldl step s).Forgotten id ∧
      ((List.replicate k .abort).foldl step s).aborts = [] := by
  induction k generalizing s with
  | zero => exact ⟨h, List.length_eq_zero_iff.mp (Nat.le_zero.mp hk)⟩
  | succ _ ih =>
    apply ih h.abort
    rw [aborts_abort, List.length_tail]
    omega

theorem length_openedIds (n : ℕ) : (openedIds n).length = n := by
  rw [openedIds, List.length_reverse, List.length_map, List.length_range]

theorem Opened.aborted (h : s.Opened n) : (s.dispatcher.unregister 1 1).2 = openedIds n := by
  rw [Dispatcher.unregister, h.routes, List.filter_map, List.map_map]
  have ha : (openedIds n).filter ((fun entry : (_ : ℕ) × (ℕ × ℕ) => decide (entry.2 = (1, 1))) ∘
      fun id => ⟨id, (1, 1)⟩) = openedIds n := List.filter_eq_self.mpr fun _ _ => rfl
  rw [ha]
  exact List.map_id _

theorem Opened.forgotten (h : s.Opened 257) :
    ((List.replicate 257 (.notify 0)).foldl step (s.step (.unregister 1 1))).Forgotten 1 ∧
      ((List.replicate 257 (.notify 0)).foldl step (s.step (.unregister 1 1))).aborts.length ≤
        abortCapacity := by
  obtain ⟨hnot, habort, horphan, hgive⟩ := h.quiet
  have hids : (s.step (.unregister 1 1)).notifying = openedIds 257 := by
    change s.notifying ++ (s.dispatcher.unregister 1 1).2 = _
    rw [hnot, h.aborted, List.nil_append]
  have horphans : (s.step (.unregister 1 1)).orphaned = openedIds 257 := by
    change s.orphaned ++ (s.dispatcher.unregister 1 1).2 = _
    rw [horphan, h.aborted, List.nil_append]
  have hempty : (s.step (.unregister 1 1)).aborts = [] := habort
  have hrun := foldl_notify (s.step (.unregister 1 1)) (openedIds 257) hids (by
    rw [hempty]
    exact Nat.zero_le _)
  rw [length_openedIds] at hrun
  rw [hrun]
  refine ⟨⟨rfl, ?_, ?_, ?_, ?_⟩, List.length_take_le _ _⟩
  · rw [horphans]
    decide +kernel
  · change 1 ∉ ((s.step (.unregister 1 1)).aborts ++ openedIds 257).take abortCapacity
    rw [hempty]
    decide +kernel
  · change 1 ∉ s.given
    rw [hgive]
    exact List.not_mem_nil
  · change (s.streams.get 1).isSome
    rw [h.first (by decide)]
    rfl

/-- With 257 streams on the carrier, the first of them is neither told nor taken out. -/
theorem orphan_forgotten :
    let s := (carrierLost 257).foldl step {}
    s.notifying = [] ∧ s.aborts = [] ∧ 1 ∈ s.orphaned ∧
      ¬ (1 ∈ s.given ∨ s.streams.get 1 = none) := by
  obtain ⟨hf, hl⟩ := (opened_opening 257 (by decide)).forgotten
  obtain ⟨hd, hdrain⟩ := hf.drain (hl.trans (by decide : abortCapacity ≤ 257))
  rw [← List.foldl_append, ← List.foldl_cons, ← List.foldl_append] at hd hdrain
  refine ⟨hd.sent, hdrain, hd.orphan, ?_⟩
  rintro (hg | hn)
  · exact hd.given hg
  · have he := hd.entered
    rw [carrierLost] at hn
    rw [hn] at he
    cases he

end AbortPlane
end Csqtt
