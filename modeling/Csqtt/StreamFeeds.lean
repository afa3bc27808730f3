import Csqtt.ClientInbound
import Csqtt.SenderTable
import Csqtt.ServerStreamTasks

/-!
# What a stream task receives

Both ends of the proxy hold a table of senders and a stream task that drains its channel at its own
pace. When the channel is full the sender is taken out of the table, so a task that catches up
later finds the end of its channel and no event beyond the lost one.
-/

namespace Csqtt

/-- The table `streams` of the SOCKS5 listener, with the channels of the stream tasks. -/
abbrev InboundTable := SenderTable ℕ Inbound

namespace InboundTable

def deliverInbound (t : InboundTable) (id : ℕ) (event : Inbound) : InboundTable :=
  t.deliver inboundCapacity id event

/-- What `open_tunnel`, the frame task, the abort task and the stream tasks do. -/
inductive Action
  | register (id : ℕ)
  | frame (payload : Bytes)
  | abort (id : ℕ)
  | remove (id : ℕ)
  | receive (task : ℕ)
  | hangUp (task : ℕ)

def onFrame (t : InboundTable) (payload : Bytes) : InboundTable :=
  match parseFrame payload with
  | none => t
  | some f =>
    match f.inbound with
    | none => t
    | some event => t.deliverInbound f.streamId event

def step (t : InboundTable) : Action → InboundTable
  | .register id => t.insert id
  | .frame payload => t.onFrame payload
  | .abort id => t.deliverInbound id .closed
  | .remove id => t.remove id
  | .receive task => t.receive task
  | .hangUp task => t.hangUp task

/-- The event that a payload is for a stream. -/
def submitsFrame (id : ℕ) (payload : Bytes) : List Inbound :=
  match parseFrame payload with
  | none => []
  | some f =>
    match f.inbound with
    | none => []
    | some event => SenderTable.submission id f.streamId event

/-- The events that are submitted for a stream. -/
def submits (id : ℕ) : Action → List Inbound
  | .frame payload => submitsFrame id payload
  | .abort id' => SenderTable.submission id id' .closed
  | _ => []

/-- What the task of a channel gets. -/
def receives (task : ℕ) (t : InboundTable) : Action → List Inbound
  | .receive task' => if task' = task then t.next task else []
  | _ => []

theorem shrinks_onFrame (t : InboundTable) (payload : Bytes) :
    SenderTable.Shrinks t (t.onFrame payload) := by
  unfold onFrame
  split
  · exact .refl t
  · split
    · exact .refl t
    · exact .deliver t _ _

theorem wired_step {t : InboundTable} (h : t.Wired) (a : Action) : (t.step a).Wired := by
  cases a with
  | register id => exact h.insert id
  | frame payload => exact h.shrinks (shrinks_onFrame t payload)
  | abort id => exact h.shrinks (.deliver t id .closed)
  | remove id => exact h.shrinks (.remove t id)
  | receive task => exact h.shrinks (.receive t task)
  | hangUp task => exact h.shrinks (.hangUp t task)

theorem wired_run (actions : List Action) : (actions.foldl step ({} : InboundTable)).Wired :=
  List.foldlRecOn actions step (fun _ _ h => by cases h) (fun _ h a _ => wired_step h a)

variable {t : InboundTable} {id n : ℕ}

theorem feeds_onFrame (h : t.Owned id n) (payload : Bytes) :
    Mailbox.Feeds (t.mailbox id n) ((t.onFrame payload).mailbox id n)
    (submitsFrame id payload) [] := by
  unfold onFrame submitsFrame
  cases parseFrame payload with
  | none => exact Mailbox.Feeds.refl _
  | some f =>
    dsimp only
    cases f.inbound with
    | none => exact Mailbox.Feeds.refl _
    | some event => exact h.feeds_deliver f.streamId event

theorem feeds_step (h : t.Owned id n) (a : Action) : (t.step a).Owned id n ∧
    Mailbox.Feeds (t.mailbox id n) ((t.step a).mailbox id n) (submits id a) (receives n t a) := by
  cases a with
  | register id' => exact ⟨h.insert id', h.feeds_insert id'⟩
  | frame payload => exact ⟨h.shrinks (shrinks_onFrame t payload), feeds_onFrame h payload⟩
  | abort id' => exact ⟨h.shrinks (.deliver t id' .closed), h.feeds_deliver id' .closed⟩
  | remove id' => exact ⟨h.shrinks (.remove t id'), t.feeds_cut id id' n⟩
  | receive task => exact ⟨h.shrinks (.receive t task), t.feeds_receive id n task⟩
  | hangUp task => exact ⟨h.shrinks (.hangUp t task), t.feeds_hangUp id n task⟩

/-- The events that the task of a registration receives are the first of those submitted for its id
from then on. -/
theorem received_of_registered (before after : List Action) (id : ℕ) :
    let t := before.foldl step ({} : InboundTable)
    Runs.collect step (receives t.channels.length) (t.step (.register id)) after <+:
      after.flatMap (submits id) := by
  intro t
  have h := (wired_run before).owned_insert id
  have hd := Mailbox.Feeds.collect (I := fun t' => t'.Owned id t.channels.length)
    (fun t' : InboundTable => t'.mailbox id t.channels.length) (fun _ a h => feeds_step h a) h after
  rw [SenderTable.mailbox_insert] at hd
  exact hd

end InboundTable

namespace ProxyTable

def senderTable (s : ProxyTable) : SenderTable (ℕ × ℕ) StreamInput where
  senders := s.streams
  channels := s.tasks.map fun t => ⟨t.input, t.running⟩

theorem senderTable_trySend (s : ProxyTable) (task : ℕ) (item : StreamInput) :
    (s.trySend task item).map senderTable = s.senderTable.trySend streamCapacity task item := by
  unfold trySend SenderTable.trySend
  rw [senderTable, List.getElem?_map]
  cases s.tasks[task]? with
  | none => rfl
  | some =>
    dsimp only [Option.map_some]
    split_ifs
    · rw [Option.map_some, senderTable, List.map_set]
    · rfl

theorem get_senderTable (s : ProxyTable) (key : ℕ × ℕ) : s.senderTable.get key = s.get key := by
  unfold get SenderTable.get
  congr 1
  exact lawful_beq_subsingleton _ _

theorem remove_senderTable (s : ProxyTable) (key : ℕ × ℕ) :
    s.senderTable.remove key = (s.remove key).senderTable := rfl

theorem senderTable_offer (s : ProxyTable) (key : ℕ × ℕ) (item : StreamInput) :
    (s.offer key item).1.senderTable = s.senderTable.deliver streamCapacity key item := by
  unfold offer SenderTable.deliver
  rw [get_senderTable]
  cases s.get key with
  | none => rfl
  | some task =>
    dsimp only
    rw [← senderTable_trySend]
    cases s.trySend task item with
    | none | some => rfl

theorem senderTable_removeAndClose (s : ProxyTable) (key : ℕ × ℕ) :
    (s.removeAndClose key).senderTable = s.senderTable.close streamCapacity key .close := by
  unfold removeAndClose SenderTable.close
  rw [get_senderTable]
  cases s.get key with
  | none => rfl
  | some task =>
    dsimp only
    rw [remove_senderTable, ← senderTable_trySend]
    cases (s.remove key).trySend task .close with
    | none | some => rfl

theorem senderTable_closeAll (keys : List (ℕ × ℕ)) (s : ProxyTable) :
    (keys.foldl removeAndClose s).senderTable =
      keys.foldl (fun t key => t.close streamCapacity key .close) s.senderTable := by
  induction keys generalizing s with
  | nil => rfl
  | cons _ _ ih => rw [List.foldl_cons, List.foldl_cons, ih, senderTable_removeAndClose]

theorem senderTable_receive (s : ProxyTable) (task : ℕ) :
    (s.receive task).senderTable = s.senderTable.receive task := by
  unfold receive SenderTable.receive
  rw [senderTable, senderTable, List.getElem?_map]
  cases s.tasks[task]? with
  | none => rfl
  | some =>
    dsimp only [Option.map_some]
    split_ifs
    · rw [List.map_set]
    · rfl

theorem senderTable_finish (s : ProxyTable) (task : ℕ) (failed errorQueued closeQueued : Bool) :
    (s.finish task failed errorQueued closeQueued).senderTable = s.senderTable ∨
      ∃ key, (s.finish task failed errorQueued closeQueued).senderTable =
        (s.senderTable.hangUp task).remove key := by
  unfold finish SenderTable.hangUp
  rw [senderTable, senderTable, List.getElem?_map]
  cases s.tasks[task]? with
  | none => exact .inl rfl
  | some t =>
    dsimp only [Option.map_some]
    split_ifs
    · refine .inr ⟨t.key, ?_⟩
      rw [List.map_set]
      rfl
    · exact .inl rfl

theorem senderTable_sendFrame (s : ProxyTable) (session : ℕ) (f : Frame) (queued : Bool) :
    (s.sendFrame session f queued).1.senderTable = s.senderTable := by
  cases queued <;> rfl

theorem senderTable_spawn {s : ProxyTable} {key : ℕ × ℕ} (h : s.containsKey key = false)
    (target : TargetHost × ℕ) : (s.spawn key target).senderTable = s.senderTable.insert key := by
  have hf : s.streams.filter (·.1 ≠ key) = s.streams := by
    apply List.filter_eq_self.mpr
    intro entry he
    rw [containsKey, List.any_eq_false] at h
    exact decide_eq_true (fun hk => h entry he (decide_eq_true hk))
  unfold spawn SenderTable.insert
  rw [senderTable, remove_senderTable, senderTable, senderTable, remove, hf, List.map_append,
    List.length_map]
  rfl

def submitsFrame (f : Frame) : List StreamInput :=
  if f.kind = kindData ∧ f.payload.length ≤ maxData + 8 then [.data f.payload]
  else if f.kind = kindClose then [.close]
  else if f.kind = kindResend ∧ f.payload.length = 8 then [.resend (BigEndian.value f.payload)]
  else []

variable {f : Frame}

theorem submitsFrame_data (hk : f.kind = kindData) (hl : f.payload.length ≤ maxData + 8) :
    submitsFrame f = [.data f.payload] :=
  if_pos ⟨hk, hl⟩

theorem submitsFrame_close (hk : f.kind = kindClose) : submitsFrame f = [.close] := by
  rw [submitsFrame, if_neg (by rw [hk]; exact fun h => absurd h.1 (by decide)), if_pos hk]

theorem submitsFrame_resend (hk : f.kind = kindResend) (hl : f.payload.length = 8) :
    submitsFrame f = [.resend (BigEndian.value f.payload)] := by
  rw [submitsFrame, if_neg (by rw [hk]; exact fun h => absurd h.1 (by decide)),
    if_neg (by rw [hk]; decide), if_pos ⟨hk, hl⟩]

theorem submitsFrame_none (hd : f.kind = kindData → maxData + 8 < f.payload.length)
    (hc : f.kind ≠ kindClose) (hr : f.kind = kindResend → f.payload.length ≠ 8) :
    submitsFrame f = [] := by
  rw [submitsFrame, if_neg (fun h => Nat.lt_irrefl _ (h.2.trans_lt (hd h.1))), if_neg hc,
    if_neg (fun h => hr h.1 h.2)]

/-- The items that are submitted for a stream. The end of a session closes all of its streams. -/
def submits (key : ℕ × ℕ) : Action → List StreamInput
  | .frame session payload _ =>
    match parseFrame payload with
    | none => []
    | some f => if (session, f.streamId) = key then submitsFrame f else []
  | .closeSession session => if session = key.1 then [.close] else []
  | _ => []

def receives (task : ℕ) (s : ProxyTable) : Action → List StreamInput
  | .receive task' => if task' = task then s.senderTable.next task else []
  | _ => []

theorem shrinks_lapse : Lapse fun s s' => SenderTable.Shrinks s.senderTable s'.senderTable where
  refl s := .refl s.senderTable
  trans h h' := h.trans h'
  removed s key := .remove s.senderTable key
  sent s _ := .refl s.senderTable
  task {s i t t'} _ _ _ := by
    refine ⟨?_, fun _ _ h => h⟩
    rw [senderTable, senderTable, List.length_map, List.length_map, List.length_set]

theorem step_of_accepts {s : ProxyTable} {a : Action} {key : ℕ × ℕ} {target : TargetHost × ℕ}
    (h : s.accepts a = some (key, target)) : (s.step a).senderTable = s.senderTable.insert key := by
  cases a with
  | frame _ payload =>
    unfold accepts at h
    unfold step handleFrame
    cases hp : parseFrame payload with
    | none => simp only [hp, reduceCtorEq] at h
    | some f =>
      simp only [hp] at h ⊢
      split_ifs at h with ho hk hf
      unfold handleParsed handleOpen
      rw [if_pos ho, if_neg hk, if_neg hf]
      cases ht : parseTarget f.payload with
      | error => simp only [ht, reduceCtorEq] at h
      | ok target' =>
        simp only [ht, Option.some.injEq, Prod.mk.injEq] at h ⊢
        rw [← h.1]
        exact senderTable_spawn (Bool.eq_false_iff.mpr hk) target'
  | _ => cases h

theorem wired_step {s : ProxyTable} (h : s.senderTable.Wired) (a : Action) :
    (s.step a).senderTable.Wired := by
  cases ha : s.accepts a with
  | none => exact h.shrinks (shrinks_lapse.step ha)
  | some accepted =>
    rw [step_of_accepts ha]
    exact h.insert accepted.1

theorem wired_run (actions : List Action) :
    (actions.foldl step ({} : ProxyTable)).senderTable.Wired :=
  List.foldlRecOn actions step (motive := fun s => s.senderTable.Wired) (fun _ _ h => by cases h)
    (fun _ h a _ => wired_step h a)

theorem senderTable_handleData (s : ProxyTable) (session : ℕ)
    (hl : f.payload.length ≤ maxData + 8) (queued : Bool) :
    (s.handleData session f queued).1.senderTable =
      s.senderTable.deliver streamCapacity (session, f.streamId) (.data f.payload) := by
  have ho := s.senderTable_offer (session, f.streamId) (.data f.payload)
  unfold handleData enqueueData
  rw [if_neg (by omega)]
  split
  · rename_i after heq
    rw [heq] at ho
    exact ho
  · rename_i after heq
    rw [heq] at ho
    rw [senderTable_sendFrame]
    exact ho

theorem owned_step {s : ProxyTable} {key : ℕ × ℕ} {n : ℕ} (h : s.senderTable.Owned key n)
    (a : Action) : (s.step a).senderTable.Owned key n := by
  cases ha : s.accepts a with
  | none => exact h.shrinks (shrinks_lapse.step ha)
  | some accepted =>
    rw [step_of_accepts ha]
    exact h.insert accepted.1

section Feeds

variable {s : ProxyTable} {key : ℕ × ℕ} {n : ℕ} (h : s.senderTable.Owned key n)

include h

variable (session : ℕ)

theorem feeds_handleOpen (f : Frame) (queued : Bool) :
    Mailbox.Feeds (s.senderTable.mailbox key n)
      ((s.handleOpen session f queued).1.senderTable.mailbox key n) [] [] := by
  unfold handleOpen
  split_ifs with hk
  · exact Mailbox.Feeds.refl _
  · rw [senderTable_sendFrame]
    exact Mailbox.Feeds.refl _
  · split
    · rw [senderTable_sendFrame]
      exact Mailbox.Feeds.refl _
    · rw [senderTable_spawn (Bool.eq_false_iff.mpr hk)]
      exact h.feeds_insert _

/-- What a frame that is handled does for the receiver of `n`. -/
theorem feeds_handleParsed (f : Frame) (queued : Bool) :
    Mailbox.Feeds (s.senderTable.mailbox key n)
      ((s.handleParsed session f queued).1.senderTable.mailbox key n)
      (if (session, f.streamId) = key then submitsFrame f else []) [] := by
  unfold handleParsed
  by_cases hopen : f.kind = kindOpen
  · rw [if_pos hopen, submitsFrame_none (by rw [hopen]; exact fun h => absurd h (by decide))
      (by rw [hopen]; decide) (by rw [hopen]; exact fun h => absurd h (by decide)), ite_self]
    exact feeds_handleOpen h session f queued
  rw [if_neg hopen]
  by_cases hdata : f.kind = kindData
  · rw [if_pos hdata]
    by_cases hlen : f.payload.length ≤ maxData + 8
    · rw [submitsFrame_data hdata hlen, senderTable_handleData s session hlen]
      exact h.feeds_deliver _ _
    · rw [handleData, if_pos (by omega),
        submitsFrame_none (fun _ => by omega) (by rw [hdata]; decide)
        (by rw [hdata]; exact fun h => absurd h (by decide)), ite_self]
      exact Mailbox.Feeds.refl _
  rw [if_neg hdata]
  by_cases hclose : f.kind = kindClose
  · rw [if_pos hclose, submitsFrame_close hclose, senderTable_removeAndClose]
    exact h.feeds_close _ _
  rw [if_neg hclose]
  by_cases hresend : f.kind = kindResend ∧ f.payload.length = 8
  · rw [if_pos hresend.1, handleResend, if_pos hresend.2, submitsFrame_resend hresend.1 hresend.2,
      senderTable_offer]
    exact h.feeds_deliver _ _
  · have hignore : (if f.kind = kindResend then (s.handleResend session f, none)
        else (s, (none : Option FrameError))) = (s, none) := by
      rw [handleResend]
      split_ifs with hkind hlen
      · exact absurd ⟨hkind, hlen⟩ hresend
      · rfl
      · rfl
    rw [hignore, submitsFrame_none (fun hkind => absurd hkind hdata) hclose
      (fun hkind hlen => hresend ⟨hkind, hlen⟩), ite_self]
    exact Mailbox.Feeds.refl _

theorem feeds_closeSession : Mailbox.Feeds (s.senderTable.mailbox key n)
      ((s.closeSession session).senderTable.mailbox key n)
      (if session = key.1 then [.close] else []) [] := by
  rw [closeSession, senderTable_closeAll]
  obtain ⟨hm, hn⟩ := h.feeds_closeAll streamCapacity
    ((s.streams.filter (·.1.1 = session)).map (·.1)) .close
  by_cases hk : key ∈ (s.streams.filter (·.1.1 = session)).map (·.1)
  · obtain ⟨entry, he, heq⟩ := List.mem_map.mp hk
    have hs := of_decide_eq_true (List.mem_filter.mp he).2
    rw [heq] at hs
    rw [if_pos hs.symm]
    exact hm hk
  · split_ifs with hs
    · -- No entry has the key, so the channel is linked no more.
      refine (hn hk).of_not_linked (SenderTable.mailbox_linked_eq_false fun hg => hk ?_) _
      rw [get_senderTable] at hg
      obtain ⟨l₁, l₂, hstream, _⟩ := List.lookup_eq_some_iff.mp hg
      have he : (key, n) ∈ s.streams := by
        rw [hstream]
        exact List.mem_append_right _ (List.mem_cons_self ..)
      exact List.mem_map_of_mem (List.mem_filter.mpr ⟨he, decide_eq_true hs.symm⟩)
    · exact hn hk

theorem feeds_step (a : Action) :
    Mailbox.Feeds (s.senderTable.mailbox key n) ((s.step a).senderTable.mailbox key n)
      (submits key a) (receives n s a) := by
  cases a with
  | frame session payload queued =>
    rw [step, handleFrame, submits]
    cases parseFrame payload with
    | none => exact Mailbox.Feeds.refl _
    | some f => exact feeds_handleParsed h session f queued
  | receive task =>
    rw [step, senderTable_receive]
    exact s.senderTable.feeds_receive key n task
  | finish task failed errorQueued closeQueued =>
    unfold step
    obtain hs | ⟨key', he⟩ := s.senderTable_finish task failed errorQueued closeQueued
    · rw [hs]
      exact Mailbox.Feeds.refl _
    · rw [he]
      exact (s.senderTable.feeds_hangUp key n task).trans (SenderTable.feeds_cut _ key key' n)
  | closeSession session => exact feeds_closeSession h session

end Feeds

/-- The items that the task of an accepted OPEN receives are the first of those submitted for its
stream from then on. -/
theorem received_of_accepted (before after : List Action) (a : Action) {key : ℕ × ℕ}
    {target : TargetHost × ℕ}
    (ha : (before.foldl step ({} : ProxyTable)).accepts a = some (key, target)) :
    let s := before.foldl step ({} : ProxyTable)
    Runs.collect step (receives s.tasks.length) (s.step a) after <+: after.flatMap
      (submits key) := by
  intro s
  have hl : s.senderTable.channels.length = s.tasks.length := List.length_map _
  have h := (wired_run before).owned_insert key
  have hd := Mailbox.Feeds.collect (I := fun s' => s'.senderTable.Owned key s.tasks.length)
    (fun s' : ProxyTable => s'.senderTable.mailbox key s.tasks.length)
    (fun _ a h => ⟨owned_step h a, feeds_step h a⟩) (s := s.step a) (by
      rw [step_of_accepts ha, ← hl]
      exact h) after
  rw [step_of_accepts ha, ← hl, SenderTable.mailbox_insert, hl] at hd
  exact hd

end ProxyTable

/-- Overflow makes no gap. On the client and on the server, whatever is submitted and however fast
the task of a stream drains its channel, the task receives the first of the events submitted for its
id since the id was registered. -/
theorem received_events_first_submitted :
    (∀ (before after : List InboundTable.Action) (id : ℕ),
      let t := before.foldl InboundTable.step ({} : InboundTable)
      Runs.collect InboundTable.step (InboundTable.receives t.channels.length)
        (t.step (.register id)) after <+: after.flatMap (InboundTable.submits id)) ∧
    ∀ (before after : List ProxyTable.Action) (a : ProxyTable.Action) (key : ℕ × ℕ)
      (target : TargetHost × ℕ),
      let s := before.foldl ProxyTable.step ({} : ProxyTable)
      s.accepts a = some (key, target) →
        Runs.collect ProxyTable.step (ProxyTable.receives s.tasks.length) (s.step a) after <+:
          after.flatMap (ProxyTable.submits key) :=
  ⟨InboundTable.received_of_registered, fun before after a _ _ h =>
    ProxyTable.received_of_accepted before after a h⟩

namespace StreamFeeds

/-- DATA for stream 7, as many frames as its channel holds and two more. -/
def burst : List ProxyTable.Action :=
  (List.range 66).map fun i => .frame 1 (encodeFrame ⟨kindData, 7, [UInt8.ofNat i]⟩) true

def openSeven : ProxyTable.Action :=
  .frame 1 (encodeFrame ⟨kindOpen, 7, [1, 192, 0, 2, 1, 0, 80]⟩) true

end StreamFeeds

/-- A burst that overflows the channel, taken out afterwards with one more frame between: the task
gets the first 64 frames and nothing else. -/
theorem received_events_first_submitted_burst :
    let after := StreamFeeds.burst ++ (List.range 10).map (fun _ => ProxyTable.Action.receive 0) ++
      StreamFeeds.burst ++ (List.range 90).map (fun _ => ProxyTable.Action.receive 0)
    let received := Runs.collect ProxyTable.step (ProxyTable.receives 0)
      (({} : ProxyTable).step StreamFeeds.openSeven) after
    received <+: after.flatMap (ProxyTable.submits (1, 7)) ∧ received.length = 64 := by
  refine ⟨received_events_first_submitted.2 [] _ StreamFeeds.openSeven (1, 7)
    (.ipv4 [192, 0, 2, 1], 80) ?_, ?_⟩
  · decide +kernel
  · decide +kernel

end Csqtt
