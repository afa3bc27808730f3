import Csqtt.ClientDispatcher

/-!
# Streams stay on their carriers

What the dispatcher has carried for one stream went to one worker, the one chosen when the stream
was opened. A carrier that comes up again has a new incarnation, and a stream whose CLOSE is
queued gets no route again.
-/

namespace Csqtt

def QueuedFrame.stream (e : QueuedFrame) : Option ℕ := (parseFrame e.frame).map (·.streamId)

def QueuedFrame.kind (e : QueuedFrame) : Option UInt8 := (parseFrame e.frame).map (·.kind)

namespace Dispatcher

/-- The workers and the streams that the calls so far have brought. -/
structure Pinned (calls : List Call) (d : Dispatcher) : Prop where
  workers : ∀ w ∈ d.workers, w ∈ calls.filterMap Call.registers
  carriers : ∀ e ∈ d.carried, e.worker ∈ calls.filterMap Call.registers
  routes : ∀ s route, d.proxyRoutes.lookup s = some route → s ∈ calls.filterMap Call.opens
  opened : ∀ e ∈ d.carried, ∀ s, e.stream = some s → s ∈ calls.filterMap Call.opens
  routed : ∀ e ∈ d.carried, ∀ s route, e.stream = some s → d.proxyRoutes.lookup s = some route →
    e.worker.route = route
  agreed : ∀ e ∈ d.carried, ∀ e' ∈ d.carried, ∀ s, e.stream = some s → e'.stream = some s →
    e.worker.route = e'.worker.route
  closed : ∀ e ∈ d.carried, ∀ s, e.kind = some kindClose → e.stream = some s →
    d.proxyRoutes.lookup s = none

variable {calls : List Call} {d d' : Dispatcher}

theorem pinned_empty : Pinned [] {} where
  workers _ hw := absurd hw List.not_mem_nil
  carriers _ he := absurd he List.not_mem_nil
  routes s _ h := by
    cases h
  opened _ he := absurd he List.not_mem_nil
  routed _ he := absurd he List.not_mem_nil
  agreed _ he := absurd he List.not_mem_nil
  closed _ he := absurd he List.not_mem_nil

theorem mem_filterMap_append {α : Type} {p : Call → Option α} {a : α} (call : Call)
    (ha : a ∈ calls.filterMap p) : a ∈ (calls ++ [call]).filterMap p := by
  rw [List.filterMap_append]
  exact List.mem_append_left _ ha

variable {call : Call}

theorem mem_filterMap_last {α : Type} {p : Call → Option α} {a : α} (ha : p call = some a) :
    a ∈ (calls ++ [call]).filterMap p :=
  List.mem_filterMap.mpr ⟨call, List.mem_append_right _ (List.mem_singleton_self _), ha⟩

/-- A change of the workers, to workers that have been registered, and of the routes, of which some
may go. -/
theorem Pinned.replaced (h : Pinned calls d) (call : Call)
    (hw : ∀ w ∈ d'.workers, w ∈ (calls ++ [call]).filterMap Call.registers)
    (hc : d'.carried = d.carried) (hr : ∀ s route, d'.proxyRoutes.lookup s = some route →
      d.proxyRoutes.lookup s = some route) : Pinned (calls ++ [call]) d' := by
  refine ⟨hw, ?_, fun s route hs => ?_, ?_, ?_, ?_, ?_⟩
  · rw [hc]
    exact fun e he => mem_filterMap_append call (h.carriers e he)
  · exact mem_filterMap_append call (h.routes s route (hr s route hs))
  · rw [hc]
    exact fun e he s hs => mem_filterMap_append call (h.opened e he s hs)
  · rw [hc]
    exact fun e he s route hs hroute => h.routed e he s route hs (hr s route hroute)
  · rw [hc]
    exact h.agreed
  · rw [hc]
    intro e he s hk hs
    cases hl : d'.proxyRoutes.lookup s with
    | none => rfl
    | some route =>
      have hclose := h.closed e he s hk hs
      rw [hr s route hl] at hclose
      cases hclose

variable {frame : Bytes}

section

variable (h : Pinned calls d)
include h

/-- What is queued for a stream before a frame that is carried went the same way. -/
theorem Pinned.route_eq {f : Frame} {w : WorkerChannels} (hp : parseFrame frame = some f)
    (hf : ∀ s, opensStream frame = some s → s ∉ calls.filterMap Call.opens)
    (hr : f.kind ≠ kindOpen → d.proxyRoutes.lookup f.streamId = some w.route) {e : QueuedFrame}
    (he : e ∈ d.carried) (hs : e.stream = some f.streamId) :
    f.kind ≠ kindOpen ∧ e.worker.route = w.route := by
  have hk : f.kind ≠ kindOpen := fun ho =>
    hf f.streamId (opensStream_of_parse hp ho) (h.opened e he f.streamId hs)
  exact ⟨hk, h.routed e he f.streamId w.route hs (hr hk)⟩

theorem Pinned.refused (hopens : call.opens = opensStream frame)
    (hfresh : ∀ s, opensStream frame = some s → s ∉ calls.filterMap Call.opens)
    (hwork : d'.workers = d.workers) (hcarry : d'.carried = d.carried)
    (hroutes : ∀ s, d'.proxyRoutes.lookup s = d.proxyRoutes.lookup s ∨
      d'.proxyRoutes.lookup s = none ∨ opensStream frame = some s) :
    Pinned (calls ++ [call]) d' := by
  -- A route is new only for a stream that has not been opened before.
  have hold : ∀ e ∈ d.carried, ∀ s, e.stream = some s →
      d'.proxyRoutes.lookup s = d.proxyRoutes.lookup s ∨ d'.proxyRoutes.lookup s = none := by
    intro e he s hs
    obtain hsame | hnone | hopen := hroutes s
    · exact .inl hsame
    · exact .inr hnone
    · exact absurd (h.opened e he s hs) (hfresh s hopen)
  constructor
  · rw [hwork]
    exact fun w hw => mem_filterMap_append call (h.workers w hw)
  · rw [hcarry]
    exact fun e he => mem_filterMap_append call (h.carriers e he)
  · intro s route hs
    obtain hsame | hnone | hopen := hroutes s
    · exact mem_filterMap_append call (h.routes s route (hsame ▸ hs))
    · rw [hnone] at hs
      cases hs
    · exact mem_filterMap_last (hopens.trans hopen)
  · rw [hcarry]
    exact fun e he s hs => mem_filterMap_append call (h.opened e he s hs)
  · rw [hcarry]
    intro e he s route hs hroute
    obtain hsame | hnone := hold e he s hs
    · exact h.routed e he s route hs (hsame ▸ hroute)
    · rw [hnone] at hroute
      cases hroute
  · rw [hcarry]
    exact h.agreed
  · rw [hcarry]
    intro e he s hkind hs
    obtain hsame | hnone := hold e he s hs
    · exact hsame.trans (h.closed e he s hkind hs)
    · exact hnone

theorem Pinned.sent {r : Except DispatchError Unit} (hopens : call.opens = opensStream frame)
    (hfresh : ∀ s, opensStream frame = some s → s ∉ calls.filterMap Call.opens)
    (hsent : Sent d frame d' r) : Pinned (calls ++ [call]) d' := by
  cases hsent with
  | refused hwork hcarry hroutes => exact h.refused hopens hfresh hwork hcarry hroutes
  | @carried f w hparse hw hwork hcarry hroute hpin hclose hother =>
    have hlast : ∀ s, (⟨w, frame⟩ : QueuedFrame).stream = some s → s = f.streamId := by
      intro s hs
      rw [QueuedFrame.stream, hparse] at hs
      exact (Option.some.inj hs).symm
    have hsame : ∀ e ∈ d.carried, e.stream = some f.streamId →
        f.kind ≠ kindOpen ∧ e.worker.route = w.route := fun e he hs =>
      h.route_eq hparse hfresh hroute he hs
    have hopened : f.streamId ∈ (calls ++ [call]).filterMap Call.opens := by
      by_cases hopen : f.kind = kindOpen
      · exact mem_filterMap_last (hopens.trans (opensStream_of_parse hparse hopen))
      · exact mem_filterMap_append call (h.routes _ _ (hroute hopen))
    constructor
    · rw [hwork]
      exact fun v hv => mem_filterMap_append call (h.workers v hv)
    · rw [hcarry, List.forall_mem_append, List.forall_mem_singleton]
      exact ⟨fun e he => mem_filterMap_append call (h.carriers e he),
        mem_filterMap_append call (h.workers w hw)⟩
    · intro s route hs
      by_cases hstream : s = f.streamId
      · exact hstream ▸ hopened
      · rw [hother s hstream] at hs
        exact mem_filterMap_append call (h.routes s route hs)
    · rw [hcarry, List.forall_mem_append, List.forall_mem_singleton]
      exact ⟨fun e he s hs => mem_filterMap_append call (h.opened e he s hs),
        fun s hs => hlast s hs ▸ hopened⟩
    · rw [hcarry, List.forall_mem_append, List.forall_mem_singleton]
      constructor
      · intro e he s route hs hlook
        by_cases hstream : s = f.streamId
        · subst hstream
          exact (hsame e he hs).2.trans (hpin route hlook).symm
        · exact h.routed e he s route hs (hother s hstream ▸ hlook)
      · intro s route hs hlook
        obtain rfl := hlast s hs
        exact (hpin route hlook).symm
    · rw [hcarry, List.forall_mem_append, List.forall_mem_singleton]
      constructor
      · intro e he
        rw [List.forall_mem_append, List.forall_mem_singleton]
        refine ⟨h.agreed e he, fun s hs hs' => ?_⟩
        obtain rfl := hlast s hs'
        exact (hsame e he hs).2
      · rw [List.forall_mem_append, List.forall_mem_singleton]
        refine ⟨fun e he s hs hs' => ?_, fun _ _ _ => rfl⟩
        obtain rfl := hlast s hs
        exact (hsame e he hs').2.symm
    · rw [hcarry, List.forall_mem_append, List.forall_mem_singleton]
      constructor
      · intro e he s hkind hs
        have hnone := h.closed e he s hkind hs
        by_cases hstream : s = f.streamId
        · subst hstream
          rw [hroute (hsame e he hs).1] at hnone
          cases hnone
        · exact (hother s hstream).trans hnone
      · intro s hkind hs
        obtain rfl := hlast s hs
        rw [QueuedFrame.kind, hparse] at hkind
        exact hclose (Option.some.inj hkind)

theorem Pinned.step (call : Call) (hf : ∀ s, call.opens = some s → s ∉ calls.filterMap Call.opens) :
    Pinned (calls ++ [call]) (d.step call) := by
  cases call with
  | register =>
    refine h.replaced _ (fun w hw => ?_) rfl (fun _ _ hr => hr)
    obtain hw | hw := List.mem_append.mp (mem_interleaveTurnPaths.mp hw)
    · exact mem_filterMap_append _ (h.workers w (List.mem_filter.mp hw).1)
    · rw [List.mem_singleton.mp hw]
      exact mem_filterMap_last rfl
  | unregister =>
    refine h.replaced _ (fun w hw => ?_) rfl (fun s route hr => ?_)
    · exact mem_filterMap_append _
        (h.workers w (List.mem_filter.mp (mem_interleaveTurnPaths.mp hw)).1)
    · change (d.proxyRoutes.filterValues _).lookup s = some route at hr
      rw [AList.lookup_filterValues] at hr
      exact (Option.filter_eq_some_iff.mp hr).1
  | sendOpen frame workerHint io => exact h.sent rfl hf (d.sent_sendProxyOpen frame workerHint io)
  | sendFrame frame io => exact h.sent rfl hf (d.sent_sendProxyFrame frame io)

end

theorem pinned_run (calls : List Call) (ho : (calls.filterMap Call.opens).Nodup) :
    Pinned calls (calls.foldl step {}) := by
  have hr : (calls.filterMap Call.opens).Nodup → Pinned calls (calls.foldl step {}) :=
    Runs.invariant_history (Q := fun _ _ => True)
      (H := fun calls d => (calls.filterMap Call.opens).Nodup → Pinned calls d)
      (fun calls d call h _ hn => by
        rw [List.filterMap_append, List.nodup_append] at hn
        refine (h hn.1).step call fun s hs hm => ?_
        exact hn.2.2 s hm s (List.mem_filterMap.mpr ⟨call, List.mem_singleton_self _, hs⟩) rfl)
      (fun _ => pinned_empty) (Runs.along_of_forall fun _ _ => trivial)
  exact hr ho

theorem worker_eq {ws : List WorkerChannels} (h : (ws.map (·.incarnationId)).Nodup)
    {w w' : WorkerChannels} (hw : w ∈ ws) (hw' : w' ∈ ws) (hr : w.route = w'.route) : w = w' :=
  List.inj_on_of_nodup_map h hw hw' (congrArg Prod.snd hr)

/-- Carrier pinning. If no stream id and no incarnation is used twice, then in every run: all frames
that were queued for a stream are in the queue of one worker, a send either fails and queues nothing
or queues its frame once; an unregister takes no worker of another incarnation away; and a stream
whose CLOSE was queued has no route. -/
theorem streams_pinned_to_carriers (calls : List Call)
    (hincarnations : ((calls.filterMap Call.registers).map (·.incarnationId)).Nodup)
    (hopens : (calls.filterMap Call.opens).Nodup) :
    let d := calls.foldl step {}
    (∀ e ∈ d.carried, ∀ e' ∈ d.carried, ∀ s, e.stream = some s → e'.stream = some s →
      e'.worker = e.worker) ∧
    (∀ frame io, ((∃ e, (d.sendProxyFrame frame io).2 = .error e) ∧
        (d.sendProxyFrame frame io).1.carried = d.carried) ∨
      ((d.sendProxyFrame frame io).2 = .ok () ∧
        ∃ w ∈ d.workers, (d.sendProxyFrame frame io).1.carried = d.carried ++ [⟨w, frame⟩])) ∧
    (∀ id incarnationId, ∀ w ∈ d.workers, w.incarnationId ≠ incarnationId →
      w ∈ (d.unregister id incarnationId).1.workers) ∧
    ∀ e ∈ d.carried, ∀ s, e.kind = some kindClose → e.stream = some s → s ∉ d.proxyRoutes := by
  intro d
  have h : Pinned calls d := pinned_run calls hopens
  refine ⟨fun e he e' he' s hs hs' => ?_, fun frame io => ?_, fun id incarnationId w hw hne => ?_,
    fun e he s hk hs => ?_⟩
  · exact (worker_eq hincarnations (h.carriers e he) (h.carriers e' he')
      (h.agreed e he e' he' s hs hs')).symm
  · have hsent := d.sent_sendProxyFrame frame io
    generalize d.sendProxyFrame frame io = result at hsent ⊢
    obtain ⟨d', r⟩ := result
    cases hsent with
    | refused _ hc => exact .inl ⟨⟨_, rfl⟩, hc⟩
    | carried _ hw _ hc => exact .inr ⟨rfl, _, hw, hc⟩
  · exact mem_interleaveTurnPaths.mpr (List.mem_filter.mpr ⟨hw, decide_eq_true (.inr hne)⟩)
  · exact AList.lookup_eq_none.mp (h.closed e he s hk hs)

def carrier (id incarnationId : ℕ) : WorkerChannels := ⟨id, incarnationId, [0x74], incarnationId⟩

/-- Stream 7 is opened on the second of two carriers and closed again; stream 8 loses its carrier to
a new incarnation, whose predecessor unregisters late. -/
def carrierReplaced : List Call :=
  [.register (carrier 1 1), .register (carrier 2 2),
    .sendOpen (encodeFrame ⟨kindOpen, 7, []⟩) 1 {}, .sendOpen (encodeFrame ⟨kindOpen, 8, []⟩) 0 {},
    .sendFrame (encodeFrame ⟨kindData, 8, [1]⟩) {}, .register (carrier 1 3),
    .sendFrame (encodeFrame ⟨kindData, 8, [2]⟩) {}, .unregister 1 1,
    .sendFrame (encodeFrame ⟨kindClose, 7, []⟩) {}]

theorem streams_pinned_to_carriers_replaced :
    let d := carrierReplaced.foldl step {}
    (∀ e ∈ d.carried, ∀ e' ∈ d.carried, ∀ s, e.stream = some s → e'.stream = some s →
      e'.worker = e.worker) ∧
    d.carried.map (fun e => (e.stream, e.worker.route)) =
      [(some 7, (2, 2)), (some 8, (1, 1)), (some 8, (1, 1)), (some 7, (2, 2))] ∧
    d.workers.map WorkerChannels.route = [(1, 3), (2, 2)] :=
  ⟨(streams_pinned_to_carriers carrierReplaced (by decide +kernel) (by decide +kernel)).1,
    by decide +kernel, by decide +kernel⟩

end Dispatcher
end Csqtt
