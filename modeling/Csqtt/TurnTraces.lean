import Csqtt.TurnMoves

/-!
# The calls of the TURN core as moves

Function by function of the core, from the queues up to a whole call: what it does is a sequence of
moves. Only a shutdown whose Deallocate cannot be encoded is stuck.
-/

namespace Csqtt
namespace Turn
namespace NativeCore

open Stun

variable {events : List NativeEvent}

theorem Queues.trans {c c' : NativeCore} (h : c.Queues c'.events) (h' : c'.Queues events) :
    c.Queues events := fun hc => h' (h hc)

theorem length_pushEvent_le (h : events.length ≤ eventCapacity) (event : NativeEvent) :
    (pushEvent events event).length ≤ eventCapacity := by
  unfold pushEvent
  split_ifs with hf
  · rw [List.length_append, List.length_drop, hf]
    decide
  · rw [List.length_append, List.length_singleton]
    omega

theorem queues_push (c : NativeCore) (event : NativeEvent) : c.Queues (c.push event).events :=
  fun h => length_pushEvent_le h event

theorem setState_eq (c : NativeCore) (s : TurnState) :
    ∃ events, c.Queues events ∧ c.setState s = { c with state := s, events } := by
  unfold setState
  split_ifs with hs
  · refine ⟨c.events, id, ?_⟩
    rw [← hs]
  · exact ⟨_, queues_push c _, rfl⟩

theorem destroyAllocation_eq (c : NativeCore) (operation : Operation) (status : ℤ) (stunCode : ℕ) :
    ∃ state events, c.Queues events ∧ (state = .deallocated ∨ state = .destroying) ∧
      c.destroyAllocation operation status stunCode = c.ruined state events := by
  obtain ⟨events, he, heq⟩ := setState_eq ({ c.complete operation status stunCode with
    controls := [], pending := [], channel := none, allocationRefresh := none,
    allocationExpiresAt := none, maintenanceRefresh := none, permissionRetry := none,
    channelRetry := none, keepalive := none, relay := none })
    (if operation = .deallocate then .deallocated else .destroying)
  refine ⟨_, events, (queues_push c _).trans he, ?_, heq⟩
  split_ifs
  · exact .inl rfl
  · exact .inr rfl

theorem destroyAfterChannelRebindExhausted_eq (c : NativeCore) :
    ∃ events, c.Queues events ∧ c.destroyAfterChannelRebindExhausted = c.unbound events := by
  obtain ⟨events, he, heq⟩ := setState_eq ({ c with
    controls := [], pending := [], channel := none, maintenanceRefresh := none,
    permissionRetry := none, channelRetry := none, keepalive := none }.push {
      kind := .channelRebindExhausted, status := resultTimeout, state := .destroying }) .destroying
  exact ⟨events, (queues_push c _).trans he, heq⟩

section Start

variable {prims : Primitives} {c c' : NativeCore} {operation : Operation} {authenticated : Bool}
  {nonceRetries : ℕ} {cause : Cause} {draw : Draw}

theorem startOperation_of_fresh (hf : c.hasOperation operation = false)
    (h : c.startOperation prims operation authenticated nonceRetries cause draw = .ok c') :
    (authenticated = true → c.HasCredentials) ∧ ∃ packet,
      c.buildRequest prims operation draw.transaction authenticated = .ok packet ∧
        c' = c.launch operation authenticated nonceRetries cause draw packet := by
  unfold startOperation at h
  rw [if_neg (by rw [hf]; decide)] at h
  split_ifs at h with hm
  cases hb : c.buildRequest prims operation draw.transaction authenticated with
  | error =>
    rw [hb] at h
    cases h
  | ok packet =>
    rw [hb] at h
    cases h
    refine ⟨fun ha => ?_, packet, rfl, rfl⟩
    simpa [ha, HasCredentials, Option.isSome_iff_ne_none] using hm

theorem startOperation_ok (hf : c.hasOperation operation = false) (hc : c.HasCredentials)
    {packet : Bytes} (hb : c.buildRequest prims operation draw.transaction true = .ok packet) :
    c.startOperation prims operation true nonceRetries cause draw =
      .ok (c.launch operation true nonceRetries cause draw packet) := by
  have hm : ¬ (true = true ∧ (c.realm.isNone ∨ c.nonce.isNone ∨ c.key.isNone)) := by
    obtain ⟨hr, hn, hk⟩ := hc
    simp [Option.isSome_iff_ne_none.mp hr, Option.isSome_iff_ne_none.mp hn,
      Option.isSome_iff_ne_none.mp hk]
  rw [startOperation, if_neg (by rw [hf]; decide), if_neg hm, hb]
  rfl

theorem startOperation_of_pending (hh : c.hasOperation operation = true)
    (h : c.startOperation prims operation authenticated nonceRetries cause draw = .ok c') :
    c' = c ∨ ∃ p ∈ c.pending, p.operation = .channel ∧ c' = c.queuePacket p.packet := by
  unfold startOperation at h
  rw [if_pos hh] at h
  cases h
  split_ifs with hc
  · split
    · rename_i p hp
      have ho : p.operation = operation := of_decide_eq_true
        (List.find?_some (p := fun q : Pending => decide (q.operation = operation)) hp)
      exact .inr ⟨p, List.mem_of_find?_eq_some hp, ho.trans hc, rfl⟩
    · exact .inl rfl
  · exact .inl rfl

end Start

def Reaches (prims : Primitives) (K : Bytes → Bytes → Prop) (c c' : NativeCore) : Prop :=
  ∃ acts, Trace (Move prims K) c acts c' ∧ Act.stuck ∉ acts

section Calls

variable {prims : Primitives} {K : Bytes → Bytes → Prop}

theorem Reaches.refl (c : NativeCore) : Reaches prims K c c := ⟨[], .refl, List.not_mem_nil⟩

variable {c' : NativeCore}

theorem Reaches.trans {c c'' : NativeCore} (h : Reaches prims K c c')
    (h' : Reaches prims K c' c'') : Reaches prims K c c'' := by
  obtain ⟨acts, htrace, ha⟩ := h
  obtain ⟨acts', ht', ha'⟩ := h'
  refine ⟨acts ++ acts', htrace.trans ht', fun hm => ?_⟩
  obtain hm | hm := List.mem_append.mp hm
  · exact ha hm
  · exact ha' hm

theorem Reaches.of_move {c : NativeCore} {act : Act} (h : Move prims K c act c')
    (ha : Act.stuck ≠ act) : Reaches prims K c c' :=
  ⟨[act], .single h, fun hm => ha (List.mem_singleton.mp hm)⟩

theorem Reaches.of_settled {c : NativeCore} (h : c.Settled c') : Reaches prims K c c' :=
  .of_move (.settle h) nofun

theorem Reaches.phased {c : NativeCore} (h : Reaches prims K c c') (hc : c.Phased) : c'.Phased := by
  obtain ⟨acts, htrace, -⟩ := h
  exact htrace.invariant (fun _ _ _ hs => hs.move) hc

/-- Nothing but queues and timers changes, and the refresh timer is not set anew. -/
theorem settled_of_timers {c : NativeCore} (hf : c'.frame = c.frame) (he : c.Queues c'.events)
    (hc : c'.controls.Sublist c.controls) (hp : c'.pending = c.pending)
    (hq : c'.requests = c.requests) (hchannel : c'.channel = c.channel)
    (hexp : c'.allocationExpiresAt = c.allocationExpiresAt)
    (hr : c'.allocationRefresh = c.allocationRefresh ∨ c'.allocationRefresh = none) :
    c.Settled c' where
  frame := hf
  events := he
  controls := hc
  pending := by rw [hp]
  requests := hq
  kept := .inl hp
  refresh _ := hr
  channel := .inl hchannel
  expires := .inl hexp

theorem settled_push (c : NativeCore) (event : NativeEvent) : c.Settled (c.push event) :=
  settled_of_timers rfl (queues_push c event) (.refl _) rfl rfl rfl rfl (.inl rfl)

theorem reaches_queueKeepalive (c : NativeCore) : Reaches prims K c c.queueKeepalive := by
  unfold queueKeepalive
  split
  · exact .refl c
  · refine .of_move (.queue _ (.inl ?_)) nofun
    rfl

variable {operation : Operation}

theorem reaches_startOperation {c : NativeCore} {authenticated : Bool} {draw : Draw}
    (hphase : c.state = operation.phase) (ho : operation ≠ .deallocate)
    (hr : operation = .refresh → c.allocationRefresh = none)
    (h : c.startOperation prims operation authenticated 0 .start draw = .ok c') :
    Reaches prims K c c' := by
  cases hh : c.hasOperation operation with
  | true =>
    obtain rfl | ⟨p, hp, hc, rfl⟩ := startOperation_of_pending hh h
    · exact .refl c'
    · exact .of_move (.queue p.packet (.inr ⟨p, hp, hc, rfl⟩)) nofun
  | false =>
    obtain ⟨hcred, packet, hb, rfl⟩ := startOperation_of_fresh hh h
    exact .of_move (.start operation authenticated draw packet hh hcred hphase ho
      hr hb) nofun

theorem reaches_tryStart (c : NativeCore) (authenticated : Bool) (io : TurnIo)
    (hp : c.state = operation.phase) (ho : operation ≠ .deallocate)
    (hr : operation = .refresh → c.allocationRefresh = none) :
    Reaches prims K c (c.tryStart prims operation authenticated io).1 := by
  unfold tryStart
  split
  · exact .refl c
  · rename_i hs
    exact reaches_startOperation hp ho hr hs

variable (prims) in
theorem frame_tryStart (c : NativeCore) (operation : Operation) (authenticated : Bool)
    (io : TurnIo) : (c.tryStart prims operation authenticated io).1.frame = c.frame := by
  unfold tryStart
  split
  · rfl
  · rename_i hs
    obtain ⟨controls, events, pending, requests, rfl⟩ := startOperation_eq prims hs
    rfl

theorem settled_clearTimer (c : NativeCore) (operation : Operation) :
    c.Settled (c.clearTimer operation) := by
  cases operation with
  | refresh => exact settled_of_timers rfl id (.refl _) rfl rfl rfl rfl (.inr rfl)
  | _ => exact settled_of_timers rfl id (.refl _) rfl rfl rfl rfl (.inl rfl)

theorem startDue_fst (c : NativeCore) (due : Bool) (operation : Operation) (io : TurnIo) :
    (c.startDue prims due operation io).1 = if due && !c.hasOperation operation then
      ((c.clearTimer operation).tryStart prims operation true io).1 else c := by
  unfold startDue
  split_ifs
  · split
    · rename_i heq
      rw [heq]
    · rename_i heq
      rw [heq]
  · rfl

variable (prims) in
theorem frame_startDue (c : NativeCore) (due : Bool) (operation : Operation) (io : TurnIo) :
    (c.startDue prims due operation io).1.frame = c.frame := by
  rw [startDue_fst]
  split_ifs
  · rw [frame_tryStart]
    exact (settled_clearTimer c operation).frame
  · rfl

theorem reaches_startDue (c : NativeCore) (due : Bool) (operation : Operation) (io : TurnIo)
    (hr : c.state = .ready) (hp : operation.phase = .ready) :
    Reaches prims K c (c.startDue prims due operation io).1 := by
  rw [startDue_fst]
  split_ifs
  · have hc := settled_clearTimer c operation
    have hs : (c.clearTimer operation).state = c.state := congrArg Frame.state hc.frame
    refine (Reaches.of_settled hc).trans (reaches_tryStart _ true io ?_ ?_ ?_)
    · rw [hs, hr, hp]
    · rintro rfl
      cases hp
    · rintro rfl
      rfl
  · exact .refl c

theorem settled_postponeMaintenance (c : NativeCore) (due : Bool) (now : ℕ) :
    c.Settled (c.postponeMaintenance due now) := by
  unfold postponeMaintenance
  split_ifs
  · exact settled_of_timers rfl id (.refl _) rfl rfl rfl rfl (.inl rfl)
  · exact settled_of_timers rfl id (.refl _) rfl rfl rfl rfl (.inl rfl)

theorem frame_keepAlive (c : NativeCore) (controlStarted : Bool) (now : ℕ) :
    (c.keepAlive controlStarted now).frame = c.frame := by
  unfold keepAlive queueKeepalive
  dsimp only
  split_ifs
  · rfl
  · split
    · rfl
    · exact frame_queuePacket _ _
  · rfl

theorem reaches_keepAlive (c : NativeCore) (controlStarted : Bool) (now : ℕ) :
    Reaches prims K c (c.keepAlive controlStarted now) := by
  have hs : c.Settled { c with keepalive := some (now + c.profile.keepaliveInterval) } :=
    settled_of_timers rfl id (.refl _) rfl rfl rfl rfl (.inl rfl)
  unfold keepAlive
  split_ifs
  · exact .of_settled hs
  · exact (Reaches.of_settled hs).trans (reaches_queueKeepalive _)
  · exact .refl c

variable (prims) in
/-- The rule for `maintain`: three starts, with the deadline of the maintenance and the keepalive.
-/
theorem maintain_of {R : NativeCore → NativeCore → Prop} (io : TurnIo)
    (htrans : ∀ {c c' c''}, R c c' → R c' c'' → R c c'')
    (hstart : ∀ c due (operation : Operation), operation.phase = .ready →
      R c (c.startDue prims due operation io).1)
    (hpost : ∀ c due, R c (c.postponeMaintenance due io.now))
    (hkeep : ∀ c started, R c (c.keepAlive started io.now)) (c : NativeCore) :
    R c (c.maintain prims io).1 := by
  have hrefresh := hstart c (isDue io.now c.allocationRefresh) .refresh rfl
  unfold maintain
  dsimp only
  split
  · rename_i heq
    rw [heq] at hrefresh
    exact hrefresh
  · rename_i c₁ _ heq
    rw [heq] at hrefresh
    have hperm := htrans (htrans hrefresh (hpost c₁ (isDue io.now c.maintenanceRefresh)))
      (hstart _ (isDue io.now c.maintenanceRefresh || isDue io.now c.permissionRetry)
        .permission rfl)
    split
    · rename_i heq
      rw [heq] at hperm
      exact hperm
    · rename_i c₂ _ heq
      rw [heq] at hperm
      have hchannel := htrans hperm (hstart c₂
        (isDue io.now c.maintenanceRefresh || isDue io.now c.channelRetry) .channel rfl)
      split
      · rename_i heq
        rw [heq] at hchannel
        exact hchannel
      · rename_i c₃ _ heq
        rw [heq] at hchannel
        exact htrans hchannel (hkeep c₃ _)

theorem reaches_maintain (c : NativeCore) (io : TurnIo) (hr : c.state = .ready) :
    Reaches prims K c (c.maintain prims io).1 := by
  refine (maintain_of (R := fun c c' => c.state = .ready → c'.state = .ready ∧
    Reaches prims K c c') prims
    io (fun h h' hr => ?_) (fun c due operation hphase hr => ?_) (fun c due hr => ?_)
    (fun c started hr => ?_) c hr).2
  · obtain ⟨hr', hreaches⟩ := h hr
    exact ⟨(h' hr').1, hreaches.trans (h' hr').2⟩
  · exact ⟨(congrArg Frame.state (frame_startDue prims c due operation io)).trans hr,
      reaches_startDue c due operation io hr hphase⟩
  · have hp := settled_postponeMaintenance c due io.now
    exact ⟨(congrArg Frame.state hp.frame).trans hr, .of_settled hp⟩
  · exact ⟨(congrArg Frame.state (frame_keepAlive c started io.now)).trans hr,
      reaches_keepAlive c started io.now⟩

variable {controls : List Control} {pending : List Pending}

theorem settled_scheduleMaintenanceRetry {c : NativeCore} (hready : c.state = .ready)
    (hp : pending.Sublist c.pending) (hc : controls.Sublist c.controls) (he : c.Queues events)
    (ho : ∀ q ∈ pending, q.operation ≠ operation) (now : ℕ) :
    c.Settled ((c.shed pending controls events).scheduleMaintenanceRetry operation now).1 := by
  have hs : ∀ c', c'.frame = c.frame → c'.events = events → c'.controls = controls →
      c'.pending = pending → c'.requests = c.requests → c'.channel = c.channel →
      c'.allocationExpiresAt = c.allocationExpiresAt →
      (operation = .refresh ∨ c'.allocationRefresh = c.allocationRefresh) → c.Settled c' := by
    intro c' hf he' hc' hp' hq hchannel hexp hr
    refine ⟨hf, he' ▸ he, hc' ▸ hc, hp' ▸ hp, hq, .inr hready,
      fun hh => ?_, .inl hchannel, .inl hexp⟩
    obtain rfl | hr := hr
    · rw [not_hasOperation.mpr (hp' ▸ ho)] at hh
      cases hh
    · exact .inl hr
  cases operation with
  | refresh => exact hs _ rfl rfl rfl rfl rfl rfl rfl (.inl rfl)
  | channel =>
    unfold scheduleMaintenanceRetry
    dsimp only
    split_ifs
    · exact hs _ rfl rfl rfl rfl rfl rfl rfl (.inr rfl)
    · exact hs _ rfl rfl rfl rfl rfl rfl rfl (.inr rfl)
  | _ => exact hs _ rfl rfl rfl rfl rfl rfl rfl (.inr rfl)

theorem reaches_completeFailure {c : NativeCore} (hp : pending.Sublist c.pending)
    (hctrl : controls.Sublist c.controls) (he : c.Queues events)
    (ho : ∀ q ∈ pending, q.operation ≠ operation) (status : ℤ) (stunCode now : ℕ) :
    Reaches prims K c
      ((c.shed pending controls events).completeFailure operation status stunCode now) := by
  unfold completeFailure
  split_ifs with hretry
  · have hr : c.state = .ready := hretry.2.1
    have hdone : c.Queues
        ((c.shed pending controls events).complete operation status stunCode).events :=
      fun hc => queues_push (c.shed pending controls events) _ (he hc)
    have hs := settled_scheduleMaintenanceRetry hr hp hctrl hdone ho now
    change c.Settled (((c.shed pending controls events).complete operation status
      stunCode).scheduleMaintenanceRetry operation now).1 at hs
    split
    · rename_i heq
      rw [heq] at hs
      exact .of_settled hs
    · rename_i c' heq
      rw [heq] at hs
      obtain ⟨events', he', hu⟩ := destroyAfterChannelRebindExhausted_eq c'
      rw [hu]
      have hr' : c'.state = .ready := (congrArg Frame.state hs.frame).trans hr
      exact (Reaches.of_settled hs).trans (.of_move (.unbind events' he' hr') nofun)
  · obtain ⟨state, events', he', hstate, hruined⟩ :=
      destroyAllocation_eq (c.shed pending controls events) operation status stunCode
    rw [hruined]
    exact .of_move (.ruin state events' (he.trans he') hstate) nofun

theorem Phased.others {c : NativeCore} (h : c.Phased) {p : Pending} {before after : List Pending}
    (hs : c.pending = before ++ p :: after) : ∀ q ∈ before ++ after, q.operation ≠ p.operation := by
  have hn := h.nodup
  rw [hs, List.map_append, List.map_cons, List.nodup_middle, ← List.map_append,
    List.nodup_cons] at hn
  exact fun q hq heq => hn.1 (List.mem_map.mpr ⟨q, hq, heq⟩)

theorem reaches_giveUp {c : NativeCore} (h : c.Phased) {index : ℕ} {p : Pending}
    (hp : c.pending[index]? = some p) (now : ℕ) : Reaches prims K c (c.giveUp index p now) := by
  obtain ⟨hlt, hg⟩ := List.getElem?_eq_some_iff.mp hp
  have hs : c.pending = c.pending.take index ++ p :: c.pending.drop (index + 1) := by
    rw [← hg, ← List.drop_eq_getElem_cons hlt, List.take_append_drop]
  have ho : ∀ q ∈ c.pending.eraseIdx index, q.operation ≠ p.operation := by
    rw [List.eraseIdx_eq_take_drop_succ]
    exact h.others hs
  exact reaches_completeFailure (List.eraseIdx_sublist _ _) List.filter_sublist id ho
    resultTimeout 0 now

theorem reaches_expireFrom (now fuel index : ℕ) {c : NativeCore} (h : c.Phased) :
    Reaches prims K c (expireFrom now fuel index c) := by
  induction fuel generalizing index c with
  | zero => exact .refl c
  | succ _ ih =>
    rw [expireFrom]
    split
    · exact .refl c
    · rename_i p hp
      have hg : Reaches prims K c (c.giveUp index p now) := reaches_giveUp h hp now
      split_ifs with he hc hs
      · exact ih (index + 1) h
      · exact hg.trans (ih index (hg.phased h))
      · exact hg.trans (ih index (hg.phased h))
      · have hr : Reaches prims K c (c.retransmit index p now) :=
          .of_move (.resend index p now hp (Nat.lt_of_not_le hc)) nofun
        exact hr.trans (ih (index + 1) (hr.phased h))

theorem reaches_destroyAllocation (c : NativeCore) (operation : Operation) (status : ℤ)
    (stunCode : ℕ) : Reaches prims K c (c.destroyAllocation operation status stunCode) := by
  obtain ⟨state, events, he, hs, heq⟩ := destroyAllocation_eq c operation status stunCode
  rw [heq]
  exact .of_move (.ruin state events he hs) nofun

theorem reaches_expireAllocation (c : NativeCore) (now : ℕ) :
    Reaches prims K c (c.expireAllocation now) := by
  unfold expireAllocation
  split_ifs
  · exact reaches_destroyAllocation c .refresh resultTimeout 0
  · exact .refl c

theorem reaches_poll {c : NativeCore} (h : c.Phased) (io : TurnIo) :
    Reaches prims K c (c.poll prims io).1 := by
  have he : Reaches prims K c ((c.expireTransactions io.now).expireAllocation io.now) :=
    (reaches_expireFrom io.now c.pending.length 0 h).trans (reaches_expireAllocation _ io.now)
  unfold poll
  split_ifs
  · exact .refl c
  · dsimp only
    split_ifs with hr
    · simp only [Bool.and_eq_true, decide_eq_true_eq] at hr
      exact he.trans (reaches_maintain _ io hr.2)
    · exact he

/-! ## Responses -/

structure Answers (c : NativeCore) (m : Message) (p : Pending) : Prop where
  mem : p ∈ c.pending
  others : ∀ q ∈ (c.answered m).pending, q.operation ≠ p.operation

theorem Phased.answers {c : NativeCore} (h : c.Phased) {m : Message} {p : Pending}
    (hf : c.pending.find? (·.answeredBy m) = some p) : c.Answers m p := by
  refine ⟨List.mem_of_find?_eq_some hf, ?_⟩
  obtain ⟨ha, before, after, hs, hb⟩ := List.find?_eq_some_iff_append.mp hf
  have he : (c.answered m).pending = before ++ after := by
    change c.pending.eraseP (·.answeredBy m) = before ++ after
    rw [hs, List.eraseP_append_right _ (fun q hq => by simpa using hb q hq),
      List.eraseP_cons_of_pos ha]
  rw [he]
  exact h.others hs

theorem answered_pending_sublist (c : NativeCore) (m : Message) :
    (c.answered m).pending.Sublist c.pending := List.eraseP_sublist

theorem answered_controls_sublist (c : NativeCore) (m : Message) :
    (c.answered m).controls.Sublist c.controls := List.filter_sublist

section Response

variable {c : NativeCore} {m : Message} {p : Pending} (io : TurnIo)

theorem Answers.reaches_failure (h : c.Answers m p) (he : c.Queues events) (status : ℤ)
    (stunCode now : ℕ) :
    Reaches prims K c ({ c.answered m with events }.completeFailure p.operation status
      stunCode now) :=
  reaches_completeFailure (answered_pending_sublist c m) (answered_controls_sublist c m) he
    h.others status stunCode now

theorem Answers.reaches_reauthenticate (h : c.Answers m p) {code : ℕ} {answered : Bool}
    (hchallenge : ∀ realm nonce, code ∈ [401, 438] →
      c.challenge m code = some (realm, nonce) → K realm nonce)
    (hc' : (c.answered m).reauthenticate prims m p code io = (c', answered)) :
    (answered = true ∧ Reaches prims K c c') ∨ (answered = false ∧ (c' = c.answered m ∨
      ∃ realm nonce, K realm nonce ∧ c' = (c.answered m).setAuth prims realm nonce)) := by
  unfold reauthenticate at hc'
  split_ifs at hc' with hcode
  · cases hrealm : (c.answered m).challenge m code with
    | none =>
      rw [hrealm] at hc'
      cases hc'
      exact .inr ⟨rfl, .inl rfl⟩
    | some auth =>
      obtain ⟨realm, nonce⟩ := auth
      rw [hrealm] at hc'
      dsimp only at hc'
      have hK : K realm nonce := hchallenge realm nonce hcode.1 hrealm
      cases hstart : ((c.answered m).setAuth prims realm nonce).startOperation prims
        p.operation true (p.nonceRetries + 1) .renewal (io.draw p.operation) with
      | error e =>
        rw [hstart] at hc'
        cases hc'
        exact .inr ⟨rfl, .inr ⟨realm, nonce, hK, rfl⟩⟩
      | ok c'' =>
        rw [hstart] at hc'
        cases hc'
        have hfresh : ((c.answered m).setAuth prims realm nonce).hasOperation p.operation = false :=
          not_hasOperation.mpr h.others
        obtain ⟨-, packet, hbuild, rfl⟩ := startOperation_of_fresh hfresh hstart
        exact .inl ⟨rfl, .of_move (.renew p realm nonce _ _ (io.draw p.operation) packet h.mem
          hcode.2 hK (answered_pending_sublist c m) h.others (answered_controls_sublist c m)
          hbuild) nofun⟩
  · cases hc'
    exact .inr ⟨rfl, .inl rfl⟩

theorem Answers.reaches_onError (h : c.Answers m p)
    (hc : ∀ realm nonce, (errorCode m).getD 0 ∈ [401, 438] →
      c.challenge m ((errorCode m).getD 0) = some (realm, nonce) → K realm nonce) :
    Reaches prims K c ((c.answered m).onError prims m p io) := by
  unfold onError
  dsimp only
  split_ifs
  · exact h.reaches_failure (queues_push (c.answered m) _) resultProtocol 0 io.now
  · obtain ⟨state, events, he, hs, heq⟩ := destroyAllocation_eq ((c.answered m).push
      ((c.answered m).errorEvent m 0 ((errorCode m).getD 0))) p.operation resultProtocol
        ((errorCode m).getD 0)
    rw [heq]
    exact .of_move (.ruin state events ((queues_push (c.answered m) _).trans he) hs) nofun
  · split
    · rename_i hr
      obtain ⟨-, hreaches⟩ | ⟨hf, -⟩ :=
        h.reaches_reauthenticate io hc hr
      · exact hreaches
      · cases hf
    · rename_i hr
      obtain ⟨ht, -⟩ | ⟨-, rfl | ⟨realm, nonce, hK, rfl⟩⟩ :=
        h.reaches_reauthenticate io hc hr
      · cases ht
      · exact h.reaches_failure (queues_push (c.answered m) _) resultProtocol _ io.now
      · have ha : Reaches prims K c (c.setAuth prims realm nonce) :=
          .of_move (.challenged realm nonce hK) nofun
        have hanswers : (c.setAuth prims realm nonce).Answers m p := ⟨h.mem, h.others⟩
        exact ha.trans (hanswers.reaches_failure (queues_push (c.answered m) _) resultProtocol _
          io.now)

theorem operation_eq_of_phase {a b : Operation} (h : a.phase = b.phase)
    (hr : b.phase ≠ .ready) : a = b := by
  cases a <;> cases b <;> first | rfl | exact absurd rfl hr | cases h

theorem Answers.answered_pending (h : c.Answers m p) (hc : c.Phased)
    (hr : p.operation.phase ≠ .ready) : (c.answered m).pending = [] := by
  refine List.eq_nil_iff_forall_not_mem.mpr fun q hq => h.others q hq ?_
  have hp := hc.phase q ((answered_pending_sublist c m).subset hq)
  exact operation_eq_of_phase (hp.symm.trans (hc.phase p h.mem)) hr

variable {r : Except TurnError Unit}

theorem Answers.reaches_enterAllocation (h : c.Answers m p) (hc : c.Phased)
    (hall : p.operation = .allocate) (hcred : c.HasCredentials) (relay : SocketAddr)
    (returned : Option ℕ)
    (hc' : ((c.answered m).allocated relay returned io.now).enterAllocation prims io = (c', r)) :
    (r = .ok () ∧ Reaches prims K c c') ∨ (∃ e, r = .error e ∧
      Reaches prims K c (c'.completeFailure .allocate resultProtocol 0 io.now)) := by
  have hstate : c.state = .allocating := by rw [hc.phase p h.mem, hall, Operation.phase]
  have hnone : (c.answered m).pending = [] := by
    apply h.answered_pending hc
    rw [hall]
    nofun
  have henter : ∀ state, ∃ events, c.Queues events ∧
      ((c.answered m).allocated relay returned io.now).setState state =
        c.lodged state relay returned io.now (c.answered m).controls events := by
    intro state
    obtain ⟨events, hevents, heq⟩ :=
      setState_eq ((c.answered m).allocated relay returned io.now) state
    refine ⟨events, fun hq => hevents (queues_push (c.answered m) _ hq), ?_⟩
    rw [heq, lodged, ← hnone]
    rfl
  unfold enterAllocation at hc'
  split_ifs at hc' with hshut
  · obtain ⟨events, hevents, heq⟩ := henter .deallocating
    rw [heq] at hc'
    dsimp only at hc'
    split at hc'
    · rename_i e _
      cases hc'
      refine .inr ⟨e, rfl, ?_⟩
      have hreset : c.Settled { c with refreshFailures := 0 } :=
        settled_of_timers rfl id (.refl _) rfl rfl rfl rfl (.inl rfl)
      have hfail : (c.lodged .deallocating relay returned io.now (c.answered m).controls
          events).completeFailure .allocate resultProtocol 0 io.now =
          (c.lodged .deallocating relay returned io.now (c.answered m).controls
            events).destroyAllocation .allocate resultProtocol 0 := if_neg (by simp)
      obtain ⟨state, events', hevents', hstate', hruin⟩ :=
        destroyAllocation_eq (c.lodged .deallocating
        relay returned io.now (c.answered m).controls events) .allocate resultProtocol 0
      rw [hfail, hruin]
      exact (Reaches.of_settled hreset).trans
        (.of_move (.ruin state events' (fun hq => hevents' (hevents hq)) hstate') nofun)
    · rename_i hstart
      cases hc'
      obtain ⟨-, packet, hbuild, rfl⟩ := startOperation_of_fresh rfl hstart
      exact .inl ⟨rfl, .of_move (.yield relay returned io.now _ events (io.draw .deallocate) packet
        hevents (answered_controls_sublist c m) hstate hshut hcred hbuild) nofun⟩
  · obtain ⟨events, hevents, heq⟩ := henter .ready
    rw [heq] at hc'
    cases hc'
    refine .inl ⟨rfl, .of_move (.obtain relay returned io.now (c.answered m).controls _ ?_
      (answered_controls_sublist c m) hstate (Bool.eq_false_iff.mpr hshut) hcred) nofun⟩
    exact fun hq => length_pushEvent_le (hevents hq) _

theorem Answers.reaches_completeSuccess (h : c.Answers m p) (hc : c.Phased)
    (hcred : c.HasCredentials)
    (hc' : (c.answered m).completeSuccess prims p.operation m io = (c', r)) :
    (r = .ok () ∧ Reaches prims K c c') ∨ (∃ e, r = .error e ∧
      Reaches prims K c (c'.completeFailure p.operation resultProtocol 0 io.now)) := by
  have hphase := hc.phase p h.mem
  have hfail : ∀ e, (c.answered m, Except.error e) = (c', r) → ∃ e, r = .error e ∧
      Reaches prims K c (c'.completeFailure p.operation resultProtocol 0 io.now) := by
    intro e heq
    cases heq
    exact ⟨e, rfl, h.reaches_failure id resultProtocol 0 io.now⟩
  unfold completeSuccess at hc'
  cases hop : p.operation with
  | allocate =>
    rw [hop] at hc' hfail
    dsimp only at hc'
    split at hc'
    · exact .inr (hfail _ hc')
    · split at hc'
      · exact .inr (hfail _ hc')
      · rename_i relay _
        split_ifs at hc'
        · exact .inr (hfail _ hc')
        · exact .inr (hfail _ hc')
        · exact h.reaches_enterAllocation io hc hop hcred relay _ hc'
  | refresh =>
    rw [hop] at hc' hfail hphase
    dsimp only at hc'
    split_ifs at hc'
    · exact .inr (hfail _ hc')
    · cases hc'
      have hfresh : (c.answered m).hasOperation .refresh = false :=
        not_hasOperation.mpr (hop ▸ h.others)
      refine .inl ⟨rfl, .of_settled ⟨rfl, queues_push (c.answered m) _,
        answered_controls_sublist c m, answered_pending_sublist c m, rfl,
        .inr hphase, fun hhas => ?_, .inl rfl, .inr ⟨hphase, rfl⟩⟩⟩
      exact absurd (hhas.symm.trans hfresh) (by decide)
  | deallocate =>
    rw [hop] at hc' hfail hphase
    dsimp only at hc'
    split_ifs at hc'
    · exact .inr (hfail _ hc')
    · have hnone : (c.answered m).pending = [] := by
        apply h.answered_pending hc
        rw [hop]
        nofun
      obtain ⟨events, hevents, heq⟩ := setState_eq ({ c.answered m with
        relay := none, allocationRefresh := none, allocationExpiresAt := none }.complete
          .deallocate 0 0) .deallocated
      rw [heq] at hc'
      cases hc'
      have hrelease : { ({ c.answered m with
          relay := none, allocationRefresh := none, allocationExpiresAt := none }.complete
            .deallocate 0 0) with state := .deallocated, events } =
          c.released (c.answered m).controls events := by
        rw [released, ← hnone]
        rfl
      rw [hrelease]
      exact .inl ⟨rfl, .of_move (.release _ events
        (fun hq => hevents (queues_push (c.answered m) _ hq)) (answered_controls_sublist c m)
        hphase) nofun⟩
  | permission =>
    rw [hop] at hc' hphase
    cases hc'
    exact .inl ⟨rfl, .of_settled ⟨rfl, queues_push (c.answered m) _, answered_controls_sublist c m,
      answered_pending_sublist c m, rfl, .inr hphase, fun _ => .inl rfl, .inl rfl, .inl rfl⟩⟩
  | channel =>
    rw [hop] at hc' hphase
    cases hc'
    refine .inl ⟨rfl, .of_settled ⟨rfl, ?_, answered_controls_sublist c m,
      answered_pending_sublist c m, rfl, .inr hphase, fun _ => .inl rfl, .inr hphase, .inl rfl⟩⟩
    exact fun hq => length_pushEvent_le (length_pushEvent_le hq _) _

theorem Answers.reaches_onResponse (h : c.Answers m p) (hc : c.Phased)
    (hchunk : ∀ realm nonce, (errorCode m).getD 0 ∈ [401, 438] →
      c.challenge m ((errorCode m).getD 0) = some (realm, nonce) → K realm nonce)
    (hclass : m.messageClass = .success ∨ m.messageClass = .error) :
    Reaches prims K c ((c.answered m).onResponse prims m p io).1 := by
  unfold onResponse
  split_ifs with hu he
  · exact h.reaches_failure id resultAuthentication 0 io.now
  · exact h.reaches_onError io hchunk
  · have ha : p.authenticated = true := by
      refine Bool.not_eq_false _ ▸ fun hf => hu ⟨?_, hf⟩
      exact hclass.resolve_right he
    have hcred := hc.credentials p h.mem ha
    unfold applySuccess
    split
    · rename_i hs
      obtain ⟨-, hr⟩ | ⟨e, he', -⟩ := h.reaches_completeSuccess io hc hcred hs
      · exact hr
      · cases he'
    · rename_i hs
      obtain ⟨hok, -⟩ | ⟨e, -, hr⟩ := h.reaches_completeSuccess io hc hcred hs
      · cases hok
      · exact hr

end Response

/-! ## Calls -/

/-- What is known of the challenge in a call that answers a request. -/
def Challenges (K : Bytes → Bytes → Prop) (c : NativeCore) : Input → Prop
  | .inputStun packet _ => ∀ m realm nonce, Message.decode packet = .ok m →
      (∃ p ∈ c.pending, p.answeredBy m) → (errorCode m).getD 0 ∈ [401, 438] →
      c.challenge m ((errorCode m).getD 0) = some (realm, nonce) → K realm nonce
  | _ => True

theorem challenges_true (c : NativeCore) (input : Input) :
    c.Challenges (fun _ _ => True) input := by
  cases input with
  | inputStun => exact fun _ _ _ _ _ _ _ => trivial
  | _ => trivial

/-- A shutdown of a core that has an allocation can send its Deallocate. -/
def Returnable (prims : Primitives) (c : NativeCore) : Input → Prop
  | .gracefulShutdown io =>
    c.state = .ready ∨ (c.state = .destroying ∧ c.allocationExpiresAt.isSome) → c.HasCredentials ∧
      ∃ packet, c.buildRequest prims .deallocate (io.draw .deallocate).transaction true = .ok packet
  | _ => True

theorem reaches_inputStun {c : NativeCore} (h : c.Phased) (packet : Bytes) (io : TurnIo)
    (hc : c.Challenges K (.inputStun packet io)) :
    Reaches prims K c (c.inputStun prims packet io).1 := by
  unfold inputStun
  split
  · exact .refl c
  · rename_i m hd
    split_ifs with hclass
    · exact .refl c
    · exact .refl c
    · split
      · exact .refl c
      · rename_i p hf
        split_ifs
        · unfold reportForged
          split_ifs
          · split
            · exact .of_settled (settled_push c _)
            · exact .refl c
          · exact .refl c
        · have ha : ∃ p ∈ c.pending, p.answeredBy m :=
            ⟨p, List.mem_of_find?_eq_some hf, List.find?_some
              (p := fun q : Pending => q.answeredBy m) hf⟩
          refine (h.answers hf).reaches_onResponse io h
            (fun realm nonce => hc m realm nonce hd ha) ?_
          rwa [not_and_or, not_not, not_not] at hclass

theorem reaches_startAllocation (c : NativeCore) (io : TurnIo) :
    Reaches prims K c (c.startAllocation prims io).1 := by
  unfold startAllocation
  split
  · exact .refl c
  · rename_i ho
    split_ifs with hn
    · exact .refl c
    · unfold requireOpen at ho
      split_ifs at ho with hc
      rw [not_or, Bool.not_eq_true, Bool.not_eq_true] at hc
      obtain ⟨events, he, heq⟩ := setState_eq c .allocating
      rw [heq]
      have hb : Reaches prims K c { c with state := .allocating, events } :=
        .of_move (.begin events he (not_not.mp hn) hc.2 hc.1) nofun
      exact hb.trans (reaches_tryStart _ false io rfl nofun nofun)

theorem ready_of_requireReady {c : NativeCore} {operation : String}
    (h : c.requireReady operation = .ok ()) : c.state = .ready := by
  unfold requireReady at h
  split at h
  · cases h
  · split_ifs at h with hr
    exact not_not.mp hr

theorem reaches_startChannel (c : NativeCore) (io : TurnIo) :
    Reaches prims K c (c.startChannel prims io).1 := by
  unfold startChannel
  split
  · exact .refl c
  · rename_i hr
    exact reaches_tryStart c true io (ready_of_requireReady hr) nofun nofun

theorem reaches_startPermission (c : NativeCore) (io : TurnIo) :
    Reaches prims K c (c.startPermission prims io).1 := by
  unfold startPermission
  split
  · exact .refl c
  · rename_i hr
    exact reaches_tryStart c true io (ready_of_requireReady hr) nofun nofun

theorem reaches_pullControl (c : NativeCore) : Reaches prims K c c.pullControl.1 := by
  unfold pullControl
  split
  · exact .refl c
  · rename_i control controls heq
    refine .of_settled (settled_of_timers rfl id ?_ rfl rfl rfl rfl (.inl rfl))
    rw [heq]
    exact List.sublist_cons_self control controls

theorem reaches_pullEvent (c : NativeCore) : Reaches prims K c c.pullEvent.1 := by
  refine .of_settled (settled_of_timers rfl (fun h => ?_) (.refl _) rfl rfl rfl rfl (.inl rfl))
  exact ((List.drop_sublist 1 c.events).length_le).trans h

theorem reaches_forceDestroy (c : NativeCore) (status : ℤ) :
    Reaches prims K c (c.forceDestroy status) := by
  unfold forceDestroy
  split_ifs
  · exact .refl c
  · obtain ⟨events, he, heq⟩ :=
      setState_eq { c with destroyed := true, controls := [], pending := [] } .destroying
    rw [heq]
    exact .of_move (.destroy _ fun hq => length_pushEvent_le (he hq) _) nofun

/-- A shutdown gives the allocation back, ends what has none, or waits for the Allocate. -/
theorem trace_gracefulShutdown (c : NativeCore) (io : TurnIo) :
    ∃ acts, Trace (Move prims K) c acts (c.gracefulShutdown prims io).1 ∧
      (c.Returnable prims (.gracefulShutdown io) → Act.stuck ∉ acts) := by
  have hreach : ∀ {c'}, Reaches prims K c c' → ∃ acts, Trace (Move prims K) c acts c' ∧
      (c.Returnable prims (.gracefulShutdown io) → Act.stuck ∉ acts) :=
    fun ⟨acts, htrace, hacts⟩ => ⟨acts, htrace, fun _ => hacts⟩
  unfold gracefulShutdown
  dsimp only
  split_ifs with hclose hready hall
  · exact hreach (.refl c)
  · obtain ⟨events, hevents, heq⟩ := setState_eq (c.closing []) .deallocating
    change (c.closing []).setState .deallocating = c.surrendered events at heq
    change ∃ acts, Trace (Move prims K) c acts
      (((c.closing []).setState .deallocating).tryStart prims .deallocate true io).1 ∧ _
    rw [heq]
    unfold tryStart
    split
    · rename_i e hstart
      refine ⟨[.stuck], .single (.strand events hevents), fun hreturn => ?_⟩
      obtain ⟨hcred, packet, hbuild⟩ := hreturn hready
      have hok : (c.surrendered events).startOperation prims .deallocate true 0 .start
        (io.draw .deallocate) = .ok _ :=
          startOperation_ok (c := c.surrendered events) rfl hcred hbuild
      rw [hok] at hstart
      cases hstart
    · rename_i hstart
      obtain ⟨hcred, packet, hbuild, rfl⟩ := startOperation_of_fresh rfl hstart
      exact hreach (.of_move (.surrender events (io.draw .deallocate) packet hevents
        (hcred rfl) hbuild) nofun)
  · rw [not_or, Bool.not_eq_true, Bool.not_eq_true] at hclose
    rw [not_or, not_and, Option.not_isSome_iff_eq_none] at hready
    exact hreach (.of_move (.close [] (List.nil_sublist _) hclose.2 hready.1 hready.2) nofun)
  · rw [not_or, Bool.not_eq_true, Bool.not_eq_true] at hclose
    rw [not_or, not_and, Option.not_isSome_iff_eq_none] at hready
    exact hreach (.of_move (.close c.pending (.refl _) hclose.2 hready.1 hready.2) nofun)

theorem trace_step (prims : Primitives) {c : NativeCore} (h : c.Phased) (input : Input)
    (hc : c.Challenges K input) : ∃ acts, Trace (Move prims K) c acts (c.step prims input) ∧
      (c.Returnable prims input → Act.stuck ∉ acts) := by
  have hr : ∀ {c'}, Reaches prims K c c' → ∃ acts, Trace (Move prims K) c acts c' ∧
      (c.Returnable prims input → Act.stuck ∉ acts) :=
    fun ⟨acts, htrace, ha⟩ => ⟨acts, htrace, fun _ => ha⟩
  cases input with
  | startAllocation io => exact hr (reaches_startAllocation c io)
  | startChannel io => exact hr (reaches_startChannel c io)
  | startPermission io => exact hr (reaches_startPermission c io)
  | inputStun packet io => exact hr (reaches_inputStun h packet io hc)
  | poll io => exact hr (reaches_poll h io)
  | pullControl => exact hr (reaches_pullControl c)
  | pullEvent => exact hr (reaches_pullEvent c)
  | gracefulShutdown io => exact trace_gracefulShutdown c io
  | forceDestroy status => exact hr (reaches_forceDestroy c status)

theorem trace_run (prims : Primitives) {c : NativeCore} (h : c.Phased) (inputs : List Input)
    (hchunk : Runs.Along (step prims) (Challenges K) c inputs) :
    ∃ acts, Trace (Move prims K) c acts (inputs.foldl (step prims) c) := by
  obtain ⟨acts, htrace, -⟩ := Trace.of_run (R := Move prims K) (I := Phased) (P := fun _ => True)
    (fun c input hc hin => by
      obtain ⟨acts, htrace, -⟩ := trace_step prims hc input hin
      exact ⟨acts, htrace, trivial⟩)
    (fun _ _ _ => Phased.move) trivial (fun _ _ _ _ => trivial) inputs h hchunk
  exact ⟨acts, htrace⟩

end Calls

end NativeCore
end Turn
end Csqtt
