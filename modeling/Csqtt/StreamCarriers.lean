import Csqtt.StreamPlane

/-!
# Where the frames of the streams go

The slots that the inventory remembers are used in later passes too. A slot is taken by another
session, a session moves or is renamed only together with the dirty flag, and a pass that finds the
flag reads the sessions again before it sends. So a frame reaches only sessions of its identity.
-/

namespace Csqtt

theorem StreamInventory.mem_carriers_observe {i : StreamInventory} {slot slot' workerId : ℕ}
    {s : HotSession} (h : slot' ∈ (i.observe slot s workerId).carriers) :
    slot' ∈ i.carriers ∨ slot' = slot := by
  unfold observe at h
  dsimp only at h
  split_ifs at h
  · exact (List.mem_append.mp h).imp_right List.mem_singleton.mp
  · exact .inl h

namespace Engine

variable {cfg : ServerConfig} {e e' e'' : Engine}

/-! ## Slots of live sessions -/

def Carried (e : Engine) (inventory : StreamInventories) : Prop :=
  ∀ identity streams, inventory.lookup identity = some streams → ∀ slot ∈ streams.carriers,
    ∃ s, e.sessions.get slot = some s ∧ s.identity = identity

theorem Carried.observeSlot {inventory : StreamInventories} (h : e.Carried inventory)
    {entry : ℕ × HotSession} (he : e.sessions.get entry.1 = some entry.2) :
    e.Carried (e.observeSlot inventory entry) := by
  unfold Engine.observeSlot
  split
  · exact h
  · intro identity streams hs slot hslot
    by_cases hid : identity = entry.2.identity
    · rw [hid, AList.lookup_insert] at hs
      cases hs
      obtain ho | hn := StreamInventory.mem_carriers_observe hslot
      · cases hl : inventory.lookup entry.2.identity with
        | none =>
          rw [hl] at ho
          cases ho
        | some old =>
          rw [hl] at ho
          rw [hid]
          exact h entry.2.identity old hl slot ho
      · exact ⟨entry.2, hn ▸ he, hid.symm⟩
    · rw [AList.lookup_insert_ne hid] at hs
      exact h identity streams hs slot hslot

theorem carried_readStreams (e : Engine) (inventory : StreamInventories) :
    e.Carried (e.readStreams inventory) := by
  have hr : e.Carried (inventory.mapValues fun _ i => i.reset) := by
    intro identity streams hs slot hslot
    rw [AList.lookup_mapValues] at hs
    obtain ⟨old, -, rfl⟩ := Option.map_eq_some_iff.mp hs
    cases hslot
  have hf : e.Carried (e.sessions.slots.foldl e.observeSlot
      (inventory.mapValues fun _ i => i.reset)) :=
    List.foldlRecOn (motive := e.Carried) _ _ hr fun _ h entry he =>
      h.observeSlot (Slab.mem_slots.mp he)
  intro identity streams hs
  rw [Engine.readStreams, AList.lookup_filterValues] at hs
  exact hf identity streams (Option.filter_eq_some_iff.mp hs).1

/-! ## What sets the flag -/

/-- Either the flag is set afterwards, or it was not set before and every slot has the identity it
had. -/
def Marks (e e' : Engine) : Prop :=
  e'.streamInventoryDirty = false → e.streamInventoryDirty = false ∧
    ∀ slot, (e'.sessions.get slot).map (·.identity) = (e.sessions.get slot).map (·.identity)

namespace Marks

theorem of_eq (hs : e'.sessions = e.sessions)
    (hd : e'.streamInventoryDirty = e.streamInventoryDirty) : Marks e e' :=
  fun h => ⟨hd.symm.trans h, fun slot => by rw [hs]⟩

theorem of_dirty (h : e'.streamInventoryDirty = true) : Marks e e' := by
  intro hc
  rw [h] at hc
  cases hc

theorem trans (h : Marks e e') (h' : Marks e' e'') : Marks e e'' := by
  intro hc
  obtain ⟨hc', hs'⟩ := h' hc
  obtain ⟨hc₀, hs⟩ := h hc'
  exact ⟨hc₀, fun slot => (hs' slot).trans (hs slot)⟩

theorem session {slot : ℕ} {s : HotSession} (hs : e.sessions.get slot = some s) (s' : HotSession)
    (hid : s'.identity = s.identity) : Marks e (e.setSession slot s') := by
  refine fun hc => ⟨hc, fun i => ?_⟩
  rw [get_setSession]
  split_ifs with hi
  · rw [hi, hs, Option.map_some, Option.map_some, Option.map_some, hid]
  · rfl

theorem carried (h : Marks e e') (hc : e'.streamInventoryDirty = false)
    {inventory : StreamInventories} (hcarried : e.Carried inventory) : e'.Carried inventory := by
  intro identity streams hstream slot hslot
  obtain ⟨s, hs, hid⟩ := hcarried identity streams hstream slot hslot
  have hsame := (h hc).2 slot
  rw [hs, Option.map_some, hid] at hsame
  exact Option.map_eq_some_iff.mp hsame

end Marks

theorem dirty_queueEvent (e : Engine) (event : ControlEvent) :
    (e.queueEvent event).streamInventoryDirty = e.streamInventoryDirty := by
  obtain ⟨_, he⟩ := queueEvent_eq e event
  rw [he]

theorem marks_queueEvent (e : Engine) (event : ControlEvent) : Marks e (e.queueEvent event) :=
  .of_eq (sessions_queueEvent e event) (dirty_queueEvent e event)

theorem marks_removeSlotWithReason (cfg : ServerConfig) (e : Engine) (slot : ℕ) (reason : String) :
    Marks e (e.removeSlotWithReason cfg slot reason) := by
  unfold removeSlotWithReason
  split
  · exact .of_eq rfl rfl
  · rename_i s _
    refine .of_dirty ((dirty_queueEvent _ _).trans ?_)
    split
    · rename_i ip registrationId _ _
      obtain ⟨routes, publics, hu, -⟩ := unroute_spec cfg (e.unindex slot s) s ip registrationId
      rw [hu]
      rfl
    · rfl

theorem marks_publishSessions (e : Engine) : Marks e e.publishSessions := by
  refine fun hc => ⟨hc, fun slot => ?_⟩
  rw [publishSessions, Slab.get_map, Option.map_map]
  rfl

theorem marks_sending (cfg : ServerConfig) : Sending cfg Marks where
  refl _ := .of_eq rfl rfl
  trans := .trans
  beside h := .of_eq h.tables.sessions h.dirty
  wraps _ _ hs := .session hs _ rfl

theorem marks_forwarding (cfg : ServerConfig) : Forwarding cfg Marks where
  toSending := marks_sending cfg
  queued _ _ _ := .of_eq rfl rfl
  counted e slot bytes := by
    unfold countDown
    split
    · exact .of_eq rfl rfl
    · rename_i s hs
      exact .session hs _ rfl

theorem marks_steady (cfg : ServerConfig) : Steady cfg Marks where
  toSending := marks_sending cfg
  quiet e event _ := marks_queueEvent e event
  removed := marks_removeSlotWithReason cfg
  publishAll := publishAll_of .trans (fun _ _ _ => .of_eq rfl rfl) marks_publishSessions
  compacted _ := .of_dirty rfl

theorem marks_createForGetconf (e : Engine) (n : NewSession) (output : ServerWire.OutState)
    (payload : Bytes) : Marks e (e.createForGetconf cfg n output payload) := by
  exact .of_dirty ((dirty_queueEvent _ _).trans (dirty_queueEvent _ _))

variable {s : HotSession} {slot : ℕ}

section

variable (hs : e.sessions.get slot = some s)
include hs

theorem marks_writeTun (plain : Bytes) (room : Bool) : Marks e (e.writeTun slot s plain room) := by
  unfold writeTun
  split_ifs
  · exact .session hs (s.countUp plain.length) rfl
  · exact .of_eq rfl rfl

theorem marks_dispatch (plain : Bytes) (io : UdpIo) : Marks e (e.dispatch cfg slot s plain io) := by
  unfold dispatch
  split_ifs
  · exact .of_eq rfl rfl
  · exact (marks_steady cfg).sendPlain e slot readyOk io.send
  · exact .of_eq rfl rfl
  · exact marks_queueEvent e _
  · exact marks_writeTun hs plain io.tunRoom
  · exact .of_eq rfl rfl
  · apply (marks_queueEvent e (.ingressBeforeTunnel s.peer s.id plain)).trans
    exact .session (get_queueEvent hs _) _ rfl

theorem marks_receive (localIp : Option IpAddr) (seq : UInt16) (plain : Bytes) (io : UdpIo) :
    Marks e (e.receive cfg slot s localIp seq plain io) := by
  unfold receive
  split
  · rename_i replay _
    exact .session hs { s with replay } rfl
  · rename_i replay _
    have hseen : Marks e { e.setSession slot (s.seen replay e.monotonicMs localIp) with
        byPeer := rekey e.byPeer s localIp slot } :=
      .session hs (s.seen replay e.monotonicMs localIp) rfl
    refine hseen.trans (marks_dispatch ?_ plain io)
    exact get_setSession_self hs _

end

theorem marks_onUdp (e : Engine) (endpoint : EndpointKey) (wire : Bytes) (io : UdpIo) :
    Marks e (e.onUdp cfg endpoint wire io) := by
  have hb := fun {e e'} (h : Beside e e') => (marks_steady cfg).beside h
  have hc := udpCase_onUdp cfg e endpoint wire io
  generalize e.onUdp cfg endpoint wire io = e' at hc ⊢
  cases hc with
  | beside h => exact hb h
  | received _ _ _ seq plain h _ hs =>
    exact (hb h).trans (marks_receive (h.tables.sessions ▸ hs) _ seq plain io)
  | replaced _ slot _ n payload h =>
    exact ((hb h).trans (marks_removeSlotWithReason cfg _ slot _)).trans
      (marks_createForGetconf _ n _ payload)
  | created _ n payload h => exact (hb h).trans (marks_createForGetconf _ n _ payload)

theorem marks_onCommand (e : Engine) (command : Command) (io : CommandIo) :
    Marks e (e.onCommand cfg command io) := by
  have hsteady := marks_steady cfg
  have hc := commandCase_onCommand cfg e command io
  generalize e.onCommand cfg command io = e' at hc ⊢
  cases hc with
  | steady _ h => exact h _ hsteady
  | credentials => exact (hsteady.removeSlots e _ "credential-removed").trans (.of_eq rfl rfl)
  | unrouted => exact .of_eq rfl rfl
  | written payload _ s _ hs => exact .session hs (s.countUp payload.length) rfl
  | _ => exact .of_dirty rfl

/-! ## A frame -/

/-- The sessions stay, and what is sent is the payload, to sessions of the identity that are live at
that moment. -/
structure Reaches (cfg : ServerConfig) (identity : Identity) (payload : Bytes) (e e' : Engine) :
    Prop where
  sessions : ∀ slot s', e'.sessions.get slot = some s' →
    ∃ s, e.sessions.get slot = some s ∧ s.Alike s'
  sent : ∃ new, e'.sent = e.sent ++ new ∧ ∀ d ∈ new, ∃ slot s, e.sessions.get slot = some s ∧
    s.identity = identity ∧ Carries cfg s payload d

def HasIdentity (e : Engine) (identity : Identity) (slot : ℕ) : Prop :=
  ∀ s, e.sessions.get slot = some s → s.identity = identity

section Frame

variable {identity : Identity} {payload : Bytes}

theorem Reaches.of_eq (hsession : e'.sessions = e.sessions) (hsent : e'.sent = e.sent) :
    Reaches cfg identity payload e e' :=
  ⟨fun _ s hs => ⟨s, hsession ▸ hs, .refl s⟩, [], by rw [hsent, List.append_nil], by simp⟩

theorem Reaches.trans (h : Reaches cfg identity payload e e')
    (h' : Reaches cfg identity payload e' e'') :
    Reaches cfg identity payload e e'' where
  sessions slot s'' hs'' := by
    obtain ⟨s', hs', ha'⟩ := h'.sessions slot s'' hs''
    obtain ⟨s, hs, ha⟩ := h.sessions slot s' hs'
    exact ⟨s, hs, ha.trans ha'⟩
  sent := by
    refine appended_trans h.sent h'.sent fun d hd => ?_
    obtain ⟨slot, s', hs', hid, hc⟩ := hd
    obtain ⟨s, hs, ha⟩ := h.sessions slot s' hs'
    exact ⟨slot, s, hs, ha.identity.symm.trans hid, hc.of_alike ha⟩

theorem Reaches.hasIdentity (h : Reaches cfg identity payload e e') {other : Identity} {slot : ℕ}
    (hslot : e.HasIdentity other slot) : e'.HasIdentity other slot := by
  intro s' hs'
  obtain ⟨s, hs, ha⟩ := h.sessions slot s' hs'
  exact ha.identity.trans (hslot s hs)

theorem reaches_sendPlain {slot : ℕ} (hslot : e.HasIdentity identity slot) (io : SendIo) :
    Reaches cfg identity payload e (e.sendPlain cfg slot payload io).1 := by
  obtain ⟨hsession, new, hsent, hn⟩ := sendPlain_spec cfg e slot payload io
  refine ⟨hsession, new, hsent, fun d hd => ?_⟩
  obtain ⟨s, hs, hc⟩ := hn d hd
  exact ⟨slot, s, hs, hslot s hs, hc⟩

theorem reaches_sendCarriers {carriers : List (ℕ × SendIo)}
    (h : ∀ carrier ∈ carriers, e.HasIdentity identity carrier.1) (sent : ℕ) :
    Reaches cfg identity payload e (e.sendCarriers cfg payload sent carriers) := by
  induction carriers generalizing e sent with
  | nil => exact .of_eq rfl rfl
  | cons carrier carriers ih =>
    have hs : Reaches cfg identity payload e (e.sendPlain cfg carrier.1 payload carrier.2).1 :=
      reaches_sendPlain (h carrier List.mem_cons_self) carrier.2
    have hr : ∀ other ∈ carriers,
        (e.sendPlain cfg carrier.1 payload carrier.2).1.HasIdentity identity other.1 :=
      fun other ho => hs.hasIdentity (h other (List.mem_cons_of_mem _ ho))
    rw [sendCarriers]
    split_ifs
    · exact .of_eq rfl rfl
    · split
      · rename_i e' heq
        rw [heq] at hs hr
        exact hs.trans (ih hr _)
      · rename_i e' heq
        rw [heq] at hs hr
        exact hs.trans (ih hr _)

theorem sent_queueEvent (e : Engine) (event : ControlEvent) :
    (e.queueEvent event).sent = e.sent := by
  obtain ⟨_, he⟩ := queueEvent_eq e event
  rw [he]

theorem reaches_sendStreamControl (control : StreamControl)
    (h : ∀ carrier ∈ control.carriers, e.HasIdentity identity carrier.1) :
    Reaches cfg identity control.payload e (e.sendStreamControl cfg control) := by
  have hs : Reaches cfg identity control.payload e
      (e.sendCarriers cfg control.payload 0 control.carriers) := reaches_sendCarriers h 0
  unfold sendStreamControl
  split_ifs
  · exact hs.trans (.of_eq (sessions_queueEvent _ _) (sent_queueEvent _ _))
  · exact hs

end Frame

end Engine

namespace StreamPlane

open Engine

variable {cfg : ServerConfig} {p : StreamPlane}

def Fresh (p : StreamPlane) : Prop :=
  p.engine.streamInventoryDirty = false → p.engine.Carried p.inventory

def ready (cfg : ServerConfig) (p : StreamPlane) (io : StreamTickIo) : Engine :=
  (p.settled cfg io).rebuildStreams (p.rebuilds cfg io)

theorem marks_settled (cfg : ServerConfig) (p : StreamPlane) (io : StreamTickIo) :
    Marks p.engine (p.settled cfg io) :=
  (marks_steady cfg).beforeStreams p.engine _

variable {io : StreamTickIo}

theorem carried_ready (h : p.Fresh)
    (hc : p.rebuilds cfg io = false → (p.settled cfg io).streamInventoryDirty = false) :
    (p.ready cfg io).Carried (p.nextInventory cfg io) := by
  have hm := marks_settled cfg p io
  unfold nextInventory
  split_ifs with hr
  · exact carried_readStreams (p.settled cfg io) p.inventory
  · have hs := hc (Bool.eq_false_of_not_eq_true hr)
    exact hm.carried hs (h (hm hs).1)

theorem Fresh.tick (h : p.Fresh) (io : StreamTickIo) : (p.step cfg (.tick io)).Fresh := by
  intro hc
  have ha : Marks (p.ready cfg io) (p.step cfg (.tick io)).engine :=
    (marks_steady cfg).afterStreams (p.ready cfg io) (p.tickIo cfg io)
  apply ha.carried hc
  have hr := (ha hc).1
  change (p.ready cfg io).Carried (p.reconcileStreams cfg io).inventory
  rw [inventory_reconcileStreams]
  refine carried_ready h fun hrebuilds => ?_
  rw [ready, hrebuilds] at hr
  exact (Bool.and_true _).symm.trans hr

theorem Fresh.of_marks (h : p.Fresh) {engine : Engine} (hm : Marks p.engine engine) :
    Fresh { p with engine } :=
  fun hc => hm.carried hc (h (hm hc).1)

theorem fresh_empty (hin : p.inventory = ∅) : p.Fresh := by
  intro _ identity streams hs
  rw [hin] at hs
  cases hs

theorem Fresh.step (h : p.Fresh) (i : Input) : (p.step cfg i).Fresh := by
  cases i with
  | udp endpoint wire io => exact h.of_marks (marks_onUdp p.engine endpoint wire io)
  | command command io => exact h.of_marks (marks_onCommand p.engine command io)
  | tick io => exact h.tick io
  | tun packet =>
    apply h.of_marks
    change Marks p.engine (p.engine.handleTunPacket cfg packet)
    unfold handleTunPacket
    split <;> exact .of_eq rfl rfl
  | drain io => exact h.of_marks ((marks_forwarding cfg).drainDownlink p.engine io)
  | ioCounters => exact h.of_marks (marks_queueEvent p.engine .ioCounters)
  | restart => exact fresh_empty rfl
  | shared => exact h.of_marks (.of_eq rfl rfl)

theorem fresh_run (cfg : ServerConfig) (credentials : List Credential) (wallNow : ℕ)
    (inputs : List Input) : (inputs.foldl (step cfg) (start credentials wallNow)).Fresh :=
  List.foldlRecOn (motive := Fresh) inputs _ (fresh_empty rfl) fun _ h i _ => h.step i

/-! ## The frames of a pass -/

theorem hasIdentity_actions (h : p.Fresh) {a : StreamControlAction} (ha : a ∈ p.actions cfg io)
    {slot : ℕ} (hslot : slot ∈ a.carriers) : (p.ready cfg io).HasIdentity a.identity slot := by
  unfold actions at ha
  split_ifs at ha with hd
  · obtain ⟨⟨identity, streams⟩, he, hsome⟩ := List.mem_filterMap.mp ha
    obtain ⟨frame, -, rfl⟩ := Option.map_eq_some_iff.mp hsome
    have hc : (p.ready cfg io).Carried (p.nextInventory cfg io) := by
      refine carried_ready h fun hr => ?_
      rw [rebuilds, hd, Bool.true_and, Bool.or_eq_false_iff] at hr
      exact hr.1
    obtain ⟨s, hs, hid⟩ := hc identity streams (AList.mem_lookup_iff.mpr he) slot hslot
    intro t ht
    cases hs.symm.trans ht
    exact hid
  · cases ha

theorem reaches_along {actions : List StreamControlAction} {e : Engine}
    (h : ∀ a ∈ actions, ∀ slot ∈ a.carriers, e.HasIdentity a.identity slot) :
    Runs.Along (fun e a => e.sendStreamControl cfg (a.control io))
      (fun e a => e.Reaches cfg a.identity a.frame.payload (e.sendStreamControl cfg (a.control io)))
      e actions := by
  induction actions generalizing e with
  | nil => trivial
  | cons a _ ih =>
    have hr : e.Reaches cfg a.identity a.frame.payload
        (e.sendStreamControl cfg (a.control io)) := by
      refine reaches_sendStreamControl (a.control io) fun carrier hc => ?_
      obtain ⟨slot, hs, rfl⟩ := List.mem_map.mp hc
      exact h a List.mem_cons_self slot hs
    exact ⟨hr, ih fun b hb slot hs =>
      hr.hasIdentity (h b (List.mem_cons_of_mem _ hb) slot hs)⟩

/-- In every state that can be reached, what a tick sends of the frames it emits goes to live
sessions that have the identity of the frame when it is sent. -/
theorem frames_reach_identity (cfg : ServerConfig) (credentials : List Credential) (wallNow : ℕ)
    (inputs : List Input) (io : StreamTickIo) :
    let p := inputs.foldl (step cfg) (start credentials wallNow)
    let send := fun (e : Engine) (a : StreamControlAction) => e.sendStreamControl cfg (a.control io)
    (p.step cfg (.tick io)).emitted =
      p.emitted ++ (p.actions cfg io).map (fun a => (a.identity, a.frame)) ∧
    (p.step cfg (.tick io)).engine =
      ((p.actions cfg io).foldl send (p.ready cfg io)).sweepIdleEpochs.maintainMemory cfg
        io.spacious ∧
    Runs.Along send (fun e a => e.Reaches cfg a.identity a.frame.payload (send e a))
      (p.ready cfg io)
      (p.actions cfg io) := by
  intro p send
  refine ⟨emitted_reconcileStreams p io, ?_, ?_⟩
  · have hs : (p.tickIo cfg io).control.foldl (sendStreamControl cfg) (p.ready cfg io) =
        (p.actions cfg io).foldl send (p.ready cfg io) := List.foldl_map
    rw [← hs]
    rfl
  · exact reaches_along fun a ha slot hslot =>
      hasIdentity_actions (fresh_run cfg credentials wallNow inputs) ha hslot

end StreamPlane
end Csqtt
