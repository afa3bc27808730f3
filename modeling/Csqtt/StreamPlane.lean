import Csqtt.DownlinkDelivery
import Csqtt.StreamRounds

/-!
# Streams of the engine

`reconcile_streams` in the tick of the engine: every three seconds the rounds of the identities in
the inventory are taken further, and their frames are sent to the slots that the inventory
remembers. It is read again only if the dirty flag is set or a minute has passed.
-/

namespace Csqtt

/-- What a tick needs from outside: the clocks, what the sends of a frame to a slot need, and
whether the slab has too much room. -/
structure StreamTickIo where
  monotonicMs : ℕ
  wallNow : ℕ
  send : Identity → ℕ → SendIo
  spacious : Bool

def StreamTickIo.nowMs (io : StreamTickIo) : ℕ := io.monotonicMs + 1

def StreamTickIo.tickIo (io : StreamTickIo) (rebuilt : Bool) (control : List Engine.StreamControl) :
    Engine.TickIo :=
  ⟨io.monotonicMs, io.wallNow, rebuilt, control, io.spacious⟩

def StreamControlAction.control (a : StreamControlAction) (io : StreamTickIo) :
    Engine.StreamControl :=
  ⟨a.carriers.map fun slot => (slot, io.send a.identity slot), a.frame.payload, a.frame.repair⟩

structure StreamPlane where
  engine : Engine
  inventory : StreamInventories := ∅
  repairs : StreamRepairs := ∅
  lastReconcileMs : ℕ := 0
  lastResyncMs : ℕ := 0
  emitted : List (Identity × StreamFrame) := []

namespace StreamPlane

inductive Input
  | udp (endpoint : EndpointKey) (wire : Bytes) (io : UdpIo)
  | command (command : Command) (io : Engine.CommandIo)
  | tick (io : StreamTickIo)
  | tun (packet : Bytes)
  | drain (io : ℕ → Engine.DrainIo)
  | ioCounters
  | restart (wallNow : ℕ)
  | shared (publics : ℕ → Option PublicSession) (events : List ControlEvent)
      (credentialsSnapshot : List Credential)

variable (cfg : ServerConfig)

def start (credentials : List Credential) (wallNow : ℕ) : StreamPlane :=
  { engine := .start credentials wallNow }

def settled (p : StreamPlane) (io : StreamTickIo) : Engine :=
  p.engine.beforeStreams cfg (io.tickIo false [])

def due (p : StreamPlane) (io : StreamTickIo) : Bool :=
  streamReconcileIntervalMs ≤ io.nowMs - p.lastReconcileMs

def rebuilds (p : StreamPlane) (io : StreamTickIo) : Bool :=
  p.due io && ((p.settled cfg io).streamInventoryDirty ||
    decide (streamInventoryResyncMs ≤ io.nowMs - p.lastResyncMs))

def nextInventory (p : StreamPlane) (io : StreamTickIo) : StreamInventories :=
  if p.rebuilds cfg io then (p.settled cfg io).readStreams p.inventory else p.inventory

def actions (p : StreamPlane) (io : StreamTickIo) : List StreamControlAction :=
  if p.due io then p.repairs.actions (p.nextInventory cfg io) io.nowMs else []

def tickIo (p : StreamPlane) (io : StreamTickIo) : Engine.TickIo :=
  io.tickIo (p.rebuilds cfg io) ((p.actions cfg io).map (·.control io))

def engineMove (p : StreamPlane) : Input → Engine.Move
  | .udp endpoint wire io => .input (.udp endpoint wire io)
  | .command command io => .input (.command command io)
  | .tick io => .input (.tick (p.tickIo cfg io))
  | .tun packet => .input (.tun packet)
  | .drain io => .input (.drain io)
  | .ioCounters => .input .ioCounters
  | .restart wallNow => .input (.restart wallNow)
  | .shared publics events credentialsSnapshot => .shared publics events credentialsSnapshot

def reconcileStreams (p : StreamPlane) (io : StreamTickIo) : StreamPlane :=
  if p.due io then
    { p with
      inventory := p.nextInventory cfg io
      repairs := p.repairs.reconcile (p.nextInventory cfg io) io.nowMs
      lastReconcileMs := io.nowMs
      lastResyncMs := if p.rebuilds cfg io then io.nowMs else p.lastResyncMs
      emitted := p.emitted ++ (p.actions cfg io).map fun a => (a.identity, a.frame) }
  else p

def step (p : StreamPlane) (i : Input) : StreamPlane :=
  let engine := p.engine.move cfg (p.engineMove cfg i)
  match i with
  | .tick io => { p.reconcileStreams cfg io with engine }
  | .restart _ => { engine, emitted := p.emitted }
  | _ => { p with engine }

variable {cfg}

/-! ## A pass -/

section Pass

variable {p : StreamPlane} {io : StreamTickIo}

theorem rebuilds_of_not_due (h : p.due io = false) : p.rebuilds cfg io = false := by
  rw [rebuilds, h, Bool.false_and]

theorem inventory_reconcileStreams (p : StreamPlane) (io : StreamTickIo) :
    (p.reconcileStreams cfg io).inventory = p.nextInventory cfg io := by
  cases hd : p.due io with
  | true => rw [reconcileStreams, if_pos hd]
  | false =>
    rw [reconcileStreams, hd, nextInventory, rebuilds_of_not_due hd]
    rfl

theorem repairs_reconcileStreams (h : p.due io = true) :
    (p.reconcileStreams cfg io).repairs =
    p.repairs.reconcile (p.nextInventory cfg io) io.nowMs := by
  rw [reconcileStreams, if_pos h]

theorem mem_actions {a : StreamControlAction} (h : a ∈ p.actions cfg io) :
    ∃ streams, (p.nextInventory cfg io).lookup a.identity = some streams ∧
      ((p.repairs.round a.identity).reconcile streams io.nowMs).2 = some a.frame := by
  unfold actions at h
  split_ifs at h
  · exact StreamRepairs.mem_actions h
  · cases h

theorem identities_actions (p : StreamPlane) (io : StreamTickIo) :
    (p.actions cfg io).Pairwise fun a b => a.identity ≠ b.identity := by
  unfold actions
  split_ifs
  · exact StreamRepairs.identities_actions _ _ _
  · exact List.Pairwise.nil

theorem emitted_reconcileStreams (p : StreamPlane) (io : StreamTickIo) :
    (p.reconcileStreams cfg io).emitted =
      p.emitted ++ (p.actions cfg io).map fun a => (a.identity, a.frame) := by
  cases hd : p.due io with
  | true => rw [reconcileStreams, if_pos hd]
  | false =>
    rw [reconcileStreams, actions, hd]
    exact (List.append_nil _).symm

end Pass

/-! ## Runs -/

/-- What does not depend on the engine changes only in a pass or when the engine starts again. -/
theorem step_kept {P : StreamPlane → Prop} (he : ∀ p engine, P p → P { p with engine })
    {p : StreamPlane} (h : P p) {i : Input}
    (hp : ∀ io, i = .tick io → p.due io = true → P (p.reconcileStreams cfg io))
    (hr : ∀ wallNow, i = .restart wallNow → P { engine := p.engine, emitted := p.emitted }) :
    P (p.step cfg i) := by
  cases i with
  | tick io =>
    apply he
    cases hd : p.due io with
    | true => exact hp io rfl hd
    | false =>
      rw [reconcileStreams, hd]
      exact h
  | restart wallNow => exact he _ _ (hr wallNow rfl)
  | udp | command | tun | drain | ioCounters | shared => exact he _ _ h

theorem engine_step (p : StreamPlane) (i : Input) :
    (p.step cfg i).engine = p.engine.move cfg (p.engineMove cfg i) := by
  cases i <;> rfl

/-- A run of the plane is one of the engine, in which the rounds choose the frames. -/
theorem engine_run (p : StreamPlane) (inputs : List Input) : ∃ moves : List Engine.Move,
      (inputs.foldl (step cfg) p).engine = moves.foldl (Engine.move cfg) p.engine := by
  induction inputs generalizing p with
  | nil => exact ⟨[], rfl⟩
  | cons i _ ih =>
    obtain ⟨moves, hm⟩ := ih (p.step cfg i)
    refine ⟨p.engineMove cfg i :: moves, ?_⟩
    rw [List.foldl_cons, hm, engine_step, List.foldl_cons]

end StreamPlane
end Csqtt
