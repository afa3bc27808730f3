import Csqtt.AssocMap
import Csqtt.Runs
import Csqtt.ServerRoutes
import Mathlib.Algebra.BigOperators.Group.Finset.Piecewise
import Mathlib.Data.List.Count
import Mathlib.Data.Finset.Card

/-!
# Quotas of the transparent proxy

Sessions, flows and buffers of a device are admitted under one lock, each by a counter
of the device and a global one, and counted back when the lease is dropped. A device
that was activated stays in the table.
-/

namespace Csqtt

/-- What is counted: `tcp_active`, `udp_active`, `normal_buffers` and `jumbo_buffers`. -/
inductive QuotaKind
  | tcp
  | udp
  | normal
  | jumbo
  deriving DecidableEq

inductive AdmissionError
  | inactive
  | deviceLimit
  | globalLimit
  deriving DecidableEq

/-- A lease; only those of TCP sessions have an id of their own. -/
structure QuotaLease where
  kind : QuotaKind
  ip : Ipv4
  sessionId : ℕ := 0
  deriving DecidableEq

/-- `tcpEvictions` says of each session whether it is being evicted, and `released`
whether the notification of a released session waits for someone to take it. -/
structure DeviceQuotaRegistry where
  byIp : Finset Ipv4 := ∅
  device : QuotaKind → Ipv4 → ℕ := fun _ _ => 0
  admission : QuotaKind → ℕ := fun _ => 0
  tcpLimit : ℕ := 384
  udpLimit : ℕ := 784
  tcpEvictions : AList fun _ : ℕ => Bool := ∅
  nextTcpEviction : ℕ := 1
  released : Bool := false

def adaptiveDeviceLimit (globalLimit deviceLimit deviceFloor activeDevices : ℕ) : ℕ :=
  min (max (globalLimit / max activeDevices 1) deviceFloor) deviceLimit

/-- The limits after the next expansion; `memory` is what is available. -/
def nextLimits (current : ℕ × ℕ) (memory : Option ℕ) : ℕ × ℕ :=
  if current.1 < 1512 ∨ current.2 < 2048 then (1512, 2048)
  else if memory.any (1200 * 1024 * 1024 ≤ ·) ∧ (current.1 < 2384 ∨ current.2 < 4096) then
    (2384, 4096)
  else if memory.any (512 * 1024 * 1024 ≤ ·) ∧ (current.1 < 1784 ∨ current.2 < 2384) then
    (1784, 2384)
  else current

/-- `fetch_sub` of an atomic counter wraps. -/
def fetchSub (n : ℕ) : ℕ := if n = 0 then 2 ^ 64 - 1 else n - 1

namespace DeviceQuotaRegistry

def activeDevices (r : DeviceQuotaRegistry) (kind : QuotaKind) (ip : Ipv4) : ℕ :=
  max (r.byIp.filter fun other => other = ip ∨ r.device kind other ≠ 0).card 1

def globalLimit (r : DeviceQuotaRegistry) : QuotaKind → ℕ
  | .tcp => r.tcpLimit
  | .udp => r.udpLimit
  | .normal => 32
  | .jumbo => 16

def deviceLimit (r : DeviceQuotaRegistry) (kind : QuotaKind) (ip : Ipv4) : ℕ :=
  match kind with
  | .tcp => adaptiveDeviceLimit r.tcpLimit 160 20 (r.activeDevices .tcp ip)
  | .udp => adaptiveDeviceLimit r.udpLimit 320 40 (r.activeDevices .udp ip)
  | .normal => 4
  | .jumbo => 1

/-- Both counters of a kind are changed. -/
def recount (r : DeviceQuotaRegistry) (kind : QuotaKind) (ip : Ipv4) (f g : ℕ → ℕ) :
    DeviceQuotaRegistry :=
  { r with
    device := fun k i => if kind = k ∧ ip = i then f (r.device k i) else r.device k i
    admission := fun k => if kind = k then g (r.admission k) else r.admission k }

def tryAcquire (r : DeviceQuotaRegistry) (kind : QuotaKind) (ip : Ipv4) :
    Except AdmissionError DeviceQuotaRegistry :=
  if r.deviceLimit kind ip ≤ r.device kind ip then .error .deviceLimit
  else if r.globalLimit kind ≤ r.admission kind then .error .globalLimit
  else .ok (r.recount kind ip (· + 1) (· + 1))

def tryAcquireTcp (r : DeviceQuotaRegistry) (ip : Ipv4) :
    Except AdmissionError (DeviceQuotaRegistry × QuotaLease) :=
  if ip ∉ r.byIp then .error .inactive
  else (r.tryAcquire .tcp ip).map fun r' =>
    ({ r' with
        nextTcpEviction := r.nextTcpEviction + 1
        tcpEvictions := r.tcpEvictions.insert r.nextTcpEviction false },
      ⟨.tcp, ip, r.nextTcpEviction⟩)

def tryAcquireUdp (r : DeviceQuotaRegistry) (ip : Ipv4) :
    Except AdmissionError (DeviceQuotaRegistry × QuotaLease) :=
  if ip ∉ r.byIp then .error .inactive
  else (r.tryAcquire .udp ip).map fun r' => (r', ⟨.udp, ip, 0⟩)

def tryAcquireBuffer (r : DeviceQuotaRegistry) (kind : QuotaKind) (ip : Ipv4) :
    Except AdmissionError (DeviceQuotaRegistry × QuotaLease) :=
  (r.tryAcquire kind ip).map fun r' => (r', ⟨kind, ip, 0⟩)

def tryAcquireNormalBuffer (r : DeviceQuotaRegistry) (ip : Ipv4) :
    Except AdmissionError (DeviceQuotaRegistry × QuotaLease) :=
  r.tryAcquireBuffer .normal ip

def tryAcquireJumboBuffer (r : DeviceQuotaRegistry) (ip : Ipv4) :
    Except AdmissionError (DeviceQuotaRegistry × QuotaLease) :=
  r.tryAcquireBuffer .jumbo ip

/-- A lease is dropped. A session leaves the evictions and notifies one waiter. -/
def dropLease (r : DeviceQuotaRegistry) (lease : QuotaLease) : DeviceQuotaRegistry :=
  let r := r.recount lease.kind lease.ip fetchSub (· - 1)
  if lease.kind = .tcp then
    { r with tcpEvictions := r.tcpEvictions.erase lease.sessionId, released := true }
  else r

def tryExpandCapacity (r : DeviceQuotaRegistry) (memory : Option ℕ) : Bool × DeviceQuotaRegistry :=
  let next := nextLimits (r.tcpLimit, r.udpLimit) memory
  (next ≠ (r.tcpLimit, r.udpLimit), { r with tcpLimit := next.1, udpLimit := next.2 })

def cancelOldestTcp (r : DeviceQuotaRegistry) : Option (ℕ × DeviceQuotaRegistry) :=
  ((r.tcpEvictions.entries.filter fun slot => !slot.2).map (·.1)).min?.map fun id =>
    (id, { r with tcpEvictions := r.tcpEvictions.insert id true })

def releaseRuntimeState (r : DeviceQuotaRegistry) : DeviceQuotaRegistry :=
  { r with tcpLimit := 384, udpLimit := 784, admission := fun _ => 0, tcpEvictions := ∅ }

end DeviceQuotaRegistry

inductive QuotaOp
  | activate (ip : Ipv4)
  | acquire (kind : QuotaKind) (ip : Ipv4)
  | dropLease (lease : QuotaLease)
  | expand (memory : Option ℕ)
  | evict
  | notified
  | reset
  deriving DecidableEq

/-- The registry and the leases that are alive. -/
structure QuotaWorld where
  registry : DeviceQuotaRegistry := {}
  leases : List QuotaLease := []

namespace QuotaWorld

def acquire (r : DeviceQuotaRegistry) (ip : Ipv4) :
    QuotaKind → Except AdmissionError (DeviceQuotaRegistry × QuotaLease)
  | .tcp => r.tryAcquireTcp ip
  | .udp => r.tryAcquireUdp ip
  | .normal => r.tryAcquireNormalBuffer ip
  | .jumbo => r.tryAcquireJumboBuffer ip

def step (w : QuotaWorld) : QuotaOp → QuotaWorld
  | .activate ip => { w with registry := { w.registry with byIp := insert ip w.registry.byIp } }
  | .acquire kind ip =>
    match acquire w.registry ip kind with
    | .error _ => w
    | .ok (registry, lease) => ⟨registry, lease :: w.leases⟩
  | .dropLease lease => ⟨w.registry.dropLease lease, w.leases.erase lease⟩
  | .expand memory => { w with registry := (w.registry.tryExpandCapacity memory).2 }
  | .evict => { w with registry := (w.registry.cancelOldestTcp.map (·.2)).getD w.registry }
  | .notified => { w with registry := { w.registry with released := false } }
  | .reset => { w with registry := w.registry.releaseRuntimeState }

/-- Only what lives is dropped, only a device that exists asks for buffers, and the state
is reset when all leases have ended. -/
def Allowed (w : QuotaWorld) : QuotaOp → Prop
  | .acquire .normal ip | .acquire .jumbo ip => ip ∈ w.registry.byIp
  | .dropLease lease => lease ∈ w.leases
  | .reset => w.leases = []
  | _ => True

/-- What an acquisition has checked and changed. -/
structure Admits (r : DeviceQuotaRegistry) (kind : QuotaKind) (ip : Ipv4)
    (result : DeviceQuotaRegistry × QuotaLease) : Prop where
  belowDevice : r.device kind ip < r.deviceLimit kind ip
  belowGlobal : r.admission kind < r.globalLimit kind
  device : result.1.device = (r.recount kind ip (· + 1) (· + 1)).device
  admission : result.1.admission = (r.recount kind ip (· + 1) (· + 1)).admission
  byIp : result.1.byIp = r.byIp
  limits : result.1.tcpLimit = r.tcpLimit ∧ result.1.udpLimit = r.udpLimit
  released : result.1.released = r.released
  lease : result.2.kind = kind ∧ result.2.ip = ip

variable {kind : QuotaKind} {ip : Ipv4} {result : DeviceQuotaRegistry × QuotaLease}
  {r : DeviceQuotaRegistry}

theorem admits_of_tryAcquire {f : DeviceQuotaRegistry → DeviceQuotaRegistry × QuotaLease}
    (h : (r.tryAcquire kind ip).map f = .ok result)
    (hf : ∀ r', (f r').1.device = r'.device ∧ (f r').1.admission = r'.admission ∧
      (f r').1.byIp = r'.byIp ∧ ((f r').1.tcpLimit = r'.tcpLimit ∧
        (f r').1.udpLimit = r'.udpLimit) ∧ (f r').1.released = r'.released ∧ (f r').2.kind = kind ∧
          (f r').2.ip = ip) : Admits r kind ip result := by
  unfold DeviceQuotaRegistry.tryAcquire at h
  split_ifs at h with hd hg
  · cases h
  · cases h
  cases h
  obtain ⟨hdev, ha, hip, hl, hr, hle⟩ := hf (r.recount kind ip (· + 1) (· + 1))
  exact ⟨Nat.lt_of_not_le hd, Nat.lt_of_not_le hg, hdev, ha, hip, hl, hr, hle⟩

theorem admits_of_acquire (h : acquire r ip kind = .ok result) :
    Admits r kind ip result ∧ (kind = .tcp ∨ kind = .udp → ip ∈ r.byIp) := by
  cases kind with
  | tcp =>
    change r.tryAcquireTcp ip = _ at h
    unfold DeviceQuotaRegistry.tryAcquireTcp at h
    split_ifs at h with hip
    exact ⟨admits_of_tryAcquire h fun _ => ⟨rfl, rfl, rfl, ⟨rfl, rfl⟩, rfl, rfl, rfl⟩, fun _ => hip⟩
  | udp =>
    change r.tryAcquireUdp ip = _ at h
    unfold DeviceQuotaRegistry.tryAcquireUdp at h
    split_ifs at h with hip
    exact ⟨admits_of_tryAcquire h fun _ => ⟨rfl, rfl, rfl, ⟨rfl, rfl⟩, rfl, rfl, rfl⟩, fun _ => hip⟩
  | normal | jumbo =>
    exact ⟨admits_of_tryAcquire h fun _ => ⟨rfl, rfl, rfl, ⟨rfl, rfl⟩, rfl, rfl, rfl⟩, by simp⟩

structure Counted (w : QuotaWorld) : Prop where
  device : ∀ kind ip, w.registry.device kind ip =
    w.leases.countP fun lease => lease.kind = kind ∧ lease.ip = ip
  admission : ∀ kind, w.registry.admission kind = w.leases.countP (·.kind = kind)
  known : ∀ lease ∈ w.leases, lease.ip ∈ w.registry.byIp
  tcp : w.registry.admission .tcp ≤ w.registry.tcpLimit
  limits : (w.registry.tcpLimit, w.registry.udpLimit) ∈
    [(384, 784), (1512, 2048), (1784, 2384), (2384, 4096)]

variable {w : QuotaWorld}

theorem Counted.acquire (h : w.Counted) (hall : w.Allowed (.acquire kind ip)) :
    (w.step (.acquire kind ip)).Counted := by
  cases hres : QuotaWorld.acquire w.registry ip kind with
  | error =>
    have hsame : w.step (.acquire kind ip) = w := by rw [step, hres]
    rwa [hsame]
  | ok result =>
    obtain ⟨hquota, hip⟩ := admits_of_acquire hres
    have hknow : ip ∈ w.registry.byIp := by
      cases kind with
      | tcp => exact hip (.inl rfl)
      | udp => exact hip (.inr rfl)
      | normal | jumbo => exact hall
    have hstep : w.step (.acquire kind ip) = ⟨result.1, result.2 :: w.leases⟩ := by
      rw [step, hres]
    obtain ⟨hkind, hip'⟩ := hquota.lease
    rw [hstep]
    refine ⟨fun k i => ?_, fun k => ?_, ?_, ?_, ?_⟩
    · rw [hquota.device, List.countP_cons, hkind, hip', ← h.device k i]
      simp only [DeviceQuotaRegistry.recount, decide_eq_true_eq]
      split_ifs <;> rfl
    · rw [hquota.admission, List.countP_cons, hkind, ← h.admission k]
      simp only [DeviceQuotaRegistry.recount, decide_eq_true_eq]
      split_ifs <;> rfl
    · rw [List.forall_mem_cons, hquota.byIp, hip']
      exact ⟨hknow, h.known⟩
    · have hle := h.tcp
      have hlt := hquota.belowGlobal
      rw [hquota.admission, hquota.limits.1]
      cases kind <;> simp [DeviceQuotaRegistry.recount,
        DeviceQuotaRegistry.globalLimit] at hlt ⊢ <;>
        omega
    · rw [hquota.limits.1, hquota.limits.2]
      exact h.limits

variable {lease : QuotaLease}

theorem Counted.positive (h : w.Counted) (hl : lease ∈ w.leases) :
    0 < w.registry.device lease.kind lease.ip ∧ 0 < w.registry.admission lease.kind := by
  rw [h.device, h.admission]
  exact ⟨List.countP_pos_iff.mpr ⟨lease, hl, by simp⟩,
    List.countP_pos_iff.mpr ⟨lease, hl, by simp⟩⟩

theorem dropLease_eq (r : DeviceQuotaRegistry) (lease : QuotaLease) :
    ∃ tcpEvictions released, r.dropLease lease =
      { r.recount lease.kind lease.ip fetchSub (· - 1) with tcpEvictions, released } := by
  unfold DeviceQuotaRegistry.dropLease
  split_ifs
  · exact ⟨_, _, rfl⟩
  · exact ⟨r.tcpEvictions, r.released, rfl⟩

theorem evict_eq (w : QuotaWorld) :
    ∃ tcpEvictions, w.step .evict = { w with registry := { w.registry with tcpEvictions } } := by
  unfold step DeviceQuotaRegistry.cancelOldestTcp
  cases ((w.registry.tcpEvictions.entries.filter fun slot => !slot.2).map (·.1)).min? with
  | none => exact ⟨w.registry.tcpEvictions, rfl⟩
  | some id => exact ⟨_, rfl⟩

theorem Counted.dropLease (h : w.Counted) (hl : lease ∈ w.leases) :
    (w.step (.dropLease lease)).Counted := by
  obtain ⟨hd, ha⟩ := h.positive hl
  obtain ⟨evictions, released, heq⟩ := dropLease_eq w.registry lease
  rw [step, heq]
  refine ⟨fun k i => ?_, fun k => ?_, fun other ho => ?_, ?_, h.limits⟩
  · rw [List.countP_erase, ← h.device k i]
    simp only [DeviceQuotaRegistry.recount, hl, true_and, decide_eq_true_eq, fetchSub]
    split_ifs with hb <;> simp_all
  · rw [List.countP_erase, ← h.admission k]
    simp only [DeviceQuotaRegistry.recount, hl, true_and, decide_eq_true_eq]
    split_ifs <;> rfl
  · exact h.known other (List.mem_of_mem_erase ho)
  · have hle := h.tcp
    simp only [DeviceQuotaRegistry.recount]
    split_ifs <;> omega

/-- Limits only grow, and stay among the four pairs. -/
theorem nextLimits_grow {current : ℕ × ℕ} (memory : Option ℕ)
    (h : current ∈ [(384, 784), (1512, 2048), (1784, 2384), (2384, 4096)]) :
    nextLimits current memory ∈ [(384, 784), (1512, 2048), (1784, 2384), (2384, 4096)] ∧
      current.1 ≤ (nextLimits current memory).1 := by
  simp only [List.mem_cons, List.not_mem_nil, or_false] at h
  unfold nextLimits
  obtain rfl | rfl | rfl | rfl := h <;> split_ifs <;> simp_all

theorem counted_step (h : w.Counted) {op : QuotaOp} (ha : w.Allowed op) :
    (w.step op).Counted := by
  cases op with
  | acquire kind ip => exact h.acquire ha
  | dropLease lease => exact h.dropLease ha
  | activate ip =>
    exact { h with known := fun lease hl => Finset.mem_insert_of_mem (h.known lease hl) }
  | expand memory =>
    obtain ⟨hlimits, hg⟩ := nextLimits_grow memory h.limits
    exact { h with tcp := h.tcp.trans hg, limits := hlimits }
  | evict =>
    obtain ⟨evictions, heq⟩ := w.evict_eq
    rw [heq]
    exact { h with }
  | notified => exact { h with }
  | reset =>
    have hn : w.leases = [] := ha
    exact { h with
      admission := fun kind => by simp [step, hn, DeviceQuotaRegistry.releaseRuntimeState]
      tcp := Nat.zero_le _
      limits := List.mem_cons_self .. }

theorem counted_run {ops : List QuotaOp} (ha : Runs.Along step Allowed {} ops) :
    (ops.foldl step {}).Counted :=
  Runs.invariant (fun _ _ h hop => counted_step h hop)
    ⟨fun _ _ => rfl, fun _ => rfl, nofun, Nat.zero_le _, List.mem_cons_self ..⟩ ha

theorem sum_countP (devices : Finset Ipv4) (kind : QuotaKind) (leases : List QuotaLease)
    (hk : ∀ lease ∈ leases, lease.ip ∈ devices) :
    ∑ ip ∈ devices, leases.countP (fun lease => lease.kind = kind ∧ lease.ip = ip) =
      leases.countP (·.kind = kind) := by
  induction leases with
  | nil => simp
  | cons lease leases ih =>
    rw [List.forall_mem_cons] at hk
    simp only [List.countP_cons, Finset.sum_add_distrib, ih hk.2, decide_eq_true_eq]
    by_cases hkind : lease.kind = kind
    · simp [hkind, Finset.sum_ite_eq, hk.1]
    · simp [hkind]

end QuotaWorld

/-- In every run the global counters are the numbers of live leases and the sums over the
devices, a lease that is dropped was counted in both counters, and an acquisition that
succeeds finds both below the limits in force. -/
theorem quotas_conserved (ops : List QuotaOp)
    (hallowed : Runs.Along QuotaWorld.step QuotaWorld.Allowed {} ops) :
    let w : QuotaWorld := ops.foldl QuotaWorld.step {}
    (∀ kind, w.registry.admission kind = w.leases.countP (·.kind = kind) ∧
        w.registry.admission kind = ∑ ip ∈ w.registry.byIp, w.registry.device kind ip) ∧
      (∀ lease ∈ w.leases, 0 < w.registry.device lease.kind lease.ip ∧
        0 < w.registry.admission lease.kind) ∧
      ∀ kind ip result, QuotaWorld.acquire w.registry ip kind = .ok result →
        w.registry.device kind ip + 1 ≤ w.registry.deviceLimit kind ip ∧
          w.registry.admission kind + 1 ≤ w.registry.globalLimit kind := by
  intro w
  have hc : w.Counted := QuotaWorld.counted_run hallowed
  refine ⟨fun kind => ⟨hc.admission kind, ?_⟩, fun lease => hc.positive, ?_⟩
  · rw [hc.admission, ← QuotaWorld.sum_countP _ kind w.leases hc.known]
    exact Finset.sum_congr rfl fun ip _ => (hc.device kind ip).symm
  · intro kind ip result hr
    have ha := (QuotaWorld.admits_of_acquire hr).1
    exact ⟨ha.belowDevice, ha.belowGlobal⟩

theorem quotas_conserved_session :
    let ip : Ipv4 := (10, 0, 0, 2)
    let w : QuotaWorld :=
      [QuotaOp.activate ip, .acquire .tcp ip, .acquire .udp ip, .acquire .normal ip].foldl
        QuotaWorld.step {}
    w.leases.length = 3 ∧ w.registry.admission .tcp = w.leases.countP (·.kind = .tcp) := by
  intro ip w
  refine ⟨by decide, ((quotas_conserved [.activate ip, .acquire .tcp ip, .acquire .udp ip,
    .acquire .normal ip] ⟨trivial, trivial, trivial, ?_, trivial⟩).1 .tcp).1⟩
  change ip ∈ DeviceQuotaRegistry.byIp _
  decide

end Csqtt
