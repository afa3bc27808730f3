import Csqtt.ProxyQuota

/-!
# Waiting for an evicted session

When all TCP sessions are taken, `acquire_tcp_quota` evicts the oldest one, waits for a
released session at most a second, and tries once more. Every released session leaves a
notification behind if nobody waits, and such a notification ends the wait at once.
-/

namespace Csqtt

/-- The wait for a notification: what the others do until it comes or time is over. -/
def awaitReleased (w : QuotaWorld) : List QuotaOp → QuotaWorld
  | [] => if w.registry.released then w.step .notified else w
  | op :: ops => if w.registry.released then w.step .notified else awaitReleased (w.step op) ops

/-- What others do between the eviction and the wait, during the wait, and between its
end and the last attempt. -/
structure EvictionWindow where
  early : List QuotaOp
  waiting : List QuotaOp
  late : List QuotaOp

inductive TcpAcquisition
  | admitted (w : QuotaWorld)
  | refused (w : QuotaWorld)
  | again (w : QuotaWorld)

namespace QuotaWorld

def polled (w : QuotaWorld) (registry : DeviceQuotaRegistry) (window : EvictionWindow) :
    QuotaWorld :=
  window.early.foldl step { w with registry }

def retried (w : QuotaWorld) (registry : DeviceQuotaRegistry) (window : EvictionWindow) :
    QuotaWorld :=
  window.late.foldl step (awaitReleased (w.polled registry window) window.waiting)

/-- One turn of the loop of `acquire_tcp_quota`. -/
def acquireTcpQuota (w : QuotaWorld) (ip : Ipv4) (memory : Option ℕ) (window : EvictionWindow) :
    TcpAcquisition :=
  match w.registry.tryAcquireTcp ip with
  | .ok (registry, lease) => .admitted ⟨registry, lease :: w.leases⟩
  | .error .inactive | .error .deviceLimit => .refused w
  | .error .globalLimit =>
    let (expanded, registry) := w.registry.tryExpandCapacity memory
    if expanded then .again { w with registry }
    else
      match w.registry.cancelOldestTcp with
      | none => .refused w
      | some (_, registry) =>
        let w := w.retried registry window
        match w.registry.tryAcquireTcp ip with
        | .ok (registry, lease) => .admitted ⟨registry, lease :: w.leases⟩
        | .error _ => .refused w

/-- A session is released. -/
def isRelease : QuotaOp → Bool
  | .dropLease lease => lease.kind = .tcp
  | _ => false

/-- What others may do while no other connection is admitted. -/
def isQuiet : QuotaOp → Bool
  | .acquire kind _ => kind ≠ .tcp
  | .reset => false
  | _ => true

/-- From the first state to the second `n` sessions were released and none was admitted. -/
structure Eased (n : ℕ) (w w' : QuotaWorld) : Prop where
  byIp : w.registry.byIp ⊆ w'.registry.byIp
  tcpLimit : w.registry.tcpLimit ≤ w'.registry.tcpLimit
  device : ∀ ip, w'.registry.device .tcp ip ≤ w.registry.device .tcp ip
  admission : w'.registry.admission .tcp + n = w.registry.admission .tcp

variable {k n id m nextTcpEviction : ℕ} {w w' w'' : QuotaWorld}

theorem Eased.trans (h : Eased n w w') (h' : Eased m w' w'') :
    Eased (n + m) w w'' where
  byIp := h.byIp.trans h'.byIp
  tcpLimit := h.tcpLimit.trans h'.tcpLimit
  device ip := (h'.device ip).trans (h.device ip)
  admission := by
    have hn := h.admission
    have hm := h'.admission
    omega

theorem eased_step (h : w.Counted) {op : QuotaOp} (hall : w.Allowed op)
    (hquiet : isQuiet op = true) : Eased (isRelease op).toNat w (w.step op) := by
  cases op with
  | activate ip => exact ⟨Finset.subset_insert _ _, le_rfl, fun _ => le_rfl, rfl⟩
  | expand memory =>
    exact ⟨subset_rfl, (nextLimits_grow memory h.limits).2, fun _ => le_rfl, rfl⟩
  | notified => exact ⟨subset_rfl, le_rfl, fun _ => le_rfl, rfl⟩
  | reset => cases hquiet
  | evict =>
    obtain ⟨evictions, heq⟩ := w.evict_eq
    rw [heq]
    exact ⟨subset_rfl, le_rfl, fun _ => le_rfl, rfl⟩
  | acquire kind ip =>
    have hkind : kind ≠ .tcp := of_decide_eq_true hquiet
    cases hres : acquire w.registry ip kind with
    | error =>
      rw [step, hres]
      exact ⟨subset_rfl, le_rfl, fun _ => le_rfl, rfl⟩
    | ok result =>
      have hquota := (admits_of_acquire hres).1
      rw [step, hres]
      refine ⟨hquota.byIp.ge, hquota.limits.1.ge, fun i => ?_, ?_⟩
      · simp [hquota.device, DeviceQuotaRegistry.recount, hkind]
      · simp [hquota.admission, DeviceQuotaRegistry.recount, hkind, isRelease]
  | dropLease lease =>
    obtain ⟨hdev, hadmission⟩ := h.positive hall
    obtain ⟨evictions, released, heq⟩ := dropLease_eq w.registry lease
    rw [step, heq]
    refine ⟨subset_rfl, le_rfl, fun i => ?_, ?_⟩
    · simp only [DeviceQuotaRegistry.recount, fetchSub]
      split_ifs with hboth
      · rw [← hboth.1, ← hboth.2] at *
        omega
      · exact Nat.sub_le _ _
      · exact le_rfl
    · by_cases hkind : lease.kind = .tcp
      · simp only [DeviceQuotaRegistry.recount, isRelease, hkind] at hadmission ⊢
        simp
        omega
      · simp [DeviceQuotaRegistry.recount, isRelease, hkind]

/-- Every step of a window is allowed and admits no other connection. -/
def Undisturbed (w : QuotaWorld) (ops : List QuotaOp) : Prop :=
  Runs.Along step (fun w op => w.Allowed op ∧ isQuiet op = true) w ops

theorem eased_run (h : w.Counted) {ops : List QuotaOp} (ho : Undisturbed w ops) :
    Eased (ops.countP isRelease) w (ops.foldl step w) ∧ (ops.foldl step w).Counted := by
  induction ops generalizing w with
  | nil => exact ⟨⟨subset_rfl, le_rfl, fun _ => le_rfl, rfl⟩, h⟩
  | cons op ops ih =>
    obtain ⟨⟨ha, hq⟩, hr⟩ := ho
    obtain ⟨he, hc⟩ := ih (counted_step h ha) hr
    have hcount : (op :: ops).countP isRelease = (isRelease op).toNat + ops.countP isRelease := by
      rw [List.countP_cons, Nat.add_comm]
      cases isRelease op <;> rfl
    rw [hcount]
    exact ⟨(eased_step h ha hq).trans he, hc⟩

theorem released_step {op : QuotaOp} (hq : isQuiet op = true)
    (hr : w.registry.released = false) :
    (w.step op).registry.released = isRelease op := by
  cases op with
  | activate ip | expand memory => exact hr
  | notified => rfl
  | reset => cases hq
  | evict =>
    obtain ⟨evictions, heq⟩ := w.evict_eq
    rw [heq]
    exact hr
  | acquire kind ip =>
    cases hgrant : acquire w.registry ip kind with
    | error =>
      rw [step, hgrant]
      exact hr
    | ok result =>
      rw [step, hgrant]
      exact (admits_of_acquire hgrant).1.released.trans hr
  | dropLease lease =>
    simp only [isRelease, step, DeviceQuotaRegistry.dropLease]
    by_cases hk : lease.kind = .tcp <;> simp [hk, DeviceQuotaRegistry.recount, hr]

/-- A notification that is there ends the wait before anything has happened; otherwise
the wait lasts until a session is released. -/
theorem eased_awaitReleased (h : w.Counted) {ops : List QuotaOp}
    (ho : Undisturbed w ops) :
    ∃ n, Eased n w (awaitReleased w ops) ∧ (awaitReleased w ops).Counted ∧
      (w.registry.released = true → n = 0) ∧
      (w.registry.released = false → ops.any isRelease = true → 0 < n) := by
  induction ops generalizing w with
  | nil =>
    refine ⟨0, ?_, ?_, fun _ => rfl, nofun⟩ <;> unfold awaitReleased <;> split_ifs
    · exact ⟨subset_rfl, le_rfl, fun _ => le_rfl, rfl⟩
    · exact ⟨subset_rfl, le_rfl, fun _ => le_rfl, rfl⟩
    · exact { h with }
    · exact h
  | cons op ops ih =>
    rw [awaitReleased]
    split_ifs with hr
    · exact ⟨0, ⟨subset_rfl, le_rfl, fun _ => le_rfl, rfl⟩, { h with }, fun _ => rfl,
        fun hn => absurd hr (by simp [hn])⟩
    · obtain ⟨⟨ha, hq⟩, hrelease⟩ := ho
      obtain ⟨n, he, hc, -, hl⟩ := ih (counted_step h ha) hrelease
      have hf := released_step hq (Bool.eq_false_iff.mpr hr)
      refine ⟨_, (eased_step h ha hq).trans he, hc,
        fun hy => absurd hy hr, fun _ han => ?_⟩
      cases hop : isRelease op with
      | true => exact Nat.add_pos_left Nat.one_pos n
      | false =>
        rw [List.any_cons, hop] at han
        exact Nat.add_pos_right _ (hl (hf.trans hop) han)

variable {ip : Ipv4}

/-- As sessions are released, the share of a device does not shrink. -/
theorem deviceLimit_le (h : w.Counted) (he : Eased n w w') (hip : ip ∈ w.registry.byIp) :
    w.registry.deviceLimit .tcp ip ≤ w'.registry.deviceLimit .tcp ip := by
  have ha : w'.registry.activeDevices .tcp ip ≤ w.registry.activeDevices .tcp ip := by
    refine max_le_max_right 1 (Finset.card_le_card fun other ho => ?_)
    obtain ⟨-, rfl | hne⟩ := Finset.mem_filter.mp ho
    · exact Finset.mem_filter.mpr ⟨hip, .inl rfl⟩
    · have hp : 0 < w.registry.device .tcp other :=
        (Nat.pos_of_ne_zero hne).trans_le (he.device other)
      have hc := hp
      rw [h.device] at hc
      obtain ⟨lease, hl, hs⟩ := List.countP_pos_iff.mp hc
      obtain ⟨-, rfl⟩ := of_decide_eq_true hs
      exact Finset.mem_filter.mpr ⟨h.known lease hl, .inr hp.ne'⟩
  have hd := Nat.div_le_div he.tcpLimit (max_le_max_right 1 ha)
    (Nat.ne_of_gt (lt_max_of_lt_right Nat.one_pos))
  exact min_le_min_right _ (max_le_max_right _ hd)

theorem tryAcquireTcp_full_iff {r : DeviceQuotaRegistry} :
    r.tryAcquireTcp ip = .error .globalLimit ↔
      ip ∈ r.byIp ∧ r.device .tcp ip < r.deviceLimit .tcp ip ∧ r.tcpLimit ≤ r.admission .tcp := by
  unfold DeviceQuotaRegistry.tryAcquireTcp DeviceQuotaRegistry.tryAcquire
  split_ifs with hip hd hg
  · exact ⟨fun h => by simp [Except.map] at h, fun h => absurd hd (Nat.not_le_of_lt h.2.1)⟩
  · exact ⟨fun _ => ⟨hip, Nat.lt_of_not_le hd, hg⟩, fun _ => rfl⟩
  · exact ⟨fun h => by simp [Except.map] at h, fun h => absurd h.2.2 hg⟩
  · exact ⟨fun h => by simp at h, fun h => absurd h.1 hip⟩

theorem tryAcquireTcp_isOk_iff (h : w.Counted) (he : Eased n w w')
    (hf : w.registry.tryAcquireTcp ip = .error .globalLimit) :
    (w'.registry.tryAcquireTcp ip).isOk = true ↔
      0 < n ∨ w.registry.tcpLimit < w'.registry.tcpLimit := by
  obtain ⟨hip, hd, hg⟩ := tryAcquireTcp_full_iff.mp hf
  have hm := deviceLimit_le h he hip
  have hc := he.device ip
  have hr := he.admission
  have hl := he.tcpLimit
  have hle := h.tcp
  unfold DeviceQuotaRegistry.tryAcquireTcp DeviceQuotaRegistry.tryAcquire
  rw [if_neg (not_not.mpr (he.byIp hip)), if_neg (by omega)]
  have ht : w'.registry.globalLimit .tcp = w'.registry.tcpLimit := rfl
  by_cases ha : w'.registry.globalLimit .tcp ≤ w'.registry.admission .tcp
  · rw [if_pos ha]
    exact ⟨fun hok => (by simp [Except.map, Except.isOk, Except.toBool] at hok),
      fun han => absurd ha (by omega)⟩
  · rw [if_neg ha]
    exact ⟨fun _ => by omega, fun _ => rfl⟩

/-- A connection that evicts a session, which is released before the wait is over, is
admitted exactly if no notification was left over when the wait began, or a session was
released before the wait began or after it ended, or the limit was raised. -/
theorem evicted_admits_iff (ops : List QuotaOp) (hallowed : Runs.Along step Allowed {} ops)
    (w : QuotaWorld) (hrun : ops.foldl step {} = w) (ip : Ipv4) (memory : Option ℕ)
    (window : EvictionWindow) (id : ℕ) (registry : DeviceQuotaRegistry)
    (hfull : w.registry.tryAcquireTcp ip = .error .globalLimit)
    (hexpand : (w.registry.tryExpandCapacity memory).1 = false)
    (hevicts : w.registry.cancelOldestTcp = some (id, registry))
    (hearly : Undisturbed { w with registry } window.early)
    (hwaiting : Undisturbed (w.polled registry window) window.waiting)
    (hlate : Undisturbed (awaitReleased (w.polled registry window) window.waiting) window.late)
    (hdrop : ∃ lease : QuotaLease, lease.kind = .tcp ∧ lease.sessionId = id ∧
      .dropLease lease ∈ window.early ++ window.waiting) :
    (∃ w', w.acquireTcpQuota ip memory window = .admitted w') ↔
      (w.polled registry window).registry.released = false ∨
        window.early.any isRelease = true ∨ window.late.any isRelease = true ∨
        w.registry.tcpLimit < (w.retried registry window).registry.tcpLimit := by
  have hcount : w.Counted := hrun ▸ counted_run hallowed
  obtain ⟨htold, hsame⟩ : Eased 0 w { w with registry } ∧ Counted { w with registry } := by
    obtain ⟨_, -, heq⟩ := Option.map_eq_some_iff.mp hevicts
    cases heq
    exact ⟨⟨subset_rfl, le_rfl, fun _ => le_rfl, rfl⟩, { hcount with }⟩
  obtain ⟨heased, hpoll⟩ := eased_run hsame hearly
  obtain ⟨n, hwait, hwoken, hleft, hnone⟩ := eased_awaitReleased hpoll hwaiting
  obtain ⟨hlater, -⟩ := eased_run hwoken hlate
  have hall : Eased _ w (w.retried registry window) :=
    ((htold.trans heased).trans hwait).trans hlater
  have hcall : (∃ w', w.acquireTcpQuota ip memory window = .admitted w') ↔
      ((w.retried registry window).registry.tryAcquireTcp
        ip).isOk = true := by
    unfold acquireTcpQuota
    simp only [hfull, hexpand, hevicts, Bool.false_eq_true, if_false]
    cases (w.retried registry window).registry.tryAcquireTcp ip with
    | error | ok => simp [Except.isOk, Except.toBool]
  rw [hcall, tryAcquireTcp_isOk_iff hcount hall hfull]
  have hpos : ∀ ops : List QuotaOp, ops.any isRelease = true ↔ 0 < ops.countP isRelease := by
    intro ops
    rw [List.any_eq_true, List.countP_pos_iff]
  rw [hpos, hpos]
  constructor
  · rintro (htotal | hlimit)
    · cases hflag : (w.polled registry window).registry.released with
      | false => exact .inl rfl
      | true =>
        have hzero := hleft hflag
        omega
    · exact .inr (.inr (.inr hlimit))
  · rintro (hflag | hearly | hlate | hlimit)
    · obtain ⟨lease, hkind, -, hmem⟩ := hdrop
      have hrelease : isRelease (.dropLease lease) = true := decide_eq_true hkind
      obtain hmem | hmem := List.mem_append.mp hmem
      · have hsome := List.countP_pos_iff.mpr ⟨_, hmem, hrelease⟩
        omega
      · have hsome := hnone hflag (List.any_eq_true.mpr ⟨_, hmem, hrelease⟩)
        omega
    · omega
    · omega
    · exact .inr hlimit

/-- The devices of the run below. -/
def host (n : ℕ) : Ipv4 := (10, 0, 0, UInt8.ofNat n)

theorem host_inj : ∀ m < 13, ∀ n < 13, host m = host n → m = n := by
  decide

/-- A proxy with expanded limits and thirteen devices that has counted these leases. -/
def takenBy (leases : List QuotaLease) (tcpEvictions : AList fun _ : ℕ => Bool)
    (nextTcpEviction : ℕ) (released : Bool) : QuotaWorld where
  registry :=
    { byIp := (Finset.range 13).image host
      device := fun kind ip => leases.countP fun lease => lease.kind = kind ∧ lease.ip = ip
      admission := fun kind => leases.countP (·.kind = kind)
      tcpLimit := 1512
      udpLimit := 2048
      tcpEvictions
      nextTcpEviction
      released }
  leases

/-- The sessions after `k` admissions, 126 of each device; the first session had id 1. -/
def sessions : ℕ → List QuotaLease
  | 0 => []
  | k + 1 => ⟨.tcp, host (k / 126), k + 2⟩ :: sessions k

def sessionEvictions : ℕ → AList fun _ : ℕ => Bool
  | 0 => ∅
  | k + 1 => (sessionEvictions k).insert (k + 2) false

def occupied (k : ℕ) : QuotaWorld := takenBy (sessions k) (sessionEvictions k) (k + 2) true

theorem countP_sessions_tcp (k : ℕ) : (sessions k).countP (·.kind = .tcp) = k := by
  induction k with
  | zero => rfl
  | succ k ih => rw [sessions, List.countP_cons, ih, if_pos (decide_eq_true rfl)]

theorem countP_sessions_host (hn : n < 13) : ∀ k ≤ 1512,
    ((sessions k).countP fun lease => lease.kind = .tcp ∧ lease.ip = host n) =
      min (k - 126 * n) 126
  | 0, _ => by rw [sessions, List.countP_nil, Nat.zero_sub, Nat.zero_min]
  | k + 1, hk => by
    rw [sessions, List.countP_cons, countP_sessions_host hn k (by omega)]
    by_cases hh : host (k / 126) = host n
    · have hd := host_inj _ (by omega) _ hn hh
      rw [if_pos (by simp [hh])]
      omega
    · have hd : k / 126 ≠ n := fun heq => hh (by rw [heq])
      rw [if_neg (by simp [hh])]
      omega

theorem activeDevices_occupied (hk : k < 1512) :
    (occupied k).registry.activeDevices .tcp (host (k / 126)) ≤ 12 := by
  have hs : (((Finset.range 13).image host).filter fun other => other = host (k / 126) ∨
      (occupied k).registry.device .tcp other ≠ 0) ⊆ (Finset.range 12).image host := by
    intro other ho
    obtain ⟨him, ha⟩ := Finset.mem_filter.mp ho
    obtain ⟨n, hn, rfl⟩ := Finset.mem_image.mp him
    have hn := Finset.mem_range.mp hn
    refine Finset.mem_image.mpr ⟨n, Finset.mem_range.mpr ?_, rfl⟩
    obtain heq | hsome := ha
    · have hd := host_inj _ hn _ (by omega) heq
      omega
    · have hcount := countP_sessions_host hn k hk.le
      change List.countP _ _ ≠ 0 at hsome
      omega
  have hc := (Finset.card_le_card hs).trans Finset.card_image_le
  exact max_le hc (by decide)

theorem recount_takenBy {leases : List QuotaLease} {tcpEvictions : AList fun _ : ℕ => Bool}
    {released : Bool} (lease : QuotaLease) :
    let r := (takenBy leases tcpEvictions nextTcpEviction released).registry
    r.recount lease.kind lease.ip (· + 1) (· + 1) =
      (takenBy (lease :: leases) tcpEvictions nextTcpEviction released).registry := by
  intro r
  have hd : (r.recount lease.kind lease.ip (· + 1) (· + 1)).device = fun kind ip =>
      (lease :: leases).countP fun lease => lease.kind = kind ∧ lease.ip = ip := by
    simp only [List.countP_cons, decide_eq_true_eq, add_ite]
    rfl
  have ha : (r.recount lease.kind lease.ip (· + 1) (· + 1)).admission = fun kind =>
      (lease :: leases).countP (·.kind = kind) := by
    simp only [List.countP_cons, decide_eq_true_eq, add_ite]
    rfl
  unfold takenBy
  rw [← hd, ← ha]
  rfl

/-- The device whose turn it is has fewer than 126 sessions and is admitted. -/
theorem step_occupied (hk : k < 1512) :
    (occupied k).step (.acquire .tcp (host (k / 126))) = occupied (k + 1) := by
  have hc := countP_sessions_host (n := k / 126) (by omega) k hk.le
  have ha := activeDevices_occupied hk
  have hl : 126 ≤ (occupied k).registry.deviceLimit .tcp (host (k / 126)) := by
    have hp : 0 < max ((occupied k).registry.activeDevices .tcp (host (k / 126))) 1 :=
      Nat.lt_of_lt_of_le Nat.zero_lt_one (le_max_right _ _)
    have hs := Nat.div_le_div_left (a := 1512) (max_le ha (by decide : 1 ≤ 12)) hp
    exact le_min ((by decide : 126 ≤ 1512 / 12).trans (hs.trans (le_max_left _ _))) (by decide)
  have hr : ¬ (occupied k).registry.deviceLimit .tcp (host (k / 126)) ≤
      (occupied k).registry.device .tcp (host (k / 126)) := by
    change ¬ _ ≤ List.countP _ _
    omega
  have hg : ¬ (occupied k).registry.globalLimit .tcp ≤
      (occupied k).registry.admission .tcp := by
    change ¬ 1512 ≤ List.countP _ _
    rw [countP_sessions_tcp]
    omega
  have hkn : host (k / 126) ∈ (occupied k).registry.byIp :=
    Finset.mem_image.mpr ⟨_, Finset.mem_range.mpr (by omega), rfl⟩
  rw [step, acquire, DeviceQuotaRegistry.tryAcquireTcp, if_neg (not_not.mpr hkn),
    DeviceQuotaRegistry.tryAcquire, if_neg hr, if_neg hg]
  rw [occupied, recount_takenBy ⟨.tcp, host (k / 126), k + 2⟩]
  rfl

theorem two_le_of_mem_sessionEvictions : ∀ {k : ℕ}, id ∈ sessionEvictions k → 2 ≤ id
  | 0, hid => absurd hid (AList.notMem_empty id)
  | k + 1, hid => by
    obtain rfl | hid := AList.mem_insert _ |>.mp hid
    · exact Nat.le_add_left 2 k
    · exact two_le_of_mem_sessionEvictions hid

theorem lookup_sessionEvictions (k : ℕ) : (sessionEvictions (k + 1)).lookup 2 = some false := by
  induction k with
  | zero => exact AList.lookup_insert _
  | succ k ih => rw [sessionEvictions, AList.lookup_insert_ne (by omega), ih]

theorem cancelOldestTcp_occupied (k : ℕ) :
    ∃ tcpEvictions, (occupied (k + 1)).registry.cancelOldestTcp =
      some (2, { (occupied (k + 1)).registry with tcpEvictions }) := by
  have ho : (((sessionEvictions (k + 1)).entries.filter
      fun slot => !slot.2).map (·.1)).min? = some 2 := by
    rw [List.min?_eq_some_iff]
    refine ⟨List.mem_map.mpr ⟨⟨2, false⟩, List.mem_filter.mpr
      ⟨AList.mem_lookup_iff.mp (lookup_sessionEvictions k), rfl⟩, rfl⟩, fun id hid => ?_⟩
    obtain ⟨slot, hs, rfl⟩ := List.mem_map.mp hid
    exact two_le_of_mem_sessionEvictions
      (AList.mem_keys.mpr (List.mem_keys_of_mem (List.mem_filter.mp hs).1))
  refine ⟨(sessionEvictions (k + 1)).insert 2 true, ?_⟩
  exact congrArg (Option.map _) ho

theorem tryAcquireTcp_takenBy (hk : k = 1512) {tcpEvictions : AList fun _ : ℕ => Bool}
    (released : Bool) : (takenBy (sessions k) tcpEvictions (k + 2) released).registry.tryAcquireTcp
      (host 12) = .error .globalLimit := by
  have hc := countP_sessions_host (n := 12) (by decide) k hk.le
  have hn : (occupied k).registry.device .tcp (host 12) = 0 := by
    change List.countP _ _ = 0
    omega
  have hl : 20 ≤ (occupied k).registry.deviceLimit .tcp (host 12) :=
    le_min (le_max_right _ _) (by decide)
  have hf : 1512 ≤ (occupied k).registry.admission .tcp :=
    hk.ge.trans (countP_sessions_tcp k).ge
  exact tryAcquireTcp_full_iff.mpr
    ⟨Finset.mem_image.mpr ⟨12, by decide, rfl⟩, hn.trans_lt (hl.trans' (by decide)), hf⟩

/-- A session is released before the limits are raised, and no one waits for it. -/
def opening : List QuotaOp :=
  (List.range 13).map (fun n => .activate (host n)) ++
    [.acquire .tcp (host 0), .dropLease ⟨.tcp, host 0, 1⟩, .expand none]

/-- All sessions are taken by twelve of the devices. -/
def crowding (k : ℕ) : List QuotaOp :=
  opening ++ (List.range k).map fun k => .acquire .tcp (host (k / 126))

theorem foldl_activate (n : ℕ) :
    ((List.range n).map fun n => QuotaOp.activate (host n)).foldl step {} =
      { registry := { byIp := (Finset.range n).image host } } := by
  induction n with
  | zero => rfl
  | succ n ih =>
    rw [List.range_succ, List.map_append, List.foldl_append, ih, Finset.range_add_one,
      Finset.image_insert]
    rfl

theorem foldl_opening : opening.foldl step {} = occupied 0 := by
  rw [opening, List.foldl_append, foldl_activate]
  have hd : (fun kind ip => if QuotaKind.tcp = kind ∧ host 0 = ip then
      fetchSub (if QuotaKind.tcp = kind ∧ host 0 = ip then 0 + 1 else 0) else
        if QuotaKind.tcp = kind ∧ host 0 = ip then 0 + 1 else 0) = fun _ _ => 0 := by
    funext kind ip
    split_ifs with h
    · rfl
    · rfl
  have ha : (fun kind => if QuotaKind.tcp = kind then
      (if QuotaKind.tcp = kind then 0 + 1 else 0) - 1 else
        if QuotaKind.tcp = kind then 0 + 1 else 0) = fun _ => 0 := by
    funext kind
    split_ifs with h
    · rfl
    · rfl
  exact congrArg₂ (fun device admission => QuotaWorld.mk ⟨(Finset.range 13).image host, device,
    admission, 1512, 2048, ∅, 2, true⟩ []) hd ha

theorem crowding_succ (k : ℕ) :
    crowding (k + 1) = crowding k ++ [.acquire .tcp (host (k / 126))] := by
  rw [crowding, List.range_succ, List.map_append]
  rfl

theorem foldl_crowding : ∀ k ≤ 1512, (crowding k).foldl step {} = occupied k
  | 0, _ => foldl_opening
  | k + 1, hk => by
    rw [crowding_succ, List.foldl_append, foldl_crowding k (by omega)]
    exact step_occupied hk

theorem along_crowding (k : ℕ) : Runs.Along step Allowed {} (crowding k) := by
  have ha : Runs.Along step Allowed {}
      ((List.range 13).map fun n => QuotaOp.activate (host n)) := by
    refine Runs.along_mono ?_
      (Runs.along_of_forall_mem step {} (p := fun op => ∃ ip, op = .activate ip) ?_)
    · rintro w _ ⟨ip, rfl⟩
      trivial
    · intro op hop
      obtain ⟨n, -, rfl⟩ := List.mem_map.mp hop
      exact ⟨_, rfl⟩
  induction k with
  | zero =>
    refine Runs.along_append.mpr ⟨Runs.along_append.mpr ⟨ha, trivial, ?_, trivial, trivial⟩,
      trivial⟩
    exact List.mem_cons_self
  | succ k ih =>
    rw [crowding_succ]
    exact Runs.along_append.mpr ⟨ih, trivial, trivial⟩

theorem acquireTcpQuota_refused {memory : Option ℕ} {window : EvictionWindow}
    {registry : DeviceQuotaRegistry} (hf : w.registry.tryAcquireTcp ip = .error .globalLimit)
    (he : (w.registry.tryExpandCapacity memory).1 = false)
    (hevict : w.registry.cancelOldestTcp = some (id, registry))
    (ha : (w.retried registry window).registry.tryAcquireTcp ip = .error .globalLimit) :
    w.acquireTcpQuota ip memory window = .refused (w.retried registry window) := by
  unfold acquireTcpQuota
  simp only [hf, he, hevict, ha, Bool.false_eq_true, if_false]

/-- The oldest session is released while the new connection waits. -/
def releasedWindow : EvictionWindow := ⟨[], [.dropLease ⟨.tcp, host 0, 2⟩], []⟩

theorem refused_occupied (hk : k = 1512) :
    ∃ w, (occupied k).acquireTcpQuota (host 12) none releasedWindow = .refused w := by
  obtain ⟨k, rfl⟩ : ∃ n, k = n + 1 := ⟨k - 1, by omega⟩
  obtain ⟨_, he⟩ := cancelOldestTcp_occupied k
  exact ⟨_, acquireTcpQuota_refused (tryAcquireTcp_takenBy hk true) rfl he
    (tryAcquireTcp_takenBy hk false)⟩

theorem mem_sessions (k : ℕ) : ⟨.tcp, host 0, 2⟩ ∈ sessions (k + 1) := by
  induction k with
  | zero => exact List.mem_singleton_self _
  | succ k ih => exact List.mem_cons_of_mem _ ih

theorem evicted_admits_awaited :
    ∃ w, ((crowding 1512).foldl step {}).acquireTcpQuota (host 12) none
      ⟨[.dropLease ⟨.tcp, host 0, 2⟩], [], []⟩ = .admitted w := by
  have hr := foldl_crowding 1512 le_rfl
  obtain ⟨_, hevict⟩ := cancelOldestTcp_occupied 1511
  rw [hr]
  exact (evicted_admits_iff _ (along_crowding 1512) _ hr (host 12) none
    ⟨[.dropLease ⟨.tcp, host 0, 2⟩], [], []⟩ 2 _ (tryAcquireTcp_takenBy rfl true) rfl hevict
    ⟨⟨mem_sessions 1511, rfl⟩, trivial⟩ trivial trivial
    ⟨_, rfl, rfl, List.mem_singleton_self _⟩).mpr (.inr (.inl rfl))

/-- The oldest session is evicted and released, but the wait has ended before. -/
theorem evicted_refused :
    Runs.Along step Allowed {} (crowding 1512) ∧
      let w := (crowding 1512).foldl step {}
      (∃ registry, w.registry.cancelOldestTcp = some (2, registry)) ∧
        ∃ w', w.acquireTcpQuota (host 12) none releasedWindow = .refused w' := by
  refine ⟨along_crowding 1512, ?_⟩
  rw [foldl_crowding 1512 le_rfl]
  obtain ⟨_, he⟩ := cancelOldestTcp_occupied 1511
  exact ⟨⟨_, he⟩, refused_occupied rfl⟩

end QuotaWorld
end Csqtt
