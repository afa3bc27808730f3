import Csqtt.ReflectedDatagrams
import Csqtt.RepairHistory
import Csqtt.StreamPlane

/-!
# Rounds that are kept and dropped

A pass drops the round of an identity that has been away for a minute and is still at work; a round
that has nothing to do stays. So a round that is dropped while it counts repairs starts again at
number 1, and a round of an identity that never comes back may stay.
-/

namespace Csqtt

namespace StreamRepairRound

variable {r : StreamRepairRound} {q nowMs : ℕ} {streams : StreamInventory}

theorem nextSequence_of_lt {sequence : ℕ} (h : sequence + 1 < 2 ^ 64) :
    nextSequence sequence = sequence + 1 := by
  rw [nextSequence, Nat.mod_eq_of_lt h, Nat.max_eq_left (Nat.le_add_left 1 sequence)]

/-! ## Numbers of repairs -/

/-- The next repair of the round gets a number above `q`. -/
def Above (q : ℕ) (r : StreamRepairRound) : Prop :=
  q ≤ r.sequence ∧ (r.lastSentMs = 0 → r.lastMissing ≠ [] → q < r.sequence)

theorem Above.noteMissing (h : Above q r) (hr : r.sequence + 1 < 2 ^ 64) (missing : List ℕ)
    (nowMs : ℕ) : Above q (r.noteMissing missing nowMs) := by
  unfold StreamRepairRound.noteMissing
  split_ifs
  · have hlt : q < nextSequence r.sequence := by
      rw [nextSequence_of_lt hr]
      exact Nat.lt_succ_of_le h.1
    exact ⟨hlt.le, fun _ _ => hlt⟩
  · exact h

/-- A round that has changed its set has not sent a repair for it, so one of both leaves the number
as it is. -/
theorem sequence_noteMissing (hr : r.sequence + 1 < 2 ^ 64) (missing : List ℕ) (nowMs : ℕ) :
    (r.noteMissing missing nowMs).lastSentMs ≠ 0 →
      (r.noteMissing missing nowMs).sequence + 1 < 2 ^ 64 := by
  unfold noteMissing
  split_ifs
  · exact fun h => absurd rfl h
  · exact fun _ => hr

section

variable (h : Above q r)
include h

theorem lt_sequence_sendRepair (hm : r.lastMissing ≠ [])
    (hr : r.lastSentMs ≠ 0 → r.sequence + 1 < 2 ^ 64) (nowMs : ℕ) :
    q < (r.sendRepair nowMs).sequence := by
  unfold sendRepair
  split_ifs with hs
  · rw [nextSequence_of_lt (hr hs)]
    exact Nat.lt_succ_of_le h.1
  · exact h.2 (not_not.mp hs) hm

theorem repairPayload_above (hr : r.sequence + 1 < 2 ^ 64) {missing : List ℕ} (hm : missing ≠ [])
    (desiredCount nowMs : ℕ) :
    Above q (r.repairPayload missing desiredCount nowMs).1 ∧
      ∀ f, (r.repairPayload missing desiredCount nowMs).2 = some f →
        q < f.sequence ∧ Above f.sequence (r.repairPayload missing desiredCount nowMs).1 := by
  have hn := h.noteMissing hr missing nowMs
  have hl : (r.noteMissing missing nowMs).lastMissing ≠ [] := by
    rw [lastMissing_noteMissing]
    exact hm
  have hlt := lt_sequence_sendRepair hn hl (sequence_noteMissing hr missing nowMs) nowMs
  obtain hquiet | ⟨hno, hsends⟩ := r.repairPayload_cases missing desiredCount nowMs
  · rw [hquiet]
    exact ⟨hn, fun f hf => by cases hf⟩
  · have hs : ∀ q ≤ ((r.noteMissing missing nowMs).sendRepair nowMs).sequence,
        Above q ((r.noteMissing missing nowMs).sendRepair nowMs) :=
      fun q hq => ⟨hq, fun hz => absurd hz hno⟩
    rw [hsends]
    refine ⟨hs q hlt.le, fun f hf => ?_⟩
    cases hf
    exact ⟨hlt, hs _ le_rfl⟩

theorem alivePayload_above (nowMs : ℕ) :
    Above q (r.alivePayload nowMs).1 ∧ ∀ f, (r.alivePayload nowMs).2 = some f →
    f.repair = false := by
  obtain hq | ⟨-, hs⟩ := r.alivePayload_cases nowMs
  · rw [hq]
    exact ⟨h, fun f hf => by cases hf⟩
  · rw [hs]
    refine ⟨h, fun f hf => ?_⟩
    cases hf
    rfl

theorem Above.recovered (desiredCount nowMs : ℕ) : Above q (r.recovered desiredCount nowMs) := by
  unfold StreamRepairRound.recovered
  split_ifs
  · exact h
  · exact ⟨h.1, fun _ hm => absurd rfl hm⟩

/-- A pass leaves what comes next above `q`, and a repair it sends is above `q` and below what comes
after it. -/
theorem reconcile_above (hroom : r.sequence + 1 < 2 ^ 64) (streams : StreamInventory) (nowMs : ℕ) :
    Above q (r.reconcile streams nowMs).1 ∧
      ∀ f, (r.reconcile streams nowMs).2 = some f → f.repair = true →
        q < f.sequence ∧ Above f.sequence (r.reconcile streams nowMs).1 := by
  have hs : Above q { r with lastSeenMs := nowMs } := h
  unfold reconcile
  split_ifs with hm
  · have hp := alivePayload_above (hs.recovered streams.desiredCount nowMs) nowMs
    refine ⟨hp.1, fun f hf hr => ?_⟩
    rw [hp.2 f hf] at hr
    cases hr
  · have hp := repairPayload_above hs hroom hm streams.desiredCount nowMs
    exact ⟨hp.1, fun f hf _ => hp.2 f hf⟩

end

end StreamRepairRound

namespace StreamPlane

open StreamRepairRound

variable {cfg : ServerConfig} {p : StreamPlane}

def Increasing (p : StreamPlane) : Prop :=
  p.emitted.Pairwise fun x y => x.1 = y.1 → x.2.repair = true → y.2.repair = true →
    x.2.sequence < y.2.sequence

/-- A client that has been asked for earlier repairs of its identity only takes a new one, whatever
its calls have done. -/
def Heeded (p : StreamPlane) : Prop :=
  ∀ before x after, p.emitted = before ++ x :: after → x.2.repair = true →
    ∀ (desired : ℕ) (events : List RepairState.Event) (worker : ℕ),
      (∀ c ∈ (events.foldl RepairState.step { desired }).calls, ∃ y ∈ before,
        y.1 = x.1 ∧ y.2.repair = true ∧ y.2.sequence = c.command.sequence) →
      (events.foldl RepairState.step { desired }).Accepts worker x.2.sequence

/-- A pass drops no round at work and no number is the last one; the engine restarts only while no
round has a number. -/
def Remembers (cfg : ServerConfig) (p : StreamPlane) : Input → Prop
  | .tick io => p.due io = true → ∀ x ∈ p.repairs.entries,
      x.2.sequence + 1 < 2 ^ 64 ∧ (x.2.active = true → x.1 ∈ p.nextInventory cfg io ∨
        io.nowMs - x.2.lastSeenMs < streamRoundOrphanTtlMs)
  | .restart _ => ∀ x ∈ p.repairs.entries, x.2.sequence = 0
  | _ => True

instance (cfg : ServerConfig) (p : StreamPlane) (i : Input) : Decidable (Remembers cfg p i) :=
  match i with
  | .tick io => inferInstanceAs (Decidable (p.due io = true → ∀ x ∈ p.repairs.entries,
      x.2.sequence + 1 < 2 ^ 64 ∧ (x.2.active = true → x.1 ∈ p.nextInventory cfg io ∨
        io.nowMs - x.2.lastSeenMs < streamRoundOrphanTtlMs)))
  | .restart _ => inferInstanceAs (Decidable (∀ x ∈ p.repairs.entries, x.2.sequence = 0))
  | .udp .. => isTrue trivial
  | .command .. => isTrue trivial
  | .tun _ => isTrue trivial
  | .drain _ => isTrue trivial
  | .ioCounters => isTrue trivial
  | .shared .. => isTrue trivial

structure Numbered (p : StreamPlane) : Prop where
  started : ∀ identity, Above 0 (p.repairs.round identity)
  used : ∀ x ∈ p.emitted, x.2.repair = true →
    0 < x.2.sequence ∧ Above x.2.sequence (p.repairs.round x.1)
  increasing : p.Increasing

variable {io : StreamTickIo}

theorem Numbered.reconcileStreams (h : p.Numbered) (hdue : p.due io = true)
    (hremembers : Remembers cfg p (.tick io)) : (p.reconcileStreams cfg io).Numbered := by
  have hentry : ∀ {identity r}, p.repairs.lookup identity = some r →
      r.sequence + 1 < 2 ^ 64 ∧ (r.active = true → identity ∈ p.nextInventory cfg io ∨
        io.nowMs - r.lastSeenMs < streamRoundOrphanTtlMs) :=
    fun {identity r} hr => hremembers hdue ⟨identity, r⟩ (AList.mem_lookup_iff.mp hr)
  have hroom : ∀ identity, (p.repairs.round identity).sequence + 1 < 2 ^ 64 := by
    intro identity
    rw [StreamRepairs.round]
    cases hr : p.repairs.lookup identity with
    | none => decide
    | some => exact (hentry hr).1
  have habove : ∀ {q identity}, Above q (p.repairs.round identity) →
      Above q ((p.reconcileStreams cfg io).repairs.round identity) := by
    intro q identity hq
    rw [repairs_reconcileStreams hdue]
    cases hlook : (p.nextInventory cfg io).lookup identity with
    | some streams =>
      rw [StreamRepairs.round_reconcile_of_some hlook]
      exact (reconcile_above hq (hroom identity) streams io.nowMs).1
    | none =>
      rw [StreamRepairs.round_reconcile_of_none hlook]
      · exact hq
      · intro r hr
        rw [StreamRepairs.retains_eq_true]
        cases hact : r.active with
        | false => exact .inr (.inl rfl)
        | true => exact ((hentry hr).2 hact).imp_right .inr
  have hnew : ∀ {q} {a : StreamControlAction}, a ∈ p.actions cfg io →
      Above q (p.repairs.round a.identity) → a.frame.repair = true → q < a.frame.sequence ∧
        Above a.frame.sequence ((p.reconcileStreams cfg io).repairs.round a.identity) := by
    intro q a ha hq hrepair
    obtain ⟨streams, hlook, hframe⟩ := mem_actions ha
    rw [repairs_reconcileStreams hdue, StreamRepairs.round_reconcile_of_some hlook]
    exact (reconcile_above hq (hroom a.identity) streams io.nowMs).2 a.frame hframe hrepair
  have hemit : (p.reconcileStreams cfg io).emitted =
      p.emitted ++ (p.actions cfg io).map fun a => (a.identity, a.frame) :=
    emitted_reconcileStreams p io
  refine ⟨fun identity => habove (h.started identity), fun x hx hrepair => ?_, ?_⟩
  · rw [hemit, List.mem_append, List.mem_map] at hx
    obtain hold | ⟨a, ha, rfl⟩ := hx
    · exact ⟨(h.used x hold hrepair).1, habove (h.used x hold hrepair).2⟩
    · exact hnew ha (h.started a.identity) hrepair
  · rw [Increasing, hemit, List.pairwise_append, List.pairwise_map]
    refine ⟨h.increasing, ?_, fun x hx y hy => ?_⟩
    · exact (identities_actions p io).imp fun hne heq => absurd heq hne
    · obtain ⟨a, ha, rfl⟩ := List.mem_map.mp hy
      intro heq hold hrepair
      have hused := (h.used x hx hold).2
      rw [heq] at hused
      exact (hnew ha hused hrepair).1

theorem Numbered.restart (h : p.Numbered) (hz : ∀ x ∈ p.repairs.entries, x.2.sequence = 0) :
    Numbered { engine := p.engine, emitted := p.emitted } := by
  have hf : ∀ x ∈ p.emitted, x.2.repair = true → False := by
    intro x hx hrepair
    obtain ⟨hp, ha⟩ := h.used x hx hrepair
    have hle := ha.1
    rw [StreamRepairs.round] at hle
    cases hr : p.repairs.lookup x.1 with
    | none =>
      rw [hr] at hle
      exact absurd (hp.trans_le hle) (lt_irrefl 0)
    | some r =>
      have hn : r.sequence = 0 := hz ⟨x.1, r⟩ (AList.mem_lookup_iff.mp hr)
      rw [hr, Option.getD_some, hn] at hle
      exact absurd (hp.trans_le hle) (lt_irrefl 0)
  exact ⟨fun _ => ⟨le_rfl, fun _ hm => absurd rfl hm⟩,
    fun x hx hrepair => (hf x hx hrepair).elim, h.increasing⟩

theorem Numbered.step (h : p.Numbered) {i : Input} (hr : Remembers cfg p i) :
    (p.step cfg i).Numbered := by
  refine step_kept (fun _ _ h => ⟨h.started, h.used, h.increasing⟩) h ?_ ?_
  · rintro io rfl hd
    exact h.reconcileStreams hd hr
  · rintro wallNow rfl
    exact h.restart hr

theorem numbered_start (credentials : List Credential) (wallNow : ℕ) :
    (start credentials wallNow).Numbered :=
  ⟨fun _ => ⟨le_rfl, fun _ hm => absurd rfl hm⟩, by simp [start], List.Pairwise.nil⟩

theorem Numbered.heeded (h : p.Numbered) : p.Heeded := by
  intro before x after heq hrepair desired events worker hcalls
  have hmem : x ∈ p.emitted := by
    rw [heq]
    exact List.mem_append_right _ List.mem_cons_self
  refine (RepairState.counted_run desired events).accepts (h.used x hmem hrepair).1 fun c hc => ?_
  obtain ⟨y, hy, hid, hold, hseq⟩ := hcalls c hc
  have hinc := h.increasing
  rw [Increasing, heq, List.pairwise_append] at hinc
  rw [← hseq]
  exact hinc.2.2 y hy x List.mem_cons_self hid hold hrepair

/-- The repairs of each identity are numbered strictly upwards, and no client takes a new one for an
old one, in every run in which no pass drops a round at work, no number is the last one and the
engine restarts only before the first repair. -/
theorem repairs_increase (cfg : ServerConfig) (credentials : List Credential) (wallNow : ℕ)
    (inputs : List Input)
    (h : Runs.Along (step cfg) (Remembers cfg) (start credentials wallNow) inputs) :
    Runs.Always (step cfg) (fun p => p.Increasing ∧ p.Heeded) (start credentials wallNow)
      inputs := by
  have hn : Runs.Always (step cfg) Numbered (start credentials wallNow) inputs :=
    Runs.always_invariant (fun _ _ hp hr => hp.step hr)
      (numbered_start credentials wallNow) h
  exact Runs.always_mono (fun _ hp => ⟨hp.increasing, hp.heeded⟩) hn

/-! ## Rounds of identities that are away -/

/-- Each round belongs to an identity that is in the inventory or was so less than a minute before
the last pass. -/
def Bounded (p : StreamPlane) : Prop :=
  ∀ x ∈ p.repairs.entries,
    x.1 ∈ p.inventory ∨ p.lastReconcileMs - x.2.lastSeenMs < streamRoundOrphanTtlMs

/-- An identity leaves the inventory only while its round is at work. -/
def LeavesActive (cfg : ServerConfig) (p : StreamPlane) : Input → Prop
  | .tick io => p.due io = true → ∀ x ∈ p.repairs.entries,
      x.1 ∈ p.inventory → x.1 ∉ p.nextInventory cfg io → x.2.active = true
  | _ => True

instance (cfg : ServerConfig) (p : StreamPlane) (i : Input) : Decidable (LeavesActive cfg p i) :=
  match i with
  | .tick io => inferInstanceAs (Decidable (p.due io = true → ∀ x ∈ p.repairs.entries,
      x.1 ∈ p.inventory → x.1 ∉ p.nextInventory cfg io → x.2.active = true))
  | .restart _ => isTrue trivial
  | .udp .. => isTrue trivial
  | .command .. => isTrue trivial
  | .tun _ => isTrue trivial
  | .drain _ => isTrue trivial
  | .ioCounters => isTrue trivial
  | .shared .. => isTrue trivial

structure Working (p : StreamPlane) : Prop where
  active : ∀ x ∈ p.repairs.entries, x.1 ∈ p.inventory ∨ x.2.active = true
  bounded : p.Bounded

/-- A round after a pass is of the inventory or was there before, and then the pass retained it. -/
theorem mem_repairs_reconcileStreams (hd : p.due io = true)
    {x : Sigma fun _ : Identity => StreamRepairRound}
    (hx : x ∈ (p.reconcileStreams cfg io).repairs.entries) :
    x.1 ∈ p.nextInventory cfg io ∨ (x.1 ∉ p.nextInventory cfg io ∧ x ∈ p.repairs.entries ∧
      StreamRepairs.retains (p.nextInventory cfg io) io.nowMs x.1 x.2 = true) := by
  by_cases hm : x.1 ∈ p.nextInventory cfg io
  · exact .inl hm
  · have hl := AList.mem_lookup_iff.mpr hx
    rw [repairs_reconcileStreams hd,
      StreamRepairs.lookup_reconcile_of_none (AList.lookup_eq_none.mpr hm)] at hl
    obtain ⟨hb, hr⟩ := Option.filter_eq_some_iff.mp hl
    exact .inr ⟨hm, AList.mem_lookup_iff.mp hb, hr⟩

theorem Working.reconcileStreams (h : p.Working) (hd : p.due io = true)
    (hl : LeavesActive cfg p (.tick io)) : (p.reconcileStreams cfg io).Working := by
  have haway : ∀ x ∈ (p.reconcileStreams cfg io).repairs.entries,
      x.1 ∈ (p.reconcileStreams cfg io).inventory ∨
        (x.2.active = true ∧ io.nowMs - x.2.lastSeenMs < streamRoundOrphanTtlMs) := by
    intro x hx
    rw [inventory_reconcileStreams]
    obtain hm | ⟨hm, hb, hr⟩ := mem_repairs_reconcileStreams hd hx
    · exact .inl hm
    · have ha : x.2.active = true := by
        obtain hin | ha := h.active x hb
        · exact hl hd x hb hin hm
        · exact ha
      obtain hm' | hid | hs := StreamRepairs.retains_eq_true.mp hr
      · exact absurd hm' hm
      · rw [ha] at hid
        cases hid
      · exact .inr ⟨ha, hs⟩
  have hn : (p.reconcileStreams cfg io).lastReconcileMs = io.nowMs := by
    rw [StreamPlane.reconcileStreams, if_pos hd]
  refine ⟨fun x hx => (haway x hx).imp_right And.left, fun x hx => ?_⟩
  rw [hn]
  exact (haway x hx).imp_right And.right

theorem working_empty (hr : p.repairs = ∅) : p.Working := by
  have he : p.repairs.entries = [] := by
    rw [hr]
    rfl
  constructor
  · rw [he]
    simp
  · rw [Bounded, he]
    simp

theorem Working.step (h : p.Working) {i : Input} (hl : LeavesActive cfg p i) :
    (p.step cfg i).Working := by
  refine step_kept (fun _ _ h => ⟨h.active, h.bounded⟩) h ?_ (fun _ _ => working_empty rfl)
  rintro io rfl hd
  exact h.reconcileStreams hd hl

/-- The rounds are bounded by what is alive in every run in which an identity leaves the inventory
only while its round is at work. -/
theorem rounds_bounded (cfg : ServerConfig) (credentials : List Credential) (wallNow : ℕ)
    (inputs : List Input)
    (h : Runs.Along (step cfg) (LeavesActive cfg) (start credentials wallNow) inputs) :
    Runs.Always (step cfg) Bounded (start credentials wallNow) inputs := by
  have hw : Runs.Always (step cfg) Working (start credentials wallNow) inputs :=
    Runs.always_invariant (fun _ _ hp hl => hp.step hl) (working_empty rfl) h
  exact Runs.always_mono (fun _ hp => hp.bounded) hw

end StreamPlane

/-! ## A client that goes and comes back -/

namespace Recorded

def identity : Identity := ⟨"phone".toList, 1, "s".toList⟩

def publics : ℕ → Option PublicSession := fun id =>
  if id = 1 ∨ id = 2 then
    some { PublicSession.new endpoint.peer "cross-language-password".toList identity false 0 with
      workerId := 1 }
  else none

def tick (monotonicMs : ℕ) : StreamPlane.Input :=
  .tick ⟨monotonicMs, 0, fun _ _ => sendIo, false⟩

def activate (session desiredCount : ℕ) : StreamPlane.Input :=
  .command (.activateTunnel session (10, 66, 67, 2) session 1 desiredCount) ⟨fun _ => sendIo, true⟩

def drop : StreamPlane.Input := .command (.dropSession 1) ⟨fun _ => sendIo, true⟩

/-- Worker 1 gets a tunnel, and says how many streams there should be. -/
def opened (session desiredCount : ℕ) : List StreamPlane.Input :=
  [.udp endpoint getconfDatagram udpIo, .shared publics [] credentials,
    activate session desiredCount]

def streams (inputs : List StreamPlane.Input) : StreamPlane :=
  inputs.foldl (StreamPlane.step config) (.start credentials 0)

/-- Worker 2 is missing all the time, and worker 1 is away for a minute. -/
def returned : List StreamPlane.Input :=
  opened 1 2 ++ [tick 3000, tick 33000, drop, tick 93000] ++ opened 2 2 ++ [tick 96000, tick 126000]

def left : List StreamPlane.Input := opened 1 1 ++ [tick 3000, drop, tick 63000]

def abandoned : List StreamPlane.Input := opened 1 2 ++ [tick 3000, drop, tick 33000, tick 93000]

def escalated : List StreamPlane.Input := opened 1 2 ++ [tick 3000, tick 33000, tick 93000]

end Recorded

/-- The second repair of an identity has the number of the first one. -/
theorem repairs_repeat : (Recorded.streams Recorded.returned).emitted =
      [(Recorded.identity, ⟨true, 1, 2, [2]⟩), (Recorded.identity, ⟨true, 1, 2, [2]⟩)] ∧
    ¬ (Recorded.streams Recorded.returned).Increasing := by
  have he : (Recorded.streams Recorded.returned).emitted =
      [(Recorded.identity, ⟨true, 1, 2, [2]⟩), (Recorded.identity, ⟨true, 1, 2, [2]⟩)] := by
    decide +kernel
  refine ⟨he, fun h => ?_⟩
  rw [StreamPlane.Increasing, he] at h
  revert h
  decide

/-- The theorem where a repair is asked for twice. -/
theorem repairs_increase_escalated : (Recorded.streams Recorded.escalated).emitted =
      [(Recorded.identity, ⟨true, 1, 2, [2]⟩), (Recorded.identity, ⟨true, 2, 2, [2]⟩)] ∧
    Runs.Always (StreamPlane.step Recorded.config) (fun p => p.Increasing ∧ p.Heeded)
      (.start Recorded.credentials 0) Recorded.escalated :=
  ⟨by decide +kernel, StreamPlane.repairs_increase Recorded.config Recorded.credentials 0
    Recorded.escalated (by decide +kernel)⟩

/-- The round of an identity that is away for a minute stays. -/
theorem idle_round_kept : (Recorded.streams Recorded.left).inventory.entries = [] ∧
    (Recorded.streams Recorded.left).repairs.entries.map (fun x => (x.1, x.2.lastSeenMs)) =
      [(Recorded.identity, 3001)] ∧ (Recorded.streams Recorded.left).lastReconcileMs = 63001 ∧
    ¬ (Recorded.streams Recorded.left).Bounded := by
  unfold StreamPlane.Bounded
  decide +kernel

/-- The theorem where a round at work is dropped after a minute. -/
theorem rounds_bounded_abandoned :
    (Recorded.streams (Recorded.abandoned.take 6)).repairs.entries.map (·.1) = [Recorded.identity] ∧
    (Recorded.streams Recorded.abandoned).repairs.entries.map (·.1) = [] ∧
    Runs.Always (StreamPlane.step Recorded.config) StreamPlane.Bounded
      (.start Recorded.credentials 0) Recorded.abandoned :=
  ⟨by decide +kernel, by decide +kernel, StreamPlane.rounds_bounded Recorded.config
    Recorded.credentials 0 Recorded.abandoned (by decide +kernel)⟩

end Csqtt
