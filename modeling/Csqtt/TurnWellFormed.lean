import Csqtt.TurnAuthenticated

/-!
# The TURN core is well formed

Every state that calls lead to: one request for each operation, queues within their capacities,
credentials for what is authenticated, an allocation in READY, and a channel in READY only. What a
start of an operation causes is counted in the log of the requests.
-/

namespace Csqtt
namespace Turn

structure Spent where
  transactions : ℕ
  datagrams : ℕ
  deriving DecidableEq

def Spent.add (s : Spent) : Cause → Spent
  | .start => ⟨1, 1⟩
  | .again => ⟨s.transactions, s.datagrams + 1⟩
  | .renewal => ⟨s.transactions + 1, s.datagrams + 1⟩

/-- What the latest start of an operation in a log has caused. -/
def spent (operation : Operation) (requests : List (Operation × Cause)) : Spent :=
  requests.foldl (fun s request => if request.1 = operation then s.add request.2 else s) ⟨0, 0⟩

theorem spent_append (operation : Operation) (requests : List (Operation × Cause))
    (request : Operation × Cause) : spent operation (requests ++ [request]) =
      if request.1 = operation then (spent operation requests).add request.2
      else spent operation requests := by
  rw [spent, List.foldl_append]
  rfl

namespace NativeCore

variable {prims : Primitives} {K : Bytes → Bytes → Prop} {c c' : NativeCore} {act : Act}
  {acts : List Act}

/-- What the requests say of the transactions and datagrams that led to them. -/
def Metered (c : NativeCore) : Prop :=
  ∀ p ∈ c.pending, (spent p.operation c.requests).transactions = p.nonceRetries + 1 ∧
    (spent p.operation c.requests).datagrams ≤ maxTransmissions * p.nonceRetries + p.transmissions

def Thrifty (c : NativeCore) (requests : List (Operation × Cause)) : Prop :=
  ∀ operation, (spent operation requests).transactions ≤ c.profile.maxNonceRetries + 1 ∧
    (spent operation requests).datagrams ≤ maxTransmissions * (c.profile.maxNonceRetries + 1)

theorem Metered.new (h : c.Metered) (hc : c.Counted) {new : Pending} {cause : Cause}
    (hn : Follows c new cause) :
    ((spent new.operation c.requests).add cause).transactions = new.nonceRetries + 1 ∧
      ((spent new.operation c.requests).add cause).datagrams ≤
        maxTransmissions * new.nonceRetries + new.transmissions := by
  cases hn with
  | start hr hcount =>
    rw [hr, hcount]
    exact ⟨rfl, Nat.le_refl _⟩
  | again p hp ho _ hr hcount =>
    obtain ⟨ht, hd⟩ := h p hp
    rw [ho] at ht hd
    rw [hr, hcount]
    exact ⟨ht, Nat.succ_le_succ hd⟩
  | renewal p hp ho _ hr hcount =>
    obtain ⟨ht, hd⟩ := h p hp
    have hs := hc.sent p hp
    rw [ho] at ht hd
    rw [hr, hcount]
    refine ⟨congrArg (· + 1) ht, ?_⟩
    change (spent new.operation c.requests).datagrams + 1 ≤
      maxTransmissions * (p.nonceRetries + 1) + 1
    rw [Nat.mul_succ]
    omega

/-- The counts agree with the requests, and never exceeded what a start may cause. -/
structure Accounted (c : NativeCore) : Prop where
  phased : c.Phased
  counted : c.Counted
  metered : c.Metered
  thrifty : ∀ done, done <+: c.requests → c.Thrifty done

theorem Accounted.request (h : c.Accounted) {operation : Operation} {cause : Cause}
    (hmove : Move prims K c (.request operation cause) c') :
    c'.Metered ∧ c.Thrifty c'.requests := by
  have hlog := requests_of_move hmove
  obtain ⟨new, hmem, rfl, hfollow, hother⟩ := request_of_move hmove
  have hnew := h.metered.new h.counted hfollow
  have hlim := h.counted.new hfollow
  have hspent : spent new.operation c'.requests = (spent new.operation c.requests).add cause := by
    rw [hlog]
    exact (spent_append ..).trans (if_pos rfl)
  have hsame : ∀ op, new.operation ≠ op → spent op c'.requests = spent op c.requests := by
    intro op hne
    rw [hlog]
    exact (spent_append ..).trans (if_neg hne)
  refine ⟨fun q hq => ?_, fun op => ?_⟩
  · by_cases hop : new.operation = q.operation
    · have heq : new = q := List.inj_on_of_nodup_map (h.phased.move hmove).nodup hmem hq hop
      rw [← heq, hspent]
      exact hnew
    · rw [hsame q.operation hop]
      obtain rfl | hold := hother q hq
      · exact absurd rfl hop
      · exact h.metered q hold
  · by_cases hop : new.operation = op
    · rw [← hop, hspent, Nat.mul_succ]
      have hmul := Nat.mul_le_mul_left maxTransmissions hlim.1
      omega
    · rw [hsame op hop]
      exact h.thrifty c.requests List.prefix_rfl op

theorem Accounted.move (h : c.Accounted) (hm : Move prims K c act c') : c'.Accounted := by
  have hp := profile_of_move hm
  have hlog := requests_of_move hm
  have hquiet : (∀ operation cause, act ≠ .request operation cause) → c'.requests = c.requests →
      c'.Metered ∧ ∀ done, done <+: c'.requests → c.Thrifty done := by
    intro ha hsame
    rw [Metered, hsame]
    exact ⟨fun q hq => h.metered q (pending_of_quiet hm ha q hq), h.thrifty⟩
  have hb : c'.Metered ∧ ∀ done, done <+: c'.requests → c.Thrifty done := by
    cases act with
    | request =>
      refine ⟨(h.request hm).1, fun done hd => ?_⟩
      rw [hlog] at hd
      obtain rfl | hd := List.prefix_concat_iff.mp hd
      · exact hlog ▸ (h.request hm).2
      · exact h.thrifty done hd
    | quiet | stuck => exact hquiet nofun (hlog.trans (List.append_nil _))
  refine ⟨h.phased.move hm, h.counted.move hm, hb.1, ?_⟩
  unfold Thrifty
  rw [hp]
  exact hb.2

theorem Initial.accounted (h : c.Initial) : c.Accounted := by
  refine ⟨h.phased, h.counted, fun p hp => ?_, fun done hd op => ?_⟩
  · rw [h.queues.1] at hp
    cases hp
  · rw [h.requests, List.prefix_nil] at hd
    rw [hd]
    exact ⟨Nat.zero_le _, Nat.zero_le _⟩

/-! ## READY -/

def entersReady (prims : Primitives) : NativeCore → List Input → ℕ
  | _, [] => 0
  | c, input :: inputs =>
    (if c.state ≠ .ready ∧ (c.step prims input).state = .ready then 1 else 0) +
      entersReady prims (c.step prims input) inputs

theorem Past.trace (h : c.Past) (htrace : Trace (Move prims K) c acts c') :
    c'.Past ∧ (c'.state = .ready → c.state = .ready) :=
  htrace.invariant (I := fun d => d.Past ∧ (d.state = .ready → c.state = .ready))
    (fun _ _ _ hd hm => ⟨(hd.1.move hm).1, fun hr => hd.2 ((hd.1.move hm).2 hr)⟩)
    ⟨h, id⟩

theorem phased_step (prims : Primitives) (hc : c.Phased) (input : Input) :
    (c.step prims input).Phased := by
  obtain ⟨acts, htrace, -⟩ := trace_step prims hc input (challenges_true c input)
  exact htrace.invariant (fun _ _ _ => Phased.move) hc

theorem Past.step (prims : Primitives) (h : c.Past) (hc : c.Phased) (input : Input) :
    (c.step prims input).Past ∧ ((c.step prims input).state = .ready → c.state = .ready) := by
  obtain ⟨acts, htrace, -⟩ := trace_step prims hc input (challenges_true c input)
  exact h.trace htrace

theorem entersReady_of_past (h : c.Past) (hc : c.Phased) (inputs : List Input) :
    entersReady prims c inputs = 0 := by
  induction inputs generalizing c with
  | nil => rfl
  | cons input _ ih =>
    have hs := h.step prims hc input
    rw [entersReady, if_neg (fun hr => hr.1 (hs.2 hr.2)), Nat.zero_add]
    exact ih hs.1 (phased_step prims hc input)

theorem entersReady_le_one (hc : c.Phased) (inputs : List Input) :
    entersReady prims c inputs ≤ 1 := by
  induction inputs generalizing c with
  | nil => exact Nat.zero_le _
  | cons input _ ih =>
    have hp := phased_step prims hc input
    rw [entersReady]
    split_ifs with hr
    · have hpast : (c.step prims input).Past := by
        rw [Past, hr.2]
        decide
      rw [entersReady_of_past hpast hp]
    · rw [Nat.zero_add]
      exact ih hp

/-! ## Reachable states -/

structure WellFormed (c : NativeCore) : Prop where
  distinct : (c.pending.map (·.operation)).Nodup
  controls : c.controls.length ≤ 16
  events : c.events.length ≤ 64
  credentials : ∀ p ∈ c.pending, p.authenticated = true →
    c.realm.isSome ∧ c.nonce.isSome ∧ c.key.isSome
  allocated : c.state = .ready → c.relay.isSome ∧ c.allocationExpiresAt.isSome
  bound : c.channel.isSome → c.state = .ready ∨ c.destroyed = true
  retries : ∀ p ∈ c.pending, p.nonceRetries ≤ 3

/-- Calls in any order with any times, packets and transactions lead from a new core to well-formed
states only, and into READY at most once. At any point of the run what the latest start of an
operation has caused is at most four transactions and 28 queued datagrams. -/
theorem core_well_formed (prims : Primitives) (server peer : SocketAddr) (username password : Bytes)
    (transport : TurnControlTransport) (start : NativeCore)
    (hcreate : create server username password peer .pjnathCompat transport = .ok start)
    (inputs : List Input) :
    WellFormed (inputs.foldl (step prims) start) ∧ entersReady prims start inputs ≤ 1 ∧
      ∀ done, done <+: (inputs.foldl (step prims) start).requests → ∀ operation,
        (spent operation done).transactions ≤ 4 ∧ (spent operation done).datagrams ≤ 28 := by
  have hin := initial_create hcreate
  obtain ⟨acts, htrace⟩ := trace_run prims hin.phased inputs
    (Runs.along_of_forall challenges_true)
  have hb := htrace.invariant (I := Bounded) (fun _ _ _ hc => hc.move) hin.bounded
  have hl := htrace.invariant (I := Lodged) (fun _ _ _ hc => hc.move) hin.lodged
  have ha := htrace.invariant (I := Accounted) (fun _ _ _ hc => hc.move) hin.accounted
  have hprofile : (inputs.foldl (step prims) start).profile = .pjnathCompat :=
    htrace.invariant (I := fun c => c.profile = .pjnathCompat)
      (fun _ _ _ hc hm => (profile_of_move hm).trans hc) (profile_create hcreate)
  refine ⟨⟨ha.phased.nodup, hb.controls, hb.events, ha.phased.credentials,
    hl.allocated, hl.bound, fun p hp => ?_⟩, entersReady_le_one hin.phased inputs,
    fun done hd operation => ?_⟩
  · have hr := ha.counted.retries p hp
    rwa [hprofile] at hr
  · have ht := ha.thrifty done hd operation
    rwa [hprofile] at ht

/-- A challenged Allocate, answered twice. -/
theorem core_well_formed_recorded :
    let inputs := Recorded.inputs ++ [.inputStun Recorded.success (Recorded.io Recorded.second 3),
      Input.inputStun Recorded.success (Recorded.io Recorded.second 4)]
    WellFormed (inputs.foldl (step Recorded.primitives) Recorded.start) ∧
      (inputs.foldl (step Recorded.primitives) Recorded.start).state = .ready :=
  ⟨(core_well_formed Recorded.primitives (Recorded.localhost 3478) (Recorded.localhost 9000)
    Recorded.user Recorded.pass .datagram Recorded.start (by rfl) _).1, by decide +kernel⟩

end NativeCore
end Turn
end Csqtt
