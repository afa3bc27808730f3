import Csqtt.Runs
import Csqtt.Text
import Mathlib.Algebra.Group.Nat.Defs
import Mathlib.Data.List.Count
import Mathlib.Tactic.SplitIfs

/-!
# The credential cache of a worker group

Leases of a TURN credential outlive the credential they were taken from. A run is a
series of calls on the cache together with the leases that are out: a lease is given
back at most once, and every other call may come with any lease there ever was.
-/

namespace Csqtt

/-- `WORKERS_PER_CREDENTIAL`. -/
def workersPerCredential : ℕ := 18

structure TurnCredentials where
  username : Text
  password : Text
  serverAddresses : List Text
  deriving DecidableEq

structure CachedCredentials where
  value : TurnCredentials
  generation : ℕ
  allocationAttempts : ℕ
  allocationMismatches : ℕ
  deriving DecidableEq

structure CredentialLease where
  value : TurnCredentials
  generation : ℕ
  deriving DecidableEq

structure CredentialCache where
  current : Option CachedCredentials := none
  quotaBlocked : Option TurnCredentials := none
  nextGeneration : ℕ := 0
  quotaRetries : ℕ := 0
  deriving DecidableEq

/-- Milliseconds. -/
def quotaRotationDelay : ℕ → ℕ
  | 0 => 100
  | 1 => 300
  | 2 => 500
  | 3 => 800
  | _ => 1500

inductive QuotaRotation
  | rotated (delay : ℕ)
  | replaced
  deriving DecidableEq

inductive AllocationMismatch
  | retryCurrent
  | rotated
  | replaced
  deriving DecidableEq

/-- The test the calls with a lease begin with. -/
def CachedCredentials.Backs (cached : CachedCredentials) (lease : CredentialLease) : Prop :=
  cached.generation = lease.generation ∧ cached.value = lease.value

instance (cached : CachedCredentials) (lease : CredentialLease) : Decidable (cached.Backs lease) :=
  inferInstanceAs (Decidable (_ ∧ _))

namespace CredentialCache

def reserve (cache : CredentialCache) : Option CredentialLease × CredentialCache :=
  match cache.current with
  | none => (none, cache)
  | some cached =>
    if workersPerCredential ≤ cached.allocationAttempts then (none, { cache with current := none })
    else
      (some ⟨cached.value, cached.generation⟩,
        { cache with
          current := some { cached with allocationAttempts := cached.allocationAttempts + 1 } })

def store (cache : CredentialCache) (credentials : TurnCredentials) : Bool × CredentialCache :=
  if cache.quotaBlocked = some credentials then (false, cache)
  else
    let generation := max (min (cache.nextGeneration + 1) (2 ^ 64 - 1)) 1
    (true,
      { cache with
        quotaBlocked := none
        nextGeneration := generation
        current := some ⟨credentials, generation, 0, 0⟩ })

def onBacked (cache : CredentialCache) (lease : CredentialLease)
    (f : CachedCredentials → CredentialCache) : CredentialCache :=
  match cache.current with
  | none => cache
  | some cached => if cached.Backs lease then f cached else cache

def recordAllocation (cache : CredentialCache) (lease : CredentialLease) : CredentialCache :=
  cache.onBacked lease fun cached =>
    { cache with current := some { cached with allocationMismatches := 0 }, quotaRetries := 0 }

def release (cache : CredentialCache) (lease : CredentialLease) : CredentialCache :=
  cache.onBacked lease fun cached =>
    { cache with
      current := some { cached with allocationAttempts := cached.allocationAttempts - 1 } }

def invalidate (cache : CredentialCache) (lease : CredentialLease) : CredentialCache :=
  cache.onBacked lease fun _ => { cache with current := none }

def rotateAfterQuota (cache : CredentialCache) (lease : CredentialLease) :
    QuotaRotation × CredentialCache :=
  (match cache.current with
    | none => .replaced
    | some cached =>
      if cached.Backs lease then .rotated (quotaRotationDelay cache.quotaRetries) else .replaced,
    cache.onBacked lease fun cached =>
      { cache with
        current := none
        quotaBlocked := some cached.value
        quotaRetries := cache.quotaRetries + 1 })

def nextQuotaDelay (cache : CredentialCache) : ℕ × CredentialCache :=
  (quotaRotationDelay cache.quotaRetries, { cache with quotaRetries := cache.quotaRetries + 1 })

def retryAfterMismatch (cache : CredentialCache) (lease : CredentialLease) :
    AllocationMismatch × CredentialCache :=
  (match cache.current with
    | none => .replaced
    | some cached =>
      if cached.Backs lease then
        if cached.allocationMismatches = 0 then .retryCurrent else .rotated
      else .replaced,
    cache.onBacked lease fun cached =>
      { cache with current :=
          if cached.allocationMismatches = 0 then some { cached with allocationMismatches := 1 }
          else none })

theorem onBacked_cases (cache : CredentialCache) (lease : CredentialLease)
    (f : CachedCredentials → CredentialCache) :
    ((∀ cached, cache.current = some cached → ¬ cached.Backs lease) ∧
        cache.onBacked lease f = cache) ∨
      ∃ cached, cache.current = some cached ∧ cached.Backs lease ∧
        cache.onBacked lease f = f cached := by
  unfold onBacked
  cases hcurrent : cache.current with
  | none => exact .inl ⟨nofun, rfl⟩
  | some cached =>
    by_cases hb : cached.Backs lease
    · exact .inr ⟨cached, rfl, hb, if_pos hb⟩
    · exact .inl ⟨fun _ hc => Option.some.inj hc ▸ hb, if_neg hb⟩

end CredentialCache

inductive CacheCall
  | reserve
  | store (credentials : TurnCredentials)
  | recordAllocation (lease : CredentialLease)
  | release (lease : CredentialLease)
  | invalidate (lease : CredentialLease)
  | rotateAfterQuota (lease : CredentialLease)
  | nextQuotaDelay
  | retryAfterMismatch (lease : CredentialLease)
  deriving DecidableEq

variable {call : CacheCall} {lease : CredentialLease}

namespace CacheCall

def apply (cache : CredentialCache) : CacheCall → CredentialCache
  | .reserve => cache.reserve.2
  | .store credentials => (cache.store credentials).2
  | .recordAllocation lease => cache.recordAllocation lease
  | .release lease => cache.release lease
  | .invalidate lease => cache.invalidate lease
  | .rotateAfterQuota lease => (cache.rotateAfterQuota lease).2
  | .nextQuotaDelay => cache.nextQuotaDelay.2
  | .retryAfterMismatch lease => (cache.retryAfterMismatch lease).2

def lease? : CacheCall → Option CredentialLease
  | .recordAllocation lease | .release lease | .invalidate lease | .rotateAfterQuota lease
  | .retryAfterMismatch lease => some lease
  | _ => none

def stored? : CacheCall → Option TurnCredentials
  | .store credentials => some credentials
  | _ => none

theorem apply_of_older {cache : CredentialCache} {cached : CachedCredentials}
    (hl : call.lease? = some lease) (hc : cache.current = some cached)
    (h : lease.generation < cached.generation) : call.apply cache = cache := by
  have hs : ∀ f, cache.onBacked lease f = cache := by
    intro f
    obtain ⟨-, heq⟩ | ⟨other, ho, hb, -⟩ := cache.onBacked_cases lease f
    · exact heq
    · cases hc.symm.trans ho
      exact absurd hb.1 h.ne'
  cases call <;> cases hl <;> exact hs _

end CacheCall

namespace CredentialCache

/-- What every call but a store leaves of the cache: the credential stays or goes, and
only the current credential can become the blocked one. -/
structure Kept (cache cache' : CredentialCache) : Prop where
  next : cache'.nextGeneration = cache.nextGeneration
  current : ∀ cached', cache'.current = some cached' →
    ∃ cached, cache.current = some cached ∧ cached'.value = cached.value
  blocked : cache'.quotaBlocked = cache.quotaBlocked ∨ cache.current ≠ none

theorem Kept.refl (cache : CredentialCache) : Kept cache cache :=
  ⟨rfl, fun cached hc => ⟨cached, hc, rfl⟩, .inl rfl⟩

theorem kept_onBacked {cache : CredentialCache} {f : CachedCredentials → CredentialCache}
    (lease : CredentialLease) (hn : ∀ cached, (f cached).nextGeneration = cache.nextGeneration)
    (hcurrent : ∀ cached cached', (f cached).current = some cached' →
      cached'.value = cached.value) : Kept cache (cache.onBacked lease f) := by
  obtain ⟨-, heq⟩ | ⟨cached, hc, -, heq⟩ := cache.onBacked_cases lease f
  · rw [heq]
    exact .refl cache
  · rw [heq]
    exact ⟨hn cached, fun cached' hc' => ⟨cached, hc, hcurrent cached cached' hc'⟩,
      .inr (by simp [hc])⟩

theorem kept_reserve (cache : CredentialCache) : Kept cache cache.reserve.2 := by
  unfold reserve
  cases hc : cache.current with
  | none => exact .refl cache
  | some cached =>
    dsimp only
    split_ifs
    · exact ⟨rfl, nofun, .inl rfl⟩
    · refine ⟨rfl, ?_, .inl rfl⟩
      rintro _ ⟨⟩
      exact ⟨cached, hc, rfl⟩

theorem kept_apply (cache : CredentialCache) (h : call.stored? = none) :
    Kept cache (call.apply cache) := by
  cases call with
  | reserve => exact cache.kept_reserve
  | store credentials => cases h
  | nextQuotaDelay => exact ⟨rfl, fun cached hc => ⟨cached, hc, rfl⟩, .inl rfl⟩
  | recordAllocation lease | release lease =>
    exact kept_onBacked lease (fun _ => rfl) (by rintro _ _ ⟨⟩; rfl)
  | invalidate lease | rotateAfterQuota lease => exact kept_onBacked lease (fun _ => rfl) nofun
  | retryAfterMismatch lease =>
    refine kept_onBacked lease (fun _ => rfl) fun cached cached' hc' => ?_
    split_ifs at hc'
    cases hc'
    rfl

theorem nextGeneration_apply_le (cache : CredentialCache) (call : CacheCall) :
    (call.apply cache).nextGeneration ≤ cache.nextGeneration + call.stored?.isSome.toNat := by
  cases hs : call.stored? with
  | none => exact (cache.kept_apply hs).next.le
  | some credentials =>
    cases call <;> cases hs
    simp only [CacheCall.apply, store, Option.isSome_some, Bool.toNat_true]
    split_ifs <;> dsimp only <;> omega

end CredentialCache

structure LeasedCache where
  cache : CredentialCache := {}
  leases : List CredentialLease := []
  deriving DecidableEq

namespace LeasedCache

def step (s : LeasedCache) (call : CacheCall) : LeasedCache :=
  { cache := call.apply s.cache
    leases :=
      match call with
      | .reserve => s.cache.reserve.1.toList ++ s.leases
      | .release lease => s.leases.erase lease
      | _ => s.leases }

def Allowed (s : LeasedCache) (call : CacheCall) : Prop :=
  ∀ lease, call = .release lease → lease ∈ s.leases

def outstanding (s : LeasedCache) (generation : ℕ) : ℕ :=
  s.leases.countP (·.generation = generation)

structure Counted (s : LeasedCache) : Prop where
  bounded : ∀ generation, s.outstanding generation ≤ workersPerCredential
  issued : ∀ lease ∈ s.leases, lease.generation ≤ s.cache.nextGeneration
  current : ∀ cached, s.cache.current = some cached →
    cached.generation = s.cache.nextGeneration ∧
      cached.allocationAttempts = s.outstanding cached.generation ∧
      ∀ lease ∈ s.leases, lease.generation = cached.generation → lease.value = cached.value

variable {s s' : LeasedCache}

section

variable (h : s.Counted)
include h

/-- Calls that only drop the current credential, or touch neither its counter nor the
leases, keep the count. -/
theorem Counted.of_current (hl : s'.leases = s.leases)
    (hn : s'.cache.nextGeneration = s.cache.nextGeneration)
    (hc : ∀ cached', s'.cache.current = some cached' →
      ∃ cached, s.cache.current = some cached ∧ cached'.value = cached.value ∧
        cached'.generation = cached.generation ∧
        cached'.allocationAttempts = cached.allocationAttempts) : s'.Counted := by
  have ho : s'.outstanding = s.outstanding := by
    unfold outstanding
    rw [hl]
  refine ⟨ho ▸ h.bounded, ?_, fun cached' hc' => ?_⟩
  · rw [hl, hn]
    exact h.issued
  · obtain ⟨cached, hcache, hv, hg, ha⟩ := hc cached' hc'
    rw [hl, hn, ho, hv, hg, ha]
    exact h.current cached hcache

theorem Counted.onBacked (lease : CredentialLease) {f : CachedCredentials → CredentialCache}
    (hn : ∀ cached, (f cached).nextGeneration = s.cache.nextGeneration)
    (hc : ∀ cached cached', (f cached).current = some cached' →
      cached'.value = cached.value ∧ cached'.generation = cached.generation ∧
        cached'.allocationAttempts = cached.allocationAttempts) :
    Counted ⟨s.cache.onBacked lease f, s.leases⟩ := by
  refine h.of_current rfl ?_ ?_
  · obtain ⟨-, heq⟩ | ⟨cached, -, -, heq⟩ := s.cache.onBacked_cases lease f
    · exact congrArg _ heq
    · exact (congrArg _ heq).trans (hn cached)
  · intro cached' hc'
    obtain ⟨-, heq⟩ | ⟨cached, hcache, -, heq⟩ := s.cache.onBacked_cases lease f
    · exact ⟨cached', heq ▸ hc', rfl, rfl, rfl⟩
    · exact ⟨cached, hcache, hc cached cached' (heq ▸ hc')⟩

theorem Counted.reserve : (s.step .reserve).Counted := by
  cases hcurrent : s.cache.current with
  | none =>
    have hnone : s.cache.reserve = (none, s.cache) := by
      rw [CredentialCache.reserve, hcurrent]
    simpa [step, CacheCall.apply, hnone] using h
  | some cached =>
    obtain ⟨hlatest, hattempt, hval⟩ := h.current cached hcurrent
    by_cases hfull : workersPerCredential ≤ cached.allocationAttempts
    · have hdrop : s.cache.reserve = (none, { s.cache with current := none }) := by
        rw [CredentialCache.reserve, hcurrent]
        exact if_pos hfull
      simp only [step, CacheCall.apply, hdrop, Option.toList_none, List.nil_append]
      exact h.of_current rfl rfl fun _ hcache' => nomatch hcache'
    · have hgive : s.cache.reserve = (some ⟨cached.value, cached.generation⟩,
          { s.cache with
            current := some { cached with allocationAttempts := cached.allocationAttempts + 1 }
              }) := by
        rw [CredentialCache.reserve, hcurrent]
        exact if_neg hfull
      have hout : ∀ generation, (s.step .reserve).outstanding generation =
          s.outstanding generation + if cached.generation = generation then 1 else 0 := by
        simp [step, outstanding, hgive, List.countP_cons]
      refine ⟨fun generation => ?_, ?_, ?_⟩
      · have hbound := h.bounded generation
        rw [hout]
        split_ifs with hgen
        · rw [← hgen]
          omega
        · exact hbound
      · simp only [step, CacheCall.apply, hgive, Option.toList_some, List.singleton_append,
          List.forall_mem_cons]
        exact ⟨hlatest.le, h.issued⟩
      · intro cached' hcache'
        simp only [step, CacheCall.apply, hgive] at hcache'
        cases hcache'
        rw [hout, if_pos rfl, ← hattempt]
        simp only [step, CacheCall.apply, hgive, Option.toList_some, List.singleton_append,
          List.forall_mem_cons]
        exact ⟨hlatest, trivial, fun _ => trivial, hval⟩

theorem Counted.store (credentials : TurnCredentials) (hn : s.cache.nextGeneration + 1 < 2 ^ 64) :
    (s.step (.store credentials)).Counted := by
  by_cases hb : s.cache.quotaBlocked = some credentials
  · have hr : s.step (.store credentials) = s := by
      simp [step, CacheCall.apply, CredentialCache.store, hb]
    rwa [hr]
  · have hg : max (min (s.cache.nextGeneration + 1) (2 ^ 64 - 1)) 1 =
        s.cache.nextGeneration + 1 := by omega
    have hs : s.step (.store credentials) =
        ⟨{ s.cache with
            quotaBlocked := none
            nextGeneration := s.cache.nextGeneration + 1
            current := some ⟨credentials, s.cache.nextGeneration + 1, 0, 0⟩ }, s.leases⟩ := by
      simp only [step, CacheCall.apply, CredentialCache.store, if_neg hb, hg]
    have hf : ∀ lease ∈ s.leases, lease.generation ≠ s.cache.nextGeneration + 1 := by
      intro lease hl
      have hi := h.issued lease hl
      omega
    rw [hs]
    refine ⟨h.bounded, fun lease hl => (h.issued lease hl).trans (Nat.le_succ _), ?_⟩
    intro cached hc
    cases hc
    refine ⟨rfl, ?_, fun lease hl heq => absurd heq (hf lease hl)⟩
    exact (List.countP_eq_zero.mpr fun lease hl => by simpa using hf lease hl).symm

theorem Counted.release (hlease : lease ∈ s.leases) : (s.step (.release lease)).Counted := by
  have hout : ∀ generation, (s.step (.release lease)).outstanding generation =
      s.outstanding generation - if lease.generation = generation then 1 else 0 := by
    simp [step, outstanding, List.countP_erase, hlease]
  have hsub : ∀ other ∈ (s.step (.release lease)).leases, other ∈ s.leases :=
    fun _ => List.mem_of_mem_erase
  have hbound : ∀ generation,
      (s.step (.release lease)).outstanding generation ≤ workersPerCredential := by
    intro generation
    rw [hout]
    exact (Nat.sub_le _ _).trans (h.bounded generation)
  obtain ⟨hnot, heq⟩ | ⟨cached, hcached, hback, heq⟩ := s.cache.onBacked_cases lease fun cached =>
      { s.cache with
        current := some { cached with allocationAttempts := cached.allocationAttempts - 1 } }
  · have hcache : (s.step (.release lease)).cache = s.cache := heq
    refine ⟨hbound, fun other hother => hcache ▸ h.issued other (hsub other hother), ?_⟩
    rw [hcache]
    intro cached hcached
    obtain ⟨hlatest, hattempt, hval⟩ := h.current cached hcached
    -- a lease of the current generation would have been backed
    have hother : lease.generation ≠ cached.generation := fun hgen =>
      hnot cached hcached ⟨hgen.symm, (hval lease hlease hgen).symm⟩
    rw [hout, if_neg hother]
    exact ⟨hlatest, hattempt, fun other hmem => hval other (hsub other hmem)⟩
  · have hcache : (s.step (.release lease)).cache = _ := heq
    obtain ⟨hlatest, hattempt, hval⟩ := h.current cached hcached
    refine ⟨hbound, fun other hother => hcache ▸ h.issued other (hsub other hother), ?_⟩
    rw [hcache]
    rintro _ ⟨⟩
    rw [hout, if_pos hback.1.symm, ← hattempt]
    exact ⟨hlatest, rfl, fun other hmem => hval other (hsub other hmem)⟩

theorem counted_step (ha : s.Allowed call)
    (hn : s.cache.nextGeneration + call.stored?.isSome.toNat < 2 ^ 64) : (s.step call).Counted := by
  cases call with
  | reserve => exact h.reserve
  | store credentials => exact h.store credentials hn
  | release lease => exact h.release (ha lease rfl)
  | nextQuotaDelay =>
    exact h.of_current rfl rfl fun cached hc => ⟨cached, hc, rfl, rfl, rfl⟩
  | recordAllocation lease =>
    refine h.onBacked lease (fun _ => rfl) ?_
    rintro cached _ ⟨⟩
    exact ⟨rfl, rfl, rfl⟩
  | invalidate lease | rotateAfterQuota lease => exact h.onBacked lease (fun _ => rfl) nofun
  | retryAfterMismatch lease =>
    refine h.onBacked lease (fun _ => rfl) fun cached cached' hc' => ?_
    split_ifs at hc'
    cases hc'
    exact ⟨rfl, rfl, rfl⟩

theorem counted_run {calls : List CacheCall} (ha : Runs.Along step Allowed s calls)
    (hs : s.cache.nextGeneration + calls.countP (·.stored?.isSome) < 2 ^ 64) :
    (calls.foldl step s).Counted := by
  induction calls generalizing s with
  | nil => exact h
  | cons call calls ih =>
    have hn : (s.step call).cache.nextGeneration ≤ _ := s.cache.nextGeneration_apply_le call
    have hc : (call :: calls).countP (·.stored?.isSome) =
        calls.countP (·.stored?.isSome) + call.stored?.isSome.toNat := by
      rw [List.countP_cons]
      cases call.stored?.isSome <;> rfl
    exact ih (counted_step h ha.1 (by omega)) ha.2 (by omega)

end

end LeasedCache

/-- At most eighteen leases of one generation are out, and a call with a lease of an
older generation than the current one leaves the cache as it is. -/
theorem leases_of_generation_le (calls : List CacheCall)
    (hallowed : Runs.Along LeasedCache.step LeasedCache.Allowed {} calls)
    (hstores : calls.countP (·.stored?.isSome) < 2 ^ 64) :
    let s : LeasedCache := calls.foldl LeasedCache.step {}
    (∀ generation, s.outstanding generation ≤ workersPerCredential) ∧
      ∀ (call : CacheCall) lease cached, call.lease? = some lease → s.cache.current = some cached →
        lease.generation < cached.generation → call.apply s.cache = s.cache := by
  have hs : LeasedCache.Counted {} := ⟨fun _ => Nat.zero_le _, nofun, nofun⟩
  have hc := LeasedCache.counted_run hs hallowed (by simpa using hstores)
  refine ⟨hc.bounded, fun call lease cached hl hcache holder => ?_⟩
  exact CacheCall.apply_of_older hl hcache holder

theorem leases_of_generation_le_reserved :
    let credentials : TurnCredentials := ⟨[], [], []⟩
    let calls : List CacheCall :=
      [.store credentials, .reserve, .release ⟨credentials, 1⟩, .store credentials, .reserve]
    let s : LeasedCache := calls.foldl LeasedCache.step {}
    (∀ generation, s.outstanding generation ≤ workersPerCredential) ∧
      (CacheCall.invalidate ⟨credentials, 1⟩).apply s.cache = s.cache := by
  intro credentials calls s
  have hr : Runs.Along LeasedCache.step LeasedCache.Allowed {} calls := by
    refine ⟨nofun, nofun, ?_, nofun, nofun, trivial⟩
    rintro _ ⟨⟩
    decide
  obtain ⟨hb, holder⟩ := leases_of_generation_le calls hr (by decide)
  exact ⟨hb, holder _ ⟨credentials, 1⟩ ⟨credentials, 2, 1, 0⟩ rfl rfl (by decide)⟩

/-! ## Credentials rejected for quota -/

/-- No reservation of the run hands out these credentials. -/
def Withheld (credentials : TurnCredentials) (cache : CredentialCache) (calls : List CacheCall) :
    Prop :=
  Runs.Along CacheCall.apply (fun cache call =>
    call = .reserve → cache.reserve.1.map (·.value) ≠ some credentials) cache calls

namespace CredentialCache

variable {cache : CredentialCache}

theorem rotateAfterQuota_of_rotated {delay : ℕ}
    (h : (cache.rotateAfterQuota lease).1 = .rotated delay) :
    (cache.rotateAfterQuota lease).2.current = none ∧
      (cache.rotateAfterQuota lease).2.quotaBlocked = some lease.value := by
  unfold rotateAfterQuota at h ⊢
  obtain ⟨hn, -⟩ | ⟨cached, -, hb, heq⟩ := cache.onBacked_cases lease fun cached =>
      { cache with
        current := none
        quotaBlocked := some cached.value
        quotaRetries := cache.quotaRetries + 1 }
  · cases hc : cache.current with
    | none => simp [hc] at h
    | some cached => simp [hc, hn cached hc] at h
  · rw [heq]
    exact ⟨rfl, congrArg some hb.2⟩

theorem current_store {credentials : TurnCredentials} (hs : call.stored? = some credentials)
    {cached : CachedCredentials} (h : (call.apply cache).current = some cached) :
    cache.current = some cached ∨ cached.value = credentials := by
  cases call <;> cases hs
  simp only [CacheCall.apply, store] at h
  split_ifs at h
  · exact .inl h
  · cases h
    exact .inr rfl

theorem reserve_value {credentials : TurnCredentials}
    (h : ∀ cached, cache.current = some cached → cached.value ≠ credentials) :
    cache.reserve.1.map (·.value) ≠ some credentials := by
  unfold reserve
  cases hc : cache.current with
  | none => nofun
  | some cached =>
    dsimp only
    split_ifs
    · nofun
    · exact fun heq => h cached hc (Option.some.inj heq)

end CredentialCache

variable {credentials : TurnCredentials} {cache : CredentialCache} {calls : List CacheCall}

/-- While another credential is current and the rejected one is not returned again. -/
theorem withheld_of_absent (ha : credentials ∉ calls.filterMap CacheCall.stored?)
    (h : ∀ cached, cache.current = some cached → cached.value ≠ credentials) :
    Withheld credentials cache calls := by
  induction calls generalizing cache with
  | nil => trivial
  | cons call calls ih =>
    refine ⟨fun _ => CredentialCache.reserve_value h, ?_⟩
    cases hs : call.stored? with
    | none =>
      rw [List.filterMap_cons_none hs] at ha
      refine ih ha fun cached' hc' => ?_
      obtain ⟨cached, hc, hv⟩ := (cache.kept_apply hs).current cached' hc'
      exact hv ▸ h cached hc
    | some other =>
      rw [List.filterMap_cons_some hs, List.mem_cons, not_or] at ha
      refine ih ha.2 fun cached' hc' => ?_
      obtain hr | hv := CredentialCache.current_store hs hc'
      · exact h cached' hr
      · exact hv ▸ Ne.symm ha.1

/-- Before another credential is returned, the rejected one is blocked. -/
theorem withheld_of_blocked (horder : (calls.filterMap CacheCall.stored?).Pairwise fun x y =>
      y = credentials → x = credentials) (hcurrent : cache.current = none)
    (hblock : cache.quotaBlocked = some credentials) : Withheld credentials cache calls := by
  induction calls generalizing cache with
  | nil => trivial
  | cons call calls ih =>
    refine ⟨fun _ => CredentialCache.reserve_value (by simp [hcurrent]), ?_⟩
    cases hstore : call.stored? with
    | none =>
      rw [List.filterMap_cons_none hstore] at horder
      have hkept := cache.kept_apply hstore
      refine ih horder (Option.eq_none_iff_forall_ne_some.mpr fun cached' hcache' => ?_) ?_
      · obtain ⟨cached, hcache, -⟩ := hkept.current cached' hcache'
        simp [hcurrent] at hcache
      · exact (hkept.blocked.resolve_right (not_not_intro hcurrent)).trans hblock
    | some other =>
      rw [List.filterMap_cons_some hstore, List.pairwise_cons] at horder
      cases call <;> cases hstore
      by_cases hother : other = credentials
      · have hrefuse : (CacheCall.store other).apply cache = cache := by
          simp [CacheCall.apply, CredentialCache.store, hblock, hother]
        rw [hrefuse]
        exact ih horder.2 hcurrent hblock
      · refine withheld_of_absent (fun hmem => hother (horder.1 _ hmem rfl)) ?_
        intro cached' hcache'
        obtain hrefuse | hval := CredentialCache.current_store rfl hcache'
        · simp [hcurrent] at hrefuse
        · exact hval ▸ hother

variable {answers : List TurnCredentials}

theorem exists_handed_of_unblocked (hb : cache.quotaBlocked = none) (hm : credentials ∈ answers) :
    ∃ calls, calls.filterMap CacheCall.stored? = answers ∧ ¬ Withheld credentials cache calls := by
  induction answers generalizing cache with
  | nil => cases hm
  | cons answer answers ih =>
    have hs : ((CacheCall.store answer).apply cache).quotaBlocked = none := by
      simp [CacheCall.apply, CredentialCache.store, hb]
    by_cases ha : answer = credentials
    · refine ⟨.store answer :: .reserve :: answers.map .store, ?_, fun h => h.2.1 rfl ?_⟩
      · have hr : (answers.map CacheCall.store).filterMap CacheCall.stored? = answers := by
          simp [List.filterMap_map, Function.comp_def, CacheCall.stored?]
        exact congrArg (answer :: ·) hr
      · simp [CacheCall.apply, CredentialCache.store, CredentialCache.reserve, hb, ha,
          workersPerCredential]
    · obtain ⟨calls, hc, hh⟩ := ih hs
        ((List.mem_cons.mp hm).resolve_left (Ne.symm ha))
      exact ⟨.store answer :: calls, by simp [CacheCall.stored?, hc], fun h => hh h.2⟩

theorem exists_handed_of_blocked (hb : cache.quotaBlocked = some credentials)
    (h : ¬ answers.Pairwise fun x y => y = credentials → x = credentials) :
    ∃ calls, calls.filterMap CacheCall.stored? = answers ∧ ¬ Withheld credentials cache calls := by
  induction answers with
  | nil => exact absurd .nil h
  | cons answer answers ih =>
    by_cases ha : answer = credentials
    · have hr : (CacheCall.store answer).apply cache = cache := by
        simp [CacheCall.apply, CredentialCache.store, hb, ha]
      obtain ⟨calls, hc, hh⟩ := ih fun ht =>
        h (List.pairwise_cons.mpr ⟨fun _ _ _ => ha, ht⟩)
      refine ⟨.store answer :: calls, by simp [CacheCall.stored?, hc], fun hall => hh ?_⟩
      exact hr ▸ hall.2
    · have hm : credentials ∈ answers := by
        by_contra habsent
        refine h (List.pairwise_cons.mpr ⟨fun y hy heq => absurd (heq ▸ hy) habsent, ?_⟩)
        exact List.pairwise_of_forall_mem_list fun _ _ y hy heq => absurd (heq ▸ hy) habsent
      have hu : ((CacheCall.store answer).apply cache).quotaBlocked = none := by
        simp [CacheCall.apply, CredentialCache.store, hb, Ne.symm ha]
      obtain ⟨calls, hc, hh⟩ := exists_handed_of_unblocked hu hm
      exact ⟨.store answer :: calls, by simp [CacheCall.stored?, hc], fun hall => hh hall.2⟩

/-- A credential rejected for quota stays out of every run with the given answers of the
provider exactly when it is not among them after a different one. -/
theorem withheld_after_rotation_iff (cache : CredentialCache) (lease : CredentialLease) (delay : ℕ)
    (hrotated : (cache.rotateAfterQuota lease).1 = .rotated delay)
    (answers : List TurnCredentials) : (∀ calls, calls.filterMap CacheCall.stored? = answers →
        Withheld lease.value (cache.rotateAfterQuota lease).2 calls) ↔
      answers.Pairwise fun x y => y = lease.value → x = lease.value := by
  obtain ⟨hc, hb⟩ := CredentialCache.rotateAfterQuota_of_rotated hrotated
  constructor
  · intro h
    by_contra ha
    obtain ⟨calls, hcall, hh⟩ := exists_handed_of_blocked hb ha
    exact hh (h calls hcall)
  · rintro h calls rfl
    exact withheld_of_blocked h hc hb

/-- The cache after one store and one reservation. -/
def rejectedCache (credentials : TurnCredentials) : CredentialCache :=
  { current := some ⟨credentials, 1, 1, 0⟩, nextGeneration := 1 }

theorem withheld_after_rotation_repeated :
    let first : TurnCredentials := ⟨['a'], [], []⟩
    let cache := (rejectedCache first).rotateAfterQuota ⟨first, 1⟩
    cache.1 = .rotated 100 ∧ Withheld first cache.2 [.store first, .reserve] :=
  ⟨rfl, (withheld_after_rotation_iff (rejectedCache ⟨['a'], [], []⟩) ⟨⟨['a'], [], []⟩, 1⟩ 100 rfl
    [⟨['a'], [], []⟩]).mpr (List.pairwise_singleton _ _) _ rfl⟩

/-- The provider alternates: the credential that was rejected first is handed out again. -/
theorem withheld_after_rotation_alternating :
    let first : TurnCredentials := ⟨['a'], [], []⟩
    let second : TurnCredentials := ⟨['b'], [], []⟩
    let cache := [.store first, .reserve].foldl (fun cache call => CacheCall.apply cache call) {}
    let rejected := cache.rotateAfterQuota ⟨first, 1⟩
    let later := [.store second, .reserve, .rotateAfterQuota ⟨second, 2⟩, .store first].foldl
      (fun cache call => CacheCall.apply cache call) rejected.2
    rejected.1 = .rotated 100 ∧ later.reserve.1 = some ⟨first, 3⟩ :=
  ⟨rfl, rfl⟩

end Csqtt
