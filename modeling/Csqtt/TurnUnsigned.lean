import Csqtt.TurnAuthenticated

/-!
# Attributes behind the MESSAGE-INTEGRITY

What is applied of a success response is the first attribute of its kind in the whole message, so
an attribute behind the MESSAGE-INTEGRITY counts if there is none before it. Two accepted responses
that are alike up to there lead to the same state if and only if what was read from behind agrees.
-/

namespace Csqtt
namespace Turn

open Buffer Stun

/-- The bytes up to the end of the MESSAGE-INTEGRITY are the same, apart from the length field. -/
def SignedAlike (w w' : Bytes) (m : Message) : Prop :=
  ∃ a, m.attributeOf attrMessageIntegrity = some a ∧ slice w 0 2 = slice w' 0 2 ∧
    slice w 4 (a.headerStart + 24) = slice w' 4 (a.headerStart + 24)

def signedAttribute (m : Message) (kind : UInt16) : Option Attribute :=
  (m.attributes.takeWhile (·.kind ≠ attrMessageIntegrity)).find? (·.kind = kind)

def unsignedAttribute (m : Message) (kind : UInt16) : Option Attribute :=
  (m.attributes.dropWhile (·.kind ≠ attrMessageIntegrity)).find? (·.kind = kind)

def unsignedLifetime (m : Message) : ℕ :=
  NativeCore.lifetimeSecs ((unsignedAttribute m attrLifetime).bind valueU32)

def unsignedRelay (m : Message) : Option (Except TurnError SocketAddr) :=
  (unsignedAttribute m attrXorRelayedAddress).map fun a => decodeXorAddress a.value m.transaction

/-- What the operation reads from behind the MESSAGE-INTEGRITY is the same. -/
structure UnsignedAgree (operation : Operation) (m m' : Message) : Prop where
  lifetime : operation = .allocate ∨ operation = .refresh → signedAttribute m attrLifetime = none →
    unsignedLifetime m = unsignedLifetime m'
  relay : operation = .allocate → signedAttribute m attrXorRelayedAddress = none →
    unsignedRelay m = unsignedRelay m'

theorem attributeOf_eq_or (m : Message) (kind : UInt16) :
    m.attributeOf kind = (signedAttribute m kind).or (unsignedAttribute m kind) := by
  rw [Message.attributeOf, signedAttribute, unsignedAttribute, ← List.find?_append,
    List.takeWhile_append_dropWhile]

def appliedLifetime (m : Message) : ℕ := NativeCore.lifetimeSecs (attributeU32 m attrLifetime)

def appliedRelay (m : Message) : Option (Except TurnError SocketAddr) :=
  (m.attributeOf attrXorRelayedAddress).map fun a => decodeXorAddress a.value m.transaction

structure SameSigned (m m' : Message) : Prop where
  kind : m'.kind = m.kind
  transaction : m'.transaction = m.transaction
  signed : ∀ kind, signedAttribute m' kind = signedAttribute m kind

variable {m m' : Message}

theorem SameSigned.answeredBy (h : SameSigned m m') (p : Pending) :
    p.answeredBy m' = p.answeredBy m := by
  rw [Pending.answeredBy, Pending.answeredBy, h.transaction, Message.method, Message.method, h.kind]

theorem SameSigned.lifetime_iff (h : SameSigned m m') : appliedLifetime m = appliedLifetime m' ↔
      (signedAttribute m attrLifetime = none → unsignedLifetime m = unsignedLifetime m') := by
  rw [appliedLifetime, appliedLifetime, attributeU32, attributeU32, attributeOf_eq_or,
    attributeOf_eq_or, h.signed]
  cases hs : signedAttribute m attrLifetime with
  | none =>
    exact ⟨fun heq _ => heq, fun heq => heq rfl⟩
  | some a =>
    exact ⟨fun _ hn => (Option.some_ne_none a hn).elim, fun _ => rfl⟩

theorem SameSigned.relay_iff (h : SameSigned m m') : appliedRelay m = appliedRelay m' ↔
      (signedAttribute m attrXorRelayedAddress = none → unsignedRelay m = unsignedRelay m') := by
  rw [appliedRelay, appliedRelay, attributeOf_eq_or, attributeOf_eq_or, h.signed]
  cases hs : signedAttribute m attrXorRelayedAddress with
  | none =>
    exact ⟨fun heq _ => heq, fun heq => heq rfl⟩
  | some a =>
    rw [h.transaction]
    exact ⟨fun _ hn => (Option.some_ne_none a hn).elim, fun _ => rfl⟩

/-- Messages that are alike up to the MESSAGE-INTEGRITY have the same attributes before it. -/
theorem sameSigned_of_alike {w w' : Bytes} (hm : Message.decode w = .ok m)
    (hm' : Message.decode w' = .ok m') (h : SignedAlike w w' m)
    (hlen : ∀ a, m.attributeOf attrMessageIntegrity = some a → a.value.length = 20) :
    SameSigned m m' := by
  have hd := Message.decoded_of_decode hm
  have hd' := Message.decoded_of_decode hm'
  obtain ⟨a, ha, hkind, hslice⟩ := h
  obtain ⟨hmi, pre, post, hsplit, hpre⟩ := List.find?_eq_some_iff_append.mp ha
  have htiles := hd.tiles
  have hbound := htiles.le_of_mem (hsplit ▸ List.mem_append_right pre List.mem_cons_self)
  rw [hlen a ha] at hbound
  have hagree := agree_of_slice_eq hslice
  have hlim : a.headerStart + 24 ≤ w'.length := by
    have hlengths := congrArg List.length hslice
    rw [slice, slice, List.length_drop, List.length_drop, List.length_take,
      List.length_take] at hlengths
    omega
  have hattr' : ∃ post', m'.attributes = pre ++ a :: post' := by
    rw [Message.attributes, hd'.raw_eq, hd'.stop_eq]
    rw [hsplit] at htiles
    rw [Message.attributes, hd.raw_eq, hd.stop_eq] at hsplit
    exact hagree.attributesFrom_eq htiles hsplit (by rw [hlen a ha]) hlim (by decide)
      (Nat.sub_le _ _)
  obtain ⟨post', hsplit'⟩ := hattr'
  have htake : ∀ rest : List Attribute,
      (pre ++ a :: rest).takeWhile (·.kind ≠ attrMessageIntegrity) = pre := by
    intro rest
    rw [List.takeWhile_append_of_pos (by simpa using hpre),
      List.takeWhile_cons_of_neg (by simpa using hmi), List.append_nil]
  refine ⟨?_, ?_, fun kind => ?_⟩
  · rw [hd'.kind_eq, hd.kind_eq, u16At, u16At, hkind]
  · have hbytes : m'.transaction.bytes = m.transaction.bytes := by
      rw [hd'.transaction_eq, hd.transaction_eq]
      exact (hagree 8 20 (by decide) (by decide) (by omega)).symm
    exact TransactionId.mk.injEq .. ▸ hbytes
  · rw [signedAttribute, signedAttribute, hsplit, hsplit', htake, htake]

namespace NativeCore

variable (prims : Primitives)

/-- A success response to a pending authenticated request is accepted. -/
structure Accepts (c : NativeCore) (packet : Bytes) (io : TurnIo) (m : Message) (p : Pending) :
    Prop where
  decoded : Message.decode packet = .ok m
  success : m.messageClass = .success
  found : c.pending.find? (·.answeredBy m) = some p
  authenticated : p.authenticated = true
  result : (c.inputStun prims packet io).2 = 0

variable {m m' : Message} {c : NativeCore} {io : TurnIo}

theorem applySuccess_eq_zero {p : Pending} (h : (c.applySuccess prims m p io).2 = 0) :
    (c.applySuccess prims m p io).1 = (c.completeSuccess prims p.operation m io).1 ∧
      (c.completeSuccess prims p.operation m io).2 = .ok () := by
  unfold applySuccess at h ⊢
  cases hc : c.completeSuccess prims p.operation m io with
  | mk _ outcome =>
    cases outcome with
    | ok => exact ⟨rfl, rfl⟩
    | error =>
      rw [hc] at h
      cases h

theorem Accepts.applied {packet : Bytes} {p : Pending} (h : Accepts prims c packet io m p) :
    verifyIntegrity prims packet m c.key = true ∧
      (c.inputStun prims packet io).1 = ((c.answered m).completeSuccess prims p.operation m io).1 ∧
      ((c.answered m).completeSuccess prims p.operation m io).2 = .ok () := by
  have hr := h.result
  have he : m.messageClass ≠ .error := by
    rw [h.success]
    decide
  unfold inputStun at hr ⊢
  rw [h.decoded] at hr ⊢
  dsimp only at hr ⊢
  rw [if_neg (fun hc => hc.1 h.success)] at hr ⊢
  by_cases hfirst : m.fingerprintValid prims.crc32 = some false
  · rw [if_pos hfirst] at hr
    cases hr
  · rw [if_neg hfirst, h.found] at hr ⊢
    dsimp only at hr ⊢
    by_cases hf : c.isForged prims packet m p = true
    · rw [if_pos hf] at hr
      cases hr
    · rw [if_neg hf, onResponse, if_neg (by simp [h.authenticated]), if_neg he] at hr ⊢
      exact ⟨verified_of_not_isForged prims h.success h.authenticated
        (Bool.eq_false_iff.mpr hf), applySuccess_eq_zero prims hr⟩

theorem integrity_length {packet : Bytes} {key : Option Bytes}
    (h : verifyIntegrity prims packet m key = true) {a : Attribute}
    (ha : m.attributeOf attrMessageIntegrity = some a) : a.value.length = 20 := by
  unfold verifyIntegrity at h
  rw [ha] at h
  cases key with
  | none => cases h
  | some =>
    dsimp only at h
    split_ifs at h with hb
    exact not_not.mp (not_or.mp hb).1

variable {returned returned' : Option ℕ}

theorem allocationRefreshDeadline_eq (now interval : ℕ)
    (h : lifetimeSecs returned = lifetimeSecs returned') :
    allocationRefreshDeadline now returned interval =
      allocationRefreshDeadline now returned' interval := by
  unfold lifetimeSecs at h
  rw [allocationRefreshDeadline, allocationRefreshDeadline, h]

theorem refreshed_eq (c : NativeCore) (now : ℕ)
    (h : lifetimeSecs returned = lifetimeSecs returned') :
    c.refreshed returned now = c.refreshed returned' now := by
  rw [refreshed, refreshed, allocationRefreshDeadline_eq _ _ h, h]

theorem lifetimeSecs_of_expires {now : ℕ}
    (h : some (now + secs (lifetimeSecs returned)) = some (now + secs (lifetimeSecs returned'))) :
    lifetimeSecs returned = lifetimeSecs returned' := by
  have hs := Nat.add_left_cancel (Option.some.inj h)
  unfold secs at hs
  omega

theorem enterAllocation_keeps (c : NativeCore) (io : TurnIo) :
    (c.enterAllocation prims io).1.relay = c.relay ∧
      (c.enterAllocation prims io).1.allocationExpiresAt = c.allocationExpiresAt := by
  unfold enterAllocation
  split_ifs
  · dsimp only
    split
    · exact ⟨relay_setState c _, allocationExpiresAt_setState c _⟩
    · rename_i hs
      obtain ⟨controls, events, pending, requests, rfl⟩ := startOperation_eq prims hs
      exact ⟨relay_setState c _, allocationExpiresAt_setState c _⟩
  · exact ⟨relay_setState c _, allocationExpiresAt_setState c _⟩

theorem completeSuccess_allocate (h : (c.completeSuccess prims .allocate m io).2 = .ok ()) :
    ∃ relay, appliedRelay m = some (.ok relay) ∧ c.completeSuccess prims .allocate m io =
      (c.allocated relay (attributeU32 m attrLifetime) io.now).enterAllocation prims io := by
  unfold completeSuccess at h ⊢
  unfold appliedRelay
  cases ha : m.attributeOf attrXorRelayedAddress with
  | none =>
    rw [ha] at h
    cases h
  | some a =>
    rw [ha] at h
    dsimp only at h ⊢
    cases hr : decodeXorAddress a.value m.transaction with
    | error =>
      rw [hr] at h
      cases h
    | ok relay =>
      rw [hr] at h
      dsimp only at h ⊢
      split_ifs at h ⊢
      exact ⟨relay, by rw [Option.map_some, hr], rfl⟩

theorem completeSuccess_allocate_iff (h : (c.completeSuccess prims .allocate m io).2 = .ok ())
    (h' : (c.completeSuccess prims .allocate m' io).2 = .ok ()) :
    (c.completeSuccess prims .allocate m io).1 = (c.completeSuccess prims .allocate m' io).1 ↔
      appliedLifetime m = appliedLifetime m' ∧ appliedRelay m = appliedRelay m' := by
  obtain ⟨relay, hr, heq⟩ := completeSuccess_allocate prims h
  obtain ⟨relay', hr', he'⟩ := completeSuccess_allocate prims h'
  rw [heq, he', hr, hr']
  constructor
  · intro hs
    have hf := enterAllocation_keeps prims
      (c.allocated relay (attributeU32 m attrLifetime) io.now) io
    have hf' := enterAllocation_keeps prims
      (c.allocated relay' (attributeU32 m' attrLifetime) io.now) io
    rw [hs] at hf
    refine ⟨lifetimeSecs_of_expires (hf.2.symm.trans hf'.2), ?_⟩
    rw [Option.some.inj (hf.1.symm.trans hf'.1)]
  · rintro ⟨hl, hrelays⟩
    cases hrelays
    rw [allocated, allocated, refreshed_eq c io.now hl]

theorem completeSuccess_refresh_iff (h : (c.completeSuccess prims .refresh m io).2 = .ok ())
    (h' : (c.completeSuccess prims .refresh m' io).2 = .ok ()) :
    (c.completeSuccess prims .refresh m io).1 = (c.completeSuccess prims .refresh m' io).1 ↔
      appliedLifetime m = appliedLifetime m' := by
  unfold completeSuccess at h h' ⊢
  dsimp only at h h' ⊢
  split_ifs at h h' ⊢
  constructor
  · intro hs
    exact lifetimeSecs_of_expires (congrArg allocationExpiresAt hs)
  · intro hl
    rw [refreshed_eq c io.now hl]

theorem completeSuccess_iff {operation : Operation}
    (h : (c.completeSuccess prims operation m io).2 = .ok ())
    (h' : (c.completeSuccess prims operation m' io).2 = .ok ()) :
    (c.completeSuccess prims operation m io).1 = (c.completeSuccess prims operation m' io).1 ↔
      (operation = .allocate ∨ operation = .refresh → appliedLifetime m = appliedLifetime m') ∧
      (operation = .allocate → appliedRelay m = appliedRelay m') := by
  cases operation with
  | allocate =>
    rw [completeSuccess_allocate_iff prims h h']
    exact ⟨fun hr => ⟨fun _ => hr.1, fun _ => hr.2⟩,
      fun hr => ⟨hr.1 (.inl rfl), hr.2 rfl⟩⟩
  | refresh =>
    rw [completeSuccess_refresh_iff prims h h']
    exact ⟨fun hr => ⟨fun _ => hr, fun ho => by cases ho⟩,
      fun hr => hr.1 (.inr rfl)⟩
  | deallocate =>
    refine ⟨fun _ => ⟨by simp, by simp⟩, fun _ => ?_⟩
    unfold completeSuccess at h h' ⊢
    dsimp only at h h' ⊢
    split_ifs at h h' ⊢
    rfl
  | permission | channel => exact ⟨fun _ => ⟨by simp, by simp⟩, fun _ => rfl⟩

/-- Two accepted success responses to the same authenticated request, alike up to their
MESSAGE-INTEGRITY, lead to the same state exactly if what is read from behind it agrees. -/
theorem unsigned_attributes_iff (c : NativeCore) (io : TurnIo) (w w' : Bytes) (m m' : Message)
    (p : Pending) (h : Accepts prims c w io m p) (h' : Accepts prims c w' io m' p)
    (halike : SignedAlike w w' m) :
    (c.inputStun prims w io).1 = (c.inputStun prims w' io).1 ↔ UnsignedAgree p.operation m m' := by
  obtain ⟨hv, hstate, hok⟩ := h.applied
  obtain ⟨-, hs', ho'⟩ := h'.applied
  have hs := sameSigned_of_alike h.decoded h'.decoded halike
    fun a ha => integrity_length prims hv ha
  have hanswered : c.answered m' = c.answered m := by
    rw [answered, answered, hs.transaction, funext hs.answeredBy]
  rw [hanswered] at hs' ho'
  rw [hstate, hs', completeSuccess_iff prims hok ho', hs.lifetime_iff, hs.relay_iff]
  exact ⟨fun hr => ⟨hr.1, hr.2⟩, fun hr => ⟨hr.lifetime, hr.relay⟩⟩

end NativeCore

namespace Recorded

def bareBody : MessageBuilder :=
  (MessageBuilder.withTransaction 0x0103 second).pushXorAddress attrXorRelayedAddress
    (localhost 50000)

/-- A success response without a lifetime, up to its MESSAGE-INTEGRITY. -/
def signedBody : MessageBuilder :=
  bareBody.push attrMessageIntegrity
    (primitives.hmacSha1 (primitives.md5 [])
      ((setMessageLength bareBody.bytes 24).toOption.getD []))

/-- The response with other attributes behind the MESSAGE-INTEGRITY. -/
def bare (rest : List (UInt16 × Bytes)) : Bytes :=
  (setMessageLength (rest.foldl (fun b a => b.push a.1 a.2) signedBody).bytes 0).toOption.getD []

def software : UInt16 × Bytes := (0x8022, [0x78])

def hour : UInt16 × Bytes := (attrLifetime, BigEndian.encode 4 3600)

def plain : Message := (Message.decode (bare [])).toOption.get (by decide +kernel)
def named : Message := (Message.decode (bare [software])).toOption.get (by decide +kernel)
def longer : Message := (Message.decode (bare [hour])).toOption.get (by decide +kernel)

def integrity : Attribute := (plain.attributeOf attrMessageIntegrity).get (by decide +kernel)

theorem accepts_plain :
    NativeCore.Accepts primitives challenged (bare []) (io second 2) plain request :=
  ⟨by decide +kernel, by decide +kernel, by decide +kernel, by decide +kernel, by decide +kernel⟩

end Recorded

/-- A lifetime behind the MESSAGE-INTEGRITY is applied. -/
theorem unsigned_lifetime_applied :
    NativeCore.Accepts Recorded.primitives Recorded.challenged (Recorded.bare [])
      (Recorded.io Recorded.second 2) Recorded.plain Recorded.request ∧
    NativeCore.Accepts Recorded.primitives Recorded.challenged (Recorded.bare [Recorded.hour])
      (Recorded.io Recorded.second 2) Recorded.longer Recorded.request ∧
    SignedAlike (Recorded.bare []) (Recorded.bare [Recorded.hour]) Recorded.plain ∧
    (Recorded.challenged.inputStun Recorded.primitives (Recorded.bare [])
      (Recorded.io Recorded.second 2)).1.allocationExpiresAt = some (2 + secs 600) ∧
    (Recorded.challenged.inputStun Recorded.primitives (Recorded.bare [Recorded.hour])
      (Recorded.io Recorded.second 2)).1.allocationExpiresAt = some (2 + secs 3600) := by
  refine ⟨Recorded.accepts_plain, ⟨?_, ?_, ?_, ?_, ?_⟩, ⟨Recorded.integrity, ?_, ?_, ?_⟩, ?_, ?_⟩
  all_goals decide +kernel

/-- The theorem at an attribute that nothing reads. -/
theorem unsigned_software_ignored :
    (Recorded.challenged.inputStun Recorded.primitives (Recorded.bare [])
      (Recorded.io Recorded.second 2)).1 =
    (Recorded.challenged.inputStun Recorded.primitives (Recorded.bare [Recorded.software])
      (Recorded.io Recorded.second 2)).1 := by
  apply (NativeCore.unsigned_attributes_iff Recorded.primitives Recorded.challenged
    (Recorded.io Recorded.second 2) (Recorded.bare []) (Recorded.bare [Recorded.software])
    Recorded.plain Recorded.named Recorded.request Recorded.accepts_plain ⟨?_, ?_, ?_, ?_, ?_⟩
    ⟨Recorded.integrity, ?_, ?_, ?_⟩).mpr
  · exact ⟨fun _ _ => by decide +kernel, fun _ hn => absurd hn (by decide +kernel)⟩
  all_goals decide +kernel

end Turn
end Csqtt
