import Csqtt.StunWire
import Csqtt.TurnAuthenticated

/-!
# The requests of the TURN core

What `build_request` puts into a packet: the attributes of the operation, the credentials, the
integrity and the fingerprint. The packet is decoded to exactly these, its fingerprint and its
integrity are valid, and its size is the sum of the padded attributes.
-/

namespace Csqtt

namespace Stun

open Buffer

variable {as : List (UInt16 × Bytes)}

theorem placed_pairs (position : ℕ) (as : List (UInt16 × Bytes)) :
    (placed position as).map (fun a => (a.kind, a.value)) =
      as.map fun a => (attributeKind a.1.toNat, a.2) := by
  induction as generalizing position with
  | nil => rfl
  | cons _ _ ih => rw [placed, List.map_cons, List.map_cons, ih]

/-- The kinds of the attributes that the core sends, which are read as they are. -/
def Plain (kind : UInt16) : Prop := attributeKind kind.toNat = kind

theorem placed_ne {position : ℕ} {kind : UInt16} (hp : ∀ a ∈ as, Plain a.1)
    (hne : ∀ a ∈ as, a.1 ≠ kind) : ∀ a ∈ placed position as, ¬ a.kind = kind := by
  induction as generalizing position with
  | nil => exact fun a ha => absurd ha List.not_mem_nil
  | cons b _ ih =>
    intro a ha
    obtain rfl | ha := List.mem_cons.mp ha
    · have hk : attributeKind b.1.toNat = b.1 := hp b List.mem_cons_self
      rw [hk]
      exact hne b List.mem_cons_self
    · exact ih (fun c hc => hp c (List.mem_cons_of_mem b hc))
        (fun c hc => hne c (List.mem_cons_of_mem b hc)) a ha

theorem find_placed {kind : UInt16} {value : Bytes} {after : List (UInt16 × Bytes)}
    (hp : ∀ a ∈ as, Plain a.1) (hk : Plain kind) (hne : ∀ a ∈ as, a.1 ≠ kind) :
    (placed 20 (as ++ (kind, value) :: after)).find? (·.kind = kind) =
      some ⟨kind, value, 20 + wireSize as⟩ := by
  have hb : (placed 20 as).find? (·.kind = kind) = none := by
    refine List.find?_eq_none.mpr fun a ha => ?_
    rw [decide_eq_true_eq]
    exact placed_ne hp hne a ha
  have hk' : attributeKind kind.toNat = kind := hk
  rw [placed_append, List.find?_append, hb, Option.none_or, placed, hk',
    List.find?_cons_of_pos (by simp)]

end Stun

namespace Turn

open Buffer Stun MessageBuilder

section Sealed

variable {prims : Primitives} {kind : ℕ} {transaction : TransactionId} {as : List (UInt16 × Bytes)}
  {m : Message}

theorem fingerprintValid_finished (hp : ∀ a ∈ as, Plain a.1)
    (hne : ∀ a ∈ as, a.1 ≠ attrFingerprint)
    (hr : m.raw = framed kind (wireSize as + 8) transaction
      (as ++ [fingerprint prims kind transaction as]))
    (hs : m.stop = 20 + (wireSize as + 8)) (ha : m.attributes =
      placed 20 (as ++ [fingerprint prims kind transaction as])) :
    m.fingerprintValid prims.crc32 = some true := by
  have hf : m.attributeOf attrFingerprint =
      some ⟨attrFingerprint, (fingerprint prims kind transaction as).2, 20 + wireSize as⟩ := by
    rw [Message.attributeOf, ha]
    exact find_placed hp rfl hne
  have ht : m.raw.take (20 + wireSize as) = framed kind (wireSize as + 8) transaction as := by
    rw [hr, framed_append]
    exact List.take_left' (length_framed ..)
  have hl : (fingerprint prims kind transaction as).2.length = 4 := BigEndian.length_encode ..
  have hlast : 20 + wireSize as + 8 = m.stop := by rw [hs, Nat.add_assoc]
  rw [Message.fingerprintValid, hf, Option.map_some,
    if_neg (fun h => h.elim (fun h => h hl) (fun h => h hlast)), ht,
    fingerprint, BigEndian.value_encode_of_lt (UInt32.toNat_lt _), UInt32.ofNat_toNat]
  exact congrArg some (decide_eq_true rfl)

theorem verifyIntegrity_finished {key : Bytes} {after : List (UInt16 × Bytes)} {length : ℕ}
    (hp : ∀ a ∈ as, Plain a.1) (hne : ∀ a ∈ as, a.1 ≠ attrMessageIntegrity)
    (hs : wireSize as + 24 < 2 ^ 16) (ha : m.attributes =
      placed 20 (as ++ integrity prims key kind transaction as :: after)) :
    verifyIntegrity prims (framed kind length transaction
      (as ++ integrity prims key kind transaction as :: after)) m (some key) = true := by
  have hf : m.attributeOf attrMessageIntegrity = some
      ⟨attrMessageIntegrity, (integrity prims key kind transaction as).2, 20 + wireSize as⟩ := by
    rw [Message.attributeOf, ha]
    exact find_placed hp rfl hne
  have ht : (framed kind length transaction
      (as ++ integrity prims key kind transaction as :: after)).take (20 + wireSize as) =
        framed kind length transaction as := by
    rw [framed_append]
    exact List.take_left' (length_framed ..)
  have hl : (integrity prims key kind transaction as).2.length = 20 := prims.hmacSha1_length ..
  have hc : 20 + wireSize as + 24 - 20 = wireSize as + 24 := by omega
  unfold verifyIntegrity
  rw [hf]
  dsimp only
  rw [if_neg (by omega), hc, if_neg (Nat.not_le.mpr hs), signedPart, ht,
    hc]
  exact decide_eq_true rfl

end Sealed

namespace NativeCore

variable {prims : Primitives} {c : NativeCore} {operation : Operation} {transaction : TransactionId}
  {authenticated : Bool} {packet : Bytes}

def requestAttributes (c : NativeCore) (operation : Operation) (transaction : TransactionId) :
    List (UInt16 × Bytes) :=
  match operation with
  | .allocate =>
    [(attrRequestedTransport, [17, 0, 0, 0]),
      (attrRequestedAddressFamily, [c.peer.family.code, 0, 0, 0]),
      (attrLifetime, BigEndian.encode 4 requestedAllocationLifetimeSecs)]
  | .refresh => [(attrLifetime, BigEndian.encode 4 requestedAllocationLifetimeSecs)]
  | .deallocate => [(attrLifetime, BigEndian.encode 4 0)]
  | .permission => [(attrXorPeerAddress, encodeXorAddress c.peer transaction)]
  | .channel =>
    [(attrChannelNumber, [0x40, 0, 0, 0]),
      (attrXorPeerAddress, encodeXorAddress c.peer transaction)]

def credentialAttributes (c : NativeCore) : List (UInt16 × Bytes) :=
  [(attrUsername, c.username), (attrRealm, c.realm.getD []), (attrNonce, c.nonce.getD [])]

def requestBefore (prims : Primitives) (c : NativeCore) (operation : Operation)
    (transaction : TransactionId) (authenticated : Bool) : List (UInt16 × Bytes) :=
  if authenticated then
    let as := c.requestAttributes operation transaction ++ c.credentialAttributes
    as ++ [integrity prims (c.key.getD []) operation.method transaction as]
  else c.requestAttributes operation transaction

def requestAll (prims : Primitives) (c : NativeCore) (operation : Operation)
    (transaction : TransactionId) (authenticated : Bool) : List (UInt16 × Bytes) :=
  c.requestBefore prims operation transaction authenticated ++
    [fingerprint prims operation.method transaction
      (c.requestBefore prims operation transaction authenticated)]

theorem requestBody_eq (c : NativeCore) (operation : Operation) (transaction : TransactionId) :
    c.requestBody operation transaction =
      holding operation.method 0 transaction (c.requestAttributes operation transaction) := by
  unfold requestBody
  dsimp only
  rw [withTransaction_eq]
  cases operation with
  | allocate =>
    rw [push_holding, push_holding, push_holding]
    rfl
  | refresh | deallocate => exact push_holding ..
  | permission => exact pushXorAddress_holding ..
  | channel =>
    dsimp only
    rw [push_holding, pushXorAddress_holding]
    rfl

/-- A request is built if it has a key where it needs one and its length fits the field. -/
theorem buildRequest_eq (prims : Primitives) (c : NativeCore) (operation : Operation)
    (transaction : TransactionId) (hk : authenticated = true → c.key.isSome) :
    c.buildRequest prims operation transaction authenticated =
      if wireSize (c.requestAll prims operation transaction authenticated) < 2 ^ 16 then
        .ok (framed operation.method
          (wireSize (c.requestAll prims operation transaction authenticated)) transaction
          (c.requestAll prims operation transaction authenticated))
      else .error .messageTooLarge := by
  unfold buildRequest
  rw [requestBody_eq]
  cases authenticated with
  | false => exact finish_holding ..
  | true =>
    obtain ⟨key, hk⟩ := Option.isSome_iff_exists.mp (hk rfl)
    rw [if_pos rfl, push_holding, push_holding, push_holding, List.append_assoc,
      List.append_assoc]
    rw [requestAll, requestBefore, hk]
    exact finishAuthenticated_holding ..

theorem buildRequest_ok
    (h : c.buildRequest prims operation transaction authenticated = .ok packet) :
    (authenticated = true → c.key.isSome) ∧
      wireSize (c.requestAll prims operation transaction authenticated) < 2 ^ 16 ∧
      packet = framed operation.method
        (wireSize (c.requestAll prims operation transaction authenticated)) transaction
        (c.requestAll prims operation transaction authenticated) := by
  have hk : authenticated = true → c.key.isSome := by
    rintro rfl
    cases hk : c.key with
    | none =>
      rw [buildRequest, hk] at h
      cases h
    | some => rfl
  rw [buildRequest_eq prims c operation transaction hk] at h
  split_ifs at h with hs
  cases h
  exact ⟨hk, hs, rfl⟩

/-- The kinds of a request, each of which is read as it is, and what they are not. -/
theorem requestAttributes_kinds (c : NativeCore) (operation : Operation)
    (transaction : TransactionId) :
    ∀ a ∈ c.requestAttributes operation transaction ++ c.credentialAttributes,
      Plain a.1 ∧ a.1 ≠ attrMessageIntegrity ∧ a.1 ≠ attrFingerprint := by
  have hk : ∀ kind ∈ (c.requestAttributes operation transaction ++ c.credentialAttributes).map
      Prod.fst, attributeKind kind.toNat = kind ∧ kind ≠ attrMessageIntegrity ∧
        kind ≠ attrFingerprint := by
    cases operation <;>
      simp only [requestAttributes, credentialAttributes, List.map_append, List.map_cons,
        List.map_nil, List.forall_mem_append, List.forall_mem_cons, List.not_mem_nil, false_imp_iff,
        forall_const] <;> decide
  exact fun a ha => hk a.1 (List.mem_map_of_mem ha)

theorem requestBefore_kinds (prims : Primitives) (c : NativeCore) (operation : Operation)
    (transaction : TransactionId) (authenticated : Bool) :
    ∀ a ∈ c.requestBefore prims operation transaction authenticated,
      Plain a.1 ∧ a.1 ≠ attrFingerprint := by
  have hk := requestAttributes_kinds c operation transaction
  unfold requestBefore
  split_ifs
  · intro a ha
    obtain ha | ha := List.mem_append.mp ha
    · exact ⟨(hk a ha).1, (hk a ha).2.2⟩
    · rw [List.mem_singleton.mp ha]
      have hne : attrMessageIntegrity ≠ attrFingerprint := by decide
      exact ⟨rfl, hne⟩
  · intro a ha
    have hb := hk a (List.mem_append_left _ ha)
    exact ⟨hb.1, hb.2.2⟩

theorem requestAll_plain (prims : Primitives) (c : NativeCore) (operation : Operation)
    (transaction : TransactionId) (authenticated : Bool) :
    (c.requestAll prims operation transaction authenticated).map
      (fun a => (attributeKind a.1.toNat, a.2)) =
        c.requestAll prims operation transaction authenticated := by
  have hp : ∀ a ∈ c.requestAll prims operation transaction authenticated, Plain a.1 := by
    intro a ha
    obtain ha | ha := List.mem_append.mp ha
    · exact (requestBefore_kinds prims c operation transaction authenticated a ha).1
    · rw [List.mem_singleton.mp ha]
      rfl
  calc (c.requestAll prims operation transaction authenticated).map
        (fun a => (attributeKind a.1.toNat, a.2))
      = (c.requestAll prims operation transaction authenticated).map id :=
        List.map_congr_left fun a ha => Prod.ext (hp a ha) rfl
    _ = c.requestAll prims operation transaction authenticated := List.map_id _

theorem xor_of_mem {value : Bytes}
    (h : (attrXorPeerAddress, value) ∈ c.requestAll prims operation transaction authenticated) :
    value = encodeXorAddress c.peer transaction := by
  unfold requestAll requestBefore requestAttributes credentialAttributes fingerprint integrity at h
  cases operation <;> cases authenticated <;>
    simp [attrXorPeerAddress, attrFingerprint, attrMessageIntegrity, attrUsername, attrRealm,
      attrNonce,
      attrLifetime, attrChannelNumber, attrRequestedTransport, attrRequestedAddressFamily] at h <;>
    exact h

theorem decode_request (h : c.buildRequest prims operation transaction authenticated = .ok packet) :
    ∃ m, Message.decode packet = .ok m ∧ m.raw = packet ∧ m.kind = UInt16.ofNat operation.method ∧
      m.transaction = transaction ∧
      m.stop = 20 + wireSize (c.requestAll prims operation transaction authenticated) ∧
      m.attributes = placed 20 (c.requestAll prims operation transaction authenticated) := by
  obtain ⟨-, hs, rfl⟩ := buildRequest_ok h
  have hb : UInt16.ofNat operation.method &&& 0xc000 = 0 := by cases operation <;> rfl
  have hz : UInt16.ofNat operation.method ≠ 0 := by cases operation <;> decide
  have hk : operation.method < 2 ^ 16 := by cases operation <;> decide
  refine ⟨_, decode_framed hk hb hz hs, rfl, rfl, rfl, rfl, ?_⟩
  exact attributes_framed hs _ _ rfl rfl

theorem wireSize_requestAll (prims : Primitives) (c : NativeCore) (operation : Operation)
    (transaction : TransactionId) (authenticated : Bool) :
    wireSize (c.requestAll prims operation transaction authenticated) =
      wireSize (c.requestBefore prims operation transaction authenticated) + 8 :=
      wireSize_fingerprint

theorem length_encodeXorAddress (a : SocketAddr) (transaction : TransactionId) :
    (encodeXorAddress a transaction).length = 4 + a.family.octets := by
  obtain ⟨family, ip, port, hip⟩ := a
  cases family with
  | v4 => simp [encodeXorAddress, Family.octets]
  | v6 => simp [encodeXorAddress, Family.octets, length_addressMask, hip]

def bodySize : Operation → Family → ℕ
  | .allocate, _ => 24
  | .refresh, _ => 8
  | .deallocate, _ => 8
  | .permission, .v4 => 12
  | .permission, .v6 => 24
  | .channel, .v4 => 20
  | .channel, .v6 => 32

theorem wireSize_requestAttributes (c : NativeCore) (operation : Operation)
    (transaction : TransactionId) :
    wireSize (c.requestAttributes operation transaction) = bodySize operation c.peer.family := by
  have hx := length_encodeXorAddress c.peer transaction
  cases operation <;>
    simp only [requestAttributes, wireSize_cons, BigEndian.length_encode, hx] <;>
    cases c.peer.family <;> rfl

theorem bodySize_le (operation : Operation) (family : Family) : bodySize operation family ≤ 32 := by
  cases operation <;> cases family <;> decide

def credentialSize (username realm nonce : Bytes) : ℕ :=
  (4 + padded username.length) + (4 + padded realm.length) + (4 + padded nonce.length)

theorem wireSize_requestBefore (prims : Primitives) (c : NativeCore) (operation : Operation)
    (transaction : TransactionId) (authenticated : Bool) :
    wireSize (c.requestBefore prims operation transaction authenticated) =
      bodySize operation c.peer.family +
        if authenticated then credentialSize c.username (c.realm.getD []) (c.nonce.getD []) + 24
        else 0 := by
  unfold requestBefore
  split_ifs
  · rw [wireSize_integrity, wireSize_append, wireSize_requestAttributes, credentialAttributes,
      wireSize_cons, wireSize_cons, wireSize_cons, credentialSize]
    have hn : wireSize [] = 0 := rfl
    dsimp only
    omega
  · exact wireSize_requestAttributes c operation transaction

theorem length_request (h : c.buildRequest prims operation transaction authenticated = .ok packet) :
    packet.length = 28 + bodySize operation c.peer.family +
      if authenticated then credentialSize c.username (c.realm.getD []) (c.nonce.getD []) + 24
      else 0 := by
  obtain ⟨-, -, rfl⟩ := buildRequest_ok h
  rw [length_framed, wireSize_requestAll, wireSize_requestBefore]
  omega

theorem fingerprintValid_request {m : Message}
    (h : c.buildRequest prims operation transaction authenticated = .ok packet)
    (hr : m.raw = packet)
    (hs : m.stop = 20 + wireSize (c.requestAll prims operation transaction authenticated))
    (hattr : m.attributes = placed 20 (c.requestAll prims operation transaction authenticated)) :
    m.fingerprintValid prims.crc32 = some true := by
  obtain ⟨-, -, rfl⟩ := buildRequest_ok h
  have hk := requestBefore_kinds prims c operation transaction authenticated
  rw [wireSize_requestAll] at hr hs
  exact fingerprintValid_finished (fun a ha => (hk a ha).1) (fun a ha => (hk a ha).2) hr hs
    hattr

/-- The integrity of an authenticated request is valid under the key of the core. -/
theorem verifyIntegrity_request {m : Message}
    (h : c.buildRequest prims operation transaction true = .ok packet)
    (hattr : m.attributes = placed 20 (c.requestAll prims operation transaction true)) :
    verifyIntegrity prims packet m c.key = true := by
  obtain ⟨hk, hs, rfl⟩ := buildRequest_ok h
  obtain ⟨key, hk⟩ := Option.isSome_iff_exists.mp (hk rfl)
  have hkinds := requestAttributes_kinds c operation transaction
  have hall : c.requestAll prims operation transaction true =
      (c.requestAttributes operation transaction ++ c.credentialAttributes) ++
        integrity prims key operation.method transaction
          (c.requestAttributes operation transaction ++ c.credentialAttributes) ::
        [fingerprint prims operation.method transaction
          (c.requestBefore prims operation transaction true)] := by
    rw [requestAll, requestBefore, if_pos rfl, hk, List.append_assoc]
    rfl
  have hc : wireSize (c.requestAttributes operation transaction ++ c.credentialAttributes) + 24 <
      2 ^ 16 := by
    rw [wireSize_requestAll, requestBefore, if_pos rfl, wireSize_integrity] at hs
    omega
  rw [hall] at hattr ⊢
  rw [hk]
  exact verifyIntegrity_finished (fun a ha => (hkinds a ha).1) (fun a ha => (hkinds a ha).2.1) hc
    hattr

theorem attributesFrom_of_le (raw : Bytes) (stop : ℕ) {rounds more : ℕ}
    (hr : stop - headerSize ≤ rounds) (hm : rounds ≤ more) :
    attributesFrom raw stop more headerSize = attributesFrom raw stop rounds headerSize := by
  induction more, hm using Nat.le_induction with
  | base => rfl
  | succ _ hm ih => rw [attributesFrom_fuel raw stop (hr.trans hm), ih]

/-- Every request that the core builds is decoded to what was put into it: method, transaction,
attributes and XOR addresses, and its fingerprint and integrity are valid. Of every byte string that
`decode` accepts, the attributes fill the bytes from 20 to the end, each lies within them, and the
iterator yields no more however long it runs. -/
theorem codec_round_trip (prims : Primitives) :
    (∀ (c : NativeCore) (operation : Operation) (transaction : TransactionId) (authenticated : Bool)
      (packet : Bytes), c.buildRequest prims operation transaction authenticated = .ok packet →
      ∃ m, Message.decode packet = .ok m ∧ m.messageClass = .request ∧
        m.method.toNat = operation.method ∧ m.transaction = transaction ∧
        m.attributes.map (fun a => (a.kind, a.value)) =
          c.requestAll prims operation transaction authenticated ∧
        (∀ a ∈ m.attributes, a.kind = attrXorPeerAddress →
          decodeXorAddress a.value m.transaction = .ok c.peer) ∧
        m.fingerprintValid prims.crc32 = some true ∧
        (authenticated = true → verifyIntegrity prims packet m c.key = true)) ∧
    ∀ (raw : Bytes) (m : Message), Message.decode raw = .ok m →
      Tiles raw raw.length 20 m.attributes ∧
      (∀ a ∈ m.attributes, 20 ≤ a.headerStart ∧ a.headerStart + 4 + a.value.length ≤ raw.length) ∧
      ∀ rounds, raw.length ≤ rounds → attributesFrom raw raw.length rounds 20 = m.attributes := by
  refine ⟨fun c operation transaction authenticated packet hbuild => ?_, fun raw m hdec => ?_⟩
  · obtain ⟨m, hdec, hraw, hkind, rfl, hstop, hattr⟩ := decode_request hbuild
    have hpair : m.attributes.map (fun a => (a.kind, a.value)) =
        c.requestAll prims operation m.transaction authenticated := by
      rw [hattr, placed_pairs, requestAll_plain]
    refine ⟨m, hdec, ?_, ?_, rfl, hpair, fun a ha hxor => ?_,
      fingerprintValid_request hbuild hraw hstop hattr, ?_⟩
    · rw [Message.messageClass, hkind]
      cases operation <;> rfl
    · rw [Message.method, hkind]
      cases operation <;> rfl
    · have hmem : (a.kind, a.value) ∈ c.requestAll prims operation m.transaction authenticated := by
        rw [← hpair]
        exact List.mem_map_of_mem ha
      rw [hxor] at hmem
      rw [xor_of_mem hmem]
      exact decodeXorAddress_encodeXorAddress c.peer m.transaction
    · rintro rfl
      exact verifyIntegrity_request hbuild hattr
  · have hdecoded := Message.decoded_of_decode hdec
    refine ⟨hdecoded.tiles, fun a ha => hdecoded.tiles.le_of_mem ha, fun rounds hround => ?_⟩
    rw [Message.attributes, hdecoded.raw_eq, hdecoded.stop_eq]
    exact attributesFrom_of_le raw raw.length (Nat.sub_le _ _) hround

/-- A ChannelBind after a challenge. -/
theorem codec_round_trip_channel :
    ∃ packet m, Recorded.challenged.buildRequest Recorded.primitives .channel Recorded.first true =
        .ok packet ∧ Message.decode packet = .ok m ∧ m.transaction = Recorded.first ∧
      verifyIntegrity Recorded.primitives packet m Recorded.challenged.key = true ∧
      Tiles packet packet.length 20 m.attributes := by
  have hok : (Recorded.challenged.buildRequest Recorded.primitives .channel Recorded.first
      true).toOption.isSome = true := by decide +kernel
  cases hb : Recorded.challenged.buildRequest Recorded.primitives .channel Recorded.first true with
  | error =>
    rw [hb] at hok
    cases hok
  | ok packet =>
    obtain ⟨m, hd, -, -, ht, -, -, -, hin⟩ :=
      (codec_round_trip Recorded.primitives).1 Recorded.challenged .channel Recorded.first
        true packet
        hb
    exact ⟨packet, m, rfl, hd, ht, hin rfl,
      ((codec_round_trip Recorded.primitives).2 packet m hd).1⟩

end NativeCore
end Turn
end Csqtt
