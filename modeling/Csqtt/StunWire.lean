import Csqtt.TurnMessages

/-!
# Built messages, byte by byte

A message that `MessageBuilder` builds is a header and the padded attributes one after the other.
The length field of the header is patched while attributes are added; `decode` accepts the message
when it has its final value, and then yields the attributes that were pushed. XOR addresses are
their own inverse.
-/

namespace Csqtt
namespace Stun

open Buffer

def wire (kind : UInt16) (value : Bytes) : Bytes :=
  BigEndian.encode 2 kind.toNat ++ BigEndian.encode 2 value.length ++ value ++
    List.replicate (padded value.length - value.length) 0

def wires (as : List (UInt16 × Bytes)) : Bytes := as.flatMap fun a => wire a.1 a.2

def wireSize (as : List (UInt16 × Bytes)) : ℕ := (as.map fun a => 4 + padded a.2.length).sum

theorem length_wire (kind : UInt16) (value : Bytes) :
    (wire kind value).length = 4 + padded value.length := by
  have hle := le_padded value.length
  simp only [wire, List.length_append, BigEndian.length_encode, List.length_replicate]
  omega

@[simp] theorem wires_cons (a : UInt16 × Bytes) (as : List (UInt16 × Bytes)) :
    wires (a :: as) = wire a.1 a.2 ++ wires as := rfl

@[simp] theorem wireSize_cons (a : UInt16 × Bytes) (as : List (UInt16 × Bytes)) :
    wireSize (a :: as) = 4 + padded a.2.length + wireSize as := by
  rw [wireSize, List.map_cons, List.sum_cons, wireSize]

theorem wires_append (as bs : List (UInt16 × Bytes)) : wires (as ++ bs) = wires as ++ wires bs :=
  List.flatMap_append

theorem wireSize_append (as bs : List (UInt16 × Bytes)) :
    wireSize (as ++ bs) = wireSize as + wireSize bs := by
  rw [wireSize, List.map_append, List.sum_append, wireSize, wireSize]

theorem length_wires (as : List (UInt16 × Bytes)) : (wires as).length = wireSize as := by
  induction as with
  | nil => rfl
  | cons _ _ ih => rw [wires_cons, List.length_append, length_wire, ih, wireSize_cons]

theorem wireSize_mod (as : List (UInt16 × Bytes)) : wireSize as % 4 = 0 := by
  induction as with
  | nil => rfl
  | cons =>
    rw [wireSize_cons, padded]
    omega

def header (kind length : ℕ) (transaction : TransactionId) : Bytes :=
  BigEndian.encode 2 kind ++ (BigEndian.encode 2 length ++ (BigEndian.encode 4 magicCookie ++
    transaction.bytes))

theorem length_header (kind length : ℕ) (transaction : TransactionId) :
    (header kind length transaction).length = 20 := by
  simp only [header, List.length_append, BigEndian.length_encode, transaction.length_eq]

def framed (kind length : ℕ) (transaction : TransactionId) (as : List (UInt16 × Bytes)) : Bytes :=
  header kind length transaction ++ wires as

theorem length_framed (kind length : ℕ) (transaction : TransactionId) (as : List (UInt16 × Bytes)) :
    (framed kind length transaction as).length = 20 + wireSize as := by
  rw [framed, List.length_append, length_header, length_wires]

theorem framed_append (kind length : ℕ) (transaction : TransactionId)
    (as bs : List (UInt16 × Bytes)) :
    framed kind length transaction (as ++ bs) = framed kind length transaction as ++ wires bs := by
  rw [framed, framed, wires_append, List.append_assoc]

theorem overwrite_framed (kind length length' : ℕ) (transaction : TransactionId)
    (as : List (UInt16 × Bytes)) :
    overwrite (framed kind length transaction as) 2 (BigEndian.encode 2 length') =
      framed kind length' transaction as := by
  have hs : framed kind length transaction as = BigEndian.encode 2 kind ++
      (BigEndian.encode 2 length ++
        (BigEndian.encode 4 magicCookie ++ (transaction.bytes ++ wires as))) := by
    simp only [framed, header, List.append_assoc]
  have ha : (framed kind length transaction as).drop 4 =
      BigEndian.encode 4 magicCookie ++ (transaction.bytes ++ wires as) := by
    rw [hs, ← List.append_assoc]
    exact List.drop_left' (by simp)
  rw [overwrite, BigEndian.length_encode, ha, hs, List.take_left' (BigEndian.length_encode ..)]
  simp only [framed, header, List.append_assoc]

/-! ## Attributes -/

def placed : ℕ → List (UInt16 × Bytes) → List Attribute
  | _, [] => []
  | position, a :: as =>
    ⟨attributeKind a.1.toNat, a.2, position⟩ :: placed (position + 4 + padded a.2.length) as

theorem placed_append (position : ℕ) (as bs : List (UInt16 × Bytes)) :
    placed position (as ++ bs) = placed position as ++ placed (position + wireSize as) bs := by
  induction as generalizing position with
  | nil => rfl
  | cons _ _ ih =>
    rw [List.cons_append, placed, ih, wireSize_cons]
    congr 3
    omega

variable (front : Bytes)

theorem u16At_append (rest : Bytes) {n : ℕ} (hn : n < 2 ^ 16) :
    u16At (front ++ (BigEndian.encode 2 n ++ rest)) front.length = n := by
  have hs := slice_middle front (BigEndian.encode 2 n) rest
  rw [BigEndian.length_encode] at hs
  rw [u16At, hs, BigEndian.value_encode_of_lt hn]

theorem length_wireAt (rest : Bytes) (kind : UInt16) {value : Bytes} (hv : value.length < 2 ^ 16) :
    u16At (front ++ (wire kind value ++ rest)) (front.length + 2) = value.length := by
  have hf := u16At_append (front ++ BigEndian.encode 2 kind.toNat)
    (value ++ (List.replicate (padded value.length - value.length) 0 ++ rest)) hv
  rw [List.length_append, BigEndian.length_encode] at hf
  simpa only [wire, List.append_assoc] using hf

theorem attributeAt_wire (rest : Bytes) (kind : UInt16) {value : Bytes}
    (hv : value.length < 2 ^ 16) :
    attributeAt (front ++ (wire kind value ++ rest)) front.length =
      ⟨attributeKind kind.toNat, value, front.length⟩ := by
  have hk := u16At_append front (BigEndian.encode 2 value.length ++ (value ++
    (List.replicate (padded value.length - value.length) 0 ++ rest))) kind.toNat_lt
  have hs := slice_middle (front ++ (BigEndian.encode 2 kind.toNat ++
    BigEndian.encode 2 value.length)) value
    (List.replicate (padded value.length - value.length) 0 ++ rest)
  simp only [List.length_append, BigEndian.length_encode] at hs
  rw [attributeAt, length_wireAt front rest kind hv]
  simp only [wire, List.append_assoc] at hk hs ⊢
  rw [hk, hs]

theorem length_lt_of_wireSize {a : UInt16 × Bytes} {as : List (UInt16 × Bytes)} (ha : a ∈ as)
    (hs : wireSize as < 2 ^ 16) : a.2.length < 2 ^ 16 := by
  have hp := le_padded a.2.length
  induction as with
  | nil => cases ha
  | cons _ _ ih =>
    rw [wireSize_cons] at hs
    obtain rfl | ha := List.mem_cons.mp ha
    · omega
    · exact ih ha (by omega)

/-- The loop of `decode` passes over what was pushed. -/
theorem checkAttributes_wires (as : List (UInt16 × Bytes)) (hv : ∀ a ∈ as, a.2.length < 2 ^ 16)
    (fuel : ℕ) :
    checkAttributes (front ++ wires as) (front.length + wireSize as) fuel front.length =
      .ok () := by
  induction as generalizing front fuel with
  | nil =>
    cases fuel with
    | zero => rfl
    | succ =>
      exact if_pos (Nat.le_refl front.length)
  | cons a as ih =>
    cases fuel with
    | zero => rfl
    | succ fuel =>
      have hval := hv a List.mem_cons_self
      have hr := ih (front ++ wire a.1 a.2)
        (fun b hb => hv b (List.mem_cons_of_mem a hb)) fuel
      have hle := le_padded a.2.length
      rw [List.append_assoc, List.length_append, length_wire, Nat.add_assoc front.length] at hr
      rw [wires_cons, wireSize_cons, checkAttributes, if_neg (by omega), if_neg (by omega)]
      rw [length_wireAt front (wires as) a.1 hval, if_neg (by omega), Nat.add_assoc front.length]
      exact hr

theorem attributesFrom_wires (as : List (UInt16 × Bytes)) (hv : ∀ a ∈ as, a.2.length < 2 ^ 16)
    (fuel : ℕ) (hf : as.length ≤ fuel) :
    attributesFrom (front ++ wires as) (front.length + wireSize as) fuel front.length =
      placed front.length as := by
  induction as generalizing front fuel with
  | nil =>
    cases fuel with
    | zero => rfl
    | succ =>
      exact if_pos (Nat.le_refl front.length)
  | cons a as ih =>
    cases fuel with
    | zero => cases hf
    | succ fuel =>
      have hval := hv a List.mem_cons_self
      have hr := ih (front ++ wire a.1 a.2)
        (fun b hb => hv b (List.mem_cons_of_mem a hb)) fuel (Nat.le_of_succ_le_succ hf)
      rw [List.append_assoc, List.length_append, length_wire, Nat.add_assoc front.length] at hr
      rw [wires_cons, wireSize_cons, attributesFrom, if_neg (by omega),
        attributeAt_wire front (wires as) a.1 hval, length_wireAt front (wires as) a.1 hval,
        Nat.add_assoc front.length, hr, placed, Nat.add_assoc front.length]

/-! ## Decoding -/

section Decode

variable {kind : ℕ} {transaction : TransactionId} {as : List (UInt16 × Bytes)}

theorem length_le_wireSize (as : List (UInt16 × Bytes)) : as.length ≤ wireSize as := by
  induction as with
  | nil => exact Nat.le_refl _
  | cons =>
    rw [wireSize_cons, List.length_cons]
    omega

/-- `decode` accepts a message with its final length. -/
theorem decode_framed (hkind : kind < 2 ^ 16) (hbits : UInt16.ofNat kind &&& 0xc000 = 0)
    (hzero : UInt16.ofNat kind ≠ 0) (hsize : wireSize as < 2 ^ 16) :
    Message.decode (framed kind (wireSize as) transaction as) =
      .ok ⟨framed kind (wireSize as) transaction as, UInt16.ofNat kind, transaction,
        20 + wireSize as⟩ := by
  have hlen : (framed kind (wireSize as) transaction as).length = headerSize + wireSize as :=
    length_framed kind (wireSize as) transaction as
  have htype : u16At (framed kind (wireSize as) transaction as) 0 = kind := by
    have hfield := u16At_append [] (BigEndian.encode 2 (wireSize as) ++
      (BigEndian.encode 4 magicCookie ++ (transaction.bytes ++ wires as))) hkind
    simpa only [framed, header, List.append_assoc, List.nil_append, List.length_nil] using hfield
  have hdeclare : u16At (framed kind (wireSize as) transaction as) 2 = wireSize as := by
    have hfield := u16At_append (BigEndian.encode 2 kind)
      (BigEndian.encode 4 magicCookie ++ (transaction.bytes ++ wires as)) hsize
    simpa only [framed, header, List.append_assoc, BigEndian.length_encode] using hfield
  have htrans : slice (framed kind (wireSize as) transaction as) 8 20 = transaction.bytes := by
    have hslice := slice_middle (BigEndian.encode 2 kind ++ BigEndian.encode 2 (wireSize as) ++
      BigEndian.encode 4 magicCookie) transaction.bytes (wires as)
    simpa only [framed, header, List.append_assoc, List.length_append, BigEndian.length_encode,
      transaction.length_eq] using hslice
  have hcheck : checkAttributes (framed kind (wireSize as) transaction as)
    (headerSize + wireSize as)
      (framed kind (wireSize as) transaction as).length headerSize = .ok () := by
    have hwire := checkAttributes_wires (header kind (wireSize as) transaction) as
      (fun a ha => length_lt_of_wireSize ha hsize) (framed kind (wireSize as) transaction as).length
    rwa [length_header] at hwire
  unfold Message.decode
  rw [dif_neg (by rw [hlen]; exact Nat.not_lt.mpr (Nat.le_add_right _ _))]
  simp only [htype, hdeclare]
  rw [if_neg (not_not.mpr hbits), if_neg hzero, if_neg (not_not.mpr (wireSize_mod as)),
    if_neg (not_not.mpr hlen), hcheck]
  simp only [htrans]
  rfl

theorem attributes_framed (hs : wireSize as < 2 ^ 16) (length : ℕ) (m : Message)
    (hr : m.raw = framed kind length transaction as) (hstop : m.stop = 20 + wireSize as) :
    m.attributes = placed 20 as := by
  have hw := attributesFrom_wires (header kind length transaction) as
    (fun a ha => length_lt_of_wireSize ha hs) m.raw.length (by
      rw [hr, length_framed]
      exact (length_le_wireSize as).trans (Nat.le_add_left _ _))
  rw [length_header] at hw
  rw [Message.attributes, hstop]
  rw [← hw, hr]
  rfl

end Decode

end Stun

namespace Turn

open Buffer Stun

/-! ## Building -/

namespace MessageBuilder

variable {prims : Primitives} {kind length : ℕ} {transaction : TransactionId}
  {as : List (UInt16 × Bytes)} {packet : Bytes}

def holding (kind length : ℕ) (transaction : TransactionId) (as : List (UInt16 × Bytes)) :
    MessageBuilder := ⟨framed kind length transaction as, transaction⟩

theorem withTransaction_eq (kind : ℕ) (transaction : TransactionId) :
    withTransaction kind transaction = holding kind 0 transaction [] := by
  simp only [withTransaction, holding, framed, header, wires, List.flatMap_nil, List.append_nil,
    List.append_assoc]

theorem push_holding (kind length : ℕ) (transaction : TransactionId) (as : List (UInt16 × Bytes))
    (attr : UInt16) (value : Bytes) : (holding kind length transaction as).push attr value =
      holding kind length transaction (as ++ [(attr, value)]) := by
  have hm := wireSize_mod as
  have hp : (4 - (framed kind length transaction as ++ BigEndian.encode 2 attr.toNat ++
      BigEndian.encode 2 value.length ++ value).length % 4) % 4 =
      padded value.length - value.length := by
    simp only [List.length_append, length_framed, BigEndian.length_encode, padded]
    omega
  unfold push holding
  dsimp only
  rw [hp, framed_append]
  simp only [wires, List.flatMap_cons, List.flatMap_nil, List.append_nil, wire, List.append_assoc]

theorem pushXorAddress_holding (attr : UInt16) (a : SocketAddr) :
    (holding kind length transaction as).pushXorAddress attr a =
      holding kind length transaction (as ++ [(attr, encodeXorAddress a transaction)]) :=
  push_holding kind length transaction as attr (encodeXorAddress a transaction)

theorem setMessageLength_framed (trailing : ℕ) :
    setMessageLength (framed kind length transaction as) trailing =
      if wireSize as + trailing < 2 ^ 16 then
      .ok (framed kind (wireSize as + trailing) transaction as)
      else .error .messageTooLarge := by
  unfold setMessageLength
  dsimp only
  rw [length_framed, Nat.add_sub_cancel_left, overwrite_framed]

/-- The attribute that `finish` adds. -/
def fingerprint (prims : Primitives) (kind : ℕ) (transaction : TransactionId)
    (as : List (UInt16 × Bytes)) : UInt16 × Bytes :=
  (attrFingerprint, BigEndian.encode 4
    (prims.crc32 (framed kind (wireSize as + 8) transaction as) ^^^ fingerprintXor).toNat)

/-- The attribute that `finish_authenticated` adds before. -/
def integrity (prims : Primitives) (key : Bytes) (kind : ℕ) (transaction : TransactionId)
    (as : List (UInt16 × Bytes)) : UInt16 × Bytes :=
  (attrMessageIntegrity, prims.hmacSha1 key (framed kind (wireSize as + 24) transaction as))

theorem wireSize_fingerprint :
    wireSize (as ++ [fingerprint prims kind transaction as]) = wireSize as + 8 := by
  rw [wireSize_append, wireSize_cons, fingerprint, BigEndian.length_encode]
  rfl

theorem wireSize_integrity (prims : Primitives) (key : Bytes) (kind : ℕ)
    (transaction : TransactionId) (as : List (UInt16 × Bytes)) :
    wireSize (as ++ [integrity prims key kind transaction as]) = wireSize as + 24 := by
  rw [wireSize_append, wireSize_cons, integrity, prims.hmacSha1_length]
  rfl

theorem finish_holding (prims : Primitives) (kind length : ℕ) (transaction : TransactionId)
    (as : List (UInt16 × Bytes)) : (holding kind length transaction as).finish prims =
      if wireSize (as ++ [fingerprint prims kind transaction as]) < 2 ^ 16 then
        .ok (framed kind (wireSize (as ++ [fingerprint prims kind transaction as])) transaction
          (as ++ [fingerprint prims kind transaction as])) else .error .messageTooLarge := by
  rw [finish, holding, setMessageLength_framed, wireSize_fingerprint]
  split_ifs
  · have hp := push_holding kind (wireSize as + 8) transaction as attrFingerprint
      (BigEndian.encode 4
        (prims.crc32 (framed kind (wireSize as + 8) transaction as) ^^^ fingerprintXor).toNat)
    exact congrArg (fun b => Except.ok b.bytes) hp
  · rfl

theorem finishAuthenticated_holding (prims : Primitives) (key : Bytes) (kind length : ℕ)
    (transaction : TransactionId) (as : List (UInt16 × Bytes)) :
    (holding kind length transaction as).finishAuthenticated prims key =
      let body := as ++ [integrity prims key kind transaction as]
      if wireSize (body ++ [fingerprint prims kind transaction body]) < 2 ^ 16 then
        .ok (framed kind (wireSize (body ++ [fingerprint prims kind transaction body])) transaction
          (body ++ [fingerprint prims kind transaction body]))
      else .error .messageTooLarge := by
  have hs := wireSize_integrity prims key kind transaction as
  have hp := push_holding kind (wireSize as + 24) transaction as attrMessageIntegrity
    (prims.hmacSha1 key (framed kind (wireSize as + 24) transaction as))
  unfold finishAuthenticated
  rw [holding, setMessageLength_framed]
  split_ifs with hf
  · change ((holding kind (wireSize as + 24) transaction as).push attrMessageIntegrity _).finish
      prims = _
    rw [hp, finish_holding]
    rfl
  · rw [if_neg]
    rw [wireSize_fingerprint]
    omega

end MessageBuilder

/-! ## XOR addresses -/

theorem xor_cancel (a b : ℕ) : (a ^^^ b) ^^^ b = a := by
  rw [Nat.xor_assoc, Nat.xor_self, Nat.xor_zero]

theorem zipWith_xor_cancel (xs ys : Bytes) (h : xs.length ≤ ys.length) :
    List.zipWith (· ^^^ ·) (List.zipWith (· ^^^ ·) xs ys) ys = xs := by
  induction xs generalizing ys with
  | nil => rfl
  | cons _ _ ih =>
    cases ys with
    | nil => cases h
    | cons _ ys =>
      rw [List.zipWith_cons_cons, List.zipWith_cons_cons, ih ys (Nat.le_of_succ_le_succ h),
        UInt8.xor_assoc, UInt8.xor_self, UInt8.xor_zero]

theorem xorAddress_parts (code : UInt8) {x : ℕ} (hx : x < 2 ^ 16) (body : Bytes) :
    let value := [0, code] ++ BigEndian.encode 2 x ++ body
    value.length = 4 + body.length ∧ u16At value 2 = x ∧ value.drop 4 = body ∧
      slice value 4 (4 + body.length) = body := by
  have hu16 := u16At_append [0, code] body hx
  have hd : ([0, code] ++ BigEndian.encode 2 x ++ body).drop 4 = body :=
    List.drop_left' (by simp)
  refine ⟨by simp; omega, ?_, hd, ?_⟩
  · rwa [← List.append_assoc] at hu16
  · have hl : ([0, code] ++ BigEndian.encode 2 x ++ body).length = 4 + body.length := by
      simp
      omega
    rw [slice, ← hl, List.take_length, hd]

theorem decodeXorAddress_encodeXorAddress (a : SocketAddr) (transaction : TransactionId) :
    decodeXorAddress (encodeXorAddress a transaction) transaction = .ok a := by
  obtain ⟨family, ip, port, hip⟩ := a
  have hport : port.toNat ^^^ magicCookie >>> 16 < 2 ^ 16 :=
    Nat.xor_lt_two_pow port.toNat_lt (by decide)
  cases family with
  | v4 =>
    have hval : BigEndian.value ip ^^^ magicCookie < 256 ^ 4 := by
      have hlt := BigEndian.value_lt ip
      rw [hip] at hlt
      exact Nat.xor_lt_two_pow (n := 32) hlt (by decide)
    have hback : BigEndian.encode 4 (BigEndian.value ip) = ip := by
      have henc := BigEndian.encode_value ip
      rwa [hip] at henc
    obtain ⟨hlen, hu16, -, hslice⟩ := xorAddress_parts 1 hport
      (BigEndian.encode 4 (BigEndian.value ip ^^^ magicCookie))
    rw [BigEndian.length_encode] at hlen hslice
    have henc : encodeXorAddress ⟨.v4, ip, port, hip⟩ transaction = ([0, 1] : Bytes) ++
        BigEndian.encode 2 (port.toNat ^^^ magicCookie >>> 16) ++
          BigEndian.encode 4 (BigEndian.value ip ^^^ magicCookie) := rfl
    rw [henc, decodeXorAddress, if_neg (by simp), if_pos ⟨rfl, hlen⟩]
    simp only [hu16, hslice, xor_cancel, BigEndian.value_encode_of_lt hval, hback,
      UInt16.ofNat_toNat]
  | v6 =>
    have hlong : ip.length = (addressMask transaction).length := by
      rw [hip, length_addressMask]
      rfl
    have hbody : (List.zipWith (· ^^^ ·) ip (addressMask transaction)).length = 16 := by
      rw [List.length_zipWith, hlong, length_addressMask]
      rfl
    obtain ⟨hlen, hu16, hdrop, -⟩ := xorAddress_parts 2 hport
      (List.zipWith (· ^^^ ·) ip (addressMask transaction))
    rw [hbody] at hlen
    have henc : encodeXorAddress ⟨.v6, ip, port, hip⟩ transaction = ([0, 2] : Bytes) ++
        BigEndian.encode 2 (port.toNat ^^^ magicCookie >>> 16) ++
          List.zipWith (· ^^^ ·) ip (addressMask transaction) := rfl
    rw [henc, decodeXorAddress, if_neg (by simp), if_neg (by simp),
      dif_pos ⟨rfl, hlen⟩]
    simp only [hu16, hdrop, xor_cancel, zipWith_xor_cancel ip _ (Nat.le_of_eq hlong),
      UInt16.ofNat_toNat]

end Turn
end Csqtt
