import Csqtt.BigEndian
import Csqtt.Buffer
import Csqtt.ProxySequence

/-!
# The STUN codec of the client

A STUN message has a header of 20 bytes and attributes, each with a kind, a length and a value
padded to four bytes. `decode` checks once that they fill the message; the attributes are then read
without further checks. The checksum of the fingerprint is a parameter.
-/

namespace Csqtt
namespace Stun

open Buffer

def headerSize : ℕ := 20

def magicCookie : ℕ := 0x2112a442

def attrFingerprint : UInt16 := 0x8028

def fingerprintXor : UInt32 := 0x5354554e

inductive Class
  | request
  | indication
  | success
  | error
  deriving DecidableEq

structure TransactionId where
  bytes : Bytes
  length_eq : bytes.length = 12
  deriving DecidableEq

structure Attribute where
  kind : UInt16
  value : Bytes
  headerStart : ℕ
  deriving DecidableEq

inductive DecodeError
  | headerTruncated
  | leadingBits
  | zeroType
  | cookieMismatch
  | unalignedLength
  | lengthMismatch
  | attributeHeaderTruncated
  | attributeValueTruncated
  deriving DecidableEq

structure Message where
  raw : Bytes
  kind : UInt16
  transaction : TransactionId
  stop : ℕ
  deriving DecidableEq

/-- The two bytes at `i`, big-endian. -/
def u16At (raw : Bytes) (i : ℕ) : ℕ := BigEndian.value (slice raw i (i + 2))

def padded (length : ℕ) : ℕ := (length + 3) / 4 * 4

/-- The loop of `decode` over the attributes. A round goes at least four bytes on. -/
def checkAttributes (raw : Bytes) (stop : ℕ) : ℕ → ℕ → Except DecodeError Unit
  | 0, _ => .ok ()
  | fuel + 1, position =>
    if stop ≤ position then .ok ()
    else if stop - position < 4 then .error .attributeHeaderTruncated
    else
      let length := u16At raw (position + 2)
      let next := position + 4 + padded length
      if stop < next ∨ stop < position + 4 + length then .error .attributeValueTruncated
      else checkAttributes raw stop fuel next

def attributeKind (kind : ℕ) : UInt16 := if kind = 0x8020 then 0x0020 else UInt16.ofNat kind

def attributeAt (raw : Bytes) (position : ℕ) : Attribute where
  kind := attributeKind (u16At raw position)
  value := slice raw (position + 4) (position + 4 + u16At raw (position + 2))
  headerStart := position

/-- What `Attributes` yields from a position on. -/
def attributesFrom (raw : Bytes) (stop : ℕ) : ℕ → ℕ → List Attribute
  | 0, _ => []
  | fuel + 1, position =>
    if stop ≤ position then []
    else
      attributeAt raw position ::
        attributesFrom raw stop fuel (position + 4 + padded (u16At raw (position + 2)))

variable {position stop fuel : ℕ}

theorem attributesFrom_fuel (raw : Bytes) (stop : ℕ) (h : stop - position ≤ fuel) :
    attributesFrom raw stop (fuel + 1) position = attributesFrom raw stop fuel position := by
  induction fuel generalizing position with
  | zero => rw [attributesFrom, attributesFrom, if_pos (by omega)]
  | succ _ ih =>
    rw [attributesFrom]
    conv_rhs => rw [attributesFrom]
    split_ifs
    · rfl
    · rw [ih (by omega)]

/-- The attributes fill the bytes from a position to `stop`. -/
def Tiles (raw : Bytes) (stop : ℕ) : ℕ → List Attribute → Prop
  | position, [] => position = stop
  | position, a :: rest =>
    a.headerStart = position ∧ a.value.length = u16At raw (position + 2) ∧
      Tiles raw stop (position + 4 + padded a.value.length) rest

theorem le_padded (length : ℕ) : length ≤ padded length := by
  unfold padded
  omega

/-- What `decode` has checked fills the message. -/
theorem tiles_of_checked {raw : Bytes} (hr : stop ≤ raw.length)
    (hp : position ≤ stop) (hf : stop - position ≤ fuel)
    (h : checkAttributes raw stop fuel position = .ok ()) :
    Tiles raw stop position (attributesFrom raw stop fuel position) := by
  induction fuel generalizing position with
  | zero =>
    rw [attributesFrom, Tiles]
    omega
  | succ _ ih =>
    rw [checkAttributes] at h
    rw [attributesFrom]
    by_cases he : stop ≤ position
    · rw [if_pos he, Tiles]
      omega
    · rw [if_neg he] at h ⊢
      dsimp only at h ⊢
      split_ifs at h with ht
      have hl : (attributeAt raw position).value.length = u16At raw (position + 2) := by
        rw [attributeAt, length_slice (by omega)]
        omega
      refine ⟨rfl, hl, ?_⟩
      rw [hl]
      exact ih (by omega) (by omega) h

theorem Tiles.le {raw : Bytes} {as : List Attribute}
    (h : Tiles raw stop position as) : position ≤ stop := by
  induction as generalizing position with
  | nil => exact Nat.le_of_eq h
  | cons _ _ ih =>
    have hr := ih h.2.2
    omega

theorem Tiles.le_of_mem {raw : Bytes} {as : List Attribute}
    (h : Tiles raw stop position as) {a : Attribute} (ha : a ∈ as) :
    position ≤ a.headerStart ∧ a.headerStart + 4 + a.value.length ≤ stop := by
  induction as generalizing position with
  | nil => cases ha
  | cons _ _ ih =>
    obtain ⟨hs, -, hr⟩ := h
    obtain rfl | ha := List.mem_cons.mp ha
    · have hle := hr.le
      have hp := le_padded a.value.length
      omega
    · have hr := ih hr ha
      omega

theorem attributesFrom_eq_cons {raw : Bytes} {b : Attribute}
    {rest : List Attribute} (h : attributesFrom raw stop fuel position = b :: rest) :
    b = attributeAt raw position ∧ ∃ left,
      attributesFrom raw stop left (position + 4 + padded (u16At raw (position + 2))) = rest := by
  cases fuel with
  | zero => cases h
  | succ fuel =>
    rw [attributesFrom] at h
    split_ifs at h
    cases h
    exact ⟨rfl, fuel, rfl⟩

theorem attributesFrom_of_lt (raw : Bytes) (hp : position < stop)
    (hf : stop - position ≤ fuel) : ∃ left,
      stop - (position + 4 + padded (u16At raw (position + 2))) ≤ left ∧
      attributesFrom raw stop fuel position = attributeAt raw position ::
        attributesFrom raw stop left (position + 4 + padded (u16At raw (position + 2))) := by
  cases fuel with
  | zero => omega
  | succ fuel =>
    refine ⟨fuel, by omega, ?_⟩
    rw [attributesFrom, if_neg (by omega)]

section Agree

variable {raw raw' : Bytes} {limit : ℕ}

/-- The bytes from the length field to `limit` are the same. -/
def Agree (raw raw' : Bytes) (limit : ℕ) : Prop :=
  ∀ i j, 4 ≤ i → i ≤ j → j ≤ limit → slice raw i j = slice raw' i j

theorem agree_of_slice_eq (h : slice raw 4 limit = slice raw' 4 limit) : Agree raw raw' limit := by
  intro i j hi hij hj
  have hp := congrArg (fun part => slice part (i - 4) (j - 4)) h
  simp only [slice_slice raw (k := 4) (l := j - 4) (j := limit) (by omega),
    slice_slice raw' (k := 4) (l := j - 4) (j := limit) (by omega)] at hp
  rwa [Nat.add_sub_cancel' hi, Nat.add_sub_cancel' (hi.trans hij)] at hp

theorem Agree.u16At_eq (h : Agree raw raw' limit) {i : ℕ} (hi : 4 ≤ i) (hl : i + 2 ≤ limit) :
    u16At raw i = u16At raw' i := by
  rw [u16At, u16At, h i (i + 2) hi (by omega) hl]

theorem Agree.attributeAt_eq (h : Agree raw raw' limit) (hp : 4 ≤ position)
    (hl : position + 4 + u16At raw (position + 2) ≤ limit) :
    attributeAt raw' position = attributeAt raw position := by
  have hk := h.u16At_eq hp (by omega)
  have hle := h.u16At_eq (i := position + 2) (by omega) (by omega)
  have hv := h (position + 4) (position + 4 + u16At raw (position + 2)) (by omega) (by omega)
    hl
  rw [attributeAt, attributeAt, ← hk, ← hle, ← hv]

/-- Two messages that agree up to the end of an attribute have the same attributes up to it. -/
theorem Agree.attributesFrom_eq (h : Agree raw raw' limit) {stop' fuel' : ℕ}
    {pre post : List Attribute} {a : Attribute} (ht : Tiles raw stop position (pre ++ a :: post))
    (hattr : attributesFrom raw stop fuel position = pre ++ a :: post)
    (hlimit : a.headerStart + 4 + a.value.length ≤ limit) (hstop : limit ≤ stop')
    (hp : 4 ≤ position) (hf : stop' - position ≤ fuel') :
    ∃ post', attributesFrom raw' stop' fuel' position = pre ++ a :: post' := by
  induction pre generalizing position fuel fuel' with
  | nil =>
    obtain ⟨hstart, hl, -⟩ := ht
    obtain ⟨ha, -⟩ := attributesFrom_eq_cons hattr
    rw [hstart, hl] at hlimit
    obtain ⟨left, -, hs⟩ := attributesFrom_of_lt raw' (by omega) hf
    rw [h.attributeAt_eq hp hlimit, ← ha] at hs
    exact ⟨_, hs⟩
  | cons _ pre ih =>
    obtain ⟨-, hl, hr⟩ := ht
    obtain ⟨hb, left, hattr⟩ := attributesFrom_eq_cons hattr
    have hn := (hr.le_of_mem (List.mem_append_right pre List.mem_cons_self)).1
    have hpadded := le_padded (u16At raw (position + 2))
    rw [hl] at hr hn
    have hbefore : position < stop' := by omega
    obtain ⟨left', hl', hs⟩ := attributesFrom_of_lt raw' hbefore hf
    rw [h.attributeAt_eq hp (by omega), ← hb,
      ← h.u16At_eq (i := position + 2) (by omega) (by omega)] at hs
    rw [← h.u16At_eq (i := position + 2) (by omega) (by omega)] at hl'
    obtain ⟨post', hp'⟩ := ih hr hattr (by omega) hl'
    rw [hp'] at hs
    exact ⟨post', hs⟩

end Agree

namespace Message

def decode (raw : Bytes) : Except DecodeError Message :=
  if hlength : raw.length < headerSize then .error .headerTruncated
  else
    let kind := UInt16.ofNat (u16At raw 0)
    if kind &&& 0xc000 ≠ 0 then .error .leadingBits
    else if kind = 0 then .error .zeroType
    else if slice raw 4 8 ≠ BigEndian.encode 4 magicCookie then .error .cookieMismatch
    else
      let declared := u16At raw 2
      if declared % 4 ≠ 0 then .error .unalignedLength
      else
        let stop := headerSize + declared
        if raw.length ≠ stop then .error .lengthMismatch
        else
          match checkAttributes raw stop raw.length headerSize with
          | .error e => .error e
          | .ok () =>
            have hslice : (slice raw 8 20).length = 12 := by
              have hle : 20 ≤ raw.length := Nat.le_of_not_lt hlength
              rw [length_slice hle]
            .ok ⟨raw, kind, ⟨slice raw 8 20, hslice⟩, stop⟩

def messageClass (m : Message) : Class :=
  match ((m.kind >>> 4) &&& (1 : UInt16)) ||| ((m.kind >>> 7) &&& (2 : UInt16)) with
  | 0 => .request
  | 1 => .indication
  | 2 => .success
  | _ => .error

def method (m : Message) : UInt16 :=
  (m.kind &&& (0x000f : UInt16)) ||| ((m.kind >>> 1) &&& (0x0070 : UInt16)) |||
    ((m.kind >>> 2) &&& (0x0f80 : UInt16))

def attributes (m : Message) : List Attribute := attributesFrom m.raw m.stop m.raw.length headerSize

def attributeOf (m : Message) (target : UInt16) : Option Attribute :=
  m.attributes.find? (·.kind = target)

def fingerprintValid (crc32 : Bytes → UInt32) (m : Message) : Option Bool :=
  (m.attributeOf attrFingerprint).map fun a =>
    if a.value.length ≠ 4 ∨ a.headerStart + 8 ≠ m.stop then false
    else UInt32.ofNat (BigEndian.value a.value) =
      crc32 (m.raw.take a.headerStart) ^^^ fingerprintXor

/-- What `decode` has read. -/
structure Decoded (raw : Bytes) (m : Message) : Prop where
  header : headerSize ≤ raw.length
  raw_eq : m.raw = raw
  stop_eq : m.stop = raw.length
  kind_eq : m.kind = UInt16.ofNat (u16At raw 0)
  transaction_eq : m.transaction.bytes = slice raw 8 20
  checked : checkAttributes raw raw.length raw.length headerSize = .ok ()

theorem decoded_of_decode {raw : Bytes} {m : Message} (h : decode raw = .ok m) : Decoded raw m := by
  unfold decode at h
  dsimp only at h
  split_ifs at h with hshort hb hz hcookie ha hd
  split at h
  · cases h
  · rename_i hc
    cases h
    have hs := not_not.mp hd
    rw [← hs] at hc
    exact ⟨Nat.le_of_not_lt hshort, rfl, hs.symm, rfl, rfl, hc⟩

theorem Decoded.tiles {raw : Bytes} {m : Message} (h : Decoded raw m) :
    Tiles raw raw.length headerSize m.attributes := by
  rw [attributes, h.raw_eq, h.stop_eq]
  exact tiles_of_checked le_rfl h.header (Nat.sub_le _ _) h.checked

end Message
end Stun
end Csqtt
