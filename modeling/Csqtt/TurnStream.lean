import Csqtt.ClientUnwrap
import Csqtt.Segments
import Csqtt.StunCodec

/-!
# TURN over a stream

The reader tells STUN messages and ChannelData apart by the first two bits, takes the length from
the third and fourth byte and reads until the frame is there. A ChannelData frame is padded to four
bytes and goes on in a buffer of the pool, or is dropped if the pool has none.
-/

namespace Csqtt
namespace Turn

open Buffer Stun

def maxControlFrameBytes : ℕ := 4096
def maxDataFrameBytes : ℕ := packetCapacity - packetHeadroom
def streamReadBufferBytes : ℕ := maxControlFrameBytes

inductive StreamError
  | unalignedControl
  | controlLimit
  | invalidCookie
  | reservedType
  | dataLimit
  | readLength
  | bufferLimit
  | readFailed
  | closed
  | invalidChannel
  | payloadTooLarge
  | exceedsBuffer
  | packet (fault : Fault ObfsError)
  deriving DecidableEq

/-- The buffers that wait in the pool and the count of those it has made. -/
structure PacketPool where
  queue : List { storage : Bytes // storage.length = packetCapacity }
  allocated : ℕ
  capacity : ℕ

namespace PacketPool

def zeroed : { storage : Bytes // storage.length = packetCapacity } :=
  ⟨List.replicate packetCapacity 0, List.length_replicate⟩

/-- The empty packet in a buffer, after the headroom. -/
def unused (storage : { storage : Bytes // storage.length = packetCapacity }) : PacketBuf where
  storage := storage.1
  start := packetHeadroom
  stop := packetHeadroom
  capacity := storage.2
  ordered := Nat.le_refl _
  bounded := by decide

def tryAcquire (pool : PacketPool) : Option (PacketBuf × PacketPool) :=
  match pool.queue with
  | storage :: queue => some (unused storage, { pool with queue })
  | [] =>
    if pool.allocated < pool.capacity then
      some (unused zeroed, { pool with allocated := pool.allocated + 1 })
    else none

/-- No buffer waits and no further one may be made. -/
def Empty (pool : PacketPool) : Prop := pool.queue = [] ∧ pool.capacity ≤ pool.allocated

theorem tryAcquire_eq_none (pool : PacketPool) : pool.tryAcquire = none ↔ pool.Empty := by
  unfold tryAcquire Empty
  cases pool.queue with
  | nil | cons => simp

end PacketPool

end Turn

namespace PacketBuf

open Buffer Turn

def setReadLen (p : PacketBuf) (n : ℕ) : Except StreamError PacketBuf :=
  if h : packetCapacity - packetHeadroom < n then .error .readLength
  else
    have hbounded : packetHeadroom + n ≤ packetCapacity := by
      unfold packetCapacity packetHeadroom at *
      omega
    .ok { p with
      start := packetHeadroom
      stop := packetHeadroom + n
      ordered := Nat.le_add_right _ _
      bounded := hbounded }

def copyFromSlice (p : PacketBuf) (bytes : Bytes) : Except StreamError PacketBuf :=
  if bytes.length = p.len then (p.write p.start bytes).mapError .packet
  else .error (.packet .outOfRange)

def trimFront (p : PacketBuf) (n : ℕ) : Option PacketBuf :=
  if h : n ≤ p.len then
    have hordered : p.start + n ≤ p.stop := by
      have := p.ordered
      unfold len at h
      omega
    some { p with start := p.start + n, ordered := hordered }
  else none

def truncate (p : PacketBuf) (n : ℕ) : Option PacketBuf :=
  if h : n ≤ p.len then
    have hbounded : p.start + n ≤ packetCapacity := by
      have hordered := p.ordered
      have hcapacity := p.bounded
      unfold len at h
      omega
    some { p with stop := p.start + n, ordered := Nat.le_add_right _ _, bounded := hbounded }
  else none

theorem copyFromSlice_setReadLen (p : PacketBuf) {bytes : Bytes}
    (h : bytes.length ≤ packetCapacity - packetHeadroom) :
    ∃ q, (p.setReadLen bytes.length >>= (·.copyFromSlice bytes)) = .ok q ∧ q.asSlice = bytes := by
  have hc : packetHeadroom + bytes.length ≤ p.storage.length := by
    rw [p.capacity]
    unfold packetCapacity packetHeadroom at *
    omega
  refine ⟨{ p with
    storage := overwrite p.storage packetHeadroom bytes
    start := packetHeadroom
    stop := packetHeadroom + bytes.length
    capacity := (length_overwrite hc).trans p.capacity
    ordered := Nat.le_add_right _ _
    bounded := p.capacity ▸ hc }, ?_, slice_overwrite_self hc⟩
  rw [setReadLen, dif_neg (Nat.not_lt.mpr h)]
  change copyFromSlice _ _ = _
  rw [copyFromSlice, if_pos (by simp [len]), write, dif_pos hc]
  rfl

end PacketBuf

namespace Turn

open Buffer Stun

/-! ## Frames -/

inductive TurnStreamFrame
  | control (wire : Bytes)
  | data (packet : PacketBuf)
  | dataDropped

inductive FrameKind
  | control (frameBytes : ℕ)
  | channelData (frameBytes padding : ℕ)

def frameStart (bytes : Bytes) : Except StreamError (Option FrameKind) :=
  if bytes.length < 4 then .ok none
  else
    let declared := u16At bytes 2
    if bytes.getD 0 0 &&& 0xc0 = 0 then
      if declared % 4 ≠ 0 then .error .unalignedControl
      else if maxControlFrameBytes < 20 + declared then .error .controlLimit
      else if bytes.length < 8 then .ok none
      else if slice bytes 4 8 ≠ BigEndian.encode 4 magicCookie then .error .invalidCookie
      else .ok (some (.control (20 + declared)))
    else if bytes.getD 0 0 &&& 0xc0 ≠ 0x40 then .error .reservedType
    else
      let padding := (4 - declared % 4) % 4
      if maxDataFrameBytes < 4 + declared + padding then .error .dataLimit
      else .ok (some (.channelData (4 + declared) padding))

/-- The pool goes on with the packet that was taken from it. -/
def copyChannelData (wire : Bytes) (pool : PacketPool) :
    Except StreamError (TurnStreamFrame × PacketPool) :=
  match pool.tryAcquire with
  | none => .ok (.dataDropped, pool)
  | some (packet, pool) => do
    let packet ← packet.setReadLen wire.length
    let packet ← packet.copyFromSlice wire
    .ok (.data packet, pool)

def decodeFrame (pool : PacketPool) :
    Segments.Decoder UInt8 (TurnStreamFrame × PacketPool) StreamError :=
  fun bytes =>
    match frameStart bytes with
    | .error e => .error e
    | .ok none => .ok none
    | .ok (some (.control frameBytes)) =>
      if bytes.length < frameBytes then .ok none
      else .ok (some ((.control (bytes.take frameBytes), pool), bytes.drop frameBytes))
    | .ok (some (.channelData frameBytes padding)) =>
      if bytes.length < frameBytes + padding then .ok none
      else
        (copyChannelData (bytes.take (frameBytes + padding)) pool).map fun frame =>
          some (frame, bytes.drop (frameBytes + padding))

/-- The buffer and what the stream gives to the next reads. -/
abbrev TurnStreamReader := Segments.Source UInt8 StreamError

def TurnStreamReader.readFrame (reader : TurnStreamReader) (pool : PacketPool) :
    Except StreamError (TurnStreamFrame × PacketPool) × TurnStreamReader :=
  Segments.pull (decodeFrame pool) streamReadBufferBytes .bufferLimit .closed reader.reads
    reader.buffer

/-- Calls of `read_frame`, each with the pool that it finds. -/
def TurnStreamReader.readFrames (reader : TurnStreamReader) (pools : List PacketPool) :
    List (Except StreamError (TurnStreamFrame × PacketPool)) × TurnStreamReader :=
  Segments.pullAll streamReadBufferBytes .bufferLimit .closed (pools.map decodeFrame) reader

/-! ## Well-formed frames -/

/-- A STUN message as it stands on the stream. -/
structure ControlFrame where
  wire : Bytes
  kind : wire.getD 0 0 &&& 0xc0 = 0
  cookie : slice wire 4 8 = BigEndian.encode 4 magicCookie
  aligned : u16At wire 2 % 4 = 0
  declared : wire.length = headerSize + u16At wire 2
  limit : wire.length ≤ maxControlFrameBytes

def channelDataWire (channel : UInt16) (payload padding : Bytes) : Bytes :=
  BigEndian.encode 2 channel.toNat ++ (BigEndian.encode 2 payload.length ++ (payload ++ padding))

/-- A ChannelData message with its padding. -/
structure ChannelDataFrame where
  channel : UInt16
  payload : Bytes
  padding : Bytes
  range : 0x4000 ≤ channel.toNat ∧ channel.toNat ≤ 0x7fff
  padded : padding.length = (4 - payload.length % 4) % 4
  limit : 4 + payload.length + padding.length ≤ maxDataFrameBytes

def ChannelDataFrame.wire (f : ChannelDataFrame) : Bytes :=
  channelDataWire f.channel f.payload f.padding

inductive StreamFrame
  | control (f : ControlFrame)
  | channelData (f : ChannelDataFrame)

def StreamFrame.wire : StreamFrame → Bytes
  | .control f => f.wire
  | .channelData f => f.wire

/-- The answer of `read_frame` for a frame: ChannelData is dropped just if the pool is empty. -/
def StreamFrame.Delivered (frame : StreamFrame) (pool : PacketPool)
    (result : Except StreamError (TurnStreamFrame × PacketPool)) : Prop :=
  match frame with
  | .control f => result = .ok (.control f.wire, pool)
  | .channelData f =>
    (pool.Empty ∧ result = .ok (.dataDropped, pool)) ∨
      ∃ packet empty pool', pool.tryAcquire = some (empty, pool') ∧
        result = .ok (.data packet, pool') ∧ packet.asSlice = f.wire

theorem mask_iff (b : UInt8) : (b &&& 0xc0 = 0 ↔ b.toNat < 64) ∧
    (b &&& 0xc0 = 0x40 ↔ 64 ≤ b.toNat ∧ b.toNat < 128) := by
  have ha : ∀ n < 256, (n &&& 0xc0 = 0 ↔ n < 64) ∧ (n &&& 0xc0 = 0x40 ↔ 64 ≤ n ∧ n < 128) := by
    decide +kernel
  rw [← UInt8.toNat_inj, ← UInt8.toNat_inj]
  exact ha b.toNat b.toNat_lt

section Start

variable {buffer x y : Bytes}

theorem u16At_congr {wire : Bytes} (h : buffer ++ x = wire ++ y) {i : ℕ}
    (hb : i + 2 ≤ buffer.length) (hw : i + 2 ≤ wire.length) : u16At buffer i = u16At wire i := by
  rw [u16At, u16At, slice_congr h i hb hw]

theorem getD_congr {wire : Bytes} (h : buffer ++ x = wire ++ y) (hb : 0 < buffer.length)
    (hw : 0 < wire.length) : buffer.getD 0 0 = wire.getD 0 0 := by
  have hs := slice_congr h 0 (j := 1) hb hw
  have hf := getD_slice buffer (i := 0) (j := 1) (k := 0) (by decide)
  rw [hs, getD_slice wire (by decide)] at hf
  exact hf.symm

theorem ControlFrame.length_ge (f : ControlFrame) : 20 ≤ f.wire.length := by
  rw [f.declared]
  exact Nat.le_add_right _ _

theorem frameStart_control (f : ControlFrame) (h : buffer ++ x = f.wire ++ y) :
    frameStart buffer = if buffer.length < 8 then .ok none
    else .ok (some (.control f.wire.length)) := by
  have hl := f.length_ge
  unfold frameStart
  by_cases hf : buffer.length < 4
  · rw [if_pos hf, if_pos (by omega)]
  · have hfirst : buffer.getD 0 0 = f.wire.getD 0 0 := getD_congr h (by omega) (by omega)
    have hd : u16At buffer 2 = u16At f.wire 2 := u16At_congr h (by omega) (by omega)
    have hs : 20 + u16At f.wire 2 = f.wire.length := f.declared.symm
    rw [if_neg hf]
    rw [hfirst, hd, if_pos f.kind, if_neg (not_not.mpr f.aligned), hs,
      if_neg (Nat.not_lt.mpr f.limit)]
    by_cases he : buffer.length < 8
    · rw [if_pos he, if_pos he]
    · have hc : slice buffer 4 8 = BigEndian.encode 4 magicCookie :=
        (slice_congr h 4 (by omega) (by omega)).trans f.cookie
      rw [if_neg he, if_neg he, if_neg (not_not.mpr hc)]

section Wire

variable {channel : UInt16} {payload padding : Bytes}

theorem length_channelDataWire (channel : UInt16) (payload padding : Bytes) :
    (channelDataWire channel payload padding).length = 4 + payload.length + padding.length := by
  simp only [channelDataWire, List.length_append, BigEndian.length_encode]
  omega

theorem u16At_channelDataWire (channel : UInt16) (padding : Bytes) (h : payload.length < 2 ^ 16) :
    u16At (channelDataWire channel payload padding) 0 = channel.toNat ∧
      u16At (channelDataWire channel payload padding) 2 = payload.length := by
  have hf := slice_middle [] (BigEndian.encode 2 channel.toNat)
    (BigEndian.encode 2 payload.length ++ (payload ++ padding))
  have hs := slice_middle (BigEndian.encode 2 channel.toNat) (BigEndian.encode 2 payload.length)
    (payload ++ padding)
  rw [List.nil_append, List.length_nil, BigEndian.length_encode] at hf
  rw [BigEndian.length_encode, BigEndian.length_encode] at hs
  rw [u16At, u16At, channelDataWire, hf, hs, BigEndian.value_encode_of_lt channel.toNat_lt,
    BigEndian.value_encode_of_lt h]
  exact ⟨rfl, rfl⟩

theorem kind_channelDataWire (h : 0x4000 ≤ channel.toNat ∧ channel.toNat ≤ 0x7fff) :
    (channelDataWire channel payload padding).getD 0 0 &&& 0xc0 = 0x40 := by
  apply (mask_iff _).2.mpr
  change 64 ≤ (UInt8.ofNat (channel.toNat / 256 ^ 1)).toNat ∧
    (UInt8.ofNat (channel.toNat / 256 ^ 1)).toNat < 128
  rw [UInt8.toNat_ofNat']
  omega

end Wire

variable (f : ChannelDataFrame)

theorem ChannelDataFrame.length_wire :
    f.wire.length = 4 + f.payload.length + f.padding.length := length_channelDataWire _ _ _

theorem ChannelDataFrame.payload_lt : f.payload.length < 2 ^ 16 := by
  have hl := f.limit
  unfold maxDataFrameBytes packetCapacity packetHeadroom at hl
  omega

theorem frameStart_channelData (h : buffer ++ x = f.wire ++ y) :
    frameStart buffer = if buffer.length < 4 then .ok none
      else .ok (some (.channelData (4 + f.payload.length) f.padding.length)) := by
  have hl := f.length_wire
  unfold frameStart
  by_cases hf : buffer.length < 4
  · rw [if_pos hf, if_pos hf]
  · have hfirst : buffer.getD 0 0 = f.wire.getD 0 0 := getD_congr h (by omega) (by omega)
    have hd : u16At buffer 2 = f.payload.length :=
      (u16At_congr h (by omega) (by omega)).trans
        (u16At_channelDataWire f.channel f.padding f.payload_lt).2
    rw [if_neg hf, if_neg hf]
    have hk : f.wire.getD 0 0 &&& 0xc0 = 0x40 := kind_channelDataWire f.range
    rw [hfirst, hd, hk, if_neg (by decide), if_neg (not_not.mpr rfl), ← f.padded,
      if_neg (Nat.not_lt.mpr f.limit)]

end Start

/-- What `read_frame` makes of a frame. -/
theorem copyChannelData_delivered (f : ChannelDataFrame) (pool : PacketPool) :
    ∃ frame, copyChannelData f.wire pool = .ok frame ∧
      StreamFrame.Delivered (.channelData f) pool (.ok frame) := by
  unfold copyChannelData
  cases ha : pool.tryAcquire with
  | none => exact ⟨_, rfl, .inl ⟨pool.tryAcquire_eq_none.mp ha, rfl⟩⟩
  | some acquired =>
    obtain ⟨empty, pool'⟩ := acquired
    obtain ⟨packet, hc, hs⟩ := empty.copyFromSlice_setReadLen
      (show f.wire.length ≤ packetCapacity - packetHeadroom by
        rw [f.length_wire]
        exact f.limit)
    refine ⟨(.data packet, pool'), ?_, .inr ⟨packet, empty, pool', ha, rfl, hs⟩⟩
    dsimp only
    rw [← bind_assoc, hc]
    rfl

/-- The decoder asks for more on each part of a frame and finds the frame when it is whole. -/
theorem recognises_frame (frame : StreamFrame) (pool : PacketPool) :
    ∃ answer, Segments.Recognises (decodeFrame pool) frame.wire answer ∧
      frame.Delivered pool (.ok answer) := by
  cases frame with
  | control f =>
    refine ⟨(.control f.wire, pool), ⟨fun buffer missing hwire hmiss => ?_, fun rest => ?_⟩, rfl⟩
    · have hshort : buffer.length < f.wire.length := by
        have hpos := List.length_pos_iff.mpr hmiss
        change buffer ++ missing = f.wire at hwire
        rw [← hwire, List.length_append]
        omega
      have hstart := frameStart_control f (x := missing) (y := [])
        (hwire.trans (List.append_nil f.wire).symm)
      unfold decodeFrame
      rw [hstart]
      split_ifs
      · rfl
      · exact if_pos hshort
    · have hlen := f.length_ge
      have hstart := frameStart_control f (show (f.wire ++ rest) ++ [] = f.wire ++ rest from
        List.append_nil _)
      unfold decodeFrame StreamFrame.wire
      rw [hstart, List.length_append, if_neg (by omega)]
      dsimp only
      rw [if_neg (by omega), List.take_left, List.drop_left]
  | channelData f =>
    obtain ⟨answer, hcopy, hdeliver⟩ := copyChannelData_delivered f pool
    refine ⟨answer, ⟨fun buffer missing hwire hmiss => ?_, fun rest => ?_⟩, hdeliver⟩
    · have hshort : buffer.length < 4 + f.payload.length + f.padding.length := by
        have hpos := List.length_pos_iff.mpr hmiss
        change buffer ++ missing = f.wire at hwire
        rw [← f.length_wire, ← hwire, List.length_append]
        omega
      have hstart := frameStart_channelData f (x := missing) (y := [])
        (hwire.trans (List.append_nil f.wire).symm)
      unfold decodeFrame
      rw [hstart]
      split_ifs
      · rfl
      · exact if_pos hshort
    · have hlen := f.length_wire
      have hstart := frameStart_channelData f (show (f.wire ++ rest) ++ [] = f.wire ++ rest from
        List.append_nil _)
      unfold decodeFrame StreamFrame.wire
      rw [hstart, List.length_append, if_neg (by omega)]
      dsimp only
      rw [if_neg (by omega), ← hlen, List.take_left, List.drop_left, hcopy]
      rfl

theorem StreamFrame.length_wire_le (frame : StreamFrame) :
    frame.wire.length ≤ streamReadBufferBytes := by
  cases frame with
  | control f => exact f.limit
  | channelData f =>
    have hl := f.limit
    rw [← f.length_wire] at hl
    exact hl.trans (by decide)

/-! ## ChannelData -/

def channelDataHeader (wire : Bytes) : Option (UInt16 × ℕ) :=
  if wire.length < 4 ∨ wire.getD 0 0 &&& 0xc0 ≠ 0x40 then none
  else
    let channel := UInt16.ofNat (u16At wire 0)
    if ¬ (0x4000 ≤ channel ∧ channel ≤ 0x7fff) then none
    else
      let payloadLength := u16At wire 2
      if wire.length - 4 < payloadLength then none
      else if 3 < wire.length - 4 - payloadLength then none
      else some (channel, payloadLength)

def channelDataPayload (packet : PacketBuf) : Option (UInt16 × PacketBuf) :=
  match channelDataHeader packet.asSlice with
  | none => none
  | some (channel, payloadLength) =>
    match packet.trimFront 4 with
    | none => none
    | some packet => (packet.truncate payloadLength).map fun packet => (channel, packet)

def channelDataPadding (packet : PacketBuf) (channel : UInt16) : Except StreamError ℕ :=
  if ¬ (0x4000 ≤ channel ∧ channel ≤ 0x7fff) then .error .invalidChannel
  else
    let payloadLength := packet.len
    if 65535 < payloadLength then .error .payloadTooLarge
    else
      let padding := (4 - payloadLength % 4) % 4
      if packet.start < 4 ∨ packetCapacity < packet.stop + padding then .error .exceedsBuffer
      else .ok padding

def encodeChannelData (packet : PacketBuf) (channel : UInt16) : Except StreamError PacketBuf := do
  let padding ← channelDataPadding packet channel
  let payloadLength := packet.len
  let padded ← (packet.extendTail padding).mapError .packet
  let padded ← (padded.write packet.stop (List.replicate padding 0)).mapError .packet
  let framed ← (padded.prepend 4).mapError .packet
  (framed.write framed.start
    (BigEndian.encode 2 channel.toNat ++ BigEndian.encode 2 payloadLength)).mapError .packet

theorem encodeChannelData_eq (packet : PacketBuf) {channel : UInt16} {padding : ℕ}
    (h : channelDataPadding packet channel = .ok padding) :
    ∃ framed, encodeChannelData packet channel = .ok framed ∧
      framed.asSlice = channelDataWire channel packet.asSlice (List.replicate padding 0) := by
  have hroom : 4 ≤ packet.start ∧ packet.stop + padding ≤ packetCapacity := by
    unfold channelDataPadding at h
    dsimp only at h
    split_ifs at h with _ _ hexceed
    cases h
    omega
  have hcap := packet.capacity
  have horder := packet.ordered
  have hlen := packet.length_asSlice
  unfold PacketBuf.len at hlen
  have hfront : (packet.storage.take packet.start).length = packet.start := by
    rw [List.length_take]
    omega
  obtain ⟨p₁, hp₁, hs₁, hstart₁, hstop₁⟩ := PacketBuf.extendTail_of_le hroom.2
  obtain ⟨p₂, hp₂, hs₂, hstart₂, hstop₂⟩ := PacketBuf.write_next (List.replicate padding 0)
    (hs₁.trans packet.storage_split) (i := packet.stop) (by omega)
    (by rw [List.length_replicate, List.length_drop]; omega)
  obtain ⟨p₃, hp₃, hs₃, hstart₃, hstop₃⟩ : ∃ q, p₂.prepend 4 = .ok q ∧ q.storage = p₂.storage ∧
      q.start = p₂.start - 4 ∧ q.stop = p₂.stop := ⟨_, if_pos (by omega), rfl, rfl, rfl⟩
  have hsplit : p₃.storage = packet.storage.take (packet.start - 4) ++ ([] ++
      ((packet.storage.take packet.start).drop (packet.start - 4) ++
        ((packet.asSlice ++ List.replicate padding 0) ++
          (packet.storage.drop packet.stop).drop
            (List.replicate padding (0 : UInt8)).length))) := by
    have hjoin : packet.storage.take (packet.start - 4) ++
        (packet.storage.take packet.start).drop (packet.start - 4) =
        packet.storage.take packet.start := by
      have hsplit := List.take_append_drop (packet.start - 4) (packet.storage.take packet.start)
      rwa [List.take_take, Nat.min_eq_left (Nat.sub_le _ _)] at hsplit
    rw [hs₃, hs₂, List.nil_append,
      ← List.append_assoc (packet.storage.take (packet.start - 4)), hjoin]
  have hdrop : ((packet.storage.take packet.start).drop (packet.start - 4)).length = 4 := by
    rw [List.length_drop]
    omega
  have hstart : p₃.start = (packet.storage.take (packet.start - 4)).length := by
    rw [List.length_take]
    omega
  obtain ⟨p₄, hp₄, hs₄, hstart₄, hstop₄⟩ := PacketBuf.write_next
    (BigEndian.encode 2 channel.toNat ++ BigEndian.encode 2 packet.len) hsplit
    (i := p₃.start) hstart
    (by
      rw [List.length_append, List.length_append, BigEndian.length_encode, BigEndian.length_encode]
      omega)
  rw [List.length_append, BigEndian.length_encode, BigEndian.length_encode, List.drop_left' hdrop,
    List.nil_append, ← List.append_assoc (_ ++ _) (_ ++ _)] at hs₄
  refine ⟨p₄, ?_, ?_⟩
  · simp only [encodeChannelData, h, hp₁, hp₂, hp₃, hp₄, Except.mapError, bind, Except.bind]
  · rw [PacketBuf.asSlice_eq hs₄ (hstart₄.trans hstart)]
    · simp only [channelDataWire, packet.length_asSlice, List.append_assoc]
    · simp only [List.length_append, BigEndian.length_encode, List.length_replicate,
        List.length_take]
      omega

theorem channel_le_iff (channel : UInt16) : 0x4000 ≤ channel ∧ channel ≤ 0x7fff ↔
    0x4000 ≤ channel.toNat ∧ channel.toNat ≤ 0x7fff := by
  exact Iff.rfl

variable {packet : PacketBuf}

theorem channelDataPadding_eq_ok {channel : UInt16} {padding : ℕ} :
    channelDataPadding packet channel = .ok padding ↔
      (0x4000 ≤ channel.toNat ∧ channel.toNat ≤ 0x7fff) ∧ padding = (4 - packet.len % 4) % 4 ∧
        4 ≤ packet.start ∧ packet.stop + padding ≤ packetCapacity := by
  have hb : packet.len ≤ 65535 := by
    have hs := packet.bounded
    unfold PacketBuf.len packetCapacity at *
    omega
  rw [← channel_le_iff, channelDataPadding]
  dsimp only
  rw [if_neg (Nat.not_lt.mpr hb)]
  constructor
  · intro h
    split_ifs at h with hc hr
    cases h
    exact ⟨hc, rfl, by omega, by omega⟩
  · rintro ⟨hc, rfl, hstart, hs⟩
    rw [if_neg (not_not.mpr hc), if_neg (by omega)]

theorem channelDataHeader_wire {channel : UInt16} {payload padding : Bytes}
    (hc : 0x4000 ≤ channel.toNat ∧ channel.toNat ≤ 0x7fff) (hp : payload.length < 2 ^ 16)
    (hpadding : padding.length ≤ 3) :
    channelDataHeader (channelDataWire channel payload padding) =
      some (channel, payload.length) := by
  have hl := length_channelDataWire channel payload padding
  obtain ⟨hf, hs⟩ := u16At_channelDataWire channel padding hp
  unfold channelDataHeader
  rw [hf, hs, UInt16.ofNat_toNat, if_neg,
    if_neg (not_not.mpr ((channel_le_iff channel).mpr hc)), if_neg (by omega), if_neg (by omega)]
  rintro (hshort | hk)
  · omega
  · exact hk (kind_channelDataWire hc)

theorem trimFront_truncate (packet : PacketBuf) (before : Bytes) {payload after : Bytes}
    (h : packet.asSlice = before ++ (payload ++ after)) :
    ∃ trimmed cut, packet.trimFront before.length = some trimmed ∧
      trimmed.truncate payload.length = some cut ∧ cut.asSlice = payload := by
  have hl := packet.length_asSlice
  rw [h, List.length_append, List.length_append] at hl
  have hl' := hl
  unfold PacketBuf.len at hl'
  have hc : payload.length ≤ packet.stop - (packet.start + before.length) := by omega
  refine ⟨_, _, dif_pos (by omega), dif_pos hc, ?_⟩
  have hs := packet.slice_asSlice (i := before.length) (j := before.length + payload.length)
    (by omega)
  rw [h, slice_middle, ← Nat.add_assoc] at hs
  exact hs.symm

theorem padding_of_encode {framed : PacketBuf} {channel : UInt16}
    (h : encodeChannelData packet channel = .ok framed) :
    ∃ padding, channelDataPadding packet channel = .ok padding := by
  cases hp : channelDataPadding packet channel with
  | error =>
    rw [encodeChannelData, hp] at h
    cases h
  | ok padding => exact ⟨padding, rfl⟩

theorem channelDataPayload_encode {framed : PacketBuf} {channel : UInt16}
    (h : encodeChannelData packet channel = .ok framed) :
    ∃ payload, channelDataPayload framed = some (channel, payload) ∧
      payload.asSlice = packet.asSlice := by
  obtain ⟨padding, hp⟩ := padding_of_encode h
  obtain ⟨framed', he, hw⟩ := encodeChannelData_eq packet hp
  cases h.symm.trans he
  obtain ⟨hc, hz, -, hs⟩ := channelDataPadding_eq_ok.mp hp
  have hpay : packet.asSlice.length < 2 ^ 16 := by
    rw [packet.length_asSlice]
    unfold PacketBuf.len packetCapacity at *
    omega
  have hh := channelDataHeader_wire hc hpay
    (show (List.replicate padding (0 : UInt8)).length ≤ 3 by rw [List.length_replicate]; omega)
  obtain ⟨trimmed, cut, ht, htruncate, hcut⟩ := trimFront_truncate framed
    (BigEndian.encode 2 channel.toNat ++ BigEndian.encode 2 packet.asSlice.length)
    (hw.trans (List.append_assoc _ _ _).symm)
  rw [List.length_append, BigEndian.length_encode, BigEndian.length_encode] at ht
  refine ⟨cut, ?_, hcut⟩
  rw [channelDataPayload, hw, hh]
  rw [ht]
  dsimp only
  rw [htruncate]
  rfl

/-! ## Segmentation -/

theorem calls_of_frames : ∀ {frames : List StreamFrame} {pools : List PacketPool},
    pools.length = frames.length →
    ∃ calls : List (Segments.Decoder UInt8 (TurnStreamFrame × PacketPool) StreamError × Bytes ×
        TurnStreamFrame × PacketPool),
      calls.map (·.1) = pools.map decodeFrame ∧ calls.map (·.2.1) = frames.map StreamFrame.wire ∧
      (∀ call ∈ calls, Segments.Recognises call.1 call.2.1 call.2.2 ∧
        call.2.1.length ≤ streamReadBufferBytes) ∧
      List.Forall₂ (fun (call : PacketPool × StreamFrame) result => call.2.Delivered call.1 result)
        (pools.zip frames) (calls.map fun call => .ok call.2.2)
  | [], [], _ => ⟨[], rfl, rfl, fun _ h => absurd h List.not_mem_nil, .nil⟩
  | frame :: frames, pool :: pools, h => by
      obtain ⟨calls, hd, hw, hc, hdev⟩ := calls_of_frames (Nat.succ.inj h)
      obtain ⟨answer, hr, ha⟩ := recognises_frame frame pool
      refine ⟨(decodeFrame pool, frame.wire, answer) :: calls, ?_, ?_, ?_, .cons ha hdev⟩
      · rw [List.map_cons, hd, List.map_cons]
      · rw [List.map_cons, hw, List.map_cons]
      · exact List.forall_mem_cons.mpr ⟨⟨hr, frame.length_wire_le⟩, hc⟩

/-- However the stream of the frames is cut into reads, each call of `read_frame` answers the next
frame, and the call after the last finds the stream closed. ChannelData that is encoded is decoded
to the same channel and payload. -/
theorem stream_framing (frames : List StreamFrame) (segments : List Bytes)
    (hsegments : ∀ segment ∈ segments, segment ≠ [])
    (hstream : segments.flatten = (frames.map StreamFrame.wire).flatten) (pools : List PacketPool)
    (hpools : pools.length = frames.length) :
    let read := TurnStreamReader.readFrames ⟨[], segments.map .ok⟩ pools
    List.Forall₂ (fun (call : PacketPool × StreamFrame) result => call.2.Delivered call.1 result)
        (pools.zip frames) read.1 ∧
      (∀ pool, (read.2.readFrame pool).1 = .error .closed) ∧
      ∀ (packet : PacketBuf) (channel : UInt16),
        ((∃ framed, encodeChannelData packet channel = .ok framed) ↔
          (0x4000 ≤ channel ∧ channel ≤ 0x7fff) ∧ 4 ≤ packet.start ∧
            packet.stop + (4 - packet.len % 4) % 4 ≤ packetCapacity) ∧
        ∀ framed, encodeChannelData packet channel = .ok framed →
          ∃ payload, channelDataPayload framed = some (channel, payload) ∧
            payload.asSlice = packet.asSlice := by
  intro read
  obtain ⟨calls, hdec, hwire, hcall, hdeliver⟩ := calls_of_frames hpools
  have hread : read = (calls.map fun call => .ok call.2.2, ⟨[], []⟩) := by
    change TurnStreamReader.readFrames ⟨[], segments.map .ok⟩ pools = _
    rw [TurnStreamReader.readFrames, ← hdec]
    apply Segments.pullAll_of_recognises calls hcall hsegments
    rw [List.nil_append, hstream, hwire]
  have hclose : ∀ pool, TurnStreamReader.readFrame ⟨[], []⟩ pool = (.error .closed, ⟨[], []⟩) :=
    fun pool => Segments.pull_of_end rfl (by decide)
  rw [hread]
  refine ⟨hdeliver, fun pool => congrArg Prod.fst (hclose pool), fun packet channel =>
    ⟨?_, fun framed => channelDataPayload_encode⟩⟩
  constructor
  · rintro ⟨framed, henc⟩
    obtain ⟨padding, hpad⟩ := padding_of_encode henc
    obtain ⟨hchannel, rfl, hstart, hstop⟩ := channelDataPadding_eq_ok.mp hpad
    exact ⟨hchannel, hstart, hstop⟩
  · rintro ⟨hchannel, hstart, hstop⟩
    obtain ⟨framed, henc, -⟩ := encodeChannelData_eq packet
      (channelDataPadding_eq_ok.mpr ⟨hchannel, rfl, hstart, hstop⟩)
    exact ⟨framed, henc⟩

namespace Cut

def data : ChannelDataFrame := ⟨0x4000, [0xa1, 0xb2, 0xc3], [0], by decide, by decide, by decide⟩

def control : ControlFrame where
  wire := [1, 1, 0, 0, 0x21, 0x12, 0xa4, 0x42] ++ List.replicate 12 0
  kind := by decide
  cookie := by decide
  aligned := by decide
  declared := by decide
  limit := by decide

/-- Three reads, cut in the length of the one frame and in the magic cookie of the other. -/
def segments : List Bytes :=
  [data.wire.take 3, data.wire.drop 3 ++ control.wire.take 6, control.wire.drop 6]

def pool : PacketPool := ⟨[], 0, 1⟩

end Cut

/-- A ChannelData frame and a message in three reads. -/
theorem stream_framing_cut :
    List.Forall₂ (fun (call : PacketPool × StreamFrame) result => call.2.Delivered call.1 result)
      [(Cut.pool, .channelData Cut.data), (Cut.pool, .control Cut.control)]
      (TurnStreamReader.readFrames ⟨[], Cut.segments.map .ok⟩ [Cut.pool, Cut.pool]).1 :=
  (stream_framing [.channelData Cut.data, .control Cut.control] Cut.segments (by decide) (by decide)
    [Cut.pool, Cut.pool] rfl).1

end Turn
end Csqtt
