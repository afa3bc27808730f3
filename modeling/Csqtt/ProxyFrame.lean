import Csqtt.ProxySequence

/-!
# CSQPX2 frames

Client and server exchange frames of the form magic, kind, stream id, payload. Both ends have the
same encoder and parser, and parsing an encoded frame gives the frame back.
-/

namespace Csqtt

def magic : Bytes := [0x43, 0x53, 0x51, 0x50, 0x58, 0x32]

def headerLen : ℕ := magic.length + 1 + 8

def maxData : ℕ := 1280

def kindOpen : UInt8 := 1
def kindOpenOk : UInt8 := 2
def kindOpenErr : UInt8 := 3
def kindData : UInt8 := 4
def kindClose : UInt8 := 5
def kindResend : UInt8 := 6

theorem kindOpen_ne_kindData : kindOpen ≠ kindData := by decide
theorem kindOpenOk_ne_kindData : kindOpenOk ≠ kindData := by decide
theorem kindOpenErr_ne_kindData : kindOpenErr ≠ kindData := by decide
theorem kindClose_ne_kindData : kindClose ≠ kindData := by decide
theorem kindResend_ne_kindData : kindResend ≠ kindData := by decide

structure Frame where
  kind : UInt8
  streamId : ℕ
  payload : Bytes
  deriving DecidableEq

/-- What a send adds to the queue: a frame the queue refused is not sent. -/
def queue (queued : Bool) (frame : Frame) : List Frame := if queued then [frame] else []

theorem mem_queue {queued : Bool} {frame f : Frame} (h : f ∈ queue queued frame) : f = frame := by
  cases queued with
  | false => cases h
  | true => exact List.mem_singleton.mp h

def isFrame (payload : Bytes) : Bool := headerLen ≤ payload.length && magic.isPrefixOf payload

def parseFrame (payload : Bytes) : Option Frame :=
  if isFrame payload then
    some
      { kind := payload.getD 6 0
        streamId := BigEndian.value ((payload.drop 7).take 8)
        payload := payload.drop headerLen }
  else none

def encodeFrame (frame : Frame) : Bytes :=
  magic ++ [frame.kind] ++ BigEndian.encode 8 frame.streamId ++ frame.payload

theorem parseFrame_encodeFrame {frame : Frame} (hid : frame.streamId < 2 ^ 64) :
    parseFrame (encodeFrame frame) = some frame := by
  have hl : (encodeFrame frame).length = 15 + frame.payload.length := by
    simp [encodeFrame, magic]
    omega
  have hf : isFrame (encodeFrame frame) = true := by
    rw [isFrame, Bool.and_eq_true, hl, List.isPrefixOf_iff_prefix]
    exact ⟨by simp [headerLen, magic], List.prefix_append _ _⟩
  have hk : (encodeFrame frame).getD 6 0 = frame.kind := by rfl
  have hr : (encodeFrame frame).drop 7 =
      BigEndian.encode 8 frame.streamId ++ frame.payload := by rfl
  have hp : (encodeFrame frame).drop headerLen = frame.payload := by
    have hd : (encodeFrame frame).drop headerLen = ((encodeFrame frame).drop 7).drop 8 := by
      rfl
    rw [hd, hr, List.drop_left' (BigEndian.length_encode 8 _)]
  rw [parseFrame, if_pos hf, hk, hr, hp,
    List.take_left' (BigEndian.length_encode 8 _),
    BigEndian.value_encode_of_lt (by omega)]

end Csqtt
