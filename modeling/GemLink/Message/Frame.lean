import GemLink.Bytes

/-!
Frames in a byte stream. A frame is a four-byte big-endian length and that many bytes; what has been
received and is not yet a whole frame waits in a buffer of fixed capacity.
-/

namespace GemLink

/-- The bytes of the length in front of a frame. -/
def lengthPrefixSize : Nat := 4

/-- The received bytes that wait to become frames. -/
structure FrameBuffer where
  /-- The greatest number of bytes that may wait. -/
  capacity : Nat
  /-- The waiting bytes. -/
  bytes : Bytes := []
  deriving DecidableEq, Repr

namespace FrameBuffer

/-- Adds received bytes; they are refused as a whole if they do not fit. -/
def push? (b : FrameBuffer) (received : Bytes) : Option FrameBuffer :=
  if b.bytes.length + received.length ≤ b.capacity then
    some { b with bytes := b.bytes ++ received }
  else none

/-- The size of the frame at the front, its length prefix included. -/
def frameSize (b : FrameBuffer) : Nat :=
  Bytes.toNat (b.bytes.take lengthPrefixSize) + lengthPrefixSize

/-- Takes out the frame at the front, once it is whole. More than a length prefix must wait, so that
an empty frame is taken out with the bytes behind it. -/
def next? (b : FrameBuffer) : Option (Bytes × FrameBuffer) :=
  if lengthPrefixSize < b.bytes.length ∧ b.frameSize ≤ b.bytes.length then
    some (b.bytes.take b.frameSize, { b with bytes := b.bytes.drop b.frameSize })
  else none

theorem length_next? {b b' : FrameBuffer} {frame : Bytes} (h : b.next? = some (frame, b')) :
    b'.bytes.length < b.bytes.length := by
  simp only [next?] at h
  split at h
  · next hs =>
    simp only [Option.some.injEq, Prod.mk.injEq] at h
    rw [← h.2]
    simp only [List.length_drop, frameSize, lengthPrefixSize] at *
    omega
  · simp at h

/-- Takes out all whole frames. -/
def drain (b : FrameBuffer) : List Bytes × FrameBuffer :=
  match _ : b.next? with
  | none => ([], b)
  | some (frame, rest) =>
    let (frames, last) := rest.drain
    (frame :: frames, last)
termination_by b.bytes.length
decreasing_by exact length_next? ‹_›

/-- Drops what waits. -/
def clear (b : FrameBuffer) : FrameBuffer :=
  { b with bytes := [] }

end FrameBuffer

end GemLink
