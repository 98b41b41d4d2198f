import GemLink.Message.Frame

/-!
Frames in a byte stream are the same whatever the pieces in which it arrives. What a buffer gives is
the whole frame at its front and nothing else (`next?_eq_some_iff`), and bytes that arrive later do
not change it (`next?_extend`); so the frames of a buffer that grows are those it had, followed by
those of what waited and the new bytes (`drain_extend`). Bytes may be added and frames taken in any
order: an `Intake` keeps account of both, and nothing is lost, added or cut elsewhere
(`framing_exact`).
-/

namespace GemLink

/-- Whether bytes are one whole frame by their length prefix. -/
def IsFrame (frame : Bytes) : Prop :=
  frame.length = lengthPrefixSize + Bytes.toNat (frame.take lengthPrefixSize)

instance (frame : Bytes) : Decidable (IsFrame frame) :=
  inferInstanceAs (Decidable (_ = _))

theorem IsFrame.le_length {frame : Bytes} (h : IsFrame frame) :
    lengthPrefixSize ≤ frame.length :=
  h ▸ Nat.le_add_right _ _

namespace FrameBuffer

variable {b b' : FrameBuffer} {frame : Bytes}

/-- The buffer with more bytes behind those that wait, whether they fit or not. -/
def extend (b : FrameBuffer) (more : Bytes) : FrameBuffer :=
  { b with bytes := b.bytes ++ more }

@[simp] theorem extend_nil (b : FrameBuffer) : b.extend [] = b := by
  simp [extend]

@[simp] theorem extend_extend (b : FrameBuffer) (more others : Bytes) :
    (b.extend more).extend others = b.extend (more ++ others) := by
  simp [extend]

theorem push?_of_le {received : Bytes} (h : b.bytes.length + received.length ≤ b.capacity) :
    b.push? received = some (b.extend received) :=
  if_pos h

theorem push?_of_lt {received : Bytes} (h : b.capacity < b.bytes.length + received.length) :
    b.push? received = none :=
  if_neg (Nat.not_le_of_lt h)

/-- Adds received bytes piece by piece; the pieces that do not fit are refused. -/
def pushAll (b : FrameBuffer) (pieces : List Bytes) : FrameBuffer :=
  pieces.foldl (fun b received => (b.push? received).getD b) b

/-- What waits keeps its place in front of what is added. -/
theorem exists_pushAll_eq (b : FrameBuffer) (pieces : List Bytes) :
    ∃ more, b.pushAll pieces = b.extend more := by
  induction pieces generalizing b with
  | nil => exact ⟨[], (extend_nil b).symm⟩
  | cons received rest ih =>
    have hcons : b.pushAll (received :: rest) = ((b.push? received).getD b).pushAll rest := rfl
    rw [hcons]
    by_cases hf : b.bytes.length + received.length ≤ b.capacity
    · obtain ⟨more, hmore⟩ := ih (b.extend received)
      refine ⟨received ++ more, ?_⟩
      rw [push?_of_le hf, Option.getD_some, hmore, extend_extend]
    · rw [push?_of_lt (Nat.lt_of_not_le hf), Option.getD_none]
      exact ih b

/-! ## One frame -/

/-- A buffer gives the whole frame at its front, if more than a length prefix waits. -/
theorem next?_eq_some_iff :
    b.next? = some (frame, b') ↔ lengthPrefixSize < b.bytes.length ∧ IsFrame frame ∧
      ∃ rest, b.bytes = frame ++ rest ∧ b' = { b with bytes := rest } := by
  constructor
  · intro h
    unfold next? at h
    split at h
    · next hs =>
      obtain ⟨hl, hs⟩ := hs
      simp only [Option.some.injEq, Prod.mk.injEq] at h
      obtain ⟨rfl, rfl⟩ := h
      have hp : min lengthPrefixSize b.frameSize = lengthPrefixSize :=
        Nat.min_eq_left (Nat.le_add_left _ _)
      refine ⟨hl, ?_, _, (List.take_append_drop _ _).symm, rfl⟩
      rw [IsFrame, List.take_take, hp, List.length_take_of_le hs, frameSize, Nat.add_comm]
    · cases h
  · rintro ⟨hl, hf, rest, hb, rfl⟩
    have hp : b.bytes.take lengthPrefixSize = frame.take lengthPrefixSize := by
      rw [hb, List.take_append_of_le_length hf.le_length]
    have hs : b.frameSize = frame.length := by
      rw [frameSize, hp, hf, Nat.add_comm]
    have hle : frame.length ≤ b.bytes.length := by
      rw [hb, List.length_append]
      exact Nat.le_add_right _ _
    rw [next?, if_pos ⟨hl, hs ▸ hle⟩, hs, hb, List.take_left, List.drop_left]

theorem next?_of_bytes {rest : Bytes} (hl : lengthPrefixSize < frame.length) (hf : IsFrame frame)
    (hb : b.bytes = frame ++ rest) : b.next? = some (frame, { b with bytes := rest }) := by
  refine next?_eq_some_iff.mpr ⟨?_, hf, rest, hb, rfl⟩
  rw [hb, List.length_append]
  exact Nat.lt_of_lt_of_le hl (Nat.le_add_right _ _)

/-- Bytes that arrive later do not change the frame at the front. -/
theorem next?_extend (h : b.next? = some (frame, b')) (more : Bytes) :
    (b.extend more).next? = some (frame, b'.extend more) := by
  obtain ⟨hl, hf, rest, hb, rfl⟩ := next?_eq_some_iff.mp h
  refine next?_eq_some_iff.mpr ⟨?_, hf, rest ++ more, ?_, rfl⟩
  · rw [extend, List.length_append]
    exact Nat.lt_of_lt_of_le hl (Nat.le_add_right _ _)
  · rw [extend, hb, List.append_assoc]

/-- A buffer gives nothing as long as no more than a length prefix waits, or less than the frame at
the front. -/
theorem next?_eq_none_iff :
    b.next? = none ↔ b.bytes.length ≤ lengthPrefixSize ∨ b.bytes.length < b.frameSize := by
  unfold next?
  split
  · next hs => simp [hs.1, hs.2]
  · next hs =>
    rw [Decidable.not_and_iff_not_or_not, Nat.not_lt, Nat.not_le] at hs
    simp [hs]

theorem next?_of_empty (h : b.bytes = []) : b.next? = none := by
  rw [next?_eq_none_iff, h]
  exact .inl (Nat.zero_le _)

/-! ## All frames -/

theorem drain_of_none (h : b.next? = none) : b.drain = ([], b) := by
  rw [drain]
  split
  · rfl
  · next hs => simp [h] at hs

theorem drain_of_some (h : b.next? = some (frame, b')) :
    b.drain = (frame :: b'.drain.1, b'.drain.2) := by
  rw [drain]
  split
  · next hs => simp [h] at hs
  · next hs =>
    rw [h] at hs
    cases hs
    rfl

/-- What holds of a buffer that gives no frame, and of one that gives a frame if it holds of what is
left of it, holds of every buffer. -/
theorem drain_induction {P : FrameBuffer → Prop} (done : ∀ b : FrameBuffer, b.next? = none → P b)
    (taken : ∀ (b b' : FrameBuffer) (frame : Bytes), b.next? = some (frame, b') → P b' → P b)
    (b : FrameBuffer) : P b := by
  induction hn : b.bytes.length using Nat.strongRecOn generalizing b with
  | ind n ih =>
    subst hn
    cases h : b.next? with
    | none => exact done b h
    | some p => exact taken b p.2 p.1 h (ih _ (length_next? h) p.2 rfl)

/-- No frame stays behind. -/
theorem next?_drain (b : FrameBuffer) : b.drain.2.next? = none := by
  induction b using drain_induction with
  | done b h => rwa [drain_of_none h]
  | taken b b' frame h ih => rwa [drain_of_some h]

/-- The frames and what stays behind are the bytes that waited. -/
theorem flatten_drain (b : FrameBuffer) : b.drain.1.flatten ++ b.drain.2.bytes = b.bytes := by
  induction b using drain_induction with
  | done b h => rw [drain_of_none h, List.flatten_nil, List.nil_append]
  | taken b b' frame h ih =>
    obtain ⟨-, -, rest, hb, rfl⟩ := next?_eq_some_iff.mp h
    rw [drain_of_some h, List.flatten_cons, List.append_assoc, ih, hb]

/-- What stays behind is no more than what waited. -/
theorem length_drain_le (b : FrameBuffer) : b.drain.2.bytes.length ≤ b.bytes.length := by
  rw [← flatten_drain b, List.length_append]
  exact Nat.le_add_left _ _

theorem capacity_drain (b : FrameBuffer) : b.drain.2.capacity = b.capacity := by
  induction b using drain_induction with
  | done b h => rw [drain_of_none h]
  | taken b b' frame h ih =>
    obtain ⟨-, -, rest, -, rfl⟩ := next?_eq_some_iff.mp h
    rw [drain_of_some h, ih]

theorem next?_capacity (b : FrameBuffer) (capacity : Nat) :
    { b with capacity }.next? = b.next?.map fun p => (p.1, { p.2 with capacity }) := by
  by_cases h : lengthPrefixSize < b.bytes.length ∧ b.frameSize ≤ b.bytes.length
  · have hb : b.next? = some (b.bytes.take b.frameSize, _) := if_pos h
    rw [hb]
    exact if_pos h
  · have hb : b.next? = none := if_neg h
    rw [hb]
    exact if_neg h

/-- The frames do not depend on how many bytes may wait. -/
theorem drain_capacity (b : FrameBuffer) (capacity : Nat) :
    { b with capacity }.drain = (b.drain.1, { b.drain.2 with capacity }) := by
  have hc := next?_capacity b capacity
  induction b using drain_induction with
  | done b h =>
    rw [h, Option.map_none] at hc
    rw [drain_of_none h, drain_of_none hc]
  | taken b b' frame h ih =>
    rw [h, Option.map_some] at hc
    rw [drain_of_some h, drain_of_some hc, ih (next?_capacity b' capacity)]

/-- The frames of a buffer that grows are those it had, followed by those of what waited and the new
bytes. -/
theorem drain_extend (b : FrameBuffer) (more : Bytes) :
    (b.extend more).drain =
      (b.drain.1 ++ (b.drain.2.extend more).drain.1, (b.drain.2.extend more).drain.2) := by
  induction b using drain_induction with
  | done b h => rw [drain_of_none h, List.nil_append]
  | taken b b' frame h ih =>
    rw [drain_of_some h, drain_of_some (next?_extend h more), ih, List.cons_append]

/-- Frames in a row are cut where they were put together, unless one is empty and stands last. -/
theorem drain_of_flatten {frames : List Bytes} (hb : b.bytes = frames.flatten)
    (hf : ∀ frame ∈ frames, IsFrame frame ∧ lengthPrefixSize < frame.length) :
    b.drain = (frames, b.clear) := by
  induction frames generalizing b with
  | nil =>
    have hc : b.clear = b := by rw [clear, ← hb.trans List.flatten_nil]
    rw [drain_of_none (next?_of_empty hb), hc]
  | cons frame rest ih =>
    rw [List.forall_mem_cons] at hf
    obtain ⟨⟨hframe, hl⟩, hrest⟩ := hf
    rw [drain_of_some (next?_of_bytes hl hframe hb), ih rfl hrest]
    rfl

/-! ## Bytes added and frames taken in any order -/

/-- What is done to a buffer. -/
inductive Operation where
  /-- Received bytes are added. -/
  | push (received : Bytes)
  /-- The frame at the front is asked for. -/
  | next

/-- A buffer with an account of what was added to it and taken out. -/
structure Intake where
  /-- The buffer. -/
  buffer : FrameBuffer
  /-- The received bytes that were accepted, in order. -/
  accepted : List Bytes := []
  /-- The frames that were taken out, in order. -/
  taken : List Bytes := []

/-- Does something to the buffer. Bytes that are refused and a frame that is not there change
nothing. -/
def Intake.perform (i : Intake) : Operation → Intake
  | .push received =>
    match i.buffer.push? received with
    | some buffer => { i with buffer, accepted := i.accepted ++ [received] }
    | none => i
  | .next =>
    match i.buffer.next? with
    | some (frame, buffer) => { i with buffer, taken := i.taken ++ [frame] }
    | none => i

/-- What a row of operations makes of an empty buffer. -/
def intake (capacity : Nat) (ops : List Operation) : Intake :=
  ops.foldl Intake.perform { buffer := { capacity } }

namespace Intake

/-- What holds of a buffer that was empty, whatever is done to it. -/
structure Exact (capacity : Nat) (i : Intake) : Prop where
  room : i.buffer.capacity = capacity
  bounded : i.buffer.bytes.length ≤ capacity
  framed : ∀ frame ∈ i.taken, IsFrame frame
  /-- The frames that are still to come are those of all accepted bytes at once. -/
  cut : FrameBuffer.drain { capacity, bytes := i.accepted.flatten } =
    (i.taken ++ i.buffer.drain.1, i.buffer.drain.2)

variable {capacity : Nat} {i : Intake} {received frame : Bytes} {b : FrameBuffer}

theorem perform_push (h : i.buffer.bytes.length + received.length ≤ i.buffer.capacity) :
    i.perform (.push received) =
      { i with buffer := i.buffer.extend received, accepted := i.accepted ++ [received] } := by
  simp only [perform, push?_of_le h]

theorem perform_push_of_lt (h : i.buffer.capacity < i.buffer.bytes.length + received.length) :
    i.perform (.push received) = i := by
  simp only [perform, push?_of_lt h]

theorem perform_next (h : i.buffer.next? = some (frame, b)) :
    i.perform .next = { i with buffer := b, taken := i.taken ++ [frame] } := by
  simp only [perform, h]

theorem perform_next_of_none (h : i.buffer.next? = none) : i.perform .next = i := by
  simp only [perform, h]

theorem Exact.perform (h : i.Exact capacity) (op : Operation) :
    (i.perform op).Exact capacity := by
  cases op with
  | push received =>
    by_cases hf : i.buffer.bytes.length + received.length ≤ i.buffer.capacity
    · rw [perform_push hf]
      refine ⟨h.room, ?_, h.framed, ?_⟩
      · rw [extend, List.length_append, ← h.room]
        exact hf
      · have hwhole : ({ capacity, bytes := (i.accepted ++ [received]).flatten } : FrameBuffer) =
            extend { capacity, bytes := i.accepted.flatten } received := by
          simp [extend]
        rw [hwhole, drain_extend, h.cut, drain_extend i.buffer, List.append_assoc]
    · rwa [perform_push_of_lt (Nat.lt_of_not_le hf)]
  | next =>
    cases hn : i.buffer.next? with
    | none => rwa [perform_next_of_none hn]
    | some p =>
      obtain ⟨frame, b⟩ := p
      rw [perform_next hn]
      have hcut := h.cut
      rw [drain_of_some hn] at hcut
      have hlen := length_next? hn
      obtain ⟨-, hf, rest, -, rfl⟩ := next?_eq_some_iff.mp hn
      refine ⟨h.room, Nat.le_trans (Nat.le_of_lt hlen) h.bounded, ?_, ?_⟩
      · rw [List.forall_mem_append, List.forall_mem_singleton]
        exact ⟨h.framed, hf⟩
      · rw [hcut, List.append_assoc, List.singleton_append]

theorem exact_intake (capacity : Nat) (ops : List Operation) :
    (intake capacity ops).Exact capacity := by
  have hrun : ∀ i : Intake, i.Exact capacity → (ops.foldl Intake.perform i).Exact capacity := by
    induction ops with
    | nil => exact fun _ h => h
    | cons op rest ih => exact fun i h => ih _ (h.perform op)
  exact hrun _ ⟨rfl, Nat.zero_le _, by simp, rfl⟩

/-- What was taken out and what waits are what was accepted. -/
theorem Exact.flow (h : i.Exact capacity) :
    i.taken.flatten ++ i.buffer.bytes = i.accepted.flatten := by
  have hflow := flatten_drain { capacity, bytes := i.accepted.flatten }
  rwa [h.cut, List.flatten_append, List.append_assoc, flatten_drain] at hflow

/-- When no frame is there, those that were taken out are the frames of all accepted bytes at
once. -/
theorem Exact.whole (h : i.Exact capacity) (hn : i.buffer.next? = none)
    (hb : b.bytes = i.accepted.flatten) :
    b.drain = (i.taken, { b with bytes := i.buffer.bytes }) := by
  have hcut := h.cut
  rw [drain_of_none hn, List.append_nil, ← hb] at hcut
  rw [show b = { ({ capacity, bytes := b.bytes } : FrameBuffer) with capacity := b.capacity }
    from rfl, drain_capacity, hcut]

end Intake

/-- Whatever is done to a buffer that was empty, the frames taken out, in order, and then the bytes
that wait are the bytes that were accepted; each frame is as long as its own prefix says; no more
wait than the buffer may hold, and bytes that would not fit are refused as a whole. No frame is
there exactly when no more than a prefix waits, or less than the prefix says; then those taken out
and what waits are those of all accepted bytes at once. -/
theorem framing_exact (capacity : Nat) (ops : List Operation) :
    let i := intake capacity ops
    i.taken.flatten ++ i.buffer.bytes = i.accepted.flatten ∧
      (∀ frame ∈ i.taken, frame.length = 4 + Bytes.toNat (frame.take 4)) ∧
      i.buffer.bytes.length ≤ capacity ∧
      (∀ received, i.perform (.push received) =
        if i.buffer.bytes.length + received.length ≤ capacity then
          { i with buffer := i.buffer.extend received, accepted := i.accepted ++ [received] }
        else i) ∧
      (i.buffer.next? = none ↔ i.buffer.bytes.length ≤ 4 ∨
        i.buffer.bytes.length < Bytes.toNat (i.buffer.bytes.take 4) + 4) ∧
      (i.buffer.next? = none → ∀ b : FrameBuffer, b.bytes = i.accepted.flatten →
        b.drain = (i.taken, { b with bytes := i.buffer.bytes })) := by
  intro i
  have h : i.Exact capacity := Intake.exact_intake capacity ops
  refine ⟨h.flow, h.framed, h.bounded, fun received => ?_, next?_eq_none_iff,
    fun hn b hb => h.whole hn hb⟩
  rw [← h.room]
  split
  · next hf => exact Intake.perform_push hf
  · next hf => exact Intake.perform_push_of_lt (Nat.lt_of_not_le hf)

/-- Pieces that end inside a prefix, between a prefix and what follows it and behind an empty frame,
with one that is refused. -/
def raggedPieces : List Operation :=
  [.push [0, 0], .next, .push [0, 2], .next, .push [7], .push [8, 0, 0, 0, 0], .next, .next,
    .push [0, 0, 0, 1, 9, 0, 0, 0], .push [0, 0, 0, 1], .next, .next]

theorem framing_exact_raggedPieces :
    (intake 10 raggedPieces).taken = [[0, 0, 0, 2, 7, 8], [0, 0, 0, 0]] ∧
      (intake 10 raggedPieces).buffer.next? = none ∧
      FrameBuffer.drain ⟨14, (intake 10 raggedPieces).accepted.flatten⟩ =
        ([[0, 0, 0, 2, 7, 8], [0, 0, 0, 0]], ⟨14, [0, 0, 0, 1]⟩) :=
  have hn : (intake 10 raggedPieces).buffer.next? = none := by decide
  ⟨by decide, hn, (framing_exact 10 raggedPieces).2.2.2.2.2 hn ⟨14, _⟩ rfl⟩

end FrameBuffer

end GemLink
