import GemLink.Proofs.Message.Framing
import GemLink.Proofs.Session.Run

/-!
How received bytes are divided makes no difference to a session. The handling of a frame neither
sees nor touches the bytes that wait, the deadline of their rest and the count of those that were
discarded: it goes on in the same way whatever these are (`FrontChange.handleFrame`). So the frames
of a delivery may be handled before the rest of it has arrived. What arrives in two pieces that both
fit leads to the session to which it leads as one piece (`receive_append`).
-/

namespace GemLink

/-- A change of what a session keeps of the front of a frame. -/
structure FrontChange where
  /-- What becomes of the bytes that wait. -/
  buffer : FrameBuffer → FrameBuffer
  /-- What becomes of the deadline of their rest. -/
  deadline : Option Nat → Option Nat
  /-- What becomes of the count of discarded bytes. -/
  discarded : Nat → Nat
  /-- No deadline is set where there was none. -/
  deadline_none : deadline none = none

namespace FrontChange

/-- The session after the change. -/
def apply (g : FrontChange) (s : Session) : Session :=
  { s with
    buffer := g.buffer s.buffer
    timers := { s.timers with dataComplete := g.deadline s.timers.dataComplete }
    counters := { s.counters with bytesDiscarded := g.discarded s.counters.bytesDiscarded } }

variable (g : FrontChange) (s : Session) (now : Nat)

@[simp] theorem apply_catalog : (g.apply s).catalog = s.catalog := rfl
@[simp] theorem apply_settings : (g.apply s).settings = s.settings := rfl
@[simp] theorem apply_state : (g.apply s).state = s.state := rfl
@[simp] theorem apply_alarms : (g.apply s).alarms = s.alarms := rfl
@[simp] theorem apply_pendingWrites : (g.apply s).pendingWrites = s.pendingWrites := rfl
@[simp] theorem apply_parties : (g.apply s).parties = s.parties := rfl
@[simp] theorem apply_pollTransaction : (g.apply s).pollTransaction = s.pollTransaction := rfl

theorem emit (a : Action) : (g.apply s).emit a = g.apply (s.emit a) :=
  rfl

theorem count {counter : Counter} (hc : counter ≠ .bytesDiscarded) (n : Nat) :
    (g.apply s).count counter n = g.apply (s.count counter n) := by
  cases counter with
  | bytesDiscarded => exact absurd rfl hc
  | _ => rfl

/-- What is chosen without a look at the front may be chosen before the change. -/
theorem ite {p : Prop} [Decidable p] {s t s' t' : Session} (hs : p → s' = g.apply s)
    (ht : ¬p → t' = g.apply t) : (if p then s' else t') = g.apply (if p then s else t) := by
  split
  · next h => exact hs h
  · next h => exact ht h

/-! ## Questions -/

theorem finishStop : (g.apply s).finishStop = g.apply s.finishStop := by
  unfold Session.finishStop
  refine g.ite (fun _ => ?_) fun _ => rfl
  simp only [apply, Session.emit, g.deadline_none]

theorem enterIdle : (g.apply s).enterIdle now = g.apply (s.enterIdle now) := by
  unfold Session.enterIdle
  refine g.ite (fun _ => g.finishStop { s with state := .idle }) fun _ => ?_
  dsimp only
  rw [apply_pendingWrites]
  cases s.pendingWrites with
  | cons w rest => rfl
  | nil => exact g.ite (fun _ => rfl) fun _ => rfl

theorem sendRequest (request : Request) :
    (g.apply s).sendRequest request now = g.apply (s.sendRequest request now) :=
  g.ite (fun _ => g.enterIdle s now) fun _ => rfl

theorem replied : (g.apply s).replied = g.apply s.replied :=
  rfl

theorem completeHandshake :
    (g.apply s).completeHandshake now = g.apply (s.completeHandshake now) := by
  rw [Session.completeHandshake_eq, Session.completeHandshake_eq, apply_settings]
  cases s.settings.linkTestInterval with
  | some interval =>
    exact g.enterIdle { s with
      connection := { s.connection with attempts := 1 }
      handshakeComplete := true
      timers := s.timers.arm .linkTest (now + interval) } now
  | none =>
    exact g.enterIdle { s with
      connection := { s.connection with attempts := 1 }, handshakeComplete := true } now

theorem afterStatus : (g.apply s).afterStatus now = g.apply (s.afterStatus now) :=
  g.ite (fun _ => g.enterIdle s now) fun _ => g.sendRequest s now _

/-! ## Values for the host -/

theorem publishAll (targets : List Variable) (value : Value) (report : Bool) :
    (g.apply s).publishAll targets value report = g.apply (s.publishAll targets value report) := by
  rw [Session.publishAll_eq, Session.publishAll_eq]
  rfl

theorem publishAlarms : (g.apply s).publishAlarms = g.apply s.publishAlarms := by
  rw [Session.publishAlarms_eq, Session.publishAlarms_eq]
  rfl

theorem publishItem (v : Variable) (item : Option Item) :
    (g.apply s).publishItem v item =
      (g.apply (s.publishItem v item).1, (s.publishItem v item).2) := by
  unfold Session.publishItem
  split
  · rfl
  · rfl

theorem publishRow (count : Nat) (c : Cursor) (vs : List Variable) :
    (g.apply s).publishRow count c vs =
      (g.apply (s.publishRow count c vs).1, (s.publishRow count c vs).2) := by
  induction vs generalizing s count c with
  | nil => rfl
  | cons v rest ih => simp only [Session.publishRow, publishItem, ih]

theorem publishRowAndClear (count : Nat) (c : Cursor) (vs : List Variable) :
    (g.apply s).publishRowAndClear count c vs = g.apply (s.publishRowAndClear count c vs) := by
  unfold Session.publishRowAndClear
  rw [publishRow]
  exact g.ite (fun _ => rfl) fun _ => rfl

theorem publishPoll (m : Inbound) (vs : List Variable) (bad : AlertKey) :
    (g.apply s).publishPoll m vs bad = g.apply (s.publishPoll m vs bad) := by
  have hfail : ∀ s : Session, vs.foldl Session.dataFailure (g.apply s) =
      g.apply (vs.foldl Session.dataFailure s) := by
    induction vs with
    | nil => exact fun _ => rfl
    | cons v rest ih => exact fun s => ih (s.dataFailure v)
  unfold Session.publishPoll
  split
  · rw [publishRowAndClear]
    rfl
  · rw [hfail]
    rfl

/-! ## Frames -/

theorem alarmReport (m : Inbound) : (g.apply s).alarmReport m = g.apply (s.alarmReport m) := by
  unfold Session.alarmReport
  cases m.alarmReport? with
  | none => rfl
  | some report =>
    unfold Session.send Session.clear
    rw [apply_parties, emit, emit]
    generalize (s.emit _).emit _ = t
    dsimp only
    rw [apply_alarms]
    cases t.alarms.after? report with
    | none => rfl
    | some alarms => exact g.publishAlarms { t with alarms }

theorem eventReport? (m : Inbound) :
    (g.apply s).eventReport? m = (s.eventReport? m).map g.apply := by
  unfold Session.eventReport?
  rw [apply_catalog]
  cases m.eventHeader? with
  | none => rfl
  | some e =>
    dsimp only
    cases s.catalog.group? e.1 with
    | none => rfl
    | some group =>
      dsimp only
      cases e.2.listHeader? with
      | none => rfl
      | some l =>
        dsimp only
        cases l.2.findReport e.1 group.members.length l.1 with
        | malformed => rfl
        | absent => rfl
        | found values =>
          exact congrArg (fun t : Session => some (t.acknowledgeEvent m))
            (g.publishRowAndClear s _ values group.members)

theorem unsolicited? (m : Inbound) :
    (g.apply s).unsolicited? m = (s.unsolicited? m).map g.apply := by
  unfold Session.unsolicited?
  rw [alarmReport, eventReport?]
  split
  · rfl
  · split
    · rfl
    · split
      · rfl
      · split
        · rfl
        · rfl

theorem acknowledged? (m : Inbound) (function : UInt8) (next : Option Request) :
    (g.apply s).acknowledged? m function next now =
      (s.acknowledged? m function next now).map g.apply := by
  unfold Session.acknowledged?
  split
  · cases next with
    | some request => exact congrArg some (g.sendRequest s.replied now request)
    | none => exact congrArg some (g.completeHandshake s.replied now)
  · rfl

theorem polled? (m : Inbound) (stream function : UInt8) (vs : List Variable) (bad : AlertKey)
    {next : Session → Session} (hn : ∀ s, next (g.apply s) = g.apply (next s)) :
    (g.apply s).polled? m stream function vs bad next now =
      (s.polled? m stream function vs bad next now).map g.apply := by
  unfold Session.polled?
  rw [replied, publishPoll, hn, apply_pollTransaction]
  split
  · exact congrArg some (hn (s.replied.raise bad none))
  · split
    · split
      · rfl
      · rfl
    · rfl

theorem reply? (m : Inbound) : (g.apply s).reply? m now = (s.reply? m now).map g.apply := by
  unfold Session.reply?
  rw [apply_state, apply_catalog]
  cases s.state with
  | idle => rfl
  | awaitingEquipment =>
    dsimp only
    split
    · rfl
    · rfl
  | awaitingWrite =>
    dsimp only
    split
    · exact congrArg some (g.enterIdle ((s.cancel .writeTimeout).clear .writeFailed) now)
    · rfl
  | awaitingReply request =>
    cases request with
    | select =>
      dsimp only
      split
      · rfl
      · rfl
    | establish =>
      dsimp only
      split
      · exact congrArg some (g.sendRequest s.replied now .enableAlarms)
      · rfl
    | enableAlarms =>
      dsimp only
      split
      · split
        · exact congrArg some (g.sendRequest s.replied now .deleteReports)
        · exact congrArg some (g.completeHandshake s.replied now)
      · rfl
    | deleteReports => exact g.acknowledged? s now m 34 _
    | defineReports => exact g.acknowledged? s now m 34 _
    | linkReports => exact g.acknowledged? s now m 36 _
    | enableEvents => exact g.acknowledged? s now m 38 _
    | statusVariables => exact g.polled? s now m 1 4 _ _ fun s => g.afterStatus s now
    | equipmentConstants => exact g.polled? s now m 2 14 _ _ fun s => g.enterIdle s now

/-- The handling of a frame neither sees nor touches what is kept of the front of another. -/
theorem handleFrame (frame : Bytes) :
    (g.apply s).handleFrame now frame = g.apply (s.handleFrame now frame) := by
  unfold Session.handleFrame
  rw [g.count s (by decide)]
  generalize s.count .framesReceived 1 = t
  cases Inbound.read? frame with
  | none => rfl
  | some m =>
    dsimp only
    rw [unsolicited?, reply?]
    cases t.unsolicited? m with
    | some u => rfl
    | none =>
      cases t.reply? m now with
      | some u => rfl
      | none => exact g.ite (fun _ => rfl) fun _ => rfl

theorem handleFrames (frames : List Bytes) :
    frames.foldl (Session.handleFrame now) (g.apply s) =
      g.apply (frames.foldl (Session.handleFrame now) s) := by
  induction frames generalizing s with
  | nil => rfl
  | cons frame rest ih =>
    rw [List.foldl_cons, List.foldl_cons, handleFrame]
    exact ih _

/-- The bytes that wait, and how many were discarded, are those of a given session. -/
def keep (s : Session) : FrontChange where
  buffer _ := s.buffer
  deadline d := d
  discarded _ := s.counters.bytesDiscarded
  deadline_none := rfl

/-- Other bytes wait. -/
def place (buffer : FrameBuffer) : FrontChange where
  buffer _ := buffer
  deadline d := d
  discarded n := n
  deadline_none := rfl

/-- Other bytes wait, and no deadline is set for their rest. -/
def renew (buffer : FrameBuffer) : FrontChange where
  buffer _ := buffer
  deadline _ := none
  discarded n := n
  deadline_none := rfl

/-- Only the last change of this kind counts. -/
theorem renew_renew (b b' : FrameBuffer) :
    (renew b).apply ((renew b').apply s) = (renew b).apply s :=
  rfl

end FrontChange

namespace Session

variable {s : Session} {now : Nat} {received : Bytes}

/-- The deadline is set anew when all frames have been handled. -/
theorem renew_awaitRest (b : FrameBuffer) (s : Session) (now : Nat) :
    (FrontChange.renew b).apply (s.awaitRest now) = (FrontChange.renew b).apply s := by
  rw [awaitRest_eq]
  split
  · rfl
  · rfl

theorem accept_of_le (h : s.buffer.bytes.length + received.length ≤ s.buffer.capacity) :
    s.accept received = { s with buffer := s.buffer.extend received } := by
  rw [accept, FrameBuffer.push?_of_le h]

/-- Bytes that do not fit are discarded as a whole. -/
theorem accept_of_lt (h : s.buffer.capacity < s.buffer.bytes.length + received.length) :
    s.accept received = s.count .bytesDiscarded received.length := by
  rw [accept, FrameBuffer.push?_of_lt h]

/-- Bytes that fit are cut into frames together with those that wait. These frames may be handled
before what is left of the bytes is put in its place. -/
theorem receive_eq (h : s.buffer.bytes.length + received.length ≤ s.buffer.capacity) :
    s.receive received now =
      ((FrontChange.renew (s.buffer.extend received).drain.2).apply
        ((s.buffer.extend received).drain.1.foldl (handleFrame now) s)).awaitRest now := by
  unfold receive
  rw [accept_of_le h]
  dsimp only
  generalize (s.buffer.extend received).drain = d
  calc (d.1.foldl (handleFrame now) { s with buffer := d.2 }).awaitRest now
      = ((FrontChange.place d.2).apply (d.1.foldl (handleFrame now) s)).awaitRest now := by
        rw [← FrontChange.handleFrames]
        rfl
    _ = ((FrontChange.renew d.2).apply (d.1.foldl (handleFrame now) s)).awaitRest now := rfl

/-- What waits after bytes that fit have been handled is what they leave behind of their frames. -/
theorem buffer_receive (now : Nat)
    (h : s.buffer.bytes.length + received.length ≤ s.buffer.capacity) :
    (s.receive received now).buffer = (s.buffer.extend received).drain.2 := by
  rw [receive_eq h, awaitRest_eq]
  rfl

/-- Bytes that are received in two pieces, both of which fit, lead to the session to which they lead
in one piece. -/
theorem receive_append (s : Session) (now : Nat) (a b : Bytes)
    (h : s.buffer.bytes.length + a.length + b.length ≤ s.buffer.capacity) :
    s.receive (a ++ b) now = (s.receive a now).receive b now := by
  have hwhole : s.buffer.bytes.length + (a ++ b).length ≤ s.buffer.capacity := by
    rwa [List.length_append, ← Nat.add_assoc]
  have hfirst : s.buffer.bytes.length + a.length ≤ s.buffer.capacity :=
    Nat.le_trans (Nat.le_add_right _ _) h
  have hrest := buffer_receive now hfirst
  have hsecond : (s.receive a now).buffer.bytes.length + b.length ≤
      (s.receive a now).buffer.capacity := by
    have hle := (s.buffer.extend a).length_drain_le
    rw [hrest, FrameBuffer.capacity_drain]
    unfold FrameBuffer.extend at hle ⊢
    rw [List.length_append] at hle
    dsimp only at hle ⊢
    omega
  rw [receive_eq hwhole, receive_eq hsecond, hrest, ← FrameBuffer.extend_extend,
    FrameBuffer.drain_extend, List.foldl_append, receive_eq hfirst]
  generalize (s.buffer.extend a).drain = first
  generalize (first.2.extend b).drain = second
  generalize first.1.foldl (handleFrame now) s = t
  -- the frames of the second piece find the session that those of the first have left, but for the
  -- front that waits in between, of which they see nothing
  have hmeanwhile : (FrontChange.renew second.2).apply (second.1.foldl (handleFrame now)
      (((FrontChange.renew first.2).apply t).awaitRest now)) =
        (FrontChange.renew second.2).apply (second.1.foldl (handleFrame now) t) := by
    rw [← FrontChange.handleFrames, renew_awaitRest, FrontChange.renew_renew,
      FrontChange.handleFrames]
  rw [hmeanwhile]

/-- A stop that waits for the answer to the request to establish communication. -/
def lateStop : List Occurrence :=
  openTalk.take 4 ++ [(507, .stop)]

/-- The stop ends with the answer, while the front of an answer to a link test waits behind it; the
rest of that is handled by a session that is closed. -/
theorem receive_append_lateStop :
    let s := (ofCatalog "press" {} {}).after lateStop
    let a : Bytes :=
      [0, 0, 0, 17, 0, 0, 1, 14, 0, 0, 0, 0, 0, 1, 1, 2, 33, 1, 0, 1, 0, 0, 0, 0, 10, 0xFF, 0xFF]
    let b : Bytes := [0, 0, 0, 6, 0, 0, 0, 1]
    s.connection.opened = true ∧ (s.receive a 508).connection.opened = false ∧
      (s.receive a 508).timers.dataComplete = some 1008 ∧
      s.receive (a ++ b) 508 = (s.receive a 508).receive b 508 := by
  intro s a b
  exact ⟨by decide +kernel, by decide +kernel, by decide +kernel,
    receive_append s 508 a b (by decide +kernel)⟩

end Session

end GemLink
