import GemLink.Proofs.Message.Framing
import GemLink.Proofs.Message.Header
import GemLink.Proofs.Session.Alike

/-!
Messages that the equipment sends of its own accord do not disturb what is asked of it. A question
whether the host is there, an alarm or an event that arrives as one whole frame, well-formed or not,
leaves all of a session as it was but the alarms, the actions and the counts, and no frame is sent
but its answer (`aside_step_data`). A run can therefore do without such deliveries: with or without
them the session comes to the same core, and sends the same frames at all other events
(`undisturbed`).
-/

namespace GemLink

/-- The streams and functions of a question whether the host is there, of an alarm and of an
event. -/
def unsolicitedMessages : List (UInt8 × UInt8) :=
  [(1, 1), (5, 1), (6, 11)]

/-- Whether a message asks if the host is there, reports an alarm or reports an event. -/
def Inbound.isUnsolicited (m : Inbound) : Bool :=
  unsolicitedMessages.any fun p => m.header.carries p.1 p.2

/-- Whether bytes are one whole frame, by its length prefix, that carries such a message. -/
def IsUnsolicited (frame : Bytes) : Prop :=
  lengthPrefixSize + Bytes.toNat (frame.take lengthPrefixSize) = frame.length ∧
    (Inbound.read? frame).any Inbound.isUnsolicited = true

instance (frame : Bytes) : Decidable (IsUnsolicited frame) :=
  inferInstanceAs (Decidable (_ ∧ _))

/-- Whether a frame answers a message: it carries its stream and the next function, and is known by
its system bytes. -/
def Inbound.isAnsweredBy (m : Inbound) (frame : Bytes) : Bool :=
  (Header.read? frame).any fun h =>
    h.carries m.header.stream (m.header.function + 1) && h.system == m.header.system

/-! ## One delivery -/

theorem length_of_read? {frame : Bytes} {m : Inbound} (h : Inbound.read? frame = some m) :
    bodyOffset ≤ frame.length := by
  unfold Inbound.read? Header.read? at h
  split at h
  · simp [bodyOffset, lengthPrefixSize, Header.size]
  · cases h

theorem drain_of_empty {b : FrameBuffer} (h : b.bytes = []) : b.drain = ([], b) :=
  FrameBuffer.drain_of_none (FrameBuffer.next?_of_empty h)

/-- A whole frame is taken out as it is. -/
theorem drain_of_whole {b : FrameBuffer} (hl : lengthPrefixSize < b.bytes.length)
    (h : lengthPrefixSize + Bytes.toNat (b.bytes.take lengthPrefixSize) = b.bytes.length) :
    b.drain = ([b.bytes], b.clear) := by
  have hf : IsFrame b.bytes := h.symm
  refine FrameBuffer.drain_of_flatten (List.append_nil _).symm ?_
  rw [List.forall_mem_singleton]
  exact ⟨hf, hl⟩

theorem carries_unique {h : Header} {stream function stream' function' : UInt8}
    (hc : h.carries stream function = true) (hc' : h.carries stream' function' = true) :
    stream = stream' ∧ function = function' := by
  simp only [Header.carries, Bool.and_eq_true, beq_iff_eq] at hc hc'
  exact ⟨hc.1.2.symm.trans hc'.1.2, hc.2.symm.trans hc'.2⟩

theorem isAnsweredBy_reply {m : Inbound} {stream function : UInt8} (hs : stream.toNat < 128)
    (hc : m.header.carries stream function = true) (p : Parties) (body : Item) :
    m.isAnsweredBy (p.reply stream (function + 1) m.header.system body) = true := by
  simp only [Header.carries, Bool.and_eq_true, beq_iff_eq] at hc
  unfold Inbound.isAnsweredBy Parties.reply
  rw [Header.read?_message _ _ hs, Option.any_some, hc.1.2, hc.2]
  simp [Header.carries]

namespace Session

variable {s t : Session} {now : Nat} {m : Inbound}

/-- The streams and functions that a session waits for. -/
def awaitedMessages : List (UInt8 × UInt8) :=
  [(1, 0), (1, 4), (1, 13), (1, 14), (2, 14), (2, 16), (2, 34), (2, 36), (2, 38), (5, 0), (5, 4)]

theorem not_awaited {p : UInt8 × UInt8} (h : p ∈ unsolicitedMessages) : p ∉ awaitedMessages := by
  simp only [unsolicitedMessages, List.mem_cons, List.not_mem_nil, or_false] at h
  rcases h with rfl | rfl | rfl
  · decide
  · decide
  · decide

theorem awaited_of_accepts {stream function : UInt8} (h : accepts m stream function = true)
    (hp : (stream, function) ∈ awaitedMessages) :
    ∃ p ∈ awaitedMessages, m.header.carries p.1 p.2 = true := by
  unfold accepts at h
  rw [Bool.and_eq_true] at h
  exact ⟨(stream, function), hp, h.1⟩

theorem awaited_of_isAcceptedBy {request : Request} (h : request.isAcceptedBy m = true) :
    ∃ p ∈ awaitedMessages, m.header.carries p.1 p.2 = true := by
  cases request with
  | establish =>
    unfold Request.isAcceptedBy at h
    rw [Bool.and_eq_true] at h
    exact ⟨(1, 14), by decide, h.1⟩
  | enableAlarms =>
    unfold Request.isAcceptedBy at h
    rw [Bool.or_eq_true] at h
    rcases h with h | h
    · exact awaited_of_accepts h (by decide)
    · exact awaited_of_accepts h (by decide)
  | deleteReports => exact awaited_of_accepts h (by decide)
  | defineReports => exact awaited_of_accepts h (by decide)
  | linkReports => exact awaited_of_accepts h (by decide)
  | enableEvents => exact awaited_of_accepts h (by decide)
  | select => cases h
  | statusVariables => cases h
  | equipmentConstants => cases h

theorem awaited_of_isPolledBy {request : Request} (h : request.isPolledBy m = true) :
    ∃ p ∈ awaitedMessages, m.header.carries p.1 p.2 = true := by
  cases request with
  | statusVariables => exact ⟨(1, 4), by decide, h⟩
  | equipmentConstants => exact ⟨(2, 14), by decide, h⟩
  | _ => cases h

/-- An answer opens the communication or is known by its stream and function. -/
theorem Answer.awaited (h : s.Answer m now t) :
    m.isSelectResponse = true ∨ ∃ p ∈ awaitedMessages, m.header.carries p.1 p.2 = true := by
  cases h with
  | selected _ hm => exact .inl hm
  | approached _ hm => exact .inr ⟨(1, 13), by decide, hm⟩
  | advanced request _ _ hm _ => exact .inr (awaited_of_isAcceptedBy hm)
  | completed request _ hm _ => exact .inr (awaited_of_isAcceptedBy hm)
  | failed request _ _ hm =>
    unfold Inbound.isFailedTransaction at hm
    rw [Bool.and_eq_true] at hm
    exact .inr ⟨(1, 0), by decide, hm.2⟩
  | polled request _ _ hm _ => exact .inr (awaited_of_isPolledBy hm)
  | mismatched request _ _ hm _ => exact .inr (awaited_of_isPolledBy hm)
  | written _ hm => exact .inr (awaited_of_accepts hm (by decide))

/-- Nobody waits for an unsolicited message. -/
theorem not_answer_of_isUnsolicited (hm : m.isUnsolicited = true) : ¬s.Answer m now t := by
  intro ha
  obtain ⟨p, hp, hc⟩ := List.any_eq_true.mp hm
  rcases ha.awaited with hs | ⟨q, hq, hc'⟩
  · simp only [Inbound.isSelectResponse, Header.carries, Bool.and_eq_true, beq_iff_eq] at hs hc
    rw [hc.1.1] at hs
    exact absurd hs.2 (by decide)
  · obtain ⟨h₁, h₂⟩ := carries_unique hc hc'
    have hpq : p = q := Prod.ext h₁ h₂
    exact not_awaited hp (hpq ▸ hq)

/-- What leaves the core of a session as it is and sends nothing but answers to a message. -/
def Aside (m : Inbound) (s t : Session) : Prop :=
  t.core = s.core ∧ ∃ acts, t.outbox = s.outbox ++ acts ∧
    ∀ frame ∈ acts.filterMap Action.frame?, m.isAnsweredBy frame = true

theorem aside_of_news (h : News s t) : Aside m s t := by
  obtain ⟨acts, c, rfl, ha⟩ := h
  refine ⟨rfl, acts, rfl, ?_⟩
  rw [filterMap_frame?_of_news ha]
  simp

theorem aside_send {frame : Bytes} (h : m.isAnsweredBy frame = true) : Aside m s (s.send frame) := by
  refine ⟨rfl, [.send frame], rfl, ?_⟩
  simpa [Action.frame?] using h

theorem Aside.trans {u : Session} (h : Aside m s t) (h' : Aside m t u) : Aside m s u := by
  obtain ⟨hc, acts, ho, ha⟩ := h
  obtain ⟨hc', acts', ho', ha'⟩ := h'
  refine ⟨hc'.trans hc, acts ++ acts', ?_, ?_⟩
  · rw [ho', ho, List.append_assoc]
  · rw [List.filterMap_append, List.forall_mem_append]
    exact ⟨ha, ha'⟩

theorem aside_of_heard (hm : m.isUnsolicited = true) (h : s.Heard m t) : Aside m s t := by
  cases h with
  | asked hc => exact aside_send (isAnsweredBy_reply (by decide) hc _ _)
  | timedOut hc =>
    obtain ⟨p, hp, hc'⟩ := List.any_eq_true.mp hm
    obtain ⟨h₁, h₂⟩ := carries_unique hc' hc
    have hpq : p = (9, 9) := Prod.ext h₁ h₂
    rw [hpq] at hp
    exact absurd hp (by decide)
  | malformed _ => exact aside_of_news (News.emit s rfl)
  | alarmed hc alarms _ ht =>
    have hs : Aside m s (s.send (s.parties.reply 5 2 m.header.system Body.acceptance)) :=
      aside_send (isAnsweredBy_reply (by decide) hc _ _)
    refine Aside.trans ?_ (aside_of_news ht)
    exact ⟨rfl, hs.2⟩
  | reported hc u ht =>
    exact (aside_of_news ht).trans (aside_send (isAnsweredBy_reply (by decide) hc _ _))

/-- A frame with an unsolicited message, well-formed or not, is at most answered. -/
theorem aside_handleFrame {frame : Bytes} (h : Inbound.read? frame = some m)
    (hm : m.isUnsolicited = true) : Aside m s (handleFrame now s frame) := by
  have hf := handled_handleFrame s now frame
  generalize handleFrame now s frame = t at hf
  cases hf with
  | heard m' hm' _ ht =>
    rw [h] at hm'
    cases hm'
    exact (aside_of_news (News.count s .framesReceived 1)).trans (aside_of_heard hm ht)
  | answered m' hm' _ ht =>
    rw [h] at hm'
    cases hm'
    exact absurd ht (not_answer_of_isUnsolicited hm)
  | ignored counters => exact aside_of_news ⟨[], counters, by simp, by simp⟩

/-- Nothing that waits is nothing to wait for the rest of. -/
theorem core_awaitRest (hw : s.Waiting) (hb : s.buffer.bytes = []) :
    (s.awaitRest now).core = s.core := by
  have ha : s.timers.isArmed .dataComplete = false := by
    rw [Bool.eq_false_iff]
    exact fun ha => hw ha hb
  simp only [awaitRest, cancel, hb, List.isEmpty_nil, if_true, Timers.cancel_eq_self ha]

/-- The delivery of one unsolicited message as one whole frame leaves the core of a session as it
is and is at most answered, also when the frame does not fit into the buffer. -/
theorem aside_step_data (now : Nat) (hw : s.Waiting) (hb : s.buffer.bytes = [])
    {frame : Bytes} (h : IsUnsolicited frame) :
    ∃ m, Inbound.read? frame = some m ∧ Aside m s (s.step now (.data frame)) := by
  obtain ⟨hl, hm⟩ := h
  obtain ⟨m, hr, hm⟩ := (Option.any_eq_true _ _).mp hm
  refine ⟨m, hr, ?_⟩
  have hlen := length_of_read? hr
  have hclear : s.buffer.clear = s.buffer := by
    rw [FrameBuffer.clear, ← hb]
  have hrest : ∀ t : Session, Aside m s t → Aside m s (t.awaitRest now) := by
    rintro t ⟨hc, ho⟩
    refine ⟨?_, ?_⟩
    · rw [((alike_of_core hc).awaitRest now).core]
      exact core_awaitRest hw hb
    · rw [awaitRest_eq]
      exact ho
  show Aside m s (s.receive frame now)
  unfold receive
  by_cases hf : s.buffer.bytes.length + frame.length ≤ s.buffer.capacity
  · have ha : s.accept frame = { s with buffer := { s.buffer with bytes := frame } } := by
      rw [accept, FrameBuffer.push?, if_pos hf, hb, List.nil_append]
    have hd : ({ s.buffer with bytes := frame } : FrameBuffer).drain = ([frame], s.buffer.clear) :=
      drain_of_whole (Nat.lt_of_lt_of_le (by decide) hlen) hl
    rw [ha]
    dsimp only
    rw [hd, hclear]
    exact hrest _ (aside_handleFrame hr hm)
  · have ha : s.accept frame = s.count .bytesDiscarded frame.length := by
      rw [accept, FrameBuffer.push?, if_neg hf]
    have hd : s.buffer.drain = ([], s.buffer) := drain_of_empty hb
    rw [ha]
    dsimp only [count]
    rw [hd]
    exact hrest _ (aside_of_news (News.count s .bytesDiscarded frame.length))

/-! ## Runs -/

/-- The frames that a session sends at an event. -/
def sentAt (s : Session) (o : Occurrence) : List Bytes :=
  ((s.step o.1 o.2).outbox.drop s.outbox.length).filterMap Action.frame?

/-- The frames that a session sends at the events of a run, event by event. -/
def sent (s : Session) : List Occurrence → List (List Bytes)
  | [] => []
  | o :: rest => s.sentAt o :: (s.step o.1 o.2).sent rest

/-- The events of a run that is marked, with the marked ones. -/
def whole (run : List (Occurrence × Bool)) : List Occurrence :=
  run.map Prod.fst

/-- The events of a run that is marked, without the marked ones. -/
def kept (run : List (Occurrence × Bool)) : List Occurrence :=
  (run.filter fun e => !e.2).map Prod.fst

/-- The frames that a session sends at the events of a run that are not marked. -/
def sentKept (s : Session) : List (Occurrence × Bool) → List (List Bytes)
  | [] => []
  | (o, true) :: rest => (s.step o.1 o.2).sentKept rest
  | (o, false) :: rest => s.sentAt o :: (s.step o.1 o.2).sentKept rest

/-- Whether at the marked events of a run a session only answers what they deliver. -/
def OnlyAnswersMarked (s : Session) : List (Occurrence × Bool) → Prop
  | [] => True
  | (o, marked) :: rest =>
    (marked = true → ∃ delivered m, o.2 = .data delivered ∧ Inbound.read? delivered = some m ∧
      ∀ frame ∈ s.sentAt o, m.isAnsweredBy frame = true) ∧
      (s.step o.1 o.2).OnlyAnswersMarked rest

/-- Whether each marked event of a run is the delivery of one unsolicited message as a whole frame
while nothing waits in the buffer. -/
def Removable (s : Session) : List (Occurrence × Bool) → Prop
  | [] => True
  | (o, marked) :: rest =>
    (marked = true → s.buffer.bytes = [] ∧ ∃ frame, o.2 = .data frame ∧ IsUnsolicited frame) ∧
      (s.step o.1 o.2).Removable rest

theorem Removable.take {run : List (Occurrence × Bool)} (h : s.Removable run) (n : Nat) :
    s.Removable (run.take n) := by
  induction run generalizing s n with
  | nil => simpa using h
  | cons e rest ih =>
    obtain ⟨o, marked⟩ := e
    cases n with
    | zero => trivial
    | succ n => exact ⟨h.1, ih h.2 n⟩

/-- Sessions of one core send the same frames at an event and come to one core. -/
theorem step_of_core (h : t.core = s.core) (o : Occurrence) :
    (t.step o.1 o.2).core = (s.step o.1 o.2).core ∧ t.sentAt o = s.sentAt o := by
  obtain ⟨hc, x, y, hx, hy, hf⟩ := (alike_of_core h).step o.1 o.2
  refine ⟨hc, ?_⟩
  unfold sentAt
  rw [hx, hy, List.drop_left, List.drop_left, hf]

/-- A run and what is left of it keep two sessions of one core at one core. -/
theorem undisturbed_of_core {run : List (Occurrence × Bool)} (hw : s.Waiting)
    (h : s.Removable run) (hc : t.core = s.core) :
    (t.after (kept run)).core = (s.after (whole run)).core ∧
      t.sent (kept run) = s.sentKept run ∧ s.OnlyAnswersMarked run := by
  induction run generalizing s t with
  | nil => exact ⟨hc, rfl, trivial⟩
  | cons e rest ih =>
    obtain ⟨o, marked⟩ := e
    obtain ⟨hm, hr⟩ := h
    have hn := hw.step o.1 o.2
    cases marked with
    | true =>
      obtain ⟨hb, delivered, ho, hf⟩ := hm rfl
      obtain ⟨m, hread, hcore, acts, hacts, hanswers⟩ := aside_step_data o.1 hw hb hf
      rw [← ho] at hcore hacts
      obtain ⟨ih₁, ih₂, ih₃⟩ := ih hn hr (hc.trans hcore.symm)
      refine ⟨ih₁, ih₂, ?_, ih₃⟩
      intro _
      refine ⟨delivered, m, ho, hread, ?_⟩
      rwa [sentAt, hacts, List.drop_left]
    | false =>
      obtain ⟨hs, hsent⟩ := step_of_core hc o
      obtain ⟨ih₁, ih₂, ih₃⟩ := ih hn hr hs
      refine ⟨ih₁, ?_, nofun, ih₃⟩
      show t.sentAt o :: (t.step o.1 o.2).sent (kept rest) = _
      rw [hsent, ih₂]
      rfl

/-- From any session that a run has led to, any run and what is left of it without any unsolicited
messages, each delivered as a whole frame while nothing waits in the buffer, lead at every later
point to the same core, all other events send the same frames, and those messages are at most
answered. -/
theorem undisturbed (machine : String) (model : Model) (catalog : Catalog)
    (before : List Occurrence) (run : List (Occurrence × Bool))
    (h : ((ofCatalog machine model catalog).after before).Removable run) (n : Nat) :
    let s := (ofCatalog machine model catalog).after before
    (s.after (kept (run.take n))).core = (s.after (whole (run.take n))).core ∧
      s.sent (kept (run.take n)) = s.sentKept (run.take n) ∧
      s.OnlyAnswersMarked (run.take n) := by
  have hw : (ofCatalog machine model catalog).Waiting := nofun
  exact undisturbed_of_core (hw.after before) (h.take n) rfl

/-- A question whether the host is there, which wants an answer. -/
def areYouThere : Bytes :=
  [0, 0, 0, 10, 0, 0, 0x81, 1, 0, 0, 0, 1, 0, 7]

theorem undisturbed_areYouThere :
    let s := (ofCatalog "press" {} {}).after [(0, .opened), (5, .connected)]
    (s.after [(2005, .timer)]).core = (s.after [(10, .data areYouThere), (2005, .timer)]).core ∧
      s.sent [(2005, .timer)] =
        s.sentKept [((10, .data areYouThere), true), ((2005, .timer), false)] ∧
      s.OnlyAnswersMarked [((10, .data areYouThere), true), ((2005, .timer), false)] :=
  undisturbed "press" {} {} [(0, .opened), (5, .connected)]
    [((10, .data areYouThere), true), ((2005, .timer), false)]
    ⟨fun _ => ⟨by decide, areYouThere, rfl, by decide⟩, nofun, trivial⟩ 2

end Session

end GemLink
