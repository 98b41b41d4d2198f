import GemLink.Proofs.Session.Run

/-!
What the operations of a session leave alone. The variables, the parties and the intervals never
change, and that a session is being stopped is changed only by a stop and by opening it
(`setup_advance`). Between the arrival of bytes and the end of their handling aside, no operation
makes the session wait for the rest of a frame, and while it waits for it, none touches the front
that is there (`Waiting.step`).
-/

namespace GemLink.Session

/-- The parts of a session that only a stop and its opening may change. -/
def setup (s : Session) : Catalog × Parties × SessionSettings × Bool :=
  (s.catalog, s.parties, s.settings, s.stopping)

/-- `t` is what an operation has made of `s` that changes no part of the setup, and that leaves the
front of a frame as it is or makes an end of waiting for the rest. -/
structure Leaves (s t : Session) : Prop where
  setup : t.setup = s.setup
  front : t.timers.isArmed .dataComplete = true →
    s.timers.isArmed .dataComplete = true ∧ t.buffer.bytes = s.buffer.bytes

namespace Leaves

theorem refl (s : Session) : Leaves s s :=
  ⟨rfl, fun h => ⟨h, rfl⟩⟩

theorem trans {s t u : Session} (h : Leaves s t) (h' : Leaves t u) : Leaves s u := by
  refine ⟨h'.setup.trans h.setup, fun ha => ?_⟩
  obtain ⟨ht, hb⟩ := h'.front ha
  obtain ⟨hs, hb'⟩ := h.front ht
  exact ⟨hs, hb.trans hb'⟩

theorem news {s t : Session} (h : News s t) : Leaves s t := by
  obtain ⟨acts, c, rfl, -⟩ := h
  exact ⟨rfl, fun h => ⟨h, rfl⟩⟩

end Leaves

variable (s : Session) (now : Nat)

theorem leaves_cancel (kind : TimerKind) : Leaves s (s.cancel kind) :=
  ⟨rfl, fun h => ⟨(by simpa [cancel] using h : _ ∧ _).2, rfl⟩⟩

theorem leaves_finishStop : Leaves s s.finishStop := by
  unfold finishStop
  split
  · exact ⟨rfl, by simp [emit]⟩
  · exact .refl s

/-! ## Questions -/

theorem leaves_sendWrite (w : PendingWrite) : Leaves s (s.sendWrite w now) := by
  rw [sendWrite_eq]
  exact ⟨rfl, by simp⟩

theorem leaves_enterIdle : Leaves s (s.enterIdle now) := by
  have hi : Leaves s { s with state := .idle } := ⟨rfl, fun h => ⟨h, rfl⟩⟩
  unfold enterIdle
  dsimp only
  split
  · exact hi.trans (leaves_finishStop _)
  · split
    · next w rest _ =>
      have hw : Leaves s { s with state := .idle, pendingWrites := rest } :=
        ⟨rfl, fun h => ⟨h, rfl⟩⟩
      exact hw.trans (leaves_sendWrite _ now w)
    · split
      · exact ⟨rfl, by simp [arm]⟩
      · exact hi

theorem leaves_sendRequest (request : Request) : Leaves s (s.sendRequest request now) := by
  cases hs : s.stopping with
  | true =>
    unfold sendRequest
    rw [if_pos hs]
    exact leaves_enterIdle s now
  | false =>
    rw [sendRequest_eq s now hs]
    exact ⟨rfl, by simp⟩

theorem leaves_startHandshake (request : Request) : Leaves s (s.startHandshake request now) := by
  rw [startHandshake_eq]
  refine Leaves.trans ?_ (leaves_sendRequest _ now request)
  exact ⟨rfl, by simp⟩

theorem leaves_replied : Leaves s s.replied := by
  rw [replied_eq]
  exact ⟨rfl, by simp⟩

theorem leaves_completeHandshake : Leaves s (s.completeHandshake now) := by
  rw [completeHandshake_eq]
  refine Leaves.trans ?_ (leaves_enterIdle _ now)
  refine ⟨rfl, ?_⟩
  dsimp only
  split <;> simp

theorem leaves_afterPoll (request : Request) : Leaves s (s.afterPoll request now) := by
  unfold afterPoll afterStatus
  split
  · split
    · exact leaves_enterIdle s now
    · exact leaves_sendRequest s now _
  · exact leaves_enterIdle s now

/-! ## The connection -/

theorem leaves_disconnect (graceful : Bool) : Leaves s (s.disconnect graceful now) := by
  cases ho : s.connection.opened with
  | false =>
    unfold disconnect
    rw [if_pos (by simp [ho])]
    exact .refl s
  | true =>
    cases hs : s.stopping with
    | true =>
      rw [disconnect_of_stopping s now hs]
      exact leaves_finishStop s
    | false =>
      rw [disconnect_eq s now ho hs]
      exact ⟨rfl, by simp [Timers.isArmed, Timers.deadline?]⟩

theorem leaves_connected : Leaves s (s.connected now) := by
  by_cases h : (!s.connection.opened || s.stopping) = true
  · simp only [connected, if_pos h]
    exact .refl s
  · obtain ⟨ho, hs⟩ : s.connection.opened = true ∧ s.stopping = false := by simpa using h
    rw [connected_eq s now ho hs]
    refine Leaves.trans ?_ (leaves_startHandshake _ now _)
    exact ⟨rfl, by simp⟩

theorem leaves_closedByEquipment : Leaves s (s.closedByEquipment now) := by
  unfold closedByEquipment
  split
  · exact leaves_finishStop s
  · refine Leaves.trans ?_ (leaves_disconnect _ now false)
    exact ⟨rfl, fun h => ⟨h, rfl⟩⟩

/-! ## Frames, timers and writes -/

variable {s now}

theorem Answer.leaves {t : Session} {m : Inbound} (h : s.Answer m now t) : Leaves s t := by
  have hr := leaves_replied s
  cases h with
  | selected _ _ => exact hr.trans ⟨rfl, by simp [arm]⟩
  | approached _ _ => exact hr.trans ⟨rfl, by simp [arm, send, emit]⟩
  | advanced request next _ _ _ => exact hr.trans (leaves_sendRequest _ now next)
  | completed request _ _ _ => exact hr.trans (leaves_completeHandshake _ now)
  | failed request _ _ _ =>
    exact (hr.trans (.news (News.emit _ rfl))).trans (leaves_afterPoll _ now request)
  | polled request _ _ _ _ =>
    exact (hr.trans (.news (news_publishPoll _ m _ _))).trans (leaves_afterPoll _ now request)
  | mismatched request _ _ _ _ => exact hr.trans ⟨rfl, by simp [arm]⟩
  | written _ _ =>
    refine Leaves.trans ?_ (leaves_enterIdle _ now)
    exact (leaves_cancel s .writeTimeout).trans (.news (News.emit _ rfl))

theorem Heard.leaves {t : Session} {m : Inbound} (h : s.Heard m t) : Leaves s t := by
  cases h with
  | asked _ => exact ⟨rfl, fun h => ⟨h, rfl⟩⟩
  | timedOut _ => exact leaves_cancel s .commTimeout
  | malformed _ => exact ⟨rfl, fun h => ⟨h, rfl⟩⟩
  | alarmed _ alarms _ ht =>
    refine Leaves.trans ?_ (.news ht)
    exact ⟨rfl, fun h => ⟨h, rfl⟩⟩
  | reported _ u ht => exact (Leaves.news ht).trans ⟨rfl, fun h => ⟨h, rfl⟩⟩

theorem Handled.leaves {t : Session} {frame : Bytes} (h : s.Handled now frame t) :
    Leaves s t := by
  have hc : Leaves s (s.count .framesReceived 1) := ⟨rfl, fun h => ⟨h, rfl⟩⟩
  cases h with
  | heard m _ _ ht => exact hc.trans ht.leaves
  | answered m _ _ ht => exact hc.trans ht.leaves
  | ignored counters => exact ⟨rfl, fun h => ⟨h, rfl⟩⟩

theorem Written.leaves {t : Session} (h : s.Written now t) : Leaves s t := by
  cases h with
  | refused _ ht => exact .news ht
  | sent _ ht _ _ w => exact (Leaves.news ht).trans (leaves_sendWrite _ now w)
  | queued _ ht _ _ w => exact (Leaves.news ht).trans ⟨rfl, fun h => ⟨h, rfl⟩⟩

/-- A timer that expires is disarmed first. -/
theorem leaves_fire (s : Session) (kind : TimerKind) (now : Nat) :
    Leaves s ((s.cancel kind).fire kind now) := by
  have hc := leaves_cancel s kind
  cases kind with
  | commTimeout =>
    simp only [fire, requestOverdue]
    split
    · refine Leaves.trans ?_ (leaves_disconnect _ now true)
      exact hc.trans ⟨rfl, fun h => ⟨h, rfl⟩⟩
    · split
      · refine Leaves.trans ?_ (leaves_sendRequest _ now _)
        exact hc.trans ⟨rfl, fun h => ⟨h, rfl⟩⟩
      · refine Leaves.trans ?_ (leaves_enterIdle _ now)
        exact hc.trans ⟨rfl, fun h => ⟨h, rfl⟩⟩
  | establishFallback => exact hc.trans (leaves_sendRequest _ now .establish)
  | poll =>
    simp only [fire, poll]
    repeat' split
    · exact hc
    · exact hc.trans (leaves_sendRequest _ now _)
    · exact hc.trans (leaves_sendRequest _ now _)
    · exact hc.trans (leaves_enterIdle _ now)
  | dataComplete => exact ⟨rfl, by simp [fire, dropIncomplete, cancel, count]⟩
  | writeTimeout =>
    simp only [fire, writeOverdue]
    split
    · refine Leaves.trans ?_ (leaves_enterIdle _ now)
      exact hc.trans (.news (News.emit _ rfl))
    · exact hc.trans (.news (News.emit _ rfl))
  | reconnect =>
    simp only [fire, reconnect_eq]
    split
    · exact ⟨rfl, by simp⟩
    · exact hc.trans ⟨rfl, fun h => ⟨h, rfl⟩⟩
  | separateRequest =>
    simp only [fire, separate_eq]
    exact hc.trans ⟨rfl, by simp⟩
  | restartHandshake => exact hc.trans (leaves_startHandshake _ now .select)
  | linkTest =>
    simp only [fire, testLink]
    split
    · exact hc.trans ⟨rfl, by simp [sendControl, send, emit, arm, advanceTransaction]⟩
    · exact hc
  | disconnectReport =>
    simp only [fire, reportDisconnected_eq]
    exact hc.trans ⟨rfl, fun h => ⟨h, rfl⟩⟩
  | stopGrace => exact hc.trans (leaves_finishStop _)

theorem leaves_expire (s : Session) (kind : TimerKind) (now : Nat) :
    Leaves s (expire now s kind) := by
  unfold expire
  split
  · exact leaves_fire s kind now
  · exact .refl s

/-! ## Moments -/

/-- Of all moments only the beginning of a stop and the opening change the setup of a session. -/
theorem setup_advance (s : Session) (now : Nat) {m : Moment} (ho : m ≠ .opened) (hs : m ≠ .stop) :
    (s.advance now m).setup = s.setup := by
  cases m with
  | opened => exact absurd rfl ho
  | stop => exact absurd rfl hs
  | connected => exact (leaves_connected s now).setup
  | connectFailed => exact (leaves_disconnect s now false).setup
  | socketError => exact (leaves_disconnect s now false).setup
  | socketEnd => exact (leaves_closedByEquipment s now).setup
  | arrival received =>
    simp only [advance, accept]
    split <;> rfl
  | frame frame => exact (handled_handleFrame s now frame).leaves.setup
  | settled =>
    simp only [advance, awaitRest]
    split <;> rfl
  | expiry kind => exact (leaves_expire s kind now).setup
  | write name value => exact (written_write s name value now).leaves.setup

/-- The variables and the parties are the same for ever. -/
theorem setup_fixed (s : Session) (now : Nat) (m : Moment) :
    (s.advance now m).catalog = s.catalog ∧ (s.advance now m).parties = s.parties := by
  by_cases ho : m = .opened
  · rw [ho]
    simp [advance, launch_eq]
  · by_cases hs : m = .stop
    · rw [hs]
      have hf := (leaves_finishStop { s with
        stopping := true, timers := {}, pendingWrites := [] }).setup
      simp only [setup, Prod.mk.injEq] at hf
      simp only [advance, beginStop]
      split
      · exact ⟨rfl, rfl⟩
      · split
        · exact ⟨rfl, rfl⟩
        · exact ⟨hf.1, hf.2.1⟩
    · have h := setup_advance s now ho hs
      simp only [setup, Prod.mk.injEq] at h
      exact ⟨h.1, h.2.1⟩

/-- A session waits for the rest of a frame only when the front of one is there. -/
def Waiting (s : Session) : Prop :=
  s.timers.isArmed .dataComplete = true → s.buffer.bytes ≠ []

theorem Waiting.leaves {t : Session} (h : s.Waiting) (hl : Leaves s t) : t.Waiting := by
  intro ha
  obtain ⟨hs, hb⟩ := hl.front ha
  rw [hb]
  exact h hs

theorem waiting_awaitRest (s : Session) (now : Nat) : (s.awaitRest now).Waiting := by
  intro ha hb
  unfold awaitRest at ha hb
  dsimp only at ha hb
  split at ha
  · simp [cancel] at ha
  · next he =>
    rw [if_neg he] at hb
    simp only [arm, cancel] at he hb
    simp [hb] at he

/-- Whatever happens, a session waits for the rest of a frame only when its front is there. -/
theorem Waiting.step (h : s.Waiting) (now : Nat) (event : SessionEvent) :
    (s.step now event).Waiting := by
  cases event with
  | opened =>
    simp only [Session.step, launch_eq]
    exact h
  | connected => exact h.leaves (leaves_connected s now)
  | connectFailed => exact h.leaves (leaves_disconnect s now false)
  | socketError => exact h.leaves (leaves_disconnect s now false)
  | socketEnd => exact h.leaves (leaves_closedByEquipment s now)
  | data received => exact waiting_awaitRest _ now
  | timer =>
    simp only [Session.step, tick]
    generalize s.timers.expired now = kinds
    induction kinds generalizing s with
    | nil => exact h
    | cons kind rest ih => exact ih (h.leaves (leaves_expire s kind now))
  | write name value => exact h.leaves (written_write s name value now).leaves
  | stop =>
    simp only [Session.step, beginStop]
    split
    · exact h
    · split
      · intro ha
        simp [arm] at ha
      · refine Waiting.leaves ?_ (leaves_finishStop _)
        intro ha
        simp at ha

theorem Waiting.after (h : s.Waiting) (run : List Occurrence) : (s.after run).Waiting := by
  unfold Session.after
  induction run generalizing s with
  | nil => exact h
  | cons o rest ih => exact ih (h.step o.1 o.2)

end GemLink.Session
