import GemLink.Proofs.Session.Consistent

/-!
What a session counts: how often the open request has been overdue, and how often it has attempted
to connect since communication was established. Almost every operation leaves the two counts alone,
attempts no connection and establishes nothing (`Uncounted`). `Scores` lists what a moment can do to
them: an answer and the end of a handshake begin them anew, an overdue request and an attempt to
connect count, and so does every permitted moment of a consistent session at most once
(`scores_advance`).
-/

namespace GemLink

/-- Whether an action is an attempt to connect, or says that there will be no other. -/
def Action.isAttempt : Action → Bool
  | .connect | .terminate _ => true
  | _ => false

theorem Action.isAttempt_of_isNews {a : Action} (h : a.isNews = true) : a.isAttempt = false := by
  cases a <;> first | rfl | cases h

namespace Session

/-! ## Operations that count nothing -/

/-- `t` is what an operation has made of `s` that counts nothing and neither opens the session nor
establishes communication. -/
structure Uncounted (s t : Session) : Prop where
  attempts : t.connection.attempts = s.connection.attempts
  retries : t.retries = s.retries
  complete : t.handshakeComplete = true → s.handshakeComplete = true
  opened : t.connection.opened = true → s.connection.opened = true
  quiet : ∃ acts, t.outbox = s.outbox ++ acts ∧ ∀ a ∈ acts, a.isAttempt = false

namespace Uncounted

variable {s t u : Session}

theorem trans (h : Uncounted s t) (h' : Uncounted t u) : Uncounted s u := by
  refine ⟨h'.attempts.trans h.attempts, h'.retries.trans h.retries,
    fun hc => h.complete (h'.complete hc), fun ho => h.opened (h'.opened ho), ?_⟩
  obtain ⟨acts, ho, ha⟩ := h.quiet
  obtain ⟨acts', ho', ha'⟩ := h'.quiet
  refine ⟨acts ++ acts', by rw [ho', ho, List.append_assoc], ?_⟩
  rw [List.forall_mem_append]
  exact ⟨ha, ha'⟩

/-- Only these parts of a session matter. -/
theorem still (ho : t.outbox = s.outbox)
    (ha : t.connection.attempts = s.connection.attempts) (hr : t.retries = s.retries)
    (hc : t.handshakeComplete = true → s.handshakeComplete = true)
    (hp : t.connection.opened = true → s.connection.opened = true) : Uncounted s t :=
  ⟨ha, hr, hc, hp, [], ho.trans (List.append_nil _).symm, by simp⟩

theorem refl (s : Session) : Uncounted s s :=
  .still rfl rfl rfl id id

theorem news (h : News s t) : Uncounted s t := by
  obtain ⟨acts, c, rfl, ha⟩ := h
  exact ⟨rfl, rfl, id, id, acts, rfl, fun a hm => Action.isAttempt_of_isNews (ha a hm)⟩

theorem emit (s : Session) {a : Action} (h : a.isAttempt = false) : Uncounted s (s.emit a) :=
  ⟨rfl, rfl, id, id, [a], rfl, by simpa using h⟩

end Uncounted

variable (s : Session) (now : Nat)

theorem uncounted_finishStop : Uncounted s s.finishStop := by
  cases ho : s.connection.opened with
  | true =>
    rw [finishStop_eq s ho]
    exact ⟨rfl, rfl, nofun, nofun, _, rfl, by simp [Action.isAttempt]⟩
  | false =>
    unfold finishStop
    rw [if_neg (by simp [ho])]
    exact .refl s

theorem uncounted_sendWrite (w : PendingWrite) : Uncounted s (s.sendWrite w now) := by
  rw [sendWrite_eq]
  exact ⟨rfl, rfl, id, id, _, rfl, by simp [Action.isAttempt]⟩

theorem uncounted_enterIdle : Uncounted s (s.enterIdle now) := by
  cases hs : s.stopping with
  | true =>
    rw [enterIdle_of_stopping s now hs]
    refine Uncounted.trans ?_ (uncounted_finishStop _)
    exact .still rfl rfl rfl id id
  | false =>
    cases hw : s.pendingWrites with
    | cons w rest =>
      rw [enterIdle_of_pending s now hs hw]
      refine Uncounted.trans ?_ (uncounted_sendWrite _ now w)
      exact .still rfl rfl rfl id id
    | nil =>
      rw [enterIdle_of_none_pending s now hs hw]
      exact .still rfl rfl rfl id id

theorem uncounted_sendRequest (request : Request) : Uncounted s (s.sendRequest request now) := by
  cases hs : s.stopping with
  | true =>
    rw [sendRequest_of_stopping s now hs]
    refine Uncounted.trans ?_ (uncounted_finishStop _)
    exact .still rfl rfl rfl id id
  | false =>
    rw [sendRequest_eq s now hs]
    exact ⟨rfl, rfl, id, id, _, rfl, by simp [Action.isAttempt]⟩

theorem uncounted_startHandshake (request : Request) :
    Uncounted s (s.startHandshake request now) := by
  rw [startHandshake_eq]
  refine Uncounted.trans ?_ (uncounted_sendRequest _ now request)
  exact .still rfl rfl rfl nofun id

theorem uncounted_afterPoll (request : Request) : Uncounted s (s.afterPoll request now) := by
  unfold afterPoll afterStatus
  split
  · split
    · exact uncounted_enterIdle s now
    · exact uncounted_sendRequest s now _
  · exact uncounted_enterIdle s now

theorem uncounted_disconnect (graceful : Bool) : Uncounted s (s.disconnect graceful now) := by
  cases ho : s.connection.opened with
  | false =>
    unfold disconnect
    rw [if_pos (by simp [ho])]
    exact .refl s
  | true =>
    cases hs : s.stopping with
    | true =>
      rw [disconnect_of_stopping s now hs]
      exact uncounted_finishStop s
    | false =>
      rw [disconnect_eq s now ho hs]
      exact ⟨rfl, rfl, nofun, id, _, rfl, by simp [Action.isAttempt]⟩

theorem uncounted_closedByEquipment : Uncounted s (s.closedByEquipment now) := by
  unfold closedByEquipment
  split
  · exact uncounted_finishStop s
  · refine Uncounted.trans ?_ (uncounted_disconnect _ now false)
    exact .still rfl rfl rfl id id

theorem uncounted_connected : Uncounted s (s.connected now) := by
  by_cases h : (!s.connection.opened || s.stopping) = true
  · simp only [connected, if_pos h]
    exact .refl s
  · obtain ⟨ho, hs⟩ : s.connection.opened = true ∧ s.stopping = false := by simpa using h
    rw [connected_eq s now ho hs]
    refine Uncounted.trans ?_ (uncounted_startHandshake _ now _)
    refine ⟨rfl, rfl, id, id, _, rfl, ?_⟩
    rw [List.forall_mem_cons, List.forall_mem_append, List.forall_mem_singleton]
    refine ⟨rfl, ?_, rfl⟩
    split
    · simp
    · intro a ha
      obtain ⟨v, -, rfl⟩ := List.mem_map.mp ha
      rfl

theorem uncounted_beginStop : Uncounted s (s.beginStop now) := by
  unfold beginStop
  split
  · exact .refl s
  · have hs : Uncounted s { s with stopping := true, timers := {}, pendingWrites := [] } :=
      .still rfl rfl rfl id id
    dsimp only
    split
    · exact hs.trans (.still rfl rfl rfl id id)
    · exact hs.trans (uncounted_finishStop _)

variable {s now} {t : Session} {m : Moment} {kind : TimerKind}

theorem Heard.uncounted {inbound : Inbound} (h : s.Heard inbound t) : Uncounted s t := by
  cases h with
  | asked _ => exact .emit s rfl
  | timedOut _ => exact .still rfl rfl rfl id id
  | malformed _ => exact .emit s rfl
  | alarmed _ alarms _ ht =>
    have hsent := Uncounted.emit s
      (a := .send (s.parties.reply 5 2 inbound.header.system Body.acceptance)) rfl
    refine Uncounted.trans ?_ (.news ht)
    exact hsent.trans (.still rfl rfl rfl id id)
  | reported _ u ht => exact (Uncounted.news ht).trans (.emit u rfl)

theorem Written.uncounted (h : s.Written now t) : Uncounted s t := by
  cases h with
  | refused _ ht => exact .news ht
  | sent u ht _ _ w => exact (Uncounted.news ht).trans (uncounted_sendWrite u now w)
  | queued u ht _ _ w => exact (Uncounted.news ht).trans (.still rfl rfl rfl id id)

/-! ## What a moment counts -/

/-- What a moment does to the counts of a session. -/
inductive Scores (s : Session) (now : Nat) (m : Moment) (t : Session) : Prop
  /-- Nothing is counted. -/
  | kept (h : Uncounted s t)
  /-- The open request is answered. -/
  | answered (h : Uncounted s.replied t)
  /-- Communication is established, and a stop ends if one has begun. -/
  | established (hs : s.handshakeComplete = false)
      (h : Uncounted { s.replied with
        connection := { s.connection with attempts := 1 }
        handshakeComplete := true } t)
      (ht : t.handshakeComplete = true ∨ t.connection.opened = false)
  /-- The open request is overdue, which after too many times ends the connection. -/
  | overdue (hm : m = .expiry .commTimeout) (hd : s.timers.isDue now .commTimeout = true)
      (h : Uncounted { s with
        retries := if maxRequestRetries < s.retries + 1 then 0 else s.retries + 1 } t)
  /-- The next attempt to connect is due. -/
  | reconnected (hm : m = .expiry .reconnect) (hd : s.timers.isDue now .reconnect = true)
      (ht : t = (s.cancel .reconnect).reconnect)
  /-- The session is opened. -/
  | launched (hm : m = .opened) (ht : t = s.launch)

/-- When nothing is open any more, the handshake stays complete unless a stop ends. -/
theorem complete_enterIdle (s : Session) (now : Nat) (ho : s.connection.opened = true)
    (hc : s.handshakeComplete = true) :
    (s.enterIdle now).handshakeComplete = true ∨ (s.enterIdle now).connection.opened = false := by
  cases hs : s.stopping with
  | true =>
    right
    rw [enterIdle_of_stopping s now hs, finishStop_eq _ (by exact ho)]
  | false =>
    left
    cases hw : s.pendingWrites with
    | cons w rest =>
      rw [enterIdle_of_pending s now hs hw]
      exact hc
    | nil =>
      rw [enterIdle_of_none_pending s now hs hw]
      exact hc

/-- What an answer counts. -/
theorem Answer.scores {inbound : Inbound} (h : s.Answer inbound now t) (hc : s.Consistent) :
    s.Scores now m t := by
  cases h with
  | selected _ _ => exact .answered (.still rfl rfl rfl id id)
  | approached _ _ =>
    have hsent := Uncounted.emit s.replied
      (a := .send (s.parties.reply 1 14 inbound.header.system Body.establishAcknowledge)) rfl
    exact .answered (hsent.trans (.still rfl rfl rfl id id))
  | advanced request next _ _ _ => exact .answered (uncounted_sendRequest _ now next)
  | completed request hs hm _ =>
    have hh : s.handshakeComplete = false :=
      (hc.established hs (by simp)).trans (isPoll_of_isAcceptedBy hm)
    rw [completeHandshake_eq]
    refine .established hh (Uncounted.trans ?_ (uncounted_enterIdle _ now))
      (complete_enterIdle _ now (hc.live (by simp [hs])).opened rfl)
    exact .still rfl rfl rfl id id
  | failed request _ _ _ =>
    have hraised := Uncounted.emit s.replied (a := .raise request.badResponse none) rfl
    exact .answered (hraised.trans (uncounted_afterPoll _ now request))
  | polled request _ _ _ _ =>
    have htold := Uncounted.news (news_publishPoll s.replied inbound (s.catalog.polled request)
      request.badResponse)
    exact .answered (htold.trans (uncounted_afterPoll _ now request))
  | mismatched request _ _ _ _ => exact .answered (.still rfl rfl rfl id id)
  | written _ _ =>
    have hcancel : Uncounted s (s.cancel .writeTimeout) := .still rfl rfl rfl id id
    have hcleared := hcancel.trans (.emit _ (a := .clear .writeFailed) rfl)
    exact .kept (hcleared.trans (uncounted_enterIdle _ now))

/-- That a frame was counted changes nothing. -/
theorem Scores.counted {counter : Counter} {n : Nat} {frame : Bytes}
    (h : (s.count counter n).Scores now (.frame frame) t) : s.Scores now (.frame frame) t := by
  cases h with
  | kept h =>
    refine .kept (Uncounted.trans ?_ h)
    exact .still rfl rfl rfl id id
  | answered h =>
    refine .answered (Uncounted.trans ?_ h)
    exact .still rfl rfl rfl id id
  | established hs h ht =>
    refine .established hs (Uncounted.trans ?_ h) ht
    exact .still rfl rfl rfl id id
  | overdue hm _ _ => cases hm
  | reconnected hm _ _ => cases hm
  | launched hm _ => cases hm

theorem scores_handleFrame (h : s.Consistent) (frame : Bytes) :
    s.Scores now (.frame frame) (s.handleFrame now frame) := by
  have hc : (s.count .framesReceived 1).Consistent := h.news (News.count s _ _)
  have hcount : Uncounted s (s.count .framesReceived 1) := .news (News.count s _ _)
  have hf := handled_handleFrame s now frame
  generalize s.handleFrame now frame = t at hf
  cases hf with
  | heard inbound _ _ ht => exact .kept (hcount.trans ht.uncounted)
  | answered inbound _ _ ht => exact (ht.scores hc).counted
  | ignored counters => exact .kept (.still rfl rfl rfl id id)

/-- What a timer counts that is due. -/
theorem scores_fire (h : s.Consistent) (hd : s.timers.isDue now kind = true) :
    s.Scores now (.expiry kind) ((s.cancel kind).fire kind now) := by
  have hcancel : Uncounted s (s.cancel kind) := .still rfl rfl rfl id id
  cases kind with
  | commTimeout =>
    obtain ⟨request, hr⟩ := h.sound.asking (Timers.isArmed_of_isDue hd)
    refine .overdue rfl hd ?_
    have hretry : (s.cancel .commTimeout).state.retry? = some request := by
      simp [Session.cancel, hr, CommState.retry?]
    simp only [fire, requestOverdue_eq (s.cancel .commTimeout) now hretry]
    by_cases hmax : maxRequestRetries < s.retries + 1
    · rw [if_pos hmax, if_pos (by exact hmax)]
      refine Uncounted.trans ?_ (uncounted_disconnect _ now true)
      exact ⟨rfl, rfl, id, id, _, rfl, by simp [Action.isAttempt]⟩
    · rw [if_neg hmax, if_neg (by exact hmax)]
      refine Uncounted.trans ?_ (uncounted_sendRequest _ now request)
      exact ⟨rfl, rfl, id, id, _, rfl, by simp [Action.isAttempt]⟩
  | establishFallback => exact .kept (hcancel.trans (uncounted_sendRequest _ now .establish))
  | poll =>
    refine .kept (hcancel.trans ?_)
    simp only [fire, poll]
    repeat' split
    · exact .refl _
    · exact uncounted_sendRequest _ now _
    · exact uncounted_sendRequest _ now _
    · exact uncounted_enterIdle _ now
  | dataComplete => exact .kept (.still rfl rfl rfl id id)
  | writeTimeout =>
    have hraised := hcancel.trans (.emit _ (a := .raise .writeFailed none) rfl)
    refine .kept (hraised.trans ?_)
    simp only [fire, writeOverdue]
    split
    · exact uncounted_enterIdle _ now
    · exact .refl _
  | reconnect => exact .reconnected rfl hd rfl
  | separateRequest =>
    simp only [fire, separate_eq]
    exact .kept ⟨rfl, rfl, id, id, _, rfl, by simp [Action.isAttempt]⟩
  | restartHandshake => exact .kept (hcancel.trans (uncounted_startHandshake _ now .select))
  | linkTest =>
    refine .kept (hcancel.trans ?_)
    simp only [fire, testLink]
    split
    · exact ⟨rfl, rfl, id, id, _, rfl, by simp [Action.isAttempt]⟩
    · exact .refl _
  | disconnectReport =>
    refine .kept (hcancel.trans ?_)
    have hr : Uncounted (s.cancel .disconnectReport) { s.cancel .disconnectReport with
        connection := { (s.cancel .disconnectReport).connection with reported := false } } :=
      .still rfl rfl rfl id id
    exact hr.trans (.news (news_publishAll _ _ _ _))
  | stopGrace => exact .kept (hcancel.trans (uncounted_finishStop _))

/-- What a permitted moment of a consistent session counts. -/
theorem scores_advance (h : s.Consistent) (now : Nat) (m : Moment) :
    s.Scores now m (s.advance now m) := by
  cases m with
  | opened => exact .launched rfl rfl
  | connected => exact .kept (uncounted_connected s now)
  | connectFailed => exact .kept (uncounted_disconnect s now false)
  | socketError => exact .kept (uncounted_disconnect s now false)
  | socketEnd => exact .kept (uncounted_closedByEquipment s now)
  | arrival received =>
    refine .kept ?_
    simp only [advance, accept]
    split
    · exact .still rfl rfl rfl id id
    · exact .still rfl rfl rfl id id
  | frame frame => exact scores_handleFrame h frame
  | settled =>
    refine .kept ?_
    simp only [advance, awaitRest]
    split
    · exact .still rfl rfl rfl id id
    · exact .still rfl rfl rfl id id
  | expiry kind =>
    simp only [advance, expire]
    split
    · next hd => exact scores_fire h hd
    · exact .kept (.refl s)
  | write name value => exact .kept (written_write s name value now).uncounted
  | stop => exact .kept (uncounted_beginStop s now)

end Session

end GemLink
