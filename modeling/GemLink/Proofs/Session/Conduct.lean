import GemLink.Proofs.Session.Course

/-!
What a moment does to the connection itself: whether it is open, whether a stop has begun, and the
timers that no answer disarms. Almost every operation leaves all this alone and goes on (`Goes`), or
ends the stop or gives the connection up after it has gone on (`Outcome`). `Conduct` lists what a
moment can do besides: an answer to the wrong question sets the end of the communication, that ends
it and sets its new beginning, a stop begins, or the next attempt to connect is made or is the last.
Every permitted moment of a consistent session is one of these (`conduct_advance`).
-/

namespace GemLink

/-- Whether an action leaves the connection alone and does not end the communication. -/
def Action.isPlain : Action → Bool
  | .send frame => !hasSession SessionType.separateRequest frame
  | a => !a.isLink

theorem Action.isPlain_of_isNews {a : Action} (h : a.isNews = true) : a.isPlain = true := by
  cases a <;> first | rfl | cases h

theorem Action.isPlain_send {frame : Bytes}
    (h : hasSession SessionType.separateRequest frame = false) : (send frame).isPlain = true := by
  simp [isPlain, h]

/-- The timers that no answer disarms: the next attempt to connect, the end of the communication and
its new beginning. -/
def TimerKind.isLasting : TimerKind → Bool
  | .reconnect | .separateRequest | .restartHandshake => true
  | _ => false

namespace Session

/-- No request asks the equipment to end the communication. -/
theorem separates_requestFrame (s : Session) (request : Request) (transactionId : UInt16) :
    hasSession SessionType.separateRequest (s.requestFrame request transactionId) = false := by
  have hdata : ∀ (stream function : UInt8) (body : Item), stream.toNat < 128 →
      hasSession SessionType.separateRequest
        (s.parties.request stream function transactionId body) = false :=
    fun _ _ body hs => s.parties.hasSession_request hs _ transactionId body
  cases request with
  | select => exact s.parties.hasSession_control _ _ _
  | establish => exact hdata 1 13 _ (by decide)
  | enableAlarms => exact hdata 5 3 _ (by decide)
  | deleteReports => exact hdata 2 33 _ (by decide)
  | defineReports => exact hdata 2 33 _ (by decide)
  | linkReports => exact hdata 2 35 _ (by decide)
  | enableEvents => exact hdata 2 37 _ (by decide)
  | statusVariables => exact hdata 1 3 _ (by decide)
  | equipmentConstants => exact hdata 2 13 _ (by decide)

/-! ## Going on -/

/-- `t` is as open as `s`, and as far in being stopped. -/
structure Keeps (s t : Session) : Prop where
  opened : t.connection.opened = s.connection.opened
  stopping : t.stopping = s.stopping
  link : s.connection.link = .connected → t.connection.link = .connected
  grace : s.connection.opened = true →
    t.timers.deadline? .stopGrace = s.timers.deadline? .stopGrace

/-- `t` is what `s` becomes by plain actions that arm no lasting timer. -/
structure Goes (s t : Session) : Prop extends Keeps s t where
  plain : ∃ acts, t.outbox = s.outbox ++ acts ∧ ∀ a ∈ acts, a.isPlain = true
  lasting : ∀ kind, kind.isLasting = true → t.timers.isArmed kind = true →
    s.timers.isArmed kind = true

variable {s t u : Session} {now : Nat} {m : Moment}

theorem Keeps.trans (h : Keeps s t) (h' : Keeps t u) : Keeps s u where
  opened := h'.opened.trans h.opened
  stopping := h'.stopping.trans h.stopping
  link hl := h'.link (h.link hl)
  grace ho := (h'.grace (h.opened ▸ ho)).trans (h.grace ho)

namespace Goes

theorem refl (s : Session) : Goes s s :=
  ⟨⟨rfl, rfl, id, fun _ => rfl⟩, ⟨[], (List.append_nil _).symm, by simp⟩, fun _ _ => id⟩

theorem trans (h : Goes s t) (h' : Goes t u) : Goes s u := by
  refine ⟨h.toKeeps.trans h'.toKeeps, ?_,
    fun kind hk ha => h.lasting kind hk (h'.lasting kind hk ha)⟩
  obtain ⟨acts, ho, ha⟩ := h.plain
  obtain ⟨acts', ho', ha'⟩ := h'.plain
  refine ⟨acts ++ acts', by rw [ho', ho, List.append_assoc], ?_⟩
  rw [List.forall_mem_append]
  exact ⟨ha, ha'⟩

/-- Only these parts of a session count. -/
theorem still (ho : t.outbox = s.outbox) (hc : t.connection.opened = s.connection.opened)
    (hp : t.stopping = s.stopping) (hl : t.connection.link = s.connection.link)
    (ht : ∀ kind, kind = .stopGrace ∨ kind.isLasting = true →
      t.timers.deadline? kind = s.timers.deadline? kind) : Goes s t := by
  refine ⟨⟨hc, hp, fun h => hl.trans h, fun _ => ht _ (.inl rfl)⟩,
    ⟨[], ho.trans (List.append_nil _).symm, by simp⟩, fun kind hk ha => ?_⟩
  unfold Timers.isArmed at ha ⊢
  rwa [ht kind (.inr hk)] at ha

theorem news (h : News s t) : Goes s t := by
  obtain ⟨acts, c, rfl, ha⟩ := h
  exact ⟨⟨rfl, rfl, id, fun _ => rfl⟩, ⟨acts, rfl, fun a hm => Action.isPlain_of_isNews (ha a hm)⟩,
    fun _ _ => id⟩

theorem emit (s : Session) {a : Action} (h : a.isPlain = true) : Goes s (s.emit a) :=
  ⟨⟨rfl, rfl, id, fun _ => rfl⟩, ⟨[a], rfl, by simpa using h⟩, fun _ _ => id⟩

theorem count (s : Session) (counter : Counter) (n : Nat) : Goes s (s.count counter n) :=
  .news (News.count s counter n)

/-- Other timers may be armed at will. -/
theorem arm (s : Session) (kind : TimerKind) (hk : kind ≠ .stopGrace)
    (hl : kind.isLasting = false) (deadline : Nat) : Goes s (s.arm kind deadline) := by
  refine .still rfl rfl rfl rfl ?_
  rintro other (rfl | ho)
  · simp [Session.arm, Timers.deadline?_arm, hk.symm]
  · have hne : other ≠ kind := by
      rintro rfl
      simp [hl] at ho
    simp [Session.arm, Timers.deadline?_arm, hne]

/-- All timers may be disarmed but that of a stop, and that too when the session is not open. -/
theorem cancel (s : Session) (kind : TimerKind)
    (hk : s.connection.opened = true → kind ≠ .stopGrace) : Goes s (s.cancel kind) := by
  refine ⟨⟨rfl, rfl, id, fun ho => ?_⟩, ⟨[], (List.append_nil _).symm, by simp⟩,
    fun other _ ha => ?_⟩
  · simp [Session.cancel, Timers.deadline?_cancel, (hk ho).symm]
  · exact (by simpa [Session.cancel] using ha : _ ∧ _).2

theorem send_request (s : Session) (request : Request) (transactionId : UInt16) :
    Goes s (s.send (s.requestFrame request transactionId)) :=
  .emit s (Action.isPlain_send (separates_requestFrame s request transactionId))

theorem send_reply (s : Session) (stream function : UInt8) (hs : stream.toNat < 128)
    (system : SystemBytes) (body : Item) :
    Goes s (s.send (s.parties.reply stream function system body)) :=
  .emit s (Action.isPlain_send (s.parties.hasSession_reply hs _ system body))

theorem sendWrite (s : Session) (w : PendingWrite) (now : Nat) : Goes s (s.sendWrite w now) := by
  have hsent : Goes s (s.send (s.writeFrame w s.nextTransaction)) :=
    .emit s (Action.isPlain_send (s.parties.hasSession_request (by decide) _ _ _))
  have harmed := hsent.trans (.arm _ .writeTimeout (by decide) rfl (now + writeTimeout))
  exact harmed.trans (.still rfl rfl rfl rfl fun _ _ => rfl)

theorem replied (s : Session) : Goes s s.replied := by
  have hcancel : Goes s ((s.cancel .commTimeout).cancel .establishFallback) :=
    (Goes.cancel s _ fun _ => by decide).trans (.cancel _ _ fun _ => by decide)
  refine hcancel.trans ?_
  refine Goes.trans ?_ (.emit _ (a := .clear .noResponse) rfl)
  exact .still rfl rfl rfl rfl fun _ _ => rfl

end Goes

/-! ## What operations end in -/

/-- What operations come to: the session goes on, and may then end its stop or give the connection
up. -/
inductive Outcome (s : Session) (now : Nat) : Session → Prop
  | goes {t : Session} (h : Goes s t) : Outcome s now t
  | stops {t : Session} (h : Goes s t) (hp : s.stopping = true)
      (ho : s.connection.opened = true) : Outcome s now t.finishStop
  | falls {t : Session} (h : Goes s t) (hp : s.stopping = false)
      (ho : s.connection.opened = true) (graceful : Bool) :
      Outcome s now (t.disconnect graceful now)

theorem Goes.outcome (h : Goes s t) (h' : Outcome t now u) : Outcome s now u := by
  cases h' with
  | goes h' => exact .goes (h.trans h')
  | stops h' hp ho => exact .stops (h.trans h') (h.stopping ▸ hp) (h.opened ▸ ho)
  | falls h' hp ho graceful =>
    exact .falls (h.trans h') (h.stopping ▸ hp) (h.opened ▸ ho) graceful

variable (s : Session) (now : Nat)

theorem outcome_finishStop (hp : s.stopping = true) : Outcome s now s.finishStop := by
  cases ho : s.connection.opened with
  | true => exact .stops (.refl s) hp ho
  | false =>
    unfold finishStop
    rw [if_neg (by simp [ho])]
    exact .goes (.refl s)

theorem outcome_enterIdle : Outcome s now (s.enterIdle now) := by
  cases hp : s.stopping with
  | true =>
    rw [enterIdle_of_stopping s now hp]
    refine Goes.outcome ?_ (outcome_finishStop _ now hp)
    exact .still rfl rfl rfl rfl fun _ _ => rfl
  | false =>
    cases hw : s.pendingWrites with
    | cons w rest =>
      rw [enterIdle_of_pending s now hp hw]
      refine .goes (Goes.trans ?_ (.sendWrite _ w now))
      exact .still rfl rfl rfl rfl fun _ _ => rfl
    | nil =>
      have hi : Goes s { s with state := .idle } := .still rfl rfl rfl rfl fun _ _ => rfl
      rw [enterIdle_of_none_pending s now hp hw]
      split
      · exact .goes (hi.trans (.arm _ .poll (by decide) rfl _))
      · exact .goes hi

theorem outcome_sendRequest (request : Request) : Outcome s now (s.sendRequest request now) := by
  cases hp : s.stopping with
  | true =>
    rw [sendRequest_of_stopping s now hp]
    refine Goes.outcome ?_ (outcome_finishStop _ now hp)
    exact .still rfl rfl rfl rfl fun _ _ => rfl
  | false =>
    have hsent := Goes.send_request s request s.nextTransaction
    have hfallback : Goes s ((s.send (s.requestFrame request s.nextTransaction)).cancel
        .establishFallback) := hsent.trans (.cancel _ _ fun _ => by decide)
    have harmed := hfallback.trans
      (.arm _ .commTimeout (by decide) rfl (now + commTimeout))
    rw [sendRequest_eq s now hp]
    refine .goes (harmed.trans ?_)
    exact .still rfl rfl rfl rfl fun _ _ => rfl

theorem outcome_startHandshake (request : Request) :
    Outcome s now (s.startHandshake request now) := by
  unfold startHandshake
  refine Goes.outcome ?_ (outcome_sendRequest _ now request)
  have hi : Goes s { s with handshakeComplete := false } := .still rfl rfl rfl rfl fun _ _ => rfl
  exact (hi.trans (.cancel _ .poll fun _ => by decide)).trans
    (.cancel _ .linkTest fun _ => by decide)

theorem outcome_completeHandshake : Outcome s now (s.completeHandshake now) := by
  unfold completeHandshake
  dsimp only
  have hi : Goes s { s with
      connection := { s.connection with attempts := 1 }, handshakeComplete := true } :=
    .still rfl rfl rfl rfl fun _ _ => rfl
  split
  · refine Goes.outcome ?_ (outcome_enterIdle _ now)
    exact hi.trans (.arm _ .linkTest (by decide) rfl _)
  · exact hi.outcome (outcome_enterIdle _ now)

theorem outcome_afterPoll (request : Request) : Outcome s now (s.afterPoll request now) := by
  unfold afterPoll afterStatus
  split
  · split
    · exact outcome_enterIdle s now
    · exact outcome_sendRequest s now _
  · exact outcome_enterIdle s now

theorem outcome_disconnect (graceful : Bool) : Outcome s now (s.disconnect graceful now) := by
  cases ho : s.connection.opened with
  | false =>
    unfold disconnect
    rw [if_pos (by simp [ho])]
    exact .goes (.refl s)
  | true =>
    cases hp : s.stopping with
    | true =>
      rw [disconnect_of_stopping s now hp]
      exact .stops (.refl s) hp ho
    | false => exact .falls (.refl s) hp ho graceful

theorem outcome_closedByEquipment : Outcome s now (s.closedByEquipment now) := by
  unfold closedByEquipment
  split
  · next hp => exact outcome_finishStop s now hp
  · refine Goes.outcome ?_ (outcome_disconnect _ now false)
    exact .still rfl rfl rfl rfl fun _ _ => rfl

theorem goes_noteConnected : Goes s s.noteConnected := by
  have hc : Goes s (s.cancel .disconnectReport) := .cancel s _ fun _ => by decide
  unfold noteConnected
  dsimp only
  split
  · exact hc
  · have hr : Goes (s.cancel .disconnectReport) { s.cancel .disconnectReport with
        connection := { (s.cancel .disconnectReport).connection with reported := true } } :=
      .still rfl rfl rfl rfl fun _ _ => rfl
    exact (hc.trans hr).trans (.news (news_publishAll _ _ _ _))

theorem outcome_connected : Outcome s now (s.connected now) := by
  unfold connected
  split
  · exact .goes (.refl s)
  · have hlink : Goes s { s with connection := { s.connection with link := .connected } } :=
      ⟨⟨rfl, rfl, fun _ => rfl, fun _ => rfl⟩, ⟨[], (List.append_nil _).symm, by simp⟩,
        fun _ _ => id⟩
    have hclear := hlink.trans (.emit _ (a := .clear .connectivity) rfl)
    have hnote := (hclear.trans (goes_noteConnected _)).trans (.emit _ (a := .status true) rfl)
    refine hnote.outcome (Goes.outcome ?_ (outcome_startHandshake _ now _))
    exact .still rfl rfl rfl rfl fun _ _ => rfl

variable {s now}

theorem Answer.outcome {inbound : Inbound} (h : s.Answer inbound now t) :
    Outcome s now t ∨ ∃ request, s.state = .awaitingReply request ∧ request.isPoll = true ∧
      request.isPolledBy inbound = true ∧
      inbound.header.system.transactionId ≠ s.pollTransaction ∧
      t = s.replied.arm .separateRequest (now + reestablishDelay) := by
  have hr := Goes.replied s
  cases h with
  | selected _ _ =>
    have hw : Goes s { s.replied with state := .awaitingEquipment } :=
      hr.trans (.still rfl rfl rfl rfl fun _ _ => rfl)
    exact .inl (.goes (hw.trans (.arm _ .establishFallback (by decide) rfl _)))
  | approached _ _ =>
    have hsent := hr.trans (.send_reply s.replied 1 14 (by decide)
      inbound.header.system Body.establishAcknowledge)
    exact .inl (.goes (hsent.trans (.arm _ .establishFallback (by decide) rfl _)))
  | advanced request next _ _ _ => exact .inl (hr.outcome (outcome_sendRequest _ now next))
  | completed request _ _ _ => exact .inl (hr.outcome (outcome_completeHandshake _ now))
  | failed request _ _ _ =>
    have hraised := hr.trans (.emit s.replied (a := .raise request.badResponse none) rfl)
    exact .inl (hraised.outcome (outcome_afterPoll _ now request))
  | polled request _ _ _ _ =>
    have htold := hr.trans (.news (news_publishPoll s.replied inbound (s.catalog.polled request)
      request.badResponse))
    exact .inl (htold.outcome (outcome_afterPoll _ now request))
  | mismatched request hs hp hm ht => exact .inr ⟨request, hs, hp, hm, ht, rfl⟩
  | written _ _ =>
    have hcleared := (Goes.cancel s .writeTimeout fun _ => by decide).trans
      (.emit _ (a := .clear .writeFailed) rfl)
    exact .inl (hcleared.outcome (outcome_enterIdle _ now))

theorem Heard.goes {inbound : Inbound} (h : s.Heard inbound t) : Goes s t := by
  cases h with
  | asked _ => exact .send_reply s _ _ (by decide) _ _
  | timedOut _ => exact .cancel s _ fun _ => by decide
  | malformed _ => exact .emit s rfl
  | alarmed _ alarms _ ht =>
    have hsent := Goes.send_reply s 5 2 (by decide)
      inbound.header.system Body.acceptance
    refine Goes.trans ?_ (.news ht)
    exact hsent.trans (.still rfl rfl rfl rfl fun _ _ => rfl)
  | reported _ u ht => exact (Goes.news ht).trans (.send_reply u _ _ (by decide) _ _)

theorem Written.goes (h : s.Written now t) : Goes s t := by
  cases h with
  | refused _ ht => exact .news ht
  | sent u ht _ _ w => exact (Goes.news ht).trans (.sendWrite u w now)
  | queued u ht _ _ w => exact (Goes.news ht).trans (.still rfl rfl rfl rfl fun _ _ => rfl)

/-! ## Moments -/

/-- Whether a moment brings the answer to another poll than the one that is open. -/
def Mismatches (s : Session) (m : Moment) (request : Request) : Prop :=
  ∃ frame inbound, m = .frame frame ∧ Inbound.read? frame = some inbound ∧
    s.state = .awaitingReply request ∧ request.isPoll = true ∧
    request.isPolledBy inbound = true ∧
    inbound.header.system.transactionId ≠ s.pollTransaction

/-- `t` is what `s` becomes when its stop ends. -/
structure Finished (s t : Session) : Prop where
  was : s.connection.opened = true
  opened : t.connection.opened = false
  stopping : t.stopping = true
  timers : t.timers = {}
  outbox : ∃ acts, t.outbox = s.outbox ++ (acts ++ [.close true, .stopped]) ∧
    ∀ a ∈ acts, a.isPlain = true

/-- `t` is what `s` becomes when it gives its connection up. -/
structure Fallen (s t : Session) : Prop where
  opened : t.connection.opened = s.connection.opened
  stopping : t.stopping = false
  timers : ∀ kind, t.timers.isArmed kind = true → kind = .reconnect ∨ kind = .disconnectReport
  outbox : ∃ acts graceful, t.outbox = s.outbox ++
    (acts ++ [.close graceful, .raise .connectivity none, .status false]) ∧
    ∀ a ∈ acts, a.isPlain = true

/-- What a moment does to the connection. -/
inductive Conduct (s : Session) (now : Nat) (m : Moment) (t : Session) : Prop
  /-- The session goes on. -/
  | goes (h : Goes s t)
  /-- A stop ends. -/
  | finished (hp : s.stopping = true ∨ m = .stop) (h : Finished s t)
  /-- The connection is given up. -/
  | fallen (hp : s.stopping = false) (h : Fallen s t)
  /-- The answer to another poll sets the end of the communication. -/
  | suspected (request : Request) (hm : s.Mismatches m request) (h : Keeps s t)
      (ho : ∃ acts, t.outbox = s.outbox ++ acts ∧ ∀ a ∈ acts, a.isPlain = true)
      (hl : ∀ kind, kind.isLasting = true → kind ≠ .separateRequest →
        t.timers.isArmed kind = true → s.timers.isArmed kind = true)
  /-- The communication ends, and its new beginning is set. -/
  | separated (hm : m = .expiry .separateRequest)
      (hd : s.timers.isDue now .separateRequest = true) (h : Keeps s t) (frame : Bytes)
      (ho : t.outbox = s.outbox ++ [.send frame])
      (hl : ∀ kind, kind.isLasting = true → kind ≠ .restartHandshake →
        t.timers.isArmed kind = true → s.timers.isArmed kind = true)
  /-- A stop begins. -/
  | halted (hm : m = .stop) (hs : s.stopping = false) (hp : t.stopping = true)
      (ho : t.outbox = s.outbox)
      (hc : t.connection.opened = s.connection.opened)
      (hg : t.connection.opened = true →
        t.timers.deadline? .stopGrace = some (now + stopGrace))
      (hl : ∀ kind, kind ≠ .stopGrace → t.timers.isArmed kind = false)
  /-- The next attempt to connect is made. -/
  | reconnected (hm : m = .expiry .reconnect) (hd : s.timers.isDue now .reconnect = true)
      (h : Keeps s t) (ho : t.outbox = s.outbox ++ [.connect])
      (hl : ∀ kind, kind.isLasting = true → t.timers.isArmed kind = true →
        s.timers.isArmed kind = true)
  /-- There is no next attempt to connect. -/
  | failed (was : s.connection.opened = true) (hc : t.connection.opened = false)
      (hp : t.stopping = s.stopping) (ht : t.timers = {}) (failures : Nat)
      (ho : t.outbox = s.outbox ++ [.terminate failures])
  /-- The session is opened. -/
  | launched (hm : m = .opened) (ht : t = s.launch)

variable {kind : TimerKind}

theorem Goes.finished (h : Goes s u) (hp : s.stopping = true) (ho : s.connection.opened = true) :
    Finished s u.finishStop := by
  obtain ⟨acts, hout, ha⟩ := h.plain
  rw [finishStop_eq u (h.opened.trans ho)]
  exact ⟨ho, rfl, h.stopping.trans hp, rfl, acts, by simp [hout], ha⟩

theorem Goes.fallen (h : Goes s u) (hp : s.stopping = false) (ho : s.connection.opened = true)
    (graceful : Bool) (now : Nat) : Fallen s (u.disconnect graceful now) := by
  obtain ⟨acts, hout, ha⟩ := h.plain
  rw [disconnect_eq u now (h.opened.trans ho) (h.stopping.trans hp)]
  refine ⟨h.opened, h.stopping.trans hp, ?_, acts, graceful, by simp [hout], ha⟩
  intro kind
  cases kind <;> simp [Timers.isArmed, Timers.deadline?]

theorem Outcome.conduct (h : Outcome s now t) : s.Conduct now m t := by
  cases h with
  | goes h => exact .goes h
  | stops h hp ho => exact .finished (.inl hp) (h.finished hp ho)
  | falls h hp ho graceful => exact .fallen hp (h.fallen hp ho graceful now)

theorem conduct_finishStop (h : s.Consistent)
    (hd : s.timers.isDue now .stopGrace = true) :
    s.Conduct now m (s.cancel .stopGrace).finishStop := by
  have hp : s.stopping = true := h.sound.stopGrace (Timers.isArmed_of_isDue hd)
  cases ho : s.connection.opened with
  | true =>
    refine .finished (.inl hp) ?_
    rw [finishStop_eq _ (by exact ho)]
    exact ⟨ho, rfl, hp, rfl, [], rfl, by simp⟩
  | false =>
    have hs : (s.cancel .stopGrace).finishStop = s.cancel .stopGrace := by
      unfold finishStop
      rw [if_neg (by simp [Session.cancel, ho])]
    rw [hs]
    exact .goes (.cancel s _ fun h => by simp [ho] at h)

/-- What a timer does that is due. -/
theorem conduct_fire (h : s.Consistent) (hd : s.timers.isDue now kind = true) :
    s.Conduct now (.expiry kind) ((s.cancel kind).fire kind now) := by
  have hcancel : kind ≠ .stopGrace → Goes s (s.cancel kind) := fun hk => .cancel s _ fun _ => hk
  cases kind with
  | commTimeout =>
    have hraised := ((hcancel (by decide)).trans (.count _ .requestTimeouts 1)).trans
      (.emit _ (a := .raise .noResponse none) rfl)
    refine Outcome.conduct (hraised.outcome ?_)
    simp only [fire, requestOverdue]
    split
    · refine Goes.outcome ?_ (outcome_disconnect _ now true)
      exact .still rfl rfl rfl rfl fun _ _ => rfl
    · split
      · refine Goes.outcome ?_ (outcome_sendRequest _ now _)
        exact .still rfl rfl rfl rfl fun _ _ => rfl
      · refine Goes.outcome ?_ (outcome_enterIdle _ now)
        exact .still rfl rfl rfl rfl fun _ _ => rfl
  | establishFallback =>
    exact ((hcancel (by decide)).outcome (outcome_sendRequest _ now .establish)).conduct
  | poll =>
    refine Outcome.conduct ((hcancel (by decide)).outcome ?_)
    simp only [fire, poll]
    repeat' split
    · exact .goes (.refl _)
    · exact outcome_sendRequest _ now _
    · exact outcome_sendRequest _ now _
    · exact outcome_enterIdle _ now
  | dataComplete =>
    have hcleared : Goes (s.cancel .dataComplete)
        { s.cancel .dataComplete with buffer := (s.cancel .dataComplete).buffer.clear } :=
      .still rfl rfl rfl rfl fun _ _ => rfl
    exact .goes (((hcancel (by decide)).trans hcleared).trans (.count _ .bytesDiscarded _))
  | writeTimeout =>
    have hraised := (hcancel (by decide)).trans (.emit _ (a := .raise .writeFailed none) rfl)
    refine Outcome.conduct (hraised.outcome ?_)
    simp only [fire, writeOverdue]
    split
    · exact outcome_enterIdle _ now
    · exact .goes (.refl _)
  | reconnect =>
    obtain ⟨hl, ho⟩ := h.sound.reconnect (Timers.isArmed_of_isDue hd)
    have hk : s.connection.link ≠ .connected := by simp [hl]
    simp only [fire, reconnect_eq]
    split
    · exact .failed ho rfl rfl rfl _ rfl
    · refine .reconnected rfl hd ⟨rfl, rfl, fun hc => absurd hc hk, fun ho => ?_⟩ rfl ?_
      · exact (hcancel (by decide)).grace ho
      · exact (hcancel (by decide)).lasting
  | separateRequest =>
    simp only [fire, separate_eq]
    refine .separated rfl hd ⟨rfl, rfl, id, fun ho => ?_⟩ _ rfl ?_
    · rw [Timers.deadline?_arm, if_neg (by decide)]
      exact (hcancel (by decide)).grace ho
    · intro other hl hne ha
      refine (hcancel (by decide)).lasting other hl ?_
      simpa [hne] using ha
  | restartHandshake =>
    exact ((hcancel (by decide)).outcome (outcome_startHandshake _ now .select)).conduct
  | linkTest =>
    simp only [fire, testLink]
    split
    · have hsent : Goes (s.cancel .linkTest)
          ((s.cancel .linkTest).sendControl SessionType.linkTestRequest) := by
        refine Goes.trans ?_ (.emit _ (Action.isPlain_send
          ((s.cancel .linkTest).parties.hasSession_control _ _ _)))
        exact .still rfl rfl rfl rfl fun _ _ => rfl
      exact .goes (((hcancel (by decide)).trans hsent).trans
        (.arm _ .linkTest (by decide) rfl _))
    · exact .goes (hcancel (by decide))
  | disconnectReport =>
    have hr : Goes (s.cancel .disconnectReport) { s.cancel .disconnectReport with
        connection := { (s.cancel .disconnectReport).connection with reported := false } } :=
      .still rfl rfl rfl rfl fun _ _ => rfl
    exact .goes (((hcancel (by decide)).trans hr).trans (.news (news_publishAll _ _ _ _)))
  | stopGrace => exact conduct_finishStop h hd

theorem conduct_beginStop (s : Session) (now : Nat) : s.Conduct now .stop (s.beginStop now) := by
  unfold beginStop
  split
  · exact .goes (.refl s)
  · next hs =>
    replace hs : s.stopping = false := by simpa using hs
    dsimp only
    split
    · refine .halted rfl hs rfl rfl rfl (fun _ => ?_) fun kind hk => ?_
      · simp [Session.arm, Timers.deadline?_arm]
      · simp [Session.arm, hk]
    · cases ho : s.connection.opened with
      | true =>
        refine .finished (.inr rfl) ?_
        rw [finishStop_eq _ (by exact ho)]
        exact ⟨ho, rfl, rfl, rfl, [], rfl, by simp⟩
      | false =>
        unfold finishStop
        rw [if_neg (by simp [ho])]
        refine .halted rfl hs rfl rfl rfl (fun hc => ?_) fun kind _ => ?_
        · rw [show _ = s.connection.opened from rfl, ho] at hc
          cases hc
        · exact Timers.isArmed_empty kind

theorem conduct_handleFrame (s : Session) (frame : Bytes) :
    s.Conduct now (.frame frame) (s.handleFrame now frame) := by
  have hcount : Goes s (s.count .framesReceived 1) := .count s _ _
  have hf := handled_handleFrame s now frame
  generalize s.handleFrame now frame = t at hf
  cases hf with
  | heard inbound _ _ h => exact .goes (hcount.trans h.goes)
  | ignored counters => exact .goes (.news ⟨[], counters, by simp, by simp⟩)
  | answered inbound hm _ h =>
    rcases h.outcome with ho | ⟨request, hs, hp, hc, ht, rfl⟩
    · exact (hcount.outcome ho).conduct
    · have hg := hcount.trans (Goes.replied (s.count .framesReceived 1))
      refine .suspected request ⟨frame, inbound, rfl, hm, hs, hp, hc, ht⟩
        ⟨hg.opened, hg.stopping, hg.link, fun ho => ?_⟩ hg.plain ?_
      · rw [← hg.grace ho]
        have hne : TimerKind.stopGrace ≠ .separateRequest := by decide
        exact (Timers.deadline?_arm _ _ _ _).trans (if_neg hne)
      · intro kind hl hne ha
        refine hg.lasting kind hl ?_
        simpa [Session.arm, hne] using ha

/-- What a permitted moment does to the connection of a consistent session. -/
theorem conduct_advance (h : s.Consistent) (now : Nat) (hm : s.Permits m) :
    s.Conduct now m (s.advance now m) := by
  cases m with
  | opened => exact .launched rfl rfl
  | connected => exact (outcome_connected s now).conduct
  | connectFailed => exact (outcome_disconnect s now false).conduct
  | socketError => exact (outcome_disconnect s now false).conduct
  | socketEnd => exact (outcome_closedByEquipment s now).conduct
  | arrival received =>
    refine .goes ?_
    simp only [advance, accept]
    split
    · exact .still rfl rfl rfl rfl fun _ _ => rfl
    · exact .still rfl rfl rfl rfl fun _ _ => rfl
  | frame frame => exact conduct_handleFrame s frame
  | settled =>
    have hcancel : Goes s (s.cancel .dataComplete) := .cancel s _ fun _ => by decide
    refine .goes ?_
    simp only [advance, awaitRest]
    split
    · exact hcancel
    · exact hcancel.trans (.arm _ .dataComplete (by decide) rfl _)
  | expiry kind =>
    simp only [advance, expire]
    split
    · next hd => exact conduct_fire h hd
    · exact .goes (.refl s)
  | write name value => exact .goes (written_write s name value now).goes
  | stop => exact conduct_beginStop s now

end Session

end GemLink
