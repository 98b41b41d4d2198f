import GemLink.Proofs.Session.Setup

/-!
Two sessions that differ only in what the host has heard. `Alike` sessions agree in all but the
active alarms, the actions and the counts, and the actions that they have appended since two given
points send the same frames. Whatever happens to both keeps them alike (`Alike.step`), since no
operation looks at those parts but to tell the host of them.
-/

namespace GemLink

/-- The frame that an action sends. -/
def Action.frame? : Action → Option Bytes
  | .send frame => some frame
  | _ => none

theorem filterMap_frame?_of_news {acts : List Action} (h : ∀ a ∈ acts, a.isNews = true) :
    acts.filterMap Action.frame? = [] := by
  rw [List.filterMap_eq_nil_iff]
  intro a ha
  have hn := h a ha
  cases a with
  | send frame => cases hn
  | _ => rfl

namespace Session

/-- All of a session but the active alarms, the actions and the counts. -/
def core (s : Session) : Session :=
  { s with alarms := {}, outbox := [], counters := {} }

/-- Two sessions that differ only in the active alarms, the counts and the actions, and that have
sent the same frames since the first had the actions `a` and the second the actions `b`. -/
structure Alike (a b : List Action) (s t : Session) : Prop where
  core : t.core = s.core
  sent : ∃ x y, s.outbox = a ++ x ∧ t.outbox = b ++ y ∧
    x.filterMap Action.frame? = y.filterMap Action.frame?

variable {a b : List Action} {s t : Session}

theorem alike_of_core (h : t.core = s.core) : Alike s.outbox t.outbox s t :=
  ⟨h, [], [], by simp, by simp, rfl⟩

namespace Alike

/-- What is seen of a session without the alarms, the actions and the counts is seen of both. -/
theorem eq {β : Type} (h : Alike a b s t) (p : Session → β) (hp : ∀ s, p s.core = p s) :
    p t = p s := by
  rw [← hp t, h.core, hp]

/-- What looks at no alarms, actions and counts, and changes no alarms and counts, may be done to
both. -/
theorem map (h : Alike a b s t) (g : Session → Session) (f : Session → List Action)
    (hg : ∀ s, (g s).core = (g s.core).core) (hf : ∀ s, f s.core = f s)
    (ho : ∀ s, (g s).outbox = s.outbox ++ f s) : Alike a b (g s) (g t) := by
  have he : f t = f s := h.eq f hf
  obtain ⟨hc, x, y, hx, hy, hs⟩ := h
  refine ⟨?_, x ++ f s, y ++ f s, ?_, ?_, ?_⟩
  · rw [hg, hc, ← hg]
  · rw [ho, hx, List.append_assoc]
  · rw [ho, he, hy, List.append_assoc]
  · rw [List.filterMap_append, List.filterMap_append, hs]

theorem set (h : Alike a b s t) (g : Session → Session) (hg : ∀ s, (g s).core = (g s.core).core)
    (ho : ∀ s, (g s).outbox = s.outbox) : Alike a b (g s) (g t) :=
  h.map g (fun _ => []) hg (fun _ => rfl) fun s => by rw [ho, List.append_nil]

theorem ite (h : Alike a b s t) (c : Session → Prop) [DecidablePred c]
    (hc : ∀ s, c s.core = c s) {s₁ s₂ t₁ t₂ : Session} (h₁ : c s → Alike a b s₁ t₁)
    (h₂ : ¬c s → Alike a b s₂ t₂) :
    Alike a b (if c s then s₁ else s₂) (if c t then t₁ else t₂) := by
  have he : c t = c s := h.eq c hc
  by_cases hs : c s
  · rw [if_pos hs, if_pos (he ▸ hs)]
    exact h₁ hs
  · rw [if_neg hs, if_neg (he ▸ hs)]
    exact h₂ hs

theorem emit (h : Alike a b s t) (act : Action) : Alike a b (s.emit act) (t.emit act) :=
  h.map (·.emit act) (fun _ => [act]) (fun _ => rfl) (fun _ => rfl) fun _ => rfl

/-- The host may hear different news of both. -/
theorem news {s' t' : Session} (h : Alike a b s t) (hs : News s s') (ht : News t t') :
    Alike a b s' t' := by
  obtain ⟨hc, x, y, hx, hy, hf⟩ := h
  obtain ⟨acts, c, rfl, ha⟩ := hs
  obtain ⟨acts', c', rfl, ha'⟩ := ht
  refine ⟨hc, x ++ acts, y ++ acts', ?_, ?_, ?_⟩
  · rw [hx, List.append_assoc]
  · rw [hy, List.append_assoc]
  · rw [List.filterMap_append, List.filterMap_append, filterMap_frame?_of_news ha,
      filterMap_frame?_of_news ha', hf]

theorem alarms (h : Alike a b s t) (alarms alarms' : ActiveAlarms) :
    Alike a b { s with alarms } { t with alarms := alarms' } :=
  ⟨h.core, h.sent⟩

theorem count (h : Alike a b s t) (counter : Counter) (n n' : Nat) :
    Alike a b (s.count counter n) (t.count counter n') :=
  h.news (News.count s counter n) (News.count t counter n')

theorem arm (h : Alike a b s t) (kind : TimerKind) (deadline : Nat) :
    Alike a b (s.arm kind deadline) (t.arm kind deadline) :=
  h.set (·.arm kind deadline) (fun _ => rfl) fun _ => rfl

theorem cancel (h : Alike a b s t) (kind : TimerKind) :
    Alike a b (s.cancel kind) (t.cancel kind) :=
  h.set (·.cancel kind) (fun _ => rfl) fun _ => rfl

/-! ## Questions -/

theorem finishStop (h : Alike a b s t) : Alike a b s.finishStop t.finishStop :=
  h.ite (fun s => s.connection.opened = true) (fun _ => rfl)
    (fun _ => h.map (fun s => ({ s with
      timers := {}
      state := .idle
      handshakeComplete := false
      connection := { s.connection with link := .disconnected, opened := false } }.emit
        (.close true)).emit .stopped) (fun _ => [.close true, .stopped]) (fun _ => rfl)
      (fun _ => rfl) fun s => by simp [Session.emit])
    fun _ => h

theorem sendWrite (h : Alike a b s t) (w : PendingWrite) (now : Nat) :
    Alike a b (s.sendWrite w now) (t.sendWrite w now) :=
  h.map (·.sendWrite w now) (fun s => [.send (s.writeFrame w s.nextTransaction)]) (fun _ => rfl)
    (fun _ => rfl) fun _ => rfl

theorem enterIdle (h : Alike a b s t) (now : Nat) :
    Alike a b (s.enterIdle now) (t.enterIdle now) := by
  have hi := h.set ({ · with state := .idle }) (fun _ => rfl) fun _ => rfl
  have ht : t.stopping = s.stopping := h.eq (·.stopping) fun _ => rfl
  have hp : t.pendingWrites = s.pendingWrites := h.eq (·.pendingWrites) fun _ => rfl
  cases hs : s.stopping with
  | true =>
    rw [enterIdle_of_stopping s now hs, enterIdle_of_stopping t now (ht.trans hs)]
    exact hi.finishStop
  | false =>
    cases hw : s.pendingWrites with
    | cons w rest =>
      rw [enterIdle_of_pending s now hs hw,
        enterIdle_of_pending t now (ht.trans hs) (hp.trans hw)]
      have hr := hi.set ({ · with pendingWrites := rest }) (fun _ => rfl) fun _ => rfl
      exact hr.sendWrite w now
    | nil =>
      rw [enterIdle_of_none_pending s now hs hw,
        enterIdle_of_none_pending t now (ht.trans hs) (hp.trans hw)]
      exact h.set (fun s => { s with
        state := .idle
        timers := if s.handshakeComplete && !s.timers.isArmed .poll then
            s.timers.arm .poll (now + s.settings.pollInterval)
          else s.timers }) (fun _ => rfl) fun _ => rfl

theorem sendRequest (h : Alike a b s t) (request : Request) (now : Nat) :
    Alike a b (s.sendRequest request now) (t.sendRequest request now) :=
  h.ite (·.stopping = true) (fun _ => rfl) (fun _ => h.enterIdle now) fun _ =>
    h.map (fun s => (({ s.advanceTransaction with
      pollTransaction := if request.isPoll then s.nextTransaction else s.pollTransaction
      state := .awaitingReply request }.cancel .establishFallback).arm .commTimeout
        (now + commTimeout)).send (s.requestFrame request s.nextTransaction))
      (fun s => [.send (s.requestFrame request s.nextTransaction)]) (fun _ => rfl) (fun _ => rfl)
      fun _ => rfl

theorem startHandshake (h : Alike a b s t) (request : Request) (now : Nat) :
    Alike a b (s.startHandshake request now) (t.startHandshake request now) := by
  have hs := h.set (fun s => ({ s with handshakeComplete := false }.cancel .poll).cancel .linkTest)
    (fun _ => rfl) fun _ => rfl
  exact hs.sendRequest request now

theorem replied (h : Alike a b s t) : Alike a b s.replied t.replied :=
  h.map (·.replied) (fun _ => [.clear .noResponse]) (fun _ => rfl) (fun _ => rfl) fun _ => rfl

theorem completeHandshake (h : Alike a b s t) (now : Nat) :
    Alike a b (s.completeHandshake now) (t.completeHandshake now) := by
  have hi : t.settings.linkTestInterval = s.settings.linkTestInterval :=
    h.eq (·.settings.linkTestInterval) fun _ => rfl
  have hc := h.set (fun s => { s with
      connection := { s.connection with attempts := 1 }
      handshakeComplete := true }) (fun _ => rfl) fun _ => rfl
  unfold Session.completeHandshake
  refine enterIdle ?_ now
  dsimp only
  rw [hi]
  cases s.settings.linkTestInterval with
  | some interval => exact hc.arm .linkTest _
  | none => exact hc

theorem afterStatus (h : Alike a b s t) (now : Nat) :
    Alike a b (s.afterStatus now) (t.afterStatus now) :=
  h.ite (·.catalog.constants.isEmpty = true) (fun _ => rfl) (fun _ => h.enterIdle now) fun _ =>
    h.sendRequest _ now

theorem poll (h : Alike a b s t) (now : Nat) : Alike a b (s.poll now) (t.poll now) :=
  h.ite (fun s => (!s.handshakeComplete || !s.state.isIdle) = true) (fun _ => rfl) (fun _ => h)
    fun _ => h.ite (fun s => (!s.catalog.status.isEmpty) = true) (fun _ => rfl)
      (fun _ => h.sendRequest _ now)
      fun _ => h.ite (fun s => (!s.catalog.constants.isEmpty) = true) (fun _ => rfl)
        (fun _ => h.sendRequest _ now) fun _ => h.enterIdle now

theorem separate (h : Alike a b s t) (now : Nat) : Alike a b (s.separate now) (t.separate now) :=
  h.map (·.separate now)
    (fun s => [.send (s.parties.control SessionType.separateRequest s.nextTransaction)])
    (fun _ => rfl) (fun _ => rfl) fun _ => rfl

theorem testLink (h : Alike a b s t) (now : Nat) :
    Alike a b (s.testLink now) (t.testLink now) := by
  have hi : t.settings.linkTestInterval = s.settings.linkTestInterval :=
    h.eq (·.settings.linkTestInterval) fun _ => rfl
  unfold Session.testLink
  rw [hi]
  cases s.settings.linkTestInterval with
  | some interval =>
    exact (h.map (·.sendControl SessionType.linkTestRequest)
      (fun s => [.send (s.parties.control SessionType.linkTestRequest s.nextTransaction)])
      (fun _ => rfl) (fun _ => rfl) fun _ => rfl).arm .linkTest _
  | none => exact h

theorem writeOverdue (h : Alike a b s t) (now : Nat) :
    Alike a b (s.writeOverdue now) (t.writeOverdue now) := by
  have hr := h.emit (.raise .writeFailed none)
  exact hr.ite (·.state = .awaitingWrite) (fun _ => rfl) (fun _ => hr.enterIdle now) fun _ => hr

/-! ## The connection -/

theorem launch (h : Alike a b s t) : Alike a b s.launch t.launch := by
  rw [launch_eq, launch_eq]
  exact h.map (fun s => { s with
    connection := { link := .connecting, opened := true }
    stopping := false
    alarms := {}
    nextTransaction := 0
    outbox := s.outbox ++
      ((s.catalog.alarmCodes.map fun v => Action.publish v (ActiveAlarms.codesValue {}) true) ++
        s.catalog.alarmTexts.map fun v => Action.publish v (ActiveAlarms.textsValue {}) true) ++
      [Action.connect] })
    (fun s => ((s.catalog.alarmCodes.map fun v =>
        Action.publish v (ActiveAlarms.codesValue {}) true) ++
      s.catalog.alarmTexts.map fun v => Action.publish v (ActiveAlarms.textsValue {}) true) ++
      [Action.connect]) (fun _ => rfl) (fun _ => rfl) fun s => by rw [List.append_assoc]

theorem connected (h : Alike a b s t) (now : Nat) :
    Alike a b (s.connected now) (t.connected now) := by
  have hc : t.connection = s.connection := h.eq (·.connection) fun _ => rfl
  have ht : t.stopping = s.stopping := h.eq (·.stopping) fun _ => rfl
  by_cases hb : (!s.connection.opened || s.stopping) = true
  · have hb' : (!t.connection.opened || t.stopping) = true := by rwa [hc, ht]
    simp only [Session.connected, if_pos hb, if_pos hb']
    exact h
  · obtain ⟨ho, hs⟩ : s.connection.opened = true ∧ s.stopping = false := by simpa using hb
    rw [connected_eq s now ho hs, connected_eq t now (hc ▸ ho) (ht.trans hs),
      show t.connection.startup.request = s.connection.startup.request by rw [hc]]
    refine startHandshake ?_ _ now
    exact h.map (fun s => { s with
      timers := s.timers.cancel .disconnectReport
      connection := { s.connection with
        link := .connected
        startup := s.connection.startup.toggled
        reported := true }
      outbox := s.outbox ++ Action.clear .connectivity ::
        ((if s.connection.reported then []
          else s.catalog.connected.map fun v => Action.publish v (.flag true) false) ++
        [Action.status true]) })
      (fun s => Action.clear .connectivity ::
        ((if s.connection.reported then []
          else s.catalog.connected.map fun v => Action.publish v (.flag true) false) ++
        [Action.status true])) (fun _ => rfl) (fun _ => rfl) fun _ => rfl

theorem disconnect (h : Alike a b s t) (graceful : Bool) (now : Nat) :
    Alike a b (s.disconnect graceful now) (t.disconnect graceful now) := by
  have hc : t.connection = s.connection := h.eq (·.connection) fun _ => rfl
  have ht : t.stopping = s.stopping := h.eq (·.stopping) fun _ => rfl
  cases ho : s.connection.opened with
  | false =>
    have ho' : t.connection.opened = false := by rw [hc, ho]
    simp only [Session.disconnect, ho, ho', Bool.not_false, if_true]
    exact h
  | true =>
    have ho' : t.connection.opened = true := by rw [hc, ho]
    cases hs : s.stopping with
    | true =>
      rw [disconnect_of_stopping s now hs, disconnect_of_stopping t now (ht.trans hs)]
      exact h.finishStop
    | false =>
      rw [disconnect_eq s now ho hs, disconnect_eq t now ho' (ht.trans hs)]
      have hd := h.map (fun s => { s with
        state := .idle
        handshakeComplete := false
        pendingWrites := []
        buffer := s.buffer.clear
        timers :=
          { disconnectReport := some
              (s.timers.disconnectReport.getD (now + s.settings.disconnectDelay))
            reconnect := some (now + reconnectDelay) }
        connection := { s.connection with link := .disconnected }
        outbox := s.outbox ++ [Action.close graceful, Action.raise .connectivity none,
          Action.status false] })
        (fun _ => [.close graceful, .raise .connectivity none, .status false]) (fun _ => rfl)
        (fun _ => rfl) fun _ => rfl
      exact hd.count .bytesDiscarded s.buffer.bytes.length t.buffer.bytes.length

theorem closedByEquipment (h : Alike a b s t) (now : Nat) :
    Alike a b (s.closedByEquipment now) (t.closedByEquipment now) := by
  refine h.ite (·.stopping = true) (fun _ => rfl) (fun _ => h.finishStop) fun _ => ?_
  have hd := h.set (fun s => { s with connection := { s.connection with startup := .select } })
    (fun _ => rfl) fun _ => rfl
  exact hd.disconnect false now

theorem reconnect (h : Alike a b s t) : Alike a b s.reconnect t.reconnect := by
  rw [reconnect_eq, reconnect_eq]
  refine h.ite (fun s => maxReconnectAttempts < s.connection.attempts + 1) (fun _ => rfl)
    (fun _ => ?_) fun _ => ?_
  · have hg := h.map (fun s => { s with
      timers := {}
      connection := { s.connection with
        link := .disconnected, opened := false, attempts := s.connection.attempts + 1 }
      outbox := s.outbox ++ [Action.terminate s.connection.attempts] })
      (fun s => [.terminate s.connection.attempts]) (fun _ => rfl) (fun _ => rfl) fun _ => rfl
    exact hg.count .reconnectAttempts 1 1
  · have hg := h.map (fun s => { s with
      nextTransaction := 0
      connection := { s.connection with
        link := .connecting, attempts := s.connection.attempts + 1 }
      outbox := s.outbox ++ [Action.connect] })
      (fun _ => [.connect]) (fun _ => rfl) (fun _ => rfl) fun _ => rfl
    exact hg.count .reconnectAttempts 1 1

theorem reportDisconnected (h : Alike a b s t) :
    Alike a b s.reportDisconnected t.reportDisconnected := by
  have hr := h.set (fun s => { s with connection := { s.connection with reported := false } })
    (fun _ => rfl) fun _ => rfl
  exact hr.news (news_publishAll _ _ _ _) (news_publishAll _ _ _ _)

theorem requestOverdue (h : Alike a b s t) (now : Nat) :
    Alike a b (s.requestOverdue now) (t.requestOverdue now) := by
  have hr := (h.count .requestTimeouts 1 1).emit (.raise .noResponse none)
  have ho := hr.set (fun s => { s with retries := s.retries + 1 }) (fun _ => rfl) fun _ => rfl
  refine ho.ite (fun s => maxRequestRetries < s.retries) (fun _ => rfl) (fun _ => ?_) fun _ => ?_
  · have hz := ho.set (fun s => { s with retries := 0 }) (fun _ => rfl) fun _ => rfl
    exact hz.disconnect true now
  · have hs : t.state.retry? = s.state.retry? := h.eq (·.state.retry?) fun _ => rfl
    dsimp only [Session.raise, Session.emit, Session.count]
    rw [hs]
    cases s.state.retry? with
    | some request => exact ho.sendRequest request now
    | none => exact ho.enterIdle now

/-! ## Timers -/

theorem dropIncomplete (h : Alike a b s t) : Alike a b s.dropIncomplete t.dropIncomplete := by
  have hc := h.set (fun s => { s with buffer := s.buffer.clear }) (fun _ => rfl) fun _ => rfl
  exact hc.count .bytesDiscarded s.buffer.bytes.length t.buffer.bytes.length

theorem fire (h : Alike a b s t) (kind : TimerKind) (now : Nat) :
    Alike a b (s.fire kind now) (t.fire kind now) := by
  cases kind with
  | commTimeout => exact h.requestOverdue now
  | establishFallback => exact h.sendRequest .establish now
  | poll => exact h.poll now
  | dataComplete => exact h.dropIncomplete
  | writeTimeout => exact h.writeOverdue now
  | reconnect => exact h.reconnect
  | separateRequest => exact h.separate now
  | restartHandshake => exact h.startHandshake .select now
  | linkTest => exact h.testLink now
  | disconnectReport => exact h.reportDisconnected
  | stopGrace => exact h.finishStop

theorem expire (h : Alike a b s t) (kind : TimerKind) (now : Nat) :
    Alike a b (expire now s kind) (expire now t kind) :=
  h.ite (·.timers.isDue now kind = true) (fun _ => rfl) (fun _ => (h.cancel kind).fire kind now)
    fun _ => h

theorem tick (h : Alike a b s t) (now : Nat) : Alike a b (s.tick now) (t.tick now) := by
  unfold Session.tick
  rw [h.eq (·.timers.expired now) fun _ => rfl]
  generalize s.timers.expired now = kinds
  induction kinds generalizing s t with
  | nil => exact h
  | cons kind rest ih => exact ih (h.expire kind now)

/-! ## Frames -/

/-- Either both handle a message and stay alike, or neither does. -/
def Options (a b : List Action) : Option Session → Option Session → Prop
  | some s, some t => Alike a b s t
  | none, none => True
  | _, _ => False

theorem options_orElse {o o' p p' : Option Session} (h : Options a b o o')
    (h' : Options a b p p') : Options a b (o <|> p) (o' <|> p') := by
  cases o with
  | none =>
    cases o' with
    | none => exact h'
    | some t => exact h.elim
  | some s =>
    cases o' with
    | none => exact h.elim
    | some t => exact h

theorem send (h : Alike a b s t) (frame : Session → Bytes) (hf : ∀ s, frame s.core = frame s) :
    Alike a b (s.send (frame s)) (t.send (frame t)) := by
  rw [h.eq frame hf]
  exact h.emit _

theorem acknowledgeEvent (h : Alike a b s t) (m : Inbound) :
    Alike a b (s.acknowledgeEvent m) (t.acknowledgeEvent m) :=
  h.send (fun s => s.parties.reply 6 12 m.header.system Body.acceptance) fun _ => rfl

theorem alarmReport (h : Alike a b s t) (m : Inbound) :
    Alike a b (s.alarmReport m) (t.alarmReport m) := by
  cases hm : m.alarmReport? with
  | none =>
    simp only [Session.alarmReport, hm]
    exact h.emit _
  | some report =>
    obtain ⟨alarms, hs⟩ := news_alarmReport s hm
    obtain ⟨alarms', ht⟩ := news_alarmReport t hm
    have hr := h.send (fun s => s.parties.reply 5 2 m.header.system Body.acceptance) fun _ => rfl
    exact (hr.alarms alarms alarms').news hs ht

theorem eventReport? (h : Alike a b s t) (m : Inbound) :
    Options a b (s.eventReport? m) (t.eventReport? m) := by
  unfold Session.eventReport?
  rw [h.eq (·.catalog) fun _ => rfl]
  cases m.eventHeader? with
  | none => trivial
  | some e =>
    obtain ⟨eventId, c⟩ := e
    dsimp only
    cases s.catalog.group? eventId with
    | none => exact h.acknowledgeEvent m
    | some group =>
      dsimp only
      cases c.listHeader? with
      | none => trivial
      | some l =>
        obtain ⟨count, c⟩ := l
        dsimp only
        cases c.findReport eventId group.members.length count with
        | malformed => trivial
        | absent => exact h.acknowledgeEvent m
        | found values =>
          exact (h.news (news_publishRowAndClear s _ _ _)
            (news_publishRowAndClear t _ _ _)).acknowledgeEvent m

theorem unsolicited? (h : Alike a b s t) (m : Inbound) :
    Options a b (s.unsolicited? m) (t.unsolicited? m) := by
  unfold Session.unsolicited?
  split
  · exact h.send (fun s => s.parties.reply 1 2 m.header.system Body.onlineData) fun _ => rfl
  · split
    · exact h.cancel .commTimeout
    · split
      · exact h.alarmReport m
      · split
        · exact h.eventReport? m
        · trivial

theorem acknowledged? (h : Alike a b s t) (m : Inbound) (function : UInt8) (next : Option Request)
    (now : Nat) : Options a b (s.acknowledged? m function next now)
      (t.acknowledged? m function next now) := by
  unfold Session.acknowledged?
  split
  · cases next with
    | some request => exact h.replied.sendRequest request now
    | none => exact h.replied.completeHandshake now
  · trivial

theorem polled? (h : Alike a b s t) (m : Inbound) (stream function : UInt8) (vs : List Variable)
    (bad : AlertKey) {next : Session → Session}
    (hn : ∀ {s t : Session}, Alike a b s t → Alike a b (next s) (next t)) (now : Nat) :
    Options a b (s.polled? m stream function vs bad next now)
      (t.polled? m stream function vs bad next now) := by
  unfold Session.polled?
  rw [h.eq (·.pollTransaction) fun _ => rfl]
  split
  · exact hn (h.replied.emit _)
  · split
    · split
      · exact hn (h.replied.news (news_publishPoll _ m vs bad) (news_publishPoll _ m vs bad))
      · exact h.replied.arm .separateRequest _
    · trivial

theorem reply? (h : Alike a b s t) (m : Inbound) (now : Nat) :
    Options a b (s.reply? m now) (t.reply? m now) := by
  have hr := h.replied
  unfold Session.reply?
  rw [h.eq (·.state) fun _ => rfl, h.eq (·.catalog) fun _ => rfl]
  cases s.state with
  | idle => trivial
  | awaitingEquipment =>
    dsimp only
    split
    · have ha := hr.send (fun s => s.parties.reply 1 14 m.header.system Body.establishAcknowledge)
        fun _ => rfl
      exact ha.arm .establishFallback _
    · trivial
  | awaitingWrite =>
    dsimp only
    split
    · exact ((h.cancel .writeTimeout).emit _).enterIdle now
    · trivial
  | awaitingReply request =>
    cases request with
    | select =>
      dsimp only
      split
      · have ha := hr.set (fun s => { s with state := .awaitingEquipment }) (fun _ => rfl)
          fun _ => rfl
        exact ha.arm .establishFallback _
      · trivial
    | establish =>
      dsimp only
      split
      · exact hr.sendRequest .enableAlarms now
      · trivial
    | enableAlarms =>
      dsimp only
      split
      · split
        · exact hr.sendRequest .deleteReports now
        · exact hr.completeHandshake now
      · trivial
    | deleteReports => exact h.acknowledged? m 34 _ now
    | defineReports => exact h.acknowledged? m 34 _ now
    | linkReports => exact h.acknowledged? m 36 _ now
    | enableEvents => exact h.acknowledged? m 38 _ now
    | statusVariables => exact h.polled? m 1 4 _ _ (fun h => h.afterStatus now) now
    | equipmentConstants => exact h.polled? m 2 14 _ _ (fun h => h.enterIdle now) now

theorem handleFrame (h : Alike a b s t) (now : Nat) (frame : Bytes) :
    Alike a b (handleFrame now s frame) (handleFrame now t frame) := by
  have hc := h.count .framesReceived 1 1
  unfold Session.handleFrame
  dsimp only
  cases Inbound.read? frame with
  | none => exact hc.count .framesUnprocessed 1 1
  | some m =>
    have ho := options_orElse (hc.unsolicited? m) (hc.reply? m now)
    dsimp only
    generalize ((s.count .framesReceived 1).unsolicited? m <|>
      (s.count .framesReceived 1).reply? m now) = o at ho
    generalize ((t.count .framesReceived 1).unsolicited? m <|>
      (t.count .framesReceived 1).reply? m now) = o' at ho
    cases o with
    | some s' =>
      cases o' with
      | some t' => exact ho
      | none => exact ho.elim
    | none =>
      cases o' with
      | some t' => exact ho.elim
      | none =>
        dsimp only
        split
        · exact hc
        · exact hc.count .framesUnprocessed 1 1

/-! ## Events -/

theorem accept (h : Alike a b s t) (received : Bytes) :
    Alike a b (s.accept received) (t.accept received) := by
  unfold Session.accept
  rw [h.eq (·.buffer) fun _ => rfl]
  cases s.buffer.push? received with
  | some buffer => exact h.set (fun s => { s with buffer }) (fun _ => rfl) fun _ => rfl
  | none => exact h.count .bytesDiscarded _ _

theorem awaitRest (h : Alike a b s t) (now : Nat) :
    Alike a b (s.awaitRest now) (t.awaitRest now) := by
  have hc := h.cancel .dataComplete
  exact hc.ite (·.buffer.bytes.isEmpty = true) (fun _ => rfl) (fun _ => hc)
    fun _ => hc.arm .dataComplete _

theorem receive (h : Alike a b s t) (received : Bytes) (now : Nat) :
    Alike a b (s.receive received now) (t.receive received now) := by
  have ha := h.accept received
  have hb := ha.eq (·.buffer.drain) fun _ => rfl
  unfold Session.receive
  dsimp only
  rw [hb]
  refine awaitRest ?_ now
  generalize (s.accept received).buffer.drain = d
  have hd := ha.set (fun s => { s with buffer := d.2 }) (fun _ => rfl) fun _ => rfl
  generalize d.1 = frames
  generalize { s.accept received with buffer := d.2 } = s' at hd
  generalize { t.accept received with buffer := d.2 } = t' at hd
  induction frames generalizing s' t' with
  | nil => exact hd
  | cons frame rest ih => exact ih _ _ (hd.handleFrame now frame)

theorem write (h : Alike a b s t) (name : String) (value : Value) (now : Nat) :
    Alike a b (s.write name value now).1 (t.write name value now).1 := by
  unfold Session.write
  rw [h.eq (·.catalog) fun _ => rfl]
  cases s.catalog.writable.get? name with
  | none => exact h.emit _
  | some v =>
    have h₁ := h.emit (.clear (.notWritable name))
    dsimp only
    split
    · exact h₁.emit _
    · have h₂ := h₁.emit (.clear (.notEquipmentConstant name))
      cases v.numericId with
      | none => exact h₂.emit _
      | some constantId =>
        have h₃ := h₂.emit (.clear (.noNumericId name))
        dsimp only
        cases v.write? value with
        | none => exact h₃
        | some item =>
          simp only [apply_ite Prod.fst]
          exact h₃.ite (fun s => (!s.isConnected) = true) (fun _ => rfl) (fun _ => h₃) fun _ =>
            h₃.ite (·.state.isIdle = true) (fun _ => rfl) (fun _ => h₃.sendWrite _ now) fun _ =>
              h₃.set (fun s => { s with
                pendingWrites := s.pendingWrites ++ [⟨name, constantId, item⟩] }) (fun _ => rfl)
                fun _ => rfl

theorem beginStop (h : Alike a b s t) (now : Nat) :
    Alike a b (s.beginStop now) (t.beginStop now) := by
  refine h.ite (·.stopping = true) (fun _ => rfl) (fun _ => h) fun _ => ?_
  have hs := h.set (fun s => { s with stopping := true, timers := {}, pendingWrites := [] })
    (fun _ => rfl) fun _ => rfl
  exact hs.ite (fun s => (s.isConnected && !s.state.isIdle) = true) (fun _ => rfl)
    (fun _ => hs.arm .stopGrace _) fun _ => hs.finishStop

/-- Whatever happens to both of two sessions that are alike keeps them so. -/
theorem step (h : Alike a b s t) (now : Nat) (event : SessionEvent) :
    Alike a b (s.step now event) (t.step now event) := by
  cases event with
  | opened => exact h.launch
  | connected => exact h.connected now
  | connectFailed => exact h.disconnect false now
  | socketError => exact h.disconnect false now
  | socketEnd => exact h.closedByEquipment now
  | data received => exact h.receive received now
  | timer => exact h.tick now
  | write name value => exact h.write name value now
  | stop => exact h.beginStop now

end Alike

end Session

end GemLink
