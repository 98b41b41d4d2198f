import GemLink.Session.Events

/-!
The operations of a session, each by one equation: an operation that only writes fields of the
record is given as the record it returns, so that whoever reads a field of the result need not open
the operation. Operations that end in others are given as those others after a record.

`News s s'` says that `s'` is `s` with more news for the host and other counts. What an answer to
the open question does is said once, by the cases of `Answer` (`answer_of_reply?`).
-/

namespace GemLink

/-! ## Timers -/

namespace Timers

theorem deadline?_arm (t : Timers) (kind other : TimerKind) (deadline : Nat) :
    (t.arm kind deadline).deadline? other =
      if other = kind then some deadline else t.deadline? other :=
  deadline?_set t kind other _

theorem deadline?_cancel (t : Timers) (kind other : TimerKind) :
    (t.cancel kind).deadline? other = if other = kind then none else t.deadline? other :=
  deadline?_set t kind other _

@[simp] theorem isArmed_arm (t : Timers) (kind other : TimerKind) (deadline : Nat) :
    (t.arm kind deadline).isArmed other = (decide (other = kind) || t.isArmed other) := by
  unfold isArmed
  rw [deadline?_arm]
  split <;> simp [*]

@[simp] theorem isArmed_cancel (t : Timers) (kind other : TimerKind) :
    (t.cancel kind).isArmed other = (!decide (other = kind) && t.isArmed other) := by
  unfold isArmed
  rw [deadline?_cancel]
  split <;> simp [*]

@[simp] theorem isArmed_empty (kind : TimerKind) : ({} : Timers).isArmed kind = false := by
  cases kind <;> rfl

/-- Only the report that the machine is disconnected outlives a connection. -/
@[simp] theorem isArmed_report (deadline : Option Nat) (kind : TimerKind) :
    ({ disconnectReport := deadline } : Timers).isArmed kind =
      (decide (kind = .disconnectReport) && deadline.isSome) := by
  cases kind <;> simp [isArmed, deadline?]

theorem deadline?_of_isDue {t : Timers} {kind : TimerKind} {now : Nat}
    (h : t.isDue now kind = true) : ∃ deadline, t.deadline? kind = some deadline ∧ deadline ≤ now := by
  unfold isDue at h
  split at h
  · next deadline hd => exact ⟨deadline, hd, of_decide_eq_true h⟩
  · cases h

theorem isArmed_of_isDue {t : Timers} {kind : TimerKind} {now : Nat}
    (h : t.isDue now kind = true) : t.isArmed kind = true := by
  obtain ⟨deadline, hd, -⟩ := deadline?_of_isDue h
  exact Option.isSome_iff_exists.mpr ⟨deadline, hd⟩

theorem mem_expired {t : Timers} {kind : TimerKind} {now deadline : Nat}
    (h : t.deadline? kind = some deadline) (hd : deadline ≤ now) : kind ∈ t.expired now := by
  unfold expired
  rw [List.mem_mergeSort, List.mem_filter]
  refine ⟨?_, ?_⟩
  · cases kind <;> decide
  · simp [isDue, h, hd]

theorem isDue_of_mem_expired {t : Timers} {kind : TimerKind} {now : Nat}
    (h : kind ∈ t.expired now) : t.isDue now kind = true := by
  unfold expired at h
  rw [List.mem_mergeSort, List.mem_filter] at h
  exact h.2

theorem ext_deadline? {t u : Timers} (h : ∀ kind, t.deadline? kind = u.deadline? kind) :
    t = u := by
  cases t
  cases u
  simp only [mk.injEq]
  exact ⟨h .commTimeout, h .establishFallback, h .poll, h .dataComplete, h .writeTimeout,
    h .reconnect, h .separateRequest, h .restartHandshake, h .linkTest, h .disconnectReport,
    h .stopGrace⟩

/-- Disarming a timer that is not armed changes nothing. -/
theorem cancel_eq_self {t : Timers} {kind : TimerKind} (h : t.isArmed kind = false) :
    t.cancel kind = t := by
  apply ext_deadline?
  intro other
  rw [deadline?_cancel]
  split
  · next hk =>
    subst hk
    exact (by simpa [isArmed] using h : t.deadline? other = none).symm
  · rfl

end Timers

/-! ## The order of the handshake -/

/-- Whether a session in this state has established communication: it waits for nothing, for values
or for the acknowledgement of a write. -/
def CommState.isEstablished : CommState → Bool
  | .idle | .awaitingWrite => true
  | .awaitingReply request => request.isPoll
  | .awaitingEquipment => false

/-- The requests of a handshake in their order. -/
def Catalog.handshake (c : Catalog) : List Request :=
  [.establish, .enableAlarms] ++
    if c.hasReports then [.deleteReports, .defineReports, .linkReports, .enableEvents] else []

/-- The request that a handshake goes on with after one that was accepted. -/
def Catalog.following? (c : Catalog) : Request → Option Request
  | .establish => some .enableAlarms
  | .enableAlarms => if c.hasReports then some .deleteReports else none
  | .deleteReports => some .defineReports
  | .defineReports => some .linkReports
  | .linkReports => some .enableEvents
  | .select | .enableEvents | .statusVariables | .equipmentConstants => none

/-- Whether a message accepts a request of a handshake: the answer has the stream and function that
belong to the request, which for the alarms may also be S5F0, and its code is that of acceptance. -/
def Request.isAcceptedBy (m : Inbound) : Request → Bool
  | .establish => m.header.carries 1 14 && m.establishCode? == some Body.accepted
  | .enableAlarms => Session.accepts m 5 4 || Session.accepts m 5 0
  | .deleteReports | .defineReports => Session.accepts m 2 34
  | .linkReports => Session.accepts m 2 36
  | .enableEvents => Session.accepts m 2 38
  | .select | .statusVariables | .equipmentConstants => false

/-- Whether a message has the stream and function of the answer to a poll. -/
def Request.isPolledBy (m : Inbound) : Request → Bool
  | .statusVariables => m.header.carries 1 4
  | .equipmentConstants => m.header.carries 2 14
  | _ => false

/-- The alert about a bad answer to a poll. -/
def Request.badResponse : Request → AlertKey
  | .statusVariables => .badStatusResponse
  | _ => .badConstantResponse

/-- The variables that a poll asks for. -/
def Catalog.polled (c : Catalog) : Request → List Variable
  | .statusVariables => c.status
  | _ => c.constants

/-- The write that a call asks for: a writable variable that has an identifier, and an item that
carries the value to it. -/
def Catalog.write? (c : Catalog) (name : String) (value : Value) : Option PendingWrite :=
  (c.writable.get? name).bind fun v =>
    v.numericId.bind fun id => (v.write? value).map fun item => ⟨name, id, item⟩

/-! ## News for the host -/

/-- Whether an action only tells the host something. -/
def Action.isNews : Action → Bool
  | .publish .. | .raise .. | .clear .. => true
  | _ => false

/-- `s'` is `s` with more news for the host and other counts. -/
def News (s s' : Session) : Prop :=
  ∃ acts counters, s' = { s with outbox := s.outbox ++ acts, counters } ∧
    ∀ a ∈ acts, a.isNews = true

namespace News

theorem refl (s : Session) : News s s :=
  ⟨[], s.counters, by simp, by simp⟩

theorem trans {s t u : Session} (hst : News s t) (htu : News t u) : News s u := by
  obtain ⟨acts, c, rfl, ha⟩ := hst
  obtain ⟨acts', c', rfl, ha'⟩ := htu
  refine ⟨acts ++ acts', c', by simp, ?_⟩
  intro a h
  rcases List.mem_append.mp h with h | h
  · exact ha a h
  · exact ha' a h

theorem emit (s : Session) {a : Action} (h : a.isNews = true) : News s (s.emit a) :=
  ⟨[a], s.counters, rfl, by simpa using h⟩

theorem count (s : Session) (counter : Counter) (n : Nat) : News s (s.count counter n) :=
  ⟨[], s.counters.add counter n, by simp [Session.count], by simp⟩

end News

/-- Whether an action raises or clears an alert. -/
def Action.isAlert : Action → Bool
  | .raise .. | .clear .. => true
  | _ => false

theorem Action.isNews_of_isAlert {a : Action} (h : a.isAlert = true) : a.isNews = true := by
  cases a <;> first | rfl | cases h

/-- `s'` is `s` with more alerts raised and cleared. -/
def Alerted (s s' : Session) : Prop :=
  ∃ acts, s' = { s with outbox := s.outbox ++ acts } ∧ ∀ a ∈ acts, a.isAlert = true

namespace Alerted

theorem refl (s : Session) : Alerted s s :=
  ⟨[], by simp, by simp⟩

theorem emit {s t : Session} (h : Alerted s t) {a : Action} (ha : a.isAlert = true) :
    Alerted s (t.emit a) := by
  obtain ⟨acts, rfl, hacts⟩ := h
  refine ⟨acts ++ [a], by simp [Session.emit], ?_⟩
  rw [List.forall_mem_append, List.forall_mem_singleton]
  exact ⟨hacts, ha⟩

theorem news {s t : Session} (h : Alerted s t) : News s t := by
  obtain ⟨acts, rfl, hacts⟩ := h
  exact ⟨acts, s.counters, rfl, fun a ha => Action.isNews_of_isAlert (hacts a ha)⟩

end Alerted

namespace Session

variable (s : Session) (now : Nat)

theorem publishAll_eq (targets : List Variable) (value : Value) (report : Bool) :
    s.publishAll targets value report =
      { s with outbox := s.outbox ++ targets.map fun v => .publish v value report } := by
  unfold publishAll
  induction targets generalizing s with
  | nil => simp
  | cons v rest ih =>
    rw [List.foldl_cons, ih]
    simp [emit]

theorem publishConnected_eq (connected : Bool) :
    s.publishConnected connected =
      { s with outbox := s.outbox ++
          s.catalog.connected.map fun v => .publish v (.flag connected) false } :=
  publishAll_eq s _ _ _

theorem publishAlarms_eq :
    s.publishAlarms =
      { s with outbox := s.outbox ++
          ((s.catalog.alarmCodes.map fun v => .publish v s.alarms.codesValue true) ++
            s.catalog.alarmTexts.map fun v => .publish v s.alarms.textsValue true) } := by
  simp [publishAlarms, publishAll_eq]

theorem news_publishAll (targets : List Variable) (value : Value) (report : Bool) :
    News s (s.publishAll targets value report) := by
  rw [publishAll_eq]
  refine ⟨_, s.counters, rfl, ?_⟩
  intro a ha
  obtain ⟨v, -, rfl⟩ := List.mem_map.mp ha
  rfl

theorem news_publishAlarms : News s s.publishAlarms :=
  (news_publishAll s _ _ _).trans (news_publishAll _ _ _ _)

theorem news_dataFailure (v : Variable) : News s (s.dataFailure v) :=
  (News.count s .decodeFailures 1).trans (News.emit _ rfl)

theorem news_publishItem (v : Variable) (item : Option Item) :
    News s (s.publishItem v item).1 := by
  unfold publishItem
  split
  · exact News.emit s rfl
  · exact news_dataFailure s v

theorem news_publishRow (count : Nat) (c : Cursor) (vs : List Variable) :
    News s (s.publishRow count c vs).1 := by
  induction vs generalizing s count c with
  | nil => exact News.refl s
  | cons v rest ih => exact (news_publishItem s v _).trans (ih _ _ _)

theorem news_publishRowAndClear (count : Nat) (c : Cursor) (vs : List Variable) :
    News s (s.publishRowAndClear count c vs) := by
  have h := news_publishRow s count c vs
  unfold publishRowAndClear
  dsimp only
  split
  · exact h.trans (News.emit _ rfl)
  · exact h

theorem news_publishPoll (m : Inbound) (vs : List Variable) (bad : AlertKey) :
    News s (s.publishPoll m vs bad) := by
  have hfail : ∀ (s : Session), News s (vs.foldl dataFailure s) := by
    induction vs with
    | nil => exact News.refl
    | cons v rest ih => exact fun s => (news_dataFailure s v).trans (ih _)
  unfold publishPoll
  split
  · exact (news_publishRowAndClear s _ _ vs).trans (News.emit _ rfl)
  · exact (hfail s).trans (News.emit _ rfl)

/-! ## Questions -/

theorem finishStop_eq (h : s.connection.opened = true) :
    s.finishStop =
      { s with
        timers := {}
        state := .idle
        handshakeComplete := false
        connection := { s.connection with link := .disconnected, opened := false }
        outbox := s.outbox ++ [.close true, .stopped] } := by
  simp [finishStop, h, emit]

theorem finishStop_of_not_opened (h : s.connection.opened = false) : s.finishStop = s := by
  simp [finishStop, h]

theorem sendWrite_eq (w : PendingWrite) :
    s.sendWrite w now =
      { s with
        nextTransaction := s.nextTransaction + 1
        state := .awaitingWrite
        timers := s.timers.arm .writeTimeout (now + writeTimeout)
        outbox := s.outbox ++ [.send (s.writeFrame w s.nextTransaction)] } :=
  rfl

theorem enterIdle_of_stopping (h : s.stopping = true) :
    s.enterIdle now = { s with state := .idle }.finishStop := by
  simp [enterIdle, h]

/-- The first of the writes that wait is sent. -/
theorem enterIdle_of_pending (h : s.stopping = false) {w : PendingWrite} {rest : List PendingWrite}
    (hw : s.pendingWrites = w :: rest) :
    s.enterIdle now = { s with state := .idle, pendingWrites := rest }.sendWrite w now := by
  simp [enterIdle, h, hw]

/-- When no write waits, the next poll is set unless it is set already. -/
theorem enterIdle_of_none_pending (h : s.stopping = false) (hw : s.pendingWrites = []) :
    s.enterIdle now =
      { s with
        state := .idle
        timers := if s.handshakeComplete && !s.timers.isArmed .poll then
            s.timers.arm .poll (now + s.settings.pollInterval)
          else s.timers } := by
  simp only [enterIdle, h, hw, Bool.false_eq_true, if_false]
  split <;> rfl

theorem sendRequest_of_stopping (h : s.stopping = true) (request : Request) :
    s.sendRequest request now = { s with state := .idle }.finishStop := by
  simp [sendRequest, enterIdle, h]

theorem sendRequest_eq (h : s.stopping = false) (request : Request) :
    s.sendRequest request now =
      { s with
        nextTransaction := s.nextTransaction + 1
        pollTransaction := if request.isPoll then s.nextTransaction else s.pollTransaction
        state := .awaitingReply request
        timers := (s.timers.cancel .establishFallback).arm .commTimeout (now + commTimeout)
        outbox := s.outbox ++ [.send (s.requestFrame request s.nextTransaction)] } := by
  unfold sendRequest
  rw [if_neg (by simp [h])]
  rfl

theorem startHandshake_eq (request : Request) :
    s.startHandshake request now =
      { s with
        handshakeComplete := false
        timers := (s.timers.cancel .poll).cancel .linkTest }.sendRequest request now :=
  rfl

theorem replied_eq :
    s.replied =
      { s with
        timers := (s.timers.cancel .commTimeout).cancel .establishFallback
        retries := 0
        outbox := s.outbox ++ [.clear .noResponse] } :=
  rfl

theorem completeHandshake_eq :
    s.completeHandshake now =
      { s with
        connection := { s.connection with attempts := 1 }
        handshakeComplete := true
        timers := match s.settings.linkTestInterval with
          | some interval => s.timers.arm .linkTest (now + interval)
          | none => s.timers }.enterIdle now := by
  unfold completeHandshake
  dsimp only
  cases s.settings.linkTestInterval <;> rfl

theorem separate_eq :
    s.separate now =
      { s with
        nextTransaction := s.nextTransaction + 1
        timers := s.timers.arm .restartHandshake (now + reestablishDelay)
        outbox := s.outbox ++
          [.send (s.parties.control SessionType.separateRequest s.nextTransaction)] } :=
  rfl

theorem testLink_eq {interval : Nat} (h : s.settings.linkTestInterval = some interval) :
    s.testLink now =
      { s with
        nextTransaction := s.nextTransaction + 1
        timers := s.timers.arm .linkTest (now + interval)
        outbox := s.outbox ++
          [.send (s.parties.control SessionType.linkTestRequest s.nextTransaction)] } := by
  simp [testLink, h, sendControl, advanceTransaction, send, emit, arm]

/-! ## The connection -/

theorem launch_eq :
    s.launch =
      { s with
        connection := { link := .connecting, opened := true }
        stopping := false
        alarms := {}
        nextTransaction := 0
        outbox := s.outbox ++
          ((s.catalog.alarmCodes.map fun v => .publish v (ActiveAlarms.codesValue {}) true) ++
            s.catalog.alarmTexts.map fun v => .publish v (ActiveAlarms.textsValue {}) true) ++
          [.connect] } := by
  simp [launch, publishAlarms_eq, connect, emit]

/-- The host hears that the machine is connected, unless it has heard so. -/
theorem connected_eq (ho : s.connection.opened = true) (hs : s.stopping = false) :
    s.connected now =
      { s with
        timers := s.timers.cancel .disconnectReport
        connection := { s.connection with
          link := .connected
          startup := s.connection.startup.toggled
          reported := true }
        outbox := s.outbox ++ Action.clear .connectivity ::
          ((if s.connection.reported then []
            else s.catalog.connected.map fun v => Action.publish v (.flag true) false) ++
          [Action.status true]) }.startHandshake s.connection.startup.request now := by
  unfold connected
  rw [if_neg (by simp [ho, hs])]
  unfold noteConnected
  by_cases hr : s.connection.reported = true
  · simp [hr, clear, cancel, emit]
  · simp [hr, clear, cancel, emit, publishConnected_eq]

theorem connected_of_stopping (hs : s.stopping = true) : s.connected now = s := by
  simp [connected, hs]

theorem disconnect_of_stopping (hs : s.stopping = true) (graceful : Bool) :
    s.disconnect graceful now = s.finishStop := by
  unfold disconnect
  rw [if_pos hs]
  split
  · next h =>
    have ho : s.connection.opened = false := by simpa using h
    simp [finishStop, ho]
  · rfl

theorem disconnect_eq (ho : s.connection.opened = true) (hs : s.stopping = false)
    (graceful : Bool) :
    s.disconnect graceful now =
      { s with
        state := .idle
        handshakeComplete := false
        pendingWrites := []
        buffer := s.buffer.clear
        timers :=
          { disconnectReport := some
              (s.timers.disconnectReport.getD (now + s.settings.disconnectDelay))
            reconnect := some (now + reconnectDelay) }
        connection := { s.connection with link := .disconnected }
        outbox := s.outbox ++ [.close graceful, .raise .connectivity none, .status false]
        counters := s.counters.add .bytesDiscarded s.buffer.bytes.length } := by
  unfold disconnect
  rw [if_neg (by simp [ho]), if_neg (by simp [hs])]
  unfold noteDisconnected
  cases h : s.timers.disconnectReport with
  | none => simp [resetExchange, count, emit, raise, arm, h]; rfl
  | some deadline => simp [resetExchange, count, emit, raise, arm, h]; rfl

/-- The last attempt to connect ends the session. -/
theorem reconnect_eq :
    s.reconnect =
      if maxReconnectAttempts < s.connection.attempts + 1 then
        { s with
          timers := {}
          connection := { s.connection with
            link := .disconnected, opened := false, attempts := s.connection.attempts + 1 }
          outbox := s.outbox ++ [.terminate s.connection.attempts]
          counters := s.counters.add .reconnectAttempts 1 }
      else
        { s with
          nextTransaction := 0
          connection := { s.connection with
            link := .connecting, attempts := s.connection.attempts + 1 }
          outbox := s.outbox ++ [.connect]
          counters := s.counters.add .reconnectAttempts 1 } := by
  unfold reconnect
  dsimp only [count]
  split <;> simp [connect, emit]

theorem reportDisconnected_eq :
    s.reportDisconnected =
      { s with
        connection := { s.connection with reported := false }
        outbox := s.outbox ++
          s.catalog.connected.map fun v => .publish v (.flag false) false } :=
  publishConnected_eq _ _

/-- An open request is sent again until it has been overdue too often. -/
theorem requestOverdue_eq {request : Request} (h : s.state.retry? = some request) :
    s.requestOverdue now =
      let t := { s with
        outbox := s.outbox ++ [Action.raise .noResponse none]
        counters := s.counters.add .requestTimeouts 1 }
      if maxRequestRetries < s.retries + 1 then { t with retries := 0 }.disconnect true now
      else { t with retries := s.retries + 1 }.sendRequest request now := by
  unfold requestOverdue
  dsimp only [raise, emit, count]
  rw [h]

theorem writeOverdue_eq :
    s.writeOverdue now =
      let t := { s with outbox := s.outbox ++ [Action.raise .writeFailed none] }
      if s.state = .awaitingWrite then t.enterIdle now else t :=
  rfl

/-- Only the deadline for the rest of a frame is set anew. -/
theorem awaitRest_eq :
    s.awaitRest now =
      { s with
        timers :=
          if s.buffer.bytes.isEmpty then s.timers.cancel .dataComplete
          else (s.timers.cancel .dataComplete).arm .dataComplete (now + dataCompleteTimeout) } := by
  unfold awaitRest
  dsimp only [cancel]
  split
  · rfl
  · rfl

/-! ## Messages of the equipment's own accord -/

/-- What a message that the equipment sends of its own accord does: it is answered or not, the host
hears of it, and the alarms follow it. A message that the transaction took too long disarms the
overdue request. -/
inductive Heard (s : Session) (m : Inbound) : Session → Prop
  /-- S1F1. -/
  | asked (h : m.header.carries 1 1 = true) :
      Heard s m (s.send (s.parties.reply 1 2 m.header.system Body.onlineData))
  /-- S9F9. -/
  | timedOut (h : m.header.carries 9 9 = true) : Heard s m (s.cancel .commTimeout)
  /-- S5F1 that is no alarm report. -/
  | malformed (h : m.header.carries 5 1 = true) : Heard s m (s.raise .badAlarmReport none)
  /-- S5F1. -/
  | alarmed (h : m.header.carries 5 1 = true) (alarms : ActiveAlarms) (t : Session)
      (ht : News { s.send (s.parties.reply 5 2 m.header.system Body.acceptance) with alarms } t) :
      Heard s m t
  /-- S6F11. -/
  | reported (h : m.header.carries 6 11 = true) (t : Session) (ht : News s t) :
      Heard s m (t.acknowledgeEvent m)

/-- An alarm report is answered, and the alarms follow it. -/
theorem news_alarmReport (s : Session) {m : Inbound} {report : AlarmReport}
    (h : m.alarmReport? = some report) :
    ∃ alarms, News { s.send (s.parties.reply 5 2 m.header.system Body.acceptance) with alarms }
      (s.alarmReport m) := by
  unfold alarmReport
  rw [h]
  dsimp only
  split
  · next alarms _ =>
    refine ⟨alarms, ?_⟩
    exact (News.emit _ rfl : News _ (clear _ .badAlarmReport)).trans (news_publishAlarms _)
  · exact ⟨s.alarms, News.emit _ rfl⟩

theorem heard_of_unsolicited? {s s' : Session} {m : Inbound} (h : s.unsolicited? m = some s') :
    Heard s m s' := by
  unfold unsolicited? at h
  split at h
  · next hc =>
    cases h
    exact .asked hc
  · split at h
    · next hc =>
      cases h
      exact .timedOut hc
    · split at h
      · next hc =>
        cases h
        cases hm : m.alarmReport? with
        | none =>
          simp only [alarmReport, hm]
          exact .malformed hc
        | some report =>
          obtain ⟨alarms, ht⟩ := news_alarmReport s hm
          exact .alarmed hc alarms _ ht
      · split at h
        · next hc =>
          unfold eventReport? at h
          split at h
          · cases h
          · split at h
            · cases h
              exact .reported hc s (News.refl s)
            · split at h
              · cases h
              · dsimp only at h
                split at h
                · cases h
                · cases h
                  exact .reported hc s (News.refl s)
                · cases h
                  exact .reported hc _ (news_publishRowAndClear _ _ _ _)
        · cases h

/-! ## Answers -/

/-- Goes on after a poll. -/
def afterPoll (s : Session) (request : Request) (now : Nat) : Session :=
  if request = .statusVariables then s.afterStatus now else s.enterIdle now

/-- What the answer to the open question does. -/
inductive Answer (s : Session) (m : Inbound) (now : Nat) : Session → Prop
  /-- The communication is open; now the equipment may establish it. -/
  | selected (hs : s.state = .awaitingReply .select) (hm : m.isSelectResponse = true) :
      Answer s m now ({ s.replied with state := .awaitingEquipment }.arm .establishFallback
        (now + establishFallback))
  /-- The equipment establishes communication. -/
  | approached (hs : s.state = .awaitingEquipment) (hm : m.header.carries 1 13 = true) :
      Answer s m now ((s.replied.send
        (s.parties.reply 1 14 m.header.system Body.establishAcknowledge)).arm .establishFallback
          (now + establishFallback))
  /-- A request of the handshake is accepted, and the next one follows. -/
  | advanced (request next : Request) (hs : s.state = .awaitingReply request)
      (hm : request.isAcceptedBy m = true) (hn : s.catalog.following? request = some next) :
      Answer s m now (s.replied.sendRequest next now)
  /-- The last request of the handshake is accepted. -/
  | completed (request : Request) (hs : s.state = .awaitingReply request)
      (hm : request.isAcceptedBy m = true) (hn : s.catalog.following? request = none) :
      Answer s m now (s.replied.completeHandshake now)
  /-- A poll has failed. -/
  | failed (request : Request) (hs : s.state = .awaitingReply request)
      (hp : request.isPoll = true) (hm : m.isFailedTransaction = true) :
      Answer s m now ((s.replied.raise request.badResponse none).afterPoll request now)
  /-- A poll brings values. -/
  | polled (request : Request) (hs : s.state = .awaitingReply request)
      (hp : request.isPoll = true) (hm : request.isPolledBy m = true)
      (ht : m.header.system.transactionId = s.pollTransaction) :
      Answer s m now ((s.replied.publishPoll m (s.catalog.polled request)
        request.badResponse).afterPoll request now)
  /-- An answer to another poll leaves this one open. -/
  | mismatched (request : Request) (hs : s.state = .awaitingReply request)
      (hp : request.isPoll = true) (hm : request.isPolledBy m = true)
      (ht : m.header.system.transactionId ≠ s.pollTransaction) :
      Answer s m now (s.replied.arm .separateRequest (now + reestablishDelay))
  /-- A write is acknowledged. -/
  | written (hs : s.state = .awaitingWrite) (hm : accepts m 2 16 = true) :
      Answer s m now (((s.cancel .writeTimeout).clear .writeFailed).enterIdle now)

theorem answer_of_acknowledged? {s s' : Session} {m : Inbound} {function : UInt8}
    {next : Option Request} {now : Nat} {request : Request}
    (hs : s.state = .awaitingReply request)
    (hm : accepts m 2 function = true → request.isAcceptedBy m = true)
    (hn : s.catalog.following? request = next)
    (h : s.acknowledged? m function next now = some s') : Answer s m now s' := by
  unfold acknowledged? at h
  split at h
  · next ha =>
    cases next with
    | some next =>
      cases h
      exact .advanced request next hs (hm ha) hn
    | none =>
      cases h
      exact .completed request hs (hm ha) hn
  · cases h

theorem answer_of_polled? {s s' : Session} {m : Inbound} {stream function : UInt8}
    {next : Session → Session} {now : Nat} {request : Request}
    (hs : s.state = .awaitingReply request) (hp : request.isPoll = true)
    (hm : m.header.carries stream function = true → request.isPolledBy m = true)
    (hn : ∀ t : Session, next t = t.afterPoll request now)
    (h : s.polled? m stream function (s.catalog.polled request) request.badResponse next now =
      some s') : Answer s m now s' := by
  unfold polled? at h
  split at h
  · next hf =>
    cases h
    rw [hn]
    exact .failed request hs hp hf
  · split at h
    · next hc =>
      split at h
      · next ht =>
        cases h
        rw [hn]
        exact .polled request hs hp (hm hc) ht
      · next ht =>
        cases h
        exact .mismatched request hs hp (hm hc) ht
    · cases h

theorem answer_of_reply? {s s' : Session} {m : Inbound} {now : Nat}
    (h : s.reply? m now = some s') : Answer s m now s' := by
  unfold reply? at h
  split at h
  · cases h
  · next hs =>
    split at h
    · next hm =>
      cases h
      exact .selected hs hm
    · cases h
  · next hs =>
    split at h
    · next hm =>
      cases h
      exact .approached hs hm
    · cases h
  · next hs =>
    split at h
    · next hm =>
      cases h
      exact .advanced .establish _ hs hm rfl
    · cases h
  · next hs =>
    split at h
    · next hm =>
      split at h
      · next hr =>
        cases h
        exact .advanced .enableAlarms _ hs hm (by simp [Catalog.following?, hr])
      · next hr =>
        cases h
        exact .completed .enableAlarms hs hm (by simp [Catalog.following?, hr])
    · cases h
  · next hs => exact answer_of_acknowledged? hs id rfl h
  · next hs => exact answer_of_acknowledged? hs id rfl h
  · next hs => exact answer_of_acknowledged? hs id rfl h
  · next hs => exact answer_of_acknowledged? hs id rfl h
  · next hs =>
    exact @answer_of_polled? s s' m 1 4 _ now .statusVariables hs rfl id (fun _ => rfl) h
  · next hs =>
    exact @answer_of_polled? s s' m 2 14 _ now .equipmentConstants hs rfl id (fun _ => rfl) h
  · next hs =>
    split at h
    · next hm =>
      cases h
      exact .written hs hm
    · cases h

/-- What a frame does: the equipment has sent it of its own accord, or it answers the open question,
or it only counts. -/
inductive Handled (s : Session) (now : Nat) (frame : Bytes) : Session → Prop
  | heard (m : Inbound) (hm : Inbound.read? frame = some m) (t : Session)
      (h : Heard (s.count .framesReceived 1) m t) : Handled s now frame t
  | answered (m : Inbound) (hm : Inbound.read? frame = some m) (t : Session)
      (h : Answer (s.count .framesReceived 1) m now t) : Handled s now frame t
  | ignored (counters : Counters) : Handled s now frame { s with counters }

theorem handled_handleFrame (s : Session) (now : Nat) (frame : Bytes) :
    Handled s now frame (s.handleFrame now frame) := by
  unfold handleFrame
  dsimp only
  split
  · exact .ignored _
  · next m hm =>
    cases hu : (s.count .framesReceived 1).unsolicited? m with
    | some t => exact .heard m hm t (heard_of_unsolicited? hu)
    | none =>
      cases hr : (s.count .framesReceived 1).reply? m now with
      | some t => exact .answered m hm t (answer_of_reply? hr)
      | none =>
        dsimp only [HOrElse.hOrElse, OrElse.orElse, Option.orElse]
        split
        · exact .ignored _
        · exact .ignored _

end Session

end GemLink
