import GemLink.Proofs.Session.Frames
import GemLink.Proofs.Session.Tidings
import Mathlib.Logic.Relation

/-!
What a session does, taken apart into deeds. A deed is the least that a session does at once: it
tells the host something, answers a message, begins a transaction, follows an alarm report, gives
the connection up, ends a stop, or only changes what it waits for. The operations of the session are
rows of deeds, and so are the moments of a run (`deeds_advance`, `deeds_handleFrame`), whether or
not the run is legal. What each deed keeps is therefore kept by whatever a session does
(`Deeds.keeps`).
-/

namespace GemLink

/-- Whether a frame begins a transaction of the host: a request, a write, a test of the link or the
end of the communication. -/
def isInitiated (frame : Bytes) : Bool :=
  isRequest frame || hasSession SessionType.linkTestRequest frame ||
    hasSession SessionType.separateRequest frame

/-- The messages of the equipment that are answered, by stream and function. -/
def answeredMessages : List (UInt8 × UInt8) :=
  [(1, 1), (1, 13), (5, 1), (6, 11)]

namespace Session

/-- What a session shows of itself: all that a change of what it waits for leaves alone. -/
structure Face where
  outbox : List Action
  link : LinkState
  opened : Bool
  startup : StartupStep
  stopping : Bool
  alarms : ActiveAlarms
  nextTransaction : UInt16
  framesReceived : Nat
  catalog : Catalog
  parties : Parties

/-- What a session shows of itself. -/
def face (s : Session) : Face where
  outbox := s.outbox
  link := s.connection.link
  opened := s.connection.opened
  startup := s.connection.startup
  stopping := s.stopping
  alarms := s.alarms
  nextTransaction := s.nextTransaction
  framesReceived := s.counters.framesReceived
  catalog := s.catalog
  parties := s.parties

/-- An action that tells the host something, but nothing of the alarms that are active. -/
def Remarks (s : Session) : Action → Prop
  | .publish v _ _ => s.catalog.Reads v ∨ v ∈ s.catalog.connected
  | .raise _ _ | .clear _ => True
  | _ => False

/-- A frame that begins the next transaction. -/
inductive Initiates (s : Session) : Bytes → Prop
  | request (request : Request) : Initiates s (s.requestFrame request s.nextTransaction)
  | write (w : PendingWrite) : Initiates s (s.writeFrame w s.nextTransaction)
  | linkTest :
      Initiates s (s.parties.control SessionType.linkTestRequest s.nextTransaction)
  | separate :
      Initiates s (s.parties.control SessionType.separateRequest s.nextTransaction)

/-- The least that a session does at a moment. -/
inductive Deed (m : Moment) (s : Session) : Session → Prop
  /-- What it waits for changes, or how long it waits. -/
  | shift (t : Session) (hf : t.face = s.face)
      (hr : t.timers.isArmed .reconnect = true → s.timers.isArmed .reconnect = true) : Deed m s t
  /-- The host hears something. -/
  | tell (a : Action) (h : s.Remarks a) : Deed m s (s.emit a)
  /-- A message is answered. -/
  | answer (frame : Bytes) (inbound : Inbound) (stream function : UInt8) (body : Item)
      (hm : m = .frame frame) (hi : Inbound.read? frame = some inbound)
      (hp : (stream, function) ∈ answeredMessages)
      (hc : inbound.header.carries stream function = true) :
      Deed m s (s.send (s.parties.reply stream (function + 1) inbound.header.system body))
  /-- A transaction begins. -/
  | ask (frame : Bytes) (h : s.Initiates frame) : Deed m s (s.advanceTransaction.send frame)
  /-- The active alarms follow a report. -/
  | follow (frame : Bytes) (inbound : Inbound) (report : AlarmReport) (alarms : ActiveAlarms)
      (hm : m = .frame frame) (hi : Inbound.read? frame = some inbound)
      (hc : inbound.header.carries 5 1 = true) (hr : inbound.alarmReport? = some report)
      (ha : s.alarms.after? report = some alarms) :
      Deed m s { s with alarms }.publishAlarms
  /-- The connection is given up. -/
  | lose (graceful : Bool) (now : Nat) (ho : s.connection.opened = true)
      (hs : s.stopping = false) : Deed m s (s.disconnect graceful now)
  /-- A stop ends. -/
  | finish (ho : s.connection.opened = true) : Deed m s s.finishStop
  /-- The session is opened. -/
  | launch (hm : m = .opened) : Deed m s s.launch
  /-- The connection is there. -/
  | gain (hm : m = .connected) (ho : s.connection.opened = true) (hs : s.stopping = false) :
      Deed m s { s with
        timers := s.timers.cancel .disconnectReport
        connection := { s.connection with
          link := .connected
          startup := s.connection.startup.toggled
          reported := true }
        outbox := s.outbox ++ Action.clear .connectivity ::
          ((if s.connection.reported then []
            else s.catalog.connected.map fun v => Action.publish v (.flag true) false) ++
          [Action.status true]) }
  /-- The next connection is to begin from the start. -/
  | forget (hm : m = .socketEnd) (hs : s.stopping = false) :
      Deed m s { s with connection := { s.connection with startup := .select } }
  /-- The next attempt to connect is made. -/
  | retry (hm : m = .expiry .reconnect) (ha : s.timers.isArmed .reconnect = true) :
      Deed m s (s.cancel .reconnect).reconnect
  /-- A stop begins, and the open question is given some time. -/
  | hold (deadline : Nat) (hm : m = .stop) (hs : s.stopping = false)
      (hl : s.connection.link = .connected) :
      Deed m s { s with
        stopping := true, timers := Timers.arm {} .stopGrace deadline, pendingWrites := [] }
  /-- A stop begins and ends at once. -/
  | halt (hm : m = .stop) (hs : s.stopping = false) (ho : s.connection.opened = true) :
      Deed m s { s with stopping := true, timers := {}, pendingWrites := [] }.finishStop
  /-- A session is stopped that is not open. -/
  | retire (hm : m = .stop) (hs : s.stopping = false) (ho : s.connection.opened = false) :
      Deed m s { s with stopping := true, timers := {}, pendingWrites := [] }

/-- A row of deeds. -/
def Deeds (m : Moment) : Session → Session → Prop :=
  Relation.ReflTransGen (Deed m)

namespace Deeds

variable {m : Moment} {s t u : Session}

theorem refl (s : Session) : Deeds m s s :=
  Relation.ReflTransGen.refl

theorem trans (h : Deeds m s t) (h' : Deeds m t u) : Deeds m s u :=
  Relation.ReflTransGen.trans h h'

theorem single (h : Deed m s t) : Deeds m s t :=
  Relation.ReflTransGen.single h

/-- What each deed keeps is kept by a row of deeds. -/
theorem keeps {R : Session → Session → Prop} (hrefl : ∀ s, R s s)
    (htrans : ∀ {s t u}, R s t → R t u → R s u) (hdeed : ∀ {s t}, Deed m s t → R s t)
    (h : Deeds m s t) : R s t := by
  induction h with
  | refl => exact hrefl s
  | tail _ hd ih => exact htrans ih (hdeed hd)

theorem shift (hf : t.face = s.face)
    (hr : t.timers.isArmed .reconnect = true → s.timers.isArmed .reconnect = true) :
    Deeds m s t :=
  .single (.shift t hf hr)

/-- Where no timer is touched. -/
theorem still (hf : t.face = s.face) (ht : t.timers = s.timers) : Deeds m s t :=
  .shift hf (by rw [ht]; exact id)

theorem tell {a : Action} (h : s.Remarks a) : Deeds m s (s.emit a) :=
  .single (.tell a h)

theorem raise (s : Session) (key : AlertKey) (cause : Option String) :
    Deeds m s (s.raise key cause) :=
  .tell trivial

theorem clear (s : Session) (key : AlertKey) : Deeds m s (s.clear key) :=
  .tell trivial

theorem count (s : Session) (counter : Counter) (hc : counter ≠ .framesReceived) (n : Nat) :
    Deeds m s (s.count counter n) := by
  refine .still ?_ rfl
  cases counter with
  | framesReceived => exact absurd rfl hc
  | _ => rfl

theorem arm (s : Session) {kind : TimerKind} (hk : kind ≠ .reconnect) (deadline : Nat) :
    Deeds m s (s.arm kind deadline) :=
  .shift rfl (by simp [Session.arm, hk.symm])

theorem cancel (s : Session) (kind : TimerKind) : Deeds m s (s.cancel kind) := by
  refine .shift rfl ?_
  simp only [Session.cancel, Timers.isArmed_cancel, Bool.and_eq_true]
  exact And.right

end Deeds

/-! ## Questions -/

variable {m : Moment} (s : Session) (now : Nat)

theorem deeds_finishStop : Deeds m s s.finishStop := by
  cases ho : s.connection.opened with
  | true => exact .single (.finish ho)
  | false =>
    rw [finishStop_of_not_opened s ho]
    exact .refl s

theorem deeds_sendWrite (w : PendingWrite) : Deeds m s (s.sendWrite w now) := by
  have hask : Deeds m s (s.advanceTransaction.send (s.writeFrame w s.nextTransaction)) :=
    .single (.ask _ (.write w))
  refine hask.trans (.shift rfl ?_)
  simp [sendWrite, send, emit, arm, advanceTransaction]

theorem deeds_enterIdle : Deeds m s (s.enterIdle now) := by
  unfold enterIdle
  dsimp only
  split
  · refine Deeds.trans ?_ (deeds_finishStop _)
    exact .still rfl rfl
  · split
    · refine Deeds.trans ?_ (deeds_sendWrite _ now _)
      exact .still rfl rfl
    · split
      · refine Deeds.trans ?_ (.arm _ (by decide) _)
        exact .still rfl rfl
      · exact .still rfl rfl

theorem deeds_sendRequest (request : Request) : Deeds m s (s.sendRequest request now) := by
  cases hs : s.stopping with
  | true =>
    unfold sendRequest
    rw [if_pos hs]
    exact deeds_enterIdle s now
  | false =>
    have hask : Deeds m s
        (s.advanceTransaction.send (s.requestFrame request s.nextTransaction)) :=
      .single (.ask _ (.request request))
    rw [sendRequest_eq s now hs]
    refine hask.trans (.shift rfl ?_)
    simp [send, emit, advanceTransaction]

theorem deeds_startHandshake (request : Request) :
    Deeds m s (s.startHandshake request now) := by
  rw [startHandshake_eq]
  refine Deeds.trans ?_ (deeds_sendRequest _ now request)
  exact .shift rfl (by simp)

theorem deeds_replied : Deeds m s s.replied := by
  rw [replied_eq]
  refine Deeds.trans (.clear s .noResponse) (.shift rfl ?_)
  simp [clear, emit]

theorem deeds_completeHandshake : Deeds m s (s.completeHandshake now) := by
  rw [completeHandshake_eq]
  refine Deeds.trans ?_ (deeds_enterIdle _ now)
  refine .shift rfl ?_
  dsimp only
  split <;> simp

theorem deeds_afterPoll (request : Request) : Deeds m s (s.afterPoll request now) := by
  unfold afterPoll afterStatus
  split
  · split
    · exact deeds_enterIdle s now
    · exact deeds_sendRequest s now _
  · exact deeds_enterIdle s now

theorem deeds_poll : Deeds m s (s.poll now) := by
  unfold poll
  split
  · exact .refl _
  · split
    · exact deeds_sendRequest s now _
    · split
      · exact deeds_sendRequest s now _
      · exact deeds_enterIdle s now

theorem deeds_separate : Deeds m s (s.separate now) := by
  refine Deeds.trans (.single (.ask _ .separate)) (.arm _ (by decide) _)

theorem deeds_testLink : Deeds m s (s.testLink now) := by
  unfold testLink
  split
  · exact Deeds.trans (.single (.ask _ .linkTest)) (.arm _ (by decide) _)
  · exact .refl _

theorem deeds_writeOverdue : Deeds m s (s.writeOverdue now) := by
  have hraise : Deeds m s (s.raise .writeFailed none) := .raise s _ none
  unfold writeOverdue
  dsimp only
  split
  · exact hraise.trans (deeds_enterIdle _ now)
  · exact hraise

/-! ## The connection -/

theorem deeds_disconnect (graceful : Bool) : Deeds m s (s.disconnect graceful now) := by
  cases ho : s.connection.opened with
  | false =>
    unfold disconnect
    rw [if_pos (by simp [ho])]
    exact .refl s
  | true =>
    cases hs : s.stopping with
    | true =>
      rw [disconnect_of_stopping s now hs]
      exact deeds_finishStop s
    | false => exact .single (.lose graceful now ho hs)

theorem deeds_closedByEquipment (hm : m = .socketEnd) :
    Deeds m s (s.closedByEquipment now) := by
  unfold closedByEquipment
  split
  · exact deeds_finishStop s
  · next hs =>
    have hforget : Deeds m s { s with connection := { s.connection with startup := .select } } :=
      .single (.forget hm (by simpa using hs))
    exact hforget.trans (deeds_disconnect _ now false)

theorem deeds_connected (hm : m = .connected) : Deeds m s (s.connected now) := by
  by_cases h : (!s.connection.opened || s.stopping) = true
  · unfold connected
    rw [if_pos h]
    exact .refl s
  · obtain ⟨ho, hs⟩ : s.connection.opened = true ∧ s.stopping = false := by simpa using h
    rw [connected_eq s now ho hs]
    exact Deeds.trans (.single (.gain hm ho hs)) (deeds_startHandshake _ now _)

theorem deeds_beginStop (hm : m = .stop) : Deeds m s (s.beginStop now) := by
  unfold beginStop
  dsimp only
  split
  · exact .refl s
  · next hs =>
    have hs : s.stopping = false := by simpa using hs
    split
    · next hc =>
      have hl : s.connection.link = .connected := by
        simp only [isConnected, Bool.and_eq_true, beq_iff_eq] at hc
        exact hc.1
      exact .single (.hold _ hm hs hl)
    · cases ho : s.connection.opened with
      | true => exact .single (.halt hm hs ho)
      | false =>
        rw [finishStop_of_not_opened _ (by exact ho)]
        exact .single (.retire hm hs ho)

theorem deeds_requestOverdue : Deeds m s (s.requestOverdue now) := by
  have hraise : Deeds m s ((s.count .requestTimeouts 1).raise .noResponse none) :=
    (Deeds.count s .requestTimeouts (by decide) 1).trans (.raise _ _ none)
  have hretry : ∀ retries : Nat, Deeds m s
      { (s.count .requestTimeouts 1).raise .noResponse none with retries } :=
    fun _ => hraise.trans (.still rfl rfl)
  unfold requestOverdue
  dsimp only
  split
  · exact (hretry 0).trans (deeds_disconnect _ now true)
  · split
    · exact (hretry _).trans (deeds_sendRequest _ now _)
    · exact (hretry _).trans (deeds_enterIdle _ now)

theorem deeds_reportDisconnected : Deeds m s s.reportDisconnected := by
  have hrow : ∀ (vs : List Variable) (t : Session), t.catalog = s.catalog →
      (∀ v ∈ vs, v ∈ s.catalog.connected) →
      Deeds m t (t.publishAll vs (.flag false) false) := by
    intro vs
    induction vs with
    | nil => exact fun t _ _ => .refl t
    | cons v rest ih =>
      intro t ht hv
      rw [List.forall_mem_cons] at hv
      have htell : Deeds m t (t.emit (.publish v (.flag false) false)) :=
        .tell (.inr (ht ▸ hv.1))
      exact htell.trans (ih _ ht hv.2)
  have hreported : Deeds m s
      { s with connection := { s.connection with reported := false } } := .still rfl rfl
  exact hreported.trans (hrow s.catalog.connected _ rfl fun v hv => hv)

/-! ## Values for the host -/

theorem deeds_dataFailure (v : Variable) : Deeds m s (s.dataFailure v) :=
  (Deeds.count s .decodeFailures (by decide) 1).trans (.raise _ _ _)

theorem deeds_publishItem {v : Variable} (hv : s.catalog.Reads v) (item : Option Item) :
    Deeds m s (s.publishItem v item).1 := by
  unfold publishItem
  split
  · exact .tell (.inl hv)
  · exact deeds_dataFailure s v

theorem catalog_publishItem (v : Variable) (item : Option Item) :
    (s.publishItem v item).1.catalog = s.catalog := by
  unfold publishItem
  split <;> rfl

theorem deeds_publishRow {vs : List Variable} (h : ∀ v ∈ vs, s.catalog.Reads v) (count : Nat)
    (c : Cursor) : Deeds m s (s.publishRow count c vs).1 := by
  induction vs generalizing s count c with
  | nil => exact .refl _
  | cons v rest ih =>
    rw [List.forall_mem_cons] at h
    refine Deeds.trans (deeds_publishItem s h.1 _) (ih _ (fun w hw => ?_) _ _)
    exact (catalog_publishItem s v _).symm ▸ h.2 w hw

theorem deeds_publishRowAndClear {vs : List Variable} (h : ∀ v ∈ vs, s.catalog.Reads v)
    (count : Nat) (c : Cursor) : Deeds m s (s.publishRowAndClear count c vs) := by
  have hrow : Deeds m s (s.publishRow count c vs).1 := deeds_publishRow s h count c
  unfold publishRowAndClear
  dsimp only
  split
  · exact hrow.trans (.clear _ _)
  · exact hrow

theorem deeds_publishPoll {vs : List Variable} (h : ∀ v ∈ vs, s.catalog.Reads v)
    (inbound : Inbound) (bad : AlertKey) : Deeds m s (s.publishPoll inbound vs bad) := by
  have hfail : ∀ s : Session, Deeds m s (vs.foldl dataFailure s) := by
    clear h
    induction vs with
    | nil => exact .refl
    | cons v rest ih => exact fun s => (deeds_dataFailure s v).trans (ih _)
  unfold publishPoll
  split
  · exact (deeds_publishRowAndClear s h _ _).trans (.clear _ _)
  · exact (hfail s).trans (.raise _ _ none)

/-! ## Frames -/

variable {s now} {t : Session} {frame : Bytes} {inbound : Inbound}

theorem deeds_acknowledgeEvent (s : Session) (hm : m = .frame frame)
    (hi : Inbound.read? frame = some inbound) (hc : inbound.header.carries 6 11 = true) :
    Deeds m s (s.acknowledgeEvent inbound) :=
  .single (.answer frame inbound 6 11 _ hm hi (by decide) hc)

theorem deeds_eventReport? (hm : m = .frame frame) (hi : Inbound.read? frame = some inbound)
    (hc : inbound.header.carries 6 11 = true) (h : s.eventReport? inbound = some t) :
    Deeds m s t := by
  unfold eventReport? at h
  split at h
  · cases h
  · split at h
    · cases h
      exact deeds_acknowledgeEvent s hm hi hc
    · next group hgroup =>
      split at h
      · cases h
      · dsimp only at h
        split at h
        · cases h
        · cases h
          exact deeds_acknowledgeEvent s hm hi hc
        · cases h
          have hread : ∀ v ∈ group.members, s.catalog.Reads v := fun v hv =>
            .inr ⟨group, List.mem_of_find?_eq_some hgroup, hv⟩
          exact (deeds_publishRowAndClear s hread _ _).trans
            (deeds_acknowledgeEvent _ hm hi hc)

theorem deeds_alarmReport (s : Session) (hm : m = .frame frame)
    (hi : Inbound.read? frame = some inbound) (hc : inbound.header.carries 5 1 = true) :
    Deeds m s (s.alarmReport inbound) := by
  unfold alarmReport
  cases hr : inbound.alarmReport? with
  | none => exact .raise s _ none
  | some report =>
    have hanswer : Deeds m s
        (s.send (s.parties.reply 5 2 inbound.header.system Body.acceptance)) :=
      .single (.answer frame inbound 5 1 _ hm hi (by decide) hc)
    have hclear := hanswer.trans (.clear _ .badAlarmReport)
    dsimp only
    split
    · next alarms ha =>
      exact hclear.trans (.single (.follow frame inbound report alarms hm hi hc hr ha))
    · exact hclear

theorem deeds_unsolicited? (hm : m = .frame frame) (hi : Inbound.read? frame = some inbound)
    (h : s.unsolicited? inbound = some t) : Deeds m s t := by
  unfold unsolicited? at h
  split at h
  · next hc =>
    cases h
    exact .single (.answer frame inbound 1 1 _ hm hi (by decide) hc)
  · split at h
    · cases h
      exact .cancel s _
    · split at h
      · next hc =>
        cases h
        exact deeds_alarmReport s hm hi hc
      · split at h
        · next hc => exact deeds_eventReport? hm hi hc h
        · cases h

theorem Answer.deeds (hm : m = .frame frame) (hi : Inbound.read? frame = some inbound)
    (h : s.Answer inbound now t) : Deeds m s t := by
  have hr : Deeds m s s.replied := deeds_replied s
  cases h with
  | selected _ _ =>
    refine hr.trans (Deeds.trans ?_ (.arm _ (by decide) _))
    exact .still rfl rfl
  | approached _ hc =>
    have hanswer : Deeds m s.replied (s.replied.send
        (s.parties.reply 1 14 inbound.header.system Body.establishAcknowledge)) :=
      .single (.answer frame inbound 1 13 _ hm hi (by decide) hc)
    exact (hr.trans hanswer).trans (.arm _ (by decide) _)
  | advanced request next _ _ _ => exact hr.trans (deeds_sendRequest _ now next)
  | completed request _ _ _ => exact hr.trans (deeds_completeHandshake _ now)
  | failed request _ _ _ =>
    exact (hr.trans (.raise _ _ none)).trans (deeds_afterPoll _ now request)
  | polled request _ _ _ _ =>
    have hread : ∀ v ∈ s.catalog.polled request, s.replied.catalog.Reads v :=
      fun v hv => .inl ⟨request, hv⟩
    exact (hr.trans (deeds_publishPoll s.replied hread inbound _)).trans
      (deeds_afterPoll _ now request)
  | mismatched request _ _ _ _ => exact hr.trans (.arm _ (by decide) _)
  | written _ _ =>
    exact ((Deeds.cancel s .writeTimeout).trans (.clear _ _)).trans (deeds_enterIdle _ now)

variable (s now)

/-- What a frame leads to, besides being counted. -/
theorem deeds_handleFrame (frame : Bytes) :
    Deeds (.frame frame) (s.count .framesReceived 1) (s.handleFrame now frame) := by
  unfold handleFrame
  dsimp only
  split
  · exact .count _ _ (by decide) _
  · next inbound hi =>
    cases hu : (s.count .framesReceived 1).unsolicited? inbound with
    | some t => exact deeds_unsolicited? rfl hi hu
    | none =>
      cases hr : (s.count .framesReceived 1).reply? inbound now with
      | some t => exact (answer_of_reply? hr).deeds rfl hi
      | none =>
        dsimp only [HOrElse.hOrElse, OrElse.orElse, Option.orElse]
        split
        · exact .refl _
        · exact .count _ _ (by decide) _

/-! ## Moments -/

theorem deeds_of_alerted {s t : Session} (h : Alerted s t) : Deeds m s t := by
  obtain ⟨acts, rfl, ha⟩ := h
  induction acts generalizing s with
  | nil => exact .still (by simp [face]) rfl
  | cons a rest ih =>
    rw [List.forall_mem_cons] at ha
    have htell : Deeds m s (s.emit a) := by
      refine .tell ?_
      cases a with
      | raise _ _ => trivial
      | clear _ => trivial
      | _ => cases ha.1
    have hrest := htell.trans (ih (s := s.emit a) ha.2)
    rwa [emit, List.append_assoc] at hrest

theorem deeds_write (name : String) (value : Value) :
    Deeds m s (s.write name value now).1 := by
  have hw := called_write s name value now
  generalize s.write name value now = r at hw
  cases hw with
  | refused t ht _ => exact deeds_of_alerted ht
  | sent t ht _ _ w _ => exact (deeds_of_alerted ht).trans (deeds_sendWrite t now w)
  | queued t ht _ _ w _ => exact (deeds_of_alerted ht).trans (.still rfl rfl)

theorem deeds_fire {kind : TimerKind} (hk : kind ≠ .reconnect) :
    Deeds m s (s.fire kind now) := by
  cases kind with
  | commTimeout => exact deeds_requestOverdue s now
  | establishFallback => exact deeds_sendRequest s now .establish
  | poll => exact deeds_poll s now
  | dataComplete => exact .still rfl rfl
  | writeTimeout => exact deeds_writeOverdue s now
  | reconnect => exact absurd rfl hk
  | separateRequest => exact deeds_separate s now
  | restartHandshake => exact deeds_startHandshake s now .select
  | linkTest => exact deeds_testLink s now
  | disconnectReport => exact deeds_reportDisconnected s
  | stopGrace => exact deeds_finishStop s

/-- Whatever a session does at a moment at which no frame is handled is a row of deeds. -/
theorem deeds_advance {m : Moment} (hm : ∀ frame, m ≠ .frame frame) :
    Deeds m s (s.advance now m) := by
  cases m with
  | opened => exact .single (.launch rfl)
  | connected => exact deeds_connected s now rfl
  | connectFailed => exact deeds_disconnect s now false
  | socketError => exact deeds_disconnect s now false
  | socketEnd => exact deeds_closedByEquipment s now rfl
  | arrival received =>
    simp only [advance, accept]
    split
    · exact .still rfl rfl
    · exact .still rfl rfl
  | frame frame => exact absurd rfl (hm frame)
  | settled =>
    rw [advance, awaitRest_eq]
    refine .shift rfl ?_
    dsimp only
    split <;> simp
  | expiry kind =>
    simp only [advance, expire]
    split
    · next hd =>
      by_cases hk : kind = .reconnect
      · subst hk
        exact .single (.retry rfl (Timers.isArmed_of_isDue hd))
      · exact (Deeds.cancel s kind).trans (deeds_fire _ now hk)
    · exact .refl _
  | write name value => exact deeds_write s now name value
  | stop => exact deeds_beginStop s now rfl

/-- What each deed keeps, and the counting of a frame, is kept at a moment. -/
theorem keeps_advance {m : Moment} {R : Session → Session → Prop} (hrefl : ∀ s, R s s)
    (htrans : ∀ {s t u}, R s t → R t u → R s u) (hdeed : ∀ {s t}, Deed m s t → R s t)
    (hcount : ∀ s, R s (s.count .framesReceived 1)) : R s (s.advance now m) := by
  by_cases hm : ∃ frame, m = .frame frame
  · obtain ⟨frame, rfl⟩ := hm
    exact htrans (hcount s) ((deeds_handleFrame s now frame).keeps hrefl htrans hdeed)
  · exact (deeds_advance s now fun frame hf => hm ⟨frame, hf⟩).keeps hrefl htrans hdeed

/-! ## Passages that follow each other -/

/-- Whether each of a row of passages finds the session that the one before it left. The history of
every run is such a row, whether or not the run is legal. -/
def Linked (s : Session) : List Passage → Prop
  | [] => True
  | p :: rest => p.before = s ∧ Linked p.after rest

theorem linked_append {s : Session} {ps qs : List Passage} :
    s.Linked (ps ++ qs) ↔ s.Linked ps ∧ (s.reached ps).Linked qs := by
  induction ps generalizing s with
  | nil => exact ⟨fun h => ⟨trivial, h⟩, And.right⟩
  | cons p rest ih =>
    rw [List.cons_append, reached_cons, Linked, Linked, ih, and_assoc]

theorem linked_passages (s : Session) (now : Nat) (ms : List Moment) :
    s.Linked (s.passages now ms) ∧
      s.reached (s.passages now ms) = ms.foldl (fun s m => s.advance now m) s := by
  induction ms generalizing s with
  | nil => exact ⟨trivial, rfl⟩
  | cons m rest ih =>
    obtain ⟨hlinked, hreached⟩ := ih (s.advance now m)
    exact ⟨⟨rfl, hlinked⟩, hreached⟩

theorem linked_history (s : Session) (run : List Occurrence) : s.Linked (s.history run) := by
  induction run generalizing s with
  | nil => trivial
  | cons o rest ih =>
    obtain ⟨now, event⟩ := o
    obtain ⟨hlinked, hreached⟩ := linked_passages s now (s.moments now event)
    unfold history
    rw [linked_append, hreached, ← step_eq_foldl]
    exact ⟨hlinked, ih _⟩

/-- What is true of a past and the session that it has led to, and stays true with each moment of
some kind, is true all along a row of passages of that kind. -/
theorem Linked.record_of {Q : Passage → Prop} {I : List Passage → Session → Prop}
    (hI : ∀ ps t now m, I ps t → Q ⟨t, now, m⟩ → I (ps ++ [⟨t, now, m⟩]) (t.advance now m))
    {s : Session} {ps : List Passage} (h : s.Linked ps) (hQ : ∀ p ∈ ps, Q p)
    (past : List Passage) (hs : I past s) : I (past ++ ps) (s.reached ps) := by
  induction ps generalizing s past with
  | nil => rwa [List.append_nil]
  | cons p rest ih =>
    rw [List.forall_mem_cons] at hQ
    obtain ⟨rfl, hrest⟩ := h
    have hn := ih hrest hQ.2 _ (hI past p.before p.now p.moment hs hQ.1)
    rwa [List.append_assoc] at hn

/-! ## Attempts to connect -/

/-- A session attempts to connect, or is to do so later, only while it is open and no stop has
begun. -/
structure Ready (s : Session) : Prop where
  connecting : s.connection.link = .connecting →
    s.connection.opened = true ∧ s.stopping = false
  reconnect : s.timers.isArmed .reconnect = true →
    s.connection.opened = true ∧ s.stopping = false

variable {s now}

/-- What has given its connection up and waits for nothing is ready. -/
theorem ready_of_disconnected (hl : s.connection.link = .disconnected)
    (hr : s.timers.isArmed .reconnect = false) : s.Ready :=
  ⟨fun h => by simp [hl] at h, fun h => by simp [hr] at h⟩

theorem Deed.ready (h : Deed m s t) (hs : s.Ready) : t.Ready := by
  cases h with
  | shift _ hf hr =>
    have hl : t.connection.link = s.connection.link := congrArg Face.link hf
    have ho : t.connection.opened = s.connection.opened := congrArg Face.opened hf
    have hp : t.stopping = s.stopping := congrArg Face.stopping hf
    refine ⟨fun h => ?_, fun h => ?_⟩
    · rw [ho, hp]
      exact hs.connecting (hl ▸ h)
    · rw [ho, hp]
      exact hs.reconnect (hr h)
  | tell _ _ => exact ⟨hs.connecting, hs.reconnect⟩
  | answer _ _ _ _ _ _ _ _ _ => exact ⟨hs.connecting, hs.reconnect⟩
  | ask _ _ => exact ⟨hs.connecting, hs.reconnect⟩
  | follow _ _ _ _ _ _ _ _ _ =>
    rw [publishAlarms_eq]
    exact ⟨hs.connecting, hs.reconnect⟩
  | lose graceful now ho hp =>
    rw [disconnect_eq s now ho hp]
    exact ⟨fun _ => ⟨ho, hp⟩, fun _ => ⟨ho, hp⟩⟩
  | finish ho =>
    rw [finishStop_eq s ho]
    exact ready_of_disconnected rfl rfl
  | launch _ =>
    rw [launch_eq]
    exact ⟨fun _ => ⟨rfl, rfl⟩, fun _ => ⟨rfl, rfl⟩⟩
  | gain _ ho hp => exact ⟨fun _ => ⟨ho, hp⟩, fun _ => ⟨ho, hp⟩⟩
  | forget _ _ => exact ⟨hs.connecting, hs.reconnect⟩
  | retry _ ha =>
    obtain ⟨ho, hp⟩ := hs.reconnect ha
    rw [reconnect_eq]
    split
    · exact ⟨by simp, by simp⟩
    · exact ⟨fun _ => ⟨ho, hp⟩, fun _ => ⟨ho, hp⟩⟩
  | hold deadline _ _ hl => exact ⟨fun h => by simp [hl] at h, fun h => by cases h⟩
  | halt _ _ ho =>
    rw [finishStop_eq _ (by exact ho)]
    exact ready_of_disconnected rfl rfl
  | retire _ _ ho =>
    refine ⟨fun h => ?_, fun h => by cases h⟩
    have hopened := (hs.connecting h).1
    rw [ho] at hopened
    cases hopened

/-- No moment changes that, whatever the run. -/
theorem Ready.advance (hs : s.Ready) (now : Nat) (m : Moment) : (s.advance now m).Ready :=
  keeps_advance s now (R := fun s t => s.Ready → t.Ready) (fun _ => id)
    (fun h h' hs => h' (h hs)) Deed.ready (fun _ hs => ⟨hs.connecting, hs.reconnect⟩) hs

theorem Unopened.ready (hu : s.Unopened) : s.Ready := by
  refine ⟨fun h => ?_, fun h => ?_⟩
  · rw [hu.connection] at h
    cases h
  · simp [hu.timers] at h

end Session

end GemLink
