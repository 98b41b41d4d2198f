import GemLink.Proofs.Message.Header
import GemLink.Proofs.Session.Consistent
import GemLink.Proofs.Session.Setup

/-!
What a moment does to the talk with the equipment. `Course` lists the cases: nothing is asked, a
request is asked, nothing is open any more so that the next write is sent or the session rests, a
write of the host is sent or waits, or the connection is gone. Each case says why it came to this
(`Asks`, `Frees`, `GivesUp`), which frames are sent, and what is waited for then. What is done before
is neutral, or it tells the host the values of a poll whose answer has come (`Allows`). Every
permitted moment of a consistent session takes such a course (`course_advance`).
-/

namespace GemLink

/-! ## Actions -/

namespace Action

/-- Whether an action sends a primary message. -/
def isPrimary : Action → Bool
  | .send frame => GemLink.isPrimary frame
  | _ => false

/-- Whether an action begins or ends a connection. -/
def isLink : Action → Bool
  | .connect | .close _ | .stopped | .terminate _ => true
  | _ => false

/-- Whether an action leaves the connection alone and sends no primary message. -/
def isQuiet (a : Action) : Bool :=
  !a.isPrimary && !a.isLink

/-- Whether an action leaves the connection alone and asks nothing of the equipment. -/
def isMute (a : Action) : Bool :=
  match a with
  | .send frame => !isRequest frame
  | _ => !a.isLink

theorem isMute_of_isNews {a : Action} (h : a.isNews = true) : a.isMute = true := by
  cases a <;> first | rfl | cases h

theorem isQuiet_of_isMute {a : Action} (h : a.isMute = true) : a.isQuiet = true := by
  cases a with
  | send frame =>
    have hp : GemLink.isPrimary frame = false := by
      simp only [isMute, isRequest, Bool.not_eq_true', Bool.or_eq_false_iff] at h
      exact h.1
    simp [isQuiet, isPrimary, isLink, hp]
  | _ => first | rfl | cases h

theorem isQuiet_send {frame : Bytes} (h : GemLink.isPrimary frame = false) :
    (send frame).isQuiet = true := by
  simp [isQuiet, isPrimary, isLink, h]

theorem isPrimary_of_isQuiet {a : Action} (h : a.isQuiet = true) : a.isPrimary = false := by
  simp only [isQuiet, Bool.and_eq_true, Bool.not_eq_true'] at h
  exact h.1

end Action

/-! ## Whose values the host is told -/

/-- Whether values of a variable come without a poll: with the link, the alarms or an event. -/
def Catalog.Volunteers (c : Catalog) (v : Variable) : Prop :=
  v ∈ c.connected ∨ v ∈ c.alarmCodes ∨ v ∈ c.alarmTexts ∨ ∃ group ∈ c.groups, v ∈ group.members

namespace Session

/-- On the way from `s` to `t` the host is told values only of variables with `P`. -/
def Tells (P : Variable → Prop) (s t : Session) : Prop :=
  ∃ acts, t.outbox = s.outbox ++ acts ∧ ∀ v value report, .publish v value report ∈ acts → P v

namespace Tells

variable {P : Variable → Prop} {s t u : Session}

theorem refl (s : Session) : Tells P s s :=
  ⟨[], by simp, by simp⟩

theorem trans (h : Tells P s t) (h' : Tells P t u) : Tells P s u := by
  obtain ⟨acts, ho, ha⟩ := h
  obtain ⟨acts', ho', ha'⟩ := h'
  refine ⟨acts ++ acts', by rw [ho', ho, List.append_assoc], fun v value report hm => ?_⟩
  rcases List.mem_append.mp hm with hm | hm
  · exact ha v value report hm
  · exact ha' v value report hm

theorem emit (s : Session) {a : Action} (h : ∀ v value report, a = .publish v value report → P v) :
    Tells P s (s.emit a) :=
  ⟨[a], rfl, fun v value report hm => h v value report (List.mem_singleton.mp hm).symm⟩

/-- Only the actions count. -/
theorem congr (h : Tells P s t) (ho : u.outbox = t.outbox) : Tells P s u := by
  obtain ⟨acts, hs, ha⟩ := h
  exact ⟨acts, ho.trans hs, ha⟩

/-- Those of the actions on the way that hand over a value hand it over for such a variable. -/
theorem of_outbox (h : Tells P s t) {acts : List Action} (ho : t.outbox = s.outbox ++ acts)
    {v : Variable} {value : Value} {report : Bool} (hm : .publish v value report ∈ acts) : P v := by
  obtain ⟨acts', ho', ha⟩ := h
  rw [ho, List.append_cancel_left_eq] at ho'
  exact ha v value report (ho' ▸ hm)

end Tells

variable {P : Variable → Prop} (s : Session)

theorem tells_publishAll {targets : List Variable} (h : ∀ v ∈ targets, P v) (value : Value)
    (report : Bool) : Tells P s (s.publishAll targets value report) := by
  rw [publishAll_eq]
  refine ⟨_, rfl, fun v _ _ hm => ?_⟩
  obtain ⟨w, hw, he⟩ := List.mem_map.mp hm
  cases he
  exact h v hw

theorem tells_publishAlarms : Tells s.catalog.Volunteers s s.publishAlarms := by
  refine (tells_publishAll s ?_ _ _).trans (tells_publishAll _ ?_ _ _)
  · exact fun v hv => .inr (.inl hv)
  · exact fun v hv => .inr (.inr (.inl hv))

theorem tells_dataFailure (v : Variable) : Tells P s (s.dataFailure v) :=
  Tells.emit (s.count .decodeFailures 1) (by simp)

theorem tells_publishItem {v : Variable} (hv : P v) (item : Option Item) :
    Tells P s (s.publishItem v item).1 := by
  unfold publishItem
  split
  · exact Tells.emit s fun _ _ _ he => by cases he; exact hv
  · exact tells_dataFailure s v

theorem tells_publishRow {vs : List Variable} (h : ∀ v ∈ vs, P v) (count : Nat) (c : Cursor) :
    Tells P s (s.publishRow count c vs).1 := by
  induction vs generalizing s count c with
  | nil => exact Tells.refl s
  | cons v rest ih =>
    rw [List.forall_mem_cons] at h
    exact (tells_publishItem s h.1 _).trans (ih _ h.2 _ _)

theorem tells_publishRowAndClear {vs : List Variable} (h : ∀ v ∈ vs, P v) (count : Nat)
    (c : Cursor) : Tells P s (s.publishRowAndClear count c vs) := by
  have hr := tells_publishRow s h count c
  unfold publishRowAndClear
  dsimp only
  split
  · exact hr.trans (Tells.emit _ (by simp))
  · exact hr

theorem tells_publishPoll {vs : List Variable} (h : ∀ v ∈ vs, P v) (m : Inbound)
    (bad : AlertKey) : Tells P s (s.publishPoll m vs bad) := by
  have hfail : ∀ (s : Session), Tells P s (vs.foldl dataFailure s) := by
    clear h
    induction vs with
    | nil => exact Tells.refl
    | cons v rest ih => exact fun s => (tells_dataFailure s v).trans (ih _)
  unfold publishPoll
  split
  · exact (tells_publishRowAndClear s h _ _).trans (Tells.emit _ (by simp))
  · exact (hfail s).trans (Tells.emit _ (by simp))

theorem tells_eventReport? {t : Session} {m : Inbound} (h : s.eventReport? m = some t) :
    Tells s.catalog.Volunteers s t := by
  have hack : ∀ u : Session, Tells s.catalog.Volunteers u (u.acknowledgeEvent m) :=
    fun u => Tells.emit u (by simp)
  unfold eventReport? at h
  split at h
  · cases h
  · split at h
    · cases h
      exact hack s
    · next group hgroup =>
      split at h
      · cases h
      · dsimp only at h
        split at h
        · cases h
        · cases h
          exact hack s
        · cases h
          have hg : ∀ v ∈ group.members, s.catalog.Volunteers v := fun v hv =>
            .inr (.inr (.inr ⟨group, List.mem_of_find?_eq_some hgroup, hv⟩))
          exact (tells_publishRowAndClear s hg _ _).trans (hack _)

/-- A message that the equipment sends of its own accord tells no values of polled variables. -/
theorem tells_unsolicited? {t : Session} {m : Inbound} (h : s.unsolicited? m = some t) :
    Tells s.catalog.Volunteers s t := by
  unfold unsolicited? at h
  split at h
  · cases h
    exact Tells.emit s (by simp)
  · split at h
    · cases h
      exact Tells.refl s
    · split at h
      · cases h
        unfold alarmReport
        split
        · exact Tells.emit s (by simp)
        · dsimp only
          have hack := Tells.emit (P := s.catalog.Volunteers) s
            (a := .send (s.parties.reply 5 2 m.header.system Body.acceptance)) (by simp)
          have hclear := hack.trans (Tells.emit _ (a := .clear .badAlarmReport) (by simp))
          split
          · next alarms _ => exact (hclear.congr rfl).trans (tells_publishAlarms _)
          · exact hclear
      · split at h
        · exact tells_eventReport? s h
        · cases h

/-! ## Courses -/

/-- Whether a moment brings the answer to the poll that is open. -/
def Fulfils (s : Session) (m : Moment) (request : Request) : Prop :=
  ∃ frame inbound, m = .frame frame ∧ Inbound.read? frame = some inbound ∧
    s.state = .awaitingReply request ∧ request.isPoll = true ∧
    request.isPolledBy inbound = true ∧
    inbound.header.system.transactionId = s.pollTransaction

/-- What can be done whatever is open: nothing is asked, and no value of a poll is told. -/
def Neutral (s : Session) (a : Action) : Prop :=
  a.isMute = true ∧ ∀ v value report, a = .publish v value report → s.catalog.Volunteers v

theorem Neutral.isQuiet {s : Session} {a : Action} (h : s.Neutral a) : a.isQuiet = true :=
  Action.isQuiet_of_isMute h.1

/-- What a moment can do before it goes on: something neutral, or tell a value of the poll that it
brings the answer to. -/
def Allows (s : Session) (m : Moment) (a : Action) : Prop :=
  s.Neutral a ∨ ∃ request v value report, s.Fulfils m request ∧ v ∈ s.catalog.polled request ∧
    a = .publish v value report

/-- Why a request is asked. -/
inductive Asks (s : Session) (now : Nat) : Moment → Request → Prop
  /-- A connection begins. -/
  | begun (hl : s.connection.link = .connecting) :
      Asks s now .connected s.connection.startup.request
  /-- The communication begins anew. -/
  | restarted (hd : s.timers.isDue now .restartHandshake = true) :
      Asks s now (.expiry .restartHandshake) .select
  /-- The answer is overdue. -/
  | overdue (request : Request) (hs : s.state = .awaitingReply request)
      (hd : s.timers.isDue now .commTimeout = true) : Asks s now (.expiry .commTimeout) request
  /-- The equipment has not established communication itself. -/
  | unapproached (hs : s.state = .awaitingEquipment)
      (hd : s.timers.isDue now .establishFallback = true) :
      Asks s now (.expiry .establishFallback) .establish
  /-- The request before it in the handshake is accepted. -/
  | advanced (frame : Bytes) (inbound : Inbound) (hm : Inbound.read? frame = some inbound)
      (request next : Request) (hs : s.state = .awaitingReply request)
      (hc : request.isAcceptedBy inbound = true) (hn : s.catalog.following? request = some next) :
      Asks s now (.frame frame) next
  /-- A poll is due. -/
  | due (request : Request) (hp : request.isPoll = true) (hs : s.state = .idle)
      (hh : s.handshakeComplete = true) (hd : s.timers.isDue now .poll = true) :
      Asks s now (.expiry .poll) request
  /-- The poll of the status variables is over. -/
  | followed (frame : Bytes) (inbound : Inbound) (hm : Inbound.read? frame = some inbound)
      (hs : s.state = .awaitingReply .statusVariables)
      (hr : inbound.isFailedTransaction = true ∨ s.Fulfils (.frame frame) .statusVariables) :
      Asks s now (.frame frame) .equipmentConstants

/-- Why nothing is open any more, with what is done before the session goes on. -/
inductive Frees (s : Session) (now : Nat) : Moment → List Action → Prop
  /-- The last request of the handshake is accepted. -/
  | completed (frame : Bytes) (inbound : Inbound) (hm : Inbound.read? frame = some inbound)
      (request : Request) (hs : s.state = .awaitingReply request)
      (hc : request.isAcceptedBy inbound = true) (hn : s.catalog.following? request = none) :
      Frees s now (.frame frame) [.clear .noResponse]
  /-- The last poll is over. -/
  | polled (frame : Bytes) (inbound : Inbound) (hm : Inbound.read? frame = some inbound)
      (request : Request) (hs : s.state = .awaitingReply request) (hp : request.isPoll = true)
      (hr : inbound.isFailedTransaction = true ∨ s.Fulfils (.frame frame) request)
      (before : List Action) : Frees s now (.frame frame) before
  /-- A write is acknowledged. -/
  | written (frame : Bytes) (inbound : Inbound) (hm : Inbound.read? frame = some inbound)
      (hs : s.state = .awaitingWrite) (hc : accepts inbound 2 16 = true) :
      Frees s now (.frame frame) [.clear .writeFailed]
  /-- The acknowledgement of a write is overdue. -/
  | overdue (hs : s.state = .awaitingWrite) (hd : s.timers.isDue now .writeTimeout = true) :
      Frees s now (.expiry .writeTimeout) [.raise .writeFailed none]
  /-- A poll is due and there is nothing to poll. -/
  | unpolled (hs : s.state = .idle) (hd : s.timers.isDue now .poll = true) :
      Frees s now (.expiry .poll) []

/-- Why a connection is given up. -/
inductive GivesUp (s : Session) (now : Nat) : Moment → Prop
  | failed (hl : s.connection.link = .connecting) : GivesUp s now .connectFailed
  | broken (hl : s.connection.link = .connected) : GivesUp s now .socketError
  | closed (hl : s.connection.link = .connected) : GivesUp s now .socketEnd
  /-- A request has been overdue too often. -/
  | unanswered (request : Request) (hs : s.state = .awaitingReply request)
      (hd : s.timers.isDue now .commTimeout = true) (hr : maxRequestRetries ≤ s.retries) :
      GivesUp s now (.expiry .commTimeout)

/-- Whether a handshake begins at a moment. -/
def begins (s : Session) (now : Nat) : Moment → Bool
  | .connected => s.connection.opened && !s.stopping
  | .expiry .restartHandshake => s.timers.isDue now .restartHandshake && !s.stopping
  | _ => false

/-- Whether a timer is armed that ends the wait for an answer. -/
def isGuarded (s : Session) : Bool :=
  s.timers.isArmed .commTimeout || s.timers.isArmed .separateRequest ||
    s.timers.isArmed .restartHandshake

end Session

/-- Whether a moment brings the news that a transaction took too long, S9F9. -/
def Moment.isTimedOut : Moment → Bool
  | .frame bytes => (Inbound.read? bytes).any fun inbound => inbound.header.carries 9 9
  | _ => false

namespace Session

/-- `t` is `s` with another state and other writes that wait, on the same connection. -/
structure Moves (s t : Session) (state : CommState) (pending : List PendingWrite) : Prop where
  state : t.state = state
  pending : t.pendingWrites = pending
  link : t.connection.link = s.connection.link
  poll : t.pollTransaction = s.pollTransaction

/-- What a moment does to the talk with the equipment, by the calls of the host that are accepted
at it, the actions that are taken and the session that it leads to. -/
inductive Course (s : Session) (now : Nat) (m : Moment) :
    List (String × Value) → List Action → Session → Prop
  /-- Nothing is asked, and what is waited for stays the same. -/
  | unmoved (acts : List Action) (t : Session) (hb : s.begins now m = false)
      (ha : ∀ a ∈ acts, s.Neutral a)
      (ht : Moves s t s.state s.pendingWrites)
      (hg : s.isGuarded = true → t.isGuarded = true ∨ m.isTimedOut = true) :
      Course s now m [] acts t
  /-- The communication is open. -/
  | selected (frame : Bytes) (inbound : Inbound) (hm : m = .frame frame)
      (hr : Inbound.read? frame = some inbound) (hc : inbound.isSelectResponse = true)
      (hs : s.state = .awaitingReply .select) (acts : List Action) (t : Session)
      (ha : ∀ a ∈ acts, s.Neutral a) (ht : Moves s t .awaitingEquipment s.pendingWrites) :
      Course s now m [] acts t
  /-- A request is asked. -/
  | asked (hp : s.stopping = false) (before : List Action) (request : Request) (t : Session)
      (why : s.Asks now m request) (ha : ∀ a ∈ before, s.Allows m a)
      (hl : t.connection.link = .connected) (hs : t.state = .awaitingReply request)
      (hw : t.pendingWrites = s.pendingWrites)
      (hi : t.pollTransaction = if request.isPoll then s.nextTransaction else s.pollTransaction)
      (hg : t.timers.isArmed .commTimeout = true) :
      Course s now m [] (before ++ [.send (s.requestFrame request s.nextTransaction)]) t
  /-- Nothing is open any more, and no write waits. -/
  | rested (hp : s.stopping = false) (before : List Action) (t : Session)
      (why : s.Frees now m before) (ha : ∀ a ∈ before, s.Allows m a)
      (hw : s.pendingWrites = []) (ht : Moves s t .idle []) : Course s now m [] before t
  /-- Nothing is open any more, and the first of the writes that wait is sent. -/
  | drained (hp : s.stopping = false) (before : List Action) (t : Session)
      (why : s.Frees now m before) (ha : ∀ a ∈ before, s.Allows m a) (w : PendingWrite)
      (rest : List PendingWrite) (hw : s.pendingWrites = w :: rest)
      (ht : Moves s t .awaitingWrite rest) :
      Course s now m [] (before ++ [.send (s.writeFrame w s.nextTransaction)]) t
  /-- A write of the host is sent, since nothing is open. -/
  | posted (name : String) (value : Value) (hm : m = .write name value) (w : PendingWrite)
      (hw : s.catalog.write? name value = some w) (hl : s.connection.link = .connected)
      (hs : s.state = .idle) (before : List Action) (t : Session)
      (ha : ∀ a ∈ before, s.Neutral a) (ht : Moves s t .awaitingWrite s.pendingWrites) :
      Course s now m [(name, value)] (before ++ [.send (s.writeFrame w s.nextTransaction)]) t
  /-- A write of the host waits for its turn. -/
  | queued (name : String) (value : Value) (hm : m = .write name value) (w : PendingWrite)
      (hw : s.catalog.write? name value = some w) (hl : s.connection.link = .connected)
      (hs : s.state ≠ .idle) (acts : List Action) (t : Session) (ha : ∀ a ∈ acts, s.Neutral a)
      (ht : Moves s t s.state (s.pendingWrites ++ [w]))
      (hg : s.isGuarded = true → t.isGuarded = true) : Course s now m [(name, value)] acts t
  /-- The connection is given up. -/
  | lost (hp : s.stopping = false) (why : s.GivesUp now m) (before : List Action)
      (ha : ∀ a ∈ before, s.Neutral a) (graceful : Bool) (t : Session)
      (hl : t.connection.link = .disconnected) :
      Course s now m [] (before ++ [.close graceful, .raise .connectivity none, .status false]) t
  /-- There is no connection then, for another reason. -/
  | down (why : s.stopping = true ∨ m = .stop ∨ s.connection.link ≠ .connected)
      (acts : List Action) (t : Session) (ha : ∀ a ∈ acts, s.Allows m a ∨ a.isLink = true)
      (hl : t.connection.link ≠ .connected) : Course s now m [] acts t
  /-- A stop begins and waits for what is open. -/
  | halted (hm : m = .stop) (t : Session) (hp : t.stopping = true) (ht : Moves s t s.state []) :
      Course s now m [] [] t

/-- A course and the actions that are appended on it. -/
def Runs (s : Session) (now : Nat) (m : Moment) (calls : List (String × Value)) (t : Session) :
    Prop :=
  ∃ acts, t.outbox = s.outbox ++ acts ∧ Course s now m calls acts t

/-! ## What operations end in -/

/-- `u` is `s` in the middle of a moment, after some actions. -/
structure Amid (s : Session) (before : List Action) (u : Session) : Prop where
  outbox : u.outbox = s.outbox ++ before
  setup : u.setup = s.setup
  transaction : u.nextTransaction = s.nextTransaction
  poll : u.pollTransaction = s.pollTransaction
  pending : u.pendingWrites = s.pendingWrites

variable {s t u : Session} {now : Nat} {m : Moment} {before : List Action}

namespace Amid

theorem stopping (h : Amid s before u) : u.stopping = s.stopping :=
  congrArg (fun x => x.2.2.2) h.setup

theorem catalog (h : Amid s before u) : u.catalog = s.catalog :=
  congrArg (fun x => x.1) h.setup

theorem parties (h : Amid s before u) : u.parties = s.parties :=
  congrArg (fun x => x.2.1) h.setup

theorem requestFrame (h : Amid s before u) (request : Request) (transactionId : UInt16) :
    u.requestFrame request transactionId = s.requestFrame request transactionId := by
  unfold Session.requestFrame
  rw [h.catalog, h.parties]

theorem writeFrame (h : Amid s before u) (w : PendingWrite) (transactionId : UInt16) :
    u.writeFrame w transactionId = s.writeFrame w transactionId := by
  unfold Session.writeFrame
  rw [h.parties]

theorem emit (h : Amid s before u) (a : Action) : Amid s (before ++ [a]) (u.emit a) := by
  refine ⟨?_, h.setup, h.transaction, h.poll, h.pending⟩
  show u.outbox ++ [a] = _
  rw [h.outbox, List.append_assoc]

end Amid

theorem neutral_of_isMute {a : Action} (h : a.isMute = true)
    (hp : ∀ v value report, a ≠ .publish v value report) : s.Neutral a :=
  ⟨h, fun v value report he => absurd he (hp v value report)⟩

theorem allows_of_neutral {acts : List Action} (h : ∀ a ∈ acts, s.Neutral a) :
    ∀ a ∈ acts, s.Allows m a :=
  fun a hm => .inl (h a hm)

/-- The end of a stop leaves no connection. -/
theorem finishStop_ends (u : Session)
    (h : u.connection.link = .connected → u.connection.opened = true) :
    ∃ acts, u.finishStop.outbox = u.outbox ++ acts ∧ (∀ a ∈ acts, a.isLink = true) ∧
      u.finishStop.connection.link ≠ .connected := by
  cases ho : u.connection.opened with
  | true =>
    rw [finishStop_eq u ho]
    exact ⟨[.close true, .stopped], rfl, by simp [Action.isLink], by simp⟩
  | false =>
    unfold finishStop
    rw [if_neg (by simp [ho])]
    refine ⟨[], (List.append_nil _).symm, by simp, fun hc => ?_⟩
    rw [h hc] at ho
    cases ho

theorem runs_finishStop (hp : s.stopping = true) (h : Amid s before u)
    (ho : u.connection.link = .connected → u.connection.opened = true)
    (ha : ∀ a ∈ before, s.Allows m a) : Runs s now m [] u.finishStop := by
  obtain ⟨acts, hout, hacts, hl⟩ := finishStop_ends u ho
  refine ⟨before ++ acts, ?_, .down (.inl hp) _ _ ?_ hl⟩
  · rw [hout, h.outbox, List.append_assoc]
  · rw [List.forall_mem_append]
    exact ⟨fun a hm => .inl (ha a hm), fun a hm => .inr (hacts a hm)⟩

theorem runs_sendRequest {request : Request} (before : List Action) (h : Amid s before u)
    (hl : s.stopping = false → u.connection.link = .connected)
    (ho : u.connection.link = .connected → u.connection.opened = true)
    (why : s.stopping = false → s.Asks now m request) (ha : ∀ a ∈ before, s.Allows m a) :
    Runs s now m [] (u.sendRequest request now) := by
  cases hp : s.stopping with
  | true =>
    rw [sendRequest_of_stopping u now (h.stopping.trans hp)]
    refine runs_finishStop hp ?_ ?_ ha
    · exact ⟨h.outbox, h.setup, h.transaction, h.poll, h.pending⟩
    · exact ho
  | false =>
    rw [sendRequest_eq u now (h.stopping.trans hp), h.requestFrame, h.transaction]
    refine ⟨before ++ [.send (s.requestFrame request s.nextTransaction)], ?_, ?_⟩
    · rw [h.outbox, List.append_assoc]
    · apply Course.asked hp before request _ (why hp) ha
      · exact hl hp
      · rfl
      · exact h.pending
      · rw [h.poll]
      · simp

theorem runs_enterIdle (before : List Action) (h : Amid s before u)
    (hl : u.connection.link = s.connection.link)
    (ho : u.connection.opened = true) (why : s.Frees now m before)
    (ha : ∀ a ∈ before, s.Allows m a) : Runs s now m [] (u.enterIdle now) := by
  cases hp : s.stopping with
  | true =>
    rw [enterIdle_of_stopping u now (h.stopping.trans hp)]
    refine runs_finishStop hp ?_ ?_ ha
    · exact ⟨h.outbox, h.setup, h.transaction, h.poll, h.pending⟩
    · exact fun _ => ho
  | false =>
    cases hw : s.pendingWrites with
    | cons w rest =>
      rw [enterIdle_of_pending u now (h.stopping.trans hp) (h.pending.trans hw), sendWrite_eq]
      refine ⟨before ++ [.send (s.writeFrame w s.nextTransaction)], ?_, ?_⟩
      · show u.outbox ++ [.send (u.writeFrame w u.nextTransaction)] = _
        rw [h.writeFrame, h.transaction, h.outbox, List.append_assoc]
      · apply Course.drained hp before _ why ha w rest hw
        exact { state := rfl, pending := rfl, link := hl, poll := h.poll }
    | nil =>
      rw [enterIdle_of_none_pending u now (h.stopping.trans hp) (h.pending.trans hw)]
      refine ⟨before, h.outbox, ?_⟩
      apply Course.rested hp before _ why ha hw
      exact { state := rfl, pending := h.pending.trans hw, link := hl, poll := h.poll }

theorem runs_disconnect (before : List Action) (h : Amid s before u)
    (ho : u.connection.opened = true)
    (why : s.GivesUp now m) (ha : ∀ a ∈ before, s.Neutral a) (graceful : Bool) :
    Runs s now m [] (u.disconnect graceful now) := by
  cases hp : s.stopping with
  | true =>
    rw [disconnect_of_stopping u now (h.stopping.trans hp)]
    exact runs_finishStop hp h (fun _ => ho) (allows_of_neutral ha)
  | false =>
    rw [disconnect_eq u now ho (h.stopping.trans hp)]
    refine ⟨before ++ [.close graceful, .raise .connectivity none, .status false], ?_,
      .lost hp why before ha graceful _ rfl⟩
    rw [h.outbox, List.append_assoc]

/-! ## Frames -/

/-- What asks nothing and leaves the wait, its timers and the connection as they are. -/
theorem runs_unmoved {acts : List Action} (hb : s.begins now m = false)
    (ho : t.outbox = s.outbox ++ acts) (ha : ∀ a ∈ acts, s.Neutral a)
    (ht : Moves s t s.state s.pendingWrites)
    (hg : s.isGuarded = true → t.isGuarded = true ∨ m.isTimedOut = true) : Runs s now m [] t :=
  ⟨acts, ho, .unmoved acts t hb ha ht hg⟩

/-- What leaves all that alone and takes no actions. -/
theorem runs_still (hb : s.begins now m = false) (ho : t.outbox = s.outbox)
    (ht : Moves s t s.state s.pendingWrites) (hg : s.isGuarded = true → t.isGuarded = true) :
    Runs s now m [] t :=
  runs_unmoved hb (ho.trans (List.append_nil _).symm) (List.forall_mem_nil _) ht
    fun h => .inl (hg h)

theorem isMute_reply (s : Session) {stream function : UInt8} (hs : stream.toNat < 128)
    (hf : function.toNat % 2 = 0) (system : SystemBytes) (body : Item) :
    (Action.send (s.parties.reply stream function system body)).isMute = true := by
  simp only [Action.isMute, isRequest, s.parties.isPrimary_reply hs hf,
    s.parties.hasSession_reply hs]
  rfl

/-- An unsolicited message is at most answered, and only the one that a transaction took too long
touches the timers. -/
theorem Heard.unmoved {inbound : Inbound} (h : s.Heard inbound t) :
    ∃ acts, t.outbox = s.outbox ++ acts ∧ (∀ a ∈ acts, a.isMute = true) ∧
      Moves s t s.state s.pendingWrites ∧
      (s.isGuarded = true → t.isGuarded = true ∨ inbound.header.carries 9 9 = true) := by
  cases h with
  | asked _ =>
    refine ⟨_, rfl, ?_, ⟨rfl, rfl, rfl, rfl⟩, .inl⟩
    rw [List.forall_mem_singleton]
    exact isMute_reply s (by decide) (by decide) _ _
  | timedOut hc => exact ⟨[], by simp [cancel], by simp, ⟨rfl, rfl, rfl, rfl⟩, fun _ => .inr hc⟩
  | malformed _ =>
    refine ⟨_, rfl, ?_, ⟨rfl, rfl, rfl, rfl⟩, .inl⟩
    rw [List.forall_mem_singleton]
    rfl
  | alarmed _ alarms _ ht =>
    obtain ⟨acts, c, rfl, ha⟩ := ht
    refine ⟨_, List.append_assoc _ _ _, ?_, ⟨rfl, rfl, rfl, rfl⟩, .inl⟩
    rw [List.forall_mem_append, List.forall_mem_singleton]
    exact ⟨isMute_reply s (by decide) (by decide) _ _,
      fun a hm => Action.isMute_of_isNews (ha a hm)⟩
  | reported _ u ht =>
    obtain ⟨acts, c, rfl, ha⟩ := ht
    refine ⟨_, List.append_assoc _ _ _, ?_, ⟨rfl, rfl, rfl, rfl⟩, .inl⟩
    rw [List.forall_mem_append, List.forall_mem_singleton]
    exact ⟨fun a hm => Action.isMute_of_isNews (ha a hm),
      isMute_reply s (by decide) (by decide) _ _⟩

theorem runs_unsolicited {frame : Bytes} {inbound : Inbound}
    (hm : Inbound.read? frame = some inbound)
    (h : (s.count .framesReceived 1).unsolicited? inbound = some t) :
    Runs s now (.frame frame) [] t := by
  obtain ⟨acts, ho, ha, ht, hg⟩ := (heard_of_unsolicited? h).unmoved
  refine runs_unmoved rfl ho (fun a hm => ⟨ha a hm, ?_⟩) ⟨ht.state, ht.pending, ht.link, ht.poll⟩ ?_
  · rintro v value report rfl
    exact (tells_unsolicited? _ h).of_outbox ho hm
  · intro hs
    refine (hg hs).imp_right fun hc => ?_
    simpa [Moment.isTimedOut, hm] using hc

theorem neutral_cleared : ∀ a ∈ [Action.clear .noResponse], s.Neutral a := by
  rw [List.forall_mem_singleton]
  exact neutral_of_isMute rfl (by simp)

theorem amid_replied (s : Session) (counters : Counters) :
    Amid s [.clear .noResponse] { s with counters }.replied :=
  ⟨rfl, rfl, rfl, rfl, rfl⟩

/-- After a poll the other one follows, or nothing is open any more. -/
theorem runs_afterPoll (before : List Action) {frame : Bytes} {inbound : Inbound}
    (hm : Inbound.read? frame = some inbound) {request : Request}
    (hs : s.state = .awaitingReply request) (hp : request.isPoll = true)
    (hr : inbound.isFailedTransaction = true ∨ s.Fulfils (.frame frame) request)
    (h : Amid s before u) (hl : u.connection.link = s.connection.link)
    (hc : s.connection.link = .connected) (ho : u.connection.opened = true)
    (ha : ∀ a ∈ before, s.Allows (.frame frame) a) :
    Runs s now (.frame frame) [] (u.afterPoll request now) := by
  have hfree : Runs s now (.frame frame) [] (u.enterIdle now) :=
    runs_enterIdle before h hl ho (.polled frame inbound hm request hs hp hr before) ha
  unfold afterPoll
  split
  · next he =>
    subst he
    unfold afterStatus
    split
    · exact hfree
    · exact runs_sendRequest before h (fun _ => hl.trans hc) (fun _ => ho)
        (fun _ => .followed frame inbound hm hs hr) ha
  · exact hfree

/-- What an answer does. -/
theorem Answer.runs {counters : Counters} {frame : Bytes} {inbound : Inbound} (h : s.Consistent)
    (hm : Inbound.read? frame = some inbound) (ha : { s with counters }.Answer inbound now t) :
    Runs s now (.frame frame) [] t := by
  have hamid := amid_replied s counters
  cases ha with
  | selected hs hc =>
    replace hs : s.state = .awaitingReply .select := hs
    simp only [replied_eq, Session.arm]
    refine ⟨[.clear .noResponse], rfl, ?_⟩
    apply Course.selected frame inbound rfl hm hc hs _ _ neutral_cleared
    exact { state := rfl, pending := rfl, link := rfl, poll := rfl }
  | approached hs _ =>
    simp only [replied_eq, send, emit, Session.arm]
    refine ⟨_, List.append_assoc _ _ _, ?_⟩
    apply Course.unmoved
    · rfl
    · rw [List.forall_mem_append]
      refine ⟨neutral_cleared, ?_⟩
      rw [List.forall_mem_singleton]
      exact neutral_of_isMute (isMute_reply s (by decide) (by decide) _ _) (by simp)
    · exact { state := rfl, pending := rfl, link := rfl, poll := rfl }
    · -- no request is open, so it is not the request that is guarded
      intro hg
      replace hs : s.state = .awaitingEquipment := hs
      have hcomm := h.answered (by simp [hs])
      left
      simpa [isGuarded, hcomm, replied_eq, arm, send, emit] using hg
  | advanced request next hs hc hn =>
    have hl := h.live (by rw [show s.state = _ from hs]; simp)
    exact runs_sendRequest _ hamid (fun _ => hl.link) (fun _ => hl.opened)
      (fun _ => .advanced frame inbound hm request next hs hc hn)
      (allows_of_neutral neutral_cleared)
  | completed request hs hc hn =>
    have hl := h.live (by rw [show s.state = _ from hs]; simp)
    rw [completeHandshake_eq]
    refine runs_enterIdle [.clear .noResponse] ?_ ?_ ?_
      (.completed frame inbound hm request hs hc hn) (allows_of_neutral neutral_cleared)
    · exact ⟨rfl, rfl, rfl, rfl, rfl⟩
    · rfl
    · exact hl.opened
  | failed request hs hp hf =>
    have hl := h.live (by rw [show s.state = _ from hs]; simp)
    refine runs_afterPoll _ hm hs hp (.inl hf) (hamid.emit (.raise request.badResponse none)) rfl
      hl.link ?_ ?_
    · exact hl.opened
    · apply allows_of_neutral
      rw [List.forall_mem_append]
      refine ⟨neutral_cleared, ?_⟩
      rw [List.forall_mem_singleton]
      exact neutral_of_isMute rfl (by simp)
  | polled request hs hp hc ht =>
    have hl := h.live (by rw [show s.state = _ from hs]; simp)
    have hf : s.Fulfils (.frame frame) request := ⟨frame, inbound, rfl, hm, hs, hp, hc, ht⟩
    have hn := news_publishPoll { s with counters }.replied inbound (s.catalog.polled request)
      request.badResponse
    have htell := tells_publishPoll { s with counters }.replied (fun v hv => hv :
      ∀ v ∈ s.catalog.polled request, v ∈ s.catalog.polled request) inbound request.badResponse
    obtain ⟨acts, c, ho, ha⟩ := hn
    dsimp only
    rw [ho] at htell ⊢
    refine runs_afterPoll ([.clear .noResponse] ++ acts) hm hs hp (.inr hf) ?_ rfl
      hl.link ?_ ?_
    · exact ⟨List.append_assoc _ _ _, rfl, rfl, rfl, rfl⟩
    · exact hl.opened
    · rw [List.forall_mem_append]
      refine ⟨allows_of_neutral neutral_cleared, fun a hm => ?_⟩
      by_cases hv : ∃ v value report, a = .publish v value report
      · obtain ⟨v, value, report, rfl⟩ := hv
        exact .inr ⟨request, v, value, report, hf, htell.of_outbox rfl hm, rfl⟩
      · exact .inl (neutral_of_isMute (Action.isMute_of_isNews (ha a hm)) (by simpa using hv))
  | mismatched request hs _ _ _ =>
    simp only [replied_eq, Session.arm]
    refine runs_unmoved rfl rfl neutral_cleared ⟨rfl, rfl, rfl, rfl⟩ fun _ => .inl ?_
    simp [isGuarded]
  | written hs hc =>
    have hl := h.live (by rw [show s.state = _ from hs]; simp)
    refine runs_enterIdle [.clear .writeFailed] ?_ rfl ?_
      (.written frame inbound hm hs hc) ?_
    · exact ⟨rfl, rfl, rfl, rfl, rfl⟩
    · exact hl.opened
    · apply allows_of_neutral
      rw [List.forall_mem_singleton]
      exact neutral_of_isMute rfl (by simp)

/-- What a frame does. -/
theorem runs_handleFrame (h : s.Consistent) (frame : Bytes) :
    Runs s now (.frame frame) [] (s.handleFrame now frame) := by
  have hignored : ∀ counters : Counters, Runs s now (.frame frame) [] { s with counters } :=
    fun _ => runs_still rfl rfl ⟨rfl, rfl, rfl, rfl⟩ id
  unfold handleFrame
  dsimp only
  split
  · exact hignored _
  · next inbound hm =>
    cases hu : (s.count .framesReceived 1).unsolicited? inbound with
    | some t => exact runs_unsolicited hm hu
    | none =>
      cases hr : (s.count .framesReceived 1).reply? inbound now with
      | some t => exact (answer_of_reply? hr).runs h hm
      | none =>
        dsimp only [HOrElse.hOrElse, OrElse.orElse, Option.orElse]
        split
        · exact hignored _
        · exact hignored _

/-! ## Timers -/

theorem amid_cancel (s : Session) (kind : TimerKind) : Amid s [] (s.cancel kind) :=
  ⟨(List.append_nil _).symm, rfl, rfl, rfl, rfl⟩

theorem isGuarded_cancel (s : Session) (kind : TimerKind)
    (h : kind ∉ [TimerKind.commTimeout, .separateRequest, .restartHandshake]) :
    (s.cancel kind).isGuarded = s.isGuarded := by
  simp only [List.mem_cons, List.not_mem_nil, or_false, not_or] at h
  simp [isGuarded, cancel, h.1, h.2.1, h.2.2, eq_comm]

theorem Consistent.opened_of_connected (h : s.Consistent)
    (hc : s.connection.link = .connected) : s.connection.opened = true :=
  h.sound.opened (by simp [hc])

theorem Consistent.live_of_handshakeComplete (h : s.Consistent)
    (hh : s.handshakeComplete = true) : s.Live := by
  refine h.sound.live (Decidable.byContradiction fun hd => ?_)
  simp [h.sound.incomplete hd] at hh

theorem runs_requestOverdue (h : s.Consistent) (hd : s.timers.isDue now .commTimeout = true) :
    Runs s now (.expiry .commTimeout) [] ((s.cancel .commTimeout).requestOverdue now) := by
  obtain ⟨request, hr⟩ := h.sound.asking (Timers.isArmed_of_isDue hd)
  have hl := h.live (by simp [hr])
  have hretry : s.state.retry? = some request := by rw [hr]; rfl
  have ha : ∀ a ∈ [Action.raise .noResponse none], s.Neutral a := by
    rw [List.forall_mem_singleton]
    exact neutral_of_isMute rfl (by simp)
  rw [requestOverdue_eq (s.cancel .commTimeout) now hretry]
  dsimp only
  split
  · next hmax =>
    refine runs_disconnect _ ?_ ?_ (.unanswered request hr hd (Nat.le_of_lt_succ hmax)) ha true
    · exact ⟨rfl, rfl, rfl, rfl, rfl⟩
    · exact hl.opened
  · refine runs_sendRequest _ ?_ ?_ ?_ (fun _ => .overdue request hr hd) (allows_of_neutral ha)
    · exact ⟨rfl, rfl, rfl, rfl, rfl⟩
    · exact fun _ => hl.link
    · exact fun _ => hl.opened

theorem runs_establish (h : s.Consistent) (hd : s.timers.isDue now .establishFallback = true) :
    Runs s now (.expiry .establishFallback) []
      ((s.cancel .establishFallback).sendRequest .establish now) := by
  have hl : s.stopping = false → s.connection.link = .connected := fun hp =>
    (h.live_of_isArmed hp (Timers.isArmed_of_isDue hd) (by simp) (by simp)).link
  refine runs_sendRequest [] (amid_cancel s _) hl h.opened_of_connected (fun hp => ?_) (by simp)
  exact .unapproached (((h.settled hp).fallback (hl hp)).mp (Timers.isArmed_of_isDue hd)) hd

theorem runs_poll (h : s.Consistent) (hd : s.timers.isDue now .poll = true) :
    Runs s now (.expiry .poll) [] ((s.cancel .poll).poll now) := by
  unfold Session.poll
  split
  · exact runs_still rfl rfl ⟨rfl, rfl, rfl, rfl⟩ (isGuarded_cancel s .poll (by decide)).trans
  · next hc =>
    obtain ⟨hh, hi⟩ : s.handshakeComplete = true ∧ s.state = .idle := by
      simpa [Session.cancel, CommState.isIdle] using hc
    have hl := h.live_of_handshakeComplete hh
    have hask : ∀ request : Request, request.isPoll = true →
        Runs s now (.expiry .poll) [] ((s.cancel .poll).sendRequest request now) :=
      fun request hp => runs_sendRequest [] (amid_cancel s _) (fun _ => hl.link)
        (fun _ => hl.opened) (fun _ => .due request hp hi hh hd) (by simp)
    split
    · exact hask .statusVariables rfl
    · split
      · exact hask .equipmentConstants rfl
      · exact runs_enterIdle [] (amid_cancel s _) rfl hl.opened (.unpolled hi hd) (by simp)

theorem runs_writeOverdue (h : s.Consistent) (hd : s.timers.isDue now .writeTimeout = true) :
    Runs s now (.expiry .writeTimeout) [] ((s.cancel .writeTimeout).writeOverdue now) := by
  have ha : ∀ a ∈ [Action.raise .writeFailed none], s.Neutral a := by
    rw [List.forall_mem_singleton]
    exact neutral_of_isMute rfl (by simp)
  rw [writeOverdue_eq]
  dsimp only
  split
  · next hi =>
    replace hi : s.state = .awaitingWrite := hi
    have hl := h.live (by simp [hi])
    refine runs_enterIdle _ ?_ rfl ?_ (.overdue hi hd) (allows_of_neutral ha)
    · exact ⟨rfl, rfl, rfl, rfl, rfl⟩
    · exact hl.opened
  · exact runs_unmoved rfl rfl ha ⟨rfl, rfl, rfl, rfl⟩ fun hg =>
      .inl ((isGuarded_cancel s .writeTimeout (by decide)).trans hg)

theorem runs_reconnect (h : s.Consistent) (hd : s.timers.isDue now .reconnect = true) :
    Runs s now (.expiry .reconnect) [] (s.cancel .reconnect).reconnect := by
  obtain ⟨hl, -⟩ := h.sound.reconnect (Timers.isArmed_of_isDue hd)
  rw [reconnect_eq]
  split
  · exact ⟨_, rfl, .down (.inr (.inr (by simp [hl]))) _ _ (by simp [Action.isLink]) (by simp)⟩
  · exact ⟨_, rfl, .down (.inr (.inr (by simp [hl]))) _ _ (by simp [Action.isLink]) (by simp)⟩

theorem isMute_control (s : Session) {session : SessionType}
    (h : session ≠ SessionType.selectRequest) (transactionId : UInt16) :
    (Action.send (s.parties.control session transactionId)).isMute = true := by
  simp only [Action.isMute, isRequest, s.parties.isPrimary_control, s.parties.hasSession_control]
  simpa using h

theorem runs_separate (s : Session) (now : Nat) :
    Runs s now (.expiry .separateRequest) [] ((s.cancel .separateRequest).separate now) := by
  rw [separate_eq]
  refine runs_unmoved rfl rfl ?_ ⟨rfl, rfl, rfl, rfl⟩ fun _ => .inl ?_
  · rw [List.forall_mem_singleton]
    exact neutral_of_isMute (isMute_control s (by decide) _) (by simp)
  · simp [isGuarded]

theorem runs_testLink (s : Session) (now : Nat) :
    Runs s now (.expiry .linkTest) [] ((s.cancel .linkTest).testLink now) := by
  cases hi : s.settings.linkTestInterval with
  | none =>
    unfold testLink
    rw [show (s.cancel .linkTest).settings.linkTestInterval = none from hi]
    exact runs_still rfl rfl ⟨rfl, rfl, rfl, rfl⟩ (isGuarded_cancel s .linkTest (by decide)).trans
  | some interval =>
    rw [testLink_eq (s.cancel .linkTest) now hi]
    refine runs_unmoved rfl rfl ?_ ⟨rfl, rfl, rfl, rfl⟩ fun h => .inl ?_
    · rw [List.forall_mem_singleton]
      exact neutral_of_isMute (isMute_control s (by decide) _) (by simp)
    · simpa [isGuarded, Session.cancel] using h

theorem neutral_connected (s : Session) (connected : Bool) :
    ∀ a ∈ s.catalog.connected.map fun v => Action.publish v (.flag connected) false,
      s.Neutral a := by
  intro a hm
  obtain ⟨v, hv, rfl⟩ := List.mem_map.mp hm
  refine ⟨rfl, fun w _ _ he => ?_⟩
  cases he
  exact .inl hv

theorem runs_reportDisconnected (s : Session) (now : Nat) :
    Runs s now (.expiry .disconnectReport) []
      (s.cancel .disconnectReport).reportDisconnected := by
  rw [reportDisconnected_eq]
  exact runs_unmoved rfl rfl (neutral_connected s false) ⟨rfl, rfl, rfl, rfl⟩ fun hg =>
    .inl ((isGuarded_cancel s .disconnectReport (by decide)).trans hg)

theorem runs_restart (h : s.Consistent)
    (hd : s.timers.isDue now .restartHandshake = true) :
    Runs s now (.expiry .restartHandshake) []
      ((s.cancel .restartHandshake).startHandshake .select now) := by
  rw [startHandshake_eq]
  refine runs_sendRequest [] ?_ (fun hp => ?_) ?_ (fun _ => .restarted hd) (by simp)
  · exact ⟨(List.append_nil _).symm, rfl, rfl, rfl, rfl⟩
  · exact (h.live_of_isArmed hp (Timers.isArmed_of_isDue hd) (by simp) (by simp)).link
  · exact h.opened_of_connected

/-- What a timer does that is due. -/
theorem runs_fire (h : s.Consistent) {kind : TimerKind} (hd : s.timers.isDue now kind = true) :
    Runs s now (.expiry kind) [] ((s.cancel kind).fire kind now) := by
  cases kind with
  | commTimeout => exact runs_requestOverdue h hd
  | establishFallback => exact runs_establish h hd
  | poll => exact runs_poll h hd
  | dataComplete =>
    exact runs_still rfl rfl ⟨rfl, rfl, rfl, rfl⟩
      (isGuarded_cancel s .dataComplete (by decide)).trans
  | writeTimeout => exact runs_writeOverdue h hd
  | reconnect => exact runs_reconnect h hd
  | separateRequest => exact runs_separate s now
  | restartHandshake => exact runs_restart h hd
  | linkTest => exact runs_testLink s now
  | disconnectReport => exact runs_reportDisconnected s now
  | stopGrace =>
    refine runs_finishStop (h.sound.stopGrace (Timers.isArmed_of_isDue hd)) (amid_cancel s _) ?_
      (by simp)
    exact h.opened_of_connected

/-! ## Moments -/

/-- The write of the host that is accepted at a moment, if there is one. -/
def accepted (s : Session) (now : Nat) : Moment → List (String × Value)
  | .write name value =>
    match (s.write name value now).2 with
    | .ok () => [(name, value)]
    | .error _ => []
  | _ => []

theorem runs_launch (hu : s.Unopened) : Runs s now .opened [] s.launch := by
  rw [launch_eq]
  refine ⟨_, List.append_assoc _ _ _,
    .down (.inr (.inr (by simp [hu.connection]))) _ _ ?_ (by simp)⟩
  simp only [List.forall_mem_append, List.mem_map, List.mem_singleton]
  refine ⟨⟨?_, ?_⟩, ?_⟩
  · rintro a ⟨v, hv, rfl⟩
    refine .inl (.inl ⟨rfl, fun w _ _ he => ?_⟩)
    cases he
    exact .inr (.inl hv)
  · rintro a ⟨v, hv, rfl⟩
    refine .inl (.inl ⟨rfl, fun w _ _ he => ?_⟩)
    cases he
    exact .inr (.inr (.inl hv))
  · rintro a rfl
    exact .inr rfl

theorem runs_connected (h : s.Consistent) (hl : s.connection.link = .connecting) :
    Runs s now .connected [] (s.connected now) := by
  have ho := h.sound.opened (by simp [hl])
  cases hp : s.stopping with
  | true =>
    rw [connected_of_stopping s now hp]
    exact runs_still (by simp [begins, hp]) rfl ⟨rfl, rfl, rfl, rfl⟩ id
  | false =>
    rw [connected_eq s now ho hp, startHandshake_eq]
    refine runs_sendRequest (.clear .connectivity ::
      ((if s.connection.reported then []
        else s.catalog.connected.map fun v => .publish v (.flag true) false) ++ [.status true]))
      ?_ (fun _ => rfl) (fun _ => ho) (fun _ => .begun hl) ?_
    · exact ⟨rfl, rfl, rfl, rfl, rfl⟩
    · apply allows_of_neutral
      rw [List.forall_mem_cons, List.forall_mem_append, List.forall_mem_singleton]
      refine ⟨neutral_of_isMute rfl (by simp), ?_, neutral_of_isMute rfl (by simp)⟩
      split
      · simp
      · exact neutral_connected s true

theorem neutral_of_isAlert {a : Action} (h : a.isAlert = true) : s.Neutral a := by
  refine neutral_of_isMute (Action.isMute_of_isNews (Action.isNews_of_isAlert h)) ?_
  rintro v value report rfl
  cases h

theorem runs_write (s : Session) (now : Nat) (name : String) (value : Value) :
    Runs s now (.write name value) (s.accepted now (.write name value))
      (s.write name value now).1 := by
  have hc := called_write s name value now
  simp only [accepted]
  generalize s.write name value now = r at hc
  cases hc with
  | refused t ht e =>
    obtain ⟨acts, rfl, ha⟩ := ht
    refine ⟨acts, rfl, ?_⟩
    apply Course.unmoved _ _ rfl (fun a hm => neutral_of_isAlert (ha a hm))
    · exact { state := rfl, pending := rfl, link := rfl, poll := rfl }
    · exact .inl
  | sent t ht hl hi w hw =>
    obtain ⟨acts, rfl, ha⟩ := ht
    rw [sendWrite_eq]
    refine ⟨_, List.append_assoc _ _ _, ?_⟩
    apply Course.posted name value rfl w hw _ hi _ _ (fun a hm => neutral_of_isAlert (ha a hm))
    · exact { state := rfl, pending := rfl, link := rfl, poll := rfl }
    · simpa [isConnected] using hl
  | queued t ht hl hi w hw =>
    obtain ⟨acts, rfl, ha⟩ := ht
    refine ⟨_, rfl, ?_⟩
    apply Course.queued name value rfl w hw _ hi _ _ (fun a hm => neutral_of_isAlert (ha a hm))
    · exact { state := rfl, pending := rfl, link := rfl, poll := rfl }
    · exact id
    · simpa [isConnected] using hl

theorem runs_beginStop (h : s.Consistent) : Runs s now .stop [] (s.beginStop now) := by
  unfold beginStop
  split
  · exact runs_still rfl rfl ⟨rfl, rfl, rfl, rfl⟩ id
  · dsimp only
    split
    · refine ⟨[], (List.append_nil _).symm, ?_⟩
      apply Course.halted rfl
      · rfl
      · exact { state := rfl, pending := rfl, link := rfl, poll := rfl }
    · obtain ⟨acts, ho, ha, hl⟩ := finishStop_ends
        { s with stopping := true, timers := {}, pendingWrites := [] } h.opened_of_connected
      exact ⟨acts, ho, .down (.inr (.inl rfl)) _ _ (fun a hm => .inr (ha a hm)) hl⟩

/-- Every permitted moment of a consistent session takes its course. -/
theorem course_advance (h : s.Consistent) (now : Nat) {m : Moment} (hm : s.Permits m) :
    Runs s now m (s.accepted now m) (s.advance now m) := by
  have hrefl : Amid s [] s := ⟨(List.append_nil _).symm, rfl, rfl, rfl, rfl⟩
  cases m with
  | opened => exact runs_launch hm
  | connected => exact runs_connected h hm
  | connectFailed =>
    have hl : s.connection.link = .connecting := hm
    exact runs_disconnect [] hrefl (h.sound.opened (by simp [hl])) (.failed hl) (by simp) false
  | socketError =>
    exact runs_disconnect [] hrefl (h.opened_of_connected hm) (.broken hm) (by simp) false
  | socketEnd =>
    have ho := h.opened_of_connected hm
    simp only [advance, closedByEquipment]
    split
    · next hp => exact runs_finishStop hp hrefl (fun _ => ho) (by simp)
    · refine runs_disconnect [] ?_ ?_ (.closed hm) (by simp) false
      · exact ⟨(List.append_nil _).symm, rfl, rfl, rfl, rfl⟩
      · exact ho
  | arrival received =>
    simp only [advance, accept]
    split
    · exact runs_still rfl rfl ⟨rfl, rfl, rfl, rfl⟩ id
    · exact runs_still rfl rfl ⟨rfl, rfl, rfl, rfl⟩ id
  | frame frame => exact runs_handleFrame h frame
  | settled =>
    simp only [advance, awaitRest]
    split
    · exact runs_still rfl rfl ⟨rfl, rfl, rfl, rfl⟩
        (isGuarded_cancel s .dataComplete (by decide)).trans
    · refine runs_still rfl rfl ⟨rfl, rfl, rfl, rfl⟩ fun hg => ?_
      simpa [isGuarded, Session.cancel, Session.arm] using hg
  | expiry kind =>
    simp only [advance, expire]
    split
    · next hd => exact runs_fire h hd
    · next hd =>
      refine runs_still ?_ rfl ⟨rfl, rfl, rfl, rfl⟩ id
      cases kind <;> simp [begins, hd]
  | write name value => exact runs_write s now name value
  | stop => exact runs_beginStop h

/-! ## Talk -/

/-- A session talks while there is a connection and no stop has begun. -/
structure Talks (s : Session) : Prop where
  link : s.connection.link = .connected
  staying : s.stopping = false

/-- A request is asked on a connection, be it one that begins. -/
theorem Asks.link {request : Request} (why : s.Asks now m request) (h : s.Consistent)
    (hp : s.stopping = false) :
    s.connection.link = .connected ∨ m = .connected ∧ s.connection.link = .connecting := by
  cases why with
  | begun hl => exact .inr ⟨rfl, hl⟩
  | restarted hd =>
    exact .inl (h.live_of_isArmed hp (Timers.isArmed_of_isDue hd) (by simp) (by simp)).link
  | overdue _ hs _ => exact .inl (h.live (by simp [hs])).link
  | unapproached hs _ => exact .inl (h.live (by simp [hs])).link
  | advanced _ _ _ _ _ hs _ _ => exact .inl (h.live (by simp [hs])).link
  | due _ _ _ hh _ => exact .inl (h.live_of_handshakeComplete hh).link
  | followed _ _ _ hs _ => exact .inl (h.live (by simp [hs])).link

/-- Nothing is freed but on a connection. -/
theorem Frees.link (why : s.Frees now m before) (h : s.Consistent) (hp : s.stopping = false) :
    s.connection.link = .connected := by
  cases why with
  | completed _ _ _ _ hs _ _ => exact (h.live (by simp [hs])).link
  | polled _ _ _ _ hs _ _ => exact (h.live (by simp [hs])).link
  | written _ _ _ hs _ => exact (h.live (by simp [hs])).link
  | overdue hs _ => exact (h.live (by simp [hs])).link
  | unpolled _ hd =>
    exact (h.live_of_isArmed hp (Timers.isArmed_of_isDue hd) (by simp) (by simp)).link

/-- No connection outlives the beginning of a stop but by its opening. -/
theorem Talks.stayed (ht : (s.advance now m).Talks) : s.stopping = false := by
  by_cases ho : m = .opened
  · have hl := ht.link
    rw [ho] at hl
    simp [advance, launch_eq] at hl
  by_cases hs : m = .stop
  · have hp := ht.staying
    rw [hs] at hp
    simp only [advance, beginStop] at hp
    split at hp
    · exact hp
    · have hset := (leaves_finishStop { s with
        stopping := true, timers := {}, pendingWrites := [] }).setup
      simp only [setup, Prod.mk.injEq] at hset
      split at hp
      · cases hp
      · rw [hset.2.2.2] at hp
        cases hp
  · have hset := setup_advance s now ho hs
    simp only [setup, Prod.mk.injEq] at hset
    rw [← hset.2.2.2, ht.staying]

/-- A session that talks has talked before, unless its connection has just begun. -/
theorem Talks.talked_or_begun (ht : (s.advance now m).Talks) (h : s.Consistent) (hm : s.Permits m) :
    s.Talks ∧ m ≠ .connected ∨ s.stopping = false ∧ m = .connected ∧
      s.connection.link = .connecting := by
  have hp := ht.stayed
  have hl := ht.link
  have hstart : s.connection.link = .connected → m ≠ .connected := by
    rintro hc rfl
    rw [show s.connection.link = .connecting from hm] at hc
    cases hc
  have hsame : (s.advance now m).connection.link = s.connection.link → s.Talks ∧ m ≠ .connected :=
    fun he => ⟨⟨he ▸ hl, hp⟩, hstart (he ▸ hl)⟩
  obtain ⟨acts, -, hc⟩ := course_advance h now hm
  generalize s.accepted now m = calls at hc
  cases hc with
  | unmoved _ _ _ _ ht _ => exact .inl (hsame ht.link)
  | selected _ _ _ _ _ _ _ _ _ ht => exact .inl (hsame ht.link)
  | asked _ _ _ _ why =>
    rcases why.link h hp with hc | ⟨hm, hc⟩
    · exact .inl ⟨⟨hc, hp⟩, hstart hc⟩
    · exact .inr ⟨hp, hm, hc⟩
  | rested _ _ _ _ _ _ ht => exact .inl (hsame ht.link)
  | drained _ _ _ _ _ _ _ _ ht => exact .inl (hsame ht.link)
  | posted _ _ _ _ _ _ _ _ _ _ ht => exact .inl (hsame ht.link)
  | queued _ _ _ _ _ _ _ _ _ _ ht _ => exact .inl (hsame ht.link)
  | lost _ _ _ _ _ _ hd => simp [hl] at hd
  | down _ _ _ _ hd => exact absurd hl hd
  | halted _ _ _ ht => exact .inl (hsame ht.link)

/-- What holds at every point of a run of a session that began as `s₀`. -/
structure Descends (s₀ s : Session) : Prop where
  catalog : s.catalog = s₀.catalog
  parties : s.parties = s₀.parties
  consistent : s.Consistent

theorem Descends.advance {s₀ : Session} (h : Descends s₀ s) (hm : s.Permits m) :
    Descends s₀ (s.advance now m) := by
  obtain ⟨hc, hp⟩ := setup_fixed s now m
  exact ⟨hc.trans h.catalog, hp.trans h.parties, h.consistent.advance hm⟩

theorem Unopened.descends (hu : s.Unopened) : Descends s s :=
  ⟨rfl, rfl, hu.consistent⟩

end Session

end GemLink
