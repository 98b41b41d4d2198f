import GemLink.Proofs.Session.Course
import GemLink.Proofs.Session.WellFormed

/-!
What a moment tells the host of the connection: the connection status, the alert that the equipment
cannot be reached, and truth values of variables. Almost every operation tells nothing of it, leaves
the connection as it is and moves neither the next attempt to connect nor the report that the
machine is disconnected (`Unseen`). `Bulletin` lists what a moment can do besides: the session is
opened, the connection comes up, it fails or is lost, and either of those two timers expires; and
that is all that a permitted moment of a consistent session does until a stop begins
(`bulletin_advance`).
-/

namespace GemLink

/-! ## What an action tells -/

/-- No other alert has the key of the alert that the equipment cannot be reached. -/
theorem AlertKey.eq_connectivity {key : AlertKey}
    (h : key.text = AlertKey.connectivity.text) : key = .connectivity := by
  -- the keys that end in the name of a variable begin with another letter
  have hhead : ∀ front name : String, front.toList.head? ≠ none → front.toList.head? ≠ some 'c' →
      front ++ name ≠ AlertKey.connectivity.text := by
    intro front name hn hc he
    have hh := congrArg (fun text => text.toList.head?) he
    rw [String.toList_append, List.head?_append] at hh
    cases hf : front.toList.head? with
    | none => exact hn hf
    | some c =>
      rw [hf] at hh hc
      exact hc hh
  cases key with
  | connectivity => rfl
  | notWritable name => exact absurd h (hhead _ name (by decide) (by decide))
  | notEquipmentConstant name => exact absurd h (hhead _ name (by decide) (by decide))
  | noNumericId name => exact absurd h (hhead _ name (by decide) (by decide))
  | _ => exact absurd h (by decide)

namespace Action

/-- The connection status that an action stores. -/
def status? : Action → Option Bool
  | .status connected => some connected
  | _ => none

/-- Whether an action raises or clears the alert that the equipment cannot be reached. -/
def connectivity? : Action → Option Bool
  | .raise key _ => if key.text = AlertKey.connectivity.text then some true else none
  | .clear key => if key.text = AlertKey.connectivity.text then some false else none
  | _ => none

/-- The truth value that an action hands to the host for a variable. -/
def truth? (v : Variable) : Action → Option Bool
  | .publish target (.flag b) _ => if target = v then some b else none
  | _ => none

/-- Whether an action says that the session has failed to connect too often. -/
def isTerminate : Action → Bool
  | .terminate _ => true
  | _ => false

/-- An action tells nothing of the connection, nor a truth value of a variable with `P`. -/
structure Discreet (P : Variable → Prop) (a : Action) : Prop where
  status : a.status? = none
  connectivity : a.connectivity? = none
  truth : ∀ v, P v → a.truth? v = none
  goesOn : a.isTerminate = false

variable {P : Variable → Prop}

theorem discreet_send (frame : Bytes) : (send frame).Discreet P :=
  ⟨rfl, rfl, fun _ _ => rfl, rfl⟩

theorem discreet_connect : Action.connect.Discreet P :=
  ⟨rfl, rfl, fun _ _ => rfl, rfl⟩

theorem discreet_raise {key : AlertKey} (h : key ≠ .connectivity) (cause : Option String) :
    (raise key cause).Discreet P :=
  ⟨rfl, if_neg fun ht => h (AlertKey.eq_connectivity ht), fun _ _ => rfl, rfl⟩

theorem discreet_clear {key : AlertKey} (h : key ≠ .connectivity) : (clear key).Discreet P :=
  ⟨rfl, if_neg fun ht => h (AlertKey.eq_connectivity ht), fun _ _ => rfl, rfl⟩

theorem discreet_publish {v : Variable} (h : ¬ P v) (value : Value) (report : Bool) :
    (publish v value report).Discreet P := by
  refine ⟨rfl, rfl, fun w hw => ?_, rfl⟩
  cases value with
  | flag b => exact if_neg fun he : v = w => h (he ▸ hw)
  | _ => rfl

/-- The active alarms are told by no truth value. -/
theorem discreet_publish_array (v : Variable) (values : List Value) (report : Bool) :
    (publish v (.array values) report).Discreet P :=
  ⟨rfl, rfl, fun _ _ => rfl, rfl⟩

end Action

/-- The last of the actions that a reading says something of, and what it says. -/
def last? (f : Action → Option Bool) (acts : List Action) : Option Bool :=
  (acts.filterMap f).getLast?

theorem last?_append (f : Action → Option Bool) (acts more : List Action) :
    last? f (acts ++ more) = (last? f more).or (last? f acts) := by
  unfold last?
  rw [List.filterMap_append, List.getLast?_append]

theorem last?_of_none {f : Action → Option Bool} {acts : List Action}
    (h : ∀ a ∈ acts, f a = none) : last? f acts = none := by
  unfold last?
  rw [List.filterMap_eq_nil_iff.mpr h, List.getLast?_nil]

/-- Whether values of a variable are read from messages of the equipment. -/
def Catalog.Reads (c : Catalog) (v : Variable) : Prop :=
  (∃ request, v ∈ c.polled request) ∨ ∃ group ∈ c.groups, v ∈ group.members

/-- Whether an attempt to connect has failed. -/
def Moment.isFailure : Moment → Bool
  | .connectFailed => true
  | _ => false

namespace Session

/-! ## Operations that tell nothing of the connection -/

/-- `t` is what an operation has made of `s` that tells nothing of the connection, nor a truth value
of a variable with `P`, and that leaves the connection and the timers that belong to it as they are;
but for the number of attempts, which begins anew when communication is established. -/
structure Unseen (P : Variable → Prop) (s t : Session) : Prop where
  link : t.connection.link = s.connection.link
  opened : t.connection.opened = s.connection.opened
  reported : t.connection.reported = s.connection.reported
  attempts : s.connection.link ≠ .connected → t.connection.attempts = s.connection.attempts
  reconnect : t.timers.reconnect = s.timers.reconnect
  report : t.timers.disconnectReport = s.timers.disconnectReport
  actions : ∃ acts, t.outbox = s.outbox ++ acts ∧ ∀ a ∈ acts, a.Discreet P

variable {P : Variable → Prop} {s t u : Session} {now : Nat} {m : Moment}

namespace Unseen

theorem trans (h : Unseen P s t) (h' : Unseen P t u) : Unseen P s u := by
  refine ⟨h'.link.trans h.link, h'.opened.trans h.opened, h'.reported.trans h.reported,
    fun hl => ?_, h'.reconnect.trans h.reconnect, h'.report.trans h.report, ?_⟩
  · rw [h'.attempts (h.link ▸ hl), h.attempts hl]
  · obtain ⟨acts, ho, ha⟩ := h.actions
    obtain ⟨acts', ho', ha'⟩ := h'.actions
    refine ⟨acts ++ acts', by rw [ho', ho, List.append_assoc], ?_⟩
    rw [List.forall_mem_append]
    exact ⟨ha, ha'⟩

/-- Only these parts of a session matter. -/
theorem still (ho : t.outbox = s.outbox) (hc : t.connection = s.connection)
    (hr : t.timers.reconnect = s.timers.reconnect)
    (hd : t.timers.disconnectReport = s.timers.disconnectReport) : Unseen P s t :=
  ⟨by rw [hc], by rw [hc], by rw [hc], fun _ => by rw [hc], hr, hd, [],
    ho.trans (List.append_nil _).symm, by simp⟩

/-- Besides, nothing but these actions is appended. -/
theorem appends {acts : List Action} (ho : t.outbox = s.outbox ++ acts)
    (ha : ∀ a ∈ acts, a.Discreet P) (hc : t.connection = s.connection)
    (hr : t.timers.reconnect = s.timers.reconnect)
    (hd : t.timers.disconnectReport = s.timers.disconnectReport) : Unseen P s t :=
  ⟨by rw [hc], by rw [hc], by rw [hc], fun _ => by rw [hc], hr, hd, acts, ho, ha⟩

theorem refl (s : Session) : Unseen P s s :=
  .still rfl rfl rfl rfl

theorem emit (s : Session) {a : Action} (h : a.Discreet P) : Unseen P s (s.emit a) :=
  .appends rfl (List.forall_mem_singleton.mpr h) rfl rfl rfl

theorem count (s : Session) (counter : Counter) (n : Nat) : Unseen P s (s.count counter n) :=
  .still rfl rfl rfl rfl

end Unseen

variable (s now)

theorem unseen_publishAlarms : Unseen P s s.publishAlarms := by
  rw [publishAlarms_eq]
  refine .appends rfl ?_ rfl rfl rfl
  rw [List.forall_mem_append, List.forall_mem_map, List.forall_mem_map]
  exact ⟨fun v _ => Action.discreet_publish_array v _ true,
    fun v _ => Action.discreet_publish_array v _ true⟩

theorem unseen_dataFailure (v : Variable) : Unseen P s (s.dataFailure v) :=
  (Unseen.count s .decodeFailures 1).trans (.emit _ (Action.discreet_raise (by decide) _))

theorem unseen_publishItem {v : Variable} (hv : ¬ P v) (item : Option Item) :
    Unseen P s (s.publishItem v item).1 := by
  unfold publishItem
  split
  · exact .emit s (Action.discreet_publish hv _ true)
  · exact unseen_dataFailure s v

theorem unseen_publishRow {vs : List Variable} (h : ∀ v ∈ vs, ¬ P v) (count : Nat) (c : Cursor) :
    Unseen P s (s.publishRow count c vs).1 := by
  induction vs generalizing s count c with
  | nil => exact .refl s
  | cons v rest ih =>
    rw [List.forall_mem_cons] at h
    exact (unseen_publishItem s h.1 _).trans (ih _ h.2 _ _)

theorem unseen_publishRowAndClear {vs : List Variable} (h : ∀ v ∈ vs, ¬ P v) (count : Nat)
    (c : Cursor) : Unseen P s (s.publishRowAndClear count c vs) := by
  have hr := unseen_publishRow s h count c
  unfold publishRowAndClear
  dsimp only
  split
  · exact hr.trans (.emit _ (Action.discreet_clear (by decide)))
  · exact hr

theorem badResponse_ne_connectivity (request : Request) :
    request.badResponse ≠ .connectivity := by
  cases request <;> decide

theorem unseen_publishPoll {vs : List Variable} (h : ∀ v ∈ vs, ¬ P v) (inbound : Inbound)
    (request : Request) : Unseen P s (s.publishPoll inbound vs request.badResponse) := by
  have hbad := badResponse_ne_connectivity request
  have hfail : ∀ (s : Session), Unseen P s (vs.foldl dataFailure s) := by
    clear h
    induction vs with
    | nil => exact Unseen.refl
    | cons v rest ih => exact fun s => (unseen_dataFailure s v).trans (ih _)
  unfold publishPoll
  split
  · exact (unseen_publishRowAndClear s h _ _).trans (.emit _ (Action.discreet_clear hbad))
  · exact (hfail s).trans (.emit _ (Action.discreet_raise hbad _))

/-! ### Questions -/

theorem unseen_sendWrite (w : PendingWrite) : Unseen P s (s.sendWrite w now) := by
  rw [sendWrite_eq]
  exact .appends rfl (List.forall_mem_singleton.mpr (Action.discreet_send _)) rfl rfl rfl

variable {s}

theorem unseen_enterIdle (hs : s.stopping = false) : Unseen P s (s.enterIdle now) := by
  cases hw : s.pendingWrites with
  | cons w rest =>
    rw [enterIdle_of_pending s now hs hw]
    refine Unseen.trans ?_ (unseen_sendWrite _ now w)
    exact .still rfl rfl rfl rfl
  | nil =>
    rw [enterIdle_of_none_pending s now hs hw]
    refine .still rfl rfl ?_ ?_
    · dsimp only
      split <;> rfl
    · dsimp only
      split <;> rfl

theorem unseen_sendRequest (hs : s.stopping = false) (request : Request) :
    Unseen P s (s.sendRequest request now) := by
  rw [sendRequest_eq s now hs]
  exact .appends rfl (List.forall_mem_singleton.mpr (Action.discreet_send _)) rfl rfl rfl

theorem unseen_startHandshake (hs : s.stopping = false) (request : Request) :
    Unseen P s (s.startHandshake request now) := by
  rw [startHandshake_eq]
  refine Unseen.trans ?_ (unseen_sendRequest now (by exact hs) request)
  exact .still rfl rfl rfl rfl

theorem unseen_afterPoll (hs : s.stopping = false) (request : Request) :
    Unseen P s (s.afterPoll request now) := by
  unfold afterPoll afterStatus
  split
  · split
    · exact unseen_enterIdle now hs
    · exact unseen_sendRequest now hs _
  · exact unseen_enterIdle now hs

variable (s)

theorem unseen_replied : Unseen P s s.replied := by
  rw [replied_eq]
  exact .appends rfl (List.forall_mem_singleton.mpr (Action.discreet_clear (by decide)))
    rfl rfl rfl

variable {s}

/-- Communication is only established on a connection. -/
theorem unseen_completeHandshake (hs : s.stopping = false) (hc : s.connection.link = .connected) :
    Unseen P s (s.completeHandshake now) := by
  rw [completeHandshake_eq]
  refine Unseen.trans ?_ (unseen_enterIdle now (by exact hs))
  refine ⟨rfl, rfl, rfl, fun hd => absurd hc hd, ?_, ?_, [], (List.append_nil _).symm, by simp⟩
  · dsimp only
    split <;> rfl
  · dsimp only
    split <;> rfl

/-! ### Frames, writes and timers -/

theorem unseen_eventReport? (hP : ∀ v, s.catalog.Reads v → ¬ P v) {inbound : Inbound}
    (h : s.eventReport? inbound = some t) : Unseen P s t := by
  have hack : ∀ u : Session, Unseen P u (u.acknowledgeEvent inbound) :=
    fun u => .emit u (Action.discreet_send _)
  unfold eventReport? at h
  split at h
  · cases h
  · split at h
    · cases h
      exact hack s
    · next group hgroup =>
      split at h
      · cases h
      · dsimp only at h
        split at h
        · cases h
        · cases h
          exact hack s
        · cases h
          have hg : ∀ v ∈ group.members, ¬ P v := fun v hv =>
            hP v (.inr ⟨group, List.mem_of_find?_eq_some hgroup, hv⟩)
          exact (unseen_publishRowAndClear s hg _ _).trans (hack _)

variable (s) in
theorem unseen_alarmReport (inbound : Inbound) : Unseen P s (s.alarmReport inbound) := by
  unfold alarmReport
  split
  · exact .emit s (Action.discreet_raise (by decide) none)
  · have hsent := Unseen.emit (P := P) s
      (a := .send (s.parties.reply 5 2 inbound.header.system Body.acceptance))
      (Action.discreet_send _)
    have hclear := hsent.trans
      (.emit _ (a := .clear .badAlarmReport) (Action.discreet_clear (by decide)))
    dsimp only
    split
    · refine hclear.trans (Unseen.trans ?_ (unseen_publishAlarms _))
      exact .still rfl rfl rfl rfl
    · exact hclear

theorem unseen_unsolicited? (hP : ∀ v, s.catalog.Reads v → ¬ P v) {inbound : Inbound}
    (h : s.unsolicited? inbound = some t) : Unseen P s t := by
  unfold unsolicited? at h
  split at h
  · cases h
    exact .emit s (Action.discreet_send _)
  · split at h
    · cases h
      exact .still rfl rfl rfl rfl
    · split at h
      · cases h
        exact unseen_alarmReport s inbound
      · split at h
        · exact unseen_eventReport? hP h
        · cases h

variable {now} in
theorem Answer.unseen {inbound : Inbound} (h : s.Answer inbound now t) (hc : s.Consistent)
    (hs : s.stopping = false) (hP : ∀ v, s.catalog.Reads v → ¬ P v) : Unseen P s t := by
  have hr : Unseen P s s.replied := unseen_replied s
  have hs' : s.replied.stopping = false := hs
  cases h with
  | selected _ _ => exact hr.trans (.still rfl rfl rfl rfl)
  | approached _ _ =>
    have hsent := hr.trans (.emit _ (Action.discreet_send
      (s.parties.reply 1 14 inbound.header.system Body.establishAcknowledge)))
    exact hsent.trans (.still rfl rfl rfl rfl)
  | advanced request next _ _ _ => exact hr.trans (unseen_sendRequest now hs' next)
  | completed request hst _ _ =>
    have hl : s.replied.connection.link = .connected := (hc.live (by simp [hst])).link
    exact hr.trans (unseen_completeHandshake now hs' hl)
  | failed request _ _ _ =>
    have hraised := hr.trans
      (.emit _ (Action.discreet_raise (badResponse_ne_connectivity request) none))
    exact hraised.trans (unseen_afterPoll now (by exact hs') request)
  | polled request _ _ _ _ =>
    have hv : ∀ v ∈ s.catalog.polled request, ¬ P v := fun v hv => hP v (.inl ⟨request, hv⟩)
    have hstop : (s.replied.publishPoll inbound (s.catalog.polled request)
        request.badResponse).stopping = false := by
      obtain ⟨acts, c, he, -⟩ := news_publishPoll s.replied inbound (s.catalog.polled request)
        request.badResponse
      rw [he]
      exact hs
    exact (hr.trans (unseen_publishPoll _ hv inbound request)).trans
      (unseen_afterPoll now hstop request)
  | mismatched request _ _ _ _ => exact hr.trans (.still rfl rfl rfl rfl)
  | written _ _ =>
    have hcleared : Unseen P s ((s.cancel .writeTimeout).clear .writeFailed) :=
      Unseen.trans (.still rfl rfl rfl rfl : Unseen P s (s.cancel .writeTimeout))
        (.emit _ (Action.discreet_clear (by decide)))
    exact hcleared.trans (unseen_enterIdle now (by exact hs))

theorem unseen_handleFrame (hc : s.Consistent) (hs : s.stopping = false)
    (hP : ∀ v, s.catalog.Reads v → ¬ P v) (frame : Bytes) :
    Unseen P s (s.handleFrame now frame) := by
  have hcount : Unseen P s (s.count .framesReceived 1) := .count s _ _
  have hcons : (s.count .framesReceived 1).Consistent := hc.news (News.count s _ _)
  unfold handleFrame
  dsimp only
  split
  · exact hcount.trans (.count _ _ _)
  · next inbound _ =>
    cases hu : (s.count .framesReceived 1).unsolicited? inbound with
    | some t => exact hcount.trans (unseen_unsolicited? hP hu)
    | none =>
      cases hr : (s.count .framesReceived 1).reply? inbound now with
      | some t => exact hcount.trans ((answer_of_reply? hr).unseen hcons hs hP)
      | none =>
        dsimp only [HOrElse.hOrElse, OrElse.orElse, Option.orElse]
        split
        · exact hcount
        · exact hcount.trans (.count _ _ _)

variable (s)

theorem unseen_write (name : String) (value : Value) :
    Unseen P s (s.write name value now).1 := by
  have hclear : ∀ (s : Session) (key : AlertKey), key ≠ .connectivity →
      Unseen P s (s.clear key) := fun s _ h => .emit s (Action.discreet_clear h)
  have hraise : ∀ (s : Session) {key : AlertKey}, key ≠ .connectivity →
      Unseen P s (s.raise key none) := fun s _ h => .emit s (Action.discreet_raise h none)
  unfold write
  split
  · exact hraise s (by simp)
  · have h₁ := hclear s (.notWritable name) (by simp)
    dsimp only
    split
    · exact h₁.trans (hraise _ (by simp))
    · have h₂ := h₁.trans (hclear _ (.notEquipmentConstant name) (by simp))
      split
      · exact h₂.trans (hraise _ (by simp))
      · have h₃ := h₂.trans (hclear _ (.noNumericId name) (by simp))
        split
        · exact h₃
        · split
          · exact h₃
          · split
            · exact h₃.trans (unseen_sendWrite _ now _)
            · exact h₃.trans (.still rfl rfl rfl rfl)

/-! ## What a moment tells -/

/-- What the host is told when the machine is connected or, after a while, disconnected. -/
def pushes (s : Session) (connected : Bool) : List Action :=
  s.catalog.connected.map fun v => .publish v (.flag connected) false

variable {s}

/-- What a moment tells the host of the connection, which leads from `s` to `t`. -/
inductive Bulletin (P : Variable → Prop) (s : Session) (now : Nat) (m : Moment) (t : Session) :
    Prop
  /-- Nothing. -/
  | unseen (hm : m.isFailure = false) (h : Unseen P s t)
  /-- The session is opened. -/
  | launched (hm : m = .opened) (hu : s.Unopened)
      (hc : t.connection = { link := .connecting, opened := true }) (ht : t.timers = s.timers)
      (ho : ∃ acts, t.outbox = s.outbox ++ acts ∧ ∀ a ∈ acts, a.Discreet P)
  /-- The connection comes up: the report that it is down is called off, and the host hears of the
  machine unless it knows. -/
  | connected (hm : m = .connected) (hl : s.connection.link = .connecting)
      (hc : t.connection.link = .connected) (hr : t.connection.reported = true)
      (hp : t.connection.opened = true) (hd : t.timers.disconnectReport = none)
      (ho : ∃ acts, t.outbox = s.outbox ++ Action.clear .connectivity ::
          ((if s.connection.reported then [] else s.pushes true) ++ Action.status true :: acts) ∧
        ∀ a ∈ acts, a.Discreet P)
  /-- An attempt to connect fails, or the connection is lost: the next attempt is set, and the
  report that the machine is disconnected unless it is set already. -/
  | lost (hm : m.isFailure = true ∧ s.connection.link = .connecting ∨
        m.isFailure = false ∧ s.connection.link = .connected)
      (hc : t.connection.link = .disconnected)
      (hr : t.connection.reported = s.connection.reported) (hp : t.connection.opened = true)
      (hd : t.timers.disconnectReport =
        some (s.timers.disconnectReport.getD (now + s.settings.disconnectDelay)))
      (hn : t.timers.reconnect = some (now + reconnectDelay))
      (ho : ∃ acts graceful, t.outbox = s.outbox ++ (acts ++
          [.close graceful, .raise .connectivity none, .status false]) ∧
        ∀ a ∈ acts, a.Discreet P)
  /-- The report that the machine is disconnected is due. -/
  | reported (hm : m = .expiry .disconnectReport)
      (hd : s.timers.isDue now .disconnectReport = true)
      (ht : t = (s.cancel .disconnectReport).reportDisconnected)
  /-- The next attempt to connect is due. -/
  | reconnected (hm : m = .expiry .reconnect) (hd : s.timers.isDue now .reconnect = true)
      (ht : t = (s.cancel .reconnect).reconnect)

/-- A connection is up, and what comes after tells nothing of it. -/
theorem Unseen.bulletin_connected (h : Unseen P u t) (hl : s.connection.link = .connecting)
    (hc : u.connection.link = .connected) (hr : u.connection.reported = true)
    (hp : u.connection.opened = true) (hd : u.timers.disconnectReport = none)
    (ho : u.outbox = s.outbox ++ Action.clear .connectivity ::
      ((if s.connection.reported then [] else s.pushes true) ++ [Action.status true])) :
    Bulletin P s now .connected t := by
  obtain ⟨acts, hout, ha⟩ := h.actions
  refine .connected rfl hl (h.link.trans hc) (h.reported.trans hr) (h.opened.trans hp)
    (h.report.trans hd) ⟨acts, ?_, ha⟩
  rw [hout, ho]
  simp

theorem pushes_untold (s : Session) (b : Bool) :
    ∀ a ∈ s.pushes b, a.status? = none ∧ a.connectivity? = none ∧ a.isTerminate = false := by
  intro a ha
  obtain ⟨v, -, rfl⟩ := List.mem_map.mp ha
  exact ⟨rfl, rfl, rfl⟩

theorem bulletin_connected (ho : s.connection.opened = true) (hs : s.stopping = false)
    (hl : s.connection.link = .connecting) :
    Bulletin P s now .connected (s.connected now) := by
  rw [connected_eq s now ho hs]
  exact (unseen_startHandshake now (by exact hs) _).bulletin_connected now hl rfl rfl ho rfl rfl

/-- What came before tells nothing of the connection, which is given up. -/
theorem Unseen.bulletin_disconnect (h : Unseen P s u) (ho : s.connection.opened = true)
    (hset : u.settings = s.settings) (hs : u.stopping = false)
    (hm : m.isFailure = true ∧ s.connection.link = .connecting ∨
      m.isFailure = false ∧ s.connection.link = .connected) (graceful : Bool) :
    Bulletin P s now m (u.disconnect graceful now) := by
  obtain ⟨acts, hout, ha⟩ := h.actions
  rw [disconnect_eq u now (h.opened.trans ho) hs]
  refine .lost hm rfl h.reported (h.opened.trans ho) ?_ rfl ⟨acts, graceful, ?_, ha⟩
  · rw [← h.report, ← hset]
  · rw [← List.append_assoc, ← hout]

/-- What a timer tells that is due. -/
theorem bulletin_fire (hc : s.Consistent) (hs : s.stopping = false)
    {kind : TimerKind} (hd : s.timers.isDue now kind = true) :
    Bulletin P s now (.expiry kind) ((s.cancel kind).fire kind now) := by
  have harmed := Timers.isArmed_of_isDue hd
  cases kind with
  | reconnect => exact .reconnected rfl hd rfl
  | disconnectReport => exact .reported rfl hd rfl
  | stopGrace =>
    have hstop := hc.sound.stopGrace harmed
    simp [hs] at hstop
  | commTimeout =>
    have hlive := hc.live_of_isArmed hs harmed (by decide) (by decide)
    obtain ⟨request, hr⟩ := hc.sound.asking harmed
    have hretry : (s.cancel .commTimeout).state.retry? = some request := by
      simp [Session.cancel, hr, CommState.retry?]
    simp only [fire, requestOverdue_eq (s.cancel .commTimeout) now hretry]
    have hraised : ∀ retries : Nat, Unseen P s { s.cancel .commTimeout with
        outbox := s.outbox ++ [Action.raise .noResponse none]
        counters := s.counters.add .requestTimeouts 1
        retries } := fun _ =>
      .appends rfl (List.forall_mem_singleton.mpr (Action.discreet_raise (by decide) none))
        rfl rfl rfl
    split
    · exact (hraised 0).bulletin_disconnect now hlive.opened rfl hs (.inr ⟨rfl, hlive.link⟩) true
    · exact .unseen rfl ((hraised _).trans (unseen_sendRequest now (by exact hs) request))
  | establishFallback =>
    refine .unseen rfl (Unseen.trans ?_ (unseen_sendRequest now (by exact hs) .establish))
    exact .still rfl rfl rfl rfl
  | poll =>
    have hcancel : Unseen P s (s.cancel .poll) := .still rfl rfl rfl rfl
    refine .unseen rfl (hcancel.trans ?_)
    simp only [fire, poll]
    repeat' split
    · exact .refl _
    · exact unseen_sendRequest now (by exact hs) _
    · exact unseen_sendRequest now (by exact hs) _
    · exact unseen_enterIdle now (by exact hs)
  | dataComplete => exact .unseen rfl (.still rfl rfl rfl rfl)
  | writeTimeout =>
    have hraised : Unseen P s ((s.cancel .writeTimeout).raise .writeFailed none) :=
      Unseen.trans (.still rfl rfl rfl rfl : Unseen P s (s.cancel .writeTimeout))
        (.emit _ (Action.discreet_raise (by decide) none))
    refine .unseen rfl (hraised.trans ?_)
    simp only [fire, writeOverdue]
    split
    · exact unseen_enterIdle now (by exact hs)
    · exact .refl _
  | separateRequest =>
    simp only [fire, separate_eq]
    exact .unseen rfl
      (.appends rfl (List.forall_mem_singleton.mpr (Action.discreet_send _)) rfl rfl rfl)
  | restartHandshake =>
    refine .unseen rfl (Unseen.trans ?_ (unseen_startHandshake now (by exact hs) .select))
    exact .still rfl rfl rfl rfl
  | linkTest =>
    have hcancel : Unseen P s (s.cancel .linkTest) := .still rfl rfl rfl rfl
    refine .unseen rfl (hcancel.trans ?_)
    simp only [fire, testLink]
    split
    · exact .appends rfl (List.forall_mem_singleton.mpr (Action.discreet_send _)) rfl rfl rfl
    · exact .refl _

/-- What a permitted moment of a consistent session tells until a stop begins. -/
theorem bulletin_advance (hc : s.Consistent) (hs : s.stopping = false)
    (hP : ∀ v, s.catalog.Reads v → ¬ P v) (hm : s.Permits m) (hstop : m ≠ .stop) :
    Bulletin P s now m (s.advance now m) := by
  cases m with
  | stop => exact absurd rfl hstop
  | opened =>
    simp only [advance, launch_eq]
    refine .launched rfl hm rfl rfl ⟨_, List.append_assoc _ _ _, ?_⟩
    rw [List.forall_mem_append, List.forall_mem_append, List.forall_mem_map,
      List.forall_mem_map, List.forall_mem_singleton]
    exact ⟨⟨fun v _ => Action.discreet_publish_array v _ true,
      fun v _ => Action.discreet_publish_array v _ true⟩, Action.discreet_connect⟩
  | connected =>
    have hl : s.connection.link = .connecting := hm
    exact bulletin_connected now (hc.sound.opened (by simp [hl])) hs hl
  | connectFailed =>
    have hl : s.connection.link = .connecting := hm
    exact (Unseen.refl s).bulletin_disconnect now (hc.sound.opened (by simp [hl])) rfl hs
      (.inl ⟨rfl, hl⟩) false
  | socketError =>
    have hl : s.connection.link = .connected := hm
    exact (Unseen.refl s).bulletin_disconnect now (hc.sound.opened (by simp [hl])) rfl hs
      (.inr ⟨rfl, hl⟩) false
  | socketEnd =>
    have hl : s.connection.link = .connected := hm
    have hstart : Unseen P s
        { s with connection := { s.connection with startup := .select } } :=
      ⟨rfl, rfl, rfl, fun _ => rfl, rfl, rfl, [], (List.append_nil _).symm, by simp⟩
    simp only [advance, closedByEquipment]
    rw [if_neg (by simp [hs])]
    exact hstart.bulletin_disconnect now (hc.sound.opened (by simp [hl])) rfl hs
      (.inr ⟨rfl, hl⟩) false
  | arrival received =>
    refine .unseen rfl ?_
    simp only [advance, accept]
    split
    · exact .still rfl rfl rfl rfl
    · exact .still rfl rfl rfl rfl
  | frame frame => exact .unseen rfl (unseen_handleFrame now hc hs hP frame)
  | settled =>
    refine .unseen rfl ?_
    simp only [advance, awaitRest]
    split
    · exact .still rfl rfl rfl rfl
    · exact .still rfl rfl rfl rfl
  | expiry kind =>
    simp only [advance, expire]
    split
    · next hd => exact bulletin_fire now hc hs hd
    · exact .unseen rfl (.refl s)
  | write name value => exact .unseen rfl (unseen_write s now name value)

/-! ## Gain and loss of the connection -/

end Session

namespace Passage

/-- Whether the connection comes up at a passage. -/
def gains (p : Passage) : Bool :=
  !p.before.isConnected && p.after.isConnected

/-- Whether an attempt to connect fails at a passage, or the connection is lost. -/
def loses (p : Passage) : Bool :=
  p.moment.isFailure || p.before.isConnected && !p.after.isConnected

variable {p : Passage}

theorem gains_eq_false (h : p.after.isConnected = p.before.isConnected) : p.gains = false := by
  simp [gains, h]

theorem loses_eq_false (hm : p.moment.isFailure = false)
    (h : p.before.isConnected = true → p.after.isConnected = true) : p.loses = false := by
  simpa [loses, hm] using h

end Passage

namespace Session

variable {P : Variable → Prop} {s t : Session} {now : Nat} {m : Moment}

theorem isConnected_iff : s.isConnected = true ↔ s.connection.link = .connected := by
  simp [isConnected]

theorem Unseen.isConnected (h : Unseen P s t) : t.isConnected = s.isConnected := by
  unfold Session.isConnected
  rw [h.link]

/-- The next attempt to connect is set only without a connection, and brings none at once. -/
theorem Consistent.not_connected_reconnect (hc : s.Consistent)
    (hd : s.timers.isDue now .reconnect = true) :
    s.isConnected = false ∧ (s.cancel .reconnect).reconnect.isConnected = false := by
  have hdown := (hc.sound.reconnect (Timers.isArmed_of_isDue hd)).1
  refine ⟨by simp [Session.isConnected, hdown], ?_⟩
  rw [reconnect_eq]
  split <;> rfl

/-! ## Until a stop begins -/

/-- A session that began as `s₀` and is not being stopped. -/
structure Ongoing (s₀ s : Session) : Prop extends Descends s₀ s where
  settings : s.settings = s₀.settings
  running : s.stopping = false

theorem Ongoing.advance {s₀ : Session} (h : Ongoing s₀ s) (hm : s.Permits m) (hstop : m ≠ .stop) :
    Ongoing s₀ (s.advance now m) := by
  refine ⟨h.toDescends.advance hm, ?_, stopping_advance h.running hstop⟩
  by_cases ho : m = .opened
  · rw [ho, ← h.settings, Session.advance, launch_eq]
  · have hset := setup_advance s now ho hstop
    simp only [setup, Prod.mk.injEq] at hset
    rw [hset.2.2.1, h.settings]

/-- What is true of a session with its past when it is created, and stays true with each permitted
moment, is true at each point of a legal run until a stop begins. -/
theorem record_beforeStop {I : List Passage → Session → Prop} {run : List Occurrence}
    (h : s.Legal run) (hu : s.Unopened)
    (hI : ∀ past t now m, I past t → t.Permits m → m ≠ .stop →
      I (past ++ [⟨t, now, m⟩]) (t.advance now m)) (hs : I [] s) {past future : List Passage}
    (hcut : s.history (beforeStop run) = past ++ future) : I past (s.reached past) := by
  obtain ⟨hchain, hstop⟩ := chain_beforeStop h hu
  rw [hcut] at hchain hstop
  rw [List.forall_mem_append] at hstop
  exact hchain.split.1.record_of (Q := fun p => p.moment ≠ .stop) hI hstop.1 hs

/-- The last of the passages that lead somewhere is the one that was looked for, or it came after
it. -/
theorem cut_concat {past earlier since : List Passage} {p q : Passage}
    (h : past ++ [q] = earlier ++ p :: since) :
    (since = [] ∧ q = p) ∨ ∃ between, since = between ++ [q] ∧ past = earlier ++ p :: between := by
  rcases List.eq_nil_or_concat since with rfl | ⟨between, last, rfl⟩
  · exact .inl ⟨rfl, (List.append_inj' h rfl).2 |> List.singleton_inj.mp⟩
  · rw [List.concat_eq_append, ← List.cons_append, ← List.append_assoc] at *
    obtain ⟨hpast, hlast⟩ := List.append_inj' h rfl
    exact .inr ⟨between, by rw [List.singleton_inj.mp hlast], hpast⟩

end Session

end GemLink
