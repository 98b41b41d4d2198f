import GemLink.Proofs.Session.Frames

/-!
The exchanges of a session. A request is a frame that wants an answer to what it asks, and while a
session waits for the answer the exchange is open (`Asked`). `Ends` lists how the wait for an answer
ends of itself, by the answer or by its time running out, and `Exchange` what a moment does to the
exchange that is open: it keeps it, closes it, opens the next one, or leaves no connection. Every
course is one of these (`Course.exchange`), so that no moment sends more than one request.
-/

namespace GemLink

/-- The request that an action sends, if it sends one. -/
def Action.request? : Action → Option Bytes
  | .send frame => if isRequest frame then some frame else none
  | _ => none

/-- The requests that actions send, in order. -/
def requestsIn (acts : List Action) : List Bytes :=
  acts.filterMap Action.request?

@[simp] theorem requestsIn_nil : requestsIn [] = [] :=
  rfl

@[simp] theorem requestsIn_append (acts acts' : List Action) :
    requestsIn (acts ++ acts') = requestsIn acts ++ requestsIn acts' :=
  List.filterMap_append

theorem requestsIn_send {frame : Bytes} (h : isRequest frame = true) :
    requestsIn [.send frame] = [frame] := by
  simp [requestsIn, Action.request?, h]

/-- What is mute asks nothing, and neither does what begins or ends a connection. -/
theorem requestsIn_eq_nil {acts : List Action}
    (h : ∀ a ∈ acts, a.isMute = true ∨ a.isLink = true) : requestsIn acts = [] := by
  unfold requestsIn
  rw [List.filterMap_eq_nil_iff]
  intro a ha
  cases a with
  | send frame =>
    have hm : isRequest frame = false := by
      simpa [Action.isMute, Action.isLink] using h _ ha
    simp [Action.request?, hm]
  | _ => rfl

/-- Whether a message is an answer that ends a wait by its stream, its function and its code alone,
as the answers to the requests of a handshake and to a write do. -/
def CommState.isAcceptedBy (m : Inbound) : CommState → Bool
  | .awaitingReply request => request.isAcceptedBy m
  | .awaitingWrite => Session.accepts m 2 16
  | .idle | .awaitingEquipment => false

namespace Session

theorem isRequest_requestFrame (s : Session) (request : Request) (transactionId : UInt16) :
    isRequest (s.requestFrame request transactionId) = true := by
  unfold isRequest
  rw [Bool.or_eq_true]
  cases request with
  | select =>
    right
    unfold requestFrame
    rw [s.parties.hasSession_control]
    rfl
  | _ =>
    left
    exact isPrimary_of_carries ((carries_requestFrame s _ _).trans (beq_self_eq_true _)) rfl

theorem isRequest_writeFrame (s : Session) (w : PendingWrite) (transactionId : UInt16) :
    isRequest (s.writeFrame w transactionId) = true := by
  unfold isRequest
  have hc : carries 2 15 (s.writeFrame w transactionId) = true := carries_writeFrame s w _
  rw [isPrimary_of_carries hc rfl, Bool.true_or]

/-! ## Exchanges -/

/-- A frame opens the exchange that a session of these parties and variables waits in. -/
inductive Asked (s : Session) : CommState → Bytes → Prop
  | request (request : Request) (transactionId : UInt16) :
      Asked s (.awaitingReply request) (s.requestFrame request transactionId)
  | write (w : PendingWrite) (transactionId : UInt16) :
      Asked s .awaitingWrite (s.writeFrame w transactionId)

/-- How the wait of a session ends: by the answer it waits for, or by its time running out. -/
inductive Ends (s : Session) (now : Nat) : Moment → Prop
  /-- The communication is opened. -/
  | selected (frame : Bytes) (inbound : Inbound) (hm : Inbound.read? frame = some inbound)
      (hs : s.state = .awaitingReply .select) (hc : inbound.isSelectResponse = true) :
      Ends s now (.frame frame)
  /-- A request of the handshake or a write is accepted. -/
  | accepted (frame : Bytes) (inbound : Inbound) (hm : Inbound.read? frame = some inbound)
      (hc : s.state.isAcceptedBy inbound = true) : Ends s now (.frame frame)
  /-- A poll has failed or is answered. -/
  | polled (frame : Bytes) (inbound : Inbound) (hm : Inbound.read? frame = some inbound)
      (request : Request) (hs : s.state = .awaitingReply request) (hp : request.isPoll = true)
      (hr : inbound.isFailedTransaction = true ∨ s.Fulfils (.frame frame) request) :
      Ends s now (.frame frame)
  /-- The answer to a request is overdue. -/
  | unanswered (request : Request) (hs : s.state = .awaitingReply request)
      (hd : s.timers.isDue now .commTimeout = true) : Ends s now (.expiry .commTimeout)
  /-- The acknowledgement of a write is overdue. -/
  | unacknowledged (hs : s.state = .awaitingWrite)
      (hd : s.timers.isDue now .writeTimeout = true) : Ends s now (.expiry .writeTimeout)

/-- The communication begins anew, whatever is open. -/
def Restarts (s : Session) (now : Nat) (m : Moment) : Prop :=
  m = .expiry .restartHandshake ∧ s.timers.isDue now .restartHandshake = true

/-- Why an exchange can be opened: a connection begins, nothing is open, what was open ends, or the
communication begins anew. -/
inductive Opens (s : Session) (now : Nat) (m : Moment) : Prop
  | begun (hm : m = .connected)
  | free (hs : s.state = .idle ∨ s.state = .awaitingEquipment)
  | ended (h : s.Ends now m)
  | restarted (h : s.Restarts now m)

/-- What a moment with its actions does to the exchange that is open. -/
inductive Exchange (s : Session) (now : Nat) (m : Moment) (acts : List Action) (t : Session) : Prop
  | kept (hr : requestsIn acts = []) (hs : t.state = s.state)
      (hl : t.connection.link = s.connection.link)
  | closed (why : s.Ends now m) (hr : requestsIn acts = [])
      (hs : t.state = .idle ∨ t.state = .awaitingEquipment)
      (hl : t.connection.link = s.connection.link)
  | opened (why : s.Opens now m) (frame : Bytes) (hr : requestsIn acts = [frame])
      (ha : s.Asked t.state frame) (hs : s.connection.link = .connected ∨ m = .connected)
      (hl : t.connection.link = .connected)
  | down (hr : requestsIn acts = []) (hl : t.connection.link ≠ .connected)

variable {s t : Session} {now : Nat} {m : Moment} {calls : List (String × Value)}
  {acts before : List Action} {request : Request}

theorem Asks.opens (why : s.Asks now m request) : s.Opens now m := by
  cases why with
  | begun _ => exact .begun rfl
  | restarted hd => exact .restarted ⟨rfl, hd⟩
  | overdue request hs hd => exact .ended (.unanswered request hs hd)
  | unapproached hs _ => exact .free (.inr hs)
  | advanced frame inbound hm request _ hs hc _ =>
    exact .ended (.accepted frame inbound hm (by rw [hs]; exact hc))
  | due _ _ hs _ _ => exact .free (.inl hs)
  | followed frame inbound hm hs hr =>
    exact .ended (.polled frame inbound hm .statusVariables hs rfl hr)

/-- When nothing is open any more, what was open has ended, or nothing was. -/
theorem Frees.ends_or_idle (why : s.Frees now m before) : s.Ends now m ∨ s.state = .idle := by
  cases why with
  | completed frame inbound hm request hs hc _ =>
    exact .inl (.accepted frame inbound hm (by rw [hs]; exact hc))
  | polled frame inbound hm request hs hp hr =>
    exact .inl (.polled frame inbound hm request hs hp hr)
  | written frame inbound hm hs hc => exact .inl (.accepted frame inbound hm (by rw [hs]; exact hc))
  | overdue hs hd => exact .inl (.unacknowledged hs hd)
  | unpolled hs _ => exact .inr hs

theorem Allows.isMute {a : Action} (h : s.Allows m a) : a.isMute = true := by
  rcases h with hn | ⟨_, _, _, _, _, _, rfl⟩
  · exact hn.1
  · rfl

theorem requestsIn_of_neutral (h : ∀ a ∈ acts, s.Neutral a) : requestsIn acts = [] :=
  requestsIn_eq_nil fun a ha => .inl (h a ha).1

theorem requestsIn_of_allows (h : ∀ a ∈ acts, s.Allows m a) : requestsIn acts = [] :=
  requestsIn_eq_nil fun a ha => .inl (h a ha).isMute

/-- What a course does to the exchange that is open. -/
theorem Course.exchange (hc : s.Course now m calls acts t) (h : s.Consistent) :
    s.Exchange now m acts t := by
  have hwrite : ∀ (before : List Action) (w : PendingWrite), requestsIn before = [] →
      requestsIn (before ++ [.send (s.writeFrame w s.nextTransaction)]) =
        [s.writeFrame w s.nextTransaction] := by
    intro before w hb
    rw [requestsIn_append, hb, requestsIn_send (isRequest_writeFrame s w _), List.nil_append]
  cases hc with
  | unmoved _ _ _ ha hmoves _ => exact .kept (requestsIn_of_neutral ha) hmoves.state hmoves.link
  | selected frame inbound hm hr hc hs _ _ ha hmoves =>
    subst hm
    exact .closed (.selected frame inbound hr hs hc) (requestsIn_of_neutral ha)
      (.inr hmoves.state) hmoves.link
  | asked hp before request _ why ha hl hs _ _ _ =>
    refine .opened why.opens (s.requestFrame request s.nextTransaction) ?_ ?_ ?_ hl
    · rw [requestsIn_append, requestsIn_of_allows ha,
        requestsIn_send (isRequest_requestFrame s request _), List.nil_append]
    · rw [hs]
      exact .request request _
    · exact (why.link h hp).imp_right And.left
  | rested _ _ _ why ha _ hmoves =>
    rcases why.ends_or_idle with he | hs
    · exact .closed he (requestsIn_of_allows ha) (.inl hmoves.state) hmoves.link
    · exact .kept (requestsIn_of_allows ha) (hmoves.state.trans hs.symm) hmoves.link
  | drained hp before _ why ha w rest _ hmoves =>
    have hl : s.connection.link = .connected := why.link h hp
    have hopen : s.Opens now m := by
      rcases why.ends_or_idle with he | hs
      · exact .ended he
      · exact .free (.inl hs)
    refine .opened hopen _ (hwrite before w (requestsIn_of_allows ha)) ?_ (.inl hl)
      (hmoves.link.trans hl)
    rw [hmoves.state]
    exact .write w _
  | posted _ _ _ w _ hl hs before _ ha hmoves =>
    refine .opened (.free (.inl hs)) _ (hwrite before w (requestsIn_of_neutral ha)) ?_ (.inl hl)
      (hmoves.link.trans hl)
    rw [hmoves.state]
    exact .write w _
  | queued _ _ _ _ _ _ _ _ _ ha hmoves _ =>
    exact .kept (requestsIn_of_neutral ha) hmoves.state hmoves.link
  | lost _ _ before ha graceful _ hl =>
    refine .down ?_ (by simp [hl])
    rw [requestsIn_append, requestsIn_of_neutral ha]
    rfl
  | down _ _ _ ha hl => exact .down (requestsIn_eq_nil fun a hm => (ha a hm).imp_left (·.isMute)) hl
  | halted _ _ _ hmoves => exact .kept rfl hmoves.state hmoves.link

/-! ## What is sent -/

/-- The requests that are sent at passages, in order. -/
def sentRequests (ps : List Passage) : List Bytes :=
  ps.flatMap fun p => requestsIn p.actions

@[simp] theorem sentRequests_nil : sentRequests [] = [] :=
  rfl

@[simp] theorem sentRequests_append (ps qs : List Passage) :
    sentRequests (ps ++ qs) = sentRequests ps ++ sentRequests qs :=
  List.flatMap_append

theorem sentRequests_cons (p : Passage) (ps : List Passage) :
    sentRequests (p :: ps) = requestsIn p.actions ++ sentRequests ps :=
  List.flatMap_cons

theorem sentRequests_singleton (p : Passage) : sentRequests [p] = requestsIn p.actions :=
  List.flatMap_singleton _ _

/-- What a permitted moment does to the exchange that is open. -/
theorem Consistent.exchange (h : s.Consistent) (now : Nat) (hm : s.Permits m) :
    s.Exchange now m (Passage.actions ⟨s, now, m⟩) (s.advance now m) := by
  obtain ⟨acts, ho, hc⟩ := course_advance h now hm
  rw [actions_advance ho]
  exact hc.exchange h

end Session

end GemLink
