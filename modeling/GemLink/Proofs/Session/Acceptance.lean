import GemLink.Proofs.Session.Requests
import GemLink.Proofs.Session.Undisturbed
import GemLink.Proofs.Session.Writes

/-!
How a session knows the answer to a request of the handshake or to a write. It waits for the answer
to the request that it sent last, and has done so on this connection ever since (`Awaited`). A frame
that is handled meanwhile ends the wait exactly when it has the stream and the function of the
answer and its code is that of acceptance (`ends_iff_accepted`). The transaction of the frame plays
no part in it, as it does for polls, so that the late answer to one write acknowledges the next
(`not_correlates_lateAcknowledgement`).
-/

namespace GemLink

/-- Whether the answer that is waited for is known by its stream, its function and its code alone:
the answer to a request of the handshake or to a write. -/
def CommState.isUnnumbered : CommState → Bool
  | .awaitingReply request => request.streamFunction?.isSome && !request.isPoll
  | .awaitingWrite => true
  | .idle | .awaitingEquipment => false

/-- The frame that is handled at a moment, if one is. -/
def Moment.handled? : Moment → Option Bytes
  | .frame bytes => some bytes
  | _ => none

namespace Session

variable {s₀ s t : Session} {now : Nat} {m : Moment} {frame : Bytes} {inbound : Inbound}
  {past : List Passage}

/-! ## The request that is answered -/

theorem Asked.congr {state : CommState} (h : s.Asked state frame) (hc : s.catalog = t.catalog)
    (hp : s.parties = t.parties) : t.Asked state frame := by
  cases h with
  | request request transactionId =>
    have he : s.requestFrame request transactionId = t.requestFrame request transactionId := by
      unfold requestFrame
      rw [hc, hp]
    exact he ▸ .request request transactionId
  | write w transactionId =>
    have he : s.writeFrame w transactionId = t.writeFrame w transactionId := by
      unfold writeFrame
      rw [hp]
    exact he ▸ .write w transactionId

/-- The wait in a state began when the last request was sent, and has gone on ever since on the same
connection. -/
def AwaitsLast (s₀ : Session) (past : List Passage) (state : CommState) : Prop :=
  ∃ early p meanwhile sent, past = early ++ p :: meanwhile ∧ sentRequests [p] = [sent] ∧
    s₀.Asked state sent ∧ sentRequests meanwhile = [] ∧
    (∀ r ∈ meanwhile, r.moment ≠ .connected) ∧ ∀ r ∈ p :: meanwhile, r.after.state = state

/-- What holds of a session with a past, if it began as `s₀`: what it waits for is the answer to its
last request. -/
structure Awaited (s₀ : Session) (past : List Passage) (s : Session) : Prop
    extends Descends s₀ s where
  last : s.state ≠ .idle → s.state ≠ .awaitingEquipment → AwaitsLast s₀ past s.state

theorem Unopened.awaited (hu : s.Unopened) : Awaited s [] s :=
  ⟨hu.descends, fun hi => absurd hu.state hi⟩

/-- No connection begins while something is waited for. -/
theorem Consistent.not_connected_of_waiting (h : s.Consistent) (hm : s.Permits m)
    (hs : s.state ≠ .idle) : m ≠ .connected := by
  rintro rfl
  have hl : s.connection.link = .connecting := hm
  simp [(h.live hs).link] at hl

theorem Awaited.advance (h : Awaited s₀ past s) (hm : s.Permits m) :
    Awaited s₀ (past ++ [⟨s, now, m⟩]) (s.advance now m) := by
  have hnext : Descends s₀ (s.advance now m) := h.toDescends.advance hm
  refine ⟨hnext, fun hi he => ?_⟩
  cases h.consistent.exchange now hm with
  | kept hr hs _ =>
    obtain ⟨early, p, meanwhile, sent, rfl, hp, ha, hnone, hsame, hwait⟩ :=
      h.last (hs ▸ hi) (hs ▸ he)
    have hne : m ≠ .connected := h.consistent.not_connected_of_waiting hm (hs ▸ hi)
    refine ⟨early, p, meanwhile ++ [⟨s, now, m⟩], sent, by simp, hp, hs ▸ ha, ?_, ?_, ?_⟩
    · rw [sentRequests_append, hnone, sentRequests_singleton, hr]
      rfl
    · rw [List.forall_mem_append, List.forall_mem_singleton]
      exact ⟨hsame, hne⟩
    · rw [← List.cons_append, List.forall_mem_append, List.forall_mem_singleton]
      exact ⟨fun r hr => (hwait r hr).trans hs.symm, rfl⟩
  | closed _ _ hs _ =>
    rcases hs with hs | hs
    · exact absurd hs hi
    · exact absurd hs he
  | opened _ sent hr ha _ _ =>
    refine ⟨past, ⟨s, now, m⟩, [], sent, rfl, ?_, ?_, rfl, by simp, by simp [Passage.after]⟩
    · rw [sentRequests_singleton, hr]
    · exact ha.congr h.catalog h.parties
  | down _ hl => exact absurd (hnext.consistent.sound.idle hl) hi

/-! ## The answer -/

/-- Whether a session stops waiting for what it waits for at a passage: it waits for something else
then, or it has sent another request. -/
def StopsWaiting (p : Passage) : Prop :=
  p.after.state ≠ p.before.state ∨ sentRequests [p] ≠ []

/-- A frame that does not accept what is waited for leaves the wait as it is. -/
theorem Handled.kept (h : s.Handled now frame t) (hs : s.state.isUnnumbered = true)
    (hn : ∀ inbound, Inbound.read? frame = some inbound → s.state.isAcceptedBy inbound = false) :
    t.state = s.state ∧ ∃ acts, t.outbox = s.outbox ++ acts ∧ requestsIn acts = [] := by
  cases h with
  | heard inbound _ _ h =>
    obtain ⟨acts, ho, ha, hmoves, -⟩ := h.unmoved
    exact ⟨hmoves.state, acts, ho, requestsIn_eq_nil fun a hm => .inl (ha a hm)⟩
  | ignored counters => exact ⟨rfl, [], (List.append_nil _).symm, rfl⟩
  | answered inbound hm _ h =>
    have hno := hn inbound hm
    cases h with
    | selected hs' _ => simp [show s.state = _ from hs', CommState.isUnnumbered,
        Request.streamFunction?] at hs
    | approached hs' _ => simp [show s.state = _ from hs', CommState.isUnnumbered] at hs
    | advanced request _ hs' hc _ =>
      rw [show s.state = _ from hs'] at hno
      exact absurd hc (by simpa [CommState.isAcceptedBy] using hno)
    | completed request hs' hc _ =>
      rw [show s.state = _ from hs'] at hno
      exact absurd hc (by simpa [CommState.isAcceptedBy] using hno)
    | failed request hs' hp _ =>
      simp [show s.state = _ from hs', CommState.isUnnumbered, hp] at hs
    | polled request hs' hp _ _ =>
      simp [show s.state = _ from hs', CommState.isUnnumbered, hp] at hs
    | mismatched request hs' hp _ _ =>
      simp [show s.state = _ from hs', CommState.isUnnumbered, hp] at hs
    | written hs' hc =>
      rw [show s.state = _ from hs'] at hno
      exact absurd hc (by simpa [CommState.isAcceptedBy] using hno)

/-- What is waited for is nothing that the equipment sends of its own accord. -/
theorem unsolicited?_of_awaited {p : UInt8 × UInt8} (hp : p ∈ awaitedMessages)
    (hc : inbound.header.carries p.1 p.2 = true) (s : Session) : s.unsolicited? inbound = none := by
  have hne : ∀ q : UInt8 × UInt8, q ∉ awaitedMessages →
      inbound.header.carries q.1 q.2 = false := by
    intro q hq
    rw [Bool.eq_false_iff]
    intro hc'
    obtain ⟨h₁, h₂⟩ := carries_unique hc hc'
    obtain rfl : p = q := Prod.ext h₁ h₂
    exact hq hp
  simp [unsolicited?, hne (1, 1) (by decide), hne (9, 9) (by decide), hne (5, 1) (by decide),
    hne (6, 11) (by decide)]

theorem awaited_of_state {state : CommState} (hc : state.isAcceptedBy inbound = true) :
    ∃ p ∈ awaitedMessages, inbound.header.carries p.1 p.2 = true := by
  cases state with
  | awaitingReply request => exact awaited_of_isAcceptedBy hc
  | awaitingWrite => exact awaited_of_accepts hc (by decide)
  | idle => cases hc
  | awaitingEquipment => cases hc

/-- An answer that accepts what is waited for is taken for it. -/
theorem reply?_of_isAcceptedBy (hc : s.state.isAcceptedBy inbound = true) (now : Nat) :
    ∃ t, s.reply? inbound now = some t := by
  unfold reply?
  generalize s.state = state at hc
  cases state with
  | idle => cases hc
  | awaitingEquipment => cases hc
  | awaitingWrite => exact ⟨_, if_pos hc⟩
  | awaitingReply request =>
    have hack : ∀ (function : UInt8) (next : Option Request), accepts inbound 2 function = true →
        ∃ t, s.acknowledged? inbound function next now = some t := by
      intro function next ha
      unfold acknowledged?
      rw [if_pos ha]
      cases next <;> exact ⟨_, rfl⟩
    cases request with
    | establish => exact ⟨_, if_pos hc⟩
    | enableAlarms =>
      have ha : (accepts inbound 5 4 || accepts inbound 5 0) = true := hc
      simp only [ha, if_true]
      split <;> exact ⟨_, rfl⟩
    | deleteReports => exact hack 34 _ hc
    | defineReports => exact hack 34 _ hc
    | linkReports => exact hack 36 _ hc
    | enableEvents => exact hack 38 _ hc
    | select => cases hc
    | statusVariables => cases hc
    | equipmentConstants => cases hc

theorem answer_of_isAcceptedBy (hm : Inbound.read? frame = some inbound)
    (hc : s.state.isAcceptedBy inbound = true) (now : Nat) :
    (s.count .framesReceived 1).Answer inbound now (s.handleFrame now frame) := by
  obtain ⟨p, hp, hcarries⟩ := awaited_of_state hc
  obtain ⟨t, ht⟩ := reply?_of_isAcceptedBy (s := s.count .framesReceived 1) hc now
  have hh : s.handleFrame now frame = t := by
    unfold handleFrame
    simp only [hm, unsolicited?_of_awaited hp hcarries, ht]
    rfl
  rw [hh]
  exact answer_of_reply? ht

/-- When nothing is open a session rests or waits for the acknowledgement of a write. -/
theorem enterIdle_state (s : Session) (now : Nat) (ho : s.connection.opened = true) :
    (s.enterIdle now).state = .idle ∨
      ∃ w rest, s.pendingWrites = w :: rest ∧ (s.enterIdle now).state = .awaitingWrite ∧
        (s.enterIdle now).outbox = s.outbox ++ [.send (s.writeFrame w s.nextTransaction)] := by
  cases hp : s.stopping with
  | true =>
    rw [enterIdle_of_stopping s now hp]
    left
    rw [finishStop_eq { s with state := .idle } ho]
  | false =>
    cases hw : s.pendingWrites with
    | nil =>
      rw [enterIdle_of_none_pending s now hp hw]
      exact .inl rfl
    | cons w rest =>
      rw [enterIdle_of_pending s now hp hw]
      exact .inr ⟨w, rest, rfl, rfl, rfl⟩

theorem completeHandshake_state (s : Session) (now : Nat) (ho : s.connection.opened = true) :
    (s.completeHandshake now).state = .idle ∨ (s.completeHandshake now).state = .awaitingWrite := by
  rw [completeHandshake_eq]
  refine (enterIdle_state _ now ?_).imp_right ?_
  · exact ho
  · rintro ⟨_, _, _, hw, _⟩
    exact hw

theorem ne_of_following? {c : Catalog} {request next : Request}
    (h : c.following? request = some next) : next ≠ request := by
  cases request with
  | establish =>
    cases h
    decide
  | enableAlarms =>
    unfold Catalog.following? at h
    dsimp only at h
    split at h
    · cases h
      decide
    · cases h
  | deleteReports =>
    cases h
    decide
  | defineReports =>
    cases h
    decide
  | linkReports =>
    cases h
    decide
  | select => cases h
  | enableEvents => cases h
  | statusVariables => cases h
  | equipmentConstants => cases h

/-- After an answer that accepts what was waited for something else is waited for, or the next write
has been sent. -/
theorem Consistent.stopsWaiting (h : s.Consistent) (hm : Inbound.read? frame = some inbound)
    (hc : s.state.isAcceptedBy inbound = true) (now : Nat) :
    StopsWaiting ⟨s, now, .frame frame⟩ := by
  have ha := answer_of_isAcceptedBy hm hc now
  have hne : s.state ≠ .idle := fun hi => by simp [hi, CommState.isAcceptedBy] at hc
  have ho : s.connection.opened = true := (h.live hne).opened
  have hpoll : ∀ request, s.state = .awaitingReply request → ¬ request.isPoll = true := by
    intro request hs hp
    rw [hs] at hc
    simp [isPoll_of_isAcceptedBy hc] at hp
  unfold StopsWaiting
  show (s.handleFrame now frame).state ≠ s.state ∨ _
  generalize ht : s.handleFrame now frame = t at ha
  cases ha with
  | advanced request next hs _ hn =>
    left
    rw [show s.state = _ from hs]
    cases hp : s.stopping with
    | true =>
      rw [sendRequest_of_stopping _ now (by exact hp), finishStop_eq _ (by exact ho)]
      simp
    | false =>
      rw [sendRequest_eq _ now (by exact hp)]
      simpa using ne_of_following? hn
  | completed request hs _ _ =>
    left
    have hend := completeHandshake_state (s.count .framesReceived 1).replied now ho
    rw [show s.state = _ from hs]
    rcases hend with hi | hw
    · rw [hi]
      simp
    · rw [hw]
      simp
  | written hs _ =>
    rcases enterIdle_state (((s.count .framesReceived 1).cancel .writeTimeout).clear .writeFailed)
      now (by exact ho) with hi | ⟨w, _, _, _, hout⟩
    · left
      rw [hi, show s.state = _ from hs]
      simp
    · right
      have hacts : (s.advance now (.frame frame)).outbox =
          s.outbox ++ ([.clear .writeFailed] ++
            [.send (s.writeFrame w s.nextTransaction)]) := by
        show (s.handleFrame now frame).outbox = _
        rw [ht, hout, ← List.append_assoc]
        rfl
      rw [sentRequests_singleton, actions_advance hacts, requestsIn_append,
        requestsIn_send (isRequest_writeFrame s w _)]
      simp
  | selected hs _ =>
    simp [show s.state = _ from hs, CommState.isAcceptedBy, Request.isAcceptedBy] at hc
  | approached hs _ => simp [show s.state = _ from hs, CommState.isAcceptedBy] at hc
  | failed request hs hp _ => exact absurd hp (hpoll request hs)
  | polled request hs hp _ _ => exact absurd hp (hpoll request hs)
  | mismatched request hs hp _ _ => exact absurd hp (hpoll request hs)

/-! ## Runs -/

/-- In every legal run, when a frame is handled while the answer to a request of the handshake or to
a write is waited for, that request was sent last and has been waited for ever since on this
connection, and the frame ends the wait exactly when it has the stream and the function of the
answer and its code is that of acceptance. -/
theorem ends_iff_accepted (machine : String) (model : Model) (catalog : Catalog)
    (run : List Occurrence) (h : (ofCatalog machine model catalog).Legal run) :
    let s₀ := ofCatalog machine model catalog
    ∀ past q future frame, s₀.history run = past ++ q :: future → q.moment = .frame frame →
      q.before.state.isUnnumbered = true →
        AwaitsLast s₀ past q.before.state ∧
          (StopsWaiting q ↔ ∃ inbound, Inbound.read? frame = some inbound ∧
            q.before.state.isAcceptedBy inbound = true) := by
  rintro s₀ past ⟨s, now, m⟩ future frame hhist rfl hs
  have hu : s₀.Unopened := unopened_ofCatalog machine model catalog
  have hchain := chain_history h hu
  rw [hhist] at hchain
  obtain ⟨rfl, -, -⟩ := hchain.middle
  have hawaited : Awaited s₀ past (s₀.reached past) :=
    hchain.split.1.record (fun _ _ _ _ hI hm => hI.advance hm) hu.awaited
  replace hs : (s₀.reached past).state.isUnnumbered = true := hs
  refine ⟨hawaited.last ?_ ?_, ?_, ?_⟩
  · intro hi
    rw [hi] at hs
    cases hs
  · intro he
    rw [he] at hs
    cases hs
  · -- a frame that is not accepted changes nothing, by contraposition
    intro hstop
    by_contra hno
    obtain ⟨hstate, acts, ho, hr⟩ := (handled_handleFrame (s₀.reached past) now frame).kept hs
      fun inbound hm => by
        rw [Bool.eq_false_iff]
        exact fun hc => hno ⟨inbound, hm, hc⟩
    have hacts : Passage.actions ⟨s₀.reached past, now, .frame frame⟩ = acts := actions_eq ho
    rcases hstop with hne | hsent
    · exact hne hstate
    · rw [sentRequests_singleton, hacts] at hsent
      exact hsent hr
  · rintro ⟨inbound, hm, hc⟩
    exact hawaited.consistent.stopsWaiting hm hc now

/-- A write is not acknowledged in time. The answer to it comes when the next one has been sent. -/
def lateAcknowledgement : List Occurrence :=
  openTalk ++ [(600, .write "setpoint" (.int 1)), (2600, .timer),
    (2700, .write "setpoint" (.int 2)),
    (2800, .data [0, 0, 0, 13, 0, 0, 2, 16, 0, 0, 0, 0, 0, 3, 33, 1, 0])]

theorem ends_iff_accepted_lateAcknowledgement :
    let s₀ := ofCatalog "press" {} pressCatalog
    s₀.Legal lateAcknowledgement ∧
      ((s₀.history lateAcknowledgement).countP fun q =>
        q.before.state.isUnnumbered && q.moment.handled?.isSome) = 3 ∧
      ∀ past q future frame, s₀.history lateAcknowledgement = past ++ q :: future →
        q.moment = .frame frame → q.before.state.isUnnumbered = true →
          AwaitsLast s₀ past q.before.state ∧
            (StopsWaiting q ↔ ∃ inbound, Inbound.read? frame = some inbound ∧
              q.before.state.isAcceptedBy inbound = true) := by
  intro s₀
  have h : s₀.Legal lateAcknowledgement := by decide +kernel
  exact ⟨h, by decide +kernel,
    ends_iff_accepted "press" {} pressCatalog lateAcknowledgement h⟩

/-- Whether in a run of a session every answer to a request of the handshake or to a write that ends
the wait for it bears the transaction of the request that was sent last. -/
def Correlates (s : Session) (run : List Occurrence) : Prop :=
  ∀ past q future frame, s.history run = past ++ q :: future → q.moment.handled? = some frame →
    q.before.state.isUnnumbered = true → StopsWaiting q →
      transactionId? frame = (sentRequests past).getLast?.bind transactionId?

theorem lt_length_lateAcknowledgement :
    16 < ((ofCatalog "press" {} pressCatalog).history lateAcknowledgement).length := by
  decide +kernel

/-- The late answer to one write acknowledges the next. -/
theorem not_correlates_lateAcknowledgement :
    let s := ofCatalog "press" {} pressCatalog
    s.Legal lateAcknowledgement ∧ ¬ s.Correlates lateAcknowledgement := by
  intro s
  refine ⟨by decide +kernel, fun h => ?_⟩
  have hid := h _ _ _ [0, 0, 0, 13, 0, 0, 2, 16, 0, 0, 0, 0, 0, 3, 33, 1, 0]
    (eq_cut lt_length_lateAcknowledgement) (by decide +kernel) (by decide +kernel)
    (.inl (by decide +kernel))
  revert hid
  decide +kernel

end Session

end GemLink
