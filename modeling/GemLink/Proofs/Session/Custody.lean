import GemLink.Driver.Site
import GemLink.Proofs.Session.Acceptance
import GemLink.Proofs.Session.Reception

/-!
What becomes of received bytes. The front of a frame waits until more bytes arrive, and nothing but
the loss of the connection and a rest that is overdue makes an end of it; then it is counted as
discarded (`front_advance`). Bytes that arrive are discarded only as a whole chunk, which is the case
when they do not fit together with the front that waits.

So the frames of a stream are handled as they were sent, however the stream is cut into chunks, as
long as each chunk fits (`handlesSent_iff_chunksFit`). How many bytes are read at once is not up to
the session, though: small frames that arrive together may make a chunk that does not fit, and are
lost with it (`not_handlesSent_coalescedAnswers`).
-/

namespace GemLink

/-- Whether an action stores that the connection is lost. -/
def Action.isLoss : Action → Bool
  | .status false => true
  | _ => false

/-- The bytes that are received at an event, if any are. -/
def SessionEvent.received? : SessionEvent → Option Bytes
  | .data received => some received
  | _ => none

theorem SessionEvent.eq_data_of_received? {event : SessionEvent} {received : Bytes}
    (h : event.received? = some received) : event = .data received := by
  cases event with
  | data _ =>
    cases h
    rfl
  | _ => cases h

/-- Whether the front of a frame is given up at a moment: its rest is overdue, or the connection is
lost. -/
def Passage.givesUpFront (p : Passage) : Bool :=
  match p.moment with
  | .arrival _ | .frame _ | .settled => false
  | .expiry .dataComplete => p.before.timers.isDue p.now .dataComplete
  | _ => p.actions.any Action.isLoss

namespace Session

/-- `t` has the waiting bytes of `s` and the same count of discarded bytes. -/
structure KeepsFront (s t : Session) : Prop where
  buffer : t.buffer = s.buffer
  discarded : t.counters.bytesDiscarded = s.counters.bytesDiscarded

/-- `t` has discarded the waiting bytes of `s`. -/
structure DropsFront (s t : Session) : Prop where
  buffer : t.buffer = s.buffer.clear
  discarded : t.counters.bytesDiscarded = s.counters.bytesDiscarded + s.buffer.bytes.length

/-- `t` has given up the connection of `s`, and with it the waiting bytes. -/
structure LosesFront (s t : Session) : Prop extends DropsFront s t where
  loss : ∃ acts, t.outbox = s.outbox ++ acts ∧ acts.any Action.isLoss = true

namespace KeepsFront

theorem refl (s : Session) : KeepsFront s s :=
  ⟨rfl, rfl⟩

theorem trans {s t u : Session} (h : KeepsFront s t) (h' : KeepsFront t u) : KeepsFront s u :=
  ⟨h'.buffer.trans h.buffer, h'.discarded.trans h.discarded⟩

/-- What does not look at the front does not touch it. -/
theorem of_apply (f : Session → Session)
    (hf : ∀ (g : FrontChange) (s : Session), f (g.apply s) = g.apply (f s)) (s : Session) :
    KeepsFront s (f s) := by
  have h : f s = (FrontChange.keep s).apply (f s) := hf (FrontChange.keep s) s
  exact ⟨congrArg (·.buffer) h, congrArg (·.counters.bytesDiscarded) h⟩

end KeepsFront

variable (s : Session) (now : Nat)

/-! ## Questions -/

theorem keepsFront_finishStop : KeepsFront s s.finishStop :=
  .of_apply (·.finishStop) (fun g s => g.finishStop s) s

theorem keepsFront_enterIdle : KeepsFront s (s.enterIdle now) :=
  .of_apply (·.enterIdle now) (fun g s => g.enterIdle s now) s

theorem keepsFront_sendRequest (request : Request) :
    KeepsFront s (s.sendRequest request now) :=
  .of_apply (·.sendRequest request now) (fun g s => g.sendRequest s now request) s

theorem keepsFront_startHandshake (request : Request) :
    KeepsFront s (s.startHandshake request now) := by
  rw [startHandshake_eq]
  refine KeepsFront.trans ?_ (keepsFront_sendRequest _ now request)
  exact ⟨rfl, rfl⟩

theorem keepsFront_poll : KeepsFront s (s.poll now) := by
  unfold poll
  split
  · exact .refl s
  · split
    · exact keepsFront_sendRequest s now _
    · split
      · exact keepsFront_sendRequest s now _
      · exact keepsFront_enterIdle s now

theorem keepsFront_testLink : KeepsFront s (s.testLink now) := by
  unfold testLink
  split
  · exact ⟨rfl, rfl⟩
  · exact .refl s

theorem keepsFront_writeOverdue : KeepsFront s (s.writeOverdue now) := by
  rw [writeOverdue_eq]
  dsimp only
  split
  · refine KeepsFront.trans ?_ (keepsFront_enterIdle _ now)
    exact ⟨rfl, rfl⟩
  · exact ⟨rfl, rfl⟩

theorem keepsFront_write (name : String) (value : Value) :
    KeepsFront s (s.write name value now).1 := by
  have hw := called_write s name value now
  generalize s.write name value now = r at hw
  cases hw with
  | refused _ ht =>
    obtain ⟨acts, rfl, -⟩ := ht
    exact ⟨rfl, rfl⟩
  | sent _ ht _ _ w _ =>
    obtain ⟨acts, rfl, -⟩ := ht
    exact ⟨rfl, rfl⟩
  | queued _ ht _ _ w _ =>
    obtain ⟨acts, rfl, -⟩ := ht
    exact ⟨rfl, rfl⟩

/-! ## The connection -/

theorem keepsFront_connected : KeepsFront s (s.connected now) := by
  by_cases h : (!s.connection.opened || s.stopping) = true
  · unfold connected
    rw [if_pos h]
    exact .refl s
  · obtain ⟨ho, hs⟩ : s.connection.opened = true ∧ s.stopping = false := by simpa using h
    rw [connected_eq s now ho hs]
    refine KeepsFront.trans ?_ (keepsFront_startHandshake _ now _)
    exact ⟨rfl, rfl⟩

theorem keepsFront_reconnect : KeepsFront s s.reconnect := by
  rw [reconnect_eq]
  split
  · exact ⟨rfl, rfl⟩
  · exact ⟨rfl, rfl⟩

theorem keepsFront_beginStop : KeepsFront s (s.beginStop now) := by
  unfold beginStop
  split
  · exact .refl s
  · dsimp only
    split
    · exact ⟨rfl, rfl⟩
    · refine KeepsFront.trans ?_ (keepsFront_finishStop _)
      exact ⟨rfl, rfl⟩

/-- A connection that is given up takes the front of a frame with it. -/
theorem front_disconnect (graceful : Bool) :
    KeepsFront s (s.disconnect graceful now) ∨ LosesFront s (s.disconnect graceful now) := by
  cases ho : s.connection.opened with
  | false =>
    unfold disconnect
    rw [if_pos (by simp [ho])]
    exact .inl (.refl s)
  | true =>
    cases hs : s.stopping with
    | true =>
      rw [disconnect_of_stopping s now hs]
      exact .inl (keepsFront_finishStop s)
    | false =>
      rw [disconnect_eq s now ho hs]
      exact .inr ⟨⟨rfl, rfl⟩, _, rfl, rfl⟩

theorem front_closedByEquipment :
    KeepsFront s (s.closedByEquipment now) ∨ LosesFront s (s.closedByEquipment now) := by
  unfold closedByEquipment
  split
  · exact .inl (keepsFront_finishStop s)
  · rcases front_disconnect
      { s with connection := { s.connection with startup := .select } } now false with hk | hl
    · exact .inl ⟨hk.buffer, hk.discarded⟩
    · exact .inr ⟨⟨hl.buffer, hl.discarded⟩, hl.loss⟩

theorem front_requestOverdue :
    KeepsFront s (s.requestOverdue now) ∨ LosesFront s (s.requestOverdue now) := by
  have hcount : KeepsFront s ((s.count .requestTimeouts 1).raise .noResponse none) := ⟨rfl, rfl⟩
  have hout : ((s.count .requestTimeouts 1).raise .noResponse none).outbox =
      s.outbox ++ [.raise .noResponse none] := rfl
  unfold requestOverdue
  generalize (s.count .requestTimeouts 1).raise .noResponse none = t at hcount hout
  dsimp only
  split
  · rcases front_disconnect { t with retries := 0 } now true with hk | hl
    · exact .inl (hcount.trans ⟨hk.buffer, hk.discarded⟩)
    · obtain ⟨acts, ho, ha⟩ := hl.loss
      refine .inr ⟨⟨?_, ?_⟩, .raise .noResponse none :: acts, ?_, ?_⟩
      · rw [hl.buffer, ← hcount.buffer]
      · rw [hl.discarded, ← hcount.discarded, ← hcount.buffer]
      · rw [ho, hout, List.append_assoc]
        rfl
      · rw [List.any_cons, ha, Bool.or_true]
  · left
    split
    · refine hcount.trans (KeepsFront.trans ?_ (keepsFront_sendRequest _ now _))
      exact ⟨rfl, rfl⟩
    · refine hcount.trans (KeepsFront.trans ?_ (keepsFront_enterIdle _ now))
      exact ⟨rfl, rfl⟩

/-! ## Moments -/

theorem front_fire {kind : TimerKind} (hk : kind ≠ .dataComplete) :
    KeepsFront s (s.fire kind now) ∨ LosesFront s (s.fire kind now) := by
  cases kind with
  | commTimeout => exact front_requestOverdue s now
  | establishFallback => exact .inl (keepsFront_sendRequest s now .establish)
  | poll => exact .inl (keepsFront_poll s now)
  | dataComplete => exact absurd rfl hk
  | writeTimeout => exact .inl (keepsFront_writeOverdue s now)
  | reconnect => exact .inl (keepsFront_reconnect s)
  | separateRequest => exact .inl ⟨rfl, rfl⟩
  | restartHandshake => exact .inl (keepsFront_startHandshake s now .select)
  | linkTest => exact .inl (keepsFront_testLink s now)
  | disconnectReport =>
    left
    unfold fire
    rw [reportDisconnected_eq]
    exact ⟨rfl, rfl⟩
  | stopGrace => exact .inl (keepsFront_finishStop s)

theorem keepsFront_awaitRest : KeepsFront s (s.awaitRest now) := by
  rw [awaitRest_eq]
  exact ⟨rfl, rfl⟩

theorem keepsFront_handleFrames (frames : List Bytes) :
    KeepsFront s (frames.foldl (handleFrame now) s) :=
  .of_apply (frames.foldl (handleFrame now)) (fun g s => g.handleFrames s now frames) s

variable {s now}

theorem LosesFront.isLoss {m : Moment} (h : LosesFront s (s.advance now m)) :
    (Passage.actions ⟨s, now, m⟩).any Action.isLoss = true := by
  obtain ⟨acts, ho, ha⟩ := h.loss
  rw [actions_advance ho, ha]

theorem givesUpFront_expiry {kind : TimerKind} (hk : kind ≠ .dataComplete) :
    Passage.givesUpFront ⟨s, now, .expiry kind⟩ =
      (Passage.actions ⟨s, now, .expiry kind⟩).any Action.isLoss := by
  cases kind with
  | dataComplete => exact absurd rfl hk
  | _ => rfl

/-- Unless bytes arrive, the front of a frame is kept, or it is given up and discarded. -/
theorem front_advance (s : Session) (now : Nat) {m : Moment}
    (hm : ∀ received, m ≠ .arrival received) :
    KeepsFront s (s.advance now m) ∨
      DropsFront s (s.advance now m) ∧ Passage.givesUpFront ⟨s, now, m⟩ = true := by
  cases m with
  | opened =>
    left
    unfold advance
    rw [launch_eq]
    exact ⟨rfl, rfl⟩
  | connected => exact .inl (keepsFront_connected s now)
  | connectFailed =>
    exact (front_disconnect s now false).imp_right fun hl => ⟨hl.toDropsFront, hl.isLoss⟩
  | socketError =>
    exact (front_disconnect s now false).imp_right fun hl => ⟨hl.toDropsFront, hl.isLoss⟩
  | socketEnd =>
    exact (front_closedByEquipment s now).imp_right fun hl => ⟨hl.toDropsFront, hl.isLoss⟩
  | arrival received => exact absurd rfl (hm received)
  | frame frame => exact .inl (keepsFront_handleFrames s now [frame])
  | settled => exact .inl (keepsFront_awaitRest s now)
  | expiry kind =>
    by_cases hd : s.timers.isDue now kind = true
    · have he : s.advance now (.expiry kind) = (s.cancel kind).fire kind now := if_pos hd
      by_cases hk : kind = .dataComplete
      · subst hk
        rw [he]
        exact .inr ⟨⟨rfl, rfl⟩, hd⟩
      · rw [givesUpFront_expiry hk]
        rcases front_fire (s.cancel kind) now hk with hkept | hl
        · rw [he]
          exact .inl ⟨hkept.buffer, hkept.discarded⟩
        · have hlost : LosesFront s (s.advance now (.expiry kind)) := by
            rw [he]
            exact ⟨⟨hl.buffer, hl.discarded⟩, hl.loss⟩
          exact .inr ⟨hlost.toDropsFront, hlost.isLoss⟩
    · left
      have he : s.advance now (.expiry kind) = s := if_neg hd
      rw [he]
      exact .refl s
  | write name value => exact .inl (keepsFront_write s now name value)
  | stop => exact .inl (keepsFront_beginStop s now)

/-- Bytes that fit are cut into frames together with those that wait. -/
theorem arrival_of_le {received : Bytes}
    (h : s.buffer.bytes.length + received.length ≤ s.buffer.capacity) :
    s.advance now (.arrival received) =
      { s with buffer := (s.buffer.extend received).drain.2 } := by
  have ha : s.advance now (.arrival received) =
      { s.accept received with buffer := (s.accept received).buffer.drain.2 } := rfl
  rw [ha, accept_of_le h]

theorem arrival_of_lt {received : Bytes}
    (h : s.buffer.capacity < s.buffer.bytes.length + received.length) :
    s.advance now (.arrival received) =
      { s.count .bytesDiscarded received.length with buffer := s.buffer.drain.2 } := by
  have ha : s.advance now (.arrival received) =
      { s.accept received with buffer := (s.accept received).buffer.drain.2 } := rfl
  rw [ha, accept_of_lt h]
  rfl

/-- `t` comes later than `s`: what may wait is the same for ever, and the count of discarded bytes
never falls. -/
structure Precedes (s t : Session) : Prop where
  capacity : t.buffer.capacity = s.buffer.capacity
  discarded : s.counters.bytesDiscarded ≤ t.counters.bytesDiscarded

namespace Precedes

theorem refl (s : Session) : Precedes s s :=
  ⟨rfl, Nat.le_refl _⟩

theorem trans {s t u : Session} (h : Precedes s t) (h' : Precedes t u) : Precedes s u :=
  ⟨h'.capacity.trans h.capacity, Nat.le_trans h.discarded h'.discarded⟩

end Precedes

theorem precedes_advance (s : Session) (now : Nat) (m : Moment) :
    Precedes s (s.advance now m) := by
  by_cases hm : ∃ received, m = .arrival received
  · obtain ⟨received, rfl⟩ := hm
    rcases Nat.lt_or_ge s.buffer.capacity (s.buffer.bytes.length + received.length) with hf | hf
    · rw [arrival_of_lt hf]
      exact ⟨FrameBuffer.capacity_drain _, Nat.le_add_right _ _⟩
    · rw [arrival_of_le hf]
      exact ⟨FrameBuffer.capacity_drain _, Nat.le_refl _⟩
  · rcases front_advance s now fun received hr => hm ⟨received, hr⟩ with hk | ⟨hd, -⟩
    · exact ⟨by rw [hk.buffer], Nat.le_of_eq hk.discarded.symm⟩
    · refine ⟨by rw [hd.buffer]; rfl, ?_⟩
      rw [hd.discarded]
      exact Nat.le_add_right _ _

/-! ## Events -/

theorem precedes_step (s : Session) (now : Nat) (event : SessionEvent) :
    Precedes s (s.step now event) := by
  rw [step_eq_foldl]
  generalize s.moments now event = ms
  induction ms generalizing s with
  | nil => exact .refl s
  | cons m rest ih => exact (precedes_advance s now m).trans (ih _)

theorem precedes_after (s : Session) (run : List Occurrence) : Precedes s (s.after run) := by
  unfold after
  induction run generalizing s with
  | nil => exact .refl s
  | cons o rest ih => exact (precedes_step s o.1 o.2).trans (ih _)

theorem ne_arrival_of_mem_moments (s : Session) (now : Nat) {event : SessionEvent}
    (he : event.received? = none) :
    ∀ m ∈ s.moments now event, ∀ received, m ≠ .arrival received := by
  rintro m hm received rfl
  cases event with
  | data received => cases he
  | timer =>
    obtain ⟨kind, -, hk⟩ := List.mem_map.mp hm
    cases hk
  | _ => cases List.mem_singleton.mp hm

/-- An event that delivers nothing and does not give up the front of a frame keeps it. -/
theorem keepsFront_step {event : SessionEvent} (he : event.received? = none)
    (hk : ∀ p ∈ s.passages now (s.moments now event), p.givesUpFront = false) :
    KeepsFront s (s.step now event) := by
  have hm := ne_arrival_of_mem_moments s now he
  rw [step_eq_foldl]
  generalize s.moments now event = ms at hk hm
  induction ms generalizing s with
  | nil => exact .refl s
  | cons m rest ih =>
    rw [List.forall_mem_cons] at hm
    unfold passages at hk
    rw [List.forall_mem_cons] at hk
    refine KeepsFront.trans ?_ (ih hk.2 hm.2)
    rcases front_advance s now hm.1 with hkept | ⟨-, hg⟩
    · exact hkept
    · rw [hk.1] at hg
      cases hg

theorem discarded_receive_of_le {received : Bytes}
    (h : s.buffer.bytes.length + received.length ≤ s.buffer.capacity) :
    (s.receive received now).counters.bytesDiscarded = s.counters.bytesDiscarded := by
  rw [receive_eq h, (keepsFront_awaitRest _ now).discarded]
  exact (keepsFront_handleFrames s now _).discarded

theorem discarded_receive_of_lt {received : Bytes}
    (h : s.buffer.capacity < s.buffer.bytes.length + received.length) :
    (s.receive received now).counters.bytesDiscarded =
      s.counters.bytesDiscarded + received.length := by
  unfold receive
  rw [accept_of_lt h]
  dsimp only
  rw [(keepsFront_awaitRest _ now).discarded, (keepsFront_handleFrames _ now _).discarded]
  rfl

/-! ## Runs -/

/-- The chunks that a run delivers, in order. -/
def deliveries (run : List Occurrence) : List Bytes :=
  run.filterMap fun o => o.2.received?

theorem flatten_deliveries_cons (o : Occurrence) (rest : List Occurrence) :
    (deliveries (o :: rest)).flatten = o.2.received?.getD [] ++ (deliveries rest).flatten := by
  obtain ⟨now, event⟩ := o
  cases event with
  | data received => rfl
  | _ => rfl

/-- The frames that are handled in passages, in order. -/
def handledFrames (ps : List Passage) : List Bytes :=
  ps.filterMap fun p => p.moment.handled?

/-- Whether each chunk that a run delivers fits when it arrives, together with the front of a frame
that waits then. -/
def ChunksFit (capacity : Nat) (s : Session) : List Occurrence → Prop
  | [] => True
  | (now, event) :: rest =>
    (∀ received ∈ event.received?, s.buffer.bytes.length + received.length ≤ capacity) ∧
      ChunksFit capacity (s.step now event) rest

instance decidableChunksFit : (capacity : Nat) → (s : Session) → (run : List Occurrence) →
    Decidable (ChunksFit capacity s run)
  | _, _, [] => isTrue trivial
  | capacity, s, (now, event) :: rest =>
    @instDecidableAnd _ _ (inferInstanceAs (Decidable (∀ received ∈ event.received?, _ ≤ _)))
      (decidableChunksFit capacity (s.step now event) rest)

/-- Whether a session handles exactly the given frames in a run, in order, and discards no byte. -/
def HandlesSent (s : Session) (run : List Occurrence) (frames : List Bytes) : Prop :=
  handledFrames (s.history run) = frames ∧
    (s.after run).counters.bytesDiscarded = s.counters.bytesDiscarded

instance (s : Session) (run : List Occurrence) (frames : List Bytes) :
    Decidable (s.HandlesSent run frames) :=
  inferInstanceAs (Decidable (_ ∧ _))

theorem handledFrames_passages (s : Session) (now : Nat) (ms : List Moment) :
    handledFrames (s.passages now ms) = ms.filterMap Moment.handled? := by
  induction ms generalizing s with
  | nil => rfl
  | cons m rest ih =>
    have hr := ih (s.advance now m)
    unfold handledFrames at hr ⊢
    unfold passages
    rw [List.filterMap_cons, List.filterMap_cons, hr]

theorem handled_moments_of_none {event : SessionEvent} (he : event.received? = none) :
    (s.moments now event).filterMap Moment.handled? = [] := by
  rw [List.filterMap_eq_nil_iff]
  intro m hm
  cases event with
  | data received => cases he
  | timer =>
    obtain ⟨kind, -, rfl⟩ := List.mem_map.mp hm
    rfl
  | _ =>
    rw [List.mem_singleton.mp hm]
    rfl

/-- The frames that are handled at a delivery are those of what waits, and of the bytes that come if
they fit. -/
theorem handled_moments_delivery (received : Bytes) :
    (s.moments now (.data received)).filterMap Moment.handled? =
      (s.accept received).buffer.drain.1 := by
  have hf : Moment.handled? ∘ Moment.frame = some := rfl
  rw [moments, List.filterMap_cons_none rfl, List.filterMap_append, List.filterMap_map, hf,
    List.filterMap_some]
  exact List.append_nil _

theorem handled_moments_data {received : Bytes}
    (h : s.buffer.bytes.length + received.length ≤ s.buffer.capacity) :
    (s.moments now (.data received)).filterMap Moment.handled? =
      (s.buffer.extend received).drain.1 := by
  rw [handled_moments_delivery, accept_of_le h]

/-- Between `s` and `t` the given bytes have been received and the given frames handled: they are
those of what waited and these bytes, and nothing has been discarded. -/
structure Handles (s t : Session) (received : Bytes) (frames : List Bytes) : Prop where
  cut : (s.buffer.extend received).drain = (frames, t.buffer)
  discarded : t.counters.bytesDiscarded = s.counters.bytesDiscarded

namespace Handles

variable {t u : Session} {received others : Bytes} {frames more : List Bytes}

theorem of_keepsFront (hn : s.buffer.next? = none) (h : KeepsFront s t) : Handles s t [] [] := by
  refine ⟨?_, h.discarded⟩
  rw [FrameBuffer.extend_nil, FrameBuffer.drain_of_none hn, h.buffer]

theorem of_receive (h : s.buffer.bytes.length + received.length ≤ s.buffer.capacity) :
    Handles s (s.receive received now) received (s.buffer.extend received).drain.1 := by
  refine ⟨?_, discarded_receive_of_le h⟩
  rw [buffer_receive _ h]

/-- No whole frame waits. -/
theorem next?_eq_none (h : Handles s t received frames) : t.buffer.next? = none := by
  have hn := (s.buffer.extend received).next?_drain
  rwa [h.cut] at hn

theorem trans (h : Handles s t received frames) (h' : Handles t u others more) :
    Handles s u (received ++ others) (frames ++ more) := by
  refine ⟨?_, h'.discarded.trans h.discarded⟩
  rw [← FrameBuffer.extend_extend, FrameBuffer.drain_extend, h.cut, h'.cut]

end Handles

/-- At an event that delivers at most a chunk that fits, and does not give up the front of a frame,
the frames of what waited and the chunk are handled. -/
theorem handles_step {event : SessionEvent} (hn : s.buffer.next? = none)
    (hf : ∀ received ∈ event.received?,
      s.buffer.bytes.length + received.length ≤ s.buffer.capacity)
    (hk : ∀ p ∈ s.passages now (s.moments now event), p.givesUpFront = false) :
    Handles s (s.step now event) (event.received?.getD [])
      (handledFrames (s.passages now (s.moments now event))) := by
  rw [handledFrames_passages]
  cases he : event.received? with
  | none =>
    rw [handled_moments_of_none he]
    exact .of_keepsFront hn (keepsFront_step he hk)
  | some received =>
    obtain rfl := SessionEvent.eq_data_of_received? he
    have hfit := hf received rfl
    rw [handled_moments_data hfit]
    exact .of_receive hfit

/-- As long as each chunk fits and the front of no frame is given up, the frames that are handled
are those of all bytes that are delivered. -/
theorem handles_after {capacity : Nat} {run : List Occurrence} (hc : s.buffer.capacity = capacity)
    (hn : s.buffer.next? = none) (hk : ∀ p ∈ s.history run, p.givesUpFront = false)
    (hf : ChunksFit capacity s run) :
    Handles s (s.after run) (deliveries run).flatten (handledFrames (s.history run)) := by
  induction run generalizing s with
  | nil => exact .of_keepsFront hn (.refl s)
  | cons o rest ih =>
    obtain ⟨now, event⟩ := o
    obtain ⟨hfit, hrest⟩ := hf
    unfold history at hk
    rw [List.forall_mem_append] at hk
    have hstep := handles_step hn (hc ▸ hfit) hk.1
    have hcap := (precedes_step s now event).capacity.trans hc
    have hafter := hstep.trans (ih hcap hstep.next?_eq_none hk.2 hrest)
    have hhandled : handledFrames (s.history ((now, event) :: rest)) =
        handledFrames (s.passages now (s.moments now event)) ++
          handledFrames ((s.step now event).history rest) := List.filterMap_append
    rw [flatten_deliveries_cons, hhandled]
    exact hafter

/-- Where no byte is discarded, each chunk has fitted. -/
theorem chunksFit_of_discarded_eq {capacity : Nat} {run : List Occurrence}
    (hc : s.buffer.capacity = capacity) (hne : ∀ chunk ∈ deliveries run, chunk ≠ [])
    (h : (s.after run).counters.bytesDiscarded = s.counters.bytesDiscarded) :
    ChunksFit capacity s run := by
  induction run generalizing s with
  | nil => trivial
  | cons o rest ih =>
    obtain ⟨now, event⟩ := o
    have hstep := (precedes_step s now event).discarded
    have hafter := (precedes_after (s.step now event) rest).discarded
    have hcons : s.after ((now, event) :: rest) = (s.step now event).after rest := rfl
    rw [hcons] at h
    refine ⟨fun received hr => ?_, ?_⟩
    · obtain rfl := SessionEvent.eq_data_of_received? hr
      by_contra hlt
      rw [← hc, Nat.not_le] at hlt
      have hpos : 0 < received.length := by
        rw [List.length_pos_iff]
        exact hne received List.mem_cons_self
      have hdiscarded : (s.step now (.data received)).counters.bytesDiscarded =
          s.counters.bytesDiscarded + received.length := discarded_receive_of_lt hlt
      omega
    · refine ih ((precedes_step s now event).capacity.trans hc) (fun chunk hchunk => ?_) (by omega)
      exact hne chunk ((List.sublist_cons_self _ _).filterMap _ |>.subset hchunk)

/-- A row of frames that a session receives in chunks, with nothing in front of it, is handled frame
by frame and without loss exactly if each chunk fits when it arrives, together with the front of a
frame that waits then, provided that the front of no frame is given up. -/
theorem handlesSent_iff_chunksFit (machine : String) (model : Model) (catalog : Catalog)
    (before run : List Occurrence) (frames : List Bytes)
    (hempty : ((ofCatalog machine model catalog).after before).buffer.bytes = [])
    (hframes : ∀ frame ∈ frames, IsFrame frame ∧ bodyOffset ≤ frame.length)
    (hsent : (deliveries run).flatten = frames.flatten)
    (hchunks : ∀ chunk ∈ deliveries run, chunk ≠ [])
    (hkept : ∀ p ∈ ((ofCatalog machine model catalog).after before).history run,
      p.givesUpFront = false) :
    ((ofCatalog machine model catalog).after before).HandlesSent run frames ↔
      ChunksFit catalog.receiveSize ((ofCatalog machine model catalog).after before) run := by
  have hc : ((ofCatalog machine model catalog).after before).buffer.capacity =
      catalog.receiveSize :=
    (precedes_after _ before).capacity
  generalize (ofCatalog machine model catalog).after before = s at *
  constructor
  · exact fun h => chunksFit_of_discarded_eq hc hchunks h.2
  · intro hf
    obtain ⟨hcut, hdiscarded⟩ :=
      handles_after hc (FrameBuffer.next?_of_empty hempty) hkept hf
    have hwhole : (s.buffer.extend (deliveries run).flatten).drain =
        (frames, (s.buffer.extend (deliveries run).flatten).clear) := by
      refine FrameBuffer.drain_of_flatten ?_ fun frame hframe => ?_
      · rw [FrameBuffer.extend, hempty, hsent, List.nil_append]
      · obtain ⟨hi, hl⟩ := hframes frame hframe
        exact ⟨hi, Nat.lt_of_lt_of_le (by decide) hl⟩
    rw [hwhole] at hcut
    exact ⟨(congrArg Prod.fst hcut).symm, hdiscarded⟩

/-- The answer to a link test. -/
def linkTestAnswer : Bytes :=
  [0, 0, 0, 10, 0xFF, 0xFF, 0, 0, 0, 6, 0, 0, 0, 1]

/-- The communication is opened and the link test answered, in chunks that end inside a length and
inside a header. -/
def raggedStream : List Occurrence :=
  [(10, .data [0, 0]), (400, .timer),
    (450, .data [0, 10, 0xFF, 0xFF, 0, 0, 0, 2, 0, 0, 0, 1, 0, 0, 0, 10, 0xFF]),
    (460, .data [0xFF, 0, 0, 0, 6, 0, 0, 0, 1])]

theorem handlesSent_raggedStream :
    let s := (ofCatalog "press" {} {}).after [(0, .opened), (5, .connected)]
    (s.after raggedStream).state = .awaitingEquipment ∧
      ChunksFit ({} : Catalog).receiveSize s raggedStream ∧
      s.HandlesSent raggedStream
        [[0, 0, 0, 10, 0xFF, 0xFF, 0, 0, 0, 2, 0, 0, 0, 1], linkTestAnswer] := by
  intro s
  have hfit : ChunksFit ({} : Catalog).receiveSize s raggedStream := by decide +kernel
  refine ⟨by decide +kernel, hfit, ?_⟩
  exact (handlesSent_iff_chunksFit "press" {} {} [(0, .opened), (5, .connected)] raggedStream _
    (by decide +kernel) (by decide) (by decide) (by decide) (by decide +kernel)).mpr hfit

/-- Eleven answers to link tests, read at once. -/
def coalescedAnswers : List Occurrence :=
  [(10, .data (List.replicate 11 linkTestAnswer).flatten)]

/-- Each of the answers would fit alone; together they are discarded. -/
theorem not_handlesSent_coalescedAnswers :
    let s := (ofCatalog "press" {} {}).after [(0, .opened), (5, .connected)]
    let frames := List.replicate 11 linkTestAnswer
    s.buffer.bytes = [] ∧
      (∀ frame ∈ frames, IsFrame frame ∧ bodyOffset ≤ frame.length ∧
        frame.length ≤ ({} : Catalog).receiveSize) ∧
      (deliveries coalescedAnswers).flatten = frames.flatten ∧
      (∀ chunk ∈ deliveries coalescedAnswers, chunk ≠ [] ∧ chunk.length ≤ readChunk) ∧
      (∀ p ∈ s.history coalescedAnswers, p.givesUpFront = false) ∧
      (s.after coalescedAnswers).counters.bytesDiscarded = 154 ∧
      ¬s.HandlesSent coalescedAnswers frames := by
  decide +kernel

end Session

end GemLink
