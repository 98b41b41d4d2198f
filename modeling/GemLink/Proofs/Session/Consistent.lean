import GemLink.Proofs.Session.Run

/-!
An invariant of a session over all its moments. `Sound` holds during a stop as well, and `Settled`
until one begins; together they are `Consistent`, which every permitted moment keeps
(`Consistent.advance`).

It is shown first for the operations that end a handler (`consistent_finishStop`,
`consistent_disconnect`, `consistent_sendRequest`, `consistent_enterIdle`), each from what its
callers have seen to. All that the callers have to show is that the connection is `Live`, what the
handshake has come to and which timers they have disarmed.
-/

namespace GemLink.Session

/-! ## The invariant -/

/-- What holds at every point, during a stop as well. -/
structure Sound (s : Session) : Prop where
  idle : s.connection.link ≠ .connected → s.state = .idle
  incomplete : s.connection.link ≠ .connected → s.handshakeComplete = false
  opened : s.connection.link ≠ .disconnected → s.connection.opened = true
  established : s.connection.link = .connected → s.handshakeComplete = s.state.isEstablished
  asking : s.timers.isArmed .commTimeout = true → ∃ request, s.state = .awaitingReply request
  reconnect : s.timers.isArmed .reconnect = true →
    s.connection.link = .disconnected ∧ s.connection.opened = true
  stopGrace : s.timers.isArmed .stopGrace = true → s.stopping = true

/-- What holds besides until a stop begins. -/
structure Settled (s : Session) : Prop where
  noWrites : s.connection.link ≠ .connected → s.pendingWrites = []
  noBytes : s.connection.link ≠ .connected → s.buffer.bytes = []
  fewTimers : s.connection.link ≠ .connected →
    ∀ kind, s.timers.isArmed kind = true → kind = .reconnect ∨ kind = .disconnectReport
  reconnecting : s.connection.opened = true → s.connection.link = .disconnected →
    s.timers.isArmed .reconnect = true
  resting : s.connection.link = .connected → s.state = .idle →
    s.pendingWrites = [] ∧ s.timers.isArmed .poll = true
  fallback : s.connection.link = .connected →
    (s.timers.isArmed .establishFallback = true ↔ s.state = .awaitingEquipment)
  writing : s.state = .awaitingWrite → s.timers.isArmed .writeTimeout = true
  polling : s.timers.isArmed .poll = true ∨ s.timers.isArmed .linkTest = true →
    s.handshakeComplete = true

/-- What every permitted moment keeps. -/
structure Consistent (s : Session) : Prop where
  sound : s.Sound
  settled : s.stopping = false → s.Settled

/-- The invariant speaks of no more than these parts of a session. -/
theorem Consistent.congr {s t : Session} (h : s.Consistent)
    (hc : t.connection.link = s.connection.link) (ho : t.connection.opened = s.connection.opened)
    (hs : t.state = s.state) (hh : t.handshakeComplete = s.handshakeComplete)
    (ht : t.timers = s.timers) (hw : t.pendingWrites = s.pendingWrites)
    (hb : s.connection.link ≠ .connected → s.buffer.bytes = [] → t.buffer.bytes = [])
    (hp : t.stopping = s.stopping) : t.Consistent := by
  obtain ⟨⟨h1, h2, h3, h4, h5, h6, h7⟩, hset⟩ := h
  constructor
  · constructor <;> simpa only [hc, ho, hs, hh, ht, hp]
  · intro hp'
    obtain ⟨g1, g2, g3, g4, g5, g6, g7, g8⟩ := hset (hp ▸ hp')
    have hb' : t.connection.link ≠ .connected → t.buffer.bytes = [] := by
      rw [hc]
      exact fun hd => hb hd (g2 hd)
    refine ⟨?_, hb', ?_, ?_, ?_, ?_, ?_, ?_⟩ <;> simpa only [hc, ho, hs, hh, ht, hw]

theorem Consistent.news {s t : Session} (h : s.Consistent) (hn : News s t) : t.Consistent := by
  obtain ⟨acts, c, rfl, -⟩ := hn
  exact h.congr rfl rfl rfl rfl rfl rfl (fun _ hb => hb) rfl

/-- Timers that no clause asks to be armed may be armed on a connection and disarmed at any time. -/
theorem Consistent.retime {s : Session} (h : s.Consistent) {t : Timers}
    (hsame : ∀ kind, kind = .poll ∨ kind = .establishFallback ∨ kind = .writeTimeout ∨
      kind = .reconnect → t.isArmed kind = s.timers.isArmed kind)
    (hless : ∀ kind, kind = .commTimeout ∨ kind = .linkTest ∨ kind = .stopGrace →
      t.isArmed kind = true → s.timers.isArmed kind = true)
    (hdown : s.stopping = false → s.connection.link ≠ .connected →
      ∀ kind, t.isArmed kind = true → s.timers.isArmed kind = true) :
    { s with timers := t }.Consistent := by
  obtain ⟨⟨h1, h2, h3, h4, h5, h6, h7⟩, hset⟩ := h
  have hp := hsame .poll (by simp)
  have hf := hsame .establishFallback (by simp)
  have hw := hsame .writeTimeout (by simp)
  have hr := hsame .reconnect (by simp)
  constructor
  · refine ⟨h1, h2, h3, h4, fun ha => h5 (hless _ (by simp) ha), fun ha => h6 ?_,
      fun ha => h7 (hless _ (by simp) ha)⟩
    rwa [← hr]
  · intro hs
    obtain ⟨g1, g2, g3, g4, g5, g6, g7, g8⟩ := hset hs
    refine ⟨g1, g2, fun hc kind hk => g3 hc kind (hdown hs hc kind hk), ?_, ?_, ?_, ?_, ?_⟩
    · simpa only [hr] using g4
    · simpa only [hp] using g5
    · simpa only [hf] using g6
    · simpa only [hw] using g7
    · rintro (ha | ha)
      · exact g8 (.inl (hp ▸ ha))
      · exact g8 (.inr (hless _ (by simp) ha))

theorem Sound.cancel {s : Session} (h : s.Sound) (kind : TimerKind) : (s.cancel kind).Sound := by
  obtain ⟨h1, h2, h3, h4, h5, h6, h7⟩ := h
  refine ⟨h1, h2, h3, h4, ?_, ?_, ?_⟩ <;> intro ha
  · exact h5 (by simpa [Session.cancel] using ha : _ ∧ _).2
  · exact h6 (by simpa [Session.cancel] using ha : _ ∧ _).2
  · exact h7 (by simpa [Session.cancel] using ha : _ ∧ _).2

/-- A timer may be disarmed unless a clause asks for it. -/
theorem Consistent.cancel {s : Session} (h : s.Consistent) (kind : TimerKind)
    (hp : kind = .poll → s.stopping = false → s.state ≠ .idle) (hf : kind ≠ .establishFallback)
    (hw : kind = .writeTimeout → s.state ≠ .awaitingWrite) (hr : kind ≠ .reconnect) :
    (s.cancel kind).Consistent := by
  refine ⟨h.sound.cancel kind, fun hs => ?_⟩
  obtain ⟨g1, g2, g3, g4, g5, g6, g7, g8⟩ := h.settled hs
  have hle : ∀ other, (s.timers.cancel kind).isArmed other = true →
      s.timers.isArmed other = true := fun other ha => (by simpa using ha : _ ∧ _).2
  refine ⟨g1, g2, fun hc other ha => g3 hc other (hle other ha), ?_, ?_, ?_, ?_, ?_⟩
  · simpa [Session.cancel, hr.symm] using g4
  · intro hc hi
    refine ⟨(g5 hc hi).1, ?_⟩
    have hk : kind ≠ .poll := fun hk => hp hk hs hi
    simpa [Session.cancel, hk.symm] using (g5 hc hi).2
  · simpa [Session.cancel, hf.symm] using g6
  · intro hi
    have hk : kind ≠ .writeTimeout := fun hk => hw hk hi
    simpa [Session.cancel, hk.symm] using g7 hi
  · exact fun ha => g8 (ha.imp (hle _) (hle _))

/-- A timer that nothing waits for may be disarmed at any time. -/
theorem Consistent.cancel_of_unneeded {s : Session} (h : s.Consistent) (kind : TimerKind)
    (hk : kind ≠ .poll ∧ kind ≠ .establishFallback ∧ kind ≠ .writeTimeout ∧ kind ≠ .reconnect) :
    (s.cancel kind).Consistent := by
  obtain ⟨hp, hf, hw, hr⟩ := hk
  exact h.cancel kind (fun h => absurd h hp) hf (fun h => absurd h hw) hr

theorem Consistent.arm {s : Session} (h : s.Consistent) (kind : TimerKind) (deadline : Nat)
    (hk : kind = .dataComplete ∨ kind = .separateRequest ∨ kind = .restartHandshake)
    (hc : s.stopping = false → s.connection.link = .connected) :
    (s.arm kind deadline).Consistent := by
  refine h.retime ?_ ?_ (fun hs hd => absurd (hc hs) hd)
  · rintro other (rfl | rfl | rfl | rfl) <;> rcases hk with rfl | rfl | rfl <;> simp
  · rintro other (rfl | rfl | rfl) <;> rcases hk with rfl | rfl | rfl <;> simp

/-! ## The operations that end a handler -/

/-- A connection on which questions can be asked. -/
structure Live (s : Session) : Prop where
  link : s.connection.link = .connected
  opened : s.connection.opened = true
  reconnect : s.timers.isArmed .reconnect = false
  stopGrace : s.timers.isArmed .stopGrace = true → s.stopping = true

theorem Sound.live {s : Session} (h : s.Sound) (hc : s.connection.link = .connected) : s.Live where
  link := hc
  opened := h.opened (by simp [hc])
  reconnect := by
    cases hr : s.timers.isArmed .reconnect with
    | false => rfl
    | true =>
      obtain ⟨hd, -⟩ := h.reconnect hr
      simp [hc] at hd
  stopGrace := h.stopGrace

variable {s : Session} {now : Nat}

/-- What is left to show of a live connection: what waits, and which timers watch over it. -/
theorem Live.consistent (hl : s.Live) (he : s.handshakeComplete = s.state.isEstablished)
    (ha : s.timers.isArmed .commTimeout = true → ∃ request, s.state = .awaitingReply request)
    (hi : s.state = .idle → s.pendingWrites = [] ∧ s.timers.isArmed .poll = true)
    (hf : s.stopping = false →
      (s.timers.isArmed .establishFallback = true ↔ s.state = .awaitingEquipment))
    (hw : s.state = .awaitingWrite → s.stopping = false → s.timers.isArmed .writeTimeout = true)
    (hp : s.stopping = false → s.timers.isArmed .poll = true ∨ s.timers.isArmed .linkTest = true →
      s.handshakeComplete = true) : s.Consistent := by
  have hup : ∀ {p : Prop}, s.connection.link ≠ .connected → p := fun hd => absurd hl.link hd
  refine ⟨?_, fun hs => ?_⟩
  · refine ⟨hup, hup, fun _ => hl.opened, fun _ => he, ha, fun hr => ?_, hl.stopGrace⟩
    rw [hl.reconnect] at hr
    cases hr
  · refine ⟨hup, hup, hup, fun _ hd => ?_, fun _ => hi, fun _ => hf hs, fun h => hw h hs, hp hs⟩
    rw [hl.link] at hd
    cases hd

theorem consistent_finishStop (ho : s.connection.opened = true) (hs : s.stopping = true) :
    s.finishStop.Consistent := by
  rw [finishStop_eq s ho]
  constructor
  · constructor <;> simp
  · simp [hs]

theorem consistent_disconnect (ho : s.connection.opened = true) (graceful : Bool) :
    (s.disconnect graceful now).Consistent := by
  cases hs : s.stopping with
  | true =>
    rw [disconnect_of_stopping s now hs]
    exact consistent_finishStop ho hs
  | false =>
    rw [disconnect_eq s now ho hs]
    constructor
    · constructor <;> simp [ho, Timers.isArmed, Timers.deadline?]
    · intro _
      constructor <;> simp [FrameBuffer.clear, Timers.isArmed, Timers.deadline?]
      intro kind
      cases kind <;> simp

/-- A request may be sent on a live connection, polls when communication is established and the
others when it is not. -/
theorem consistent_sendRequest (hl : s.Live) (request : Request)
    (he : s.handshakeComplete = request.isPoll)
    (hp : s.stopping = false → s.timers.isArmed .poll = true ∨ s.timers.isArmed .linkTest = true →
      s.handshakeComplete = true) : (s.sendRequest request now).Consistent := by
  cases hs : s.stopping with
  | true =>
    rw [sendRequest_of_stopping s now hs]
    exact consistent_finishStop hl.opened hs
  | false =>
    rw [sendRequest_eq s now hs]
    apply Live.consistent
    · exact ⟨hl.link, hl.opened, by simp [hl.reconnect], by simpa using hl.stopGrace⟩
    · exact he
    · exact fun _ => ⟨request, rfl⟩
    · simp
    · simp
    · simp
    · intro _
      simpa using hp hs

/-- With communication established a write may be sent. -/
theorem consistent_sendWrite (hl : s.Live) (hh : s.handshakeComplete = true)
    (hc : s.timers.isArmed .commTimeout = false)
    (hf : s.stopping = false → s.timers.isArmed .establishFallback = false) (w : PendingWrite) :
    (s.sendWrite w now).Consistent := by
  rw [sendWrite_eq]
  apply Live.consistent
  · exact ⟨hl.link, hl.opened, by simp [hl.reconnect], by simpa using hl.stopGrace⟩
  · exact hh
  · simp [hc]
  · simp
  · intro hs
    simp [hf hs]
  · simp
  · exact fun _ _ => hh

/-- Nothing is open on a live connection with communication established: the next write is sent or
the next poll set. -/
theorem consistent_enterIdle (hl : s.Live) (hh : s.handshakeComplete = true)
    (hc : s.timers.isArmed .commTimeout = false)
    (hf : s.stopping = false → s.timers.isArmed .establishFallback = false) :
    (s.enterIdle now).Consistent := by
  cases hs : s.stopping with
  | true =>
    rw [enterIdle_of_stopping s now hs]
    exact consistent_finishStop hl.opened hs
  | false =>
    have hf := hf hs
    cases hw : s.pendingWrites with
    | cons w rest =>
      rw [enterIdle_of_pending s now hs hw]
      apply consistent_sendWrite
      · exact ⟨hl.link, hl.opened, hl.reconnect, hl.stopGrace⟩
      · exact hh
      · exact hc
      · exact fun _ => hf
    | nil =>
      rw [enterIdle_of_none_pending s now hs hw, hh, Bool.true_and]
      -- the poll is armed in both cases, and no other timer is touched
      by_cases hp : s.timers.isArmed .poll = true
      · rw [hp, Bool.not_true, if_neg Bool.false_ne_true]
        apply Live.consistent
        · exact ⟨hl.link, hl.opened, hl.reconnect, hl.stopGrace⟩
        · rfl
        · simp [hc]
        · exact fun _ => ⟨hw, hp⟩
        · simp [hf]
        · simp
        · exact fun _ _ => rfl
      · rw [Bool.eq_false_iff.mpr hp, Bool.not_false, if_pos rfl]
        apply Live.consistent
        · exact ⟨hl.link, hl.opened, by simp [hl.reconnect], by simpa using hl.stopGrace⟩
        · rfl
        · simp [hc]
        · simp [hw]
        · simp [hf]
        · simp
        · exact fun _ _ => rfl

/-- A handshake may begin on any live connection. -/
theorem consistent_startHandshake (hl : s.Live) {request : Request}
    (hr : request.isPoll = false) : (s.startHandshake request now).Consistent := by
  rw [startHandshake_eq]
  apply consistent_sendRequest
  · exact ⟨hl.link, hl.opened, by simp [hl.reconnect], by simpa using hl.stopGrace⟩
  · simp [hr]
  · simp

theorem live_replied (hl : s.Live) : s.replied.Live :=
  ⟨hl.link, hl.opened, by simp [replied_eq, hl.reconnect],
    by simpa [replied_eq] using hl.stopGrace⟩

theorem consistent_completeHandshake (hl : s.Live) :
    (s.replied.completeHandshake now).Consistent := by
  rw [completeHandshake_eq, replied_eq]
  refine consistent_enterIdle ⟨hl.link, hl.opened, ?_, ?_⟩ rfl ?_ fun _ => ?_
  · dsimp only
    split <;> simp [hl.reconnect]
  · dsimp only
    split <;> simpa using hl.stopGrace
  · dsimp only
    split <;> simp
  · dsimp only
    split <;> simp

/-- After a poll nothing is open, or the other poll follows. -/
theorem consistent_afterPoll (hl : s.Live) (hh : s.handshakeComplete = true)
    (hc : s.timers.isArmed .commTimeout = false)
    (hf : s.timers.isArmed .establishFallback = false) (request : Request) :
    (s.afterPoll request now).Consistent := by
  unfold afterPoll afterStatus
  split
  · split
    · exact consistent_enterIdle hl hh hc fun _ => hf
    · exact consistent_sendRequest hl _ hh fun _ _ => hh
  · exact consistent_enterIdle hl hh hc fun _ => hf

/-! ## Frames -/

theorem Consistent.live {s : Session} (h : s.Consistent) (hs : s.state ≠ .idle) : s.Live := by
  refine h.sound.live ?_
  cases hc : s.connection.link with
  | connected => rfl
  | disconnected => exact absurd (h.sound.idle (by simp [hc])) hs
  | connecting => exact absurd (h.sound.idle (by simp [hc])) hs

/-- The communication is established exactly when the request that is waited for is a poll. -/
theorem Consistent.established {s : Session} (h : s.Consistent) {state : CommState}
    (hs : s.state = state) (hi : state ≠ .idle) :
    s.handshakeComplete = state.isEstablished := by
  rw [h.sound.established (h.live (hs ▸ hi)).link, hs]

theorem Consistent.answered {s : Session} (h : s.Consistent)
    (hs : ∀ request, s.state ≠ .awaitingReply request) : s.timers.isArmed .commTimeout = false := by
  rw [Bool.eq_false_iff]
  intro ha
  obtain ⟨request, hr⟩ := h.sound.asking ha
  exact hs request hr

theorem Consistent.notAwaited {s : Session} (h : s.Consistent) (hp : s.stopping = false)
    (hc : s.connection.link = .connected) (hs : s.state ≠ .awaitingEquipment) :
    s.timers.isArmed .establishFallback = false := by
  rw [Bool.eq_false_iff]
  intro ha
  exact hs (((h.settled hp).fallback hc).mp ha)

theorem isPoll_of_isAcceptedBy {request : Request} {m : Inbound}
    (h : request.isAcceptedBy m = true) : request.isPoll = false := by
  cases request <;> first | rfl | cases h

theorem isPoll_of_following? {c : Catalog} {request next : Request}
    (h : c.following? request = some next) : next.isPoll = false := by
  unfold Catalog.following? at h
  repeat' split at h
  all_goals cases h
  all_goals rfl

/-- News after a poll was answered leaves the session ready to go on. -/
theorem Consistent.afterPoll {t : Session} (h : s.Consistent) {request : Request}
    (hs : s.state = .awaitingReply request) (hp : request.isPoll = true) (ht : News s.replied t) :
    (t.afterPoll request now).Consistent := by
  have hl := h.live (by simp [hs])
  have hh : s.handshakeComplete = true := by
    rw [h.established hs (by simp)]
    exact hp
  rw [replied_eq] at ht
  obtain ⟨acts, c, rfl, -⟩ := ht
  apply consistent_afterPoll
  · exact ⟨hl.link, hl.opened, by simp [hl.reconnect], by simpa using hl.stopGrace⟩
  · exact hh
  · simp
  · simp

theorem Consistent.answer {t : Session} {m : Inbound} (h : s.Consistent)
    (ha : s.Answer m now t) : t.Consistent := by
  cases ha with
  | selected hs hm =>
    have hl := h.live (by simp [hs])
    have hh := h.established hs (by simp)
    simp only [replied_eq, Session.arm]
    apply Live.consistent
    · exact ⟨hl.link, hl.opened, by simp [hl.reconnect], by simpa using hl.stopGrace⟩
    · exact hh
    · simp
    · simp
    · simp
    · simp
    · intro hp
      simpa using (h.settled hp).polling
  | approached hs hm =>
    have hl := h.live (by simp [hs])
    have hh := h.established hs (by simp)
    simp only [replied_eq, Session.arm, send, emit]
    apply Live.consistent
    · exact ⟨hl.link, hl.opened, by simp [hl.reconnect], by simpa using hl.stopGrace⟩
    · simpa [hs] using hh
    · simp
    · simp [hs]
    · simp [hs]
    · simp [hs]
    · intro hp
      simpa using (h.settled hp).polling
  | advanced request next hs hm hn =>
    have hl := h.live (by simp [hs])
    have hh := h.established hs (by simp)
    refine consistent_sendRequest (live_replied hl) next ?_ ?_
    · rw [isPoll_of_following? hn]
      exact hh.trans (isPoll_of_isAcceptedBy hm)
    · intro hp
      simpa [replied_eq] using (h.settled hp).polling
  | completed request hs hm hn => exact consistent_completeHandshake (h.live (by simp [hs]))
  | failed request hs hp hm => exact h.afterPoll hs hp (News.emit _ rfl)
  | polled request hs hp hm ht => exact h.afterPoll hs hp (news_publishPoll _ _ _ _)
  | mismatched request hs hp hm ht =>
    have hl := h.live (by simp [hs])
    have hh := h.established hs (by simp)
    refine Consistent.arm ?_ _ _ (by simp) fun _ => hl.link
    rw [replied_eq]
    apply Live.consistent
    · exact ⟨hl.link, hl.opened, by simp [hl.reconnect], by simpa using hl.stopGrace⟩
    · simpa [hs] using hh
    · simp
    · simp [hs]
    · simp [hs]
    · simp [hs]
    · intro hp
      simpa using (h.settled hp).polling
  | written hs hm =>
    have hl := h.live (by simp [hs])
    have hh := h.established hs (by simp)
    apply consistent_enterIdle
    · exact ⟨hl.link, hl.opened, by simp [Session.clear, Session.cancel, emit, hl.reconnect],
        by simpa [Session.clear, Session.cancel, emit] using hl.stopGrace⟩
    · exact hh
    · simpa [Session.clear, Session.cancel, emit] using h.answered (by simp [hs])
    · intro hp
      simpa [Session.clear, Session.cancel, emit] using h.notAwaited hp hl.link (by simp [hs])

theorem Consistent.heard {t : Session} {m : Inbound} (h : s.Consistent) (hm : s.Heard m t) :
    t.Consistent := by
  cases hm with
  | asked _ => exact h.congr rfl rfl rfl rfl rfl rfl (fun _ hb => hb) rfl
  | timedOut _ => exact h.cancel_of_unneeded .commTimeout (by decide)
  | malformed _ => exact h.news (News.emit s rfl)
  | alarmed _ alarms _ ht =>
    refine Consistent.news ?_ ht
    exact h.congr rfl rfl rfl rfl rfl rfl (fun _ hb => hb) rfl
  | reported _ u ht => exact (h.news ht).congr rfl rfl rfl rfl rfl rfl (fun _ hb => hb) rfl

theorem Consistent.handled {t : Session} {frame : Bytes} (h : s.Consistent)
    (hf : s.Handled now frame t) : t.Consistent := by
  have hc : (s.count .framesReceived 1).Consistent := h.news (News.count s _ _)
  cases hf with
  | heard m hm t ht => exact hc.heard ht
  | answered m hm t ht => exact hc.answer ht
  | ignored counters => exact h.congr rfl rfl rfl rfl rfl rfl (fun _ hb => hb) rfl

/-! ## Timers -/

theorem Live.cancel (hl : s.Live) (kind : TimerKind) : (s.cancel kind).Live where
  link := hl.link
  opened := hl.opened
  reconnect := by simp [Session.cancel, hl.reconnect]
  stopGrace ha := hl.stopGrace (by simpa [Session.cancel] using ha : _ ∧ _).2

/-- A stop may end at any time. -/
theorem Sound.finishStop (h : s.Sound) (hs : s.stopping = true) : s.finishStop.Consistent := by
  cases ho : s.connection.opened with
  | true => exact consistent_finishStop ho hs
  | false =>
    simp only [Session.finishStop, ho, Bool.false_eq_true, if_false]
    exact ⟨h, by simp [hs]⟩

/-- What an end of a stop resets need not be reset before. -/
theorem Sound.halt (h : s.Sound) (hs : s.stopping = true) :
    { s with state := .idle }.finishStop.Consistent ∧
      { s with state := .idle, handshakeComplete := false }.finishStop.Consistent := by
  cases ho : s.connection.opened with
  | true => exact ⟨consistent_finishStop ho hs, consistent_finishStop ho hs⟩
  | false =>
    have hd : s.connection.link ≠ .connected := by
      intro hc
      simp [h.opened (by simp [hc])] at ho
    rw [← h.idle hd, ← h.incomplete hd]
    exact ⟨h.finishStop hs, h.finishStop hs⟩

/-- Until a stop begins only two timers are armed without a connection. -/
theorem Consistent.live_of_isArmed (h : s.Consistent) (hs : s.stopping = false) {kind : TimerKind}
    (ha : s.timers.isArmed kind = true) (hr : kind ≠ .reconnect) (hd : kind ≠ .disconnectReport) :
    s.Live := by
  refine h.sound.live (Decidable.byContradiction fun hc => ?_)
  rcases (h.settled hs).fewTimers hc kind ha with hk | hk
  · exact hr hk
  · exact hd hk

theorem Consistent.requestOverdue (h : s.Consistent)
    (ha : s.timers.isArmed .commTimeout = true) :
    ((s.cancel .commTimeout).requestOverdue now).Consistent := by
  obtain ⟨request, hr⟩ := h.sound.asking ha
  have hl := h.live (by simp [hr])
  have hh := h.established hr (by simp)
  have hretry : (s.cancel .commTimeout).state.retry? = some request := by
    simp [Session.cancel, hr, CommState.retry?]
  rw [requestOverdue_eq _ _ hretry]
  dsimp only
  split
  · apply consistent_disconnect
    exact hl.opened
  · apply consistent_sendRequest
    · obtain ⟨h1, h2, h3, h4⟩ := hl.cancel .commTimeout
      exact ⟨h1, h2, h3, h4⟩
    · exact hh
    · intro hs
      simpa [Session.cancel] using (h.settled hs).polling

theorem Consistent.establish (h : s.Consistent)
    (ha : s.timers.isArmed .establishFallback = true) :
    ((s.cancel .establishFallback).sendRequest .establish now).Consistent := by
  cases hs : s.stopping with
  | true =>
    rw [sendRequest_of_stopping (s.cancel .establishFallback) now hs]
    exact ((h.sound.cancel _).halt hs).1
  | false =>
    have hl := h.live_of_isArmed hs ha (by simp) (by simp)
    have hi := ((h.settled hs).fallback hl.link).mp ha
    apply consistent_sendRequest (hl.cancel _)
    · exact h.established hi (by simp)
    · intro _
      simpa [Session.cancel] using (h.settled hs).polling

theorem Consistent.poll (h : s.Consistent) (ha : s.timers.isArmed .poll = true) :
    ((s.cancel .poll).poll now).Consistent := by
  unfold Session.poll
  split
  · next hc =>
    refine h.cancel .poll (fun _ hs hi => ?_) (by simp) (by simp) (by simp)
    have hh := (h.settled hs).polling (.inl ha)
    simp [Session.cancel, hh, hi, CommState.isIdle] at hc
  · next hc =>
    obtain ⟨hh, hi⟩ : s.handshakeComplete = true ∧ s.state = .idle := by
      simpa [Session.cancel, CommState.isIdle] using hc
    have hl : s.Live := by
      refine h.sound.live (Decidable.byContradiction fun hd => ?_)
      simp [h.sound.incomplete hd] at hh
    split
    · exact consistent_sendRequest (hl.cancel _) _ hh fun _ _ => hh
    · split
      · exact consistent_sendRequest (hl.cancel _) _ hh fun _ _ => hh
      · apply consistent_enterIdle (hl.cancel _) hh
        · simpa [Session.cancel] using h.answered (by simp [hi])
        · intro hs
          simpa [Session.cancel] using h.notAwaited hs hl.link (by simp [hi])

theorem Consistent.writeOverdue (h : s.Consistent) :
    ((s.cancel .writeTimeout).writeOverdue now).Consistent := by
  rw [writeOverdue_eq]
  dsimp only
  split
  · next hi =>
    replace hi : s.state = .awaitingWrite := hi
    have hl := h.live (by simp [hi])
    apply consistent_enterIdle
    · obtain ⟨h1, h2, h3, h4⟩ := hl.cancel .writeTimeout
      exact ⟨h1, h2, h3, h4⟩
    · exact h.established hi (by simp)
    · simpa [Session.cancel] using h.answered (by simp [hi])
    · intro hs
      simpa [Session.cancel] using h.notAwaited hs hl.link (by simp [hi])
  · next hi =>
    refine Consistent.news ?_ (News.emit _ rfl)
    exact h.cancel .writeTimeout (by simp) (by simp) (fun _ => hi) (by simp)

theorem Consistent.reconnect (h : s.Consistent) (ha : s.timers.isArmed .reconnect = true) :
    (s.cancel .reconnect).reconnect.Consistent := by
  obtain ⟨hd, ho⟩ := h.sound.reconnect ha
  have hc : s.connection.link ≠ .connected := by simp [hd]
  have hi := h.sound.idle hc
  have hh := h.sound.incomplete hc
  rw [reconnect_eq]
  split
  · constructor
    · constructor <;> simp [Session.cancel, hi, hh]
    · intro hs
      have hset := h.settled hs
      constructor <;> simp [Session.cancel, hi, hset.noWrites hc, hset.noBytes hc]
  · constructor
    · constructor <;> simp [Session.cancel, hi, hh, ho]
      · exact h.answered (by simp [hi])
      · exact h.sound.stopGrace
    · intro hs
      have hset := h.settled hs
      constructor <;> simp [Session.cancel, hi, hset.noWrites hc, hset.noBytes hc]
      · intro kind _ ha
        exact hset.fewTimers hc kind ha
      · simpa [hh] using hset.polling

theorem Consistent.separate (h : s.Consistent) (ha : s.timers.isArmed .separateRequest = true) :
    ((s.cancel .separateRequest).separate now).Consistent := by
  rw [separate_eq]
  have hc := h.cancel_of_unneeded .separateRequest (by decide)
  have hr := hc.arm .restartHandshake (now + reestablishDelay) (by simp) fun hs =>
    (h.live_of_isArmed hs ha (by simp) (by simp)).link
  exact hr.congr rfl rfl rfl rfl rfl rfl (fun _ hb => hb) rfl

theorem Consistent.restart (h : s.Consistent) (ha : s.timers.isArmed .restartHandshake = true) :
    ((s.cancel .restartHandshake).startHandshake .select now).Consistent := by
  cases hs : s.stopping with
  | true =>
    rw [startHandshake_eq, sendRequest_of_stopping]
    · have hr := ((h.sound.cancel .restartHandshake).cancel .poll).cancel .linkTest
      exact (hr.halt hs).2
    · exact hs
  | false =>
    have hl := h.live_of_isArmed hs ha (by simp) (by simp)
    exact consistent_startHandshake (hl.cancel _) rfl

theorem Consistent.testLink (h : s.Consistent) (ha : s.timers.isArmed .linkTest = true) :
    ((s.cancel .linkTest).testLink now).Consistent := by
  cases hi : s.settings.linkTestInterval with
  | none =>
    have ht : (s.cancel .linkTest).testLink now = s.cancel .linkTest := by
      simp [Session.testLink, Session.cancel, hi]
    rw [ht]
    exact h.cancel_of_unneeded .linkTest (by decide)
  | some interval =>
    rw [testLink_eq (s.cancel .linkTest) now hi]
    have harmed : ∀ kind, ((s.timers.cancel .linkTest).arm .linkTest (now + interval)).isArmed kind =
        s.timers.isArmed kind := by
      intro kind
      by_cases hk : kind = .linkTest
      · simp [hk, ha]
      · simp [hk]
    have hr : Consistent _ := h.retime (fun kind _ => harmed kind)
      (fun kind _ ht => (harmed kind).symm.trans ht) (fun _ _ kind ht => (harmed kind).symm.trans ht)
    exact hr.congr rfl rfl rfl rfl rfl rfl (fun _ hb => hb) rfl

theorem Consistent.fire (h : s.Consistent) (kind : TimerKind) (ha : s.timers.isArmed kind = true) :
    ((s.cancel kind).fire kind now).Consistent := by
  cases kind with
  | commTimeout => exact h.requestOverdue ha
  | establishFallback => exact h.establish ha
  | poll => exact h.poll ha
  | dataComplete =>
    have hc := h.cancel_of_unneeded .dataComplete (by decide)
    exact hc.congr rfl rfl rfl rfl rfl rfl (fun _ _ => rfl) rfl
  | writeTimeout => exact h.writeOverdue
  | reconnect => exact h.reconnect ha
  | separateRequest => exact h.separate ha
  | restartHandshake => exact h.restart ha
  | linkTest => exact h.testLink ha
  | disconnectReport =>
    have hc := h.cancel_of_unneeded .disconnectReport (by decide)
    simp only [Session.fire, reportDisconnected_eq]
    exact hc.congr rfl rfl rfl rfl rfl rfl (fun _ hb => hb) rfl
  | stopGrace => exact (h.sound.cancel _).finishStop (h.sound.stopGrace ha)

/-! ## Moments -/

theorem Consistent.launch (hu : s.Unopened) : s.launch.Consistent := by
  rw [launch_eq]
  constructor
  · constructor <;> simp [hu.timers, hu.state, hu.handshakeComplete]
  · intro _
    constructor <;> simp [hu.timers, hu.state, hu.pendingWrites, hu.bytes]

theorem Consistent.connected (h : s.Consistent) (hc : s.connection.link = .connecting) :
    (s.connected now).Consistent := by
  have ho := h.sound.opened (by simp [hc])
  cases hs : s.stopping with
  | true =>
    rw [connected_of_stopping s now hs]
    exact h
  | false =>
    rw [connected_eq s now ho hs]
    have hr : s.timers.isArmed .reconnect = false := by
      rw [Bool.eq_false_iff]
      intro ha
      have hd := (h.sound.reconnect ha).1
      simp [hc] at hd
    have hg : s.timers.isArmed .stopGrace = true → s.stopping = true := h.sound.stopGrace
    apply consistent_startHandshake
    · exact ⟨rfl, ho, by simp [hr], by simpa using hg⟩
    · cases s.connection.startup <;> rfl

theorem Consistent.closedByEquipment (h : s.Consistent)
    (hc : s.connection.link = .connected) : (s.closedByEquipment now).Consistent := by
  have ho := h.sound.opened (by simp [hc])
  unfold Session.closedByEquipment
  split
  · next hs => exact consistent_finishStop ho hs
  · apply consistent_disconnect
    exact ho

theorem Consistent.arrival (h : s.Consistent) (hc : s.connection.link = .connected)
    (received : Bytes) : (s.advance now (.arrival received)).Consistent := by
  simp only [advance, accept]
  split
  · exact h.congr rfl rfl rfl rfl rfl rfl (fun hd => absurd hc hd) rfl
  · exact h.congr rfl rfl rfl rfl rfl rfl (fun hd => absurd hc hd) rfl

theorem Consistent.awaitRest (h : s.Consistent) : (s.awaitRest now).Consistent := by
  have hd := h.cancel_of_unneeded .dataComplete (by decide)
  unfold Session.awaitRest
  dsimp only
  split
  · exact hd
  · next hb =>
    refine hd.arm _ _ (by simp) fun hs => Decidable.byContradiction fun hc => ?_
    have he : s.buffer.bytes = [] := (h.settled hs).noBytes hc
    simp [Session.cancel, he] at hb

theorem Consistent.written (h : s.Consistent) {t : Session} (hw : s.Written now t) :
    t.Consistent := by
  cases hw with
  | refused _ ht => exact h.news ht
  | sent u ht hc hi w =>
    have hl : s.Live := h.sound.live (by simpa [isConnected] using hc)
    have hh : s.handshakeComplete = true := by
      rw [h.sound.established hl.link, hi]
      rfl
    obtain ⟨acts, c, rfl, -⟩ := ht
    apply consistent_sendWrite
    · exact ⟨hl.link, hl.opened, hl.reconnect, hl.stopGrace⟩
    · exact hh
    · exact h.answered (by simp [hi])
    · exact fun hs => h.notAwaited hs hl.link (by simp [hi])
  | queued u ht hc hi w =>
    have hl : s.Live := h.sound.live (by simpa [isConnected] using hc)
    obtain ⟨acts, c, rfl, -⟩ := ht
    obtain ⟨⟨h1, h2, h3, h4, h5, h6, h7⟩, hset⟩ := h
    refine ⟨⟨h1, h2, h3, h4, h5, h6, h7⟩, fun hs => ?_⟩
    obtain ⟨g1, g2, g3, g4, g5, g6, g7, g8⟩ := hset hs
    exact ⟨fun hd => absurd hl.link hd, g2, g3, g4, fun _ he => absurd he hi, g6, g7, g8⟩

theorem Consistent.beginStop (h : s.Consistent) : (s.beginStop now).Consistent := by
  unfold Session.beginStop
  split
  · exact h
  · obtain ⟨⟨h1, h2, h3, h4, -, -, -⟩, -⟩ := h
    dsimp only
    split
    · constructor
      · refine ⟨h1, h2, h3, h4, ?_, ?_, fun _ => rfl⟩ <;> simp [Session.arm]
      · simp [Session.arm]
    · apply Sound.finishStop
      · refine ⟨h1, h2, h3, h4, ?_, ?_, fun _ => rfl⟩ <;> simp
      · rfl

/-- What every permitted moment keeps. -/
theorem Consistent.advance (h : s.Consistent) {m : Moment} (hm : s.Permits m) :
    (s.advance now m).Consistent := by
  cases m with
  | opened => exact Consistent.launch hm
  | connected => exact h.connected hm
  | connectFailed =>
    have hc : s.connection.link = .connecting := hm
    exact consistent_disconnect (h.sound.opened (by simp [hc])) false
  | socketError =>
    have hc : s.connection.link = .connected := hm
    exact consistent_disconnect (h.sound.opened (by simp [hc])) false
  | socketEnd => exact h.closedByEquipment hm
  | arrival received => exact h.arrival hm received
  | frame frame => exact h.handled (handled_handleFrame s now frame)
  | settled => exact h.awaitRest
  | expiry kind =>
    simp only [Session.advance, expire]
    split
    · next hd => exact h.fire kind (Timers.isArmed_of_isDue hd)
    · exact h
  | write name value => exact h.written (written_write s name value now)
  | stop => exact h.beginStop

theorem Unopened.consistent (hu : s.Unopened) : s.Consistent := by
  constructor
  · constructor <;> simp [hu.connection, hu.timers, hu.state, hu.handshakeComplete]
  · intro _
    constructor <;> simp [hu.connection, hu.timers, hu.state, hu.pendingWrites, hu.bytes]

/-- A session is consistent at every point of a legal run, a moment of which is always one that is
permitted. -/
theorem consistent_history {run : List Occurrence} (h : s.Legal run) (hu : s.Unopened) :
    ∀ p ∈ s.history run, p.before.Consistent ∧ p.before.Permits p.moment ∧ p.after.Consistent :=
  ((chain_history h hu).invariant (fun _ _ _ hs hm => hs.advance hm) hu.consistent).1

end GemLink.Session
