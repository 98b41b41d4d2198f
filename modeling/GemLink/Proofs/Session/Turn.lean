import GemLink.Proofs.Session.Course

/-!
What a moment means for the talk with the equipment. `Turn` lists the cases: the session asks
nothing, begins a handshake, repeats a request, goes on with the next one or comes to the end of the
handshake, or talks on a connection on which communication is established, or has no connection.
In each case it says which frames are sent and what is waited for then. Every permitted moment of a
consistent session is such a turn (`turn_advance`).
-/

namespace GemLink

/-! ## Turns -/

/-- What is noted of a session. -/
inductive Mark where
  /-- A handshake begins. -/
  | begun
  /-- A frame is handled. -/
  | handled (frame : Bytes)
  /-- An action is taken. -/
  | did (action : Action)

namespace Session

/-- What is noted of a moment before the actions that are taken at it. -/
def entry (s : Session) (now : Nat) : Moment → List Mark
  | .frame frame => [.handled frame]
  | .connected => if s.connection.opened && !s.stopping then [.begun] else []
  | .expiry .restartHandshake =>
    if s.timers.isDue now .restartHandshake && !s.stopping then [.begun] else []
  | _ => []

/-- What a moment means for the talk with the equipment, by what is noted of it, the actions that
are taken and the session that it leads to. -/
inductive Turn (s : Session) : List Mark → List Action → Session → Prop
  /-- Nothing is asked. What is waited for changes only when the communication has been opened. -/
  | quiet (entry : List Mark) (acts : List Action) (t : Session)
      (he : entry = [] ∨ ∃ frame, entry = [.handled frame]) (ha : ∀ a ∈ acts, a.isQuiet = true)
      (hs : t.state = s.state ∨
        s.state = .awaitingReply .select ∧ t.state = .awaitingEquipment)
      (hl : t.connection.link = s.connection.link)
      (hh : t.handshakeComplete = s.handshakeComplete) : Turn s entry acts t
  /-- A handshake begins. -/
  | begun (acts : List Action) (t : Session) (request : Request) (transactionId : UInt16)
      (hr : request = .select ∨ request = .establish) (ha : ∀ a ∈ acts, a.isQuiet = true)
      (hs : t.state = .awaitingReply request) (hh : t.handshakeComplete = false) :
      Turn s [.begun] (acts ++ [.send (s.requestFrame request transactionId)]) t
  /-- A wait has been too long, and the request that belongs to it is sent. -/
  | retried (acts : List Action) (t : Session) (request : Request) (transactionId : UInt16)
      (hr : s.state.retry? = some request) (ha : ∀ a ∈ acts, a.isQuiet = true)
      (hs : t.state = .awaitingReply request) (hl : t.connection.link = s.connection.link)
      (hh : t.handshakeComplete = s.handshakeComplete) :
      Turn s [] (acts ++ [.send (s.requestFrame request transactionId)]) t
  /-- A request of the handshake is accepted, and the next one is sent. -/
  | advanced (acts : List Action) (t : Session) (frame : Bytes) (m : Inbound)
      (request next : Request) (transactionId : UInt16) (hm : Inbound.read? frame = some m)
      (hr : s.state = .awaitingReply request) (hc : request.isAcceptedBy m = true)
      (hn : s.catalog.following? request = some next) (ha : ∀ a ∈ acts, a.isQuiet = true)
      (hs : t.state = .awaitingReply next) (hl : t.connection.link = s.connection.link)
      (hh : t.handshakeComplete = s.handshakeComplete) :
      Turn s [.handled frame] (acts ++ [.send (s.requestFrame next transactionId)]) t
  /-- The last request of the handshake is accepted. -/
  | completed (acts : List Action) (t : Session) (frame : Bytes) (m : Inbound) (request : Request)
      (hm : Inbound.read? frame = some m) (hr : s.state = .awaitingReply request)
      (hc : request.isAcceptedBy m = true) (hn : s.catalog.following? request = none)
      (hh : t.handshakeComplete = true) : Turn s [.handled frame] acts t
  /-- Communication is established before and after. -/
  | established (entry : List Mark) (acts : List Action) (t : Session)
      (hh : s.handshakeComplete = true) (ht : t.handshakeComplete = true) : Turn s entry acts t
  /-- There is no connection then, and nothing is asked. -/
  | down (entry : List Mark) (acts : List Action) (t : Session)
      (ha : ∀ a ∈ acts, a.isPrimary = false) (hl : t.connection.link ≠ .connected) :
      Turn s entry acts t

/-- A turn and the actions that are appended at it. -/
def Takes (s : Session) (entry : List Mark) (t : Session) : Prop :=
  ∃ acts, t.outbox = s.outbox ++ acts ∧ Turn s entry acts t

variable {s t : Session} {now : Nat} {m : Moment}

/-- While a poll is open communication is established. -/
theorem Consistent.established_of_isPoll (h : s.Consistent) {request : Request}
    (hs : s.state = .awaitingReply request) (hp : request.isPoll = true) :
    s.Live ∧ s.handshakeComplete = true := by
  refine ⟨h.live (by simp [hs]), ?_⟩
  rw [h.established hs (by simp)]
  exact hp

/-! ## From courses to turns -/

/-- Whether communication is established shows in the connection and what is waited for. -/
theorem Consistent.handshakeComplete_eq (h : s.Consistent) (ht : t.Consistent)
    (hl : t.connection.link = s.connection.link) (hs : t.state = s.state) :
    t.handshakeComplete = s.handshakeComplete := by
  by_cases hc : s.connection.link = .connected
  · rw [h.sound.established hc, ht.sound.established (hl.trans hc), hs]
  · rw [h.sound.incomplete hc, ht.sound.incomplete (hl ▸ hc)]

theorem entry_of_begins (hb : s.begins now m = false) :
    s.entry now m = [] ∨ ∃ frame, s.entry now m = [.handled frame] := by
  cases m with
  | frame frame => exact .inr ⟨frame, rfl⟩
  | connected =>
    replace hb : (s.connection.opened && !s.stopping) = false := hb
    simp [entry, hb]
  | expiry kind =>
    left
    cases kind with
    | restartHandshake =>
      replace hb : (s.timers.isDue now .restartHandshake && !s.stopping) = false := hb
      simp [entry, hb]
    | _ => rfl
  | _ => exact .inl rfl

theorem isQuiet_of_allows {a : Action} (h : s.Allows m a) : a.isQuiet = true := by
  rcases h with hq | ⟨_, _, _, _, _, _, rfl⟩
  · exact hq.isQuiet
  · rfl

variable {request : Request} {before : List Action}

/-- What the request means that is asked depends on why it is. -/
theorem Asks.turn (why : s.Asks now m request) (h : s.Consistent) (hp : s.stopping = false)
    (ha : ∀ a ∈ before, a.isQuiet = true) (ht : t.Consistent)
    (hl : t.connection.link = .connected) (hs : t.state = .awaitingReply request) :
    Turn s (s.entry now m) (before ++ [.send (s.requestFrame request s.nextTransaction)]) t := by
  have hh : t.handshakeComplete = request.isPoll := ht.established hs (by simp)
  have hlive : s.state ≠ .idle → t.connection.link = s.connection.link := fun hi => by
    rw [hl, (h.live hi).link]
  cases why with
  | begun hc =>
    have he : s.entry now .connected = [.begun] := by
      simp [entry, hp, h.sound.opened (show s.connection.link ≠ .disconnected by simp [hc])]
    rw [he]
    cases hr : s.connection.startup with
    | select =>
      rw [hr] at hs hh
      exact .begun before t .select _ (.inl rfl) ha hs hh
    | establish =>
      rw [hr] at hs hh
      exact .begun before t .establish _ (.inr rfl) ha hs hh
  | restarted hd =>
    have he : s.entry now (.expiry .restartHandshake) = [.begun] := by simp [entry, hp, hd]
    rw [he]
    exact .begun before t .select _ (.inl rfl) ha hs hh
  | overdue _ hr _ =>
    refine .retried before t request _ (by rw [hr]; rfl) ha hs (hlive (by simp [hr])) ?_
    rw [hh, h.established hr (by simp)]
    rfl
  | unapproached hr _ =>
    refine .retried before t .establish _ (by rw [hr]; rfl) ha hs (hlive (by simp [hr])) ?_
    rw [hh, h.established hr (by simp)]
    rfl
  | advanced frame inbound hm asked _ hr hc hn =>
    refine .advanced before t frame inbound asked request _ hm hr hc hn ha hs
      (hlive (by simp [hr])) ?_
    rw [hh, h.established hr (by simp), isPoll_of_following? hn]
    exact (isPoll_of_isAcceptedBy hc).symm
  | due _ hpoll _ hcomplete _ => exact .established _ _ t hcomplete (hh.trans hpoll)
  | followed _ _ _ hr _ =>
    exact .established _ _ t (h.established_of_isPoll hr rfl).2 hh

/-- When nothing is open any more, the handshake is over or has come to its end. -/
theorem Frees.turn {acts : List Action} (why : s.Frees now m before) (h : s.Consistent)
    (hp : s.stopping = false) (hh : t.handshakeComplete = true) :
    Turn s (s.entry now m) acts t := by
  cases why with
  | completed frame inbound hm request hs hc hn =>
    exact .completed acts t frame inbound request hm hs hc hn hh
  | polled _ _ _ _ hs hpoll => exact .established _ _ t (h.established_of_isPoll hs hpoll).2 hh
  | written _ _ _ hs _ => exact .established _ _ t (h.established hs (by simp)) hh
  | overdue hs _ => exact .established _ _ t (h.established hs (by simp)) hh
  | unpolled _ hd =>
    exact .established _ _ t ((h.settled hp).polling (.inl (Timers.isArmed_of_isDue hd))) hh

/-- Every course is a turn. -/
theorem Course.turn {calls : List (String × Value)} {acts : List Action}
    (hc : s.Course now m calls acts t) (h : s.Consistent) (ht : t.Consistent) :
    Turn s (s.entry now m) acts t := by
  cases hc with
  | unmoved _ _ hb ha hmoves =>
    exact .quiet _ acts t (entry_of_begins hb) (fun a hm => (ha a hm).isQuiet) (.inl hmoves.state)
      hmoves.link (h.handshakeComplete_eq ht hmoves.link hmoves.state)
  | selected frame _ hm _ _ hs _ _ ha hmoves =>
    subst hm
    refine .quiet _ acts t (.inr ⟨frame, rfl⟩) (fun a hm => (ha a hm).isQuiet) (.inr ⟨hs, hmoves.state⟩)
      hmoves.link ?_
    rw [h.established hs (by simp), ht.established hmoves.state (by simp)]
    rfl
  | asked hp _ request _ why ha hl hs _ _ _ =>
    exact why.turn h hp (fun a hm => isQuiet_of_allows (ha a hm)) ht hl hs
  | rested hp _ _ why _ _ hmoves =>
    have hl := hmoves.link.trans (why.link h hp)
    refine why.turn h hp ?_
    rw [ht.sound.established hl, hmoves.state]
    rfl
  | drained hp _ _ why _ _ _ _ hmoves =>
    exact why.turn h hp (ht.established hmoves.state (by simp))
  | posted name value hm _ _ hl hs _ _ _ hmoves =>
    refine .established _ _ t ?_ (ht.established hmoves.state (by simp))
    rw [h.sound.established hl, hs]
    rfl
  | queued name value hm _ _ hl _ _ _ ha hmoves =>
    subst hm
    exact .quiet _ acts t (.inl rfl) (fun a hm => (ha a hm).isQuiet) (.inl hmoves.state) hmoves.link
      (h.handshakeComplete_eq ht hmoves.link hmoves.state)
  | lost _ _ before ha graceful _ hl =>
    refine .down _ _ t ?_ (by simp [hl])
    rw [List.forall_mem_append]
    exact ⟨fun a hm => Action.isPrimary_of_isQuiet (ha a hm).isQuiet, by simp [Action.isPrimary]⟩
  | down _ _ _ ha hl =>
    refine .down _ _ t (fun a hm => ?_) hl
    rcases ha a hm with hq | hlink
    · exact Action.isPrimary_of_isQuiet (isQuiet_of_allows hq)
    · cases a <;> first | rfl | cases hlink
  | halted hm _ _ hmoves =>
    subst hm
    exact .quiet _ [] t (.inl rfl) (by simp) (.inl hmoves.state) hmoves.link
      (h.handshakeComplete_eq ht hmoves.link hmoves.state)

/-- Every permitted moment of a consistent session is a turn. -/
theorem turn_advance (h : s.Consistent) (now : Nat) {m : Moment} (hm : s.Permits m) :
    Takes s (s.entry now m) (s.advance now m) := by
  obtain ⟨acts, ho, hc⟩ := course_advance h now hm
  exact ⟨acts, ho, hc.turn h (h.advance hm)⟩

end Session

end GemLink
