import GemLink.Proofs.Session.Acceptance
import GemLink.Proofs.Session.Conduct
import GemLink.Proofs.Session.Polls

/-!
The end of the communication after an answer to the wrong question. It is set, and its new beginning
after it, only when an answer has come to another poll than the one that is open, on the same
connection (`Doubted`). If the equipment answers only what it was asked on the connection, such an
answer has been overtaken: the session had already sent another request of the poll
(`separated_after_late_answer`). One that is slow can come to that by answering all requests once
and in order, since an overdue request is sent again with another transaction
(`separated_crossedTalk`).
-/

namespace GemLink

/-- Whether an action asks the equipment to end the communication. -/
def Action.separates : Action → Bool
  | .send frame => hasSession SessionType.separateRequest frame
  | _ => false

theorem Action.separates_of_isPlain {a : Action} (h : a.isPlain = true) : a.separates = false := by
  cases a with
  | send frame =>
    have hs : hasSession SessionType.separateRequest frame = false := by simpa [isPlain] using h
    exact hs
  | _ => rfl

/-- The streams and functions of the requests that poll values. -/
def polledMessages : List (UInt8 × UInt8) :=
  [(1, 3), (2, 13)]

theorem Request.streamFunction?_of_isPoll {request : Request} (h : request.isPoll = true) :
    ∃ poll ∈ polledMessages, request.streamFunction? = some poll := by
  rcases eq_of_isPoll h with rfl | rfl
  · exact ⟨(1, 3), by decide, rfl⟩
  · exact ⟨(2, 13), by decide, rfl⟩

namespace Session

variable {s₀ s t : Session} {now : Nat} {m : Moment} {past : List Passage} {request : Request}

/-! ## Moments -/

/-- Whether the equipment is asked at a passage to end the communication. -/
def separates (p : Passage) : Bool :=
  p.actions.any Action.separates

theorem any_separates_of_plain {acts : List Action} (h : ∀ a ∈ acts, a.isPlain = true) :
    acts.any Action.separates = false := by
  rw [List.any_eq_false]
  intro a ha
  simp [Action.separates_of_isPlain (h a ha)]

/-- The communication is ended only when that is due. -/
theorem Conduct.due_of_separates (hc : s.Conduct now m t) {acts : List Action}
    (ho : t.outbox = s.outbox ++ acts) (ha : acts.any Action.separates = true) :
    m = .expiry .separateRequest ∧ s.timers.isDue now .separateRequest = true := by
  have hnone : ∀ acts', t.outbox = s.outbox ++ acts' → acts'.any Action.separates ≠ false := by
    intro acts' ho'
    rw [ho, List.append_cancel_left_eq] at ho'
    rw [← ho', ha]
    exact Bool.true_eq_false.mp
  cases hc with
  | goes h =>
    obtain ⟨acts', ho', ha'⟩ := h.plain
    exact absurd (any_separates_of_plain ha') (hnone _ ho')
  | finished _ h =>
    obtain ⟨acts', ho', ha'⟩ := h.outbox
    refine absurd ?_ (hnone _ ho')
    rw [List.any_append, any_separates_of_plain ha']
    rfl
  | fallen _ h =>
    obtain ⟨acts', graceful, ho', ha'⟩ := h.outbox
    refine absurd ?_ (hnone _ ho')
    rw [List.any_append, any_separates_of_plain ha']
    rfl
  | suspected _ _ _ ho' =>
    obtain ⟨acts', ho', ha'⟩ := ho'
    exact absurd (any_separates_of_plain ha') (hnone _ ho')
  | separated hm hd => exact ⟨hm, hd⟩
  | halted _ _ _ ho' => exact absurd rfl (hnone [] (ho'.trans (List.append_nil _).symm))
  | reconnected _ _ _ ho' => exact absurd rfl (hnone _ ho')
  | failed _ _ _ _ _ ho' => exact absurd rfl (hnone _ ho')
  | launched _ ht =>
    rw [ht, launch_eq, List.append_assoc] at hnone
    refine absurd ?_ (hnone _ rfl)
    rw [List.any_append, List.any_append, List.any_map, List.any_map]
    simp [Action.separates, Function.comp_def]

/-! ## Doubt -/

/-- Whether the end of the communication or its new beginning is set. -/
def isDoubted (s : Session) : Bool :=
  s.timers.isArmed .separateRequest || s.timers.isArmed .restartHandshake

/-- On this connection an answer has come to another poll than the one that was open. -/
def MismatchSince (past : List Passage) : Prop :=
  ∃ early q between request, past = early ++ q :: between ∧
    q.before.Mismatches q.moment request ∧ ∀ r ∈ between, r.moment ≠ .connected

theorem MismatchSince.snoc (h : MismatchSince past) {p : Passage} (hp : p.moment ≠ .connected) :
    MismatchSince (past ++ [p]) := by
  obtain ⟨early, q, between, request, rfl, hq, hb⟩ := h
  refine ⟨early, q, between ++ [p], request, by simp, hq, ?_⟩
  rw [List.forall_mem_append, List.forall_mem_singleton]
  exact ⟨hb, hp⟩

/-- What holds of a session with a past: the end of the communication and its new beginning are set
only on a connection on which an answer has come to another poll. -/
structure Doubted (past : List Passage) (s : Session) : Prop where
  consistent : s.Consistent
  doubted : s.isDoubted = true → s.connection.link = .connected ∧ MismatchSince past

theorem Unopened.doubted (hu : s.Unopened) : Doubted [] s :=
  ⟨hu.consistent, fun h => by simp [isDoubted, hu.timers] at h⟩

/-- What is set after a moment was set before, unless the moment brings the answer to another
poll. -/
theorem Conduct.doubted (hc : s.Conduct now m t) (hm : s.Permits m) (h : t.isDoubted = true) :
    Keeps s t ∧ (s.isDoubted = true ∨ ∃ request, s.Mismatches m request) := by
  have hnone : ¬ (t.timers.isArmed .separateRequest = false ∧
      t.timers.isArmed .restartHandshake = false) := by
    rintro ⟨h₁, h₂⟩
    simp [isDoubted, h₁, h₂] at h
  have hkept : (∀ kind, kind.isLasting = true → t.timers.isArmed kind = true →
      s.timers.isArmed kind = true) → s.isDoubted = true := by
    intro hl
    simp only [isDoubted, Bool.or_eq_true] at h ⊢
    exact h.imp (hl _ rfl) (hl _ rfl)
  cases hc with
  | goes hg => exact ⟨hg.toKeeps, .inl (hkept hg.lasting)⟩
  | finished _ hf => exact absurd (by simp [hf.timers]) hnone
  | fallen _ hf =>
    refine absurd ?_ hnone
    simp only [Bool.eq_false_iff, ne_eq]
    exact ⟨fun ha => by simpa using hf.timers _ ha, fun ha => by simpa using hf.timers _ ha⟩
  | suspected request hm hk => exact ⟨hk, .inr ⟨request, hm⟩⟩
  | separated _ hd hk =>
    refine ⟨hk, .inl ?_⟩
    simp [isDoubted, Timers.isArmed_of_isDue hd]
  | halted _ _ _ _ _ _ hl =>
    exact absurd ⟨hl _ (by decide), hl _ (by decide)⟩ hnone
  | reconnected _ _ hk _ hl => exact ⟨hk, .inl (hkept hl)⟩
  | failed _ _ _ ht => exact absurd (by simp [ht]) hnone
  | launched hm' ht =>
    subst hm'
    have hu : s.Unopened := hm
    exact absurd (by simp [ht, launch_eq, hu.timers]) hnone

theorem Doubted.advance (h : Doubted past s) (hm : s.Permits m) :
    Doubted (past ++ [⟨s, now, m⟩]) (s.advance now m) := by
  refine ⟨h.consistent.advance hm, fun hd => ?_⟩
  obtain ⟨hk, hwhy⟩ := (conduct_advance h.consistent now hm).doubted hm hd
  rcases hwhy with hs | ⟨request, hr⟩
  · obtain ⟨hl, hsince⟩ := h.doubted hs
    have hne : m ≠ .connected := by
      rintro rfl
      rw [show s.connection.link = .connecting from hm] at hl
      cases hl
    exact ⟨hk.link hl, hsince.snoc hne⟩
  · obtain ⟨_, _, _, _, hs, _⟩ := id hr
    have hl : s.connection.link = .connected := (h.consistent.live (by simp [hs])).link
    exact ⟨hk.link hl, past, ⟨s, now, m⟩, [], request, rfl, hr, by simp⟩

/-- At every point of a chain that began before the session was opened, what is set has its
reason. -/
theorem Chain.doubted (h : Chain s past t) (hu : s.Unopened) : Doubted past t :=
  h.record (fun _ _ _ _ hI hm => hI.advance hm) hu.doubted

/-! ## Answers that were overtaken -/

/-- The answers to a poll that are handled at passages, in order. -/
def answersTo (poll : UInt8 × UInt8) (ps : List Passage) : List Bytes :=
  (ps.filterMap fun p => p.moment.handled?).filter (carries poll.1 (poll.2 + 1))

/-- Whether in a run of a session each answer to a poll bears the transaction of a request of that
poll that was sent on the connection. -/
def Echoes (s : Session) (run : List Occurrence) : Prop :=
  ∀ poll ∈ polledMessages, ∀ past q future, s.history run = past ++ q :: future →
    ∀ frame ∈ answersTo poll [q],
      ∃ sent ∈ sentFrames poll.1 poll.2 (sinceConnected past),
        transactionId? sent = transactionId? frame

/-- Whether in a run of a session no more answers to a poll bear a transaction than requests of that
poll that were sent on the connection before. -/
def AnswersOnce (s : Session) (run : List Occurrence) : Prop :=
  ∀ poll ∈ polledMessages, ∀ past q future, s.history run = past ++ q :: future →
    ∀ frame ∈ answersTo poll [q],
      (answersTo poll (sinceConnected (past ++ [q]))).countP
          (fun answer => transactionId? answer == transactionId? frame) ≤
        (sentFrames poll.1 poll.2 (sinceConnected past)).countP
          fun sent => transactionId? sent == transactionId? frame

/-- An answer to a poll is handled at `q`, after the passages `past`, while one is waited for, and
it bears the transaction of a request that was sent on this connection, but not as the last one. -/
def LateAnswer (past : List Passage) (q : Passage) : Prop :=
  ∃ request poll frame first sent others, request.isPoll = true ∧
    request.streamFunction? = some poll ∧ q.before.state = .awaitingReply request ∧
    frame ∈ answersTo poll [q] ∧
    sentFrames poll.1 poll.2 (sinceConnected past) = first ++ sent :: others ∧ others ≠ [] ∧
    transactionId? sent = transactionId? frame

/-- An answer to another poll than the one that is open was overtaken. -/
theorem Polling.lateAnswer {poll : UInt8 × UInt8}
    (h : Polling s₀ request poll.1 poll.2 past s) (hf : request.streamFunction? = some poll)
    (hm : s.Mismatches m request)
    (he : ∀ frame ∈ answersTo poll [⟨s, now, m⟩],
      ∃ sent ∈ sentFrames poll.1 poll.2 (sinceConnected past),
        transactionId? sent = transactionId? frame) : LateAnswer past ⟨s, now, m⟩ := by
  obtain ⟨frame, inbound, rfl, hr, hs, hp, hc, hid⟩ := hm
  have hmem : frame ∈ answersTo poll [⟨s, now, .frame frame⟩] := by
    refine List.mem_filter.mpr ⟨List.mem_singleton_self _, ?_⟩
    rw [carries_of_read? hr]
    exact Request.carries_of_isPolledBy hc hf
  obtain ⟨sent, hsent, hsame⟩ := he frame hmem
  obtain ⟨first, others, hsplit⟩ := List.append_of_mem hsent
  refine ⟨request, poll, frame, first, sent, others, hp, hf, hs, hmem, hsplit, ?_, hsame⟩
  -- the last request of the poll is the one that is open, and its answer is another one
  rintro rfl
  obtain ⟨last, hlast, hopen⟩ := h.sent hs
  obtain ⟨before, hbefore⟩ : sinceConnected past <:+ past := List.rtakeWhile_suffix _ _
  rw [← hbefore, sentFrames_append, hsplit, ← List.append_assoc, List.getLast?_concat] at hlast
  cases hlast
  rw [hopen, transactionId?_of_read? hr] at hsame
  exact hid (Option.some.inj hsame).symm

/-! ## Runs -/

/-- In a legal run in which each answer to a poll bears the transaction of a request of that poll
that was sent on the connection, the communication is ended only after an answer on the same
connection that came when the session had already sent another request of its poll. -/
theorem separated_after_late_answer (machine : String) (model : Model) (catalog : Catalog)
    (run : List Occurrence) (h : (ofCatalog machine model catalog).Legal run)
    (he : (ofCatalog machine model catalog).Echoes run) :
    let s := ofCatalog machine model catalog
    ∀ past p future, s.history run = past ++ p :: future → separates p = true →
      ∃ early q between, past = early ++ q :: between ∧ LateAnswer early q ∧
        ∀ r ∈ between ++ [p], r.moment ≠ .connected := by
  rintro s past ⟨t, now, m⟩ future hhist hsep
  have hu : s.Unopened := unopened_ofCatalog machine model catalog
  have hchain := chain_history h hu
  rw [hhist] at hchain
  obtain ⟨rfl, hm, -⟩ := hchain.middle
  have hdoubt : Doubted past (s.reached past) := hchain.split.1.doubted hu
  obtain ⟨acts, ho, -⟩ := course_advance hdoubt.consistent now hm
  unfold separates at hsep
  rw [actions_advance ho] at hsep
  obtain ⟨rfl, hdue⟩ := (conduct_advance hdoubt.consistent now hm).due_of_separates ho hsep
  obtain ⟨-, early, q, between, request, rfl, hmis, hsame⟩ :=
    hdoubt.doubted (by simp [isDoubted, Timers.isArmed_of_isDue hdue])
  refine ⟨early, q, between, rfl, ?_, ?_⟩
  · obtain ⟨_, _, _, _, _, hp, _⟩ := id hmis
    obtain ⟨poll, hpoll, hf⟩ := Request.streamFunction?_of_isPoll hp
    have hpolling : Polling s request poll.1 poll.2 early (s.reached early) :=
      hchain.split.1.split.1.record (fun _ _ _ _ hI hm => hI.advance hf hp hm) hu.polling
    rw [List.append_assoc, List.cons_append] at hchain hhist
    obtain ⟨hbefore, -, -⟩ := hchain.middle
    obtain ⟨u, now', m'⟩ := q
    obtain rfl : u = s.reached early := hbefore
    exact hpolling.lateAnswer hf hmis (he poll hpoll early _ _ hhist)
  · rw [List.forall_mem_append, List.forall_mem_singleton]
    exact ⟨hsame, by simp⟩

/-! ## A slow answer -/

/-- A poll that is overdue is sent again. The first answer comes when the second request has been
sent, and the second answer shortly after. -/
def crossedTalk : List Occurrence :=
  let answer (transactionId : UInt8) : Bytes :=
    [0, 0, 0, 16, 0, 0, 1, 4, 0, 0, 0, 0, 0, transactionId, 1, 1, 169, 2, 0, 42]
  openTalk ++ [(5508, .timer), (7508, .timer), (7600, .data (answer 3)), (7700, .data (answer 4)),
    (9600, .timer)]

theorem echoes_crossedTalk :
    (ofCatalog "press" {} { status := [gauge] }).Echoes crossedTalk := by
  unfold Echoes polledMessages
  rw [List.forall_mem_cons, List.forall_mem_singleton]
  exact ⟨forall_cut (by decide +kernel), forall_cut (by decide +kernel)⟩

theorem answersOnce_crossedTalk :
    (ofCatalog "press" {} { status := [gauge] }).AnswersOnce crossedTalk := by
  unfold AnswersOnce polledMessages
  rw [List.forall_mem_cons, List.forall_mem_singleton]
  exact ⟨forall_cut (by decide +kernel), forall_cut (by decide +kernel)⟩

/-- The equipment answers each request of a poll once and in order, and yet the communication is
ended. -/
theorem separated_crossedTalk :
    let s := ofCatalog "press" {} { status := [gauge] }
    s.Legal crossedTalk ∧ s.Echoes crossedTalk ∧ s.AnswersOnce crossedTalk ∧
      ¬ ∀ p ∈ s.history crossedTalk, separates p = false := by
  intro s
  exact ⟨by decide +kernel, echoes_crossedTalk, answersOnce_crossedTalk, by decide +kernel⟩

theorem separated_after_late_answer_crossedTalk :
    let s := ofCatalog "press" {} { status := [gauge] }
    s.Legal crossedTalk ∧ s.Echoes crossedTalk ∧
      ∃ past p future, s.history crossedTalk = past ++ p :: future ∧ separates p = true ∧
        ∃ early q between, past = early ++ q :: between ∧ LateAnswer early q ∧
          ∀ r ∈ between ++ [p], r.moment ≠ .connected := by
  intro s
  have h : s.Legal crossedTalk := by decide +kernel
  have hany : (s.history crossedTalk).any separates = true := by decide +kernel
  obtain ⟨p, hp, hsep⟩ := List.any_eq_true.mp hany
  obtain ⟨past, future, hsplit⟩ := List.append_of_mem hp
  exact ⟨h, echoes_crossedTalk, past, p, future, hsplit, hsep,
    separated_after_late_answer "press" {} { status := [gauge] } crossedTalk h echoes_crossedTalk
      past p future hsplit hsep⟩

end Session

end GemLink
