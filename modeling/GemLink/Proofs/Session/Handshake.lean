import GemLink.Proofs.Session.Frames
import GemLink.Proofs.Session.Turn

/-!
The order of a handshake. What happens to a session is noted as a list of marks: the beginnings of
handshakes, the frames that are handled, and the actions that are taken. `Climbed` says of marks
that requests were asked in order, each accepted before the next was asked, and that no other
primary message was sent meanwhile; `Climbing` says how far the marks since the last beginning have
come when a session waits for something. A legal run never leaves this (`noted_chain`), so that a
handshake is complete only after all its requests, and values are asked for and written only while
it is (`handshake_in_order`).
-/

namespace GemLink

/-- Whether a frame polls values or writes one: S1F3, S2F13 and S2F15. -/
def isOperation (frame : Bytes) : Bool :=
  (Header.read? frame).any fun h => h.carries 1 3 || h.carries 2 13 || h.carries 2 15

theorem isOperation_eq (frame : Bytes) :
    isOperation frame = (carries 1 3 frame || carries 2 13 frame || carries 2 15 frame) := by
  unfold isOperation carries
  cases Header.read? frame <;> rfl

theorem isPrimary_of_isOperation {frame : Bytes} (h : isOperation frame = true) :
    isPrimary frame = true := by
  rw [isOperation_eq, Bool.or_eq_true, Bool.or_eq_true] at h
  rcases h with (h | h) | h
  · exact isPrimary_of_carries h rfl
  · exact isPrimary_of_carries h rfl
  · exact isPrimary_of_carries h rfl

namespace Session

/-! ## Requests -/

/-- Of all requests only polls ask for values. -/
theorem isOperation_requestFrame (s : Session) (request : Request) (transactionId : UInt16) :
    isOperation (s.requestFrame request transactionId) = request.isPoll := by
  rw [isOperation_eq, carries_requestFrame, carries_requestFrame, carries_requestFrame]
  cases request <;> rfl

theorem requestFrame_congr {s t : Session} (hc : t.catalog = s.catalog)
    (hp : t.parties = s.parties) (request : Request) (transactionId : UInt16) :
    t.requestFrame request transactionId = s.requestFrame request transactionId := by
  unfold requestFrame
  rw [hc, hp]

/-- A request of the handshake is followed by the next one in the order. -/
theorem following?_eq {c : Catalog} {i : Nat} {request : Request}
    (h : c.handshake[i]? = some request) : c.following? request = c.handshake[i + 1]? := by
  unfold Catalog.handshake at h ⊢
  unfold Catalog.following?
  by_cases hr : c.hasReports = true
  · rw [if_pos hr] at h ⊢
    match i, h with
    | 0, h | 1, h | 2, h | 3, h | 4, h | 5, h => cases h; simp [hr]
  · rw [if_neg hr] at h ⊢
    match i, h with
    | 0, h | 1, h => cases h; simp [hr]

theorem select_not_mem_handshake (c : Catalog) : Request.select ∉ c.handshake := by
  unfold Catalog.handshake
  split <;> simp

end Session

/-! ## Marks -/

/-- What is noted of a moment. -/
def Passage.marks (p : Passage) : List Mark :=
  p.before.entry p.now p.moment ++ p.actions.map .did

/-- Whether a mark leaves the connection alone and is no send of a primary message. -/
def Mark.isQuiet : Mark → Bool
  | .begun => false
  | .handled _ => true
  | .did action => action.isQuiet

/-- Whether a mark is a send of a request. -/
def Mark.Asks (s : Session) (request : Request) (mark : Mark) : Prop :=
  ∃ transactionId, mark = .did (.send (s.requestFrame request transactionId))

namespace Session

/-- The marks of requests that were asked in order, each accepted before the next was asked. The
same request may have been asked again, and messages that are not primary may have been sent, but
nothing else was asked, and the connection was the same all the time. -/
inductive Climbed (s : Session) : List Request → List Mark → Prop
  | nil : Climbed s [] []
  | snoc {requests : List Request} {log : List Mark} (h : Climbed s requests log)
      (gap : List Mark) (hg : ∀ mark ∈ gap, mark.isQuiet = true) (request : Request)
      (asked : Mark) (ha : asked.Asks s request) (meanwhile : List Mark)
      (hw : ∀ mark ∈ meanwhile, mark.isQuiet = true ∨ mark.Asks s request) (frame : Bytes)
      (m : Inbound) (hm : Inbound.read? frame = some m) (hc : request.isAcceptedBy m = true) :
      Climbed s (requests ++ [request]) (log ++ gap ++ asked :: meanwhile ++ [.handled frame])

/-- How far the marks since the beginning of a handshake have come when a session is in a state. -/
inductive Climbing (s : Session) : CommState → List Mark → Prop
  | opening (state : CommState)
      (hs : state = .awaitingReply .select ∨ state = .awaitingEquipment) (log : List Mark)
      (h : ∀ mark ∈ log, mark.isQuiet = true) : Climbing s state log
  | asking (i : Nat) (request : Request) (hi : s.catalog.handshake[i]? = some request)
      (log : List Mark) (h : Climbed s (s.catalog.handshake.take i) log) (gap : List Mark)
      (hg : ∀ mark ∈ gap, mark.isQuiet = true) (asked : Mark) (ha : asked.Asks s request)
      (meanwhile : List Mark)
      (hw : ∀ mark ∈ meanwhile, mark.isQuiet = true ∨ mark.Asks s request) :
      Climbing s (.awaitingReply request) (log ++ gap ++ asked :: meanwhile)

variable {s t : Session} {state : CommState} {log marks : List Mark}

namespace Climbing

/-- What is quiet changes nothing. -/
theorem quiet (h : Climbing s state log) (hq : ∀ mark ∈ marks, mark.isQuiet = true) :
    Climbing s state (log ++ marks) := by
  cases h with
  | opening _ hs _ h =>
    refine .opening state hs _ ?_
    rw [List.forall_mem_append]
    exact ⟨h, hq⟩
  | asking i request hi log h gap hg asked ha meanwhile hw =>
    rw [List.append_assoc, List.cons_append]
    refine .asking i request hi log h gap hg asked ha _ ?_
    rw [List.forall_mem_append]
    exact ⟨hw, fun mark hm => .inl (hq mark hm)⟩

theorem opened (h : Climbing s (.awaitingReply .select) log) :
    Climbing s .awaitingEquipment log := by
  cases h with
  | opening _ _ _ h => exact .opening _ (.inr rfl) log h
  | asking i _ hi => exact absurd (List.mem_of_getElem? hi) (select_not_mem_handshake _)

/-- The request that belongs to a state may be sent. -/
theorem retried (h : Climbing s state log) {request : Request} (hr : state.retry? = some request)
    (hq : ∀ mark ∈ marks, mark.isQuiet = true) {asked : Mark} (ha : asked.Asks s request) :
    Climbing s (.awaitingReply request) (log ++ (marks ++ [asked])) := by
  cases h with
  | opening _ hs _ h =>
    rcases hs with rfl | rfl
    · cases hr
      refine .opening _ (.inl rfl) _ ?_
      simp only [List.forall_mem_append, List.forall_mem_singleton]
      obtain ⟨transactionId, rfl⟩ := ha
      exact ⟨h, hq, Action.isQuiet_send (s.parties.isPrimary_control _ _)⟩
    · cases hr
      have hg : ∀ mark ∈ log ++ marks, mark.isQuiet = true := by
        rw [List.forall_mem_append]
        exact ⟨h, hq⟩
      have hn := Climbing.asking 0 .establish rfl [] .nil (log ++ marks) hg asked ha [] (by simp)
      rwa [List.nil_append, List.append_assoc] at hn
  | asking i _ hi log h gap hg first hf meanwhile hw =>
    cases hr
    rw [List.append_assoc, List.cons_append]
    refine .asking i request hi log h gap hg first hf _ ?_
    simp only [List.forall_mem_append, List.forall_mem_singleton]
    exact ⟨hw, fun mark hm => .inl (hq mark hm), .inr ha⟩

/-- A request of the handshake that is accepted has been climbed. -/
theorem accepted {request : Request} (h : Climbing s (.awaitingReply request) log) {frame : Bytes}
    {m : Inbound} (hm : Inbound.read? frame = some m) (hc : request.isAcceptedBy m = true) :
    ∃ i, s.catalog.handshake[i]? = some request ∧
      Climbed s (s.catalog.handshake.take (i + 1)) (log ++ [.handled frame]) := by
  cases h with
  | opening _ hs _ h =>
    rcases hs with hs | hs
    · cases hs
      cases hc
    · cases hs
  | asking i _ hi log h gap hg asked ha meanwhile hw =>
    refine ⟨i, hi, ?_⟩
    rw [List.take_add_one, hi]
    exact .snoc h gap hg request asked ha meanwhile hw frame m hm hc

end Climbing

/-! ## Runs -/

/-- What is noted of passages. -/
def noted (ps : List Passage) : List Mark :=
  ps.flatMap Passage.marks

/-- What holds of a session of which a log was noted, if it began as `s₀`. -/
structure Noted (s₀ : Session) (log : List Mark) (s : Session) : Prop where
  catalog : s.catalog = s₀.catalog
  parties : s.parties = s₀.parties
  consistent : s.Consistent
  /-- A handshake that goes on has climbed since it began. -/
  climbing : s.connection.link = .connected → s.handshakeComplete = false →
    ∃ early late, log = early ++ .begun :: late ∧ Climbing s₀ s.state late

theorem forall_mem_map_did {acts : List Action} (h : ∀ a ∈ acts, a.isQuiet = true) :
    ∀ mark ∈ acts.map Mark.did, mark.isQuiet = true := by
  intro mark hm
  obtain ⟨a, ha, rfl⟩ := List.mem_map.mp hm
  exact h a ha

/-- What a turn comes to for the climb of a handshake. -/
theorem climbing_turn {s₀ : Session} {entry : List Mark} {acts : List Action}
    (hf : ∀ request transactionId, s.requestFrame request transactionId =
      s₀.requestFrame request transactionId) (hc : s.catalog = s₀.catalog)
    (h : s.connection.link = .connected → s.handshakeComplete = false →
      ∃ early late, log = early ++ .begun :: late ∧ Climbing s₀ s.state late)
    (ht : Turn s entry acts t) (hl : t.connection.link = .connected)
    (hh : t.handshakeComplete = false) :
    ∃ early late, log ++ (entry ++ acts.map .did) = early ++ .begun :: late ∧
      Climbing s₀ t.state late := by
  cases ht with
  | quiet _ _ _ he ha hs hlink hsame =>
    obtain ⟨early, late, rfl, hcl⟩ := h (hlink ▸ hl) (hsame ▸ hh)
    have hq : ∀ mark ∈ entry ++ acts.map Mark.did, mark.isQuiet = true := by
      rw [List.forall_mem_append]
      refine ⟨?_, forall_mem_map_did ha⟩
      rcases he with rfl | ⟨frame, rfl⟩
      · simp
      · simp [Mark.isQuiet]
    refine ⟨early, late ++ (entry ++ acts.map .did), by simp, ?_⟩
    rcases hs with hs | ⟨hs, ht⟩
    · rw [hs]
      exact hcl.quiet hq
    · rw [hs] at hcl
      rw [ht]
      exact hcl.opened.quiet hq
  | begun acts _ request transactionId hr ha hs _ =>
    refine ⟨log, acts.map .did ++ [.did (.send (s.requestFrame request transactionId))], by simp, ?_⟩
    have hq := forall_mem_map_did ha
    have hasks : Mark.Asks s₀ request (.did (.send (s.requestFrame request transactionId))) :=
      ⟨transactionId, by rw [hf]⟩
    rw [hs]
    rcases hr with rfl | rfl
    · exact (Climbing.opening (.awaitingReply .select) (.inl rfl) [] (by simp)).retried rfl hq hasks
    · exact (Climbing.opening .awaitingEquipment (.inr rfl) [] (by simp)).retried rfl hq hasks
  | retried acts _ request transactionId hr ha hs hlink hsame =>
    obtain ⟨early, late, rfl, hcl⟩ := h (hlink ▸ hl) (hsame ▸ hh)
    refine ⟨early, late ++ (acts.map .did ++ [.did (.send (s.requestFrame request transactionId))]),
      by simp, ?_⟩
    rw [hs]
    exact hcl.retried hr (forall_mem_map_did ha) ⟨transactionId, by rw [hf]⟩
  | advanced acts _ frame m request next transactionId hm hr hacc hn ha hs hlink hsame =>
    obtain ⟨early, late, rfl, hcl⟩ := h (hlink ▸ hl) (hsame ▸ hh)
    rw [hr] at hcl
    obtain ⟨i, hi, hclimbed⟩ := hcl.accepted hm hacc
    rw [hc, following?_eq hi] at hn
    refine ⟨early, late ++ [.handled frame] ++ acts.map .did ++
      [.did (.send (s.requestFrame next transactionId))], by simp, ?_⟩
    rw [hs]
    exact .asking (i + 1) next hn _ hclimbed _ (forall_mem_map_did ha) _
      ⟨transactionId, by rw [hf]⟩ [] (by simp)
  | completed _ _ _ _ _ _ _ _ _ ht => simp [ht] at hh
  | established _ _ _ _ ht => simp [ht] at hh
  | down _ _ _ _ hd => exact absurd hl hd

/-- What is noted stays true at every permitted moment. -/
theorem Noted.advance {s₀ : Session} (h : Noted s₀ log s) {now : Nat} {m : Moment}
    (hm : s.Permits m) :
    Noted s₀ (log ++ Passage.marks ⟨s, now, m⟩) (s.advance now m) := by
  obtain ⟨hc, hp⟩ := setup_fixed s now m
  obtain ⟨acts, ho, ht⟩ := turn_advance h.consistent now hm
  refine ⟨hc.trans h.catalog, hp.trans h.parties, h.consistent.advance hm, ?_⟩
  have hacts : Passage.actions ⟨s, now, m⟩ = acts := actions_eq ho
  unfold Passage.marks
  rw [hacts]
  exact climbing_turn (requestFrame_congr h.catalog h.parties) h.catalog h.climbing ht

theorem noted_chain {s₀ s' : Session} {pre post : List Passage} {p : Passage}
    (hc : Chain s₀ (pre ++ p :: post) s') (h : Noted s₀ (noted []) s₀) :
    Noted s₀ (noted pre) p.before ∧ p.before.Permits p.moment := by
  obtain ⟨hbefore, hm, -⟩ := hc.middle
  refine ⟨?_, hm⟩
  have hstep : ∀ ps t now m, Noted s₀ (noted ps) t → t.Permits m →
      Noted s₀ (noted (ps ++ [⟨t, now, m⟩])) (t.advance now m) := by
    intro ps t now m hn hm
    rw [noted, List.flatMap_append, List.flatMap_singleton]
    exact hn.advance hm
  rw [hbefore]
  exact hc.split.1.record hstep h

theorem Unopened.noted (hu : s.Unopened) : Noted s [] s := by
  refine ⟨rfl, rfl, hu.consistent, fun hc => ?_⟩
  rw [hu.connection] at hc
  cases hc

/-- What is noted of a moment begins with a handled frame only if the frame is handled then. -/
theorem eq_frame_of_entry {m : Moment} {now : Nat} {frame : Bytes}
    (h : s.entry now m = [.handled frame]) : m = .frame frame := by
  unfold entry at h
  split at h
  · cases h
    rfl
  · split at h <;> cases h
  · split at h <;> cases h
  · cases h

/-- A handshake that becomes complete has climbed through all its requests. -/
theorem Noted.completed {s₀ : Session} (h : Noted s₀ log s) {now : Nat} {m : Moment}
    (hm : s.Permits m) (hb : s.handshakeComplete = false)
    (ha : (s.advance now m).handshakeComplete = true) :
    ∃ frame early late, m = .frame frame ∧ log ++ [.handled frame] = early ++ .begun :: late ∧
      Climbed s₀ s₀.catalog.handshake late := by
  obtain ⟨acts, -, ht⟩ := turn_advance h.consistent now hm
  generalize he : s.entry now m = entry at ht
  cases ht with
  | quiet _ _ _ _ _ _ _ hh => simp [hh, hb] at ha
  | begun _ _ _ _ _ _ _ hh => simp [hh] at ha
  | retried _ _ _ _ _ _ _ _ hh => simp [hh, hb] at ha
  | advanced _ _ _ _ _ _ _ _ _ _ _ _ _ _ hh => simp [hh, hb] at ha
  | established _ _ _ hh _ => simp [hh] at hb
  | down _ _ _ _ hl =>
    have hi := (h.consistent.advance hm).sound.incomplete hl
    simp [hi] at ha
  | completed _ _ frame inbound request hi hr hc hn _ =>
    have hl : s.connection.link = .connected := (h.consistent.live (by simp [hr])).link
    obtain ⟨early, late, rfl, hcl⟩ := h.climbing hl hb
    rw [hr] at hcl
    obtain ⟨i, hreq, hclimbed⟩ := hcl.accepted hi hc
    rw [h.catalog, following?_eq hreq] at hn
    rw [List.take_of_length_le (List.getElem?_eq_none_iff.mp hn)] at hclimbed
    refine ⟨frame, early, late ++ [.handled frame], eq_frame_of_entry he, ?_, hclimbed⟩
    rw [List.append_assoc, List.cons_append]

/-- A poll is sent again only while its answer is waited for. -/
theorem awaitingReply_of_isPoll {request : Request} (h : state.retry? = some request)
    (hp : request.isPoll = true) : state = .awaitingReply request := by
  cases state with
  | idle => cases h
  | awaitingReply _ =>
    cases h
    rfl
  | awaitingEquipment =>
    cases h
    cases hp
  | awaitingWrite => cases h

/-- What sends no primary message polls and writes no values. -/
theorem not_mem_of_isOperation {frame : Bytes} (h : isOperation frame = true) {acts : List Action}
    (ha : ∀ a ∈ acts, a.isPrimary = false) : Action.send frame ∉ acts := by
  intro hm
  have hp : isPrimary frame = false := ha _ hm
  rw [isPrimary_of_isOperation h] at hp
  cases hp

/-- If all is quiet but the request at the end, values are polled only when that is a poll. -/
theorem isPoll_of_isOperation {frame : Bytes} (h : isOperation frame = true) {acts : List Action}
    (ha : ∀ a ∈ acts, a.isQuiet = true) {request : Request} {transactionId : UInt16}
    (hf : .send frame ∈ acts ++ [.send (s.requestFrame request transactionId)]) :
    request.isPoll = true := by
  rw [← isOperation_requestFrame s request transactionId]
  rcases List.mem_append.mp hf with hm | hm
  · have hq := fun a hm => Action.isPrimary_of_isQuiet (ha a hm)
    exact absurd hm (not_mem_of_isOperation h hq)
  · rw [List.mem_singleton, Action.send.injEq] at hm
    rw [← hm, h]

/-- Values are polled and written only while communication is established. -/
theorem Turn.established_of_isOperation {entry : List Mark} {acts : List Action}
    (h : Turn s entry acts t) (hs : s.Consistent) {frame : Bytes} (hf : .send frame ∈ acts)
    (ho : isOperation frame = true) : t.handshakeComplete = true := by
  cases h with
  | quiet _ _ _ _ ha =>
    have hq := fun a hm => Action.isPrimary_of_isQuiet (ha a hm)
    exact absurd hf (not_mem_of_isOperation ho hq)
  | begun _ _ request _ hr ha _ _ =>
    have hpoll := isPoll_of_isOperation ho ha hf
    rcases hr with rfl | rfl
    · cases hpoll
    · cases hpoll
  | retried _ _ request _ hr ha _ _ hh =>
    have hpoll := isPoll_of_isOperation ho ha hf
    rw [hh]
    exact (hs.established_of_isPoll (awaitingReply_of_isPoll hr hpoll) hpoll).2
  | advanced _ _ _ _ request next _ _ _ _ hn ha =>
    have hpoll := isPoll_of_isOperation ho ha hf
    rw [isPoll_of_following? hn] at hpoll
    cases hpoll
  | completed _ _ _ _ _ _ _ _ _ ht => exact ht
  | established _ _ _ _ ht => exact ht
  | down _ _ _ ha => exact absurd hf (not_mem_of_isOperation ho ha)

/-- In a legal run a handshake becomes complete only when a frame is handled, and what was noted
since the last beginning of a handshake are then all requests of the handshake in their order, each
accepted before the next was asked, on one connection and with nothing else asked between them.
Values are polled and written only while the handshake is complete. -/
theorem handshake_in_order (machine : String) (model : Model) (catalog : Catalog)
    (run : List Occurrence) (h : (ofCatalog machine model catalog).Legal run) :
    let s := ofCatalog machine model catalog
    (∀ pre p post, s.history run = pre ++ p :: post →
      p.before.handshakeComplete = false → p.after.handshakeComplete = true →
        ∃ frame early late, p.moment = .frame frame ∧
          noted pre ++ [.handled frame] = early ++ .begun :: late ∧
          Climbed s catalog.handshake late) ∧
      ∀ p ∈ s.history run, ∀ frame, .send frame ∈ p.actions → isOperation frame = true →
        p.after.handshakeComplete = true := by
  intro s
  have hu := unopened_ofCatalog machine model catalog
  refine ⟨?_, ?_⟩
  · intro pre p post hp hb ha
    have hc := chain_history h hu
    rw [hp] at hc
    obtain ⟨hn, hm⟩ := noted_chain hc hu.noted
    exact hn.completed hm hb ha
  · intro p hp frame hf ho
    obtain ⟨hc, hm, -⟩ := consistent_history h hu p hp
    obtain ⟨acts, hacts, ht⟩ := turn_advance hc p.now hm
    rw [actions_eq hacts] at hf
    exact ht.established_of_isOperation hc hf ho

/-- A handshake whose request to establish communication is sent twice before it is answered. -/
def slowHandshake : List Occurrence :=
  [(0, .opened), (5, .connected), (6, .data [0, 0, 0, 10, 255, 255, 0, 0, 0, 2, 0, 0, 0, 1]),
    (5006, .timer), (10006, .timer),
    (10007, .data [0, 0, 0, 17, 0, 0, 1, 14, 0, 0, 0, 0, 0, 2, 1, 2, 33, 1, 0, 1, 0]),
    (10008, .data [0, 0, 0, 13, 0, 0, 5, 4, 0, 0, 0, 0, 0, 3, 33, 1, 0])]

theorem handshake_in_order_slowHandshake :
    let s := ofCatalog "press" {} {}
    s.Legal slowHandshake ∧ (s.after slowHandshake).handshakeComplete = true ∧
      ∀ pre p post, s.history slowHandshake = pre ++ p :: post →
        p.before.handshakeComplete = false → p.after.handshakeComplete = true →
          ∃ frame early late, p.moment = .frame frame ∧
            noted pre ++ [.handled frame] = early ++ .begun :: late ∧
            Climbed s [.establish, .enableAlarms] late := by
  have h : (ofCatalog "press" {} {}).Legal slowHandshake := by decide +kernel
  exact ⟨h, by decide +kernel, (handshake_in_order "press" {} {} slowHandshake h).1⟩

end Session

end GemLink
