import GemLink.Proofs.Catalog.Sorting
import GemLink.Proofs.Session.Frames

/-!
The values of polls. A variable that is polled is told to the host by no other way, so that whenever
a value of it is handed over, the answer to its poll is at hand (`fulfils_of_brings`). While a poll
is open the answer that is awaited is that to the last request of its kind (`Polling`), and once
values have come the poll is not open until it is asked again (`Answered`). So all values come from
answers to the last request, and from one answer to each request at most (`polled_once`).
-/

namespace GemLink

/-! ## Roles -/

/-- The role of the variables that a poll asks for. -/
def Request.role : Request → Role
  | .statusVariables => .status
  | _ => .constant

theorem Request.eq_of_isPoll {request : Request} (h : request.isPoll = true) :
    request = .statusVariables ∨ request = .equipmentConstants := by
  cases request <;> first | exact .inl rfl | exact .inr rfl | cases h

theorem Request.eq_of_role {request request' : Request} (hp : request.isPoll = true)
    (hp' : request'.isPoll = true) (h : request.role = request'.role) : request = request' := by
  rcases eq_of_isPoll hp with rfl | rfl <;> rcases eq_of_isPoll hp' with rfl | rfl <;>
    first | rfl | cases h

theorem Variable.role_of_machineConnected {v : Variable} (h : v.machineConnected = true) :
    v.role = .unasked := by
  simp [role, h]

/-- A variable that shows the active alarms is not asked of the equipment. -/
theorem Variable.role_of_kind {v : Variable}
    (h : v.kind = .activeAlarmCodes ∨ v.kind = .activeAlarmTexts) : v.role = .unasked := by
  unfold role
  split
  · rfl
  · rcases h with h | h <;> rw [h]

namespace Catalog

variable {vs : List Variable} {c : Catalog} {v : Variable} {request : Request}

theorem role_of_mem_polled (h : ofVariables vs = .ok c) (hv : v ∈ c.polled request) :
    v.role = request.role := by
  obtain ⟨-, rfl⟩ := ofVariables_eq_ok_iff.mp h
  cases request <;> exact beq_iff_eq.mp (List.mem_filter.mp hv).2

/-- Every variable of a group is reported with the event of the group. -/
theorem role_of_mem_group {group : EventGroup} (h : ofVariables vs = .ok c)
    (hg : group ∈ c.groups) (hv : v ∈ group.members) : v.role = .reported group.eventId :=
  ((mem_group_iff h hg).mp hv).2

theorem role_of_volunteers (h : ofVariables vs = .ok c) (hv : c.Volunteers v) :
    v.role = .unasked ∨ ∃ e, v.role = .reported e := by
  have hgroups : ∀ group ∈ c.groups, v ∈ group.members → v.role = .reported group.eventId :=
    fun group hg hv => role_of_mem_group h hg hv
  obtain ⟨-, rfl⟩ := ofVariables_eq_ok_iff.mp h
  rcases hv with hv | hv | hv | ⟨group, hg, hv⟩
  · exact .inl (Variable.role_of_machineConnected (List.mem_filter.mp hv).2)
  · exact .inl (Variable.role_of_kind (.inl (beq_iff_eq.mp (List.mem_filter.mp hv).2)))
  · exact .inl (Variable.role_of_kind (.inr (beq_iff_eq.mp (List.mem_filter.mp hv).2)))
  · exact .inr ⟨_, hgroups group hg hv⟩

/-- The values of a polled variable do not come without its poll. -/
theorem not_volunteers_of_mem_polled (h : ofVariables vs = .ok c) (hv : v ∈ c.polled request) :
    ¬ c.Volunteers v := by
  intro hvol
  have hrole := role_of_mem_polled h hv
  rcases role_of_volunteers h hvol with hr | ⟨e, hr⟩
  · rw [hr] at hrole
    cases request <;> cases hrole
  · rw [hr] at hrole
    cases request <;> cases hrole

/-- Nor do they come with another poll. -/
theorem eq_of_mem_polled {request' : Request} (h : ofVariables vs = .ok c)
    (hp : request.isPoll = true) (hp' : request'.isPoll = true) (hv : v ∈ c.polled request)
    (hv' : v ∈ c.polled request') : request = request' :=
  Request.eq_of_role hp hp' ((role_of_mem_polled h hv).symm.trans (role_of_mem_polled h hv'))

end Catalog

/-! ## Answers -/

/-- Whether values of a poll are handed to the host at a passage. -/
def brings (c : Catalog) (request : Request) (p : Passage) : Bool :=
  p.actions.any fun
    | .publish v _ _ => decide (v ∈ c.polled request)
    | _ => false

theorem carries_of_read? {frame : Bytes} {m : Inbound} (h : Inbound.read? frame = some m)
    (stream function : UInt8) :
    carries stream function frame = m.header.carries stream function := by
  obtain ⟨header, hr, rfl⟩ := Option.map_eq_some_iff.mp h
  unfold carries
  rw [hr]
  rfl

theorem transactionId?_of_read? {frame : Bytes} {m : Inbound} (h : Inbound.read? frame = some m) :
    transactionId? frame = some m.header.system.transactionId := by
  obtain ⟨header, hr, rfl⟩ := Option.map_eq_some_iff.mp h
  unfold transactionId?
  rw [hr]
  rfl

variable {request : Request} {stream function : UInt8}

theorem exists_publish_of_brings {c : Catalog} {p : Passage} (h : brings c request p = true) :
    ∃ v value report, v ∈ c.polled request ∧ .publish v value report ∈ p.actions := by
  obtain ⟨a, ha, hv⟩ := List.any_eq_true.mp h
  cases a with
  | publish v value report => exact ⟨v, value, report, of_decide_eq_true hv, ha⟩
  | _ => cases hv

/-- The answer to a poll has the stream of the request and the function after its. -/
theorem Request.carries_of_isPolledBy {m : Inbound} (h : request.isPolledBy m = true)
    (hf : request.streamFunction? = some (stream, function)) :
    m.header.carries stream (function + 1) = true := by
  cases request <;> cases hf <;> first | exact h | cases h

theorem Request.odd_of_streamFunction? (h : request.streamFunction? = some (stream, function)) :
    function.toNat % 2 = 1 := by
  cases request <;> cases h <;> rfl

namespace Session

variable {s₀ s t : Session} {now : Nat} {m : Moment} {calls : List (String × Value)}
  {acts : List Action} {v : Variable} {value : Value} {report : Bool}

/-- On whatever course a value is handed over, it may be handed over. -/
theorem Course.allows (hc : s.Course now m calls acts t) (hm : .publish v value report ∈ acts) :
    s.Allows m (.publish v value report) := by
  have hsend : ∀ {before : List Action} {frame : Bytes},
      .publish v value report ∈ before ++ [.send frame] → .publish v value report ∈ before := by
    intro before frame h
    simpa using h
  cases hc with
  | unmoved _ _ _ ha => exact .inl (ha _ hm)
  | selected _ _ _ _ _ _ _ _ ha => exact .inl (ha _ hm)
  | asked _ _ _ _ _ ha => exact ha _ (hsend hm)
  | rested _ _ _ _ ha => exact ha _ hm
  | drained _ _ _ _ ha => exact ha _ (hsend hm)
  | posted _ _ _ _ _ _ _ _ _ ha => exact .inl (ha _ (hsend hm))
  | queued _ _ _ _ _ _ _ _ _ ha => exact .inl (ha _ hm)
  | lost _ _ _ ha => exact .inl (ha _ (by simpa using hm))
  | down _ _ _ ha => exact (ha _ hm).resolve_right (by simp [Action.isLink])
  | halted => cases hm

/-- How it comes that the answer to a request is awaited: it was awaited before and nothing came of
it, or the request is asked. -/
theorem Course.awaiting (hc : s.Course now m calls acts t) (ht : t.Consistent)
    (hr : t.state = .awaitingReply request) :
    (s.state = .awaitingReply request ∧ t.pollTransaction = s.pollTransaction ∧
        ∀ a ∈ acts, s.Neutral a) ∨
      ∃ before, s.Asks now m request ∧ (∀ a ∈ before, s.Allows m a) ∧
        acts = before ++ [.send (s.requestFrame request s.nextTransaction)] ∧
        t.pollTransaction = if request.isPoll then s.nextTransaction else s.pollTransaction := by
  have hl : t.connection.link = .connected := (ht.live (by simp [hr])).link
  cases hc with
  | unmoved _ _ _ ha hmoves => exact .inl ⟨hmoves.state ▸ hr, hmoves.poll, ha⟩
  | queued _ _ _ _ _ _ _ _ _ ha hmoves => exact .inl ⟨hmoves.state ▸ hr, hmoves.poll, ha⟩
  | halted _ _ _ hmoves => exact .inl ⟨hmoves.state ▸ hr, hmoves.poll, List.forall_mem_nil _⟩
  | asked _ before request' _ why ha _ hs _ hi =>
    obtain rfl : request' = request := by
      rw [hs] at hr
      cases hr
      rfl
    exact .inr ⟨before, why, ha, rfl, hi⟩
  | selected _ _ _ _ _ _ _ _ _ hmoves => simp [hmoves.state] at hr
  | rested _ _ _ _ _ _ hmoves => simp [hmoves.state] at hr
  | drained _ _ _ _ _ _ _ _ hmoves => simp [hmoves.state] at hr
  | posted _ _ _ _ _ _ _ _ _ _ hmoves => simp [hmoves.state] at hr
  | lost _ _ _ _ _ _ hd => simp [hl] at hd
  | down _ _ _ _ hd => exact absurd hl hd

/-- The answer to a poll is no reason to ask it again. -/
theorem Asks.not_fulfils (why : s.Asks now m request) : ¬ s.Fulfils m request := by
  rintro ⟨frame, inbound, hm, -, hs, hp, -, -⟩
  cases why with
  | advanced _ _ _ _ _ _ _ hn => simp [isPoll_of_following? hn] at hp
  | followed _ _ _ hs' _ => simp [hs] at hs'
  | _ => cases hm

/-- When values of a poll are handed over, the answer to it is at hand, and it is open no longer. -/
theorem fulfils_of_brings {vs : List Variable} (hcat : Catalog.ofVariables vs = .ok s₀.catalog)
    (hp : request.isPoll = true) (h : Descends s₀ s) (hm : s.Permits m)
    (hb : brings s₀.catalog request ⟨s, now, m⟩ = true) :
    s.Fulfils m request ∧ (s.advance now m).state ≠ .awaitingReply request := by
  obtain ⟨v, value, report, hv, hpub⟩ := exists_publish_of_brings hb
  obtain ⟨acts, ho, hc⟩ := course_advance h.consistent now hm
  rw [actions_advance ho] at hpub
  -- what leaves a poll open is neutral, and that no value of a polled variable is
  have hloud : ¬ s.Neutral (.publish v value report) := fun hn =>
    Catalog.not_volunteers_of_mem_polled hcat hv (h.catalog ▸ hn.2 v value report rfl)
  have hful : s.Fulfils m request := by
    rcases hc.allows hpub with hn | ⟨request', _, _, _, hful, hv', he⟩
    · exact absurd hn hloud
    · obtain ⟨_, _, _, _, _, hp', _⟩ := id hful
      cases he
      rw [h.catalog] at hv'
      rwa [Catalog.eq_of_mem_polled hcat hp hp' hv hv']
  refine ⟨hful, fun hr => ?_⟩
  rcases hc.awaiting (h.consistent.advance hm) hr with ⟨-, -, hn⟩ | ⟨before, why, -⟩
  · exact hloud (hn _ hpub)
  · exact why.not_fulfils hful

/-! ## Runs -/

/-- What holds of a session with a past, if it began as `s₀`: while a poll is open, the answer that
is awaited is that to the last request of its kind. -/
structure Polling (s₀ : Session) (request : Request) (stream function : UInt8)
    (past : List Passage) (s : Session) : Prop extends Descends s₀ s where
  sent : s.state = .awaitingReply request → ∃ frame,
    (sentFrames stream function past).getLast? = some frame ∧
      transactionId? frame = some s.pollTransaction

/-- What holds of a session that began as `s₀` since an answer to a poll has come: the poll is not
open until it is asked again. -/
structure Answered (s₀ : Session) (request : Request) (stream function : UInt8)
    (since : List Passage) (s : Session) : Prop extends Descends s₀ s where
  closed : sentFrames stream function since = [] → s.state ≠ .awaitingReply request

variable {past since : List Passage}

section

variable (hf : request.streamFunction? = some (stream, function))
include hf

theorem framesIn_asked {before : List Action} (ha : ∀ a ∈ before, s.Allows m a) :
    framesIn stream function
        (before ++ [.send (s.requestFrame request s.nextTransaction)]) =
      [s.requestFrame request s.nextTransaction] := by
  rw [framesIn_append, framesIn_of_allows (Request.odd_of_streamFunction? hf) ha, framesIn_send,
    carries_requestFrame, hf]
  simp

theorem Polling.advance (hp : request.isPoll = true)
    (h : Polling s₀ request stream function past s) (hm : s.Permits m) :
    Polling s₀ request stream function (past ++ [⟨s, now, m⟩]) (s.advance now m) := by
  have hnext : Descends s₀ (s.advance now m) := h.toDescends.advance hm
  refine ⟨hnext, fun hr => ?_⟩
  obtain ⟨acts, ho, hc⟩ := course_advance h.consistent now hm
  rw [sentFrames_append, sentFrames_singleton ho]
  rcases hc.awaiting hnext.consistent hr with ⟨hs, hi, hn⟩ | ⟨before, -, ha, rfl, hi⟩
  · rw [framesIn_of_neutral (Request.odd_of_streamFunction? hf) hn, List.append_nil, hi]
    exact h.sent hs
  · rw [framesIn_asked hf ha, hi, if_pos hp]
    exact ⟨_, List.getLast?_concat, transactionId?_requestFrame s _ _⟩

theorem Answered.advance (h : Answered s₀ request stream function since s) (hm : s.Permits m) :
    Answered s₀ request stream function (since ++ [⟨s, now, m⟩]) (s.advance now m) := by
  have hnext : Descends s₀ (s.advance now m) := h.toDescends.advance hm
  refine ⟨hnext, fun hnone hr => ?_⟩
  obtain ⟨acts, ho, hc⟩ := course_advance h.consistent now hm
  rw [sentFrames_append, sentFrames_singleton ho, List.append_eq_nil_iff] at hnone
  rcases hc.awaiting hnext.consistent hr with ⟨hs, -, -⟩ | ⟨before, -, ha, rfl, -⟩
  · exact h.closed hnone.1 hs
  · rw [framesIn_asked hf ha] at hnone
    cases hnone.2

end

theorem Unopened.polling (hu : s.Unopened) : Polling s request stream function [] s :=
  ⟨hu.descends, fun hr => by simp [hu.state] at hr⟩

/-- Whenever values of a poll are handed to the host, its answer is at hand while it is awaited, and
the answer is to the last request of its kind that was sent. Before more values of the poll are
handed over, it is asked again. -/
theorem polled_once (machine : String) (model : Model) (vs : List Variable) (catalog : Catalog)
    (hcat : Catalog.ofVariables vs = .ok catalog) (run : List Occurrence)
    (h : (ofCatalog machine model catalog).Legal run) (request : Request)
    (hp : request.isPoll = true) (stream function : UInt8)
    (hf : request.streamFunction? = some (stream, function)) :
    let s₀ := ofCatalog machine model catalog
    ∀ past p future, s₀.history run = past ++ p :: future → brings catalog request p = true →
      (∃ frame sent transactionId, p.moment = .frame frame ∧
          p.before.state = .awaitingReply request ∧
          carries stream (function + 1) frame = true ∧
          transactionId? frame = some transactionId ∧
          (sentFrames stream function past).getLast? = some sent ∧
          transactionId? sent = some transactionId) ∧
        ∀ between q rest, future = between ++ q :: rest → brings catalog request q = true →
          sentFrames stream function between ≠ [] := by
  rintro s₀ past ⟨s, now, m⟩ future hhist hb
  have hu : s₀.Unopened := unopened_ofCatalog machine model catalog
  have hchain := chain_history h hu
  rw [hhist] at hchain
  obtain ⟨rfl, hm, hlater⟩ := hchain.middle
  have hpoll : Polling s₀ request stream function past (s₀.reached past) :=
    hchain.split.1.record (fun _ _ _ _ hI hm => hI.advance hf hp hm) hu.polling
  obtain ⟨hful, hclosed⟩ := fulfils_of_brings hcat hp hpoll.toDescends hm hb
  refine ⟨?_, ?_⟩
  · obtain ⟨frame, inbound, hframe, hread, hs, -, hans, hid⟩ := hful
    obtain ⟨sent, hlast, hsent⟩ := hpoll.sent hs
    refine ⟨frame, sent, _, hframe, hs, ?_, transactionId?_of_read? hread, hlast, hid ▸ hsent⟩
    rw [carries_of_read? hread]
    exact Request.carries_of_isPolledBy hans hf
  · -- had nothing been asked between, the poll would not be open at the later passage
    rintro between ⟨t, now', m'⟩ rest rfl hb' hnone
    obtain ⟨rfl, hm', -⟩ := hlater.middle
    have hanswered : Answered s₀ request stream function []
        (Passage.after ⟨s₀.reached past, now, m⟩) :=
      ⟨hpoll.toDescends.advance hm, fun _ => hclosed⟩
    have hover : Answered s₀ request stream function between _ :=
      hlater.split.1.record (fun _ _ _ _ hI hm => hI.advance hf hm) hanswered
    obtain ⟨⟨_, _, _, _, hs, _⟩, -⟩ := fulfils_of_brings hcat hp hover.toDescends hm' hb'
    exact hover.closed hnone hs

/-- A machine whose pressure is polled. -/
def gauge : Variable where
  name := "pressure"
  format := .uint16
  kind := .statusVariable
  numericId := some 1001

/-- Two polls. The answer to the first comes twice, and once more before that to the second. -/
def gaugeTalk : List Occurrence :=
  let answer (transactionId : UInt8) : Bytes :=
    [0, 0, 0, 16, 0, 0, 1, 4, 0, 0, 0, 0, 0, transactionId, 1, 1, 169, 2, 0, 42]
  openTalk ++ [(5508, .timer), (5600, .data (answer 3 ++ answer 3)), (10600, .timer),
    (10700, .data (answer 3)), (10800, .data (answer 4))]

theorem polled_once_gaugeTalk :
    let catalog : Catalog := { status := [gauge] }
    let s := ofCatalog "press" {} catalog
    Catalog.ofVariables [gauge] = .ok catalog ∧ s.Legal gaugeTalk ∧
      ∃ past p between q rest, s.history gaugeTalk = past ++ p :: (between ++ q :: rest) ∧
        brings catalog .statusVariables p = true ∧ brings catalog .statusVariables q = true ∧
        (∃ frame sent transactionId, p.moment = .frame frame ∧
          p.before.state = .awaitingReply .statusVariables ∧ carries 1 4 frame = true ∧
          transactionId? frame = some transactionId ∧
          (sentFrames 1 3 past).getLast? = some sent ∧
          transactionId? sent = some transactionId) ∧
        sentFrames 1 3 between ≠ [] := by
  intro catalog s
  have hcat : Catalog.ofVariables [gauge] = .ok catalog := rfl
  have h : s.Legal gaugeTalk := by decide +kernel
  have hfirst : ((s.history gaugeTalk).take 18).any (brings catalog .statusVariables) = true := by
    decide +kernel
  have hsecond : ((s.history gaugeTalk).drop 18).any (brings catalog .statusVariables) = true := by
    decide +kernel
  obtain ⟨p, hp, hb⟩ := List.any_eq_true.mp hfirst
  obtain ⟨q, hq, hb'⟩ := List.any_eq_true.mp hsecond
  obtain ⟨past, meanwhile, hpast⟩ := List.append_of_mem hp
  obtain ⟨meanwhile', rest, hrest⟩ := List.append_of_mem hq
  have hsplit : s.history gaugeTalk = past ++ p :: (meanwhile ++ meanwhile' ++ q :: rest) := by
    rw [← List.take_append_drop 18 (s.history gaugeTalk), hpast, hrest]
    simp
  obtain ⟨hanswer, hagain⟩ := polled_once "press" {} [gauge] catalog hcat gaugeTalk h
    .statusVariables rfl 1 3 rfl past p _ hsplit hb
  exact ⟨hcat, h, past, p, meanwhile ++ meanwhile', q, rest, hsplit, hb, hb', hanswer,
    hagain _ q rest rfl hb'⟩

end Session

end GemLink
