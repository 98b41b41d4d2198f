import GemLink.Proofs.Session.Acceptance
import GemLink.Proofs.Session.Cycles
import GemLink.Proofs.Session.Outcomes

/-!
The answer to a poll. Whatever its bytes are, each variable that was asked for has one outcome, and
the session goes on (`poll_answer_outcomes`): it polls the equipment constants, or leaves nothing
open, unless writes wait, of which the first is sent at once (`not_advancesPoll_overlappedPoll`).
-/

namespace GemLink

namespace Session

variable {s : Session} {request : Request} {now : Nat} {frame : Bytes} {m : Inbound}

/-! ## What comes after a poll -/

/-- How a session `s` proceeds to `t` when a poll is over, with the actions that this takes. -/
inductive Proceeds (s : Session) (request : Request) (t : Session) : List Action → Prop
  /-- The equipment constants are polled after the status variables. -/
  | constants (hs : s.stopping = false) (hr : request = .statusVariables)
      (hc : s.catalog.constants ≠ []) (ht : t.state = .awaitingReply .equipmentConstants) :
      Proceeds s request t [.send (s.requestFrame .equipmentConstants s.nextTransaction)]
  /-- All is polled, and the first of the writes that wait is sent. -/
  | write {w : PendingWrite} {rest : List PendingWrite} (hs : s.stopping = false)
      (hr : request = .statusVariables → s.catalog.constants = [])
      (hw : s.pendingWrites = w :: rest) (ht : t.state = .awaitingWrite)
      (hrest : t.pendingWrites = rest) :
      Proceeds s request t [.send (s.writeFrame w s.nextTransaction)]
  /-- All is polled, and no write waits. -/
  | idle (hs : s.stopping = false) (hr : request = .statusVariables → s.catalog.constants = [])
      (hw : s.pendingWrites = []) (ht : t.state = .idle) : Proceeds s request t []
  /-- A stop comes to its end. -/
  | stopped (hs : s.stopping = true) (ht : t.state = .idle) (ho : t.connection.opened = false) :
      Proceeds s request t (if s.connection.opened then [.close true, .stopped] else [])

section
variable (s)

theorem afterPoll_of_more (hc : s.catalog.constants ≠ []) :
    s.afterPoll .statusVariables now = s.sendRequest .equipmentConstants now := by
  unfold afterPoll afterStatus
  rw [if_pos rfl, if_neg (by rwa [List.isEmpty_iff])]

theorem afterPoll_of_last (hr : request = .statusVariables → s.catalog.constants = []) :
    s.afterPoll request now = s.enterIdle now := by
  unfold afterPoll afterStatus
  split
  · next h => rw [if_pos (List.isEmpty_iff.mpr (hr h))]
  · rfl

theorem afterPoll_of_stopping (hs : s.stopping = true) :
    s.afterPoll request now = { s with state := .idle }.finishStop := by
  by_cases hmore : request = .statusVariables ∧ s.catalog.constants ≠ []
  · obtain ⟨rfl, hc⟩ := hmore
    rw [afterPoll_of_more s hc, sendRequest_of_stopping s now hs]
  · rw [afterPoll_of_last s (by simpa using hmore), enterIdle_of_stopping s now hs]

/-- The end of a stop closes the connection, unless it is closed already, and counts nothing. -/
theorem ends_finishStop (hi : s.state = .idle) :
    s.finishStop.state = .idle ∧ s.finishStop.connection.opened = false ∧
      s.finishStop.outbox =
        s.outbox ++ (if s.connection.opened then [.close true, .stopped] else []) ∧
      s.finishStop.counters = s.counters := by
  cases ho : s.connection.opened with
  | true =>
    rw [finishStop_eq s ho]
    exact ⟨rfl, rfl, rfl, rfl⟩
  | false =>
    rw [finishStop_of_not_opened s ho]
    exact ⟨hi, ho, (List.append_nil _).symm, rfl⟩

/-- A session proceeds in one of these ways, and counts nothing. -/
theorem proceeds_afterPoll (request : Request) (now : Nat) :
    let t := s.afterPoll request now
    ∃ acts, s.Proceeds request t acts ∧ t.outbox = s.outbox ++ acts ∧ t.counters = s.counters := by
  dsimp only
  cases hs : s.stopping with
  | true =>
    rw [afterPoll_of_stopping s hs]
    obtain ⟨hi, ho, hacts, hc⟩ := ends_finishStop { s with state := .idle } rfl
    exact ⟨_, .stopped hs hi ho, hacts, hc⟩
  | false =>
    by_cases hmore : request = .statusVariables ∧ s.catalog.constants ≠ []
    · obtain ⟨rfl, hc⟩ := hmore
      rw [afterPoll_of_more s hc, sendRequest_eq s now hs]
      exact ⟨_, .constants hs rfl hc rfl, rfl, rfl⟩
    · have hr : request = .statusVariables → s.catalog.constants = [] := by simpa using hmore
      rw [afterPoll_of_last s hr]
      cases hw : s.pendingWrites with
      | nil =>
        rw [enterIdle_of_none_pending s now hs hw]
        exact ⟨[], .idle hs hr hw rfl, (List.append_nil _).symm, rfl⟩
      | cons w rest =>
        rw [enterIdle_of_pending s now hs hw]
        exact ⟨_, .write hs hr hw rfl rfl, rfl, rfl⟩

/-- What a poll has noted before does not matter for the way. -/
theorem Proceeds.of_noted {timers : Timers} {retries : Nat} {outbox acts : List Action}
    {counters : Counters} {t : Session}
    (h : Proceeds { s with timers, retries, outbox, counters } request t acts) :
    s.Proceeds request t acts := by
  cases h with
  | constants hs hr hc ht => exact .constants hs hr hc ht
  | write hs hr hw ht hrest => exact .write hs hr hw ht hrest
  | idle hs hr hw ht => exact .idle hs hr hw ht
  | stopped hs ht ho => exact .stopped hs ht ho

end

/-! ## What an answer brings -/

section
variable (s)

/-- An answer that begins as a list gives each variable its outcome. -/
theorem publishPoll_of_list {count : Nat} {front rest : Bytes} (hb : m.body = front ++ rest)
    (hh : Item.IsListHeader count front) (vs : List Variable) (bad : AlertKey) :
    let outs := outcomes vs fun i =>
      if i < count then Cursor.element? ⟨m.body.length, rest⟩ i else none
    s.publishPoll m vs bad = { s with
      outbox := s.outbox ++ outs ++
        (if failures outs = 0 then [.clear .failedToGetData] else []) ++ [.clear bad]
      counters := s.counters.add .decodeFailures (failures outs) } := by
  intro outs
  have hlist : (Cursor.ofBytes m.body).listHeader? = some (count, ⟨m.body.length, rest⟩) :=
    Cursor.listHeader?_eq_some_iff.mpr ⟨rfl, front, hb, hh⟩
  unfold publishPoll
  rw [hlist]
  dsimp only
  rw [publishRowAndClear_eq]
  rfl

/-- Any other answer fails for each variable. -/
theorem publishPoll_of_no_list
    (h : ∀ count front rest, m.body = front ++ rest → ¬Item.IsListHeader count front)
    (vs : List Variable) (bad : AlertKey) :
    s.publishPoll m vs bad = { s with
      outbox := s.outbox ++ vs.map (fun v => .raise .failedToGetData (some v.name)) ++
        [.raise bad none]
      counters := s.counters.add .decodeFailures vs.length } := by
  have hlist : (Cursor.ofBytes m.body).listHeader? = none := by
    rw [Option.eq_none_iff_forall_ne_some]
    rintro ⟨count, d⟩ hd
    obtain ⟨-, front, hb, hh⟩ := Cursor.listHeader?_eq_some_iff.mp hd
    exact h count front d.rest hb hh
  unfold publishPoll
  rw [hlist]
  dsimp only
  rw [foldl_dataFailure_eq]
  rfl

end

theorem polled?_of_carries {stream function : UInt8} {next : Session → Session}
    {vs : List Variable} {bad : AlertKey} (hc : m.header.carries stream function = true)
    (hne : (stream, function) ≠ (1, 0)) (ht : m.header.system.transactionId = s.pollTransaction) :
    s.polled? m stream function vs bad next now = some (next (s.replied.publishPoll m vs bad)) := by
  have hf : m.isFailedTransaction = false := by
    rw [Bool.eq_false_iff]
    intro hf
    unfold Inbound.isFailedTransaction at hf
    obtain ⟨h₁, h₂⟩ := carries_unique hc (Bool.and_eq_true_iff.mp hf).2
    exact hne (Prod.ext h₁ h₂)
  unfold polled?
  rw [hf, hc, if_neg Bool.false_ne_true, if_pos rfl, if_pos ht]

/-- The answer to the poll that is open is handled as such. -/
theorem handleFrame_of_poll (hs : s.state = .awaitingReply request)
    (hm : Inbound.read? frame = some m) (hp : request.isPolledBy m = true)
    (ht : m.header.system.transactionId = s.pollTransaction) :
    s.handleFrame now frame =
      ((s.count .framesReceived 1).replied.publishPoll m (s.catalog.polled request)
        request.badResponse).afterPoll request now := by
  obtain ⟨p, hawaited, hcarries⟩ := awaited_of_isPolledBy hp
  have hu := unsolicited?_of_awaited hawaited hcarries (s.count .framesReceived 1)
  have hr : (s.count .framesReceived 1).reply? m now =
      some (((s.count .framesReceived 1).replied.publishPoll m (s.catalog.polled request)
        request.badResponse).afterPoll request now) := by
    have hs' : (s.count .framesReceived 1).state = .awaitingReply request := hs
    unfold reply?
    rw [hs']
    cases request with
    | statusVariables => exact polled?_of_carries hp (by decide) ht
    | equipmentConstants => exact polled?_of_carries hp (by decide) ht
    | _ => cases hp
  unfold handleFrame
  rw [hm]
  dsimp only
  rw [hu, hr]
  rfl

/-- What the answer to the open poll comes to, whatever its bytes are. After the alert about the
missing answer is cleared, each variable that was asked for has one outcome, in order; the alerts
about values and about the answer follow; and then the session proceeds. -/
theorem poll_answer_outcomes (s : Session) (now : Nat) (hs : s.state = .awaitingReply request)
    (hm : Inbound.read? frame = some m) (hp : request.isPolledBy m = true)
    (ht : m.header.system.transactionId = s.pollTransaction) :
    let vs := s.catalog.polled request
    let t := s.handleFrame now frame
    let counters := s.counters.add .framesReceived 1
    (∀ count front rest, m.body = front ++ rest → Item.IsListHeader count front →
        let outs := outcomes vs fun i =>
          if i < count then Cursor.element? ⟨m.body.length, rest⟩ i else none
        ∃ acts, s.Proceeds request t acts ∧
          t.outbox = s.outbox ++ [.clear .noResponse] ++ outs ++
            (if failures outs = 0 then [.clear .failedToGetData] else []) ++
              [.clear request.badResponse] ++ acts ∧
          t.counters = counters.add .decodeFailures (failures outs)) ∧
      ((∀ count front rest, m.body = front ++ rest → ¬Item.IsListHeader count front) →
        ∃ acts, s.Proceeds request t acts ∧
          t.outbox = s.outbox ++ [.clear .noResponse] ++
            vs.map (fun v => .raise .failedToGetData (some v.name)) ++
              [.raise request.badResponse none] ++ acts ∧
          t.counters = counters.add .decodeFailures vs.length) := by
  intro vs t counters
  have hhandle : t = _ := handleFrame_of_poll hs hm hp ht
  rw [replied_eq] at hhandle
  refine ⟨fun count front rest hb hh => ?_, fun h => ?_⟩
  · intro outs
    rw [publishPoll_of_list _ hb hh] at hhandle
    obtain ⟨acts, hproceeds, hacts, hc⟩ := proceeds_afterPoll _ request now
    rw [← hhandle] at hproceeds hacts hc
    exact ⟨acts, Proceeds.of_noted s hproceeds, hacts, hc⟩
  · rw [publishPoll_of_no_list _ h] at hhandle
    obtain ⟨acts, hproceeds, hacts, hc⟩ := proceeds_afterPoll _ request now
    rw [← hhandle] at hproceeds hacts hc
    exact ⟨acts, Proceeds.of_noted s hproceeds, hacts, hc⟩

/-- The frame of an answer to a poll with the transaction 3. -/
def gaugeAnswer (body : Bytes) : Bytes :=
  [0, 0, 0, UInt8.ofNat (10 + body.length), 0, 0, 1, 4, 0, 0, 0, 0, 0, 3] ++ body

/-- The value of one gauge is missing, and a write waits. -/
theorem poll_answer_outcomes_gaugeAnswer :
    let flow : Variable := { gauge with name := "flow" }
    let s : Session := { ofCatalog "press" {} { controlCatalog with status := [gauge, flow] } with
      state := .awaitingReply .statusVariables
      pollTransaction := 3
      pendingWrites := [⟨"setpoint", 2001, .i2 [1]⟩] }
    let t := s.handleFrame 9 (gaugeAnswer [1, 1, 169, 2, 0, 42])
    ∃ acts, s.Proceeds .statusVariables t acts ∧
      t.outbox = [.clear .noResponse, .publish gauge (.nat 42) true,
        .raise .failedToGetData (some "flow"), .clear .badStatusResponse] ++ acts ∧
      t.counters = (s.counters.add .framesReceived 1).add .decodeFailures 1 := by
  intro flow s t
  have hread : Inbound.read? (gaugeAnswer [1, 1, 169, 2, 0, 42]) =
      some ⟨⟨0, 1, false, 4, 0, SessionType.data, ⟨0, 3⟩⟩, [1, 1, 169, 2, 0, 42]⟩ := by rfl
  have hheader : Item.IsListHeader 1 [1, 1] :=
    ⟨[1], ⟨by decide, by decide, by decide⟩, by decide⟩
  exact (poll_answer_outcomes s 9 rfl hread rfl rfl).1 1 [1, 1] [169, 2, 0, 42] rfl hheader

/-- Whether the answer to the open poll, whatever it brings, lets the session poll the equipment
constants or leaves nothing open, as the end of a stop does. -/
def AdvancesPoll (s : Session) : Prop :=
  ∀ request now frame m, s.state = .awaitingReply request → Inbound.read? frame = some m →
    request.isPolledBy m = true → m.header.system.transactionId = s.pollTransaction →
      (s.handleFrame now frame).state = .awaitingReply .equipmentConstants ∨
        (s.handleFrame now frame).state = .idle

/-- A poll that is open when the host writes. -/
def overlappedPoll : List Occurrence :=
  openTalk ++ [(5508, .timer), (5510, .write "setpoint" (.int 1))]

/-- After the answer the write is open. -/
theorem not_advancesPoll_overlappedPoll :
    let s := ofCatalog "press" {} controlCatalog
    s.Legal overlappedPoll ∧ ¬ (s.reached (s.history overlappedPoll)).AdvancesPoll := by
  intro s
  refine ⟨by decide +kernel, fun h => ?_⟩
  have hnext := h .statusVariables 5600 (gaugeAnswer [1, 1, 169, 2, 0, 42]) _ (by decide +kernel)
    rfl (by decide +kernel) (by decide +kernel)
  revert hnext
  decide +kernel

end Session

end GemLink
