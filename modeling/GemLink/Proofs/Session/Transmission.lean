import GemLink.Proofs.Catalog.Sizes
import GemLink.Proofs.Session.Deeds
import GemLink.Proofs.Session.Setup

/-!
The lengths of what a session sends. A request is no longer than its catalog sets aside
(`length_requestFrame_le`), and a message that controls the link or answers the equipment is far
shorter. So nothing that a session does sends a longer frame, writes aside, whose values are the
host's (`sendsWithin_advance`), and no frame of a run is longer (`frames_within_transmitSize`).
-/

namespace GemLink

/-! ## Frames -/

namespace Parties

variable (p : Parties)

theorem length_control (session : SessionType) (transactionId : UInt16) :
    (p.control session transactionId).length = bodyOffset := by
  unfold control
  rw [Header.length_message]
  rfl

theorem length_request (stream function : UInt8) (transactionId : UInt16) (body : Item) :
    (p.request stream function transactionId body).length = bodyOffset + body.encodedSize := by
  unfold request
  rw [Header.length_message, ← Nat.add_assoc]
  rfl

theorem length_reply (stream function : UInt8) (system : SystemBytes) (body : Item) :
    (p.reply stream function system body).length = bodyOffset + body.encodedSize := by
  unfold reply
  rw [Header.length_message, ← Nat.add_assoc]
  rfl

end Parties

/-- Whether an action sends no frame that is longer than `size`, unless it is a write. -/
def Action.Within (size : Nat) (a : Action) : Prop :=
  ∀ frame, a = .send frame → carries 2 15 frame = false → frame.length ≤ size

namespace Session

variable {c : Catalog} {s t u : Session} {now : Nat} {m : Moment}

theorem length_requestFrame_le (hc : s.catalog.Filled) (request : Request)
    (transactionId : UInt16) :
    (s.requestFrame request transactionId).length ≤ s.catalog.transmitSize := by
  have hdata (stream function : UInt8) {body : Item} (hb : s.catalog.HasRoomFor body) :
      (s.parties.request stream function transactionId body).length ≤ s.catalog.transmitSize := by
    rw [Parties.length_request]
    exact hb
  have hleast := s.catalog.le_transmitSize.2.2
  have hfixed (stream function : UInt8) {body : Item} (hb : body.encodedSize ≤ 86) :
      (s.parties.request stream function transactionId body).length ≤ s.catalog.transmitSize := by
    rw [Parties.length_request]
    exact Nat.le_trans (Nat.add_le_add_left hb _) hleast
  cases request with
  | select =>
    unfold requestFrame
    rw [Parties.length_control]
    exact Nat.le_trans (by decide) hleast
  | establish => exact hfixed 1 13 (by decide)
  | enableAlarms => exact hfixed 5 3 (by decide)
  | deleteReports => exact hdata 2 33 s.catalog.deleteReports_le
  | defineReports => exact hdata 2 33 s.catalog.defineReports_le
  | linkReports => exact hdata 2 35 (Catalog.linkReports_le hc)
  | enableEvents => exact hdata 2 37 s.catalog.enableEvents_le
  | statusVariables => exact hdata 1 3 s.catalog.statusRequest_le
  | equipmentConstants => exact hdata 2 13 s.catalog.constantRequest_le

/-! ## Deeds -/

/-- A change of a session with the catalog `c`, which keeps it and sends what it has room for. -/
def SendsWithin (c : Catalog) (s t : Session) : Prop :=
  s.catalog = c → t.catalog = c ∧
    ∃ acts, t.outbox = s.outbox ++ acts ∧ ∀ a ∈ acts, a.Within c.transmitSize

namespace SendsWithin

theorem of_acts (acts : List Action) (hc : t.catalog = s.catalog)
    (ho : t.outbox = s.outbox ++ acts) (ha : ∀ a ∈ acts, a.Within c.transmitSize) :
    SendsWithin c s t :=
  fun h => ⟨hc.trans h, acts, ho, ha⟩

/-- Actions that send nothing. -/
theorem of_silent (acts : List Action) (hc : t.catalog = s.catalog)
    (ho : t.outbox = s.outbox ++ acts) (ha : ∀ frame, Action.send frame ∉ acts) :
    SendsWithin c s t :=
  of_acts acts hc ho fun _ hmem frame hf => absurd (hf ▸ hmem) (ha frame)

theorem still (hc : t.catalog = s.catalog) (ho : t.outbox = s.outbox) : SendsWithin c s t :=
  of_silent [] hc (by rw [ho, List.append_nil]) fun _ => List.not_mem_nil

theorem refl (s : Session) : SendsWithin c s s :=
  still rfl rfl

theorem trans (h : SendsWithin c s t) (h' : SendsWithin c t u) : SendsWithin c s u := by
  intro hs
  obtain ⟨ht, acts, ho, ha⟩ := h hs
  obtain ⟨hu, more, ho', ha'⟩ := h' ht
  refine ⟨hu, acts ++ more, ?_, List.forall_mem_append.mpr ⟨ha, ha'⟩⟩
  rw [ho', ho, List.append_assoc]

theorem news (h : News s t) : SendsWithin c s t := by
  obtain ⟨acts, counters, rfl, ha⟩ := h
  exact of_silent _ rfl rfl fun frame hmem => nomatch ha _ hmem

/-- An answer to the equipment is short. -/
theorem reply (s : Session) (stream function : UInt8) (system : SystemBytes) {body : Item}
    (hb : body.encodedSize ≤ 86) :
    SendsWithin c s (s.send (s.parties.reply stream function system body)) := by
  refine of_acts [_] rfl rfl fun a ha => ?_
  cases List.mem_singleton.mp ha
  rintro _ ⟨⟩ -
  rw [Parties.length_reply]
  exact Nat.le_trans (Nat.add_le_add_left hb _) c.le_transmitSize.2.2

end SendsWithin

theorem Initiates.within {frame : Bytes} (h : s.Initiates frame) (hc : s.catalog.Filled) :
    Action.Within s.catalog.transmitSize (.send frame) := by
  have hcontrol (session : SessionType) (transactionId : UInt16) :
      (s.parties.control session transactionId).length ≤ s.catalog.transmitSize := by
    rw [Parties.length_control]
    exact Nat.le_trans (by decide) s.catalog.le_transmitSize.2.2
  rintro _ ⟨⟩ hwrite
  cases h with
  | request request => exact length_requestFrame_le hc request _
  | write w =>
    rw [carries_writeFrame] at hwrite
    cases hwrite
  | linkTest => exact hcontrol _ _
  | separate => exact hcontrol _ _

/-- What a session does at a moment at which no frame is handled. -/
theorem Deed.sendsWithin (h : Deed m s t) (hm : ∀ frame, m ≠ .frame frame) (hc : c.Filled) :
    SendsWithin c s t := by
  have hstop (s : Session) : SendsWithin c s s.finishStop := by
    cases ho : s.connection.opened with
    | true =>
      rw [finishStop_eq s ho]
      exact .of_silent _ rfl rfl (by simp)
    | false =>
      rw [finishStop_of_not_opened s ho]
      exact .refl s
  cases h with
  | shift _ hf _ => exact .still (congrArg Face.catalog hf) (congrArg Face.outbox hf)
  | tell a ha =>
    refine .of_silent [a] rfl rfl fun frame hmem => ?_
    cases List.mem_singleton.mp hmem
    exact ha
  | ask frame hi =>
    rintro rfl
    refine ⟨rfl, [.send frame], rfl, fun b hb => ?_⟩
    cases List.mem_singleton.mp hb
    exact hi.within hc
  | lose graceful now ho hs =>
    rw [disconnect_eq s now ho hs]
    exact .of_silent _ rfl rfl (by simp)
  | finish _ => exact hstop s
  | launch _ =>
    rw [launch_eq]
    exact .of_silent _ rfl (List.append_assoc ..) (by simp)
  | gain _ _ _ => exact .of_silent _ rfl rfl (by simp)
  | forget _ _ => exact .still rfl rfl
  | retry _ _ =>
    rw [reconnect_eq]
    split
    · exact .of_silent _ rfl rfl (by simp)
    · exact .of_silent _ rfl rfl (by simp)
  | hold _ _ _ _ => exact .still rfl rfl
  | halt _ _ _ =>
    have hbegun : SendsWithin c s
        { s with stopping := true, timers := {}, pendingWrites := [] } := .still rfl rfl
    exact hbegun.trans (hstop _)
  | retire _ _ _ => exact .still rfl rfl
  | answer frame _ _ _ _ hf _ _ _ => exact absurd hf (hm frame)
  | follow frame _ _ _ hf _ _ _ _ => exact absurd hf (hm frame)

/-! ## Moments -/

/-- What is done at any moment is done within it. -/
theorem Deeds.sendsWithin (h : Deeds .settled s t) (hc : c.Filled) : SendsWithin c s t :=
  h.keeps .refl .trans fun hd => hd.sendsWithin (fun _ => Moment.noConfusion) hc

theorem Heard.sendsWithin {inbound : Inbound} (h : s.Heard inbound t) (hc : c.Filled) :
    SendsWithin c s t := by
  cases h with
  | asked _ => exact .reply s 1 2 _ (by decide)
  | timedOut _ => exact .still rfl rfl
  | malformed _ => exact Deeds.sendsWithin (.raise s _ none) hc
  | alarmed _ alarms _ ht =>
    have hanswer : SendsWithin c s
        { s.send (s.parties.reply 5 2 inbound.header.system Body.acceptance) with alarms } :=
      (SendsWithin.reply s 5 2 _ (by decide)).trans (.still rfl rfl)
    exact hanswer.trans (.news ht)
  | reported _ u hu => exact (SendsWithin.news hu).trans (.reply u 6 12 _ (by decide))

/-- The deeds that an answer of the equipment leads to are those of other moments too, but for the
one in which the equipment asks and is answered itself. -/
theorem Answer.sendsWithin {inbound : Inbound} (h : s.Answer inbound now t) (hc : c.Filled) :
    SendsWithin c s t := by
  have hr : Deeds .settled s s.replied := deeds_replied s
  cases h with
  | selected _ _ =>
    exact (hr.sendsWithin hc).trans (.still rfl rfl)
  | approached _ _ =>
    exact ((hr.sendsWithin hc).trans (.reply s.replied 1 14 _ (by decide))).trans (.still rfl rfl)
  | advanced _ next _ _ _ => exact (hr.trans (deeds_sendRequest _ now next)).sendsWithin hc
  | completed _ _ _ _ => exact (hr.trans (deeds_completeHandshake _ now)).sendsWithin hc
  | failed request _ _ _ =>
    exact ((hr.trans (.raise _ _ none)).trans (deeds_afterPoll _ now request)).sendsWithin hc
  | polled request _ _ _ _ =>
    have hread : ∀ v ∈ s.catalog.polled request, s.replied.catalog.Reads v :=
      fun v hv => .inl ⟨request, hv⟩
    exact ((hr.trans (deeds_publishPoll s.replied hread inbound _)).trans
      (deeds_afterPoll _ now request)).sendsWithin hc
  | mismatched _ _ _ _ _ => exact (hr.trans (.arm _ (by decide) _)).sendsWithin hc
  | written _ _ =>
    have hclear : Deeds .settled s ((s.cancel .writeTimeout).clear .writeFailed) :=
      (Deeds.cancel s .writeTimeout).trans (.clear _ _)
    exact (hclear.trans (deeds_enterIdle _ now)).sendsWithin hc

/-- A session sends what its catalog has room for, at every moment. -/
theorem sendsWithin_advance (hc : c.Filled) (s : Session) (now : Nat) (m : Moment) :
    SendsWithin c s (s.advance now m) := by
  by_cases hm : ∃ frame, m = .frame frame
  · obtain ⟨frame, rfl⟩ := hm
    have hcount : SendsWithin c s (s.count .framesReceived 1) := .still rfl rfl
    have hf := handled_handleFrame s now frame
    simp only [advance]
    generalize s.handleFrame now frame = t at hf
    cases hf with
    | heard inbound _ _ h => exact hcount.trans (h.sendsWithin hc)
    | answered inbound _ _ h => exact hcount.trans (h.sendsWithin hc)
    | ignored counters => exact .still rfl rfl
  · have hframe : ∀ frame, m ≠ .frame frame := fun frame hf => hm ⟨frame, hf⟩
    exact (deeds_advance s now hframe).keeps .refl .trans fun hd => hd.sendsWithin hframe hc

theorem within_of_linked (hc : c.Filled) {ps : List Passage} (h : s.Linked ps)
    (hs : s.catalog = c) : ∀ p ∈ ps, ∀ a ∈ p.actions, a.Within c.transmitSize := by
  induction ps generalizing s with
  | nil => exact List.forall_mem_nil _
  | cons p rest ih =>
    obtain ⟨rfl, hrest⟩ := h
    obtain ⟨hafter, acts, ho, ha⟩ := sendsWithin_advance hc p.before p.now p.moment hs
    rw [List.forall_mem_cons]
    refine ⟨?_, ih hrest hafter⟩
    rwa [actions_eq ho]

/-- Every request is no longer than the catalog of the variables sets aside, and so is every frame
that a session sends in any run, writes aside. -/
theorem frames_within_transmitSize {vs : List Variable} (h : Catalog.ofVariables vs = .ok c) :
    (∀ s : Session, s.catalog = c → ∀ request transactionId,
      (s.requestFrame request transactionId).length ≤ c.transmitSize) ∧
    ∀ machine model run, ∀ p ∈ (ofCatalog machine model c).history run,
      ∀ frame, .send frame ∈ p.actions → carries 2 15 frame = false →
        frame.length ≤ c.transmitSize := by
  have hfilled := Catalog.filled_of_ofVariables h
  constructor
  · rintro s rfl request transactionId
    exact length_requestFrame_le hfilled request transactionId
  · intro machine model run p hp frame hframe
    exact within_of_linked hfilled (linked_history _ run) rfl p hp _ hframe frame rfl

/-- A session that reports one text defines its report and asks to select. -/
theorem frames_within_transmitSize_lot :
    let s := ofCatalog "press" {} Catalog.lotCatalog
    Catalog.lotCatalog.transmitSize = 100 ∧ (s.requestFrame .defineReports 7).length ≤ 100 ∧
      ∃ p ∈ s.history [(0, .opened), (3, .connected)], ∃ frame, .send frame ∈ p.actions ∧
        carries 2 15 frame = false ∧ frame.length ≤ 100 := by
  intro s
  obtain ⟨hrequest, hrun⟩ := frames_within_transmitSize Catalog.ofVariables_lotVariable
  have hp : ⟨s.launch, 3, .connected⟩ ∈ s.history [(0, .opened), (3, .connected)] :=
    .tail _ (.head _)
  have hframe : .send (s.parties.control SessionType.selectRequest 0) ∈
      Passage.actions ⟨s.launch, 3, .connected⟩ :=
    .tail _ (.tail _ (.head _))
  have hwrite : carries 2 15 (s.parties.control SessionType.selectRequest 0) = false := by decide
  exact ⟨rfl, hrequest s rfl .defineReports 7, _, hp, _, hframe, hwrite,
    hrun "press" {} _ _ hp _ hframe hwrite⟩

end Session

end GemLink
