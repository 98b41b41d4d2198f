import GemLink.Proofs.Session.EventReports
import GemLink.Proofs.Session.Outcomes
import GemLink.Proofs.Session.Undisturbed

/-!
What an event message comes to. Its bytes decide what it tells (`Inbound.Tells`): nothing, when the
event is unknown or all reports bear other numbers, and the values of a group, when a report of the
event announces as many. Any other message is malformed. Reading a message finds what it tells
(`Inbound.Tells.said?_eq`) and nothing else (`Inbound.exists_tells_of_said?`), so that it is handled
as a whole or not at all (`event_reports_all_or_nothing`).
-/

namespace GemLink

open Cursor (InTurn)

/-! ## What an event message says -/

/-- Whether bytes are encodings of items in a row, which can be decoded one by one. -/
def Item.AreWritten : List Item → Bytes → Prop
  | [], bs => bs = []
  | item :: rest, bs => InTurn item.IsWritten (AreWritten rest) bs

/-- The front of an event message: a list of three, an identifier and the event. -/
def IsEventFront (eventId : UInt32) : Bytes → Prop :=
  InTurn (InTurn (Item.IsListHeader 3) fun bs => ∃ dataId, Item.IsIdentifier dataId bs)
    (Item.IsIdentifier eventId)

/-- The front of a report: a list of two, the number of the report and a list of values. -/
def IsReportFront (id : UInt32) (count : Nat) : Bytes → Prop :=
  InTurn (InTurn (Item.IsListHeader 2) (Item.IsIdentifier id)) (Item.IsListHeader count)

/-- A report that bears another number and whose values can all be decoded. -/
def IsForeignReport (id : UInt32) (bs : Bytes) : Prop :=
  ∃ (other : UInt32) (items : List Item), other ≠ id ∧
    InTurn (IsReportFront other items.length) (Item.AreWritten items) bs

/-- Reports in a row that bear other numbers. -/
def AreForeign (id : UInt32) : Nat → Bytes → Prop
  | 0, bs => bs = []
  | n + 1, bs => InTurn (IsForeignReport id) (AreForeign id n) bs

/-- What an event message says to a host that knows the events of a catalog: nothing, or the values
of a group, which begin with the bytes given. A report that bears the number of the event must
announce as many values as the group has members. -/
inductive Inbound.Tells (m : Inbound) (c : Catalog) : Option (EventGroup × Bytes) → Prop
  /-- No group belongs to the event. -/
  | unknown {eventId : UInt32} {front rest : Bytes} (hb : m.body = front ++ rest)
      (hf : IsEventFront eventId front) (hg : c.group? eventId = none) : Tells m c none
  /-- All reports bear other numbers. -/
  | foreign {eventId : UInt32} {group : EventGroup} {count : Nat}
      {front header reports rest : Bytes} (hb : m.body = front ++ (header ++ (reports ++ rest)))
      (hf : IsEventFront eventId front) (hg : c.group? eventId = some group)
      (hh : Item.IsListHeader count header) (hr : AreForeign eventId count reports) :
      Tells m c none
  /-- Behind reports of other numbers there is one of the event. -/
  | values {eventId : UInt32} {group : EventGroup} {count before : Nat}
      {front header reports own values : Bytes}
      (hb : m.body = front ++ (header ++ (reports ++ (own ++ values))))
      (hf : IsEventFront eventId front) (hg : c.group? eventId = some group)
      (hh : Item.IsListHeader count header) (hr : AreForeign eventId before reports)
      (hlt : before < count) (ho : IsReportFront eventId group.members.length own) :
      Tells m c (some (group, values))

namespace Cursor

variable {c d : Cursor} {id : UInt32} {count size : Nat}

theorem passes_nil_iff : Passes (· = []) c d ↔ d = c := by
  obtain ⟨total, rest⟩ := c
  obtain ⟨total', rest'⟩ := d
  simp [Passes, eq_comm]

theorem skipItems?_eq_some_iff : skipItems? count c = some d ↔
    ∃ items : List Item, items.length = count ∧ Passes (Item.AreWritten items) c d := by
  induction count generalizing c with
  | zero =>
    rw [skipItems?, Option.some.injEq, eq_comm]
    constructor
    · exact fun h => ⟨[], rfl, passes_nil_iff.mpr h⟩
    · rintro ⟨items, hl, hp⟩
      obtain rfl := List.length_eq_zero_iff.mp hl
      exact passes_nil_iff.mp hp
  | succ count ih =>
    rw [skipItems?]
    constructor
    · intro h
      split at h
      · next item e hi =>
        obtain ⟨items, hl, hp⟩ := ih.mp h
        exact ⟨item :: items, congrArg (· + 1) hl,
          passes_inTurn_iff.mpr ⟨e, item_eq_some_iff.mp hi, hp⟩⟩
      · cases h
    · rintro ⟨items, hl, hp⟩
      obtain ⟨item, items, rfl⟩ := List.exists_cons_of_length_eq_add_one hl
      obtain ⟨e, hi, hp⟩ := passes_inTurn_iff.mp hp
      rw [item_eq_some_iff.mpr hi]
      exact ih.mpr ⟨items, Nat.succ.inj hl, hp⟩

theorem reportHeader?_eq_some_iff :
    c.reportHeader? = some (id, count, d) ↔ Passes (IsReportFront id count) c d := by
  simp only [IsReportFront, passes_inTurn_iff, ← listHeader?_eq_some_iff,
    ← identifier_eq_some_iff]
  unfold reportHeader?
  constructor
  · intro h
    split at h
    · next e he =>
      split at h
      · next f hf =>
        obtain ⟨⟨n, d'⟩, hd, heq⟩ := Option.map_eq_some_iff.mp h
        cases heq
        exact ⟨f, ⟨e, he, hf⟩, hd⟩
      · cases h
    · cases h
  · rintro ⟨f, ⟨e, he, hf⟩, hd⟩
    simp [he, hf, hd]

theorem passes_isForeignReport_iff : Passes (IsForeignReport id) c d ↔
    ∃ other n e, other ≠ id ∧ c.reportHeader? = some (other, n, e) ∧ skipItems? n e = some d := by
  simp only [reportHeader?_eq_some_iff, skipItems?_eq_some_iff]
  constructor
  · rintro ⟨ht, bs, hb, other, items, hne, hi⟩
    obtain ⟨e, hf, hv⟩ := passes_inTurn_iff.mp ⟨ht, bs, hb, hi⟩
    exact ⟨other, _, e, hne, hf, items, rfl, hv⟩
  · rintro ⟨other, _, e, hne, hf, items, rfl, hv⟩
    obtain ⟨ht, bs, hb, hi⟩ := passes_inTurn_iff.mpr ⟨e, hf, hv⟩
    exact ⟨ht, bs, hb, other, items, hne, hi⟩

/-- The search passes over reports of other numbers. -/
theorem findReport_of_isForeignReport (h : Passes (IsForeignReport id) c d) :
    findReport id size (count + 1) c = findReport id size count d := by
  obtain ⟨other, n, e, hne, hh, hs⟩ := passes_isForeignReport_iff.mp h
  rw [findReport, hh]
  dsimp only
  rw [if_neg hne, hs]

/-- The search finds the first report of the number, if that has the right size. -/
theorem findReport_eq_found_iff : findReport id size count c = .found d ↔
    ∃ before < count, ∃ e, Passes (AreForeign id before) c e ∧
      Passes (IsReportFront id size) e d := by
  induction count generalizing c with
  | zero => simp [findReport]
  | succ count ih =>
    constructor
    · intro h
      rw [findReport] at h
      split at h
      · cases h
      · next other n e hh =>
        split at h
        · next hid =>
          split at h
          · next hn =>
            cases h
            subst hid hn
            exact ⟨0, Nat.succ_pos _, c, passes_nil_iff.mpr rfl, reportHeader?_eq_some_iff.mp hh⟩
          · cases h
        · next hne =>
          split at h
          · next f hs =>
            obtain ⟨before, hlt, g, hg, hd⟩ := ih.mp h
            have hf := passes_isForeignReport_iff.mpr ⟨other, n, e, hne, hh, hs⟩
            exact ⟨before + 1, Nat.succ_lt_succ hlt, g, passes_inTurn_iff.mpr ⟨f, hf, hg⟩, hd⟩
          · cases h
    · rintro ⟨_ | before, hlt, e, he, hd⟩
      · obtain rfl := passes_nil_iff.mp he
        rw [findReport, reportHeader?_eq_some_iff.mpr hd]
        simp
      · obtain ⟨f, hf, he⟩ := passes_inTurn_iff.mp he
        rw [findReport_of_isForeignReport hf]
        exact ih.mpr ⟨before, Nat.lt_of_succ_lt_succ hlt, e, he, hd⟩

/-- The search finds nothing if all reports bear other numbers. -/
theorem findReport_eq_absent_iff : findReport id size count c = .absent ↔
    ∃ d, Passes (AreForeign id count) c d := by
  induction count generalizing c with
  | zero => exact ⟨fun _ => ⟨c, passes_nil_iff.mpr rfl⟩, fun _ => rfl⟩
  | succ count ih =>
    constructor
    · intro h
      rw [findReport] at h
      split at h
      · cases h
      · next other n e hh =>
        split at h
        · split at h <;> cases h
        · next hne =>
          split at h
          · next f hs =>
            obtain ⟨d, hd⟩ := ih.mp h
            have hf := passes_isForeignReport_iff.mpr ⟨other, n, e, hne, hh, hs⟩
            exact ⟨d, passes_inTurn_iff.mpr ⟨f, hf, hd⟩⟩
          · cases h
    · rintro ⟨d, hd⟩
      obtain ⟨f, hf, hd⟩ := passes_inTurn_iff.mp hd
      rw [findReport_of_isForeignReport hf]
      exact ih.mpr ⟨d, hd⟩

end Cursor

variable {c : Catalog} {m : Inbound} {eventId : UInt32} {d : Cursor}

theorem Inbound.eventHeader?_eq_some_iff : m.eventHeader? = some (eventId, d) ↔
    Cursor.Passes (IsEventFront eventId) (.ofBytes m.body) d := by
  simp only [IsEventFront, Cursor.passes_inTurn_iff, Cursor.passes_exists_iff,
    ← Cursor.listHeader?_eq_some_iff, ← Cursor.identifier_eq_some_iff]
  unfold eventHeader?
  constructor
  · intro h
    split at h
    · next e he =>
      split at h
      · next dataId f hf =>
        split at h
        · next hd =>
          cases h
          exact ⟨f, ⟨e, he, dataId, hf⟩, hd⟩
        · cases h
      · cases h
    · cases h
  · rintro ⟨f, ⟨e, he, dataId, hf⟩, hd⟩
    simp [he, hf, hd]

theorem Inbound.eventHeader?_of_isEventFront {front rest : Bytes} (hb : m.body = front ++ rest)
    (hf : IsEventFront eventId front) : m.eventHeader? = some (eventId, ⟨m.body.length, rest⟩) :=
  eventHeader?_eq_some_iff.mpr ⟨rfl, front, hb, hf⟩

/-- What the search for the report of a group says. -/
def ReportSearch.said? (group : EventGroup) : ReportSearch → Option (Option (EventGroup × Cursor))
  | .malformed => none
  | .absent => some none
  | .found values => some (some (group, values))

/-- What an event message says, as it is read. -/
def Inbound.said? (m : Inbound) (c : Catalog) : Option (Option (EventGroup × Cursor)) :=
  match m.eventHeader? with
  | none => none
  | some (eventId, d) =>
    match c.group? eventId with
    | none => some none
    | some group =>
      match d.listHeader? with
      | none => none
      | some (count, d) => (d.findReport eventId group.members.length count).said? group

/-- If the event is known, what is said is up to its reports. -/
theorem Inbound.said?_of_group {group : EventGroup} {count : Nat} {front header reports : Bytes}
    (hb : m.body = front ++ (header ++ reports)) (hf : IsEventFront eventId front)
    (hg : c.group? eventId = some group) (hh : Item.IsListHeader count header) :
    m.said? c = (Cursor.findReport eventId group.members.length count
      ⟨m.body.length, reports⟩).said? group := by
  unfold said?
  rw [eventHeader?_of_isEventFront hb hf]
  dsimp only
  rw [hg]
  dsimp only
  rw [Cursor.listHeader?_eq_some_iff.mpr (Cursor.passes_append hh _ _)]

/-- What is told, with a cursor at the values. -/
def Inbound.located (m : Inbound) (content : Option (EventGroup × Bytes)) :
    Option (EventGroup × Cursor) :=
  content.map fun p => (p.1, ⟨m.body.length, p.2⟩)

variable {content content' : Option (EventGroup × Bytes)}

theorem Inbound.located_injective : Function.Injective m.located := by
  refine Option.map_injective fun p q hpq => ?_
  simp only [Prod.mk.injEq, Cursor.mk.injEq, true_and] at hpq
  exact Prod.ext hpq.1 hpq.2

/-- What is read of an event message is what it tells. -/
theorem Inbound.exists_tells_of_said? {said : Option (EventGroup × Cursor)}
    (h : m.said? c = some said) : ∃ content, m.Tells c content ∧ said = m.located content := by
  unfold said? at h
  split at h
  · cases h
  · next eventId d hd =>
    obtain ⟨ht, front, hb, hf⟩ := eventHeader?_eq_some_iff.mp hd
    split at h
    · next hg =>
      cases h
      exact ⟨none, .unknown hb hf hg, rfl⟩
    · next group hg =>
      split at h
      · cases h
      · next count e he =>
        obtain ⟨ht', header, hb', hh⟩ := Cursor.listHeader?_eq_some_iff.mp he
        rw [hb'] at hb
        cases hfind : e.findReport eventId group.members.length count with
        | malformed =>
          rw [hfind] at h
          cases h
        | absent =>
          rw [hfind] at h
          cases h
          obtain ⟨f, -, reports, hr, hfr⟩ := Cursor.findReport_eq_absent_iff.mp hfind
          rw [hr] at hb
          exact ⟨none, .foreign hb hf hg hh hfr, rfl⟩
        | found values =>
          rw [hfind] at h
          cases h
          obtain ⟨before, hlt, f, ⟨hf', reports, hr, hfr⟩, hv, own, ho, hown⟩ :=
            Cursor.findReport_eq_found_iff.mp hfind
          rw [hr, ho] at hb
          have htotal : values.total = m.body.length := hv.trans (hf'.trans (ht'.trans ht))
          refine ⟨some (group, values.rest), .values hb hf hg hh hfr hlt hown, ?_⟩
          unfold located
          rw [Option.map_some, ← htotal]

/-- What an event message tells is read of it. -/
theorem Inbound.Tells.said?_eq (h : m.Tells c content) :
    m.said? c = some (m.located content) := by
  cases h with
  | unknown hb hf hg =>
    unfold said?
    rw [eventHeader?_of_isEventFront hb hf]
    dsimp only
    rw [hg]
    rfl
  | foreign hb hf hg hh hr =>
    rw [said?_of_group hb hf hg hh,
      Cursor.findReport_eq_absent_iff.mpr ⟨_, Cursor.passes_append hr _ _⟩]
    rfl
  | values hb hf hg hh hr hlt ho =>
    rw [said?_of_group hb hf hg hh, Cursor.findReport_eq_found_iff.mpr
      ⟨_, hlt, _, Cursor.passes_append hr _ _, Cursor.passes_append ho _ _⟩]
    rfl

theorem Inbound.Tells.unique (h : m.Tells c content) (h' : m.Tells c content') :
    content = content' :=
  located_injective (Option.some.inj (h.said?_eq.symm.trans h'.said?_eq))

/-! ## What the session does -/

namespace Session

variable (s : Session) (now : Nat) {frame : Bytes}

/-- Does what an event message asks for, and answers it. -/
def told (m : Inbound) : Option (EventGroup × Cursor) → Session
  | none => s.acknowledgeEvent m
  | some (group, values) =>
    (s.publishRowAndClear group.members.length values group.members).acknowledgeEvent m

theorem eventReport?_eq (m : Inbound) :
    s.eventReport? m = (m.said? s.catalog).map (s.told m) := by
  unfold eventReport? Inbound.said?
  cases m.eventHeader? with
  | none => rfl
  | some front =>
    obtain ⟨eventId, d⟩ := front
    dsimp only
    cases s.catalog.group? eventId with
    | none => rfl
    | some group =>
      dsimp only
      cases d.listHeader? with
      | none => rfl
      | some reports =>
        obtain ⟨count, e⟩ := reports
        dsimp only
        cases e.findReport eventId group.members.length count <;> rfl

/-- An event message is handled by what is read of it alone. -/
theorem handleFrame_of_event (hm : Inbound.read? frame = some m)
    (hc : m.header.carries 6 11 = true) : s.handleFrame now frame =
      match m.said? s.catalog with
      | some said => (s.count .framesReceived 1).told m said
      | none => (s.count .framesReceived 1).count .framesUnprocessed 1 := by
  have hu : m.isUnsolicited = true := List.any_eq_true.mpr ⟨(6, 11), by decide, hc⟩
  have hr : (s.count .framesReceived 1).reply? m now = none :=
    Option.eq_none_iff_forall_ne_some.mpr fun _ ht =>
      not_answer_of_isUnsolicited hu (answer_of_reply? ht)
  have hl : m.isLinkTestResponse = false := by
    simp only [Header.carries, Bool.and_eq_true, beq_iff_eq] at hc
    unfold Inbound.isLinkTestResponse
    rw [hc.1.1]
    exact Bool.and_false _
  have hsaid : m.said? (s.count .framesReceived 1).catalog = m.said? s.catalog := rfl
  unfold handleFrame
  rw [hm]
  dsimp only
  rw [unsolicited?_of_event hc, eventReport?_eq, hsaid, hr, hl]
  cases m.said? s.catalog <;> rfl

theorem told_values (m : Inbound) (group : EventGroup) (values : Cursor) :
    let outs := outcomes group.members values.element?
    s.told m (some (group, values)) = { s with
      outbox := s.outbox ++ outs ++
        (if failures outs = 0 then [.clear .failedToGetData] else []) ++
        [.send (s.parties.reply 6 12 m.header.system Body.acceptance)]
      counters := s.counters.add .decodeFailures (failures outs) } := by
  intro outs
  -- the values are as many as the group has members, so that none is without its item
  have houts : (outcomes group.members fun i =>
      if i < group.members.length then values.element? i else none) = outs :=
    outcomes_congr fun i hi => if_pos hi
  unfold told
  dsimp only
  rw [publishRowAndClear_eq, houts]
  rfl

/-- What S6F11 comes to, in whatever state it arrives. If it tells the values of a group, each
variable of the group has one outcome, in order, the alert is cleared when none of them is a
failure, and S6F12 with the system bytes of the message comes last. If it tells nothing, S6F12 is
all. What tells neither is not answered and only counts as a frame that could not be processed, and
no message tells two things. -/
theorem event_reports_all_or_nothing (hm : Inbound.read? frame = some m)
    (hc : m.header.carries 6 11 = true) :
    let counters := s.counters.add .framesReceived 1
    let answer := Action.send (s.parties.reply 6 12 m.header.system Body.acceptance)
    (∀ group values, m.Tells s.catalog (some (group, values)) →
        let outs := outcomes group.members (Cursor.element? ⟨m.body.length, values⟩)
        s.handleFrame now frame = { s with
          outbox := s.outbox ++ outs ++
            (if failures outs = 0 then [.clear .failedToGetData] else []) ++ [answer]
          counters := counters.add .decodeFailures (failures outs) }) ∧
      (m.Tells s.catalog none →
        s.handleFrame now frame = { s with outbox := s.outbox ++ [answer], counters }) ∧
      ((∀ content, ¬m.Tells s.catalog content) →
        s.handleFrame now frame = { s with counters := counters.add .framesUnprocessed 1 }) ∧
      ∀ content content', m.Tells s.catalog content → m.Tells s.catalog content' →
        content = content' := by
  intro counters answer
  have hhandle := handleFrame_of_event s now hm hc
  refine ⟨fun group values h => ?_, fun h => ?_, fun h => ?_, fun _ _ h h' => h.unique h'⟩
  · intro outs
    rw [hhandle, h.said?_eq]
    exact told_values _ m group _
  · rw [hhandle, h.said?_eq]
    rfl
  · rw [hhandle]
    cases hsaid : m.said? s.catalog with
    | none => rfl
    | some said =>
      obtain ⟨content, ht, -⟩ := Inbound.exists_tells_of_said? hsaid
      exact absurd ht (h content)

/-- The values of a report of the lot: its number, and three bytes where its size should be. -/
def raggedValues : Bytes :=
  [0x41, 5, 76, 79, 84, 45, 49, 0xA9, 3, 0, 1, 2]

/-- An event message with a report of the door before that of the lot. -/
def raggedReport : Inbound where
  header := ⟨1, 6, true, 11, 0, SessionType.data, ⟨3, 77⟩⟩
  body := [1, 3, 0xA5, 1, 9, 0xA9, 2, 1, 200, 1, 2, 1, 2, 0xA5, 1, 200, 1, 1, 0x25, 1, 1, 1, 2,
    0xB1, 4, 0, 0, 1, 200, 1, 2] ++ raggedValues

theorem event_reports_all_or_nothing_raggedReport :
    let group : EventGroup := ⟨456, [lot, lotSize]⟩
    let s : Session := { ofCatalog "press" {} { groups := [⟨200, [door]⟩, group] } with
      state := .awaitingWrite }
    let frame := [0, 0, 0, 53, 0, 1, 0x86, 11, 0, 0, 0, 3, 0, 77] ++ raggedReport.body
    Inbound.read? frame = some raggedReport ∧ raggedReport.header.carries 6 11 = true ∧
      raggedReport.Tells s.catalog (some (group, raggedValues)) ∧
      s.handleFrame 9 frame = { s with
        outbox := [.publish lot (.text "LOT-1") true, .raise .failedToGetData (some "count"),
          .send (s.parties.reply 6 12 ⟨3, 77⟩ Body.acceptance)]
        counters := (s.counters.add .framesReceived 1).add .decodeFailures 1 } := by
  intro group s frame
  have hread : Inbound.read? frame = some raggedReport := by rfl
  have htells : raggedReport.Tells s.catalog (some (group, raggedValues)) := by
    have hsaid : raggedReport.said? s.catalog =
        some (raggedReport.located (some (group, raggedValues))) := by rfl
    obtain ⟨content, ht, hl⟩ := Inbound.exists_tells_of_said? hsaid
    rwa [← Inbound.located_injective hl] at ht
  have houts : outcomes group.members (Cursor.element? ⟨raggedReport.body.length, raggedValues⟩) =
      [.publish lot (.text "LOT-1") true, .raise .failedToGetData (some "count")] := by rfl
  have hall := (s.event_reports_all_or_nothing 9 hread rfl).1 group raggedValues htells
  rw [houts] at hall
  exact ⟨hread, rfl, htells, hall⟩

end Session

end GemLink
