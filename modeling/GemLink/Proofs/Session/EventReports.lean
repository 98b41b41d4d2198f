import GemLink.Proofs.Item.Cursor
import GemLink.Proofs.Message.Outgoing
import GemLink.Proofs.Session.Polls

/-!
Reports of collection events. The host defines one report for each event, which bears the number of
the event (`defineReports_assigns_iff`, `linkReports_assigns_iff`). When the equipment sends the
report as it was defined, be it among others, each value reaches the variable at whose place it
stands, the message is acknowledged, and nothing else happens, whatever the state of the session
(`event_report_read_as_defined`).
-/

namespace GemLink

/-! ## What is defined -/

/-- Whether a message about collection events or reports assigns a row of identifiers to one of
them. -/
def Item.Assigns (message : Item) (id : UInt32) (ids : List UInt32) : Prop :=
  ∃ dataId entries, message = .list [dataId, .list entries] ∧
    .list [.u4 [id], .list (ids.map fun n => .u4 [n])] ∈ entries

namespace Catalog

variable {vs : List Variable} {c : Catalog} {group : EventGroup}

/-- Every member of a group can be asked for. -/
theorem numericId_of_mem_group (h : ofVariables vs = .ok c) (hg : group ∈ c.groups) {v : Variable}
    (hv : v ∈ group.members) : some (v.numericId.getD 0) = v.numericId := by
  obtain ⟨hmem, hrole⟩ := (mem_group_iff h hg).mp hv
  have hv := (ofVariables_eq_ok_iff.mp h).1 v hmem
  cases hid : v.numericId with
  | none =>
    rw [Variable.isUnidentified_iff] at hv
    simp [Variable.isAsked, hrole, hid] at hv
  | some id => rfl

/-- A message about the groups assigns to the event of a group what it says of that group. -/
theorem eventList_assigns_iff (h : ofVariables vs = .ok c) (hg : group ∈ c.groups)
    (row : EventGroup → List UInt32) (ids : List UInt32) :
    (c.eventList fun group => .list ((row group).map fun n => .u4 [n])).Assigns group.eventId ids ↔
      ids = row group := by
  have hinj : Function.Injective fun n : UInt32 => Item.u4 [n] := by
    intro m n hmn
    cases hmn
    rfl
  constructor
  · rintro ⟨dataId, entries, he, hmem⟩
    cases he
    obtain ⟨other, ho, he⟩ := List.mem_map.mp hmem
    simp only [Item.list.injEq, List.cons.injEq, Item.u4.injEq, and_true] at he
    obtain ⟨hid, hrow⟩ := he
    rw [← eq_of_eventId_eq h hg ho hid]
    exact (List.map_injective_iff.mpr hinj hrow).symm
  · rintro rfl
    exact ⟨_, _, rfl, List.mem_map.mpr ⟨group, hg, rfl⟩⟩

/-- The event of a group is linked to the report of its number. -/
theorem linkReports_assigns_iff (h : ofVariables vs = .ok c) (hg : group ∈ c.groups)
    (reports : List UInt32) :
    c.linkReports.Assigns group.eventId reports ↔ reports = [group.eventId] :=
  eventList_assigns_iff h hg (fun group => [group.eventId]) reports

/-- The report of a group lists the identifiers of its members. -/
theorem defineReports_assigns_iff (h : ofVariables vs = .ok c) (hg : group ∈ c.groups)
    (ids : List UInt32) :
    c.defineReports.Assigns group.eventId ids ↔
      ids = group.members.map fun v => v.numericId.getD 0 := by
  have hrow : c.defineReports = c.eventList fun group =>
      .list ((group.members.map fun v => v.numericId.getD 0).map fun n => .u4 [n]) := by
    unfold defineReports
    congr
    funext group
    rw [List.map_map]
    rfl
  rw [hrow]
  exact eventList_assigns_iff h hg _ ids

end Catalog

/-! ## What is sent -/

/-- A report that bears another number. -/
inductive IsForeign (id : UInt32) : Item → Prop
  | intro {other : UInt32} {name : Item} {values : List Item} (hn : name.Names other)
      (hne : other ≠ id) (hv : ∀ value ∈ values, value.depth ≤ Item.depthLimit) :
      IsForeign id (.list [name, .list values])

/-- The body of S6F11 for an event, in which the first report of the given number has the given
values. -/
inductive IsEventMessage (eventId id : UInt32) (values : List Item) : Item → Prop
  | intro {n : UInt32} {data event name : Item} {foreign more : List Item} (hd : data.Names n)
      (he : event.Names eventId) (hn : name.Names id) (hf : ∀ report ∈ foreign, IsForeign id report)
      (hv : ∀ value ∈ values, value.depth ≤ Item.depthLimit) :
      IsEventMessage eventId id values
        (.list [data, event, .list (foreign ++ .list [name, .list values] :: more)])

namespace Cursor

variable {name : Item} {items : List Item} {id : UInt32} (total : Nat) (rest : Bytes)

theorem skipItems?_encodeAll (h : ∀ item ∈ items, item.Readable) :
    skipItems? items.length ⟨total, Item.encodeAll items ++ rest⟩ = some ⟨total, rest⟩ := by
  induction items with
  | nil => rfl
  | cons item others ih =>
    rw [List.forall_mem_cons] at h
    rw [List.length_cons, skipItems?, Item.encodeAll, List.append_assoc, item_encode _ _ h.1]
    exact ih h.2

theorem reportHeader?_encode (hn : name.Names id) (hl : items.length < Item.lengthLimit) :
    reportHeader? ⟨total, (Item.list [name, .list items]).encode ++ rest⟩ =
      some (id, items.length, ⟨total, Item.encodeAll items ++ rest⟩) := by
  have hpair : [name, Item.list items].length < Item.lengthLimit := (by decide : 2 < _)
  unfold reportHeader?
  rw [listHeader?_encode total rest hpair]
  simp only [List.length_cons, List.length_nil, Item.encodeAll, List.append_nil, List.append_assoc]
  rw [identifier_encode total _ hn]
  dsimp only
  rw [listHeader?_encode total rest hl, Option.map_some]

variable (size count : Nat)

theorem findReport_own (hn : name.Names id) (hl : items.length < Item.lengthLimit) :
    findReport id items.length (count + 1)
        ⟨total, (Item.list [name, .list items]).encode ++ rest⟩ =
      .found ⟨total, Item.encodeAll items ++ rest⟩ := by
  rw [findReport, reportHeader?_encode total rest hn hl]
  dsimp only
  rw [if_pos rfl, if_pos rfl]

theorem findReport_foreign {report : Item} (h : IsForeign id report) (hf : report.Fits) :
    findReport id size (count + 1) ⟨total, report.encode ++ rest⟩ =
      findReport id size count ⟨total, rest⟩ := by
  obtain @⟨other, name, values, hn, hne, hv⟩ := h
  obtain ⟨hl, hs⟩ : values.length < Item.lengthLimit ∧ Item.FitsAll values := hf.2.2.1
  have hread : ∀ value ∈ values, value.Readable := fun value hmem =>
    ⟨hv value hmem, Item.fits_of_fitsAll hs value hmem⟩
  rw [findReport, reportHeader?_encode total rest hn hl]
  dsimp only
  rw [if_neg hne, skipItems?_encodeAll total rest hread]

theorem findReport_append {foreign : List Item}
    (h : ∀ report ∈ foreign, IsForeign id report ∧ report.Fits) :
    findReport id size (foreign.length + count) ⟨total, Item.encodeAll foreign ++ rest⟩ =
      findReport id size count ⟨total, rest⟩ := by
  induction foreign with
  | nil => rw [List.length_nil, Nat.zero_add, Item.encodeAll, List.nil_append]
  | cons report others ih =>
    rw [List.forall_mem_cons] at h
    rw [List.length_cons, Nat.add_right_comm, Item.encodeAll, List.append_assoc,
      findReport_foreign total _ size _ h.1.1 h.1.2, ih h.2]

end Cursor

/-- The front of an event message ends where its reports begin. -/
theorem Inbound.eventHeader?_encode {m : Inbound} {data event reports : Item} {n eventId : UInt32}
    (hd : data.Names n) (he : event.Names eventId)
    (hm : m.body = (Item.list [data, event, reports]).encode) :
    m.eventHeader? = some (eventId, ⟨m.body.length, reports.encode ++ []⟩) := by
  have hrow : [data, event, reports].length < Item.lengthLimit := (by decide : 3 < _)
  have hfront := Cursor.listHeader?_encode m.body.length [] hrow
  rw [List.append_nil, ← hm] at hfront
  unfold eventHeader? Cursor.ofBytes
  rw [hfront]
  simp only [List.length_cons, List.length_nil, Item.encodeAll, List.append_assoc]
  rw [Cursor.identifier_encode m.body.length _ hd]
  dsimp only
  rw [Cursor.identifier_encode m.body.length _ he]
  rfl

namespace Session

/-! ## What reaches the host -/

/-- Values that are handed to the host as those of a row of variables. -/
def publications (vs : List Variable) (values : List Value) : List Action :=
  List.zipWith (fun v value => .publish v value true) vs values

variable {items : List Item} {values : List Value} {vs : List Variable}

theorem publishRow_encodeAll (s : Session) (hi : ∀ item ∈ items, item.Readable)
    (hl : items.length = vs.length)
    (hv : List.zipWith (fun v item => Variable.read? v item.datum) vs items = values.map some)
    (total : Nat) (rest : Bytes) :
    s.publishRow vs.length ⟨total, Item.encodeAll items ++ rest⟩ vs =
      ({ s with outbox := s.outbox ++ publications vs values }, true) := by
  induction vs generalizing s items values with
  | nil =>
    simp [publishRow, publications]
  | cons v others ih =>
    obtain ⟨item, items, rfl⟩ := List.exists_cons_of_length_eq_add_one hl
    rw [List.zipWith_cons_cons] at hv
    obtain ⟨value, values, rfl, hvalue, hrest⟩ := List.map_eq_cons_iff.mp hv.symm
    rw [List.forall_mem_cons] at hi
    have hone : s.publishItem v (some item) = (s.emit (.publish v value true), true) := by
      rw [publishItem, Option.bind_some, ← hvalue]
    rw [publishRow, List.length_cons, if_neg (Nat.add_one_ne_zero _), Item.encodeAll,
      List.append_assoc, Cursor.item_encode total _ hi.1]
    dsimp only
    rw [hone, Nat.add_sub_cancel, ih _ hi.2 (Nat.succ.inj hl) hrest.symm]
    simp [publications, emit]

variable {s : Session} {group : EventGroup} {eventId : UInt32} {body : Item} {m : Inbound}

/-- An event message that reports what was defined for its event. -/
theorem eventReport?_of_message (hg : s.catalog.group? eventId = some group)
    (hb : IsEventMessage eventId eventId items body) (hf : body.Fits)
    (hl : items.length = group.members.length)
    (hv : List.zipWith (fun v item => Variable.read? v item.datum) group.members items =
      values.map some)
    (hm : m.body = body.encode) :
    s.eventReport? m = some { s with
      outbox := s.outbox ++ publications group.members values ++
        [.clear .failedToGetData,
          .send (s.parties.reply 6 12 m.header.system Body.acceptance)] } := by
  obtain @⟨n, data, event, name, foreign, more, hd, he, hn, hforeign, hdepth⟩ := hb
  obtain ⟨hcount, hall⟩ : (foreign ++ .list [name, .list items] :: more).length < Item.lengthLimit ∧
      Item.FitsAll (foreign ++ .list [name, .list items] :: more) := hf.2.2.2.1
  have hfits := Item.fits_of_fitsAll hall
  rw [List.forall_mem_append, List.forall_mem_cons] at hfits
  obtain ⟨hothers, hown, -⟩ := hfits
  obtain ⟨hlength, hvalues⟩ : items.length < Item.lengthLimit ∧ Item.FitsAll items := hown.2.2.1
  have hread : ∀ item ∈ items, item.Readable := fun item hi =>
    ⟨hdepth item hi, Item.fits_of_fitsAll hvalues item hi⟩
  have hfront := Inbound.eventHeader?_encode hd he hm
  -- the reports are passed over until the one that was defined
  have hbytes : Item.encodeAll (foreign ++ .list [name, .list items] :: more) ++ [] =
      Item.encodeAll foreign ++
        ((Item.list [name, .list items]).encode ++ Item.encodeAll more) := by
    rw [Item.encodeAll_append, Item.encodeAll, List.append_nil]
  have hfound := Cursor.findReport_own m.body.length (Item.encodeAll more) more.length hn hlength
  unfold eventReport?
  rw [hfront]
  dsimp only
  rw [hg]
  dsimp only
  rw [Cursor.listHeader?_encode m.body.length [] hcount]
  dsimp only
  rw [hbytes, List.length_append, List.length_cons,
    Cursor.findReport_append _ _ _ _ fun report hr => ⟨hforeign report hr, hothers report hr⟩,
    ← hl, hfound]
  dsimp only
  rw [hl]
  unfold publishRowAndClear
  rw [publishRow_encodeAll s hread hl hv]
  simp [acknowledgeEvent, send, clear, emit]

theorem unsolicited?_of_event (h : m.header.carries 6 11 = true) (s : Session) :
    s.unsolicited? m = s.eventReport? m := by
  simp only [Header.carries, Bool.and_eq_true, beq_iff_eq] at h
  simp [unsolicited?, Header.carries, h]

/-- The equipment is told one report for an event of the variables and which identifiers it lists:
those of the variables of the event, in their order. When S6F11 then reports for that event one item
for each listed identifier, and each can be read as a value of the variable at its place, the values
are handed to the host in the order of the variables, the alert is cleared, and S6F12 accepts the
message, known by its system bytes. That is all, whatever the state of the session, whatever reports
of other numbers come before, and whatever comes behind. -/
theorem event_report_read_as_defined (vs : List Variable) (s : Session)
    (hcat : Catalog.ofVariables vs = .ok s.catalog) (group : EventGroup)
    (hg : group ∈ s.catalog.groups) :
    ∃ report ids,
      (∀ reports, s.catalog.linkReports.Assigns group.eventId reports ↔ reports = [report]) ∧
      (∀ row, s.catalog.defineReports.Assigns report row ↔ row = ids) ∧
      ids.map some = group.members.map Variable.numericId ∧
      ∀ (now : Nat) (header : Header) (body : Item) (items : List Item) (values : List Value),
        header.carries 6 11 = true → IsEventMessage group.eventId report items body → body.Fits →
        items.length = ids.length →
        List.zipWith (fun v item => Variable.read? v item.datum) group.members items =
          values.map some →
        s.handleFrame now (header.message (some body)) = { s with
          outbox := s.outbox ++ publications group.members values ++
            [.clear .failedToGetData,
              .send (s.parties.reply 6 12 header.system Body.acceptance)]
          counters := s.counters.add .framesReceived 1 } := by
  refine ⟨group.eventId, group.members.map fun v => v.numericId.getD 0,
    Catalog.linkReports_assigns_iff hcat hg, Catalog.defineReports_assigns_iff hcat hg, ?_, ?_⟩
  · rw [List.map_map]
    exact List.map_congr_left fun v hv => Catalog.numericId_of_mem_group hcat hg hv
  intro now header body items values hc hb hf hl hv
  have hstream : header.stream.toNat < 128 := by
    simp only [Header.carries, Bool.and_eq_true, beq_iff_eq] at hc
    rw [hc.1.2]
    decide
  have hgroup : (s.count .framesReceived 1).catalog.group? group.eventId = some group :=
    Catalog.group?_of_mem hcat hg
  rw [List.length_map] at hl
  unfold handleFrame
  dsimp only
  rw [Inbound.read?_message header (some body) hstream]
  dsimp only
  rw [unsolicited?_of_event hc, eventReport?_of_message hgroup hb hf hl hv rfl]
  rfl

/-- The number of a lot, reported with its size. -/
def lot : Variable where
  name := "lot"
  format := .char
  kind := .dataVariable
  numericId := some 700
  eventId := some 456

/-- The size of a lot. -/
def lotSize : Variable where
  name := "count"
  format := .uint16
  kind := .statusVariable
  numericId := some 70000
  eventId := some 456

/-- A variable that another event reports, whose number is that of the first byte of the other. -/
def door : Variable where
  name := "door"
  format := .bool
  kind := .dataVariable
  numericId := some 700
  eventId := some 200

/-- A report of the lot behind one of the door, with identifiers of all widths. -/
def lotReport : Item :=
  .list [.u1 [9], .u2 [456],
    .list [.list [.u1 [200], .list [.list [.boolean [true]], .binary []]],
      .list [.u4 [456], .list [.ascii "LOT-1", .u2 [5]]]]]

theorem event_report_read_as_defined_lotReport :
    let catalog : Catalog := { groups := [⟨456, [lot, lotSize]⟩, ⟨200, [door]⟩] }
    let s : Session := { ofCatalog "press" {} catalog with state := .awaitingWrite }
    let header : Header := ⟨1, 6, true, 11, 0, SessionType.data, ⟨3, 77⟩⟩
    Catalog.ofVariables [lot, door, lotSize] = .ok catalog ∧
      header.carries 6 11 = true ∧ IsEventMessage 456 456 [.ascii "LOT-1", .u2 [5]] lotReport ∧
      s.handleFrame 9 (header.message (some lotReport)) = { s with
        outbox := [.publish lot (.text "LOT-1") true, .publish lotSize (.nat 5) true,
          .clear .failedToGetData, .send (s.parties.reply 6 12 ⟨3, 77⟩ Body.acceptance)]
        counters := s.counters.add .framesReceived 1 } := by
  intro catalog s header
  have hcat : Catalog.ofVariables [lot, door, lotSize] = .ok catalog := rfl
  have hg : ⟨456, [lot, lotSize]⟩ ∈ catalog.groups := List.mem_cons_self
  have hforeign : IsForeign 456
      (.list [.u1 [200], .list [.list [.boolean [true]], .binary []]]) :=
    .intro (.u1 200) (by decide) (by decide)
  have hmessage : IsEventMessage 456 456 [.ascii "LOT-1", .u2 [5]] lotReport :=
    @IsEventMessage.intro 456 456 _ 9 _ _ _ [_] [] (.u1 9) (.u2 456) (.u4 456)
      (List.forall_mem_singleton.mpr hforeign) (by decide)
  obtain ⟨report, ids, hlink, -, hids, hhandle⟩ := event_report_read_as_defined
    [lot, door, lotSize] s hcat ⟨456, [lot, lotSize]⟩ hg
  obtain rfl : report = 456 := List.cons.inj
    ((Catalog.linkReports_assigns_iff hcat hg _).mp ((hlink _).mpr rfl)) |>.1
  have hl : ids.length = 2 := by simpa using congrArg List.length hids
  exact ⟨hcat, rfl, hmessage, hhandle 9 header lotReport _ [.text "LOT-1", .nat 5] rfl hmessage
    (by decide) hl.symm rfl⟩

end Session

end GemLink
