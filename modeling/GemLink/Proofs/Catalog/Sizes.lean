import GemLink.Proofs.Catalog.Sorting
import GemLink.Proofs.Message.Outgoing

/-!
What a catalog sets aside for messages. For what is sent, six bytes for each identifier are enough in
the polls (`Catalog.statusRequest_le`, `Catalog.constantRequest_le`), and twelve more for each group
in the messages about the groups (`Catalog.eventList_le`), none of which is empty.

For what is received, a hundred bytes for each variable are enough for the answers to polls, with a
link test and an alarm report in front or behind. A report of the largest group may be a few bytes
too long, since its own numbers take more than is added for them (`Catalog.takes_unless_full`).
-/

namespace GemLink

/-! ## Sizes of items -/

namespace Item

variable {items : List Item}

@[simp] theorem encodedSize_u4 (n : UInt32) : (Item.u4 [n]).encodedSize = 6 := by
  rfl

theorem encodedSize_list_le (items : List Item) :
    (Item.list items).encodedSize ≤ 4 + encodedSizeAll items := by
  have hw := lengthWidth_lt items.length
  rw [encodedSize]
  omega

/-- A list of few items has one length byte. -/
theorem encodedSize_list (h : items.length < 256) :
    (Item.list items).encodedSize = 2 + encodedSizeAll items := by
  rw [encodedSize, lengthWidth, if_pos h]

@[simp] theorem encodedSize_singleton (item : Item) :
    (Item.list [item]).encodedSize = 2 + item.encodedSize := by
  rw [encodedSize_list (by simp), encodedSizeAll, encodedSizeAll, Nat.add_zero]

@[simp] theorem encodedSize_pair (first second : Item) :
    (Item.list [first, second]).encodedSize = 2 + first.encodedSize + second.encodedSize := by
  rw [encodedSize_list (by simp), encodedSizeAll, encodedSizeAll, encodedSizeAll, Nat.add_zero,
    Nat.add_assoc]

theorem encodedSizeAll_le_mul {bound : Nat} (h : ∀ item ∈ items, item.encodedSize ≤ bound) :
    encodedSizeAll items ≤ bound * items.length := by
  induction items with
  | nil => exact Nat.zero_le _
  | cons item items ih =>
    rw [List.forall_mem_cons] at h
    have hrest := ih h.2
    rw [encodedSizeAll, List.length_cons, Nat.mul_succ]
    omega

end Item

/-- S6F11 with one report. -/
def Body.eventReport (dataId eventId reportId : UInt32) (values : List Item) : Item :=
  .list [.u4 [dataId], .u4 [eventId], .list [.list [.u4 [reportId], .list values]]]

theorem Body.encodedSize_eventReport (dataId eventId reportId : UInt32) (values : List Item) :
    (Body.eventReport dataId eventId reportId values).encodedSize =
      25 + Item.lengthWidth values.length + Item.encodedSizeAll values := by
  have hvalues : (Item.list values).encodedSize =
      1 + Item.lengthWidth values.length + Item.encodedSizeAll values := by
    rw [Item.encodedSize]
  rw [eventReport, Item.encodedSize_list (by simp)]
  simp only [Item.encodedSizeAll, Item.encodedSize_u4, Item.encodedSize_singleton,
    Item.encodedSize_pair, hvalues]
  omega

namespace Catalog

variable {c : Catalog}

/-! ## What is sent -/

/-- Whether no group of a catalog is empty. -/
def Filled (c : Catalog) : Prop :=
  ∀ group ∈ c.groups, group.members ≠ []

theorem filled_of_ofVariables {vs : List Variable} (h : ofVariables vs = .ok c) : c.Filled :=
  fun group hg => ((sorts_of_ofVariables h).members group hg).1

/-- The bytes set aside for what a message says of the groups. -/
def groupsSize (groups : List EventGroup) : Nat :=
  groups.foldl (fun size group => size + (12 + 6 * group.members.length)) 0

theorem groupsSize_cons (group : EventGroup) (groups : List EventGroup) :
    groupsSize (group :: groups) = 12 + 6 * group.members.length + groupsSize groups := by
  have hfrom (groups : List EventGroup) (size : Nat) :
      groups.foldl (fun size group => size + (12 + 6 * group.members.length)) size =
        size + groupsSize groups := by
    induction groups generalizing size with
    | nil => rfl
    | cons group groups ih =>
      unfold groupsSize
      rw [List.foldl_cons, List.foldl_cons, ih, ih]
      omega
  unfold groupsSize
  rw [List.foldl_cons, hfrom, Nat.zero_add]
  rfl

theorem encodedSizeAll_groups_le {groups : List EventGroup} {item : EventGroup → Item}
    (h : ∀ group ∈ groups, (item group).encodedSize ≤ 12 + 6 * group.members.length) :
    Item.encodedSizeAll (groups.map item) ≤ groupsSize groups := by
  induction groups with
  | nil => exact Nat.le_refl 0
  | cons group groups ih =>
    rw [List.forall_mem_cons] at h
    rw [List.map_cons, Item.encodedSizeAll, groupsSize_cons]
    exact Nat.add_le_add h.1 (ih h.2)

theorem le_transmitSize (c : Catalog) :
    38 + 6 * c.longestPoll ≤ c.transmitSize ∧ 30 + groupsSize c.groups ≤ c.transmitSize ∧
      100 ≤ c.transmitSize := by
  unfold transmitSize groupsSize
  dsimp only
  omega

/-- Whether a message with a body is no longer than is set aside. -/
def HasRoomFor (c : Catalog) (body : Item) : Prop :=
  bodyOffset + body.encodedSize ≤ c.transmitSize

theorem encodedSizeAll_ids_le (vs : List Variable) :
    Item.encodedSizeAll (vs.map idItem) ≤ 6 * vs.length := by
  rw [← List.length_map idItem]
  refine Item.encodedSizeAll_le_mul fun item hitem => ?_
  obtain ⟨v, -, rfl⟩ := List.mem_map.mp hitem
  exact Nat.le_refl 6

theorem poll_le (polled : List Variable) (h : polled.length ≤ c.longestPoll) :
    c.HasRoomFor (.list (polled.map idItem)) := by
  have hlist := Item.encodedSize_list_le (polled.map idItem)
  have hids := encodedSizeAll_ids_le polled
  have hsize := c.le_transmitSize.1
  unfold HasRoomFor bodyOffset lengthPrefixSize Header.size
  omega

theorem statusRequest_le (c : Catalog) : c.HasRoomFor c.statusRequest :=
  poll_le c.status (Nat.le_max_left _ _)

theorem constantRequest_le (c : Catalog) : c.HasRoomFor c.constantRequest :=
  poll_le c.constants (Nat.le_max_right _ _)

/-- A message about all groups fits if what it says of each takes no more than four bytes and six
for each identifier. -/
theorem eventList_le {item : EventGroup → Item}
    (h : ∀ group ∈ c.groups, (item group).encodedSize ≤ 4 + 6 * group.members.length) :
    c.HasRoomFor (c.eventList item) := by
  have hentries : Item.encodedSizeAll
      (c.groups.map fun group => .list [.u4 [group.eventId], item group]) ≤ groupsSize c.groups := by
    refine encodedSizeAll_groups_le fun group hg => ?_
    have hitem := h group hg
    rw [Item.encodedSize_pair, Item.encodedSize_u4]
    omega
  have hlist := Item.encodedSize_list_le
    (c.groups.map fun group => .list [.u4 [group.eventId], item group])
  have hsize := c.le_transmitSize.2.1
  unfold HasRoomFor eventList bodyOffset lengthPrefixSize Header.size
  rw [Item.encodedSize_pair, Item.encodedSize_u4]
  omega

theorem deleteReports_le (c : Catalog) : c.HasRoomFor c.deleteReports := by
  refine eventList_le fun group _ => ?_
  have hempty : (Item.list []).encodedSize = 2 := rfl
  omega

theorem defineReports_le (c : Catalog) : c.HasRoomFor c.defineReports := by
  refine eventList_le fun group _ => ?_
  have hids := encodedSizeAll_ids_le group.members
  have hlist := Item.encodedSize_list_le (group.members.map idItem)
  omega

/-- The number of a report takes the room of one identifier, which each group has. -/
theorem linkReports_le (h : c.Filled) : c.HasRoomFor c.linkReports := by
  refine eventList_le fun group hg => ?_
  have hmembers := List.length_pos_iff.mpr (h group hg)
  rw [Item.encodedSize_singleton, Item.encodedSize_u4]
  omega

theorem enableEvents_le (c : Catalog) : c.HasRoomFor c.enableEvents := by
  have hids : Item.encodedSizeAll (c.groups.map fun group => .u4 [group.eventId]) ≤
      groupsSize c.groups := by
    refine encodedSizeAll_groups_le fun group _ => ?_
    rw [Item.encodedSize_u4]
    omega
  have hlist := Item.encodedSize_list_le (c.groups.map fun group => .u4 [group.eventId])
  have hflag : (Item.boolean [true]).encodedSize = 3 := rfl
  have hsize := c.le_transmitSize.2.1
  unfold HasRoomFor enableEvents bodyOffset lengthPrefixSize Header.size
  rw [Item.encodedSize_pair, hflag]
  omega

/-! ## What is received -/

theorem le_foldl_max (numbers : List Nat) (first : Nat) :
    first ≤ numbers.foldl max first ∧ ∀ n ∈ numbers, n ≤ numbers.foldl max first := by
  induction numbers generalizing first with
  | nil => exact ⟨Nat.le_refl _, fun _ hn => nomatch hn⟩
  | cons number numbers ih =>
    obtain ⟨hfirst, hnumbers⟩ := ih (max first number)
    rw [List.foldl_cons, List.forall_mem_cons]
    exact ⟨by omega, by omega, hnumbers⟩

theorem length_le_largestGroup {group : EventGroup} (h : group ∈ c.groups) :
    group.members.length ≤ c.largestGroup :=
  (le_foldl_max _ 0).2 _ (List.mem_map.mpr ⟨group, h, rfl⟩)

/-- Whether frames that arrive at once, in whatever order, are accepted by an empty buffer of the
size that is set aside. -/
def Takes (c : Catalog) (frames : List Bytes) : Prop :=
  ∀ order : List Bytes, order.Perm frames →
    (FrameBuffer.push? { capacity := c.receiveSize } order.flatten).isSome = true

theorem takes_iff {frames : List Bytes} :
    c.Takes frames ↔ frames.flatten.length ≤ c.receiveSize := by
  have hpush (received : Bytes) :
      (FrameBuffer.push? { capacity := c.receiveSize } received).isSome = true ↔
        received.length ≤ c.receiveSize := by
    unfold FrameBuffer.push?
    rw [List.length_nil, Nat.zero_add]
    split
    · next hle => exact iff_of_true rfl hle
    · next hgt => exact iff_of_false Bool.false_ne_true hgt
  unfold Takes
  simp only [hpush]
  constructor
  · exact fun h => h frames (List.Perm.refl _)
  · intro h order horder
    rwa [horder.flatten.length_eq]

/-- A link test, an alarm report and an answer with values, each value of at most a hundred bytes,
are accepted together if they answer a poll. If they report a collection event, they are accepted
unless the group is as long as the longest of all answers and the values leave too little of what is
set aside for them. -/
theorem takes_unless_full (c : Catalog) (test answer : Header) (alarm : Bytes) (values : List Item)
    (ha : alarm.length ≤ 100) (hv : ∀ value ∈ values, value.encodedSize ≤ 100) :
    (values.length = c.status.length ∨ values.length = c.constants.length →
      c.Takes [test.message none, alarm, answer.message (some (.list values))]) ∧
    ∀ group ∈ c.groups, values.length = group.members.length →
      ∀ dataId eventId reportId,
        (c.Takes [test.message none, alarm,
            answer.message (some (Body.eventReport dataId eventId reportId values))] ↔
          values.length < max c.longestPoll c.largestGroup ∨
            alarm.length + Item.encodedSizeAll values + (9 + Item.lengthWidth values.length) ≤
              100 * (values.length + 1)) := by
  have hall := Item.encodedSizeAll_le_mul hv
  have hwidth := Item.lengthWidth_lt values.length
  simp only [takes_iff, List.flatten_cons, List.flatten_nil, List.append_nil, List.length_append,
    Header.length_message, Option.map_none, Option.map_some, Option.getD_none, Option.getD_some,
    Body.encodedSize_eventReport, lengthPrefixSize, Header.size]
  constructor
  · intro hlength
    have hlist := Item.encodedSize_list_le values
    have hpoll : values.length ≤ c.longestPoll := by
      unfold longestPoll
      omega
    unfold receiveSize
    dsimp only
    omega
  · intro group hg hlength dataId eventId reportId
    have hgroup := length_le_largestGroup hg
    unfold receiveSize
    dsimp only
    omega

/-- A text that a collection event reports. -/
def lotVariable : Variable where
  name := "lot"
  format := .char
  kind := .dataVariable
  numericId := some 3
  eventId := some 456

/-- The catalog in which it is the only variable. -/
def lotCatalog : Catalog :=
  { groups := [⟨456, [lotVariable]⟩] }

theorem ofVariables_lotVariable : ofVariables [lotVariable] = .ok lotCatalog := by
  rfl

/-- The answer to a link test. -/
def linkTestAnswer : Header :=
  ⟨Header.controlDevice, 0, false, 0, 0, .linkTestResponse, ⟨0, 1⟩⟩

/-- A text of so many characters. -/
def textOf (length : Nat) : Item :=
  .ascii (String.ofList (List.replicate length 'x'))

/-- S5F1 with a text of so many characters. -/
def alarmReport (length : Nat) : Bytes :=
  Header.message ⟨0, 5, true, 1, 0, .data, ⟨2, 9⟩⟩
    (some (.list [.binary [0x84], .u4 [7], textOf length]))

/-- The header of S6F11. -/
def reportHeader : Header :=
  ⟨0, 6, true, 11, 0, .data, ⟨2, 10⟩⟩

/-- A text of 88 characters is the longest that arrives together with the longest alarm report. -/
theorem takes_unless_full_lot :
    (alarmReport 73).length = 100 ∧
      lotCatalog.Takes [linkTestAnswer.message none, alarmReport 73,
        reportHeader.message (some (Body.eventReport 3000 456 456 [textOf 88]))] := by
  have halarm : (alarmReport 73).length = 100 := by decide
  have hvalues : ∀ value ∈ [textOf 88], value.encodedSize ≤ 100 := by decide
  obtain ⟨-, hreport⟩ := takes_unless_full lotCatalog linkTestAnswer reportHeader (alarmReport 73)
    [textOf 88] (Nat.le_of_eq halarm) hvalues
  refine ⟨halarm, (hreport _ List.mem_cons_self rfl 3000 456 456).mpr (.inr ?_)⟩
  decide

/-- A text of 98 characters takes a hundred bytes, as much as is set aside for it, and is refused. -/
theorem not_takes_full_lot :
    ofVariables [lotVariable] = .ok lotCatalog ∧
      (linkTestAnswer.message none).length = 14 ∧ (alarmReport 73).length = 100 ∧
      (∀ value ∈ [textOf 98], value.encodedSize ≤ 100) ∧
      (∃ group ∈ lotCatalog.groups, group.members.length = [textOf 98].length) ∧
      ¬ lotCatalog.Takes [linkTestAnswer.message none, alarmReport 73,
        reportHeader.message (some (Body.eventReport 3000 456 456 [textOf 98]))] := by
  refine ⟨ofVariables_lotVariable, by decide, by decide, by decide,
    ⟨_, List.mem_cons_self, rfl⟩, ?_⟩
  rw [takes_iff]
  decide +kernel

end Catalog

end GemLink
