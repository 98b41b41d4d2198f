import GemLink.Error
import GemLink.Item.Basic
import GemLink.Keyed
import GemLink.Message.Basic

/-!
The catalog of a machine: which of its variables are polled, which are reported with a collection
event, which may be written and which show the state of the link and the alarms. The reports that
the host defines on the equipment bear the number of their collection event.
-/

namespace GemLink

/-- How the values of a variable reach the host. -/
inductive Role where
  /-- Polled as a status variable. -/
  | status
  /-- Polled as an equipment constant. -/
  | constant
  /-- Reported with a collection event. -/
  | reported (eventId : UInt32)
  /-- A data variable that no collection event reports. -/
  | unreported
  /-- Not asked of the equipment. -/
  | unasked
  deriving DecidableEq, Repr

/-- How the values of a variable reach the host. -/
def Variable.role (v : Variable) : Role :=
  if v.machineConnected || v.isWritable then .unasked
  else
    match v.kind, v.eventId with
    | .statusVariable, none => .status
    | .equipmentConstant, none => .constant
    | .dataVariable, none => .unreported
    | .statusVariable, some e | .equipmentConstant, some e | .dataVariable, some e => .reported e
    | _, _ => .unasked

/-- Whether a variable is asked of the equipment, for which it needs an identifier. -/
def Variable.isAsked (v : Variable) : Bool :=
  match v.role with
  | .status | .constant | .reported _ => true
  | .unreported | .unasked => false

/-- The variables that one collection event reports, in their order in the report. -/
structure EventGroup where
  /-- The collection event. -/
  eventId : UInt32
  /-- Its variables. -/
  members : List Variable
  deriving DecidableEq, Repr

/-- Adds a reported variable to the group of its collection event. -/
def EventGroup.add (groups : List EventGroup) (v : Variable) : List EventGroup :=
  match v.role with
  | .reported e =>
    if groups.any fun group => group.eventId == e then
      groups.map fun group =>
        if group.eventId == e then { group with members := group.members ++ [v] } else group
    else groups ++ [⟨e, [v]⟩]
  | _ => groups

/-- The variables of a machine by what is done with them. -/
structure Catalog where
  /-- The polled status variables. -/
  status : List Variable := []
  /-- The polled equipment constants. -/
  constants : List Variable := []
  /-- The reported variables by collection event. -/
  groups : List EventGroup := []
  /-- The variables that may be written, by name. -/
  writable : Keyed Variable := []
  /-- The variables that show the codes of the active alarms. -/
  alarmCodes : List Variable := []
  /-- The variables that show the texts of the active alarms. -/
  alarmTexts : List Variable := []
  /-- The variables that tell whether the machine is connected. -/
  connected : List Variable := []
  /-- The data variables that no collection event reports. -/
  unreported : List Variable := []
  deriving Repr

namespace Catalog

/-- Notes whether a variable shows alarms, may be written, and tells whether the machine is
connected. -/
def note (c : Catalog) (v : Variable) : Catalog :=
  let c := match v.kind with
    | .activeAlarmCodes => { c with alarmCodes := c.alarmCodes ++ [v] }
    | .activeAlarmTexts => { c with alarmTexts := c.alarmTexts ++ [v] }
    | _ => c
  let c := if v.isWritable then { c with writable := c.writable.insert v.name v } else c
  if v.machineConnected then { c with connected := c.connected ++ [v] } else c

/-- Puts a variable where its values are asked for. -/
def place (c : Catalog) (v : Variable) : Catalog :=
  match v.role with
  | .status => { c with status := c.status ++ [v] }
  | .constant => { c with constants := c.constants ++ [v] }
  | .reported _ => { c with groups := EventGroup.add c.groups v }
  | .unreported => { c with unreported := c.unreported ++ [v] }
  | .unasked => c

/-- Enters one more variable, which needs an identifier if it is asked of the equipment. -/
def enter (c : Catalog) (v : Variable) : Except LinkError Catalog :=
  if v.isAsked && v.numericId.isNone then .error (.missingNumericId v.name)
  else .ok ((c.note v).place v)

/-- The catalog of a row of variables, which are entered one after the other. The first one that is
asked of the equipment and has no identifier spoils it; of several writable variables of one name
the last one counts. -/
def ofVariables (vs : List Variable) : Except LinkError Catalog :=
  vs.foldlM enter {}

/-- The group of a collection event. -/
def group? (c : Catalog) (eventId : UInt32) : Option EventGroup :=
  c.groups.find? fun group => group.eventId == eventId

/-- Whether the equipment is to report anything. -/
def hasReports (c : Catalog) : Bool :=
  !c.groups.isEmpty

/-- The item that asks for a variable. -/
def idItem (v : Variable) : Item :=
  .u4 [v.numericId.getD 0]

/-- A message about all collection events, with the item that says what is done to each. -/
def eventList (c : Catalog) (item : EventGroup → Item) : Item :=
  .list [.u4 [Body.dataId],
    .list (c.groups.map fun group => .list [.u4 [group.eventId], item group])]

/-- S2F33: deletes the reports. -/
def deleteReports (c : Catalog) : Item :=
  c.eventList fun _ => .list []

/-- S2F33: defines the reports by their variables. -/
def defineReports (c : Catalog) : Item :=
  c.eventList fun group => .list (group.members.map idItem)

/-- S2F35: links each collection event to the report of the same number. -/
def linkReports (c : Catalog) : Item :=
  c.eventList fun group => .list [.u4 [group.eventId]]

/-- S2F37: enables the collection events. -/
def enableEvents (c : Catalog) : Item :=
  .list [.boolean [true], .list (c.groups.map fun group => .u4 [group.eventId])]

/-- S1F3: asks for the status variables. -/
def statusRequest (c : Catalog) : Item :=
  .list (c.status.map idItem)

/-- S2F13: asks for the equipment constants. -/
def constantRequest (c : Catalog) : Item :=
  .list (c.constants.map idItem)

/-- The number of variables in the longest poll. -/
def longestPoll (c : Catalog) : Nat :=
  max c.status.length c.constants.length

/-- The number of variables in the largest group. -/
def largestGroup (c : Catalog) : Nat :=
  (c.groups.map fun group => group.members.length).foldl max 0

/-- The number of bytes set aside for a sent message: six for each identifier besides what does not
depend on their number. -/
def transmitSize (c : Catalog) : Nat :=
  let polls := 20 + 6 * c.longestPoll + 18
  let reports := 30 + c.groups.foldl (fun size group => size + (12 + 6 * group.members.length)) 0
  max (max polls reports) 100

/-- The number of received bytes that may wait to become frames: a hundred for each variable of the
longest answer, and a link test and an alarm report besides. -/
def receiveSize (c : Catalog) : Nat :=
  let polls := 20 + 100 * c.longestPoll
  let reports := 30 + 100 * c.largestGroup
  max (max polls reports + (14 + 100)) 100

end Catalog

end GemLink
