import GemLink.Conversion
import GemLink.Item.Cursor
import GemLink.Session.Basic

/-!
Received items are handed to the host item by item, in the order of the variables they are for.
Messages that the equipment sends of its own accord are handled whatever the session waits for, and
do not change what it waits for.
-/

namespace GemLink

namespace Session

/-- Raises the alert that the value of a variable could not be read. -/
def dataFailure (s : Session) (v : Variable) : Session :=
  (s.count .decodeFailures 1).raise .failedToGetData (some v.name)

/-- Hands an item to the host as the value of a variable; the second part tells whether it could. -/
def publishItem (s : Session) (v : Variable) (item : Option Item) : Session × Bool :=
  match item.bind fun item => v.read? item.datum with
  | some value => (s.emit (.publish v value true), true)
  | none => (s.dataFailure v, false)

/-- Hands the next items to the host as the values of a row of variables, of which only the first
`count` have an item; the second part tells whether all could be handed over. -/
def publishRow (s : Session) (count : Nat) (c : Cursor) : List Variable → Session × Bool
  | [] => (s, true)
  | v :: rest =>
    let (item, c) := if count = 0 then (none, c) else c.item
    let (s, first) := s.publishItem v item
    let (s, others) := s.publishRow (count - 1) c rest
    (s, first && others)

/-- Hands the items of a row to the host and clears the alert if all could be handed over. -/
def publishRowAndClear (s : Session) (count : Nat) (c : Cursor) (vs : List Variable) : Session :=
  let (s, all) := s.publishRow count c vs
  if all then s.clear .failedToGetData else s

end Session

/-- What a search for a report among those of an event message found. -/
inductive ReportSearch where
  /-- The message is malformed. -/
  | malformed
  /-- The message is well-formed and has no such report. -/
  | absent
  /-- The values of the report begin here. -/
  | found (values : Cursor)

/-- Passes over `count` items, all of which must be decodable. -/
def Cursor.skipItems? : Nat → Cursor → Option Cursor
  | 0, c => some c
  | count + 1, c =>
    match c.item with
    | (some _, c) => skipItems? count c
    | (none, _) => none

/-- Reads the front of a report: its identifier and the number of its values. -/
def Cursor.reportHeader? (c : Cursor) : Option (UInt32 × Nat × Cursor) :=
  match c.listHeader? with
  | some (2, c) =>
    match c.identifier with
    | (some id, c) => c.listHeader?.map fun (count, c) => (id, count, c)
    | (none, _) => none
  | _ => none

/-- Searches the next `count` reports for the first with the given identifier, which must have
`size` values. -/
def Cursor.findReport (id : UInt32) (size : Nat) : Nat → Cursor → ReportSearch
  | 0, _ => .absent
  | count + 1, c =>
    match c.reportHeader? with
    | none => .malformed
    | some (other, values, c) =>
      if other = id then if values = size then .found c else .malformed
      else
        match c.skipItems? values with
        | some c => findReport id size count c
        | none => .malformed

/-- Reads the front of an event message up to the collection event. -/
def Inbound.eventHeader? (m : Inbound) : Option (UInt32 × Cursor) :=
  match (Cursor.ofBytes m.body).listHeader? with
  | some (3, c) =>
    match c.identifier with
    | (some _, c) =>
      match c.identifier with
      | (some eventId, c) => some (eventId, c)
      | (none, _) => none
    | (none, _) => none
  | _ => none

namespace Session

/-- Acknowledges an event message. -/
def acknowledgeEvent (s : Session) (m : Inbound) : Session :=
  s.send (s.parties.reply 6 12 m.header.system Body.acceptance)

/-- Handles an event message: the values of the report that bears the number of the event go to the
host. A malformed message is left unanswered, so that the equipment sends it again. -/
def eventReport? (s : Session) (m : Inbound) : Option Session :=
  match m.eventHeader? with
  | none => none
  | some (eventId, c) =>
    match s.catalog.group? eventId with
    | none => some (s.acknowledgeEvent m)
    | some group =>
      match c.listHeader? with
      | none => none
      | some (count, c) =>
        let size := group.members.length
        match c.findReport eventId size count with
        | .malformed => none
        | .absent => some (s.acknowledgeEvent m)
        | .found values =>
          some ((s.publishRowAndClear size values group.members).acknowledgeEvent m)

/-- Handles an alarm report. -/
def alarmReport (s : Session) (m : Inbound) : Session :=
  match m.alarmReport? with
  | none => s.raise .badAlarmReport none
  | some report =>
    let s := (s.send (s.parties.reply 5 2 m.header.system Body.acceptance)).clear .badAlarmReport
    match s.alarms.after? report with
    | some alarms => { s with alarms }.publishAlarms
    | none => s

/-- Handles a message that the equipment sends of its own accord: whether the host is there, that a
transaction of the equipment took too long, an alarm, or an event. -/
def unsolicited? (s : Session) (m : Inbound) : Option Session :=
  if m.header.carries 1 1 then
    some (s.send (s.parties.reply 1 2 m.header.system Body.onlineData))
  else if m.header.carries 9 9 then some (s.cancel .commTimeout)
  else if m.header.carries 5 1 then some (s.alarmReport m)
  else if m.header.carries 6 11 then s.eventReport? m
  else none

end Session

end GemLink
