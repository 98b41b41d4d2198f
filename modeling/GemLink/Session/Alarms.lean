import GemLink.Message.Basic
import GemLink.Value

/-!
Alarms: the reports in which the equipment sets and clears them, and the alarms that are active.
-/

namespace GemLink

/-- The report of one alarm, S5F1. -/
structure AlarmReport where
  /-- Whether the alarm is set or cleared. -/
  set : Bool
  /-- The code of the alarm. -/
  code : UInt32
  /-- The text of the alarm. -/
  text : String
  deriving DecidableEq, Repr

/-- The report that an item is: a list of one byte, whose highest bit tells set from cleared, one
code and a text that is not empty. -/
def AlarmReport.ofItem? : Item → Option AlarmReport
  | .list [.binary [flag], .u4 [code], .ascii text] =>
    if text.isEmpty then none
    else some ⟨flag &&& Body.alarmSetBit != 0, code, text⟩
  | _ => none

/-- The alarm report that a message is. -/
def Inbound.alarmReport? (m : Inbound) : Option AlarmReport :=
  m.firstItem?.bind AlarmReport.ofItem?

/-- The active alarms in the order in which they became active. -/
structure ActiveAlarms where
  /-- The codes and texts. -/
  entries : List (UInt32 × String) := []
  deriving DecidableEq, Repr

namespace ActiveAlarms

/-- The codes. -/
def codes (a : ActiveAlarms) : List UInt32 :=
  a.entries.map Prod.fst

/-- The texts. -/
def texts (a : ActiveAlarms) : List String :=
  a.entries.map Prod.snd

/-- The alarms after a report, if it changes them: an alarm that is not active becomes so, and one
that is cleared is so no more. -/
def after? (a : ActiveAlarms) (r : AlarmReport) : Option ActiveAlarms :=
  let isActive := a.entries.any fun entry => entry.1 == r.code
  if r.set && !isActive then some ⟨a.entries ++ [(r.code, r.text)]⟩
  else if !r.set && isActive then some ⟨a.entries.eraseP fun entry => entry.1 == r.code⟩
  else none

/-- The codes as a value of a variable. -/
def codesValue (a : ActiveAlarms) : Value :=
  .array (a.codes.map fun code => .nat code.toUInt64)

/-- The texts as a value of a variable. -/
def textsValue (a : ActiveAlarms) : Value :=
  .array (a.texts.map .text)

end ActiveAlarms

end GemLink
