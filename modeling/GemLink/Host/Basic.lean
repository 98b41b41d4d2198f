import GemLink.Host.Alert
import GemLink.Host.Sink

/-!
The host: alerts, a configuration store and a data sink, with a record of every call.
-/

namespace GemLink

/-- A call of the host. -/
inductive HostCall where
  /-- Templates are loaded. -/
  | load (count : Nat)
  /-- An alert is raised. -/
  | raise (alert : Alert)
  /-- An alert is cleared. -/
  | clear (key : String)
  /-- All alerts are cleared. -/
  | clearAll
  /-- A truth value is stored. -/
  | store (path : String) (value : Bool)
  /-- A value is written, with success or not. -/
  | write (name : String) (value : Value) (ok : Bool)

/-- A host. -/
structure Host where
  /-- The alerts. -/
  board : AlertBoard := {}
  /-- The configuration store. -/
  config : Keyed Bool := []
  /-- The data sink. -/
  sink : DataSink := {}
  /-- Whether clearing all alerts fails. -/
  alertsFailing : Bool := false
  /-- Whether storing fails. -/
  configFailing : Bool := false
  /-- The calls so far. -/
  calls : List HostCall := []

namespace Host

/-- Notes a call. -/
def note (h : Host) (call : HostCall) : Host :=
  { h with calls := h.calls ++ [call] }

/-- Loads templates. -/
def load (h : Host) (templates : List AlertTemplate) : Host :=
  { h with board := h.board.load templates }.note (.load templates.length)

/-- Raises an alert. -/
def raise (h : Host) (alert : Alert) : Host :=
  { h with board := h.board.raise alert }.note (.raise alert)

/-- Clears an alert. -/
def clear (h : Host) (key : String) : Host :=
  { h with board := h.board.clear key }.note (.clear key)

/-- Clears all alerts. -/
def clearAll (h : Host) : Host × Except HostError Unit :=
  let noted := h.note .clearAll
  if h.alertsFailing then (noted, .error .lock)
  else ({ noted with board := h.board.clearAll }, .ok ())

/-- Stores a truth value. -/
def store (h : Host) (path : String) (value : Bool) : Host × Except HostError Unit :=
  let noted := h.note (.store path value)
  if h.configFailing then (noted, .error (.config "store unavailable"))
  else ({ noted with config := h.config.insert path value }, .ok ())

/-- Writes a value of a variable. -/
def write (h : Host) (machine name : String) (value : Value) : Host × Except HostError Unit :=
  let (sink, result) := h.sink.write ⟨machine, name, value⟩
  ({ h with sink }.note (.write name value result.isOk), result)

end Host

end GemLink
