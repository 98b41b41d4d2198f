/-!
Machine definitions: what the equipment is called, how it is reached and polled, and which of its
variables are of interest.
-/

namespace GemLink

/-- How the values of a variable are represented. -/
inductive VariableFormat where
  | char
  | bool
  | int8
  | int16
  | int32
  | int64
  | uint8
  | uint16
  | uint32
  | uint64
  | float
  | double
  deriving DecidableEq, Repr

/-- Whether the format holds fractions. -/
def VariableFormat.isFloat : VariableFormat → Bool
  | .float | .double => true
  | _ => false

/-- Whether the format holds unsigned whole numbers only. -/
def VariableFormat.isUnsigned : VariableFormat → Bool
  | .uint8 | .uint16 | .uint32 | .uint64 => true
  | _ => false

/-- What a variable stands for on the equipment. -/
inductive VariableKind where
  /-- A status variable, polled unless it belongs to a collection event. -/
  | statusVariable
  /-- An equipment constant, polled unless it belongs to a collection event. -/
  | equipmentConstant
  /-- A data variable, reported with its collection event only. -/
  | dataVariable
  /-- The codes of the active alarms. -/
  | activeAlarmCodes
  /-- The texts of the active alarms. -/
  | activeAlarmTexts
  /-- Anything else. -/
  | other
  deriving DecidableEq, Repr

/-- Whether the host may write a variable. -/
inductive Access where
  /-- Written by the host. -/
  | write
  /-- Read by the host. -/
  | read
  deriving DecidableEq, Repr

/-- A variable of a machine. -/
structure Variable where
  /-- The name under which the host knows it. -/
  name : String
  /-- A text for people. -/
  description : Option String := none
  /-- How its values are represented. -/
  format : VariableFormat
  /-- What it stands for. -/
  kind : VariableKind := .other
  /-- The identifier of the status variable or equipment constant. -/
  numericId : Option UInt32 := none
  /-- The identifier of the collection event that reports it. -/
  eventId : Option UInt32 := none
  /-- Whether the host may write it. -/
  access : Access := .read
  /-- Whether its values are rows of values. -/
  array : Bool := false
  /-- Whether it only tells the host that the machine is connected. -/
  machineConnected : Bool := false
  deriving DecidableEq, Repr

/-- Whether the host may write the variable. -/
def Variable.isWritable (v : Variable) : Bool :=
  v.access == .write

/-- How the equipment is reached and polled. -/
structure Model where
  /-- Whether the driver connects at all. -/
  enable : Bool := false
  /-- The address of the equipment. -/
  ipAddress : String := "127.0.0.1"
  /-- The port of the equipment. -/
  port : UInt16 := 5000
  /-- The identifier under which the host speaks. -/
  hostDeviceId : UInt16 := 1
  /-- The identifier of the equipment. -/
  equipmentDeviceId : UInt16 := 0
  /-- Seconds between polls. -/
  requestFrequency : UInt64 := 5
  /-- Whether the link is tested from time to time. -/
  linkTestEnabled : Bool := false
  /-- Seconds between link tests. -/
  linkTestFrequency : UInt64 := 120
  /-- Seconds after which a lost connection is reported. -/
  disconnectReportTime : Option UInt64 := none
  /-- The connection status as stored with the definition. -/
  connectionStatus : Bool := false
  deriving DecidableEq, Repr

/-- What the machine is. -/
structure MachineInfo where
  /-- Its name, under which it is known to the host. -/
  name : String
  /-- Its full name. -/
  fullName : Option String := none
  /-- The version of the definition. -/
  version : Option String := none
  /-- A text for people. -/
  description : Option String := none
  /-- The kind of driver that the definition is meant for. -/
  driverKind : Option String := none
  deriving DecidableEq, Repr

/-- A machine definition. -/
structure Machine where
  /-- What the machine is. -/
  info : MachineInfo
  /-- How it is reached and polled. -/
  model : Model := {}
  /-- Its variables. -/
  vars : List Variable := []
  deriving DecidableEq, Repr

/-- Where the host's configuration store holds the connection status of the machine. -/
def Machine.statusPath (m : Machine) : String :=
  "machines:" ++ m.info.name ++ ":settings:model:connectionStatus"

end GemLink
