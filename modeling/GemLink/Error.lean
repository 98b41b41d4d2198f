import GemLink.Machine.Basic
import GemLink.Text.Numeral

/-!
What can go wrong when the host is called, and between the host and the equipment.
-/

namespace GemLink

/-- Why a call of the host failed. -/
inductive HostError where
  /-- A value could not be written. -/
  | write (reason : String)
  /-- The configuration store refused. -/
  | config (reason : String)
  /-- The host's state is locked up. -/
  | lock
  deriving DecidableEq, Repr

/-- The text of a host error. -/
def HostError.message : HostError → String
  | .write reason => "data write failed: " ++ reason
  | .config reason => "config store error: " ++ reason
  | .lock => "lock failed"

/-- The display name of a format in error texts. -/
def VariableFormat.title : VariableFormat → String
  | .char => "Char"
  | .bool => "Bool"
  | .int8 => "Int8"
  | .int16 => "Int16"
  | .int32 => "Int32"
  | .int64 => "Int64"
  | .uint8 => "Uint8"
  | .uint16 => "Uint16"
  | .uint32 => "Uint32"
  | .uint64 => "Uint64"
  | .float => "Float"
  | .double => "Double"

/-- Why a call of the driver failed. -/
inductive LinkError where
  /-- There is no connection to the equipment. -/
  | notConnected
  /-- A variable that is polled or reported has no identifier. -/
  | missingNumericId (name : String)
  /-- A written variable is unknown or may not be written. -/
  | notWritable (name : String)
  /-- A written variable is no equipment constant. -/
  | notEquipmentConstant (name : String)
  /-- A written value does not fit the format of its variable. -/
  | invalidWriteValue (name : String) (format : VariableFormat)
  /-- The equipment could not be reached again. -/
  | reconnectExhausted (tries : Nat)
  /-- The host failed. -/
  | host (cause : HostError)
  /-- The driver has not been started. -/
  | notRunning
  /-- The driver ended before it answered. -/
  | channelClosed
  deriving DecidableEq, Repr

/-- The text of an error. -/
def LinkError.message : LinkError → String
  | .notConnected => "connection error: not connected"
  | .missingNumericId v => "no numericID is defined for variable " ++ v
  | .notWritable v => "variable " ++ v ++ " does not exist or is not writable"
  | .notEquipmentConstant v => "variable " ++ v ++ " is not an equipment constant"
  | .invalidWriteValue v format =>
    "value for variable " ++ v ++ " does not fit format " ++ format.title
  | .reconnectExhausted tries =>
    "reconnect attempts exhausted after " ++ String.ofList (Numeral.ofNat tries) ++ " tries"
  | .host cause => "host error: " ++ cause.message
  | .notRunning => "driver not running"
  | .channelClosed => "channel closed"

end GemLink
