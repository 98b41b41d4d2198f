import GemLink.Json.Reader
import GemLink.Machine.Basic

/-!
Machine definitions as JSON. A record is an object with its fields by name or an array with them in
order; fields that have a default may be left out, unknown ones are passed over and none may occur
twice. A choice is its name, or an object with that name as its only member and `null` in it.
-/

namespace GemLink

/-- The fields of a record by name. -/
abbrev Record := List (String × Json)

namespace Record

/-- The members of an object that are among the known names; `none` if a name is no text or a known
one occurs twice. -/
def ofMembers? (names : List String) : List (Option String × Json) → Option Record
  | [] => some []
  | (none, _) :: _ => none
  | (some name, x) :: rest => do
    let fields ← ofMembers? names rest
    if names.contains name then
      if fields.any fun field => field.1 == name then none else some ((name, x) :: fields)
    else some fields

/-- The fields of a record whose fields have the given names, in that order. -/
def ofJson? (names : List String) : Json → Option Record
  | .object members => ofMembers? names members
  | .array elements => if elements.length ≤ names.length then some (names.zip elements) else none
  | _ => none

/-- A field that must be there. -/
def required? {α : Type} (fields : Record) (name : String) (read : Json → Option α) : Option α :=
  (fields.lookup name).bind read

/-- A field that has a default. -/
def withDefault? {α : Type} (fields : Record) (name : String) (default : α)
    (read : Json → Option α) : Option α :=
  match fields.lookup name with
  | none => some default
  | some x => read x

end Record

namespace Json

/-- A value or `null`. -/
def orNull? {α : Type} (read : Json → Option α) : Json → Option (Option α)
  | .null => some none
  | j => (read j).map some

/-- A natural number below a bound. -/
def below? (bound : Nat) (j : Json) : Option Nat :=
  j.natural?.bind fun n => if n < bound then some n else none

/-- A 16-bit number. -/
def uint16? (j : Json) : Option UInt16 :=
  (j.below? UInt16.size).map UInt16.ofNat

/-- A 32-bit number. -/
def uint32? (j : Json) : Option UInt32 :=
  (j.below? UInt32.size).map UInt32.ofNat

/-- A 64-bit number. -/
def uint64? (j : Json) : Option UInt64 :=
  (j.below? UInt64.size).map UInt64.ofNat

/-- The name of a choice. -/
def choice? : Json → Option String
  | .string text => text
  | .object [(text, .null)] => text
  | _ => none

/-- All elements of an array, each read in the same way. -/
def rowOf? {α : Type} (read : Json → Option α) : Json → Option (List α)
  | .array elements => elements.mapM read
  | _ => none

end Json

namespace VariableFormat

/-- The name of a format. -/
def name : VariableFormat → String
  | .char => "char"
  | .bool => "bool"
  | .int8 => "int8"
  | .int16 => "int16"
  | .int32 => "int32"
  | .int64 => "int64"
  | .uint8 => "uint8"
  | .uint16 => "uint16"
  | .uint32 => "uint32"
  | .uint64 => "uint64"
  | .float => "float"
  | .double => "double"

/-- Reads a format. -/
def ofJson? (j : Json) : Option VariableFormat :=
  j.choice?.bind fun
    | "char" => some .char
    | "bool" => some .bool
    | "int8" => some .int8
    | "int16" => some .int16
    | "int32" => some .int32
    | "int64" => some .int64
    | "uint8" => some .uint8
    | "uint16" => some .uint16
    | "uint32" => some .uint32
    | "uint64" => some .uint64
    | "float" => some .float
    | "double" => some .double
    | _ => none

end VariableFormat

namespace VariableKind

/-- The name of a kind. -/
def name : VariableKind → String
  | .statusVariable => "Status Variable (SV)"
  | .equipmentConstant => "Equipment Constant (EC)"
  | .dataVariable => "Data Variable (DV) (requires CEID)"
  | .activeAlarmCodes => "Active Alarm Codes"
  | .activeAlarmTexts => "Active Alarm Texts"
  | .other => "Other"

/-- Reads a kind; an unknown name is a kind too. -/
def ofJson? (j : Json) : Option VariableKind :=
  j.choice?.map fun
    | "Status Variable (SV)" => .statusVariable
    | "Equipment Constant (EC)" => .equipmentConstant
    | "Data Variable (DV) (requires CEID)" => .dataVariable
    | "Active Alarm Codes" => .activeAlarmCodes
    | "Active Alarm Texts" => .activeAlarmTexts
    | _ => .other

end VariableKind

namespace Access

/-- The name of an access. -/
def name : Access → String
  | .write => "write"
  | .read => "read"

/-- Reads an access; an unknown name means reading only. -/
def ofJson? (j : Json) : Option Access :=
  j.choice?.map fun
    | "write" => .write
    | _ => .read

end Access

namespace Variable

/-- The names of the fields, in order. -/
def fieldNames : List String :=
  ["name", "description", "format", "type", "numericID", "CEID", "access", "array",
   "machineConnected"]

/-- Reads a variable. -/
def ofJson? (j : Json) : Option Variable := do
  let fields ← Record.ofJson? fieldNames j
  some {
    name := ← fields.required? "name" Json.text?
    description := ← fields.withDefault? "description" none (Json.orNull? Json.text?)
    format := ← fields.required? "format" VariableFormat.ofJson?
    kind := ← fields.withDefault? "type" .other VariableKind.ofJson?
    numericId := ← fields.withDefault? "numericID" none (Json.orNull? Json.uint32?)
    eventId := ← fields.withDefault? "CEID" none (Json.orNull? Json.uint32?)
    access := ← fields.withDefault? "access" .read Access.ofJson?
    array := ← fields.withDefault? "array" false Json.bool?
    machineConnected := ← fields.withDefault? "machineConnected" false Json.bool? }

/-- The JSON form of a variable, with every field. -/
def toJson (v : Variable) : Json :=
  .ofFields [
    ("name", .ofText v.name),
    ("description", .ofOption .ofText v.description),
    ("format", .ofText v.format.name),
    ("type", .ofText v.kind.name),
    ("numericID", .ofOption (fun n => .ofNat n.toNat) v.numericId),
    ("CEID", .ofOption (fun n => .ofNat n.toNat) v.eventId),
    ("access", .ofText v.access.name),
    ("array", .bool v.array),
    ("machineConnected", .bool v.machineConnected)]

end Variable

namespace Model

/-- The names of the fields, in order. -/
def fieldNames : List String :=
  ["enable", "ipAddress", "port", "sparkDeviceID", "equipDeviceID", "requestFrequency",
   "enablePeriodicLinkTestMessages", "linkTestFrequency", "disconnectReportTime",
   "connectionStatus"]

/-- Reads a model. -/
def ofJson? (j : Json) : Option Model := do
  let fields ← Record.ofJson? fieldNames j
  some {
    enable := ← fields.withDefault? "enable" false Json.bool?
    ipAddress := ← fields.withDefault? "ipAddress" "127.0.0.1" Json.text?
    port := ← fields.withDefault? "port" 5000 Json.uint16?
    hostDeviceId := ← fields.withDefault? "sparkDeviceID" 1 Json.uint16?
    equipmentDeviceId := ← fields.withDefault? "equipDeviceID" 0 Json.uint16?
    requestFrequency := ← fields.withDefault? "requestFrequency" 5 Json.uint64?
    linkTestEnabled := ← fields.withDefault? "enablePeriodicLinkTestMessages" false Json.bool?
    linkTestFrequency := ← fields.withDefault? "linkTestFrequency" 120 Json.uint64?
    disconnectReportTime :=
      ← fields.withDefault? "disconnectReportTime" none (Json.orNull? Json.uint64?)
    connectionStatus := ← fields.withDefault? "connectionStatus" false Json.bool? }

/-- The JSON form of a model, with every field. -/
def toJson (m : Model) : Json :=
  .ofFields [
    ("enable", .bool m.enable),
    ("ipAddress", .ofText m.ipAddress),
    ("port", .ofNat m.port.toNat),
    ("sparkDeviceID", .ofNat m.hostDeviceId.toNat),
    ("equipDeviceID", .ofNat m.equipmentDeviceId.toNat),
    ("requestFrequency", .ofNat m.requestFrequency.toNat),
    ("enablePeriodicLinkTestMessages", .bool m.linkTestEnabled),
    ("linkTestFrequency", .ofNat m.linkTestFrequency.toNat),
    ("disconnectReportTime", .ofOption (fun n => .ofNat n.toNat) m.disconnectReportTime),
    ("connectionStatus", .bool m.connectionStatus)]

end Model

namespace MachineInfo

/-- The names of the fields, in order. -/
def fieldNames : List String :=
  ["name", "fullname", "version", "description", "hpl"]

/-- Reads what a machine is. -/
def ofJson? (j : Json) : Option MachineInfo := do
  let fields ← Record.ofJson? fieldNames j
  some {
    name := ← fields.required? "name" Json.text?
    fullName := ← fields.withDefault? "fullname" none (Json.orNull? Json.text?)
    version := ← fields.withDefault? "version" none (Json.orNull? Json.text?)
    description := ← fields.withDefault? "description" none (Json.orNull? Json.text?)
    driverKind := ← fields.withDefault? "hpl" none (Json.orNull? Json.text?) }

/-- The JSON form of what a machine is, with every field. -/
def toJson (i : MachineInfo) : Json :=
  .ofFields [
    ("name", .ofText i.name),
    ("fullname", .ofOption .ofText i.fullName),
    ("version", .ofOption .ofText i.version),
    ("description", .ofOption .ofText i.description),
    ("hpl", .ofOption .ofText i.driverKind)]

end MachineInfo

namespace Machine

/-- Reads the settings of a machine, which hold its model. -/
def settingsOfJson? (j : Json) : Option Model := do
  let fields ← Record.ofJson? ["model"] j
  fields.withDefault? "model" {} Model.ofJson?

/-- Reads a machine definition. -/
def ofJson? (j : Json) : Option Machine := do
  let fields ← Record.ofJson? ["info", "settings", "variables"] j
  some {
    info := ← fields.required? "info" MachineInfo.ofJson?
    model := ← fields.withDefault? "settings" {} settingsOfJson?
    vars := ← fields.withDefault? "variables" [] (Json.rowOf? Variable.ofJson?) }

/-- The JSON form of a machine definition, with every field. -/
def toJson (m : Machine) : Json :=
  .ofFields [
    ("info", m.info.toJson),
    ("settings", .ofFields [("model", m.model.toJson)]),
    ("variables", .array (m.vars.map Variable.toJson))]

/-- Reads the text of a machine definition. -/
def parse? (text : String) : Option Machine :=
  (Json.parse? text).bind ofJson?

/-- The text of a machine definition. -/
def render (m : Machine) : String :=
  m.toJson.render

end Machine

end GemLink
