import GemLink.Host.Alert

/-!
The alerts of the driver: their keys, their templates, and those that are about one variable and
carry their texts themselves.
-/

namespace GemLink

/-- What an alert is about. -/
inductive AlertKey where
  /-- The equipment cannot be reached. -/
  | connectivity
  /-- A variable that is asked of the equipment has no identifier. -/
  | numericIdMissing
  /-- A data variable belongs to no collection event. -/
  | eventIdRequired
  /-- The value of a variable could not be read. -/
  | failedToGetData
  /-- A poll of status variables failed. -/
  | badStatusResponse
  /-- A poll of equipment constants failed. -/
  | badConstantResponse
  /-- An alarm report could not be read. -/
  | badAlarmReport
  /-- A request was not answered. -/
  | noResponse
  /-- A write was not acknowledged. -/
  | writeFailed
  /-- A value could not be handed to the host. -/
  | databaseError
  /-- A written variable is unknown or may not be written. -/
  | notWritable (name : String)
  /-- A written variable is no equipment constant. -/
  | notEquipmentConstant (name : String)
  /-- A written variable has no identifier. -/
  | noNumericId (name : String)
  deriving DecidableEq, Repr

namespace AlertKey

/-- The key by which the host knows an alert. -/
def text : AlertKey → String
  | .connectivity => "connectivity-alert"
  | .numericIdMissing => "numeric-id-missing-alert"
  | .eventIdRequired => "DV-requires-CEID-alert"
  | .failedToGetData => "failed-to-get-data-alert"
  | .badStatusResponse => "bad-status-response-alert"
  | .badConstantResponse => "bad-constant-response-alert"
  | .badAlarmReport => "bad-alarm-report-alert"
  | .noResponse => "no-response-alert"
  | .writeFailed => "write-failed-alert"
  | .databaseError => "database-error"
  | .notWritable name => "variable-not-writable-error-" ++ name
  | .notEquipmentConstant name => "not-eqipment-constant-error-" ++ name
  | .noNumericId name => "no-numeric-id-error-" ++ name

/-- The alert about a machine, with its cause; those about one variable carry their texts. -/
def alert (machine : String) (cause : Option String) (key : AlertKey) : Alert :=
  match key with
  | .notWritable name =>
    ⟨key.text, cause, some (machine ++ ": Error Writing Variable"),
      some ("Error writing " ++ name ++ ". Variable does not exist or is not writable")⟩
  | .notEquipmentConstant name =>
    ⟨key.text, cause, some (machine ++ ": Variable Is Not an Equipment Constant"),
      some ("Error writing " ++ name ++ ". Only equipment constants may be written")⟩
  | .noNumericId name =>
    ⟨key.text, cause, some (machine ++ ": Variable Has No Numeric ID"),
      some ("Error writing " ++ name ++ ". Variable does not have a numeric ID")⟩
  | _ => { key := key.text, cause }

/-- The headline and the description of the alerts that have a template. -/
def templateTexts : List (AlertKey × String × String) :=
  [(.connectivity, "Connection Error",
     "Unable to open connection. please verify the connection configuration"),
   (.numericIdMissing, "All status variables and equipment constants require a numericID",
     "No numericID is defined for variable \x7berror\x7d"),
   (.eventIdRequired, "Data variables (DV) require Collection Event (CEID)",
     "CEID required for variable \x7berror\x7d"),
   (.failedToGetData, "Failed to Get Variable Data",
     "Failed to get the data for variable \x7berror\x7d"),
   (.badStatusResponse, "Bad Status Variable Response",
     "A failed-transaction response was received to a status variable request"),
   (.badConstantResponse, "Bad Equipment Constant Response",
     "A failed-transaction response was received to an equipment constant request"),
   (.badAlarmReport, "Bad Alarm Report", "A bad alarm report was received"),
   (.noResponse, "No Response from Equipment",
     "No response was received from the equipment after a data request"),
   (.writeFailed, "Equipment Constant Write Failed", "Writing to an equipment constant failed"),
   (.databaseError, "Error Writing to Database",
     "An error occurred writing a variable value to the database. Error: \x7berror\x7d")]

/-- The templates for the alerts about a machine. -/
def templates (machine : String) : List AlertTemplate :=
  templateTexts.map fun (key, message, description) =>
    ⟨key.text, machine ++ ": " ++ message, description⟩

end AlertKey

end GemLink
