import GemLink.Message.Basic

/-!
The communication state of a session: what it asks of the equipment and what it waits for. At most
one question is open at a time.
-/

namespace GemLink

/-- What a session asks of the equipment, writes aside. -/
inductive Request where
  /-- Opens the communication. -/
  | select
  /-- S1F13: establishes communication. -/
  | establish
  /-- S5F3: enables the alarms. -/
  | enableAlarms
  /-- S2F33: deletes the reports. -/
  | deleteReports
  /-- S2F33: defines the reports. -/
  | defineReports
  /-- S2F35: links the reports to the collection events. -/
  | linkReports
  /-- S2F37: enables the collection events. -/
  | enableEvents
  /-- S1F3: polls the status variables. -/
  | statusVariables
  /-- S2F13: polls the equipment constants. -/
  | equipmentConstants
  deriving DecidableEq, Repr

/-- The stream and function of a request; the request to open the communication has none. -/
def Request.streamFunction? : Request → Option (UInt8 × UInt8)
  | .select => none
  | .establish => some (1, 13)
  | .enableAlarms => some (5, 3)
  | .deleteReports => some (2, 33)
  | .defineReports => some (2, 33)
  | .linkReports => some (2, 35)
  | .enableEvents => some (2, 37)
  | .statusVariables => some (1, 3)
  | .equipmentConstants => some (2, 13)

/-- Whether a request polls values. -/
def Request.isPoll : Request → Bool
  | .statusVariables | .equipmentConstants => true
  | _ => false

/-- What a session waits for. -/
inductive CommState where
  /-- Nothing. -/
  | idle
  /-- The answer to a request. -/
  | awaitingReply (request : Request)
  /-- That the equipment establishes communication itself. -/
  | awaitingEquipment
  /-- The acknowledgement of a write. -/
  | awaitingWrite
  deriving DecidableEq, Repr

/-- The request that is sent when the wait lasts too long. -/
def CommState.retry? : CommState → Option Request
  | .awaitingReply request => some request
  | .awaitingEquipment => some .establish
  | .idle | .awaitingWrite => none

/-- Whether a session waits for nothing. -/
def CommState.isIdle (s : CommState) : Bool :=
  s == .idle

/-- With what a new connection begins; it alternates, since either party may be the one to begin. -/
inductive StartupStep where
  /-- With the request to open the communication. -/
  | select
  /-- With the request to establish it. -/
  | establish
  deriving DecidableEq, Repr

/-- The step for the connection after this one. -/
def StartupStep.toggled : StartupStep → StartupStep
  | .select => .establish
  | .establish => .select

/-- The request of a step. -/
def StartupStep.request : StartupStep → Request
  | .select => .select
  | .establish => .establish

end GemLink
