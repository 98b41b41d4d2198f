import GemLink.Alerts
import GemLink.Catalog
import GemLink.Session.Alarms
import GemLink.Session.State
import GemLink.Session.Timers
import GemLink.Telemetry

/-!
A session: all that the driver remembers about its talk with the equipment. A session does nothing
itself; it appends the actions that are to be taken to its outbox, in order.
-/

namespace GemLink

/-- Milliseconds after which the answer to a request is overdue. -/
def commTimeout : Nat := 2000
/-- Milliseconds for which the equipment may establish communication itself. -/
def establishFallback : Nat := 500
/-- Milliseconds for which the front of a frame waits for the rest. -/
def dataCompleteTimeout : Nat := 500
/-- Milliseconds after which the acknowledgement of a write is overdue. -/
def writeTimeout : Nat := 2000
/-- Milliseconds from a wrong answer to the end of the communication, and from there to its new
beginning. -/
def reestablishDelay : Nat := 2000
/-- Milliseconds for which a stop waits for an open question. -/
def stopGrace : Nat := 2000
/-- Milliseconds from the loss of a connection to the next attempt. -/
def reconnectDelay : Nat := 5000
/-- How often an unanswered request is sent again. -/
def maxRequestRetries : Nat := 3
/-- How many attempts to connect may follow each other without success. -/
def maxReconnectAttempts : Nat := 3
/-- The least number of milliseconds between polls. -/
def minPollInterval : Nat := 100

/-- The intervals of a session, in milliseconds. They can lead to deadlines that the clock cannot
tell. -/
structure SessionSettings where
  /-- Between polls. -/
  pollInterval : Nat
  /-- Between tests of the link, if it is tested. -/
  linkTestInterval : Option Nat
  /-- From the loss of the connection to its report. -/
  disconnectDelay : Nat
  deriving DecidableEq, Repr

/-- The intervals that a model asks for. -/
def SessionSettings.ofModel (m : Model) : SessionSettings where
  pollInterval := max (m.requestFrequency.toNat * 1000) minPollInterval
  linkTestInterval :=
    if m.linkTestEnabled then some (max m.linkTestFrequency.toNat 1 * 1000) else none
  disconnectDelay := (m.disconnectReportTime.getD 0).toNat * 1000

/-- What is to be done for a session. -/
inductive Action where
  /-- A new connection is opened in the place of any old one. -/
  | connect
  /-- A frame is sent. -/
  | send (frame : Bytes)
  /-- The connection is closed, with a last word to the equipment if `graceful`. -/
  | close (graceful : Bool)
  /-- A value is handed to the host; its failure is an alert if `reportErrors`. -/
  | publish (target : Variable) (value : Value) (reportErrors : Bool)
  /-- An alert is raised, with its cause. -/
  | raise (key : AlertKey) (cause : Option String)
  /-- An alert is cleared. -/
  | clear (key : AlertKey)
  /-- The connection status is stored. -/
  | status (connected : Bool)
  /-- The session has been stopped. -/
  | stopped
  /-- The session has failed to connect too often. -/
  | terminate (failures : Nat)

/-- Where the connection to the equipment stands. -/
inductive LinkState where
  | disconnected
  | connecting
  | connected
  deriving DecidableEq, Repr

/-- The connection of a session. -/
structure Connection where
  /-- Where it stands. -/
  link : LinkState := .disconnected
  /-- Whether the session has been opened and has neither been stopped nor failed. -/
  opened : Bool := false
  /-- One more than the number of attempts to connect again since communication was established. -/
  attempts : Nat := 1
  /-- With what the next connection begins. -/
  startup : StartupStep := .select
  /-- Whether the host has heard that the machine is connected and not yet the contrary. -/
  reported : Bool := false
  deriving DecidableEq, Repr

/-- A write that waits for its turn. -/
structure PendingWrite where
  /-- The variable. -/
  name : String
  /-- The equipment constant. -/
  constantId : UInt32
  /-- The item that carries the value. -/
  value : Item

/-- A session. -/
structure Session where
  /-- The name of the machine. -/
  machine : String
  /-- The intervals. -/
  settings : SessionSettings
  /-- The variables. -/
  catalog : Catalog
  /-- The identifiers of the two parties. -/
  parties : Parties
  /-- The bytes that wait to become frames. -/
  buffer : FrameBuffer
  /-- What the session waits for. -/
  state : CommState := .idle
  /-- The deadlines. -/
  timers : Timers := {}
  /-- The connection. -/
  connection : Connection := {}
  /-- The active alarms. -/
  alarms : ActiveAlarms := {}
  /-- The identifier of the next transaction. -/
  nextTransaction : UInt16 := 0
  /-- The identifier that the answer to the last poll must have. -/
  pollTransaction : UInt16 := 0
  /-- How often the open request has been overdue. -/
  retries : Nat := 0
  /-- Whether communication is established. -/
  handshakeComplete : Bool := false
  /-- The writes that wait for their turn. -/
  pendingWrites : List PendingWrite := []
  /-- Whether the session is being stopped. -/
  stopping : Bool := false
  /-- The actions to be taken, in order. -/
  outbox : List Action := []
  /-- What has been counted. -/
  counters : Counters := {}

namespace Session

/-- A session that has not been opened. -/
def ofCatalog (machine : String) (model : Model) (catalog : Catalog) : Session where
  machine
  settings := SessionSettings.ofModel model
  catalog
  parties := ⟨model.equipmentDeviceId, model.hostDeviceId⟩
  buffer := { capacity := catalog.receiveSize }

/-- Whether there is a connection. -/
def isConnected (s : Session) : Bool :=
  s.connection.link == .connected

/-- The session after its actions have been taken. -/
def flushed (s : Session) : Session :=
  { s with outbox := [], counters := {} }

/-- Appends an action. -/
def emit (s : Session) (a : Action) : Session :=
  { s with outbox := s.outbox ++ [a] }

/-- Sends a frame. -/
def send (s : Session) (frame : Bytes) : Session :=
  s.emit (.send frame)

/-- Raises an alert. -/
def raise (s : Session) (key : AlertKey) (cause : Option String) : Session :=
  s.emit (.raise key cause)

/-- Clears an alert. -/
def clear (s : Session) (key : AlertKey) : Session :=
  s.emit (.clear key)

/-- Counts. -/
def count (s : Session) (counter : Counter) (n : Nat) : Session :=
  { s with counters := s.counters.add counter n }

/-- Arms a timer. -/
def arm (s : Session) (kind : TimerKind) (deadline : Nat) : Session :=
  { s with timers := s.timers.arm kind deadline }

/-- Disarms a timer. -/
def cancel (s : Session) (kind : TimerKind) : Session :=
  { s with timers := s.timers.cancel kind }

/-- Uses up the identifier of a transaction; the identifiers return to zero after the last one. -/
def advanceTransaction (s : Session) : Session :=
  { s with nextTransaction := s.nextTransaction + 1 }

/-- Hands one value to several variables. -/
def publishAll (s : Session) (targets : List Variable) (value : Value) (reportErrors : Bool) :
    Session :=
  targets.foldl (fun s target => s.emit (.publish target value reportErrors)) s

/-- Tells the host whether the machine is connected. -/
def publishConnected (s : Session) (connected : Bool) : Session :=
  s.publishAll s.catalog.connected (.flag connected) false

/-- Tells the host which alarms are active. -/
def publishAlarms (s : Session) : Session :=
  (s.publishAll s.catalog.alarmCodes s.alarms.codesValue true).publishAll
    s.catalog.alarmTexts s.alarms.textsValue true

end Session

end GemLink
