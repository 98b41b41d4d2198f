import GemLink.Conversion
import GemLink.Session.Basic

/-!
Questions of a session: sending requests and writes, and what follows when nothing is open. A write
that cannot be sent at once waits; as soon as nothing is open the first of those that wait is sent.
-/

namespace GemLink.Session

/-- Ends a stop: the connection is closed and nothing is armed. -/
def finishStop (s : Session) : Session :=
  if s.connection.opened then
    let s := { s with
      timers := {}
      state := .idle
      handshakeComplete := false
      connection := { s.connection with link := .disconnected, opened := false } }
    (s.emit (.close true)).emit .stopped
  else s

/-- The frame of a request. -/
def requestFrame (s : Session) (request : Request) (transactionId : UInt16) : Bytes :=
  let data (stream function : UInt8) (body : Item) : Bytes :=
    s.parties.request stream function transactionId body
  match request with
  | .select => s.parties.control SessionType.selectRequest transactionId
  | .establish => data 1 13 Body.establishRequest
  | .enableAlarms => data 5 3 Body.enableAlarms
  | .deleteReports => data 2 33 s.catalog.deleteReports
  | .defineReports => data 2 33 s.catalog.defineReports
  | .linkReports => data 2 35 s.catalog.linkReports
  | .enableEvents => data 2 37 s.catalog.enableEvents
  | .statusVariables => data 1 3 s.catalog.statusRequest
  | .equipmentConstants => data 2 13 s.catalog.constantRequest

/-- The frame of a write. -/
def writeFrame (s : Session) (w : PendingWrite) (transactionId : UInt16) : Bytes :=
  s.parties.request 2 15 transactionId (Body.constantWrite (constantIdItem w.constantId) w.value)

/-- Sends a write and waits for its acknowledgement. -/
def sendWrite (s : Session) (w : PendingWrite) (now : Nat) : Session :=
  let frame := s.writeFrame w s.nextTransaction
  let s := { s.advanceTransaction with state := .awaitingWrite }
  (s.arm .writeTimeout (now + writeTimeout)).send frame

/-- Goes on when nothing is open: a stop ends, the next write is sent, or the next poll is set. -/
def enterIdle (s : Session) (now : Nat) : Session :=
  let s := { s with state := .idle }
  if s.stopping then s.finishStop
  else
    match s.pendingWrites with
    | w :: rest => { s with pendingWrites := rest }.sendWrite w now
    | [] =>
      if s.handshakeComplete && !s.timers.isArmed .poll then
        s.arm .poll (now + s.settings.pollInterval)
      else s

/-- Sends a request and waits for its answer. A session that is being stopped sends none. -/
def sendRequest (s : Session) (request : Request) (now : Nat) : Session :=
  if s.stopping then s.enterIdle now
  else
    let transactionId := s.nextTransaction
    let frame := s.requestFrame request transactionId
    let s := { s.advanceTransaction with
      pollTransaction := if request.isPoll then transactionId else s.pollTransaction
      state := .awaitingReply request }
    ((s.cancel .establishFallback).arm .commTimeout (now + commTimeout)).send frame

/-- Begins to establish communication; until that is done there are no polls and no link tests. -/
def startHandshake (s : Session) (request : Request) (now : Nat) : Session :=
  let s := { s with handshakeComplete := false }
  ((s.cancel .poll).cancel .linkTest).sendRequest request now

/-- Takes note that the open request was answered. -/
def replied (s : Session) : Session :=
  let s := (s.cancel .commTimeout).cancel .establishFallback
  { s with retries := 0 }.clear .noResponse

/-- Takes note that communication is established. -/
def completeHandshake (s : Session) (now : Nat) : Session :=
  let s := { s with
    connection := { s.connection with attempts := 1 }
    handshakeComplete := true }
  let s := match s.settings.linkTestInterval with
    | some interval => s.arm .linkTest (now + interval)
    | none => s
  s.enterIdle now

/-- Polls the equipment constants after the status variables, if there are any. -/
def afterStatus (s : Session) (now : Nat) : Session :=
  if s.catalog.constants.isEmpty then s.enterIdle now else s.sendRequest .equipmentConstants now

/-- Polls, unless something is open; then the next poll is set when nothing is. -/
def poll (s : Session) (now : Nat) : Session :=
  if !s.handshakeComplete || !s.state.isIdle then s
  else if !s.catalog.status.isEmpty then s.sendRequest .statusVariables now
  else if !s.catalog.constants.isEmpty then s.sendRequest .equipmentConstants now
  else s.enterIdle now

/-- Sends a message that controls the link. -/
def sendControl (s : Session) (session : SessionType) : Session :=
  s.advanceTransaction.send (s.parties.control session s.nextTransaction)

/-- Ends the communication, to begin anew a little later. -/
def separate (s : Session) (now : Nat) : Session :=
  (s.sendControl SessionType.separateRequest).arm .restartHandshake (now + reestablishDelay)

/-- Tests the link and sets the next test. -/
def testLink (s : Session) (now : Nat) : Session :=
  match s.settings.linkTestInterval with
  | some interval => (s.sendControl SessionType.linkTestRequest).arm .linkTest (now + interval)
  | none => s

/-- Gives up waiting for the acknowledgement of a write. -/
def writeOverdue (s : Session) (now : Nat) : Session :=
  let s := s.raise .writeFailed none
  if s.state = .awaitingWrite then s.enterIdle now else s

end GemLink.Session
