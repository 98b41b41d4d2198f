import GemLink.Session.Exchange

/-!
The connection of a session: opening it, its success and failure, and the attempts to get it back.
The host hears at once that the machine is connected, and that it is not only after a delay.
-/

namespace GemLink.Session

/-- Attempts to connect. -/
def connect (s : Session) : Session :=
  let s := { s with
    nextTransaction := 0
    connection := { s.connection with link := .connecting } }
  s.emit .connect

/-- Opens a session. -/
def launch (s : Session) : Session :=
  let s := { s with
    connection := { opened := true }
    stopping := false
    alarms := {} }
  s.publishAlarms.connect

/-- Tells the host that the machine is connected, unless it has heard so. -/
def noteConnected (s : Session) : Session :=
  let s := s.cancel .disconnectReport
  if s.connection.reported then s
  else { s with connection := { s.connection with reported := true } }.publishConnected true

/-- Sets the report that the machine is disconnected, unless it is set. -/
def noteDisconnected (s : Session) (now : Nat) : Session :=
  if s.timers.isArmed .disconnectReport then s
  else s.arm .disconnectReport (now + s.settings.disconnectDelay)

/-- Goes on when the connection is there. -/
def connected (s : Session) (now : Nat) : Session :=
  if !s.connection.opened || s.stopping then s
  else
    let s := { s with connection := { s.connection with link := .connected } }
    let s := (s.clear .connectivity).noteConnected.emit (.status true)
    let step := s.connection.startup
    { s with connection := { s.connection with startup := step.toggled } }.startHandshake
      step.request now

/-- Forgets the talk of a connection that is lost. -/
def resetExchange (s : Session) : Session :=
  let waiting := s.buffer.bytes.length
  { s with
    state := .idle
    handshakeComplete := false
    pendingWrites := []
    buffer := s.buffer.clear }.count .bytesDiscarded waiting

/-- Gives a connection up and sets the next attempt. Of the timers only the report that the machine
is disconnected stays as it is. -/
def disconnect (s : Session) (graceful : Bool) (now : Nat) : Session :=
  if !s.connection.opened then s
  else if s.stopping then s.finishStop
  else
    let s := s.resetExchange
    let s := { s with
      timers := { disconnectReport := s.timers.disconnectReport }
      connection := { s.connection with link := .disconnected } }
    let s := (s.emit (.close graceful)).raise .connectivity none
    let s := (s.noteDisconnected now).emit (.status false)
    s.arm .reconnect (now + reconnectDelay)

/-- Goes on when the equipment has closed the connection; the next one begins from the start. -/
def closedByEquipment (s : Session) (now : Nat) : Session :=
  if s.stopping then s.finishStop
  else { s with connection := { s.connection with startup := .select } }.disconnect false now

/-- Attempts to connect again, or gives up after too many attempts. -/
def reconnect (s : Session) : Session :=
  let s := { s with connection := { s.connection with attempts := s.connection.attempts + 1 } }
  let s := s.count .reconnectAttempts 1
  if maxReconnectAttempts < s.connection.attempts then
    let s := { s with
      timers := {}
      connection := { s.connection with link := .disconnected, opened := false } }
    s.emit (.terminate (s.connection.attempts - 1))
  else s.connect

/-- Tells the host that the machine is disconnected. -/
def reportDisconnected (s : Session) : Session :=
  { s with connection := { s.connection with reported := false } }.publishConnected false

/-- Sends an overdue request again, or gives the connection up after too many times. -/
def requestOverdue (s : Session) (now : Nat) : Session :=
  let s := (s.count .requestTimeouts 1).raise .noResponse none
  let s := { s with retries := s.retries + 1 }
  if maxRequestRetries < s.retries then { s with retries := 0 }.disconnect true now
  else
    match s.state.retry? with
    | some request => s.sendRequest request now
    | none => s.enterIdle now

/-- Drops the front of a frame whose rest is overdue. -/
def dropIncomplete (s : Session) : Session :=
  let waiting := s.buffer.bytes.length
  { s with buffer := s.buffer.clear }.count .bytesDiscarded waiting

end GemLink.Session
