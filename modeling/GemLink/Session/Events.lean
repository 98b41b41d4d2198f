import GemLink.Session.Link
import GemLink.Session.Replies
import GemLink.Session.Reports

/-!
What happens to a session: received data, expired timers, writes of the host, a stop, and news of
the connection. The intervals of a model can be so long that a deadline is beyond what the clock can
tell; then the program breaks down in the middle of an event (`Session.step?`).
-/

namespace GemLink.Session

/-- Handles a frame. -/
def handleFrame (now : Nat) (s : Session) (frame : Bytes) : Session :=
  let s := s.count .framesReceived 1
  match Inbound.read? frame with
  | none => s.count .framesUnprocessed 1
  | some m =>
    match s.unsolicited? m <|> s.reply? m now with
    | some s => s
    | none => if m.isLinkTestResponse then s else s.count .framesUnprocessed 1

/-- Adds received bytes to those that wait; bytes that do not fit are dropped. -/
def accept (s : Session) (received : Bytes) : Session :=
  match s.buffer.push? received with
  | some buffer => { s with buffer }
  | none => s.count .bytesDiscarded received.length

/-- Sets how long the front of a frame waits for the rest. -/
def awaitRest (s : Session) (now : Nat) : Session :=
  let s := s.cancel .dataComplete
  if s.buffer.bytes.isEmpty then s else s.arm .dataComplete (now + dataCompleteTimeout)

/-- Handles received bytes. -/
def receive (s : Session) (received : Bytes) (now : Nat) : Session :=
  let s := s.accept received
  let (frames, buffer) := s.buffer.drain
  (frames.foldl (handleFrame now) { s with buffer }).awaitRest now

/-- Does what a timer was set for. -/
def fire (s : Session) (kind : TimerKind) (now : Nat) : Session :=
  match kind with
  | .commTimeout => s.requestOverdue now
  | .establishFallback => s.sendRequest .establish now
  | .poll => s.poll now
  | .dataComplete => s.dropIncomplete
  | .writeTimeout => s.writeOverdue now
  | .reconnect => s.reconnect
  | .separateRequest => s.separate now
  | .restartHandshake => s.startHandshake .select now
  | .linkTest => s.testLink now
  | .disconnectReport => s.reportDisconnected
  | .stopGrace => s.finishStop

/-- Lets a timer expire, if it is still due. -/
def expire (now : Nat) (s : Session) (kind : TimerKind) : Session :=
  if s.timers.isDue now kind then (s.cancel kind).fire kind now else s

/-- Lets all timers expire that are due. -/
def tick (s : Session) (now : Nat) : Session :=
  (s.timers.expired now).foldl (expire now) s

/-- Writes a variable. Each check that is passed clears the alert of its failure, and so does no
other step; a write that passes all is sent or waits for its turn. -/
def write (s : Session) (name : String) (value : Value) (now : Nat) :
    Session × Except LinkError Unit :=
  match s.catalog.writable.get? name with
  | none => (s.raise (.notWritable name) none, .error (.notWritable name))
  | some v =>
    let s := s.clear (.notWritable name)
    if v.kind ≠ .equipmentConstant then
      (s.raise (.notEquipmentConstant name) none, .error (.notEquipmentConstant name))
    else
      let s := s.clear (.notEquipmentConstant name)
      match v.numericId with
      | none => (s.raise (.noNumericId name) none, .error (.missingNumericId name))
      | some constantId =>
        let s := s.clear (.noNumericId name)
        match v.write? value with
        | none => (s, .error (.invalidWriteValue v.name v.format))
        | some item =>
          if !s.isConnected then (s, .error .notConnected)
          else
            let w : PendingWrite := ⟨name, constantId, item⟩
            if s.state.isIdle then (s.sendWrite w now, .ok ())
            else ({ s with pendingWrites := s.pendingWrites ++ [w] }, .ok ())

/-- Begins to stop: nothing stays armed and no write waits any more; an open question is given some
time. -/
def beginStop (s : Session) (now : Nat) : Session :=
  if s.stopping then s
  else
    let s := { s with stopping := true, timers := {}, pendingWrites := [] }
    if s.isConnected && !s.state.isIdle then s.arm .stopGrace (now + stopGrace)
    else s.finishStop

end Session

/-- What can happen to a session. -/
inductive SessionEvent where
  /-- It is opened. -/
  | opened
  /-- An attempt to connect has succeeded. -/
  | connected
  /-- An attempt to connect has failed. -/
  | connectFailed
  /-- The connection has broken. -/
  | socketError
  /-- The equipment has closed the connection. -/
  | socketEnd
  /-- Bytes have been received. -/
  | data (received : Bytes)
  /-- The clock has been looked at. -/
  | timer
  /-- The host writes a variable. -/
  | write (name : String) (value : Value)
  /-- The host wants a stop. -/
  | stop

namespace Session

/-- The session after an event at the time `now`. Moments are numbers here, of any size; which of
them the clock can tell matters to `step?` only. -/
def step (s : Session) (now : Nat) : SessionEvent → Session
  | .opened => s.launch
  | .connected => s.connected now
  | .connectFailed => s.disconnect false now
  | .socketError => s.disconnect false now
  | .socketEnd => s.closedByEquipment now
  | .data received => s.receive received now
  | .timer => s.tick now
  | .write name value => (s.write name value now).1
  | .stop => s.beginStop now

/-! ## What the clock cannot tell -/

/-- The session, unless a timer has been armed for a moment that the clock cannot tell. The addition
that yields such a moment breaks the program down. -/
def tellable? (s : Session) : Option Session :=
  if s.timers.isTellable then some s else none

/-- Lets a timer expire, if it is still due and the program does not break down. No timer disarms
what it has armed, so a deadline that the clock cannot tell is still there. -/
def expire? (now : Nat) (s : Session) (kind : TimerKind) : Option Session :=
  (expire now s kind).tellable?

/-- Lets all timers expire that are due, if the program does not break down. -/
def tick? (s : Session) (now : Nat) : Option Session :=
  (s.timers.expired now).foldlM (expire? now) s

/-- The session after an event at the time `now`, if the program does not break down. -/
def step? (s : Session) (now : Nat) : SessionEvent → Option Session
  | .timer => s.tick? now
  | event => (s.step now event).tellable?

end Session

end GemLink
