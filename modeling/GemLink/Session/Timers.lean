/-!
The timers of a session, at most one of each kind, as deadlines in milliseconds.
-/

namespace GemLink

/-- The kinds of timers, in the order in which those with the same deadline expire. -/
inductive TimerKind where
  /-- The answer to a request is overdue. -/
  | commTimeout
  /-- The equipment has not established communication itself. -/
  | establishFallback
  /-- The next poll is due. -/
  | poll
  /-- The rest of a frame is overdue. -/
  | dataComplete
  /-- The acknowledgement of a write is overdue. -/
  | writeTimeout
  /-- The next attempt to connect is due. -/
  | reconnect
  /-- The communication is to be ended after an answer to the wrong question. -/
  | separateRequest
  /-- The communication is to begin anew. -/
  | restartHandshake
  /-- The next test of the link is due. -/
  | linkTest
  /-- The host is to hear that the machine is disconnected. -/
  | disconnectReport
  /-- A stop has waited long enough for an open question. -/
  | stopGrace
  deriving DecidableEq, Repr

/-- All kinds of timers, in order. -/
def TimerKind.all : List TimerKind :=
  [.commTimeout, .establishFallback, .poll, .dataComplete, .writeTimeout, .reconnect,
   .separateRequest, .restartHandshake, .linkTest, .disconnectReport, .stopGrace]

/-- The deadlines of the armed timers. -/
structure Timers where
  commTimeout : Option Nat := none
  establishFallback : Option Nat := none
  poll : Option Nat := none
  dataComplete : Option Nat := none
  writeTimeout : Option Nat := none
  reconnect : Option Nat := none
  separateRequest : Option Nat := none
  restartHandshake : Option Nat := none
  linkTest : Option Nat := none
  disconnectReport : Option Nat := none
  stopGrace : Option Nat := none
  deriving DecidableEq, Repr

/-- The last moment that the clock can tell: from its beginning it counts seconds up to 2 to the
power of 63, less one. -/
def lastMoment : Nat := 9223372036854775807 * 1000 + 999

namespace Timers

/-- The deadline of a timer, if it is armed. -/
def deadline? (t : Timers) : TimerKind → Option Nat
  | .commTimeout => t.commTimeout
  | .establishFallback => t.establishFallback
  | .poll => t.poll
  | .dataComplete => t.dataComplete
  | .writeTimeout => t.writeTimeout
  | .reconnect => t.reconnect
  | .separateRequest => t.separateRequest
  | .restartHandshake => t.restartHandshake
  | .linkTest => t.linkTest
  | .disconnectReport => t.disconnectReport
  | .stopGrace => t.stopGrace

/-- Sets or removes the deadline of a timer. -/
def set (t : Timers) (kind : TimerKind) (deadline : Option Nat) : Timers :=
  match kind with
  | .commTimeout => { t with commTimeout := deadline }
  | .establishFallback => { t with establishFallback := deadline }
  | .poll => { t with poll := deadline }
  | .dataComplete => { t with dataComplete := deadline }
  | .writeTimeout => { t with writeTimeout := deadline }
  | .reconnect => { t with reconnect := deadline }
  | .separateRequest => { t with separateRequest := deadline }
  | .restartHandshake => { t with restartHandshake := deadline }
  | .linkTest => { t with linkTest := deadline }
  | .disconnectReport => { t with disconnectReport := deadline }
  | .stopGrace => { t with stopGrace := deadline }

/-- Arms a timer, in the place of an earlier deadline. -/
def arm (t : Timers) (kind : TimerKind) (deadline : Nat) : Timers :=
  t.set kind (some deadline)

/-- Disarms a timer. -/
def cancel (t : Timers) (kind : TimerKind) : Timers :=
  t.set kind none

/-- Whether a timer is armed. -/
def isArmed (t : Timers) (kind : TimerKind) : Bool :=
  (t.deadline? kind).isSome

/-- Whether a timer is armed and its deadline has come. -/
def isDue (t : Timers) (now : Nat) (kind : TimerKind) : Bool :=
  match t.deadline? kind with
  | some deadline => deadline ≤ now
  | none => false

/-- The armed timers. -/
def armed (t : Timers) : List TimerKind :=
  TimerKind.all.filter t.isArmed

/-- The earliest deadline. -/
def next? (t : Timers) : Option Nat :=
  (TimerKind.all.filterMap t.deadline?).min?

/-- The timers whose deadline has come, the earliest first, those of one deadline in the order of
their kinds. -/
def expired (t : Timers) (now : Nat) : List TimerKind :=
  (TimerKind.all.filter (t.isDue now)).mergeSort fun a b =>
    (t.deadline? a).getD 0 ≤ (t.deadline? b).getD 0

/-- Whether all deadlines are moments that the clock can tell. -/
def isTellable (t : Timers) : Bool :=
  TimerKind.all.all fun kind => (t.deadline? kind).all fun deadline => deadline ≤ lastMoment

theorem deadline?_set (t : Timers) (kind other : TimerKind) (deadline : Option Nat) :
    (t.set kind deadline).deadline? other =
      if other = kind then deadline else t.deadline? other := by
  cases kind <;> cases other <;> rfl

end Timers

end GemLink
