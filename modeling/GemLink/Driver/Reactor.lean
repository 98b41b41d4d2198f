import GemLink.Driver.Site

/-!
The reactor: it owns a session and its connection, takes the actions of the session one after the
other, and otherwise waits for the next thing to happen to it. A write is answered only after the
actions that it led to have been taken. A connection that fails while a frame is sent is let go of,
and the session appends its own actions to those that are still to be taken. A connection that takes
nothing holds the reactor up until the equipment reads again, or the connection ends: no command and
no timer is looked at before the frame has been sent. A deadline that the clock cannot tell, at which
the program breaks down (`Session.step?`), is left out: the reactor goes on with it.
-/

namespace GemLink

/-- What is asked of a reactor. -/
inductive Command where
  /-- To write a variable; the ticket tells whose answer it is. -/
  | write (ticket : Nat) (name : String) (value : Value)
  /-- To stop. -/
  | stop

/-- An attempt to connect. -/
inductive Attempt where
  /-- The equipment has not accepted it. -/
  | underway
  /-- The equipment has accepted it, which the reactor has yet to notice. -/
  | accepted (socket : Nat)
  deriving DecidableEq, Repr

/-- The connection that has come of an attempt. -/
def Attempt.socket? : Attempt → Option Nat
  | .underway => none
  | .accepted socket => some socket

/-- A reactor. -/
structure Reactor where
  /-- The session. -/
  session : Session
  /-- The name of the machine. -/
  machine : String
  /-- Where the connection status is stored. -/
  statusPath : String
  /-- The commands that wait. -/
  inbox : List Command := []
  /-- Whether no more commands will come. -/
  inboxClosed : Bool := false
  /-- Whether commands are still looked for. -/
  commandsOpen : Bool := true
  /-- The answers to be given once all actions have been taken. -/
  replies : List (Nat × Except LinkError Unit) := []
  /-- The connection. -/
  socket : Option Nat := none
  /-- The attempt to connect that is being made. -/
  attempt : Option Attempt := none

/-- A reactor that runs or has ended. -/
inductive ReactorTask where
  /-- The reactor runs. -/
  | running (reactor : Reactor)
  /-- The reactor has ended. -/
  | ended (outcome : Except LinkError Unit)

/-- What reactors act on. -/
structure Surroundings where
  /-- The clock, in milliseconds. -/
  now : Nat := 0
  /-- The host. -/
  host : Host := {}
  /-- The network. -/
  network : Network
  /-- What has been counted. -/
  counters : Counters := {}
  /-- The answers that have been given. -/
  answers : List (Nat × Except LinkError Unit) := []

namespace Surroundings

/-- Counts one. -/
def count (w : Surroundings) (counter : Counter) : Surroundings :=
  { w with counters := w.counters.add counter 1 }

/-- Calls the host. -/
def onHost (w : Surroundings) (call : Host → Host) : Surroundings :=
  { w with host := call w.host }

/-- Stores the connection status; a failure has no consequence. -/
def storeStatus (w : Surroundings) (path : String) (connected : Bool) : Surroundings :=
  w.onHost fun h => (h.store path connected).1

/-- Hands a value to the host. -/
def publish (w : Surroundings) (machine : String) (target : Variable) (value : Value)
    (reportErrors : Bool) : Surroundings :=
  let (host, result) := w.host.write machine target.name value
  let w := { w with host }
  match result with
  | .ok () =>
    let w := w.count .valuesPublished
    if reportErrors then w.onHost fun h => h.clear AlertKey.databaseError.text else w
  | .error fault =>
    let w := w.count .publishFailures
    if reportErrors then
      w.onHost fun h => h.raise (AlertKey.databaseError.alert machine (some fault.message))
    else w

/-- Lets go of a connection. -/
def hangUp (w : Surroundings) : Option Nat → Surroundings
  | some socket => { w with network := w.network.hangUp socket }
  | none => w

/-- Adds what a session has counted. -/
def tally (w : Surroundings) (s : Session) : Surroundings :=
  { w with counters := w.counters.plus s.counters }

end Surroundings

/-- What can happen to a reactor that waits. -/
inductive ReactorEvent where
  /-- A command is there, or no more will come. -/
  | command
  /-- The equipment accepts an attempt to connect. -/
  | acceptance
  /-- The attempt has succeeded. -/
  | connection
  /-- The attempt has failed, or takes too long. -/
  | refusal
  /-- There is something to be read: bytes, the end of the connection, or its breakdown. -/
  | reading
  /-- A timer has expired. -/
  | timer

/-- Giving a connection up adds three actions at most. -/
theorem Session.length_outbox_disconnect (s : Session) (graceful : Bool) (now : Nat) :
    (s.disconnect graceful now).outbox.length ≤ s.outbox.length + 3 := by
  unfold Session.disconnect
  split
  · omega
  · split
    · unfold Session.finishStop
      split <;> simp [Session.emit]
    · unfold Session.noteDisconnected
      dsimp only
      split <;> simp [Session.emit, Session.arm, Session.raise, Session.resetExchange,
        Session.count]

namespace Reactor

/-- Lets go of the connection, and of the attempt to get one. -/
def release (w : Surroundings) (r : Reactor) : Surroundings × Reactor :=
  ((w.hangUp r.socket).hangUp (r.attempt.bind Attempt.socket?),
    { r with socket := none, attempt := none })

/-- Ends a reactor. -/
def finish (w : Surroundings) (r : Reactor) (outcome : Except LinkError Unit) :
    Surroundings × ReactorTask :=
  ((r.release w).1, .ended outcome)

/-- Takes an action. -/
def act (w : Surroundings) (r : Reactor) : Action → Surroundings × ReactorTask
  | .connect =>
    let (w, r) := r.release w
    (w, .running { r with attempt := some .underway })
  | .send frame =>
    match r.socket with
    | none => (w, .running r)
    | some socket =>
      match w.network.send? socket frame with
      | some network => ({ w with network }.count .framesSent, .running r)
      | none =>
        (w.hangUp (some socket),
          .running { r with socket := none, session := r.session.disconnect false w.now })
  | .close _ =>
    let (w, r) := r.release w
    (w, .running r)
  | .publish target value reportErrors =>
    (w.publish r.machine target value reportErrors, .running r)
  | .raise key cause => (w.onHost fun h => h.raise (key.alert r.machine cause), .running r)
  | .clear key => (w.onHost fun h => h.clear key.text, .running r)
  | .status connected => (w.storeStatus r.statusPath connected, .running r)
  | .stopped => r.finish w (.ok ())
  | .terminate failures => r.finish w (.error (.reconnectExhausted failures))

/-- Whether a reactor is held up: it has a frame to send over a connection that takes nothing. -/
def isHeldUp (w : Surroundings) (r : Reactor) : Bool :=
  match r.session.outbox, r.socket with
  | .send _ :: _, some socket => w.network.isStalled socket
  | _, _ => false

/-- Takes the first of the actions that are to be taken, if there is one and the reactor is not held
up. -/
def take? (w : Surroundings) (r : Reactor) : Option (Surroundings × ReactorTask) :=
  if r.isHeldUp w then none
  else
    match r.session.outbox with
    | [] => none
    | a :: rest =>
      let session := { r.session with outbox := rest, counters := {} }
      some ({ r with session }.act (w.tally r.session) a)

/-- The first of the actions that are to be taken is the one that is taken. -/
theorem take?_eq_some {w w' : Surroundings} {r : Reactor} {after : ReactorTask}
    (h : r.take? w = some (w', after)) :
    ∃ a rest, r.session.outbox = a :: rest ∧
      ({ r with session := { r.session with outbox := rest, counters := {} } } : Reactor).act
        (w.tally r.session) a = (w', after) := by
  unfold take? at h
  split at h
  · cases h
  · split at h
    · cases h
    · next a rest ho => exact ⟨a, rest, ho, Option.some.inj h⟩

/-- Gives the answers that are to be given. -/
def answer (w : Surroundings) (r : Reactor) : Surroundings × ReactorTask :=
  ({ w.tally r.session with answers := w.answers ++ r.replies },
    .running { r with replies := [], session := { r.session with counters := {} } })

/-- A bound on the number of actions that a reactor takes before it waits: those that are to be
taken, and those that the failure of its connection adds to them, which can happen once. -/
def load (r : Reactor) : Nat :=
  r.session.outbox.length + if r.socket.isSome then 3 else 0

theorem load_act (w : Surroundings) (r : Reactor) (a : Action) {w' : Surroundings}
    {r' : Reactor} (h : r.act w a = (w', .running r')) : r'.load ≤ r.load := by
  cases a with
  | send frame =>
    unfold act at h
    cases hs : r.socket with
    | none =>
      rw [hs] at h
      cases h
      exact Nat.le_refl _
    | some socket =>
      simp only [hs] at h
      split at h
      · cases h
        exact Nat.le_refl _
      · cases h
        have hlength := r.session.length_outbox_disconnect false w.now
        simp only [load, hs, Option.isSome_some, Option.isSome_none, if_true, Bool.false_eq_true,
          if_false]
        omega
  | connect | close _ =>
    cases h
    simp only [load, Option.isSome_none, Bool.false_eq_true, if_false]
    omega
  | stopped | terminate _ => cases h
  | publish _ _ _ | raise _ _ | clear _ | status _ =>
    cases h
    exact Nat.le_refl _

theorem load_take? {w w' : Surroundings} {r r' : Reactor}
    (h : r.take? w = some (w', .running r')) : r'.load < r.load := by
  obtain ⟨a, rest, hout, hact⟩ := take?_eq_some h
  have hle := load_act _ _ a hact
  simp only [load, hout, List.length_cons] at hle ⊢
  omega

/-- Takes all actions of the session and then gives the answers, unless the reactor is held up. -/
def flush (w : Surroundings) (r : Reactor) : Surroundings × ReactorTask :=
  match h : r.take? w with
  | none => if r.isHeldUp w then (w, .running r) else r.answer w
  | some (w, .ended outcome) => (w, .ended outcome)
  | some (w, .running r) => flush w r
termination_by r.load
decreasing_by exact load_take? h

/-- Handles a command. -/
def command (r : Reactor) (now : Nat) : Command → Reactor
  | .write ticket name value =>
    let (session, result) := r.session.write name value now
    { r with session, replies := r.replies ++ [(ticket, result)] }
  | .stop => { r with session := r.session.beginStop now }

/-- Reads from the connection, if there is something to be read. -/
def read? (w : Surroundings) (r : Reactor) (socket : Nat) : Option (Surroundings × Reactor) :=
  match w.network.sockets[socket]? with
  | none => none
  | some k =>
    if !k.unread.isEmpty then
      let sockets := w.network.sockets.modify socket fun k =>
        { k with unread := k.unread.drop readChunk }
      some ({ w with network := { w.network with sockets } },
        { r with session := r.session.receive (k.unread.take readChunk) w.now })
    else if k.broken then
      some (w.hangUp (some socket),
        { r with socket := none, session := r.session.disconnect false w.now })
    else if !k.equipmentOpen then
      some (w.hangUp (some socket),
        { r with socket := none, session := r.session.closedByEquipment w.now })
    else none

/-- Lets something happen to a reactor, if it can. -/
def handle (w : Surroundings) (r : Reactor) : ReactorEvent → Option (Surroundings × Reactor)
  | .command =>
    match r.commandsOpen, r.inbox, r.inboxClosed with
    | true, c :: rest, _ => some (w, { r with inbox := rest }.command w.now c)
    | true, [], true =>
      some (w, { r with commandsOpen := false, session := r.session.beginStop w.now })
    | _, _, _ => none
  | .acceptance =>
    match r.attempt with
    | some .underway =>
      w.network.accept?.map fun (network, socket) =>
        ({ w with network }, { r with attempt := some (.accepted socket) })
    | _ => none
  | .connection =>
    match r.attempt with
    | some (.accepted socket) =>
      some (w.hangUp r.socket,
        { r with
          attempt := none, socket := some socket, session := r.session.connected w.now })
    | _ => none
  | .refusal =>
    r.attempt.map fun attempt =>
      (w.hangUp attempt.socket?,
        { r with attempt := none, session := r.session.disconnect false w.now })
  | .reading => r.socket.bind (read? w r)
  | .timer =>
    match r.session.timers.next? with
    | some deadline =>
      if deadline ≤ w.now then some (w, { r with session := r.session.tick w.now }) else none
    | none => none

/-- Lets the next thing happen that can happen now to a reactor that is not held up: a command, the
success or failure of an attempt to connect, something to be read, or an expired timer. -/
def next? (w : Surroundings) (r : Reactor) : Option (Surroundings × Reactor) :=
  if r.isHeldUp w then none
  else [.command, .acceptance, .connection, .refusal, .reading, .timer].findSome? (handle w r)

/-- Lets everything happen that can happen now, in at most `fuel` steps. -/
def settle : Nat → Surroundings → Reactor → Surroundings × ReactorTask
  | 0, w, r => flush w r
  | fuel + 1, w, r =>
    match flush w r with
    | (w, .ended outcome) => (w, .ended outcome)
    | (w, .running r) =>
      match next? w r with
      | some (w, r) => settle fuel w r
      | none => (w, .running r)

end Reactor

end GemLink
